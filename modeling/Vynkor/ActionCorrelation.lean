import Vynkor.KernelRequests
import Vynkor.ReassemblyInvariant
import Vynkor.ReceiveCancellation
import Vynkor.Library.Tickets

/-! `send_action` over whole runs of a process: which envelope decides a call, what
it leaves unread, and that the ids drawn tell all calls apart. -/
namespace Vynkor.KernelRequests
open Octets (Bytes)
open Text Framing Reassembly Labelled

inductive Decides (actionId : Str) : Envelope → Except Error Reply → Prop where
  | response {r : ActionResponse} (own : r.actionId = actionId) : Decides actionId ⟨some (.actionResponse r)⟩ (.ok (.response r))
  | aborted {reason} : Decides actionId ⟨some (.actionStreamAbort actionId reason)⟩ (.error (streamAborted reason))
  | kernelError {message details} : Decides actionId ⟨some (.error message details)⟩ (.error (kernelError message details))

def Item.Unrelated (actionId : Str) (item : Item) : Prop :=
  ∃ envelope, item.received = .ok envelope ∧ ¬ ∃ outcome, Decides actionId envelope outcome

def Foreign (actionId : Str) (deadline : Time) (r : Reading) : Prop :=
  r.now < deadline ∧ r.item.Unrelated actionId

/- How `send_action` ends, from what it read: the first envelope that decides it, or
a `recv` that raised; otherwise only the deadline or a cancellation ends it. -/
inductive ActionEnds (actionId : Str) (deadline : Time) : List Reading → Time → Except Error Reply → Prop where
  | decided {before now item envelope outcome} (foreign : ∀ r ∈ before, Foreign actionId deadline r) (inTime : now < deadline)
      (received : item.received = .ok envelope) (decides : Decides actionId envelope outcome) :
      ActionEnds actionId deadline (before ++ [⟨now, item⟩]) now outcome
  | raised {before now item e} (foreign : ∀ r ∈ before, Foreign actionId deadline r) (inTime : now < deadline)
      (received : item.received = .error e) : ActionEnds actionId deadline (before ++ [⟨now, item⟩]) now (.error e)
  | late {read now} (foreign : ∀ r ∈ read, Foreign actionId deadline r) (tooLate : deadline ≤ now) :
      ActionEnds actionId deadline read now (.error .timeout)
  | cancelled {read now} (foreign : ∀ r ∈ read, Foreign actionId deadline r) :
      ActionEnds actionId deadline read now (.error .cancelled)

theorem decidesAccepts {actionId : Str} {envelope : Envelope} {outcome : Except Error Reply}
    (decides : Decides actionId envelope outcome) : (Awaited.actionResponse actionId).accepts envelope = true := by
  cases decides with
  | response own => exact decide_eq_true own
  | aborted => exact decide_eq_true rfl
  | kernelError => rfl

theorem acceptsDecides {actionId : Str} {envelope : Envelope} (now : Time) :
    (Awaited.actionResponse actionId).accepts envelope = true ↔
      Decides actionId envelope ((Awaited.actionResponse actionId).conclude now envelope) := by
  obtain ⟨payload⟩ := envelope
  constructor
  · intro taken
    simp only [Awaited.accepts] at taken
    split at taken
    · exact .response (of_decide_eq_true taken)
    · cases of_decide_eq_true taken
      exact .aborted
    · exact .kernelError
    · contradiction
  · intro decides
    generalize (Awaited.actionResponse actionId).conclude now ⟨payload⟩ = outcome at decides
    exact decidesAccepts decides

theorem passesForeign {actionId : Str} {w : Wait} {deadline : Time} {r : Reading}
    (awaited : w.awaited = .actionResponse actionId) (due : w.deadline = some deadline) (passes : Passes w r) :
    Foreign actionId deadline r := by
  obtain ⟨inTime, envelope, received, foreign⟩ := passes
  refine ⟨(inTimeAt due).mp inTime, envelope, received, ?_⟩
  rintro ⟨outcome, decides⟩
  rw [awaited, decidesAccepts decides] at foreign
  contradiction

theorem actionEnds {actionId : Str} {w : Wait} {deadline now : Time} {outcome : Except Error Reply}
    (awaited : w.awaited = .actionResponse actionId) (due : w.deadline = some deadline) (ends : Ends w now outcome) :
    ActionEnds actionId deadline w.read now outcome := by
  have foreign {read : List Reading} (passed : ∀ r ∈ read, Passes w r) : ∀ r ∈ read, Foreign actionId deadline r :=
    fun r member => passesForeign awaited due (passed r member)
  cases ends with
  | answered read passed inTime received taken =>
    rw [awaited] at taken
    rw [read, awaited]
    exact .decided (foreign passed) ((inTimeAt due).mp inTime) received ((acceptsDecides now).mp taken)
  | failed read passed inTime raised =>
    rw [read]
    exact .raised (foreign passed) ((inTimeAt due).mp inTime) raised
  | late passed tooLate =>
    rw [inTimeAt due, not_lt] at tooLate
    exact .late (foreign passed) tooLate
  | cancelled passed => exact .cancelled (foreign passed)

def Happening.arrival : Happening → Option Item
  | .arrived item => some item
  | _ => none

def Happening.reads : Happening → List Item
  | .settled w _ _ => w.read.map Reading.item
  | _ => []

def arrivals (events : List Happening) : List Item := events.filterMap Happening.arrival

def taken (events : List Happening) : List Item := events.flatMap Happening.reads

def Doing.reads : Doing → List Item
  | .looking w | .receiving w => w.read.map Reading.item
  | _ => []

def Balanced (events : List Happening) (c : Caller) : Prop :=
  arrivals events = taken events ++ c.doing.reads ++ c.unread

theorem drewReads (request : Request) (actionId : Str) :
    arrivals (drewOf request actionId) = [] ∧ taken (drewOf request actionId) = [] := by
  unfold drewOf
  split <;> exact ⟨rfl, rfl⟩

theorem movesReads {c t : Caller} {label : Nat × Act} {happened : List Happening} (whole : Between c label)
    (move : Moves c label happened t) :
    taken happened ++ t.doing.reads ++ t.unread = c.doing.reads ++ c.unread ++ arrivals happened := by
  cases move with
  | torn _ ends => rcases ends with ⟨rfl, -⟩ | ⟨rfl, -⟩ <;> cases whole
  | arrived item => simp [taken, arrivals, Happening.reads, Happening.arrival]
  | @refused seq request millis now e idle =>
    obtain ⟨noArrival, noReading⟩ := drewReads request (nextActionId seq millis)
    simp only [arrivals, taken] at noArrival noReading
    simp [taken, arrivals, Happening.reads, Happening.arrival, noArrival, noReading]
  | @opened seq request millis now idle =>
    obtain ⟨noArrival, noReading⟩ := drewReads request (nextActionId seq millis)
    simp [idle, Doing.reads, noArrival, noReading]
  | @wrote seq request millis now envelope idle =>
    obtain ⟨noArrival, noReading⟩ := drewReads request (nextActionId seq millis)
    simp only [arrivals, taken] at noArrival noReading
    simp [idle, taken, arrivals, Doing.reads, Happening.reads, Happening.arrival, noArrival, noReading]
  | unsent sending _ | returned sending =>
    simp [sending, taken, arrivals, Doing.reads, Happening.reads, Happening.arrival]
  | waits sending fresh => rcases fresh with rfl | rfl <;> simp [sending, taken, arrivals, Doing.reads]
  | enters looking => simp [looking, taken, arrivals, Doing.reads]
  | late waiting _ _ =>
    rcases waiting with here | here <;>
      simp [here, taken, arrivals, Doing.reads, Happening.reads, Happening.arrival]
  | cancelled receiving => simp [receiving, taken, arrivals, Doing.reads, Happening.reads, Happening.arrival]
  | failed receiving unread _ _ | answered receiving unread _ _ _ =>
    simp [receiving, unread, Caller.take, Wait.reads, taken, arrivals, Doing.reads, Happening.reads, Happening.arrival]
  | passed receiving unread _ _ _ =>
    simp [receiving, unread, Caller.take, Wait.reads, taken, arrivals, Doing.reads]

def Awaited.ownId : Awaited → Option Str
  | .actionResponse actionId => some actionId
  | _ => none

def Happening.drawn : Happening → Option Str
  | .drew actionId => some actionId
  | _ => none

def Happening.settledId : Happening → Option Str
  | .settled w _ _ => w.awaited.ownId
  | _ => none

def Happening.returnedId : Happening → Option Str
  | .settled _ _ (.ok (.response r)) => some r.actionId
  | _ => none

def Doing.openId : Doing → Option Str
  | .sending _ awaited _ => awaited.ownId
  | .looking w | .receiving w => w.awaited.ownId
  | .idle => none

def drawnIds (events : List Happening) : List Str := events.filterMap Happening.drawn
def settledIds (events : List Happening) : List Str := events.filterMap Happening.settledId

section Ids
variable {c t : Caller} {label : Nat × Act} {happened : List Happening}

theorem filterMapOne {α β : Type} (f : α → Option β) (a : α) : [a].filterMap f = (f a).toList := by
  cases made : f a with
  | none => exact List.filterMap_cons_none made
  | some b => exact List.filterMap_cons_some made

theorem settledIdsOne (h : Happening) : settledIds [h] = h.settledId.toList := filterMapOne ..

theorem settledIdsSnoc (events : List Happening) (h : Happening) :
    settledIds (events ++ [h]) = settledIds events ++ h.settledId.toList := by
  simp only [settledIds, List.filterMap_append, filterMapOne]

theorem drawnIdsSnoc (events : List Happening) (h : Happening) :
    drawnIds (events ++ [h]) = drawnIds events ++ h.drawn.toList := by
  simp only [drawnIds, List.filterMap_append, filterMapOne]

theorem drewDraws (request : Request) (actionId : Str) :
    settledIds (drewOf request actionId) = [] ∧
      drawnIds (drewOf request actionId) = if request.drawsId then [actionId] else [] := by
  unfold drewOf
  split <;> exact ⟨rfl, rfl⟩

theorem awaitsOwnId (c : Caller) (actionId : Str) (millis : Int) (now : Time) (request : Request) :
    (c.awaits actionId millis now request).ownId.toList.Sublist (if request.drawsId then [actionId] else []) := by
  cases request <;> simp [Caller.awaits, Awaited.ownId, Request.drawsId]

theorem movesIds (move : Moves c label happened t) :
    (settledIds happened ++ t.doing.openId.toList).Sublist (c.doing.openId.toList ++ drawnIds happened) := by
  cases move with
  | arrived item => simp [settledIdsOne, Happening.settledId]
  | @refused seq request millis now e idle =>
    simp [settledIdsSnoc, (drewDraws request (nextActionId seq millis)).1, idle, Happening.settledId, Doing.openId]
  | @opened seq request millis now idle =>
    rw [(drewDraws request (nextActionId seq millis)).1, (drewDraws request (nextActionId seq millis)).2, idle]
    exact awaitsOwnId ..
  | @wrote seq request millis now envelope idle =>
    rw [settledIdsSnoc, drawnIdsSnoc, (drewDraws request (nextActionId seq millis)).1,
      (drewDraws request (nextActionId seq millis)).2, idle]
    simpa [Doing.openId, Happening.settledId, Happening.drawn] using awaitsOwnId c (nextActionId seq millis) millis now request
  | unsent sending _ | returned sending => simp [settledIdsOne, Happening.settledId, Doing.openId]
  | waits sending fresh => rcases fresh with rfl | rfl <;> simp [sending, Doing.openId, settledIds]
  | enters looking => simp [looking, Doing.openId, settledIds]
  | late waiting _ _ =>
    rcases waiting with here | here <;> simp [here, settledIdsOne, Happening.settledId, Doing.openId]
  | cancelled receiving | torn receiving _ => simp [receiving, settledIdsOne, Happening.settledId, Doing.openId]
  | failed receiving _ _ _ | answered receiving _ _ _ _ =>
    simp [receiving, settledIdsOne, Happening.settledId, Doing.openId, Caller.take, Wait.reads]
  | passed receiving _ _ _ _ => simp [receiving, Caller.take, Wait.reads, Doing.openId, settledIds]

theorem movesDraws (move : Moves c label happened t) :
    (label.2.drawsId = false ∧ drawnIds happened = []) ∨
      (label.2.drawsId = true ∧ ∃ millis, drawnIds happened = [nextActionId label.1 millis]) := by
  have begins {request : Request} (millis : Int) {drawn : List Str}
      (same : drawn = if request.drawsId then [nextActionId label.1 millis] else []) :
      (request.drawsId = false ∧ drawn = []) ∨ (request.drawsId = true ∧ ∃ m, drawn = [nextActionId label.1 m]) := by
    cases draws : request.drawsId with
    | false => exact .inl ⟨rfl, by simpa [draws] using same⟩
    | true => exact .inr ⟨rfl, millis, by simpa [draws] using same⟩
  cases move with
  | @refused seq request millis now e idle =>
    have drawn := (drewDraws request (nextActionId seq millis)).2
    exact begins millis (by simp [drawnIdsSnoc, drawn, Happening.drawn])
  | @opened seq request millis now idle => exact begins millis (drewDraws ..).2
  | @wrote seq request millis now envelope idle =>
    have drawn := (drewDraws request (nextActionId seq millis)).2
    exact begins millis (by simp [drawnIdsSnoc, drawn, Happening.drawn])
  | arrived item => exact .inl ⟨rfl, rfl⟩
  | @unsent seq act request awaited envelope e sending goesOn =>
    refine .inl ⟨?_, rfl⟩
    cases act with
    | begin request millis now => exact absurd rfl (goesOn request millis now)
    | sent _ _ | look _ | receive _ | expire _ _ | cancel _ _ | arrive _ => rfl
  | torn _ ends => rcases ends with ⟨rfl, -⟩ | ⟨rfl, -⟩ <;> exact .inl ⟨rfl, rfl⟩
  | late _ _ turn => rcases turn with rfl | rfl <;> exact .inl ⟨rfl, rfl⟩
  | returned _ | waits _ _ | enters _ | cancelled _ | failed _ _ _ _ | answered _ _ _ _ _ | passed _ _ _ _ _ =>
    exact .inl ⟨rfl, rfl⟩

end Ids

theorem actionIdNumber {a b : Nat} {now later : Int} (same : nextActionId a now = nextActionId b later) : a = b :=
  lastPartInjective same

def Caller.Waits (c : Caller) (w : Wait) : Prop := c.doing = .looking w ∨ c.doing = .receiving w

inductive Item.Settles (actionId : Str) (item : Item) : Except Error Reply → Prop where
  | decides {envelope outcome} (received : item.received = .ok envelope) (decides : Decides actionId envelope outcome) :
      Settles actionId item outcome
  | raises {e} (received : item.received = .error e) : Settles actionId item (.error e)

def Act.Prompt (deadline : Time) : Act → Prop
  | .look now | .expire now _ => now < deadline
  | .cancel _ _ => False
  | _ => True

instance (deadline : Time) (act : Act) : Decidable (act.Prompt deadline) := by
  unfold Act.Prompt
  split <;> infer_instance

def Caller.Prompt (_ : Caller) (deadline : Time) (label : Nat × Act) : Prop := label.2.Prompt deadline

def Act.isTurn : Act → Bool
  | .look _ | .receive _ => true
  | _ => false

def turns (acts : List Act) : Nat := acts.countP Act.isTurn

def Doing.turnsLeft (doing : Doing) (before : List Item) : Nat :=
  match doing with
  | .looking _ => 2 * before.length + 2
  | _ => 2 * before.length + 1

structure Answerable (actionId : Str) (deadline : Time) (outcome : Except Error Reply) (item : Item) (whole : List Item)
    (c : Caller) (w : Wait) (before : List Item) : Prop where
  waiting : c.Waits w
  awaited : w.awaited = .actionResponse actionId
  due : w.deadline = some deadline
  unrelated : ∀ i ∈ before, i.Unrelated actionId
  settles : item.Settles actionId outcome
  unread : ∃ rest, c.unread = before ++ item :: rest
  reads : w.read.map Reading.item ++ before ++ [item] = whole

section Caller
variable {x : Externals} {codec : Codec} {c : Caller} {client : VynkorClient} {events : List Happening}
variable {Meets : Caller → Nat × Act → Prop} {labels : List (Nat × Act)}

theorem runsBalanced (run : Runs (Caller.machine x codec) Between (.new client) labels events c) : Balanced events c := by
  refine runsKeep Balanced (by rfl) ?_ run
  intro events s label t emitted ok whole move
  have moved := movesReads whole (stepMoves move)
  unfold Balanced arrivals taken at *
  rw [List.filterMap_append, List.flatMap_append, ok]
  simp only [List.append_assoc] at moved ⊢
  rw [moved]

theorem runsIds (run : Runs (Caller.machine x codec) Meets (.new client) labels events c) :
    (settledIds events ++ c.doing.openId.toList).Sublist (drawnIds events) := by
  refine runsKeep (fun events c => (settledIds events ++ c.doing.openId.toList).Sublist (drawnIds events)) ?_ ?_ run
  · exact List.nil_sublist _
  intro events s label t emitted ok _ move
  have moved := movesIds (stepMoves move)
  have earlier : (settledIds events ++ (s.doing.openId.toList ++ drawnIds emitted)).Sublist
      (drawnIds events ++ drawnIds emitted) := by
    rw [← List.append_assoc]
    exact ok.append_right _
  have whole := (moved.append_left (settledIds events)).trans earlier
  simpa only [settledIds, drawnIds, List.filterMap_append, List.append_assoc] using whole

theorem timesOut (seq : Nat) {w : Wait} {deadline now : Time} (waiting : c.Waits w) (due : w.deadline = some deadline) (tooLate : deadline ≤ now) :
    ∃ act t, (Caller.machine x codec).step c (seq, act) = some (t, [.settled w now (.error .timeout)]) := by
  rcases waiting with looking | receiving
  · refine ⟨.look now, { c with doing := .idle }, ?_⟩
    have passed : deadline - now ≤ 0 := by linarith
    simp only [Caller.machine, Caller.step, Caller.look, looking, due, passed, if_true, Caller.settle]
  · refine ⟨.expire now none, { c with doing := .idle }, ?_⟩
    have passed : ¬ Caller.InTime w now := by
      rw [inTimeAt due]
      exact not_lt.mpr tooLate
    simp only [Caller.machine, Caller.step, Caller.expire, receiving, passed, if_false, Caller.tear, Option.bind_some, Caller.settle]

theorem readsNext (c : Caller) (w : Wait) (now : Time) (item : Item) : ∃ t happened, c.readNext w now item = some (t, happened) := by
  unfold Caller.readNext
  split
  · exact ⟨_, _, rfl⟩
  · dsimp only
    split <;> exact ⟨_, _, rfl⟩

theorem takesTurn (seq : Nat) {w : Wait} {deadline now : Time} (waiting : c.Waits w) (due : w.deadline = some deadline)
    (inTime : now < deadline) (unread : c.unread ≠ []) :
    ∃ act t happened, (act = .look now ∨ act = .receive now) ∧
      (Caller.machine x codec).step c (seq, act) = some (t, happened) := by
  rcases waiting with looking | receiving
  · refine ⟨.look now, { c with doing := .receiving w }, [], .inl rfl, ?_⟩
    have ahead : ¬ deadline - now ≤ 0 := by linarith
    simp only [Caller.machine, Caller.step, Caller.look, looking, due, ahead, if_false]
  · obtain ⟨item, rest, here⟩ := List.exists_cons_of_ne_nil unread
    have ahead : Caller.InTime w now := (inTimeAt due).mpr inTime
    obtain ⟨t, happened, read⟩ := readsNext
      { c with unread := rest, acked := if item.answers.isSome then c.acked + 1 else c.acked } w now item
    refine ⟨.receive now, t, happened, .inr rfl, ?_⟩
    simp only [Caller.machine, Caller.step, Caller.receive, receiving, here]
    rw [if_pos ahead]
    exact read

variable {t : Caller} {label : Nat × Act} {happened : List Happening} {w : Wait} {before whole : List Item} {item : Item}
variable {actionId : Str} {deadline : Time} {outcome : Except Error Reply}

theorem decidesUnique {envelope : Envelope} {other : Except Error Reply} (first : Decides actionId envelope outcome)
    (second : Decides actionId envelope other) : outcome = other := by
  cases first with
  | response _ | aborted | kernelError =>
    cases second
    rfl

theorem settlesAnswer {envelope : Envelope} (now : Time) (settles : item.Settles actionId outcome) (received : item.received = .ok envelope) :
    (Awaited.actionResponse actionId).accepts envelope = true ∧
      (Awaited.actionResponse actionId).conclude now envelope = outcome := by
  cases settles with
  | decides decided decides =>
    cases received.symm.trans decided
    have taken := decidesAccepts decides
    exact ⟨taken, decidesUnique ((acceptsDecides now).mp taken) decides⟩
  | raises raised => cases received.symm.trans raised

theorem settlesError {e : Error} (settles : item.Settles actionId outcome) (received : item.received = .error e) : outcome = .error e := by
  cases settles with
  | decides decided _ => cases received.symm.trans decided
  | raises raised =>
    cases received.symm.trans raised
    rfl

theorem readAhead (ok : Answerable actionId deadline outcome item whole c w before) {first : Item} {rest : List Item}
    (unread : c.unread = first :: rest) :
    (before = [] ∧ first = item) ∨ ∃ later, before = first :: later ∧ ∃ more, rest = later ++ item :: more := by
  obtain ⟨more, ahead⟩ := ok.unread
  rw [unread] at ahead
  cases before with
  | nil =>
    cases ahead
    exact .inl ⟨rfl, rfl⟩
  | cons b later =>
    cases ahead
    exact .inr ⟨later, rfl, more, rfl⟩

theorem waitsUnique {other : Wait} (one : c.Waits w) (two : c.Waits other) : w = other := by
  unfold Caller.Waits at one two
  rcases one with here | here <;> rw [here] at two <;> simpa using two

theorem answerableWait (ok : Answerable actionId deadline outcome item whole c w before) {other : Wait}
    (receiving : c.doing = .receiving other) : other = w := by
  rcases ok.waiting with here | here
  · cases receiving.symm.trans here
  · cases receiving.symm.trans here
    rfl

theorem answerableMoves (ok : Answerable actionId deadline outcome item whole c w before) (prompt : label.2.Prompt deadline)
    (move : Moves c label happened t) :
    (∃ last now, happened = [.settled last now outcome] ∧ last.call = w.call ∧ last.read.map Reading.item = whole) ∨
      ∃ w' before', Answerable actionId deadline outcome item whole t w' before' ∧ w'.call = w.call ∧
        t.doing.turnsLeft before' + turns [label.2] ≤ c.doing.turnsLeft before := by
  have away {other : Doing} (here : c.doing = other) (apart : ∀ w, other ≠ .looking w ∧ other ≠ .receiving w) : False := by
    rcases ok.waiting with same | same
    · exact (apart w).1 (here.symm.trans same)
    · exact (apart w).2 (here.symm.trans same)
  cases move with
  | refused idle | opened idle | wrote idle => exact (away idle (by simp)).elim
  | unsent sending _ | returned sending | waits sending _ => exact (away sending (by simp)).elim
  | arrived new =>
    obtain ⟨rest, unread⟩ := ok.unread
    refine .inr ⟨w, before, { ok with unread := ⟨rest ++ [new], ?_⟩ }, rfl, by simp [turns, Act.isTurn]⟩
    simp [unread]
  | @enters seq now other looking =>
    have same : other = w := by
      rcases ok.waiting with here | here
      · cases looking.symm.trans here
        rfl
      · cases looking.symm.trans here
    subst same
    exact .inr ⟨other, before, { ok with waiting := .inr rfl }, rfl, by simp [turns, Act.isTurn, Doing.turnsLeft, looking]⟩
  | late waiting tooLate turn =>
    have same := waitsUnique ok.waiting waiting
    subst same
    rw [inTimeAt ok.due] at tooLate
    rcases turn with rfl | rfl <;> exact absurd prompt tooLate
  | cancelled _ => cases prompt
  | torn receiving ends =>
    cases answerableWait ok receiving
    rcases ends with ⟨rfl, tooLate, -⟩ | ⟨rfl, -⟩
    · rw [inTimeAt ok.due] at tooLate
      exact absurd prompt tooLate
    · cases prompt
  | @failed seq now other first rest e receiving unread inTime raised =>
    cases answerableWait ok receiving
    rcases readAhead ok unread with ⟨rfl, rfl⟩ | ⟨later, rfl, -⟩
    · cases settlesError ok.settles raised
      exact .inl ⟨_, _, rfl, rfl, by simpa [Wait.reads] using ok.reads⟩
    · obtain ⟨envelope, received, -⟩ := ok.unrelated first List.mem_cons_self
      cases received.symm.trans raised
  | @answered seq now other first rest envelope receiving unread inTime received taken =>
    cases answerableWait ok receiving
    rw [ok.awaited] at taken ⊢
    rcases readAhead ok unread with ⟨rfl, rfl⟩ | ⟨later, rfl, -⟩
    · rw [(settlesAnswer now ok.settles received).2]
      exact .inl ⟨_, _, rfl, rfl, by simpa [Wait.reads] using ok.reads⟩
    · obtain ⟨other, received', unrelated⟩ := ok.unrelated first List.mem_cons_self
      cases received.symm.trans received'
      exact absurd ⟨_, (acceptsDecides now).mp taken⟩ unrelated
  | @passed seq now other first rest envelope receiving unread inTime received foreign =>
    cases answerableWait ok receiving
    rcases readAhead ok unread with ⟨rfl, rfl⟩ | ⟨later, rfl, more, ahead⟩
    · rw [ok.awaited, (settlesAnswer now ok.settles received).1] at foreign
      cases foreign
    · refine .inr ⟨w.reads now first, later, ⟨.inl rfl, ok.awaited, ok.due, ?_, ok.settles, ⟨more, ahead⟩, ?_⟩, rfl, ?_⟩
      · exact fun i member => ok.unrelated i (List.mem_cons_of_mem _ member)
      · simpa [Wait.reads] using ok.reads
      · simp [turns, Act.isTurn, Doing.turnsLeft, receiving, Caller.take]
        omega

theorem turnsAppend (acts more : List Act) : turns (acts ++ more) = turns acts + turns more := List.countP_append

theorem answerableRuns (ok : Answerable actionId deadline outcome item whole c w before) {acts : List (Nat × Act)}
    (run : Runs (Caller.machine x codec) (Caller.Prompt · deadline) c acts events t) :
    (∃ last now, .settled last now outcome ∈ events ∧ last.call = w.call ∧ last.read.map Reading.item = whole) ∨
      ∃ w' before', Answerable actionId deadline outcome item whole t w' before' ∧ w'.call = w.call ∧
        t.doing.turnsLeft before' + turns (acts.map Prod.snd) ≤ c.doing.turnsLeft before := by
  induction run with
  | idle => exact .inr ⟨w, before, ok, rfl, le_refl _⟩
  | @next acts events s t label emitted run prompt move ih =>
    rcases ih with ⟨last, now, settled, ended⟩ | ⟨w', before', waits, same, left⟩
    · exact .inl ⟨last, now, List.mem_append_left _ settled, ended⟩
    · rcases answerableMoves waits prompt (stepMoves move) with ⟨last, now, rfl, call, read⟩ | ⟨later, behind, goesOn, call, fewer⟩
      · exact .inl ⟨last, now, List.mem_append_right _ (List.mem_singleton.mpr rfl), call.trans same, read⟩
      · refine .inr ⟨later, behind, goesOn, call.trans same, ?_⟩
        rw [List.map_append, turnsAppend, List.map_singleton]
        omega

theorem answerableSettles (ok : Answerable actionId deadline outcome item whole c w before) {acts : List (Nat × Act)}
    (run : Runs (Caller.machine x codec) (Caller.Prompt · deadline) c acts events t)
    (enough : 2 * before.length + 2 ≤ turns (acts.map Prod.snd)) :
    ∃ last now, .settled last now outcome ∈ events ∧ last.call = w.call ∧ last.read.map Reading.item = whole := by
  refine (answerableRuns ok run).resolve_right ?_
  rintro ⟨w', before', waits, -, left⟩
  have most : c.doing.turnsLeft before ≤ 2 * before.length + 2 := by
    unfold Doing.turnsLeft
    split <;> omega
  have least : 0 < t.doing.turnsLeft before' := by
    unfold Doing.turnsLeft
    split <;> omega
  omega

theorem settledDrew {now : Time} (run : Runs (Caller.machine x codec) Meets (.new client) labels events c)
    (settled : .settled w now outcome ∈ events) (awaited : w.awaited = .actionResponse actionId) : .drew actionId ∈ events := by
  have ended : actionId ∈ settledIds events :=
    List.mem_filterMap.mpr ⟨_, settled, by simp [Happening.settledId, awaited, Awaited.ownId]⟩
  have drawn := (runsIds run).subset (List.mem_append_left _ ended)
  obtain ⟨h, inside, drew⟩ := List.mem_filterMap.mp drawn
  cases h with
  | drew id =>
    cases drew
    exact inside
  | wrote _ | arrived _ | refused _ | returned _ | settled _ _ _ => cases drew

theorem readArrived {now : Time} {r : Reading} (run : Runs (Caller.machine x codec) Between (.new client) labels events c)
    (settled : .settled w now outcome ∈ events) (read : r ∈ w.read) : .arrived r.item ∈ events := by
  have ended : r.item ∈ taken events := List.mem_flatMap.mpr ⟨_, settled, List.mem_map.mpr ⟨r, read, rfl⟩⟩
  have came : r.item ∈ arrivals events := by
    rw [runsBalanced run]
    exact List.mem_append_left _ (List.mem_append_left _ ended)
  obtain ⟨h, inside, arrived⟩ := List.mem_filterMap.mp came
  cases h with
  | arrived item =>
    cases arrived
    exact inside
  | drew _ | wrote _ | refused _ | returned _ | settled _ _ _ => cases arrived

end Caller

section Process
variable {Id : Type} [DecidableEq Id] {x : Externals} {codec : Codec}

def held (s : Nat × (Id → Caller)) (client : Id) : Option Str := (s.2 client).doing.openId

/- The ids of a process: the drawn ones carry a number below the next, and each is
drawn once, held by one call and settled once. -/
structure IdsApart (events : List Happening) (s : Nat × (Id → Caller)) : Prop where
  numbered : ∀ id ∈ drawnIds events, ∃ k millis, id = nextActionId k millis ∧ k < s.1
  ledger : Tickets.Ledger (drawnIds events) (settledIds events) (held s)

theorem idsAppend (f : Happening → Option Str) (events more : List Happening) :
    (events ++ more).filterMap f = events.filterMap f ++ more.filterMap f := List.filterMap_append

theorem idsApartStep {events happened : List Happening} {s : Nat × (Id → Caller)} {client : Id} {act : Act} {here : Caller}
    (ok : IdsApart events s) (move : Moves (s.2 client) (s.1, act) happened here) :
    IdsApart (events ++ happened) (nextSeq s.1 act, Function.update s.2 client here) := by
  have holds : held (nextSeq s.1 act, Function.update s.2 client here) = Function.update (held s) client here.doing.openId := by
    funext other
    unfold held
    rcases eq_or_ne other client with rfl | different
    · simp
    · simp [Function.update_of_ne different]
  rcases movesDraws move with ⟨still, none⟩ | ⟨drawing, millis, one⟩
  · constructor
    · simp only [drawnIds, idsAppend] at none ⊢
      rw [none, List.append_nil, show nextSeq s.1 act = s.1 by simp [nextSeq, show act.drawsId = false from still]]
      exact ok.numbered
    · rw [holds]
      simp only [drawnIds, settledIds, idsAppend]
      refine Tickets.ledgerMoves ok.ledger ?_ (movesIds move)
      simp only [drawnIds] at none
      rw [none, List.append_nil]
      exact ok.ledger.drawnOnce
  · constructor
    · intro id member
      simp only [drawnIds, idsAppend] at one member
      rw [one, List.mem_append] at member
      have counted : nextSeq s.1 act = s.1 + 1 := by simp [nextSeq, show act.drawsId = true from drawing]
      simp only [counted]
      rcases member with before | now
      · obtain ⟨k, millis, same, below⟩ := ok.numbered id before
        exact ⟨k, millis, same, Nat.lt_succ_of_lt below⟩
      · exact ⟨s.1, millis, List.mem_singleton.mp now, Nat.lt_succ_self _⟩
    · rw [holds]
      simp only [drawnIds, settledIds, idsAppend]
      refine Tickets.ledgerMoves ok.ledger ?_ (movesIds move)
      simp only [drawnIds] at one
      rw [one]
      refine List.nodup_append'.mpr ⟨ok.ledger.drawnOnce, List.nodup_singleton _, fun id before now => ?_⟩
      cases List.mem_singleton.mp now
      obtain ⟨k, earlier, same, below⟩ := ok.numbered _ before
      exact absurd (actionIdNumber same) (Nat.ne_of_gt below)

def Untorn (s : Nat × (Id → Caller)) (label : Id × Act) : Prop := Between (s.2 label.1) (s.1, label.2)

instance (s : Nat × (Id → Caller)) (label : Id × Act) : Decidable (Untorn s label) := by
  unfold Untorn
  infer_instance

theorem processApart {clients : Id → VynkorClient} {labels : List (Id × Act)} {events : List (Id × Happening)}
    {s : Nat × (Id → Caller)} (run : Runs (process x codec) Untorn (processStart clients) labels events s) :
    IdsApart (events.map Prod.snd) s := by
  refine runsKeep (fun events s => IdsApart (events.map Prod.snd) s) ⟨by simp [drawnIds], by exact Tickets.ledgerEmpty⟩ ?_ run
  intro events s label t emitted ok _ move
  obtain ⟨here, happened, stepped, rfl, rfl⟩ := interleaveStep.mp move
  simp only [List.map_append, List.map_map]
  have own : happened.map (Prod.snd ∘ fun h => (label.1, h)) = happened := List.map_id _
  rw [own]
  exact idsApartStep ok (stepMoves stepped)

theorem processOwn {clients : Id → VynkorClient} {labels : List (Id × Act)} {events : List (Id × Happening)}
    {s : Nat × (Id → Caller)} (run : Runs (process x codec) Untorn (processStart clients) labels events s) (client : Id) :
    ∃ own, Runs (Caller.machine x codec) Between (.new (clients client)) own (eventsOf client events) (s.2 client) := by
  obtain ⟨own, ran, -⟩ := runsOf Between client (fun _ _ whole => whole) run
  exact ⟨own, ran⟩

def returnedIds (events : List Happening) : List Str := events.filterMap Happening.returnedId

theorem concludesResponse {awaited : Awaited} {now : Time} {envelope : Envelope} {r : ActionResponse}
    (concludes : awaited.conclude now envelope = .ok (.response r)) : ∃ actionId, awaited = .actionResponse actionId := by
  cases awaited with
  | actionResponse actionId => exact ⟨actionId, rfl⟩
  | publishAck _ | commandAck _ | pong _ _ =>
    simp only [Awaited.conclude] at concludes
    split at concludes <;> cases concludes
  | nothing _ | anything => cases concludes

theorem returnedOwn {h : Happening} {id : Str} (well : SettledWell h) (returned : h.returnedId = some id) :
    h.settledId = some id := by
  unfold Happening.returnedId at returned
  split at returned
  · rename_i w now r
    cases returned
    obtain ⟨-, ends⟩ := well _ _ _ rfl
    generalize whole : (.ok (.response r) : Except Error Reply) = outcome at ends
    cases ends with
    | @answered before item envelope read passed inTime received taken =>
      obtain ⟨actionId, awaited⟩ := concludesResponse whole.symm
      rw [awaited] at taken whole
      have decides := (acceptsDecides now).mp taken
      rw [← whole] at decides
      cases decides with
      | response own => simp [Happening.settledId, awaited, Awaited.ownId, own]
    | failed _ _ _ _ | late _ _ | cancelled _ => cases whole
  · cases returned

theorem returnedSettled {events : List Happening} (well : ∀ h ∈ events, SettledWell h) :
    (returnedIds events).Sublist (settledIds events) := by
  induction events with
  | nil => exact .slnil
  | cons h rest ih =>
    have later := ih (fun g member => well g (.tail _ member))
    unfold returnedIds settledIds at later ⊢
    cases returned : h.returnedId with
    | none =>
      rw [List.filterMap_cons_none returned, List.filterMap_cons]
      cases h.settledId with
      | none => exact later
      | some id => exact later.cons id
    | some id =>
      rw [List.filterMap_cons_some returned, List.filterMap_cons_some (returnedOwn (well h (.head _)) returned)]
      exact later.cons_cons id

def PromptOf (client : Id) (deadline : Time) (_ : Nat × (Id → Caller)) (label : Id × Act) : Prop :=
  label.1 = client → label.2.Prompt deadline

instance (client : Id) (deadline : Time) (s : Nat × (Id → Caller)) (label : Id × Act) : Decidable (PromptOf client deadline s label) := by
  unfold PromptOf
  infer_instance

def Wait.Asks (w : Wait) (deadline : Time) : Prop :=
  ∃ action paramsJson timeoutMs, w.request = .sendAction action paramsJson timeoutMs ∧
    deadline = w.sentAt + seconds timeoutMs defaultActionTimeout

theorem asksDue {w : Wait} {deadline : Time} (asks : w.Asks deadline) : w.deadline = some deadline := by
  obtain ⟨action, paramsJson, timeoutMs, asked, rfl⟩ := asks
  simp [Wait.deadline, asked, Request.timeout]

theorem asksAwaits {w : Wait} {deadline : Time} (asks : w.Asks deadline) (fits : Fits w.request w.awaited) :
    ∃ actionId, w.awaited = .actionResponse actionId := by
  obtain ⟨action, paramsJson, timeoutMs, asked, rfl⟩ := asks
  rw [asked] at fits
  generalize w.awaited = awaited at fits ⊢
  cases fits with
  | sendAction => exact ⟨_, rfl⟩

/- What `send_action` comes to in a run of the process, of which these are the events and
the state reached. -/
structure Correlates (x : Externals) (codec : Codec) (events : List (Id × Happening)) (s : Nat × (Id → Caller)) : Prop where
  ends : ∀ client w now outcome deadline, (client, .settled w now outcome) ∈ events → w.Asks deadline →
    ∃ actionId, w.awaited = .actionResponse actionId ∧ (client, .drew actionId) ∈ events ∧
      ActionEnds actionId deadline w.read now outcome ∧ ∀ r ∈ w.read, (client, .arrived r.item) ∈ events
  balanced : ∀ client, Balanced (eventsOf client events) (s.2 client)
  goesOn : ∀ client w deadline now, (s.2 client).Waits w → w.Asks deadline → now < deadline → (s.2 client).unread ≠ [] →
    ∃ act t later, (act = .look now ∨ act = .receive now) ∧ (process x codec).step s (client, act) = some (t, later)
  settles : ∀ client w deadline actionId before item rest outcome, (s.2 client).Waits w → w.Asks deadline →
    w.awaited = .actionResponse actionId → (s.2 client).unread = before ++ item :: rest →
    (∀ i ∈ before, i.Unrelated actionId) → item.Settles actionId outcome →
    ∀ acts later t, Runs (process x codec) (PromptOf client deadline) s acts later t →
      2 * before.length + 2 ≤ turns (eventsOf client acts) →
      ∃ last now, (client, .settled last now outcome) ∈ later ∧ last.call = w.call ∧
        last.read.map Reading.item = w.read.map Reading.item ++ before ++ [item]
  timesOut : ∀ client w deadline now, (s.2 client).Waits w → w.Asks deadline → deadline ≤ now →
    ∃ act t, (process x codec).step s (client, act) = some (t, [(client, .settled w now (.error .timeout))])
  drawnOnce : (drawnIds (events.map Prod.snd)).Nodup
  returnedOnce : (returnedIds (events.map Prod.snd)).Nodup

end Process

def sampleResponse : ActionResponse := ⟨lit "act-1700-0", .ok, [1], []⟩
def samplePing : Item := ⟨.ok ⟨some (.ping 7)⟩, none, none⟩
def sampleItem : Item := ⟨.ok ⟨some (.actionResponse sampleResponse)⟩, none, none⟩

def sampleArriving : List (Nat × Act) :=
  [(0, .begin (.sendAction (lit "get") [] 0) 1700 10), (0, .sent none 10),
    (1, .begin (.sendAction (lit "get") [] 500) 1600 11), (1, .sent none 11),
    (0, .arrive samplePing), (0, .arrive sampleItem), (0, .arrive samplePing)]

def sampleTurns : List (Nat × Act) := [(0, .look 12), (0, .receive 12), (0, .look 13), (1, .look 12), (0, .receive 14)]

def sampleRequested (actionId : Str) (timeoutMs : Nat) : Envelope :=
  ⟨some (.actionRequest ⟨actionId, lit "get", [], timeoutMs, false, []⟩)⟩

def sampleWaiting (read : List Reading) : Wait :=
  ⟨1, .sendAction (lit "get") [] 0, .actionResponse (lit "act-1700-0"), 10, read⟩

def sampleAnswered : Wait := sampleWaiting [⟨12, samplePing⟩, ⟨14, sampleItem⟩]

def sampleLate : Wait := ⟨1, .sendAction (lit "get") [] 500, .actionResponse (lit "act-1600-1"), 11, []⟩

def sampleArrived : List (Nat × Happening) :=
  [(0, .drew (lit "act-1700-0")), (0, .wrote (sampleRequested (lit "act-1700-0") 0)),
    (1, .drew (lit "act-1600-1")), (1, .wrote (sampleRequested (lit "act-1600-1") 500)),
    (0, .arrived samplePing), (0, .arrived sampleItem), (0, .arrived samplePing)]

def sampleEnded : List (Nat × Happening) :=
  [(1, .settled sampleLate 12 (.error .timeout)), (0, .settled sampleAnswered 14 (.ok (.response sampleResponse)))]

def sampleClients (_ : Nat) : VynkorClient := .connectWithSecret none

def sampleProcess : Machine (Nat × (Nat → Caller)) (Nat × Act) (Nat × Happening) :=
  (process sampleExternals sampleCodec).restrict Untorn

def reread (x : Externals) (codec : Codec) (c : VynkorClient) (clocks : List Arrival) (buffer : Bytes) : List Item :=
  (recvTurns x c clocks ⟨buffer, []⟩).1.filterMap fun
    | .error (.raised e) => some ⟨.error e, none, none⟩
    | .ok (some (flags, payload)) => some ⟨VynkorClient.decodeEnvelope codec flags payload, none, none⟩
    | _ => none

/- The front of a valid frame has come, and the `recv` that has begun it is cancelled: the
items are what is read next. -/
def Leaves (x : Externals) (codec : Codec) (c : VynkorClient) (items : List Item) : Prop :=
  ∃ frame value moments receiver clocks, Frame.deliver x c.sessionKey frame = .ok value ∧
    arrivedBytes (moments ++ [.cancel]) <+: frame.bytes ∧
    Runs (Receiver.machine x) Always (.start c 0) (moments ++ [.cancel]) [] receiver ∧
    items = reread x codec receiver.client clocks receiver.unread

def Tears {Id : Type} (x : Externals) (codec : Codec) (s : Nat × (Id → Caller)) : Id × Act → Prop
  | (client, .expire _ (some items)) | (client, .cancel _ (some items)) =>
    (s.2 client).unread = [] ∧ Leaves x codec (s.2 client).client items
  | _ => True

def sampleLong : Frame where
  flags := 0
  target := sampleWire.target
  body := List.replicate 100 7
  tag := []
  flagsFit := by decide
  targetFit := by decide
  bodyFit := by decide
  tagFit := by decide

def sampleMoments : List Moment := [.arrive (sampleLong.bytes.take 104), .call 12, .resume 12 12, .resume 12 12]

def sampleMismatch : Item := ⟨.error .frameMagicMismatch, none, none⟩

theorem sampleLeaves : Leaves sampleExternals sampleCodec (.connectWithSecret none) [sampleMismatch] := by
  have ran : ((Receiver.machine sampleExternals).run (.start (.connectWithSecret none) 0) (sampleMoments ++ [.cancel])).map
      (fun r => (r.2.length, reread sampleExternals sampleCodec r.1.client [⟨13, 13⟩] r.1.unread)) =
      some (0, [sampleMismatch]) := by
    decide +kernel
  obtain ⟨⟨receiver, received⟩, run, same⟩ := Option.map_eq_some_iff.mp ran
  simp only [Prod.mk.injEq, List.length_eq_zero_iff] at same
  obtain ⟨rfl, left⟩ := same
  have valid : sampleLong.deliver sampleExternals none = .ok (0, List.replicate 100 7) := by decide +kernel
  exact ⟨sampleLong, _, sampleMoments, receiver, [⟨13, 13⟩], valid, by decide +kernel, runsOfRun run, left.symm⟩

def sampleTorn : List (Nat × Act) :=
  [(0, .begin (.sendAction (lit "get") [] 500) 1700 11), (0, .sent none 11), (0, .look 11), (0, .expire 12 (some [sampleMismatch])),
    (0, .begin (.sendAction (lit "get") [] 0) 1700 13), (0, .sent none 13), (0, .look 13), (0, .receive 13)]

def sampleFailed : Wait :=
  ⟨2, .sendAction (lit "get") [] 0, .actionResponse (lit "act-1700-1"), 13, [⟨13, sampleMismatch⟩]⟩

def sampleLost : List (Nat × Happening) :=
  [(0, .drew (lit "act-1700-0")), (0, .wrote (sampleRequested (lit "act-1700-0") 500)),
    (0, .settled ⟨1, .sendAction (lit "get") [] 500, .actionResponse (lit "act-1700-0"), 11, []⟩ 12 (.error .timeout)),
    (0, .drew (lit "act-1700-1")), (0, .wrote (sampleRequested (lit "act-1700-1") 0)),
    (0, .settled sampleFailed 13 (.error .frameMagicMismatch))]

def SampleTears (s : Nat × (Nat → Caller)) : Nat × Act → Prop
  | (client, .expire _ (some items)) | (client, .cancel _ (some items)) =>
    (s.2 client).unread = [] ∧ items = [sampleMismatch]
  | _ => True

instance (s : Nat × (Nat → Caller)) : (label : Nat × Act) → Decidable (SampleTears s label)
  | (_, .expire _ (some _)) | (_, .cancel _ (some _)) => inferInstanceAs (Decidable (_ ∧ _))
  | (_, .expire _ none) | (_, .cancel _ none) | (_, .begin _ _ _) | (_, .sent _ _) | (_, .look _) | (_, .receive _)
  | (_, .arrive _) => instDecidableTrue

theorem movesClient {c t : Caller} {label : Nat × Act} {happened : List Happening} (move : Moves c label happened t) :
    t.client = c.client := by
  cases move <;> rfl

theorem sampleTears {labels : List (Nat × Act)} {events : List (Nat × Happening)} {s : Nat × (Nat → Caller)}
    (run : Runs (process sampleExternals sampleCodec) SampleTears (processStart sampleClients) labels events s) :
    Runs (process sampleExternals sampleCodec) (Tears sampleExternals sampleCodec) (processStart sampleClients) labels events s := by
  refine runsStrengthen (fun _ s => ∀ client, (s.2 client).client = .connectWithSecret none) (fun _ => rfl) ?_ ?_ run
  · intro _ s label t emitted same _ move client
    obtain ⟨here, happened, stepped, rfl, rfl⟩ := interleaveStep.mp move
    rcases eq_or_ne client label.1 with rfl | apart
    · simpa [same] using movesClient (stepMoves stepped)
    · simpa [Function.update_of_ne apart] using same client
  · rintro _ s ⟨client, act⟩ same tears
    cases act with
    | expire now torn | cancel now torn =>
      cases torn with
      | none => exact trivial
      | some items =>
        obtain ⟨nothing, rfl⟩ := tears
        exact ⟨nothing, by rw [same]; exact sampleLeaves⟩
    | _ => exact trivial

end Vynkor.KernelRequests
