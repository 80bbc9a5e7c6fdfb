import Vynkor.ActionCorrelation
import Vynkor.RunOverWire

/-! `Plugin.serve` with hooks that make requests. The loop and the hooks have one client:
what a request reads while a hook awaits it, the loop does not. -/
namespace Vynkor.HookRequests
open Octets (Bytes)
open Text Framing Reassembly Labelled KernelRequests
open Plugin (Stage Resume Effect Inbound Thrown serve hooksOf)

structure Shared where
  stage : Stage
  caller : Caller

/- `asks` is an act of a request that a hook makes and awaits, `awaits` and `takes` are
the `client.recv()` of the loop and its return. -/
inductive Beat where
  | arrives (item : Item)
  | asks (seq : Nat) (act : Act)
  | awaits (now : Time)
  | takes (now : Time) (clock : Nat)
  | resumes (resume : Resume)

structure Share where
  own : Bool
  awaited : Awaited
  item : Item

inductive Sign where
  | read (share : Share)
  | called (h : KernelRequests.Happening)
  | resumed (resume : Resume)
  | effect (stage : Stage) (e : Effect)

def hosts : Stage → Bool
  | .initialising | .initFailed _ | .onEvent _ | .onMessage | .closing _ => true
  | _ => false

def Beat.act : Beat → Option (Nat × Act)
  | .arrives item => some (0, .arrive item)
  | .asks seq act => some (seq, act)
  | .awaits now => some (0, .begin .recv 0 now)
  | .takes now _ => some (0, .receive now)
  | .resumes _ => none

def isArrival : Act → Bool
  | .arrive _ => true
  | _ => false

def isReceived : Resume → Bool
  | .received _ => true
  | _ => false

namespace Shared

def start (client : VynkorClient) : Shared := ⟨.initialising, .new client⟩

def reads (own : Bool) (c : Caller) : Act → Option Share
  | .receive _ =>
    match c.doing, c.unread with
    | .receiving w, item :: _ => some ⟨own, w.awaited, item⟩
    | _, _ => none
  | _ => none

def heard (say : Error → Str) (clock : Nat) (received : Except Error Envelope) : Except Thrown Inbound :=
  (received.map fun envelope => ⟨envelope, clock⟩).mapError (Plugin.Life.thrown say)

section Step
variable (x : Externals) (codec : Codec) (say : Error → Str)

def call (s : Shared) (own : Bool) (seq : Nat) (act : Act) : Option (Shared × List Sign) :=
  (s.caller.step x codec (seq, act)).map fun (caller, happened) =>
    ({ s with caller }, (reads own s.caller act).toList.map .read ++ happened.map .called)

def resume (s : Shared) (resume : Resume) : Option (Shared × List Sign) :=
  (s.stage.step resume).map fun (stage, effects) => ({ s with stage }, .resumed resume :: effects.map (.effect stage))

def take (s : Shared) (now : Time) (clock : Nat) : Option (Shared × List Sign) := do
  let share ← reads true s.caller (.receive now)
  let (called, signs) ← s.call x codec true 0 (.receive now)
  let (resumed, later) ← called.resume (.received (heard say clock share.item.received))
  return (resumed, signs ++ later)

def step (s : Shared) : Beat → Option (Shared × List Sign)
  | .arrives item => s.call x codec false 0 (.arrive item)
  | .asks seq act => if hosts s.stage ∧ ¬ isArrival act then s.call x codec false seq act else none
  | .awaits now => if s.stage = .receiving then s.call x codec true 0 (.begin .recv 0 now) else none
  | .takes now clock => if s.stage = .receiving then s.take x codec say now clock else none
  | .resumes resume => if s.caller.doing = .idle ∧ ¬ isReceived resume then s.resume resume else none

end Step
end Shared

def shared (x : Externals) (codec : Codec) (say : Error → Str) : Machine Shared Beat Sign := ⟨Shared.step x codec say⟩

def Untorn (s : Shared) (b : Beat) : Prop :=
  match b.act with
  | some label => Between s.caller label
  | none => True

instance (s : Shared) (b : Beat) : Decidable (Untorn s b) := by
  unfold Untorn
  split <;> infer_instance

def Sign.share : Sign → Option Share
  | .read share => some share
  | _ => none

def Sign.call : Sign → Option KernelRequests.Happening
  | .called h => some h
  | _ => none

def Sign.resume : Sign → Option Resume
  | .resumed resume => some resume
  | _ => none

def Sign.emitted : Sign → Option Effect
  | .effect _ e => some e
  | _ => none

def Sign.ponged : Sign → Option Nat
  | .effect .ponging (.sends ⟨some (.pong timestamp _)⟩) => some timestamp
  | _ => none

def sharesOf (signs : List Sign) : List Share := signs.filterMap Sign.share
def callsOf (signs : List Sign) : List KernelRequests.Happening := signs.filterMap Sign.call
def resumesOf (signs : List Sign) : List Resume := signs.filterMap Sign.resume
def effectsOf (signs : List Sign) : List Effect := signs.filterMap Sign.emitted
def pongsOf (signs : List Sign) : List Nat := signs.filterMap Sign.ponged
def actsOf (beats : List Beat) : List (Nat × Act) := beats.filterMap Beat.act

def loopShare (signs : List Sign) : List Item := ((sharesOf signs).filter Share.own).map Share.item
def hookShare (signs : List Sign) : List Item := ((sharesOf signs).filter fun share => ¬ share.own).map Share.item

structure Tells (shares : List Share) (calls : List KernelRequests.Happening) (resumes : List Resume) (effects : List Effect) (pongs : List Nat)
    (signs : List Sign) : Prop where
  shares : sharesOf signs = shares
  calls : callsOf signs = calls
  resumes : resumesOf signs = resumes
  effects : effectsOf signs = effects
  pongs : pongsOf signs = pongs

def pongsAt (stage : Stage) (effects : List Effect) : List Nat := pongsOf (effects.map (.effect stage))

section Tells
variable {shares more : List Share} {calls later : List KernelRequests.Happening} {resumes resumes' : List Resume} {effects effects' : List Effect}
  {pongs pongs' : List Nat} {signs signs' : List Sign}

theorem tellsAppend (first : Tells shares calls resumes effects pongs signs)
    (second : Tells more later resumes' effects' pongs' signs') :
    Tells (shares ++ more) (calls ++ later) (resumes ++ resumes') (effects ++ effects') (pongs ++ pongs') (signs ++ signs') where
  shares := by rw [sharesOf, List.filterMap_append, ← sharesOf, ← sharesOf, first.shares, second.shares]
  calls := by rw [callsOf, List.filterMap_append, ← callsOf, ← callsOf, first.calls, second.calls]
  resumes := by rw [resumesOf, List.filterMap_append, ← resumesOf, ← resumesOf, first.resumes, second.resumes]
  effects := by rw [effectsOf, List.filterMap_append, ← effectsOf, ← effectsOf, first.effects, second.effects]
  pongs := by rw [pongsOf, List.filterMap_append, ← pongsOf, ← pongsOf, first.pongs, second.pongs]

theorem tellsReads (shares : List Share) : Tells shares [] [] [] [] (shares.map .read) := by
  induction shares with
  | nil => exact ⟨rfl, rfl, rfl, rfl, rfl⟩
  | cons share rest ih =>
    exact ⟨congrArg (share :: ·) ih.shares, ih.calls, ih.resumes, ih.effects, ih.pongs⟩

theorem tellsCalls (calls : List KernelRequests.Happening) : Tells [] calls [] [] [] (calls.map .called) := by
  induction calls with
  | nil => exact ⟨rfl, rfl, rfl, rfl, rfl⟩
  | cons h rest ih => exact ⟨ih.shares, congrArg (h :: ·) ih.calls, ih.resumes, ih.effects, ih.pongs⟩

theorem tellsEffects (stage : Stage) (effects : List Effect) :
    Tells [] [] [] effects (pongsAt stage effects) (effects.map (.effect stage)) := by
  induction effects with
  | nil => exact ⟨rfl, rfl, rfl, rfl, rfl⟩
  | cons e rest ih => exact ⟨ih.shares, ih.calls, ih.resumes, congrArg (e :: ·) ih.effects, rfl⟩

end Tells

section Steps
variable {x : Externals} {codec : Codec} {say : Error → Str} {s t : Shared} {b : Beat} {signs : List Sign}

inductive Moves (x : Externals) (codec : Codec) (say : Error → Str) (s : Shared) : Beat → Shared → List Sign → Prop where
  | called {b own seq act caller happened signs} (acts : b.act = some (seq, act))
      (step : s.caller.step x codec (seq, act) = some (caller, happened)) (other : own = true → Shared.reads own s.caller act = none)
      (tells : Tells (Shared.reads own s.caller act).toList happened [] [] [] signs) :
      Moves x codec say s b { s with caller } signs
  | took {now clock caller happened stage effects share signs} (read : Shared.reads true s.caller (.receive now) = some share)
      (step : s.caller.step x codec (0, .receive now) = some (caller, happened))
      (goes : s.stage.step (.received (Shared.heard say clock share.item.received)) = some (stage, effects))
      (tells : Tells [share] happened [.received (Shared.heard say clock share.item.received)] effects (pongsAt stage effects) signs) :
      Moves x codec say s (.takes now clock) ⟨stage, caller⟩ signs
  | resumed {resume stage effects signs} (other : isReceived resume = false)
      (goes : s.stage.step resume = some (stage, effects))
      (tells : Tells [] [] [resume] effects (pongsAt stage effects) signs) :
      Moves x codec say s (.resumes resume) { s with stage } signs

theorem callTells (own : Bool) (act : Act) (happened : List KernelRequests.Happening) :
    Tells (Shared.reads own s.caller act).toList happened [] [] []
      ((Shared.reads own s.caller act).toList.map .read ++ happened.map .called) := by
  have whole := tellsAppend (tellsReads (Shared.reads own s.caller act).toList) (tellsCalls happened)
  rw [List.append_nil] at whole
  exact whole

theorem resumeTells (stage : Stage) (resume : Resume) (effects : List Effect) :
    Tells [] [] [resume] effects (pongsAt stage effects) (.resumed resume :: effects.map (.effect stage)) := by
  obtain ⟨shares, calls, resumes, told, pongs⟩ := tellsEffects stage effects
  exact ⟨shares, calls, congrArg (resume :: ·) resumes, told, pongs⟩

theorem callMoves {own : Bool} {seq : Nat} {act : Act} (acts : b.act = some (seq, act))
    (other : own = true → Shared.reads own s.caller act = none) (move : s.call x codec own seq act = some (t, signs)) :
    Moves x codec say s b t signs := by
  obtain ⟨⟨caller, happened⟩, step, same⟩ := Option.map_eq_some_iff.mp move
  cases same
  exact .called acts step other (callTells own act happened)

theorem takeMoves {now : Time} {clock : Nat} (move : s.take x codec say now clock = some (t, signs)) :
    Moves x codec say s (.takes now clock) t signs := by
  simp only [Shared.take, Option.bind_eq_bind, Option.bind_eq_some_iff] at move
  obtain ⟨share, read, ⟨called, first⟩, call, ⟨resumed, later⟩, resumes, same⟩ := move
  cases same
  obtain ⟨⟨caller, happened⟩, step, same⟩ := Option.map_eq_some_iff.mp call
  cases same
  obtain ⟨⟨stage, effects⟩, goes, same⟩ := Option.map_eq_some_iff.mp resumes
  cases same
  have front := callTells (s := s) true (.receive now) happened
  rw [read] at front ⊢
  have whole := tellsAppend front (resumeTells stage (.received (Shared.heard say clock share.item.received)) effects)
  rw [List.append_nil, List.append_nil, List.nil_append, List.nil_append] at whole
  exact .took read step goes whole

theorem stepMoves (move : s.step x codec say b = some (t, signs)) : Moves x codec say s b t signs := by
  cases b with
  | arrives item => exact callMoves rfl (fun own => by cases own) move
  | asks seq act =>
    simp only [Shared.step] at move
    split at move
    · exact callMoves rfl (fun own => by cases own) move
    · contradiction
  | awaits now =>
    simp only [Shared.step] at move
    split at move
    · exact callMoves rfl (fun _ => rfl) move
    · contradiction
  | takes now clock =>
    simp only [Shared.step] at move
    split at move
    · exact takeMoves move
    · contradiction
  | resumes resume =>
    simp only [Shared.step] at move
    split at move
    · rename_i free
      obtain ⟨⟨stage, effects⟩, goes, same⟩ := Option.map_eq_some_iff.mp move
      cases same
      exact .resumed (by simpa using free.2) goes (resumeTells stage resume effects)
    · contradiction

theorem readsNone {own : Bool} {c : Caller} {act : Act} (away : ∀ w, c.doing ≠ .receiving w) : Shared.reads own c act = none := by
  unfold Shared.reads
  split
  · split
    · rename_i receiving _
      exact absurd receiving (away _)
    · rfl
  · rfl

theorem readsTake {own : Bool} {c after : Caller} {seq : Nat} {act : Act} {happened : List KernelRequests.Happening}
    (whole : Between c (seq, act)) (step : c.step x codec (seq, act) = some (after, happened)) :
    c.unread ++ arrivals happened = (Shared.reads own c act).toList.map Share.item ++ after.unread := by
  cases KernelRequests.stepMoves step with
  | torn _ ends => rcases ends with ⟨rfl, -⟩ | ⟨rfl, -⟩ <;> cases whole
  | arrived item => rfl
  | @refused seq request millis now _ _ | @opened seq request millis now _ | @wrote seq request millis now _ _ =>
    have quiet := (drewReads request (nextActionId seq millis)).1
    simp only [arrivals] at quiet
    simp [Shared.reads, arrivals, KernelRequests.Happening.arrival, quiet]
  | unsent sending _ =>
    rw [readsNone fun w => by simp [sending]]
    simp [arrivals, KernelRequests.Happening.arrival]
  | late _ _ turn => rcases turn with rfl | rfl <;> simp [Shared.reads, arrivals, KernelRequests.Happening.arrival]
  | returned _ | waits _ _ | enters _ | cancelled _ => simp [Shared.reads, arrivals, KernelRequests.Happening.arrival]
  | failed receiving unread _ _ | answered receiving unread _ _ _ | passed receiving unread _ _ _ =>
    simp [Shared.reads, receiving, unread, Caller.take, arrivals, KernelRequests.Happening.arrival]

end Steps

def inboundsOf (resumes : List Resume) : List Inbound :=
  resumes.filterMap fun
    | .received (.ok inbound) => some inbound
    | _ => none

def receivedOf (resumes : List Resume) : List (Except Thrown Envelope) :=
  resumes.filterMap fun
    | .received outcome => some (outcome.map Inbound.envelope)
    | _ => none

def pinged (inbound : Inbound) : Option Nat :=
  match inbound.envelope.payload with
  | some (.ping timestamp) => some timestamp
  | _ => none

def hooked (inbound : Inbound) : List Effect := (Plugin.Visit.mk inbound (.ok none)).calls

def inboundOf (item : Item) : Option Inbound := item.received.toOption.map fun envelope => ⟨envelope, 0⟩

def pingOf (item : Item) : Option Nat := (inboundOf item).bind pinged
def hookOf (item : Item) : List Effect := (inboundOf item).toList.flatMap hooked

def isShutdown (item : Item) : Bool :=
  match item.received with
  | .ok ⟨some (.pluginShutdown _ _)⟩ => true
  | _ => false

section Greets
variable {s t : Stage} {resume : Resume} {effects : List Effect}

structure Greets (resume : Resume) (t : Stage) (effects : List Effect) : Prop where
  pongs : pongsAt t effects = (inboundsOf [resume]).filterMap pinged
  hooks : hooksOf effects = (inboundsOf [resume]).flatMap hooked
  shutdown : ∀ i ∈ inboundsOf [resume], ∀ reason seconds, i.envelope.payload = some (.pluginShutdown reason seconds) → t.done = true

theorem shutdownApart {i : Inbound} (other : ∀ reason seconds, i.envelope.payload ≠ some (.pluginShutdown reason seconds)) :
    ∀ j ∈ inboundsOf [.received (.ok i)], ∀ reason seconds, j.envelope.payload = some (.pluginShutdown reason seconds) → t.done = true := by
  intro j member reason seconds same
  cases List.mem_singleton.mp member
  exact absurd same (other reason seconds)

theorem receiveGreets {outcome : Except Thrown Inbound} (move : Stage.receive outcome = some (t, effects)) :
    Greets (.received outcome) t effects := by
  cases outcome with
  | error e =>
    cases move
    exact ⟨rfl, rfl, nofun⟩
  | ok i =>
    cases Plugin.kindOf i with
    | ping kind =>
      simp only [Stage.receive, kind] at move
      cases move
      refine ⟨?_, ?_, shutdownApart (by simp [kind])⟩
      · simp [inboundsOf, pinged, kind, pongsAt, pongsOf, Sign.ponged, Stage.pong]
      · simp [inboundsOf, hooked, Plugin.Visit.calls, kind, hooksOf, Effect.hook]
    | pluginShutdown kind =>
      simp only [Stage.receive, kind] at move
      cases move
      refine ⟨?_, ?_, fun _ _ _ _ _ => rfl⟩
      · simp [inboundsOf, pinged, kind, pongsAt, pongsOf, Sign.ponged]
      · simp [inboundsOf, hooked, Plugin.Visit.calls, kind, hooksOf, Effect.hook]
    | event kind =>
      simp only [Stage.receive, kind] at move
      cases move
      refine ⟨?_, ?_, shutdownApart (by simp [kind])⟩
      · simp [inboundsOf, pinged, kind, pongsAt, pongsOf, Sign.ponged]
      · simp [inboundsOf, hooked, Plugin.Visit.calls, kind, hooksOf, Effect.hook]
    | other receives calls _ _ _ =>
      have noPing (timestamp : Nat) : i.envelope.payload ≠ some (.ping timestamp) := fun kind => by
        simp [Stage.receive, kind] at receives
      have noShutdown (reason : Str) (seconds : Nat) : i.envelope.payload ≠ some (.pluginShutdown reason seconds) := fun kind => by
        simp [Stage.receive, Stage.close, kind] at receives
      cases receives.symm.trans move
      refine ⟨?_, ?_, shutdownApart noShutdown⟩
      · have silent : pinged i = none := by
          unfold pinged
          split
          · rename_i kind
            exact absurd kind (noPing _)
          · rfl
        simp [inboundsOf, silent, pongsAt, pongsOf, Sign.ponged]
      · simp [inboundsOf, hooked, calls, hooksOf, Effect.hook]

theorem quietGreets (nothing : inboundsOf [resume] = []) (pongs : pongsAt t effects = []) (hooks : hooksOf effects = []) :
    Greets resume t effects := by
  refine ⟨?_, ?_, fun i member => ?_⟩
  · rw [pongs, nothing, List.filterMap_nil]
  · rw [hooks, nothing, List.flatMap_nil]
  · rw [nothing] at member
    cases member

theorem finishGreets {outcome : Except Thrown Unit} (nothing : inboundsOf [resume] = [])
    (move : Stage.finish outcome = some (t, effects)) : Greets resume t effects := by
  cases move
  exact quietGreets nothing rfl rfl

theorem closeGreets {pending : Option Thrown} (nothing : inboundsOf [resume] = [])
    (move : Stage.close pending = some (t, effects)) : Greets resume t effects := by
  cases move
  exact quietGreets nothing rfl rfl

theorem answerGreets {reply : Option Envelope} (nothing : inboundsOf [resume] = [])
    (move : Stage.answer reply = some (t, effects)) : Greets resume t effects := by
  cases reply with
  | none | some _ =>
    cases move
    exact quietGreets nothing rfl rfl

theorem stepGreets (move : s.step resume = some (t, effects)) : Greets resume t effects := by
  cases resume with
  | registered outcome =>
    cases s with
    | registering =>
      cases outcome with
      | error e => exact finishGreets rfl move
      | ok ack =>
        simp only [Stage.step, Stage.register] at move
        split at move
        · cases move
          exact quietGreets rfl rfl rfl
        · exact finishGreets rfl move
    | _ => cases move
  | initialised outcome =>
    cases s with
    | initialising =>
      cases outcome with
      | error _ | ok _ =>
        cases move
        exact quietGreets rfl rfl rfl
    | _ => cases move
  | received outcome =>
    cases s with
    | receiving => exact receiveGreets move
    | _ => cases move
  | sent outcome =>
    cases s with
    | ponging | replying =>
      cases outcome with
      | error e => exact closeGreets rfl move
      | ok _ =>
        cases move
        exact quietGreets rfl rfl rfl
    | acking reply =>
      cases outcome with
      | error e => exact closeGreets rfl move
      | ok _ => exact answerGreets rfl move
    | _ => cases move
  | handled hook =>
    cases s with
    | onEvent event =>
      cases hook with
      | error e =>
        simp only [Stage.step, Stage.handledEvent] at move
        split at move
        · cases move
          exact quietGreets rfl rfl rfl
        · exact closeGreets rfl move
      | ok reply =>
        cases move
        exact quietGreets rfl rfl rfl
    | onMessage =>
      cases hook with
      | error e => exact closeGreets rfl move
      | ok reply => exact answerGreets rfl move
    | _ => cases move
  | shut outcome =>
    cases s with
    | initFailed e => exact finishGreets rfl move
    | closing pending =>
      cases outcome with
      | error e => exact finishGreets rfl move
      | ok _ => cases pending <;> exact finishGreets rfl move
    | _ => cases move

end Greets

section Run
variable {x : Externals} {codec : Codec} {say : Error → Str} {client : VynkorClient} {s t : Shared} {beats : List Beat} {b : Beat}
  {signs emitted : List Sign} {share : Share} {stage : Stage} {effects : List Effect} {clock : Nat}

structure Greeted (item : Item) (t : Stage) (effects : List Effect) : Prop where
  pongs : pongsAt t effects = (pingOf item).toList
  hooks : hooksOf effects = hookOf item
  shutdown : isShutdown item = true → t.done = true

theorem tookGreeted {item : Item} (greets : Greets (.received (Shared.heard say clock item.received)) t.stage effects) :
    Greeted item t.stage effects := by
  obtain ⟨pongs, hooks, shutdown⟩ := greets
  obtain ⟨received, answers⟩ := item
  cases received with
  | error e => exact ⟨pongs, hooks, nofun⟩
  | ok envelope =>
    refine ⟨?_, ?_, fun ends => ?_⟩
    · rw [pongs]
      exact filterMapOne pinged ⟨envelope, clock⟩
    · rw [hooks]
      rfl
    · obtain ⟨payload⟩ := envelope
      simp only [isShutdown] at ends
      split at ends
      · rename_i same
        cases same
        exact shutdown _ (List.mem_singleton.mpr rfl) _ _ rfl
      · contradiction

structure Dealt (say : Error → Str) (signs : List Sign) (stage : Stage) : Prop where
  taken : receivedOf (resumesOf signs) = (loopShare signs).map fun item => item.received.mapError (Plugin.Life.thrown say)
  pongs : pongsOf signs = (loopShare signs).filterMap pingOf
  hooks : hooksOf (effectsOf signs) = (loopShare signs).flatMap hookOf
  shutdown : ∀ item ∈ loopShare signs, isShutdown item = true → stage.done = true

theorem loopShareAppend (signs more : List Sign) : loopShare (signs ++ more) = loopShare signs ++ loopShare more := by
  simp [loopShare, sharesOf]

theorem dealtNext {items : List Item} {resumes : List Resume} (dealt : Dealt say signs stage) (later : stage.done = true → t.stage.done = true)
    (own : loopShare emitted = items) (resumed : resumesOf emitted = resumes) (did : effectsOf emitted = effects)
    (pongs : pongsOf emitted = items.filterMap pingOf) (hooks : hooksOf effects = items.flatMap hookOf)
    (taken : receivedOf resumes = items.map fun item => item.received.mapError (Plugin.Life.thrown say))
    (shutdown : ∀ item ∈ items, isShutdown item = true → t.stage.done = true) : Dealt say (signs ++ emitted) t.stage := by
  refine ⟨?_, ?_, ?_, fun item member ends => ?_⟩
  · rw [loopShareAppend, own, List.map_append, ← dealt.taken, ← taken, ← resumed]
    simp [receivedOf, resumesOf]
  · rw [loopShareAppend, own, List.filterMap_append, ← dealt.pongs, ← pongs, pongsOf, List.filterMap_append]
    rfl
  · rw [loopShareAppend, own, List.flatMap_append, ← dealt.hooks, ← hooks, ← did]
    simp [hooksOf, effectsOf]
  · rw [loopShareAppend, own] at member
    rcases List.mem_append.mp member with before | now
    · exact later (dealt.shutdown item before ends)
    · exact shutdown item now ends

theorem readsOwn {own : Bool} {c : Caller} {act : Act} (read : Shared.reads own c act = some share) : share.own = own := by
  unfold Shared.reads at read
  split at read
  · split at read
    · cases read
      rfl
    · contradiction
  · contradiction

theorem calledShare {own : Bool} {act : Act} (other : own = true → Shared.reads own s.caller act = none)
    (shares : sharesOf emitted = (Shared.reads own s.caller act).toList) : loopShare emitted = [] := by
  rw [loopShare, shares]
  cases read : Shared.reads own s.caller act with
  | none => rfl
  | some share =>
    cases own with
    | true => exact absurd ((other rfl).symm.trans read) nofun
    | false => simp [readsOwn read]

theorem heardTaken (say : Error → Str) (clock : Nat) (received : Except Error Envelope) :
    receivedOf [.received (Shared.heard say clock received)] = [received.mapError (Plugin.Life.thrown say)] := by
  cases received <;> rfl

theorem stepDealt (dealt : Dealt say signs s.stage) (moves : Moves x codec say s b t emitted) : Dealt say (signs ++ emitted) t.stage := by
  cases moves with
  | called _ _ other tells =>
    exact dealtNext (t := ⟨s.stage, _⟩) dealt id (calledShare other tells.shares) tells.resumes tells.effects tells.pongs rfl rfl nofun
  | @took now clock caller happened stage effects share _ read step goes tells =>
    have own : loopShare emitted = [share.item] := by simp [loopShare, tells.shares, readsOwn read]
    obtain ⟨pongs, hooks, shutdown⟩ := tookGreeted (t := ⟨stage, caller⟩) (stepGreets goes)
    refine dealtNext (t := ⟨stage, caller⟩) dealt (Plugin.stepEmits goes).done own tells.resumes tells.effects ?_ ?_ ?_ ?_
    · rw [tells.pongs, pongs, filterMapOne]
    · rw [hooks, List.flatMap_singleton]
    · exact heardTaken say clock share.item.received
    · intro item member ends
      cases List.mem_singleton.mp member
      exact shutdown ends
  | @resumed resume stage effects _ other goes tells =>
    have own : loopShare emitted = [] := by simp [loopShare, tells.shares]
    have nothing : inboundsOf [resume] = [] ∧ receivedOf [resume] = [] := by
      cases resume with
      | received _ => cases other
      | _ => exact ⟨rfl, rfl⟩
    obtain ⟨pongs, hooks, -⟩ := stepGreets goes
    rw [nothing.1] at pongs hooks
    exact dealtNext (t := ⟨stage, s.caller⟩) dealt (Plugin.stepEmits goes).done own tells.resumes tells.effects
      (tells.pongs.trans pongs) hooks nothing.2 nofun

/- Loop and requests each run as they do alone, and what has come on their client is read
once and in order, by the one or the other. -/
structure Shares (x : Externals) (codec : Codec) (say : Error → Str) (client : VynkorClient) (beats : List Beat)
    (signs : List Sign) (s : Shared) : Prop where
  loop : Runs serve Always .initialising (resumesOf signs) (effectsOf signs) s.stage
  requests : Runs (Caller.machine x codec) Between (.new client) (actsOf beats) (callsOf signs) s.caller
  read : arrivals (callsOf signs) = (sharesOf signs).map Share.item ++ s.caller.unread
  dealt : Dealt say signs s.stage

theorem stepShares (shares : Shares x codec say client beats signs s) (untorn : Untorn s b)
    (move : s.step x codec say b = some (t, emitted)) : Shares x codec say client (beats ++ [b]) (signs ++ emitted) t := by
  have moves := stepMoves move
  have dealt := stepDealt shares.dealt moves
  have acts : actsOf (beats ++ [b]) = actsOf beats ++ b.act.toList := by
    rw [actsOf, List.filterMap_append, filterMapOne, ← actsOf]
  have appended : callsOf (signs ++ emitted) = callsOf signs ++ callsOf emitted ∧ resumesOf (signs ++ emitted) = resumesOf signs ++ resumesOf emitted ∧
      effectsOf (signs ++ emitted) = effectsOf signs ++ effectsOf emitted ∧ sharesOf (signs ++ emitted) = sharesOf signs ++ sharesOf emitted :=
    ⟨List.filterMap_append, List.filterMap_append, List.filterMap_append, List.filterMap_append⟩
  have arrives (happened : List KernelRequests.Happening) : arrivals (callsOf signs ++ happened) = arrivals (callsOf signs) ++ arrivals happened :=
    List.filterMap_append
  obtain ⟨calls, resumes, effects, read⟩ := appended
  cases moves with
  | @called _ own seq act _ _ _ here step other tells =>
    have whole : Between s.caller (seq, act) := by simpa only [Untorn, here] using untorn
    refine ⟨?_, ?_, ?_, dealt⟩
    · rw [resumes, effects, tells.resumes, tells.effects, List.append_nil, List.append_nil]
      exact shares.loop
    · rw [acts, here, calls, tells.calls]
      exact .next shares.requests whole step
    · rw [calls, read, tells.calls, tells.shares, arrives, shares.read, List.append_assoc, readsTake whole step, List.map_append,
        List.append_assoc]
  | @took now _ caller happened _ _ share _ read' step goes tells =>
    have takes : s.caller.unread ++ arrivals happened =
        (Shared.reads true s.caller (.receive now)).toList.map Share.item ++ caller.unread := readsTake trivial step
    refine ⟨?_, ?_, ?_, dealt⟩
    · rw [resumes, effects, tells.resumes, tells.effects]
      exact .next shares.loop trivial goes
    · rw [acts, calls, tells.calls]
      exact .next shares.requests trivial step
    · rw [calls, read, tells.calls, tells.shares, arrives, shares.read, List.append_assoc, takes, read', List.map_append,
        List.append_assoc]
      rfl
  | resumed other goes tells =>
    refine ⟨?_, ?_, ?_, dealt⟩
    · rw [resumes, effects, tells.resumes, tells.effects]
      exact .next shares.loop trivial goes
    · rw [acts, calls, tells.calls, List.append_nil]
      simpa [Beat.act] using shares.requests
    · rw [calls, read, tells.calls, tells.shares, List.append_nil, List.append_nil]
      exact shares.read

theorem startShares (x : Externals) (codec : Codec) (say : Error → Str) (client : VynkorClient) :
    Shares x codec say client [] [] (.start client) where
  loop := .idle
  requests := .idle
  read := rfl
  dealt := ⟨rfl, rfl, rfl, nofun⟩

end Run

def sampleItem (envelope : Envelope) : Item := ⟨.ok envelope, none, none⟩

def sampleBeats : List Beat :=
  [.resumes (.initialised (.ok ())), .awaits 1, .arrives (sampleItem ⟨none⟩), .takes 2 1700,
    .asks 0 (.begin (.publishEvent (lit "t") [] 0) 1700 3), .asks 0 (.sent none 3),
    .arrives (sampleItem ⟨some (.ping 7)⟩), .asks 0 (.look 4), .asks 0 (.receive 5),
    .arrives (sampleItem ⟨some (.eventPublishAck ⟨lit "e", 1, []⟩)⟩), .asks 0 (.look 6), .asks 0 (.receive 7),
    .resumes (.handled (.ok none)), .awaits 8, .arrives (sampleItem ⟨some (.ping 8)⟩), .takes 9 1701]

def sampleShared : Option (Shared × List Sign) :=
  ((shared sampleExternals sampleCodec fun _ => []).restrict Untorn).run (.start (.connectWithSecret none)) sampleBeats

end Vynkor.HookRequests
