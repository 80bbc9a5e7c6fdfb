import Vynkor.KernelRequests
import Vynkor.ReassemblyInvariant

/-! Whose answer `send_command`, `ping` and `publish_event` return. The first two take
the next envelope whatever it is, the last takes the next ack. -/
namespace Vynkor.KernelRequests
open Octets (Bytes)
open Text Framing Reassembly Labelled

def isAck : Except Error Envelope → Bool
  | .ok ⟨some (.eventPublishAck _)⟩ => true
  | _ => false

def isError : Except Error Envelope → Bool
  | .ok ⟨some (.error _ _)⟩ => true
  | _ => false

def Item.Numbers (item : Item) (next : Nat) : Prop :=
  item.answers = if isAck item.received then some next else none

instance (item : Item) (next : Nat) : Decidable (item.Numbers next) := by
  unfold Item.Numbers
  infer_instance

def acks (items : List Item) : Nat := items.countP fun item => item.answers.isSome

def AcksInOrder (c : Caller) : Nat × Act → Prop
  | (_, .arrive item) =>
    item.Numbers (c.acked + acks c.unread) ∧ (isAck item.received = true → c.acked + acks c.unread < c.published)
  | _ => True

instance (c : Caller) : (label : Nat × Act) → Decidable (AcksInOrder c label)
  | (_, .arrive _) => inferInstanceAs (Decidable (_ ∧ _))
  | (_, .begin _ _ _) | (_, .sent _ _) | (_, .look _) | (_, .receive _) | (_, .expire _ _) | (_, .cancel _ _) => instDecidableTrue

def KernelAcks (c : Caller) (label : Nat × Act) : Prop := AcksInOrder c label ∧ Between c label

instance (c : Caller) (label : Nat × Act) : Decidable (KernelAcks c label) := by
  unfold KernelAcks
  infer_instance

/- The answer a call is made for, or the kernel's error for this very call. -/
inductive Answers (call : Nat) (item : Item) : Awaited → Prop where
  | commandAck {ack : KernelCommandAck} (received : item.received = .ok ⟨some (.kernelCommandAck ack)⟩) :
      Answers call item (.commandAck ack.commandId)
  | pong {timestamp serverTimestamp sentAt} (received : item.received = .ok ⟨some (.pong timestamp serverTimestamp)⟩) :
      Answers call item (.pong timestamp sentAt)
  | kernelError {awaited message details} (received : item.received = .ok ⟨some (.error message details)⟩)
      (own : item.fails = some call) : Answers call item awaited

/- For `send_command` and `ping` what arrives next must be the answer; for
`publish_event` an error must be its own, and, with the acks in order, those of the
earlier publishes must have been read. -/
def NextFits (ordered : Prop) (acked : Nat) (w : Wait) (item : Item) : Prop :=
  match w.awaited with
  | .commandAck _ | .pong _ _ => ∀ envelope, item.received = .ok envelope → Answers w.call item w.awaited
  | .publishAck publish =>
    (isError item.received = true → item.fails = some w.call) ∧ (ordered → isAck item.received = true → acked = publish)
  | _ => True

def Correlated (ordered : Prop) (c : Caller) : Nat × Act → Prop
  | (_, .receive _) =>
    match c.doing, c.unread with
    | .receiving w, item :: _ => NextFits ordered c.acked w item
    | _, _ => True
  | _ => True

/- What may make a call fail: the deadline, a cancellation, a `recv` that raises and
the kernel's error for this call. -/
inductive MayFail (w : Wait) : Error → Prop where
  | timeout : MayFail w .timeout
  | cancelled : MayFail w .cancelled
  | raised {before now item e} (read : w.read = before ++ [⟨now, item⟩]) (received : item.received = .error e) : MayFail w e
  | kernelError {before now item message details e} (read : w.read = before ++ [⟨now, item⟩])
      (received : item.received = .ok ⟨some (.error message details)⟩) (own : item.fails = some w.call) : MayFail w e

inductive Owns (w : Wait) : Reply → Prop where
  | commandAck {ack : KernelCommandAck} (own : w.awaited = .commandAck ack.commandId) : Owns w (.commandAck ack)
  | latency {before now item timestamp serverTimestamp sentAt seconds} (own : w.awaited = .pong timestamp sentAt)
      (read : w.read = before ++ [⟨now, item⟩]) (received : item.received = .ok ⟨some (.pong timestamp serverTimestamp)⟩) :
      Owns w (.latency seconds)
  | publishAck {before now item publish ack} (own : w.awaited = .publishAck publish)
      (read : w.read = before ++ [⟨now, item⟩]) (answers : item.answers = some publish) : Owns w (.publishAck ack)

def EndsOwned (w : Wait) : Except Error Reply → Prop
  | .ok reply => Owns w reply
  | .error e => MayFail w e

/- A call of the three that has returned has its own answer, and one that has failed
did not fail for an unrelated envelope. A publish counts on acks in order for the
first. -/
def Owned (ordered : Prop) : Happening → Prop
  | .settled w _ outcome =>
    match w.awaited with
    | .commandAck _ | .pong _ _ => EndsOwned w outcome
    | .publishAck _ => ordered ∨ (∃ e, outcome = .error e) → EndsOwned w outcome
    | _ => True
  | _ => True

def Numbered : Nat → List Item → Prop
  | _, [] => True
  | next, item :: rest => item.Numbers next ∧ Numbered (if item.answers.isSome then next + 1 else next) rest

theorem numberedSnoc {next : Nat} {items : List Item} {item : Item} (ok : Numbered next items)
    (numbers : item.Numbers (next + acks items)) : Numbered next (items ++ [item]) := by
  induction items generalizing next with
  | nil => exact ⟨numbers, trivial⟩
  | cons first rest ih =>
    refine ⟨ok.1, ih ok.2 ?_⟩
    unfold acks at numbers ⊢
    rw [List.countP_cons] at numbers
    cases answered : first.answers.isSome with
    | true =>
      rw [answered, if_pos rfl, Nat.add_comm _ 1, ← Nat.add_assoc] at numbers
      exact numbers
    | false => simpa [answered] using numbers

theorem movesNumbered {c t : Caller} {label : Nat × Act} {happened : List Happening} (ok : Numbered c.acked c.unread)
    (kernel : KernelAcks c label) (move : Moves c label happened t) : Numbered t.acked t.unread := by
  obtain ⟨inOrder, whole⟩ := kernel
  cases move with
  | arrived item => exact numberedSnoc ok inOrder.1
  | torn _ ends => rcases ends with ⟨rfl, -⟩ | ⟨rfl, -⟩ <;> cases whole
  | failed _ unread _ _ | answered _ unread _ _ _ | passed _ unread _ _ _ =>
    rw [unread] at ok
    exact ok.2
  | refused _ | opened _ | wrote _ | unsent _ _ | returned _ | waits _ _ | enters _ | late _ _ _ | cancelled _ => exact ok

section Steps
variable {c t : Caller} {label : Nat × Act} {happened : List Happening} {w : Wait} {now : Time} {item : Item}
variable {envelope : Envelope} {acked : Nat} {ordered : Prop}

theorem mayFailOwned {e : Error} (mayFail : MayFail w e) : Owned ordered (.settled w now (.error e)) := by
  cases awaits : w.awaited with
  | commandAck _ | pong _ _ =>
    simp only [Owned, awaits]
    exact mayFail
  | publishAck _ =>
    simp only [Owned, awaits]
    exact fun _ => mayFail
  | nothing _ | actionResponse _ | anything => simp only [Owned, awaits]

theorem mayFailRead {message : Str} (received : item.received = .ok envelope) :
    MayFail (w.reads now item) (.internal message) ↔
      (∃ text details, envelope = ⟨some (.error text details)⟩) ∧ item.fails = some w.call := by
  constructor
  · intro mayFail
    cases mayFail with
    | raised read raised =>
      cases (List.append_inj' read rfl).2
      rw [received] at raised
      contradiction
    | kernelError read refused own =>
      cases (List.append_inj' read rfl).2
      rw [received] at refused
      cases refused
      exact ⟨⟨_, _, rfl⟩, own⟩
  · rintro ⟨⟨text, details, rfl⟩, own⟩
    exact .kernelError rfl received own

theorem concludeCommand (commandId : Str) (now : Time) (envelope : Envelope) :
    (∃ ack, envelope = ⟨some (.kernelCommandAck ack)⟩ ∧
      (Awaited.commandAck commandId).conclude now envelope = .ok (.commandAck ack)) ∨
    ((∀ ack, envelope ≠ ⟨some (.kernelCommandAck ack)⟩) ∧
      (Awaited.commandAck commandId).conclude now envelope = .error (.internal (lit "expected KernelCommandAck"))) := by
  obtain ⟨payload⟩ := envelope
  simp only [Awaited.conclude, Envelope.mk.injEq]
  split
  · exact .inl ⟨_, rfl, rfl⟩
  · rename_i foreign
    exact .inr ⟨fun ack same => foreign ack (congrArg Envelope.payload same), rfl⟩

theorem concludePing (timestamp : Nat) (sentAt now : Time) (envelope : Envelope) :
    (∃ original server, envelope = ⟨some (.pong original server)⟩ ∧
      (Awaited.pong timestamp sentAt).conclude now envelope = .ok (.latency (now - sentAt))) ∨
    ((∀ original server, envelope ≠ ⟨some (.pong original server)⟩) ∧
      (Awaited.pong timestamp sentAt).conclude now envelope = .error (.internal (lit "expected Pong"))) := by
  obtain ⟨payload⟩ := envelope
  simp only [Awaited.conclude, Envelope.mk.injEq]
  split
  · exact .inl ⟨_, _, rfl, rfl⟩
  · rename_i foreign
    exact .inr ⟨fun original server same => foreign original server (congrArg Envelope.payload same), rfl⟩

theorem answeredAck {call : Nat} {commandId : Str} {ack : KernelCommandAck} (answers : Answers call item (.commandAck commandId))
    (received : item.received = .ok ⟨some (.kernelCommandAck ack)⟩) : commandId = ack.commandId := by
  cases answers with
  | commandAck acked =>
    cases received.symm.trans acked
    rfl
  | kernelError refused _ => cases received.symm.trans refused

theorem answeredPong {call original server timestamp : Nat} {sentAt : Time} (answers : Answers call item (.pong timestamp sentAt))
    (received : item.received = .ok ⟨some (.pong original server)⟩) : timestamp = original := by
  cases answers with
  | pong ponged =>
    cases received.symm.trans ponged
    rfl
  | kernelError refused _ => cases received.symm.trans refused

theorem commandExact {commandId : Str} (now : Time) (awaits : w.awaited = .commandAck commandId) (received : item.received = .ok envelope) :
    Answers w.call item (.commandAck commandId) ↔
      EndsOwned (w.reads now item) ((Awaited.commandAck commandId).conclude now envelope) := by
  have kind : (w.reads now item).awaited = .commandAck commandId := awaits
  rcases concludeCommand commandId now envelope with ⟨ack, rfl, concluded⟩ | ⟨foreign, concluded⟩
  · rw [concluded]
    constructor
    · intro answers
      exact .commandAck (kind.trans (by rw [answeredAck answers received]))
    · intro owns
      cases owns with
      | commandAck own =>
        cases kind.symm.trans own
        exact .commandAck received
  · rw [concluded]
    refine Iff.trans ?_ (mayFailRead received).symm
    constructor
    · intro answers
      cases answers with
      | commandAck acked => exact absurd (Except.ok.inj (received.symm.trans acked)) (foreign _)
      | kernelError refused own => exact ⟨⟨_, _, Except.ok.inj (received.symm.trans refused)⟩, own⟩
    · rintro ⟨⟨text, details, rfl⟩, own⟩
      exact .kernelError received own

theorem pingExact {timestamp : Nat} {sentAt : Time} (now : Time) (awaits : w.awaited = .pong timestamp sentAt)
    (received : item.received = .ok envelope) :
    Answers w.call item (.pong timestamp sentAt) ↔
      EndsOwned (w.reads now item) ((Awaited.pong timestamp sentAt).conclude now envelope) := by
  have kind : (w.reads now item).awaited = .pong timestamp sentAt := awaits
  rcases concludePing timestamp sentAt now envelope with ⟨original, server, rfl, concluded⟩ | ⟨foreign, concluded⟩
  · rw [concluded]
    constructor
    · intro answers
      cases answeredPong answers received
      exact .latency kind rfl received
    · intro owns
      cases owns with
      | latency own read pong =>
        cases (List.append_inj' read rfl).2
        cases kind.symm.trans own
        exact .pong pong
  · rw [concluded]
    refine Iff.trans ?_ (mayFailRead received).symm
    constructor
    · intro answers
      cases answers with
      | pong ponged => exact absurd (Except.ok.inj (received.symm.trans ponged)) (foreign _ _)
      | kernelError refused own => exact ⟨⟨_, _, Except.ok.inj (received.symm.trans refused)⟩, own⟩
    · rintro ⟨⟨text, details, rfl⟩, own⟩
      exact .kernelError received own

theorem publishExact {publish : Nat} (awaits : w.awaited = .publishAck publish) (received : item.received = .ok envelope)
    (taken : (Awaited.publishAck publish).accepts envelope = true) (numbers : ordered → item.Numbers acked) :
    ((isError (.ok envelope) = true → item.fails = some w.call) ∧ (ordered → isAck (.ok envelope) = true → acked = publish)) ↔
      (ordered ∨ (∃ e, (Awaited.publishAck publish).conclude now envelope = .error e) →
        EndsOwned (w.reads now item) ((Awaited.publishAck publish).conclude now envelope)) := by
  have kind : (w.reads now item).awaited = .publishAck publish := awaits
  obtain ⟨payload⟩ := envelope
  unfold Item.Numbers at numbers
  rw [received] at numbers
  simp only [Awaited.accepts] at taken
  split at taken
  · rename_i ack
    simp only [isAck, if_true] at numbers
    simp only [Awaited.conclude, isAck, isError, Bool.false_eq_true, forall_const, reduceCtorEq, exists_false, or_false,
      false_implies, true_and]
    refine forall_congr' fun inOrder => ?_
    constructor
    · intro own
      exact .publishAck kind rfl (own ▸ numbers inOrder)
    · intro owns
      cases owns with
      | publishAck own read answers =>
        cases (List.append_inj' read rfl).2
        cases kind.symm.trans own
        exact Option.some.inj ((numbers inOrder).symm.trans answers)
  · rename_i text details
    simp only [isError, isAck, Bool.false_eq_true, false_implies, implies_true, and_true, forall_const]
    constructor
    · intro own _
      exact (mayFailRead received).mpr ⟨⟨text, details, rfl⟩, own⟩
    · intro owns
      exact ((mayFailRead received).mp (owns (.inr ⟨_, rfl⟩))).2
  · contradiction

theorem nextExact (received : item.received = .ok envelope) (taken : w.awaited.accepts envelope = true)
    (numbers : ordered → item.Numbers acked) :
    NextFits ordered acked w item ↔
      Owned ordered (.settled (w.reads now item) now (w.awaited.conclude now envelope)) := by
  cases awaits : w.awaited with
  | commandAck commandId => simpa [NextFits, Owned, Wait.reads, awaits, received] using commandExact now awaits received
  | pong timestamp sentAt => simpa [NextFits, Owned, Wait.reads, awaits, received] using pingExact now awaits received
  | publishAck publish =>
    have kind : (w.reads now item).awaited = .publishAck publish := awaits
    simp only [NextFits, Owned, kind, awaits, received]
    exact publishExact awaits received (awaits ▸ taken) numbers
  | nothing _ | actionResponse _ | anything => simp [NextFits, Owned, Wait.reads, awaits]

theorem foreignKinds {publish : Nat} (foreign : (Awaited.publishAck publish).accepts envelope = false) :
    isError (.ok envelope) = false ∧ isAck (.ok envelope) = false := by
  unfold Awaited.accepts isError isAck at *
  obtain ⟨payload⟩ := envelope
  cases payload with
  | none => exact ⟨rfl, rfl⟩
  | some kind =>
    cases kind with
    | error _ _ | eventPublishAck _ => cases foreign
    | _ => exact ⟨rfl, rfl⟩

theorem correlatedIdle (quiet : ∀ w, c.doing ≠ .receiving w) : Correlated ordered c label := by
  unfold Correlated
  repeat' split
  all_goals first
    | trivial
    | exact absurd (by assumption) (quiet _)

theorem correlatedReceive {seq : Nat} {rest : List Item} (receiving : c.doing = .receiving w) (unread : c.unread = item :: rest) :
    Correlated ordered c (seq, .receive now) ↔ NextFits ordered c.acked w item := by
  simp only [Correlated, receiving, unread]

theorem movesOwned (numbered : ordered → Numbered c.acked c.unread) (move : Moves c label happened t) :
    Correlated ordered c label ↔ ∀ h ∈ happened, Owned ordered h := by
  have drew {request : Request} {actionId : Str} : ∀ h ∈ drewOf request actionId, Owned ordered h := by
    intro h member
    unfold drewOf at member
    split at member
    · cases List.mem_singleton.mp member
      trivial
    · cases member
  have both {first later : List Happening} (here : ∀ h ∈ first, Owned ordered h) (next : ∀ h ∈ later, Owned ordered h) :
      ∀ h ∈ first ++ later, Owned ordered h := fun h member => (List.mem_append.mp member).elim (here h) (next h)
  cases move with
  | arrived item => exact iff_of_true trivial (by simp [Owned])
  | refused idle => exact iff_of_true trivial (both drew (by simp [Owned]))
  | opened idle => exact iff_of_true trivial drew
  | wrote idle => exact iff_of_true trivial (both drew (by simp [Owned]))
  | unsent sending _ => exact iff_of_true (correlatedIdle (by simp [sending])) (by simp [Owned])
  | returned sending => exact iff_of_true trivial (by simp [Owned])
  | waits sending fresh => exact iff_of_true trivial (by simp)
  | enters looking => exact iff_of_true trivial (by simp)
  | late waiting tooLate turn =>
    refine iff_of_true ?_ (by simpa using mayFailOwned .timeout)
    rcases turn with rfl | rfl <;> trivial
  | cancelled receiving => exact iff_of_true trivial (by simpa using mayFailOwned .cancelled)
  | torn receiving ends =>
    rcases ends with ⟨rfl, -, rfl⟩ | ⟨rfl, rfl⟩
    · exact iff_of_true trivial (by simpa using mayFailOwned .timeout)
    · exact iff_of_true trivial (by simpa using mayFailOwned .cancelled)
  | failed receiving unread inTime raised =>
    rw [correlatedReceive receiving unread]
    refine iff_of_true ?_ (by simpa using mayFailOwned (.raised rfl raised))
    unfold NextFits
    split <;> simp [isAck, isError, raised]
  | answered receiving unread inTime received taken =>
    rw [unread] at numbered
    rw [correlatedReceive receiving unread, List.forall_mem_singleton]
    exact nextExact received taken fun inOrder => (numbered inOrder).1
  | @passed seq now w item rest envelope receiving unread inTime received foreign =>
    rw [correlatedReceive receiving unread]
    refine iff_of_true ?_ (by simp)
    unfold NextFits
    split
    · rename_i awaits
      rw [awaits] at foreign
      contradiction
    · rename_i awaits
      rw [awaits] at foreign
      contradiction
    · rename_i publish awaits
      rw [awaits] at foreign
      obtain ⟨apart, other⟩ := foreignKinds foreign
      simp [received, apart, other]
    · trivial

end Steps

/- The three calls own what they return, and fail for no unrelated envelope, just in
the runs in which each receives its answer first; that its publishes are acked in
order is what `publish_event` relies on besides. -/
theorem answersOwned (x : Externals) (codec : Codec) (client : VynkorClient) (ordered : Prop)
    {labels : List (Nat × Act)} {events : List Happening} {c : Caller}
    (run : Runs (Caller.machine x codec) (fun c l => ordered → KernelAcks c l) (.new client) labels events c) :
    Runs (Caller.machine x codec) (fun c l => (ordered → KernelAcks c l) ∧ Correlated ordered c l) (.new client)
      labels events c ↔ ∀ h ∈ events, Owned ordered h := by
  refine runsExact (fun c => ordered → Numbered c.acked c.unread) (by exact fun _ => trivial) ?_ ?_ run
  · intro s label t emitted numbered kernel move inOrder
    exact movesNumbered (numbered inOrder) (kernel inOrder) (stepMoves move)
  · intro s label t emitted numbered kernel move
    exact movesOwned numbered (stepMoves move)

def sampleAck (commandId : Str) : Item := ⟨.ok ⟨some (.kernelCommandAck ⟨commandId, 1, [], []⟩)⟩, none, none⟩
def samplePublishAck : Item := ⟨.ok ⟨some (.eventPublishAck ⟨lit "e", 1, []⟩)⟩, some 0, none⟩
def sampleError : Item := ⟨.ok ⟨some (.error (lit "busy") [])⟩, none, some 5⟩

def sampleCommand (commandId : Str) : List (Nat × Act) :=
  [(0, .begin (.sendCommand commandId (lit "reload") []) 1700 10), (0, .sent none 10)]

def sampleWait (call : Nat) (commandId : Str) (read : List Reading) : Wait :=
  ⟨call, .sendCommand commandId (lit "reload") [], .commandAck commandId, 10, read⟩

def sampleWrote (commandId : Str) : Happening := .wrote ⟨some (.kernelCommand ⟨commandId, lit "reload", []⟩)⟩

def sampleSettled (call : Nat) (commandId acked : Str) : Happening :=
  .settled (sampleWait call commandId [⟨13, sampleAck acked⟩]) 13 (.ok (.commandAck ⟨acked, 1, [], []⟩))

def sampleCorrelated : List (Nat × Act) :=
  sampleCommand (lit "a") ++
    [(0, .cancel 11 none), (0, .arrive (sampleAck (lit "a"))), (0, .begin .recv 1700 11), (0, .receive 12)] ++
  sampleCommand (lit "b") ++ [(0, .arrive (sampleAck (lit "b"))), (0, .receive 13)] ++
  [(0, .begin (.publishEvent (lit "t") [] 0) 1700 14), (0, .sent none 14), (0, .arrive samplePublishAck), (0, .look 14),
    (0, .receive 15), (0, .begin .ping 1700 16), (0, .sent none 16), (0, .arrive sampleError), (0, .receive 17)]

def sampleOwned : List Happening :=
  [sampleWrote (lit "a"), .settled (sampleWait 1 (lit "a") []) 11 (.error .cancelled), .arrived (sampleAck (lit "a")),
    .settled ⟨2, .recv, .anything, 11, [⟨12, sampleAck (lit "a")⟩]⟩ 12
      (.ok (.envelope ⟨some (.kernelCommandAck ⟨lit "a", 1, [], []⟩)⟩)),
    sampleWrote (lit "b"), .arrived (sampleAck (lit "b")), sampleSettled 3 (lit "b") (lit "b"),
    .wrote ⟨some (.eventPublish (lit "t") [])⟩, .arrived samplePublishAck,
    .settled ⟨4, .publishEvent (lit "t") [] 0, .publishAck 0, 14, [⟨15, samplePublishAck⟩]⟩ 15
      (.ok (.publishAck ⟨lit "e", 1, []⟩)),
    .wrote ⟨some (.ping 1700)⟩, .arrived sampleError,
    .settled ⟨5, .ping, .pong 1700 16, 16, [⟨17, sampleError⟩]⟩ 17 (.error (.internal (lit "expected Pong")))]

theorem answersOwnedSample : ∃ c, Runs (Caller.machine sampleExternals sampleCodec)
    (fun c l => (True → KernelAcks c l) ∧ Correlated True c l) (.new (.connectWithSecret none)) sampleCorrelated sampleOwned c := by
  have ran : (((Caller.machine sampleExternals sampleCodec).restrict fun c l => True → KernelAcks c l).run
      (.new (.connectWithSecret none)) sampleCorrelated).map Prod.snd = some sampleOwned := by
    decide +kernel
  obtain ⟨⟨c, events⟩, run, same⟩ := Option.map_eq_some_iff.mp ran
  cases same
  refine ⟨c, (answersOwned sampleExternals sampleCodec _ True (runsOfRestricted run)).mpr fun h member => ?_⟩
  simp only [List.mem_cons, List.not_mem_nil, or_false] at member
  rcases member with rfl | rfl | rfl | rfl | rfl | rfl | rfl | rfl | rfl | rfl | rfl | rfl | rfl
  · trivial
  · exact .cancelled
  · trivial
  · trivial
  · trivial
  · trivial
  · exact .commandAck rfl
  · trivial
  · trivial
  · exact fun _ => .publishAck rfl (List.nil_append _).symm rfl
  · trivial
  · trivial
  · exact .kernelError (List.nil_append _).symm rfl rfl

def sampleCrossed : List (Nat × Act) :=
  sampleCommand (lit "a") ++ [(0, .cancel 11 none)] ++ sampleCommand (lit "b") ++
    [(0, .arrive (sampleAck (lit "a"))), (0, .receive 13)]

theorem answerCrosses : ¬ ∀ (x : Externals) (codec : Codec) (client : VynkorClient) (labels : List (Nat × Act))
    (events : List Happening) (c : Caller), Runs (Caller.machine x codec) KernelAcks (.new client) labels events c →
      ∀ h ∈ events, Owned True h := by
  intro claim
  have ran : (((Caller.machine sampleExternals sampleCodec).restrict KernelAcks).run
      (.new (.connectWithSecret none)) sampleCrossed).map Prod.snd =
      some [sampleWrote (lit "a"), .settled (sampleWait 1 (lit "a") []) 11 (.error .cancelled), sampleWrote (lit "b"),
        .arrived (sampleAck (lit "a")), sampleSettled 2 (lit "b") (lit "a")] := by
    decide +kernel
  obtain ⟨⟨c, events⟩, run, same⟩ := Option.map_eq_some_iff.mp ran
  cases same
  have owned := claim _ _ _ _ _ c (runsOfRestricted run) (sampleSettled 2 (lit "b") (lit "a")) (by simp)
  cases owned with
  | commandAck own => exact absurd own (by decide)

end Vynkor.KernelRequests
