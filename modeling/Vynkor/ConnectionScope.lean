import Vynkor.MacDowngrade
import Vynkor.ReassemblyTimeout

/-! What a client carries from one connection to the next. `connect` and `close`
leave the session key and the reassembly table alone, and a nonce is used whether
or not its ack accepts. -/
namespace Vynkor
open Octets (Bytes)
open Text Framing Reassembly Tables ExactReader Labelled

def KeyScoped (x : Externals) (reports : List Report) (s : Session) : Prop :=
  s.client.sessionKey = none ∨ ∃ pluginId ack key, s.client.sessionKey = some key ∧
    .registered s.client.connection ack ∈ reports ∧ ack.accepted = true ∧ Session.KeyOf x s.client pluginId ack key

def BufferScoped (connection : Nat) (buf : ReassemblyBuf) : Prop :=
  ∀ seq f, buf.fragments.lookup seq = some f → f.connection = connection

def TableScoped (connection : Nat) (streams : Streams) : Prop :=
  ∀ id buf, streams.lookup id = some buf → BufferScoped connection buf

def freshlyConnected (c : VynkorClient) : VynkorClient :=
  VynkorClient.connect { VynkorClient.new c.secret with deviceId := c.deviceId }

def AckArrives (x : Externals) (codec : Codec) (s : Session) (op : Operation) (ack : PluginRegisterAck) : Prop :=
  s.registering ≠ none ∧ ∃ clock inbox flags payload, op = .recvFrame clock inbox ∧
    (s.client.recvTurn x clock inbox).1 = .ok (some (flags, payload)) ∧
      VynkorClient.decodeEnvelope codec flags payload = .ok ⟨some (.pluginRegisterAck ack)⟩

/- A payload that is returned has its other fragments from this connection, the client
registers as after its first `connect`, and a rejection leaves the key. -/
structure Isolated (x : Externals) (codec : Codec) (s : Session) (op : Operation) : Prop where
  fragments : ∀ clock inbox h flags payload out buf, op = .recvFrame clock inbox →
    arriving x s.client clock inbox = some (h, flags, payload) →
      (absorbFragment clock.arrivedAt s.client.connection flags payload (tableAt s.client clock)).1 =
        .ok (some out) →
        (tableAt s.client clock).lookup h.streamId = some buf → BufferScoped s.client.connection buf
  fresh : op = .connect →
    (∀ r fault, s.client.connect.sendRegister x codec r fault = (freshlyConnected s.client).sendRegister x codec r fault) ∧
      ∀ inbox, s.client.connect.nextFrame x inbox = (freshlyConnected s.client).nextFrame x inbox
  rejected : ∀ ack, AckArrives x codec s op ack → ack.accepted = false → ∀ t reports,
    s.step x codec op = some (t, reports) → t.client.sessionKey = s.client.sessionKey

structure Renewed (x : Externals) (codec : Codec) (s : Session) (op : Operation) : Prop where
  connects : op = .connect → s.client.sessionKey = none ∧ s.client.reassembly = ∅
  accepted : ∀ ack, AckArrives x codec s op ack → ack.sessionNonce ≠ [] →
    (∃ secret, s.client.secret = some secret ∧ secret ≠ []) → ack.accepted = true

section Steps
variable {x : Externals} {codec : Codec} {now : Time} {flags connection : Nat} {h : FragHeader} {chunk : Bytes}
  {streams after : Streams} {outcome : Except Error (Option (Nat × Bytes))}

theorem homeScoped {buf : ReassemblyBuf} (own : TableScoped connection streams)
    (home : Home now flags h streams buf) : BufferScoped connection buf := by
  cases home with
  | known found total => exact own _ _ found
  | opened absent room =>
    intro seq f found
    simp [ReassemblyBuf.new] at found

theorem absorbsScoped (own : TableScoped connection streams)
    (absorbed : Absorbs now flags h ⟨chunk, connection⟩ streams outcome after) : TableScoped connection after := by
  have erased : TableScoped connection (streams.erase h.streamId) := by
    intro id buf found
    by_cases same : id = h.streamId
    · rw [same, AList.lookup_erase] at found
      contradiction
    · rw [AList.lookup_erase_ne same] at found
      exact own id buf found
  cases absorbed with
  | invalid _ | refused _ _ _ => exact own
  | mismatch _ _ | oversized _ _ | completed _ _ _ _ => exact erased
  | @buffered buf valid home fits incomplete =>
    intro id other found
    by_cases same : id = h.streamId
    · rw [same, AList.lookup_insert] at found
      cases found
      intro seq f here
      by_cases this : seq = h.sequence
      · rw [this, ReassemblyBuf.put, AList.lookup_insert] at here
        cases here
        rfl
      · rw [ReassemblyBuf.put, AList.lookup_insert_ne this] at here
        exact homeScoped own home seq f here
    · rw [AList.lookup_insert_ne same] at found
      exact own id other found

theorem absorbScoped (own : TableScoped connection streams) (payload : Bytes) :
    TableScoped connection (absorbFragment now connection flags payload streams).2 := by
  cases parsed : parseFragHeader payload with
  | none => simpa [absorbFragment, parsed] using own
  | some h => exact absorbsScoped own (absorbCases parsed)

theorem pruneScoped (own : TableScoped connection streams) : TableScoped connection (pruneReassembly now streams) :=
  fun id buf found => own id buf (prunedLookup.mp found).1

theorem turnScoped {c next : VynkorClient} {clock : Arrival} {inbox : Inbox}
    {got : Except (Halt Error) (Option (Nat × Bytes))} (own : TableScoped c.connection c.reassembly)
    (turn : Session.Turns x c clock inbox got next) : TableScoped c.connection next.reassembly := by
  cases turn with
  | stopped _ | plain _ _ => exact pruneScoped own
  | @fragment flags payload rest outcome streams read part absorbed =>
    have all : TableScoped c.connection (absorbFragment clock.arrivedAt c.connection flags payload
      (pruneReassembly clock.prunedAt c.reassembly)).2 := absorbScoped (pruneScoped own) payload
    rwa [absorbed] at all

variable {s t : Session} {op : Operation} {reports emitted : List Report}

structure Scoped (x : Externals) (reports : List Report) (s : Session) : Prop where
  key : KeyScoped x reports s
  table : TableScoped s.client.connection s.client.reassembly

theorem keyKept (own : KeyScoped x reports s) (same : t.client.sessionKey = s.client.sessionKey)
    (connection : t.client.connection = s.client.connection) (secret : t.client.secret = s.client.secret) :
    KeyScoped x (reports ++ emitted) t := by
  rcases own with none | ⟨pluginId, ack, key, held, reported, accepted, derived⟩
  · exact .inl (same.trans none)
  · refine .inr ⟨pluginId, ack, key, same.trans held, ?_, accepted, derived.nonce, ?_⟩
    · rw [connection]; exact List.mem_append_left _ reported
    · rw [secret]; exact derived.derived

theorem stepScoped (own : Scoped x reports s) (renewed : Renewed x codec s op)
    (move : s.step x codec op = some (t, emitted)) : Scoped x (reports ++ emitted) t := by
  have client := Session.stepClient move
  obtain ⟨tc, plans, waiting⟩ := t
  simp only at client
  cases client with
  | connected =>
    obtain ⟨unkeyed, empty⟩ := renewed.connects rfl
    refine ⟨.inl unkeyed, fun id buf found => ?_⟩
    have none : s.client.connect.reassembly = ∅ := empty
    rw [none] at found
    simp at found
  | kept _ _ same =>
    rw [same]
    exact ⟨keyKept own.key rfl rfl rfl, own.table⟩
  | pruned => exact ⟨keyKept own.key rfl rfl rfl, pruneScoped own.table⟩
  | turned turn =>
    have table := turnScoped own.table turn
    rw [Session.turnKeeps turn]
    exact ⟨keyKept own.key rfl rfl rfl, table⟩
  | @keyed clock inbox flags payload after pluginId ack key waiting turn decoded derived =>
    have table := turnScoped own.table turn
    have kept := Session.turnKeeps turn
    have accepted : ack.accepted = true := by
      refine renewed.accepted ack ⟨by simp [waiting], clock, inbox, flags, payload, rfl, Session.turnRan turn,
        decoded⟩ derived.nonce ?_
      obtain ⟨secret, held, real, -⟩ := derived.derived
      rw [kept] at held
      exact ⟨secret, held, real⟩
    refine ⟨.inr ⟨pluginId, ack, key, rfl, ?_, accepted, derived.nonce, derived.derived⟩, ?_⟩
    · simp
    · rw [kept] at table ⊢
      exact table

theorem connectFresh (unkeyed : s.client.sessionKey = none) :
    (∀ r fault, s.client.connect.sendRegister x codec r fault = (freshlyConnected s.client).sendRegister x codec r fault) ∧
      ∀ inbox, s.client.connect.nextFrame x inbox = (freshlyConnected s.client).nextFrame x inbox := by
  constructor
  · intro r fault
    simp only [VynkorClient.sendRegister, VynkorClient.registerPayload, VynkorClient.send, VynkorClient.sendRaw,
      VynkorClient.sendRawWithFlags, VynkorClient.sendUds, VynkorClient.connect, freshlyConnected, VynkorClient.new,
      unkeyed]
  · intro inbox
    simp only [VynkorClient.nextFrame, VynkorClient.connect, freshlyConnected, VynkorClient.new, unkeyed]

theorem rejectionKeeps (renewed : Renewed x codec s op) {ack : PluginRegisterAck} (arrives : AckArrives x codec s op ack)
    (rejected : ack.accepted = false) (move : s.step x codec op = some (t, emitted)) :
    t.client.sessionKey = s.client.sessionKey := by
  obtain ⟨waits, clock, inbox, flags, payload, rfl, got, decoded⟩ := arrives
  have client := Session.stepClient move
  generalize t.client = tc at client ⊢
  cases client with
  | kept _ notRecv _ => exact absurd rfl (notRecv clock inbox)
  | turned turn => rw [Session.turnKeeps turn]
  | @keyed _ _ flags' payload' after pluginId ack' key waiting turn decoded' derived =>
    have same := (Session.turnRan turn).symm.trans got
    cases same
    have content := decoded'.symm.trans decoded
    cases content
    have kept := Session.turnKeeps turn
    have accepted := renewed.accepted ack ⟨waits, clock, inbox, flags, payload, rfl, got, decoded⟩ derived.nonce (by
      obtain ⟨secret, held, real, -⟩ := derived.derived
      rw [kept] at held
      exact ⟨secret, held, real⟩)
    rw [rejected] at accepted
    contradiction

theorem stepIsolated (own : Scoped x reports s) (renewed : Renewed x codec s op) : Isolated x codec s op where
  fragments := fun _ _ _ _ _ _ buf _ _ _ found => pruneScoped own.table _ buf found
  fresh := fun same => connectFresh (renewed.connects same).1
  rejected := fun _ arrives rejected _ _ move => rejectionKeeps renewed arrives rejected move

end Steps

/- In a run whose connections find the client renewed, the key and the fragments
belong to the connection they are used on. -/
theorem sessionScoped (x : Externals) (codec : Codec) (c : VynkorClient) (unkeyed : c.sessionKey = none)
    (empty : c.reassembly = ∅) {operations : List Operation} {reports : List Report} {s : Session}
    (run : Runs (Session.machine x codec) (Renewed x codec) (.start c) operations reports s) :
    KeyScoped x reports s ∧ Runs (Session.machine x codec) (Isolated x codec) (.start c) operations reports s := by
  have base : Scoped x [] (.start c) := by
    refine ⟨.inl unkeyed, fun id buf found => ?_⟩
    rw [Session.start, empty] at found
    simp at found
  have keep (reports : List Report) (s : Session) (op : Operation) (t : Session) (emitted : List Report)
      (own : Scoped x reports s) (renewed : Renewed x codec s op)
      (move : (Session.machine x codec).step s op = some (t, emitted)) : Scoped x (reports ++ emitted) t :=
    stepScoped own renewed move
  exact ⟨(runsKeep (Scoped x) base keep run).key,
    runsStrengthen (Scoped x) base keep (fun _ _ _ own => stepIsolated own) run⟩

def sampleRegistering : List Operation := [.register sampleRegistration none, .recvFrame ⟨0, 1⟩ ⟨sampleReply, []⟩]

def sampleUse (operations : List Operation) : Option (Session × List Report) :=
  (Session.machine sampleExternals (sampleAckCodec [7])).run (.start (.new (some [1]))) operations

theorem sampleRenewed {s : Session} {op : Operation}
    (connects : op = .connect → s.client.sessionKey = none ∧ s.client.reassembly = ∅) :
    Renewed sampleExternals (sampleAckCodec [7]) s op where
  connects := connects
  accepted := by
    rintro ack ⟨-, clock, inbox, flags, payload, -, -, decoded⟩ - -
    unfold VynkorClient.decodeEnvelope at decoded
    split at decoded
    · cases decoded
    · cases decoded
      rfl

theorem sampleUsed : (sampleUse (.connect :: sampleRegistering)).isSome := by decide +kernel

theorem sessionScopedSample :
    KeyScoped sampleExternals ((sampleUse (.connect :: sampleRegistering)).get sampleUsed).2
      ((sampleUse (.connect :: sampleRegistering)).get sampleUsed).1 := by
  have run : sampleUse (.connect :: sampleRegistering) =
    some ((sampleUse (.connect :: sampleRegistering)).get sampleUsed) := (Option.some_get _).symm
  generalize (sampleUse (.connect :: sampleRegistering)).get sampleUsed = reached at run ⊢
  obtain ⟨s, reports⟩ := reached
  obtain ⟨t, first, later, move, rest, rfl⟩ := Machine.runCons.mp run
  have later := runsOfRunWhere (Renewed sampleExternals (sampleAckCodec [7])) (fun op member s => by
    refine sampleRenewed fun same => ?_
    subst same
    simp [sampleRegistering] at member) rest
  have whole := runsAppend (.next .idle (sampleRenewed fun _ => ⟨rfl, rfl⟩) move) later
  exact (sessionScoped sampleExternals (sampleAckCodec [7]) (.new (some [1])) rfl rfl whole).1

def sampleReconnecting : List Operation := .connect :: sampleRegistering ++ [.close, .connect]

theorem sampleStale : ∀ r ∈ sampleUse sampleReconnecting, r.1.client.sessionKey.isSome = true ∧
    (r.2.all fun report => match report with
      | .registered connection _ => connection != r.1.client.connection
      | _ => true) = true := by
  decide +kernel

theorem keyOutlivesConnection : ¬ ∀ (x : Externals) (codec : Codec) (c : VynkorClient) (operations : List Operation)
    (reports : List Report) (s : Session), c.sessionKey = none → c.reassembly = ∅ →
      Runs (Session.machine x codec) Always (.start c) operations reports s →
        KeyScoped x reports s ∧ Runs (Session.machine x codec) (Isolated x codec) (.start c) operations reports s := by
  intro claim
  have reconnected : (sampleUse sampleReconnecting).isSome := by decide +kernel
  have run : sampleUse sampleReconnecting = some ((sampleUse sampleReconnecting).get reconnected) :=
    (Option.some_get _).symm
  generalize (sampleUse sampleReconnecting).get reconnected = reached at run
  obtain ⟨keyed, none⟩ := sampleStale reached run
  rcases (claim _ _ _ _ _ _ rfl rfl (runsOfRun run)).1 with unkeyed | ⟨_, ack, _, _, reported, _⟩
  · rw [unkeyed] at keyed
    contradiction
  · have apart := List.all_eq_true.mp none _ reported
    simp at apart

end Vynkor
