import Vynkor.ReaderAgreement
import Vynkor.ReassemblyInvariant

/-! Which exceptions the readers let through on arbitrary bytes. A read that meets
the end of the stream raises `IncompleteReadError`, which is no `VynkorError`. -/
namespace Vynkor
open Octets (Bytes)
open Text Framing Reassembly ExactReader Labelled

def SdkOnly {α : Type} (outcome : Except Error α) : Prop := ∀ e, outcome = .error e → e.isVynkorError = true

def CallSdkOnly {α : Type} (outcome : Except (Halt Error) α) : Prop :=
  ∀ halt, outcome = .error halt → (Session.haltError halt).isVynkorError = true

section Frames
variable {x : Externals} {sessionKey : Option Bytes} {b : Bytes}

theorem headerSdk (raw : Bytes) : SdkOnly (parseHeader raw) := by
  intro e raised
  unfold parseHeader at raised
  repeat' split at raised
  all_goals first | contradiction | (cases raised; rfl)

theorem decompressSdk (payload : Bytes) : SdkOnly (decompress x payload) := by
  intro e raised
  unfold decompress at raised
  repeat' split at raised
  all_goals first | contradiction | (cases raised; rfl)

theorem openSdk {header : Header} {payload : Bytes} (targetFit : header.target.length = 32)
    (flagsFit : header.flags < 256 ^ 2) (payloadFit : payload.length ≤ maxPayload) :
    SdkOnly (openPayload x header payload) := by
  intro e raised
  unfold openPayload at raised
  split at raised
  · cases raised; rfl
  unfold Framing.normalize at raised
  split at raised
  · rw [headerBytesForFit targetFit flagsFit payloadFit] at raised
    contradiction
  · cases opened : decompress x payload with
    | error other =>
      simp only [opened, bind, Except.bind, Except.error.injEq] at raised
      subst raised
      exact decompressSdk payload other opened
    | ok out =>
      have small : out.length ≤ maxPayload := by
        unfold decompress at opened
        repeat' split at opened
        all_goals cases opened
        omega
      have plainFit : Octets.clear header.flags flagCompressed < 256 ^ 2 := Nat.lt_of_le_of_lt (Octets.clearLe _ _) flagsFit
      simp [opened, headerBytesForFit targetFit plainFit small, bind, Except.bind, pure, Except.pure] at raised

theorem tagSdk (plain : Plain) (tag : Bytes) : SdkOnly (checkTag x sessionKey plain tag) := by
  intro e raised
  unfold checkTag at raised
  repeat' split at raised
  all_goals cases raised
  rfl

theorem untaggedSdk : SdkOnly (checkUntagged sessionKey) := by
  intro e raised
  unfold checkUntagged at raised
  split at raised <;> cases raised
  rfl

theorem readTagSdk {plain : Plain} {stream : Bytes} {e : Error}
    (raised : ((readTag x sessionKey plain).run stream).1 = .error (.raised e)) : e.isVynkorError = true := by
  unfold readTag at raised
  split at raised
  · rw [Reader.haltBind] at raised
    obtain ⟨tag, _, _, checked⟩ := raised.resolve_left Reader.raisedRead
    exact tagSdk plain tag e (Reader.raisedExcept.mp checked)
  · exact untaggedSdk e (Reader.raisedExcept.mp raised)

theorem bodySdk {head after : Bytes} {e : Error} (size : head.length = headerSize)
    (raised : ((readBody x sessionKey head).run after).1 = .error (.raised e)) : e.isVynkorError = true := by
  unfold readBody at raised
  rw [Reader.haltBind, Reader.raisedExcept] at raised
  rcases raised with refused | ⟨header, _, parsing, inPayload⟩
  · exact headerSdk head e refused
  obtain ⟨-, flagsFit, lengthFit, targetFit⟩ := parsedHeader size (Reader.runOfExceptOk.mp parsing).1
  rw [Reader.haltBind] at inPayload
  rcases inPayload with cut | ⟨payload, _, reading, inFrame⟩
  · unfold readPayload at cut
    split at cut
    · exact absurd cut Reader.raisedRead
    · simp [Reader.runPure] at cut
  have length := (readPayloadOk.mp reading).2
  rw [Reader.haltBind, Reader.raisedExcept] at inFrame
  rcases inFrame with refused | ⟨plain, _, _, inTag⟩
  · exact openSdk targetFit flagsFit (length ▸ lengthFit) e refused
  rw [Reader.haltBind] at inTag
  rcases inTag with refused | ⟨_, _, _, returned⟩
  · exact readTagSdk refused
  · simp [Reader.runPure] at returned

theorem asyncSdk {e : Error} (raised : ((asyncReadFrame x sessionKey).run b).1 = .error (.raised e)) :
    e.isVynkorError = true := by
  unfold asyncReadFrame at raised
  rw [Reader.runSplitRead, Reader.haltBind] at raised
  obtain ⟨head, _, read, inBody⟩ := raised.resolve_left Reader.raisedRead
  exact bodySdk (Reader.runReadExactlyOk.mp read).2 inBody

theorem asyncCallSdk : CallSdkOnly ((asyncReadFrame x sessionKey).run b).1 ↔ ¬ Truncated x b := by
  rw [← asyncIncomplete sessionKey]
  constructor
  · intro only short
    exact absurd (only _ short) (by decide)
  · intro whole halt raised
    cases halt with
    | raised e => exact asyncSdk raised
    | incomplete => exact absurd raised whole

theorem streamSdk : SdkOnly (readStream x sessionKey b) := by
  intro e raised
  have same := streamFollows x sessionKey b
  rcases read : (asyncReadFrame x sessionKey).run b with ⟨(error | _) | value, rest⟩
  · simp only [read, raised, Except.error.injEq] at same
    subst same
    exact asyncSdk (congrArg Prod.fst read)
  · simp only [read, raised] at same
    obtain ⟨_, ⟨message, rfl⟩, fails⟩ := same
    cases fails
    rfl
  · simp [read, raised] at same

theorem buffersSdk : SdkOnly (readFrame x sessionKey b) ∧ SdkOnly (readFrameFromBytes x b sessionKey) := by
  obtain ⟨buffered, blob⟩ := readFrameOf (readStream x sessionKey b) rfl
  constructor
  · intro e raised
    rw [buffered] at raised
    cases read : readStream x sessionKey b with
    | error other =>
      simp only [read, Except.map, Except.error.injEq] at raised
      exact raised ▸ streamSdk other read
    | ok got => simp [read, Except.map] at raised
  · intro e raised
    rw [blob] at raised
    cases read : readStream x sessionKey b with
    | error other =>
      simp only [read, Except.map, Except.error.injEq] at raised
      exact raised ▸ streamSdk other read
    | ok got => simp [read, Except.map] at raised

end Frames

/- The stream ends before `recv_frame` has what it returns: inside the next frame or
right before it, or so after a fragment that leaves its message incomplete. -/
inductive EndsEarly (x : Externals) : VynkorClient → List Arrival → Bytes → Prop where
  | here {c clock later b} (short : Truncated x b) : EndsEarly x c (clock :: later) b
  | after {c clock later flags payload rest streams} (f : Frame)
      (delivers : f.deliver x c.sessionKey = .ok (flags, payload)) (part : flags &&& flagFragmented ≠ 0)
      (absorbed : absorbFragment clock.arrivedAt c.connection flags payload
        (pruneReassembly clock.prunedAt c.reassembly) = (.ok none, streams))
      (next : EndsEarly x { c with reassembly := streams } later rest) :
      EndsEarly x c (clock :: later) (f.bytes ++ rest)

section Loop
variable {x : Externals} {codec : Codec} {c : VynkorClient} {clock : Arrival} {clocks later : List Arrival} {inbox : Inbox}

theorem absorbSdk {streams : Streams} (ok : SoundStreams streams) (now : Time) (connection flags : Nat) (payload : Bytes) :
    SdkOnly (absorbFragment now connection flags payload streams).1 := by
  intro e raised
  cases parsed : parseFragHeader payload with
  | none =>
    simp only [absorbFragment, parsed] at raised
    cases raised
    rfl
  | some h =>
    have absorbed : Absorbs now flags h ⟨payload.drop fragHeaderSize, connection⟩ streams _ _ := absorbCases parsed
    generalize (absorbFragment now connection flags payload streams).1 = outcome at raised absorbed
    generalize (absorbFragment now connection flags payload streams).2 = table at absorbed
    cases absorbed with
    | invalid _ | mismatch _ _ | refused _ _ _ | oversized _ _ => cases raised; rfl
    | @completed buf valid home fits complete =>
      obtain ⟨consistent, total⟩ := homeConsistent ok home valid (fragHeaderFits parsed).1
      obtain ⟨whole, made, -⟩ := reassembleFull (putConsistent consistent (total ▸ valid)) complete
      simp [made, Except.map] at raised
    | buffered _ _ _ _ => contradiction

theorem wsSdk {sessionKey : Option Bytes} {messages rest : List WsMessage} {e : Error}
    (raised : VynkorClient.wsRecvFrame x sessionKey messages = (.error (.raised e), rest)) : e.isVynkorError = true := by
  induction messages with
  | nil => simp [VynkorClient.wsRecvFrame] at raised
  | cons message more ih =>
    cases message with
    | text _ | other => exact ih raised
    | closed reason =>
      simp only [VynkorClient.wsRecvFrame] at raised
      cases raised
      rfl
    | binary data =>
      simp only [VynkorClient.wsRecvFrame] at raised
      cases read : readFrameFromBytes x data sessionKey with
      | error other =>
        simp only [read, Except.mapError, Prod.mk.injEq, Except.error.injEq, Halt.raised.injEq] at raised
        exact raised.1 ▸ buffersSdk.2 other read
      | ok value => simp [read, Except.mapError] at raised

theorem wsEnds {sessionKey : Option Bytes} {messages rest : List WsMessage} {outcome : Except (Halt Error) (Nat × Bytes)}
    (ended : ∃ reason, .closed reason ∈ messages)
    (read : VynkorClient.wsRecvFrame x sessionKey messages = (outcome, rest)) :
    outcome ≠ .error .incomplete ∧
      ∀ value, outcome = .ok value → (∃ reason, .closed reason ∈ rest) ∧ rest.length < messages.length := by
  induction messages with
  | nil => simp at ended
  | cons message more ih =>
    cases message with
    | text _ | other =>
      obtain ⟨never, ok⟩ := ih (by simpa using ended) read
      exact ⟨never, fun value got => ⟨(ok value got).1, Nat.lt_succ_of_lt (ok value got).2⟩⟩
    | closed reason =>
      simp only [VynkorClient.wsRecvFrame] at read
      cases read
      constructor
      · intro cut
        cases cut
      · intro value got
        cases got
    | binary data =>
      simp only [VynkorClient.wsRecvFrame, Prod.mk.injEq] at read
      obtain ⟨rfl, rfl⟩ := read
      refine ⟨?_, fun value _ => ⟨by simpa using ended, by simp⟩⟩
      cases readFrameFromBytes x data sessionKey <;> simp [Except.mapError]

theorem nextFrameSdk (connected : c.Connected) {e : Error}
    (raised : (c.nextFrame x inbox).1 = .error (.raised e)) : e.isVynkorError = true := by
  unfold VynkorClient.nextFrame at raised
  cases kind : c.transport with
  | ws =>
    have there : c.webSocket = true := by simpa [VynkorClient.Connected, kind] using connected
    simp only [kind, there, if_true] at raised
    exact wsSdk (Prod.ext raised rfl)
  | uds =>
    have there : c.streams = true := by simpa [VynkorClient.Connected, kind] using connected
    simp only [kind, there, if_true] at raised
    exact asyncSdk raised

section Turn
variable {outcome : Except (Halt Error) (Option (Nat × Bytes))} {after : VynkorClient} {rest : Inbox}

theorem turnSdk (sound : SoundStreams c.reassembly) (connected : c.Connected) {e : Error}
    (ran : c.recvTurn x clock inbox = (.error (.raised e), after, rest)) : e.isVynkorError = true := by
  have turn := Session.turnCases ran
  generalize whole : (.error (.raised e) : Except (Halt Error) (Option (Nat × Bytes))) = outcome at turn
  cases turn with
  | stopped read =>
    cases whole
    exact nextFrameSdk (c := c.prune clock.prunedAt) connected (congrArg Prod.fst read)
  | plain _ _ => contradiction
  | @fragment flags payload rest got streams read part absorbed =>
    cases got with
    | error other =>
      cases whole
      have only := absorbSdk (pruneSound sound clock.prunedAt) clock.arrivedAt c.connection flags payload
      rw [absorbed] at only
      exact only _ rfl
    | ok value => contradiction

theorem turnLeaves (sound : SoundStreams c.reassembly) (connected : c.Connected)
    (ran : c.recvTurn x clock inbox = (outcome, after, rest)) :
    SoundStreams after.reassembly ∧ after.Connected ∧ after.transport = c.transport := by
  have turn := Session.turnCases ran
  have kept := Session.turnKeeps turn
  refine ⟨(turnSound sound turn).1, ?_, ?_⟩
  · rw [kept]
    exact connected
  · rw [kept]

end Turn

theorem recvFrameSdk (sound : SoundStreams c.reassembly) (connected : c.Connected) {e : Error}
    (raised : (c.recvFrame x clocks inbox).1 = .error (.raised e)) : e.isVynkorError = true := by
  induction clocks generalizing c inbox with
  | nil => simp [VynkorClient.recvFrame] at raised
  | cons clock later ih =>
    unfold VynkorClient.recvFrame at raised
    rcases ran : c.recvTurn x clock inbox with ⟨halt | (_ | frame), after, rest⟩
    · simp only [ran, Except.error.injEq] at raised
      subst raised
      exact turnSdk sound connected ran
    · simp only [ran] at raised
      obtain ⟨soundAfter, connectedAfter, -⟩ := turnLeaves sound connected ran
      exact ih soundAfter connectedAfter raised
    · simp [ran] at raised

theorem endsEarlyCases {b : Bytes} :
    EndsEarly x c (clock :: later) b ↔ Truncated x b ∨
      ∃ flags payload rest streams, (asyncReadFrame x c.sessionKey).run b = (.ok (flags, payload), rest) ∧
        flags &&& flagFragmented ≠ 0 ∧
        absorbFragment clock.arrivedAt c.connection flags payload (pruneReassembly clock.prunedAt c.reassembly) =
          (.ok none, streams) ∧ EndsEarly x { c with reassembly := streams } later rest := by
  constructor
  · intro early
    cases early with
    | here short => exact .inl short
    | after f delivers part absorbed next =>
      exact .inr ⟨_, _, _, _, asyncReadsFrame delivers _, part, absorbed, next⟩
  · rintro (short | ⟨flags, payload, rest, streams, read, part, absorbed, next⟩)
    · exact .here short
    · obtain ⟨f, rfl, delivers⟩ := asyncAccepted read
      exact .after f delivers part absorbed next

theorem udsTurn (uds : c.transport = .uds) (there : c.streams = true) :
    c.recvTurn x clock inbox =
      match (asyncReadFrame x c.sessionKey).run inbox.stream with
      | (.error halt, rest) => (.error halt, c.prune clock.prunedAt, { inbox with stream := rest })
      | (.ok (flags, payload), rest) =>
        ((((c.prune clock.prunedAt).acceptFrame clock.arrivedAt flags payload).1.mapError .raised),
          ((c.prune clock.prunedAt).acceptFrame clock.arrivedAt flags payload).2, { inbox with stream := rest }) := by
  unfold VynkorClient.recvTurn VynkorClient.nextFrame
  simp only [VynkorClient.prune, uds, there, if_true]
  rcases (asyncReadFrame x c.sessionKey).run inbox.stream with ⟨halt | value, rest⟩ <;> rfl

theorem udsIncomplete (uds : c.transport = .uds) (there : c.streams = true) (enough : inbox.stream.length < clocks.length) :
    (c.recvFrame x clocks inbox).1 = .error .incomplete ↔ EndsEarly x c clocks inbox.stream := by
  induction clocks generalizing c inbox with
  | nil => simp at enough
  | cons clock later ih =>
    rw [endsEarlyCases, ← asyncIncomplete c.sessionKey]
    unfold VynkorClient.recvFrame
    rw [udsTurn uds there]
    rcases read : (asyncReadFrame x c.sessionKey).run inbox.stream with ⟨halt | ⟨flags, payload⟩, rest⟩
    · simp
    · obtain ⟨f, stream, -⟩ := asyncAccepted read
      have shorter : rest.length < later.length := by
        have header := f.bytesLength
        rw [stream, List.length_append, header] at enough
        simp only [headerSize, List.length_cons] at enough
        omega
      by_cases part : flags &&& flagFragmented = 0
      · simp [VynkorClient.acceptFrame, part, Except.mapError]
      · rcases absorbed : absorbFragment clock.arrivedAt c.connection flags payload
          (pruneReassembly clock.prunedAt c.reassembly) with ⟨e | (_ | whole), streams⟩
        · simp [VynkorClient.acceptFrame, VynkorClient.prune, part, absorbed, Except.mapError]
        · have next := @ih { c with reassembly := streams } { inbox with stream := rest } uds there shorter
          simp [VynkorClient.acceptFrame, VynkorClient.prune, part, absorbed, Except.mapError, next]
        · simp [VynkorClient.acceptFrame, VynkorClient.prune, part, absorbed, Except.mapError]

theorem wsTurn (ws : c.transport = .ws) (there : c.webSocket = true) :
    c.recvTurn x clock inbox =
      match VynkorClient.wsRecvFrame x c.sessionKey inbox.messages with
      | (.error halt, rest) => (.error halt, c.prune clock.prunedAt, { inbox with messages := rest })
      | (.ok (flags, payload), rest) =>
        ((((c.prune clock.prunedAt).acceptFrame clock.arrivedAt flags payload).1.mapError .raised),
          ((c.prune clock.prunedAt).acceptFrame clock.arrivedAt flags payload).2, { inbox with messages := rest }) := by
  unfold VynkorClient.recvTurn VynkorClient.nextFrame
  simp only [VynkorClient.prune, ws, there, if_true]
  rcases VynkorClient.wsRecvFrame x c.sessionKey inbox.messages with ⟨halt | value, rest⟩ <;> rfl

theorem wsComplete (ws : c.transport = .ws) (there : c.webSocket = true) (ended : ∃ reason, .closed reason ∈ inbox.messages)
    (enough : inbox.messages.length < clocks.length) : (c.recvFrame x clocks inbox).1 ≠ .error .incomplete := by
  induction clocks generalizing c inbox with
  | nil => simp at enough
  | cons clock later ih =>
    unfold VynkorClient.recvFrame
    rw [wsTurn ws there]
    rcases read : VynkorClient.wsRecvFrame x c.sessionKey inbox.messages with ⟨halt | ⟨flags, payload⟩, rest⟩
    · have never := (wsEnds ended read).1
      simpa using never
    · obtain ⟨still, shorter⟩ := (wsEnds ended read).2 _ rfl
      have fewer : rest.length < later.length := by
        simp only [List.length_cons] at enough
        omega
      by_cases part : flags &&& flagFragmented = 0
      · simp [VynkorClient.acceptFrame, part, Except.mapError]
      · rcases absorbed : absorbFragment clock.arrivedAt c.connection flags payload
          (pruneReassembly clock.prunedAt c.reassembly) with ⟨e | (_ | whole), streams⟩
        · simp [VynkorClient.acceptFrame, VynkorClient.prune, part, absorbed, Except.mapError]
        · have next := @ih { c with reassembly := streams } { inbox with messages := rest } ws there still fewer
          simp [VynkorClient.acceptFrame, VynkorClient.prune, part, absorbed, Except.mapError, next]
        · simp [VynkorClient.acceptFrame, VynkorClient.prune, part, absorbed, Except.mapError]

/- The transport has ended: the WebSocket is closed behind its messages, and a
finished stream is what `Inbox.stream` is. -/
def Ended (c : VynkorClient) (inbox : Inbox) : Prop :=
  c.transport = .ws → ∃ reason, .closed reason ∈ inbox.messages

theorem recvFrameIncomplete (connected : c.Connected) (ended : Ended c inbox)
    (enough : inbox.stream.length + inbox.messages.length < clocks.length) :
    (c.recvFrame x clocks inbox).1 = .error .incomplete ↔ c.transport = .uds ∧ EndsEarly x c clocks inbox.stream := by
  cases kind : c.transport with
  | uds =>
    have there : c.streams = true := by simpa [VynkorClient.Connected, kind] using connected
    simp only [true_and]
    exact udsIncomplete kind there (by omega)
  | ws =>
    have there : c.webSocket = true := by simpa [VynkorClient.Connected, kind] using connected
    simp only [reduceCtorEq, false_and, iff_false]
    exact wsComplete kind there (ended kind) (by omega)

theorem recvFrameCallSdk (sound : SoundStreams c.reassembly) (connected : c.Connected) (ended : Ended c inbox)
    (enough : inbox.stream.length + inbox.messages.length < clocks.length) :
    CallSdkOnly (c.recvFrame x clocks inbox).1 ↔ ¬ (c.transport = .uds ∧ EndsEarly x c clocks inbox.stream) := by
  rw [← recvFrameIncomplete connected ended enough]
  constructor
  · intro only short
    exact absurd (only _ short) (by decide)
  · intro whole halt raised
    cases halt with
    | raised e => exact recvFrameSdk sound connected raised
    | incomplete => exact absurd raised whole

/- `recv` adds the refusal of raw-binary frames and the errors of the parser, both
the SDK's own. -/
theorem recvCallSdk : CallSdkOnly (c.recv x codec clocks inbox).1 ↔ CallSdkOnly (c.recvFrame x clocks inbox).1 := by
  have outcome : (c.recv x codec clocks inbox).1 = (c.recvFrame x clocks inbox).1.bind fun frame =>
    (VynkorClient.decodeEnvelope codec frame.1 frame.2).mapError .raised := rfl
  rw [outcome]
  cases (c.recvFrame x clocks inbox).1 with
  | error halt =>
    constructor
    · intro only other same
      cases same
      exact only _ rfl
    · intro only other same
      cases same
      exact only _ rfl
  | ok frame =>
    refine iff_of_true (fun halt raised => ?_) nofun
    simp only [Except.bind, VynkorClient.decodeEnvelope] at raised
    split at raised
    · cases raised
      rfl
    · cases parsed : codec.parse frame.2 with
      | error text =>
        simp only [parsed, Except.mapError, Except.error.injEq] at raised
        subst raised
        rfl
      | ok envelope => simp [parsed, Except.mapError] at raised

end Loop

/- On input that has ended, malformed or not, only `IncompleteReadError` escapes the SDK's
own errors, and it does exactly where a UDS stream ends too early. The client may have
done anything before; the clock has a reading for every turn the loop may take. -/
theorem malformedInput (x : Externals) (codec : Codec) (sessionKey : Option Bytes) (b : Bytes)
    (built : VynkorClient) (fresh : built.reassembly = ∅) {operations : List Operation} {reports : List Report} {s : Session}
    (run : Runs (Session.machine x codec) Always (.start built) operations reports s)
    (inbox : Inbox) (connected : s.client.Connected) (ended : Ended s.client inbox)
    (clocks : List Arrival) (enough : inbox.stream.length + inbox.messages.length < clocks.length) :
    SdkOnly (readFrame x sessionKey b) ∧ SdkOnly (readFrameFromBytes x b sessionKey) ∧
    (CallSdkOnly ((asyncReadFrame x sessionKey).run b).1 ↔ ¬ Truncated x b) ∧
    (CallSdkOnly (s.client.recvFrame x clocks inbox).1 ↔
      ¬ (s.client.transport = .uds ∧ EndsEarly x s.client clocks inbox.stream)) ∧
    (CallSdkOnly (s.client.recv x codec clocks inbox).1 ↔
      ¬ (s.client.transport = .uds ∧ EndsEarly x s.client clocks inbox.stream)) := by
  have sound := (soundRuns fresh (fun _ _ _ _ => trivial : ∀ s op, _ → _ → Always s op) run).1
  have loop := recvFrameCallSdk (x := x) sound connected ended enough
  exact ⟨buffersSdk.1, buffersSdk.2, asyncCallSdk, loop, recvCallSdk.trans loop⟩

theorem malformedInputSample :
    SdkOnly (readFrame sampleExternals (some sampleKey) [0x56]) ∧
      CallSdkOnly ((VynkorClient.connectWs none).recvFrame sampleExternals (List.replicate 3 ⟨0, 1⟩)
        ⟨[], [.binary [0x56], .closed (lit "1000")]⟩).1 := by
  obtain ⟨buffered, -, -, loop, -⟩ := malformedInput sampleExternals sampleCodec (some sampleKey) [0x56]
    (.connectWs none) rfl .idle ⟨[], [.binary [0x56], .closed (lit "1000")]⟩ rfl (fun _ => ⟨lit "1000", by simp⟩)
    (List.replicate 3 ⟨0, 1⟩) (by decide)
  exact ⟨buffered, loop.mpr (fun early => nomatch early.1)⟩

theorem truncationEscapes : ¬ ∀ (x : Externals) (sessionKey : Option Bytes) (b : Bytes),
    SdkOnly (readFrame x sessionKey b) ∧ SdkOnly (readFrameFromBytes x b sessionKey) ∧
      CallSdkOnly ((asyncReadFrame x sessionKey).run b).1 := by
  intro claim
  have ran : ((asyncReadFrame sampleExternals none).run [0x56]).1 = .error .incomplete := by decide +kernel
  exact absurd ((claim sampleExternals none [0x56]).2.2 _ ran) (by decide)

end Vynkor
