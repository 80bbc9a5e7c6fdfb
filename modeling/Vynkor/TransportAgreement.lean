import Vynkor.Library.Lockstep
import Vynkor.MacDowngrade
import Vynkor.MalformedInput

/-! A session over a WebSocket beside the same session over UDS. On the way out they
differ in compression, on the way in each message of the gateway holds one frame,
and the failures of the transport itself go by other names. -/
namespace Vynkor
open Octets (Bytes crc32)
open Text Framing Reassembly ExactReader Labelled

section Frames
variable {x : Externals} {target : Str} {payload : Bytes} {flags : Nat} {sessionKey : Option Bytes} {a b c : Bytes}

def SameRead (x : Externals) (a b : Bytes) : Prop :=
  ∀ sessionKey rest, (asyncReadFrame x sessionKey).run (a ++ rest) = (asyncReadFrame x sessionKey).run (b ++ rest)

theorem sameReadRefl (a : Bytes) : SameRead x a a := fun _ _ => rfl

theorem headedOpens (f : Frame) (after : Bytes) :
    (asyncReadFrame x sessionKey).run (f.header ++ f.body ++ after) =
      (do let plain ← Reader.ofExcept (normalize x f.flags f.target f.body)
          readTag x sessionKey plain
          return (plain.flags, plain.payload) : Reader UInt8 Error (Nat × Bytes)).run after := by
  have opened : openPayload x f.read f.body = normalize x f.flags f.target f.body := by
    simp [openPayload, Frame.read]
  have payload : (readPayload f.body.length).run (f.body ++ after) = (.ok f.body, after) := readPayloadOk.mpr ⟨rfl, rfl⟩
  have head : (Reader.readExactly (1 + (headerSize - 1)) : Reader UInt8 Error Bytes).run
      (f.header ++ (f.body ++ after)) = (.ok f.header, f.body ++ after) :=
    Reader.runReadExactly f.headerLength
  unfold asyncReadFrame
  rw [Reader.runSplitRead, List.append_assoc, Reader.runBind, head]
  simp only [readBody]
  rw [Reader.runBind, f.parsed, Reader.runOfExcept]
  simp only [Except.mapError]
  rw [Reader.runBind, show f.read.length = f.body.length from rfl, payload]
  simp only [opened]

theorem writtenOpens {target body : Bytes} (after : Bytes) (flagsFit : flags < 256 ^ 2) (targetFit : target.length = 32)
    (bodyFit : body.length ≤ maxPayload) :
    (asyncReadFrame x sessionKey).run (headerBytes flags body.length target (crc32 body) ++ body ++ after) =
      (do let plain ← Reader.ofExcept (normalize x flags target body)
          readTag x sessionKey plain
          return (plain.flags, plain.payload) : Reader UInt8 Error (Nat × Bytes)).run after :=
  headedOpens ⟨flags, target, body, List.replicate (if flags &&& flagMacPresent = 0 then 0 else 32) 0, flagsFit,
    targetFit, bodyFit, List.length_replicate⟩ after

theorem compressionUnseen (lossless : x.zstdDecompress (x.zstdCompress payload) maxPayload = .ok payload)
    (one : packFrame x target payload flags sessionKey true = .ok a)
    (other : packFrame x target payload flags sessionKey false = .ok b) : SameRead x a b := by
  obtain ⟨fits, flagsFit, t, addressed⟩ := packFrameOk one
  have size := targetBytesLength addressed
  have announcedFit := announcedFits sessionKey flagsFit
  rw [packFrameFit fits flagsFit addressed] at one other
  have plain : wireForm x (announced sessionKey flags) payload false = (payload, announced sessionKey flags) := by
    simp [wireForm]
  rw [plain] at other
  cases one
  cases other
  rcases wireFormCases x (announced sessionKey flags) payload true with same | ⟨shorter, smaller, unset⟩
  · rw [same]
    exact sameReadRefl _
  · intro readerKey rest
    have normal := normalizeWireForm true fits announcedFit size unset lossless
    have uncompressed := normalizeWireForm (x := x) false fits announcedFit size unset lossless
    have wireFit := (wireFormFits x payload true announcedFit).2
    rw [shorter] at normal wireFit ⊢
    rw [plain] at uncompressed
    rw [List.append_assoc, List.append_assoc _ _ rest, writtenOpens _ wireFit size (Nat.le_trans (Nat.le_of_lt smaller) fits),
      writtenOpens _ announcedFit size fits, normal, uncompressed]

def Exact (x : Externals) (a : Bytes) : Prop := ∀ sessionKey rest, ((asyncReadFrame x sessionKey).run (a ++ rest)).2 = rest

theorem frameExact {f : Frame} {plain : Plain} (opens : normalize x f.flags f.target f.body = .ok plain) : Exact x f.bytes := by
  intro readerKey rest
  have mac := normalizeMac f.targetFit f.flagsFit f.bodyFit opens
  rw [asyncOpens, opens, Reader.runBind, Reader.runOfExcept]
  simp only [Except.mapError]
  rw [Reader.runBind]
  by_cases untagged : plain.flags &&& flagMacPresent = 0
  · have none : f.tag = [] := List.eq_nil_of_length_eq_zero (by rw [f.tagFit, if_pos (mac ▸ untagged)])
    simp only [readTag, untagged, ne_eq, not_true_eq_false, if_false, Reader.runOfExcept, none, List.nil_append]
    cases checkUntagged readerKey <;> rfl
  · have size : f.tag.length = 32 := by rw [f.tagFit, if_neg (mac ▸ untagged)]
    simp only [readTag, untagged, ne_eq, not_false_eq_true, if_true, Reader.runBind, Reader.runReadExactly size,
      Reader.runOfExcept]
    cases checkTag x readerKey plain f.tag <;> rfl

theorem packedExact (lossless : Lossless x) {compress : Bool} (honest : sessionKey.isSome ∨ flags &&& flagMacPresent = 0)
    (unset : announced sessionKey flags &&& flagCompressed = 0)
    (packed : packFrame x target payload flags sessionKey compress = .ok a) : Exact x a := by
  obtain ⟨fits, flagsFit, t, addressed⟩ := packFrameOk packed
  obtain ⟨f, made, rfl, wire, -⟩ := packFrameIsFrame (x := x) compress fits flagsFit addressed honest
  cases made.symm.trans packed
  have opens := normalizeWireForm compress fits (announcedFits sessionKey flagsFit) f.targetFit unset (lossless payload fits)
  rw [← wire] at opens
  exact frameExact opens

theorem headerUnfit {length checksum : Nat} {target : Bytes} (unfit : ¬ flags < 256 ^ 2) :
    packHeader flags length target checksum = .error .structError := by
  unfold packHeader
  rw [if_neg fun fit => unfit fit.1]

theorem unfitRaises {t : Bytes} (compress : Bool) (fits : payload.length ≤ maxPayload) (unfit : ¬ flags < 256 ^ 2)
    (addressed : targetBytes target = .ok t) :
    packFrame x target payload flags sessionKey compress = .error .structError := by
  have grows : flags ≤ announced sessionKey flags := by
    unfold announced
    split
    · exact Nat.left_le_or
    · exact Nat.le_refl _
  have wide : ¬ announced sessionKey flags < 256 ^ 2 := by omega
  have wire : ¬ (wireForm x (announced sessionKey flags) payload compress).2 < 256 ^ 2 := by
    rcases wireFormCases x (announced sessionKey flags) payload compress with same | ⟨other, -, -⟩
    · rw [same]
      exact wide
    · have more : announced sessionKey flags ≤ announced sessionKey flags ||| flagCompressed := Nat.left_le_or
      rw [other]
      omega
  unfold packFrame
  cases sessionKey with
  | none =>
    simp only [announced, Option.isSome_none, Bool.false_eq_true, if_false] at wire ⊢
    simp only [if_neg (Nat.not_lt.mpr fits), addressed, headerUnfit wire, pure, Except.pure, bind, Except.bind]
  | some key =>
    simp only [announced, Option.isSome_some, if_true] at wide ⊢
    simp only [if_neg (Nat.not_lt.mpr fits), addressed, headerBytesFor, headerUnfit wide, bind, Except.bind]

theorem packRaises {e : Error} (compress other : Bool)
    (raised : packFrame x target payload flags sessionKey compress = .error e) :
    packFrame x target payload flags sessionKey other = .error e := by
  by_cases fits : payload.length ≤ maxPayload
  · cases addressed : targetBytes target with
    | error unencodable =>
      have fails (way : Bool) : packFrame x target payload flags sessionKey way = .error unencodable := by
        unfold packFrame
        cases sessionKey <;> simp [Nat.not_lt.mpr fits, addressed, bind, Except.bind, pure, Except.pure]
      rw [← raised, fails, fails]
    | ok t =>
      by_cases small : flags < 256 ^ 2
      · rw [packFrameFit fits small addressed] at raised
        contradiction
      · rw [← raised, unfitRaises other fits small addressed, unfitRaises compress fits small addressed]
  · have big : payload.length > maxPayload := Nat.lt_of_not_le fits
    rw [← raised]
    simp [packFrame, big, throw, throwThe, MonadExceptOf.throw, bind, Except.bind]

end Frames

def VynkorClient.overWs (c : VynkorClient) : VynkorClient :=
  { c with transport := .ws, streams := false, webSocket := c.streams }

def webSocketFault (text : Str) : Error := .internal (lit "websocket send failed: " ++ text)
def webSocketClosed (reason : Str) : Error := .internal (lit "websocket connection closed: " ++ reason)

inductive SameFault : Error → Error → Prop where
  | same (e : Error) : SameFault e e
  | broken (text : Str) : SameFault (.connectionError text) (webSocketFault text)
  | unsent : SameFault VynkorClient.notConnected (webSocketFault VynkorClient.noWebSocket)
  | unread : SameFault VynkorClient.notConnected (.assertionError (lit "not connected (ws)"))
  | ended (reason : Str) : SameFault .incompleteRead (webSocketClosed reason)

inductive SameReport (x : Externals) : Report → Report → Prop where
  | wrote {a b} (read : SameRead x a b) : SameReport x (.wrote a) (.wrote b)
  | raised {e e'} (fault : SameFault e e') : SameReport x (.raised e) (.raised e')
  | delivered (flags : Nat) (payload : Bytes) : SameReport x (.delivered flags payload) (.delivered flags payload)
  | registered (connection : Nat) (ack : PluginRegisterAck) :
      SameReport x (.registered connection ack) (.registered connection ack)

def Skipped : WsMessage → Prop
  | .text _ | .other => True
  | .binary _ | .closed _ => False

/- The gateway puts what lies next on the stream into one message, or closes where
the stream ends. -/
inductive Forwarded (x : Externals) (stream : Bytes) (messages : List WsMessage) : Prop where
  | frame {a b rest more skipped later} (read : SameRead x a b) (whole : HoldsFrame b) (ahead : stream = a ++ rest)
      (others : ∀ m ∈ skipped, Skipped m) (message : messages = skipped ++ .binary (b ++ more) :: later)
  | ended {reason skipped later} (short : Truncated x stream) (others : ∀ m ∈ skipped, Skipped m)
      (message : messages = skipped ++ .closed reason :: later)

/- So many receives find the next frame on the stream in the next message. All but the last
take it whole; after a frame that is not taken whole, or the end, the two are out of step. -/
inductive Aligned (x : Externals) : Nat → Bytes → List WsMessage → Prop where
  | nothing {stream messages} : Aligned x 0 stream messages
  | frame {count a b rest more skipped later} (read : SameRead x a b) (whole : HoldsFrame b) (exact : Exact x a)
      (others : ∀ m ∈ skipped, Skipped m) (next : Aligned x count rest later) :
      Aligned x (count + 1) (a ++ rest) (skipped ++ .binary (b ++ more) :: later)
  | last {stream messages} (forwarded : Forwarded x stream messages) : Aligned x 1 stream messages

/- What the client is told to do. A receive reads on where the last one has ended, and one
that is cancelled between two frames has passed over some messages. `send_fragmented` is not
for WebSockets, and a WebSocket client is not connected twice. -/
inductive Call where
  | close
  | send (target : Str) (flags : Nat) (payload : Bytes) (fault : Option Str)
  | register (r : Registration) (fault : Option Str)
  | recvFrame (clock : Arrival)
  | recvCancelled (prunedAt : Time) (passed : Nat)
  deriving DecidableEq, Repr

def Call.receives : Call → Bool
  | .recvFrame _ => true
  | _ => false

def passOver : Nat → List WsMessage → List WsMessage
  | passed + 1, .text _ :: later | passed + 1, .other :: later => passOver passed later
  | _, messages => messages

structure Connection where
  session : Session
  inbox : Inbox

namespace Connection
variable (x : Externals) (codec : Codec)

def does (s : Connection) (op : Operation) (left : Inbox) : Option (Connection × List Report) :=
  (s.session.step x codec op).map fun (session, reports) => (⟨session, left⟩, reports)

def step (s : Connection) : Call → Option (Connection × List Report)
  | .close => s.does x codec .close s.inbox
  | .send target flags payload fault => s.does x codec (.send target flags payload fault) s.inbox
  | .register r fault => s.does x codec (.register r fault) s.inbox
  | .recvFrame clock => s.does x codec (.recvFrame clock s.inbox) (s.session.client.recvTurn x clock s.inbox).2.2
  | .recvCancelled prunedAt passed =>
    s.does x codec (.recvCancelled prunedAt) { s.inbox with messages := passOver passed s.inbox.messages }

def machine : Machine Connection Call Report := ⟨step x codec⟩

end Connection

def Twins (s t : Session) : Prop :=
  s.client.transport = .uds ∧ t = { s with client := s.client.overWs }

structure Beside (x : Externals) (calls : List Call) (s t : Connection) : Prop where
  twins : Twins s.session t.session
  aligned : Aligned x (calls.countP Call.receives) s.inbox.stream t.inbox.messages

section Sessions
variable {x : Externals} {codec : Codec} {c : VynkorClient} {s t : Session}

inductive SameSent (x : Externals) : List Bytes × Except Error Unit → List Bytes × Except Error Unit → Prop where
  | sent {a b} (read : SameRead x a b) : SameSent x ([a], .ok ()) ([b], .ok ())
  | failed {e e' handed handed'} (fault : SameFault e e') (read : List.Forall₂ (SameRead x) handed handed') :
      SameSent x (handed, .error e) (handed', .error e')

theorem sendsSame (lossless : Lossless x) (uds : c.transport = .uds) (target : Str) (flags : Nat) (payload : Bytes)
    (fault : Option Str) :
    SameSent x (c.sendRawWithFlags x target flags payload fault) (c.overWs.sendRawWithFlags x target flags payload fault) := by
  have ws : c.overWs.transport = .ws := rfl
  simp only [VynkorClient.sendRawWithFlags, uds, ws, VynkorClient.sendUds, VynkorClient.sendWs]
  have key : c.overWs.sessionKey = c.sessionKey := rfl
  rw [key]
  cases packed : packFrame x target payload flags c.sessionKey true with
  | error e =>
    by_cases big : payload.length > maxPayload
    · have first : packFrame x target payload flags c.sessionKey true = .error (.payloadTooLarge payload.length) := by
        simp [packFrame, big, throw, throwThe, MonadExceptOf.throw, bind, Except.bind]
      rw [if_pos big]
      cases first.symm.trans packed
      exact .failed (.same _) .nil
    · rw [if_neg big, packRaises true false packed]
      exact .failed (.same e) .nil
  | ok a =>
    have fits := (packFrameOk packed).1
    rw [if_neg (Nat.not_lt.mpr fits)]
    cases plain : packFrame x target payload flags c.sessionKey false with
    | error e => exact absurd (packRaises false true plain) (by simp [packed])
    | ok b =>
      have read := compressionUnseen (lossless payload fits) packed plain
      have opened : c.overWs.webSocket = c.streams := rfl
      simp only [opened]
      cases c.streams with
      | false => exact .failed .unsent .nil
      | true =>
        cases fault with
        | none => exact .sent read
        | some text => exact .failed (.broken text) (.cons read .nil)

theorem sentReports {sent sent' : List Bytes × Except Error Unit} (same : SameSent x sent sent') :
    List.Forall₂ (SameReport x) (Session.sendReports .wrote sent) (Session.sendReports .wrote sent') := by
  cases same with
  | sent read => exact .cons (.wrote read) .nil
  | failed fault read =>
    refine List.rel_append ?_ (.cons (.raised fault) .nil)
    rw [List.forall₂_map_left_iff, List.forall₂_map_right_iff]
    exact read.imp fun _ _ one => .wrote one

theorem skips {sessionKey : Option Bytes} {skipped : List WsMessage} (others : ∀ m ∈ skipped, Skipped m)
    (messages : List WsMessage) :
    VynkorClient.wsRecvFrame x sessionKey (skipped ++ messages) = VynkorClient.wsRecvFrame x sessionKey messages := by
  induction skipped with
  | nil => rfl
  | cons m later ih =>
    have rest := ih fun m member => others m (List.mem_cons_of_mem _ member)
    cases m with
    | text _ | other => exact rest
    | binary _ | closed _ => exact (others _ List.mem_cons_self).elim

inductive SameNext : Except (Halt Error) (Nat × Bytes) → Except (Halt Error) (Nat × Bytes) → Prop where
  | got (value : Nat × Bytes) : SameNext (.ok value) (.ok value)
  | failed {halt halt'} (fault : SameFault (Session.haltError halt) (Session.haltError halt')) :
      SameNext (.error halt) (.error halt')

theorem blobReads (sessionKey : Option Bytes) {a b : Bytes} (read : SameRead x a b) (whole : HoldsFrame b) (rest more : Bytes) :
    ((asyncReadFrame x sessionKey).run (a ++ rest)).1 = (readFrameFromBytes x (b ++ more) sessionKey).mapError .raised := by
  have ended : ((asyncReadFrame x sessionKey).run b).1 ≠ .error .incomplete :=
    fun short => holdsUntruncated whole ((asyncIncomplete sessionKey).mp short)
  have stream : ((asyncReadFrame x sessionKey).run (a ++ rest)).1 = ((asyncReadFrame x sessionKey).run (b ++ more)).1 := by
    rw [read sessionKey rest, Reader.runExtend ended, Reader.runExtend ended]
  have longer : ((asyncReadFrame x sessionKey).run (b ++ more)).1 ≠ .error .incomplete := by
    rw [Reader.runExtend ended]
    exact ended
  have same := streamFollows x sessionKey (b ++ more)
  rw [stream]
  unfold readFrameFromBytes
  rcases got : (asyncReadFrame x sessionKey).run (b ++ more) with ⟨(e | _) | value, left⟩
  · simp only [got] at same
    rw [same]
    rfl
  · exact absurd (congrArg Prod.fst got) longer
  · simp only [got] at same
    rw [same]
    rfl

theorem alignedForwarded {count : Nat} {stream : Bytes} {messages : List WsMessage} (aligned : Aligned x (count + 1) stream messages) :
    Forwarded x stream messages := by
  cases aligned with
  | frame read whole exact others next => exact .frame read whole rfl others rfl
  | last forwarded => exact forwarded

theorem alignedFewer {count : Nat} {stream : Bytes} {messages : List WsMessage} (aligned : Aligned x (count + 1) stream messages) :
    Aligned x count stream messages := by
  induction count generalizing stream messages with
  | zero => exact .nothing
  | succ count ih =>
    cases aligned with
    | frame read whole exact others next => exact .frame read whole exact others (ih next)

theorem passedOver (passed : Nat) {skipped later : List WsMessage} {m : WsMessage} (others : ∀ m ∈ skipped, Skipped m)
    (waited : ¬ Skipped m) : ∃ left, (∀ m ∈ left, Skipped m) ∧ passOver passed (skipped ++ m :: later) = left ++ m :: later := by
  induction skipped generalizing passed with
  | nil =>
    refine ⟨[], nofun, ?_⟩
    cases m with
    | text _ | other => exact absurd trivial waited
    | binary _ | closed _ => cases passed <;> rfl
  | cons first rest ih =>
    obtain ⟨own, more⟩ := List.forall_mem_cons.mp others
    cases passed with
    | zero =>
      refine ⟨first :: rest, others, ?_⟩
      cases first <;> rfl
    | succ passed =>
      obtain ⟨left, skips, same⟩ := ih passed more
      cases first with
      | text _ | other => exact ⟨left, skips, same⟩
      | binary _ | closed _ => exact own.elim

theorem alignedPassed {count : Nat} {stream : Bytes} {messages : List WsMessage} (passed : Nat)
    (aligned : Aligned x count stream messages) : Aligned x count stream (passOver passed messages) := by
  cases aligned with
  | nothing => exact .nothing
  | frame read whole exact others next =>
    obtain ⟨left, skips, same⟩ := passedOver (m := .binary _) passed others id
    rw [same]
    exact .frame read whole exact skips next
  | last forwarded =>
    cases forwarded with
    | frame read whole ahead others message =>
      obtain ⟨left, skips, same⟩ := passedOver (m := .binary _) passed others id
      rw [message, same]
      exact .last (.frame read whole ahead skips rfl)
    | ended short others message =>
      obtain ⟨left, skips, same⟩ := passedOver (m := .closed _) passed others id
      rw [message, same]
      exact .last (.ended short skips rfl)

theorem nextAligned {count : Nat} {inbox inbox' : Inbox} (uds : c.transport = .uds)
    (aligned : Aligned x (count + 1) inbox.stream inbox'.messages) :
    Aligned x count (c.nextFrame x inbox).2.stream (c.overWs.nextFrame x inbox').2.messages := by
  have ws : c.overWs.transport = .ws := rfl
  have opened : c.overWs.webSocket = c.streams := rfl
  unfold VynkorClient.nextFrame
  simp only [uds, ws, opened]
  cases c.streams with
  | false => exact alignedFewer aligned
  | true =>
    simp only [if_true]
    generalize ahead : inbox.stream = stream at aligned
    generalize coming : inbox'.messages = messages at aligned
    cases aligned with
    | last forwarded => exact .nothing
    | @frame count a b rest more skipped later read whole exact others next =>
      rw [exact, skips others]
      exact next

theorem nextSame (inbox inbox' : Inbox) (uds : c.transport = .uds) (forwarded : Forwarded x inbox.stream inbox'.messages) :
    SameNext (c.nextFrame x inbox).1 (c.overWs.nextFrame x inbox').1 := by
  have ws : c.overWs.transport = .ws := rfl
  have opened : c.overWs.webSocket = c.streams := rfl
  have key : c.overWs.sessionKey = c.sessionKey := rfl
  unfold VynkorClient.nextFrame
  simp only [uds, ws, opened, key]
  cases c.streams with
  | false => exact .failed .unread
  | true =>
    simp only [if_true]
    cases forwarded with
    | @frame a b rest more skipped later read whole ahead others message =>
      have same := blobReads c.sessionKey read whole rest more
      rw [message, skips others]
      simp only [VynkorClient.wsRecvFrame, ahead, same]
      cases readFrameFromBytes x (b ++ more) c.sessionKey with
      | error e => exact .failed (.same e)
      | ok value => exact .got value
    | @ended reason skipped later short others message =>
      rw [message, skips others]
      simp only [VynkorClient.wsRecvFrame, (asyncIncomplete c.sessionKey).mpr short]
      exact .failed (.ended reason)

inductive SameTurn (c c' : VynkorClient) :
    Except (Halt Error) (Option (Nat × Bytes)) → Except (Halt Error) (Option (Nat × Bytes)) → Prop where
  | got (value : Option (Nat × Bytes)) (uds : c.transport = .uds) (twin : c' = c.overWs) : SameTurn c c' (.ok value) (.ok value)
  | failed {halt halt'} (fault : SameFault (Session.haltError halt) (Session.haltError halt')) (uds : c.transport = .uds)
      (twin : c' = c.overWs) : SameTurn c c' (.error halt) (.error halt')

theorem acceptsSame (clock : Time) (flags : Nat) (payload : Bytes) :
    (c.overWs.acceptFrame clock flags payload).1 = (c.acceptFrame clock flags payload).1 ∧
      (c.overWs.acceptFrame clock flags payload).2 = (c.acceptFrame clock flags payload).2.overWs := by
  unfold VynkorClient.acceptFrame
  split <;> exact ⟨rfl, rfl⟩

theorem acceptKeeps (clock : Time) (flags : Nat) (payload : Bytes) :
    (c.acceptFrame clock flags payload).2.transport = c.transport := by
  unfold VynkorClient.acceptFrame
  split <;> rfl

theorem turnSame (inbox inbox' : Inbox) (clock : Arrival) (uds : c.transport = .uds)
    (forwarded : Forwarded x inbox.stream inbox'.messages) :
    SameTurn (c.recvTurn x clock inbox).2.1 (c.overWs.recvTurn x clock inbox').2.1 (c.recvTurn x clock inbox).1
      (c.overWs.recvTurn x clock inbox').1 := by
  have next := nextSame (c := c.prune clock.prunedAt) inbox inbox' uds forwarded
  have pruned : (c.prune clock.prunedAt).overWs = c.overWs.prune clock.prunedAt := rfl
  rw [pruned] at next
  unfold VynkorClient.recvTurn
  rcases read : (c.prune clock.prunedAt).nextFrame x inbox with ⟨one, left⟩
  rcases read' : (c.overWs.prune clock.prunedAt).nextFrame x inbox' with ⟨other, left'⟩
  rw [read, read'] at next
  simp only [read, read']
  cases next with
  | failed fault => exact .failed fault uds rfl
  | got value =>
    obtain ⟨flags, payload⟩ := value
    obtain ⟨same, twin⟩ := acceptsSame (c := c.prune clock.prunedAt) clock.arrivedAt flags payload
    have kept := (acceptKeeps (c := c.prune clock.prunedAt) clock.arrivedAt flags payload).trans uds
    rw [pruned] at same twin
    simp only [same, twin]
    cases ((c.prune clock.prunedAt).acceptFrame clock.arrivedAt flags payload).1 with
    | error e => exact .failed (.same e) kept rfl
    | ok value => exact .got value kept rfl

theorem nonceSame (pluginId : Str) (nonce : Bytes) :
    c.overWs.applySessionNonce x pluginId nonce = (c.applySessionNonce x pluginId nonce).map VynkorClient.overWs := by
  have secret : c.overWs.secret = c.secret := rfl
  unfold VynkorClient.applySessionNonce
  rw [secret]
  cases c.secret with
  | none => rfl
  | some secret =>
    by_cases keyed : secret ≠ [] ∧ nonce ≠ []
    · simp only [if_pos keyed]
      cases deriveSessionKey x secret nonce pluginId <;> rfl
    · simp only [if_neg keyed]
      rfl

theorem answersSame (pluginId : Str) (flags : Nat) (payload : Bytes) :
    Session.answerRegistration x codec c.overWs pluginId flags payload =
      ((Session.answerRegistration x codec c pluginId flags payload).1,
        (Session.answerRegistration x codec c pluginId flags payload).2.overWs) := by
  unfold Session.answerRegistration
  cases VynkorClient.decodeEnvelope codec flags payload with
  | error e => rfl
  | ok response =>
    simp only [VynkorClient.handleRegisterResponse]
    split
    · rename_i ack _
      simp only [VynkorClient.handleAck, nonceSame]
      split
      · cases c.applySessionNonce x pluginId ack.sessionNonce <;> rfl
      · rfl
    · rfl
    · rfl

theorem closesSame (uds : c.transport = .uds) : c.overWs.close = c.close.overWs := by
  unfold VynkorClient.close VynkorClient.closeWebSocket VynkorClient.overWs VynkorClient.closeStreams
  cases there : c.streams <;> simp [uds, there]

theorem answerKeeps {pluginId : Str} {flags : Nat} {payload : Bytes} {outcome : Except Error PluginRegisterAck}
    {after : VynkorClient} (answered : Session.answerRegistration x codec c pluginId flags payload = (outcome, after)) :
    after.transport = c.transport := by
  rcases Session.answerCases answered with rfl | ⟨ack, key, -, -, -, rfl⟩
  · rfl
  · rfl

theorem recvSame (inbox inbox' : Inbox) (clock : Arrival) (uds : s.client.transport = .uds)
    (forwarded : Forwarded x inbox.stream inbox'.messages) :
    Together Twins (SameReport x) (some (s.recvFrame x codec clock inbox))
      (some (Session.recvFrame x codec { s with client := s.client.overWs } clock inbox')) := by
  have turn := turnSame inbox inbox' clock uds forwarded
  unfold Session.recvFrame
  rcases ran : s.client.recvTurn x clock inbox with ⟨one, after, left⟩
  rcases ran' : s.client.overWs.recvTurn x clock inbox' with ⟨other, after', left'⟩
  simp only [ran, ran'] at turn
  cases turn with
  | failed fault uds twin =>
    subst twin
    exact .moved ⟨uds, rfl⟩ (.cons (.raised fault) .nil)
  | got value uds twin =>
    subst twin
    cases value with
    | none => exact .moved ⟨uds, rfl⟩ .nil
    | some frame =>
      obtain ⟨flags, payload⟩ := frame
      cases s.registering with
      | none => exact .moved ⟨uds, rfl⟩ (.cons (.delivered flags payload) .nil)
      | some pluginId =>
        simp only [answersSame]
        rcases answered : Session.answerRegistration x codec after pluginId flags payload with ⟨outcome, keyed⟩
        have stays := (answerKeeps answered).trans uds
        cases outcome with
        | error e => exact .moved ⟨stays, rfl⟩ (.cons (.delivered flags payload) (.cons (.raised (.same e)) .nil))
        | ok ack => exact .moved ⟨stays, rfl⟩ (.cons (.delivered flags payload) (.cons (.registered _ ack) .nil))

theorem registerSame (lossless : Lossless x) (uds : s.client.transport = .uds) (r : Registration) (fault : Option Str) :
    Together Twins (SameReport x) (some (s.register x codec r fault))
      (some (Session.register x codec { s with client := s.client.overWs } r fault)) := by
  have same : SameSent x (VynkorClient.sendRegister x codec { s.client with pluginId := some r.pluginId } r fault)
      (VynkorClient.sendRegister x codec { s.client.overWs with pluginId := some r.pluginId } r fault) := by
    unfold VynkorClient.sendRegister
    have payload : VynkorClient.registerPayload { s.client.overWs with pluginId := some r.pluginId } r =
      VynkorClient.registerPayload { s.client with pluginId := some r.pluginId } r := rfl
    rw [payload]
    cases VynkorClient.registerPayload { s.client with pluginId := some r.pluginId } r with
    | error e => exact .failed (.same e) .nil
    | ok envelope => exact sendsSame (c := { s.client with pluginId := some r.pluginId }) lossless uds _ _ _ fault
  rcases first : VynkorClient.sendRegister x codec { s.client with pluginId := some r.pluginId } r fault with ⟨handed, outcome⟩
  rcases second : VynkorClient.sendRegister x codec { s.client.overWs with pluginId := some r.pluginId } r fault with
    ⟨handed', outcome'⟩
  rw [first, second] at same
  have reports := sentReports same
  simp only [Session.register, first, second]
  cases same with
  | sent read => exact .moved ⟨uds, rfl⟩ reports
  | failed fault read => exact .moved ⟨uds, rfl⟩ reports

theorem doneTogether {calls : List Call} {out out' : Option (Session × List Report)} {left left' : Inbox}
    (together : Together Twins (SameReport x) out out')
    (aligned : Aligned x (calls.countP Call.receives) left.stream left'.messages) :
    Together (Beside x calls) (SameReport x) (out.map fun (session, reports) => (⟨session, left⟩, reports))
      (out'.map fun (session, reports) => (⟨session, left'⟩, reports)) := by
  cases together with
  | refused => exact .refused
  | moved twins seen => exact .moved ⟨twins, aligned⟩ seen

theorem turnLeft (clock : Arrival) (inbox : Inbox) :
    (c.recvTurn x clock inbox).2.2 = ((c.prune clock.prunedAt).nextFrame x inbox).2 := by
  unfold VynkorClient.recvTurn
  rcases read : (c.prune clock.prunedAt).nextFrame x inbox with ⟨_ | _, left⟩ <;> simp only [read]

theorem stepSame (lossless : Lossless x) (s t : Connection) (call : Call) (later : List Call) (beside : Beside x (call :: later) s t) :
    Together (Beside x later) (SameReport x) (s.step x codec call) (t.step x codec call) := by
  obtain ⟨session, inbox⟩ := s
  obtain ⟨other, inbox'⟩ := t
  obtain ⟨⟨uds, same⟩, aligned⟩ := beside
  simp only at uds same aligned
  subst same
  cases call with
  | close =>
    refine doneTogether (.moved ⟨?_, ?_⟩ .nil) aligned
    · rw [closeKeeps]
      exact uds
    · exact congrArg (fun client => { session with client }) (closesSame uds)
  | send target flags payload fault =>
    exact doneTogether (.moved ⟨uds, rfl⟩ (sentReports (sendsSame lossless uds target flags payload fault))) aligned
  | register r fault =>
    refine doneTogether ?_ aligned
    simp only [Session.step]
    split
    · exact .refused
    · exact registerSame lossless uds r fault
  | recvFrame clock =>
    have more : (Call.recvFrame clock :: later).countP Call.receives = later.countP Call.receives + 1 :=
      List.countP_cons_of_pos rfl
    rw [more] at aligned
    refine doneTogether (recvSame inbox inbox' clock uds (alignedForwarded aligned)) ?_
    rw [turnLeft, turnLeft]
    exact nextAligned (c := session.client.prune clock.prunedAt) uds aligned
  | recvCancelled prunedAt passed =>
    have both : Together Twins (SameReport x) (session.step x codec (.recvCancelled prunedAt))
        (Session.step x codec { session with client := session.client.overWs } (.recvCancelled prunedAt)) := .moved ⟨uds, rfl⟩ .nil
    exact doneTogether both (alignedPassed passed aligned)

end Sessions

def sampleTold : List Call :=
  [.register sampleRegistration none, .recvFrame ⟨0, 1⟩, .send (lit "kernel") 0 (ascii "ping") none, .recvCancelled 2 1,
    .recvFrame ⟨3, 4⟩, .close]

def sampleMessages : List WsMessage := [.text (lit "hello"), .binary sampleReply, .other, .closed (lit "gone")]

theorem sampleExact : Exact sampleExternals sampleReply := by
  have packed : packFrame sampleExternals (lit "echo") [0] 0 none true = .ok sampleReply := by decide +kernel
  exact packedExact (fun _ _ => rfl) (.inr (by decide)) (by decide) packed

theorem sampleAligned : Aligned sampleExternals 2 sampleReply sampleMessages := by
  have text : ∀ m ∈ [WsMessage.text (lit "hello")], Skipped m := by
    intro m member
    rw [List.mem_singleton.mp member]
    trivial
  have ended : Aligned sampleExternals 1 [] [.other, .closed (lit "gone")] := by
    have other : ∀ m ∈ [WsMessage.other], Skipped m := by
      intro m member
      rw [List.mem_singleton.mp member]
      trivial
    exact .last (.ended (.inl (by decide)) other rfl)
  have whole : Aligned sampleExternals 2 (sampleReply ++ []) ([.text (lit "hello")] ++ .binary (sampleReply ++ []) ::
      [.other, .closed (lit "gone")]) :=
    .frame (sameReadRefl sampleReply) (by decide +kernel) sampleExact text ended
  rwa [List.append_nil] at whole

end Vynkor
