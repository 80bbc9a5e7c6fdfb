import Vynkor.FragmentedSend
import Vynkor.KernelRequests

/-! Everything a client sends over a WebSocket. Each public operation comes down to a
target, flags and a payload, and each message the gateway sees is one of these packed
without compression; the gateway takes neither compressed nor fragmented frames. -/
namespace Vynkor
open Octets (Bytes crc32 orApart)
open Text Framing Labelled KernelRequests

namespace Framing
section Plain
variable {x : Externals} {target : Str} {payload raw : Bytes} {flags : Nat} {sessionKey : Option Bytes}

structure Acceptable (x : Externals) (sessionKey : Option Bytes) (payload raw : Bytes) : Prop where
  frame : ∃ f : Frame, f.bytes = raw ∧ f.flags &&& flagCompressed = 0 ∧ f.flags &&& flagFragmented = 0
  decodes : ∃ flags, readFrameFromBytes x raw sessionKey = .ok (flags, payload)

structure Forwardable (sessionKey : Option Bytes) (flags : Nat) : Prop where
  uncompressed : flags &&& flagCompressed = 0
  unfragmented : flags &&& flagFragmented = 0
  honest : sessionKey.isSome ∨ flags &&& flagMacPresent = 0

theorem announcedFragmented : announced sessionKey flags &&& flagFragmented = flags &&& flagFragmented := by
  unfold announced
  split
  · exact orApart (by decide)
  · rfl

theorem packedPlain (ok : packFrame x target payload flags sessionKey false = .ok raw) :
    ∃ t, targetBytes target = .ok t ∧ raw = headerBytes (announced sessionKey flags) payload.length t (crc32 payload) ++
      payload ++ plainTag x sessionKey (announced sessionKey flags) t payload := by
  obtain ⟨fits, ff, t, addressed⟩ := packFrameOk ok
  have made := ok.symm.trans (packFrameFit fits ff addressed)
  exact ⟨t, addressed, Except.ok.inj made⟩

theorem forwardableAcceptable (ok : packFrame x target payload flags sessionKey false = .ok raw)
    (forwardable : Forwardable sessionKey flags) : Acceptable x sessionKey payload raw := by
  obtain ⟨fits, ff, t, addressed⟩ := packFrameOk ok
  obtain ⟨f, packed, same, wire, tag⟩ := packFrameIsFrame (x := x) false fits ff addressed forwardable.honest
  cases ok.symm.trans packed
  obtain ⟨body, wireFlags⟩ : f.body = payload ∧ f.flags = announced sessionKey flags := Prod.mk.inj wire
  have unset : announced sessionKey flags &&& flagCompressed = 0 := announcedCompressed.trans forwardable.uncompressed
  have header := headerBytesForFit f.targetFit (announcedFits sessionKey ff) fits
  have normal : normalize x f.flags f.target f.body = .ok ⟨announced sessionKey flags,
      headerBytes (announced sessionKey flags) payload.length t (crc32 payload), payload⟩ := by
    rw [body, wireFlags, normalize, if_pos unset, header, same]
    rfl
  have read := asyncReadsFrame (packedDelivers forwardable.honest normal tag (.inr rfl)) []
  rw [List.append_nil] at read
  refine ⟨⟨f, rfl, ?_, ?_⟩, announced sessionKey flags, ?_⟩
  · rw [wireFlags, unset]
  · rw [wireFlags, announcedFragmented, forwardable.unfragmented]
  · rw [readFrameFromBytes, streamReads.mpr read]
    rfl

theorem acceptableForwardable (ok : packFrame x target payload flags sessionKey false = .ok raw)
    (acceptable : Acceptable x sessionKey payload raw) : Forwardable sessionKey flags := by
  obtain ⟨fits, ff, -⟩ := packFrameOk ok
  obtain ⟨t, addressed, whole⟩ := packedPlain ok
  obtain ⟨f, bytes, uncompressed, unfragmented⟩ := acceptable.frame
  have size := targetBytesLength addressed
  have small : payload.length < 256 ^ 4 := Nat.lt_of_le_of_lt fits (by decide)
  rw [whole, Frame.bytes, List.append_assoc, List.append_assoc] at bytes
  obtain ⟨headers, rest⟩ := List.append_inj bytes (by rw [f.headerLength, headerBytesLength size])
  obtain ⟨sameFlags, sameLength, -, -⟩ := headerInjective f.targetFit size f.flagsFit (announcedFits sessionKey ff)
    f.lengthFits small (Octets.crcBound _) (Octets.crcBound _) headers
  rw [sameFlags] at uncompressed unfragmented
  refine ⟨announcedCompressed.symm.trans uncompressed, announcedFragmented.symm.trans unfragmented, ?_⟩
  cases sessionKey with
  | some key => exact .inl rfl
  | none =>
    have tags := congrArg List.length (List.append_inj rest sameLength).2
    rw [f.tagFit, sameFlags] at tags
    refine .inr (by_contra fun set => ?_)
    rw [if_neg (show ¬ announced none flags &&& flagMacPresent = 0 from set)] at tags
    contradiction

theorem acceptableExact (ok : packFrame x target payload flags sessionKey false = .ok raw) :
    Acceptable x sessionKey payload raw ↔ Forwardable sessionKey flags :=
  ⟨acceptableForwardable ok, forwardableAcceptable ok⟩

end Plain
end Framing

namespace KernelRequests

def subscribe (eventTypes : List Str) : Except Error Envelope := do
  let eventTypes ← eventTypes.mapM textField
  return ⟨some (.subscribe eventTypes)⟩

def unsubscribe (eventTypes : List Str) : Except Error Envelope := do
  let eventTypes ← eventTypes.mapM textField
  return ⟨some (.unsubscribe eventTypes)⟩

def ackEvent (eventId : Str) : Except Error Envelope := do
  let eventId ← textField eventId
  return ⟨some (.eventAck eventId)⟩

def requestChunk (actionId : Str) (seq : Int) (chunk : Bytes) (isFinal : Bool) : Except Error Envelope := do
  let actionId ← textField actionId
  let seq ← unsignedField 32 seq
  return ⟨some (.actionRequestChunk actionId seq chunk isFinal)⟩

def responseChunk (actionId : Str) (seq : Int) (chunk : Bytes) : Except Error Envelope := do
  let actionId ← textField actionId
  let seq ← unsignedField 32 seq
  return ⟨some (.actionResponseChunk actionId seq chunk)⟩

def closeSession (actionId reason : Str) : Except Error Envelope := do
  let actionId ← textField actionId
  let reason ← textField reason
  return ⟨some (.sessionClose actionId reason)⟩

end KernelRequests

inductive SendOperation where
  | send (target : Str) (envelope : Envelope)
  | sendRaw (target : Str) (payload : Bytes)
  | sendRawWithFlags (target : Str) (extraFlags : Int) (payload : Bytes)
  | sendFragmented (target : Str) (payload : Bytes) (chunkSize : Int)
  | sendRawAudio (target : Str) (data : Bytes)
  | sendAudioChunk (target : Str) (chunk : Bytes)
  | registerFull (registration : Registration)
  | subscribe (eventTypes : List Str)
  | unsubscribe (eventTypes : List Str)
  | ackEvent (eventId : Str)
  | publishEvent (eventType : Str) (payloadJson : Bytes)
  | sendAction (seq : Nat) (millis : Int) (action : Str) (paramsJson : Bytes) (timeoutMs : Int)
  | sendActionStreaming (seq : Nat) (millis : Int) (action : Str) (timeoutMs : Int)
  | sendRequestChunk (actionId : Str) (seq : Int) (chunk : Bytes) (isFinal : Bool)
  | sendResponseChunk (actionId : Str) (seq : Int) (chunk : Bytes)
  | closeSession (actionId reason : Str)
  | sendCommand (commandId command : Str) (paramsJson : Bytes)
  | ping (millis : Int)
  deriving DecidableEq

inductive Outgoing where
  | raw (target : Str) (extraFlags : Int) (payload : Bytes)
  | fragmented (target : Str) (payload : Bytes) (chunkSize : Int)
  deriving DecidableEq

def Outgoing.payload : Outgoing → Bytes
  | raw _ _ payload => payload
  | fragmented _ payload _ => payload

/- What a client did with one operation: the payload it was about, the messages the
transport took, and how the sending ended. -/
structure Sending where
  sessionKey : Option Bytes
  payload : Bytes
  written : List Bytes
  outcome : Except Error Unit

def Sending.Conforms (x : Externals) (s : Sending) : Prop :=
  (s.written = [] ∧ ∃ e, s.outcome = .error e) ∨ ∃ raw, s.written = [raw] ∧ Acceptable x s.sessionKey s.payload raw

inductive WsTraffic where
  | operate (op : SendOperation) (fault : Option Str)
  | received (clock : Arrival) (inbox : Inbox)
  | answered (pluginId : Str) (flags : Nat) (payload : Bytes)
  | close
  deriving DecidableEq

namespace VynkorClient
section Sends
variable (x : Externals) (codec : Codec)

def toKernel (envelope : Except Error Envelope) : Except Error Outgoing :=
  envelope.map fun envelope => .raw (lit "kernel") 0 (codec.serialize envelope)

def outgoing (c : VynkorClient) : SendOperation → Except Error Outgoing
  | .send target envelope => .ok (.raw target 0 (codec.serialize envelope))
  | .sendRaw target payload => .ok (.raw target 0 payload)
  | .sendRawWithFlags target extraFlags payload => .ok (.raw target extraFlags payload)
  | .sendFragmented target payload chunkSize => .ok (.fragmented target payload chunkSize)
  | .sendRawAudio target data => .ok (.raw target flagRawBinary data)
  | .sendAudioChunk target chunk => .ok (.raw target 0 (codec.serialize ⟨some (.audioStreamChunk chunk)⟩))
  | .registerFull r => toKernel codec (c.registerPayload r)
  | .subscribe eventTypes => toKernel codec (KernelRequests.subscribe eventTypes)
  | .unsubscribe eventTypes => toKernel codec (KernelRequests.unsubscribe eventTypes)
  | .ackEvent eventId => toKernel codec (KernelRequests.ackEvent eventId)
  | .publishEvent eventType payloadJson => toKernel codec (eventPublish eventType payloadJson)
  | .sendAction seq millis action paramsJson timeoutMs =>
    toKernel codec (actionRequest (nextActionId seq millis) action paramsJson timeoutMs false)
  | .sendActionStreaming seq millis action timeoutMs =>
    toKernel codec (actionRequest (nextActionId seq millis) action [] timeoutMs true)
  | .sendRequestChunk actionId seq chunk isFinal => toKernel codec (requestChunk actionId seq chunk isFinal)
  | .sendResponseChunk actionId seq chunk => toKernel codec (responseChunk actionId seq chunk)
  | .closeSession actionId reason => toKernel codec (KernelRequests.closeSession actionId reason)
  | .sendCommand commandId command paramsJson => toKernel codec (kernelCommand commandId command paramsJson)
  | .ping millis => toKernel codec (pingEnvelope millis)

/- `send_raw_with_flags` with any int: a negative one fails where the header is
packed, which is after the size check and the encoding of the target. -/
def sendRawWithSigned (c : VynkorClient) (target : Str) (extraFlags : Int) (payload : Bytes) (fault : Option Str) :
    List Bytes × Except Error Unit :=
  match extraFlags with
  | .ofNat flags => c.sendRawWithFlags x target flags payload fault
  | .negSucc _ =>
    if payload.length > maxPayload then ([], .error (.payloadTooLarge payload.length))
    else
      match targetBytes target with
      | .error e => ([], .error e)
      | .ok _ => ([], .error .structError)

def dispatch (c : VynkorClient) (fault : Option Str) : Outgoing → (List Bytes × Except Error Unit) × VynkorClient
  | .raw target extraFlags payload => (c.sendRawWithSigned x target extraFlags payload fault, c)
  | .fragmented target payload chunkSize => c.sendFragmented x target payload chunkSize fun _ => fault

def entered (c : VynkorClient) : SendOperation → VynkorClient
  | .registerFull r => { c with pluginId := some r.pluginId }
  | _ => c

def taken (fault : Option Str) (handed : List Bytes) : List Bytes := if fault.isNone then handed else []

def operate (c : VynkorClient) (op : SendOperation) (fault : Option Str) : VynkorClient × Sending :=
  match (c.entered op).outgoing codec op with
  | .error e => (c.entered op, ⟨c.sessionKey, [], [], .error e⟩)
  | .ok out =>
    let (sent, after) := (c.entered op).dispatch x fault out
    (after, ⟨c.sessionKey, out.payload, taken fault sent.1, sent.2⟩)

def traffic (c : VynkorClient) : WsTraffic → Option (VynkorClient × List Sending)
  | .operate op fault => some ((c.operate x codec op fault).1, [(c.operate x codec op fault).2])
  | .received clock inbox => some ((c.recvTurn x clock inbox).2.1, [])
  | .answered pluginId flags payload => some ((Session.answerRegistration x codec c pluginId flags payload).2, [])
  | .close => some (c.close, [])

def trafficMachine : Machine VynkorClient WsTraffic Sending := ⟨traffic x codec⟩

end Sends
end VynkorClient

section Traffic
variable {x : Externals} {codec : Codec} {c t : VynkorClient} {target : Str} {payload : Bytes} {extraFlags : Int}
  {fault : Option Str} {op : SendOperation}

structure Sendable (c : VynkorClient) (target : Str) (extraFlags : Int) (payload : Bytes) (fault : Option Str) :
    Prop where
  payloadFits : payload.length ≤ maxPayload
  flagsFit : 0 ≤ extraFlags ∧ extraFlags < 2 ^ 16
  encodable : Encodable target
  opened : c.webSocket = true
  taken : fault = none

def Forwards (c : VynkorClient) : WsTraffic → Prop
  | .operate (.sendRawWithFlags target extraFlags payload) fault =>
    Sendable c target extraFlags payload fault → Forwardable c.sessionKey extraFlags.toNat
  | _ => True

theorem takenNothing (fault : Option Str) : VynkorClient.taken fault [] = [] := by
  unfold VynkorClient.taken
  split <;> rfl

theorem wsSends (x : Externals) (ws : c.transport = .ws) (target : Str) (flags : Nat) (payload : Bytes)
    (fault : Option Str) :
    (∃ raw, c.sendRawWithFlags x target flags payload fault = ([raw], .ok ()) ∧
      packFrame x target payload flags c.sessionKey false = .ok raw ∧ Sendable c target flags payload fault) ∨
    ¬ Sendable c target flags payload fault ∧
      VynkorClient.taken fault (c.sendRawWithFlags x target flags payload fault).1 = [] ∧
      ∃ e, (c.sendRawWithFlags x target flags payload fault).2 = .error e := by
  have empty := takenNothing fault
  simp only [VynkorClient.sendRawWithFlags, ws, VynkorClient.sendWs]
  by_cases big : payload.length > maxPayload
  · rw [if_pos big]
    exact .inr ⟨fun sendable => Nat.not_lt.mpr sendable.payloadFits big, empty, _, rfl⟩
  rw [if_neg big]
  cases packed : packFrame x target payload flags c.sessionKey false with
  | error e =>
    refine .inr ⟨fun sendable => ?_, empty, _, rfl⟩
    obtain ⟨t, addressed⟩ := targetBytesDefined.mpr sendable.encodable
    have fits : flags < 256 ^ 2 := by
      have bound := sendable.flagsFit.2
      omega
    rw [packFrameFit sendable.payloadFits fits addressed] at packed
    contradiction
  | ok raw =>
    obtain ⟨fits, ff, addressed⟩ := packFrameOk packed
    cases opened : c.webSocket with
    | false =>
      refine .inr ⟨fun sendable => ?_, empty, _, rfl⟩
      have up := sendable.opened
      rw [opened] at up
      contradiction
    | true =>
      cases fault with
      | none =>
        exact .inl ⟨raw, rfl, rfl, ⟨fits, by omega, targetBytesDefined.mp addressed, opened, rfl⟩⟩
      | some e => exact .inr ⟨fun sendable => Option.some_ne_none e sendable.taken, rfl, _, rfl⟩

theorem rawConforms (ws : c.transport = .ws) :
    Sending.Conforms x ⟨c.sessionKey, payload,
      VynkorClient.taken fault (c.sendRawWithSigned x target extraFlags payload fault).1,
      (c.sendRawWithSigned x target extraFlags payload fault).2⟩ ↔
      (Sendable c target extraFlags payload fault → Forwardable c.sessionKey extraFlags.toNat) := by
  cases extraFlags with
  | negSucc flags =>
    have negative := Int.negSucc_lt_zero flags
    have refused : VynkorClient.taken fault (c.sendRawWithSigned x target (.negSucc flags) payload fault).1 = [] ∧
        ∃ e, (c.sendRawWithSigned x target (.negSucc flags) payload fault).2 = .error e := by
      simp only [VynkorClient.sendRawWithSigned, VynkorClient.taken]
      repeat' split
      all_goals exact ⟨rfl, _, rfl⟩
    exact ⟨fun _ sendable => absurd sendable.flagsFit.1 (Int.not_le.mpr negative), fun _ => .inl refused⟩
  | ofNat flags =>
    rcases wsSends x ws target flags payload fault with ⟨raw, sent, packed, sendable⟩ | ⟨unsendable, nothing⟩
    · have took : VynkorClient.taken fault [raw] = [raw] := by rw [sendable.taken]; rfl
      simp only [VynkorClient.sendRawWithSigned, sent, took]
      constructor
      · rintro (⟨nothing, -⟩ | ⟨one, wrote, acceptable⟩) -
        · contradiction
        · cases wrote
          exact (acceptableExact packed).mp acceptable
      · intro allowed
        exact .inr ⟨raw, rfl, (acceptableExact packed).mpr (allowed sendable)⟩
    · exact ⟨fun _ sendable => absurd sendable unsendable, fun _ => .inl nothing⟩

inductive Composes : SendOperation → Outgoing → Prop where
  | flagged {target : Str} {extraFlags : Int} {payload : Bytes} :
      Composes (.sendRawWithFlags target extraFlags payload) (.raw target extraFlags payload)
  | fragmented {target : Str} {payload : Bytes} {chunkSize : Int} :
      Composes (.sendFragmented target payload chunkSize) (.fragmented target payload chunkSize)
  | plain {op : SendOperation} {target : Str} {payload : Bytes} {flags : Nat} (own : flags = 0 ∨ flags = flagRawBinary)
      (other : ∀ c fault, Forwards c (.operate op fault)) : Composes op (.raw target flags payload)

theorem toKernelOk {envelope : Except Error Envelope} {out : Outgoing}
    (composed : VynkorClient.toKernel codec envelope = .ok out) (other : ∀ c fault, Forwards c (.operate op fault)) :
    Composes op out := by
  cases envelope with
  | error e => contradiction
  | ok envelope =>
    cases composed
    exact .plain (.inl rfl) other

theorem outgoingComposes {out : Outgoing} (composed : c.outgoing codec op = .ok out) : Composes op out := by
  cases op with
  | send _ _ | sendRaw _ _ | sendAudioChunk _ _ => cases composed; exact .plain (.inl rfl) fun _ _ => trivial
  | sendRawAudio _ _ => cases composed; exact .plain (.inr rfl) fun _ _ => trivial
  | sendRawWithFlags _ _ _ => cases composed; exact .flagged
  | sendFragmented _ _ _ => cases composed; exact .fragmented
  | _ => exact toKernelOk composed fun _ _ => trivial

theorem outgoingRaised {e : Error} (raised : t.outgoing codec op = .error e) (c : VynkorClient) (fault : Option Str) :
    Forwards c (.operate op fault) := by
  cases op with
  | sendRawWithFlags _ _ _ => contradiction
  | _ => trivial

theorem ownForwardable (sessionKey : Option Bytes) {flags : Nat} (own : flags = 0 ∨ flags = flagRawBinary) :
    Forwardable sessionKey flags := by
  rcases own with rfl | rfl
  · exact ⟨Nat.zero_and _, Nat.zero_and _, .inr (Nat.zero_and _)⟩
  · exact ⟨by decide, by decide, .inr (by decide)⟩

theorem enteredKeeps (c : VynkorClient) (op : SendOperation) :
    (c.entered op).transport = c.transport ∧ (c.entered op).sessionKey = c.sessionKey := by
  cases op <;> exact ⟨rfl, rfl⟩

theorem fragmentedRaises (ws : c.transport = .ws) (target : Str) (payload : Bytes) (chunkSize : Int)
    (faults : Nat → Option Str) :
    ∃ e, c.sendFragmented x target payload chunkSize faults = (([], .error e), c) := by
  simp only [VynkorClient.sendFragmented, VynkorClient.beginFragmented, if_pos ws]
  exact ⟨_, rfl⟩

theorem operateConforms (ws : c.transport = .ws) (op : SendOperation) (fault : Option Str) :
    Forwards c (.operate op fault) ↔ (c.operate x codec op fault).2.Conforms x := by
  obtain ⟨transport, keyed⟩ := enteredKeeps c op
  unfold VynkorClient.operate
  cases composed : (c.entered op).outgoing codec op with
  | error e => exact iff_of_true (outgoingRaised composed c fault) (.inl ⟨rfl, e, rfl⟩)
  | ok out =>
    cases outgoingComposes composed with
    | flagged => exact (rawConforms ws).symm
    | @fragmented target payload chunkSize =>
      obtain ⟨e, raised⟩ := fragmentedRaises (x := x) ws target payload chunkSize fun _ => fault
      refine iff_of_true trivial (.inl ⟨?_, e, ?_⟩)
      · simp only [VynkorClient.entered, VynkorClient.dispatch, raised, takenNothing]
      · simp only [VynkorClient.entered, VynkorClient.dispatch, raised]
    | plain own other =>
      rw [← keyed]
      exact iff_of_true (other c fault) ((rawConforms (transport.trans ws)).mpr fun _ => ownForwardable _ own)

theorem trafficKeeps {label : WsTraffic} {sendings : List Sending} (ws : c.transport = .ws)
    (move : c.traffic x codec label = some (t, sendings)) : t.transport = .ws := by
  cases label with
  | operate op fault =>
    cases move
    obtain ⟨transport, -⟩ := enteredKeeps c op
    unfold VynkorClient.operate
    cases composed : (c.entered op).outgoing codec op with
    | error e => exact transport.trans ws
    | ok out =>
      cases out with
      | raw target extraFlags payload => exact transport.trans ws
      | fragmented target payload chunkSize =>
        obtain ⟨e, raised⟩ := fragmentedRaises (x := x) (transport.trans ws) target payload chunkSize fun _ => fault
        simp only [VynkorClient.dispatch, raised]
        exact transport.trans ws
  | received clock inbox =>
    cases move
    rcases ran : c.recvTurn x clock inbox with ⟨outcome, after, rest⟩
    rw [Session.turnKeeps (Session.turnCases ran)]
    exact ws
  | answered pluginId flags payload =>
    cases move
    rcases ran : Session.answerRegistration x codec c pluginId flags payload with ⟨outcome, after⟩
    rcases Session.answerCases ran with rfl | ⟨ack, key, -, -, -, rfl⟩
    · exact ws
    · exact ws
  | close =>
    cases move
    rw [closeKeeps]
    exact ws

/- Over any run, all that is sent conforms exactly if every step forwards what it may. -/
theorem trafficConforms (ws : c.transport = .ws) {labels : List WsTraffic} {sendings : List Sending}
    (run : Runs (VynkorClient.trafficMachine x codec) Always c labels sendings t) :
    Runs (VynkorClient.trafficMachine x codec) Forwards c labels sendings t ↔ ∀ s ∈ sendings, s.Conforms x := by
  have conforms : Runs (VynkorClient.trafficMachine x codec) (fun c label => Always c label ∧ Forwards c label) c
      labels sendings t ↔ ∀ s ∈ sendings, s.Conforms x := by
    refine runsExact (fun c => c.transport = .ws) ws (fun _ _ _ _ ws _ move => trafficKeeps ws move) ?_ run
    intro c label t sendings ws _ move
    cases label with
    | operate op fault =>
      cases move
      rw [List.forall_mem_singleton]
      exact operateConforms ws op fault
    | received _ _ | answered _ _ _ | close =>
      cases move
      exact iff_of_true trivial (by simp)
  rw [← conforms]
  constructor
  · exact runsWeaken fun _ _ forwards => ⟨trivial, forwards⟩
  · exact runsWeaken fun _ _ both => both.2

end Traffic

def sampleWs : VynkorClient := .connectWs none

def wsCodec : Codec := ⟨fun _ => [], fun _ => .ok ⟨none⟩⟩

def sampleTraffic : List WsTraffic :=
  [.operate (.sendRaw (lit "kernel") (ascii "hi")) none, .operate (.sendFragmented (lit "kernel") (ascii "hi") 1) none]

theorem trafficConformsSample : ∃ t sendings,
    (VynkorClient.trafficMachine sampleExternals wsCodec).run sampleWs sampleTraffic = some (t, sendings) ∧
      sendings.length = 2 ∧ ∀ s ∈ sendings, s.Conforms sampleExternals := by
  have forwards : ∀ label ∈ sampleTraffic, ∀ c, Forwards c label := by
    intro label member c
    rcases List.mem_cons.mp member with rfl | rest
    · trivial
    · rw [List.mem_singleton.mp rest]
      trivial
  refine ⟨_, _, rfl, rfl, ?_⟩
  exact (trafficConforms rfl (runsOfRun rfl)).mp (runsOfRunWhere Forwards forwards rfl)

theorem fragmentedTraffic : ¬ ∀ (x : Externals) (codec : Codec) (c t : VynkorClient) (labels : List WsTraffic)
    (sendings : List Sending), c.transport = .ws → Runs (VynkorClient.trafficMachine x codec) Always c labels sendings t →
      ∀ s ∈ sendings, s.Conforms x := by
  intro claim
  have run : Runs (VynkorClient.trafficMachine sampleExternals wsCodec) Always sampleWs
    [.operate (.sendRawWithFlags (lit "kernel") flagFragmented (ascii "hi")) none] _ _ := runsOfRun rfl
  have sent := claim _ _ _ _ _ _ rfl run _ (List.mem_singleton.mpr rfl)
  have forwards := (operateConforms (c := sampleWs) rfl _ none).mpr sent
  have sendable : Sendable sampleWs (lit "kernel") flagFragmented (ascii "hi") none :=
    ⟨by decide, by decide, litEncodable _, rfl, rfl⟩
  exact absurd (forwards sendable).unfragmented (by decide)

end Vynkor
