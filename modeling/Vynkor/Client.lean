import Vynkor.Library.Machine
import Vynkor.Protocol
import Vynkor.Reassembly

/-! `VynkorClient` of `vynkor/client.py`: its fields, the operations on them and the
suspended calls as a machine. What a transport hands over is an argument of the
receiving operations, what it is handed is their result. -/
namespace Vynkor
open Octets (Bytes)
open Text Framing Reassembly Tables ExactReader Labelled

inductive Transport where
  | uds | ws
  deriving DecidableEq, Repr

/- `streams`: `_reader` and `_writer` are set. `connection` is a ghost, the number of
connections that the client has opened. -/
structure VynkorClient where
  secret : Option Bytes
  deviceId : Option Str
  sessionKey : Option Bytes
  streams : Bool
  webSocket : Bool
  transport : Transport
  pluginId : Option Str
  reassembly : Streams
  nextStreamId : Nat
  connection : Nat

inductive WsMessage where
  | text (data : Str)
  | binary (data : Bytes)
  | other
  | closed (reason : Str)
  deriving DecidableEq, Repr

structure Inbox where
  stream : Bytes
  messages : List WsMessage
  deriving DecidableEq, Repr

/- The clock readings of one turn of the `recv_frame` loop: before the read, which
may block, and at the fragment it returned. -/
structure Arrival where
  prunedAt : Time
  arrivedAt : Time
  deriving DecidableEq, Repr

structure Registration where
  pluginId : Str
  version : Str
  manifest : Option Bytes
  jwtToken : Str
  deriving DecidableEq, Repr

/- A `send_fragmented` call that has taken its stream id; `next` is the sequence
number of the fragment it sends when it goes on. -/
structure FragmentPlan where
  target : Str
  payload : Bytes
  chunkSize : Nat
  total : Nat
  streamId : Nat
  next : Nat
  deriving DecidableEq, Repr

namespace FragmentPlan

def chunk (p : FragmentPlan) (seq : Nat) : Bytes := (p.payload.drop (seq * p.chunkSize)).take p.chunkSize

def fragment (p : FragmentPlan) (seq : Nat) : Except Error Bytes :=
  (packFragHeader ⟨p.streamId &&& 0xFFFF, seq, p.total, p.streamId⟩).map (· ++ p.chunk seq)

end FragmentPlan

namespace VynkorClient

def new (secret : Option Bytes) : VynkorClient where
  secret := secret
  deviceId := none
  sessionKey := none
  streams := false
  webSocket := false
  transport := .uds
  pluginId := none
  reassembly := ∅
  nextStreamId := 1
  connection := 0

def connect (c : VynkorClient) : VynkorClient :=
  { c with streams := true, transport := .uds, connection := c.connection + 1 }

def connectWithSecret (secret : Option Bytes) : VynkorClient := (new secret).connect

def connectWs (secret : Option Bytes) : VynkorClient :=
  { new secret with webSocket := true, transport := .ws, connection := 1 }

def withDeviceId (c : VynkorClient) (deviceId : Str) : VynkorClient := { c with deviceId := some deviceId }

def closeWebSocket (c : VynkorClient) : VynkorClient :=
  if c.transport = .ws ∧ c.webSocket then { c with webSocket := false } else c

def closeStreams (c : VynkorClient) : VynkorClient :=
  if c.streams then { c with streams := false } else c

def close (c : VynkorClient) : VynkorClient := c.closeWebSocket.closeStreams

def isSecured (c : VynkorClient) : Bool := c.sessionKey.isSome

def Connected (c : VynkorClient) : Prop :=
  match c.transport with
  | .uds => c.streams = true
  | .ws => c.webSocket = true

section Calls
variable (x : Externals) (codec : Codec)

def notConnected : Error := .assertionError (lit "not connected")
def noWebSocket : Str := lit "'NoneType' object has no attribute 'send'"

def sendWs (c : VynkorClient) (target : Str) (flags : Nat) (payload : Bytes) (fault : Option Str) :
    List Bytes × Except Error Unit :=
  if payload.length > maxPayload then ([], .error (.payloadTooLarge payload.length))
  else
    match packFrame x target payload flags c.sessionKey false with
    | .error e => ([], .error e)
    | .ok frame =>
      if c.webSocket then
        match fault with
        | none => ([frame], .ok ())
        | some e => ([frame], .error (.internal (lit "websocket send failed: " ++ e)))
      else ([], .error (.internal (lit "websocket send failed: " ++ noWebSocket)))

def sendUds (c : VynkorClient) (target : Str) (flags : Nat) (payload : Bytes) (fault : Option Str) :
    List Bytes × Except Error Unit :=
  match packFrame x target payload flags c.sessionKey true with
  | .error e => ([], .error e)
  | .ok frame =>
    if c.streams then
      match fault with
      | none => ([frame], .ok ())
      | some e => ([frame], .error (.connectionError e))
    else ([], .error notConnected)

def sendRawWithFlags (c : VynkorClient) (target : Str) (extraFlags : Nat) (payload : Bytes)
    (fault : Option Str) : List Bytes × Except Error Unit :=
  match c.transport with
  | .ws => c.sendWs x target extraFlags payload fault
  | .uds => c.sendUds x target extraFlags payload fault

def sendRaw (c : VynkorClient) (target : Str) (payload : Bytes) (fault : Option Str) :
    List Bytes × Except Error Unit := c.sendRawWithFlags x target 0 payload fault

def send (c : VynkorClient) (target : Str) (envelope : Envelope) (fault : Option Str) :
    List Bytes × Except Error Unit := c.sendRaw x target (codec.serialize envelope) fault

def fragmentCount (payload : Bytes) (chunkSize : Int) : Int :=
  max 1 (-((-(payload.length : Int)) / chunkSize))

def followingStreamId (streamId : Nat) : Nat :=
  if (streamId + 1) &&& 0xFFFFFFFF = 0 then 1 else (streamId + 1) &&& 0xFFFFFFFF

def beginFragmented (c : VynkorClient) (target : Str) (payload : Bytes) (chunkSize : Int) :
    Except Error (FragmentPlan × VynkorClient) :=
  if c.transport = .ws then
    .error (.internal (lit "fragmented frames are not supported over WebSocket (R5-03)"))
  else if payload.length > maxPayload then .error (.payloadTooLarge payload.length)
  else if chunkSize ≤ 0 ∨ chunkSize + fragHeaderSize > maxPayload then
    .error (.internal (lit "invalid fragment chunk_size: " ++ decimalInt chunkSize))
  else if fragmentCount payload chunkSize > 0xFFFF then
    .error (.internal (lit "payload needs " ++ decimalInt (fragmentCount payload chunkSize) ++
      lit " fragments; max is 65535"))
  else .ok (⟨target, payload, chunkSize.toNat, (fragmentCount payload chunkSize).toNat, c.nextStreamId, 0⟩,
    { c with nextStreamId := followingStreamId c.nextStreamId })

def wsRecvFrame (sessionKey : Option Bytes) : List WsMessage →
    Except (Halt Error) (Nat × Bytes) × List WsMessage
  | [] => (.error .incomplete, [])
  | .closed reason :: rest =>
    (.error (.raised (.internal (lit "websocket connection closed: " ++ reason))), rest)
  | .text _ :: rest => wsRecvFrame sessionKey rest
  | .other :: rest => wsRecvFrame sessionKey rest
  | .binary data :: rest => ((readFrameFromBytes x data sessionKey).mapError .raised, rest)

/- One frame from the transport. Over UDS `incomplete` is an `IncompleteReadError`
when the stream has ended and a wait otherwise. -/
def nextFrame (c : VynkorClient) (inbox : Inbox) : Except (Halt Error) (Nat × Bytes) × Inbox :=
  match c.transport with
  | .ws =>
    if c.webSocket then
      let (outcome, messages) := wsRecvFrame x c.sessionKey inbox.messages
      (outcome, { inbox with messages := messages })
    else (.error (.raised (.assertionError (lit "not connected (ws)"))), inbox)
  | .uds =>
    if c.streams then
      let (outcome, stream) := (asyncReadFrame x c.sessionKey).run inbox.stream
      (outcome, { inbox with stream := stream })
    else (.error (.raised notConnected), inbox)

def prune (c : VynkorClient) (now : Time) : VynkorClient :=
  { c with reassembly := pruneReassembly now c.reassembly }

def acceptFrame (c : VynkorClient) (now : Time) (flags : Nat) (payload : Bytes) :
    Except Error (Option (Nat × Bytes)) × VynkorClient :=
  if flags &&& flagFragmented ≠ 0 then
    let (outcome, streams) := absorbFragment now c.connection flags payload c.reassembly
    (outcome, { c with reassembly := streams })
  else (.ok (some (flags, payload)), c)

def recvTurn (c : VynkorClient) (clock : Arrival) (inbox : Inbox) :
    Except (Halt Error) (Option (Nat × Bytes)) × VynkorClient × Inbox :=
  let c := c.prune clock.prunedAt
  match c.nextFrame x inbox with
  | (.error halt, inbox) => (.error halt, c, inbox)
  | (.ok (flags, payload), inbox) =>
    let (outcome, c) := c.acceptFrame clock.arrivedAt flags payload
    (outcome.mapError .raised, c, inbox)

def recvFrame : VynkorClient → List Arrival → Inbox →
    Except (Halt Error) (Nat × Bytes) × VynkorClient × Inbox
  | c, [], inbox => (.error .incomplete, c, inbox)
  | c, clock :: later, inbox =>
    match c.recvTurn x clock inbox with
    | (.error halt, c, inbox) => (.error halt, c, inbox)
    | (.ok (some frame), c, inbox) => (.ok frame, c, inbox)
    | (.ok none, c, inbox) => recvFrame c later inbox

def decodeEnvelope (flags : Nat) (payload : Bytes) : Except Error Envelope :=
  if flags &&& flagRawBinary ≠ 0 then
    .error (.internal (lit "received raw-binary frame; use recv_frame() for audio"))
  else (codec.parse payload).mapError .protoError

def recv (c : VynkorClient) (clocks : List Arrival) (inbox : Inbox) :
    Except (Halt Error) Envelope × VynkorClient × Inbox :=
  let (outcome, c, inbox) := c.recvFrame x clocks inbox
  (outcome.bind fun frame => (decodeEnvelope codec frame.1 frame.2).mapError .raised, c, inbox)

def applySessionNonce (c : VynkorClient) (pluginId : Str) (nonce : Bytes) : Except Error VynkorClient :=
  match c.secret with
  | none => .ok c
  | some secret =>
    if secret ≠ [] ∧ nonce ≠ [] then
      (deriveSessionKey x secret nonce pluginId).map fun key => { c with sessionKey := some key }
    else .ok c

def registerPayload (c : VynkorClient) (r : Registration) : Except Error Envelope := do
  let pluginId ← textField r.pluginId
  let version ← textField r.version
  let jwtToken ← textField r.jwtToken
  let deviceId ← textField (c.deviceId.getD [])
  return ⟨some (.pluginRegister ⟨pluginId, version, r.manifest, jwtToken, deviceId⟩)⟩

def sendRegister (c : VynkorClient) (r : Registration) (fault : Option Str) :
    List Bytes × Except Error Unit :=
  match c.registerPayload r with
  | .error e => ([], .error e)
  | .ok envelope => c.send x codec (lit "kernel") envelope fault

def handleAck (c : VynkorClient) (pluginId : Str) (ack : PluginRegisterAck) :
    Except Error PluginRegisterAck × VynkorClient :=
  if ack.sessionNonce ≠ [] then
    match c.applySessionNonce x pluginId ack.sessionNonce with
    | .error e => (.error e, c)
    | .ok c => (.ok ack, c)
  else (.ok ack, c)

def handleRegisterResponse (c : VynkorClient) (pluginId : Str) (response : Envelope) :
    Except Error PluginRegisterAck × VynkorClient :=
  match response.payload with
  | some (.pluginRegisterAck ack) => c.handleAck x pluginId ack
  | some (.error message details) =>
    (.error (.internal (lit "registration rejected: " ++ message ++ lit " (" ++ details ++ lit ")")), c)
  | _ => (.error (.internal (lit "expected PluginRegisterAck")), c)

def registerFull (c : VynkorClient) (r : Registration) (fault : Option Str) (clocks : List Arrival)
    (inbox : Inbox) : List Bytes × Except (Halt Error) PluginRegisterAck × VynkorClient × Inbox :=
  let c := { c with pluginId := some r.pluginId }
  match c.sendRegister x codec r fault with
  | (written, .error e) => (written, .error (.raised e), c, inbox)
  | (written, .ok ()) =>
    match c.recv x codec clocks inbox with
    | (.error halt, c, inbox) => (written, .error halt, c, inbox)
    | (.ok response, c, inbox) =>
      let (outcome, c) := c.handleRegisterResponse x r.pluginId response
      (written, outcome.mapError .raised, c, inbox)

end Calls
end VynkorClient

theorem closeKeeps (c : VynkorClient) :
    c.close = { c with streams := c.close.streams, webSocket := c.close.webSocket } := by
  simp only [VynkorClient.close, VynkorClient.closeStreams, VynkorClient.closeWebSocket]
  split <;> split <;> rfl

theorem beginTakes {c after : VynkorClient} {target : Str} {payload : Bytes} {chunkSize : Int} {plan : FragmentPlan}
    (begun : c.beginFragmented target payload chunkSize = .ok (plan, after)) :
    plan = ⟨target, payload, chunkSize.toNat, (VynkorClient.fragmentCount payload chunkSize).toNat, c.nextStreamId, 0⟩ ∧
      after = { c with nextStreamId := VynkorClient.followingStreamId c.nextStreamId } := by
  unfold VynkorClient.beginFragmented at begun
  repeat' split at begun
  all_goals first | contradiction | (cases begun; exact ⟨rfl, rfl⟩)

theorem sentPacked {x : Externals} {c : VynkorClient} {target : Str} {flags : Nat} {payload : Bytes}
    {fault : Option Str} {frame : Bytes} (sent : frame ∈ (c.sendRawWithFlags x target flags payload fault).1) :
    ∃ compress, packFrame x target payload flags c.sessionKey compress = .ok frame := by
  unfold VynkorClient.sendRawWithFlags at sent
  cases kind : c.transport with
  | ws =>
    simp only [kind, VynkorClient.sendWs] at sent
    split at sent
    · simp at sent
    · cases packed : packFrame x target payload flags c.sessionKey false with
      | error e => simp [packed] at sent
      | ok made =>
        refine ⟨false, ?_⟩
        simp only [packed] at sent
        split at sent
        · cases fault <;> simp at sent <;> rw [packed, sent]
        · simp at sent
  | uds =>
    simp only [kind, VynkorClient.sendUds] at sent
    cases packed : packFrame x target payload flags c.sessionKey true with
    | error e => simp [packed] at sent
    | ok made =>
      refine ⟨true, ?_⟩
      simp only [packed] at sent
      split at sent
      · cases fault <;> simp at sent <;> rw [packed, sent]
      · simp at sent

def recvTurns (x : Externals) : VynkorClient → List Arrival → Inbox →
    List (Except (Halt Error) (Option (Nat × Bytes))) × VynkorClient × Inbox
  | c, [], inbox => ([], c, inbox)
  | c, clock :: later, inbox =>
    let (outcome, c, inbox) := c.recvTurn x clock inbox
    let (outcomes, c, inbox) := recvTurns x c later inbox
    (outcome :: outcomes, c, inbox)

end Vynkor
