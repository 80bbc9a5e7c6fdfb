import Vynkor.Errors

/-! The envelopes of `vynkor_protocol.proto` with the fields the SDK sets or reads.
The generated code itself is a parameter: it serialises an envelope and parses
bytes, or raises. Envelopes differ in their payload only, the SDK never sets the
message id, timestamp and sender. A manifest is its encoding, copied as a whole. -/
namespace Vynkor
open Octets (Bytes)
open Text

inductive ActionStatus where
  | unknown | ok | error | timeout | permissionDeny | notFound | quotaExceeded | streamBackpressure
  deriving DecidableEq, Repr

structure PluginRegister where
  pluginId : Str
  version : Str
  manifest : Option Bytes
  jwtToken : Str
  deviceId : Str
  deriving DecidableEq, Repr

structure PluginRegisterAck where
  accepted : Bool
  rejectReason : Str
  sessionNonce : Bytes
  deriving DecidableEq, Repr

structure ActionRequest where
  actionId : Str
  action : Str
  paramsJson : Bytes
  timeoutMs : Nat
  streaming : Bool
  callerPluginId : Str
  deriving DecidableEq, Repr

structure ActionResponse where
  actionId : Str
  status : ActionStatus
  dataJson : Bytes
  error : Str
  deriving DecidableEq, Repr

structure Event where
  eventId : Str
  eventType : Str
  payloadJson : Bytes
  retryCount : Nat
  deriving DecidableEq, Repr

structure KernelCommand where
  commandId : Str
  command : Str
  paramsJson : Bytes
  deriving DecidableEq, Repr

structure KernelCommandAck where
  commandId : Str
  status : Nat
  dataJson : Bytes
  error : Str
  deriving DecidableEq, Repr

structure EventPublishAck where
  eventId : Str
  status : Nat
  error : Str
  deriving DecidableEq, Repr

inductive Payload where
  | pluginRegister (register : PluginRegister)
  | pluginRegisterAck (ack : PluginRegisterAck)
  | pluginShutdown (reason : Str) (graceSeconds : Nat)
  | actionRequest (request : ActionRequest)
  | actionResponse (response : ActionResponse)
  | actionRequestChunk (actionId : Str) (seq : Nat) (chunk : Bytes) (final : Bool)
  | actionResponseChunk (actionId : Str) (seq : Nat) (chunk : Bytes)
  | actionStreamAbort (actionId reason : Str)
  | sessionClose (actionId reason : Str)
  | kernelCommand (command : KernelCommand)
  | kernelCommandAck (ack : KernelCommandAck)
  | event (event : Event)
  | eventAck (eventId : Str)
  | subscribe (eventTypes : List Str)
  | unsubscribe (eventTypes : List Str)
  | eventPublish (eventType : Str) (payloadJson : Bytes)
  | eventPublishAck (ack : EventPublishAck)
  | audioStreamChunk (encoded : Bytes)
  | ping (timestamp : Nat)
  | pong (originalTimestamp serverTimestamp : Nat)
  | error (message details : Str)
  deriving DecidableEq, Repr

structure Envelope where
  payload : Option Payload
  deriving DecidableEq, Repr

structure Codec where
  serialize : Envelope → Bytes
  parse : Bytes → Except Str Envelope

def textField (s : Str) : Except Error Str :=
  if (encode s).isSome then .ok s else .error .unicodeEncode

theorem textFieldOk {s t : Str} : textField s = .ok t ↔ Encodable s ∧ t = s := by
  unfold textField
  by_cases defined : (encode s).isSome
  · simp [defined, (encodeDefined s).mp defined, eq_comm]
  · simp only [defined]
    exact ⟨nofun, fun h => absurd ((encodeDefined s).mpr h.1) defined⟩

def actionResponse (actionId : Str) (status : ActionStatus) (dataJson : Bytes) (error : Str) : Except Error Envelope := do
  let actionId ← textField actionId
  let error ← textField error
  return ⟨some (.actionResponse ⟨actionId, status, dataJson, error⟩)⟩

theorem actionResponseOk {actionId error : Str} (id : Encodable actionId) (text : Encodable error)
    (status : ActionStatus) (dataJson : Bytes) :
    actionResponse actionId status dataJson error =
      .ok ⟨some (.actionResponse ⟨actionId, status, dataJson, error⟩)⟩ := by
  have okId : textField actionId = .ok actionId := textFieldOk.mpr ⟨id, rfl⟩
  have okText : textField error = .ok error := textFieldOk.mpr ⟨text, rfl⟩
  simp only [actionResponse, okId, okText, bind, Except.bind, pure, Except.pure]

end Vynkor
