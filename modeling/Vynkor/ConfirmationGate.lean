import Vynkor.Json
import Vynkor.Library.Machine
import Vynkor.Library.Table
import Vynkor.Protocol

/-! `ConfirmationGate` of `vynkor/confirmation_gate.py`. A `route` call runs without a
wait up to the executor, which it awaits; the gate's lock makes each access to the
pending map one step. -/
namespace Vynkor.ConfirmationGate
open Octets (Bytes)
open Text Tables Labelled

/- Readings of `time.monotonic()`. The age of an entry is their exact difference, where the
code subtracts doubles and rounds. -/
abbrev Time := ℚ

inductive PyFloat where
  | finite (value : ℚ)
  | posInf
  | negInf
  | nan
  deriving DecidableEq, Repr

namespace PyFloat

def reachedBy (age : ℚ) : PyFloat → Bool
  | finite value => decide (value ≤ age)
  | posInf => false
  | negInf => true
  | nan => false

def above (age : ℚ) : PyFloat → Bool
  | finite value => decide (age < value)
  | posInf => true
  | negInf => false
  | nan => false

def toInt : PyFloat → Except Error Int
  | finite value => .ok (value.num.tdiv value.den)
  | nan => .error (.valueError (lit "cannot convert float NaN to integer"))
  | _ => .error .overflowError

end PyFloat

/- `json.loads`, its error as text, and the text of the exceptions that building a
response can raise. -/
structure Externals where
  loads : Bytes → Except Str Json.Value
  describe : Error → Str

def opCharacter : CodePoint → Bool
  | .scalar c => c.isAlphanum || c == '-' || c == '_'
  | .surrogate _ => false

def requestPrefix : Str := lit "request_"
def confirmPrefix : Str := lit "confirm_"

def validateOp (op : Str) : Except Error Unit :=
  if op = [] then .error (.valueError (lit "operation name must not be empty"))
  else if ¬ op.all opCharacter then
    .error (.valueError (lit "operation name may only contain ASCII alphanumerics, '-' and '_'"))
  else if requestPrefix.isPrefixOf op ∨ confirmPrefix.isPrefixOf op then
    .error (.valueError (lit "operation name must not start with request_/confirm_ " ++
      lit "(would collide with the gate's own action names)"))
  else .ok ()

structure Gate where
  op : Str
  confirmCallers : List Str
  pendingTtl : PyFloat
  opValid : validateOp op = .ok ()
  callersListed : confirmCallers ≠ []

def defaultPendingTtl : PyFloat := .finite 300

def Gate.new (op description : Str) (confirmCallers : List Str) : Except Error Gate :=
  match valid : validateOp op with
  | .error e => .error e
  | .ok () =>
    if description = [] then .error (.valueError (lit "description must not be empty"))
    else if listed : confirmCallers = [] then
      .error (.valueError (lit "confirm_callers must name at least one caller allowed to confirm"))
    else .ok ⟨op, confirmCallers, defaultPendingTtl, valid, listed⟩

def Gate.withPendingTtl (g : Gate) (ttl : PyFloat) : Gate := { g with pendingTtl := ttl }

def allows (caller allowed : Str) : Bool :=
  if (lit ".*").isSuffixOf allowed then
    let stem := allowed.take (allowed.length - 2)
    stem.isPrefixOf caller && decide (stem.length < caller.length) &&
      caller[stem.length]? == some (.scalar '.')
  else caller == allowed

def Gate.mayConfirm (g : Gate) (caller : Str) : Bool := g.confirmCallers.any (allows caller)

structure PendingAction where
  action : Str
  params : Bytes
  callerPluginId : Str
  createdAt : Time
  deriving DecidableEq, Repr

abbrev Pending := Table Str PendingAction

def Gate.isStale (g : Gate) (now : Time) (p : PendingAction) : Bool := g.pendingTtl.reachedBy (now - p.createdAt)

def Gate.sweepExpired (g : Gate) (now : Time) (pending : Pending) : Pending := sweep (g.isStale now) pending

def pendingId (millis : Int) (seq : Nat) : Str :=
  lit "pending-" ++ decimalInt millis ++ .scalar '-' :: decimal seq

/- The readings of a call: `time.monotonic()` of the sweep, then `time.time()` in
milliseconds and `time.monotonic()` of the new entry. -/
structure Readings where
  sweptAt : Time
  millis : Int
  createdAt : Time
  deriving DecidableEq, Repr

def pendingOf (req : ActionRequest) (clock : Readings) : PendingAction :=
  ⟨req.action, req.paramsJson, req.callerPluginId, clock.createdAt⟩

def Gate.storeRequest (g : Gate) (req : ActionRequest) (clock : Readings) (seq : Nat) (pending : Pending) :
    Str × Pending :=
  let id := pendingId clock.millis seq
  (id, (g.sweepExpired clock.sweptAt pending).insert id (pendingOf req clock))

def Gate.takePending (g : Gate) (id : Str) (clock : Readings) (pending : Pending) :
    Option PendingAction × Pending :=
  let pending := g.sweepExpired clock.sweptAt pending
  (pending.lookup id, pending.erase id)

section Route
variable (x : Externals) (g : Gate)

def parsePendingId (params : Bytes) : Except Str Str :=
  let value := if params = [] then .ok (.dict []) else x.loads params
  match value with
  | .error e => .error (lit "invalid confirm params: " ++ e)
  | .ok value =>
    match value.get (lit "pending_id") with
    | some (.str id) => if id = [] then .error (lit "confirm params must include a string pending_id") else .ok id
    | _ => .error (lit "confirm params must include a string pending_id")

def responseOk (actionId : Str) (data : Bytes) : Except Error (List Envelope) :=
  (actionResponse actionId .ok data []).map fun envelope => [envelope]

def responseErr (actionId error : Str) : Except Error (List Envelope) :=
  (actionResponse actionId .error [] error).map fun envelope => [envelope]

def notFound (actionId : Str) : Except Error (List Envelope) :=
  (actionResponse actionId .notFound [] (lit "unknown action")).map fun envelope => [envelope]

def encodeUtf8 (s : Str) : Except Error Bytes :=
  match encode s with
  | some raw => .ok raw
  | none => .error .unicodeEncode

def requestData (req : ActionRequest) (id : Str) (ttlSecs : Int) : Str :=
  Json.dumps [(lit "pending_id", .str id), (lit "action", .str req.action), (lit "ttl_secs", .int ttlSecs)]

def Gate.requestReply (req : ActionRequest) (id : Str) : Except Error (List Envelope) := do
  let ttlSecs ← g.pendingTtl.toInt
  let data ← encodeUtf8 (requestData req id ttlSecs)
  responseOk req.actionId data

def Gate.denied (caller : Str) : Str :=
  lit "permission denied: caller " ++ caller ++ lit " may not confirm " ++ g.op ++
    lit " (approved callers: " ++ (lit ", ").intercalate g.confirmCallers ++ lit ")"

def Gate.noPending (id : Str) : Str :=
  lit "no pending " ++ g.op ++ lit " request with id " ++ id

inductive Routed where
  | requested (id : Str) (outcome : Except Error (List Envelope))
  | executing (id : Str) (params : Bytes)
  | replied (outcome : Except Error (List Envelope))
  deriving DecidableEq

structure Store where
  pending : Pending
  seq : Nat

def Gate.confirm (req : ActionRequest) (clock : Readings) (s : Store) : Routed × Store :=
  if ¬ g.mayConfirm req.callerPluginId then (.replied (responseErr req.actionId (g.denied req.callerPluginId)), s)
  else
    match parsePendingId x req.paramsJson with
    | .error message => (.replied (responseErr req.actionId message), s)
    | .ok id =>
      match g.takePending id clock s.pending with
      | (none, pending) => (.replied (responseErr req.actionId (g.noPending id)), { s with pending := pending })
      | (some p, pending) => (.executing id p.params, { s with pending := pending })

def Gate.request (req : ActionRequest) (clock : Readings) (s : Store) : Routed × Store :=
  let (id, pending) := g.storeRequest req clock s.seq s.pending
  (.requested id (g.requestReply req id), ⟨pending, s.seq + 1⟩)

def Gate.route (req : ActionRequest) (clock : Readings) (s : Store) : Routed × Store :=
  if requestPrefix.isPrefixOf req.action then
    if req.action.drop requestPrefix.length ≠ g.op then (.replied (notFound req.actionId), s)
    else g.request req clock s
  else if confirmPrefix.isPrefixOf req.action then
    if req.action.drop confirmPrefix.length ≠ g.op then (.replied (notFound req.actionId), s)
    else g.confirm x req clock s
  else (.replied (notFound req.actionId), s)

end Route

structure Payload where
  data : Option Bytes
  text : Str
  deriving DecidableEq, Repr

/- What the executor returned or raised. The second component of a pair has its bytes, if
it is bytes, and its `str`; `other` has the `bytes` of the value, or the text of what that
raised. -/
inductive ExecutorResult where
  | bytes (data : Bytes)
  | pair (ok : Bool) (value : Payload)
  | none
  | other (converted : Except Str Bytes)
  | raised (message : Str)
  | cancelled

def executorAnswer (actionId : Str) : ExecutorResult → Except Error (List Envelope)
  | .bytes data => responseOk actionId data
  | .pair true ⟨some data, _⟩ => responseOk actionId data
  | .pair true ⟨none, text⟩ => do responseOk actionId (← encodeUtf8 text)
  | .pair false value => responseErr actionId value.text
  | .none => responseOk actionId []
  | .other (.ok data) => responseOk actionId data
  | .other (.error message) => responseErr actionId message
  | .raised message => responseErr actionId message
  | .cancelled => .error .cancelled

/- What an answer inside the `try` raises is answered by the handler of the `try`, whose
own exceptions escape. -/
def executorReply (x : Externals) (actionId : Str) (result : ExecutorResult) : Except Error (List Envelope) :=
  match result with
  | .other (.error _) | .raised _ | .cancelled => executorAnswer actionId result
  | _ =>
    match executorAnswer actionId result with
    | .ok envelopes => .ok envelopes
    | .error e => responseErr actionId (x.describe e)

def textOk (req : ActionRequest) : Bool :=
  (encode req.actionId).isSome && (encode req.action).isSome && (encode req.callerPluginId).isSome

/- A gate in use. `inFlight` are the action ids of the calls in the executor; `elsewhere`
is another gate of the module, which draws its numbers from the same counter. -/
structure Gating where
  store : Store
  clock : Time
  inFlight : List Str

inductive Call where
  | route (req : ActionRequest) (clock : Readings)
  | finish (call : Nat) (result : ExecutorResult)
  | elsewhere

inductive Deed where
  | routed (req : ActionRequest) (clock : Readings) (how : Routed)
  | finished (actionId : Str) (outcome : Except Error (List Envelope))
  deriving DecidableEq

namespace Gating

def start (seq : Nat) (clock : Time) : Gating := ⟨⟨∅, seq⟩, clock, []⟩

def waits (how : Routed) (req : ActionRequest) : List Str :=
  match how with
  | .executing _ _ => [req.actionId]
  | _ => []

def step (x : Externals) (g : Gate) (s : Gating) : Call → Option (Gating × List Deed)
  | .route req clock =>
    if textOk req ∧ s.clock ≤ clock.sweptAt ∧ clock.sweptAt ≤ clock.createdAt then
      let (how, store) := g.route x req clock s.store
      some (⟨store, clock.createdAt, s.inFlight ++ waits how req⟩, [.routed req clock how])
    else none
  | .finish call result =>
    (s.inFlight[call]?).map fun actionId =>
      ({ s with inFlight := s.inFlight.eraseIdx call }, [.finished actionId (executorReply x actionId result)])
  | .elsewhere => some ({ s with store := { s.store with seq := s.store.seq + 1 } }, [])

def machine (x : Externals) (g : Gate) : Machine Gating Call Deed := ⟨step x g⟩

end Gating
end Vynkor.ConfirmationGate
