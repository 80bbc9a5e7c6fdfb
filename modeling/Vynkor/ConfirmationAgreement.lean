import Vynkor.ConfirmationRuns

/-! The caller helpers against the gate: a requested and confirmed action from the
first call to the reply to the second. -/
namespace Vynkor.ConfirmationGate
open Octets (Bytes)
open Text Tables Labelled

def confirmationRequest (op : Str) (params : Bytes) (actionId caller : Str) : ActionRequest :=
  ⟨actionId, requestPrefix ++ op, params, 0, false, caller⟩

def sendConfirmationRequest (x : Externals) (op : Str) (resp : ActionResponse) : Except Error Str :=
  if resp.status ≠ .ok then .error (.internal (lit "request_" ++ op ++ lit " failed: " ++ resp.error))
  else
    match if resp.dataJson = [] then .ok (.dict []) else x.loads resp.dataJson with
    | .error e => .error (.internal (lit "invalid pending response: " ++ e))
    | .ok value =>
      match value.get (lit "pending_id") with
      | some (.str id) =>
        if id = [] then .error (.internal (lit "pending response missing pending_id")) else .ok id
      | _ => .error (.internal (lit "pending response missing pending_id"))

def sendConfirmation (x : Externals) (op id actionId caller : Str) : Except Error ActionRequest :=
  match encodeUtf8 (Json.dumps [(lit "pending_id", .str id)]) with
  | .error e => .error (.internal (lit "failed to encode confirm params: " ++ x.describe e))
  | .ok params => .ok ⟨actionId, confirmPrefix ++ op, params, 0, false, caller⟩

def scalarValue : Json.Scalar → Json.Value
  | .str s => .str s
  | .int n => .int n

def LoadsInverts (x : Externals) (members : List (Str × Json.Scalar)) : Prop :=
  ∀ data, encode (Json.dumps members) = some data → x.loads data = .ok (.dict (members.map fun m => (m.1, scalarValue m.2)))

theorem encodeNil {s : Str} (encoded : encode s = some []) : s = [] := by
  cases s with
  | nil => rfl
  | cons c rest =>
    cases c with
    | scalar u =>
      obtain ⟨tail, -, same⟩ := Option.map_eq_some_iff.mp encoded
      have size := congrArg List.length same
      have positive := u.utf8Size_pos
      rw [List.length_append, String.length_utf8EncodeChar] at size
      simp only [List.length_nil] at size
      omega
    | surrogate _ => cases encoded

def noEncoding : Str := lit "string argument without an encoding"

inductive Documented where
  | data (data : Bytes)
  | okPair (data : Bytes) (text : Str)
  | nothing
  | string (s : Str)
  | errorPair (s : Str)
  | raised (s : Str)
  deriving DecidableEq, Repr

namespace Documented

def result : Documented → ExecutorResult
  | data b => .bytes b
  | okPair b text => .pair true ⟨some b, text⟩
  | nothing => .none
  | string _ => .other (.error noEncoding)
  | errorPair s => .pair false ⟨none, s⟩
  | raised s => .raised s

def response (actionId : Str) : Documented → ActionResponse
  | data b | okPair b _ => ⟨actionId, .ok, b, []⟩
  | nothing => ⟨actionId, .ok, [], []⟩
  | string s | errorPair s | raised s => ⟨actionId, .error, [], s⟩

def TextOk : Documented → Prop
  | string s | errorPair s | raised s => Text.Encodable s
  | _ => True

end Documented

section Replies
variable {x : Externals} {actionId : Str}

theorem okResponse (id : Text.Encodable actionId) (data : Bytes) :
    responseOk actionId data = .ok [⟨some (.actionResponse ⟨actionId, .ok, data, []⟩)⟩] := by
  rw [responseOk, actionResponseOk id (by simp [Text.Encodable])]
  rfl

theorem errResponse {message : Str} (id : Text.Encodable actionId) (text : Text.Encodable message) :
    responseErr actionId message = .ok [⟨some (.actionResponse ⟨actionId, .error, [], message⟩)⟩] := by
  rw [responseErr, actionResponseOk id text]
  rfl

theorem replyIff {outcome : Documented} (id : Text.Encodable actionId) (text : outcome.TextOk) :
    executorReply x actionId outcome.result = .ok [⟨some (.actionResponse (outcome.response actionId))⟩] ↔
      ∀ s, outcome = .string s → s = noEncoding := by
  cases outcome with
  | data b | okPair b _ =>
    refine iff_of_true ?_ (by simp)
    simp only [Documented.result, Documented.response, executorReply, executorAnswer, okResponse id]
  | nothing =>
    refine iff_of_true ?_ (by simp)
    simp only [Documented.result, Documented.response, executorReply, executorAnswer, okResponse id]
  | errorPair s | raised s =>
    refine iff_of_true ?_ (by simp)
    simp only [Documented.result, Documented.response, executorReply, executorAnswer, errResponse id text]
  | string s =>
    have replied : executorReply x actionId (Documented.string s).result =
        .ok [⟨some (.actionResponse ⟨actionId, .error, [], noEncoding⟩)⟩] := errResponse id (litEncodable _)
    simp only [Documented.response, replied, Documented.string.injEq, forall_eq']
    constructor
    · intro same
      simp only [Except.ok.injEq, List.cons.injEq, Envelope.mk.injEq, Option.some.injEq, Payload.actionResponse.injEq,
        ActionResponse.mk.injEq] at same
      exact same.1.2.2.2.symm
    · rintro rfl
      rfl

end Replies

section Ids
variable {x : Externals} {g : Gate}

theorem foundId (id : Str) (rest : List (Str × Json.Value)) :
    (Json.Value.dict ((lit "pending_id", .str id) :: rest)).get (lit "pending_id") = some (.str id) := by
  simp [Json.Value.get]

theorem encodeUtf8Ok {s : Str} {data : Bytes} : encodeUtf8 s = .ok data ↔ encode s = some data := by
  unfold encodeUtf8
  cases encode s <;> simp

theorem requestReadsBack {req : ActionRequest} {id back : Str} {resp : ActionResponse} (text : Text.Encodable req.actionId)
    (inverts : ∀ ttlSecs, g.pendingTtl.toInt = .ok ttlSecs →
      LoadsInverts x [(lit "pending_id", .str id), (lit "action", .str req.action), (lit "ttl_secs", .int ttlSecs)])
    (answered : g.requestReply req id = .ok [⟨some (.actionResponse resp)⟩])
    (read : sendConfirmationRequest x g.op resp = .ok back) : back = id ∧ id ≠ [] ∧ Answering g := by
  unfold Gate.requestReply at answered
  cases ttl : g.pendingTtl.toInt with
  | error e => simp [ttl, bind, Except.bind] at answered
  | ok ttlSecs =>
    have answering : Answering g := by
      constructor
      · intro infinite
        simp [infinite, PyFloat.toInt] at ttl
      · intro undefined
        simp [undefined, PyFloat.toInt] at ttl
    obtain ⟨data, encoded⟩ := Option.isSome_iff_exists.mp ((encodeDefined _).mpr (Json.dumpsEncodable
      [(lit "pending_id", .str id), (lit "action", .str req.action), (lit "ttl_secs", .int ttlSecs)]))
    have loaded := inverts ttlSecs ttl data encoded
    simp only [ttl, requestData, encodeUtf8Ok.mpr encoded, bind, Except.bind, okResponse text, Except.ok.injEq,
      List.cons.injEq, and_true, Envelope.mk.injEq, Option.some.injEq, Payload.actionResponse.injEq] at answered
    subst answered
    simp only [sendConfirmationRequest, ne_eq, not_true_eq_false, if_false] at read
    split at read
    · contradiction
    · rename_i value got
      split at got
      · cases got
        cases read
      · rw [loaded] at got
        cases got
        simp only [List.map_cons, scalarValue, foundId] at read
        split at read
        · contradiction
        · rename_i known
          cases read
          exact ⟨rfl, known, answering⟩

theorem confirmationNames {op id actionId caller : Str} {req : ActionRequest} (known : id ≠ [])
    (inverts : LoadsInverts x [(lit "pending_id", .str id)]) (sent : sendConfirmation x op id actionId caller = .ok req) :
    req.action = confirmPrefix ++ op ∧ req.callerPluginId = caller ∧ req.actionId = actionId ∧
      parsePendingId x req.paramsJson = .ok id := by
  obtain ⟨data, encoded⟩ := Option.isSome_iff_exists.mp
    ((encodeDefined _).mpr (Json.dumpsEncodable [(lit "pending_id", .str id)]))
  have loaded := inverts data encoded
  have nonempty : data ≠ [] := by
    rintro rfl
    exact absurd (encodeNil encoded) (by simp [Json.dumps])
  have made := encodeUtf8Ok.mpr encoded
  unfold sendConfirmation at sent
  generalize encodeUtf8 (Json.dumps [(lit "pending_id", .str id)]) = params at made sent
  subst made
  injection sent with same
  subst same
  have parsed : parsePendingId x data = .ok id := by
    simp only [parsePendingId, nonempty, if_false, loaded, List.map_cons, List.map_nil, scalarValue, foundId, known]
  exact ⟨rfl, rfl, rfl, parsed⟩

end Ids

def Replied (g : Gate) (deeds : List Deed) : Prop :=
  ∀ req clock how, .routed req clock how ∈ deeds → Text.Encodable req.actionId ∧
    (req.action = g.requestAction → ∃ id, how = .requested id (g.requestReply req id))

theorem runsReplied {x : Externals} {g : Gate} {start s : Gating} {calls : List Call} {deeds : List Deed}
    (run : Runs (Gating.machine x g) Always start calls deeds s) : Replied g deeds := by
  refine runsKeep (fun deeds _ => Replied g deeds) ?_ ?_ run
  · intro req clock how none
    exact absurd none List.not_mem_nil
  intro deeds s call t emitted ok _ move req clock how routed
  rcases List.mem_append.mp routed with before | now
  · exact ok req clock how before
  · cases call with
    | route req' clock' =>
      obtain ⟨guard, rfl, rfl⟩ := routedStep.mp move
      rw [List.mem_singleton] at now
      cases now
      simp only [textOk, Bool.and_eq_true, encodeDefined] at guard
      refine ⟨guard.1.1.1, fun action => ?_⟩
      rw [routeRequest action]
      exact ⟨_, rfl⟩
    | finish call result =>
      obtain ⟨actionId, waiting, same⟩ := Option.map_eq_some_iff.mp move
      cases same
      simp at now
    | elsewhere =>
      cases move
      simp at now

theorem unexecutedBefore {x : Externals} {g : Gate} {before after : List Deed} {req : ActionRequest} {clock : Readings}
    {id : Str} {outcome : Except Error (List Envelope)}
    (spec : Spec x g (before ++ .routed req clock (.requested id outcome) :: after)) : Untaken before id := by
  intro other readings params taken
  obtain ⟨first, rest, rfl⟩ := List.append_of_mem taken
  have entitled : Entitled x g first other readings.sweptAt id params :=
    (spec.entitled first (rest ++ .routed req clock (.requested id outcome) :: after) other readings _ (by simp) id params).mp rfl
  obtain ⟨earlier, stored, reply, requested, -⟩ := entitled.returned
  have known : id ∈ first.filterMap requestedId := requestedOf.mpr ⟨earlier, stored, reply, requested⟩
  have distinct := spec.distinct
  simp only [List.append_assoc, List.filterMap_append, List.cons_append, List.filterMap_cons, requestedId] at distinct
  exact (List.nodup_append'.mp distinct).2.2 known (by simp)

theorem unexecutedAfter {x : Externals} {g : Gate} {before after : List Deed} {req : ActionRequest} {clock : Readings}
    {id : Str} {params : Bytes} (spec : Spec x g (before ++ .routed req clock (.executing id params) :: after)) :
    Untaken after id := by
  intro other readings params' taken
  have once := spec.once
  have again : id ∈ after.filterMap executedId := List.mem_filterMap.mpr ⟨_, taken, rfl⟩
  simp only [List.filterMap_append, List.filterMap_cons, executedId] at once
  exact (List.nodup_cons.mp (List.nodup_append'.mp once).2.1).1 again

/- A request and a confirmation in the history of a gate, with what their callers
passed and saw. -/
structure Exchange where
  before : List Deed
  request : ActionRequest
  requestedAt : Readings
  requested : Routed
  between : List Deed
  confirm : ActionRequest
  confirmedAt : Readings
  confirmed : Routed
  after : List Deed
  params : Bytes
  requester : Str
  response : ActionResponse
  pendingId : Str
  confirmer : Str

def Routed.reply : Routed → Option (Except Error (List Envelope))
  | .requested _ outcome | .replied outcome => some outcome
  | .executing _ _ => none

/- `send_confirmation_request` returned the id, and `send_confirmation` with it was
routed before the TTL, with no other call confirming it in between. -/
structure Exchange.Took (e : Exchange) (x : Externals) (g : Gate) (deeds : List Deed) : Prop where
  history : deeds = e.before ++ .routed e.request e.requestedAt e.requested :: e.between ++
    .routed e.confirm e.confirmedAt e.confirmed :: e.after
  asked : e.request = confirmationRequest g.op e.params e.request.actionId e.requester
  answered : e.requested.reply = some (.ok [⟨some (.actionResponse e.response)⟩])
  returned : sendConfirmationRequest x g.op e.response = .ok e.pendingId
  confirms : sendConfirmation x g.op e.pendingId e.confirm.actionId e.confirmer = .ok e.confirm
  allowed : g.mayConfirm e.confirmer = true
  young : g.pendingTtl.above (e.confirmedAt.sweptAt - e.requestedAt.createdAt) = true
  others : Untaken e.between e.pendingId

/- `json.loads` inverts the two dumps of the exchange. -/
structure Exchange.Inverts (e : Exchange) (x : Externals) (g : Gate) : Prop where
  reply : ∀ id outcome ttlSecs, e.requested = .requested id outcome → g.pendingTtl.toInt = .ok ttlSecs →
    LoadsInverts x [(lit "pending_id", .str id), (lit "action", .str e.request.action), (lit "ttl_secs", .int ttlSecs)]
  params : LoadsInverts x [(lit "pending_id", .str e.pendingId)]

def Exchange.Executed (e : Exchange) : Prop :=
  e.confirmed = .executing e.pendingId e.params ∧ Untaken e.before e.pendingId ∧ Untaken e.after e.pendingId

/- However the gate stands when the executor ends so, the reply reports it as
documented. -/
def Exchange.Reports (e : Exchange) (x : Externals) (g : Gate) (outcome : Documented) : Prop :=
  ∀ (t : Gating) call, t.inFlight[call]? = some e.confirm.actionId →
    ∃ u, (Gating.machine x g).step t (.finish call outcome.result) =
      some (u, [.finished e.confirm.actionId (.ok [⟨some (.actionResponse (outcome.response e.confirm.actionId))⟩])])

theorem reportsIff {e : Exchange} {x : Externals} {g : Gate} {outcome : Documented} :
    e.Reports x g outcome ↔ executorReply x e.confirm.actionId outcome.result =
      .ok [⟨some (.actionResponse (outcome.response e.confirm.actionId))⟩] := by
  constructor
  · intro reports
    obtain ⟨u, move⟩ := reports ⟨⟨∅, 0⟩, 0, [e.confirm.actionId]⟩ 0 rfl
    simp only [Gating.machine, Gating.step, List.getElem?_cons_zero, Option.map_some, Option.some.injEq, Prod.mk.injEq,
      List.cons.injEq, Deed.finished.injEq, true_and, and_true] at move
    exact move.2
  · intro replied t call flying
    refine ⟨{ t with inFlight := t.inFlight.eraseIdx call }, ?_⟩
    simp only [Gating.machine, Gating.step, flying, Option.map_some, replied]

/- A confirmed action is executed once with the params of the request, and its outcome
reported as documented unless it is a returned `str`. -/
theorem confirmationAgrees (x : Externals) (g : Gate) (seq : Nat) (clock : Time) {calls : List Call} {deeds : List Deed}
    {s : Gating} (run : Runs (Gating.machine x g) Always (.start seq clock) calls deeds s) (e : Exchange)
    (took : e.Took x g deeds) (inverts : e.Inverts x g) (outcome : Documented) (text : outcome.TextOk) :
    e.Executed ∧ (e.Reports x g outcome ↔ ∀ s, outcome = .string s → s = noEncoding) := by
  have replied := runsReplied run
  have inRequest : .routed e.request e.requestedAt e.requested ∈ deeds := by simp [took.history]
  have inConfirm : .routed e.confirm e.confirmedAt e.confirmed ∈ deeds := by simp [took.history]
  have action : e.request.action = g.requestAction := by rw [took.asked]; rfl
  obtain ⟨requestText, gives⟩ := replied _ _ _ inRequest
  obtain ⟨id, gave⟩ := gives action
  have answered := took.answered
  simp only [gave, Routed.reply, Option.some.injEq] at answered
  obtain ⟨rfl, known, answering⟩ := requestReadsBack requestText (fun ttlSecs => inverts.reply id _ ttlSecs gave) answered
    took.returned
  obtain ⟨confirmAction, caller, -, named⟩ := confirmationNames known inverts.params took.confirms
  have sound : Sound x g deeds s :=
    runsKeep (Sound x g) (startSound x g seq clock) (fun deeds s call t emitted ok _ move => stepSound answering ok move) run
  have spec := sound.spec
  rw [took.history, gave] at spec
  have unexecuted : Untaken e.before e.pendingId := by
    rw [List.append_assoc] at spec
    exact unexecutedBefore spec
  have untaken : Untaken (e.before ++ .routed e.request e.requestedAt (.requested e.pendingId
      (g.requestReply e.request e.pendingId)) :: e.between) e.pendingId := by
    intro req readings params taken
    rcases List.mem_append.mp taken with earlier | later
    · exact unexecuted req readings params earlier
    · rcases List.mem_cons.mp later with first | between
      · cases first
      · exact took.others req readings params between
  have executes : e.confirmed = .executing e.pendingId e.params := by
    refine (spec.entitled _ e.after e.confirm e.confirmedAt e.confirmed rfl e.pendingId e.params).mpr ?_
    refine ⟨confirmAction, caller ▸ took.allowed, named, ?_, untaken⟩
    have young : g.isStale e.confirmedAt.sweptAt (pendingOf e.request e.requestedAt) = false := (aboveIff answering).mp took.young
    have returns : Returns e.request e.pendingId _ := youngReturns requestText answering young
    have here : Requested (e.before ++ .routed e.request e.requestedAt (.requested e.pendingId
        (g.requestReply e.request e.pendingId)) :: e.between) e.request e.requestedAt e.pendingId _ :=
      List.mem_append_right _ List.mem_cons_self
    exact ⟨e.request, e.requestedAt, _, here, returns, action, took.young, by rw [took.asked]; rfl⟩
  rw [executes] at spec
  exact ⟨⟨executes, unexecuted, unexecutedAfter spec⟩,
    reportsIff.trans (replyIff (replied _ _ _ inConfirm).1 text)⟩

def sampleReplied : Str :=
  lit "\x7b\"pending_id\": \"pending-1000-0\", \"action\": \"request_transfer\", \"ttl_secs\": 300\x7d"

def sampleReplyData : Bytes := (encode sampleReplied).getD []

def sampleJson : Externals where
  loads data :=
    if data = sampleReplyData then
      .ok (.dict [(lit "pending_id", .str samplePendingId), (lit "action", .str (lit "request_transfer")), (lit "ttl_secs", .int 300)])
    else sampleModule.loads data
  describe := sampleModule.describe

def sampleExchange : Exchange where
  before := []
  request := sampleTransfer
  requestedAt := sampleStored
  requested := .requested samplePendingId ((sampleGate (.finite 300)).requestReply sampleTransfer samplePendingId)
  between := []
  confirm := sampleConfirm
  confirmedAt := sampleTaken
  confirmed := .executing samplePendingId (ascii "5")
  after := []
  params := ascii "5"
  requester := lit "shop"
  response := ⟨lit "a1", .ok, sampleReplyData, []⟩
  pendingId := samplePendingId
  confirmer := lit "phone-1"

theorem sampleTook : sampleExchange.Took sampleJson (sampleGate (.finite 300)) (sampleDeeds (.finite 300)) where
  history := rfl
  asked := by decide +kernel
  answered := by decide +kernel
  returned := by decide +kernel
  confirms := by decide +kernel
  allowed := by decide +kernel
  young := by decide +kernel
  others := by simp [sampleExchange, Untaken]

theorem sampleInverts : sampleExchange.Inverts sampleJson (sampleGate (.finite 300)) := by
  constructor
  · intro id outcome ttlSecs requested ttl data encoded
    cases requested
    have secs : PyFloat.toInt (.finite 300) = .ok 300 := by decide +kernel
    cases secs.symm.trans ttl
    have dumped : encode (Json.dumps [(lit "pending_id", .str samplePendingId), (lit "action", .str (lit "request_transfer")),
        (lit "ttl_secs", .int 300)]) = some sampleReplyData := by decide +kernel
    cases dumped.symm.trans encoded
    rfl
  · intro data encoded
    have dumped : encode (Json.dumps [(lit "pending_id", .str samplePendingId)]) = some sampleConfirmParams := by decide +kernel
    have other : sampleConfirmParams ≠ sampleReplyData := by decide +kernel
    cases dumped.symm.trans encoded
    simp only [sampleJson, if_neg other]
    rfl

theorem sampleRun : ∃ s, Runs (Gating.machine sampleJson (sampleGate (.finite 300))) Always (.start 0 0)
    [.route sampleTransfer sampleStored, .route sampleConfirm sampleTaken] (sampleDeeds (.finite 300)) s := by
  have ran : ((Gating.machine sampleJson (sampleGate (.finite 300))).run (.start 0 0)
      [.route sampleTransfer sampleStored, .route sampleConfirm sampleTaken]).map Prod.snd = some (sampleDeeds (.finite 300)) := by
    decide +kernel
  obtain ⟨⟨s, deeds⟩, run, same⟩ := Option.map_eq_some_iff.mp ran
  cases same
  exact ⟨s, runsOfRun run⟩

theorem confirmationAgreesSample : sampleExchange.Executed ∧
    sampleExchange.Reports sampleJson (sampleGate (.finite 300)) (.errorPair (lit "declined")) := by
  obtain ⟨s, run⟩ := sampleRun
  obtain ⟨executed, reports⟩ := confirmationAgrees sampleJson (sampleGate (.finite 300)) 0 0 run sampleExchange sampleTook
    sampleInverts (.errorPair (lit "declined")) (litEncodable _)
  exact ⟨executed, reports.mpr (by simp)⟩

/- The executor returns the text "declined". -/
theorem stringReplaced : ¬ ∀ (x : Externals) (g : Gate) (calls : List Call) (deeds : List Deed) (s : Gating) (e : Exchange)
    (outcome : Documented), Runs (Gating.machine x g) Always (.start 0 0) calls deeds s → e.Took x g deeds → e.Inverts x g →
      outcome.TextOk → e.Reports x g outcome := by
  intro claim
  obtain ⟨s, run⟩ := sampleRun
  have reports := claim _ _ _ _ s sampleExchange (.string (lit "declined")) run sampleTook sampleInverts (litEncodable _)
  exact absurd (reportsIff.mp reports) (by decide +kernel)

end Vynkor.ConfirmationGate
