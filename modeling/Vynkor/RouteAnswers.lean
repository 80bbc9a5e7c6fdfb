import Vynkor.ConfirmationAgreement

/-! Whether `route` answers at all: a whole call, with whatever its executor does. -/
namespace Vynkor.ConfirmationGate
open Octets (Bytes)
open Text Tables

/- How an awaited executor ends for the `try` around it; `str` of an `unprintable`
exception raises. An exception of `bool`, `str` or `bytes` on what it returned is like one
of its own. -/
inductive Ended where
  | result (result : ExecutorResult)
  | unprintable (e : Error)

def executed (x : Externals) (actionId : Str) : Ended → Except Error (List Envelope)
  | .result result => executorReply x actionId result
  | .unprintable e => .error e

def Gate.call (x : Externals) (g : Gate) (req : ActionRequest) (clock : Readings) (s : Store) (executor : Bytes → Ended) :
    Except Error (List Envelope) × Store :=
  match g.route x req clock s with
  | (.requested _ outcome, after) => (outcome, after)
  | (.replied outcome, after) => (outcome, after)
  | (.executing _ params, after) => (executed x req.actionId (executor params), after)

def Responds (actionId : Str) (outcome : Except Error (List Envelope)) : Prop :=
  ∃ response, outcome = .ok [⟨some (.actionResponse response)⟩] ∧ response.actionId = actionId

def Granted (outcome : Except Error (List Envelope)) : Prop :=
  ∃ response, outcome = .ok [⟨some (.actionResponse response)⟩] ∧ response.status = .ok

structure Answered (g : Gate) (req : ActionRequest) (before : Store) (called : Except Error (List Envelope) × Store) : Prop where
  responds : Responds req.actionId called.1
  clean : req.action = g.requestAction → ¬ Granted called.1 → ∀ id ∈ called.2.pending, id ∈ before.pending

structure Describes (x : Externals) : Prop where
  loads : ∀ data e, x.loads data = .error e → Text.Encodable e
  describe : ∀ e, Text.Encodable (x.describe e)

def Ended.Printable : Ended → Prop
  | .result (.raised message) | .result (.other (.error message)) => Text.Encodable message
  | .unprintable _ => False
  | _ => True

def Answerable (x : Externals) (g : Gate) (req : ActionRequest) (clock : Readings) (s : Store) (executor : Bytes → Ended) : Prop :=
  if req.action = g.requestAction then ∃ value, g.pendingTtl = .finite value
  else if req.action = g.confirmAction then
    if g.mayConfirm req.callerPluginId then
      match parsePendingId x req.paramsJson with
      | .error _ => True
      | .ok id =>
        match (g.sweepExpired clock.sweptAt s.pending).lookup id with
        | none => Text.Encodable id
        | some p => (executor p.params).Printable
    else ∀ caller ∈ g.confirmCallers, Text.Encodable caller
  else True

section Replies
variable {x : Externals} {g : Gate} {actionId message : Str}

theorem deniedEncodable {g : Gate} {caller : Str} (text : Text.Encodable caller) :
    Text.Encodable (g.denied caller) ↔ ∀ caller ∈ g.confirmCallers, Text.Encodable caller := by
  unfold Gate.denied
  simp only [encodableAppend, litEncodable, encodableIntercalate (litEncodable ", "), text, opEncodable, true_and, and_true]

theorem respondsOk (id : Text.Encodable actionId) (data : Bytes) : Responds actionId (responseOk actionId data) :=
  ⟨_, okResponse id data, rfl⟩

theorem respondsErr (id : Text.Encodable actionId) : Responds actionId (responseErr actionId message) ↔ Text.Encodable message := by
  constructor
  · rintro ⟨response, made, -⟩
    cases text : textField message with
    | error e =>
      have field : textField actionId = .ok actionId := textFieldOk.mpr ⟨id, rfl⟩
      simp [responseErr, actionResponse, field, text, bind, Except.bind, Except.map] at made
    | ok field => exact (textFieldOk.mp text).1
  · intro text
    exact ⟨_, errResponse id text, rfl⟩

theorem respondsNotFound (id : Text.Encodable actionId) : Responds actionId (notFound actionId) := by
  refine ⟨⟨actionId, .notFound, [], lit "unknown action"⟩, ?_, rfl⟩
  rw [notFound, actionResponseOk id (litEncodable _)]
  rfl

theorem respondsTry (texts : Describes x) (id : Text.Encodable actionId) {answer reply : Except Error (List Envelope)}
    (tries : reply = match answer with
      | .ok envelopes => .ok envelopes
      | .error e => responseErr actionId (x.describe e))
    (answers : Responds actionId answer ∨ ∃ e, answer = .error e) : Responds actionId reply := by
  rw [tries]
  rcases answers with ⟨response, rfl, same⟩ | ⟨e, rfl⟩
  · exact ⟨response, rfl, same⟩
  · exact (respondsErr id).mpr (texts.describe e)

theorem answersPair (id : Text.Encodable actionId) (ok : Bool) (value : Payload) :
    Responds actionId (executorAnswer actionId (.pair ok value)) ∨ ∃ e, executorAnswer actionId (.pair ok value) = .error e := by
  obtain ⟨data, text⟩ := value
  cases ok with
  | false =>
    by_cases encodable : Text.Encodable text
    · exact .inl ((respondsErr id).mpr encodable)
    · refine .inr ⟨.unicodeEncode, ?_⟩
      have field : textField actionId = .ok actionId := textFieldOk.mpr ⟨id, rfl⟩
      have lone : textField text = .error .unicodeEncode := by simp [textField, (encodeUndefined _).mpr encodable]
      simp [executorAnswer, responseErr, actionResponse, field, lone, bind, Except.bind, Except.map]
  | true =>
    cases data with
    | some data => exact .inl (respondsOk id data)
    | none =>
      cases encoded : encodeUtf8 text with
      | ok raw =>
        simp only [executorAnswer, encoded, bind, Except.bind]
        exact .inl (respondsOk id raw)
      | error e => exact .inr ⟨e, by simp [executorAnswer, encoded, bind, Except.bind]⟩

theorem respondsExecuted (texts : Describes x) (id : Text.Encodable actionId) {ended : Ended} (awaited : ended ≠ .result .cancelled) :
    Responds actionId (executed x actionId ended) ↔ ended.Printable := by
  cases ended with
  | unprintable e => simp [executed, Responds, Ended.Printable]
  | result result =>
    cases result with
    | bytes data | none => exact iff_of_true (respondsTry texts id rfl (.inl (respondsOk id _))) trivial
    | pair ok value => exact iff_of_true (respondsTry texts id rfl (answersPair id ok value)) trivial
    | other converted =>
      cases converted with
      | ok data => exact iff_of_true (respondsTry texts id rfl (.inl (respondsOk id _))) trivial
      | error message => exact respondsErr id
    | raised message => exact respondsErr id
    | cancelled => exact absurd rfl awaited

end Replies

section Calls
variable {x : Externals} {g : Gate} {req : ActionRequest} {clock : Readings} {s : Store} {executor : Bytes → Ended}

theorem namesEncodable (texts : Describes x) {params : Bytes} {message : Str} (refused : parsePendingId x params = .error message) :
    Text.Encodable message := by
  unfold parsePendingId at refused
  simp only at refused
  split at refused
  · rename_i e failed
    cases refused
    split at failed
    · contradiction
    · exact encodableAppend.mpr ⟨litEncodable _, texts.loads _ _ failed⟩
  · repeat' split at refused
    all_goals first | contradiction | (cases refused; exact litEncodable _)

theorem requestAnswers (id : Text.Encodable req.actionId) (action : req.action = g.requestAction) :
    Answered g req s (g.call x req clock s executor) ↔ ∃ value, g.pendingTtl = .finite value := by
  have called : (g.call x req clock s executor).1 = g.requestReply req (pendingId clock.millis s.seq) := by
    simp only [Gate.call, routeRequest action, Gate.request, Gate.storeRequest]
  constructor
  · rintro ⟨⟨response, replied, -⟩, -⟩
    rw [called] at replied
    cases ttl : g.pendingTtl with
    | finite value => exact ⟨value, rfl⟩
    | posInf | negInf | nan => simp [Gate.requestReply, ttl, PyFloat.toInt, bind, Except.bind] at replied
  · rintro ⟨value, ttl⟩
    obtain ⟨ttlSecs, data, -, replied⟩ := finiteReturns ttl id (pendingId clock.millis s.seq)
    rw [← called] at replied
    exact ⟨⟨_, replied, rfl⟩, fun _ refused => absurd ⟨_, replied, rfl⟩ refused⟩

theorem otherAnswers (noRequest : req.action ≠ g.requestAction) :
    Answered g req s (g.call x req clock s executor) ↔ Responds req.actionId (g.call x req clock s executor).1 :=
  ⟨Answered.responds, fun responds => ⟨responds, fun action => absurd action noRequest⟩⟩

theorem confirmAnswers (texts : Describes x) (id : Text.Encodable req.actionId) (caller : Text.Encodable req.callerPluginId)
    (awaited : ∀ params, executor params ≠ .result .cancelled) (action : req.action = g.confirmAction) :
    Responds req.actionId (g.call x req clock s executor).1 ↔
      if g.mayConfirm req.callerPluginId then
        match parsePendingId x req.paramsJson with
        | .error _ => True
        | .ok id =>
          match (g.sweepExpired clock.sweptAt s.pending).lookup id with
          | none => Text.Encodable id
          | some p => (executor p.params).Printable
      else ∀ caller ∈ g.confirmCallers, Text.Encodable caller := by
  simp only [Gate.call, routeConfirm action, Gate.confirm]
  by_cases allowed : g.mayConfirm req.callerPluginId = true
  · simp only [allowed, not_true_eq_false, if_false, if_true]
    cases named : parsePendingId x req.paramsJson with
    | error message => exact iff_of_true ((respondsErr id).mpr (namesEncodable texts named)) trivial
    | ok pid =>
      cases found : (g.sweepExpired clock.sweptAt s.pending).lookup pid with
      | none =>
        simp only [Gate.takePending, found]
        rw [respondsErr id, Gate.noPending]
        simp only [encodableAppend, litEncodable, opEncodable, true_and]
      | some p =>
        simp only [Gate.takePending, found]
        exact respondsExecuted texts id (awaited _)
  · simp only [allowed, not_false_eq_true, if_true, Bool.false_eq_true, if_false]
    exact (respondsErr id).trans (deniedEncodable caller)

end Calls

/- For every state of a gate, request and executor: the call returns one response with the
id of the request, and leaves nothing of a request it did not grant, exactly if a request
meets a finite TTL, a refused caller an allowlist in UTF-8, an unknown pending id is UTF-8,
and what the executor raised has a text that is. -/
theorem routeAnswers (x : Externals) (g : Gate) (req : ActionRequest) (clock : Readings) (s : Store) (executor : Bytes → Ended)
    (texts : Describes x) (text : textOk req = true) (awaited : ∀ params, executor params ≠ .result .cancelled) :
    Answered g req s (g.call x req clock s executor) ↔ Answerable x g req clock s executor := by
  simp only [textOk, Bool.and_eq_true, encodeDefined] at text
  obtain ⟨⟨id, -⟩, caller⟩ := text
  unfold Answerable
  by_cases requests : req.action = g.requestAction
  · rw [if_pos requests]
    exact requestAnswers id requests
  · rw [if_neg requests, otherAnswers requests]
    by_cases confirms : req.action = g.confirmAction
    · rw [if_pos confirms]
      exact confirmAnswers texts id caller awaited confirms
    · rw [if_neg confirms]
      simp only [Gate.call, routeOther requests confirms]
      exact iff_of_true (respondsNotFound id) trivial

def surrogateParams : Bytes := ascii "\x7b\"pending_id\": \"\\ud800\"\x7d"

def surrogateModule : Externals where
  loads data :=
    if data = surrogateParams then .ok (.dict [(lit "pending_id", .str [.surrogate 0])]) else sampleModule.loads data
  describe := sampleModule.describe

def sampleExecutor (_ : Bytes) : Ended := .result (.bytes (ascii "done"))

theorem surrogateDescribes : Describes surrogateModule where
  loads := by
    intro data e failed
    simp only [surrogateModule, sampleModule] at failed
    repeat' split at failed
    all_goals first | contradiction | (cases failed; exact litEncodable _)
  describe _ := litEncodable _

def sampleCall (req : ActionRequest) (clock : Readings) (s : Store) : Except Error (List Envelope) × Store :=
  (sampleGate (.finite 300)).call surrogateModule req clock s sampleExecutor

def sampleHeld : Store := (sampleCall sampleTransfer sampleStored ⟨∅, 0⟩).2

theorem routeAnswersSample :
    Answered (sampleGate (.finite 300)) sampleTransfer ⟨∅, 0⟩ (sampleCall sampleTransfer sampleStored ⟨∅, 0⟩) ∧
      ((sampleGate (.finite 300)).route surrogateModule sampleConfirm sampleTaken sampleHeld).1 =
        .executing (lit "pending-1000-0") (ascii "5") ∧
      Answered (sampleGate (.finite 300)) sampleConfirm sampleHeld (sampleCall sampleConfirm sampleTaken sampleHeld) := by
  have answers (req : ActionRequest) (clock : Readings) (s : Store) (text : textOk req = true) :=
    routeAnswers surrogateModule (sampleGate (.finite 300)) req clock s sampleExecutor surrogateDescribes text nofun
  refine ⟨(answers sampleTransfer sampleStored ⟨∅, 0⟩ (by decide +kernel)).mpr ?_, by decide +kernel,
    (answers sampleConfirm sampleTaken sampleHeld (by decide +kernel)).mpr ?_⟩
  · have requests : sampleTransfer.action = (sampleGate (.finite 300)).requestAction := by decide +kernel
    rw [Answerable, if_pos requests]
    exact ⟨300, rfl⟩
  · have confirms : sampleConfirm.action ≠ (sampleGate (.finite 300)).requestAction ∧
        sampleConfirm.action = (sampleGate (.finite 300)).confirmAction ∧
        (sampleGate (.finite 300)).mayConfirm sampleConfirm.callerPluginId = true := by
      decide +kernel
    have named : parsePendingId surrogateModule sampleConfirm.paramsJson = .ok (lit "pending-1000-0") := by decide +kernel
    have held : ((sampleGate (.finite 300)).sweepExpired sampleTaken.sweptAt sampleHeld.pending).lookup (lit "pending-1000-0") =
        some (pendingOf sampleTransfer sampleStored) := by
      decide +kernel
    rw [Answerable, if_neg confirms.1, if_pos confirms.2.1, if_pos confirms.2.2]
    simp only [named, held, sampleExecutor, Ended.Printable]

/- The message about an unknown id raises in the response that is to carry it. -/
theorem surrogateUnanswered : ¬ ∀ (x : Externals) (g : Gate) (req : ActionRequest) (clock : Readings) (s : Store)
    (executor : Bytes → Ended), Describes x → textOk req = true → (∀ params, executor params ≠ .result .cancelled) →
      Answered g req s (g.call x req clock s executor) := by
  intro claim
  have answered := claim surrogateModule (sampleGate (.finite 300)) { sampleConfirm with paramsJson := surrogateParams } sampleTaken
    ⟨∅, 0⟩ sampleExecutor surrogateDescribes (by decide +kernel) nofun
  have raised : ((sampleGate (.finite 300)).call surrogateModule { sampleConfirm with paramsJson := surrogateParams } sampleTaken
      ⟨∅, 0⟩ sampleExecutor).1 = .error .unicodeEncode := by decide +kernel
  obtain ⟨response, replied, -⟩ := answered.responds
  rw [raised] at replied
  cases replied

end Vynkor.ConfirmationGate
