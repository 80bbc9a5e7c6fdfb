import Mathlib.Data.List.Forall2
import Vynkor.ConcurrentLoop
import Vynkor.MacDowngrade

/-! What becomes of an action request in `run_concurrent_loop` of `vynkor/concurrent.py`:
its handler task, the envelopes that the task puts, and what `client.send` writes of
them. The connection stays up and the client's key is the same throughout. -/
namespace Vynkor.ReplyDelivery
open Octets (Bytes)
open Text Framing Labelled

/- How `on_action` ends. An exception without a text is one that `str` raises on. -/
inductive Outcome where
  | returned (envelopes : List Envelope)
  | raised (text : Option Str)
  deriving DecidableEq, Repr

structure Job where
  request : ActionRequest
  outcome : Option Outcome
  replies : List Reply
  deriving DecidableEq, Repr

structure Delivery where
  loop : Loop
  jobs : List Job

/- A task is unprintable where the `str` of what `on_action` raised raises: building the
`ACTION_ERROR` fails, and the task with it. -/
inductive Act where
  | turn (turn : Turn)
  | unprintable (task : Nat)

/- `sent` is a `client.send` with what the transport was handed; the ticket is that of an
envelope from the queue. -/
inductive Traffic where
  | accepted (task : Nat) (request : ActionRequest)
  | sent (ticket : Option Nat) (envelope : Envelope) (frames : List Bytes)
  deriving DecidableEq, Repr

def start : Delivery := ⟨.start, []⟩

def ended : Except Str (List Envelope) → Outcome
  | .ok envelopes => .returned envelopes
  | .error text => .raised (some text)

def Job.ends (outcome : Outcome) (job : Job) : Job := { job with outcome := some outcome }
def Job.puts (replies : List Reply) (job : Job) : Job := { job with replies := job.replies ++ replies }

def requested : Control → Option ActionRequest
  | .woken (some (.ok ⟨some (.actionRequest request)⟩)) _ => some request
  | _ => none

def track (jobs : List Job) (happened : List Happening) (control : Control) : Turn → List Job
  | .goOn .accepted _ => jobs ++ (requested control).toList.map fun request => ⟨request, none, []⟩
  | .complete task outcome => jobs.modify task (Job.ends (ended outcome))
  | .put task => jobs.modify task (Job.puts (putReplies happened))
  | _ => jobs

def accepting (jobs : List Job) (control : Control) : Turn → List Traffic
  | .goOn .accepted _ => (requested control).toList.map (.accepted jobs.length)
  | _ => []

section Wire
variable (x : Externals) (codec : Codec) (c : VynkorClient)

def written (envelope : Envelope) : List Bytes := (c.send x codec (lit "kernel") envelope none).1

def sending : Happening → Option Traffic
  | .handed reply => some (.sent (some reply.ticket) reply.envelope (written x codec c reply.envelope))
  | .own envelope => some (.sent none envelope (written x codec c envelope))
  | _ => none

def step (s : Delivery) : Act → Option (Delivery × List Traffic)
  | .turn turn =>
    (s.loop.step turn).map fun (after, happened) =>
      (⟨after, track s.jobs happened s.loop.control turn⟩,
        accepting s.jobs s.loop.control turn ++ happened.filterMap (sending x codec c))
  | .unprintable task =>
    match s.loop.tasks[task]? with
    | some (.running _) =>
      some (⟨{ s.loop with tasks := s.loop.tasks.set task (.putting []) }, s.jobs.modify task (Job.ends (.raised none))⟩, [])
    | _ => none

def delivery : Machine Delivery Act Traffic := ⟨step x codec c⟩

end Wire

def Answers (request : ActionRequest) (envelope : Envelope) : Prop :=
  match envelope.payload with
  | some (.actionResponse response) => response.actionId = request.actionId
  | _ => False

def Fits (codec : Codec) (envelope : Envelope) : Prop := (codec.serialize envelope).length ≤ maxPayload

def refusal (request : ActionRequest) (message : Str) : Envelope :=
  ⟨some (.actionResponse ⟨request.actionId, .error, [], message⟩)⟩

/- A response that `on_action` returned fits into a frame; or what it raised has a text
of which an `ACTION_ERROR` can be made that does. -/
def Replies (codec : Codec) (request : ActionRequest) : Outcome → Prop
  | .returned envelopes => ∃ e ∈ envelopes, Answers request e ∧ Fits codec e
  | .raised (some text) =>
    Encodable request.actionId ∧ Encodable text ∧ Fits codec (refusal request (Loop.panicMessage text))
  | .raised none => False

structure Taken (s : Delivery) (task : Nat) (job : Job) (events : List Traffic) : Prop where
  put : s.loop.tasks[task]? = some (.putting [])
  handed : ∀ r ∈ job.replies, ∃ frames, .sent (some r.ticket) r.envelope frames ∈ events

def Answered (job : Job) (events : List Traffic) : Prop :=
  ∃ r ∈ job.replies, Answers job.request r.envelope ∧
    ∃ frame, .sent (some r.ticket) r.envelope [frame] ∈ events

/- What `accept` raised, by its text. Where `str` of it raises, that leaves the loop. -/
def rejection : Option Str → Verdict
  | some message => .rejected message
  | none => .escapes

def Refusable (codec : Codec) (request : ActionRequest) : Option Str → Prop
  | some message => Encodable request.actionId ∧ Encodable message ∧ Fits codec (refusal request message)
  | none => False

structure Refused (s t : Delivery) (request : ActionRequest) (text : Option Str) (events : List Traffic) : Prop where
  jobs : t.jobs = s.jobs
  tasks : t.loop.tasks = s.loop.tasks
  once : ∃ message frame, (∀ said ∈ text, message = said) ∧ events = [.sent none (refusal request message) [frame]]

section Sends
variable {x : Externals} {codec : Codec} {c : VynkorClient}

theorem kernelAddressed : ∃ t, targetBytes (lit "kernel") = .ok t := ⟨_, rfl⟩

theorem packFits (payload : Bytes) (key : Option Bytes) (compress : Bool) :
    (∃ frame, packFrame x (lit "kernel") payload 0 key compress = .ok frame) ↔ payload.length ≤ maxPayload := by
  constructor
  · rintro ⟨frame, packed⟩
    exact (packFrameOk packed).1
  · intro fits
    obtain ⟨t, addressed⟩ := kernelAddressed
    exact ⟨_, packFrameFit fits (by decide) addressed⟩

theorem writtenFits (x : Externals) (codec : Codec) (up : c.Connected) (envelope : Envelope) :
    (Fits codec envelope ∧ ∃ frame, written x codec c envelope = [frame]) ∨
      (¬ Fits codec envelope ∧ written x codec c envelope = []) := by
  unfold written VynkorClient.send VynkorClient.sendRaw VynkorClient.sendRawWithFlags
  unfold VynkorClient.Connected at up
  by_cases fits : Fits codec envelope
  · refine .inl ⟨fits, ?_⟩
    cases kind : c.transport with
    | ws =>
      obtain ⟨frame, packed⟩ := (packFits (x := x) (codec.serialize envelope) c.sessionKey false).mpr fits
      simp only [kind] at up
      exact ⟨frame, by simp [VynkorClient.sendWs, Nat.not_lt.mpr fits, packed, up]⟩
    | uds =>
      obtain ⟨frame, packed⟩ := (packFits (x := x) (codec.serialize envelope) c.sessionKey true).mpr fits
      simp only [kind] at up
      exact ⟨frame, by simp [VynkorClient.sendUds, packed, up]⟩
  · refine .inr ⟨fits, ?_⟩
    cases kind : c.transport with
    | ws => simp [VynkorClient.sendWs, Nat.not_le.mp fits]
    | uds =>
      cases packed : packFrame x (lit "kernel") (codec.serialize envelope) 0 c.sessionKey true with
      | ok frame => exact absurd ((packFits _ _ true).mp ⟨frame, packed⟩) fits
      | error e => simp [VynkorClient.sendUds, packed]

end Sends

def made (request : ActionRequest) : Outcome → List Envelope
  | .returned envelopes => envelopes
  | .raised (some text) => (responseEnvelope request.actionId (.error (Loop.panicMessage text))).toOption.toList
  | .raised none => []

def At : HandlerTask → Job → Prop
  | .running request, job => job = ⟨request, none, []⟩
  | .putting envelopes, job => ∃ outcome, job.outcome = some outcome ∧
      made job.request outcome = job.replies.map Reply.envelope ++ envelopes

section Pairs
variable {α β : Type} {R : α → β → Prop} {as : List α} {bs : List β} {a old : α} {b : β} {i : Nat}

theorem pairedAt (ok : List.Forall₂ R as bs) (left : as[i]? = some a) (right : bs[i]? = some b) : R a b := by
  induction ok generalizing i with
  | nil => cases left
  | cons first rest ih =>
    cases i with
    | zero =>
      cases left
      cases right
      exact first
    | succ i => exact ih left right

theorem pairedSet {update : β → β} (ok : List.Forall₂ R as bs) (here : as[i]? = some old)
    (next : ∀ b, R old b → R a (update b)) : List.Forall₂ R (as.set i a) (bs.modify i update) := by
  induction ok generalizing i with
  | nil => cases here
  | cons first rest ih =>
    cases i with
    | zero =>
      cases here
      exact .cons (next _ first) rest
    | succ i => exact .cons first (ih here)

end Pairs

theorem goesTracked {before after : Control} {turn : Turn} {happened : List Happening} (goes : Goes before turn happened after)
    (jobs : List Job) : track jobs happened before turn = jobs ∧ accepting jobs before turn = [] := by
  have none (verdict : Verdict) (now : Nat) (other : requested before = none) :
      track jobs happened before (.goOn verdict now) = jobs ∧ accepting jobs before (.goOn verdict now) = [] := by
    cases verdict with
    | accepted => simp [track, accepting, other]
    | rejected _ | escapes => exact ⟨rfl, rfl⟩
  cases goes with
  | @message payload _ verdict now foreign =>
    refine none verdict now ?_
    cases payload with
    | actionRequest request => cases foreign
    | _ => rfl
  | lost | ping | pluginShutdown | event | passedOver | handed => exact none _ _ rfl
  | _ => exact ⟨rfl, rfl⟩

def JobOf (jobs : List Job) (task : Nat) (request : ActionRequest) : Prop :=
  ∃ job, jobs[task]? = some job ∧ job.request = request

/- Every accepted request has its job, the jobs are where the tasks are, and what was sent
is what `client.send` makes of the envelope. -/
structure Serving (x : Externals) (codec : Codec) (c : VynkorClient) (events : List Traffic) (s : Delivery) : Prop where
  paired : List.Forall₂ At s.loop.tasks s.jobs
  accepted : ∀ task request, .accepted task request ∈ events → JobOf s.jobs task request
  honest : ∀ ticket envelope frames, .sent ticket envelope frames ∈ events → frames = written x codec c envelope

section Runs
variable {x : Externals} {codec : Codec} {c : VynkorClient} {s t : Delivery} {events emitted : List Traffic}

theorem sendingHonest {happened : List Happening} {ticket : Option Nat} {envelope : Envelope} {frames : List Bytes}
    (member : .sent ticket envelope frames ∈ happened.filterMap (sending x codec c)) :
    frames = written x codec c envelope := by
  obtain ⟨h, -, sends⟩ := List.mem_filterMap.mp member
  cases h with
  | handed reply | own envelope =>
    cases sends
    rfl
  | iteration | put _ | returned | raised => cases sends

theorem sendingOnly {happened : List Happening} {task : Nat} {request : ActionRequest} :
    .accepted task request ∉ happened.filterMap (sending x codec c) := by
  intro member
  obtain ⟨h, -, sends⟩ := List.mem_filterMap.mp member
  cases h <;> cases sends

theorem modifyKeeps {jobs : List Job} {i : Nat} (update : Job → Job) (same : ∀ job, (update job).request = job.request)
    {task : Nat} {request : ActionRequest} (ok : JobOf jobs task request) : JobOf (jobs.modify i update) task request := by
  obtain ⟨job, found, rfl⟩ := ok
  rcases eq_or_ne i task with rfl | other
  · exact ⟨update job, by simp [found], same job⟩
  · exact ⟨job, by simp [found, other], rfl⟩

theorem turnServing {jobs : List Job} {accepts : List Traffic} {after : Loop} {happened : List Happening}
    (ok : Serving x codec c events s) (paired : List.Forall₂ At after.tasks jobs)
    (kept : ∀ task request, JobOf s.jobs task request → JobOf jobs task request)
    (new : ∀ task request, .accepted task request ∈ accepts → JobOf jobs task request)
    (only : ∀ ticket envelope frames, .sent ticket envelope frames ∉ accepts) :
    Serving x codec c (events ++ (accepts ++ happened.filterMap (sending x codec c))) ⟨after, jobs⟩ where
  paired := paired
  accepted := by
    intro task request member
    rcases List.mem_append.mp member with before | now
    · exact kept task request (ok.accepted task request before)
    · exact new task request ((List.mem_append.mp now).resolve_right sendingOnly)
  honest := by
    intro ticket envelope frames member
    rcases List.mem_append.mp member with before | now
    · exact ok.honest ticket envelope frames before
    · exact sendingHonest ((List.mem_append.mp now).resolve_left (only ticket envelope frames))

theorem stepServing {turn : Turn} {after : Loop} {happened : List Happening} (ok : Serving x codec c events s)
    (moved : Steps s.loop turn happened after) :
    Serving x codec c (events ++ (accepting s.jobs s.loop.control turn ++ happened.filterMap (sending x codec c)))
      ⟨after, track s.jobs happened s.loop.control turn⟩ := by
  cases moved with
  | goes goes =>
    obtain ⟨tracked, silent⟩ := goesTracked goes s.jobs
    rw [tracked, silent]
    exact turnServing ok ok.paired (fun _ _ => id) nofun nofun
  | got | drained | emptied | returned => exact turnServing ok ok.paired (fun _ _ => id) nofun nofun
  | @accepted request got now woken =>
    have asked : requested s.loop.control = some request := by rw [woken]; rfl
    simp only [track, accepting, asked, Option.toList_some, List.map_cons, List.map_nil]
    refine turnServing ok (List.rel_append ok.paired (.cons rfl .nil)) ?_ ?_ (by simp)
    · rintro task request ⟨job, found, same⟩
      exact ⟨job, by rw [List.getElem?_append_left (List.getElem?_eq_some_iff.mp found).1, found], same⟩
    · intro task accepted member
      cases List.mem_singleton.mp member
      exact ⟨⟨request, none, []⟩, List.getElem?_concat_length, rfl⟩
  | @completed task request outcome envelopes running result =>
    refine turnServing ok ?_ (fun _ _ kept => modifyKeeps (Job.ends _) (fun _ => rfl) kept) nofun nofun
    refine pairedSet ok.paired running ?_
    rintro job rfl
    refine ⟨ended outcome, rfl, ?_⟩
    rw [result]
    cases outcome <;> rfl
  | @put task envelope envelopes putting room =>
    refine turnServing ok ?_ (fun _ _ kept => modifyKeeps (Job.puts _) (fun _ => rfl) kept) nofun nofun
    refine pairedSet ok.paired putting ?_
    rintro job ⟨outcome, ends, whole⟩
    exact ⟨outcome, ends, by simp [Job.puts, putReplies, Happening.putReply, whole]⟩

theorem actServing {act : Act} (ok : Serving x codec c events s) (moved : (delivery x codec c).step s act = some (t, emitted)) :
    Serving x codec c (events ++ emitted) t := by
  cases act with
  | turn turn =>
    obtain ⟨⟨after, happened⟩, turned, same⟩ := Option.map_eq_some_iff.mp moved
    cases same
    exact stepServing ok (stepSteps turned)
  | unprintable task =>
    simp only [delivery, step] at moved
    split at moved
    · rename_i request running
      cases moved
      rw [List.append_nil]
      refine ⟨pairedSet ok.paired running ?_, fun task request member => ?_, ok.honest⟩
      · rintro job rfl
        exact ⟨.raised none, rfl, rfl⟩
      · exact modifyKeeps (Job.ends _) (fun _ => rfl) (ok.accepted task request member)
    · contradiction

theorem panicEncodable {text : Str} : Encodable (Loop.panicMessage text) ↔ Encodable text := by
  constructor
  · intro whole char member
    exact whole char (List.mem_append_right _ member)
  · intro text char member
    rcases List.mem_append.mp member with head | tail
    · exact litEncodable _ char head
    · exact text char tail

theorem madeReplies {request : ActionRequest} {outcome : Outcome} :
    (∃ e ∈ made request outcome, Answers request e ∧ Fits codec e) ↔ Replies codec request outcome := by
  cases outcome with
  | returned envelopes => exact Iff.rfl
  | raised text =>
    cases text with
    | none => simp [made, Replies]
    | some text =>
      simp only [made, Replies]
      constructor
      · rintro ⟨e, member, -, fits⟩
        cases built : responseEnvelope request.actionId (.error (Loop.panicMessage text)) with
        | error _ => simp [built, Except.toOption] at member
        | ok envelope =>
          obtain ⟨id, encodable, rfl⟩ := refusalMade.mp built
          rw [built, Except.toOption, Option.toList_some, List.mem_singleton] at member
          subst member
          exact ⟨id, panicEncodable.mp encodable, fits⟩
      · rintro ⟨id, encodable, fits⟩
        have built := refusalMade.mpr ⟨id, panicEncodable.mpr encodable, rfl⟩
        exact ⟨refusal request (Loop.panicMessage text), by simp [built, Except.toOption, refusal], rfl, fits⟩

theorem takenAnswered {task : Nat} {job : Job} {outcome : Outcome} (up : c.Connected) (ok : Serving x codec c events s)
    (found : s.jobs[task]? = some job) (ends : job.outcome = some outcome) (taken : Taken s task job events) :
    Answered job events ↔ Replies codec job.request outcome := by
  obtain ⟨same, ends', whole⟩ := pairedAt ok.paired taken.put found
  cases ends.symm.trans ends'
  rw [← madeReplies, whole, List.append_nil]
  constructor
  · rintro ⟨r, member, answers, frame, sent⟩
    refine ⟨r.envelope, List.mem_map.mpr ⟨r, member, rfl⟩, answers, ?_⟩
    rcases writtenFits x codec up r.envelope with ⟨fits, -⟩ | ⟨-, nothing⟩
    · exact fits
    · have honest := ok.honest _ _ _ sent
      rw [nothing] at honest
      cases honest
  · rintro ⟨e, member, answers, fits⟩
    obtain ⟨r, inside, rfl⟩ := List.mem_map.mp member
    obtain ⟨frames, sent⟩ := taken.handed r inside
    rcases writtenFits x codec up r.envelope with ⟨-, frame, writes⟩ | ⟨big, -⟩
    · rw [ok.honest _ _ _ sent, writes] at sent
      exact ⟨r, inside, answers, frame, sent⟩
    · exact absurd fits big

theorem unprintableRefused {request : ActionRequest} {got : Option Reply} {now : Nat}
    (control : s.loop.control = .woken (some (.ok ⟨some (.actionRequest request)⟩)) got)
    (moved : (delivery x codec c).step s (.turn (.goOn .escapes now)) = some (t, emitted)) :
    ¬ Refused s t request none emitted := by
  simp only [delivery, step, Loop.step, Loop.goOn, control, Loop.receive, track, accepting] at moved
  cases moved
  intro refused
  obtain ⟨message, frame, -, none⟩ := refused.once
  cases none

theorem rejectionRefused {request : ActionRequest} {got : Option Reply} {message : Str} {now : Nat} (up : c.Connected)
    (control : s.loop.control = .woken (some (.ok ⟨some (.actionRequest request)⟩)) got)
    (moved : (delivery x codec c).step s (.turn (.goOn (.rejected message) now)) = some (t, emitted)) :
    Refused s t request (some message) emitted ↔ Refusable codec request (some message) := by
  simp only [delivery, step, Loop.step, Loop.goOn, control, Loop.receive, track, accepting] at moved
  cases built : responseEnvelope request.actionId (.error message) with
  | error e =>
    rw [built] at moved
    cases moved
    refine iff_of_false (fun refused => ?_) (fun fine => ?_)
    · obtain ⟨_, frame, -, none⟩ := refused.once
      cases none
    · have made := refusalMade.mpr ⟨fine.1, fine.2.1, rfl⟩
      cases built.symm.trans made
  | ok envelope =>
    obtain ⟨id, text, rfl⟩ := refusalMade.mp built
    rw [built] at moved
    cases moved
    rcases writtenFits x codec up (refusal request message) with ⟨fits, frame, writes⟩ | ⟨big, nothing⟩
    · refine iff_of_true ⟨rfl, rfl, message, frame, by simp, ?_⟩ ⟨id, text, fits⟩
      rw [← writes]
      rfl
    · refine iff_of_false (fun refused => ?_) (fun fine => big fine.2.2)
      obtain ⟨said, frame, saying, once⟩ := refused.once
      rw [saying message rfl] at once
      have same : [Traffic.sent none (refusal request message) (written x codec c (refusal request message))] =
        [.sent none (refusal request message) [frame]] := once
      rw [nothing] at same
      simp at same

end Runs

/- While the connection is up: an accepted request has a task, and when all that the task
put has been taken by the loop's sends, a response with its id is written just where one
that `on_action` returned fits into a frame, or an `ACTION_ERROR` can be made of what it
raised that does; a rejected one gets its one `ACTION_ERROR` under the same conditions. -/
theorem repliesDelivered (x : Externals) (codec : Codec) (c : VynkorClient) (up : c.Connected) :
    (∀ acts events s, Runs (delivery x codec c) Always start acts events s →
      ∀ task request, .accepted task request ∈ events → ∃ job, s.jobs[task]? = some job ∧ job.request = request ∧
        ∀ outcome, job.outcome = some outcome → Taken s task job events →
          (Answered job events ↔ Replies codec request outcome)) ∧
    (∀ s request got text now t events, s.loop.control = .woken (some (.ok ⟨some (.actionRequest request)⟩)) got →
      (delivery x codec c).step s (.turn (.goOn (rejection text) now)) = some (t, events) →
        (Refused s t request text events ↔ Refusable codec request text)) := by
  constructor
  · intro acts events s run task request accepted
    have serving : Serving x codec c events s := by
      refine runsKeep (Serving x codec c) (by exact ⟨.nil, nofun, nofun⟩) ?_ run
      intro events s act t emitted ok _ moved
      exact actServing ok moved
    obtain ⟨job, found, rfl⟩ := serving.accepted task request accepted
    exact ⟨job, found, rfl, fun outcome ends taken => takenAnswered up serving found ends taken⟩
  · intro s request got text now t events control moved
    cases text with
    | none => exact iff_of_false (unprintableRefused control moved) id
    | some message => exact rejectionRefused up control moved

def varint : Nat → Nat → Bytes
  | 0, _ => []
  | size + 1, n => if n < 128 then [UInt8.ofNat n] else UInt8.ofNat (n % 128 + 128) :: varint size (n / 128)

def delimited (tag content : Bytes) : Bytes := tag ++ varint 5 content.length ++ content

def statusField : ActionStatus → Bytes
  | .unknown => []
  | .ok => [0x10, 1]
  | .error => [0x10, 2]
  | .timeout => [0x10, 3]
  | .permissionDeny => [0x10, 4]
  | .notFound => [0x10, 5]
  | .quotaExceeded => [0x10, 6]
  | .streamBackpressure => [0x10, 7]

def present (tag content : Bytes) : Bytes := if content = [] then [] else delimited tag content

def responseBody (r : ActionResponse) : Bytes :=
  present [0x0A] ((encode r.actionId).getD []) ++ statusField r.status ++ present [0x1A] r.dataJson ++
    present [0x22] ((encode r.error).getD [])

def sampleProto : Codec where
  serialize envelope :=
    match envelope.payload with
    | some (.actionResponse response) => delimited [0xAA, 0x01] (responseBody response)
    | _ => []
  parse _ := .ok ⟨none⟩

theorem serializedLonger (r : ActionResponse) :
    r.dataJson.length ≤ (sampleProto.serialize ⟨some (.actionResponse r)⟩).length := by
  have inside : r.dataJson.length ≤ (present [0x1A] r.dataJson).length := by
    unfold present
    split
    · rename_i none
      simp [none]
    · simp only [delimited, List.length_append]
      omega
  simp only [sampleProto, delimited, responseBody, List.length_append]
  omega

def sampleClient : VynkorClient := .connectWithSecret none

def responding (data : Bytes) : Envelope := ⟨some (.actionResponse ⟨lit "a1", .ok, data, []⟩)⟩

def sampleServed (data : Bytes) : List Act :=
  [.turn .iterate, .turn (.received (.ok ⟨some (.actionRequest sampleRequest)⟩)), .turn .wake, .turn (.goOn .accepted 0),
    .turn .drain, .turn .iterate, .turn (.complete 0 (.ok [responding data])), .turn (.put 0), .turn .got, .turn .wake,
    .turn (.goOn .accepted 0)]

def sampleJob (data : Bytes) : Job := ⟨sampleRequest, some (.returned [responding data]), [⟨0, responding data⟩]⟩

def sampleTraffic (data : Bytes) : List Traffic :=
  [.accepted 0 sampleRequest,
    .sent (some 0) (responding data) (written sampleExternals sampleProto sampleClient (responding data))]

def sampleDelivered (data : Bytes) : Delivery := ⟨⟨.top, [], [.putting []], 1⟩, [sampleJob data]⟩

theorem sampleRuns (data : Bytes) : (delivery sampleExternals sampleProto sampleClient).run start (sampleServed data) =
    some (sampleDelivered data, sampleTraffic data) := rfl

theorem sampleTaken (data : Bytes) : Taken (sampleDelivered data) 0 (sampleJob data) (sampleTraffic data) where
  put := rfl
  handed := by
    intro r member
    rw [List.mem_singleton.mp member]
    exact ⟨_, .tail _ List.mem_cons_self⟩

theorem repliesDeliveredSample : Answered (sampleJob [123, 125]) (sampleTraffic [123, 125]) := by
  obtain ⟨job, found, -, delivered⟩ := (repliesDelivered sampleExternals sampleProto sampleClient rfl).1 _ _ _
    (runsOfRun (sampleRuns [123, 125])) 0 sampleRequest List.mem_cons_self
  cases found
  refine (delivered _ rfl (sampleTaken [123, 125])).mpr ⟨responding [123, 125], List.mem_cons_self, rfl, ?_⟩
  unfold Fits
  decide +kernel

/- One byte too many, and nothing is written. -/
theorem replySwallowed : ¬ ∀ (x : Externals) (codec : Codec) (c : VynkorClient), c.Connected → ∀ acts events s,
    Runs (delivery x codec c) Always start acts events s → ∀ task request, .accepted task request ∈ events →
      ∀ job outcome, s.jobs[task]? = some job → job.outcome = some outcome → Taken s task job events →
        (∀ envelopes, outcome = .returned envelopes → ∃ e ∈ envelopes, Answers request e) → Answered job events := by
  intro claim
  have up : sampleClient.Connected := rfl
  have big (data : Bytes) (long : maxPayload < data.length) : False := by
    have responds : ∀ envelopes, Outcome.returned [responding data] = .returned envelopes →
        ∃ e ∈ envelopes, Answers sampleRequest e := by
      rintro envelopes same
      cases same
      exact ⟨responding data, List.mem_cons_self, rfl⟩
    have answered : Answered (sampleJob data) (sampleTraffic data) :=
      claim sampleExternals sampleProto sampleClient up _ _ _ (runsOfRun (sampleRuns data)) 0 sampleRequest
        List.mem_cons_self (sampleJob data) (.returned [responding data]) rfl rfl (sampleTaken data) responds
    obtain ⟨r, -, -, frame, sent⟩ := answered
    have unfit : ¬ Fits sampleProto (responding data) := by
      have longer := serializedLonger ⟨lit "a1", .ok, data, []⟩
      unfold Fits
      exact Nat.not_le.mpr (Nat.lt_of_lt_of_le long longer)
    rcases writtenFits sampleExternals sampleProto up (responding data) with ⟨fits, -⟩ | ⟨-, nothing⟩
    · exact unfit fits
    · simp [sampleTraffic, nothing] at sent
  refine big (List.replicate (maxPayload + 1) 0) ?_
  rw [List.length_replicate]
  exact Nat.lt_succ_self _

end Vynkor.ReplyDelivery
