import Vynkor.ConfirmationGate
import Vynkor.JsonRoundTrip
import Vynkor.PluginServe

/-! `EchoPlugin` of `examples/echo_plugin.py`, whose `on_message` the receive loop calls
one at a time, between its awaits. All its envelopes carry the plugin's id as sender. -/
namespace Vynkor.EchoPlugin
open Octets (Bytes)
open Text Tables Labelled
open Plugin (Thrown Hook)
open ConfirmationGate (Externals encodeUtf8)

def actions : List Str := [lit "echo", lit "stream_echo", lit "publish_test"]

def eventPublishOk : Nat := 1

/- `replying` is inside `self._client.send`, with the envelopes that follow, `publishing`
inside `self._client.publish_event`. `on_message` that has raised ends the loop. -/
inductive Place where
  | idle
  | replying (rest : List Envelope)
  | publishing (actionId : Str)
  | ended
  deriving DecidableEq, Repr

structure Echo where
  streamActionId : Option Str
  streamChunks : Table Nat Bytes
  place : Place

inductive Act where
  | message (envelope : Envelope)
  | sent (outcome : Except Thrown Unit)
  | published (outcome : Except Thrown EventPublishAck)
  deriving DecidableEq, Repr

inductive Deed where
  | sends (envelope : Envelope)
  | publishes (eventType : Str) (payloadJson : Bytes)
  | returned (hook : Hook)
  deriving DecidableEq, Repr

def joined (chunks : Table Nat Bytes) : Bytes := chunks.keys.mergeSort.flatMap fun seq => (chunks.lookup seq).getD []

def replies (actionId : Str) (full : Bytes) : List Envelope :=
  let mid := full.length / 2
  [⟨some (.actionResponseChunk actionId 0 (full.take mid))⟩, ⟨some (.actionResponseChunk actionId 1 (full.drop mid))⟩,
    ⟨some (.actionResponse ⟨actionId, .ok, full, []⟩)⟩]

namespace Echo

def start : Echo := ⟨none, ∅, .idle⟩

def finish (s : Echo) (hook : Hook) : Echo × List Deed :=
  ({ s with place := if hook.isOk then .idle else .ended }, [.returned hook])

def send (s : Echo) : List Envelope → Echo × List Deed
  | [] => finish { s with streamActionId := none, streamChunks := ∅ } (.ok none)
  | envelope :: rest => ({ s with place := .replying rest }, [.sends envelope])

section Hooks
variable (x : Externals)

def respond (made : Except Error Envelope) : Hook :=
  match made with
  | .ok envelope => .ok (some envelope)
  | .error e => .error ⟨true, x.describe e⟩

def readParams (req : ActionRequest) : Except Str Json.Value :=
  if req.paramsJson = [] then .ok (.dict []) else x.loads req.paramsJson

def echoed (params : Json.Value) : Str := Json.text (.dict [(lit "echo", params)])

def echo (req : ActionRequest) : Hook :=
  match readParams x req with
  | .error message => .error ⟨true, message⟩
  | .ok params => respond x do
    let data ← encodeUtf8 (echoed params)
    actionResponse req.actionId .ok data []

def handlePublishTest (actionId : Str) : Except Thrown EventPublishAck → Hook
  | .ok ack =>
    if ack.status = eventPublishOk then respond x (actionResponse actionId .ok [] [])
    else respond x (actionResponse actionId .error [] ack.error)
  | .error e => if e.isException then respond x (actionResponse actionId .error [] e.text) else .error e

def handleAction (s : Echo) (req : ActionRequest) : Echo × List Deed :=
  if req.action = lit "stream_echo" ∧ req.streaming then
    finish { s with streamActionId := some req.actionId, streamChunks := ∅ } (respond x (actionResponse req.actionId .ok [] []))
  else if req.action = lit "publish_test" then
    ({ s with place := .publishing req.actionId }, [.publishes (lit "test_publish") req.paramsJson])
  else if req.action ≠ lit "echo" then
    s.finish (respond x (actionResponse req.actionId .notFound [] (lit "unknown action: " ++ req.action)))
  else s.finish (echo x req)

def handleRequestChunk (s : Echo) (actionId : Str) (seq : Nat) (chunk : Bytes) (final : Bool) : Echo × List Deed :=
  if s.streamActionId ≠ some actionId then s.finish (.ok none)
  else
    let s := { s with streamChunks := s.streamChunks.insert seq chunk }
    if ¬ final then s.finish (.ok none)
    else s.send (replies actionId (joined s.streamChunks))

def onMessage (s : Echo) (envelope : Envelope) : Echo × List Deed :=
  match envelope.payload with
  | some (.actionRequest req) => s.handleAction x req
  | some (.actionRequestChunk actionId seq chunk final) => s.handleRequestChunk actionId seq chunk final
  | _ => s.finish (.ok none)

def textOk : Act → Bool
  | .message ⟨some (.actionRequest req)⟩ => (encode req.actionId).isSome && (encode req.action).isSome
  | .message ⟨some (.actionRequestChunk actionId _ _ _)⟩ => (encode actionId).isSome
  | .published (.ok ack) => (encode ack.error).isSome
  | _ => true

def move (s : Echo) : Act → Option (Echo × List Deed)
  | .message envelope => if s.place = .idle then some (s.onMessage x envelope) else none
  | .sent outcome =>
    match s.place, outcome with
    | .replying rest, .ok () => some (s.send rest)
    | .replying _, .error e => some (s.finish (.error e))
    | _, _ => none
  | .published outcome =>
    match s.place with
    | .publishing actionId => some (s.finish (handlePublishTest x actionId outcome))
    | _ => none

def step (s : Echo) (act : Act) : Option (Echo × List Deed) := if textOk act then s.move x act else none

def machine : Machine Echo Act Deed := ⟨step x⟩

end Hooks
end Echo

structure Stream where
  actionId : Str
  chunks : List (Nat × Bytes)
  deriving DecidableEq, Repr

namespace Stream

def latest (chunks : List (Nat × Bytes)) (seq : Nat) : Option Bytes :=
  (chunks.reverse.find? fun c => c.1 == seq).map Prod.snd

def bound (chunks : List (Nat × Bytes)) : Nat := (chunks.map fun c => c.1 + 1).foldr max 0

def content (s : Stream) : Bytes := (List.range (bound s.chunks)).flatMap fun seq => (latest s.chunks seq).getD []

def answer (s : Stream) : List Envelope := replies s.actionId s.content

structure Carries (s : Stream) (pieces : List Bytes) : Prop where
  fits : ∀ c ∈ s.chunks, pieces[c.1]? = some c.2
  whole : ∀ seq < pieces.length, seq ∈ s.chunks.map Prod.fst

end Stream

structure Tracked where
  stream : Option Stream
  completed : List Stream

namespace Tracked

def opens (req : ActionRequest) : Bool := req.action = lit "stream_echo" && req.streaming

def chunk (t : Tracked) (actionId : Str) (seq : Nat) (chunk : Bytes) (final : Bool) : Tracked :=
  match t.stream with
  | none => t
  | some stream =>
    if stream.actionId ≠ actionId then t
    else
      let stream := { stream with chunks := stream.chunks ++ [(seq, chunk)] }
      if final then ⟨none, t.completed ++ [stream]⟩ else { t with stream := some stream }

def after (t : Tracked) (envelope : Envelope) : Tracked :=
  match envelope.payload with
  | some (.actionRequest req) => if opens req then { t with stream := some ⟨req.actionId, []⟩ } else t
  | some (.actionRequestChunk actionId seq chunk final) => t.chunk actionId seq chunk final
  | _ => t

end Tracked

def tracked (envelopes : List Envelope) : Tracked := envelopes.foldl Tracked.after ⟨none, []⟩

def Act.envelope : Act → Option Envelope
  | .message envelope => some envelope
  | _ => none

def Deed.sent : Deed → Option Envelope
  | .sends envelope => some envelope
  | _ => none

def Deed.hook : Deed → Option Hook
  | .returned hook => some hook
  | _ => none

def taken (acts : List Act) : List Envelope := acts.filterMap Act.envelope
def sentBy (deeds : List Deed) : List Envelope := deeds.filterMap Deed.sent
def hooksOf (deeds : List Deed) : List Hook := deeds.filterMap Deed.hook

def tableOf (chunks : List (Nat × Bytes)) : Table Nat Bytes := chunks.foldl (fun t c => t.insert c.1 c.2) ∅

theorem tableAppend (chunks : List (Nat × Bytes)) (seq : Nat) (chunk : Bytes) :
    tableOf (chunks ++ [(seq, chunk)]) = (tableOf chunks).insert seq chunk := by
  simp only [tableOf, List.foldl_append, List.foldl_cons, List.foldl_nil]

theorem latestAppend (chunks : List (Nat × Bytes)) (c : Nat × Bytes) (seq : Nat) :
    Stream.latest (chunks ++ [c]) seq = if c.1 = seq then some c.2 else Stream.latest chunks seq := by
  simp only [Stream.latest, List.reverse_append, List.reverse_cons, List.reverse_nil, List.nil_append, List.singleton_append,
    List.find?_cons]
  by_cases same : c.1 = seq
  · simp [same]
  · simp [same, beq_eq_false_iff_ne.mpr same]

theorem tableLookup (chunks : List (Nat × Bytes)) (seq : Nat) : (tableOf chunks).lookup seq = Stream.latest chunks seq := by
  induction chunks using List.reverseRecOn with
  | nil => rfl
  | append_singleton chunks c ih =>
    rw [tableAppend chunks c.1 c.2, latestAppend]
    by_cases same : c.1 = seq
    · rw [if_pos same, ← same, AList.lookup_insert]
    · rw [if_neg same, AList.lookup_insert_ne (Ne.symm same), ih]

theorem latestMem {chunks : List (Nat × Bytes)} {seq : Nat} {chunk : Bytes} (last : Stream.latest chunks seq = some chunk) :
    (seq, chunk) ∈ chunks := by
  obtain ⟨⟨seq', chunk'⟩, found, rfl⟩ := Option.map_eq_some_iff.mp last
  have same : seq' = seq := by simpa using List.find?_some found
  subst same
  exact List.mem_reverse.mp (List.mem_of_find?_eq_some found)

theorem latestSome {chunks : List (Nat × Bytes)} {seq : Nat} (here : seq ∈ chunks.map Prod.fst) :
    ∃ chunk, Stream.latest chunks seq = some chunk := by
  obtain ⟨c, member, rfl⟩ := List.mem_map.mp here
  have found : (chunks.reverse.find? fun c' => c'.1 == c.1).isSome := by
    rw [List.find?_isSome]
    exact ⟨c, List.mem_reverse.mpr member, beq_self_eq_true c.1⟩
  obtain ⟨c', first⟩ := Option.isSome_iff_exists.mp found
  exact ⟨c'.2, by rw [Stream.latest, first]; rfl⟩

theorem boundAbove {chunks : List (Nat × Bytes)} {c : Nat × Bytes} (member : c ∈ chunks) : c.1 < Stream.bound chunks := by
  induction chunks with
  | nil => contradiction
  | cons first rest ih =>
    have step : Stream.bound (first :: rest) = max (first.1 + 1) (Stream.bound rest) := rfl
    rcases List.mem_cons.mp member with rfl | later
    · omega
    · have := ih later
      omega

theorem joinedRange {t : Table Nat Bytes} {n : Nat} (below : ∀ k ∈ t, k < n) :
    joined t = (List.range n).flatMap fun seq => (t.lookup seq).getD [] := by
  have sorted : t.keys.mergeSort.Pairwise (· ≤ ·) := List.pairwise_mergeSort' (· ≤ ·) t.keys
  have ordered : ((List.range n).filter (· ∈ t)).Pairwise (· ≤ ·) :=
    List.Pairwise.filter _ (List.pairwise_le_range)
  have same : t.keys.mergeSort.Perm ((List.range n).filter (· ∈ t)) := by
    refine (List.mergeSort_perm t.keys _).trans ((List.perm_ext_iff_of_nodup t.keys_nodup (List.nodup_range.filter _)).mpr fun k => ?_)
    simp only [List.mem_filter, List.mem_range, decide_eq_true_eq, ← AList.mem_keys]
    exact ⟨fun member => ⟨below k (AList.mem_keys.mpr member), member⟩, And.right⟩
  rw [joined, same.eq_of_pairwise' sorted ordered]
  clear sorted ordered same below
  induction List.range n with
  | nil => rfl
  | cons k rest ih =>
    by_cases present : k ∈ t
    · simp [present, ih]
    · simp [present, ih, AList.lookup_eq_none.mpr present]

theorem joinedContent (s : Stream) : joined (tableOf s.chunks) = s.content := by
  have below : ∀ k ∈ tableOf s.chunks, k < Stream.bound s.chunks := by
    intro k present
    obtain ⟨chunk, found⟩ := Option.isSome_iff_exists.mp (AList.lookup_isSome.mpr present)
    exact boundAbove (latestMem ((tableLookup s.chunks k).symm.trans found))
  rw [joinedRange below, Stream.content]
  exact List.flatMap_congr fun seq _ => by rw [tableLookup]

theorem contentPieces {s : Stream} {pieces : List Bytes} (carries : s.Carries pieces) : s.content = pieces.flatten := by
  have each (seq : Nat) : Stream.latest s.chunks seq = pieces[seq]? := by
    by_cases inside : seq < pieces.length
    · obtain ⟨chunk, last⟩ := latestSome (carries.whole seq inside)
      rw [last, carries.fits _ (latestMem last)]
    · rw [List.getElem?_eq_none (Nat.le_of_not_lt inside)]
      cases last : Stream.latest s.chunks seq with
      | none => rfl
      | some chunk =>
        have := carries.fits _ (latestMem last)
        rw [List.getElem?_eq_none (Nat.le_of_not_lt inside)] at this
        contradiction
  have enough : pieces.length ≤ Stream.bound s.chunks := by
    refine Nat.le_of_not_lt fun short => ?_
    obtain ⟨c, member, same⟩ := List.mem_map.mp (carries.whole _ short)
    have := boundAbove member
    omega
  have padded : (List.range (Stream.bound s.chunks)).map (fun seq => (pieces[seq]?).getD []) =
      pieces ++ List.replicate (Stream.bound s.chunks - pieces.length) [] := by
    refine List.ext_getElem (by simp; omega) fun seq first second => ?_
    by_cases inside : seq < pieces.length
    · simp [List.getElem_append_left, inside]
    · simp [List.getElem_append_right (Nat.le_of_not_lt inside), List.getElem?_eq_none (Nat.le_of_not_lt inside)]
  simp only [Stream.content, each, List.flatMap_def, padded, List.flatten_append, List.flatten_replicate_nil, List.append_nil]

def Holds (s : Echo) (stream : Option Stream) : Prop :=
  s.streamActionId = stream.map Stream.actionId ∧ ∀ held, stream = some held → s.streamChunks = tableOf held.chunks

def Standing (s : Echo) (stream : Option Stream) (unsent : List Envelope) : Prop :=
  match s.place with
  | .idle | .publishing _ => unsent = [] ∧ Holds s stream
  | .replying rest => unsent = rest ∧ stream = none
  | .ended => True

section Streams
variable {x : Externals} {s t : Echo} {act : Act} {deeds : List Deed}

theorem holdsNone (closed : s.streamActionId = none) : Holds s none := by
  refine ⟨closed, fun held same => ?_⟩
  contradiction

theorem finishStanding {stream : Option Stream} (holds : Holds s stream) (hook : Hook) : Standing (s.finish hook).1 stream [] := by
  cases hook with
  | ok reply => exact ⟨rfl, holds⟩
  | error e => trivial

theorem sendStanding (rest : List Envelope) : ∃ unsent, rest = sentBy (s.send rest).2 ++ unsent ∧ Standing (s.send rest).1 none unsent := by
  cases rest with
  | nil => exact ⟨[], rfl, rfl, holdsNone rfl⟩
  | cons envelope rest => exact ⟨rest, rfl, rfl, rfl⟩

structure Follows (tracked after : Tracked) (moved : Echo × List Deed) : Prop where
  follows : ∃ more unsent, after.completed = tracked.completed ++ more ∧
    more.flatMap Stream.answer = sentBy moved.2 ++ unsent ∧ Standing moved.1 after.stream unsent

theorem actionFollows {tracked : Tracked} (holds : Holds s tracked.stream) (req : ActionRequest) :
    Follows tracked (tracked.after ⟨some (.actionRequest req)⟩) (s.handleAction x req) := by
  refine ⟨[], [], ?_⟩
  by_cases opens : req.action = lit "stream_echo" ∧ req.streaming = true
  · have tracks : tracked.after ⟨some (.actionRequest req)⟩ = { tracked with stream := some ⟨req.actionId, []⟩ } := by
      simp [Tracked.after, Tracked.opens, opens]
    rw [Echo.handleAction, if_pos opens, tracks]
    refine ⟨(List.append_nil _).symm, rfl, finishStanding ⟨rfl, ?_⟩ _⟩
    rintro held same
    cases same
    rfl
  · have plain : Tracked.opens req = false := by simpa [Tracked.opens] using opens
    have tracks : tracked.after ⟨some (.actionRequest req)⟩ = tracked := by simp [Tracked.after, plain]
    rw [Echo.handleAction, if_neg opens, tracks]
    split_ifs
    · exact ⟨(List.append_nil _).symm, rfl, rfl, holds⟩
    · exact ⟨(List.append_nil _).symm, rfl, finishStanding holds _⟩
    · exact ⟨(List.append_nil _).symm, rfl, finishStanding holds _⟩

theorem chunkFollows {tracked : Tracked} (holds : Holds s tracked.stream) (actionId : Str) (seq : Nat) (chunk : Bytes)
    (final : Bool) : Follows tracked (tracked.chunk actionId seq chunk final) (s.handleRequestChunk actionId seq chunk final) := by
  obtain ⟨stream, completed⟩ := tracked
  obtain ⟨same, chunks⟩ := holds
  cases stream with
  | none =>
    rw [Echo.handleRequestChunk, if_pos (by simp [same])]
    exact ⟨[], [], (List.append_nil _).symm, rfl, finishStanding (holdsNone same) _⟩
  | some stream =>
    by_cases mine : stream.actionId = actionId
    · have grown := tableAppend stream.chunks seq chunk
      rw [← chunks stream rfl] at grown
      have named : ¬ s.streamActionId ≠ some actionId := by simp [same, mine]
      rw [Echo.handleRequestChunk, if_neg named]
      cases final with
      | false =>
        refine ⟨[], [], ?_, rfl, ?_⟩
        · simp [Tracked.chunk, mine]
        · refine finishStanding ⟨by simp [Tracked.chunk, mine, same], ?_⟩ _
          intro held here
          simp only [Tracked.chunk, mine, ne_eq, not_true_eq_false, if_false, Bool.false_eq_true, Option.some.injEq] at here
          rw [← here]
          exact grown.symm
      | true =>
        obtain ⟨unsent, answers, stands⟩ := sendStanding (s := { s with streamChunks := s.streamChunks.insert seq chunk })
          (replies actionId (joined (s.streamChunks.insert seq chunk)))
        refine ⟨[⟨stream.actionId, stream.chunks ++ [(seq, chunk)]⟩], unsent, ?_, ?_, ?_⟩
        · simp [Tracked.chunk, mine]
        · rw [List.flatMap_singleton, Stream.answer, ← joinedContent, grown, mine]
          exact answers
        · simpa [Tracked.chunk, mine] using stands
    · have foreign : s.streamActionId ≠ some actionId := by simpa [same] using mine
      rw [Echo.handleRequestChunk, if_pos foreign]
      refine ⟨[], [], ?_, rfl, ?_⟩
      · simp [Tracked.chunk, mine]
      · simpa [Tracked.chunk, mine] using finishStanding ⟨same, chunks⟩ (.ok none)

theorem messageFollows {tracked : Tracked} (holds : Holds s tracked.stream) (envelope : Envelope) :
    Follows tracked (tracked.after envelope) (s.onMessage x envelope) := by
  obtain ⟨payload⟩ := envelope
  have passes : Follows tracked tracked (s.finish (.ok none)) := ⟨[], [], (List.append_nil _).symm, rfl, finishStanding holds _⟩
  cases payload with
  | none => exact passes
  | some kind =>
    cases kind
    case actionRequest req => exact actionFollows holds req
    case actionRequestChunk actionId seq chunk final => exact chunkFollows holds actionId seq chunk final
    all_goals exact passes

end Streams

def Keeps (acts : List Act) (deeds : List Deed) (s : Echo) : Prop :=
  ∃ unsent, sentBy deeds ++ unsent = (tracked (taken acts)).completed.flatMap Stream.answer ∧
    Standing s (tracked (taken acts)).stream unsent

section Runs
variable {x : Externals} {s t : Echo} {act : Act} {acts : List Act} {deeds emitted : List Deed}

theorem stepKeeps (keeps : Keeps acts deeds s) (move : (Echo.machine x).step s act = some (t, emitted)) :
    Keeps (acts ++ [act]) (deeds ++ emitted) t := by
  obtain ⟨unsent, sent, stands⟩ := keeps
  have gone : s.move x act = some (t, emitted) := (Option.ite_none_right_eq_some.mp move).2
  cases act with
  | message envelope =>
    obtain ⟨idle, moved⟩ := Option.ite_none_right_eq_some.mp gone
    simp only [Standing, idle] at stands
    obtain ⟨rfl, holds⟩ := stands
    obtain ⟨more, later, grown, answers, standing⟩ := (messageFollows (x := x) holds envelope).follows
    rw [Option.some.inj moved] at answers standing
    have after : tracked (taken (acts ++ [.message envelope])) = (tracked (taken acts)).after envelope := by
      simp [tracked, taken, Act.envelope]
    refine ⟨later, ?_, after ▸ standing⟩
    rw [after, grown, List.flatMap_append, ← sent, answers]
    simp [sentBy]
  | sent outcome =>
    have after : taken (acts ++ [.sent outcome]) = taken acts := by simp [taken, Act.envelope]
    simp only [Echo.move] at gone
    cases place : s.place with
    | replying rest =>
      simp only [Standing, place] at stands gone
      obtain ⟨rfl, closed⟩ := stands
      cases outcome with
      | ok done =>
        obtain ⟨later, answers, standing⟩ := sendStanding (s := s) unsent
        rw [Option.some.inj gone] at answers standing
        refine ⟨later, ?_, after ▸ closed ▸ standing⟩
        rw [after, ← sent, answers]
        simp [sentBy]
      | error e =>
        cases gone
        refine ⟨unsent, ?_, trivial⟩
        rw [after, ← sent]
        simp [sentBy, Deed.sent]
    | idle | publishing | ended => simp [place] at gone
  | published outcome =>
    have after : taken (acts ++ [.published outcome]) = taken acts := by simp [taken, Act.envelope]
    simp only [Echo.move] at gone
    cases place : s.place with
    | publishing actionId =>
      simp only [Standing, place] at stands gone
      obtain ⟨rfl, holds⟩ := stands
      cases gone
      refine ⟨[], ?_, after ▸ finishStanding holds _⟩
      rw [after, ← sent]
      simp [sentBy, Deed.sent]
    | idle | replying | ended => simp [place] at gone

/- In every run, what the plugin sends answers the streams that were completed, one
after the other: the two halves of the latest chunks in the order of their indices, then
all of them in the response. Nothing is left unsent while a message is awaited. -/
theorem streamsAnswered (x : Externals) {acts : List Act} {deeds : List Deed} {s : Echo}
    (run : Runs (Echo.machine x) Always Echo.start acts deeds s) :
    ∃ unsent, sentBy deeds ++ unsent = (tracked (taken acts)).completed.flatMap Stream.answer ∧
      (s.place = .idle → unsent = []) ∧
      ∀ stream ∈ (tracked (taken acts)).completed, ∀ pieces, stream.Carries pieces →
        ∃ first second, first ++ second = pieces.flatten ∧ stream.answer =
          [⟨some (.actionResponseChunk stream.actionId 0 first)⟩, ⟨some (.actionResponseChunk stream.actionId 1 second)⟩,
            ⟨some (.actionResponse ⟨stream.actionId, .ok, pieces.flatten, []⟩)⟩] := by
  have base : Keeps [] [] Echo.start := ⟨[], rfl, rfl, holdsNone rfl⟩
  obtain ⟨unsent, sent, stands⟩ := runsTrace Keeps base (fun _ _ _ _ _ _ keeps _ move => stepKeeps keeps move) run
  refine ⟨unsent, sent, fun idle => ?_, fun stream _ pieces carries => ?_⟩
  · simp only [Standing, idle] at stands
    exact stands.1
  · exact ⟨_, _, List.take_append_drop _ _, by rw [Stream.answer, contentPieces carries, replies]⟩

end Runs

def sampleExternals : Externals := ⟨fun _ => .error [], fun _ => []⟩

def sampleStream : Stream := ⟨lit "s", [(1, [3]), (0, [1, 2])]⟩

def sampleActs : List Act :=
  [.message ⟨some (.actionRequest ⟨lit "s", lit "stream_echo", [], 0, true, []⟩)⟩,
    .message ⟨some (.actionRequestChunk (lit "s") 1 [3] false)⟩,
    .message ⟨some (.actionRequest ⟨lit "e", lit "echo", [], 0, false, []⟩)⟩,
    .message ⟨some (.actionRequestChunk (lit "s") 0 [1, 2] true)⟩, .sent (.ok ()), .sent (.ok ()), .sent (.ok ())]

theorem sampleRuns : ∃ deeds s, Runs (Echo.machine sampleExternals) Always Echo.start sampleActs deeds s ∧ s.place = .idle :=
  ⟨_, _, runsOfRun rfl, rfl⟩

theorem streamsAnsweredSample : ∃ deeds s, Runs (Echo.machine sampleExternals) Always Echo.start sampleActs deeds s ∧
    sentBy deeds = sampleStream.answer ∧ ∃ first second, first ++ second = [1, 2, 3] ∧ sampleStream.answer =
      [⟨some (.actionResponseChunk (lit "s") 0 first)⟩, ⟨some (.actionResponseChunk (lit "s") 1 second)⟩,
        ⟨some (.actionResponse ⟨lit "s", .ok, [1, 2, 3], []⟩)⟩] := by
  obtain ⟨deeds, s, run, idle⟩ := sampleRuns
  obtain ⟨unsent, sent, done, carried⟩ := streamsAnswered sampleExternals run
  have completed : (tracked (taken sampleActs)).completed = [sampleStream] := rfl
  rw [completed, done idle, List.append_nil, List.flatMap_singleton] at sent
  exact ⟨deeds, s, run, sent, carried sampleStream (by simp [completed]) [[1, 2], [3]] ⟨by decide, by decide⟩⟩

def Served (req : ActionRequest) : Prop := req.action ∈ actions ∧ (req.action = lit "stream_echo" → req.streaming = true)

structure AnswersRequest (x : Externals) (req : ActionRequest) (r : ActionResponse) : Prop where
  sameId : r.actionId = req.actionId
  unknown : r.status = .notFound ↔ ¬ Served req
  echoes : req.action = lit "echo" → ∃ params, Echo.readParams x req = .ok params ∧ encode (Echo.echoed params) = some r.dataJson ∧
    ∀ floatRepr, Json.faithful params = true → Json.loads floatRepr (Echo.echoed params) = some (.dict [(lit "echo", params)])

/- What `on_message` does with an envelope: a request has its own answer, or ends the
loop, and other envelopes have none. -/
def Answers (x : Externals) (e : Envelope) (hook : Hook) : Prop :=
  match e.payload with
  | some (.actionRequest req) =>
    match hook with
    | .ok reply => ∃ r, reply = some ⟨some (.actionResponse r)⟩ ∧ AnswersRequest x req r
    | .error _ => req.action = lit "echo" ∨ req.action = lit "publish_test"
  | _ => hook.toOption.join = none

def Awaits (e : Envelope) : Place → Prop
  | .replying _ => ∃ actionId seq chunk final, e = ⟨some (.actionRequestChunk actionId seq chunk final)⟩
  | .publishing actionId => ∃ req, e = ⟨some (.actionRequest req)⟩ ∧ req.action = lit "publish_test" ∧ req.actionId = actionId ∧
      Encodable actionId
  | .idle | .ended => False

def busy : Place → Bool
  | .replying _ | .publishing _ => true
  | .idle | .ended => false

inductive Concludes (x : Externals) (e : Envelope) (moved : Echo × List Deed) : Prop where
  | returns {hook} (free : busy moved.1.place = false) (hooks : hooksOf moved.2 = [hook]) (answers : Answers x e hook)
  | waits (hooks : hooksOf moved.2 = []) (awaits : Awaits e moved.1.place)

section Answers
variable {x : Externals} {s : Echo} {req : ActionRequest} {e : Envelope}

theorem finishConcludes {hook : Hook} (answers : Answers x e hook) : Concludes x e (s.finish hook) := by
  cases hook with
  | ok reply => exact .returns rfl rfl answers
  | error raised => exact .returns rfl rfl answers

theorem sendConcludes (actionId : Str) (seq : Nat) (chunk : Bytes) (final : Bool) (rest : List Envelope) :
    Concludes x ⟨some (.actionRequestChunk actionId seq chunk final)⟩ (s.send rest) := by
  cases rest with
  | nil => exact finishConcludes rfl
  | cons envelope rest => exact .waits rfl ⟨actionId, seq, chunk, final, rfl⟩

theorem respondAnswers {status : ActionStatus} {dataJson : Bytes} {error : Str} (id : Encodable req.actionId)
    (text : Encodable error) (answers : AnswersRequest x req ⟨req.actionId, status, dataJson, error⟩) :
    Answers x ⟨some (.actionRequest req)⟩ (Echo.respond x (actionResponse req.actionId status dataJson error)) := by
  rw [actionResponseOk id text]
  exact ⟨_, rfl, answers⟩

theorem publishAnswers {error : Str} (id : Encodable req.actionId) (publish : req.action = lit "publish_test")
    (answers : AnswersRequest x req ⟨req.actionId, .error, [], error⟩) :
    Answers x ⟨some (.actionRequest req)⟩ (Echo.respond x (actionResponse req.actionId .error [] error)) := by
  by_cases text : Encodable error
  · exact respondAnswers id text answers
  · have okId : textField req.actionId = .ok req.actionId := textFieldOk.mpr ⟨id, rfl⟩
    have bad : textField error = .error .unicodeEncode := by simp [textField, encodeUndefined error |>.mpr text]
    simp only [actionResponse, okId, bad, bind, Except.bind]
    exact .inr publish

theorem publishServed (publish : req.action = lit "publish_test") : Served req := by
  refine ⟨by simp [publish, actions], fun clash => ?_⟩
  rw [publish] at clash
  exact absurd clash (by decide)

theorem echoServed (named : req.action = lit "echo") : Served req := by
  refine ⟨by simp [named, actions], fun clash => ?_⟩
  rw [named] at clash
  exact absurd clash (by decide)

theorem echoAnswers (id : Encodable req.actionId) (named : req.action = lit "echo") :
    Answers x ⟨some (.actionRequest req)⟩ (Echo.echo x req) := by
  rw [Echo.echo]
  cases read : Echo.readParams x req with
  | error message => exact .inl named
  | ok params =>
    cases shown : encode (Echo.echoed params) with
    | none =>
      simp only [encodeUtf8, shown, bind, Except.bind]
      exact .inl named
    | some data =>
      simp only [encodeUtf8, shown, bind, Except.bind]
      refine respondAnswers id (nofun) ⟨rfl, iff_of_false nofun (not_not_intro (echoServed named)), fun _ => ⟨params, read, shown, ?_⟩⟩
      intro floatRepr exact
      refine Json.loadsText ?_
      simp [Json.faithful, Json.faithfulMembers, Json.faithfulMember, exact, Json.unsplitEncodable (litEncodable "echo")]

theorem publishTestAnswers {outcome : Except Thrown EventPublishAck} (id : Encodable req.actionId)
    (publish : req.action = lit "publish_test") (text : Echo.textOk (.published outcome) = true) :
    Answers x ⟨some (.actionRequest req)⟩ (Echo.handlePublishTest x req.actionId outcome) := by
  have noEcho : req.action = lit "echo" → False := by
    rw [publish]
    decide
  have answers (status : ActionStatus) (known : status ≠ .notFound) (error : Str) :
      AnswersRequest x req ⟨req.actionId, status, [], error⟩ :=
    ⟨rfl, iff_of_false known (not_not_intro (publishServed publish)), fun named => (noEcho named).elim⟩
  cases outcome with
  | ok ack =>
    simp only [Echo.handlePublishTest]
    split_ifs
    · exact respondAnswers id nofun (answers .ok nofun [])
    · exact respondAnswers id ((encodeDefined _).mp text) (answers .error nofun ack.error)
  | error e =>
    simp only [Echo.handlePublishTest]
    split_ifs
    · exact publishAnswers id publish (answers .error nofun e.text)
    · exact .inr publish

theorem actionConcludes (id : Encodable req.actionId) (action : Encodable req.action) :
    Concludes x ⟨some (.actionRequest req)⟩ (s.handleAction x req) := by
  rw [Echo.handleAction]
  split_ifs with opens publish other
  · refine finishConcludes (respondAnswers id nofun ⟨rfl, iff_of_false nofun (not_not_intro ⟨?_, fun _ => opens.2⟩), fun named => ?_⟩)
    · simp [opens.1, actions]
    · rw [opens.1] at named
      exact absurd named (by decide)
  · exact .waits rfl ⟨req, rfl, publish, rfl, id⟩
  · have unserved : ¬ Served req := by
      rintro ⟨named, streams⟩
      simp only [actions, List.mem_cons, List.not_mem_nil, or_false] at named
      rcases named with echo | stream | test
      · exact other echo
      · exact opens ⟨stream, streams stream⟩
      · exact publish test
    have text : Encodable (lit "unknown action: " ++ req.action) := encodableAppend.mpr ⟨litEncodable _, action⟩
    exact finishConcludes (respondAnswers id text ⟨rfl, iff_of_true rfl unserved, fun named => (other named).elim⟩)
  · exact finishConcludes (echoAnswers id (not_not.mp other))

theorem messageConcludes (text : Echo.textOk (.message e) = true) : Concludes x e (s.onMessage x e) := by
  obtain ⟨payload⟩ := e
  cases payload with
  | none => exact finishConcludes rfl
  | some kind =>
    cases kind
    case actionRequest req =>
      obtain ⟨id, action⟩ := Bool.and_eq_true_iff.mp text
      exact actionConcludes ((encodeDefined _).mp id) ((encodeDefined _).mp action)
    case actionRequestChunk actionId seq chunk final =>
      simp only [Echo.onMessage, Echo.handleRequestChunk]
      split_ifs
      · exact finishConcludes rfl
      · exact sendConcludes _ _ _ _ _
      · exact finishConcludes rfl
    all_goals exact finishConcludes rfl

end Answers

def Answered (x : Externals) (acts : List Act) (deeds : List Deed) (s : Echo) : Prop :=
  ∃ answered waiting, taken acts = answered ++ waiting ∧ List.Forall₂ (Answers x) answered (hooksOf deeds) ∧
    ((busy s.place = false ∧ waiting = []) ∨ ∃ e, waiting = [e] ∧ Awaits e s.place)

section AnsweredRuns
variable {x : Externals} {s t : Echo} {act : Act} {acts : List Act} {deeds emitted : List Deed} {answered : List Envelope} {e : Envelope}

theorem concludesAnswered (whole : taken acts = answered ++ [e]) (each : List.Forall₂ (Answers x) answered (hooksOf deeds))
    (concludes : Concludes x e (t, emitted)) : Answered x acts (deeds ++ emitted) t := by
  have split : hooksOf (deeds ++ emitted) = hooksOf deeds ++ hooksOf emitted := List.filterMap_append
  cases concludes with
  | returns free hooks answers =>
    refine ⟨answered ++ [e], [], by simpa using whole, ?_, .inl ⟨free, rfl⟩⟩
    rw [split, hooks]
    exact List.rel_append each (.cons answers .nil)
  | waits hooks awaits =>
    refine ⟨answered, [e], whole, ?_, .inr ⟨e, rfl, awaits⟩⟩
    rwa [split, hooks, List.append_nil]

theorem stepAnswered (before : Answered x acts deeds s) (move : (Echo.machine x).step s act = some (t, emitted)) :
    Answered x (acts ++ [act]) (deeds ++ emitted) t := by
  obtain ⟨answered, waiting, whole, each, stands⟩ := before
  obtain ⟨text, gone⟩ := Option.ite_none_right_eq_some.mp move
  have grown : taken (acts ++ [act]) = taken acts ++ act.envelope.toList := by cases act <;> simp [taken, Act.envelope]
  cases act with
  | message envelope =>
    obtain ⟨idle, moved⟩ := Option.ite_none_right_eq_some.mp gone
    rw [idle] at stands
    rcases stands with ⟨-, rfl⟩ | ⟨e, -, awaits⟩
    · rw [List.append_nil] at whole
      have concludes := messageConcludes (x := x) (s := s) text
      rw [Option.some.inj moved] at concludes
      exact concludesAnswered (by rw [grown, whole]; rfl) each concludes
    · exact awaits.elim
  | sent outcome =>
    rw [show Act.envelope (.sent outcome) = none from rfl, Option.toList_none, List.append_nil] at grown
    simp only [Echo.move] at gone
    cases place : s.place with
    | replying rest =>
      rw [place] at stands
      simp only [place] at gone
      rcases stands with ⟨free, -⟩ | ⟨e, rfl, actionId, seq, chunk, final, rfl⟩
      · contradiction
      cases outcome with
      | ok done =>
        have concludes := sendConcludes (x := x) (s := s) actionId seq chunk final rest
        rw [Option.some.inj gone] at concludes
        exact concludesAnswered (grown.trans whole) each concludes
      | error raised =>
        cases gone
        exact concludesAnswered (grown.trans whole) each (finishConcludes rfl)
    | idle | publishing | ended => simp [place] at gone
  | published outcome =>
    rw [show Act.envelope (.published outcome) = none from rfl, Option.toList_none, List.append_nil] at grown
    simp only [Echo.move] at gone
    cases place : s.place with
    | publishing actionId =>
      rw [place] at stands
      simp only [place] at gone
      rcases stands with ⟨free, -⟩ | ⟨e, rfl, req, rfl, publish, rfl, id⟩
      · contradiction
      cases gone
      exact concludesAnswered (grown.trans whole) each (finishConcludes (publishTestAnswers id publish text))
    | idle | replying | ended => simp [place] at gone

/- In every run, the envelopes are dealt with one after the other, each of them once; a
request has one response, with its own action id. -/
theorem messagesAnswered (x : Externals) (run : Runs (Echo.machine x) Always Echo.start acts deeds s) :
    ∃ answered waiting, taken acts = answered ++ waiting ∧ List.Forall₂ (Answers x) answered (hooksOf deeds) ∧
      waiting.length ≤ 1 ∧ (s.place = .idle → waiting = []) := by
  have base : Answered x [] [] Echo.start := ⟨[], [], rfl, .nil, .inl ⟨rfl, rfl⟩⟩
  obtain ⟨answered, waiting, whole, each, stands⟩ :=
    runsTrace (Answered x) base (fun _ _ _ _ _ _ before _ move => stepAnswered before move) run
  refine ⟨answered, waiting, whole, each, ?_, fun idle => ?_⟩
  · rcases stands with ⟨-, rfl⟩ | ⟨e, rfl, -⟩ <;> simp
  · rcases stands with ⟨-, rfl⟩ | ⟨e, -, awaits⟩
    · rfl
    · rw [idle] at awaits
      exact awaits.elim

end AnsweredRuns

theorem messagesAnsweredSample : ∃ deeds s, Runs (Echo.machine sampleExternals) Always Echo.start sampleActs deeds s ∧
    List.Forall₂ (Answers sampleExternals) (taken sampleActs) (hooksOf deeds) := by
  obtain ⟨deeds, s, run, idle⟩ := sampleRuns
  obtain ⟨answered, waiting, whole, each, -, done⟩ := messagesAnswered sampleExternals run
  rw [done idle, List.append_nil] at whole
  exact ⟨deeds, s, run, whole ▸ each⟩

end Vynkor.EchoPlugin
