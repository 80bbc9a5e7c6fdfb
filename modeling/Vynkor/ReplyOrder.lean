import Mathlib.Data.List.Forall2
import Vynkor.ReplyDelivery

/-! The order in which `run_concurrent_loop` of `vynkor/concurrent.py` sends the replies of
one request. Here every `client.send` may fail, and a handler task may be cancelled while
it waits for room in the queue. -/
namespace Vynkor.ReplyOrder
open Text Labelled ReplyDelivery

/- `fault` is what the `client.send` of the turn raised, if it made one; the loop passes
over it. An abandoned task is cancelled inside `queue.put`. -/
inductive Act where
  | turn (turn : Turn) (fault : Option Str)
  | unprintable (task : Nat)
  | abandoned (task : Nat)

structure Deed where
  happened : Happening
  task : Option Nat
  fault : Option Str
  deriving DecidableEq, Repr

def puts : Turn → Option Nat
  | .put task => some task
  | _ => none

def step (s : ReplyDelivery.Delivery) : Act → Option (ReplyDelivery.Delivery × List Deed)
  | .turn turn fault =>
    (s.loop.step turn).map fun (after, happened) =>
      (⟨after, track s.jobs happened s.loop.control turn⟩, happened.map (⟨·, puts turn, fault⟩))
  | .unprintable task =>
    match s.loop.tasks[task]? with
    | some (.running _) =>
      some (⟨{ s.loop with tasks := s.loop.tasks.set task (.putting []) }, s.jobs.modify task (Job.ends (.raised none))⟩, [])
    | _ => none
  | .abandoned task =>
    match s.loop.tasks[task]? with
    | some (.putting _) => some ({ s with loop := { s.loop with tasks := s.loop.tasks.set task (.putting []) } }, [])
    | _ => none

def ordering : Machine ReplyDelivery.Delivery Act Deed := ⟨step⟩

def log (deeds : List Deed) : List Happening := deeds.map Deed.happened

def sends (deeds : List Deed) : List Reply := handedReplies (log deeds)

def putBy (task : Nat) (deeds : List Deed) : List Reply :=
  putReplies (log (deeds.filter fun d => d.task == some task))

def listed (job : Job) : List Envelope :=
  match job.outcome with
  | none => []
  | some outcome => made job.request outcome

/- The `k`-th envelope that the task put is the `k`-th of the list, and those sent are some of
those put, in their order and none twice. -/
structure Ordered (task : Nat) (job : Job) (deeds : List Deed) : Prop where
  put : (putBy task deeds).map Reply.envelope <+: listed job
  distinct : (putBy task deeds).Nodup
  sent : ((sends deeds).filter (· ∈ putBy task deeds)).Sublist (putBy task deeds)

section Logs
variable {deeds more : List Deed} {happened : List Happening} {author : Option Nat} {fault : Option Str}

theorem logAppend (deeds more : List Deed) : log (deeds ++ more) = log deeds ++ log more := List.map_append

theorem logOf (happened : List Happening) (author : Option Nat) (fault : Option Str) :
    log (happened.map (⟨·, author, fault⟩)) = happened := by
  simp [log, Function.comp_def]

theorem putByAppend (task : Nat) : putBy task (deeds ++ happened.map (⟨·, author, fault⟩)) =
    putBy task deeds ++ if author = some task then putReplies happened else [] := by
  have emitted : putBy task (happened.map (⟨·, author, fault⟩)) = if author = some task then putReplies happened else [] := by
    unfold putBy
    split
    · rename_i own
      have whole : (happened.map (⟨·, author, fault⟩ : Happening → Deed)).filter (fun d => d.task == some task) =
          happened.map (⟨·, author, fault⟩) := List.filter_eq_self.mpr (by simp [own])
      rw [whole, logOf]
    · rename_i other
      have none : (happened.map (⟨·, author, fault⟩ : Happening → Deed)).filter (fun d => d.task == some task) = [] :=
        List.filter_eq_nil_iff.mpr (by simp [other])
      rw [none]
      rfl
  rw [← emitted, putBy, putBy, putBy, List.filter_append, logAppend, putReplies, List.filterMap_append]
  rfl

theorem putBySublist (task : Nat) (deeds : List Deed) : (putBy task deeds).Sublist (putReplies (log deeds)) :=
  (List.filter_sublist.map _).filterMap _

theorem putByOf {task : Nat} {r : Reply} : r ∈ putBy task deeds ↔ ∃ fault, ⟨.put r, some task, fault⟩ ∈ deeds := by
  unfold putBy putReplies log
  rw [List.mem_filterMap]
  constructor
  · rintro ⟨h, member, same⟩
    obtain ⟨⟨h, author, fault⟩, inside, rfl⟩ := List.mem_map.mp member
    obtain ⟨here, own⟩ := List.mem_filter.mp inside
    cases h with
    | put reply =>
      cases same
      cases eq_of_beq own
      exact ⟨fault, here⟩
    | iteration | handed _ | own _ | returned | raised => cases same
  · rintro ⟨fault, member⟩
    exact ⟨.put r, List.mem_map.mpr ⟨_, List.mem_filter.mpr ⟨member, beq_self_eq_true _⟩, rfl⟩, rfl⟩

end Logs

def Puts : HandlerTask → Job → Prop
  | .running request, job => job = ⟨request, none, []⟩
  | .putting envelopes, job => job.replies.map Reply.envelope ++ envelopes <+: listed job

structure Tracked (deeds : List Deed) (s : ReplyDelivery.Delivery) : Prop where
  paired : List.Forall₂ Puts s.loop.tasks s.jobs
  owned : ∀ task, putBy task deeds = (s.jobs[task]?).elim [] Job.replies
  authored : ∀ r ∈ putReplies (log deeds), ∃ task, r ∈ putBy task deeds
  numbered : (putReplies (log deeds)).map Reply.ticket = List.range s.loop.puts
  ordered : (sends deeds ++ s.loop.held).Sublist (putReplies (log deeds))

section Steps
variable {s t : ReplyDelivery.Delivery} {deeds : List Deed} {after : Loop} {turn : Turn} {happened : List Happening}

theorem movesOrdered {before : List Happening} (ok : (handedReplies before ++ s.loop.held).Sublist (putReplies before))
    (moves : Moves s.loop turn happened after) :
    (handedReplies (before ++ happened) ++ after.held).Sublist (putReplies (before ++ happened)) := by
  rw [putsAppend, handedAppend]
  cases moves with
  | quiet alike same ended =>
    obtain ⟨noPut, noHanded, -⟩ := quietReplies alike
    rwa [noPut, noHanded, List.append_nil, List.append_nil, same]
  | @put r t behind ended =>
    have one : putReplies [.put r] = [r] ∧ handedReplies [.put r] = [] := ⟨rfl, rfl⟩
    rw [one.1, one.2, List.append_nil, behind, ← List.append_assoc]
    exact ok.append (List.Sublist.refl [r])
  | @handed r t first running =>
    have one : putReplies [.handed r] = [] ∧ handedReplies [.handed r] = [r] := ⟨rfl, rfl⟩
    rw [one.1, one.2, List.append_nil, List.append_assoc, List.singleton_append, ← first]
    exact ok
  | @dropped r t both first running =>
    have none : putReplies [] = [] ∧ handedReplies [] = [] := ⟨rfl, rfl⟩
    rw [none.1, none.2, List.append_nil, List.append_nil]
    rw [first] at ok
    exact ((List.sublist_cons_self r after.held).append_left _).trans ok
  | returned flushed nothing running ended =>
    have none : putReplies [.returned] = [] ∧ handedReplies [.returned] = [] := ⟨rfl, rfl⟩
    rw [none.1, none.2, nothing, List.append_nil, List.append_nil, List.append_nil]
    rwa [flushed, List.append_nil] at ok
  | raised raises left running ended =>
    have none : putReplies [.raised] = [] ∧ handedReplies [.raised] = [] := ⟨rfl, rfl⟩
    rw [none.1, none.2, List.append_nil, List.append_nil]
    exact (left.append_left _).trans ok

theorem goesPuts {control next : Control} (goes : Goes control turn happened next) :
    puts turn = none ∧ putReplies happened = [] := by
  cases goes with
  | messageDone | replied => exact ⟨rfl, (quietReplies (ownQuiet _)).1⟩
  | _ => exact ⟨rfl, rfl⟩

theorem stepNumbered (moved : Steps s.loop turn happened after) :
    (puts turn = none ∧ putReplies happened = [] ∧ after.puts = s.loop.puts) ∨
      ∃ task envelope, turn = .put task ∧ happened = [.put ⟨s.loop.puts, envelope⟩] ∧ after.puts = s.loop.puts + 1 := by
  cases moved with
  | goes goes => exact .inl ⟨(goesPuts goes).1, (goesPuts goes).2, rfl⟩
  | put putting room => exact .inr ⟨_, _, rfl, rfl, rfl⟩
  | _ => exact .inl ⟨rfl, rfl, rfl⟩

theorem turnTracked {jobs : List Job} (fault : Option Str) (ok : Tracked deeds s)
    (move : s.loop.step turn = some (after, happened))
    (paired : List.Forall₂ Puts after.tasks jobs)
    (owned : ∀ task : Nat, (jobs[task]?).elim [] Job.replies =
      (s.jobs[task]?).elim [] Job.replies ++ if puts turn = some task then putReplies happened else []) :
    Tracked (deeds ++ happened.map (⟨·, puts turn, fault⟩)) ⟨after, jobs⟩ where
  paired := paired
  owned task := by rw [putByAppend, ok.owned, owned]
  authored := by
    intro r member
    simp only [logAppend, logOf, putReplies, List.filterMap_append, List.mem_append] at member
    rcases member with before | now
    · obtain ⟨task, own⟩ := ok.authored r before
      exact ⟨task, by rw [putByAppend]; exact List.mem_append_left _ own⟩
    · rcases stepNumbered (stepSteps move) with ⟨-, none, -⟩ | ⟨task, envelope, rfl, -, -⟩
      · rw [putReplies] at none
        simp [none] at now
      · have own : puts (.put task) = some task := rfl
        refine ⟨task, ?_⟩
        rw [putByAppend, if_pos own]
        exact List.mem_append_right _ now
  numbered := by
    rw [logAppend, logOf, putReplies, List.filterMap_append, List.map_append]
    have before := ok.numbered
    rw [putReplies] at before
    rcases stepNumbered (stepSteps move) with ⟨-, none, same⟩ | ⟨task, envelope, -, rfl, next⟩
    · rw [putReplies] at none
      rw [before, none, same, List.map_nil, List.append_nil]
    · rw [before, next, List.range_succ]
      rfl
  ordered := by
    rw [sends, logAppend, logOf]
    exact movesOrdered ok.ordered (stepMoves move)

theorem silentTracked {jobs : List Job} (fault : Option Str) (ok : Tracked deeds s)
    (move : s.loop.step turn = some (after, happened)) (silent : puts turn = none) (paired : List.Forall₂ Puts after.tasks jobs)
    (same : ∀ task : Nat, (jobs[task]?).elim [] Job.replies = (s.jobs[task]?).elim [] Job.replies) :
    Tracked (deeds ++ happened.map (⟨·, puts turn, fault⟩)) ⟨after, jobs⟩ := by
  refine turnTracked fault ok move paired fun task => ?_
  rw [silent, if_neg nofun, List.append_nil, same]

theorem modifyReplies {jobs : List Job} (update : Job → Job) (task other : Nat)
    (kept : ∀ job, (update job).replies = job.replies) :
    ((jobs.modify task update)[other]?).elim [] Job.replies = (jobs[other]?).elim [] Job.replies := by
  rw [List.getElem?_modify]
  cases jobs[other]? with
  | none => rfl
  | some job =>
    by_cases here : task = other
    · simp [here, kept]
    · simp [here]

theorem stepTracked (fault : Option Str) (ok : Tracked deeds s) (move : s.loop.step turn = some (after, happened)) :
    Tracked (deeds ++ happened.map (⟨·, puts turn, fault⟩)) ⟨after, track s.jobs happened s.loop.control turn⟩ := by
  cases stepSteps move with
  | goes goes =>
    obtain ⟨tracked, -⟩ := goesTracked goes s.jobs
    rw [tracked]
    exact silentTracked fault ok move (goesPuts goes).1 ok.paired fun _ => rfl
  | got | drained | emptied | returned => exact silentTracked fault ok move rfl ok.paired fun _ => rfl
  | @accepted request got now woken =>
    have asked : requested s.loop.control = some request := by rw [woken]; rfl
    simp only [track, asked, Option.toList_some, List.map_cons, List.map_nil]
    refine silentTracked fault ok move rfl (List.rel_append ok.paired (.cons rfl .nil)) fun task => ?_
    rcases Nat.lt_trichotomy task s.jobs.length with inside | rfl | beyond
    · rw [List.getElem?_append_left inside]
    · simp
    · rw [List.getElem?_eq_none (by simpa using beyond), List.getElem?_eq_none (Nat.le_of_lt beyond)]
  | @completed task request outcome envelopes running result =>
    refine silentTracked fault ok move rfl (pairedSet ok.paired running ?_) fun other => modifyReplies _ task other fun _ => rfl
    rintro job rfl
    rw [result]
    cases outcome <;> exact List.prefix_rfl
  | @put task envelope envelopes putting room =>
    refine turnTracked fault ok move (pairedSet ok.paired putting ?_) fun other => ?_
    · intro job here
      simpa [Puts, Job.puts, putReplies, Happening.putReply, listed] using here
    · simp only [track, puts, List.getElem?_modify, Option.some.injEq]
      split
      · rename_i here
        subst here
        obtain ⟨inside, -⟩ := List.getElem?_eq_some_iff.mp putting
        rw [ok.paired.length_eq] at inside
        rw [List.getElem?_eq_getElem inside]
        rfl
      · cases s.jobs[other]? <;> simp

theorem actTracked {act : Act} {emitted : List Deed} (ok : Tracked deeds s) (move : ordering.step s act = some (t, emitted)) :
    Tracked (deeds ++ emitted) t := by
  cases act with
  | turn turn fault =>
    obtain ⟨⟨after, happened⟩, turned, same⟩ := Option.map_eq_some_iff.mp move
    cases same
    exact stepTracked fault ok turned
  | unprintable task =>
    simp only [ordering, step] at move
    split at move
    · rename_i request running
      cases move
      rw [List.append_nil]
      refine ⟨pairedSet ok.paired running ?_, fun other => ?_, ok.authored, ok.numbered, ok.ordered⟩
      · rintro job rfl
        exact List.prefix_rfl
      · rw [ok.owned]
        exact (modifyReplies (Job.ends _) task other fun _ => rfl).symm
    · contradiction
  | abandoned task =>
    simp only [ordering, step] at move
    split at move
    · rename_i envelopes putting
      cases move
      rw [List.append_nil]
      have paired : List.Forall₂ Puts (s.loop.tasks.set task (.putting [])) (s.jobs.modify task id) :=
        pairedSet ok.paired putting fun job here => (List.prefix_append _ _).trans (by simpa [Puts] using here)
      rw [List.modify_id] at paired
      exact ⟨paired, ok.owned, ok.authored, ok.numbered, ok.ordered⟩
    · contradiction

end Steps

theorem filterSublist {α : Type} [DecidableEq α] {some all : List α} (sub : some.Sublist all) (once : all.Nodup) :
    all.filter (· ∈ some) = some := by
  induction sub with
  | slnil => rfl
  | @cons some all a sub ih =>
    obtain ⟨fresh, rest⟩ := List.nodup_cons.mp once
    rw [List.filter_cons_of_neg (by simpa using fun member => fresh (sub.subset member)), ih rest]
  | @cons_cons some all a sub ih =>
    obtain ⟨fresh, rest⟩ := List.nodup_cons.mp once
    have same : all.filter (· ∈ a :: some) = all.filter (· ∈ some) := by
      refine List.filter_congr fun b member => ?_
      have apart : b ≠ a := by
        rintro rfl
        exact fresh member
      simp [apart]
    rw [List.filter_cons_of_pos (by simp), same, ih rest]

section Authors
variable {deeds : List Deed} {s : ReplyDelivery.Delivery} {r : Reply}

theorem authorUnique (ok : Tracked deeds s) {task other : Nat} (here : r ∈ putBy task deeds) (there : r ∈ putBy other deeds) :
    task = other := by
  have tickets : ((putReplies (log deeds)).map Reply.ticket).Nodup := by
    rw [ok.numbered]
    exact List.nodup_range
  have once := List.Nodup.of_map _ tickets
  unfold List.Nodup putReplies log at once
  rw [List.pairwise_filterMap, List.pairwise_map] at once
  obtain ⟨fault, first⟩ := putByOf.mp here
  obtain ⟨fault', second⟩ := putByOf.mp there
  by_contra apart
  have distinct : (⟨.put r, some task, fault⟩ : Deed) ≠ ⟨.put r, some other, fault'⟩ := by
    rintro same
    cases same
    exact apart rfl
  have symmetric : Std.Symm fun (d d' : Deed) =>
      ∀ a, d.happened.putReply = some a → ∀ b, d'.happened.putReply = some b → a ≠ b :=
    ⟨fun d d' differ a left b right => (differ b right a left).symm⟩
  exact once.forall first second distinct r rfl r rfl rfl

end Authors

/- In every run, whatever the handlers, the schedule and the sends do: the sends made for one
accepted request are some of the envelopes of its list, in the order of the list and none
twice, and every send made from the queue is for one request. -/
theorem repliesOrdered (acts : List Act) (deeds : List Deed) (s : ReplyDelivery.Delivery) (run : Runs ordering Always start acts deeds s) :
    (∀ task job, s.jobs[task]? = some job → Ordered task job deeds) ∧
    ∀ r ∈ sends deeds, ∃! task, task < s.jobs.length ∧ r ∈ putBy task deeds := by
  have ok : Tracked deeds s := by
    refine runsKeep Tracked ⟨.nil, fun _ => rfl, nofun, rfl, List.Sublist.refl _⟩ ?_ run
    intro deeds s act t emitted ok _ move
    exact actTracked ok move
  have replies : (putReplies (log deeds)).Nodup := by
    refine List.Nodup.of_map Reply.ticket ?_
    rw [ok.numbered]
    exact List.nodup_range
  have sent : (sends deeds).Sublist (putReplies (log deeds)) := (List.sublist_append_left _ _).trans ok.ordered
  constructor
  · intro task job found
    have own : putBy task deeds = job.replies := by rw [ok.owned, found]; rfl
    have mine := putBySublist task deeds
    refine ⟨?_, replies.sublist mine, ?_⟩
    · obtain ⟨inside, -⟩ := List.getElem?_eq_some_iff.mp found
      rw [← ok.paired.length_eq] at inside
      have puts := pairedAt ok.paired (List.getElem?_eq_getElem inside) found
      rw [own]
      cases doing : s.loop.tasks[task] with
      | running request =>
        rw [doing] at puts
        rw [show job = _ from puts]
        exact List.prefix_rfl
      | putting envelopes =>
        rw [doing] at puts
        exact (List.prefix_append _ _).trans puts
    · have kept := sent.filter (· ∈ putBy task deeds)
      rwa [filterSublist mine replies] at kept
  · intro r member
    obtain ⟨task, own⟩ := ok.authored r (sent.subset member)
    refine ⟨task, ⟨?_, own⟩, fun other there => authorUnique ok there.2 own⟩
    rw [ok.owned] at own
    by_contra beyond
    rw [List.getElem?_eq_none (Nat.not_lt.mp beyond)] at own
    exact List.not_mem_nil own

def sampleActs : List Act :=
  sampleServes.map (.turn · none) ++ [.turn .wake none, .turn (.goOn .accepted 0) (some (lit "lost")), .turn .iterate none,
    .turn .got none, .turn .wake none, .turn (.goOn .accepted 0) none]

def sampleJob : Job :=
  ⟨sampleRequest, some (.returned [sampleAnswer, sampleAnswer]), [⟨0, sampleAnswer⟩, ⟨1, sampleAnswer⟩]⟩

def sampleDeeds : List Deed :=
  [⟨.iteration, none, none⟩, ⟨.iteration, none, none⟩, ⟨.put ⟨0, sampleAnswer⟩, some 0, none⟩,
    ⟨.put ⟨1, sampleAnswer⟩, some 0, none⟩, ⟨.handed ⟨0, sampleAnswer⟩, none, some (lit "lost")⟩, ⟨.iteration, none, none⟩,
    ⟨.handed ⟨1, sampleAnswer⟩, none, none⟩]

theorem repliesOrderedSample : Ordered 0 sampleJob sampleDeeds := by
  have ran : ordering.run start sampleActs = some (⟨⟨.top, [], [.putting []], 2⟩, [sampleJob]⟩, sampleDeeds) := rfl
  exact (repliesOrdered _ _ _ (runsOfRun ran)).1 0 sampleJob rfl

end Vynkor.ReplyOrder
