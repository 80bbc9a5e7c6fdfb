import Vynkor.ConfirmationGate

/-! Whole runs of a confirmation gate. The pending map is tied to the history of the
run: it holds the requests made and not yet taken, except expired ones. -/
namespace Vynkor.ConfirmationGate
open Octets (Bytes)
open Text Tables Labelled

def Gate.requestAction (g : Gate) : Str := requestPrefix ++ g.op
def Gate.confirmAction (g : Gate) : Str := confirmPrefix ++ g.op

theorem opEncodable (g : Gate) : Text.Encodable g.op := by
  have valid := g.opValid
  unfold validateOp at valid
  split at valid
  · contradiction
  split at valid
  · contradiction
  rename_i ascii
  intro c member
  have plain := List.all_eq_true.mp (not_not.mp ascii) c member
  cases c with
  | scalar u => exact ⟨u, rfl⟩
  | surrogate offset => cases plain

def Requested (deeds : List Deed) (req : ActionRequest) (clock : Readings) (id : Str)
    (outcome : Except Error (List Envelope)) : Prop := .routed req clock (.requested id outcome) ∈ deeds

def Untaken (deeds : List Deed) (id : Str) : Prop := ∀ req clock params, .routed req clock (.executing id params) ∉ deeds

def Returns (req : ActionRequest) (id : Str) (outcome : Except Error (List Envelope)) : Prop :=
  ∃ ttlSecs data, encode (requestData req id ttlSecs) = some data ∧
    outcome = .ok [⟨some (.actionResponse ⟨req.actionId, .ok, data, []⟩)⟩]

/- What lets a call execute `params`: an allowed caller that names an id which an
earlier request returned, younger than the TTL and not taken before. -/
structure Entitled (x : Externals) (g : Gate) (deeds : List Deed) (req : ActionRequest) (now : Time) (id : Str)
    (params : Bytes) : Prop where
  confirms : req.action = g.confirmAction
  allowed : g.mayConfirm req.callerPluginId = true
  named : parsePendingId x req.paramsJson = .ok id
  returned : ∃ earlier clock outcome, Requested deeds earlier clock id outcome ∧ Returns earlier id outcome ∧
    earlier.action = g.requestAction ∧ g.pendingTtl.above (now - clock.createdAt) = true ∧ params = earlier.paramsJson
  untaken : Untaken deeds id

inductive Routes (x : Externals) (g : Gate) (req : ActionRequest) (clock : Readings) (s : Store) : Routed → Store → Prop where
  | ignored {outcome} : Routes x g req clock s (.replied outcome) s
  | requested (action : req.action = g.requestAction) :
      Routes x g req clock s
        (.requested (pendingId clock.millis s.seq) (g.requestReply req (pendingId clock.millis s.seq)))
        ⟨(g.sweepExpired clock.sweptAt s.pending).insert (pendingId clock.millis s.seq) (pendingOf req clock), s.seq + 1⟩
  | missed {id outcome} (absent : (g.sweepExpired clock.sweptAt s.pending).lookup id = none) :
      Routes x g req clock s (.replied outcome) { s with pending := g.sweepExpired clock.sweptAt s.pending }
  | taken {id p} (action : req.action = g.confirmAction) (allowed : g.mayConfirm req.callerPluginId = true)
      (named : parsePendingId x req.paramsJson = .ok id)
      (found : (g.sweepExpired clock.sweptAt s.pending).lookup id = some p) :
      Routes x g req clock s (.executing id p.params)
        { s with pending := (g.sweepExpired clock.sweptAt s.pending).erase id }

section Routing
variable {x : Externals} {g : Gate} {req : ActionRequest} {clock : Readings} {s : Store}

theorem prefixDrop {front action op : Str} (front_is : front.isPrefixOf action = true)
    (rest : action.drop front.length = op) : action = front ++ op := by
  obtain ⟨tail, rfl⟩ := List.isPrefixOf_iff_prefix.mp front_is
  rw [← rest, List.drop_left]

theorem confirmCases (action : req.action = g.confirmAction) :
    Routes x g req clock s (g.confirm x req clock s).1 (g.confirm x req clock s).2 := by
  unfold Gate.confirm
  split
  · exact .ignored
  · rename_i refused
    have allowed : g.mayConfirm req.callerPluginId = true := by simpa using refused
    cases named : parsePendingId x req.paramsJson with
    | error message => exact .ignored
    | ok id =>
      cases found : (g.sweepExpired clock.sweptAt s.pending).lookup id with
      | none =>
        simp only [Gate.takePending, found, eraseAbsent (AList.lookup_eq_none.mp found)]
        exact .missed found
      | some p =>
        simp only [Gate.takePending, found]
        exact .taken action allowed named found

theorem routeCases : Routes x g req clock s (g.route x req clock s).1 (g.route x req clock s).2 := by
  unfold Gate.route
  split
  · rename_i requests
    split
    · exact .ignored
    · rename_i own
      exact .requested (prefixDrop requests (not_not.mp own))
  · split
    · rename_i confirms
      split
      · exact .ignored
      · rename_i own
        exact confirmCases (prefixDrop confirms (not_not.mp own))
    · exact .ignored

theorem routeRequest (action : req.action = g.requestAction) : g.route x req clock s = g.request req clock s := by
  have own : requestPrefix.isPrefixOf req.action = true := by
    rw [action]
    exact List.isPrefixOf_iff_prefix.mpr (List.prefix_append _ _)
  have rest : req.action.drop requestPrefix.length = g.op := by rw [action, Gate.requestAction, List.drop_left]
  simp only [Gate.route, own, rest, ne_eq, not_true_eq_false, if_false, if_true]

theorem routeConfirm (action : req.action = g.confirmAction) : g.route x req clock s = g.confirm x req clock s := by
  have other : requestPrefix.isPrefixOf req.action = false := by rw [action]; rfl
  have own : confirmPrefix.isPrefixOf req.action = true := by
    rw [action]
    exact List.isPrefixOf_iff_prefix.mpr (List.prefix_append _ _)
  have rest : req.action.drop confirmPrefix.length = g.op := by rw [action, Gate.confirmAction, List.drop_left]
  simp only [Gate.route, other, own, rest, ne_eq, not_true_eq_false, if_false, if_true, Bool.false_eq_true]

theorem routeOther (noRequest : req.action ≠ g.requestAction) (noConfirm : req.action ≠ g.confirmAction) :
    g.route x req clock s = (.replied (notFound req.actionId), s) := by
  unfold Gate.route
  split
  · rename_i requests
    rw [if_pos fun own => noRequest (prefixDrop requests own)]
  · split
    · rename_i confirms
      rw [if_pos fun own => noConfirm (prefixDrop confirms own)]
    · rfl

theorem confirmFound {id : Str} {p : PendingAction} (allowed : g.mayConfirm req.callerPluginId = true)
    (named : parsePendingId x req.paramsJson = .ok id)
    (found : (g.sweepExpired clock.sweptAt s.pending).lookup id = some p) :
    (g.confirm x req clock s).1 = .executing id p.params := by
  simp only [Gate.confirm, allowed, not_true_eq_false, if_false, named, Gate.takePending, found]

theorem routedStep {s t : Gating} {emitted : List Deed} : (Gating.machine x g).step s (.route req clock) = some (t, emitted) ↔
    (textOk req = true ∧ s.clock ≤ clock.sweptAt ∧ clock.sweptAt ≤ clock.createdAt) ∧
      t = ⟨(g.route x req clock s.store).2, clock.createdAt, s.inFlight ++ Gating.waits (g.route x req clock s.store).1 req⟩ ∧
      emitted = [.routed req clock (g.route x req clock s.store).1] := by
  simp only [Gating.machine, Gating.step]
  split
  · rename_i guard
    rw [Option.some.injEq, Prod.mk.injEq, and_iff_right guard]
    exact and_congr eq_comm eq_comm
  · rename_i refused
    exact iff_of_false nofun fun h => refused h.1

end Routing

def Answering (g : Gate) : Prop := g.pendingTtl ≠ .posInf ∧ g.pendingTtl ≠ .nan

section Ages
variable {g : Gate} {p : PendingAction} {now later : Time}

theorem staleLater (order : now ≤ later) (stale : g.isStale now p = true) : g.isStale later p = true := by
  unfold Gate.isStale PyFloat.reachedBy at stale ⊢
  cases ttl : g.pendingTtl with
  | finite value =>
    simp only [ttl, decide_eq_true_eq] at stale ⊢
    exact le_trans stale (sub_le_sub_right order p.createdAt)
  | negInf => rfl
  | posInf | nan => simp [ttl] at stale

theorem aboveIff (answering : Answering g) : g.pendingTtl.above (now - p.createdAt) = true ↔ g.isStale now p = false := by
  unfold Gate.isStale PyFloat.above PyFloat.reachedBy
  cases ttl : g.pendingTtl with
  | finite value => simp
  | negInf => simp
  | posInf => exact absurd ttl answering.1
  | nan => exact absurd ttl answering.2

theorem finiteReturns {value : ℚ} {req : ActionRequest} (ttl : g.pendingTtl = .finite value) (text : Text.Encodable req.actionId)
    (id : Str) : Returns req id (g.requestReply req id) := by
  have encodable : Text.Encodable (requestData req id (value.num.tdiv value.den)) := Json.dumpsEncodable _
  obtain ⟨data, encoded⟩ := Option.isSome_iff_exists.mp ((encodeDefined _).mpr encodable)
  have reply : g.requestReply req id = responseOk req.actionId data := by
    simp only [Gate.requestReply, ttl, PyFloat.toInt, encodeUtf8, encoded, bind, Except.bind]
  refine ⟨value.num.tdiv value.den, data, encoded, ?_⟩
  rw [reply, responseOk, actionResponseOk text (by simp [Text.Encodable])]
  rfl

theorem youngReturns {req : ActionRequest} {id : Str} (text : Text.Encodable req.actionId) (answering : Answering g)
    (young : g.isStale now p = false) : Returns req id (g.requestReply req id) := by
  cases ttl : g.pendingTtl with
  | finite value => exact finiteReturns ttl text id
  | negInf => simp [Gate.isStale, PyFloat.reachedBy, ttl] at young
  | posInf => exact absurd ttl answering.1
  | nan => exact absurd ttl answering.2

end Ages

def requestedId : Deed → Option Str
  | .routed _ _ (.requested id _) => some id
  | _ => none

def executedId : Deed → Option Str
  | .routed _ _ (.executing id _) => some id
  | _ => none

theorem requestedOf {deeds : List Deed} {id : Str} :
    id ∈ deeds.filterMap requestedId ↔ ∃ req clock outcome, Requested deeds req clock id outcome := by
  rw [List.mem_filterMap]
  constructor
  · rintro ⟨deed, member, named⟩
    unfold requestedId at named
    split at named
    · cases named
      exact ⟨_, _, _, member⟩
    · contradiction
  · rintro ⟨req, clock, outcome, member⟩
    exact ⟨_, member, rfl⟩

theorem executedOf {deeds : List Deed} {id : Str} : id ∉ deeds.filterMap executedId ↔ Untaken deeds id := by
  rw [List.mem_filterMap]
  constructor
  · intro absent req clock params member
    exact absent ⟨_, member, rfl⟩
  · rintro untaken ⟨deed, member, named⟩
    unfold executedId at named
    split at named
    · cases named
      exact untaken _ _ _ member
    · contradiction

def Quiet (deed : Deed) : Prop := requestedId deed = none ∧ executedId deed = none

theorem quietIds {more : List Deed} (quiet : ∀ deed ∈ more, Quiet deed) :
    more.filterMap requestedId = [] ∧ more.filterMap executedId = [] :=
  ⟨List.filterMap_eq_nil_iff.mpr fun deed member => (quiet deed member).1,
    List.filterMap_eq_nil_iff.mpr fun deed member => (quiet deed member).2⟩

structure Matches (g : Gate) (deeds : List Deed) (pending : Pending) (clock : Time) : Prop where
  stored : ∀ id p, pending.lookup id = some p →
    (∃ req readings outcome, Requested deeds req readings id outcome ∧ p = pendingOf req readings) ∧ Untaken deeds id
  kept : ∀ req readings id outcome, Requested deeds req readings id outcome → Untaken deeds id →
    pending.lookup id = some (pendingOf req readings) ∨ g.isStale clock (pendingOf req readings) = true

section Matching
variable {g : Gate} {deeds more : List Deed} {pending : Pending} {clock now : Time}

theorem untakenAppend {id : Str} : Untaken (deeds ++ more) id ↔ Untaken deeds id ∧ Untaken more id := by
  simp only [Untaken, List.mem_append, not_or]
  exact ⟨fun h => ⟨fun req clock params => (h req clock params).1, fun req clock params => (h req clock params).2⟩,
    fun h req clock params => ⟨h.1 req clock params, h.2 req clock params⟩⟩

theorem matchesLater (ok : Matches g deeds pending clock) (order : clock ≤ now) : Matches g deeds pending now :=
  ⟨ok.stored, fun req readings id outcome requested untaken =>
    (ok.kept req readings id outcome requested untaken).imp_right (staleLater order)⟩

theorem matchesSweep (ok : Matches g deeds pending clock) (order : clock ≤ now) :
    Matches g deeds (g.sweepExpired now pending) now := by
  constructor
  · intro id p found
    exact ok.stored id p (lookupSweepSome.mp found).1
  · intro req readings id outcome requested untaken
    cases stale : g.isStale now (pendingOf req readings) with
    | true => exact .inr rfl
    | false =>
      rcases (matchesLater ok order).kept req readings id outcome requested untaken with found | old
      · exact .inl (lookupSweepSome.mpr ⟨found, stale⟩)
      · cases stale.symm.trans old

theorem matchesQuiet (ok : Matches g deeds pending clock) (quiet : ∀ deed ∈ more, Quiet deed) :
    Matches g (deeds ++ more) pending clock := by
  constructor
  · intro id p found
    obtain ⟨⟨req, readings, outcome, here, same⟩, untaken⟩ := ok.stored id p found
    have none : Untaken more id := executedOf.mp (by simp [(quietIds quiet).2])
    exact ⟨⟨req, readings, outcome, List.mem_append_left _ here, same⟩, untakenAppend.mpr ⟨untaken, none⟩⟩
  · intro req readings id outcome here untaken
    have before := (List.mem_append.mp here).resolve_right fun late => nomatch (quiet _ late).1
    exact ok.kept req readings id outcome before (untakenAppend.mp untaken).1

theorem matchesInsert {req : ActionRequest} {readings : Readings} {id : Str} {outcome : Except Error (List Envelope)}
    (ok : Matches g deeds pending now) (order : now ≤ readings.createdAt)
    (fresh : ∀ req readings outcome, ¬ Requested deeds req readings id outcome) (untaken : Untaken deeds id) :
    Matches g (deeds ++ [.routed req readings (.requested id outcome)]) (pending.insert id (pendingOf req readings))
      readings.createdAt := by
  have none (other) : Untaken [.routed req readings (.requested id outcome)] other := by simp [Untaken]
  constructor
  · intro other p found
    by_cases same : other = id
    · subst same
      rw [AList.lookup_insert] at found
      cases found
      exact ⟨⟨req, readings, outcome, by simp [Requested], rfl⟩, untakenAppend.mpr ⟨untaken, none other⟩⟩
    · rw [AList.lookup_insert_ne same] at found
      obtain ⟨⟨earlier, clock, reply, here, is⟩, free⟩ := ok.stored other p found
      exact ⟨⟨earlier, clock, reply, List.mem_append_left _ here, is⟩, untakenAppend.mpr ⟨free, none other⟩⟩
  · intro earlier clock other reply here free
    rcases List.mem_append.mp here with old | new
    · have apart : other ≠ id := by
        rintro rfl
        exact fresh _ _ _ old
      rw [AList.lookup_insert_ne apart]
      exact (matchesLater ok order).kept earlier clock other reply old (untakenAppend.mp free).1
    · simp only [List.mem_singleton, Deed.routed.injEq, Routed.requested.injEq] at new
      obtain ⟨rfl, rfl, rfl, rfl⟩ := new
      exact .inl (AList.lookup_insert _)

theorem matchesErase {req : ActionRequest} {readings : Readings} {id : Str} {params : Bytes}
    (ok : Matches g deeds pending now) :
    Matches g (deeds ++ [.routed req readings (.executing id params)]) (pending.erase id) now := by
  have only {other} (apart : other ≠ id) : Untaken [.routed req readings (.executing id params)] other := by
    intro req clock params member
    simp only [List.mem_singleton, Deed.routed.injEq, Routed.executing.injEq] at member
    exact apart member.2.2.1
  constructor
  · intro other p found
    by_cases same : other = id
    · subst same
      rw [AList.lookup_erase] at found
      contradiction
    · rw [AList.lookup_erase_ne same] at found
      obtain ⟨⟨earlier, clock, reply, here, is⟩, free⟩ := ok.stored other p found
      exact ⟨⟨earlier, clock, reply, List.mem_append_left _ here, is⟩, untakenAppend.mpr ⟨free, only same⟩⟩
  · intro earlier clock other reply here free
    have before := (List.mem_append.mp here).resolve_right (by simp)
    have apart : other ≠ id := by
      rintro rfl
      exact (untakenAppend.mp free).2 req readings params List.mem_cons_self
    rw [AList.lookup_erase_ne apart]
    exact ok.kept earlier clock other reply before (untakenAppend.mp free).1

end Matching

theorem pendingIdInjective {millis millis' : Int} {n n' : Nat} (same : pendingId millis n = pendingId millis' n') : n = n' :=
  lastPartInjective same

def Numbered (g : Gate) (deeds : List Deed) (seq : Nat) : Prop :=
  ∀ req clock id outcome, Requested deeds req clock id outcome →
    (∃ millis n, n < seq ∧ id = pendingId millis n) ∧ req.action = g.requestAction ∧ Text.Encodable req.actionId ∧
      outcome = g.requestReply req id

theorem numberedAppend {g : Gate} {deeds more : List Deed} {seq later : Nat} (ok : Numbered g deeds seq) (order : seq ≤ later)
    (new : Numbered g more later) : Numbered g (deeds ++ more) later := by
  intro req clock id outcome requested
  rcases List.mem_append.mp requested with old | late
  · obtain ⟨⟨millis, n, below, named⟩, rest⟩ := ok req clock id outcome old
    exact ⟨⟨millis, n, Nat.lt_of_lt_of_le below order, named⟩, rest⟩
  · exact new req clock id outcome late

theorem numberedFresh {g : Gate} {deeds : List Deed} {seq : Nat} (ok : Numbered g deeds seq) (millis : Int)
    (req : ActionRequest) (clock : Readings) (outcome : Except Error (List Envelope)) :
    ¬ Requested deeds req clock (pendingId millis seq) outcome := by
  intro requested
  obtain ⟨⟨millis', n, below, same⟩, -⟩ := ok req clock _ outcome requested
  exact Nat.lt_irrefl n (pendingIdInjective same ▸ below)

structure Spec (x : Externals) (g : Gate) (deeds : List Deed) : Prop where
  entitled : ∀ before after req clock how, deeds = before ++ .routed req clock how :: after →
    ∀ id params, how = .executing id params ↔ Entitled x g before req clock.sweptAt id params
  distinct : (deeds.filterMap requestedId).Nodup
  once : (deeds.filterMap executedId).Nodup

structure Sound (x : Externals) (g : Gate) (deeds : List Deed) (s : Gating) : Prop where
  agrees : Matches g deeds s.store.pending s.clock
  numbered : Numbered g deeds s.store.seq
  requestedFirst : ∀ id ∈ deeds.filterMap executedId, id ∈ deeds.filterMap requestedId
  spec : Spec x g deeds

section Steps
variable {x : Externals} {g : Gate} {deeds : List Deed} {s : Gating} {req : ActionRequest} {clock : Readings}

theorem routeEntitled (answering : Answering g) (sound : Sound x g deeds s) (order : s.clock ≤ clock.sweptAt)
    (id : Str) (params : Bytes) :
    (g.route x req clock s.store).1 = .executing id params ↔ Entitled x g deeds req clock.sweptAt id params := by
  have swept := matchesSweep sound.agrees order
  constructor
  · intro executes
    have routes : Routes x g req clock s.store _ _ := routeCases
    rw [executes] at routes
    generalize (g.route x req clock s.store).2 = after at routes
    cases routes with
    | taken action allowed named found =>
      obtain ⟨⟨earlier, readings, outcome, requested, same⟩, untaken⟩ := swept.stored _ _ found
      obtain ⟨-, actionOf, text, replied⟩ := sound.numbered _ _ _ _ requested
      have young : g.isStale clock.sweptAt (pendingOf earlier readings) = false := same ▸ (lookupSweepSome.mp found).2
      have returns : Returns earlier id (g.requestReply earlier id) := youngReturns text answering young
      rw [← replied] at returns
      exact ⟨action, allowed, named, ⟨earlier, readings, outcome, requested, returns, actionOf,
        (aboveIff answering).mpr young, congrArg PendingAction.params same⟩, untaken⟩
  · rintro ⟨action, allowed, named, ⟨earlier, readings, outcome, requested, -, -, young, rfl⟩, untaken⟩
    have fresh : g.isStale clock.sweptAt (pendingOf earlier readings) = false := (aboveIff answering).mp young
    rcases swept.kept _ _ _ _ requested untaken with found | old
    · have reached := confirmFound (x := x) (g := g) (s := s.store) allowed named found
      rw [routeConfirm action, reached]
      rfl
    · cases fresh.symm.trans old

theorem specSnoc {deed : Deed} (spec : Spec x g deeds)
    (last : ∀ req clock how, deed = .routed req clock how →
      ∀ id params, how = .executing id params ↔ Entitled x g deeds req clock.sweptAt id params)
    (distinct : (deeds.filterMap requestedId ++ (requestedId deed).toList).Nodup)
    (once : (deeds.filterMap executedId ++ (executedId deed).toList).Nodup) : Spec x g (deeds ++ [deed]) := by
  refine ⟨fun before after req clock how cut => ?_, ?_, ?_⟩
  · rcases List.eq_nil_or_concat after with rfl | ⟨rest, final, rfl⟩
    · obtain ⟨rfl, same⟩ := List.append_inj' cut rfl
      cases same
      exact last req clock how rfl
    · rw [List.concat_eq_append, ← List.cons_append, ← List.append_assoc] at cut
      obtain ⟨earlier, -⟩ := List.append_inj' cut rfl
      exact spec.entitled before rest req clock how earlier
  · rw [List.filterMap_append]
    cases named : requestedId deed <;> simpa [named] using distinct
  · rw [List.filterMap_append]
    cases named : executedId deed <;> simpa [named] using once

theorem specQuiet {deed : Deed} (spec : Spec x g deeds) (quiet : Quiet deed)
    (last : ∀ req clock how, deed = .routed req clock how →
      ∀ id params, how = .executing id params ↔ Entitled x g deeds req clock.sweptAt id params) :
    Spec x g (deeds ++ [deed]) :=
  specSnoc spec last (by simpa [quiet.1] using spec.distinct) (by simpa [quiet.2] using spec.once)

theorem soundQuiet {t : Gating} {more : List Deed} (sound : Sound x g deeds s) (quiet : ∀ deed ∈ more, Quiet deed)
    (agrees : Matches g deeds t.store.pending t.clock) (seq : s.store.seq ≤ t.store.seq)
    (spec : Spec x g (deeds ++ more)) : Sound x g (deeds ++ more) t := by
  have numbered : Numbered g more t.store.seq := fun _ _ _ _ late => nomatch (quiet _ late).1
  refine ⟨matchesQuiet agrees quiet, numberedAppend sound.numbered seq numbered, ?_, spec⟩
  simp only [List.filterMap_append, quietIds quiet, List.append_nil]
  exact sound.requestedFirst

section Routed
variable {how : Routed}
  (spec : ∀ req' clock' how', Deed.routed req clock how = .routed req' clock' how' →
    ∀ id params, how' = .executing id params ↔ Entitled x g deeds req' clock'.sweptAt id params)
include spec

theorem requestSound {inFlight : List Str} (sound : Sound x g deeds s) (text : textOk req = true)
    (swept : Matches g deeds (g.sweepExpired clock.sweptAt s.store.pending) clock.sweptAt)
    (order : clock.sweptAt ≤ clock.createdAt) (action : req.action = g.requestAction)
    (result : how = .requested (pendingId clock.millis s.store.seq)
      (g.requestReply req (pendingId clock.millis s.store.seq))) :
    Sound x g (deeds ++ [.routed req clock how])
      ⟨⟨(g.sweepExpired clock.sweptAt s.store.pending).insert (pendingId clock.millis s.store.seq) (pendingOf req clock),
        s.store.seq + 1⟩, clock.createdAt, inFlight⟩ := by
  subst result
  have fresh := numberedFresh sound.numbered clock.millis
  have unknown : pendingId clock.millis s.store.seq ∉ deeds.filterMap requestedId := by
    rw [requestedOf]
    rintro ⟨req, clock, outcome, requested⟩
    exact fresh req clock outcome requested
  have untaken := executedOf.mp fun taken => unknown (sound.requestedFirst _ taken)
  refine ⟨matchesInsert swept order fresh untaken, ?_, ?_, ?_⟩
  · refine numberedAppend sound.numbered (Nat.le_succ _) fun req' clock' id outcome late => ?_
    simp only [Requested, List.mem_singleton, Deed.routed.injEq, Routed.requested.injEq] at late
    obtain ⟨rfl, rfl, rfl, rfl⟩ := late
    simp only [textOk, Bool.and_eq_true, encodeDefined] at text
    exact ⟨⟨_, _, Nat.lt_succ_self _, rfl⟩, action, text.1.1, rfl⟩
  · intro id member
    rw [List.filterMap_append] at member ⊢
    exact List.mem_append_left _ (sound.requestedFirst id (by simpa [executedId] using member))
  · exact specSnoc sound.spec spec (by simpa [requestedId] using List.Nodup.concat unknown sound.spec.distinct)
      (by simpa [executedId] using sound.spec.once)

theorem takeSound {inFlight : List Str} {id : Str} {p : PendingAction} (sound : Sound x g deeds s)
    (swept : Matches g deeds (g.sweepExpired clock.sweptAt s.store.pending) clock.sweptAt)
    (order : clock.sweptAt ≤ clock.createdAt)
    (found : (g.sweepExpired clock.sweptAt s.store.pending).lookup id = some p) (result : how = .executing id p.params) :
    Sound x g (deeds ++ [.routed req clock how])
      ⟨⟨(g.sweepExpired clock.sweptAt s.store.pending).erase id, s.store.seq⟩, clock.createdAt, inFlight⟩ := by
  subst result
  obtain ⟨⟨earlier, readings, outcome, requested, -⟩, untaken⟩ := swept.stored _ _ found
  have unused := executedOf.mpr untaken
  refine ⟨matchesLater (matchesErase swept) order, ?_, ?_, ?_⟩
  · refine numberedAppend sound.numbered (Nat.le_refl _) fun req' clock' id' outcome late => ?_
    simp [Requested] at late
  · intro id' member
    rw [List.filterMap_append, List.mem_append] at member
    rw [List.filterMap_append]
    refine List.mem_append_left _ (member.elim (sound.requestedFirst id') fun last => ?_)
    have same : id' = id := by simpa [executedId] using last
    exact requestedOf.mpr ⟨earlier, readings, outcome, same ▸ requested⟩
  · exact specSnoc sound.spec spec (by simpa [requestedId] using sound.spec.distinct)
      (by simpa [executedId] using List.Nodup.concat unused sound.spec.once)

end Routed

theorem routeSound {inFlight : List Str} (answering : Answering g) (sound : Sound x g deeds s) (text : textOk req = true)
    (order : s.clock ≤ clock.sweptAt ∧ clock.sweptAt ≤ clock.createdAt) :
    Sound x g (deeds ++ [.routed req clock (g.route x req clock s.store).1])
      ⟨(g.route x req clock s.store).2, clock.createdAt, inFlight⟩ := by
  have entitled : ∀ id params, (g.route x req clock s.store).1 = .executing id params ↔
      Entitled x g deeds req clock.sweptAt id params := routeEntitled answering sound order.1
  have swept := matchesSweep sound.agrees order.1
  have routes : Routes x g req clock s.store _ _ := routeCases
  generalize (g.route x req clock s.store).1 = how at routes entitled ⊢
  generalize (g.route x req clock s.store).2 = after at routes ⊢
  have last : ∀ req' clock' how', Deed.routed req clock how = .routed req' clock' how' →
      ∀ id params, how' = .executing id params ↔ Entitled x g deeds req' clock'.sweptAt id params := by
    rintro req' clock' how' same
    cases same
    exact entitled
  cases routes with
  | ignored =>
    have later := matchesLater sound.agrees (le_trans order.1 order.2)
    exact soundQuiet sound (by simp [Quiet, requestedId, executedId]) later (Nat.le_refl _)
      (specQuiet sound.spec ⟨rfl, rfl⟩ last)
  | missed absent =>
    exact soundQuiet sound (by simp [Quiet, requestedId, executedId]) (matchesLater swept order.2) (Nat.le_refl _)
      (specQuiet sound.spec ⟨rfl, rfl⟩ last)
  | requested action => exact requestSound last sound text swept order.2 action rfl
  | taken action allowed named found => exact takeSound last sound swept order.2 found rfl

theorem stepSound {call : Call} {t : Gating} {emitted : List Deed} (answering : Answering g) (sound : Sound x g deeds s)
    (move : (Gating.machine x g).step s call = some (t, emitted)) : Sound x g (deeds ++ emitted) t := by
  cases call with
  | route req clock =>
    obtain ⟨guard, rfl, rfl⟩ := routedStep.mp move
    exact routeSound answering sound guard.1 guard.2
  | finish call result =>
    obtain ⟨actionId, waiting, same⟩ := Option.map_eq_some_iff.mp move
    cases same
    have spec : Spec x g (deeds ++ [.finished actionId (executorReply x actionId result)]) :=
      specQuiet sound.spec ⟨rfl, rfl⟩ (fun _ _ _ other => nomatch other)
    exact soundQuiet sound (by simp [Quiet, requestedId, executedId]) sound.agrees (Nat.le_refl _) spec
  | elsewhere =>
    cases move
    exact soundQuiet sound (by simp) sound.agrees (Nat.le_succ _) (by rw [List.append_nil]; exact sound.spec)

end Steps

theorem startSound (x : Externals) (g : Gate) (seq : Nat) (clock : Time) : Sound x g [] (.start seq clock) := by
  have nothing (req readings id outcome) : ¬ Requested [] req readings id outcome := List.not_mem_nil
  refine ⟨⟨fun id p found => ?_, fun req readings id outcome h => absurd h (nothing _ _ _ _)⟩,
    fun req readings id outcome h => absurd h (nothing _ _ _ _), fun id member => absurd member List.not_mem_nil,
    ⟨fun before after req clock how cut => ?_, List.nodup_nil, List.nodup_nil⟩⟩
  · cases found
  · simp at cut

/- A run from a fresh gate: a call reaches the executor exactly if the calls before
it entitle it, under every id at most once; any other action changes nothing. -/
theorem gateSpec (x : Externals) (g : Gate) (answering : Answering g) (seq : Nat) (clock : Time) (calls : List Call)
    (deeds : List Deed) (s : Gating) (run : Runs (Gating.machine x g) Always (.start seq clock) calls deeds s) :
    Spec x g deeds ∧
    ∀ req readings store, req.action ≠ g.requestAction → req.action ≠ g.confirmAction →
      g.route x req readings store = (.replied (notFound req.actionId), store) := by
  have sound : Sound x g deeds s :=
    runsKeep (Sound x g) (startSound x g seq clock) (fun deeds s call t emitted ok _ move => stepSound answering ok move) run
  exact ⟨sound.spec, fun req readings store noRequest noConfirm => routeOther noRequest noConfirm⟩

def sampleGate (ttl : PyFloat) : Gate :=
  Gate.withPendingTtl ⟨lit "transfer", [lit "phone-1"], defaultPendingTtl, by decide +kernel, by decide +kernel⟩ ttl

def samplePendingId : Str := lit "pending-1000-0"
def sampleConfirmParams : Bytes := ascii "\x7b\"pending_id\": \"pending-1000-0\"\x7d"

def sampleModule : Externals where
  loads data :=
    if data = sampleConfirmParams then .ok (.dict [(lit "pending_id", .str samplePendingId)])
    else .error (lit "Expecting value: line 1 column 1 (char 0)")
  describe _ := lit "surrogates not allowed"

def sampleTransfer : ActionRequest := ⟨lit "a1", lit "request_transfer", ascii "5", 0, false, lit "shop"⟩
def sampleConfirm : ActionRequest := ⟨lit "a2", lit "confirm_transfer", sampleConfirmParams, 0, false, lit "phone-1"⟩

def sampleStored : Readings := ⟨1, 1000, 1⟩
def sampleTaken : Readings := ⟨2, 1001, 2⟩

def sampleDeeds (ttl : PyFloat) : List Deed :=
  [.routed sampleTransfer sampleStored (.requested samplePendingId ((sampleGate ttl).requestReply sampleTransfer samplePendingId)),
    .routed sampleConfirm sampleTaken (.executing samplePendingId (ascii "5"))]

def sampleGating (ttl : PyFloat) : Option (List Deed) :=
  ((Gating.machine sampleModule (sampleGate ttl)).run (.start 0 0)
    [.route sampleTransfer sampleStored, .route sampleConfirm sampleTaken]).map Prod.snd

theorem gateSpecSample : Entitled sampleModule (sampleGate (.finite 300)) ((sampleDeeds (.finite 300)).take 1) sampleConfirm 2
    samplePendingId (ascii "5") := by
  have ran : sampleGating (.finite 300) = some (sampleDeeds (.finite 300)) := by decide +kernel
  obtain ⟨⟨s, deeds⟩, run, same⟩ := Option.map_eq_some_iff.mp ran
  cases same
  have spec := (gateSpec sampleModule (sampleGate (.finite 300)) ⟨nofun, nofun⟩ 0 0 _ _ s (runsOfRun run)).1
  exact (spec.entitled ((sampleDeeds (.finite 300)).take 1) [] sampleConfirm sampleTaken _ rfl _ _).mp rfl

/- The request fails after it is stored, and its id, never returned, is confirmed. -/
theorem unansweredExecutes : ¬ ∀ (x : Externals) (g : Gate) (seq : Nat) (clock : Time) (calls : List Call)
    (deeds : List Deed) (s : Gating), Runs (Gating.machine x g) Always (.start seq clock) calls deeds s → Spec x g deeds := by
  intro claim
  have ran : sampleGating .posInf = some (sampleDeeds .posInf) := by decide +kernel
  obtain ⟨⟨s, deeds⟩, run, same⟩ := Option.map_eq_some_iff.mp ran
  cases same
  have spec := claim sampleModule (sampleGate .posInf) 0 0 _ _ s (runsOfRun run)
  have entitled : Entitled sampleModule (sampleGate .posInf) ((sampleDeeds .posInf).take 1) sampleConfirm 2 samplePendingId
      (ascii "5") :=
    (spec.entitled ((sampleDeeds .posInf).take 1) [] sampleConfirm sampleTaken _ rfl _ _).mp rfl
  obtain ⟨earlier, clock, outcome, requested, ⟨ttlSecs, data, -, answered⟩, -⟩ := entitled.returned
  rcases List.mem_cons.mp requested with first | none
  · cases first
    cases answered
  · cases none

end Vynkor.ConfirmationGate
