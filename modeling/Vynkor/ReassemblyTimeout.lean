import Vynkor.ReassemblyInvariant

/-! How old a fragment set is when a fragment arrives. `recv_frame` prunes before a
read that blocks without bound, so a set may reach the timeout during the read and
still be there for the fragment. -/
namespace Vynkor.Reassembly
open Octets (Bytes)
open Text Framing Tables ExactReader Labelled

def tableAt (c : VynkorClient) (clock : Arrival) : Streams := pruneReassembly clock.prunedAt c.reassembly

def arriving (x : Externals) (c : VynkorClient) (clock : Arrival) (inbox : Inbox) :
    Option (FragHeader × Nat × Bytes) :=
  match ((c.prune clock.prunedAt).nextFrame x inbox).1 with
  | .error _ => none
  | .ok (flags, payload) =>
    if flags &&& flagFragmented ≠ 0 then (parseFragHeader payload).map fun h => (h, flags, payload) else none

def Young (now : Time) (buf : ReassemblyBuf) : Prop := now - buf.firstSeen < reassemblyTimeout

/- The timeout counts at the arrival `now`: no payload comes out of an old set, and
a new stream is refused for as many young sets as are allowed. -/
structure EffectiveAt (now : Time) (connection : Nat) (table : Streams) (h : FragHeader) (flags : Nat)
    (payload : Bytes) : Prop where
  completes : ∀ out, (absorbFragment now connection flags payload table).1 = .ok (some out) →
    ∀ buf, table.lookup h.streamId = some buf → Young now buf
  refuses : (absorbFragment now connection flags payload table).1 = .error tooManyStreams →
    maxReassemblyStreams ≤ size (pruneReassembly now table)

def Effective (x : Externals) (s : Session) (op : Operation) : Prop :=
  ∀ clock inbox h flags payload, op = .recvFrame clock inbox →
    arriving x s.client clock inbox = some (h, flags, payload) →
      EffectiveAt clock.arrivedAt s.client.connection (tableAt s.client clock) h flags payload

/- No set that is held turns too old while the read blocks that brings a fragment. -/
def Swift (x : Externals) (s : Session) (op : Operation) : Prop :=
  ∀ clock inbox, op = .recvFrame clock inbox → (arriving x s.client clock inbox).isSome = true →
    ∀ id buf, s.client.reassembly.lookup id = some buf → Young clock.prunedAt buf → Young clock.arrivedAt buf

section Ages
variable {now : Time} {connection flags : Nat} {h : FragHeader} {payload : Bytes} {table : Streams}
  {f : Fragment} {after : Streams}

theorem invalidNotCrowded (seq total : Nat) : invalidHeader seq total ≠ tooManyStreams := by
  intro same
  have heads := congrArg List.head? (Error.internal.inj same)
  simp [lit] at heads

theorem pruneYoung (young : ∀ id buf, table.lookup id = some buf → Young now buf) :
    pruneReassembly now table = table := by
  refine sweepIdle fun id buf found => ?_
  rw [ReassemblyBuf.isStale, decide_eq_false_iff_not, not_le]
  exact young id buf found

theorem joinFails {fragments : Table Nat Fragment} {order : List Nat} {e : Error}
    (fails : ReassemblyBuf.joinChunks fragments order = .error e) : e = .keyError := by
  induction order generalizing e with
  | nil => cases fails
  | cons seq rest ih =>
    simp only [ReassemblyBuf.joinChunks] at fails
    split at fails
    · cases fails; rfl
    · cases tail : ReassemblyBuf.joinChunks fragments rest with
      | ok joined => simp [tail, Except.map] at fails
      | error e' =>
        simp only [tail, Except.map, Except.error.injEq] at fails
        exact fails ▸ ih tail

theorem refusalCrowded (young : ∀ id buf, table.lookup id = some buf → Young now buf) {outcome}
    (refused : outcome = .error tooManyStreams) (absorbed : Absorbs now flags h f table outcome after) :
    maxReassemblyStreams ≤ size (pruneReassembly now table) := by
  cases absorbed with
  | invalid _ => exact absurd (Except.error.inj refused) (invalidNotCrowded _ _)
  | mismatch _ _ => exact absurd (Except.error.inj refused) (by decide)
  | refused valid absent full => rwa [pruneYoung young]
  | oversized _ _ => cases refused
  | @completed buf valid home small complete =>
    cases made : (buf.put h.sequence f).reassemble with
    | ok whole => rw [made] at refused; cases refused
    | error e =>
      rw [made, joinFails made] at refused
      cases refused
  | buffered _ _ _ _ => cases refused

theorem youngEffective (young : ∀ id buf, table.lookup id = some buf → Young now buf)
    (parsed : parseFragHeader payload = some h) : EffectiveAt now connection table h flags payload where
  completes _ _ buf found := young h.streamId buf found
  refuses refused := refusalCrowded young refused (absorbCases parsed)

end Ages

theorem arrivingParsed {x : Externals} {c : VynkorClient} {clock : Arrival} {inbox : Inbox} {h : FragHeader}
    {flags : Nat} {payload : Bytes} (arrived : arriving x c clock inbox = some (h, flags, payload)) :
    parseFragHeader payload = some h := by
  unfold arriving at arrived
  split at arrived
  · contradiction
  · split at arrived
    · obtain ⟨parsed, some_h, same⟩ := Option.map_eq_some_iff.mp arrived
      cases same
      exact some_h
    · contradiction

theorem swiftEffective {x : Externals} {s : Session} {op : Operation} (swift : Swift x s op) : Effective x s op := by
  intro clock inbox h flags payload turn arrived
  refine youngEffective (fun id buf found => ?_) (arrivingParsed arrived)
  obtain ⟨held, young⟩ := prunedLookup.mp found
  exact swift clock inbox turn (by rw [arrived]; rfl) id buf held young

def sampleSession : Session := .start (.connectWithSecret none)

def sampleFirst : Operation := .recvFrame ⟨0, 1⟩ ⟨sampleFragment 0, []⟩
def sampleSoon : Operation := .recvFrame ⟨2, 20⟩ ⟨sampleFragment 1, []⟩
def sampleLate : Operation := .recvFrame ⟨2, 100⟩ ⟨sampleFragment 1, []⟩

def sampleRun (operations : List Operation) : Option (Session × List Report) :=
  (Session.machine sampleExternals sampleCodec).run sampleSession operations

theorem sampleHeld : ∀ r ∈ sampleRun [sampleFirst], ∀ e ∈ r.1.client.reassembly.entries, 20 - e.2.firstSeen < 30 := by
  decide +kernel

theorem sampleLateCompletes : ∀ r ∈ sampleRun [sampleFirst],
    (arriving sampleExternals r.1.client ⟨2, 100⟩ ⟨sampleFragment 1, []⟩).map Prod.fst = some ⟨1, 1, 2, 1⟩ ∧
    (∀ a ∈ arriving sampleExternals r.1.client ⟨2, 100⟩ ⟨sampleFragment 1, []⟩,
      (absorbFragment 100 r.1.client.connection a.2.1 a.2.2 (tableAt r.1.client ⟨2, 100⟩)).1 =
        .ok (some (0, ascii "abcd"))) ∧
    ((tableAt r.1.client ⟨2, 100⟩).lookup 1).map ReassemblyBuf.firstSeen = some 1 := by
  decide +kernel

end Vynkor.Reassembly
