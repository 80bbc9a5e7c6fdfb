import Vynkor.FrameRoundTrip
import Vynkor.Session

/-! What holds of the reassembly table in every state a client reaches, also after
a fragment that was refused. Completeness is judged by the number of fragments
alone, so the indices have to be covered by counting. -/
namespace Vynkor.Reassembly
open Octets (Bytes)
open Text Framing Tables ExactReader Labelled

structure Consistent (b : ReassemblyBuf) : Prop where
  totalPositive : 1 ≤ b.total
  totalFits : b.total ≤ 65535
  indices : ∀ seq ∈ b.fragments, seq < b.total
  counted : b.bufferedBytes = (weight chunkSize b.fragments : Int)

structure Sound (b : ReassemblyBuf) : Prop extends Consistent b where
  started : 1 ≤ size b.fragments
  unfinished : size b.fragments < b.total
  bounded : b.bufferedBytes ≤ maxPayload

structure SoundStreams (streams : Streams) : Prop where
  few : size streams ≤ maxReassemblyStreams
  each : ∀ streamId buf, streams.lookup streamId = some buf → Sound buf

theorem soundEmpty : SoundStreams ∅ := ⟨by decide, fun _ _ found => by simp at found⟩

section Buffers
variable {b : ReassemblyBuf} {seq : Nat} {f : Fragment}

theorem newConsistent {total flags : Nat} (now : Time) (positive : 1 ≤ total) (fits : total ≤ 65535) :
    Consistent (.new total flags now) :=
  ⟨positive, fits, fun _ member => absurd member (AList.notMem_empty _), rfl⟩

theorem putConsistent (ok : Consistent b) (valid : seq < b.total) : Consistent (b.put seq f) where
  totalPositive := ok.totalPositive
  totalFits := ok.totalFits
  indices := by
    intro other member
    rcases AList.mem_insert b.fragments |>.mp member with rfl | old
    · exact valid
    · exact ok.indices other old
  counted := by
    have balance := weightInsert chunkSize b.fragments seq f
    simp only [ReassemblyBuf.put, ReassemblyBuf.newTotal, ok.counted]
    simp only [chunkSize] at balance ⊢
    omega

theorem putStarted : 1 ≤ size (b.put seq f).fragments := by
  simp [ReassemblyBuf.put, sizeInsert]

theorem putSizeLe (ok : Consistent b) (valid : seq < b.total) : size (b.put seq f).fragments ≤ b.total := by
  have inside : (b.put seq f).fragments.keys ⊆ List.range b.total := fun k member =>
    List.mem_range.mpr ((putConsistent (f := f) ok valid).indices k (AList.mem_keys.mpr member))
  have shorter := (List.Nodup.subperm (AList.keys_nodup _) inside).length_le
  simpa [size] using shorter

theorem joinCovered {fragments : Table Nat Fragment} {order : List Nat}
    (present : ∀ seq ∈ order, ∃ g, fragments.lookup seq = some g) :
    ∃ payload, ReassemblyBuf.joinChunks fragments order = .ok payload ∧
      payload.length = (order.map fun seq => share chunkSize (fragments.lookup seq)).sum := by
  induction order with
  | nil => exact ⟨[], rfl, rfl⟩
  | cons seq rest ih =>
    obtain ⟨g, found⟩ := present seq List.mem_cons_self
    obtain ⟨tail, joined, long⟩ := ih fun s member => present s (List.mem_cons_of_mem _ member)
    refine ⟨g.chunk ++ tail, by simp [ReassemblyBuf.joinChunks, found, joined, Except.map], ?_⟩
    simp [found, share, chunkSize, long]

theorem reassembleFull (ok : Consistent b) (full : b.isComplete) :
    ∃ payload, b.reassemble = .ok payload ∧ (payload.length : Int) = b.bufferedBytes := by
  have count : size b.fragments = b.total := of_decide_eq_true full
  have present : ∀ seq ∈ List.range b.total, ∃ g, b.fragments.lookup seq = some g :=
    fun seq member => covers ok.indices count (List.mem_range.mp member)
  obtain ⟨payload, joined, long⟩ := joinCovered present
  refine ⟨payload, joined, ?_⟩
  rw [long, weightIndexed chunkSize ok.indices count, ok.counted]

end Buffers

section Streams
variable {now : Time} {flags : Nat} {h : FragHeader} {f : Fragment} {streams after : Streams} {buf : ReassemblyBuf}
  {outcome : Except Error (Option (Nat × Bytes))}

theorem homeConsistent (ok : SoundStreams streams) (home : Home now flags h streams buf)
    (valid : h.sequence < h.total) (fits : h.total < 256 ^ 2) : Consistent buf ∧ buf.total = h.total := by
  cases home with
  | known found total => exact ⟨(ok.each _ _ found).toConsistent, total⟩
  | opened absent room => exact ⟨newConsistent now (by omega) (by omega), rfl⟩

theorem eraseSound (ok : SoundStreams streams) (k : Nat) : SoundStreams (streams.erase k) where
  few := Nat.le_trans (sizeEraseLe streams k) ok.few
  each := by
    intro id b found
    by_cases same : id = k
    · subst same
      rw [AList.lookup_erase] at found
      contradiction
    · rw [AList.lookup_erase_ne same] at found
      exact ok.each id b found

theorem insertSound (ok : SoundStreams streams) (home : Home now flags h streams buf) {b : ReassemblyBuf}
    (sound : Sound b) : SoundStreams (streams.insert h.streamId b) where
  few := by
    have bound := ok.few
    cases home with
    | known found total => rw [sizeInsertPresent b (memOfLookup found)]; exact bound
    | opened absent room => rw [sizeInsertAbsent b (AList.lookup_eq_none.mp absent)]; exact room
  each := by
    intro id other found
    by_cases same : id = h.streamId
    · subst same
      rw [AList.lookup_insert] at found
      cases found
      exact sound
    · rw [AList.lookup_insert_ne same] at found
      exact ok.each id other found

theorem absorbsSound (ok : SoundStreams streams) (fits : h.total < 256 ^ 2)
    (a : Absorbs now flags h f streams outcome after) : SoundStreams after := by
  cases a with
  | invalid _ => exact ok
  | mismatch _ _ => exact eraseSound ok _
  | refused _ _ _ => exact ok
  | oversized _ _ => exact eraseSound ok _
  | completed _ _ _ _ => exact eraseSound ok _
  | @buffered buf valid home small incomplete =>
    obtain ⟨consistent, total⟩ := homeConsistent ok home valid fits
    have inside := total ▸ valid
    have different : size (buf.put h.sequence f).fragments ≠ buf.total :=
      fun same => incomplete (decide_eq_true same)
    have short := putSizeLe (f := f) consistent inside
    exact insertSound ok home ⟨putConsistent consistent inside, putStarted,
      Nat.lt_of_le_of_ne short different, small⟩

theorem absorbsOutcome (ok : SoundStreams streams) (fits : h.total < 256 ^ 2)
    (a : Absorbs now flags h f streams outcome after) :
    outcome ≠ .error .keyError ∧
      ∀ out payload, outcome = .ok (some (out, payload)) → payload.length ≤ maxPayload := by
  cases a with
  | invalid _ | mismatch _ _ | refused _ _ _ | oversized _ _ | buffered _ _ _ _ => exact ⟨nofun, nofun⟩
  | @completed buf valid home small complete =>
    obtain ⟨consistent, total⟩ := homeConsistent ok home valid fits
    obtain ⟨whole, made, long⟩ := reassembleFull (putConsistent consistent (total ▸ valid)) complete
    rw [made]
    refine ⟨nofun, fun out payload same => ?_⟩
    cases same
    have bounded : (buf.put h.sequence f).bufferedBytes ≤ maxPayload := small
    omega

theorem absorbSound (ok : SoundStreams streams) (now : Time) (connection flags : Nat) (payload : Bytes) :
    SoundStreams (absorbFragment now connection flags payload streams).2 ∧
    (absorbFragment now connection flags payload streams).1 ≠ .error .keyError ∧
    ∀ out whole, (absorbFragment now connection flags payload streams).1 = .ok (some (out, whole)) →
      whole.length ≤ maxPayload := by
  cases parsed : parseFragHeader payload with
  | none => simpa [absorbFragment, parsed, headerTooShort] using ok
  | some h =>
    have absorbed : Absorbs now flags h ⟨payload.drop fragHeaderSize, connection⟩ streams _ _ := absorbCases parsed
    have fits := (fragHeaderFits parsed).1
    exact ⟨absorbsSound ok fits absorbed, absorbsOutcome ok fits absorbed⟩

theorem pruneSound (ok : SoundStreams streams) (now : Time) : SoundStreams (pruneReassembly now streams) where
  few := Nat.le_trans (sizeSweepLe _ _) ok.few
  each := fun id b found => ok.each id b (prunedLookup.mp found).1

end Streams

section Runs
variable {x : Externals} {codec : Codec} {c after : VynkorClient} {clock : Arrival} {inbox : Inbox}

theorem turnSound {outcome : Except (Halt Error) (Option (Nat × Bytes))} (ok : SoundStreams c.reassembly)
    (turn : Session.Turns x c clock inbox outcome after) :
    SoundStreams after.reassembly ∧
      ∀ flags payload, outcome = .ok (some (flags, payload)) → payload.length ≤ maxPayload := by
  have pruned := pruneSound ok clock.prunedAt
  cases turn with
  | stopped read => exact ⟨pruned, nofun⟩
  | plain read whole =>
    refine ⟨pruned, fun flags payload same => ?_⟩
    cases same
    obtain ⟨f, -, delivered⟩ := Session.nextFrameReads read
    obtain ⟨plain, normal, -, same⟩ := Frame.deliverExact.mp delivered
    cases same
    exact (normalizeExact f.targetFit f.flagsFit f.bodyFit normal).2.1
  | @fragment flags payload rest got streams read part absorbed =>
    have sound := absorbSound pruned clock.arrivedAt c.connection flags payload
    rw [absorbed] at sound
    refine ⟨sound.1, fun out whole same => ?_⟩
    cases got with
    | error e => simp [Except.mapError] at same
    | ok value =>
      simp only [Except.mapError, Except.ok.injEq] at same
      exact sound.2.2 out whole (by rw [same])

theorem stepSound {s t : Session} {op : Operation} {reports : List Report}
    (ok : SoundStreams s.client.reassembly) (move : s.step x codec op = some (t, reports)) :
    SoundStreams t.client.reassembly := by
  have client := Session.stepClient move
  generalize t.client = after at client ⊢
  cases client with
  | connected => exact ok
  | kept _ _ same => rw [same]; exact ok
  | pruned => exact pruneSound ok _
  | turned turn => exact (turnSound ok turn).1
  | keyed waiting turn decoded derived => exact (turnSound ok turn).1

/- Along a run of a fresh client the table is sound, so the conditions on its steps
may be exchanged under that invariant. -/
theorem soundRuns {Meets Other : Session → Operation → Prop} (fresh : c.reassembly = ∅)
    (meets : ∀ s op, SoundStreams s.client.reassembly → Meets s op → Other s op)
    {operations : List Operation} {reports : List Report} {s : Session}
    (run : Runs (Session.machine x codec) Meets (.start c) operations reports s) :
    SoundStreams s.client.reassembly ∧
      Runs (Session.machine x codec) Other (.start c) operations reports s := by
  have base : SoundStreams (Session.start c).client.reassembly := by
    simp only [Session.start, fresh]
    exact soundEmpty
  have keep (events : List Report) (s : Session) (op : Operation) (t : Session) (emitted : List Report)
      (ok : SoundStreams s.client.reassembly) (_ : Meets s op)
      (move : (Session.machine x codec).step s op = some (t, emitted)) : SoundStreams t.client.reassembly :=
    stepSound ok move
  exact ⟨runsKeep (fun _ s => SoundStreams s.client.reassembly) base keep run,
    runsStrengthen (fun _ s => SoundStreams s.client.reassembly) base keep (fun _ => meets) run⟩

/- The invariant over whole runs, with what follows from it for the next frame. -/
theorem reassemblyInvariant (x : Externals) (codec : Codec) (c : VynkorClient) (fresh : c.reassembly = ∅)
    {operations : List Operation} {reports : List Report} {s : Session}
    (run : Runs (Session.machine x codec) Always (.start c) operations reports s) :
    SoundStreams s.client.reassembly ∧
    (∀ now connection flags payload,
      (absorbFragment now connection flags payload s.client.reassembly).1 ≠ .error .keyError ∧
      ∀ h, parseFragHeader payload = some h → ∀ other, other ≠ h.streamId →
        (absorbFragment now connection flags payload s.client.reassembly).2.lookup other =
          s.client.reassembly.lookup other) ∧
    ∀ clock inbox flags payload, (s.client.recvTurn x clock inbox).1 = .ok (some (flags, payload)) →
      payload.length ≤ maxPayload := by
  have sound := (soundRuns fresh (fun _ _ _ _ => trivial : ∀ s op, _ → _ → Always s op) run).1
  refine ⟨sound, fun now connection flags payload => ⟨(absorbSound sound _ _ _ _).2.1, ?_⟩, ?_⟩
  · intro h parsed other apart
    exact absorbsApart (absorbCases parsed) apart
  · intro clock inbox flags payload got
    exact (turnSound sound (Session.turnCases rfl)).2 flags payload got

end Runs

def samplePlan : FragmentPlan := ⟨lit "kernel", ascii "abcd", 2, 2, 1, 0⟩

def sampleCodec : Codec := ⟨fun _ => [], fun _ => .ok ⟨none⟩⟩

def sampleFragment (seq : Nat) : Bytes :=
  (samplePlan.fragment seq >>= fun payload =>
    packFrame sampleExternals samplePlan.target payload flagFragmented none true).toOption.getD []

def sampleHalf : Option (Session × List Report) :=
  (Session.machine sampleExternals sampleCodec).run (.start (.connectWithSecret none))
    [.recvFrame ⟨0, 1⟩ ⟨sampleFragment 1, []⟩]

theorem sampleHalfRuns : sampleHalf.isSome := by decide +kernel

theorem reassemblyInvariantSample :
    SoundStreams (sampleHalf.get sampleHalfRuns).1.client.reassembly ∧
      (sampleHalf.get sampleHalfRuns).1.client.reassembly.keys = [1] := by
  have run : sampleHalf = some (sampleHalf.get sampleHalfRuns) := (Option.some_get _).symm
  exact ⟨(reassemblyInvariant sampleExternals sampleCodec (.connectWithSecret none) rfl (runsOfRun run)).1,
    by decide +kernel⟩

end Vynkor.Reassembly
