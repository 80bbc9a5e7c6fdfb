import Mathlib.Algebra.Order.Floor.Div
import Vynkor.Fragmentation

/-! One `send_fragmented` call from its checks to its last frame: what it refuses,
what it writes otherwise, and that it leaves the stream ids in their range. -/
namespace Vynkor
open Octets (Bytes)
open Text Framing Reassembly ExactReader Labelled

namespace VynkorClient
section Call
variable (x : Externals)

/- The loop of `send_fragmented`, over the sequence numbers still to send; `faults`
is what the transport raised at each of them. -/
def sendFragments (c : VynkorClient) (p : FragmentPlan) (faults : Nat → Option Str) :
    List Nat → List Bytes × Except Error Unit
  | [] => ([], .ok ())
  | seq :: later =>
    match p.fragment seq with
    | .error e => ([], .error e)
    | .ok payload =>
      match c.sendRawWithFlags x p.target flagFragmented payload (faults seq) with
      | (written, .error e) => (written, .error e)
      | (written, .ok ()) =>
        let (others, outcome) := sendFragments c p faults later
        (written ++ others, outcome)

def sendFragmented (c : VynkorClient) (target : Str) (payload : Bytes) (chunkSize : Int)
    (faults : Nat → Option Str) : (List Bytes × Except Error Unit) × VynkorClient :=
  match c.beginFragmented target payload chunkSize with
  | .error e => (([], .error e), c)
  | .ok (plan, after) => (after.sendFragments x plan faults (List.range plan.total), after)

end Call
end VynkorClient

def Refused (payload : Bytes) (chunkSize : Int) : Prop :=
  maxPayload < payload.length ∨ ¬ (1 ≤ chunkSize ∧ chunkSize ≤ maxPayload - fragHeaderSize) ∨
    65535 < payload.length ⌈/⌉ chunkSize.toNat

structure Fragments (x : Externals) (sessionKey : Option Bytes) (target : Str) (streamId : Nat) (payload : Bytes)
    (size : Nat) (chunks frames : List Bytes) : Prop where
  count : frames.length = max 1 (payload.length ⌈/⌉ size)
  paired : chunks.length = frames.length
  tiles : chunks.flatten = payload
  short : ∀ chunk ∈ chunks, chunk.length ≤ size
  packed : ∀ seq < frames.length, ∃ header chunk frame,
    packFragHeader ⟨streamId &&& 0xFFFF, seq, frames.length, streamId⟩ = .ok header ∧
      chunks[seq]? = some chunk ∧ frames[seq]? = some frame ∧
      packFrame x target (header ++ chunk) flagFragmented sessionKey true = .ok frame

/- What is documented to be refused is refused, as if the call had not been made, and of
anything else all the frames are written. -/
structure AllOrNothing (x : Externals) (c : VynkorClient) (target : Str) (payload : Bytes) (chunkSize : Int) : Prop where
  refuses : (∃ e, e.isVynkorError = true ∧
    c.sendFragmented x target payload chunkSize (fun _ => none) = (([], .error e), c)) ↔ Refused payload chunkSize
  writes : ¬ Refused payload chunkSize → ∃ chunks frames,
    (c.sendFragmented x target payload chunkSize fun _ => none).1 = (frames, .ok ()) ∧
      Fragments x c.sessionKey target c.nextStreamId payload chunkSize.toNat chunks frames

section Counting
variable {payload : Bytes} {chunkSize : Int}

theorem fragmentCountCeil (payload : Bytes) (positive : 0 < chunkSize) :
    VynkorClient.fragmentCount payload chunkSize = (max 1 (payload.length ⌈/⌉ chunkSize.toNat) : Nat) := by
  obtain ⟨size, rfl⟩ := Int.eq_ofNat_of_zero_le (Int.le_of_lt positive)
  have width : 0 < size := Int.natCast_pos.mp positive
  have ceil : -(-(payload.length : Int) / size) = (payload.length ⌈/⌉ size : Nat) := by
    refine eq_of_forall_ge_iff fun bound => ?_
    rw [neg_le, Int.le_ediv_iff_mul_le positive, Int.neg_mul, Int.neg_le_neg_iff]
    cases bound with
    | ofNat bound =>
      rw [Int.ofNat_eq_natCast, Int.ofNat_le, ceilDiv_le_iff_le_mul width, Nat.mul_comm]
      exact_mod_cast Iff.rfl
    | negSucc bound =>
      have below : Int.negSucc bound * size < 0 := Int.mul_neg_of_neg_of_pos (Int.negSucc_lt_zero _) positive
      have negative := Int.negSucc_lt_zero bound
      omega
  rw [VynkorClient.fragmentCount, Int.toNat_natCast, ceil]
  rw [Nat.cast_max, Nat.cast_one]

theorem sizedRefused : Sized payload chunkSize ↔ ¬ Refused payload chunkSize := by
  have room : (maxPayload : Int) = 1048576 ∧ (fragHeaderSize : Int) = 10 := ⟨rfl, rfl⟩
  constructor
  · rintro ⟨fits, positive, chunk, few⟩ (big | outside | many)
    · exact Nat.not_lt.mpr fits big
    · omega
    · rw [fragmentCountCeil payload positive] at few
      omega
  · intro accepted
    simp only [Refused, not_or, Classical.not_not, Nat.not_lt] at accepted
    obtain ⟨fits, ⟨positive, chunk⟩, few⟩ := accepted
    refine ⟨fits, positive, by omega, ?_⟩
    rw [fragmentCountCeil payload positive]
    omega

theorem beginRefused {c : VynkorClient} (target : Str) (uds : c.transport = .uds) (refused : Refused payload chunkSize) :
    ∃ e, e.isVynkorError = true ∧ c.beginFragmented target payload chunkSize = .error e := by
  have notWs : ¬ c.transport = .ws := by rw [uds]; nofun
  have unsized : ¬ Sized payload chunkSize := fun sized => sizedRefused.mp sized refused
  unfold VynkorClient.beginFragmented
  rw [if_neg notWs]
  split
  · exact ⟨_, rfl, rfl⟩
  · rename_i fits
    split
    · exact ⟨_, rfl, rfl⟩
    · rename_i chunk
      split
      · exact ⟨_, rfl, rfl⟩
      · rename_i few
        exact absurd ⟨by omega, by omega, by omega, by omega⟩ unsized

end Counting

section Loop
variable {x : Externals} {codec : Codec} {c : VynkorClient} {p : FragmentPlan} {target : Str} {payload : Bytes}
  {chunkSize : Int}

theorem loopSends (uds : c.transport = .uds) (connected : c.streams = true) (planned : Planned p)
    (encodable : Encodable p.target) {seqs : List Nat} (inside : ∀ seq ∈ seqs, seq < p.total) :
    ∃ frames, c.sendFragments x p (fun _ => none) seqs = (frames, .ok ()) ∧
      List.Forall₂ (fun seq frame => (p.message c.sessionKey seq).pack x = .ok frame) seqs frames := by
  induction seqs with
  | nil => exact ⟨[], rfl, .nil⟩
  | cons seq later ih =>
    obtain ⟨raw, packed⟩ := fragmentPacks (x := x) planned encodable c.sessionKey seq
    obtain ⟨others, sent, rest⟩ := ih fun next member => inside next (List.mem_cons_of_mem _ member)
    refine ⟨raw :: others, ?_, .cons packed rest⟩
    have first : c.sendRawWithFlags x p.target flagFragmented (p.headerBytes seq ++ p.chunk seq) none =
        ([raw], .ok ()) := sendsFragment uds connected packed
    simp only [VynkorClient.sendFragments, fragmentPacked planned (inside seq List.mem_cons_self), first, sent,
      List.singleton_append]

theorem loopStops (uds : c.transport = .uds) (planned : Planned p) (lone : ¬ Encodable p.target) :
    c.sendFragments x p (fun _ => none) (List.range p.total) = ([], .error .unicodeEncode) := by
  obtain ⟨rest, total⟩ := Nat.exists_eq_add_of_le' planned.totalPositive
  have fails : (p.message c.sessionKey 0).pack x = .error .unicodeEncode := by
    rcases messagePacked (x := x) (fragmentMessageValid planned c.sessionKey 0) with ⟨fails, -⟩ | ⟨_, _, -, encodable, -⟩
    · exact fails
    · exact absurd encodable lone
  have first : c.sendRawWithFlags x p.target flagFragmented (p.headerBytes 0 ++ p.chunk 0) none =
      ([], .error .unicodeEncode) := by
    unfold Message.pack at fails
    simp only [FragmentPlan.message] at fails
    simp only [VynkorClient.sendRawWithFlags, uds, VynkorClient.sendUds, fails]
  rw [total, List.range_succ_eq_map, VynkorClient.sendFragments, fragmentPacked planned (by omega)]
  simp only [first]

theorem planFragments (planned : Planned p) {sessionKey : Option Bytes} {frames : List Bytes}
    (total : p.total = max 1 (p.payload.length ⌈/⌉ p.chunkSize))
    (packed : List.Forall₂ (fun seq frame => (p.message sessionKey seq).pack x = .ok frame) (List.range p.total) frames) :
    Fragments x sessionKey p.target p.streamId p.payload p.chunkSize ((List.range p.total).map p.chunk) frames := by
  have length : p.total = frames.length := by simpa using packed.length_eq
  refine ⟨length.symm.trans total, by simp [length], ?_, ?_, ?_⟩
  · rw [← List.flatMap_def]
    exact chunkTiles planned
  · intro chunk member
    obtain ⟨seq, -, rfl⟩ := List.mem_map.mp member
    exact chunkLength p seq
  · intro seq inside
    have early : seq < p.total := length ▸ inside
    have made := packed.get (i := seq) (by simpa using early) inside
    refine ⟨p.headerBytes seq, p.chunk seq, frames[seq], ?_, by simp [early], by simp [inside], ?_⟩
    · rw [← length, packFragHeader, if_pos (headerFits planned early)]
      rfl
    · simpa [Message.pack, FragmentPlan.message] using made

theorem reachedIdInRange (reached : Reached x codec c) : 1 ≤ c.nextStreamId ∧ c.nextStreamId < 2 ^ 32 := by
  obtain ⟨earlier, here⟩ := reachedStreamId reached
  rw [here]
  exact ⟨by rw [streamIdAtMod]; omega, streamIdFits earlier⟩

theorem beginReached (reached : Reached x codec c) {plan : FragmentPlan} {after : VynkorClient}
    (begun : c.beginFragmented target payload chunkSize = .ok (plan, after)) : Reached x codec after := by
  obtain ⟨built, operations, reports, s, first, run, rfl⟩ := reached
  have move : (Session.machine x codec).step s (.beginFragmented target payload chunkSize) =
      some ({ s with client := after, inFlight := s.inFlight ++ [plan] }, []) := by
    simp only [Session.machine, Session.step, begun]
  exact ⟨built, _, _, _, first, .next run trivial move, rfl⟩

theorem sendFragmentedReached (reached : Reached x codec c) (target : Str) (payload : Bytes) (chunkSize : Int)
    (faults : Nat → Option Str) :
    Reached x codec (c.sendFragmented x target payload chunkSize faults).2 := by
  unfold VynkorClient.sendFragmented
  split
  · exact reached
  · rename_i plan after begun
    exact beginReached reached begun

end Loop

def FragmentPlan.returned (p : FragmentPlan) : FragmentPlan := { p with next := p.total }

section Uninterrupted
variable {x : Externals} {codec : Codec} {c : VynkorClient} {p : FragmentPlan} {s : Session}

theorem sendFragmentsNext (p : FragmentPlan) (next : Nat) (faults : Nat → Option Str) (seqs : List Nat) :
    c.sendFragments x { p with next := next } faults seqs = c.sendFragments x p faults seqs := by
  induction seqs with
  | nil => rfl
  | cons seq later ih =>
    have same : FragmentPlan.fragment { p with next := next } seq = p.fragment seq := rfl
    simp only [VynkorClient.sendFragments, same, ih]

theorem sendFragmentsCons {faults : Nat → Option Str} {seq : Nat} {later : List Nat} {frames : List Bytes}
    (sent : c.sendFragments x p faults (seq :: later) = (frames, .ok ())) :
    ∃ payload written others, p.fragment seq = .ok payload ∧
      c.sendRawWithFlags x p.target flagFragmented payload (faults seq) = (written, .ok ()) ∧
      c.sendFragments x p faults later = (others, .ok ()) ∧ frames = written ++ others := by
  unfold VynkorClient.sendFragments at sent
  cases packed : p.fragment seq with
  | error e => simp [packed] at sent
  | ok payload =>
    simp only [packed] at sent
    rcases wrote : c.sendRawWithFlags x p.target flagFragmented payload (faults seq) with ⟨written, e | ⟨⟩⟩
    · simp [wrote] at sent
    · rcases rest : c.sendFragments x p faults later with ⟨others, outcome⟩
      simp only [wrote, rest, Prod.mk.injEq] at sent
      obtain ⟨rfl, rfl⟩ := sent
      exact ⟨payload, written, others, rfl, wrote, rfl, rfl⟩

theorem loopRuns {call left : Nat} {frames : List Bytes} (found : s.inFlight[call]? = some p)
    (remaining : p.next + left = p.total)
    (sent : s.client.sendFragments x p (fun _ => none) (List.range' p.next left) = (frames, .ok ())) :
    ∃ t reports, Runs (Session.machine x codec) Fragmenting s (List.replicate left (.sendFragment call none)) reports t ∧
      reports.filterMap Report.written = frames ∧
      t = { s with inFlight := s.inFlight.set call p.returned } := by
  induction left generalizing s p frames with
  | zero =>
    cases sent
    obtain ⟨short, here⟩ := List.getElem?_eq_some_iff.mp found
    have same : p.returned = s.inFlight[call] := by
      rw [here]
      cases p
      exact congrArg (FragmentPlan.mk _ _ _ _ _) remaining.symm
    exact ⟨s, [], .idle, rfl, by rw [same, List.set_getElem_self]⟩
  | succ left ih =>
    obtain ⟨payload, written, others, packed, wrote, rest, rfl⟩ := sendFragmentsCons sent
    obtain ⟨short, -⟩ := List.getElem?_eq_some_iff.mp found
    have move : (Session.machine x codec).step s (.sendFragment call none) =
        some ({ s with inFlight := s.inFlight.set call { p with next := p.next + 1 } },
          Session.sendReports (.fragment p.streamId p.next) (written, .ok ())) := by
      have inside : p.next < p.total := by omega
      simp only [Session.machine, Session.step, Session.sendFragment, found, if_pos inside, packed, wrote]
    rw [← sendFragmentsNext p (p.next + 1)] at rest
    obtain ⟨t, reports, run, shown, finished⟩ := ih (s := { s with inFlight := s.inFlight.set call _ })
      (List.getElem?_set_self short) (by show p.next + 1 + left = p.total; omega) rest
    have meets : Fragmenting s (.sendFragment call none) := rfl
    refine ⟨t, _, runsAppend (.next .idle meets move) run, ?_, by rw [finished, List.set_set]; rfl⟩
    rw [List.filterMap_append, shown]
    congr 1
    simp [Session.sendReports, List.filterMap_map, Function.comp_def, Report.written]

theorem sendFragmentedRuns {target : Str} {payload : Bytes} {chunkSize : Int} {frames : List Bytes}
    {after : VynkorClient} (accepted : Accepted target payload chunkSize)
    (sent : s.client.sendFragmented x target payload chunkSize (fun _ => none) = ((frames, .ok ()), after)) :
    ∃ (plan : FragmentPlan) (t : Session) (reports : List Report), Runs (Session.machine x codec) Fragmenting s
      (.beginFragmented target payload chunkSize :: List.replicate plan.total (.sendFragment s.inFlight.length none))
        reports t ∧ reports.filterMap Report.written = frames ∧
      t = { s with client := after, inFlight := s.inFlight ++ [plan.returned] } := by
  unfold VynkorClient.sendFragmented at sent
  cases begun : s.client.beginFragmented target payload chunkSize with
  | error e => simp [begun] at sent
  | ok plan =>
    obtain ⟨p, c⟩ := plan
    simp only [begun, Prod.mk.injEq] at sent
    obtain ⟨sent, rfl⟩ := sent
    have move : (Session.machine x codec).step s (.beginFragmented target payload chunkSize) =
        some ({ s with client := c, inFlight := s.inFlight ++ [p] }, []) := by
      simp only [Session.machine, Session.step, begun]
    have first : p.next = 0 := by rw [(beginTakes begun).1]
    have found : (s.inFlight ++ [p])[s.inFlight.length]? = some p := by simp
    rw [List.range_eq_range', ← first] at sent
    obtain ⟨t, reports, run, shown, finished⟩ := loopRuns
      (s := { s with client := c, inFlight := s.inFlight ++ [p] }) found (by omega) sent
    have meets : Fragmenting s (.beginFragmented target payload chunkSize) := accepted
    exact ⟨p, t, _, runsAppend (.next .idle meets move) run, shown, by rw [finished]; simp⟩

end Uninterrupted

section Calls
variable {x : Externals} {codec : Codec} {c : VynkorClient} {target : Str} {payload : Bytes} {chunkSize : Int}

theorem acceptedSends (uds : c.transport = .uds) (connected : c.streams = true) (stream : c.nextStreamId < 2 ^ 32)
    (kept : ¬ Refused payload chunkSize) (encodable : Encodable target) : ∃ chunks frames,
      (c.sendFragmented x target payload chunkSize fun _ => none).1 = (frames, .ok ()) ∧
        Fragments x c.sessionKey target c.nextStreamId payload chunkSize.toNat chunks frames := by
  have sized := sizedRefused.mpr kept
  have planned := planOfPlanned target sized stream
  obtain ⟨frames, sends, packed⟩ := loopSends (x := x)
    (c := { c with nextStreamId := VynkorClient.followingStreamId c.nextStreamId }) uds connected planned encodable
    fun seq member => List.mem_range.mp member
  have total := congrArg Int.toNat (fragmentCountCeil payload sized.chunkPositive)
  refine ⟨_, frames, ?_, planFragments planned total packed⟩
  simp only [VynkorClient.sendFragmented, beginSized target uds sized]
  exact sends

theorem surrogateStops (uds : c.transport = .uds) (stream : c.nextStreamId < 2 ^ 32) (kept : ¬ Refused payload chunkSize)
    (lone : ¬ Encodable target) : c.sendFragmented x target payload chunkSize (fun _ => none) =
      (([], .error .unicodeEncode), { c with nextStreamId := VynkorClient.followingStreamId c.nextStreamId }) := by
  have sized := sizedRefused.mpr kept
  have planned := planOfPlanned target sized stream
  have stops := loopStops (x := x) (c := { c with nextStreamId := VynkorClient.followingStreamId c.nextStreamId }) uds
    planned lone
  simp only [VynkorClient.sendFragmented, beginSized target uds sized]
  exact congrArg (·, _) stops

/- The call is all or nothing exactly where the target has a UTF-8 encoding or the
arguments are refused. Elsewhere nothing is written, and the stream id is taken. -/
theorem sendFragmentedWhole (reached : Reached x codec c) (uds : c.transport = .uds) (connected : c.streams = true)
    (target : Str) (payload : Bytes) (chunkSize : Int) :
    let sent := c.sendFragmented x target payload chunkSize fun _ => none
    (AllOrNothing x c target payload chunkSize ↔ Encodable target ∨ Refused payload chunkSize) ∧
      ((∃ e, e.isVynkorError = true ∧ sent = (([], .error e), c)) ↔ Refused payload chunkSize) ∧
      (¬ Refused payload chunkSize → ¬ Encodable target →
        sent = (([], .error .unicodeEncode), { c with nextStreamId := VynkorClient.followingStreamId c.nextStreamId })) ∧
      (1 ≤ c.nextStreamId ∧ c.nextStreamId < 2 ^ 32) ∧
      1 ≤ sent.2.nextStreamId ∧ sent.2.nextStreamId < 2 ^ 32 := by
  have range := reachedIdInRange reached
  have after := reachedIdInRange (sendFragmentedReached reached target payload chunkSize fun _ => none)
  have stops (kept : ¬ Refused payload chunkSize) (lone : ¬ Encodable target) :=
    surrogateStops (x := x) uds range.2 kept lone
  have refuses : (∃ e, e.isVynkorError = true ∧
      c.sendFragmented x target payload chunkSize (fun _ => none) = (([], .error e), c)) ↔ Refused payload chunkSize := by
    constructor
    · rintro ⟨e, vynkor, raised⟩
      by_contra kept
      by_cases encodable : Encodable target
      · obtain ⟨chunks, frames, sent, -⟩ := acceptedSends (x := x) uds connected range.2 kept encodable
        rw [raised] at sent
        cases sent
      · rw [stops kept encodable] at raised
        have same : Except.error Error.unicodeEncode = (.error e : Except Error Unit) := congrArg (·.1.2) raised
        cases same
        contradiction
    · intro refused
      obtain ⟨e, vynkor, begun⟩ := beginRefused target uds refused
      exact ⟨e, vynkor, by simp only [VynkorClient.sendFragmented, begun]⟩
  refine ⟨⟨fun whole => ?_, fun fine => ⟨refuses, fun kept => ?_⟩⟩, refuses, stops, range, after⟩
  · by_contra neither
    obtain ⟨lone, kept⟩ := not_or.mp neither
    obtain ⟨chunks, frames, sent, -⟩ := whole.writes kept
    rw [stops kept lone] at sent
    cases sent
  · exact acceptedSends uds connected range.2 kept (fine.resolve_right kept)

end Calls

theorem connectedReached (x : Externals) (codec : Codec) (secret : Option Bytes) :
    Reached x codec (.connectWithSecret secret) :=
  ⟨.connectWithSecret secret, [], [], _, rfl, .idle, rfl⟩

theorem sendFragmentedWholeSample :
    AllOrNothing sampleExternals (.connectWithSecret none) (lit "kernel") (ascii "abcde") 2 :=
  (sendFragmentedWhole (connectedReached sampleExternals ⟨fun _ => [], fun _ => .ok ⟨none⟩⟩ none) rfl rfl (lit "kernel")
    (ascii "abcde") 2).1.mpr (.inl (litEncodable _))

/- A target without UTF-8 is neither refused by the checks nor sent: the encoding
fails at the first frame, when the stream id is taken. -/
theorem surrogateFragmented : ¬ ∀ (x : Externals) (codec : Codec) (c : VynkorClient), Reached x codec c →
    c.transport = .uds → c.streams = true → ∀ (target : Str) (payload : Bytes) (chunkSize : Int),
      AllOrNothing x c target payload chunkSize := by
  intro claim
  have stopped : ((VynkorClient.connectWithSecret none).sendFragmented sampleExternals [.surrogate 0] [] 1
      fun _ => none).1 = ([], .error .unicodeEncode) := by decide +kernel
  have whole := claim sampleExternals ⟨fun _ => [], fun _ => .ok ⟨none⟩⟩ _ (connectedReached _ _ none) rfl rfl
    [.surrogate 0] [] 1
  obtain ⟨chunks, frames, sent, -⟩ := whole.writes (sizedRefused.mp ⟨by decide, by decide, by decide, by decide⟩)
  rw [stopped] at sent
  cases sent

end Vynkor
