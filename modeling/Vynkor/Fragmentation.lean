import Vynkor.FrameRoundTrip
import Vynkor.Session

/-! `send_fragmented` from the checks to the frames: the bounds a plan carries, the
slices that tile its payload, the stream ids, and what any interleaving of calls
with each other and with plain sends has written. -/
namespace Vynkor
open Octets (Bytes field be)
open Text Framing Reassembly ExactReader Labelled

structure Planned (p : FragmentPlan) : Prop where
  payloadFits : p.payload.length ≤ maxPayload
  chunkFits : p.chunkSize + fragHeaderSize ≤ maxPayload
  totalPositive : 1 ≤ p.total
  totalFits : p.total ≤ 65535
  covered : p.payload.length ≤ p.total * p.chunkSize
  streamFits : p.streamId < 2 ^ 32

namespace FragmentPlan

def header (p : FragmentPlan) (seq : Nat) : FragHeader := ⟨p.streamId &&& 0xFFFF, seq, p.total, p.streamId⟩

def headerBytes (p : FragmentPlan) (seq : Nat) : Bytes :=
  be 2 (p.streamId &&& 0xFFFF) ++ be 2 seq ++ be 2 p.total ++ be 4 p.streamId

def message (p : FragmentPlan) (sessionKey : Option Bytes) (seq : Nat) : Message :=
  ⟨p.target, p.headerBytes seq ++ p.chunk seq, flagFragmented, sessionKey, true⟩

end FragmentPlan

section Plans
variable {p : FragmentPlan}

theorem chunkTiles (planned : Planned p) : (List.range p.total).flatMap p.chunk = p.payload := by
  have tiled := Octets.fieldTiles p.chunkSize p.total p.payload
  rwa [Octets.fieldWhole planned.covered] at tiled

theorem headerBytesLength (p : FragmentPlan) (seq : Nat) : (p.headerBytes seq).length = fragHeaderSize := by
  simp [FragmentPlan.headerBytes, fragHeaderSize]

theorem chunkLength (p : FragmentPlan) (seq : Nat) : (p.chunk seq).length ≤ p.chunkSize := by
  rw [FragmentPlan.chunk, List.length_take]
  exact Nat.min_le_left _ _

theorem headerFits (planned : Planned p) {seq : Nat} (inside : seq < p.total) :
    p.streamId &&& 0xFFFF < 256 ^ 2 ∧ seq < 256 ^ 2 ∧ p.total < 256 ^ 2 ∧ p.streamId < 256 ^ 4 := by
  have low : p.streamId &&& 0xFFFF ≤ 0xFFFF := Nat.and_le_right
  have total := planned.totalFits
  have stream := planned.streamFits
  omega

theorem fragmentPacked (planned : Planned p) {seq : Nat} (inside : seq < p.total) :
    p.fragment seq = .ok (p.headerBytes seq ++ p.chunk seq) := by
  rw [FragmentPlan.fragment, packFragHeader, if_pos (headerFits planned inside)]
  rfl

theorem fragmentParsed (planned : Planned p) {seq : Nat} (inside : seq < p.total) :
    parseFragHeader (p.headerBytes seq ++ p.chunk seq) = some (p.header seq) := by
  obtain ⟨idFits, seqFits, totalFits, streamFits⟩ := headerFits planned inside
  have long : ¬ (p.headerBytes seq ++ p.chunk seq).length < fragHeaderSize := by
    rw [List.length_append, headerBytesLength]
    omega
  have f1 : (be 2 (p.streamId &&& 0xFFFF)).length = 2 := Octets.beLength _ _
  have f2 : (be 2 (p.streamId &&& 0xFFFF) ++ be 2 seq).length = 4 := by simp
  have f3 : (be 2 (p.streamId &&& 0xFFFF) ++ be 2 seq ++ be 2 p.total).length = 6 := by simp
  have idAt := Octets.fieldFront (be 2 (p.streamId &&& 0xFFFF))
    (be 2 seq ++ (be 2 p.total ++ (be 4 p.streamId ++ p.chunk seq))) f1
  have seqAt := Octets.fieldAt _ (be 2 seq) (be 2 p.total ++ (be 4 p.streamId ++ p.chunk seq)) f1
    (Octets.beLength 2 seq)
  have totalAt := Octets.fieldAt _ (be 2 p.total) (be 4 p.streamId ++ p.chunk seq) f2 (Octets.beLength 2 p.total)
  have streamAt := Octets.fieldAt _ (be 4 p.streamId) (p.chunk seq) f3 (Octets.beLength 4 p.streamId)
  simp only [List.append_assoc] at totalAt streamAt
  rw [parseFragHeader, if_neg long, FragmentPlan.header]
  simp only [FragmentPlan.headerBytes, List.append_assoc, idAt, seqAt, totalAt, streamAt]
  rw [Octets.readBe idFits, Octets.readBe seqFits, Octets.readBe totalFits, Octets.readBe streamFits]

theorem fragmentMessageValid (planned : Planned p) (sessionKey : Option Bytes) (seq : Nat) :
    (p.message sessionKey seq).Valid where
  payloadFits := by
    have short := chunkLength p seq
    have room := planned.chunkFits
    simp only [FragmentPlan.message, List.length_append, headerBytesLength]
    omega
  flagsFit := show flagFragmented < 256 ^ 2 by decide
  uncompressed := show flagFragmented &&& flagCompressed = 0 by decide
  untagged := show flagFragmented &&& flagMacPresent = 0 by decide

end Plans

section Begin
variable {c : VynkorClient} {target : Str} {payload : Bytes} {chunkSize : Int}

structure Accepted (target : Str) (payload : Bytes) (chunkSize : Int) : Prop where
  target : Encodable target
  payloadFits : payload.length ≤ maxPayload
  chunkPositive : 0 < chunkSize
  chunkFits : chunkSize + fragHeaderSize ≤ maxPayload
  fewFragments : VynkorClient.fragmentCount payload chunkSize ≤ 0xFFFF

structure Sized (payload : Bytes) (chunkSize : Int) : Prop where
  payloadFits : payload.length ≤ maxPayload
  chunkPositive : 0 < chunkSize
  chunkFits : chunkSize + fragHeaderSize ≤ maxPayload
  fewFragments : VynkorClient.fragmentCount payload chunkSize ≤ 0xFFFF

theorem Accepted.sized (accepted : Accepted target payload chunkSize) : Sized payload chunkSize :=
  ⟨accepted.payloadFits, accepted.chunkPositive, accepted.chunkFits, accepted.fewFragments⟩

def planOf (streamId : Nat) (target : Str) (payload : Bytes) (chunkSize : Int) : FragmentPlan :=
  ⟨target, payload, chunkSize.toNat, (VynkorClient.fragmentCount payload chunkSize).toNat, streamId, 0⟩

theorem fragmentCountCovers (payload : Bytes) (positive : 0 < chunkSize) :
    1 ≤ VynkorClient.fragmentCount payload chunkSize ∧
      (payload.length : Int) ≤ VynkorClient.fragmentCount payload chunkSize * chunkSize := by
  have floor := Int.ediv_mul_le (-(payload.length : Int)) (Int.ne_of_gt positive)
  have ceil : (payload.length : Int) ≤ -(-(payload.length : Int) / chunkSize) * chunkSize := by
    rw [Int.neg_mul]
    omega
  have grows : -(-(payload.length : Int) / chunkSize) ≤ VynkorClient.fragmentCount payload chunkSize :=
    Int.le_max_right _ _
  exact ⟨Int.le_max_left _ _, Int.le_trans ceil (Int.mul_le_mul_of_nonneg_right grows (Int.le_of_lt positive))⟩

theorem beginSized (target : Str) (uds : c.transport = .uds) (sized : Sized payload chunkSize) :
    c.beginFragmented target payload chunkSize = .ok (planOf c.nextStreamId target payload chunkSize,
      { c with nextStreamId := VynkorClient.followingStreamId c.nextStreamId }) := by
  have notWs : ¬ c.transport = .ws := by rw [uds]; nofun
  have small : ¬ payload.length > maxPayload := Nat.not_lt.mpr sized.payloadFits
  have size : ¬ (chunkSize ≤ 0 ∨ chunkSize + fragHeaderSize > maxPayload) := by
    have positive := sized.chunkPositive
    have fits := sized.chunkFits
    omega
  have few : ¬ VynkorClient.fragmentCount payload chunkSize > 0xFFFF := Int.not_lt.mpr sized.fewFragments
  rw [VynkorClient.beginFragmented, if_neg notWs, if_neg small, if_neg size, if_neg few, planOf]

theorem planOfPlanned {streamId : Nat} (target : Str) (sized : Sized payload chunkSize) (stream : streamId < 2 ^ 32) :
    Planned (planOf streamId target payload chunkSize) := by
  obtain ⟨positive, covers⟩ := fragmentCountCovers payload sized.chunkPositive
  have few := sized.fewFragments
  have size := sized.chunkPositive
  have fits := sized.chunkFits
  have count : ((VynkorClient.fragmentCount payload chunkSize).toNat : Int) =
    VynkorClient.fragmentCount payload chunkSize := Int.toNat_of_nonneg (by omega)
  have width : (chunkSize.toNat : Int) = chunkSize := Int.toNat_of_nonneg (by omega)
  refine ⟨sized.payloadFits, ?_, ?_, ?_, ?_, stream⟩
  · simp only [planOf]; omega
  · simp only [planOf]; omega
  · simp only [planOf]; omega
  · have product : ((VynkorClient.fragmentCount payload chunkSize).toNat * chunkSize.toNat : Int) =
      VynkorClient.fragmentCount payload chunkSize * chunkSize := by rw [count, width]
    simp only [planOf]
    omega

def streamIdAt (calls : Nat) : Nat := VynkorClient.followingStreamId^[calls] 1

theorem followingStreamIdStep {streamId : Nat} (positive : 1 ≤ streamId) (fits : streamId < 2 ^ 32) :
    VynkorClient.followingStreamId streamId = streamId % (2 ^ 32 - 1) + 1 := by
  have mask : (streamId + 1) &&& 0xFFFFFFFF = (streamId + 1) % 2 ^ 32 := Nat.and_two_pow_sub_one_eq_mod _ 32
  unfold VynkorClient.followingStreamId
  rw [mask]
  split <;> omega

theorem streamIdAtMod (calls : Nat) : streamIdAt calls = calls % (2 ^ 32 - 1) + 1 := by
  induction calls with
  | zero => rfl
  | succ calls ih =>
    rw [streamIdAt, Function.iterate_succ_apply', ← streamIdAt,
      followingStreamIdStep (by omega) (by omega), ih]
    omega

theorem streamIdFits (calls : Nat) : streamIdAt calls < 2 ^ 32 := by
  rw [streamIdAtMod]
  omega

theorem streamIdsDistinct {first a b : Nat} (ha : a < 2 ^ 32 - 1) (hb : b < 2 ^ 32 - 1)
    (same : streamIdAt (first + a) = streamIdAt (first + b)) : a = b := by
  rw [streamIdAtMod, streamIdAtMod] at same
  omega

end Begin

section Streams
variable {x : Externals} {codec : Codec} {c : VynkorClient} {s t : Session} {op : Operation} {reports : List Report}

def Reached (x : Externals) (codec : Codec) (c : VynkorClient) : Prop :=
  ∃ built operations reports s, built.nextStreamId = 1 ∧
    Runs (Session.machine x codec) Always (.start built) operations reports s ∧ s.client = c

theorem recvStreamId {clock : Arrival} {inbox : Inbox} {after : VynkorClient}
    (client : Session.ClientStep x codec s (.recvFrame clock inbox) after reports) :
    after.nextStreamId = s.client.nextStreamId := by
  cases client with
  | kept _ notRecv _ => exact absurd rfl (notRecv clock inbox)
  | turned turn => rw [Session.turnKeeps turn]
  | keyed _ turn _ _ =>
    have kept := Session.turnKeeps turn
    rw [kept]

theorem stepStreamId (move : s.step x codec op = some (t, reports)) :
    t.client.nextStreamId = s.client.nextStreamId ∨
      t.client.nextStreamId = VynkorClient.followingStreamId s.client.nextStreamId := by
  cases op with
  | connect | send _ _ _ _ | recvCancelled _ => cases move; exact .inl rfl
  | close =>
    cases move
    rw [closeKeeps]
    exact .inl rfl
  | beginFragmented target payload chunkSize =>
    simp only [Session.step] at move
    split at move
    · cases move; exact .inl rfl
    · rename_i plan after begun
      cases move
      rw [(beginTakes begun).2]
      exact .inr rfl
  | sendFragment call fault => exact .inl (by rw [(Session.sendFragmentKeeps move).1])
  | register r fault => exact .inl (by rw [Session.registerKeeps move])
  | recvFrame clock inbox => exact .inl (recvStreamId (Session.stepClient move))

theorem reachedStreamId (reached : Reached x codec c) : ∃ earlier, c.nextStreamId = streamIdAt earlier := by
  obtain ⟨built, operations, reports, s, first, run, rfl⟩ := reached
  refine runsKeep (fun _ s => ∃ earlier, s.client.nextStreamId = streamIdAt earlier) ⟨0, first⟩ ?_ run
  rintro _ s _ t _ ⟨earlier, here⟩ _ move
  rcases stepStreamId move with same | following
  · exact ⟨earlier, same.trans here⟩
  · refine ⟨earlier + 1, ?_⟩
    rw [following, here, streamIdAt, streamIdAt, Function.iterate_succ_apply']

end Streams

structure SentFragment where
  streamId : Nat
  sequence : Nat
  frame : Bytes
  deriving DecidableEq, Repr

def sentFragment : Report → Option SentFragment
  | .fragment streamId sequence frame => some ⟨streamId, sequence, frame⟩
  | _ => none

def fragmentsSent (reports : List Report) : List SentFragment := reports.filterMap sentFragment

def Fragmenting (_ : Session) : Operation → Prop
  | .beginFragmented target payload chunkSize => Accepted target payload chunkSize
  | .sendFragment _ fault => fault = none
  | .send .. => True
  | _ => False

structure Shipped (x : Externals) (sessionKey : Option Bytes) (count : FragmentPlan → Nat)
    (plans : List FragmentPlan) (sent : List SentFragment) : Prop where
  source : ∀ f ∈ sent, ∃ p ∈ plans, p.streamId = f.streamId ∧ f.sequence < count p ∧
    (p.message sessionKey f.sequence).pack x = .ok f.frame
  all : ∀ p ∈ plans, ∀ seq < count p, ∃ f ∈ sent, f.streamId = p.streamId ∧ f.sequence = seq
  once : (sent.map fun f => (f.streamId, f.sequence)).Nodup

def call : Operation → Option (Str × Bytes)
  | .beginFragmented target payload _ => some (target, payload)
  | _ => none

def planCall (p : FragmentPlan) : Str × Bytes := (p.target, p.payload)

structure SenderState (x : Externals) (c : VynkorClient) (earlier : Nat) (operations : List Operation)
    (reports : List Report) (s : Session) : Prop where
  calls : s.inFlight.map planCall = operations.filterMap call
  client : s.client = { c with nextStreamId := streamIdAt (earlier + s.inFlight.length) }
  ids : s.inFlight.map FragmentPlan.streamId =
    (List.range s.inFlight.length).map fun k => streamIdAt (earlier + k)
  planned : ∀ p ∈ s.inFlight, Planned p ∧ Encodable p.target ∧ p.next ≤ p.total
  shipped : s.inFlight.length < 2 ^ 32 - 1 → Shipped x c.sessionKey FragmentPlan.next s.inFlight (fragmentsSent reports)

section Sender
variable {x : Externals} {codec : Codec} {c : VynkorClient} {earlier : Nat} {s t : Session} {op : Operation}
  {operations : List Operation} {reports emitted : List Report}

theorem idsDistinct {plans : List FragmentPlan} (few : plans.length < 2 ^ 32 - 1)
    (ids : plans.map FragmentPlan.streamId = (List.range plans.length).map fun k => streamIdAt (earlier + k)) :
    (plans.map FragmentPlan.streamId).Nodup := by
  rw [ids]
  refine List.Nodup.map_on ?_ List.nodup_range
  intro a ha b hb same
  exact streamIdsDistinct (Nat.lt_trans (List.mem_range.mp ha) few) (Nat.lt_trans (List.mem_range.mp hb) few) same

theorem sendsFragment {target : Str} {flags : Nat} {payload raw : Bytes} (uds : c.transport = .uds)
    (connected : c.streams = true) (packed : packFrame x target payload flags c.sessionKey true = .ok raw) :
    c.sendRawWithFlags x target flags payload none = ([raw], .ok ()) := by
  simp only [VynkorClient.sendRawWithFlags, uds, VynkorClient.sendUds, packed, connected, if_true]

theorem fragmentPacks {p : FragmentPlan} (planned : Planned p) (encodable : Encodable p.target)
    (sessionKey : Option Bytes) (seq : Nat) : ∃ raw, (p.message sessionKey seq).pack x = .ok raw := by
  rcases messagePacked (x := x) (fragmentMessageValid planned sessionKey seq) with ⟨-, lone⟩ | ⟨t, f, packed, -⟩
  · exact absurd encodable lone
  · exact ⟨f.bytes, packed⟩

theorem shippedBegin {sessionKey : Option Bytes} {plans : List FragmentPlan} {sent : List SentFragment}
    (shipped : Shipped x sessionKey FragmentPlan.next plans sent) {p : FragmentPlan} (begun : p.next = 0) :
    Shipped x sessionKey FragmentPlan.next (plans ++ [p]) sent where
  source := by
    intro f member
    obtain ⟨q, inside, rest⟩ := shipped.source f member
    exact ⟨q, List.mem_append_left _ inside, rest⟩
  all := by
    intro q inside seq early
    rcases List.mem_append.mp inside with old | new
    · exact shipped.all q old seq early
    · rw [List.mem_singleton.mp new, begun] at early
      contradiction
  once := shipped.once

theorem shippedNext {sessionKey : Option Bytes} {before after : List FragmentPlan} {p : FragmentPlan}
    {sent : List SentFragment} {raw : Bytes}
    (shipped : Shipped x sessionKey FragmentPlan.next (before ++ p :: after) sent)
    (distinct : ((before ++ p :: after).map FragmentPlan.streamId).Nodup)
    (packed : (p.message sessionKey p.next).pack x = .ok raw) :
    Shipped x sessionKey FragmentPlan.next (before ++ { p with next := p.next + 1 } :: after)
      (sent ++ [⟨p.streamId, p.next, raw⟩]) where
  source := by
    intro f member
    rcases List.mem_append.mp member with old | new
    · obtain ⟨q, inside, same, early, made⟩ := shipped.source f old
      rcases List.mem_append.mp inside with front | rest
      · exact ⟨q, List.mem_append_left _ front, same, early, made⟩
      · rcases List.mem_cons.mp rest with rfl | back
        · exact ⟨{ q with next := q.next + 1 }, by simp, same, Nat.lt_succ_of_lt early, made⟩
        · exact ⟨q, List.mem_append_right _ (List.mem_cons_of_mem _ back), same, early, made⟩
    · rw [List.mem_singleton.mp new]
      exact ⟨{ p with next := p.next + 1 }, by simp, rfl, Nat.lt_succ_self _, packed⟩
  all := by
    have old (q : FragmentPlan) (inside : q ∈ before ++ p :: after) (seq : Nat) (early : seq < q.next) :
        ∃ f ∈ sent ++ [⟨p.streamId, p.next, raw⟩], f.streamId = q.streamId ∧ f.sequence = seq := by
      obtain ⟨f, member, same⟩ := shipped.all q inside seq early
      exact ⟨f, List.mem_append_left _ member, same⟩
    intro q inside seq early
    rcases List.mem_append.mp inside with front | rest
    · exact old q (List.mem_append_left _ front) seq early
    · rcases List.mem_cons.mp rest with rfl | back
      · rcases Nat.lt_succ_iff_lt_or_eq.mp early with sooner | rfl
        · exact old p (by simp) seq sooner
        · exact ⟨_, List.mem_append_right _ (List.mem_singleton.mpr rfl), rfl, rfl⟩
      · exact old q (List.mem_append_right _ (List.mem_cons_of_mem _ back)) seq early
  once := by
    rw [List.map_append, List.nodup_append]
    refine ⟨shipped.once, List.nodup_singleton _, ?_⟩
    rintro key member new fresh rfl
    rw [List.map_singleton, List.mem_singleton] at fresh
    obtain ⟨f, inside, same⟩ := List.mem_map.mp member
    obtain ⟨q, planned, stream, early, -⟩ := shipped.source f inside
    rw [fresh] at same
    obtain ⟨streams, sequences⟩ := Prod.mk.inj same
    have this : q = p := List.inj_on_of_nodup_map distinct planned (by simp) (stream.trans streams)
    rw [this, sequences] at early
    exact Nat.lt_irrefl _ early

theorem fragmentsSentAppend (reports emitted : List Report) :
    fragmentsSent (reports ++ emitted) = fragmentsSent reports ++ fragmentsSent emitted :=
  List.filterMap_append

theorem plainSendsNothing (sent : List Bytes × Except Error Unit) :
    fragmentsSent (Session.sendReports .wrote sent) = [] := by
  unfold Session.sendReports
  rw [fragmentsSentAppend]
  have written : fragmentsSent (sent.1.map .wrote) = [] := by
    rw [fragmentsSent, List.filterMap_map]
    exact List.filterMap_eq_nil_iff.mpr fun _ _ => rfl
  rw [written]
  split <;> rfl

theorem fragmentStep {call : Nat} (uds : s.client.transport = .uds) (connected : s.client.streams = true)
    (planned : ∀ p ∈ s.inFlight, Planned p ∧ Encodable p.target ∧ p.next ≤ p.total)
    (move : s.sendFragment x call none = some (t, emitted)) :
    ∃ before p after raw, s.inFlight = before ++ p :: after ∧ p.next < p.total ∧
      (p.message s.client.sessionKey p.next).pack x = .ok raw ∧
      t = { s with inFlight := before ++ { p with next := p.next + 1 } :: after } ∧
      emitted = [.fragment p.streamId p.next raw] := by
  unfold Session.sendFragment at move
  cases found : s.inFlight[call]? with
  | none => simp [found] at move
  | some p =>
    simp only [found] at move
    split at move
    · rename_i inside
      obtain ⟨short, here⟩ := List.getElem?_eq_some_iff.mp found
      obtain ⟨sound, encodable, -⟩ := planned p (here ▸ List.getElem_mem short)
      obtain ⟨raw, packed⟩ := fragmentPacks (x := x) sound encodable s.client.sessionKey p.next
      have sends := sendsFragment uds connected packed
      simp only [FragmentPlan.message] at sends
      simp only [fragmentPacked sound inside, sends, Session.sendReports] at move
      obtain ⟨before, after, whole, -, changed⟩ : ∃ before after, s.inFlight = before ++ s.inFlight[call] :: after ∧
          before.length = call ∧
          s.inFlight.set call { p with next := p.next + 1 } = before ++ { p with next := p.next + 1 } :: after :=
        List.exists_of_set short
      rw [here] at whole
      rw [changed] at move
      obtain ⟨rfl, rfl⟩ := Prod.mk.inj (Option.some.inj move)
      exact ⟨before, p, after, raw, whole, inside, packed, rfl, rfl⟩
    · contradiction

theorem senderBegin {target : Str} {payload : Bytes} {chunkSize : Int} (uds : c.transport = .uds)
    (state : SenderState x c earlier operations reports s) (accepted : Accepted target payload chunkSize)
    (move : s.step x codec (.beginFragmented target payload chunkSize) = some (t, emitted)) :
    SenderState x c earlier (operations ++ [.beginFragmented target payload chunkSize]) (reports ++ emitted) t := by
  have same : s.client.transport = .uds := by rw [state.client]; exact uds
  have begun := beginSized target same accepted.sized
  simp only [Session.step, begun] at move
  cases move
  have stream : s.client.nextStreamId = streamIdAt (earlier + s.inFlight.length) := by rw [state.client]
  have following : VynkorClient.followingStreamId s.client.nextStreamId =
      streamIdAt (earlier + (s.inFlight.length + 1)) := by
    rw [stream, ← Nat.add_assoc, streamIdAt, streamIdAt, Function.iterate_succ_apply']
  refine ⟨?_, ?_, ?_, ?_, ?_⟩
  · rw [List.map_append, state.calls, List.filterMap_append]
    rfl
  · simp only [following, List.length_append, List.length_singleton]
    rw [state.client]
  · rw [List.map_append, state.ids, List.length_append, List.length_singleton, List.range_succ, List.map_append]
    simp only [List.map_cons, List.map_nil, planOf, stream]
  · intro p member
    rcases List.mem_append.mp member with old | new
    · exact state.planned p old
    · rw [List.mem_singleton.mp new, stream]
      exact ⟨planOfPlanned target accepted.sized (streamIdFits _), accepted.target, Nat.zero_le _⟩
  · intro few
    rw [List.append_nil]
    refine shippedBegin (state.shipped (Nat.lt_of_le_of_lt ?_ few)) rfl
    simp

theorem senderNext {index : Nat} (uds : c.transport = .uds) (connected : c.streams = true)
    (state : SenderState x c earlier operations reports s) (move : s.sendFragment x index none = some (t, emitted)) :
    SenderState x c earlier (operations ++ [.sendFragment index none]) (reports ++ emitted) t := by
  have client := state.client
  have sameUds : s.client.transport = .uds := by rw [client]; exact uds
  have sameStreams : s.client.streams = true := by rw [client]; exact connected
  have sameKey : s.client.sessionKey = c.sessionKey := by rw [client]
  obtain ⟨before, p, after, raw, whole, inside, packed, rfl, rfl⟩ :=
    fragmentStep sameUds sameStreams state.planned move
  have calls := state.calls
  have ids := state.ids
  have planned := state.planned
  have shipped := state.shipped
  rw [whole] at calls client ids planned shipped
  have length : (before ++ { p with next := p.next + 1 } :: after).length = (before ++ p :: after).length := by simp
  have streams : (before ++ { p with next := p.next + 1 } :: after).map FragmentPlan.streamId =
    (before ++ p :: after).map FragmentPlan.streamId := by simp
  refine ⟨?_, ?_, ?_, ?_, ?_⟩
  · rw [List.filterMap_append, ← calls]
    simp [call, planCall]
  · rw [length]; exact client
  · rw [length, streams]; exact ids
  · intro q member
    obtain ⟨sound, encodable, -⟩ := planned p (by simp)
    rcases List.mem_append.mp member with front | rest
    · exact planned q (List.mem_append_left _ front)
    · rcases List.mem_cons.mp rest with rfl | back
      · exact ⟨⟨sound.payloadFits, sound.chunkFits, sound.totalPositive, sound.totalFits, sound.covered,
          sound.streamFits⟩, encodable, inside⟩
      · exact planned q (List.mem_append_right _ (List.mem_cons_of_mem _ back))
  · intro few
    rw [length] at few
    rw [sameKey] at packed
    rw [fragmentsSentAppend]
    exact shippedNext (shipped few) (idsDistinct few ids) packed

theorem senderStep (uds : c.transport = .uds) (connected : c.streams = true)
    (state : SenderState x c earlier operations reports s) (allowed : Fragmenting s op)
    (move : s.step x codec op = some (t, emitted)) :
    SenderState x c earlier (operations ++ [op]) (reports ++ emitted) t := by
  cases op with
  | beginFragmented target payload chunkSize => exact senderBegin uds state allowed move
  | sendFragment call fault =>
    cases allowed
    exact senderNext uds connected state move
  | send target flags payload fault =>
    cases move
    refine ⟨?_, state.client, state.ids, state.planned, ?_⟩
    · rw [List.filterMap_append, state.calls]
      simp [call]
    rw [fragmentsSentAppend, plainSendsNothing, List.append_nil]
    exact state.shipped
  | connect | close | register _ _ | recvFrame _ _ | recvCancelled _ => exact allowed.elim

theorem senderStates (uds : c.transport = .uds) (connected : c.streams = true)
    (first : c.nextStreamId = streamIdAt earlier)
    (run : Runs (Session.machine x codec) Fragmenting (.start c) operations reports s) :
    SenderState x c earlier operations reports s := by
  refine runsTrace (SenderState x c earlier) ⟨rfl, ?_, rfl, fun p member => absurd member List.not_mem_nil, fun _ => ?_⟩
    (fun _ _ _ _ _ _ state allowed move => senderStep uds connected state allowed move) run
  · simp only [Session.start, List.length_nil, Nat.add_zero, ← first]
  · exact ⟨fun f member => absurd member List.not_mem_nil, fun p member => absurd member List.not_mem_nil, List.nodup_nil⟩

theorem senderShips (uds : c.transport = .uds) (connected : c.streams = true)
    (first : c.nextStreamId = streamIdAt earlier)
    (run : Runs (Session.machine x codec) Fragmenting (.start c) operations reports s)
    (few : s.inFlight.length < 2 ^ 32 - 1) (finished : ∀ p ∈ s.inFlight, p.next = p.total) :
    s.inFlight.map planCall = operations.filterMap call ∧ (∀ p ∈ s.inFlight, Planned p) ∧
      (s.inFlight.map FragmentPlan.streamId).Nodup ∧
      Shipped x c.sessionKey FragmentPlan.total s.inFlight (fragmentsSent reports) := by
  have state := senderStates uds connected first run
  refine ⟨state.calls, fun p member => (state.planned p member).1, idsDistinct few state.ids, ?_⟩
  have shipped := state.shipped few
  refine ⟨fun f member => ?_, fun p member seq early => ?_, shipped.once⟩
  · obtain ⟨p, inside, stream, early, packed⟩ := shipped.source f member
    exact ⟨p, inside, stream, finished p inside ▸ early, packed⟩
  · exact shipped.all p member seq (finished p member ▸ early)

end Sender
end Vynkor
