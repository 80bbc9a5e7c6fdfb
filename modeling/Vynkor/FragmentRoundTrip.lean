import Vynkor.FragmentedSend
import Vynkor.ReassemblyInvariant

/-! Fragments of several streams, received in any order. The table after some of
the deliveries is described stream by stream: a stream is in the table while it
has fragments on both sides of the cut, and its buffer holds those before it. -/
namespace Vynkor
open Octets (Bytes clear)
open Text Framing Reassembly Tables ExactReader Labelled

structure Delivery where
  clock : Arrival
  piece : SentFragment
  deriving DecidableEq, Repr

def streamOf (d : Delivery) : Nat := d.piece.streamId

def payloadOf (plans : List FragmentPlan) (streamId : Nat) : Option (Nat × Bytes) :=
  (plans.find? fun p => p.streamId == streamId).map fun p => (0, p.payload)

def expected (plans : List FragmentPlan) : List Delivery → List (Except (Halt Error) (Option (Nat × Bytes)))
  | [] => []
  | d :: later =>
    (if streamOf d ∈ later.map streamOf then .ok none else .ok (payloadOf plans (streamOf d))) ::
      expected plans later

def returned : Except (Halt Error) (Option (Nat × Bytes)) → Option (Nat × Bytes)
  | .ok out => out
  | .error _ => none

def openStreams (before : List Delivery) (d : Delivery) (after : List Delivery) : List Nat :=
  (((before ++ [d]).map streamOf).filter fun id => id ∈ (d :: after).map streamOf).dedup

structure Orderly (arrived : List Delivery) : Prop where
  clocks : arrived.Pairwise fun a b => a.clock.arrivedAt ≤ b.clock.prunedAt
  blocks : ∀ d ∈ arrived, d.clock.prunedAt ≤ d.clock.arrivedAt
  lifetime : arrived.Pairwise fun a b => streamOf a = streamOf b →
    b.clock.arrivedAt - a.clock.arrivedAt < reassemblyTimeout
  opened : ∀ before d after, arrived = before ++ d :: after →
    (openStreams before d after).length ≤ maxReassemblyStreams

structure Collects (p : FragmentPlan) (seen : List Delivery) (buf : ReassemblyBuf) : Prop where
  consistent : Consistent buf
  total : buf.total = p.total
  flags : buf.flags = 0
  chunks : ∀ seq f, buf.fragments.lookup seq = some f →
    f.chunk = p.chunk seq ∧ ∃ d ∈ seen, streamOf d = p.streamId ∧ d.piece.sequence = seq
  complete : ∀ d ∈ seen, streamOf d = p.streamId → d.piece.sequence ∈ buf.fragments

def OpenedIn (p : FragmentPlan) (seen : List Delivery) (buf : ReassemblyBuf) : Prop :=
  ∃ d ∈ seen, streamOf d = p.streamId ∧ buf.firstSeen = d.clock.arrivedAt

structure TableState (plans : List FragmentPlan) (seen later : List Delivery) (streams : Streams) : Prop where
  closed : ∀ id, id ∉ seen.map streamOf ∨ id ∉ later.map streamOf → streams.lookup id = none
  held : ∀ p ∈ plans, p.streamId ∈ seen.map streamOf → p.streamId ∈ later.map streamOf →
    ∃ buf, streams.lookup p.streamId = some buf ∧ Collects p seen buf ∧ OpenedIn p seen buf

section Collecting
variable {p : FragmentPlan} {seen : List Delivery} {buf : ReassemblyBuf} {d : Delivery}

theorem collectsNew (planned : Planned p) (now : Time) (fresh : p.streamId ∉ seen.map streamOf) :
    Collects p seen (.new p.total 0 now) where
  consistent := newConsistent now planned.totalPositive planned.totalFits
  total := rfl
  flags := rfl
  chunks := fun _ _ found => by simp [ReassemblyBuf.new] at found
  complete := fun d member same => absurd (List.mem_map.mpr ⟨d, member, same⟩) fresh

theorem collectsPut (connection : Nat) (collects : Collects p seen buf) (stream : streamOf d = p.streamId)
    (inside : d.piece.sequence < p.total) :
    Collects p (seen ++ [d]) (buf.put d.piece.sequence ⟨p.chunk d.piece.sequence, connection⟩) where
  consistent := putConsistent collects.consistent (by rw [collects.total]; exact inside)
  total := collects.total
  flags := collects.flags
  chunks := by
    intro seq f found
    by_cases same : seq = d.piece.sequence
    · subst same
      rw [ReassemblyBuf.put, AList.lookup_insert] at found
      cases found
      exact ⟨rfl, d, by simp, stream, rfl⟩
    · rw [ReassemblyBuf.put, AList.lookup_insert_ne same] at found
      obtain ⟨chunk, e, member, rest⟩ := collects.chunks seq f found
      exact ⟨chunk, e, List.mem_append_left _ member, rest⟩
  complete := by
    intro e member same
    rw [ReassemblyBuf.put, AList.mem_insert]
    rcases List.mem_append.mp member with old | new
    · exact .inr (collects.complete e old same)
    · rw [List.mem_singleton.mp new]
      exact .inl rfl

theorem collectsApart (collects : Collects p seen buf) (apart : streamOf d ≠ p.streamId) :
    Collects p (seen ++ [d]) buf where
  consistent := collects.consistent
  total := collects.total
  flags := collects.flags
  chunks := by
    intro seq f found
    obtain ⟨chunk, e, member, rest⟩ := collects.chunks seq f found
    exact ⟨chunk, e, List.mem_append_left _ member, rest⟩
  complete := by
    intro e member same
    rcases List.mem_append.mp member with old | new
    · exact collects.complete e old same
    · rw [List.mem_singleton.mp new] at same
      exact absurd same apart

theorem collectsWeight (planned : Planned p) (collects : Collects p seen buf) :
    weight chunkSize buf.fragments ≤ p.payload.length := by
  have each : buf.fragments.keys.map (fun k => share chunkSize (buf.fragments.lookup k)) =
      buf.fragments.keys.map fun k => (p.chunk k).length := by
    apply List.map_congr_left
    intro k member
    obtain ⟨f, found⟩ := Option.isSome_iff_exists.mp (AList.lookup_isSome.mpr (AList.mem_keys.mpr member))
    rw [found]
    exact congrArg List.length (collects.chunks k f found).1
  have inside : buf.fragments.keys ⊆ List.range p.total := fun k member =>
    List.mem_range.mpr (collects.total ▸ collects.consistent.indices k (AList.mem_keys.mpr member))
  obtain ⟨keys, order, sub⟩ := List.Nodup.subperm (AList.keys_nodup buf.fragments) inside
  calc weight chunkSize buf.fragments
      = (buf.fragments.keys.map fun k => (p.chunk k).length).sum := by rw [weightKeys, each]
    _ = (keys.map fun k => (p.chunk k).length).sum := (order.map _).sum_eq.symm
    _ ≤ ((List.range p.total).map fun k => (p.chunk k).length).sum := (sub.map _).sum_le_sum (by simp)
    _ = p.payload.length := by rw [← chunkTiles planned, List.length_flatMap]

theorem joinExact {fragments : Table Nat Fragment} {g : Nat → Bytes} {order : List Nat}
    (present : ∀ seq ∈ order, ∃ f, fragments.lookup seq = some f ∧ f.chunk = g seq) :
    ReassemblyBuf.joinChunks fragments order = .ok (order.flatMap g) := by
  induction order with
  | nil => rfl
  | cons seq rest ih =>
    obtain ⟨f, found, chunk⟩ := present seq List.mem_cons_self
    have tail := ih fun s member => present s (List.mem_cons_of_mem _ member)
    simp [ReassemblyBuf.joinChunks, found, tail, Except.map, chunk]

theorem collectsPayload (planned : Planned p) (collects : Collects p seen buf) (full : buf.isComplete) :
    buf.reassemble = .ok p.payload := by
  have count : size buf.fragments = buf.total := of_decide_eq_true full
  rw [ReassemblyBuf.reassemble, collects.total, ← chunkTiles planned]
  refine joinExact fun seq member => ?_
  obtain ⟨f, found⟩ := covers collects.consistent.indices count (collects.total ▸ List.mem_range.mp member)
  exact ⟨f, found, (collects.chunks seq f found).1⟩

end Collecting

section Delivering
variable {x : Externals} {sessionKey : Option Bytes} {plans : List FragmentPlan} {p : FragmentPlan}
  {front seen later : List Delivery} {d : Delivery} {buf : ReassemblyBuf} {streams : Streams} {connection flags : Nat}

structure Shipment (x : Externals) (sessionKey : Option Bytes) (plans : List FragmentPlan)
    (arrived : List Delivery) : Prop where
  planned : ∀ p ∈ plans, Planned p
  distinct : (plans.map FragmentPlan.streamId).Nodup
  shipped : Shipped x sessionKey FragmentPlan.total plans (arrived.map Delivery.piece)

theorem samePlan (shipment : Shipment x sessionKey plans front) {q : FragmentPlan} (hp : p ∈ plans) (hq : q ∈ plans)
    (same : q.streamId = p.streamId) : q = p :=
  List.inj_on_of_nodup_map shipment.distinct hq hp same

theorem planOfDelivery (shipment : Shipment x sessionKey plans front) (member : d ∈ front) :
    ∃ p ∈ plans, p.streamId = streamOf d ∧ d.piece.sequence < p.total ∧
      (p.message sessionKey d.piece.sequence).pack x = .ok d.piece.frame :=
  shipment.shipped.source d.piece (List.mem_map.mpr ⟨d, member, rfl⟩)

theorem deliveredOnce (shipment : Shipment x sessionKey plans (front ++ later)) {a b : Delivery} (ha : a ∈ front)
    (hb : b ∈ later) (stream : streamOf a = streamOf b) : a.piece.sequence ≠ b.piece.sequence := by
  intro same
  have once := shipment.shipped.once
  rw [List.map_append, List.map_append, List.nodup_append] at once
  refine once.2.2 (streamOf a, a.piece.sequence) ?_ (streamOf b, b.piece.sequence) ?_ (by rw [stream, same])
  · exact List.mem_map.mpr ⟨a.piece, List.mem_map.mpr ⟨a, ha, rfl⟩, rfl⟩
  · exact List.mem_map.mpr ⟨b.piece, List.mem_map.mpr ⟨b, hb, rfl⟩, rfl⟩

theorem completeIff (shipment : Shipment x sessionKey plans (front ++ later)) (member : p ∈ plans)
    (collects : Collects p front buf) : buf.isComplete ↔ p.streamId ∉ later.map streamOf := by
  constructor
  · intro full coming
    obtain ⟨e, there, stream⟩ := List.mem_map.mp coming
    obtain ⟨q, hq, same, inside, -⟩ := planOfDelivery shipment (List.mem_append_right _ there)
    cases samePlan shipment member hq (same.trans stream)
    obtain ⟨f, found⟩ := covers collects.consistent.indices (of_decide_eq_true full) (collects.total ▸ inside)
    obtain ⟨-, a, here, stream_a, sequence⟩ := collects.chunks _ f found
    exact deliveredOnce shipment here there (stream_a.trans stream.symm) sequence
  · intro done
    have all : List.range p.total ⊆ buf.fragments.keys := by
      intro seq inside
      obtain ⟨f, arrived, stream, sequence⟩ := shipment.shipped.all p member seq (List.mem_range.mp inside)
      obtain ⟨e, somewhere, rfl⟩ := List.mem_map.mp arrived
      rcases List.mem_append.mp somewhere with here | there
      · exact AList.mem_keys.mp (sequence ▸ collects.complete e here stream)
      · exact absurd (List.mem_map.mpr ⟨e, there, stream⟩) done
    have inside : buf.fragments.keys ⊆ List.range p.total := fun k key =>
      List.mem_range.mpr (collects.total ▸ collects.consistent.indices k (AList.mem_keys.mpr key))
    have most := (List.Nodup.subperm (AList.keys_nodup buf.fragments) inside).length_le
    have least := (List.Nodup.subperm List.nodup_range all).length_le
    have count : size buf.fragments = buf.total := by
      rw [collects.total]
      rw [List.length_range] at most least
      exact Nat.le_antisymm most least
    exact decide_eq_true count

theorem heldBuffer (shipment : Shipment x sessionKey plans (seen ++ d :: later))
    (state : TableState plans seen (d :: later) streams) {id : Nat} (found : streams.lookup id = some buf) :
    ∃ p ∈ plans, p.streamId = id ∧ id ∈ seen.map streamOf ∧ id ∈ (d :: later).map streamOf ∧
      Collects p seen buf ∧ OpenedIn p seen buf := by
  have before : id ∈ seen.map streamOf := by
    by_contra absent
    rw [state.closed id (.inl absent)] at found
    contradiction
  have after : id ∈ (d :: later).map streamOf := by
    by_contra absent
    rw [state.closed id (.inr absent)] at found
    contradiction
  obtain ⟨a, here, same⟩ := List.mem_map.mp before
  obtain ⟨p, member, stream, -⟩ := planOfDelivery shipment (List.mem_append_left _ here)
  have id_p : p.streamId = id := stream.trans same
  obtain ⟨b, there, collects, opened⟩ := state.held p member (id_p ▸ before) (id_p ▸ after)
  rw [id_p, found] at there
  cases there
  exact ⟨p, member, id_p, before, after, collects, opened⟩

theorem tableYoung (shipment : Shipment x sessionKey plans (seen ++ d :: later))
    (orderly : Orderly (seen ++ d :: later)) (state : TableState plans seen (d :: later) streams) :
    pruneReassembly d.clock.prunedAt streams = streams := by
  refine sweepIdle fun id buf found => ?_
  obtain ⟨p, -, stream, -, after, -, first, early, same, seenAt⟩ := heldBuffer shipment state found
  obtain ⟨e, there, stream_e⟩ := List.mem_map.mp after
  have together := (List.pairwise_append.mp orderly.lifetime).2.2 first early e there
    (same.trans (stream.trans stream_e.symm))
  have wait := orderly.blocks d (by simp)
  have ordered : d.clock.prunedAt ≤ e.clock.arrivedAt := by
    rcases List.mem_cons.mp there with rfl | next
    · exact wait
    · have clocks := (List.pairwise_cons.mp (List.pairwise_append.mp orderly.clocks).2.1).1 e next
      have block := orderly.blocks e (by simp [next])
      linarith
  rw [ReassemblyBuf.isStale, decide_eq_false_iff_not, seenAt]
  linarith

theorem tableRoom (shipment : Shipment x sessionKey plans (seen ++ d :: later))
    (orderly : Orderly (seen ++ d :: later)) (state : TableState plans seen (d :: later) streams)
    (absent : streams.lookup (streamOf d) = none) : size streams < maxReassemblyStreams := by
  have nodup : (streamOf d :: streams.keys).Nodup :=
    List.nodup_cons.mpr ⟨fun key => AList.lookup_eq_none.mp absent (AList.mem_keys.mpr key), AList.keys_nodup _⟩
  have inside : streamOf d :: streams.keys ⊆ openStreams seen d later := by
    intro id member
    rw [openStreams, List.mem_dedup, List.mem_filter]
    rcases List.mem_cons.mp member with rfl | key
    · simp
    · obtain ⟨b, found⟩ := Option.isSome_iff_exists.mp (AList.lookup_isSome.mpr (AList.mem_keys.mpr key))
      obtain ⟨-, -, -, before, after, -⟩ := heldBuffer shipment state found
      rw [List.map_append]
      exact ⟨List.mem_append_left _ before, decide_eq_true after⟩
  have bound := (List.Nodup.subperm nodup inside).length_le
  have limit := orderly.opened seen d later rfl
  simp only [List.length_cons] at bound
  exact Nat.lt_of_succ_le (Nat.le_trans bound limit)

theorem homeCollects (shipment : Shipment x sessionKey plans (seen ++ d :: later)) (member : p ∈ plans)
    (stream : p.streamId = streamOf d) (state : TableState plans seen (d :: later) streams)
    (cleared : clear flags (flagFragmented ||| flagMacPresent) = 0)
    (home : Home d.clock.arrivedAt flags (p.header d.piece.sequence) streams buf) :
    Collects p seen buf ∧ (OpenedIn p seen buf ∨ buf.firstSeen = d.clock.arrivedAt) := by
  cases home with
  | known found total =>
    obtain ⟨q, hq, same, -, -, collects, opened⟩ := heldBuffer shipment state found
    cases samePlan shipment member hq same
    exact ⟨collects, .inl opened⟩
  | opened absent room =>
    have fresh : p.streamId ∉ seen.map streamOf := by
      intro before
      obtain ⟨b, found, -⟩ := state.held p member before (by rw [stream]; simp)
      rw [show streams.lookup p.streamId = none from absent] at found
      contradiction
    rw [cleared]
    exact ⟨collectsNew (shipment.planned p member) _ fresh, .inr rfl⟩

theorem tableNext (shipment : Shipment x sessionKey plans (seen ++ d :: later)) (member : p ∈ plans)
    (stream : p.streamId = streamOf d) (state : TableState plans seen (d :: later) streams) {after : Streams}
    (others : ∀ id, id ≠ streamOf d → after.lookup id = streams.lookup id)
    (own : (streamOf d ∉ later.map streamOf ∧ after.lookup (streamOf d) = none) ∨
      (streamOf d ∈ later.map streamOf ∧ ∃ b, after.lookup (streamOf d) = some b ∧ Collects p (seen ++ [d]) b ∧
        OpenedIn p (seen ++ [d]) b)) :
    TableState plans (seen ++ [d]) later after where
  closed := by
    intro id apart
    by_cases same : id = streamOf d
    · subst same
      rcases own with ⟨-, none⟩ | ⟨coming, -⟩
      · exact none
      · rcases apart with unseen | gone
        · simp at unseen
        · exact absurd coming gone
    · rw [others id same]
      refine state.closed id ?_
      rcases apart with unseen | gone
      · exact .inl fun before => unseen (by rw [List.map_append]; exact List.mem_append_left _ before)
      · refine .inr fun after => ?_
        rw [List.map_cons] at after
        rcases List.mem_cons.mp after with here | there
        · exact same here
        · exact gone there
  held := by
    intro q hq before after
    by_cases same : q.streamId = streamOf d
    · cases samePlan shipment member hq (same.trans stream.symm)
      rw [same] at after ⊢
      rcases own with ⟨gone, -⟩ | ⟨-, held⟩
      · exact absurd after gone
      · exact held
    · rw [others _ same]
      have earlier : q.streamId ∈ seen.map streamOf := by
        rw [List.map_append] at before
        rcases List.mem_append.mp before with old | new
        · exact old
        · exact absurd (List.mem_singleton.mp new) same
      have coming : q.streamId ∈ (d :: later).map streamOf := by
        rw [List.map_cons]
        exact List.mem_cons_of_mem _ after
      obtain ⟨b, found, collects, e, there, opened⟩ := state.held q hq earlier coming
      exact ⟨b, found, collectsApart collects (Ne.symm same), e, List.mem_append_left _ there, opened⟩

theorem absorbDelivery (shipment : Shipment x sessionKey plans (seen ++ d :: later))
    (orderly : Orderly (seen ++ d :: later)) (member : p ∈ plans) (stream : p.streamId = streamOf d)
    (inside : d.piece.sequence < p.total) (state : TableState plans seen (d :: later) streams)
    (cleared : clear flags (flagFragmented ||| flagMacPresent) = 0) {outcome} {after : Streams}
    (absorbed : Absorbs d.clock.arrivedAt flags (p.header d.piece.sequence) ⟨p.chunk d.piece.sequence, connection⟩
      streams outcome after) :
    outcome = (if streamOf d ∈ later.map streamOf then .ok none else .ok (some (0, p.payload))) ∧
      TableState plans (seen ++ [d]) later after := by
  have planned := shipment.planned p member
  have positive := planned.totalPositive
  have moved : Shipment x sessionKey plans ((seen ++ [d]) ++ later) := by
    rw [List.append_assoc]; exact shipment
  have others (id : Nat) (apart : id ≠ streamOf d) : after.lookup id = streams.lookup id :=
    absorbsApart absorbed (show id ≠ p.streamId from stream ▸ apart)
  have put {b : ReassemblyBuf} (home : Home d.clock.arrivedAt flags (p.header d.piece.sequence) streams b) :=
    homeCollects shipment member stream state cleared home
  cases absorbed with
  | invalid bad =>
    have total : (p.header d.piece.sequence).total = p.total := rfl
    have sequence : (p.header d.piece.sequence).sequence = d.piece.sequence := rfl
    omega
  | mismatch found different =>
    obtain ⟨q, hq, same, -, -, collects, -⟩ := heldBuffer shipment state found
    cases samePlan shipment member hq same
    exact absurd collects.total different
  | refused valid absent full =>
    have room := tableRoom shipment orderly state (stream ▸ absent)
    omega
  | @oversized b home big =>
    have collects := collectsPut connection (put home).1 stream.symm inside
    have small := collectsWeight planned collects
    have counted := collects.consistent.counted
    have payload := planned.payloadFits
    have total : (b.put d.piece.sequence ⟨p.chunk d.piece.sequence, connection⟩).bufferedBytes > maxPayload := big
    omega
  | @completed b valid home fits complete =>
    obtain ⟨collecting, -⟩ := put home
    have collects := collectsPut connection collecting stream.symm inside
    have last := (completeIff moved member collects).mp complete
    rw [stream] at last
    refine ⟨?_, tableNext shipment member stream state others (.inl ⟨last, ?_⟩)⟩
    · have whole := collectsPayload planned collects complete
      rw [if_neg last]
      exact (congrArg (Except.map _) whole).trans (by rw [collecting.flags]; rfl)
    · exact stream ▸ AList.lookup_erase _ _
  | @buffered b valid home fits incomplete =>
    obtain ⟨collecting, opened⟩ := put home
    have collects := collectsPut connection collecting stream.symm inside
    have coming : streamOf d ∈ later.map streamOf := by
      by_contra last
      exact incomplete ((completeIff moved member collects).mpr (stream ▸ last))
    refine ⟨by rw [if_pos coming], tableNext shipment member stream state others (.inr ⟨coming, _, ?_, collects, ?_⟩)⟩
    · exact stream ▸ AList.lookup_insert _
    · rcases opened with ⟨e, there, same, at_e⟩ | fresh
      · exact ⟨e, List.mem_append_left _ there, same, at_e⟩
      · exact ⟨d, by simp, stream.symm, fresh⟩

theorem payloadFound (shipment : Shipment x sessionKey plans front) (member : p ∈ plans) :
    payloadOf plans p.streamId = some (0, p.payload) := by
  unfold payloadOf
  cases found : plans.find? fun q => q.streamId == p.streamId with
  | none =>
    have absent := List.find?_eq_none.mp found p member
    simp at absent
  | some q =>
    have same : q.streamId = p.streamId := by simpa using List.find?_some found
    rw [samePlan shipment member (List.mem_of_find?_eq_some found) same]
    rfl

theorem announcedFragment (sessionKey : Option Bytes) :
    announced sessionKey flagFragmented &&& flagFragmented ≠ 0 ∧
      clear (announced sessionKey flagFragmented) (flagFragmented ||| flagMacPresent) = 0 := by
  cases sessionKey with
  | none => decide
  | some key =>
    have set : announced (some key) flagFragmented = 5 := rfl
    rw [set]
    decide

structure Peer (sessionKey : Option Bytes) (peer : VynkorClient) : Prop where
  uds : peer.transport = .uds
  connected : peer.streams = true
  key : peer.sessionKey = none ∨ peer.sessionKey = sessionKey

variable {peer : VynkorClient}

theorem nextFragment {m : Message} {raw : Bytes} (ready : Peer m.sessionKey peer) (carried : Carries x m raw)
    (rest : Bytes) (messages : List WsMessage) :
    peer.nextFrame x ⟨raw ++ rest, messages⟩ = (.ok m.received, ⟨rest, messages⟩) := by
  simp only [VynkorClient.nextFrame, ready.uds, ready.connected, if_true, carried.read _ rest ready.key]

theorem turnDelivery (inverse : ∀ payload, payload.length ≤ maxPayload →
      x.zstdDecompress (x.zstdCompress payload) maxPayload = .ok payload)
    (shipment : Shipment x sessionKey plans (seen ++ d :: later)) (orderly : Orderly (seen ++ d :: later))
    (ready : Peer sessionKey peer) (state : TableState plans seen (d :: later) peer.reassembly)
    (rest : Bytes) (messages : List WsMessage) :
    ∃ after, peer.recvTurn x d.clock ⟨d.piece.frame ++ rest, messages⟩ =
        ((expected plans (d :: later)).headD (.ok none), { peer with reassembly := after }, ⟨rest, messages⟩) ∧
      TableState plans (seen ++ [d]) later after := by
  obtain ⟨p, member, stream, inside, packed⟩ := planOfDelivery shipment (d := d) (by simp)
  have planned := shipment.planned p member
  have valid := fragmentMessageValid planned sessionKey d.piece.sequence
  have carried := packedCarries valid packed (inverse _ valid.payloadFits)
  obtain ⟨part, cleared⟩ := announcedFragment sessionKey
  have young := tableYoung shipment orderly state
  have pruned : peer.prune d.clock.prunedAt = peer := by rw [VynkorClient.prune, young]
  have read := nextFragment (m := p.message sessionKey d.piece.sequence) ready carried rest messages
  have dropped : (p.headerBytes d.piece.sequence ++ p.chunk d.piece.sequence).drop fragHeaderSize =
    p.chunk d.piece.sequence := List.drop_left' (headerBytesLength p _)
  have absorbed : Absorbs d.clock.arrivedAt (announced sessionKey flagFragmented) (p.header d.piece.sequence)
      ⟨(p.headerBytes d.piece.sequence ++ p.chunk d.piece.sequence).drop fragHeaderSize, peer.connection⟩
      peer.reassembly _ _ := absorbCases (fragmentParsed planned inside)
  rw [dropped] at absorbed
  obtain ⟨outcome, next⟩ := absorbDelivery shipment orderly member stream inside state cleared absorbed
  refine ⟨_, ?_, next⟩
  simp only [VynkorClient.recvTurn, pruned, read, Message.received, FragmentPlan.message, VynkorClient.acceptFrame,
    if_pos part, expected, List.headD_cons, outcome]
  rw [← stream, payloadFound shipment member]
  split <;> rfl

theorem turnsDeliver (inverse : ∀ payload, payload.length ≤ maxPayload →
      x.zstdDecompress (x.zstdCompress payload) maxPayload = .ok payload)
    (shipment : Shipment x sessionKey plans (seen ++ later)) (orderly : Orderly (seen ++ later))
    (ready : Peer sessionKey peer) (state : TableState plans seen later peer.reassembly)
    (tail : Bytes) (messages : List WsMessage) :
    ∃ after, recvTurns x peer (later.map Delivery.clock)
        ⟨(later.map fun d => d.piece.frame).flatten ++ tail, messages⟩ =
          (expected plans later, after, ⟨tail, messages⟩) ∧
      TableState plans (seen ++ later) [] after.reassembly := by
  induction later generalizing seen peer with
  | nil => exact ⟨peer, rfl, by simpa using state⟩
  | cons d later ih =>
    obtain ⟨streams, turn, next⟩ := turnDelivery inverse shipment orderly ready state
      ((later.map fun d => d.piece.frame).flatten ++ tail) messages
    have again : seen ++ d :: later = (seen ++ [d]) ++ later := by simp
    rw [again] at shipment orderly ⊢
    have still : Peer sessionKey { peer with reassembly := streams } := ⟨ready.uds, ready.connected, ready.key⟩
    obtain ⟨after, turns, final⟩ := ih shipment orderly still next
    refine ⟨after, ?_, final⟩
    simp only [List.map_cons, List.flatten_cons, List.append_assoc, recvTurns, turn, turns]
    rfl

theorem returnedExpected (plans : List FragmentPlan) (arrived : List Delivery) :
    (expected plans arrived).filterMap returned = (arrived.map streamOf).dedup.filterMap (payloadOf plans) := by
  induction arrived with
  | nil => rfl
  | cons d later ih =>
    by_cases coming : streamOf d ∈ later.map streamOf
    · rw [List.map_cons, List.dedup_cons_of_mem coming, ← ih, expected, if_pos coming]
      rfl
    · rw [List.map_cons, List.dedup_cons_of_notMem coming, expected, if_neg coming, List.filterMap_cons,
        List.filterMap_cons, ← ih]
      rfl

theorem streamsArrive (shipment : Shipment x sessionKey plans front) (id : Nat) :
    id ∈ front.map streamOf ↔ id ∈ plans.map FragmentPlan.streamId := by
  constructor
  · intro arrived
    obtain ⟨d, member, rfl⟩ := List.mem_map.mp arrived
    obtain ⟨p, planned, stream, -⟩ := planOfDelivery shipment member
    exact List.mem_map.mpr ⟨p, planned, stream⟩
  · intro planned
    obtain ⟨p, member, rfl⟩ := List.mem_map.mp planned
    obtain ⟨f, arrived, stream, -⟩ := shipment.shipped.all p member 0 (shipment.planned p member).totalPositive
    obtain ⟨d, here, rfl⟩ := List.mem_map.mp arrived
    exact List.mem_map.mpr ⟨d, here, stream⟩

theorem returnedOnce (shipment : Shipment x sessionKey plans front) :
    ((expected plans front).filterMap returned).Perm (plans.map fun p => (0, p.payload)) := by
  have each : (plans.map FragmentPlan.streamId).filterMap (payloadOf plans) = plans.map fun p => (0, p.payload) := by
    rw [List.filterMap_map, ← List.filterMap_eq_map]
    exact List.filterMap_congr fun p member => payloadFound shipment member
  have order : (front.map streamOf).dedup.Perm (plans.map FragmentPlan.streamId) :=
    (List.perm_ext_iff_of_nodup (List.nodup_dedup _) shipment.distinct).mpr fun id => by
      rw [List.mem_dedup]
      exact streamsArrive shipment id
  rw [returnedExpected, ← each]
  exact order.filterMap _

end Delivering

/- The fragmentation round trip, from a sender that may have done anything before to a
peer that the fragments of all its calls reach in any order that is still in time. -/
theorem fragmentRoundTrip (x : Externals) (codec : Codec) (inverse : ∀ payload, payload.length ≤ maxPayload →
      x.zstdDecompress (x.zstdCompress payload) maxPayload = .ok payload)
    (c : VynkorClient) (reached : Reached x codec c) (uds : c.transport = .uds) (connected : c.streams = true)
    {operations : List Operation} {reports : List Report} {s : Session}
    (run : Runs (Session.machine x codec) Fragmenting (.start c) operations reports s)
    (few : s.inFlight.length < 2 ^ 32 - 1) (finished : ∀ p ∈ s.inFlight, p.next = p.total)
    (peer : VynkorClient) (ready : Peer c.sessionKey peer) (empty : peer.reassembly = ∅)
    (arrived : List Delivery) (order : (arrived.map Delivery.piece).Perm (fragmentsSent reports))
    (orderly : Orderly arrived) (tail : Bytes) (messages : List WsMessage) :
    s.inFlight.map planCall = operations.filterMap call ∧
    ((expected s.inFlight arrived).filterMap returned).Perm (s.inFlight.map fun p => (0, p.payload)) ∧
    ∃ after, recvTurns x peer (arrived.map Delivery.clock)
        ⟨(arrived.map fun d => d.piece.frame).flatten ++ tail, messages⟩ =
          (expected s.inFlight arrived, after, ⟨tail, messages⟩) ∧ after.reassembly = ∅ := by
  obtain ⟨earlier, first⟩ := reachedStreamId reached
  obtain ⟨calls, planned, distinct, shipped⟩ := senderShips uds connected first run few finished
  have shipment : Shipment x c.sessionKey s.inFlight arrived := by
    refine ⟨planned, distinct, fun f member => shipped.source f (order.mem_iff.mp member), ?_, ?_⟩
    · intro p member seq inside
      obtain ⟨f, sent, same⟩ := shipped.all p member seq inside
      exact ⟨f, order.mem_iff.mpr sent, same⟩
    · exact (order.map _).nodup_iff.mpr shipped.once
  have start : TableState s.inFlight [] arrived peer.reassembly := by
    rw [empty]
    exact ⟨fun _ _ => AList.lookup_empty _, fun _ _ before => absurd before List.not_mem_nil⟩
  obtain ⟨after, turns, final⟩ := turnsDeliver inverse (show Shipment x c.sessionKey s.inFlight ([] ++ arrived) from shipment)
    orderly ready start tail messages
  exact ⟨calls, returnedOnce shipment, after, turns,
    emptyOfLookup fun id => final.closed id (.inr List.not_mem_nil)⟩

section Finishing
variable {x : Externals} {codec : Codec} {c : VynkorClient} {s : Session}

theorem plansFinish (uds : s.client.transport = .uds) (connected : s.client.streams = true) {done todo : List FragmentPlan}
    (plans : s.inFlight = done ++ todo) (planned : ∀ p ∈ todo, Planned p ∧ Encodable p.target ∧ p.next ≤ p.total) :
    ∃ operations reports t, Runs (Session.machine x codec) Fragmenting s operations reports t ∧
      t.inFlight = done ++ todo.map FragmentPlan.returned := by
  induction todo generalizing s done with
  | nil => exact ⟨[], [], s, .idle, by rw [plans, List.map_nil]⟩
  | cons p rest ih =>
    obtain ⟨⟨sound, encodable, begun⟩, others⟩ := List.forall_mem_cons.mp planned
    have found : s.inFlight[done.length]? = some p := by simp [plans]
    have left : ∀ seq ∈ List.range' p.next (p.total - p.next), seq < p.total := by
      intro seq member
      have inside := List.mem_range'_1.mp member
      omega
    obtain ⟨frames, sends, -⟩ := loopSends (x := x) uds connected sound encodable left
    obtain ⟨t, reports, (run : Runs (Session.machine x codec) Fragmenting s _ _ _), -, after⟩ :=
      loopRuns found (by omega) sends
    have same : t.client = s.client := by rw [after]
    have now : t.inFlight = (done ++ [p.returned]) ++ rest := by simp [after, plans]
    rw [← same] at uds connected
    obtain ⟨operations, later, u, more, finished⟩ := ih uds connected now others
    exact ⟨_, _, u, runsAppend run more, by rw [finished]; simp⟩

/- Every call begun can be run to its end, and so can one that is begun now, which writes
what `send_fragmented` alone writes. -/
theorem callsFinish (reached : Reached x codec c) (uds : c.transport = .uds) (connected : c.streams = true)
    {operations : List Operation} {reports : List Report}
    (run : Runs (Session.machine x codec) Fragmenting (.start c) operations reports s) :
    (∃ more later t, Runs (Session.machine x codec) Fragmenting s more later t ∧
      t.inFlight = s.inFlight.map FragmentPlan.returned) ∧
    ∀ target payload chunkSize, Accepted target payload chunkSize → ∃ plan more later t,
      Runs (Session.machine x codec) Fragmenting s (.beginFragmented target payload chunkSize :: more) later t ∧
        t.inFlight = s.inFlight ++ [FragmentPlan.returned plan] ∧
        s.client.sendFragmented x target payload chunkSize (fun _ => none) =
          ((later.filterMap Report.written, .ok ()), t.client) := by
  obtain ⟨earlier, first⟩ := reachedStreamId reached
  have state := senderStates uds connected first run
  have client := state.client
  have same : s.client.transport = .uds ∧ s.client.streams = true := by
    rw [client]
    exact ⟨uds, connected⟩
  refine ⟨plansFinish same.1 same.2 (List.nil_append _).symm state.planned, fun target payload chunkSize accepted => ?_⟩
  have stream : s.client.nextStreamId < 2 ^ 32 := by
    rw [client]
    exact streamIdFits _
  obtain ⟨chunks, frames, sent, -⟩ :=
    acceptedSends (x := x) same.1 same.2 stream (sizedRefused.mp accepted.sized) accepted.target
  have whole : s.client.sendFragmented x target payload chunkSize (fun _ => none) = ((frames, .ok ()), _) :=
    Prod.ext sent rfl
  obtain ⟨plan, t, later, (ran : Runs (Session.machine x codec) Fragmenting s _ _ _), shown, rfl⟩ :=
    sendFragmentedRuns accepted whole
  exact ⟨plan, _, later, _, ran, rfl, by rw [shown]; exact whole⟩

end Finishing

/- Two calls beside each other and beside a plain send; each payload's second fragment
arrives first. -/
def sampleCalls : List Operation :=
  [.beginFragmented (lit "kernel") (ascii "abcd") 2, .sendFragment 0 none, .beginFragmented (lit "kernel") (ascii "xyz") 2,
    .sendFragment 1 none, .send (lit "kernel") 0 (ascii "hi") none, .sendFragment 1 none, .sendFragment 0 none]

def sampleSent : Option (Session × List Report) :=
  (Session.machine sampleExternals sampleCodec).run (.start (.connectWithSecret none)) sampleCalls

def sampleOther (seq : Nat) : Bytes :=
  ((FragmentPlan.mk (lit "kernel") (ascii "xyz") 2 2 2 0).fragment seq >>= fun payload =>
    packFrame sampleExternals (lit "kernel") payload flagFragmented none true).toOption.getD []

def sampleArrived : List Delivery :=
  [⟨⟨0, 1⟩, ⟨1, 1, sampleFragment 1⟩⟩, ⟨⟨2, 3⟩, ⟨2, 1, sampleOther 1⟩⟩, ⟨⟨4, 5⟩, ⟨2, 0, sampleOther 0⟩⟩,
    ⟨⟨6, 7⟩, ⟨1, 0, sampleFragment 0⟩⟩]

theorem openStreamsLe (before : List Delivery) (d : Delivery) (after : List Delivery) :
    (openStreams before d after).length ≤ (before ++ d :: after).length := by
  have kept : (openStreams before d after).length ≤ ((before ++ [d]).map streamOf).length :=
    ((List.dedup_sublist _).trans List.filter_sublist).length_le
  simp only [List.length_map, List.length_append, List.length_cons, List.length_nil] at kept ⊢
  omega

theorem sampleOrderly : Orderly sampleArrived where
  clocks := by decide +kernel
  blocks := by decide +kernel
  lifetime := by decide +kernel
  opened := by
    intro before d after whole
    have few := openStreamsLe before d after
    rw [← whole] at few
    exact Nat.le_trans few (by decide)

theorem sampleSentFacts : ∀ r ∈ sampleSent, r.1.inFlight.length < 2 ^ 32 - 1 ∧
    (∀ p ∈ r.1.inFlight, p.next = p.total) ∧
    ((sampleArrived.map Delivery.piece).Perm (fragmentsSent r.2)) ∧
    expected r.1.inFlight sampleArrived =
      [.ok none, .ok none, .ok (some (0, ascii "xyz")), .ok (some (0, ascii "abcd"))] := by
  decide +kernel

theorem fragmentRoundTripSample :
    (recvTurns sampleExternals (.connectWithSecret none) (sampleArrived.map Delivery.clock)
      ⟨(sampleArrived.map fun d => d.piece.frame).flatten ++ [], []⟩).1 =
        [.ok none, .ok none, .ok (some (0, ascii "xyz")), .ok (some (0, ascii "abcd"))] := by
  have each : ∀ op ∈ sampleCalls, ∀ s, Fragmenting s op := by
    intro op member s
    simp only [sampleCalls, List.mem_cons, List.not_mem_nil, or_false] at member
    rcases member with rfl | rfl | rfl | rfl | rfl | rfl | rfl
    · exact ⟨litEncodable _, by decide, by decide, by decide, by decide⟩
    · rfl
    · exact ⟨litEncodable _, by decide, by decide, by decide, by decide⟩
    · rfl
    · trivial
    · rfl
    · rfl
  have sent : sampleSent.isSome := by decide +kernel
  have run : sampleSent = some (sampleSent.get sent) := (Option.some_get _).symm
  generalize sampleSent.get sent = reached at run
  obtain ⟨few, finished, order, outcomes⟩ := sampleSentFacts reached run
  obtain ⟨-, -, after, turns, -⟩ := fragmentRoundTrip sampleExternals sampleCodec (fun _ _ => rfl)
    (.connectWithSecret none) ⟨.connectWithSecret none, [], [], _, rfl, .idle, rfl⟩ rfl rfl (runsOfRunWhere Fragmenting each run) few finished
    (.connectWithSecret none) ⟨rfl, rfl, .inl rfl⟩ rfl sampleArrived order sampleOrderly [] []
  rw [turns]
  exact outcomes

end Vynkor
