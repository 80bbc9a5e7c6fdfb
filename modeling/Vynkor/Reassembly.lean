import Vynkor.Framing
import Vynkor.Library.Table

/-! Fragment reassembly in `vynkor/client.py`: `_ReassemblyBuf`, `_prune_reassembly`
and `_absorb_fragment`. Clock readings are rationals. A Python method that raises
after it changed the table is a pair of its outcome and the table it leaves. -/
namespace Vynkor.Reassembly
open Octets (Bytes field clear)
open Text Framing Tables

/- Readings of `time.monotonic()`. Ages and deadlines are exact, where the code adds and
subtracts doubles and rounds. -/
abbrev Time := ℚ

def maxReassemblyStreams : Nat := 64
def reassemblyTimeout : Time := 30

/- `connection` is a ghost: the connection of this client the fragment came in on. -/
structure Fragment where
  chunk : Bytes
  connection : Nat
  deriving DecidableEq, Repr

structure ReassemblyBuf where
  fragments : Table Nat Fragment
  total : Nat
  flags : Nat
  firstSeen : Time
  bufferedBytes : Int

abbrev Streams := Table Nat ReassemblyBuf

def chunkSize (f : Fragment) : Nat := f.chunk.length

namespace ReassemblyBuf

def new (total flags : Nat) (now : Time) : ReassemblyBuf := ⟨∅, total, flags, now, 0⟩

def isComplete (b : ReassemblyBuf) : Bool := decide (size b.fragments = b.total)

def joinChunks (fragments : Table Nat Fragment) : List Nat → Except Error Bytes
  | [] => .ok []
  | seq :: rest =>
    match fragments.lookup seq with
    | none => .error .keyError
    | some f => (joinChunks fragments rest).map (f.chunk ++ ·)

def reassemble (b : ReassemblyBuf) : Except Error Bytes := joinChunks b.fragments (List.range b.total)

def newTotal (b : ReassemblyBuf) (seq : Nat) (chunk : Bytes) : Int :=
  b.bufferedBytes - share chunkSize (b.fragments.lookup seq) + chunk.length

def put (b : ReassemblyBuf) (seq : Nat) (f : Fragment) : ReassemblyBuf :=
  { b with bufferedBytes := b.newTotal seq f.chunk, fragments := b.fragments.insert seq f }

def isStale (now : Time) (b : ReassemblyBuf) : Bool := decide (reassemblyTimeout ≤ now - b.firstSeen)

end ReassemblyBuf

def pruneReassembly (now : Time) (streams : Streams) : Streams := sweep (ReassemblyBuf.isStale now) streams

def totalMismatch : Error := .internal (lit "fragment total mismatch within stream")
def tooManyStreams : Error := .internal (lit "too many concurrent fragment streams")
def headerTooShort : Error := .internal (lit "fragment header too short")
def invalidHeader (seq total : Nat) : Error :=
  .internal (lit "invalid fragment header: seq " ++ decimal seq ++ lit " / total " ++ decimal total)

def openBuffer (now : Time) (flags : Nat) (h : FragHeader) (streams : Streams) :
    Except Error ReassemblyBuf × Streams :=
  match streams.lookup h.streamId with
  | some buf =>
    if buf.total ≠ h.total then (.error totalMismatch, streams.erase h.streamId) else (.ok buf, streams)
  | none =>
    if maxReassemblyStreams ≤ size streams then (.error tooManyStreams, streams)
    else
      let buf := .new h.total (clear flags (flagFragmented ||| flagMacPresent)) now
      (.ok buf, streams.insert h.streamId buf)

/- The buffer is one object in the table, so storing into it changes the table. -/
def storeChunk (h : FragHeader) (f : Fragment) (buf : ReassemblyBuf) (streams : Streams) :
    Except Error (Option (Nat × Bytes)) × Streams :=
  if buf.newTotal h.sequence f.chunk > maxPayload then
    (.error (.payloadTooLarge (maxPayload + 1)), streams.erase h.streamId)
  else
    let buf := buf.put h.sequence f
    if buf.isComplete then
      (buf.reassemble.map fun payload => some (buf.flags, payload), streams.erase h.streamId)
    else (.ok none, streams.insert h.streamId buf)

def absorbFragment (now : Time) (connection flags : Nat) (payload : Bytes) (streams : Streams) :
    Except Error (Option (Nat × Bytes)) × Streams :=
  match parseFragHeader payload with
  | none => (.error headerTooShort, streams)
  | some h =>
    if h.total = 0 ∨ h.total ≤ h.sequence then (.error (invalidHeader h.sequence h.total), streams)
    else
      match openBuffer now flags h streams with
      | (.error e, streams) => (.error e, streams)
      | (.ok buf, streams) => storeChunk h ⟨payload.drop fragHeaderSize, connection⟩ buf streams

inductive Home (now : Time) (flags : Nat) (h : FragHeader) (streams : Streams) : ReassemblyBuf → Prop where
  | known {buf} (found : streams.lookup h.streamId = some buf) (total : buf.total = h.total) :
      Home now flags h streams buf
  | opened (absent : streams.lookup h.streamId = none) (room : size streams < maxReassemblyStreams) :
      Home now flags h streams (.new h.total (clear flags (flagFragmented ||| flagMacPresent)) now)

inductive Absorbs (now : Time) (flags : Nat) (h : FragHeader) (f : Fragment) (streams : Streams) :
    Except Error (Option (Nat × Bytes)) → Streams → Prop where
  | invalid (bad : h.total = 0 ∨ h.total ≤ h.sequence) :
      Absorbs now flags h f streams (.error (invalidHeader h.sequence h.total)) streams
  | mismatch {buf} (found : streams.lookup h.streamId = some buf) (different : buf.total ≠ h.total) :
      Absorbs now flags h f streams (.error totalMismatch) (streams.erase h.streamId)
  | refused (valid : h.sequence < h.total) (absent : streams.lookup h.streamId = none) (full : maxReassemblyStreams ≤ size streams) :
      Absorbs now flags h f streams (.error tooManyStreams) streams
  | oversized {buf} (home : Home now flags h streams buf)
      (big : buf.newTotal h.sequence f.chunk > maxPayload) :
      Absorbs now flags h f streams (.error (.payloadTooLarge (maxPayload + 1))) (streams.erase h.streamId)
  | completed {buf} (valid : h.sequence < h.total) (home : Home now flags h streams buf)
      (fits : buf.newTotal h.sequence f.chunk ≤ maxPayload) (complete : (buf.put h.sequence f).isComplete) :
      Absorbs now flags h f streams
        ((buf.put h.sequence f).reassemble.map fun payload => some (buf.flags, payload))
        (streams.erase h.streamId)
  | buffered {buf} (valid : h.sequence < h.total) (home : Home now flags h streams buf)
      (fits : buf.newTotal h.sequence f.chunk ≤ maxPayload) (incomplete : ¬ (buf.put h.sequence f).isComplete) :
      Absorbs now flags h f streams (.ok none) (streams.insert h.streamId (buf.put h.sequence f))

section Absorbing
variable {now : Time} {connection flags : Nat} {h : FragHeader} {f : Fragment} {payload : Bytes} {streams : Streams}

theorem eraseInserted (streams : Streams) (k : Nat) (b : ReassemblyBuf) :
    (streams.insert k b).erase k = streams.erase k := by
  apply AList.ext
  simp [AList.insert, AList.erase, List.kinsert]

theorem storeAbsorbs {buf : ReassemblyBuf} {table : Streams} (valid : h.sequence < h.total)
    (home : Home now flags h streams buf)
    (table_eq : table = streams ∨ table = streams.insert h.streamId buf) :
    Absorbs now flags h f streams (storeChunk h f buf table).1 (storeChunk h f buf table).2 := by
  have erased : table.erase h.streamId = streams.erase h.streamId := by
    rcases table_eq with rfl | rfl
    · rfl
    · exact eraseInserted streams h.streamId buf
  have inserted (b : ReassemblyBuf) : table.insert h.streamId b = streams.insert h.streamId b := by
    rcases table_eq with rfl | rfl
    · rfl
    · exact AList.insert_insert streams
  unfold storeChunk
  by_cases big : buf.newTotal h.sequence f.chunk > maxPayload
  · rw [if_pos big, erased]
    exact .oversized home big
  · have fits := Int.not_lt.mp big
    rw [if_neg big]
    by_cases complete : (buf.put h.sequence f).isComplete
    · simp only [if_pos complete, erased]
      exact .completed valid home fits complete
    · simp only [if_neg complete, inserted]
      exact .buffered valid home fits complete

theorem absorbCases (parsed : parseFragHeader payload = some h) :
    Absorbs now flags h ⟨payload.drop fragHeaderSize, connection⟩ streams
      (absorbFragment now connection flags payload streams).1
      (absorbFragment now connection flags payload streams).2 := by
  simp only [absorbFragment, parsed]
  split
  · rename_i bad
    exact .invalid bad
  · rename_i good
    have valid : h.sequence < h.total := by omega
    unfold openBuffer
    cases found : streams.lookup h.streamId with
    | some buf =>
      by_cases different : buf.total ≠ h.total
      · simp only [if_pos different]
        exact .mismatch found different
      · simp only [if_neg different]
        exact storeAbsorbs valid (.known found (not_not.mp different)) (.inl rfl)
    | none =>
      by_cases full : maxReassemblyStreams ≤ size streams
      · simp only [if_pos full]
        exact .refused valid found full
      · simp only [if_neg full]
        exact storeAbsorbs valid (.opened found (Nat.lt_of_not_le full)) (.inr rfl)

theorem absorbsApart {outcome : Except Error (Option (Nat × Bytes))} {after : Streams}
    (a : Absorbs now flags h f streams outcome after) {other : Nat} (apart : other ≠ h.streamId) :
    after.lookup other = streams.lookup other := by
  cases a with
  | invalid _ => rfl
  | mismatch _ _ => exact AList.lookup_erase_ne apart
  | refused _ _ _ => rfl
  | oversized _ _ => exact AList.lookup_erase_ne apart
  | completed _ _ _ _ => exact AList.lookup_erase_ne apart
  | buffered _ _ _ _ => exact AList.lookup_insert_ne apart

theorem fragHeaderFits (parsed : parseFragHeader payload = some h) :
    h.total < 256 ^ 2 ∧ h.streamId < 256 ^ 4 := by
  unfold parseFragHeader at parsed
  split at parsed
  · contradiction
  · rename_i long
    have enough : 10 ≤ payload.length := Nat.le_of_not_lt long
    cases parsed
    have total : (field 4 2 payload).length = 2 := Octets.fieldLength (by omega)
    have stream : (field 6 4 payload).length = 4 := Octets.fieldLength (by omega)
    exact ⟨Nat.lt_of_lt_of_eq (Octets.readBound _) (by rw [total]),
      Nat.lt_of_lt_of_eq (Octets.readBound _) (by rw [stream])⟩

end Absorbing

theorem prunedLookup {now : Time} {streams : Streams} {k : Nat} {buf : ReassemblyBuf} :
    (pruneReassembly now streams).lookup k = some buf ↔
      streams.lookup k = some buf ∧ now - buf.firstSeen < reassemblyTimeout := by
  rw [pruneReassembly, lookupSweepSome, ReassemblyBuf.isStale, decide_eq_false_iff_not, not_le]

theorem pruneAgain {earlier later : Time} (order : earlier ≤ later) (streams : Streams) :
    pruneReassembly later (pruneReassembly earlier streams) = pruneReassembly later streams := by
  refine sweepSweep (fun buf old => ?_) streams
  simp only [ReassemblyBuf.isStale, decide_eq_true_eq] at old ⊢
  exact le_trans old (sub_le_sub_right order buf.firstSeen)

end Vynkor.Reassembly
