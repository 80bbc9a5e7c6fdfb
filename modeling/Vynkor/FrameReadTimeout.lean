import Vynkor.FrameRoundTrip
import Vynkor.Library.TimedReader
import Vynkor.Reassembly

/-! `async_read_frame` of `vynkor/framing.py` with its timeout, which `wait_for` starts
once the first byte is read. Bytes that are buffered at the call arrive with it. -/
namespace Vynkor.FrameReadTimeout
open Octets (Bytes)
open Text Framing ExactReader TimedReader Labelled
open Reassembly (Time)

def frameReadTimeout : Time := 10

section Call
variable (x : Externals) (sessionKey : Option Bytes) (timeout : Time)

def body (firstByte : UInt8) : Reader UInt8 Error (Nat × Bytes) := do
  let others ← Reader.readExactly (headerSize - 1)
  readBody x sessionKey ([firstByte] ++ others)

def call : Machine (Timed UInt8 Error (Nat × Bytes) Time) (Tick UInt8 Time) (Ending Error (Nat × Bytes)) :=
  Timed.machine (body x sessionKey) (· + timeout)

def outcome : Ending Error (Nat × Bytes) → Except Error (Nat × Bytes)
  | .returned frame => .ok frame
  | .raised e => .error e
  | .incomplete => .error .incompleteRead
  | .expired => .error .frameReadTimeout

theorem bodyRun (firstByte : UInt8) (rest : Bytes) :
    (asyncReadFrame x sessionKey).run (firstByte :: rest) = (body x sessionKey firstByte).run rest := by
  have one : (Reader.readExactly 1 : Reader UInt8 Error Bytes).run ([firstByte] ++ rest) = (.ok [firstByte], rest) :=
    Reader.runReadExactly rfl
  unfold asyncReadFrame
  rw [Reader.runBind, show firstByte :: rest = [firstByte] ++ rest from rfl, one]
  rfl

inductive Concludes (ticks : List (Tick UInt8 Time)) (s : Timed UInt8 Error (Nat × Bytes) Time) :
    Except Error (Nat × Bytes) → Prop where
  | reads {since frame} (first : began ticks = some since) (inTime : s.clock ≤ since + timeout)
      (whole : (asyncReadFrame x sessionKey).run (arrivedOf ticks) = (.ok frame, s.buffer)) :
      Concludes ticks s (.ok frame)
  | fails {since e} (first : began ticks = some since) (inTime : s.clock ≤ since + timeout)
      (whole : (asyncReadFrame x sessionKey).run (arrivedOf ticks) = (.error (.raised e), s.buffer)) :
      Concludes ticks s (.error e)
  | expires {since} (first : began ticks = some since) (late : since + timeout ≤ s.clock)
      (part : ((asyncReadFrame x sessionKey).run (arrivedOf ticks)).1 = .error .incomplete) :
      Concludes ticks s (.error .frameReadTimeout)
  | ends (part : ((asyncReadFrame x sessionKey).run (arrivedOf ticks)).1 = .error .incomplete) :
      Concludes ticks s (.error .incompleteRead)

def Waits (ticks : List (Tick UInt8 Time)) (s : Timed UInt8 Error (Nat × Bytes) Time) : Prop :=
  ((asyncReadFrame x sessionKey).run (arrivedOf ticks)).1 = .error .incomplete ∧
    ∀ since, began ticks = some since → s.clock ≤ since + timeout

end Call

/- However the bytes come in and the clock goes, a call that has begun a frame is over
when its timeout is; it ends as the frame says, or with the timeout when the frame is not
whole by then. Without a byte it is never timed out. -/
theorem frameTimed (x : Externals) (sessionKey : Option Bytes) {timeout clock : Time} (natural : 0 ≤ timeout)
    {ticks : List (Tick UInt8 Time)} {endings : List (Ending Error (Nat × Bytes))} {s : Timed UInt8 Error (Nat × Bytes) Time}
    (run : Runs (call x sessionKey timeout) Always (.start clock) ticks endings s) :
    (endings = [] ∧ Waits x sessionKey timeout ticks s) ∨
      ∃ ending, endings = [ending] ∧ Concludes x sessionKey timeout ticks s (outcome ending) := by
  have later (now : Time) : now ≤ now + timeout := le_add_of_nonneg_right natural
  have empty : ((asyncReadFrame x sessionKey).run []).1 = .error .incomplete := rfl
  cases timedKept later run with
  | idle phase quiet arrived start =>
    refine .inl ⟨quiet, by rw [arrived, empty], fun since some => ?_⟩
    rw [start] at some
    contradiction
  | reading phase quiet arrived start inTime follows blocked =>
    refine .inl ⟨quiet, by rw [arrived, bodyRun, blocked], fun since some => ?_⟩
    cases start.symm.trans some
    exact inTime
  | ended phase one ends =>
    refine .inr ⟨_, one, ?_⟩
    cases ends with
    | returned arrived start ran inTime => exact .reads start inTime (by rw [arrived, bodyRun, ran])
    | raised arrived start ran inTime => exact .fails start inTime (by rw [arrived, bodyRun, ran])
    | expired arrived start ran late => exact .expires start late (by rw [arrived, bodyRun, ran])
    | closed arrived ran => exact .ends (by rw [arrived, bodyRun, ran])
    | silent arrived => exact .ends (by rw [arrived, empty])

def sampleTicks : List (Tick UInt8 Time) :=
  [.arrive 0 [], .arrive 3591 (sampleFrame.take 20), .arrive 3600 (sampleFrame.drop 20)]

theorem sampleTimed : ∃ s, (call sampleExternals (some sampleKey) frameReadTimeout).run (.start 0) sampleTicks =
    some (s, [.returned (1, ascii "ping")]) := by
  have endings : ((call sampleExternals (some sampleKey) frameReadTimeout).run (.start 0) sampleTicks).map Prod.snd =
    some [.returned (1, ascii "ping")] := by decide +kernel
  obtain ⟨⟨s, _⟩, ran, rfl⟩ := Option.map_eq_some_iff.mp endings
  exact ⟨s, ran⟩

theorem frameTimedSample : ∃ s, Concludes sampleExternals (some sampleKey) frameReadTimeout sampleTicks s
    (.ok (1, ascii "ping")) := by
  obtain ⟨s, ran⟩ := sampleTimed
  rcases frameTimed sampleExternals (some sampleKey) (by decide) (runsOfRun ran) with ⟨none, -⟩ | ⟨ending, one, concludes⟩
  · contradiction
  · cases one
    exact ⟨s, concludes⟩

end Vynkor.FrameReadTimeout
