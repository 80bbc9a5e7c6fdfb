import Vynkor.FrameRoundTrip

/-! The three readers on one byte string. The coroutine is fed the bytes in any
pieces and then the end of the stream; the other two have them all. -/
namespace Vynkor.Framing
open Octets ExactReader

section Truncated
variable {x : Externals} {sessionKey : Option Bytes} {b : Bytes}

/- The bytes end inside the frame that a reader takes them for: in the header, in
the payload it announces, or in the tag that follows a payload which opened. -/
def Truncated (x : Externals) (b : Bytes) : Prop :=
  b.length < headerSize ∨
    ∃ header, parseHeader (field 0 headerSize b) = .ok header ∧
      (b.length < headerSize + header.length ∨
        ∃ plain, openPayload x header (field headerSize header.length b) = .ok plain ∧
          plain.flags &&& flagMacPresent ≠ 0 ∧ b.length < headerSize + header.length + 32)

theorem payloadIncomplete {length : Nat} {stream : Bytes} :
    ((readPayload length).run stream).1 = .error .incomplete ↔ stream.length < length := by
  unfold readPayload
  by_cases some : length > 0
  · rw [if_pos some, Reader.incompleteRead]
  · rw [if_neg some, Reader.runPure]
    simp only [reduceCtorEq, false_iff]
    omega

theorem tagIncomplete {plain : Plain} {stream : Bytes} :
    ((readTag x sessionKey plain).run stream).1 = .error .incomplete ↔
      plain.flags &&& flagMacPresent ≠ 0 ∧ stream.length < 32 := by
  unfold readTag
  by_cases mac : plain.flags &&& flagMacPresent = 0
  · simp only [mac, ne_eq, not_true_eq_false, if_false, Reader.incompleteExcept, false_and]
  · simp only [mac, ne_eq, not_false_eq_true, if_true, Reader.haltBind, Reader.incompleteRead,
      Reader.incompleteExcept, and_false, exists_false, or_false, true_and]

theorem bodyIncomplete {head after : Bytes} :
    ((readBody x sessionKey head).run after).1 = .error .incomplete ↔
      ∃ header, parseHeader head = .ok header ∧
        (after.length < header.length ∨
          ∃ plain, openPayload x header (after.take header.length) = .ok plain ∧
            plain.flags &&& flagMacPresent ≠ 0 ∧ after.length < header.length + 32) := by
  unfold readBody
  cases parsed : parseHeader head with
  | error e => simp [Reader.haltBind, Reader.ofExcept, Reader.run]
  | ok header =>
    simp only [Reader.haltBind, Reader.incompleteExcept, false_or, Reader.runOfExceptOk, Except.ok.injEq,
      and_assoc, exists_and_left, exists_eq_left', payloadIncomplete]
    refine or_congr_right' fun long => ?_
    have enough : header.length ≤ after.length := Nat.le_of_not_lt long
    have read : (readPayload header.length).run after = (.ok (after.take header.length), after.drop header.length) :=
      readPayloadOk.mpr ⟨(List.take_append_drop _ _).symm, by simp [enough]⟩
    have rest : (after.drop header.length).length < 32 ↔ after.length < header.length + 32 := by
      rw [List.length_drop]
      omega
    simp only [read, Prod.mk.injEq, Except.ok.injEq, and_assoc, exists_and_left, exists_eq_left', tagIncomplete, rest,
      Reader.runPure, reduceCtorEq, and_false, exists_false, or_false]

theorem asyncIncomplete (sessionKey : Option Bytes) :
    ((asyncReadFrame x sessionKey).run b).1 = .error .incomplete ↔ Truncated x b := by
  unfold asyncReadFrame Truncated
  rw [Reader.runSplitRead, Reader.haltBind, Reader.incompleteRead]
  refine or_congr_right' fun long => ?_
  have enough : headerSize ≤ b.length := Nat.le_of_not_lt long
  have read : (Reader.readExactly (1 + (headerSize - 1)) : Reader UInt8 Error Bytes).run b =
      (.ok (b.take headerSize), b.drop headerSize) :=
    Reader.runReadExactlyOk.mpr ⟨(List.take_append_drop _ _).symm, by rw [List.length_take, Nat.min_eq_left enough]; rfl⟩
  have rest (n : Nat) : (b.drop headerSize).length < n ↔ b.length < headerSize + n := by
    rw [List.length_drop]
    omega
  simp only [read, Prod.mk.injEq, Except.ok.injEq, and_assoc, exists_and_left, exists_eq_left', bodyIncomplete, rest,
    field, List.drop_zero, Nat.add_assoc]

/- A whole frame by its lengths: the header, the payload it announces, and a tag if
its flags announce one. -/
def HoldsFrame (b : Bytes) : Prop :=
  headerSize + readBE (field 4 4 b) + (if readBE (field 2 2 b) &&& flagMacPresent = 0 then 0 else 32) ≤ b.length

instance (b : Bytes) : Decidable (HoldsFrame b) := inferInstanceAs (Decidable (_ ≤ _))

theorem parsedFields {header : Header} (parsed : parseHeader (field 0 headerSize b) = .ok header) :
    header.flags = readBE (field 2 2 b) ∧ header.length = readBE (field 4 4 b) := by
  unfold parseHeader at parsed
  split at parsed
  · contradiction
  split at parsed
  · contradiction
  cases parsed
  exact ⟨congrArg readBE (fieldWithin (by decide) b), congrArg readBE (fieldWithin (by decide) b)⟩

theorem openedMac {header : Header} {payload : Bytes} {plain : Plain} (targetFit : header.target.length = 32)
    (flagsFit : header.flags < 256 ^ 2) (payloadFit : payload.length ≤ maxPayload)
    (opened : openPayload x header payload = .ok plain) :
    plain.flags &&& flagMacPresent = header.flags &&& flagMacPresent := by
  unfold openPayload at opened
  split at opened
  · contradiction
  · exact normalizeMac targetFit flagsFit payloadFit opened

theorem holdsUntruncated (whole : HoldsFrame b) : ¬ Truncated x b := by
  unfold HoldsFrame at whole
  rintro (short | ⟨header, parsed, short⟩)
  · omega
  · have long : headerSize ≤ b.length := by omega
    have size : (field 0 headerSize b).length = headerSize := fieldLength (by rw [Nat.zero_add]; exact long)
    obtain ⟨-, flagsFit, lengthFit, targetFit⟩ := parsedHeader size parsed
    obtain ⟨flags, length⟩ := parsedFields parsed
    rw [← flags, ← length] at whole
    rcases short with short | ⟨plain, opened, mac, short⟩
    · omega
    · have payloadFit : (field headerSize header.length b).length ≤ maxPayload :=
        Nat.le_trans (List.length_take_le _ _) lengthFit
      rw [openedMac targetFit flagsFit payloadFit opened] at mac
      rw [if_neg mac] at whole
      omega

end Truncated

def asyncReadPieces (x : Externals) (sessionKey : Option Bytes) (arrivals : List Bytes) :
    Except (Halt Error) (Nat × Bytes) × Bytes :=
  Reader.finish ((asyncReadFrame x sessionKey).feed [] arrivals)

inductive Agree (x : Externals) (sessionKey : Option Bytes) (b : Bytes) :
    Except (Halt Error) (Nat × Bytes) × Bytes → Prop where
  | accepted {flags payload frame rest} (consumed : b = frame ++ rest)
      (buffered : readFrame x sessionKey b = .ok (payload, rest))
      (inside : readStream x sessionKey b = .ok ((flags, payload), rest))
      (blob : readFrameFromBytes x b sessionKey = .ok (flags, payload)) :
      Agree x sessionKey b (.ok (flags, payload), rest)
  | refused {error rest} (buffered : readFrame x sessionKey b = .error error)
      (blob : readFrameFromBytes x b sessionKey = .error error) :
      Agree x sessionKey b (.error (.raised error), rest)
  | truncated {message rest} (buffered : readFrame x sessionKey b = .error (.ioError message))
      (blob : readFrameFromBytes x b sessionKey = .error (.ioError message)) :
      Agree x sessionKey b (.error .incomplete, rest)

section Agreement
variable {x : Externals} {sessionKey : Option Bytes} {b : Bytes}

theorem piecesRun (arrivals : List Bytes) :
    asyncReadPieces x sessionKey arrivals = (asyncReadFrame x sessionKey).run arrivals.flatten :=
  Reader.feedRun _ [] arrivals

theorem readFrameOf (outcome : Except Error ((Nat × Bytes) × Bytes)) (read : readStream x sessionKey b = outcome) :
    readFrame x sessionKey b = outcome.map (fun got => (got.1.2, got.2)) ∧
      readFrameFromBytes x b sessionKey = outcome.map Prod.fst := by
  subst read
  refine ⟨?_, rfl⟩
  change (readStream x sessionKey b >>= fun got => pure (got.1.2, got.2)) = _
  cases readStream x sessionKey b <;> rfl

theorem runAgrees : Agree x sessionKey b ((asyncReadFrame x sessionKey).run b) := by
  have same := streamFollows x sessionKey b
  rcases read : (asyncReadFrame x sessionKey).run b with ⟨(error | _) | ⟨flags, payload⟩, rest⟩
  · simp only [read] at same
    obtain ⟨buffered, blob⟩ := readFrameOf _ same
    exact .refused buffered blob
  · simp only [read] at same
    obtain ⟨_, ⟨message, rfl⟩, fails⟩ := same
    obtain ⟨buffered, blob⟩ := readFrameOf _ fails
    exact .truncated buffered blob
  · simp only [read] at same
    obtain ⟨buffered, blob⟩ := readFrameOf _ same
    obtain ⟨f, whole, -⟩ := asyncAccepted read
    exact .accepted whole buffered same blob

theorem agreeDetermines {outcome : Except (Halt Error) (Nat × Bytes)} {more rest rest' : Bytes}
    (untruncated : outcome ≠ .error .incomplete) (one : Agree x sessionKey b (outcome, rest))
    (other : Agree x sessionKey (b ++ more) (outcome, rest')) :
    (readFrame x sessionKey (b ++ more)).map Prod.fst = (readFrame x sessionKey b).map Prod.fst ∧
      readFrameFromBytes x (b ++ more) sessionKey = readFrameFromBytes x b sessionKey := by
  cases one with
  | accepted _ buffered _ blob =>
    cases other with
    | accepted _ buffered' _ blob' => rw [buffered, buffered', blob, blob']; exact ⟨rfl, rfl⟩
  | refused buffered blob =>
    cases other with
    | refused buffered' blob' => rw [buffered, buffered', blob, blob']; exact ⟨rfl, rfl⟩
  | truncated _ _ => exact absurd rfl untruncated

/- The three readers agree on every byte string, however it arrives, and past a
whole frame nothing matters. -/
theorem readersAgree (x : Externals) (sessionKey : Option Bytes) (b : Bytes) (arrivals : List Bytes)
    (cut : arrivals.flatten = b) :
    Agree x sessionKey b (asyncReadPieces x sessionKey arrivals) ∧
      (HoldsFrame b → ∀ more later, List.flatten later = b ++ more →
        (asyncReadPieces x sessionKey later).1 = (asyncReadPieces x sessionKey arrivals).1 ∧
        (readFrame x sessionKey (b ++ more)).map Prod.fst = (readFrame x sessionKey b).map Prod.fst ∧
        readFrameFromBytes x (b ++ more) sessionKey = readFrameFromBytes x b sessionKey) := by
  rw [piecesRun, cut]
  refine ⟨runAgrees, fun whole more later joined => ?_⟩
  have ended : ((asyncReadFrame x sessionKey).run b).1 ≠ .error .incomplete :=
    fun short => holdsUntruncated whole ((asyncIncomplete sessionKey).mp short)
  have extended := Reader.runExtend ended more
  rw [piecesRun, joined, extended]
  have one : Agree x sessionKey b ((asyncReadFrame x sessionKey).run b) := runAgrees
  have other : Agree x sessionKey (b ++ more) ((asyncReadFrame x sessionKey).run (b ++ more)) := runAgrees
  rw [extended] at other
  exact ⟨rfl, agreeDetermines ended one other⟩

end Agreement

theorem readersAgreeSample :
    Agree sampleExternals (some sampleKey) sampleFrame
        (asyncReadPieces sampleExternals (some sampleKey) [sampleFrame.take 50, sampleFrame.drop 50]) ∧
      readFrameFromBytes sampleExternals (sampleFrame ++ [1]) (some sampleKey) =
        readFrameFromBytes sampleExternals sampleFrame (some sampleKey) := by
  obtain ⟨agree, alone⟩ := readersAgree sampleExternals (some sampleKey) sampleFrame
    [sampleFrame.take 50, sampleFrame.drop 50] (by simp)
  exact ⟨agree, (alone (by decide) [1] [sampleFrame, [1]] (by simp)).2.2⟩

end Vynkor.Framing
