import Vynkor.Framing

/-! A wire frame with its bounds, the bytes it stands for, and what a reader makes
of it. `pack_frame` writes exactly such frames and the readers accept exactly
such frames, so what holds of streams is stated on them. -/
namespace Vynkor.Framing
open Octets Text ExactReader

structure Frame where
  flags : Nat
  target : Bytes
  body : Bytes
  tag : Bytes
  flagsFit : flags < 256 ^ 2
  targetFit : target.length = 32
  bodyFit : body.length ≤ maxPayload
  tagFit : tag.length = if flags &&& flagMacPresent = 0 then 0 else 32
  deriving DecidableEq

def headerBytes (flags length : Nat) (target : Bytes) (checksum : Nat) : Bytes :=
  be 2 magic ++ be 2 flags ++ be 4 length ++ target ++ be 4 checksum

namespace Frame

def header (f : Frame) : Bytes := headerBytes f.flags f.body.length f.target (crc32 f.body)

def bytes (f : Frame) : Bytes := f.header ++ f.body ++ f.tag

def read (f : Frame) : Header := ⟨f.flags, f.body.length, f.target, crc32 f.body⟩

end Frame

theorem headerBytesLength {flags length checksum : Nat} {target : Bytes} (fit : target.length = 32) :
    (headerBytes flags length target checksum).length = headerSize := by
  simp [headerBytes, fit, headerSize]

theorem packHeaderFit {flags length checksum : Nat} {target : Bytes} (size : target.length = 32)
    (ff : flags < 256 ^ 2) (lf : length < 256 ^ 4) (cf : checksum < 256 ^ 4) :
    packHeader flags length target checksum = .ok (headerBytes flags length target checksum) := by
  have whole : target.take 32 = target := by rw [← size, List.take_length]
  have none : 32 - target.length = 0 := by omega
  rw [packHeader, if_pos ⟨ff, lf, cf⟩, whole, none, List.replicate_zero, List.append_nil, headerBytes]

theorem packHeaderExact {flags length checksum : Nat} {target raw : Bytes} (size : target.length = 32)
    (ok : packHeader flags length target checksum = .ok raw) :
    flags < 256 ^ 2 ∧ raw = headerBytes flags length target checksum := by
  unfold packHeader at ok
  split at ok
  · rename_i fit
    have made := packHeaderFit size fit.1 fit.2.1 fit.2.2
    unfold packHeader at made
    rw [if_pos fit] at made
    exact ⟨fit.1, Except.ok.inj (ok.symm.trans made)⟩
  · contradiction

theorem headerBytesForFit {flags : Nat} {target payload : Bytes} (size : target.length = 32)
    (ff : flags < 256 ^ 2) (pf : payload.length ≤ maxPayload) :
    headerBytesFor flags target payload =
      .ok (headerBytes flags payload.length target (crc32 payload)) :=
  packHeaderFit size ff (Nat.lt_of_le_of_lt pf (by decide)) (crcBound payload)

theorem headerFields {flags length checksum : Nat} {target : Bytes} (size : target.length = 32)
    (ff : flags < 256 ^ 2) (lf : length < 256 ^ 4) (cf : checksum < 256 ^ 4) :
    let raw := headerBytes flags length target checksum
    readBE (field 0 2 raw) = magic ∧ readBE (field 2 2 raw) = flags ∧ readBE (field 4 4 raw) = length ∧
      field 8 32 raw = target ∧ readBE (field 40 4 raw) = checksum := by
  simp only [headerBytes, List.append_assoc]
  have m := beLength 2 magic
  have mf : (be 2 magic ++ be 2 flags).length = 4 := by simp
  have mfl : (be 2 magic ++ be 2 flags ++ be 4 length).length = 8 := by simp
  have mflt : (be 2 magic ++ be 2 flags ++ be 4 length ++ target).length = 40 := by simp [size]
  have magicAt := fieldFront (be 2 magic) (be 2 flags ++ (be 4 length ++ (target ++ be 4 checksum))) m
  have flagsAt := fieldAt _ (be 2 flags) (be 4 length ++ (target ++ be 4 checksum)) m (beLength 2 flags)
  have lengthAt := fieldAt _ (be 4 length) (target ++ be 4 checksum) mf (beLength 4 length)
  have targetAt := fieldAt _ target (be 4 checksum) mfl size
  have crcAt := fieldEnd _ (be 4 checksum) mflt (beLength 4 checksum)
  simp only [List.append_assoc] at lengthAt targetAt crcAt
  rw [magicAt, flagsAt, lengthAt, targetAt, crcAt]
  exact ⟨readBe (by decide), readBe ff, readBe lf, rfl, readBe cf⟩

theorem headerOfFields {raw : Bytes} (size : raw.length = headerSize)
    (right : readBE (field 0 2 raw) = magic) :
    raw = headerBytes (readBE (field 2 2 raw)) (readBE (field 4 4 raw)) (field 8 32 raw)
      (readBE (field 40 4 raw)) := by
  have word (start width : Nat) (inside : start + width ≤ 44) :
      be width (readBE (field start width raw)) = field start width raw := by
    have len : (field start width raw).length = width := fieldLength (by rw [size]; exact inside)
    rw [← beRead (field start width raw), len, readBe (Nat.lt_of_lt_of_eq (readBound _) (by rw [len]))]
  have whole : raw = field 0 44 raw := by
    exact (List.take_of_length_le (Nat.le_of_eq size)).symm
  rw [headerBytes, ← right, word 0 2 (by omega), word 2 2 (by omega), word 4 4 (by omega),
    word 40 4 (by omega), ← fieldCut 0 2 2, ← fieldCut 0 4 4, ← fieldCut 0 8 32, ← fieldCut 0 40 4]
  exact whole

theorem headerInjective {flags flags' length length' checksum checksum' : Nat} {target target' : Bytes}
    (size : target.length = 32) (size' : target'.length = 32)
    (ff : flags < 256 ^ 2) (ff' : flags' < 256 ^ 2) (lf : length < 256 ^ 4) (lf' : length' < 256 ^ 4)
    (cf : checksum < 256 ^ 4) (cf' : checksum' < 256 ^ 4)
    (same : headerBytes flags length target checksum = headerBytes flags' length' target' checksum') :
    flags = flags' ∧ length = length' ∧ target = target' ∧ checksum = checksum' := by
  obtain ⟨-, fl, le, ta, cr⟩ := headerFields size ff lf cf
  obtain ⟨-, fl', le', ta', cr'⟩ := headerFields size' ff' lf' cf'
  rw [same] at fl le ta cr
  exact ⟨fl.symm.trans fl', le.symm.trans le', ta.symm.trans ta', cr.symm.trans cr'⟩

namespace Frame

theorem headerLength (f : Frame) : f.header.length = headerSize := headerBytesLength f.targetFit

theorem lengthFits (f : Frame) : f.body.length < 256 ^ 4 :=
  Nat.lt_of_le_of_lt f.bodyFit (by decide)

theorem parsed (f : Frame) : parseHeader f.header = .ok f.read := by
  obtain ⟨right, flags, length, target, crc⟩ :=
    headerFields f.targetFit f.flagsFit f.lengthFits (crcBound f.body)
  have bound : ¬ maxPayload < f.body.length := Nat.not_lt.mpr f.bodyFit
  simp only [parseHeader, header, right, flags, length, target, crc, ne_eq, not_true_eq_false, if_false,
    if_neg bound, read]

theorem bytesLength (f : Frame) :
    f.bytes.length = headerSize + f.body.length + f.tag.length := by
  simp [bytes, f.headerLength, Nat.add_assoc]

end Frame

section Reading
variable {x : Externals} {sessionKey : Option Bytes}

/- `flags & ~FLAG_COMPRESSED` leaves an uncompressed frame's flags alone, so both
branches of `_normalize` have one description. -/
theorem normalizeExact {flags : Nat} {target payload : Bytes} {plain : Plain} (size : target.length = 32)
    (ff : flags < 256 ^ 2) (pf : payload.length ≤ maxPayload)
    (ok : normalize x flags target payload = .ok plain) :
    plain.flags = clear flags flagCompressed ∧ plain.payload.length ≤ maxPayload ∧
    plain.header = headerBytes plain.flags plain.payload.length target (crc32 plain.payload) ∧
    (flags &&& flagCompressed = 0 → plain.payload = payload) := by
  unfold normalize at ok
  split at ok
  · rename_i unset
    rw [headerBytesForFit size ff pf] at ok
    cases ok
    exact ⟨(clearOfZero unset).symm, pf, rfl, fun _ => rfl⟩
  · rename_i set
    cases hd : decompress x payload with
    | error e => simp [hd, bind, Except.bind] at ok
    | ok out =>
      have small : out.length ≤ maxPayload := by
        unfold decompress at hd
        split at hd
        · contradiction
        · split at hd
          · contradiction
          · cases hd; omega
      have cf : clear flags flagCompressed < 256 ^ 2 := Nat.lt_of_le_of_lt (clearLe _ _) ff
      simp only [hd, bind, Except.bind, headerBytesForFit size cf small, pure, Except.pure] at ok
      cases ok
      exact ⟨rfl, small, rfl, fun unset => absurd unset set⟩

theorem normalizeMac {flags : Nat} {target payload : Bytes} {plain : Plain} (size : target.length = 32)
    (ff : flags < 256 ^ 2) (pf : payload.length ≤ maxPayload)
    (ok : normalize x flags target payload = .ok plain) :
    plain.flags &&& flagMacPresent = flags &&& flagMacPresent := by
  rw [(normalizeExact size ff pf ok).1, clearApart (by decide)]

namespace Frame

def deliver (x : Externals) (sessionKey : Option Bytes) (f : Frame) : Except Error (Nat × Bytes) := do
  let plain ← normalize x f.flags f.target f.body
  if plain.flags &&& flagMacPresent ≠ 0 then checkTag x sessionKey plain f.tag
  else checkUntagged sessionKey
  return (plain.flags, plain.payload)

def Admits (x : Externals) (sessionKey : Option Bytes) (plain : Plain) (tag : Bytes) : Prop :=
  if plain.flags &&& flagMacPresent ≠ 0 then checkTag x sessionKey plain tag = .ok ()
  else checkUntagged sessionKey = .ok ()

theorem deliverExact {f : Frame} {value : Nat × Bytes} :
    f.deliver x sessionKey = .ok value ↔ ∃ plain, normalize x f.flags f.target f.body = .ok plain ∧
      Admits x sessionKey plain f.tag ∧ value = (plain.flags, plain.payload) := by
  unfold deliver Admits
  cases normalize x f.flags f.target f.body with
  | error e => simp [bind, Except.bind]
  | ok plain =>
    by_cases mac : plain.flags &&& flagMacPresent = 0
    · cases checkUntagged sessionKey <;> simp [bind, Except.bind, pure, Except.pure, mac, eq_comm]
    · cases h : checkTag x sessionKey plain f.tag <;>
        simp [bind, Except.bind, pure, Except.pure, mac, h, eq_comm]

end Frame

theorem readTagOk {plain : Plain} {stream rest : Bytes} :
    (readTag x sessionKey plain).run stream = (.ok (), rest) ↔
      ∃ tag, stream = tag ++ rest ∧
        tag.length = (if plain.flags &&& flagMacPresent = 0 then 0 else 32) ∧
        Frame.Admits x sessionKey plain tag := by
  unfold readTag Frame.Admits
  by_cases mac : plain.flags &&& flagMacPresent = 0
  · simp only [mac, ne_eq, not_true_eq_false, if_false, if_true, Reader.runOfExceptOk]
    constructor
    · rintro ⟨fine, rfl⟩
      exact ⟨[], rfl, rfl, fine⟩
    · rintro ⟨tag, rfl, empty, fine⟩
      exact ⟨fine, by simp [List.length_eq_zero_iff.mp empty]⟩
  · simp only [mac, ne_eq, not_false_eq_true, if_true, if_false, Reader.runBindOk, Reader.runReadExactlyOk,
      Reader.runOfExceptOk]
    constructor
    · rintro ⟨tag, middle, ⟨rfl, size⟩, fine, rfl⟩
      exact ⟨tag, rfl, size, fine⟩
    · rintro ⟨tag, rfl, size, fine⟩
      exact ⟨tag, rest, ⟨rfl, size⟩, fine, rfl⟩

theorem readPayloadOk {length : Nat} {stream payload rest : Bytes} :
    (readPayload length).run stream = (.ok payload, rest) ↔
      stream = payload ++ rest ∧ payload.length = length := by
  unfold readPayload
  by_cases some : length > 0
  · rw [if_pos some, Reader.runReadExactlyOk]
  · rw [if_neg some, Reader.runPure]
    have none : length = 0 := by omega
    subst none
    simp only [Prod.mk.injEq, Except.ok.injEq, List.length_eq_zero_iff]
    constructor
    · rintro ⟨rfl, rfl⟩; exact ⟨rfl, rfl⟩
    · rintro ⟨rfl, rfl⟩; exact ⟨rfl, rfl⟩

theorem asyncOpens (f : Frame) (rest : Bytes) :
    (asyncReadFrame x sessionKey).run (f.bytes ++ rest) =
      (do let plain ← Reader.ofExcept (normalize x f.flags f.target f.body)
          readTag x sessionKey plain
          return (plain.flags, plain.payload) : Reader UInt8 Error (Nat × Bytes)).run (f.tag ++ rest) := by
  have opened : openPayload x f.read f.body = normalize x f.flags f.target f.body := by
    simp [openPayload, Frame.read]
  have payload : (readPayload f.body.length).run (f.body ++ (f.tag ++ rest)) = (.ok f.body, f.tag ++ rest) :=
    readPayloadOk.mpr ⟨rfl, rfl⟩
  have head : (Reader.readExactly (1 + (headerSize - 1)) : Reader UInt8 Error Bytes).run
      (f.header ++ (f.body ++ (f.tag ++ rest))) = (.ok f.header, f.body ++ (f.tag ++ rest)) :=
    Reader.runReadExactly f.headerLength
  unfold asyncReadFrame
  rw [Reader.runSplitRead, Frame.bytes, List.append_assoc, List.append_assoc, Reader.runBind, head]
  simp only [readBody]
  rw [Reader.runBind, f.parsed, Reader.runOfExcept]
  simp only [Except.mapError]
  rw [Reader.runBind, show f.read.length = f.body.length from rfl, payload]
  simp only [opened]

/- The coroutine accepts exactly the bytes of a frame that delivers, and leaves
what follows them. -/
theorem asyncReadsFrame {f : Frame} {value : Nat × Bytes} (ok : f.deliver x sessionKey = .ok value)
    (rest : Bytes) : (asyncReadFrame x sessionKey).run (f.bytes ++ rest) = (.ok value, rest) := by
  obtain ⟨plain, normal, admitted, rfl⟩ := Frame.deliverExact.mp ok
  have mac := normalizeMac f.targetFit f.flagsFit f.bodyFit normal
  have tagged : (readTag x sessionKey plain).run (f.tag ++ rest) = (.ok (), rest) :=
    readTagOk.mpr ⟨f.tag, rfl, by rw [f.tagFit, mac], admitted⟩
  rw [asyncOpens]
  refine Reader.runBindOk.mpr ⟨plain, _, Reader.runOfExceptOk.mpr ⟨normal, rfl⟩, ?_⟩
  exact Reader.runBindOk.mpr ⟨(), rest, tagged, rfl⟩

theorem asyncOutcome (f : Frame) (rest : Bytes) :
    ((asyncReadFrame x sessionKey).run (f.bytes ++ rest)).1 =
      (f.deliver x sessionKey).mapError Halt.raised := by
  rw [asyncOpens, Reader.runBind, Reader.runOfExcept]
  unfold Frame.deliver
  cases normal : normalize x f.flags f.target f.body with
  | error e => rfl
  | ok plain =>
    have mac := normalizeMac f.targetFit f.flagsFit f.bodyFit normal
    simp only [Except.mapError, bind, Except.bind]
    change ((readTag x sessionKey plain >>= _).run (f.tag ++ rest)).1 = _
    rw [Reader.runBind]
    by_cases untagged : plain.flags &&& flagMacPresent = 0
    · simp only [readTag, untagged, ne_eq, not_true_eq_false, if_false, Reader.runOfExcept]
      cases checkUntagged sessionKey <;> rfl
    · have size : f.tag.length = 32 := by rw [f.tagFit, if_neg (mac ▸ untagged)]
      simp only [readTag, untagged, ne_eq, not_false_eq_true, if_true, Reader.runBind,
        Reader.runReadExactly size, Reader.runOfExcept]
      cases checkTag x sessionKey plain f.tag <;> rfl

theorem parsedHeader {raw : Bytes} {h : Header} (size : raw.length = headerSize)
    (ok : parseHeader raw = .ok h) :
    raw = headerBytes h.flags h.length h.target h.storedCrc ∧ h.flags < 256 ^ 2 ∧
      h.length ≤ maxPayload ∧ h.target.length = 32 := by
  unfold parseHeader at ok
  split at ok
  · contradiction
  split at ok
  · contradiction
  rename_i right bound
  cases ok
  have flags : (field 2 2 raw).length = 2 := fieldLength (by rw [size]; decide)
  exact ⟨headerOfFields size (not_not.mp right), Nat.lt_of_lt_of_eq (readBound _) (by rw [flags]),
    Nat.le_of_not_lt bound, fieldLength (by rw [size]; decide)⟩

theorem asyncAccepted {raw rest : Bytes} {value : Nat × Bytes}
    (ok : (asyncReadFrame x sessionKey).run raw = (.ok value, rest)) :
    ∃ f : Frame, raw = f.bytes ++ rest ∧ f.deliver x sessionKey = .ok value := by
  unfold asyncReadFrame at ok
  rw [Reader.runSplitRead] at ok
  obtain ⟨head, afterHead, readHead, ok⟩ := Reader.runBindOk.mp ok
  obtain ⟨header, sameHead, parsing, ok⟩ := Reader.runBindOk.mp ok
  obtain ⟨payload, afterPayload, readRest, ok⟩ := Reader.runBindOk.mp ok
  obtain ⟨plain, samePayload, opening, ok⟩ := Reader.runBindOk.mp ok
  obtain ⟨⟨⟩, afterTag, tagged, ok⟩ := Reader.runBindOk.mp ok
  obtain ⟨rawCut, headSize⟩ := Reader.runReadExactlyOk.mp readHead
  obtain ⟨parse, sameHead⟩ := Reader.runOfExceptOk.mp parsing
  obtain ⟨headCut, size⟩ := readPayloadOk.mp readRest
  obtain ⟨opened, samePayload⟩ := Reader.runOfExceptOk.mp opening
  obtain ⟨tag, tagCut, tagSize, admitted⟩ := readTagOk.mp tagged
  simp only [Reader.runPure, Prod.mk.injEq, Except.ok.injEq] at ok
  obtain ⟨rfl, rfl⟩ := ok
  obtain ⟨spelled, flagsFit, lengthFit, targetFit⟩ := parsedHeader headSize parse
  unfold openPayload at opened
  split at opened
  · contradiction
  rename_i crc
  have bodyFit : payload.length ≤ maxPayload := size ▸ lengthFit
  have mac := normalizeMac targetFit flagsFit bodyFit opened
  let f : Frame := ⟨header.flags, header.target, payload, tag, flagsFit, targetFit, bodyFit,
    by rw [tagSize, mac]⟩
  have headSame : f.header = head := by
    rw [spelled, ← not_not.mp crc, ← size]; rfl
  refine ⟨f, ?_, Frame.deliverExact.mpr ⟨plain, opened, admitted, rfl⟩⟩
  rw [Frame.bytes, headSame, rawCut, sameHead, headCut, samePayload, tagCut, List.append_assoc, List.append_assoc]

def Truncation (e : Error) : Prop := ∃ message, e = .ioError message

theorem streamFollows (x : Externals) (sessionKey : Option Bytes) :
    Reader.Follows Truncation (readStream x sessionKey) (asyncReadFrame x sessionKey) := by
  have truncated (message) : Truncation (.ioError message) := ⟨message, rfl⟩
  have payload (n) : Reader.Follows Truncation (readStreamPayload n) (readPayload n) := by
    unfold readStreamPayload readPayload
    by_cases some : n > 0
    · rw [if_pos some, if_pos some]
      exact Reader.followsRead (truncated _) n
    · rw [if_neg some, if_neg some]
      exact Reader.followsPure []
  have tag (plain) : Reader.Follows Truncation (readStreamTag x sessionKey plain)
      (readTag x sessionKey plain) := by
    unfold readStreamTag readTag
    by_cases mac : plain.flags &&& flagMacPresent ≠ 0
    · rw [if_pos mac, if_pos mac]
      exact Reader.followsBind (Reader.followsRead (truncated _) 32)
        (fun tag => Reader.followsExcept (checkTag x sessionKey plain tag))
    · rw [if_neg mac, if_neg mac]
      exact Reader.followsExcept (checkUntagged sessionKey)
  refine Reader.followsSplit (Reader.followsBind (Reader.followsRead (truncated _) headerSize) fun head => ?_)
  refine Reader.followsBind (Reader.followsExcept (parseHeader head)) fun header => ?_
  refine Reader.followsBind (payload header.length) fun body => ?_
  refine Reader.followsBind (Reader.followsExcept (openPayload x header body)) fun plain => ?_
  exact Reader.followsBind (tag plain) fun _ => Reader.followsPure _

theorem streamReads {stream rest : Bytes} {value : Nat × Bytes} :
    readStream x sessionKey stream = .ok (value, rest) ↔
      (asyncReadFrame x sessionKey).run stream = (.ok value, rest) := by
  have same := streamFollows x sessionKey stream
  rcases h : (asyncReadFrame x sessionKey).run stream with ⟨(e | _) | v, r⟩
  · simp only [h] at same; simp [same]
  · simp only [h] at same
    obtain ⟨e, -, fails⟩ := same
    simp [fails]
  · simp only [h] at same; simp [same]

end Reading
end Vynkor.Framing
