import Mathlib.Data.List.Forall2
import Vynkor.FrameBytes

/-! What `pack_frame` writes is a `Frame`, and a stream of packed frames reads back
as the messages that were packed. zstd enters only as a pair of functions with
the round-trip law for payloads within the limit. -/
namespace Vynkor.Framing
open Octets Text ExactReader

section Packing
variable {x : Externals} {target : Str} {payload raw : Bytes} {flags : Nat} {sessionKey : Option Bytes}
  {compress : Bool}

theorem targetBytesLength {t : Bytes} (ok : targetBytes target = .ok t) : t.length = 32 := by
  unfold targetBytes at ok
  cases h : encodeText target with
  | error e => simp [h, bind, Except.bind] at ok
  | ok encoded =>
    simp only [h, bind, Except.bind, Except.ok.injEq] at ok
    subst t
    simp only [List.length_take, List.length_append, List.length_replicate]
    omega

theorem targetBytesDefined : (∃ t, targetBytes target = .ok t) ↔ Encodable target := by
  unfold targetBytes encodeText
  rw [← encodeDefined]
  cases encode target <;> simp [bind, Except.bind]

def announced (sessionKey : Option Bytes) (flags : Nat) : Nat :=
  if sessionKey.isSome then flags ||| flagMacPresent else flags

theorem announcedFits (sessionKey : Option Bytes) (ff : flags < 256 ^ 2) : announced sessionKey flags < 256 ^ 2 := by
  unfold announced
  split
  · exact Nat.or_lt_two_pow (n := 16) ff (by decide)
  · exact ff

theorem announcedCompressed :
    announced sessionKey flags &&& flagCompressed = flags &&& flagCompressed := by
  unfold announced
  split
  · exact orApart (by decide)
  · rfl

def plainTag (x : Externals) (sessionKey : Option Bytes) (flags : Nat) (target payload : Bytes) : Bytes :=
  match sessionKey with
  | none => []
  | some key => computeTag x key (headerBytes flags payload.length target (crc32 payload)) payload

theorem plainTagLength (x : Externals) (sessionKey : Option Bytes) (flags : Nat) (t payload : Bytes) :
    (plainTag x sessionKey flags t payload).length = if sessionKey.isSome then 32 else 0 := by
  cases sessionKey with
  | none => rfl
  | some key => exact x.digestLength key _

theorem wireFormCases (x : Externals) (flags : Nat) (payload : Bytes) (compress : Bool) :
    wireForm x flags payload compress = (payload, flags) ∨
    (wireForm x flags payload compress = (x.zstdCompress payload, flags ||| flagCompressed) ∧
      (x.zstdCompress payload).length < payload.length ∧ flags &&& flagCompressed = 0) := by
  unfold wireForm
  split
  · rename_i candidate
    by_cases smaller : (x.zstdCompress payload).length < payload.length
    · exact .inr ⟨by simp only [if_pos smaller], smaller, candidate.2.2.1⟩
    · exact .inl (by simp only [if_neg smaller])
  · exact .inl rfl

theorem wireFormFits (x : Externals) (payload : Bytes) (compress : Bool) (ff : flags < 256 ^ 2) :
    (wireForm x flags payload compress).1.length ≤ payload.length ∧
    (wireForm x flags payload compress).2 < 256 ^ 2 := by
  rcases wireFormCases x flags payload compress with h | ⟨h, smaller, -⟩
  · rw [h]; exact ⟨Nat.le_refl _, ff⟩
  · rw [h]; exact ⟨Nat.le_of_lt smaller, Nat.or_lt_two_pow (n := 16) ff (by decide)⟩

theorem wireFormMac (compress : Bool) :
    (wireForm x flags payload compress).2 &&& flagMacPresent = flags &&& flagMacPresent := by
  rcases wireFormCases x flags payload compress with h | ⟨h, -, -⟩
  · rw [h]
  · rw [h]; exact orApart (by decide)

theorem packFrameFit {t : Bytes} (fits : payload.length ≤ maxPayload) (ff : flags < 256 ^ 2)
    (addressed : targetBytes target = .ok t) :
    packFrame x target payload flags sessionKey compress =
      .ok (headerBytes (wireForm x (announced sessionKey flags) payload compress).2
          (wireForm x (announced sessionKey flags) payload compress).1.length t
          (crc32 (wireForm x (announced sessionKey flags) payload compress).1) ++
        (wireForm x (announced sessionKey flags) payload compress).1 ++
        plainTag x sessionKey (announced sessionKey flags) t payload) := by
  have size := targetBytesLength addressed
  have small : ¬ payload.length > maxPayload := Nat.not_lt.mpr fits
  have af := announcedFits sessionKey ff
  obtain ⟨shorter, wf⟩ := wireFormFits x payload compress af
  have wire := headerBytesForFit size wf (Nat.le_trans shorter fits)
  unfold headerBytesFor at wire
  have plain := headerBytesForFit size af fits
  unfold packFrame
  cases sessionKey with
  | none =>
    simp only [announced, Option.isSome_none, Bool.false_eq_true, if_false] at wire ⊢
    simp only [if_neg small, addressed, wire, plainTag, pure, Except.pure, bind, Except.bind]
  | some key =>
    simp only [announced, Option.isSome_some, if_true] at wire plain ⊢
    simp only [if_neg small, addressed, plain, wire, plainTag, pure, Except.pure, bind, Except.bind]

theorem packFrameOk (ok : packFrame x target payload flags sessionKey compress = .ok raw) :
    payload.length ≤ maxPayload ∧ flags < 256 ^ 2 ∧ ∃ t, targetBytes target = .ok t := by
  have small : payload.length ≤ maxPayload := by
    by_contra big
    simp [packFrame, Nat.lt_of_not_le big, throw, throwThe, MonadExceptOf.throw, bind, Except.bind] at ok
  cases addressed : targetBytes target with
  | error e =>
    unfold packFrame at ok
    cases sessionKey <;>
      simp [Nat.not_lt.mpr small, addressed, bind, Except.bind, pure, Except.pure] at ok
  | ok t =>
    refine ⟨small, ?_, t, rfl⟩
    have grows : flags ≤ (wireForm x (announced sessionKey flags) payload compress).2 := by
      have first : flags ≤ announced sessionKey flags := by
        unfold announced
        split
        · exact Nat.left_le_or
        · exact Nat.le_refl _
      rcases wireFormCases x (announced sessionKey flags) payload compress with
        h | ⟨h, -, -⟩
      · rw [h]; exact first
      · rw [h]; exact Nat.le_trans first Nat.left_le_or
    unfold packFrame at ok
    simp only [Nat.not_lt.mpr small, addressed, if_false, bind, Except.bind, pure, Except.pure] at ok
    cases sessionKey with
    | none =>
      simp only [announced, Option.isSome_none, Bool.false_eq_true, if_false] at ok grows
      split at ok
      · contradiction
      · rename_i header made
        exact Nat.lt_of_le_of_lt grows (packHeaderExact (targetBytesLength addressed) made).1
    | some key =>
      simp only [announced, Option.isSome_some, if_true] at ok grows
      split at ok
      · contradiction
      · split at ok
        · contradiction
        · rename_i header made
          exact Nat.lt_of_le_of_lt grows (packHeaderExact (targetBytesLength addressed) made).1

/- The packed bytes as a frame. A caller that announces a tag without a key gets
bytes that are no frame, hence the last premise. -/
theorem packFrameIsFrame {t : Bytes} (compress : Bool) (fits : payload.length ≤ maxPayload) (ff : flags < 256 ^ 2)
    (addressed : targetBytes target = .ok t) (honest : sessionKey.isSome ∨ flags &&& flagMacPresent = 0) :
    ∃ f : Frame, packFrame x target payload flags sessionKey compress = .ok f.bytes ∧ f.target = t ∧
      (f.body, f.flags) = wireForm x (announced sessionKey flags) payload compress ∧
      f.tag = plainTag x sessionKey (announced sessionKey flags) t payload := by
  have af := announcedFits sessionKey ff
  obtain ⟨shorter, wf⟩ := wireFormFits x payload compress af
  have mac : (announced sessionKey flags &&& flagMacPresent = 0) = (sessionKey.isSome = false) := by
    cases sessionKey with
    | none => simpa [announced] using honest
    | some key =>
      have set : (flags ||| flagMacPresent) &&& flagMacPresent ≠ 0 := orSet (by decide)
      simpa [announced] using set
  have tagFit : (plainTag x sessionKey (announced sessionKey flags) t payload).length =
      if (wireForm x (announced sessionKey flags) payload compress).2 &&& flagMacPresent = 0 then 0 else 32 := by
    rw [plainTagLength, wireFormMac]
    simp only [mac]
    cases sessionKey <;> rfl
  exact ⟨⟨_, t, _, _, wf, targetBytesLength addressed, Nat.le_trans shorter fits, tagFit⟩,
    packFrameFit fits ff addressed, rfl, rfl, rfl⟩

theorem normalizeWireForm {t : Bytes} (compress : Bool) (fits : payload.length ≤ maxPayload) (ff : flags < 256 ^ 2)
    (size : t.length = 32) (unset : flags &&& flagCompressed = 0)
    (inverse : x.zstdDecompress (x.zstdCompress payload) maxPayload = .ok payload) :
    normalize x (wireForm x flags payload compress).2 t (wireForm x flags payload compress).1 =
      .ok ⟨flags, headerBytes flags payload.length t (crc32 payload), payload⟩ := by
  have header := headerBytesForFit size ff fits
  rcases wireFormCases x flags payload compress with h | ⟨h, -, -⟩
  · simp only [h, normalize, unset, if_true, header, bind, Except.bind, pure, Except.pure]
  · have set : (flags ||| flagCompressed) &&& flagCompressed ≠ 0 := orSet (by decide)
    have opened : decompress x (x.zstdCompress payload) = .ok payload := by
      simp [decompress, inverse, Nat.not_lt.mpr fits]
    simp only [h, normalize, if_neg set, opened, clearOr unset, header, bind, Except.bind, pure, Except.pure]

theorem packedDelivers {t : Bytes} {f : Frame} {readerKey : Option Bytes}
    (honest : sessionKey.isSome ∨ flags &&& flagMacPresent = 0)
    (normal : normalize x f.flags f.target f.body = .ok ⟨announced sessionKey flags,
      headerBytes (announced sessionKey flags) payload.length t (crc32 payload), payload⟩)
    (tag : f.tag = plainTag x sessionKey (announced sessionKey flags) t payload)
    (reader : readerKey = none ∨ readerKey = sessionKey) :
    f.deliver x readerKey = .ok (announced sessionKey flags, payload) := by
  refine Frame.deliverExact.mpr ⟨_, normal, ?_, rfl⟩
  unfold Frame.Admits
  cases sessionKey with
  | none =>
    have plain : announced none flags &&& flagMacPresent = 0 := by simpa [announced] using honest
    have unkeyed : readerKey = none := by simpa using reader
    simp [plain, unkeyed, checkUntagged]
  | some key =>
    have set : announced (some key) flags &&& flagMacPresent ≠ 0 := orSet (by decide)
    rw [if_pos set, tag]
    rcases reader with rfl | rfl
    · rfl
    · simp [checkTag, verifyTag, plainTag]

def macMissing : Error := .internal (lit "MAC missing on secured connection")

theorem untaggedRefused {f : Frame} {plain : Plain} (normal : normalize x f.flags f.target f.body = .ok plain)
    (untagged : plain.flags &&& flagMacPresent = 0) (key : Bytes) :
    f.deliver x (some key) = .error macMissing := by
  simp [Frame.deliver, normal, untagged, checkUntagged, macMissing, bind, Except.bind]

end Packing

def Lossless (x : Externals) : Prop :=
  ∀ payload, payload.length ≤ maxPayload → x.zstdDecompress (x.zstdCompress payload) maxPayload = .ok payload

structure Message where
  target : Str
  payload : Bytes
  flags : Nat
  sessionKey : Option Bytes
  compress : Bool

namespace Message

structure Valid (m : Message) : Prop where
  payloadFits : m.payload.length ≤ maxPayload
  flagsFit : m.flags < 256 ^ 2
  uncompressed : m.flags &&& flagCompressed = 0
  untagged : m.flags &&& flagMacPresent = 0

def pack (x : Externals) (m : Message) : Except Error Bytes :=
  packFrame x m.target m.payload m.flags m.sessionKey m.compress

def received (m : Message) : Nat × Bytes := (announced m.sessionKey m.flags, m.payload)

end Message

def readFramesAsync (x : Externals) : List (Option Bytes) → Reader UInt8 Error (List (Nat × Bytes))
  | [] => pure []
  | key :: keys => do
    let frame ← asyncReadFrame x key
    let frames ← readFramesAsync x keys
    return frame :: frames

def readFrames (x : Externals) : List (Option Bytes) → StateT Bytes (Except Error) (List Bytes)
  | [] => pure []
  | key :: keys => do
    let payload ← readFrame x key
    let payloads ← readFrames x keys
    return payload :: payloads

section Streams
variable {x : Externals}

theorem messagePacked {m : Message} (valid : m.Valid) :
    (m.pack x = .error .unicodeEncode ∧ ¬ Encodable m.target) ∨
    ∃ (t : Bytes) (f : Frame), m.pack x = .ok f.bytes ∧ Encodable m.target ∧
      f.body.length ≤ m.payload.length ∧
      f.tag = plainTag x m.sessionKey (announced m.sessionKey m.flags) t m.payload ∧
      (x.zstdDecompress (x.zstdCompress m.payload) maxPayload = .ok m.payload →
        normalize x f.flags f.target f.body = .ok ⟨announced m.sessionKey m.flags,
          headerBytes (announced m.sessionKey m.flags) m.payload.length t (crc32 m.payload), m.payload⟩) := by
  cases addressed : targetBytes m.target with
  | error e =>
    have lone : ¬ Encodable m.target := by rw [← targetBytesDefined]; simp [addressed]
    have unencodable : targetBytes m.target = .error .unicodeEncode := by
      simp [targetBytes, encodeText, (encodeUndefined _).mpr lone, bind, Except.bind]
    refine .inl ⟨?_, lone⟩
    unfold Message.pack packFrame
    cases m.sessionKey <;>
      simp [Nat.not_lt.mpr valid.payloadFits, unencodable, bind, Except.bind, pure, Except.pure]
  | ok t =>
    have af := announcedFits m.sessionKey valid.flagsFit
    obtain ⟨f, packed, rfl, wire, tag⟩ := packFrameIsFrame (x := x) m.compress
      valid.payloadFits valid.flagsFit addressed (.inr valid.untagged)
    have shorter := (wireFormFits x m.payload m.compress af).1
    rw [← congrArg Prod.fst wire] at shorter
    refine .inr ⟨f.target, f, packed, targetBytesDefined.mp ⟨_, addressed⟩, shorter, tag, fun inverse => ?_⟩
    have normal := normalizeWireForm m.compress valid.payloadFits af f.targetFit
      (announcedCompressed.trans valid.uncompressed) inverse
    rw [← wire] at normal
    exact normal

structure Carries (x : Externals) (m : Message) (raw : Bytes) : Prop where
  bounded : raw.length ≤ headerSize + m.payload.length + 32
  read : ∀ readerKey rest, readerKey = none ∨ readerKey = m.sessionKey →
    (asyncReadFrame x readerKey).run (raw ++ rest) = (.ok m.received, rest)
  refused : m.sessionKey = none → ∀ key rest,
    ((asyncReadFrame x (some key)).run (raw ++ rest)).1 = .error (.raised macMissing)

theorem packedCarries {m : Message} {raw : Bytes} (valid : m.Valid) (packed : m.pack x = .ok raw)
    (inverse : x.zstdDecompress (x.zstdCompress m.payload) maxPayload = .ok m.payload) :
    Carries x m raw := by
  rcases messagePacked (x := x) valid with ⟨fails, -⟩ | ⟨t, f, made, -, shorter, tag, normal⟩
  · rw [packed] at fails; contradiction
  cases made.symm.trans packed
  have normal := normal inverse
  refine ⟨?_, fun readerKey rest reader => ?_, fun unkeyed key rest => ?_⟩
  · have tagged := plainTagLength x m.sessionKey (announced m.sessionKey m.flags) t m.payload
    rw [f.bytesLength, tag, tagged]
    split <;> omega
  · exact asyncReadsFrame (packedDelivers (.inr valid.untagged) normal tag reader) rest
  · have untagged : announced m.sessionKey m.flags &&& flagMacPresent = 0 := by
      simpa [announced, unkeyed] using valid.untagged
    rw [asyncOutcome, untaggedRefused normal untagged]
    rfl

theorem readFrameFollows {m : Message} {raw : Bytes} {readerKey : Option Bytes}
    (carried : Carries x m raw) (reader : readerKey = none ∨ readerKey = m.sessionKey) (rest : Bytes) :
    readFrame x readerKey (raw ++ rest) = .ok (m.payload, rest) := by
  have read := streamReads.mpr (carried.read readerKey rest reader)
  change (readStream x readerKey (raw ++ rest) >>= fun got => pure (got.1.2, got.2)) = _
  rw [read]
  rfl

theorem readFrameRefuses {m : Message} {raw : Bytes} (carried : Carries x m raw)
    (unkeyed : m.sessionKey = none) (key rest : Bytes) :
    readFrame x (some key) (raw ++ rest) = .error macMissing ∧
    readFrameFromBytes x (raw ++ rest) (some key) = .error macMissing := by
  have refused := carried.refused unkeyed key rest
  have same := streamFollows x (some key) (raw ++ rest)
  rcases h : (asyncReadFrame x (some key)).run (raw ++ rest) with ⟨(e | _) | v, r⟩
  · simp only [h, Except.error.injEq, Halt.raised.injEq] at refused same
    subst e
    constructor
    · change (readStream x (some key) (raw ++ rest) >>= fun got => pure (got.1.2, got.2)) = _
      rw [same]
      rfl
    · rw [readFrameFromBytes, same]
      rfl
  · simp [h] at refused
  · simp [h] at refused

theorem streamRead {stream : List (Message × Option Bytes)} {frames : List Bytes}
    (carried : List.Forall₂ (fun s raw => Carries x s.1 raw) stream frames)
    (readers : ∀ s ∈ stream, s.2 = none ∨ s.2 = s.1.sessionKey) :
    (readFramesAsync x (stream.map Prod.snd)).run frames.flatten =
      (.ok (stream.map fun s => s.1.received), []) ∧
    readFrames x (stream.map Prod.snd) frames.flatten = .ok (stream.map fun s => s.1.payload, []) := by
  induction carried with
  | nil => exact ⟨rfl, rfl⟩
  | @cons s raw stream frames head tail ih =>
    have reader := readers s List.mem_cons_self
    obtain ⟨async, sync⟩ := ih (fun s member => readers s (List.mem_cons_of_mem _ member))
    constructor
    · simp only [List.map_cons, List.flatten_cons, readFramesAsync]
      refine Reader.runBindOk.mpr ⟨_, _, head.read s.2 frames.flatten reader, ?_⟩
      exact Reader.runBindOk.mpr ⟨_, _, async, rfl⟩
    · have here := readFrameFollows head reader frames.flatten
      change (readFrame x s.2 (raw ++ frames.flatten) >>= fun got =>
        readFrames x (stream.map Prod.snd) got.2 >>= fun more => pure (got.1 :: more.1, more.2)) = _
      rw [here]
      change (readFrames x (stream.map Prod.snd) frames.flatten >>= _) = _
      rw [sync]
      rfl

/- The stream round trip. Packing refuses exactly the targets without a UTF-8 form;
every list of packed frames reads back in order and to the last byte. -/
theorem frameStreamRoundTrip (x : Externals)
    (zstd : ∀ p, p.length ≤ maxPayload → x.zstdDecompress (x.zstdCompress p) maxPayload = .ok p)
    (stream : List (Message × Option Bytes)) (valid : ∀ s ∈ stream, s.1.Valid)
    (readers : ∀ s ∈ stream, s.2 = none ∨ s.2 = s.1.sessionKey) :
    (∀ s ∈ stream, (∃ raw, s.1.pack x = .ok raw) ↔ Encodable s.1.target) ∧
    ∀ frames, List.Forall₂ (fun s raw => s.1.pack x = .ok raw) stream frames →
      (readFramesAsync x (stream.map Prod.snd)).run frames.flatten =
        (.ok (stream.map fun s => s.1.received), []) ∧
      readFrames x (stream.map Prod.snd) frames.flatten = .ok (stream.map fun s => s.1.payload, []) ∧
      List.Forall₂ (fun s raw => raw.length ≤ 44 + s.1.payload.length + 32 ∧
        (s.1.sessionKey = none → ∀ key rest,
          ((asyncReadFrame x (some key)).run (raw ++ rest)).1 = .error (.raised macMissing) ∧
          readFrame x (some key) (raw ++ rest) = .error macMissing ∧
          readFrameFromBytes x (raw ++ rest) (some key) = .error macMissing)) stream frames := by
  refine ⟨fun s member => ?_, fun frames packed => ?_⟩
  · rcases messagePacked (x := x) (valid s member) with ⟨fails, lone⟩ | ⟨t, f, made, encodable, -⟩
    · simp [fails, lone]
    · simp [made, encodable]
  · have both : List.Forall₂ (fun s raw => s.1.Valid ∧ s.1.pack x = .ok raw) stream frames :=
      (List.forall₂_and_left stream frames).mpr ⟨valid, packed⟩
    have carried : List.Forall₂ (fun s raw => Carries x s.1 raw) stream frames :=
      both.imp fun s raw h => packedCarries h.1 h.2 (zstd _ h.1.payloadFits)
    obtain ⟨async, sync⟩ := streamRead carried readers
    refine ⟨async, sync, carried.imp fun s raw one => ⟨one.bounded, fun unkeyed key rest => ?_⟩⟩
    exact ⟨one.refused unkeyed key rest, readFrameRefuses one unkeyed key rest⟩

end Streams

def sampleKey : Bytes := (List.range 32).map UInt8.ofNat

def sampleMessage : Message := ⟨lit "kernel", ascii "ping", 0, some sampleKey, true⟩

def sampleTagged : Bytes :=
  [0x56, 0x52, 0, 1, 0, 0, 0, 4] ++ (ascii "kernel" ++ List.replicate 26 0) ++ [37, 213, 61, 253] ++
    ascii "ping"

def sampleTag : Bytes :=
  [215, 33, 2, 20, 139, 240, 4, 64, 153, 20, 205, 132, 205, 85, 204, 53,
   206, 98, 220, 236, 201, 55, 86, 116, 119, 160, 100, 227, 167, 117, 86, 248]

def sampleFrame : Bytes := sampleTagged ++ sampleTag

def sampleExternals : Externals where
  hmacSha256 key message :=
    if key = sampleKey ∧ message = sampleTagged then sampleTag else List.replicate 32 0
  digestLength key message := by
    split
    · rfl
    · exact List.length_replicate
  zstdCompress payload := payload
  zstdDecompress payload _ := .ok payload

theorem sampleValid : sampleMessage.Valid := ⟨by decide, by decide, by decide, by decide⟩

theorem samplePacked : sampleMessage.pack sampleExternals = .ok sampleFrame := by decide +kernel

theorem frameStreamRoundTripSample :
    (readFramesAsync sampleExternals [some sampleKey, none]).run (sampleFrame ++ sampleFrame) =
      (.ok [(1, ascii "ping"), (1, ascii "ping")], []) :=
  ((frameStreamRoundTrip sampleExternals (fun _ _ => rfl)
    [(sampleMessage, some sampleKey), (sampleMessage, none)]
    (by simp only [List.mem_cons, List.not_mem_nil, or_false]; rintro s (rfl | rfl) <;> exact sampleValid)
    (by simp [sampleMessage])).2 [sampleFrame, sampleFrame]
    (.cons samplePacked (.cons samplePacked .nil))).1

end Vynkor.Framing
