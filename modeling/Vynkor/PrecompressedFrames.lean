import Vynkor.FrameAuthenticity

/-! A payload that the caller compressed. `pack_frame` leaves it as it is and tags it
as it is, while the readers decompress it and check the tag of the plaintext. -/
namespace Vynkor.Framing
open Octets Text ExactReader

def Decodes (x : Externals) (sessionKey : Option Bytes) (raw : Bytes) (value : Nat × Bytes) : Prop :=
  readFrameFromBytes x raw sessionKey = .ok value ∧ (asyncReadFrame x sessionKey).run raw = (.ok value, [])

/- The frame of the compressed `z` reads as the plaintext `p`, with the flags that the
frame `ordinary` of `p` reads with. -/
def DecodesAlike (x : Externals) (target : Str) (p z : Bytes) (flags : Nat) (sessionKey : Option Bytes)
    (compress : Bool) (ordinary : Bytes) : Prop :=
  ∃ raw received, packFrame x target z (flags ||| flagCompressed) sessionKey compress = .ok raw ∧
    Decodes x sessionKey raw (received, p) ∧ Decodes x sessionKey ordinary (received, p)

def SameTag (x : Externals) (key target : Bytes) (flags : Nat) (z p : Bytes) : Prop :=
  computeTag x key (headerBytes (flags ||| flagCompressed ||| flagMacPresent) z.length target (crc32 z)) z =
    computeTag x key (headerBytes (flags ||| flagMacPresent) p.length target (crc32 p)) p

section Precompressed
variable {x : Externals} {target : Str} {p z raw : Bytes} {flags : Nat} {sessionKey : Option Bytes} {compress : Bool}

theorem decodesAsync {value : Nat × Bytes} :
    Decodes x sessionKey raw value ↔ (asyncReadFrame x sessionKey).run raw = (.ok value, []) := by
  refine ⟨And.right, fun read => ⟨?_, read⟩⟩
  rw [readFrameFromBytes, streamReads.mpr read]
  rfl

theorem decodesFrame {f : Frame} {value : Nat × Bytes} :
    Decodes x sessionKey f.bytes value ↔ f.deliver x sessionKey = .ok value := by
  rw [decodesAsync]
  constructor
  · intro read
    have outcome : ((asyncReadFrame x sessionKey).run (f.bytes ++ [])).1 = _ := asyncOutcome f []
    rw [List.append_nil, read] at outcome
    cases delivered : f.deliver x sessionKey with
    | error e => simp [delivered, Except.mapError] at outcome
    | ok got => simpa [delivered, Except.mapError, eq_comm] using outcome
  · intro delivered
    have read := asyncReadsFrame delivered []
    rwa [List.append_nil] at read

theorem keyedDecodes {key : Bytes} (lossless : Lossless x) (uncompressed : flags &&& flagCompressed = 0)
    (packed : packFrame x target p flags (some key) compress = .ok raw) :
    Decodes x (some key) raw (announced (some key) flags, p) := by
  obtain ⟨fits, ff, t, addressed⟩ := packFrameOk packed
  have keyed : (some key).isSome = true ∨ flags &&& flagMacPresent = 0 := .inl rfl
  obtain ⟨f, made, rfl, wire, tag⟩ := packFrameIsFrame (x := x) compress fits ff addressed keyed
  have normal := normalizeWireForm compress fits (announcedFits (some key) ff) f.targetFit
    (announcedCompressed.trans uncompressed) (lossless p fits)
  rw [← wire] at normal
  rw [Except.ok.inj (packed.symm.trans made)]
  exact decodesFrame.mpr (packedDelivers keyed normal tag (.inr rfl))

theorem ordinaryDecodes (uncompressed : flags &&& flagCompressed = 0) (untagged : flags &&& flagMacPresent = 0)
    (inverse : x.zstdDecompress (x.zstdCompress p) maxPayload = .ok p)
    (packed : packFrame x target p flags sessionKey compress = .ok raw) :
    Decodes x sessionKey raw (announced sessionKey flags, p) := by
  obtain ⟨fits, ff, -⟩ := packFrameOk packed
  have valid : (Message.mk target p flags sessionKey compress).Valid := ⟨fits, ff, uncompressed, untagged⟩
  have read := (packedCarries valid packed inverse).read sessionKey [] (.inr rfl)
  rw [List.append_nil] at read
  exact decodesAsync.mpr read

theorem announcedCleared (uncompressed : flags &&& flagCompressed = 0) :
    clear (announced sessionKey (flags ||| flagCompressed)) flagCompressed = announced sessionKey flags := by
  unfold announced
  split
  · have unset : (flags ||| flagMacPresent) &&& flagCompressed = 0 := by rw [orApart (by decide), uncompressed]
    rw [Nat.or_assoc, Nat.or_comm flagCompressed, ← Nat.or_assoc, clearOr unset]
  · exact clearOr uncompressed

theorem announcedSet : announced sessionKey (flags ||| flagCompressed) &&& flagCompressed ≠ 0 := by
  rw [announcedCompressed]
  exact orSet (by decide)

theorem precompressedFrame (sessionKey : Option Bytes) (compress : Bool) {t : Bytes} (fits : z.length ≤ maxPayload) (plainFits : p.length ≤ maxPayload)
    (ff : flags < 256 ^ 2) (uncompressed : flags &&& flagCompressed = 0) (untagged : flags &&& flagMacPresent = 0)
    (opens : x.zstdDecompress z maxPayload = .ok p) (addressed : targetBytes target = .ok t) :
    ∃ f : Frame, packFrame x target z (flags ||| flagCompressed) sessionKey compress = .ok f.bytes ∧
      f.tag = plainTag x sessionKey (announced sessionKey (flags ||| flagCompressed)) t z ∧
      normalize x f.flags f.target f.body = .ok ⟨announced sessionKey flags,
        headerBytes (announced sessionKey flags) p.length t (crc32 p), p⟩ := by
  have wide : flags ||| flagCompressed < 256 ^ 2 := Nat.or_lt_two_pow (n := 16) ff (by decide)
  have honest : (flags ||| flagCompressed) &&& flagMacPresent = 0 := by rw [orApart (by decide), untagged]
  have framed : ∃ f : Frame, packFrame x target z (flags ||| flagCompressed) sessionKey compress = .ok f.bytes ∧ _ :=
    packFrameIsFrame compress fits wide addressed (.inr honest)
  obtain ⟨f, packed, rfl, wire, tag⟩ := framed
  have kept : wireForm x (announced sessionKey (flags ||| flagCompressed)) z compress =
      (z, announced sessionKey (flags ||| flagCompressed)) := by
    rcases wireFormCases x (announced sessionKey (flags ||| flagCompressed)) z compress with same | ⟨-, -, unset⟩
    · exact same
    · exact absurd unset announcedSet
  rw [kept, Prod.mk.injEq] at wire
  have opened : decompress x z = .ok p := by simp [decompress, opens, Nat.not_lt.mpr plainFits]
  have header := headerBytesForFit f.targetFit (announcedFits sessionKey ff) plainFits
  refine ⟨f, packed, tag, ?_⟩
  rw [wire.1, wire.2, Framing.normalize, if_neg announcedSet, opened]
  simp only [bind, Except.bind, announcedCleared uncompressed, header, pure, Except.pure]

/- A payload `z` compressed by the caller decodes as the plaintext `p`, of which it is an
encoding, exactly without a session key or where two HMAC inputs have one tag. -/
theorem precompressedDecodes (x : Externals) (target : Str) (p z : Bytes) (flags : Nat) (sessionKey : Option Bytes)
    (compress : Bool) (plainFits : p.length ≤ maxPayload) (fits : z.length ≤ maxPayload)
    (uncompressed : flags &&& flagCompressed = 0) (untagged : flags &&& flagMacPresent = 0)
    (opens : x.zstdDecompress z maxPayload = .ok p)
    (inverse : x.zstdDecompress (x.zstdCompress p) maxPayload = .ok p)
    (ordinary : Bytes) (packed : packFrame x target p flags sessionKey compress = .ok ordinary) :
    DecodesAlike x target p z flags sessionKey compress ordinary ↔
      ∀ key t, sessionKey = some key → targetBytes target = .ok t → SameTag x key t flags z p := by
  obtain ⟨-, ff, t, addressed⟩ := packFrameOk packed
  obtain ⟨f, made, tag, normal⟩ := precompressedFrame sessionKey compress fits plainFits ff uncompressed untagged opens addressed
  have plain := ordinaryDecodes uncompressed untagged inverse packed
  have delivers : f.deliver x sessionKey = .ok (announced sessionKey flags, p) ↔
      ∀ key, sessionKey = some key → SameTag x key t flags z p := by
    simp only [Frame.deliverExact, normal, Except.ok.injEq, exists_eq_left', and_true, tag]
    unfold Frame.Admits
    cases sessionKey with
    | none => simp [announced, untagged, checkUntagged]
    | some key =>
      have set : announced (some key) flags &&& flagMacPresent ≠ 0 := orSet (by decide)
      rw [if_pos set, checkTagOk]
      simp only [Option.some.injEq, forall_eq']
      exact Iff.rfl
  constructor
  · rintro ⟨raw, received, again, decodes, decodesPlain⟩ key t' keyed addressed'
    cases addressed.symm.trans addressed'
    cases made.symm.trans again
    have same : (asyncReadFrame x sessionKey).run ordinary = _ := decodesPlain.2
    rw [plain.2, Prod.mk.injEq, Except.ok.injEq] at same
    exact delivers.mp (same.1 ▸ decodesFrame.mp decodes) key keyed
  · intro same
    exact ⟨f.bytes, _, made, decodesFrame.mpr (delivers.mpr fun key keyed => same key t keyed addressed), plain⟩

end Precompressed

def sampleZstd : Bytes := [40, 181, 47, 253, 32, 4, 33, 0, 0] ++ ascii "ping"

def sampleTaggedZstd : Bytes :=
  [0x56, 0x52, 0, 3, 0, 0, 0, 13] ++ (ascii "kernel" ++ List.replicate 26 0) ++ [145, 114, 208, 70] ++ sampleZstd

def sampleZstdTag : Bytes :=
  [29, 179, 242, 18, 13, 26, 120, 214, 29, 10, 53, 52, 115, 24, 221, 42,
   79, 201, 80, 224, 147, 17, 233, 66, 182, 184, 147, 62, 53, 167, 79, 163]

def zstdExternals : Externals where
  hmacSha256 key message :=
    if key = sampleKey ∧ message = sampleTaggedZstd then sampleZstdTag else sampleExternals.hmacSha256 key message
  digestLength key message := by
    split
    · rfl
    · exact sampleExternals.digestLength key message
  zstdCompress payload := payload
  zstdDecompress payload _ := .ok (if payload = sampleZstd then ascii "ping" else payload)

def samplePlain (sessionKey : Option Bytes) : Bytes :=
  (packFrame zstdExternals (lit "kernel") (ascii "ping") 0 sessionKey true).toOption.getD []

theorem precompressedDecodesSample :
    DecodesAlike zstdExternals (lit "kernel") (ascii "ping") sampleZstd 0 none true (samplePlain none) :=
  (precompressedDecodes zstdExternals (lit "kernel") (ascii "ping") sampleZstd 0 none true (by decide) (by decide)
    (by decide) (by decide) (by decide) (by decide) (samplePlain none) (by decide +kernel)).mpr nofun

/- Under a session key the reader refuses the tag. -/
theorem precompressedRefused : ¬ ∀ (x : Externals) (target : Str) (p z : Bytes) (flags : Nat) (sessionKey : Option Bytes)
    (compress : Bool) (ordinary : Bytes), p.length ≤ maxPayload → z.length ≤ maxPayload → flags &&& flagCompressed = 0 →
    flags &&& flagMacPresent = 0 → x.zstdDecompress z maxPayload = .ok p →
    x.zstdDecompress (x.zstdCompress p) maxPayload = .ok p →
    packFrame x target p flags sessionKey compress = .ok ordinary →
    DecodesAlike x target p z flags sessionKey compress ordinary := by
  intro claim
  obtain ⟨raw, received, packed, decodes, -⟩ := claim zstdExternals (lit "kernel") (ascii "ping") sampleZstd 0 (some sampleKey)
    true (samplePlain (some sampleKey)) (by decide) (by decide) (by decide) (by decide) (by decide) (by decide)
    (by decide +kernel)
  have refused : ∀ raw ∈ (packFrame zstdExternals (lit "kernel") sampleZstd (0 ||| flagCompressed) (some sampleKey)
      true).toOption, readFrameFromBytes zstdExternals raw (some sampleKey) =
        .error (.internal (lit "frame MAC verification failed")) := by
    decide +kernel
  have accepted := decodes.1
  rw [refused raw (by rw [packed]; rfl)] at accepted
  cases accepted

end Vynkor.Framing
