import Vynkor.FrameRoundTrip

/-! A reader with a key accepts only what was packed under that key. The reader tags
a header it rebuilds from decompressed bytes, so the argument is that this header
followed by the payload is an injective encoding of flags, target and payload.
The MAC is ideal on the adversary's bytes and zstd is an arbitrary function. -/
namespace Vynkor.Framing
open Octets Text ExactReader

def Message.taggedBytes (m : Message) : Except Error Bytes := do
  let header ← headerBytesFor (m.flags ||| flagMacPresent) (← targetBytes m.target) m.payload
  return header ++ m.payload

/- No 32 bytes of `raw` are the tag of a byte string that was not tagged before.
Over all 32-byte strings the property is false of every function, so it is stated
for the strings the adversary supplies. -/
def IdealMac (x : Externals) (key : Bytes) (history : List Message) (raw : Bytes) : Prop :=
  ∀ header payload tag : Bytes, tag.length = 32 → tag <:+: raw → tag = computeTag x key header payload →
    ∃ m ∈ history, m.sessionKey = some key ∧ m.taggedBytes = .ok (header ++ payload)

structure Authentic (m : Message) (raw : Bytes) (flags : Nat) (payload : Bytes) : Prop where
  payload : m.payload = payload
  flags : flags = m.flags ||| flagMacPresent
  target : targetBytes m.target = .ok (field 8 32 raw)
  wireFlags : clear (readBE (field 2 2 raw)) flagCompressed = m.flags ||| flagMacPresent
  tagged : readBE (field 2 2 raw) &&& flagMacPresent ≠ 0

section Keyed
variable {x : Externals} {key : Bytes}

theorem taggedExact {m : Message} {tagged : Bytes} (ok : m.taggedBytes = .ok tagged) :
    ∃ t, targetBytes m.target = .ok t ∧ m.flags ||| flagMacPresent < 256 ^ 2 ∧
      m.payload.length < 256 ^ 4 ∧
      tagged = headerBytes (m.flags ||| flagMacPresent) m.payload.length t (crc32 m.payload) ++ m.payload := by
  unfold Message.taggedBytes at ok
  cases addressed : targetBytes m.target with
  | error e => simp [addressed, bind, Except.bind] at ok
  | ok t =>
    cases made : headerBytesFor (m.flags ||| flagMacPresent) t m.payload with
    | error e => simp [addressed, made, bind, Except.bind] at ok
    | ok header =>
      simp only [addressed, made, bind, Except.bind, pure, Except.pure, Except.ok.injEq] at ok
      obtain ⟨ff, rfl⟩ := packHeaderExact (targetBytesLength addressed) made
      refine ⟨t, rfl, ff, ?_, ok.symm⟩
      unfold headerBytesFor packHeader at made
      split at made
      · rename_i fit; exact fit.2.1
      · contradiction

theorem checkTagOk {plain : Plain} {tag : Bytes} :
    checkTag x (some key) plain tag = .ok () ↔ tag = computeTag x key plain.header plain.payload := by
  unfold checkTag verifyTag
  by_cases same : computeTag x key plain.header plain.payload = tag
  · simp [same]
  · have different : (computeTag x key plain.header plain.payload == tag) = false := by simp [same]
    simp only [different]
    exact ⟨nofun, fun h => absurd h.symm same⟩

theorem acceptedVerifies {f : Frame} {value : Nat × Bytes} (ok : f.deliver x (some key) = .ok value) :
    f.flags &&& flagMacPresent ≠ 0 ∧ f.tag.length = 32 ∧ value.1 = clear f.flags flagCompressed ∧
      value.2.length ≤ maxPayload ∧
      f.tag = computeTag x key (headerBytes value.1 value.2.length f.target (crc32 value.2)) value.2 := by
  obtain ⟨plain, normal, admitted, rfl⟩ := Frame.deliverExact.mp ok
  obtain ⟨flags, small, header, -⟩ := normalizeExact f.targetFit f.flagsFit f.bodyFit normal
  have mac := normalizeMac f.targetFit f.flagsFit f.bodyFit normal
  have set : plain.flags &&& flagMacPresent ≠ 0 := by
    intro untagged
    simp [Frame.Admits, untagged, checkUntagged] at admitted
  unfold Frame.Admits at admitted
  rw [if_pos set] at admitted
  have tag : f.tag = computeTag x key plain.header plain.payload := checkTagOk.mp admitted
  exact ⟨mac ▸ set, by rw [f.tagFit, if_neg (mac ▸ set)], flags, small, by rw [← header]; exact tag⟩

theorem plainInjective {flags flags' : Nat} {target target' payload payload' : Bytes}
    (size : target.length = 32) (size' : target'.length = 32) (ff : flags < 256 ^ 2) (ff' : flags' < 256 ^ 2)
    (pf : payload.length < 256 ^ 4) (pf' : payload'.length < 256 ^ 4)
    (same : headerBytes flags payload.length target (crc32 payload) ++ payload =
      headerBytes flags' payload'.length target' (crc32 payload') ++ payload') :
    flags = flags' ∧ target = target' ∧ payload = payload' := by
  obtain ⟨headers, payloads⟩ :=
    List.append_inj same (by rw [headerBytesLength size, headerBytesLength size'])
  obtain ⟨fl, -, ta, -⟩ :=
    headerInjective size size' ff ff' pf pf' (crcBound payload) (crcBound payload') headers
  exact ⟨fl, ta, payloads⟩

theorem frameAuthentic {history : List Message} {f : Frame} {rest : Bytes} {value : Nat × Bytes}
    (ideal : IdealMac x key history (f.bytes ++ rest)) (ok : f.deliver x (some key) = .ok value) :
    ∃ m ∈ history, m.sessionKey = some key ∧ Authentic m (f.bytes ++ rest) value.1 value.2 := by
  obtain ⟨set, size, flags, small, tag⟩ := acceptedVerifies ok
  have inside : f.tag <:+: f.bytes ++ rest := ⟨f.header ++ f.body, rest, rfl⟩
  obtain ⟨m, member, keyed, tagged⟩ := ideal _ _ _ size inside tag
  obtain ⟨t, addressed, ff, pf, spelled⟩ := taggedExact tagged
  have cf : value.1 < 256 ^ 2 := by
    rw [flags]; exact Nat.lt_of_le_of_lt (clearLe _ _) f.flagsFit
  obtain ⟨sameFlags, sameTarget, samePayload⟩ := plainInjective f.targetFit (targetBytesLength addressed)
    cf ff (Nat.lt_of_le_of_lt small (by decide)) pf spelled
  obtain ⟨-, flagsAt, -, targetAt, -⟩ :=
    headerFields f.targetFit f.flagsFit f.lengthFits (crcBound f.body)
  have within (start width : Nat) (fits : start + width ≤ 44) :
      field start width (f.bytes ++ rest) = field start width f.header := by
    have long : start + width ≤ f.header.length := f.headerLength ▸ fits
    rw [Frame.bytes, List.append_assoc, List.append_assoc]
    simp only [field]
    rw [List.drop_append_of_le_length (by omega), List.take_append_of_le_length (by simp; omega)]
  have wireFlags : readBE (field 2 2 (f.bytes ++ rest)) = f.flags := by
    rw [within 2 2 (by decide)]; exact flagsAt
  refine ⟨m, member, keyed, samePayload.symm, sameFlags, ?_, ?_, ?_⟩
  · rw [within 8 32 (by decide), addressed]
    exact congrArg Except.ok (sameTarget.symm.trans targetAt.symm)
  · rw [wireFlags, ← flags, sameFlags]
  · rw [wireFlags]; exact set

/- Frame authenticity for the three readers. -/
theorem frameAuthenticity (x : Externals) (key : Bytes) (history : List Message) (raw : Bytes)
    (ideal : IdealMac x key history raw) :
    (∀ flags payload rest, (asyncReadFrame x (some key)).run raw = (.ok (flags, payload), rest) →
      ∃ m ∈ history, m.sessionKey = some key ∧ Authentic m raw flags payload) ∧
    (∀ flags payload, readFrameFromBytes x raw (some key) = .ok (flags, payload) →
      ∃ m ∈ history, m.sessionKey = some key ∧ Authentic m raw flags payload) ∧
    (∀ payload rest, readFrame x (some key) raw = .ok (payload, rest) →
      ∃ m ∈ history, m.sessionKey = some key ∧ Authentic m raw (m.flags ||| flagMacPresent) payload) := by
  have async (flags payload rest) (ok : (asyncReadFrame x (some key)).run raw = (.ok (flags, payload), rest)) :
      ∃ m ∈ history, m.sessionKey = some key ∧ Authentic m raw flags payload := by
    obtain ⟨f, rfl, delivered⟩ := asyncAccepted ok
    exact frameAuthentic ideal delivered
  refine ⟨async, fun flags payload ok => ?_, fun payload rest ok => ?_⟩
  · unfold readFrameFromBytes at ok
    cases h : readStream x (some key) raw with
    | error e => simp [h, Except.map] at ok
    | ok got =>
      obtain ⟨⟨fl, p⟩, rest⟩ := got
      simp only [h, Except.map, Except.ok.injEq] at ok
      cases ok
      exact async _ _ rest (streamReads.mp h)
  · cases h : readStream x (some key) raw with
    | error e =>
      change (readStream x (some key) raw >>= _) = _ at ok
      simp [h, bind, Except.bind] at ok
    | ok got =>
      obtain ⟨⟨fl, p⟩, tail⟩ := got
      change (readStream x (some key) raw >>= fun got => pure (got.1.2, got.2)) = _ at ok
      simp only [h, bind, Except.bind, pure, Except.pure, Except.ok.injEq, Prod.mk.injEq] at ok
      obtain ⟨rfl, rfl⟩ := ok
      obtain ⟨m, member, keyed, authentic⟩ := async _ _ tail (streamReads.mp h)
      exact ⟨m, member, keyed, authentic.flags ▸ authentic⟩

end Keyed

theorem sampleIdeal : IdealMac sampleExternals sampleKey [sampleMessage] sampleFrame := by
  intro header payload tag size inside same
  refine ⟨sampleMessage, List.mem_singleton.mpr rfl, rfl, ?_⟩
  change tag = if sampleKey = sampleKey ∧ header ++ payload = sampleTagged then sampleTag
    else List.replicate 32 0 at same
  split at same
  · rename_i tagged
    rw [tagged.2]
    decide +kernel
  · subst same
    exact absurd inside (by decide +kernel)

theorem frameAuthenticitySample :
    ∃ m ∈ [sampleMessage], m.sessionKey = some sampleKey ∧ Authentic m sampleFrame 1 (ascii "ping") :=
  (frameAuthenticity sampleExternals sampleKey [sampleMessage] sampleFrame sampleIdeal).2.1 1 (ascii "ping")
    (by decide +kernel)

end Vynkor.Framing
