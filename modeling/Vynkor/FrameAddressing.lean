import Vynkor.Client
import Vynkor.FrameRoundTrip

/-! What a frame says of its target: 32 bytes cut from the UTF-8 and filled with
zeros. Which targets share an address, and which keep one of their own. -/
namespace Vynkor
open Octets (Bytes field padded trimmed)
open Text Framing

inductive Addressed (x : Externals) (target : Str) (raw : Bytes) : Prop where
  | packed {payload flags sessionKey compress}
      (ok : packFrame x target payload flags sessionKey compress = .ok raw) : Addressed x target raw
  | sent {c : VynkorClient} {flags payload fault}
      (wrote : raw ∈ (c.sendRawWithFlags x target flags payload fault).1) : Addressed x target raw

def wireAddress (target : Str) : Bytes := trimmed (((encode target).getD []).take 32)

structure Representable (target : Str) : Prop where
  encoded : ∃ raw, encode target = some raw ∧ raw.length ≤ 32 ∧ raw.getLast? ≠ some 0

section Address
variable {x : Externals} {target target' : Str} {payload raw raw' t : Bytes} {flags : Nat}
  {sessionKey : Option Bytes} {compress : Bool} {fault : Option Str} {c : VynkorClient}

theorem targetBytesPadded {encoded : Bytes} (defined : encode target = some encoded) :
    targetBytes target = .ok (padded 32 encoded) := by
  have whole := List.take_of_length_le (Nat.le_of_eq (Octets.paddedLength 32 encoded))
  unfold targetBytes encodeText
  simp only [defined, bind, Except.bind]
  exact congrArg Except.ok whole

theorem headerField {length checksum : Nat} (size : t.length = 32) (rest : Bytes) :
    field 8 32 (headerBytes flags length t checksum ++ rest) = t := by
  have front : (Octets.be 2 magic ++ Octets.be 2 flags ++ Octets.be 4 length).length = 8 := by simp
  have found := Octets.fieldAt _ t (Octets.be 4 checksum ++ rest) front size
  rw [headerBytes]
  simpa only [List.append_assoc] using found

theorem packedField (ok : packFrame x target payload flags sessionKey compress = .ok raw) :
    ∃ encoded, encode target = some encoded ∧ field 8 32 raw = padded 32 encoded := by
  obtain ⟨fits, ff, t, addressed⟩ := packFrameOk ok
  obtain ⟨encoded, defined⟩ := Option.isSome_iff_exists.mp
    ((encodeDefined target).mpr (targetBytesDefined.mp ⟨t, addressed⟩))
  have made := ok.symm.trans (packFrameFit fits ff addressed)
  cases made
  cases addressed.symm.trans (targetBytesPadded defined)
  refine ⟨encoded, defined, ?_⟩
  rw [List.append_assoc]
  exact headerField (Octets.paddedLength 32 encoded) _

theorem addressedField (addressed : Addressed x target raw) :
    ∃ encoded, encode target = some encoded ∧ field 8 32 raw = padded 32 encoded := by
  cases addressed with
  | packed ok => exact packedField ok
  | sent wrote =>
    obtain ⟨compress, ok⟩ := sentPacked wrote
    exact packedField ok

theorem representableAddress (faithful : Representable target) : encode target = some (wireAddress target) := by
  obtain ⟨encoded, defined, short, last⟩ := faithful.encoded
  have kept : trimmed encoded = encoded := by
    refine List.rdropWhile_eq_self_iff.mpr fun full zero => last ?_
    rw [List.getLast?_eq_some_getLast full]
    exact congrArg some (by simpa using zero)
  rw [wireAddress, defined, Option.getD_some, List.take_of_length_le short, kept]

theorem framesAddressed (addressed : Addressed x target raw) (addressed' : Addressed x target' raw') :
    (Encodable target ∧ Encodable target') ∧
      (field 8 32 raw = field 8 32 raw' ↔ wireAddress target = wireAddress target') ∧
      (Representable target → Representable target' → field 8 32 raw = field 8 32 raw' → target = target') := by
  obtain ⟨encoded, defined, here⟩ := addressedField addressed
  obtain ⟨encoded', defined', here'⟩ := addressedField addressed'
  have shared : field 8 32 raw = field 8 32 raw' ↔ wireAddress target = wireAddress target' := by
    rw [here, here', Octets.paddedSame, wireAddress, wireAddress, defined, defined', Option.getD_some, Option.getD_some]
  refine ⟨⟨?_, ?_⟩, shared, fun faithful faithful' same => ?_⟩
  · exact (encodeDefined target).mp (by rw [defined]; rfl)
  · exact (encodeDefined target').mp (by rw [defined']; rfl)
  · have one := representableAddress faithful
    rw [shared.mp same] at one
    exact encodeInjective one (representableAddress faithful')

end Address

def regionTarget (region : Char) : Str := lit "payments-gateway-production-eu-west-" ++ [.scalar region]

def regionFrame (target : Str) : Bytes := (packFrame sampleExternals target [] 0 none true).toOption.getD []

theorem framesAddressedSample : field 8 32 (regionFrame (lit "kernel")) ≠ field 8 32 (regionFrame (lit "echo")) := by
  have kernel : Addressed sampleExternals (lit "kernel") (regionFrame (lit "kernel")) :=
    .packed (show packFrame sampleExternals _ [] 0 none true = _ by decide +kernel)
  have echo : Addressed sampleExternals (lit "echo") (regionFrame (lit "echo")) :=
    .packed (show packFrame sampleExternals _ [] 0 none true = _ by decide +kernel)
  intro same
  have equal := (framesAddressed kernel echo).2.2 ⟨ascii "kernel", by decide⟩ ⟨ascii "echo", by decide⟩ same
  exact absurd equal (by decide)

theorem addressShared : ¬ ∀ (x : Externals) (target target' : Str) (raw raw' : Bytes), Addressed x target raw →
    Addressed x target' raw' → field 8 32 raw = field 8 32 raw' → target = target' := by
  intro claim
  have one : Addressed sampleExternals (regionTarget '1') (regionFrame (regionTarget '1')) :=
    .packed (show packFrame sampleExternals _ [] 0 none true = _ by decide +kernel)
  have two : Addressed sampleExternals (regionTarget '2') (regionFrame (regionTarget '2')) :=
    .packed (show packFrame sampleExternals _ [] 0 none true = _ by decide +kernel)
  exact absurd (claim _ _ _ _ _ one two (by decide +kernel)) (by decide)

end Vynkor
