import Vynkor.Errors
import Vynkor.Library.ExactReader

/-! `vynkor/framing.py`: the 44-byte header, session keys and tags, the encoder
`pack_frame` and the three decoders. Python ints are naturals; a value outside a
header field makes `struct.pack` fail. -/
namespace Vynkor.Framing
open Octets Text ExactReader

structure Externals where
  hmacSha256 : Bytes → Bytes → Bytes
  digestLength : ∀ key message, (hmacSha256 key message).length = 32
  zstdCompress : Bytes → Bytes
  zstdDecompress : Bytes → Nat → Except Str Bytes

def magic : Nat := 0x5652
def headerSize : Nat := 44
def maxPayload : Nat := 1048576
def flagMacPresent : Nat := 0x0001
def flagCompressed : Nat := 0x0002
def flagFragmented : Nat := 0x0004
def flagRawBinary : Nat := 0x0010
def compressThreshold : Nat := 65536
def fragHeaderSize : Nat := 10

structure FragHeader where
  fragmentId : Nat
  sequence : Nat
  total : Nat
  streamId : Nat
  deriving DecidableEq, Repr

def packFragHeader (h : FragHeader) : Except Error Bytes :=
  if h.fragmentId < 256 ^ 2 ∧ h.sequence < 256 ^ 2 ∧ h.total < 256 ^ 2 ∧ h.streamId < 256 ^ 4 then
    .ok (be 2 h.fragmentId ++ be 2 h.sequence ++ be 2 h.total ++ be 4 h.streamId)
  else .error .structError

def parseFragHeader (payload : Bytes) : Option FragHeader :=
  if payload.length < fragHeaderSize then none
  else some ⟨readBE (field 0 2 payload), readBE (field 2 2 payload), readBE (field 4 2 payload),
    readBE (field 6 4 payload)⟩

section Model
variable (x : Externals)

def hkdfExtract (salt ikm : Bytes) : Bytes := x.hmacSha256 salt ikm

/- The expand loop. `legal` counts the counter values `bytes([counter])` still
accepts; the current counter is `256 - legal`. -/
def hkdfExpandLoop (prk info : Bytes) (length : Nat) : Nat → Bytes → Bytes → Except Error Bytes
  | 0, _, okm => if okm.length < length then .error (.valueError (lit "bytes must be in range(0, 256)")) else .ok (okm.take length)
  | legal + 1, t, okm =>
    if okm.length < length then
      let block := x.hmacSha256 prk (t ++ info ++ [UInt8.ofNat (255 - legal)])
      hkdfExpandLoop prk info length legal block (okm ++ block)
    else .ok (okm.take length)

def hkdfExpand (prk info : Bytes) (length : Nat) : Except Error Bytes :=
  hkdfExpandLoop x prk info length 255 [] []

def encodeText (s : Str) : Except Error Bytes :=
  match encode s with
  | some raw => .ok raw
  | none => .error .unicodeEncode

def deriveSessionKey (secret nonce : Bytes) (pluginId : Str) : Except Error Bytes := do
  let prk := hkdfExtract x nonce secret
  let name ← encodeText pluginId
  hkdfExpand x prk (ascii "vynkor-frame-mac-v1|" ++ name) 32

def computeTag (key header payload : Bytes) : Bytes := x.hmacSha256 key (header ++ payload)

def verifyTag (key header payload tag : Bytes) : Bool := computeTag x key header payload == tag

def targetBytes (target : Str) : Except Error Bytes := do
  let raw ← encodeText target
  let front := raw.take 32
  .ok ((front ++ List.replicate (32 - front.length) 0).take 32)

def packHeader (flags length : Nat) (target : Bytes) (checksum : Nat) : Except Error Bytes :=
  if flags < 256 ^ 2 ∧ length < 256 ^ 4 ∧ checksum < 256 ^ 4 then
    .ok (be 2 magic ++ be 2 flags ++ be 4 length ++
      (target.take 32 ++ List.replicate (32 - target.length) 0) ++ be 4 checksum)
  else .error .structError

def headerBytesFor (flags : Nat) (target payload : Bytes) : Except Error Bytes :=
  packHeader flags payload.length target (crc32 payload)

def decompress (payload : Bytes) : Except Error Bytes :=
  match x.zstdDecompress payload maxPayload with
  | .error e => .error (.internal (lit "decompress frame: " ++ e))
  | .ok out => if out.length > maxPayload then .error (.payloadTooLarge out.length) else .ok out

def wireForm (flags : Nat) (payload : Bytes) (compress : Bool) : Bytes × Nat :=
  if compress = true ∧ compressThreshold ≤ payload.length ∧ flags &&& flagCompressed = 0 ∧
      flags &&& flagRawBinary = 0 then
    let compressed := x.zstdCompress payload
    if compressed.length < payload.length then (compressed, flags ||| flagCompressed)
    else (payload, flags)
  else (payload, flags)

/- The tag covers the header and the payload as they are before compression. -/
def packFrame (target : Str) (payload : Bytes) (flags : Nat) (sessionKey : Option Bytes)
    (compress : Bool) : Except Error Bytes := do
  if payload.length > maxPayload then throw (.payloadTooLarge payload.length)
  let flags := if sessionKey.isSome then flags ||| flagMacPresent else flags
  let tag ← match sessionKey with
    | none => pure []
    | some key => do
      let plainHeader ← headerBytesFor flags (← targetBytes target) payload
      pure (computeTag x key plainHeader payload)
  let (wirePayload, wireFlags) := wireForm x flags payload compress
  let wireHeader ← packHeader wireFlags wirePayload.length (← targetBytes target) (crc32 wirePayload)
  return wireHeader ++ wirePayload ++ tag

structure Header where
  flags : Nat
  length : Nat
  target : Bytes
  storedCrc : Nat
  deriving DecidableEq, Repr

def parseHeader (raw : Bytes) : Except Error Header :=
  if readBE (field 0 2 raw) ≠ magic then .error .frameMagicMismatch
  else if maxPayload < readBE (field 4 4 raw) then
    .error (.payloadTooLarge (readBE (field 4 4 raw)))
  else .ok ⟨readBE (field 2 2 raw), readBE (field 4 4 raw), field 8 32 raw, readBE (field 40 4 raw)⟩

structure Plain where
  flags : Nat
  header : Bytes
  payload : Bytes
  deriving DecidableEq, Repr

def normalize (flags : Nat) (target payload : Bytes) : Except Error Plain :=
  if flags &&& flagCompressed = 0 then do
    let header ← headerBytesFor flags target payload
    return ⟨flags, header, payload⟩
  else do
    let plain ← decompress x payload
    let plainFlags := clear flags flagCompressed
    let plainHeader ← headerBytesFor plainFlags target plain
    return ⟨plainFlags, plainHeader, plain⟩

def openPayload (h : Header) (payload : Bytes) : Except Error Plain :=
  if crc32 payload ≠ h.storedCrc then .error .frameCrcMismatch
  else normalize x h.flags h.target payload

def checkTag (sessionKey : Option Bytes) (plain : Plain) (tag : Bytes) : Except Error Unit :=
  match sessionKey with
  | none => .ok ()
  | some key =>
    if verifyTag x key plain.header plain.payload tag then .ok ()
    else .error (.internal (lit "frame MAC verification failed"))

def checkUntagged (sessionKey : Option Bytes) : Except Error Unit :=
  if sessionKey.isSome then .error (.internal (lit "MAC missing on secured connection")) else .ok ()

def readStreamTag (sessionKey : Option Bytes) (plain : Plain) : StateT Bytes (Except Error) Unit :=
  if plain.flags &&& flagMacPresent ≠ 0 then do
    let tag ← Reader.readOrRaise 32 (.ioError (lit "truncated MAC tag"))
    checkTag x sessionKey plain tag
  else checkUntagged sessionKey

def readStreamPayload (length : Nat) : StateT Bytes (Except Error) Bytes :=
  if length > 0 then Reader.readOrRaise length (.ioError (lit "truncated frame payload")) else pure []

/- The body that `read_frame` and `read_frame_from_bytes` both spell out, on a
`BytesIO`; each `stream.read` is followed by its own truncation check. -/
def readStream (sessionKey : Option Bytes) : StateT Bytes (Except Error) (Nat × Bytes) := do
  let headerBytes ← Reader.readOrRaise headerSize (.ioError (lit "truncated frame header"))
  let header ← parseHeader headerBytes
  let payload ← readStreamPayload header.length
  let plain ← openPayload x header payload
  readStreamTag x sessionKey plain
  return (plain.flags, plain.payload)

def readFrame (sessionKey : Option Bytes) : StateT Bytes (Except Error) Bytes := do
  return (← readStream x sessionKey).2

def readFrameFromBytes (data : Bytes) (sessionKey : Option Bytes) : Except Error (Nat × Bytes) :=
  (readStream x sessionKey data).map Prod.fst

def readTag (sessionKey : Option Bytes) (plain : Plain) : Reader UInt8 Error Unit :=
  if plain.flags &&& flagMacPresent ≠ 0 then do
    let tag ← Reader.readExactly 32
    Reader.ofExcept (checkTag x sessionKey plain tag)
  else Reader.ofExcept (checkUntagged sessionKey)

def readPayload (length : Nat) : Reader UInt8 Error Bytes :=
  if length > 0 then Reader.readExactly length else pure []

def readBody (sessionKey : Option Bytes) (headerBytes : Bytes) : Reader UInt8 Error (Nat × Bytes) := do
  let header ← Reader.ofExcept (parseHeader headerBytes)
  let payload ← readPayload header.length
  let plain ← Reader.ofExcept (openPayload x header payload)
  readTag x sessionKey plain
  return (plain.flags, plain.payload)

/- The first byte is its own read: an idle connection waits there without bound,
and only `_read_body` runs under the frame timeout. -/
def asyncReadFrame (sessionKey : Option Bytes) : Reader UInt8 Error (Nat × Bytes) := do
  let firstByte ← Reader.readExactly 1
  let others ← Reader.readExactly (headerSize - 1)
  readBody x sessionKey (firstByte ++ others)

end Model
end Vynkor.Framing
