import Mathlib.Tactic

/-! The panel wire protocol as the sender speaks it: one card's frame cut into datagrams. -/

namespace Ledwall.Wire

abbrev Byte := BitVec 8
abbrev Datagram := List Byte

/-- `'B'`, `'M'`, `'I'`, `'W'` and `'P'`. -/
def letterB : Byte := 0x42
def letterM : Byte := 0x4D
def letterI : Byte := 0x49
def letterW : Byte := 0x57
def letterP : Byte := 0x50

def MAX_CHUNKS_NARROW : ℕ := 255
def PIXELS_PER_CHUNK : ℕ := 487
def BYTES_PER_CHUNK : ℕ := PIXELS_PER_CHUNK * 3
def PIXELS_PER_CHUNK_WIDE : ℕ := PIXELS_PER_CHUNK - 1
def BYTES_PER_CHUNK_WIDE : ℕ := PIXELS_PER_CHUNK_WIDE * 3
def PIXELS_PER_CHUNK_INDEXED : ℕ := PIXELS_PER_CHUNK * 3
def PALETTE_ENTRIES : ℕ := 256

inductive Magic
  | rgb
  | indexed
  | wide
  | palette
  deriving DecidableEq, Repr

def Magic.bytes : Magic → List Byte
  | .rgb => [letterB, letterM]
  | .indexed => [letterB, letterI]
  | .wide => [letterB, letterW]
  | .palette => [letterB, letterP]

/-- How Python prints the magic in an error. -/
def Magic.repr : Magic → String
  | .rgb => "b'BM'"
  | .indexed => "b'BI'"
  | .wide => "b'BW'"
  | .palette => "b'BP'"

inductive PyError
  | valueError (message : String)
  | structError (message : String)
  deriving DecidableEq, Repr

/-- `struct` field `B`. -/
def packB (n : ℕ) : Except PyError (List Byte) :=
  if n < 256 then .ok [BitVec.ofNat 8 n]
  else .error (.structError "ubyte format requires 0 <= number <= 255")

/-- `struct` field `H`, little-endian. -/
def packH (n : ℕ) : Except PyError (List Byte) :=
  if n < 65536 then .ok [BitVec.ofNat 8 n, BitVec.ofNat 8 (n / 256)]
  else .error (.structError "ushort format requires 0 <= number <= 65535")

/-- `HEADER = struct.Struct("<2sHBBHH")`. -/
def packHeader (magic : Magic) (frameId index total width height : ℕ) :
    Except PyError (List Byte) := do
  let f ← packH frameId
  let i ← packB index
  let t ← packB total
  let w ← packH width
  let h ← packH height
  return magic.bytes ++ f ++ i ++ t ++ w ++ h

/-- `HEADER_WIDE = struct.Struct("<2sHHHHH")`. -/
def packHeaderWide (magic : Magic) (frameId index total width height : ℕ) :
    Except PyError (List Byte) := do
  let f ← packH frameId
  let i ← packH index
  let t ← packH total
  let w ← packH width
  let h ← packH height
  return magic.bytes ++ f ++ i ++ t ++ w ++ h

structure CardStream where
  frameId : ℕ
  packetsSent : ℕ
  framesSent : ℕ
  redundantCopies : ℤ
  deriving DecidableEq, Repr

/-- What a call did: the stream after it, the datagrams handed to the socket, and how it ended. -/
structure Sent where
  stream : CardStream
  datagrams : List Datagram
  result : Except PyError Unit

/-- Python's `body[a:b]`. -/
def bodySlice (body : List Byte) (a b : ℕ) : List Byte := (body.drop a).take (b - a)

section SendChunked

variable (header : ℕ → Except PyError (List Byte)) (body : List Byte) (bytesPerChunk total : ℕ)

/-- The send loop over the remaining loop counters. Pacing is left out: it moves no byte. -/
def sendLoop (s : CardStream) (out : List Datagram) : List ℕ → Sent
  | [] => ⟨{ s with framesSent := s.framesSent + 1 }, out, .ok ()⟩
  | n :: ns =>
    let i := n % total
    match header i with
    | .error e => ⟨s, out, .error e⟩
    | .ok h =>
      let payload := bodySlice body (i * bytesPerChunk) ((i + 1) * bytesPerChunk)
      sendLoop { s with packetsSent := s.packetsSent + 1 } (out ++ [h ++ payload]) ns

end SendChunked

/-- Chunks of `bytesPerChunk` that cover `n` bytes. -/
def chunkTotal (n bytesPerChunk : ℕ) : ℕ := (n + bytesPerChunk - 1) / bytesPerChunk

def CardStream.sendChunked (s : CardStream) (magic : Magic) (body : List Byte)
    (bytesPerChunk width height : ℕ) : Sent :=
  let s := { s with frameId := (s.frameId + 1) % 65536 }
  let total := chunkTotal body.length bytesPerChunk
  let wide := decide (MAX_CHUNKS_NARROW < total)
  if wide = true ∧ magic ≠ .rgb then
    ⟨s, [], .error (.valueError
      (toString total ++ " chunks needs the wide header, which only carries RGB frames; " ++
        magic.repr ++ " has no wide form"))⟩
  else
    let magic := if wide then .wide else magic
    let bytesPerChunk := if wide then BYTES_PER_CHUNK_WIDE else bytesPerChunk
    let total := if wide then chunkTotal body.length bytesPerChunk else total
    if 65535 < total then
      ⟨s, [], .error (.valueError (toString total ++ " chunks exceeds even the u16 chunk_index"))⟩
    else
      let copies := (max 1 s.redundantCopies).toNat
      let header := fun i =>
        if wide then packHeaderWide magic s.frameId i total width height
        else packHeader magic s.frameId i total width height
      sendLoop header body bytesPerChunk total s [] (List.range (total * copies))

def lengthError (got expect : ℕ) : PyError :=
  .valueError ("frame is " ++ toString got ++ " bytes, expected " ++ toString expect)

def CardStream.sendFrame (s : CardStream) (rgb : List Byte) (width height : ℕ) : Sent :=
  let expect := width * height * 3
  if rgb.length ≠ expect then ⟨s, [], .error (lengthError rgb.length expect)⟩
  else s.sendChunked .rgb rgb BYTES_PER_CHUNK width height

def CardStream.sendFrameIndexed (s : CardStream) (indices : List Byte) (width height : ℕ) : Sent :=
  let expect := width * height
  if indices.length ≠ expect then ⟨s, [], .error (lengthError indices.length expect)⟩
  else s.sendChunked .indexed indices PIXELS_PER_CHUNK_INDEXED width height

def CardStream.sendPalette (s : CardStream) (palette : List Byte) (start : ℤ) : Sent :=
  if palette.length % 3 ≠ 0 then
    ⟨s, [], .error (.valueError
      ("palette is " ++ toString palette.length ++ " bytes, not a multiple of 3"))⟩
  else
    let entries := palette.length / 3
    if start < 0 ∨ (PALETTE_ENTRIES : ℤ) < start + entries then
      ⟨s, [], .error (.valueError (toString entries ++ " entries at " ++ toString start ++
        " runs past the " ++ toString PALETTE_ENTRIES ++ "-entry palette"))⟩
    else
      -- `frame_id` is not advanced: a palette is not a frame
      match packHeader .palette s.frameId start.toNat 1 entries 1 with
      | .error e => ⟨s, [], .error e⟩
      | .ok h => ⟨{ s with packetsSent := s.packetsSent + 1 }, [h ++ palette], .ok ()⟩

end Ledwall.Wire
