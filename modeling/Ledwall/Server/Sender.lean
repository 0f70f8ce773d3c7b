import Ledwall.Wire.Frames

/-! The thread that transmits a wall's frames, one send at a time. -/

namespace Ledwall.Server

open Ledwall.Wire

/-- What `frame_to_indexed` returns beside the indices: 256 entries, padded. -/
structure Palette where
  bytes : List Byte
  whole : bytes.length = 768
  deriving DecidableEq

/-- A crop in the form the card is sent it, with the palette computed with it. -/
inductive Crop
  | indexed (indices : List Byte) (palette : Palette)
  | rgb (body : List Byte)
  deriving DecidableEq

def Crop.picture : Crop → Picture
  | .indexed indices _ => .indexed indices
  | .rgb body => .rgb body

def Crop.palette : Crop → Option Palette
  | .indexed _ palette => some palette
  | .rgb _ => none

/-- Left, top, right and bottom on the wall's canvas. -/
structure Box where
  left : ℤ
  top : ℤ
  right : ℤ
  bottom : ℤ
  deriving DecidableEq, Repr

/-- `_CardLink`. `port` is the one its stream was made with; a stream's pacing moves no byte. -/
structure CardLink where
  id : ℕ
  host : String
  port : ℕ
  box : Box
  w : ℕ
  h : ℕ
  packetDelay : ℚ
  stream : CardStream
  lastPalette : Option Palette := none
  closed : Bool := false

/-- A link, by its place in the order of creation, and what it is to be sent. -/
abbrev Payload := ℕ × Crop

/-- Where the thread stands. -/
inductive Phase
  | waiting
  | holding (rest : List Payload)
  | chosen (link : ℕ) (crop : Crop) (rest : List Payload)
  | sending (link : ℕ) (crop : Crop) (out : List (List Byte)) (rest : List Payload)
  deriving DecidableEq

/-- How a `sendto` ends: it raises, or the datagram goes out and arrives or not. -/
inductive Network
  | raises
  | loses
  | delivers
  deriving DecidableEq

/-- What one step of the thread does: the links and the phase after it, and the datagram it puts on
the wire, by the link it goes out on. -/
structure SenderStep where
  links : List CardLink
  phase : Phase
  wire : Option (ℕ × List Byte) := none

section

variable (links : List CardLink) (down : String → Bool) (net : Network)

/-- `send_frame` or `send_frame_indexed`, up to its first `sendto`. -/
def beginFrame (i : ℕ) (link : CardLink) (crop : Crop) (rest : List Payload) : SenderStep :=
  let sent := link.stream.send crop.picture link.w link.h
  ⟨links.set i { link with stream := sent.stream }, .sending i crop sent.datagrams rest, none⟩

/-- `send_palette`; `last_palette` follows only a palette that went out. -/
def putPalette (i : ℕ) (link : CardLink) (palette : Palette) (crop : Crop) (rest : List Payload) :
    SenderStep :=
  let sent := link.stream.sendPalette palette.bytes 0
  match sent.datagrams with
  | [] => ⟨links, .holding rest, none⟩
  | d :: _ =>
    if net = .raises ∨ link.closed then ⟨links, .holding rest, none⟩
    else
      ⟨links.set i { link with stream := sent.stream, lastPalette := some palette },
        .chosen i crop rest, some (i, d)⟩

/-- One step of `_sender` over the payloads it holds. The socket of a closed link raises. -/
def senderStep : Phase → SenderStep
  | .waiting | .holding [] => ⟨links, .waiting, none⟩
  | .holding ((i, crop) :: rest) =>
    match links[i]? with
    | none => ⟨links, .holding rest, none⟩
    | some link =>
      if link.closed || down link.host then ⟨links, .holding rest, none⟩
      else ⟨links, .chosen i crop rest, none⟩
  | .chosen i crop rest =>
    match links[i]? with
    | none => ⟨links, .holding rest, none⟩
    | some link =>
      match crop.palette with
      | none => beginFrame links i link crop rest
      | some palette =>
        if link.lastPalette = some palette then beginFrame links i link crop rest
        else putPalette links net i link palette crop rest
  | .sending _ _ [] rest => ⟨links, .holding rest, none⟩
  | .sending i crop (d :: out) rest =>
    if net = .raises ∨ (links[i]?.all CardLink.closed) then ⟨links, .holding rest, none⟩
    else ⟨links, .sending i crop out rest, some (i, d)⟩

end

end Ledwall.Server
