import Ledwall.Receiver.FrameReception

/-! What the receiver is for: frames put together from their chunks, in any order, and shown when
whole or when at most two chunks are missing. -/

namespace Ledwall.Receiver

open Ledwall.Wire

/-- A frame with the chunks of it taken so far and the time the last one was heard. -/
structure Assembly where
  frame : Frame
  accepted : Finset ℕ
  heard : ℤ

/-- The frame being put together, and the format of the last pixel datagram handed in. -/
structure Assembler where
  current : Option Assembly
  latch : Option Format

inductive Input
  | chunk (frame : Frame) (index addr : ℕ) (timeMs : ℤ)
  | other (data : Slice) (timeMs : ℤ)
  | tick (timeMs : ℤ)

/-- The frames the card's arrival mask and framebuffer have room for. -/
def Takes (f : Frame) : Prop := f.total ≤ MAX_CHUNKS ∧ f.pixels ≤ MAX_IMG_PIXELS

instance (f : Frame) : Decidable (Takes f) := by
  unfold Takes
  infer_instance

namespace Assembly

def missing (a : Assembly) : ℕ := a.frame.total - a.accepted.card

/-- A frame that is given up on is still shown if little of it is missing. -/
def flush (a : Assembly) : List Assembly := if a.missing ≤ MAX_REPAIR_CHUNKS then [a] else []

end Assembly

namespace Assembler

/-- The chunks of `f` taken so far, and the other frame that gives way to it. -/
def kept (A : Assembler) (f : Frame) : Finset ℕ :=
  match A.current with
  | some a => if a.frame = f then a.accepted else ∅
  | none => ∅

def outgoing (A : Assembler) (f : Frame) : List Assembly :=
  match A.current with
  | some a => if a.frame = f then [] else a.flush
  | none => []

/-- Chunk `i` of `f` joins `acc`: the next assembly, and the frame if this completes it. -/
def join (f : Frame) (i : ℕ) (t : ℤ) (acc : Finset ℕ) : Option Assembly × List Assembly :=
  if i ∈ acc then (some ⟨f, acc, t⟩, [])
  else if (insert i acc).card = f.total then (none, [⟨f, insert i acc, t⟩])
  else (some ⟨f, insert i acc, t⟩, [])

/-- One input: the assembler after it and the frames shown, in order. -/
def step (filter : Bool) (A : Assembler) : Input → Assembler × List Assembly
  | .chunk f i _ t =>
    if Takes f then
      (⟨(join f i t (A.kept f)).1, some f.format⟩, A.outgoing f ++ (join f i t (A.kept f)).2)
    else ({ A with latch := some f.format }, [])
  | .other _ _ => (A, [])
  | .tick t =>
    match A.current with
    | some a => if filter = true ∨ t - a.heard < STALE_MS then (A, []) else ({ A with current := none }, a.flush)
    | none => (A, [])

end Assembler

/-- The frame's own pixels where a chunk of it was taken, what was on the glass before elsewhere. -/
structure ShowsPixels (fl : Flip) (a : Assembly) : Prop where
  own : ∀ p < a.frame.pixels, p / a.frame.format.pixelsPerChunk ∈ a.accepted →
    fl.after p = pixelOf a.frame p
  kept : ∀ p < a.frame.pixels, p / a.frame.format.pixelsPerChunk ∉ a.accepted →
    fl.after p = fl.before p

/-- A flip that shows what it should of a frame, in the mode of the frame's format. -/
structure Shows (fl : Flip) (a : Assembly) : Prop extends ShowsPixels fl a where
  mode : fl.indexedMode = a.frame.format.isIndexed

end Ledwall.Receiver
