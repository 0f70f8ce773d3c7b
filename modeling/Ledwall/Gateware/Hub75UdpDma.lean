import Ledwall.Wire.Protocol

/-! The pixel DMA of the gateware, one clock cycle at a time, with the display base it follows. -/

namespace Ledwall.Gateware

open Ledwall.Wire

def sdramOffset : BitVec 24 := 0x140000 / 4
def halfWords : BitVec 24 := 0x140000 / 4
def PIXELS_PER_CHUNK : ℕ := 487
def STALL_LIMIT : BitVec 14 := 8192

/-- One transfer of the UDP payload stream. -/
structure Beat where
  data : Byte
  last : Bool
  deriving DecidableEq, Repr

inductive Fsm
  | idle
  | hdr
  | pix
  | drop
  deriving DecidableEq, Repr

/-- What the DMA sees from outside in one cycle: its streams, its writable registers, `auto_swap`
and a write to `fb_base` by the CPU. -/
structure Inputs where
  sink : Option Beat
  writerReady : Bool
  enable : Bool
  limit : BitVec 24
  throttle : BitVec 4
  swapWholeOnly : Bool
  autoSwap : Bool
  peakClear : Bool
  fbBase : Option (BitVec 20)
  deriving DecidableEq, Repr

structure FrameStatus where
  frameId : BitVec 16 := 0
  totalChunks : BitVec 16 := 0
  indexed : Bool := false
  deriving DecidableEq, Repr

/-- The frame that just finished. -/
structure DoneFrame where
  arrival : BitVec 512 := 0
  status : FrameStatus := {}
  seq : BitVec 16 := 0
  deriving DecidableEq, Repr

structure Counters where
  pixels : BitVec 32 := 0
  chunks : BitVec 32 := 0
  badMagic : BitVec 32 := 0
  lastChunk : BitVec 8 := 0
  stalls : BitVec 32 := 0
  stallPeak : BitVec 16 := 0
  stallCycles : BitVec 32 := 0
  pixCycles : BitVec 32 := 0
  framesHeld : BitVec 32 := 0
  deriving DecidableEq, Repr

/-- What is kept of the header of the payload on the stream. -/
structure Header where
  indexed : Bool := false
  wide : Bool := false
  frameId : BitVec 16 := 0
  chunkIndex : BitVec 16 := 0
  totalChunks : BitVec 16 := 0
  deriving DecidableEq, Repr

structure Hub75UdpDma where
  fsm : Fsm := .idle
  hdrIdx : BitVec 4 := 0
  header : Header := {}
  pixAdr : BitVec 24 := 0
  sub : BitVec 2 := 0
  r : Byte := 0
  g : Byte := 0
  stall : BitVec 14 := 0
  arrival : BitVec 512 := 0
  received : BitVec 16 := 0
  gap : BitVec 4 := 0
  status : FrameStatus := {}
  done : DoneFrame := {}
  counters : Counters := {}
  deriving DecidableEq, Repr

/-- The half the display is not reading. -/
def writeBase (displayBase : BitVec 20) : BitVec 24 :=
  if displayBase.setWidth 24 = sdramOffset then sdramOffset + halfWords else sdramOffset

/-- The other half. -/
def otherBase (base : BitVec 24) : BitVec 24 :=
  if base = sdramOffset then sdramOffset + halfWords else sdramOffset

def setLow (x : BitVec 16) (d : Byte) : BitVec 16 := x.extractLsb' 8 8 ++ d
def setHigh (x : BitVec 16) (d : Byte) : BitVec 16 := d ++ x.extractLsb' 0 8

namespace Header

variable (h : Header)

def hdrLast : BitVec 4 := if h.wide then 11 else 9

/-- A product of 16 by 11 bits, cut to 24. -/
def chunkPixels : BitVec 24 :=
  if h.indexed then h.chunkIndex.setWidth 24 * BitVec.ofNat 24 (3 * PIXELS_PER_CHUNK)
  else if h.wide then h.chunkIndex.setWidth 24 * BitVec.ofNat 24 (PIXELS_PER_CHUNK - 1)
  else h.chunkIndex.setWidth 24 * BitVec.ofNat 24 PIXELS_PER_CHUNK

/-- Header byte `k`: the magic's second letter, the identity, then the counters, `u8` at 4 and 5 or
`u16` at 4 and 6. -/
def take (k : ℕ) (d : Byte) : Header :=
  match k, h.wide with
  | 1, _ =>
    if d = 0x4D then { h with indexed := false, wide := false }
    else if d = 0x57 then { h with indexed := false, wide := true }
    else if d = 0x49 then { h with indexed := true, wide := false }
    else h
  | 2, _ => { h with frameId := setLow h.frameId d }
  | 3, _ => { h with frameId := setHigh h.frameId d }
  | 4, false => { h with chunkIndex := d.setWidth 16 }
  | 5, false => { h with totalChunks := d.setWidth 16 }
  | 4, true => { h with chunkIndex := setLow h.chunkIndex d }
  | 5, true => { h with chunkIndex := setHigh h.chunkIndex d }
  | 6, true => { h with totalChunks := setLow h.totalChunks d }
  | 7, true => { h with totalChunks := setHigh h.totalChunks d }
  | _, _ => h

end Header

namespace Hub75UdpDma

variable (s : Hub75UdpDma) (displayBase : BitVec 20) (i : Inputs)

def alreadySeen : Bool := s.arrival.getLsbD (s.header.chunkIndex.toNat % 512)

def outgoingWhole : Bool := s.received == s.status.totalChunks

/-- Compared at full width: the sum keeps its carry. -/
def inRange : Bool := decide (s.pixAdr.toNat < (writeBase displayBase).toNat + i.limit.toNat)

def gapOk : Bool := s.gap == 0

/-- The last header byte of a payload is taken. -/
def commits : Bool := s.fsm == .hdr && i.sink.isSome && s.hdrIdx == s.header.hdrLast

/-- `clear_arrival`. -/
def frameChange : Bool := s.commits i && s.header.frameId != s.status.frameId

def swapReq : Bool := s.frameChange i && (s.outgoingWhole || !i.swapWholeOnly)

def writeBaseNext : BitVec 24 :=
  if s.swapReq i && i.autoSwap then otherBase (writeBase displayBase) else writeBase displayBase

/-- The byte on the stream makes a pixel, so it waits for the writer. -/
def emits : Bool := s.header.indexed || s.sub == 2

def sinkReady : Bool :=
  match s.fsm with
  | .pix => !s.emits || (i.writerReady && s.gapOk)
  | _ => true

/-- The beat the DMA takes in this cycle. -/
def taken : Option Beat := if s.sinkReady i then i.sink else none

/-- `progress`, which is only driven in `PIX`. -/
def progress : Bool := s.fsm == .pix && (s.taken i).isSome

/-- A word is handed to the writer, which takes it. -/
def writes : Bool := s.progress i && s.emits && s.inRange displayBase i

def word (d : Byte) : BitVec 32 := if s.header.indexed then d.setWidth 32 else (d ++ s.g ++ s.r).setWidth 32

def setArrival : Bool := s.fsm == .pix && (s.taken i).any Beat.last

def actIdle : Hub75UdpDma :=
  match i.sink with
  | none => s
  | some b =>
    if i.enable then
      if b.data = 0x42 then { s with hdrIdx := 1, fsm := .hdr }
      else
        { s with
          hdrIdx := 1
          fsm := if b.last then .idle else .drop
          counters.badMagic := s.counters.badMagic + 1 }
    else s

/-- A second letter that is not one of the pixel magics'. A palette, the CPU's job, is no fault. -/
def hdrReject (d : Byte) : Hub75UdpDma :=
  if d = 0x4D ∨ d = 0x57 ∨ d = 0x49 then s
  else if d = 0x50 then { s with fsm := .drop }
  else { s with fsm := .drop, counters.badMagic := s.counters.badMagic + 1 }

/-- The outgoing frame is latched and the incoming one takes its place. -/
def changeFrame : Hub75UdpDma :=
  { s with
    counters.framesHeld :=
      if s.swapReq i then s.counters.framesHeld else s.counters.framesHeld + 1
    done := ⟨s.arrival, s.status, s.done.seq + 1⟩
    status := ⟨s.header.frameId, s.header.totalChunks, s.header.indexed⟩ }

def hdrCommit : Hub75UdpDma :=
  { if s.frameChange i then s.changeFrame i else s with
    pixAdr := s.writeBaseNext displayBase i + s.header.chunkPixels
    sub := 0
    counters.chunks := s.counters.chunks + 1
    fsm := .pix }

def hdrByte (d : Byte) : Hub75UdpDma :=
  if s.hdrIdx = 1 then s.hdrReject d
  else if s.hdrIdx = s.header.hdrLast then s.hdrCommit displayBase i
  else if s.hdrIdx = 4 then { s with counters.lastChunk := d }
  else s

def actHdr : Hub75UdpDma :=
  match i.sink with
  | none => s
  | some b =>
    let t := s.hdrByte displayBase i b.data
    { t with
      hdrIdx := s.hdrIdx + 1
      header := s.header.take s.hdrIdx.toNat b.data
      fsm := if b.last then .idle else t.fsm }

def pixByte (d : Byte) : Hub75UdpDma :=
  if s.emits then
    { s with
      sub := 0
      pixAdr := s.pixAdr + 1
      counters.pixels := s.counters.pixels + if s.inRange displayBase i then 1 else 0 }
  else if s.sub = 0 then { s with r := d, sub := s.sub + 1 }
  else { s with g := d, sub := s.sub + 1 }

/-- A stall that reaches the limit drops the payload, unless its last byte goes through now. -/
def actPix : Hub75UdpDma :=
  let stalled := s.stall == STALL_LIMIT
  let t : Hub75UdpDma := match s.taken i with
    | none => s
    | some b => s.pixByte displayBase i b.data
  { t with
    counters.stalls := s.counters.stalls + if stalled then 1 else 0
    fsm := if s.setArrival i then .idle else if stalled then .drop else .pix }

def actDrop : Hub75UdpDma :=
  match i.sink with
  | none => s
  | some b => { s with fsm := if b.last then .idle else .drop }

def act : Hub75UdpDma :=
  match s.fsm with
  | .idle => s.actIdle i
  | .hdr => s.actHdr displayBase i
  | .pix => s.actPix displayBase i
  | .drop => s.actDrop i

def nextStall : BitVec 14 :=
  if s.fsm ≠ .pix ∨ s.progress i then 0
  else if s.stall = STALL_LIMIT then s.stall
  else s.stall + 1

def nextGap : BitVec 4 :=
  if s.progress i && s.emits then i.throttle else if s.gapOk then s.gap else s.gap - 1

def nextArrival : BitVec 512 :=
  if s.frameChange i then 0
  else if s.setArrival i then s.arrival ||| 1#512 <<< (s.header.chunkIndex.toNat % 512)
  else s.arrival

def nextReceived : BitVec 16 :=
  if s.frameChange i then 0
  else if s.setArrival i && !s.alreadySeen then s.received + 1
  else s.received

/-- The blocked share of the write path. -/
def countPix (c : Counters) : Counters :=
  let blocked := s.fsm == .pix && !s.progress i
  { c with
    pixCycles := c.pixCycles + if s.fsm == .pix then 1 else 0
    stallCycles := c.stallCycles + if blocked then 1 else 0
    stallPeak :=
      if i.peakClear then 0
      else if blocked && decide (s.counters.stallPeak.toNat < s.stall.toNat + 1) then
        s.stall.setWidth 16 + 1
      else c.stallPeak }

/-- The registers after one clock edge. -/
def next : Hub75UdpDma :=
  let t := s.act displayBase i
  { t with
    stall := s.nextStall i
    gap := s.nextGap i
    arrival := s.nextArrival i
    received := s.nextReceived i
    counters := s.countPix i t.counters }

end Hub75UdpDma

/-- The DMA and `fb_base_eff` of the display, which a CPU write wins over the hardware swap. -/
structure PixelPath where
  dma : Hub75UdpDma := {}
  fbBaseEff : BitVec 20 := sdramOffset.setWidth 20
  deriving DecidableEq, Repr

/-- What the DMA drives in one cycle. -/
structure Outputs where
  sinkReady : Bool
  write : Option (BitVec 24 × BitVec 32)
  swapReq : Bool
  setArrival : Bool
  clearArrival : Bool
  deriving DecidableEq, Repr

namespace PixelPath

variable (p : PixelPath) (i : Inputs)

def nextBase : BitVec 20 :=
  match i.fbBase with
  | some base => base
  | none =>
    if i.autoSwap && p.dma.swapReq i then
      if p.fbBaseEff = sdramOffset.setWidth 20 then (sdramOffset + halfWords).setWidth 20
      else sdramOffset.setWidth 20
    else p.fbBaseEff

def next : PixelPath := ⟨p.dma.next p.fbBaseEff i, p.nextBase i⟩

/-- The word handed over in this cycle, with its address. -/
def write : Option (BitVec 24 × BitVec 32) :=
  if p.dma.writes p.fbBaseEff i then
    (p.dma.taken i).map fun b => (p.dma.pixAdr, p.dma.word b.data)
  else none

def outputs : Outputs :=
  ⟨p.dma.sinkReady i, p.write i, p.dma.swapReq i, p.dma.setArrival i, p.dma.frameChange i⟩

end PixelPath

end Ledwall.Gateware
