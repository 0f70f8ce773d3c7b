import Ledwall.Gateware.RamToBufferReader

/-! The S-PWM scan-out's way from the framebuffer to its sources, one clock cycle at a time: the pixel
sources, the reads the arbiter has out, and the palette stage on the way back. -/

namespace Ledwall.Gateware

/-- How the sources are built: one pixel at a time, the next pixel's reads right behind this one's, or
`k` columns of one pair of groups and then of the other. -/
inductive Fetch
  | plain
  | pipelined
  | block (k a0 a1 b0 b1 : ℕ)
  deriving DecidableEq, Repr

inductive SourceFsm
  | idle
  | mul
  | adr0
  | issue
  deriving DecidableEq, Repr

/-- A source's side of one cycle. `panelConfig` is its output's placement. -/
structure SourceInputs where
  req : Bool := false
  row : ℕ := 0
  col : ℕ := 0
  panelConfig : PanelConfig := {}

/-- What the S-PWM scan-out sees from outside in one cycle. `cmd` names the source whose command the
port takes, under whatever order the arbiter serves them in. -/
structure SpwmInputs (n : ℕ) where
  width : BitVec 16 := 0
  groupConfig : ℕ → PanelConfig := fun _ => {}
  source : Fin n → SourceInputs := fun _ => {}
  cmd : Option (Fin n) := none
  rdataValid : Bool := false
  ram : BitVec 32 → BitVec 32 := fun _ => 0
  palette : BitVec 9 → BitVec 32 := fun _ => 0
  indexed : Bool := true
  fbBase : Option (BitVec 20) := none
  autoSwap : Bool := false
  swapReq : Bool := false

/-- A position in units of 16 pixels, in pixels of a frame `width` wide. -/
def PanelConfig.origin (c : PanelConfig) (width : BitVec 16) : BitVec 32 :=
  c.y.setWidth 32 * (16 * width.setWidth 32) + c.x.setWidth 32 * 16

def FbAddress.step (a : FbAddress) (d : BitVec 32) : FbAddress := ⟨a.base, a.offset + d⟩

structure PixelSource where
  fsm : SourceFsm := .idle
  rowL : ℕ := 0
  colL : ℕ := 0
  rowbase : BitVec 32 := 0
  issued : ℕ := 0
  recvd : ℕ := 0
  j : ℕ := 0
  iphase : Bool := false
  adrQ : FbAddress := {}
  rowbaseR : BitVec 32 := 0
  o : ℕ → BitVec 32 := fun _ => 0
  s01 : BitVec 32 := 0
  s10 : BitVec 32 := 0
  s23 : BitVec 32 := 0
  s32 : BitVec 32 := 0
  first1 : FbAddress := {}

namespace PixelSource

variable (f : Fetch) (groups : ℕ) (s : PixelSource) (base : BitVec 20)
  (width : BitVec 16) (groupConfig : ℕ → PanelConfig) (i : SourceInputs) (cmdAck memAck : Bool)

def product (row : ℕ) : BitVec 32 := BitVec.ofNat 32 row * width.setWidth 32

/-- `fb_base + rowbase + col_l`, the source's `fb_base` being the live base and its placement, and
the group's own offset `d`. -/
def address (d : BitVec 32) : FbAddress :=
  ⟨base, i.panelConfig.origin width + (s.rowbase + BitVec.ofNat 32 s.colL + d)⟩

def memReq : Bool :=
  match f with
  | .plain => s.fsm = .issue && s.issued ≠ groups
  | _ => s.fsm = .issue

def memAdr : FbAddress :=
  match f with
  | .block .. => s.adrQ
  | _ => s.address base width i ((groupConfig s.issued).origin width)

def accept (s : PixelSource) (i : SourceInputs) : PixelSource :=
  { s with fsm := .mul, rowL := i.row, colL := i.col, issued := 0, recvd := 0, j := 0, iphase := false }

def nextPlain : PixelSource :=
  match s.fsm with
  | .idle => if i.req then s.accept i else s
  | .mul => { s with rowbase := product width s.rowL, fsm := .issue }
  | .adr0 => s
  | .issue =>
    { s with
      issued := if s.issued ≠ groups ∧ cmdAck then s.issued + 1 else s.issued
      recvd := if memAck ∧ s.recvd ≠ groups - 1 then s.recvd + 1 else s.recvd
      fsm := if memAck ∧ s.recvd = groups - 1 then .idle else .issue }

def nextPipelined : PixelSource :=
  match s.fsm with
  | .idle => if i.req then s.accept i else s
  | .mul => { s with rowbase := product width s.rowL, fsm := .issue }
  | .adr0 => s
  | .issue =>
    if cmdAck then
      { s with issued := s.issued + 1, fsm := if s.issued = groups - 1 then .idle else .issue }
    else s

/-- The address step from one read of a run to the next. -/
def step : BitVec 32 :=
  if s.j % 2 = 1 then if s.iphase then s.s32 else s.s10
  else if s.iphase then s.s23 else s.s01

/-- The registers of block fetch that are written in every cycle. -/
def registered (a0 a1 b0 b1 : ℕ) : PixelSource :=
  { s with
    rowbaseR := product width i.row
    o := fun g => (groupConfig g).origin width
    s01 := s.o a1 - s.o a0
    s10 := s.o a0 - s.o a1 + 1
    s23 := s.o b1 - s.o b0
    s32 := s.o b0 - s.o b1 + 1
    first1 := s.address base width i (s.o b0) }

def nextBlock (k a0 a1 b0 b1 : ℕ) : PixelSource :=
  let t := s.registered base width groupConfig i a0 a1 b0 b1
  match s.fsm with
  | .idle => if i.req then t.accept i else t
  | .mul => { t with rowbase := s.rowbaseR, fsm := .adr0 }
  | .adr0 => { t with adrQ := s.address base width i (s.o a0), fsm := .issue }
  | .issue =>
    if cmdAck then
      if s.j = 2 * k - 1 then
        if s.iphase then { t with j := 0, iphase := false, fsm := .idle }
        else { t with j := 0, iphase := true, adrQ := s.first1 }
      else { t with j := s.j + 1, adrQ := s.adrQ.step s.step }
    else t

def next : PixelSource :=
  match f with
  | .plain => s.nextPlain groups width i cmdAck memAck
  | .pipelined => s.nextPipelined groups width i cmdAck
  | .block k a0 a1 b0 b1 => s.nextBlock base width groupConfig i cmdAck k a0 a1 b0 b1

end PixelSource

/-- The word the palette stage hands to the arbiter. -/
structure PaletteStage extends Lookup where
  datR : BitVec 32 := 0
  raw : BitVec 32 := 0
  valid : Bool := false
  deriving DecidableEq, Repr

def PaletteStage.dat (p : PaletteStage) (indexed : Bool) : BitVec 32 :=
  if indexed then p.datR else p.raw

/-- The S-PWM scan-out with the base it follows: its sources, the reads on their way, the source each
answer is for, and the palette stage. -/
structure SpwmScanOut (n : ℕ) where
  fbBaseEff : BitVec 20 := sdramOffset.setWidth 20
  source : Fin n → PixelSource := fun _ => {}
  reads : List FbAddress := []
  tags : List (Fin n) := []
  stage : PaletteStage := {}

namespace SpwmScanOut

variable {n : ℕ} (f : Fetch) (groups : ℕ) (s : SpwmScanOut n) (i : SpwmInputs n)

/-- The source whose command is taken. -/
def taken : Option (Fin n) := i.cmd.filter fun k => (s.source k).memReq f groups

def cmdAdr (k : Fin n) : FbAddress :=
  (s.source k).memAdr f s.fbBaseEff i.width i.groupConfig (i.source k)

def returns : Bool := i.rdataValid && !s.reads.isEmpty
def head : FbAddress := s.reads.headD {}
def rdata : BitVec 32 := i.ram s.head.word

def acks (k : Fin n) : Bool := s.stage.valid && s.tags.head? = some k

def nextReads : List FbAddress :=
  (if s.returns i then s.reads.tail else s.reads) ++ ((s.taken f groups i).map (s.cmdAdr f i)).toList

def next : SpwmScanOut n where
  fbBaseEff := nextFbBase s.fbBaseEff i.fbBase i.autoSwap i.swapReq
  source := fun k => (s.source k).next f groups s.fbBaseEff i.width i.groupConfig (i.source k)
    (s.taken f groups i = some k) (s.acks k)
  reads := s.nextReads f groups i
  tags := (if s.stage.valid then s.tags.tail else s.tags) ++ (s.taken f groups i).toList
  stage :=
    { adr := s.head, bank := paletteBank s.fbBaseEff
      datR := i.palette (BitVec.ofBool (paletteBank s.fbBaseEff) ++ (s.rdata i).setWidth 8)
      raw := s.rdata i, valid := s.returns i }

def after (is : List (SpwmInputs n)) : SpwmScanOut n := is.foldl (next f groups) s

end SpwmScanOut

end Ledwall.Gateware
