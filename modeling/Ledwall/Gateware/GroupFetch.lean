import Ledwall.Gateware.Icn1065PixelSource

/-! A pixel source with the words it is given, as each of its three builds fetches: one clock cycle at
a time. -/

namespace Ledwall.Gateware

/-- One set of three channels. -/
abbrev Shades (w : ℕ) := Fin 3 → BitVec w

/-- The constructor arguments of a source. `packed` is the 16-bit pixel, `grouped` says that group
offsets are given, `sharedGamma` that the converters sit at the port; `conv` is the converter. -/
structure SourceConfig where
  columns : ℕ
  rowsPerFrame : ℕ
  groups : ℕ := 2
  greyBits : ℕ := 13
  fetch : Fetch := .plain
  packed : Bool := false
  grouped : Bool := true
  sharedGamma : Bool := false
  conv : BitVec 8 → BitVec greyBits

/-- What the source's address is computed from besides row and column. -/
structure FetchSettings where
  fbBase : BitVec 32 := 0
  width : BitVec 16 := 0
  groupOffset : ℕ → BitVec 32 := fun _ => 0

structure FetchInputs extends FetchSettings where
  req : Bool := false
  row : ℕ := 0
  col : ℕ := 0
  memCmdAck : Bool := false
  memAck : Bool := false
  memDat : BitVec 32 := 0

namespace SourceConfig

variable (z : SourceConfig)

def block : ℕ :=
  match z.fetch with
  | .block k .. => k
  | _ => 0

/-- The framebuffer is addressed in words, and a packed word holds two pixels. -/
def wordOf (v : FetchSettings) (linear : ℕ) : BitVec 32 :=
  v.fbBase + BitVec.ofNat 32 (if z.packed then linear / 2 else linear)

/-- 5 or 6 bits to 8, the high bits folded back into the low ones. -/
def expand5 (v : BitVec 5) : BitVec 8 := v ++ v.extractLsb' 2 3
def expand6 (v : BitVec 6) : BitVec 8 := v ++ v.extractLsb' 4 2

def rawbytes (half : Bool) (dat : BitVec 32) : Fin 3 → BitVec 8 :=
  if z.packed then
    let px16 := dat.extractLsb' (if half then 16 else 0) 16
    ![expand5 (px16.extractLsb' 0 5), expand6 (px16.extractLsb' 5 6), expand5 (px16.extractLsb' 11 5)]
  else ![dat.extractLsb' 0 8, dat.extractLsb' 8 8, dat.extractLsb' 16 8]

/-- The shared converters take the bytes of the returning word as they are. -/
def live (half : Bool) (dat : BitVec 32) : Shades z.greyBits :=
  if z.sharedGamma then fun c => z.conv (dat.extractLsb' (8 * c.val) 8)
  else fun c => z.conv (z.rawbytes half dat c)

end SourceConfig

/-- The side of a source that sends commands. -/
structure Issuer where
  fsm : SourceFsm := .idle
  rowL : ℕ := 0
  colL : ℕ := 0
  rowbase : BitVec 32 := 0
  issued : ℕ := 0
  j : ℕ := 0
  iphase : Bool := false
  adrQ : BitVec 32 := 0
  rowbaseR : BitVec 32 := 0
  o : ℕ → BitVec 32 := fun _ => 0
  s01 : BitVec 32 := 0
  s10 : BitVec 32 := 0
  s23 : BitVec 32 := 0
  s32 : BitVec 32 := 0
  first1 : BitVec 32 := 0

namespace Issuer

variable (z : SourceConfig) (s : Issuer) (v : FetchSettings) (i : FetchInputs)

/-- The pixel's index within the framebuffer. -/
def linear (g : ℕ) : ℕ :=
  if z.grouped then s.rowbase.toNat + s.colL + (v.groupOffset g).toNat
  else (s.rowL + g * z.rowsPerFrame) * v.width.toNat + s.colL

def address (g : ℕ) : BitVec 32 := z.wordOf v (s.linear z v g)

def half (g : ℕ) : Bool := z.packed && (s.linear z v g) % 2 = 1

def reqAck : Bool := z.fetch ≠ .plain && s.fsm = .idle && i.req

def memReq : Bool :=
  match z.fetch with
  | .plain => s.fsm = .issue && s.issued ≠ z.groups
  | _ => s.fsm = .issue

def memAdr : BitVec 32 :=
  match z.fetch with
  | .block .. => s.adrQ
  | _ => s.address z v s.issued

def accept : Issuer :=
  { s with fsm := .mul, rowL := i.row, colL := i.col, issued := 0, j := 0, iphase := false }

/-- Without group offsets there is no product to wait for. `last` says that the word of the last
group comes in. -/
def nextPlain (last : Bool) : Issuer :=
  match s.fsm with
  | .idle =>
    if i.req then { s.accept i with fsm := if z.grouped then .mul else .issue } else s
  | .mul => { s with rowbase := PixelSource.product i.width s.rowL, fsm := .issue }
  | .adr0 => s
  | .issue =>
    { s with
      issued := if s.issued ≠ z.groups ∧ i.memCmdAck then s.issued + 1 else s.issued
      fsm := if last then .idle else .issue }

def nextPipelined : Issuer :=
  match s.fsm with
  | .idle => if i.req then s.accept i else s
  | .mul => { s with rowbase := PixelSource.product i.width s.rowL, fsm := .issue }
  | .adr0 => s
  | .issue =>
    if i.memCmdAck then
      { s with issued := s.issued + 1, fsm := if s.issued = z.groups - 1 then .idle else .issue }
    else s

def step : BitVec 32 :=
  if s.j % 2 = 1 then if s.iphase then s.s32 else s.s10
  else if s.iphase then s.s23 else s.s01

def first (d : BitVec 32) : BitVec 32 := v.fbBase + s.rowbase + BitVec.ofNat 32 s.colL + d

/-- The registers of block fetch that are written in every cycle. -/
def registered (a0 a1 b0 b1 : ℕ) : Issuer :=
  { s with
    rowbaseR := PixelSource.product i.width i.row
    o := i.groupOffset
    s01 := s.o a1 - s.o a0
    s10 := s.o a0 - s.o a1 + 1
    s23 := s.o b1 - s.o b0
    s32 := s.o b0 - s.o b1 + 1
    first1 := s.first i.toFetchSettings (s.o b0) }

def nextBlock (k a0 a1 b0 b1 : ℕ) : Issuer :=
  let t := s.registered i a0 a1 b0 b1
  match s.fsm with
  | .idle => if i.req then t.accept i else t
  | .mul => { t with rowbase := s.rowbaseR, fsm := .adr0 }
  | .adr0 => { t with adrQ := s.first i.toFetchSettings (s.o a0), fsm := .issue }
  | .issue =>
    if i.memCmdAck then
      if s.j = 2 * k - 1 then
        if s.iphase then { t with j := 0, iphase := false, fsm := .idle }
        else { t with j := 0, iphase := true, adrQ := s.first1 }
      else { t with j := s.j + 1, adrQ := s.adrQ + s.step }
    else t

def next (last : Bool) : Issuer :=
  match z.fetch with
  | .plain => s.nextPlain z i last
  | .pipelined => s.nextPipelined z i
  | .block k a0 a1 b0 b1 => s.nextBlock i k a0 a1 b0 b1

end Issuer

/-- The side of a source that takes the words. `stg` are the two staging memories of block fetch,
`stored` and `held` go by group. -/
structure Receiver (w : ℕ) where
  recvd : ℕ := 0
  rphase : Bool := false
  rk : ℕ := 0
  rw : Bool := false
  stg : Bool → ℕ → Shades w := fun _ _ _ => 0
  st2 : Shades w := fun _ => 0
  stored : ℕ → Shades w := fun _ _ => 0
  held : ℕ → Shades w := fun _ _ => 0
  validR : Bool := false

namespace Receiver

variable {w : ℕ} (r : Receiver w) (groups : ℕ) (live : Shades w)

/-- The last word completes the pixel: the earlier groups from their latches, this one off the
bus. -/
def take : Receiver w :=
  if r.recvd = groups - 1 then
    { r with held := Function.update r.stored (groups - 1) live, validR := true }
  else { r with stored := Function.update r.stored r.recvd live }

/-- Without a valid, unless this cycle's word raises it. -/
def quiet : Receiver w := { r with validR := false }

def nextPlain (fsm : SourceFsm) (req memAck : Bool) : Receiver w :=
  match fsm with
  | .idle => if req then { r.quiet with recvd := 0 } else r.quiet
  | .issue =>
    if memAck then
      { r.quiet.take groups live with recvd := if r.recvd = groups - 1 then r.recvd else r.recvd + 1 }
    else r.quiet
  | _ => r.quiet

def nextPipelined (memAck : Bool) : Receiver w :=
  if memAck then
    { r.quiet.take groups live with recvd := if r.recvd = groups - 1 then 0 else r.recvd + 1 }
  else r.quiet

def nextBlock (k a0 a1 b0 b1 : ℕ) (memAck : Bool) : Receiver w :=
  if memAck then
    if !r.rphase then
      let t := { r.quiet with stg := Function.update r.stg r.rw (Function.update (r.stg r.rw) r.rk live) }
      if r.rw then
        if r.rk = k - 1 then { t with rw := false, rk := 0, rphase := true }
        else { t with rw := false, rk := r.rk + 1 }
      else { t with rw := true }
    else if r.rw then
      let t :=
        { r.quiet with
          held := Function.update (Function.update (Function.update (Function.update r.held
            a0 (r.stg false r.rk)) a1 (r.stg true r.rk)) b0 r.st2) b1 live
          validR := true
          rw := false }
      if r.rk = k - 1 then { t with rk := 0, rphase := false } else { t with rk := r.rk + 1 }
    else { r.quiet with st2 := live, rw := true }
  else r.quiet

end Receiver

/-- `Icn1065PixelSource`, both sides. -/
structure GroupFetch (w : ℕ) where
  issuer : Issuer := {}
  receiver : Receiver w := {}

namespace GroupFetch

variable (z : SourceConfig) (s : GroupFetch z.greyBits) (i : FetchInputs)

/-- The converters' result; the half is that of the group whose word arrives. -/
def live : Shades z.greyBits :=
  z.live (s.issuer.half z i.toFetchSettings s.receiver.recvd) i.memDat

def last : Bool := i.memAck && s.receiver.recvd = z.groups - 1

def next : GroupFetch z.greyBits where
  issuer := s.issuer.next z i (s.last z i)
  receiver :=
    match z.fetch with
    | .plain => s.receiver.nextPlain z.groups (s.live z i) s.issuer.fsm i.req i.memAck
    | .pipelined => s.receiver.nextPipelined z.groups (s.live z i) i.memAck
    | .block k a0 a1 b0 b1 => s.receiver.nextBlock (s.live z i) k a0 a1 b0 b1 i.memAck

end GroupFetch

end Ledwall.Gateware
