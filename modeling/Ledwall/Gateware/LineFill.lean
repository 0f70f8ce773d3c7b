import Ledwall.Gateware.GroupFetch

/-! How a line buffer fills a row through its pixel source, from a memory that answers in order: one
clock cycle at a time. -/

namespace Ledwall.Gateware

/-- The fill side of `Icn1065LineBuffer`. Which row is fetched next, if one is missing, is the
bookkeeping of its two or three slots and comes in as `start`. -/
structure LineFill where
  filling : Bool := false
  fillRow : ℕ := 0
  fillCol : ℕ := 0
  reqCol : ℕ := 0
  reqActive : Bool := false
  deriving DecidableEq, Repr

namespace LineFill

variable (z : SourceConfig) (s : LineFill)

def srcReq : Bool :=
  match z.fetch with
  | .plain => s.filling
  | _ => s.filling && s.reqActive

def srcCol : ℕ :=
  match z.fetch with
  | .plain => s.fillCol
  | _ => s.reqCol

/-- Requests and writes advance on separate pointers. -/
def next (start : Option ℕ) (srcReqAck srcValid : Bool) : LineFill :=
  if !s.filling then
    match start with
    | some row => { filling := true, fillRow := row, fillCol := 0, reqCol := 0, reqActive := true }
    | none => s
  else
    let t :=
      if srcReqAck then
        if s.reqCol ≥ z.columns - max 1 z.block then { s with reqActive := false }
        else { s with reqCol := s.reqCol + max 1 z.block }
      else s
    if srcValid then
      if s.fillCol = z.columns - 1 then { t with filling := false }
      else { t with fillCol := s.fillCol + 1 }
    else t

end LineFill

/-- A row and column asked for, and what held when the source took the request. -/
structure FetchRequest where
  settings : FetchSettings
  row : ℕ
  col : ℕ

/-- One cycle around a line buffer and its source: the row its bookkeeping has it fetch, the settings,
whether the memory takes a command, whether it answers, and what it holds. -/
structure FillCycle (z : SourceConfig) where
  start : Option (Fin z.rowsPerFrame) := none
  settings : FetchSettings := {}
  ready : Bool := false
  answer : Bool := false
  ram : BitVec 32 → BitVec 32 := fun _ => 0

/-- A source with the commands the memory has accepted and not answered. Beside them what has gone to
and fro since the fill began: the requests taken, every word with the address it answers, and the
channels of every valid before this cycle. -/
structure FetchTrace (w : ℕ) where
  source : GroupFetch w := {}
  reads : List (BitVec 32) := []
  asked : List FetchRequest := []
  answers : List (BitVec 32 × BitVec 32) := []
  shown : List (ℕ → Shades w) := []

namespace FetchTrace

variable {w : ℕ} (z : SourceConfig) (s : FetchTrace z.greyBits) (req : Bool) (row col : ℕ)
  (c : FillCycle z)

def memCmdAck : Bool := s.source.issuer.memReq z && c.ready

/-- What the memory has to answer. A command may be answered in the cycle it is accepted in. -/
def queue : List (BitVec 32) :=
  s.reads ++ if s.memCmdAck z c then [s.source.issuer.memAdr z c.settings] else []

/-- The answer of this cycle. -/
def answered : Option (BitVec 32 × BitVec 32) :=
  if c.answer then (s.queue z c).head?.map fun a => (a, c.ram a) else none

def inputs : FetchInputs :=
  { c.settings with
    req := req, row := row, col := col
    memCmdAck := s.memCmdAck z c
    memAck := (s.answered z c).isSome
    memDat := ((s.answered z c).map Prod.snd).getD 0 }

/-- The source goes from idle to a request. -/
def takes : Bool := s.source.issuer.fsm = .idle && req

def next : FetchTrace z.greyBits where
  source := s.source.next z (s.inputs z req row col c)
  reads := if (s.answered z c).isSome then (s.queue z c).tail else s.queue z c
  asked := s.asked ++ if s.takes z req then [⟨c.settings, row, col⟩] else []
  answers := s.answers ++ (s.answered z c).toList
  shown := s.shown ++ if s.source.receiver.validR then [s.source.receiver.held] else []

/-- The channels of every valid, this cycle's included. -/
def valids (s : FetchTrace w) : List (ℕ → Shades w) :=
  s.shown ++ if s.source.receiver.validR then [s.source.receiver.held] else []

end FetchTrace

/-- A line buffer filling through its source. -/
structure RowLoad (w : ℕ) where
  fill : LineFill := {}
  trace : FetchTrace w := {}

namespace RowLoad

variable (z : SourceConfig) (s : RowLoad z.greyBits) (c : FillCycle z)

def req : Bool := s.fill.srcReq z

/-- A fill begins. -/
def starts : Bool := !s.fill.filling && c.start.isSome

/-- What has gone to and fro is counted from the beginning of the fill. -/
def next : RowLoad z.greyBits :=
  let t := s.trace.next z (s.req z) s.fill.fillRow (s.fill.srcCol z) c
  { fill := s.fill.next z (c.start.map Fin.val) (z.fetch ≠ .plain && s.trace.takes z (s.req z))
      s.trace.source.receiver.validR
    trace := if s.starts z c then { t with asked := [], answers := [], shown := [] } else t }

end RowLoad

end Ledwall.Gateware
