import Ledwall.Wire.Protocol

/-! Writing the SPI flash: the chip, the guard on every write, and the queued job. -/

namespace Ledwall.Flash

open Ledwall.Wire

def FLASH_SIZE : ℕ := 4 * 1024 * 1024
def SECTOR : ℕ := 4096
def PAGE : ℕ := 256
def SCRATCH_BASE : ℕ := 0x360000
def SCRATCH_LEN : ℕ := 0x20000
def APP_BASE : ℕ := 0x000000
def APP_LEN : ℕ := 0x100000
def GOLDEN_BASE : ℕ := 0x200000
def GOLDEN_LEN : ℕ := 0x0B0000
def MARGINAL_BASE : ℕ := 0x2C0000
def MARGINAL_LEN : ℕ := 0x40000

inductive FlashError
  | forbidden
  | unaligned
  | timeout
  | mismatch
  | noGolden
  | nameTooLong
  | notErased
  | notWritten
  deriving DecidableEq, Repr

/-- How the part takes one erase or program: whether the unprotect before it ends in time, whether
the command is obeyed (a protected chip ignores it), and whether BUSY clears in time after it. -/
structure Answer where
  unlocks : Bool
  obeys : Bool
  settles : Bool
  deriving DecidableEq, Repr

def Answer.good : Answer := ⟨true, true, true⟩

/-- `answers` is the part's own, one for each command `issued`. -/
structure Chip where
  mem : ℕ → Byte
  issued : ℕ
  answers : ℕ → Answer

namespace Chip

def readByte (c : Chip) (addr : ℕ) : Byte := c.mem addr

def preambleAt (c : Chip) (base : ℕ) : Bool :=
  (List.range 8).any fun off =>
    c.readByte (base + off) == 0xBD && c.readByte (base + off + 1) == 0xB3

def goldenPresent (c : Chip) : Bool := c.preambleAt GOLDEN_BASE

def regionIsWritable (c : Chip) (addr len : ℕ) : Except FlashError Unit :=
  -- `saturating_add`
  let stop := min (addr + len) (2 ^ 32 - 1)
  if FLASH_SIZE < stop ∨ len = 0 then .error .forbidden
  else if addr % SECTOR ≠ 0 ∨ len % SECTOR ≠ 0 then .error .unaligned
  else if addr < GOLDEN_BASE + GOLDEN_LEN ∧ GOLDEN_BASE < stop then .error .forbidden
  else if addr < MARGINAL_BASE + MARGINAL_LEN ∧ MARGINAL_BASE < stop then .error .forbidden
  else if (APP_BASE ≤ addr ∧ addr ≤ APP_BASE + APP_LEN) ∧
      APP_BASE ≤ stop ∧ stop ≤ APP_BASE + APP_LEN then
    if c.goldenPresent then .ok () else .error .noGolden
  else if addr < SCRATCH_BASE ∨ SCRATCH_BASE + SCRATCH_LEN < stop then .error .forbidden
  else .ok ()

def regionIsBlank (c : Chip) (addr len : ℕ) : Bool :=
  (List.range len).all fun i => c.readByte (addr + i) == 0xFF

/-- The three address bytes a command carries, in a part of `FLASH_SIZE` bytes. -/
def address (addr : ℕ) : ℕ := addr % 2 ^ 24 % FLASH_SIZE

/-- `0x20` -/
def sectorErase (addr : ℕ) (mem : ℕ → Byte) : ℕ → Byte := fun a =>
  let base := address addr / SECTOR * SECTOR
  if base ≤ a ∧ a < base + SECTOR then 0xFF else mem a

/-- `0x02`: bits can only be cleared, and a page wraps onto itself. -/
def pageProgram (addr : ℕ) (data : List Byte) (mem : ℕ → Byte) : ℕ → Byte := fun a =>
  let base := address addr / PAGE * PAGE
  let i := (a - base + PAGE - address addr % PAGE) % PAGE
  if base ≤ a ∧ a < base + PAGE ∧ i < data.length then mem a &&& data.getD i 0xFF else mem a

end Chip

/-- An access to the chip that can fail and leaves what it did behind. -/
abbrev Spi := EStateM FlashError Chip

/-- `unprotect`, one command and the wait for BUSY to clear. -/
def command (f : (ℕ → Byte) → ℕ → Byte) : Spi Unit := fun c =>
  let answer := c.answers c.issued
  let c := { c with issued := c.issued + 1 }
  if !answer.unlocks then .error .timeout c
  else
    let c := if answer.obeys then { c with mem := f c.mem } else c
    if answer.settles then .ok () c else .error .timeout c

/-- `region_is_writable(addr, len)?` and then the command. -/
def checkedCommand (addr len : ℕ) (f : (ℕ → Byte) → ℕ → Byte) : Spi Unit := fun c =>
  match c.regionIsWritable addr len with
  | .error e => .error e c
  | .ok _ => command f c

def eraseSector (addr : ℕ) : Spi Unit := do
  checkedCommand addr SECTOR (Chip.sectorErase addr)
  if !(← get).regionIsBlank addr SECTOR then throw .notErased

def programPage (addr : ℕ) (data : List Byte) : Spi Unit :=
  if data.isEmpty then return
  else if PAGE < data.length ∨ PAGE < addr % PAGE + data.length then throw .unaligned
  else do
    checkedCommand (addr / SECTOR * SECTOR) SECTOR (Chip.pageProgram addr data)
    if data.getD 0 0 ≠ 0xFF ∧ (← get).readByte addr ≠ data.getD 0 0 then throw .notWritten

def crcTable : List (BitVec 32) :=
  [0x00000000, 0x1db71064, 0x3b6e20c8, 0x26d930ac, 0x76dc4190, 0x6b6b51f4, 0x4db26158, 0x5005713c,
   0xedb88320, 0xf00f9344, 0xd6d6a3e8, 0xcb61b38c, 0x9b64c2b0, 0x86d3d2d4, 0xa00ae278, 0xbdbdf21c]

def crcNibble (crc : BitVec 32) : BitVec 32 :=
  (crc >>> 4) ^^^ crcTable.getD (crc &&& 0x0F#32).toNat 0

def crc32Region (c : Chip) (addr len : ℕ) : BitVec 32 :=
  ~~~(List.range len).foldl
    (fun crc i => crcNibble (crcNibble (crc ^^^ (c.readByte (addr + i)).setWidth 32))) 0xFFFFFFFF#32

inductive JobKind
  | none
  | erase
  | selfTest
  deriving DecidableEq, Repr

inductive JobState
  | idle
  | queued
  | running
  | finished
  | failed
  deriving DecidableEq, Repr

/-- `addr`, `len` and `cursor` are 32-bit values. -/
structure Job where
  kind : JobKind := .none
  state : JobState := .idle
  addr : ℕ := 0
  len : ℕ := 0
  cursor : ℕ := 0
  error : Option FlashError := none
  crc : BitVec 32 := 0
  erased : Bool := false

/-- `u32` addition in release. -/
def wrap32 (n : ℕ) : ℕ := n % 2 ^ 32

def selftestByte (offset : ℕ) : Byte :=
  (BitVec.ofNat 32 offset ^^^ (BitVec.ofNat 32 offset >>> 8) ^^^ 0x5A#32).setWidth 8

namespace Job

variable (job : Job)

def pending : Bool := job.state == .queued || job.state == .running

def queue (c : Chip) (kind : JobKind) (addr len : BitVec 32) : Except FlashError Job :=
  match c.regionIsWritable addr.toNat len.toNat with
  | .error e => .error e
  | .ok () =>
    if job.pending then .error .forbidden
    else .ok { kind := kind, state := .queued, addr := addr.toNat, len := len.toNat }

/-- One unit of work: a sector's erase or a page. Returns the advance and the `erased` flag. -/
def work : Spi (ℕ × Bool) := do
  let addr := wrap32 (job.addr + job.cursor)
  match job.kind with
  | .erase =>
    eraseSector addr
    return (SECTOR, job.erased)
  | .selfTest =>
    if addr % SECTOR = 0 ∧ !job.erased then
      eraseSector addr
      return (0, true)
    else
      let n := min PAGE (job.len - job.cursor)
      programPage addr ((List.range n).map fun i => selftestByte (wrap32 (job.cursor + i)))
      return (n, if wrap32 (addr + n) % SECTOR = 0 then false else job.erased)
  | .none => return (0, job.erased)

def tick (c : Chip) : Job × Chip :=
  if !job.pending then (job, c)
  else
    let job := { job with state := .running }
    if job.len ≤ job.cursor then
      ({ job with crc := crc32Region c job.addr job.len, state := .finished }, c)
    else
      match job.work c with
      | .ok (advance, erased) c =>
        ({ job with cursor := wrap32 (job.cursor + advance), erased := erased }, c)
      | .error e c => ({ job with error := some e, state := .failed }, c)

end Job

end Ledwall.Flash
