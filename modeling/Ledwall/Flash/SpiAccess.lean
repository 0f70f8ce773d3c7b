import Ledwall.Flash.BitstreamLoader
import Ledwall.Library.Processes

/-! The two flash writers access by access, as an interrupt can come between any two. -/

namespace Ledwall.Flash.Registers

open Ledwall.Wire Ledwall.Library.Processes BitstreamLoader

abbrev Word := BitVec 32

/-- One access: to a register of the SPI master, to the window the flash is mapped at, or to Timer0. -/
inductive Access
  | masterPhyconfig
  | masterCs (on : Bool)
  | masterStatus
  | writeRxtx (tx : Byte)
  | readRxtx
  | window (addr : ℕ)
  | timer
  deriving DecidableEq, Repr

abbrev Steps := Proc Access Word

abbrev Task := ExceptT FlashError Steps

/-- The clock that the firmware is built for, and more turns than a wait makes before the run is over. -/
structure Board where
  sysClkHz : Word
  turns : ℕ

def TX_READY : ℕ := 0
def RX_READY : ℕ := 1

def CMD_WRITE_ENABLE : Byte := 0x06
def CMD_READ_STATUS1 : Byte := 0x05
def CMD_PAGE_PROGRAM : Byte := 0x02
def CMD_SECTOR_ERASE : Byte := 0x20
def CMD_WRITE_STATUS1 : Byte := 0x01

section Primitives

variable (b : Board)

def configureMaster : Steps Unit := .access .masterPhyconfig fun _ => .ret ()

def masterCs (on : Bool) : Steps Unit := .access (.masterCs on) fun _ => .ret ()

def readByte (addr : ℕ) : Steps Byte := .access (.window addr) fun w => .ret (w.setWidth 8)

def awaitStatus (bit : ℕ) : ℕ → Steps Unit
  | 0 => .hang
  | n + 1 => .access .masterStatus fun w => if w.getLsbD bit then .ret () else awaitStatus bit n

def spiTransferByte (tx : Byte) : Steps Byte := do
  awaitStatus TX_READY b.turns
  let _ ← Proc.perform (.writeRxtx tx)
  awaitStatus RX_READY b.turns
  let rx ← Proc.perform .readRxtx
  return rx.setWidth 8

def timerTicks : Steps Word := do
  let value ← Proc.perform .timer
  return b.sysClkHz - 1 - value

def writeEnable : Steps Unit := do
  masterCs true
  let _ ← spiTransferByte b CMD_WRITE_ENABLE
  masterCs false

def readSr1 : Steps Byte := do
  masterCs true
  let _ ← spiTransferByte b CMD_READ_STATUS1
  let v ← spiTransferByte b 0x00
  masterCs false
  return v

/-- The ticks from one reading to the next, as the timer starts anew every second. -/
def elapsed (last now : Word) : Word :=
  if last ≤ now then now - last else now + (b.sysClkHz - 1) - last

/-- The loop of `wait_not_busy`. -/
def pollBusy (budget : ℕ) : ℕ → ℕ → Word → Task Unit
  | 0, _, _ => ExceptT.lift .hang
  | n + 1, spent, last => do
    let sr ← ExceptT.lift (readSr1 b)
    if sr &&& 1 = 0 then return
    let now ← ExceptT.lift (timerTicks b)
    -- `saturating_add`
    let spent := min (spent + (elapsed b last now).toNat) (2 ^ 32 - 1)
    if budget < spent then throw .timeout else pollBusy budget n spent now

def waitNotBusy (timeoutMs : ℕ) : Task Unit := do
  let start ← ExceptT.lift (timerTicks b)
  -- `saturating_mul`
  pollBusy b (min (timeoutMs * (b.sysClkHz.toNat / 1000)) (2 ^ 32 - 1)) b.turns 0 start

/-- SR1 as it was. -/
def unprotect : Task Byte := do
  ExceptT.lift configureMaster
  let before ← ExceptT.lift (readSr1 b)
  if before &&& 0b10011100 = 0 then return before
  ExceptT.lift (writeEnable b)
  ExceptT.lift (masterCs true)
  let _ ← ExceptT.lift (spiTransferByte b CMD_WRITE_STATUS1)
  let _ ← ExceptT.lift (spiTransferByte b 0x00)
  ExceptT.lift (masterCs false)
  waitNotBusy b 100
  return before

def sendAddr (addr : ℕ) : Steps Unit := do
  let _ ← spiTransferByte b (.ofNat 8 (addr / 2 ^ 16))
  let _ ← spiTransferByte b (.ofNat 8 (addr / 2 ^ 8))
  let _ ← spiTransferByte b (.ofNat 8 addr)

end Primitives

section Guard

def preambleAt (base : ℕ) : Steps Bool :=
  (List.range 8).anyM fun off => do
    if (← readByte (base + off)) = 0xBD then return (← readByte (base + off + 1)) = 0xB3
    else return false

def goldenPresent : Steps Bool := preambleAt GOLDEN_BASE

@[irreducible] def regionIsWritable (addr len : ℕ) : Task Unit :=
  -- `saturating_add`
  let stop := min (addr + len) (2 ^ 32 - 1)
  if FLASH_SIZE < stop ∨ len = 0 then throw .forbidden
  else if addr % SECTOR ≠ 0 ∨ len % SECTOR ≠ 0 then throw .unaligned
  else if addr < GOLDEN_BASE + GOLDEN_LEN ∧ GOLDEN_BASE < stop then throw .forbidden
  else if addr < MARGINAL_BASE + MARGINAL_LEN ∧ MARGINAL_BASE < stop then throw .forbidden
  else if (APP_BASE ≤ addr ∧ addr ≤ APP_BASE + APP_LEN) ∧
      APP_BASE ≤ stop ∧ stop ≤ APP_BASE + APP_LEN then do
    if ← ExceptT.lift goldenPresent then return else throw .noGolden
  else if addr < SCRATCH_BASE ∨ SCRATCH_BASE + SCRATCH_LEN < stop then throw .forbidden
  else return

@[irreducible] def regionIsBlank (addr len : ℕ) : Steps Bool :=
  (List.range len).allM fun i => do return (← readByte (addr + i)) = 0xFF

end Guard

section Commands

variable (b : Board)

def eraseSector (addr : ℕ) : Task Unit := do
  regionIsWritable addr SECTOR
  let _ ← unprotect b
  ExceptT.lift configureMaster
  ExceptT.lift (writeEnable b)
  ExceptT.lift (masterCs true)
  let _ ← ExceptT.lift (spiTransferByte b CMD_SECTOR_ERASE)
  ExceptT.lift (sendAddr b addr)
  ExceptT.lift (masterCs false)
  waitNotBusy b 400
  if !(← ExceptT.lift (regionIsBlank addr SECTOR)) then throw .notErased

def programPage (addr : ℕ) (data : List Byte) : Task Unit :=
  if data.isEmpty then return
  else if PAGE < data.length ∨ PAGE < addr % PAGE + data.length then throw .unaligned
  else do
    regionIsWritable (addr / SECTOR * SECTOR) SECTOR
    let _ ← unprotect b
    ExceptT.lift configureMaster
    ExceptT.lift (writeEnable b)
    ExceptT.lift (masterCs true)
    let _ ← ExceptT.lift (spiTransferByte b CMD_PAGE_PROGRAM)
    ExceptT.lift (sendAddr b addr)
    ExceptT.lift (data.forM fun d => do let _ ← spiTransferByte b d)
    ExceptT.lift (masterCs false)
    waitNotBusy b 10
    if data.getD 0 0 ≠ 0xFF then
      if (← ExceptT.lift (readByte addr)) ≠ data.getD 0 0 then throw .notWritten

def crc32Region (addr len : ℕ) : Steps Word := do
  let crc ← (List.range len).foldlM (fun crc i => do
    let d ← readByte (addr + i)
    return crcNibble (crcNibble (crc ^^^ d.setWidth 32))) 0xFFFFFFFF#32
  return ~~~crc

end Commands

namespace Job

variable (b : Board) (job : Job)

/-- One unit of work: a sector's erase or a page. Returns the advance and the `erased` flag. -/
def work : Task (ℕ × Bool) := do
  let addr := wrap32 (job.addr + job.cursor)
  match job.kind with
  | .erase =>
    eraseSector b addr
    return (SECTOR, job.erased)
  | .selfTest =>
    if addr % SECTOR = 0 ∧ !job.erased then
      eraseSector b addr
      return (0, true)
    else
      let n := min PAGE (job.len - job.cursor)
      programPage b addr ((List.range n).map fun i => selftestByte (wrap32 (job.cursor + i)))
      return (n, if wrap32 (addr + n) % SECTOR = 0 then false else job.erased)
  | .none => return (0, job.erased)

/-- `tick` behind its first match: what becomes of the job, which is running. -/
def tick : Steps (Job → Job) :=
  if job.len ≤ job.cursor then do
    let crc ← crc32Region job.addr job.len
    return fun job => { job with crc := crc, state := .finished }
  else do
    match ← (work b job).run with
    | .ok (advance, erased) =>
      return fun job => { job with cursor := wrap32 (job.cursor + advance), erased := erased }
    | .error e => return fun job => { job with error := some e, state := .failed }

end Job

namespace BitstreamLoader

variable (b : Board) (l : BitstreamLoader)

/-- Erase, program and compare one sector. -/
def writeSector : Task Unit := do
  let addr := l.sectorAddr
  eraseSector b addr
  (List.range (SECTOR / PAGE)).forM fun k =>
    programPage b (wrap32 (addr + k * PAGE)) ((l.padded.drop (k * PAGE)).take PAGE)
  let same ← ExceptT.lift ((List.range l.stage.length).allM fun i => do
    return (← readByte (wrap32 (addr + i))) = l.stage.getD i 0)
  if !same then throw .mismatch

def flush : Task BitstreamLoader :=
  if l.stage.isEmpty then return l
  else do
    writeSector b l
    return { l with sectors := l.sectors + 1, stage := [] }

structure Polled where
  done : Bool
  loader : BitstreamLoader
  socket : UdpSocket
  sent : List Datagram := []

/-- `socket.close()` and the failed state. -/
def fail (socket : UdpSocket) : Polled := ⟨false, { l with state := .failed }, socket.close, []⟩

/-- The acknowledgement of a block that is stored, and the wait for the next one if there is one. -/
def acknowledge (socket : UdpSocket) (around : Around) (ep : Endpoint) (last : Bool) : Polled :=
  let sent := if around.takes then [(⟨ep.addr, l.serverTid⟩, l.ack)] else []
  if last then ⟨true, { l with state := .finished }, socket, sent⟩
  else ⟨false, { l with block := l.block + 1, deadlineMs := around.timeMs + TIMEOUT_MS }, socket, sent⟩

/-- The rest of a poll, once a block is staged. -/
def storeBlock (socket : UdpSocket) (around : Around) (ep : Endpoint) (last : Bool) : Steps Polled :=
  if APP_LEN < l.written then return fail { l with error := some .forbidden } socket
  else if l.stage.length = SECTOR ∨ last then do
    match ← (flush b l).run with
    | .error e => return fail { l with error := some e } socket
    | .ok l => return acknowledge l socket around ep last
  else return acknowledge l socket around ep last

/-- One block that carries the awaited number. -/
def acceptBlock (socket : UdpSocket) (around : Around) (ep : Endpoint) (payload : List Byte) :
    Steps Polled :=
  let l := l.identify ep
  if l.written = 0 ∧ hasSync payload = false then return fail { l with badPreamble := true } socket
  else storeBlock b (l.stageBlock payload) socket around ep (payload.length < BLOCK)

def poll (socket : UdpSocket) (around : Around) : Steps Polled :=
  match l.state with
  | .sendRrq =>
    -- `bind` of a closed socket to a fixed port does not fail
    let socket := if socket.isOpen then socket else { socket with isOpen := true }
    if around.canSend ∧ around.takes then
      return ⟨false, { l with deadlineMs := around.timeMs + TIMEOUT_MS, state := .waitData }, socket,
        [(⟨l.server, .ofNat 16 TFTP_PORT⟩, l.rrq)]⟩
    else return ⟨false, l, socket, []⟩
  | .waitData =>
    if l.deadlineMs < around.timeMs then return fail l socket
    else
      match socket.rx with
      | [] => return ⟨false, l, socket, []⟩
      | (ep, data) :: rx =>
        let socket := { socket with rx := rx }
        match data with
        | _ :: opcode :: b₁ :: b₀ :: body =>
          let payload := body.take BLOCK
          if opcode = OPCODE_ERROR then return fail l socket
          else if opcode ≠ OPCODE_DATA ∨ b₁ ++ b₀ ≠ l.block then return ⟨false, l, socket, []⟩
          else acceptBlock b l socket around ep payload
        | _ => return ⟨false, l, socket, []⟩
  | .idle | .finished | .failed => return ⟨false, l, socket, []⟩

/-- `start` behind its check of the region. -/
def begin (server : BitVec 32) (filename : List Byte) : Except FlashError Unit × BitstreamLoader :=
  let l := { l with
    server := server
    serverTid := 0
    block := 1
    base := APP_BASE
    written := 0
    sectors := 0
    stage := []
    error := none
    badPreamble := false }
  if MAX_FILENAME < filename.length then (.error .nameTooLong, l)
  else (.ok (), { l with filename := filename, state := .sendRrq })

end BitstreamLoader

end Ledwall.Flash.Registers
