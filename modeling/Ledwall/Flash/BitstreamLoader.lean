import Ledwall.Flash.FlashWrite

/-! The streaming TFTP client that writes a bitstream into the application region. -/

namespace Ledwall.Flash

open Ledwall.Wire

def TFTP_PORT : ℕ := 6969
def OPCODE_RRQ : Byte := 1
def OPCODE_DATA : Byte := 3
def OPCODE_ACK : Byte := 4
def OPCODE_ERROR : Byte := 5
def BLOCK : ℕ := 512
def TIMEOUT_MS : ℤ := 8000
def MAX_FILENAME : ℕ := 96

structure Endpoint where
  addr : BitVec 32
  port : BitVec 16
  deriving DecidableEq, Repr

abbrev Datagram := Endpoint × List Byte

/-- The loader's UDP socket: what waits to be received. -/
structure UdpSocket where
  isOpen : Bool := false
  rx : List Datagram := []

def UdpSocket.close (_ : UdpSocket) : UdpSocket := {}

inductive LoaderState
  | idle
  | sendRrq
  | waitData
  | finished
  | failed
  deriving DecidableEq, Repr

/-- `stage` is the staging buffer up to `stage_len`. -/
structure BitstreamLoader where
  state : LoaderState := .idle
  server : BitVec 32 := 0
  serverTid : BitVec 16 := 0
  block : BitVec 16 := 0
  deadlineMs : ℤ := 0
  filename : List Byte := []
  base : ℕ := APP_BASE
  written : ℕ := 0
  sectors : ℕ := 0
  stage : List Byte := []
  error : Option FlashError := none
  badPreamble : Bool := false

namespace BitstreamLoader

variable (l : BitstreamLoader)

def isActive : Bool := l.state == .sendRrq || l.state == .waitData

/-- The loader is changed also by a name that is refused. -/
def start (c : Chip) (server : BitVec 32) (filename : List Byte) :
    Except FlashError Unit × BitstreamLoader :=
  match c.regionIsWritable APP_BASE APP_LEN with
  | .error e => (.error e, l)
  | .ok () =>
    let l := { l with
      server := server
      serverTid := 0
      block := 1
      base := APP_BASE
      written := 0
      sectors := 0
      stage := []
      error := none
      badPreamble := false }
    if MAX_FILENAME < filename.length then (.error .nameTooLong, l)
    else (.ok (), { l with filename := filename, state := .sendRrq })

/-- The staged bytes, padded to a sector with the erased value. -/
def padded : List Byte := l.stage ++ List.replicate (SECTOR - l.stage.length) 0xFF

def sectorAddr : ℕ := wrap32 (l.base + l.sectors * SECTOR)

/-- Erase, program and compare one sector. -/
def writeSector : Spi Unit := do
  let addr := l.sectorAddr
  eraseSector addr
  (List.range (SECTOR / PAGE)).forM fun k =>
    programPage (wrap32 (addr + k * PAGE)) ((l.padded.drop (k * PAGE)).take PAGE)
  let c ← get
  if !(List.range l.stage.length).all fun i =>
      c.readByte (wrap32 (addr + i)) == l.stage.getD i 0 then
    throw .mismatch

def flush (c : Chip) : Except FlashError BitstreamLoader × Chip :=
  if l.stage.isEmpty then (.ok l, c)
  else
    match l.writeSector c with
    | .ok _ c => (.ok { l with sectors := l.sectors + 1, stage := [] }, c)
    | .error e c => (.error e, c)

def rrq : List Byte :=
  [0, OPCODE_RRQ] ++ l.filename ++ [0] ++ [0x6F, 0x63, 0x74, 0x65, 0x74] ++ [0]

/-- The sync word among the first bytes of the image. -/
def hasSync (payload : List Byte) : Bool :=
  (List.range 7).any fun i => payload.getD i 0 == 0xBD && payload.getD (i + 1) 0 == 0xB3 &&
    i + 1 < payload.length

/-- What a poll finds around it: the time, whether the socket can send, and whether it takes the
datagram it is given. -/
structure Around where
  timeMs : ℤ
  canSend : Bool
  takes : Bool

structure Polled where
  done : Bool
  loader : BitstreamLoader
  socket : UdpSocket
  chip : Chip
  sent : List Datagram

/-- `socket.close()` and the failed state. -/
def fail (socket : UdpSocket) (c : Chip) : Polled :=
  ⟨false, { l with state := .failed }, socket.close, c, []⟩

/-- The server's port is that of the first block. -/
def identify (ep : Endpoint) : BitstreamLoader :=
  if l.serverTid = 0 then { l with serverTid := ep.port } else l

def stageBlock (payload : List Byte) : BitstreamLoader :=
  let taken := payload.take (SECTOR - l.stage.length)
  { l with stage := l.stage ++ taken, written := wrap32 (l.written + taken.length) }

/-- A full sector, or the last of the image, goes to the flash. -/
def flushIfDue (last : Bool) (c : Chip) : Except FlashError BitstreamLoader × Chip :=
  if l.stage.length = SECTOR ∨ last then l.flush c else (.ok l, c)

def ack : List Byte := [0, OPCODE_ACK, (l.block >>> 8).setWidth 8, l.block.setWidth 8]

/-- The acknowledgement of a block that is stored, and the wait for the next one if there is one. -/
def acknowledge (socket : UdpSocket) (c : Chip) (around : Around) (ep : Endpoint) (last : Bool) :
    Polled :=
  let sent := if around.takes then [(⟨ep.addr, l.serverTid⟩, l.ack)] else []
  if last then ⟨true, { l with state := .finished }, socket, c, sent⟩
  else
    ⟨false, { l with block := l.block + 1, deadlineMs := around.timeMs + TIMEOUT_MS }, socket, c,
      sent⟩

/-- The rest of a poll, once a block is staged. -/
def storeBlock (socket : UdpSocket) (c : Chip) (around : Around) (ep : Endpoint) (last : Bool) :
    Polled :=
  if APP_LEN < l.written then { l with error := some .forbidden }.fail socket c
  else
    match l.flushIfDue last c with
    | (.error e, c) => { l with error := some e }.fail socket c
    | (.ok l, c) => l.acknowledge socket c around ep last

/-- One block that carries the awaited number. -/
def acceptBlock (socket : UdpSocket) (c : Chip) (around : Around) (ep : Endpoint)
    (payload : List Byte) : Polled :=
  let l := l.identify ep
  if l.written = 0 ∧ hasSync payload = false then { l with badPreamble := true }.fail socket c
  else (l.stageBlock payload).storeBlock socket c around ep (payload.length < BLOCK)

def poll (socket : UdpSocket) (c : Chip) (around : Around) : Polled :=
  match l.state with
  | .sendRrq =>
    -- `bind` of a closed socket to a fixed port does not fail
    let socket := if socket.isOpen then socket else { socket with isOpen := true }
    if around.canSend ∧ around.takes then
      ⟨false, { l with deadlineMs := around.timeMs + TIMEOUT_MS, state := .waitData }, socket, c,
        [(⟨l.server, .ofNat 16 TFTP_PORT⟩, l.rrq)]⟩
    else ⟨false, l, socket, c, []⟩
  | .waitData =>
    if l.deadlineMs < around.timeMs then l.fail socket c
    else
      match socket.rx with
      | [] => ⟨false, l, socket, c, []⟩
      | (ep, data) :: rx =>
        let socket := { socket with rx := rx }
        match data with
        | _ :: opcode :: b₁ :: b₀ :: body =>
          let payload := body.take BLOCK
          if opcode = OPCODE_ERROR then l.fail socket c
          else if opcode ≠ OPCODE_DATA ∨ b₁ ++ b₀ ≠ l.block then ⟨false, l, socket, c, []⟩
          else l.acceptBlock socket c around ep payload
        | _ => ⟨false, l, socket, c, []⟩
  | .idle | .finished | .failed => ⟨false, l, socket, c, []⟩

end BitstreamLoader

end Ledwall.Flash
