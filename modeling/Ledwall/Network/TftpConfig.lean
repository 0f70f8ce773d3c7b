import Ledwall.Flash.LossyTransfer
import Ledwall.Network.Smoltcp
import Ledwall.Values.HttpRequest

/-! The TFTP client that fetches the boot configuration. -/

namespace Ledwall.Network

open Ledwall.Wire Ledwall.Flash Ledwall.Values
open Ledwall.Flash.BitstreamLoader (Around)

def MAX_CONFIG_SIZE : ℕ := 2048

inductive TftpState
  | idle
  | sendRrq
  | waitData
  | done
  | failed
  deriving DecidableEq, Repr

/-- `buf` is the buffer up to `len`, and `filename` the name up to its length. -/
structure TftpConfigLoader where
  state : TftpState := .idle
  gateway : Ipv4Address := Vector.replicate 4 0
  serverTid : BitVec 16 := 0
  block : BitVec 16 := 0
  deadlineMs : ℤ := 0
  buf : List Byte := []
  overflowed : Bool := false
  filename : List Byte := []
  deriving DecidableEq

/-- What a poll leaves, and whether the configuration is ready. -/
structure ConfigPoll where
  ready : Bool
  loader : TftpConfigLoader
  socket : UdpSocket
  sent : List Flash.Datagram

namespace TftpConfigLoader

def TIMEOUT_MS : ℤ := 3000

variable (l : TftpConfigLoader)

/-- What was fetched before is dropped, and the mark of its overflow is kept. -/
def start (gateway : Ipv4Address) (filename : List Byte) : TftpConfigLoader :=
  { l with
    gateway := gateway
    serverTid := 0
    block := 1
    buf := []
    filename := filename.take 32
    state := .sendRrq }

def isActive : Bool := l.state == .sendRrq || l.state == .waitData

def isDone : Bool := l.state == .done

def rrq : List Byte :=
  [0, OPCODE_RRQ] ++ l.filename ++ [0] ++ [0x6F, 0x63, 0x74, 0x65, 0x74] ++ [0]

/-- `socket.close()` and the failed state. -/
def fail (socket : UdpSocket) : ConfigPoll := ⟨false, { l with state := .failed }, socket.close, []⟩

/-- The payload goes behind what is there, as far as the buffer has room. -/
def store (payload : List Byte) : TftpConfigLoader :=
  let copyLen := min payload.length (MAX_CONFIG_SIZE - l.buf.length)
  { l with
    buf := l.buf ++ payload.take copyLen
    overflowed := l.overflowed || decide (copyLen < payload.length) }

/-- The server's port is that of the first block. -/
def identify (ep : Endpoint) : TftpConfigLoader :=
  if l.serverTid = 0 then { l with serverTid := ep.port } else l

/-- The acknowledgement of a stored block, and the wait for the next one if there is one. -/
def acknowledge (socket : UdpSocket) (around : Around) (ep : Endpoint) (last : Bool) : ConfigPoll :=
  let ack := [0, OPCODE_ACK, (l.block >>> 8).setWidth 8, l.block.setWidth 8]
  let sent := if around.takes then [(⟨ep.addr, l.serverTid⟩, ack)] else []
  if last then ⟨true, { l with state := .done }, socket, sent⟩
  else
    ⟨false, { l with block := l.block + 1, deadlineMs := around.timeMs + TIMEOUT_MS }, socket, sent⟩

def poll (socket : UdpSocket) (around : Around) : ConfigPoll :=
  match l.state with
  | .sendRrq =>
    -- `bind` of a closed socket to a fixed port does not fail
    let socket := if socket.isOpen then socket else { socket with isOpen := true }
    if around.canSend ∧ around.takes then
      ⟨false, { l with deadlineMs := around.timeMs + TIMEOUT_MS, state := .waitData }, socket,
        [(⟨l.gateway.toU32, .ofNat 16 TFTP_PORT⟩, l.rrq)]⟩
    else ⟨false, l, socket, []⟩
  | .waitData =>
    if l.deadlineMs < around.timeMs then l.fail socket
    else
      match socket.rx with
      | [] => ⟨false, l, socket, []⟩
      | (ep, data) :: rx =>
        let socket := { socket with rx := rx }
        match data with
        | _ :: opcode :: b₁ :: b₀ :: payload =>
          if opcode = OPCODE_DATA ∧ b₁ ++ b₀ = l.block then
            ((l.store payload).identify ep).acknowledge socket around ep (payload.length < 512)
          else if opcode = OPCODE_ERROR then l.fail socket
          else ⟨false, l, socket, []⟩
        | _ => ⟨false, l, socket, []⟩
  | .idle | .done | .failed => ⟨false, l, socket, []⟩

/-- The text that `parse_config` gives the layout's parser. -/
def parseConfig : Option (List Byte) :=
  if l.buf = [] ∨ l.overflowed = true then none
  else if validUtf8 l.buf then some l.buf else none

end TftpConfigLoader

end Ledwall.Network
