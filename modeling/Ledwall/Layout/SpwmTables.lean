import Ledwall.Values.HttpRequest

/-! The register tables of the S-PWM driver chips the firmware can configure. -/

namespace Ledwall.Layout

open Ledwall.Wire Ledwall.Values

structure Row where
  r : BitVec 16
  g : BitVec 16
  b : BitVec 16
  deriving DecidableEq, Repr

/-- The fields the configuration of a chip reads. -/
structure Chip where
  name : String
  regs : List Row
  wrappers : List Row
  slots : Byte
  rotSlot : Byte
  midLatch : Bool
  rowPulse : Byte
  rowPulseFirst : Byte
  dataLatch : Byte
  rowAddress : Byte
  rowAddrShift : Byte
  rowSerial : Byte
  chanRev : Byte
  chanXor : Byte
  sweepAdv : Byte
  passesM1 : Byte
  scanReg : Byte
  scanMask : Byte

def MAX_REGS : ℕ := 64

def DP3264S_REGS : List Row :=
  [⟨0x023f, 0x023f, 0x023f⟩, ⟨0x033f, 0x033f, 0x033f⟩, ⟨0x041f, 0x041f, 0x041f⟩,
   ⟨0x0505, 0x0504, 0x0504⟩, ⟨0x0642, 0x0642, 0x0642⟩, ⟨0x0700, 0x0700, 0x0700⟩,
   ⟨0x08bf, 0x08bf, 0x08bf⟩, ⟨0x0960, 0x0960, 0x0960⟩, ⟨0x0abe, 0x0abe, 0x0abe⟩,
   ⟨0x0b28, 0x0b2b, 0x0b31⟩, ⟨0x0c8c, 0x0c8c, 0x0c8c⟩, ⟨0x0d08, 0x0d12, 0x0d18⟩,
   ⟨0x1100, 0x1100, 0x1100⟩]

def DP3364S_REGS : List Row :=
  [⟨0x023f, 0x023f, 0x023f⟩, ⟨0x033f, 0x033f, 0x033f⟩, ⟨0x041a, 0x041a, 0x041a⟩,
   ⟨0x0504, 0x0504, 0x0500⟩, ⟨0x0639, 0x0639, 0x0639⟩, ⟨0x0700, 0x070c, 0x070c⟩,
   ⟨0x087f, 0x087f, 0x087f⟩, ⟨0x0968, 0x096b, 0x0961⟩, ⟨0x0abe, 0x0abf, 0x0abe⟩,
   ⟨0x0b28, 0x0b2b, 0x0b31⟩, ⟨0x0c58, 0x0c58, 0x0c58⟩, ⟨0x0d08, 0x0d12, 0x0d18⟩,
   ⟨0x0e08, 0x0e0b, 0x0e01⟩, ⟨0x0f20, 0x0f20, 0x0f20⟩, ⟨0x1500, 0x1504, 0x1504⟩]

def ICND1065_REGS : List Row :=
  [⟨0x00aa, 0x00aa, 0x00aa⟩, ⟨0x01aa, 0x01aa, 0x01aa⟩, ⟨0x022a, 0x022a, 0x022a⟩,
   ⟨0x0335, 0x0335, 0x0335⟩, ⟨0x0412, 0x0412, 0x0412⟩, ⟨0x0500, 0x0500, 0x0500⟩,
   ⟨0x0601, 0x0601, 0x0601⟩, ⟨0x0720, 0x0720, 0x0720⟩, ⟨0x0c18, 0x0c18, 0x0c18⟩,
   ⟨0x0d01, 0x0d01, 0x0d01⟩, ⟨0x0e86, 0x0e86, 0x0e86⟩, ⟨0x0f01, 0x0f01, 0x0f01⟩,
   ⟨0x1040, 0x1040, 0x1040⟩, ⟨0x1127, 0x1127, 0x1127⟩, ⟨0x1200, 0x1200, 0x1200⟩,
   ⟨0x1300, 0x1300, 0x1300⟩, ⟨0x1400, 0x1400, 0x1400⟩, ⟨0x1500, 0x1500, 0x1500⟩,
   ⟨0x1600, 0x1600, 0x1600⟩, ⟨0x1800, 0x1800, 0x1800⟩, ⟨0x1906, 0x1906, 0x1906⟩,
   ⟨0x1c60, 0x1c60, 0x1c60⟩, ⟨0x1dca, 0x1dca, 0x1dca⟩, ⟨0x1e73, 0x1e73, 0x1e73⟩,
   ⟨0x1f00, 0x1f00, 0x1f00⟩, ⟨0x2000, 0x2000, 0x2000⟩, ⟨0x2100, 0x2100, 0x2100⟩,
   ⟨0x2200, 0x2200, 0x2200⟩, ⟨0x2300, 0x2300, 0x2300⟩, ⟨0x2400, 0x2400, 0x2400⟩,
   ⟨0x2500, 0x2500, 0x2500⟩, ⟨0x2600, 0x2600, 0x2600⟩, ⟨0x2700, 0x2700, 0x2700⟩,
   ⟨0x7000, 0x7000, 0x7000⟩, ⟨0x7100, 0x7100, 0x7100⟩, ⟨0x7200, 0x7200, 0x7200⟩,
   ⟨0x7300, 0x7300, 0x7300⟩, ⟨0x74a0, 0x74a0, 0x74a0⟩]

def ICND1065_WRAPPERS : List Row :=
  [⟨0x00aa, 0x00aa, 0x00aa⟩, ⟨0x01aa, 0x01aa, 0x01aa⟩, ⟨0x0055, 0x0055, 0x0055⟩,
   ⟨0x0155, 0x0155, 0x0155⟩]

def CHIPS : List Chip := [
  { name := "dp3264s"
    regs := DP3264S_REGS
    wrappers := []
    slots := 1
    rotSlot := 0
    midLatch := false
    rowPulse := 4
    rowPulseFirst := 12
    dataLatch := 1
    rowAddress := 1
    rowAddrShift := 3
    rowSerial := 1
    chanRev := 0
    chanXor := 0
    sweepAdv := 1
    passesM1 := 63
    scanReg := 0x02
    scanMask := 0x3f },
  { name := "dp3364s"
    regs := DP3364S_REGS
    wrappers := []
    slots := 1
    rotSlot := 0
    midLatch := false
    rowPulse := 2
    rowPulseFirst := 2
    dataLatch := 0
    rowAddress := 0
    rowAddrShift := 0
    rowSerial := 0
    chanRev := 0
    chanXor := 0
    sweepAdv := 0
    passesM1 := 0
    scanReg := 0x02
    scanMask := 0x3f },
  { name := "icnd1065"
    regs := ICND1065_REGS
    wrappers := ICND1065_WRAPPERS
    slots := 5
    rotSlot := 2
    midLatch := true
    rowPulse := 2
    rowPulseFirst := 2
    dataLatch := 0
    rowAddress := 0
    rowAddrShift := 0
    rowSerial := 0
    chanRev := 0
    chanXor := 0
    sweepAdv := 0
    passesM1 := 0
    scanReg := 0x02
    scanMask := 0x3f }]

def chipByName (name : List Byte) : Option Chip := CHIPS.find? fun c => ascii c.name == name

end Ledwall.Layout
