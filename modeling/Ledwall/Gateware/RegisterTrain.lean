import Mathlib.Data.BitVec
import Ledwall.Gateware.SpwmPrefix
import Ledwall.Library.Scripts

/-! The register train ahead of a frame, clock by clock. -/

namespace Ledwall.Gateware.Spwm

open Library.Runs Library.Scripts

/-- The prefix in one clock: whether it is busy, its LAT and its lanes. -/
structure TrainClock where
  busy : Bool := true
  lat : Bool := false
  lanes : Lanes := fun _ => false

/-- Busy, with every line low. -/
def TrainClock.low : TrainClock := {}

def TrainClock.high : TrainClock := { lat := true }

/-- A bare command of `n` clocks and its pad, between the clock that starts it and the one in which it
is seen to be over. -/
def command (n : ℕ) : List TrainClock :=
  .low :: (List.replicate n .high ++ (List.replicate CLK_PAD.toNat .low ++ [.low]))

/-- A register block: the words over and over, most significant bit first, with LAT at the end. -/
def block (blockLen : ℕ) (w : Fin 3 → BitVec 16) : List TrainClock :=
  .low :: ((List.range blockLen).map (fun t =>
    { lat := decide (blockLen - t ≤ REG_LATCH), lanes := fun i => (w i).getMsbD (t % 16) }) ++ [.low])

namespace PrefixConfig

variable (c : PrefixConfig)

def commands : List (BitVec 5) :=
  if c.midLatch then [V_SYNC, PRE_ACT_MID, PRE_ACT_END] else [V_SYNC, PRE_ACT_END]

/-- The words of a slot when it is register `r`'s turn. -/
def words (r j : ℕ) : Fin 3 → BitVec 16 :=
  c.table (BitVec.ofNat 7 (if j = c.rotSlot.toNat then r
    else MAX_REGS + if j > c.rotSlot.toNat then j - 1 else j))

def train (blockLen r : ℕ) : List TrainClock :=
  c.commands.flatMap (fun n => command n.toNat) ++
    (List.range c.slots.toNat).flatMap fun j => block blockLen (c.words r j)

/-- A table with a row, and at least one slot. -/
structure Usable : Prop where
  rows : 1 ≤ c.regCount.toNat ∧ c.regCount.toNat ≤ MAX_REGS
  slots : 1 ≤ c.slots.toNat

end PrefixConfig

namespace SpwmPrefix

def clock (s : SpwmPrefix) : TrainClock := ⟨s.busy, s.lat, s.dataOut⟩

variable {c : PrefixConfig} {blockLen : ℕ} {s : SpwmPrefix} {start : Bool} {r : BitVec 6}

/-- The clocks that come out of the prefix from here, whatever `start` does meanwhile. -/
abbrev Emits (c : PrefixConfig) (blockLen : ℕ) (Q : SpwmPrefix → Prop) (s : SpwmPrefix)
    (os : List TrainClock) : Prop :=
  Plays (fun s b => s.next c blockLen b) clock (fun _ (_ : Bool) => True) Q s os

/-- Neither unit is at work. -/
structure Resting (s : SpwmPrefix) : Prop where
  cmd : s.cmd.fsm = .idle
  shift : s.cmd.shift = 0
  blk : s.blk.shifting = false

lemma Resting.clock (h : s.Resting) : s.clock = { busy := s.busy } := by
  have hlat : s.lat = false := by simp [lat, SpwmCommand.lat, SpwmRegBlock.lat, h.cmd, h.blk]
  have hdata : s.dataOut = fun _ => false := by
    simp [dataOut, SpwmRegBlock.busy, SpwmCommand.dataOut, h.cmd, h.blk]
  rw [SpwmPrefix.clock, hlat, hdata]

/-- The units run on their own. -/
lemma next_units (s : SpwmPrefix) (c : PrefixConfig) (blockLen : ℕ) (start : Bool) :
    (s.next c blockLen start).cmd = s.cmd.next (s.request c) ∧
      (s.next c blockLen start).blk = s.blk.next blockLen (s.fsm = .block) (c.table (s.row c)) := by
  cases hfsm : s.fsm with
  | idle =>
    simp only [SpwmPrefix.next, hfsm]
    split <;> exact ⟨rfl, rfl⟩
  | cmd | block => simp only [SpwmPrefix.next, hfsm, and_self]
  | cmdWait | blockWait =>
    simp only [SpwmPrefix.next, hfsm]
    split
    · exact ⟨rfl, rfl⟩
    · split <;> exact ⟨rfl, rfl⟩

lemma Resting.next (h : s.Resting) (hcmd : s.fsm ≠ .cmd) (hblock : s.fsm ≠ .block) :
    (s.next c blockLen start).Resting := by
  obtain ⟨hunit, hblk⟩ := next_units s c blockLen start
  have hstay : s.cmd.next (s.request c) = s.cmd := by
    simp [SpwmCommand.next, h.cmd, request, hcmd]
  have hstay' : s.blk.next blockLen (s.fsm = .block) (c.table (s.row c)) = s.blk := by
    simp [SpwmRegBlock.next, h.blk, hblock]
  exact ⟨by rw [hunit, hstay, h.cmd], by rw [hunit, hstay, h.shift], by rw [hblk, hstay', h.blk]⟩

section Commands

/-- Command `k` is next, or, behind the last, the first block. -/
def Commands (c : PrefixConfig) (r : BitVec 6) (k : ℕ) (s : SpwmPrefix) : Prop :=
  s.Resting ∧ s.regIndex = r ∧ s.slot = 0 ∧
    if k < c.commands.length then s.fsm = .cmd ∧ s.step = BitVec.ofNat 4 k else s.fsm = .block

/-- The command unit is as `u` says in command `k`. -/
structure Sends (r : BitVec 6) (k : ℕ) (u : SpwmCommand) (s : SpwmPrefix) : Prop where
  fsm : s.fsm = .cmdWait
  cmd : s.cmd = u
  blk : s.blk.shifting = false
  regIndex : s.regIndex = r
  slot : s.slot = 0
  step : s.step = BitVec.ofNat 4 k

variable {k : ℕ} {u : SpwmCommand}

lemma Sends.clock (h : Sends r k u s) (hshift : u.shift = 0) : s.clock = { lat := u.lat } := by
  have hlat : s.lat = u.lat := by simp [lat, SpwmRegBlock.lat, h.cmd, h.blk]
  have hdata : s.dataOut = fun _ => false := by
    simp [dataOut, SpwmRegBlock.busy, SpwmCommand.dataOut, h.cmd, h.blk, hshift]
  have hbusy : s.busy = true := by simp [busy, h.fsm]
  rw [SpwmPrefix.clock, hlat, hdata, hbusy]

lemma Sends.next (h : Sends r k u s) (hbusy : u.busy = true) :
    Sends r k (u.next ⟨false, 0, 0, 0⟩) (s.next c blockLen start) := by
  obtain ⟨hfsm, hcmd, hblk, hindex, hslot, hstep⟩ := h
  have hrequest : s.request c = ⟨false, 0, 0, 0⟩ := by simp [request, hfsm]
  constructor <;>
    simp [SpwmPrefix.next, hfsm, hcmd, hbusy, hrequest, SpwmRegBlock.next, hblk, hindex, hslot, hstep]

lemma count_sub {m : ℕ} (hm : 0 < m) (hlt : m < 64) :
    BitVec.ofNat 6 m - 1 = BitVec.ofNat 6 (m - 1) := by
  have hone : (1 : BitVec 6).toNat = 1 := rfl
  apply BitVec.eq_of_toNat_eq
  rw [BitVec.toNat_sub, BitVec.toNat_ofNat, BitVec.toNat_ofNat, hone]
  omega

lemma count_one {m : ℕ} (hlt : m < 64) : BitVec.ofNat 6 m = 1 ↔ m = 1 := by
  rw [← BitVec.toNat_inj, BitVec.toNat_ofNat, Nat.mod_eq_of_lt hlt]
  rfl

lemma command_latHigh {m : ℕ} (hm : 0 < m) (hlt : m < 64) (q : SpwmCommand.Request) :
    SpwmCommand.next ⟨.latHigh, 0, BitVec.ofNat 6 m, 8⟩ q =
      if m = 1 then ⟨.pad, 0, 8, 8⟩ else ⟨.latHigh, 0, BitVec.ofNat 6 (m - 1), 8⟩ := by
  simp only [SpwmCommand.next, count_one hlt, count_sub hm hlt]
  rfl

lemma command_pad {m : ℕ} (hm : 0 < m) (hlt : m < 64) (q : SpwmCommand.Request) :
    SpwmCommand.next ⟨.pad, 0, BitVec.ofNat 6 m, 8⟩ q =
      if m = 1 then ⟨.idle, 0, 0, 8⟩ else ⟨.pad, 0, BitVec.ofNat 6 (m - 1), 8⟩ := by
  simp only [SpwmCommand.next, count_one hlt, count_sub hm hlt]
  split
  · next h =>
    rw [h]
    rfl
  · rfl

/-- The unit's LAT clocks, and then its pad. -/
lemma Sends.plays {n : ℕ} (hn : 0 < n) (hlt : n < 32)
    (h : Sends r k ⟨.latHigh, 0, BitVec.ofNat 6 n, 8⟩ s) :
    Emits c blockLen (Sends r k ⟨.idle, 0, 0, 8⟩) s
      (List.replicate n .high ++ List.replicate CLK_PAD.toNat .low) := by
  refine Plays.append (Q := Sends r k ⟨.pad, 0, 8, 8⟩) ?_ ?_
  · refine (Plays.replicate (I := fun j => Sends r k
      (if j < n then ⟨.latHigh, 0, BitVec.ofNat 6 (n - j), 8⟩ else ⟨.pad, 0, 8, 8⟩)) ?_ ?_).mono ?_
    · intro j hj t ht
      rw [if_pos hj] at ht
      refine ⟨ht.clock rfl, fun b _ => ?_⟩
      have hnext : Sends r k _ (t.next c blockLen b) := ht.next rfl
      rw [command_latHigh (by omega) (by omega)] at hnext
      by_cases hend : n - j = 1
      · rw [if_neg (show ¬ j + 1 < n by omega)]
        rwa [if_pos hend] at hnext
      · rw [if_pos (show j + 1 < n by omega)]
        rwa [if_neg hend, Nat.sub_sub] at hnext
    · rw [if_pos hn]
      exact h
    · intro t ht
      rwa [if_neg (Nat.lt_irrefl n)] at ht
  · intro t ht
    refine (Plays.replicate (I := fun j => Sends r k
      (if j < 8 then ⟨.pad, 0, BitVec.ofNat 6 (8 - j), 8⟩ else ⟨.idle, 0, 0, 8⟩)) ?_ ?_).mono ?_
    · intro j hj t ht
      change j < 8 at hj
      rw [if_pos hj] at ht
      refine ⟨ht.clock rfl, fun b _ => ?_⟩
      have hnext : Sends r k _ (t.next c blockLen b) := ht.next rfl
      rw [command_pad (by omega) (by omega)] at hnext
      by_cases hend : 8 - j = 1
      · rw [if_neg (show ¬ j + 1 < 8 by omega)]
        rwa [if_pos hend] at hnext
      · rw [if_pos (show j + 1 < 8 by omega)]
        rwa [if_neg hend, Nat.sub_sub] at hnext
    · exact ht
    · exact fun t ht => ht

lemma commands_length : c.commands.length = if c.midLatch then 3 else 2 := by
  rw [PrefixConfig.commands]
  split <;> rfl

/-- What the step counter says of the command. -/
lemma cmdLen_eq {n : BitVec 5} (hk : c.commands[k]? = some n) (hstep : s.step = BitVec.ofNat 4 k) :
    s.cmdLen c = n ∧ 0 < n.toNat ∧ (s.step = lastCmd c ↔ k + 1 = c.commands.length) := by
  rw [PrefixConfig.commands] at hk ⊢
  rw [cmdLen, lastCmd, hstep]
  cases hm : c.midLatch with
  | true =>
    rw [hm, if_pos rfl] at hk
    rcases k with _ | _ | _ | k
    · cases hk
      decide
    · cases hk
      decide
    · cases hk
      decide
    · simp at hk
  | false =>
    rw [hm, if_neg Bool.false_ne_true] at hk
    rcases k with _ | _ | k
    · cases hk
      decide
    · cases hk
      decide
    · simp at hk

/-- One command of the train. -/
lemma Commands.plays (h : Commands c r k s) {n : BitVec 5} (hk : c.commands[k]? = some n) :
    Emits c blockLen (Commands c r (k + 1)) s (command n.toNat) := by
  obtain ⟨hrest, hindex, hslot, hnow⟩ := h
  have hlt : k < c.commands.length := (List.getElem?_eq_some_iff.mp hk).1
  rw [if_pos hlt] at hnow
  obtain ⟨hfsm, hstep⟩ := hnow
  obtain ⟨hlen, hpos, hlast⟩ := cmdLen_eq hk hstep
  refine ⟨?_, fun b _ => ?_⟩
  · rw [hrest.clock, busy, hfsm]
    rfl
  rw [← List.append_assoc]
  refine (Sends.plays hpos n.isLt (k := k) (r := r) ?_).append fun t ht => .one ?_ fun b' _ => ?_
  · constructor
    · simp [SpwmPrefix.next, hfsm]
    · simp [SpwmPrefix.next, hfsm, SpwmCommand.next, hrest.cmd, request, hlen, CLK_PAD]
    · simp [SpwmPrefix.next, hfsm, SpwmRegBlock.next, hrest.blk]
    · simp [SpwmPrefix.next, hfsm, hindex]
    · simp [SpwmPrefix.next, hfsm, hslot]
    · simp [SpwmPrefix.next, hfsm, hstep]
  · exact ht.clock rfl
  · -- the unit is idle again
    obtain ⟨hfsm', hcmd', hblk', hindex', hslot', hstep'⟩ := ht
    obtain ⟨-, -, hlast'⟩ := cmdLen_eq hk hstep'
    have hidle : t.cmd.busy = false := by rw [hcmd']; rfl
    have hrest' : t.Resting := ⟨by rw [hcmd'], by rw [hcmd'], hblk'⟩
    refine ⟨hrest'.next (by simp [hfsm']) (by simp [hfsm']), ?_⟩
    by_cases hend : k + 1 = c.commands.length
    · rw [if_neg (by omega)]
      simp [SpwmPrefix.next, hfsm', hidle, hlast'.mpr hend, hindex', hslot']
    · rw [if_pos (by omega)]
      have hmore : ¬ BitVec.ofNat 4 k = lastCmd c := fun h => hend (hlast'.mp (hstep'.trans h))
      simp [SpwmPrefix.next, hfsm', hidle, hmore, hindex', hslot', hstep', BitVec.ofNat_add]

end Commands

section Blocks

/-- The register of the frame after this one. -/
def succIndex (c : PrefixConfig) (r : BitVec 6) : BitVec 6 :=
  if r.toNat + 1 = c.regCount.toNat then 0 else r + 1

/-- Slot `j` is next, or, behind the last, the train is over. -/
def Blocks (c : PrefixConfig) (r : BitVec 6) (j : ℕ) (s : SpwmPrefix) : Prop :=
  s.Resting ∧
    if j < c.slots.toNat then s.fsm = .block ∧ s.slot = BitVec.ofNat 4 j ∧ s.regIndex = r
    else s.fsm = .idle ∧ s.regIndex = succIndex c r

/-- `t` clocks of slot `j`'s block have been put out. -/
structure Shifts (c : PrefixConfig) (blockLen : ℕ) (r : BitVec 6) (j t : ℕ) (s : SpwmPrefix) : Prop where
  fsm : s.fsm = .blockWait
  cmd : s.cmd.fsm = .idle
  shift : s.cmd.shift = 0
  slot : s.slot = BitVec.ofNat 4 j
  regIndex : s.regIndex = r
  shifting : s.blk.shifting = decide (t < blockLen)
  left : s.blk.left = blockLen - t
  bit : s.blk.bit.toNat = 15 - t % 16
  word : t < blockLen → ∀ i, s.blk.shift i = c.words r.toNat j i <<< (t % 16)

variable {j t : ℕ}

/-- The row of the table that a slot reads. -/
lemma row_eq (hslots : j < c.slots.toNat) (hslot : s.slot = BitVec.ofNat 4 j) (hindex : s.regIndex = r) :
    c.table (s.row c) = c.words r.toNat j := by
  have hlt := c.slots.isLt
  have hj : s.slot.toNat = j := by
    rw [hslot, BitVec.toNat_ofNat]
    omega
  have hr := r.isLt
  rw [PrefixConfig.words, row]
  congr 1
  by_cases h : s.slot = c.rotSlot
  · rw [if_pos h, if_pos (by rw [← h, hj]), hindex]
    apply BitVec.eq_of_toNat_eq
    rw [BitVec.toNat_setWidth, BitVec.toNat_ofNat]
  · have hne : j ≠ c.rotSlot.toNat := by
      rw [← hj]
      exact fun heq => h (BitVec.eq_of_toNat_eq heq)
    have hgt : s.slot > c.rotSlot ↔ j > c.rotSlot.toNat := by rw [gt_iff_lt, BitVec.lt_def, hj]
    rw [if_neg h, if_neg hne]
    simp only [hgt, hj]

lemma Shifts.clock (h : Shifts c blockLen r j t s) (ht : t < blockLen) : s.clock =
    { lat := decide (blockLen - t ≤ REG_LATCH)
      lanes := fun i => (c.words r.toNat j i).getMsbD (t % 16) } := by
  have hshifting := h.shifting
  rw [decide_eq_true ht] at hshifting
  have hlat : s.lat = decide (blockLen - t ≤ REG_LATCH) := by
    simp [lat, SpwmCommand.lat, SpwmRegBlock.lat, h.cmd, hshifting, h.left]
  have hdata : s.dataOut = fun i => (c.words r.toNat j i).getMsbD (t % 16) := by
    funext i
    rw [dataOut, SpwmRegBlock.busy, hshifting, if_pos rfl, SpwmRegBlock.dataOut, h.word ht,
      BitVec.msb_shiftLeft]
  have hbusy : s.busy = true := by simp [busy, h.fsm]
  rw [SpwmPrefix.clock, hlat, hdata, hbusy]

lemma Shifts.next (h : Shifts c blockLen r j t s) (ht : t < blockLen) (hslots : j < c.slots.toNat) :
    Shifts c blockLen r j (t + 1) (s.next c blockLen start) := by
  have hshifting := h.shifting
  rw [decide_eq_true ht] at hshifting
  obtain ⟨hunit, hblk⟩ := next_units s c blockLen start
  rw [row_eq hslots h.slot h.regIndex, SpwmRegBlock.next, hshifting, if_pos rfl] at hblk
  have hstay : s.cmd.next (s.request c) = s.cmd := by
    simp [SpwmCommand.next, h.cmd, request, h.fsm]
  have hwait : s.next c blockLen start =
      { s with cmd := s.cmd.next (s.request c), blk := (s.next c blockLen start).blk } := by
    simp [SpwmPrefix.next, h.fsm, SpwmRegBlock.busy, hshifting]
  have hleft := h.left
  have hbit := h.bit
  have hzero : s.blk.bit = 0 ↔ t % 16 = 15 := by
    rw [← BitVec.toNat_inj, hbit]
    change 15 - t % 16 = 0 ↔ _
    omega
  refine ⟨?_, ?_, ?_, ?_, ?_, ?_, ?_, ?_, ?_⟩
  · rw [hwait]
    exact h.fsm
  · rw [hunit, hstay, h.cmd]
  · rw [hunit, hstay, h.shift]
  · rw [hwait]
    exact h.slot
  · rw [hwait]
    exact h.regIndex
  · rw [hblk]
    change decide (s.blk.left ≠ 1) = _
    rw [decide_eq_decide]
    omega
  · rw [hblk]
    change s.blk.left - 1 = _
    omega
  · rw [hblk]
    change (if s.blk.bit = 0 then 15 else s.blk.bit - 1).toNat = _
    by_cases hend : t % 16 = 15
    · rw [if_pos (hzero.mpr hend)]
      change 15 = _
      omega
    · rw [if_neg (fun h => hend (hzero.mp h)), BitVec.toNat_sub, hbit]
      change (2 ^ 4 - 1 + (15 - t % 16)) % 2 ^ 4 = _
      omega
  · intro ht' i
    rw [hblk]
    change (if s.blk.bit = 0 then c.words r.toNat j else fun i => shiftUp (s.blk.shift i)) i = _
    by_cases hend : t % 16 = 15
    · rw [if_pos (hzero.mpr hend), show (t + 1) % 16 = 0 by omega, BitVec.shiftLeft_zero]
    · rw [if_neg (fun h => hend (hzero.mp h)), h.word ht, shiftUp, ← BitVec.shiftLeft_add,
        show (t + 1) % 16 = t % 16 + 1 by omega]

/-- A block begins with its words. -/
lemma Blocks.begins (h : Blocks c r j s) (hslots : j < c.slots.toNat) (hlen : 0 < blockLen)
    (start : Bool) :
    s.clock = .low ∧ Shifts c blockLen r j 0 (s.next c blockLen start) := by
  obtain ⟨hrest, hnow⟩ := h
  rw [if_pos hslots] at hnow
  obtain ⟨hfsm, hslot, hindex⟩ := hnow
  obtain ⟨hunit, hblk⟩ := next_units s c blockLen start
  have hstay : s.cmd.next (s.request c) = s.cmd := by
    simp [SpwmCommand.next, hrest.cmd, request, hfsm]
  have hstarts : s.blk.next blockLen (s.fsm = .block) (c.table (s.row c)) =
      { shifting := true, shift := c.words r.toNat j, bit := 15, left := blockLen } := by
    rw [row_eq hslots hslot hindex]
    simp [SpwmRegBlock.next, hrest.blk, hfsm]
  rw [hstarts] at hblk
  have hwait : s.next c blockLen start = { s with
      fsm := .blockWait, cmd := s.cmd.next (s.request c), blk := (s.next c blockLen start).blk } := by
    simp [SpwmPrefix.next, hfsm]
  refine ⟨?_, ?_, ?_, ?_, ?_, ?_, ?_, ?_, ?_, ?_⟩
  · rw [hrest.clock, busy, hfsm]
    rfl
  · rw [hwait]
  · rw [hunit, hstay, hrest.cmd]
  · rw [hunit, hstay, hrest.shift]
  · rw [hwait]
    exact hslot
  · rw [hwait]
    exact hindex
  · rw [hblk, decide_eq_true hlen]
  · rw [hblk]
    rfl
  · rw [hblk]
    rfl
  · intro _ i
    rw [hblk]
    exact (BitVec.shiftLeft_zero _).symm

/-- Behind its last clock a block gives way to the next one, or to the idle prefix. -/
lemma Shifts.ends (h : Shifts c blockLen r j blockLen s) (hslots : j < c.slots.toNat) (start : Bool) :
    s.clock = .low ∧ Blocks c r (j + 1) (s.next c blockLen start) := by
  have hshifting := h.shifting
  rw [decide_eq_false (Nat.lt_irrefl _)] at hshifting
  have hrest : s.Resting := ⟨h.cmd, h.shift, hshifting⟩
  have hlt := c.slots.isLt
  have hslot := h.slot
  have hj : s.slot.toNat = j := by
    rw [hslot, BitVec.toNat_ofNat]
    omega
  refine ⟨?_, hrest.next (by simp [h.fsm]) (by simp [h.fsm]), ?_⟩
  · rw [hrest.clock, busy, h.fsm]
    rfl
  · by_cases hend : j + 1 < c.slots.toNat
    · rw [if_pos hend]
      simp [SpwmPrefix.next, h.fsm, SpwmRegBlock.busy, hshifting, hj, show j + 1 ≠ c.slots.toNat by omega,
        h.regIndex]
      rw [hslot, BitVec.ofNat_add]
    · rw [if_neg hend]
      simp [SpwmPrefix.next, h.fsm, SpwmRegBlock.busy, hshifting, hj, show j + 1 = c.slots.toNat by omega,
        h.regIndex, succIndex]

/-- One block of the train. -/
lemma Blocks.plays (h : Blocks c r j s) (hslots : j < c.slots.toNat) (hlen : 0 < blockLen) :
    Emits c blockLen (Blocks c r (j + 1)) s (block blockLen (c.words r.toNat j)) := by
  refine ⟨(h.begins hslots hlen true).1, fun b _ => ?_⟩
  refine (Plays.map_range (fun t ht s hs => ?_) (h.begins hslots hlen b).2).append fun s hs => ?_
  · exact ⟨hs.clock ht, fun b _ => hs.next ht hslots⟩
  · exact .one (hs.ends hslots true).1 fun b _ => (hs.ends hslots b).2

end Blocks

section Train

/-- The whole train. -/
lemma train_plays (hc : c.Usable) (hlen : 0 < blockLen) (h : Commands c r 0 s) :
    Emits c blockLen (fun s => s.Resting ∧ s.fsm = .idle ∧ s.regIndex = succIndex c r) s
      (c.train blockLen r.toNat) := by
  have hcommands : Emits c blockLen (Commands c r c.commands.length) s
      (c.commands.flatMap fun n => command n.toNat) :=
    Plays.flatMap (fun k n hk t ht => ht.plays hk) h
  refine hcommands.append fun t ht => ?_
  have hslots := hc.slots
  have hfirst : Blocks c r 0 t := by
    obtain ⟨hrest, hindex, hslot, hnow⟩ := ht
    rw [if_neg (Nat.lt_irrefl _)] at hnow
    refine ⟨hrest, ?_⟩
    rw [if_pos (by omega)]
    exact ⟨hnow, hslot, hindex⟩
  have hblocks : Emits c blockLen (Blocks c r (List.range c.slots.toNat).length) t
      ((List.range c.slots.toNat).flatMap fun j => block blockLen (c.words r.toNat j)) := by
    refine Plays.flatMap (fun k j hk u hu => ?_) hfirst
    obtain ⟨hlt, rfl⟩ : k < c.slots.toNat ∧ k = j := by simpa [List.getElem?_eq_some_iff] using hk
    exact hu.plays hlt hlen
  refine hblocks.mono fun u hu => ?_
  obtain ⟨hrest, hnow⟩ := hu
  rw [List.length_range, if_neg (Nat.lt_irrefl _)] at hnow
  exact ⟨hrest, hnow⟩

/-- The prefix waits for its frame `k`. -/
def Waits (c : PrefixConfig) (k : ℕ) (s : SpwmPrefix) : Prop :=
  s.Resting ∧ s.fsm = .idle ∧ s.regIndex.toNat = k % c.regCount.toNat

lemma succIndex_toNat {k : ℕ} (hc : c.Usable) (hr : r.toNat = k % c.regCount.toNat) :
    (succIndex c r).toNat = (k + 1) % c.regCount.toNat := by
  obtain ⟨hrows, hmax⟩ := hc.rows
  have hlt := Nat.mod_lt k hrows
  change c.regCount.toNat ≤ 64 at hmax
  have hmod : (k + 1) % c.regCount.toNat =
      if k % c.regCount.toNat + 1 = c.regCount.toNat then 0 else k % c.regCount.toNat + 1 := by
    rw [← Nat.mod_add_mod]
    split
    · next hend => rw [hend, Nat.mod_self]
    · exact Nat.mod_eq_of_lt (by omega)
  rw [succIndex, hr, hmod]
  split
  · rfl
  · rw [BitVec.toNat_add, hr]
    exact Nat.mod_eq_of_lt (show _ < 64 by change _ + 1 < 64; omega)

/-- Whenever it is asked, the prefix sends its commands and then its blocks, the turn of the registers
going by the frame: it cannot be told from one that plays the trains by heart. -/
theorem trail_eq_trains (hc : c.Usable) (hlen : 0 < blockLen) (starts : List Bool) :
    trail (fun (s : SpwmPrefix) b => s.next c blockLen b) (fun s _ => s.clock) {} starts =
      trail (Player.turn (fun k => c.train blockLen (k % c.regCount.toNat)) id)
        (fun p _ => p.now fun _ => { busy := false }) {} starts := by
  refine trail_eq_player (W := Waits c) (K := fun _ _ _ => True) ?_ ?_ ?_ ?_ (.of_forall fun _ _ _ _ => trivial)
  · rintro k t ⟨hrest, hfsm, -⟩
    rw [hrest.clock, busy, hfsm]
    rfl
  · rintro k t b ⟨hrest, hfsm, hindex⟩ hb
    have hb' : b = false := hb
    refine ⟨hrest.next (by simp [hfsm]) (by simp [hfsm]), ?_, ?_⟩
    · simp [SpwmPrefix.next, hfsm, hb']
    · simpa [SpwmPrefix.next, hfsm, hb'] using hindex
  · rintro k t b ⟨hrest, hfsm, hindex⟩ hb
    have hb' : b = true := hb
    have hbegin : Commands c t.regIndex 0 (t.next c blockLen b) := by
      refine ⟨hrest.next (by simp [hfsm]) (by simp [hfsm]), ?_, ?_, ?_⟩
      · simp [SpwmPrefix.next, hfsm, hb']
      · simp [SpwmPrefix.next, hfsm, hb']
      · rw [commands_length, if_pos (by split <;> decide)]
        simp [SpwmPrefix.next, hfsm, hb']
    rw [← hindex]
    refine (train_plays hc hlen hbegin).mono fun u hu => ⟨hu.1, hu.2.1, ?_⟩
    rw [hu.2.2]
    exact succIndex_toNat hc hindex
  · exact ⟨⟨rfl, rfl, rfl⟩, rfl, (Nat.zero_mod _).symm⟩

theorem trail_eq_trains_small :
    let c : PrefixConfig := ⟨2, 3, 1, true, fun a i => BitVec.ofNat 16 (4 * a.toNat + i)⟩
    trail (fun (s : SpwmPrefix) b => s.next c 32 b) (fun s _ => s.clock) {} (List.replicate 1000 true) =
      trail (Player.turn (fun k => c.train 32 (k % 2)) id) (fun p _ => p.now fun _ => { busy := false }) {}
        (List.replicate 1000 true) :=
  trail_eq_trains (c := ⟨2, 3, 1, true, _⟩) ⟨by decide, by decide⟩ (by decide) _

end Train

end SpwmPrefix

end Ledwall.Gateware.Spwm
