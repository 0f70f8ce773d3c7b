import Ledwall.Flash.Polls
import Ledwall.Library.Runs

/-! A finished load is the file, as long as every stored block comes from one server. -/

namespace Ledwall.Flash

open Ledwall.Wire Ledwall.Library.Runs BitstreamLoader

/-- Block `k` of a transfer of `f`, and what its DATA datagram carries. -/
def blockOf (f : List Byte) (k : ℕ) : List Byte := (f.drop ((k - 1) * BLOCK)).take BLOCK

def dataOf (f : List Byte) (k : ℕ) : List Byte :=
  [0, OPCODE_DATA, .ofNat 8 (k / 256), .ofNat 8 (k % 256)] ++ blockOf f k

/-- The acknowledgement of block `k`. -/
def dataAck (k : ℕ) : List Byte := [0, OPCODE_ACK, .ofNat 8 (k / 256), .ofNat 8 (k % 256)]

/-- The blocks a transfer of `f` has: numbered from 1 in 16 bits, the last one short. -/
def HasBlock (f : List Byte) (k : ℕ) : Prop := 0 < k ∧ k < 2 ^ 16 ∧ (k - 1) * BLOCK ≤ f.length

/-- A load: the loader and what it works on, all it has sent, and whence each block it stored. -/
structure Load where
  loader : BitstreamLoader
  socket : UdpSocket
  chip : Chip
  sent : List Datagram := []
  stored : List (Endpoint × BitVec 16) := []

inductive Event
  | arrive (d : Datagram)
  | poll (around : Around)

/-- The datagram is a block of the file its sender transfers. -/
def IsData (files : Endpoint → List Byte) (d : Datagram) : Prop :=
  ∃ k, HasBlock (files d.1) k ∧ d.2 = dataOf (files d.1) k

def Event.Carries (files : Endpoint → List Byte) : Event → Prop
  | .arrive d => IsData files d
  | .poll _ => True

namespace Load

variable (w : Load)

/-- What a poll at this time stores, if it does not fail. -/
def taken (around : Around) : List (Endpoint × BitVec 16) :=
  match w.loader.awaited w.socket around.timeMs with
  | none => []
  | some (ep, _) => [(ep, w.loader.block)]

def step : Event → Load
  | .arrive d => { w with socket := { w.socket with rx := w.socket.rx ++ [d] } }
  | .poll around =>
    let p := w.loader.poll w.socket w.chip around
    { loader := p.loader
      socket := p.socket
      chip := p.chip
      sent := w.sent ++ p.sent
      stored := if p.loader.state = .failed then w.stored else w.stored ++ w.taken around }

/-- The block a poll is about to take comes from the server of the first one. -/
def SameServer : Event → Prop
  | .arrive _ => True
  | .poll around => ∀ ep payload, w.loader.awaited w.socket around.timeMs = some (ep, payload) →
      ∀ first ∈ w.stored.head?, ep = first.1

/-- The flash holds `f`, transferred by `ep` alone, and every block of it was stored once. -/
structure Holds (f : List Byte) (ep : Endpoint) : Prop where
  written : w.loader.written = f.length
  image : ∀ i, i < f.length → w.chip.readByte (APP_BASE + i) = f.getD i 0
  padding : ∀ a, f.length ≤ a → a < (f.length + PAGE - 1) / PAGE * PAGE →
    w.chip.readByte (APP_BASE + a) = 0xFF
  stored : w.stored = (List.range (f.length / BLOCK + 1)).map fun i => (ep, .ofNat 16 (i + 1))
  acknowledged : ∀ d ∈ w.sent, d.2.getD 1 0 = OPCODE_ACK → d.1 = ep

/-- The first `b` blocks of `f`, all of them full, are in the flash and in the stage. -/
structure Progress (f : List Byte) (ep : Endpoint) (b : ℕ) : Prop where
  full : b * BLOCK ≤ f.length
  fits : b * BLOCK ≤ APP_LEN
  base : w.loader.base = APP_BASE
  block : w.loader.block = .ofNat 16 (b + 1)
  written : w.loader.written = b * BLOCK
  behind : w.loader.sectors * SECTOR ≤ b * BLOCK
  room : b * BLOCK < w.loader.sectors * SECTOR + SECTOR
  stage : w.loader.stage = (f.take (b * BLOCK)).drop (w.loader.sectors * SECTOR)
  flash : ∀ a, a < w.loader.sectors * SECTOR → w.chip.mem a = f.getD a 0xFF
  tid : w.loader.serverTid = if b = 0 then 0 else ep.port
  stored : w.stored = (List.range b).map fun i => (ep, .ofNat 16 (i + 1))
  acknowledged : ∀ d ∈ w.sent, d.2.getD 1 0 = OPCODE_ACK → b ≠ 0 ∧ d.1 = ep

end Load

theorem blockOf_length (f : List Byte) (b : ℕ) :
    (blockOf f (b + 1)).length = min BLOCK (f.length - b * BLOCK) := by
  rw [blockOf, Nat.add_sub_cancel, List.length_take, List.length_drop]

/-- A block number in its two bytes, read back. -/
theorem number_append {k : ℕ} (hk : k < 2 ^ 16) :
    (BitVec.ofNat 8 (k / 256) ++ BitVec.ofNat 8 (k % 256) : BitVec 16) = .ofNat 16 k := by
  apply BitVec.eq_of_toNat_eq
  rw [BitVec.toNat_append, BitVec.toNat_ofNat, BitVec.toNat_ofNat, BitVec.toNat_ofNat,
    ← Nat.shiftLeft_add_eq_or_of_lt (by omega), Nat.shiftLeft_eq]
  omega

theorem dataOf_number (f : List Byte) {k : ℕ} (hk : k < 2 ^ 16) :
    (dataOf f k).getD 2 0 ++ (dataOf f k).getD 3 0 = BitVec.ofNat 16 k :=
  number_append hk

/-- The two bytes of a block number, as the loader takes them apart for its acknowledgement. -/
theorem dataAck_eq {k : ℕ} (hk : k < 2 ^ 16) :
    [0, OPCODE_ACK, (BitVec.ofNat 16 k >>> 8).setWidth 8, (BitVec.ofNat 16 k).setWidth 8] =
      dataAck k := by
  have hhigh : ((BitVec.ofNat 16 k >>> 8).setWidth 8 : Byte) = .ofNat 8 (k / 256) := by
    apply BitVec.eq_of_toNat_eq
    rw [BitVec.toNat_setWidth, BitVec.toNat_ushiftRight, BitVec.toNat_ofNat, BitVec.toNat_ofNat,
      Nat.shiftRight_eq_div_pow, Nat.mod_eq_of_lt hk]
  have hlow : ((BitVec.ofNat 16 k).setWidth 8 : Byte) = .ofNat 8 (k % 256) := by
    apply BitVec.eq_of_toNat_eq
    rw [BitVec.toNat_setWidth, BitVec.toNat_ofNat, BitVec.toNat_ofNat]
    omega
  rw [hhigh, hlow, dataAck]

/-- A DATA datagram that carries the awaited number carries the awaited block. -/
theorem payload_of_number {f : List Byte} {k b : ℕ} (hk : HasBlock f k) (hb : b + 1 < 2 ^ 16)
    (hnum : (dataOf f k).getD 2 0 ++ (dataOf f k).getD 3 0 = BitVec.ofNat 16 (b + 1)) :
    b * BLOCK ≤ f.length ∧ ((dataOf f k).drop 4).take BLOCK = blockOf f (b + 1) := by
  rw [dataOf_number f hk.2.1] at hnum
  have hkb : k = b + 1 := by
    have := congrArg BitVec.toNat hnum
    rw [BitVec.toNat_ofNat, BitVec.toNat_ofNat, Nat.mod_eq_of_lt hk.2.1, Nat.mod_eq_of_lt hb] at this
    exact this
  subst hkb
  refine ⟨hk.2.2, ?_⟩
  change (blockOf f (b + 1)).take BLOCK = _
  rw [blockOf, List.take_take, Nat.min_self]

/-- The last page of the written sectors. -/
theorem page_in_written {n s a : ℕ} (hn : n ≤ s * SECTOR) (ha : a < (n + PAGE - 1) / PAGE * PAGE) :
    a < s * SECTOR := by
  have hpages : (n + PAGE - 1) / PAGE ≤ s * 16 := by
    apply Nat.le_of_lt_succ
    rw [Nat.div_lt_iff_lt_mul (by decide)]
    simp only [PAGE, SECTOR] at hn ⊢
    omega
  have hbytes : (n + PAGE - 1) / PAGE * PAGE ≤ s * 16 * PAGE := Nat.mul_le_mul_right PAGE hpages
  apply Nat.lt_of_lt_of_le ha
  apply hbytes.trans
  rw [Nat.mul_assoc]
  exact Nat.le_refl _

/-- A block of the awaited number at the head of the queue is taken by a poll in time. -/
theorem awaited_data {l : BitstreamLoader} {socket : UdpSocket} {ep : Endpoint} {f : List Byte}
    {k : ℕ} {rx : List Datagram} {timeMs : ℤ} (hstate : l.state = .waitData)
    (htime : timeMs ≤ l.deadlineMs) (hrx : socket.rx = (ep, dataOf f k) :: rx) (hk : k < 2 ^ 16)
    (hblock : l.block = .ofNat 16 k) : l.awaited socket timeMs = some (ep, blockOf f k) := by
  rw [awaited, hrx]
  dsimp only
  rw [if_pos]
  · change some (ep, (blockOf f k).take BLOCK) = _
    rw [blockOf, List.take_take, Nat.min_self]
  · refine ⟨⟨hstate, htime⟩, ?_, rfl, ?_⟩
    · rw [dataOf, List.length_append]
      exact Nat.le_add_right 4 _
    · rw [dataOf_number f hk, hblock]

section Flush

variable {f : List Byte} {l l' : BitstreamLoader} {c c' : Chip} {n : ℕ} {last : Bool}

/-- What a flush leaves: the sectors before the cursor hold the file, and the rest is staged. -/
theorem flushIfDue_image (hbase : l.base = APP_BASE) (hbehind : l.sectors * SECTOR ≤ n)
    (hroom : n ≤ l.sectors * SECTOR + SECTOR) (hn : n ≤ f.length) (hfits : n ≤ APP_LEN)
    (hstage : l.stage = (f.take n).drop (l.sectors * SECTOR)) (hlast : last = true → n = f.length)
    (hflash : ∀ a, a < l.sectors * SECTOR → c.mem a = f.getD a 0xFF)
    (h : l.flushIfDue last c = (.ok l', c')) :
    (l'.state = l.state ∧ l'.serverTid = l.serverTid ∧ l'.block = l.block ∧ l'.base = l.base ∧ l'.written = l.written) ∧
      (∀ a, a < l'.sectors * SECTOR → c'.mem a = f.getD a 0xFF) ∧
      (last = true → n ≤ l'.sectors * SECTOR) ∧
      (last = false → l'.sectors * SECTOR ≤ n ∧ n < l'.sectors * SECTOR + SECTOR ∧
        l'.stage = (f.take n).drop (l'.sectors * SECTOR)) := by
  have hlen : l.stage.length = n - l.sectors * SECTOR := by
    rw [hstage, List.length_drop, List.length_take, Nat.min_eq_left hn]
  rcases flushIfDue_ok h with ⟨rfl, rfl, hidle⟩ | ⟨hdue, rfl, hwrite⟩
  · refine ⟨⟨rfl, rfl, rfl, rfl, rfl⟩, hflash, ?_, ?_⟩
    · intro hl
      rcases hidle with hempty | ⟨-, hfalse⟩
      · rw [hempty, List.length_nil] at hlen
        omega
      · rw [hl] at hfalse
        cases hfalse
    · intro _
      refine ⟨hbehind, ?_, hstage⟩
      rcases hidle with hempty | ⟨hne, -⟩
      · rw [hempty, List.length_nil] at hlen
        have : 0 < SECTOR := by decide
        omega
      · omega
  · have haddr : l.sectorAddr = l.sectors * SECTOR := by
      rw [sectorAddr, hbase, APP_BASE, Nat.zero_add, wrap32]
      apply Nat.mod_eq_of_lt
      simp only [APP_LEN] at hfits
      omega
    have hmem := writeSector_ok hwrite (by omega)
    rw [haddr] at hmem
    have hnext : (l.sectors + 1) * SECTOR = l.sectors * SECTOR + SECTOR := by
      rw [Nat.add_mul, Nat.one_mul]
    refine ⟨⟨rfl, rfl, rfl, rfl, rfl⟩, ?_, ?_, ?_⟩
    · intro a ha
      change a < (l.sectors + 1) * SECTOR at ha
      rw [hmem]
      split
      · next hin =>
        rcases Nat.lt_or_ge a n with hlt | hge
        · rw [padded_getD_stage (by omega), hstage, List.getD_eq_getElem?_getD, List.getElem?_drop,
            Nat.add_sub_cancel' hin.1, List.getElem?_take_of_lt hlt,
            List.getElem?_eq_getElem (by omega), List.getD_eq_getElem _ _ (by omega)]
          rfl
        · rw [padded_getD (by omega), List.getD_eq_default]
          rcases hdue with hfull | hl
          · omega
          · rwa [← hlast hl]
      · next hout => exact hflash a (by omega)
    · intro _
      change n ≤ (l.sectors + 1) * SECTOR
      omega
    · intro hl
      change (l.sectors + 1) * SECTOR ≤ n ∧ n < (l.sectors + 1) * SECTOR + SECTOR ∧
        [] = (f.take n).drop ((l.sectors + 1) * SECTOR)
      rw [hl] at hdue
      have hfull : l.stage.length = SECTOR := hdue.resolve_right Bool.false_ne_true
      have : 0 < SECTOR := by decide
      refine ⟨by omega, by omega, ?_⟩
      rw [List.drop_eq_nil_of_le]
      rw [List.length_take]
      omega

end Flush

namespace Load

variable {w : Load} {f f' : List Byte} {ep ep' : Endpoint} {b : ℕ} {around : Around}

/-- Before the first block, the load may become that of any file. -/
theorem Progress.of_none (h : w.Progress f ep 0) (f' : List Byte) (ep' : Endpoint) :
    w.Progress f' ep' 0 where
  full := by simp
  fits := h.fits
  base := h.base
  block := h.block
  written := h.written
  behind := h.behind
  room := h.room
  stage := by
    rw [h.stage, Nat.zero_mul, List.take_zero, List.take_zero]
  flash a ha := by
    have := h.behind
    omega
  tid := h.tid
  stored := h.stored
  acknowledged d hd hack := absurd rfl (h.acknowledged d hd hack).1

/-- A poll that takes no block changes nothing of the progress. -/
theorem Progress.idle (h : w.Progress f ep b) {p : Polled}
    (hidle : Idle w.loader w.chip w.socket p) {stored : List (Endpoint × BitVec 16)}
    (hstored : stored = w.stored) :
    Progress ⟨p.loader, p.socket, p.chip, w.sent ++ p.sent, stored⟩ f ep b := by
  obtain ⟨⟨st, dl, hl, -⟩, hchip, hsent, -⟩ := hidle
  constructor
  case full => exact h.full
  case fits => exact h.fits
  case flash =>
    dsimp only
    rw [hchip, hl]
    exact h.flash
  case stored =>
    dsimp only
    rw [hstored]
    exact h.stored
  case acknowledged =>
    intro d hd hack
    rcases List.mem_append.mp hd with hd | hd
    · exact h.acknowledged d hd hack
    · rw [hsent d hd] at hack
      cases hack
  all_goals
    dsimp only
    rw [hl]
    first
    | exact h.base
    | exact h.block
    | exact h.written
    | exact h.behind
    | exact h.room
    | exact h.stage
    | exact h.tid

/-- Nor does it change a file that is held. -/
theorem Holds.idle (h : w.Holds f ep) {p : Polled} (hidle : Idle w.loader w.chip w.socket p)
    {stored : List (Endpoint × BitVec 16)} (hstored : stored = w.stored) :
    Holds ⟨p.loader, p.socket, p.chip, w.sent ++ p.sent, stored⟩ f ep := by
  obtain ⟨⟨st, dl, hl, -⟩, hchip, hsent, -⟩ := hidle
  constructor
  case written =>
    dsimp only
    rw [hl]
    exact h.written
  case image =>
    dsimp only
    rw [hchip]
    exact h.image
  case padding =>
    dsimp only
    rw [hchip]
    exact h.padding
  case stored =>
    dsimp only
    rw [hstored]
    exact h.stored
  case acknowledged =>
    intro d hd hack
    rcases List.mem_append.mp hd with hd | hd
    · exact h.acknowledged d hd hack
    · rw [hsent d hd] at hack
      cases hack

/-- The loader once the awaited block is staged: the first `n` bytes are there. -/
theorem staged (h : w.Progress f ep b) (hb : b * BLOCK ≤ f.length) :
    ∃ l n, (w.loader.identify ep).stageBlock (blockOf f (b + 1)) = l ∧
      n = b * BLOCK + (blockOf f (b + 1)).length ∧ n ≤ f.length ∧
      n ≤ l.sectors * SECTOR + SECTOR ∧ l.sectors = w.loader.sectors ∧ l.base = w.loader.base ∧
      l.state = w.loader.state ∧ l.block = w.loader.block ∧ l.serverTid = ep.port ∧ l.written = n ∧
      l.stage = (f.take n).drop (l.sectors * SECTOR) := by
  have hlen := blockOf_length f b
  have hstage : w.loader.stage.length = b * BLOCK - w.loader.sectors * SECTOR := by
    rw [h.stage, List.length_drop, List.length_take, Nat.min_eq_left hb]
  have hroom := h.room
  have hbehind := h.behind
  have hfits := h.fits
  -- sectors and blocks are aligned, so a whole block is left in the stage
  have hblock : b * BLOCK + BLOCK ≤ w.loader.sectors * SECTOR + SECTOR := by
    simp only [BLOCK, SECTOR] at hroom ⊢
    omega
  have hidentify : w.loader.identify ep = { w.loader with serverTid := ep.port } := by
    have htid := h.tid
    rw [identify]
    split
    · rfl
    · next hne =>
      split at htid
      · exact absurd htid hne
      · rw [← htid]
  have htake : (blockOf f (b + 1)).take (SECTOR - w.loader.stage.length) = blockOf f (b + 1) := by
    apply List.take_of_length_le
    omega
  have hbytes : w.loader.stage ++ blockOf f (b + 1) =
      (f.take (b * BLOCK + (blockOf f (b + 1)).length)).drop (w.loader.sectors * SECTOR) := by
    have hnext : f.take (b * BLOCK + (blockOf f (b + 1)).length) =
        f.take (b * BLOCK) ++ blockOf f (b + 1) := by
      have hall : (f.drop (b * BLOCK)).take (blockOf f (b + 1)).length = blockOf f (b + 1) := by
        rw [hlen, ← List.length_drop, ← List.take_eq_take_min, blockOf, Nat.add_sub_cancel]
      rw [List.take_add, hall]
    rw [hnext, List.drop_append_of_le_length, ← h.stage]
    rw [List.length_take]
    omega
  have hwrap : wrap32 (b * BLOCK + (blockOf f (b + 1)).length) =
      b * BLOCK + (blockOf f (b + 1)).length := by
    apply Nat.mod_eq_of_lt
    simp only [APP_LEN] at hfits
    rw [hlen, BLOCK]
    rw [BLOCK] at hfits
    omega
  rw [hidentify]
  refine ⟨_, _, rfl, rfl, by omega, by dsimp only [stageBlock]; omega, rfl, rfl, rfl, rfl,
    rfl, ?_, ?_⟩
  · dsimp only [stageBlock]
    rw [htake, h.written, hwrap]
  · dsimp only [stageBlock]
    rw [htake, hbytes]

/-- What a poll that takes the awaited block without failing leaves. -/
theorem Progress.stored_block (h : w.Progress f ep b) (hw : w.loader.state = .waitData)
    (hb : b * BLOCK ≤ f.length)
    {socket : UdpSocket} {p : Polled} (hne : p.loader.state ≠ .failed)
    (hp : w.loader.acceptBlock socket w.chip around ep (blockOf f (b + 1)) = p) :
    (p.loader.state = .finished →
      Holds ⟨p.loader, p.socket, p.chip, w.sent ++ p.sent, w.stored ++ [(ep, w.loader.block)]⟩ f ep) ∧
    (p.loader.state ≠ .finished →
      Progress ⟨p.loader, p.socket, p.chip, w.sent ++ p.sent, w.stored ++ [(ep, w.loader.block)]⟩
        f ep (b + 1)) := by
  subst hp
  obtain ⟨-, hfits, l', c', hflush, hack⟩ := acceptBlock_ok hne
  obtain ⟨l, n, hl, hn, hnf, hroom, hsectors, hbase, hstate, hblock, htid, hwritten, hstage⟩ :=
    staged h hb
  rw [hl] at hfits hflush
  have hlen := blockOf_length f b
  have hbehind := h.behind
  have hlast : decide ((blockOf f (b + 1)).length < BLOCK) = true → n = f.length := by
    intro hl
    have := of_decide_eq_true hl
    omega
  obtain ⟨⟨hstate', htid', hblock', hbase', hwritten'⟩, hflash, hdone, hmore⟩ :=
    flushIfDue_image (hbase.trans h.base) (by rw [hsectors]; omega) hroom hnf (by omega) hstage hlast
      (by rw [hsectors]; exact h.flash) hflush
  rw [hack]
  have hacks : ∀ d ∈ w.sent ++ (l'.acknowledge socket c' around ep
      (decide ((blockOf f (b + 1)).length < BLOCK))).sent, d.2.getD 1 0 = OPCODE_ACK → d.1 = ep := by
    intro d hd hop
    rcases List.mem_append.mp hd with hd | hd
    · exact (h.acknowledged d hd hop).2
    · have hsent : d ∈ if around.takes then [((⟨ep.addr, l'.serverTid⟩ : Endpoint), l'.ack)] else [] := by
        rw [acknowledge] at hd
        split at hd <;> exact hd
      split at hsent
      · rw [List.mem_singleton.mp hsent, htid', htid]
      · cases hsent
  have hstored : w.stored ++ [(ep, w.loader.block)] =
      (List.range (b + 1)).map fun i => (ep, BitVec.ofNat 16 (i + 1)) := by
    rw [List.range_succ, List.map_append, ← h.stored, h.block]
    rfl
  rw [hstored]
  cases hcase : decide ((blockOf f (b + 1)).length < BLOCK) with
  | false =>
    rw [hcase] at hacks
    have hlt := of_decide_eq_false hcase
    obtain ⟨hbehind', hroom', hstage'⟩ := hmore hcase
    have hnb : n = (b + 1) * BLOCK := by
      rw [Nat.add_mul, Nat.one_mul]
      omega
    subst hnb
    refine ⟨?_, fun _ => ?_⟩
    · intro hfin
      have hfin : l'.state = .finished := hfin
      rw [hstate', hstate, hw] at hfin
      cases hfin
    · exact
        { full := hnf
          fits := by rw [← hwritten]; exact hfits
          base := hbase'.trans (hbase.trans h.base)
          block := by
            change l'.block + 1 = _
            rw [hblock', hblock, h.block]
            exact (BitVec.ofNat_add (b + 1) 1).symm
          written := hwritten'.trans hwritten
          behind := hbehind'
          room := hroom'
          stage := hstage'
          flash := hflash
          tid := by
            rw [if_neg (Nat.succ_ne_zero b)]
            exact htid'.trans htid
          stored := rfl
          acknowledged := fun d hd hop => ⟨Nat.succ_ne_zero b, hacks d hd hop⟩ }
  | true =>
    rw [hcase] at hacks
    have hlt := of_decide_eq_true hcase
    have hnf' : n = f.length := hlast hcase
    have hfull := hdone hcase
    refine ⟨fun _ => ?_, fun hne => absurd rfl hne⟩
    have hmem (a : ℕ) (ha : a < l'.sectors * SECTOR) := hflash a ha
    exact
      { written := by rw [← hnf', ← hwritten]; exact hwritten'
        image := by
          intro i hi
          change c'.mem (APP_BASE + i) = _
          rw [APP_BASE, Nat.zero_add, hflash i (by omega), List.getD_eq_getElem _ _ hi,
            List.getD_eq_getElem _ _ hi]
        padding := by
          intro a hlo hhi
          change c'.mem (APP_BASE + a) = _
          have hin : a < l'.sectors * SECTOR := page_in_written hfull (by rwa [hnf'])
          rw [APP_BASE, Nat.zero_add, hflash a hin, List.getD_eq_default _ _ hlo]
        stored := by
          have hblocks : f.length / BLOCK = b := by
            simp only [BLOCK] at hlt hlen hn hb ⊢
            omega
          rw [hblocks]
        acknowledged := hacks }

/-- A healthy part stores every block that fits, of a file that begins as a bitstream does. -/
theorem Progress.accepts (h : w.Progress f ep b) (around : Around) (hb : b * BLOCK ≤ f.length)
    (hfits : min f.length (b * BLOCK + BLOCK) ≤ APP_LEN) (hsync : hasSync (blockOf f 1) = true)
    (hhealthy : w.chip.Healthy) (hg : w.chip.goldenPresent = true) (socket : UdpSocket) :
    ∃ l' c', c'.Healthy ∧ c'.goldenPresent = true ∧
      w.loader.acceptBlock socket w.chip around ep (blockOf f (b + 1)) =
        acknowledge l' socket c' around ep ((blockOf f (b + 1)).length < BLOCK) ∧
      l'.state = w.loader.state ∧ l'.serverTid = ep.port ∧ l'.block = w.loader.block := by
  obtain ⟨l, n, hl, hn, hnf, hroom, hsectors, hbase, hstate, hblock, htid, hwritten, hstage⟩ :=
    staged h hb
  have hlen := blockOf_length f b
  have hstaged : l.stage.length = n - l.sectors * SECTOR := by
    rw [hstage, List.length_drop, List.length_take, Nat.min_eq_left hnf]
  obtain ⟨l', c', hflush, hh, hgolden⟩ := flushIfDue_healthy
    (decide ((blockOf f (b + 1)).length < BLOCK)) hhealthy hg (hbase.trans h.base)
    (by omega) (by
      intro hne
      have hpos : 0 < l.stage.length := List.length_pos_iff.mpr hne
      have hlt : l.sectors * SECTOR < APP_LEN := by omega
      simp only [APP_LEN, SECTOR] at hlt ⊢
      omega)
  refine ⟨l', c', hh, hgolden, ?_, ?_⟩
  · have hbegin : ¬ ((w.loader.identify ep).written = 0 ∧ hasSync (blockOf f (b + 1)) = false) := by
      rintro ⟨hzero, hnosync⟩
      rw [identify_written, h.written] at hzero
      have hb0 : b = 0 := by
        simp only [BLOCK] at hzero
        omega
      rw [hb0, hsync] at hnosync
      cases hnosync
    rw [acceptBlock, if_neg hbegin, hl, storeBlock, if_neg (by omega), hflush]
  · rcases flushIfDue_ok hflush with ⟨rfl, -, -⟩ | ⟨-, rfl, -⟩
    · exact ⟨hstate, htid, hblock⟩
    · exact ⟨hstate, htid, hblock⟩

/-- The load after a poll whose block is put down to `ep`. -/
def polled (w : Load) (p : Polled) (ep : Endpoint) : Load :=
  ⟨p.loader, p.socket, p.chip, w.sent ++ p.sent, w.stored ++ [(ep, w.loader.block)]⟩

/-- The next block of such a file at the head of the queue: a poll in time stores it, also when it
comes from another port of the server. -/
theorem Progress.polled (h : w.Progress f ep b) (around : Around) (port : BitVec 16)
    (rx : List Datagram) (hw : w.loader.state = .waitData)
    (htime : around.timeMs ≤ w.loader.deadlineMs)
    (hrx : w.socket.rx = (⟨ep.addr, port⟩, dataOf f (b + 1)) :: rx)
    (hport : port = ep.port ∨ w.loader.serverTid ≠ 0) (hb : b * BLOCK ≤ f.length)
    (hfits : min f.length (b * BLOCK + BLOCK) ≤ APP_LEN) (hsync : hasSync (blockOf f 1) = true)
    (hhealthy : w.chip.Healthy) (hg : w.chip.goldenPresent = true) :
    ∃ p, w.loader.poll w.socket w.chip around = p ∧ p.chip.Healthy ∧
      p.chip.goldenPresent = true ∧ p.socket = { w.socket with rx := rx } ∧
      p.sent = (if around.takes then [(ep, dataAck (b + 1))] else []) ∧
      (b * BLOCK + BLOCK ≤ f.length → (w.polled p ep).Progress f ep (b + 1) ∧
        p.loader.state = .waitData ∧ p.loader.deadlineMs = around.timeMs + TIMEOUT_MS) ∧
      (f.length < b * BLOCK + BLOCK → (w.polled p ep).Holds f ep ∧ p.loader.state = .finished) := by
  have hsmall : b + 1 < 2 ^ 16 := by
    have := h.fits
    simp only [BLOCK, APP_LEN] at this
    omega
  have hawaited := awaited_data hw htime hrx hsmall h.block
  have hlen := blockOf_length f b
  obtain ⟨l', c', hh, hgolden, haccept, hstate, htid', hblock'⟩ :=
    h.accepts around hb hfits hsync hhealthy hg { w.socket with rx := rx }
  have hpoll : w.loader.poll w.socket w.chip around =
      acknowledge l' { w.socket with rx := rx } c' around ep ((blockOf f (b + 1)).length < BLOCK) := by
    rw [poll_awaited hawaited, hrx, List.tail_cons, ← haccept]
    rcases hport with rfl | htid
    · rfl
    · exact acceptBlock_port htid _ _ _
  have hack : l'.ack = dataAck (b + 1) := by
    rw [BitstreamLoader.ack, hblock', h.block, dataAck_eq hsmall]
  have hsent (last : Bool) : (acknowledge l' { w.socket with rx := rx } c' around ep last).sent =
      if around.takes then [(ep, dataAck (b + 1))] else [] := by
    rw [acknowledge, hack, htid']
    split <;> rfl
  rw [hpoll]
  refine ⟨_, rfl, ?_⟩
  rcases Nat.lt_or_ge f.length (b * BLOCK + BLOCK) with hshort | hfull
  · have hlast : decide ((blockOf f (b + 1)).length < BLOCK) = true := decide_eq_true (by omega)
    rw [hlast] at haccept ⊢
    refine ⟨hh, hgolden, rfl, hsent true, fun hle => absurd hshort (not_lt.mpr hle), fun _ => ⟨?_, rfl⟩⟩
    exact (h.stored_block hw hb (by exact LoaderState.noConfusion) haccept).1 rfl
  · have hmore : decide ((blockOf f (b + 1)).length < BLOCK) = false := decide_eq_false (by omega)
    rw [hmore] at haccept ⊢
    have hwait : (acknowledge l' { w.socket with rx := rx } c' around ep false).loader.state = .waitData :=
      hstate.trans hw
    refine ⟨hh, hgolden, rfl, hsent false, fun _ => ⟨?_, hwait, rfl⟩, fun hlt => absurd hlt (not_lt.mpr hfull)⟩
    apply (h.stored_block hw hb (by rw [hwait]; exact LoaderState.noConfusion) haccept).2
    rw [hwait]
    exact LoaderState.noConfusion

/-- What a load keeps on its way: a prefix of some server's file while it goes on, the whole of it
once it is finished. -/
def Kept (files : Endpoint → List Byte) (w : Load) : Prop :=
  (∀ d ∈ w.socket.rx, IsData files d) ∧
    (w.loader.state = .sendRrq ∨ w.loader.state = .waitData → ∃ ep b, w.Progress (files ep) ep b) ∧
    (w.loader.state = .finished → ∃ ep, w.Holds (files ep) ep)

theorem kept_step {files : Endpoint → List Byte} {e : Event} (h : Kept files w)
    (hdata : e.Carries files) (hsame : w.SameServer e) : Kept files (w.step e) := by
  obtain ⟨hrx, hprogress, hholds⟩ := h
  cases e with
  | arrive d =>
    refine ⟨?_, ?_, ?_⟩
    · intro d' hd'
      rcases List.mem_append.mp hd' with hd' | hd'
      · exact hrx d' hd'
      · rw [List.mem_singleton.mp hd']
        exact hdata
    · intro hs
      obtain ⟨ep, b, hp⟩ := hprogress hs
      exact ⟨ep, b, { hp with }⟩
    · intro hs
      obtain ⟨ep, hh⟩ := hholds hs
      exact ⟨ep, { hh with }⟩
  | poll around =>
    cases hawaited : w.loader.awaited w.socket around.timeMs with
    | none =>
      have hidle := poll_idle (c := w.chip) hawaited
      have hstored : (w.step (.poll around)).stored = w.stored := by
        simp only [step, taken, hawaited, List.append_nil, ite_self]
      obtain ⟨st, dl, hl, hst⟩ := hidle.loader
      have hstate : (w.step (.poll around)).loader.state = st := congrArg BitstreamLoader.state hl
      refine ⟨fun d hd => hrx d (hidle.rx d hd), ?_, ?_⟩
      · intro hs
        rw [hstate] at hs
        have hactive : w.loader.state = .sendRrq ∨ w.loader.state = .waitData := by
          rcases hst with rfl | rfl | ⟨hsend, -⟩
          · exact hs
          · rcases hs with hs | hs <;> cases hs
          · exact Or.inl hsend
        obtain ⟨ep, b, hp⟩ := hprogress hactive
        exact ⟨ep, b, hp.idle hidle hstored⟩
      · intro hs
        rw [hstate] at hs
        subst hs
        have hdone : w.loader.state = .finished := by
          rcases hst with hst | hst | ⟨-, hst⟩
          · exact hst.symm
          · cases hst
          · cases hst
        obtain ⟨ep, hh⟩ := hholds hdone
        exact ⟨ep, hh.idle hidle hstored⟩
    | some taken =>
      obtain ⟨ep, payload⟩ := taken
      obtain ⟨hwait, data, rx, hhead, hop, hnum, rfl⟩ := awaited_some hawaited
      obtain ⟨b, hp⟩ : ∃ b, w.Progress (files ep) ep b := by
        obtain ⟨ep', b, hp⟩ := hprogress (Or.inr hwait)
        rcases Nat.eq_zero_or_pos b with rfl | hpos
        · exact ⟨0, hp.of_none _ _⟩
        · have hfirst : w.stored.head? = some (ep', .ofNat 16 1) := by
            rw [hp.stored, ← Nat.succ_pred_eq_of_pos hpos, List.range_succ_eq_map]
            rfl
          have : ep = ep' := hsame ep _ hawaited _ hfirst
          subst this
          exact ⟨b, hp⟩
      obtain ⟨k, hk, hdata⟩ := hrx (ep, data) (by rw [hhead]; exact List.mem_cons_self)
      have hdata : data = dataOf (files ep) k := hdata
      subst hdata
      have hsmall : b + 1 < 2 ^ 16 := by
        have := hp.fits
        simp only [BLOCK, APP_LEN] at this
        omega
      rw [hp.block] at hnum
      obtain ⟨hb, hpayload⟩ := payload_of_number hk hsmall hnum
      rw [hpayload] at hawaited
      have hpoll := poll_awaited (c := w.chip) hawaited
      have htaken : w.taken around = [(ep, w.loader.block)] := by
        rw [taken, hawaited]
      have hrest : ∀ d ∈ (w.step (.poll around)).socket.rx, IsData files d := by
        intro d hd
        apply hrx d
        have hd : d ∈ (w.loader.poll w.socket w.chip around).socket.rx := hd
        rw [hpoll] at hd
        exact List.mem_of_mem_tail (acceptBlock_rx hd)
      by_cases hfailed : (w.loader.poll w.socket w.chip around).loader.state = .failed
      · have hfailed : (w.step (.poll around)).loader.state = .failed := hfailed
        refine ⟨hrest, ?_, ?_⟩ <;> rw [hfailed] <;> intro hs
        · rcases hs with hs | hs <;> cases hs
        · cases hs
      · have hstored := hp.stored_block hwait hb hfailed hpoll.symm
        have hstep : w.step (.poll around) =
            ⟨(w.loader.poll w.socket w.chip around).loader, (w.loader.poll w.socket w.chip around).socket,
              (w.loader.poll w.socket w.chip around).chip,
              w.sent ++ (w.loader.poll w.socket w.chip around).sent,
              w.stored ++ [(ep, w.loader.block)]⟩ := by
          rw [step, if_neg hfailed, htaken]
        rw [← hstep] at hstored
        refine ⟨hrest, ?_, ?_⟩
        · intro hs
          refine ⟨ep, b + 1, hstored.2 ?_⟩
          intro hfin
          have hfin : (w.step (.poll around)).loader.state = .finished := hfin
          rw [hfin] at hs
          rcases hs with hs | hs <;> cases hs
        · intro hs
          exact ⟨ep, hstored.1 hs⟩

end Load

/-- A load as `start` leaves it. -/
def Load.begin (l : BitstreamLoader) (socket : UdpSocket) (c : Chip) : Load :=
  { loader := l, socket := socket, chip := c }

theorem begin_progress {l l' : BitstreamLoader} (socket : UdpSocket) {c : Chip}
    {server : BitVec 32} {filename : List Byte} (hstart : l.start c server filename = (.ok (), l'))
    (f : List Byte) (ep : Endpoint) :
    (Load.begin l' socket c).Progress f ep 0 ∧ l'.state = .sendRrq := by
  rw [start] at hstart
  split at hstart
  · cases hstart
  dsimp only at hstart
  split at hstart
  · cases hstart
  cases hstart
  refine ⟨?_, rfl⟩
  constructor <;> simp [Load.begin, SECTOR]

theorem begin_kept {files : Endpoint → List Byte} {l l' : BitstreamLoader} {socket : UdpSocket}
    {c : Chip} {server : BitVec 32} {filename : List Byte}
    (hstart : l.start c server filename = (.ok (), l'))
    (hrx : ∀ d ∈ socket.rx, IsData files d) : (Load.begin l' socket c).Kept files := by
  refine ⟨hrx, ?_, ?_⟩
  · intro _
    exact ⟨⟨0, 0⟩, 0, (begin_progress socket hstart _ _).1⟩
  · intro hs
    have hs : l'.state = .finished := hs
    rw [(begin_progress socket hstart [] ⟨0, 0⟩).2] at hs
    cases hs

/-- A load that finishes is the file of the one server it acknowledged, whatever blocks arrive in
whatever order, as long as every block it takes comes from the server of the first. -/
theorem finished_holds_file {files : Endpoint → List Byte} {l l' : BitstreamLoader}
    {socket : UdpSocket} {c : Chip} {server : BitVec 32} {filename : List Byte} {events : List Event}
    (hstart : l.start c server filename = (.ok (), l')) (hrx : ∀ d ∈ socket.rx, IsData files d)
    (hdata : ∀ e ∈ events, e.Carries files)
    (hsame : Always (fun w e w' => w' = w.step e) Load.SameServer (Load.begin l' socket c) events)
    (hdone : (events.foldl Load.step (Load.begin l' socket c)).loader.state = .finished) :
    ∃ ep, (events.foldl Load.step (Load.begin l' socket c)).Holds (files ep) ep := by
  have hcarries : Always (fun w e w' => w' = w.step e) (fun _ e => e.Carries files)
      (Load.begin l' socket c) events :=
    Always.of_mem fun e he _ => hdata e he
  have hkept := (run_foldl Load.step (Load.begin l' socket c) events).invariant
    (I := Load.Kept files) (C := fun w e => e.Carries files ∧ w.SameServer e) (by
      intro w e w' hw hc hstep
      rw [hstep]
      exact Load.kept_step hw hc.1 hc.2)
    (begin_kept hstart hrx) (hcarries.and hsame)
  exact hkept.2.2 hdone

section Splice

/-- A golden image and nothing else. -/
def goldenChip : Chip where
  mem a := if a = GOLDEN_BASE then 0xBD else if a = GOLDEN_BASE + 1 then 0xB3 else 0xFF
  issued := 0
  answers _ := Answer.good

def fetch : BitstreamLoader := { state := .sendRrq, block := 1 }

def ownFile : List Byte := [0xBD, 0xB3] ++ List.replicate 998 0

def otherFile : List Byte := List.replicate 600 1

/-- The server answers from port 1; port 2 is left over from a transfer of another file. -/
def twoServers (ep : Endpoint) : List Byte := if ep.port = 1 then ownFile else otherFile

def splice : List Event :=
  [.poll ⟨0, true, true⟩, .arrive (⟨0, 1⟩, dataOf ownFile 1), .poll ⟨0, true, true⟩,
    .arrive (⟨0, 2⟩, dataOf otherFile 2), .poll ⟨0, true, true⟩]

def spliced : List Byte := ownFile.take 512 ++ otherFile.drop 512

theorem fetch_started : fetch.start goldenChip 0 [] = (.ok (), fetch) := by
  have hw : goldenChip.regionIsWritable APP_BASE APP_LEN = .ok () :=
    regionIsWritable_app (by decide) (by decide) (by decide) (by decide) (by decide)
  rw [start, hw]
  rfl

theorem requested_progress (f : List Byte) (ep : Endpoint) :
    ((Load.begin fetch {} goldenChip).step (.poll ⟨0, true, true⟩)).Progress f ep 0 :=
  have hidle : Idle fetch goldenChip {} (fetch.poll {} goldenChip ⟨0, true, true⟩) := poll_idle rfl
  (begin_progress {} fetch_started f ep).1.idle hidle rfl

theorem splice_stored : ∃ w, splice.foldl Load.step (Load.begin fetch {} goldenChip) = w ∧
    w.loader.state = .finished ∧ w.loader.written = 600 ∧ w.chip.readByte 0 = 0xBD := by
  let ep : Endpoint := ⟨0, 1⟩
  have hsync : hasSync (blockOf spliced 1) = true := by decide +kernel
  have hfirst : dataOf ownFile 1 = dataOf spliced 1 := by decide +kernel
  have hsecond : dataOf otherFile 2 = dataOf spliced 2 := by decide +kernel
  have hlen : spliced.length = 600 := by decide +kernel
  have hgolden : goldenChip.goldenPresent = true := by decide
  let w₁ := (Load.begin fetch {} goldenChip).step (.poll ⟨0, true, true⟩)
  let w₂ := w₁.step (.arrive (ep, dataOf ownFile 1))
  have hp₂ : w₂.Progress spliced ep 0 := { requested_progress spliced ep with }
  obtain ⟨p, hpoll, hh, hg, hsocket, -, hmore, -⟩ := hp₂.polled ⟨0, true, true⟩ 1 []
    rfl (by decide) (by rw [← hfirst]; rfl) (Or.inl rfl) (by simp) (by rw [hlen]; decide)
    hsync (fun _ => rfl) hgolden
  obtain ⟨hp₃, hwait, hdeadline⟩ := hmore (by rw [hlen]; decide)
  have hstep₃ : w₂.step (.poll ⟨0, true, true⟩) = w₂.polled p ep := by
    have htaken : w₂.taken ⟨0, true, true⟩ = [(ep, w₂.loader.block)] := by
      rw [Load.taken, @awaited_data w₂.loader w₂.socket ep spliced 1 [] 0 rfl (by decide)
        (by rw [← hfirst]; rfl) (by decide) rfl]
    rw [Load.step, hpoll, hwait, if_neg (by decide), htaken]
    rfl
  let w₄ := (w₂.polled p ep).step (.arrive (⟨0, 2⟩, dataOf otherFile 2))
  have hp₄ : w₄.Progress spliced ep 1 := { hp₃ with }
  obtain ⟨p', hpoll', -, -, -, -, -, hlast⟩ := hp₄.polled ⟨0, true, true⟩ 2 []
    hwait (by rw [show w₄.loader.deadlineMs = _ from hdeadline]; decide)
    (by rw [← hsecond]; change p.socket.rx ++ _ = _; rw [hsocket]; rfl)
    (Or.inr (by rw [hp₄.tid]; decide)) (by rw [hlen]; decide) (by rw [hlen]; decide) hsync hh hg
  obtain ⟨hholds, hfinished⟩ := hlast (by rw [hlen]; decide)
  refine ⟨w₄.step (.poll ⟨0, true, true⟩), ?_, ?_, ?_, ?_⟩
  · rw [splice, List.foldl_cons, List.foldl_cons, List.foldl_cons, hstep₃]
    rfl
  · rw [Load.step, hpoll', hfinished]
  · rw [Load.step, hpoll']
    exact hholds.written.trans hlen
  · rw [Load.step, hpoll']
    exact (hholds.image 0 (by rw [hlen]; decide)).trans (by decide +kernel)

def shortFile : List Byte := [0xBD, 0xB3]

def shortLoad : List Event :=
  [.poll ⟨0, true, true⟩, .arrive (⟨0, 1⟩, dataOf shortFile 1), .poll ⟨0, true, true⟩]

theorem shortLoad_finished :
    (shortLoad.foldl Load.step (Load.begin fetch {} goldenChip)).loader.state = .finished := by
  obtain ⟨w, hw⟩ : ∃ w, w = ((Load.begin fetch {} goldenChip).step (.poll ⟨0, true, true⟩)).step
    (.arrive (⟨0, 1⟩, dataOf shortFile 1)) := ⟨_, rfl⟩
  have hp : w.Progress shortFile ⟨0, 1⟩ 0 := by
    rw [hw]
    exact { requested_progress shortFile ⟨0, 1⟩ with }
  obtain ⟨p, hpoll, -, -, -, -, -, hlast⟩ := hp.polled ⟨0, true, true⟩ 1 [] (by rw [hw]; rfl)
    (by rw [hw]; decide) (by rw [hw]; rfl) (Or.inl rfl) (by simp) (by decide) (by decide)
    (by rw [hw]; exact fun _ => rfl) (by rw [hw]; decide)
  rw [shortLoad, List.foldl_cons, List.foldl_cons, List.foldl_cons, List.foldl_nil, ← hw, Load.step,
    hpoll]
  exact (hlast (by decide)).2

theorem shortLoad_holds :
    ∃ ep, (shortLoad.foldl Load.step (Load.begin fetch {} goldenChip)).Holds shortFile ep := by
  refine finished_holds_file fetch_started (by simp) ?_ ?_
    shortLoad_finished
  · intro e he
    simp only [shortLoad, List.mem_cons, List.not_mem_nil, or_false] at he
    rcases he with rfl | rfl | rfl
    · trivial
    · exact ⟨1, ⟨by decide, by decide, by decide⟩, rfl⟩
    · trivial
  · refine ⟨?_, ?_⟩
    · intro ep payload hawaited
      cases hawaited
    rintro _ rfl
    refine ⟨trivial, ?_⟩
    rintro _ rfl
    refine ⟨?_, fun _ _ => trivial⟩
    intro ep payload _ first hfirst
    cases hfirst

/-- A load that finished need not be any server's file: a block of another transfer, from another
port, is stored as if it were its own. -/
theorem leftover_spliced : ¬ ∀ (files : Endpoint → List Byte) (l l' : BitstreamLoader)
    (socket : UdpSocket) (c : Chip) (server : BitVec 32) (filename : List Byte)
    (events : List Event), l.start c server filename = (.ok (), l') →
    (∀ d ∈ socket.rx, IsData files d) → (∀ e ∈ events, e.Carries files) →
    (events.foldl Load.step (Load.begin l' socket c)).loader.state = .finished →
    ∃ ep, (events.foldl Load.step (Load.begin l' socket c)).Holds (files ep) ep := by
  intro hclaim
  obtain ⟨w, hw, hdone, hwritten, hbyte⟩ := splice_stored
  have hdata : ∀ e ∈ splice, e.Carries twoServers := by
    have hown : IsData twoServers (⟨0, 1⟩, dataOf ownFile 1) := ⟨1, ⟨by decide, by decide, by decide +kernel⟩, rfl⟩
    have hother : IsData twoServers (⟨0, 2⟩, dataOf otherFile 2) := ⟨2, ⟨by decide, by decide, by decide +kernel⟩, rfl⟩
    intro e he
    simp only [splice, List.mem_cons, List.not_mem_nil, or_false] at he
    rcases he with rfl | rfl | rfl | rfl | rfl
    · trivial
    · exact hown
    · trivial
    · exact hother
    · trivial
  obtain ⟨ep, hholds⟩ := hclaim twoServers fetch fetch {} goldenChip 0 [] splice fetch_started
    (by simp) hdata (by rw [hw]; exact hdone)
  rw [hw] at hholds
  have hlen := hholds.written
  have himage := hholds.image 0
  rw [hwritten] at hlen
  rw [twoServers] at hlen himage
  split at hlen
  · have : ownFile.length = 1000 := by decide +kernel
    omega
  · next hport =>
    rw [if_neg hport] at himage
    have := himage (by decide +kernel)
    rw [APP_BASE, hbyte] at this
    exact absurd this (by decide +kernel)

end Splice

end Ledwall.Flash
