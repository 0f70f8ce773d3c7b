import Ledwall.Flash.WriteGuard
import Mathlib.Data.List.GetD

/-! What a sector holds once the loader has written it, and that a healthy part takes it. -/

namespace Ledwall.Flash

open Ledwall.Wire Ledwall.Library.Effects

variable {c c' : Chip} {addr : ℕ}

theorem command_ok {f : (ℕ → Byte) → ℕ → Byte} (h : command f c = .ok () c') :
    c'.mem = f c.mem ∨ c'.mem = c.mem := by
  rw [command] at h
  dsimp only at h
  split at h
  · cases h
  · split at h <;> split at h <;> cases h
    · exact Or.inl rfl
    · exact Or.inr rfl

theorem checkedCommand_ok {f : (ℕ → Byte) → ℕ → Byte} {len : ℕ}
    (h : checkedCommand addr len f c = .ok () c') :
    c.regionIsWritable addr len = .ok () ∧ (c'.mem = f c.mem ∨ c'.mem = c.mem) := by
  rw [checkedCommand] at h
  cases hw : c.regionIsWritable addr len with
  | error e =>
    rw [hw] at h
    cases h
  | ok u =>
    rw [hw] at h
    exact ⟨rfl, command_ok h⟩

theorem sectorErase_apply (hw : c.regionIsWritable addr SECTOR = .ok ()) (mem : ℕ → Byte) (a : ℕ) :
    Chip.sectorErase addr mem a = if addr ≤ a ∧ a < addr + SECTOR then 0xFF else mem a := by
  have haddr : Chip.address addr = addr :=
    address_of_writable hw (Nat.le_refl addr) (Nat.lt_add_of_pos_right (by decide))
  have halign := (regionIsWritable_ok hw).1
  rw [Chip.sectorErase, haddr, Nat.div_mul_cancel (Nat.dvd_of_mod_eq_zero halign)]

theorem pageProgram_apply {data : List Byte} (hw : c.regionIsWritable (addr / SECTOR * SECTOR) SECTOR = .ok ())
    (hfit : addr % PAGE + data.length ≤ PAGE) (mem : ℕ → Byte) (a : ℕ) :
    Chip.pageProgram addr data mem a =
      if addr ≤ a ∧ a < addr + data.length then mem a &&& data.getD (a - addr) 0xFF else mem a := by
  have hlt : addr < addr / SECTOR * SECTOR + SECTOR := by
    rw [SECTOR]
    omega
  have haddr : Chip.address addr = addr :=
    address_of_writable hw (Nat.div_mul_le_self addr SECTOR) hlt
  simp only [Chip.pageProgram, haddr, PAGE] at hfit ⊢
  by_cases hin : addr ≤ a ∧ a < addr + data.length
  · have hi : (a - addr / 256 * 256 + 256 - addr % 256) % 256 = a - addr := by omega
    rw [if_pos hin, hi, if_pos (by omega)]
  · rw [if_neg hin, if_neg]
    intro h
    apply hin
    omega

/-- An erase that reports success has blanked its sector and touched nothing else. -/
theorem eraseSector_ok (h : eraseSector addr c = .ok () c') (a : ℕ) :
    c'.mem a = if addr ≤ a ∧ a < addr + SECTOR then 0xFF else c.mem a := by
  rw [eraseSector] at h
  obtain ⟨⟨⟩, t, ht, hrest⟩ := bind_ok h
  obtain ⟨hw, hmem⟩ := checkedCommand_ok ht
  obtain ⟨t', u, hget, hblank⟩ := bind_ok hrest
  cases hget
  split at hblank
  · cases hblank
  · next hb =>
    cases hblank
    rw [Bool.not_eq_true', Bool.not_eq_false] at hb
    rw [Chip.regionIsBlank, List.all_eq_true] at hb
    split
    · next hin =>
      have := hb (a - addr) (List.mem_range.mpr (by omega))
      rw [beq_iff_eq, Chip.readByte, Nat.add_sub_cancel' hin.1] at this
      exact this
    · next hout =>
      rcases hmem with hmem | hmem
      · rw [hmem, sectorErase_apply hw, if_neg hout]
      · rw [hmem]

/-- A program that reports success has cleared bits of its own bytes only. -/
theorem programPage_ok {data : List Byte} (h : programPage addr data c = .ok () c') (a : ℕ) :
    c'.mem a = c.mem a ∨
      (addr ≤ a ∧ a < addr + data.length) ∧ c'.mem a = c.mem a &&& data.getD (a - addr) 0xFF := by
  rw [programPage] at h
  split at h
  · cases h
    exact Or.inl rfl
  split at h
  · cases h
  next hfit =>
  obtain ⟨⟨⟩, t, ht, hrest⟩ := bind_ok h
  obtain ⟨hw, hmem⟩ := checkedCommand_ok ht
  obtain ⟨t', u, hget, hread⟩ := bind_ok hrest
  cases hget
  split at hread
  · cases hread
  · cases hread
    rcases hmem with hmem | hmem
    · rw [hmem, pageProgram_apply hw (by omega)]
      split
      · next hin => exact Or.inr ⟨hin, rfl⟩
      · exact Or.inl rfl
    · exact Or.inl (congrFun hmem a)

namespace BitstreamLoader

variable {l : BitstreamLoader}

theorem padded_length (hs : l.stage.length ≤ SECTOR) : l.padded.length = SECTOR := by
  rw [padded, List.length_append, List.length_replicate]
  omega

theorem padded_getD {i : ℕ} (hi : l.stage.length ≤ i) : l.padded.getD i 0xFF = 0xFF := by
  rw [padded, List.getD_append_right _ _ _ _ hi]
  rcases Nat.lt_or_ge (i - l.stage.length) (SECTOR - l.stage.length) with h | h
  · exact List.getD_replicate _ h
  · apply List.getD_eq_default
    rwa [List.length_replicate]

theorem padded_getD_stage {i : ℕ} (hi : i < l.stage.length) :
    l.padded.getD i 0xFF = l.stage.getD i 0 := by
  rw [padded, List.getD_append _ _ _ _ hi, List.getD_eq_getElem _ _ hi,
    List.getD_eq_getElem _ _ hi]

/-- The bytes of one page of the padded sector. -/
theorem page_getD (hs : l.stage.length ≤ SECTOR) {k i : ℕ} (hk : k < SECTOR / PAGE) (hi : i < PAGE) :
    ((l.padded.drop (k * PAGE)).take PAGE).length = PAGE ∧
      ((l.padded.drop (k * PAGE)).take PAGE).getD i 0xFF = l.padded.getD (k * PAGE + i) 0xFF := by
  have hlen := padded_length hs
  have hpages : SECTOR = SECTOR / PAGE * PAGE := rfl
  constructor
  · rw [List.length_take, List.length_drop, hlen]
    have : (k + 1) * PAGE ≤ SECTOR := by
      rw [hpages]
      exact Nat.mul_le_mul_right PAGE hk
    rw [Nat.add_mul] at this
    omega
  · rw [List.getD_eq_getElem?_getD, List.getElem?_take_of_lt hi, List.getElem?_drop,
      ← List.getD_eq_getElem?_getD]

theorem wrap32_page {addr k : ℕ} (hw : c.regionIsWritable addr SECTOR = .ok ())
    (hk : k ≤ SECTOR) : wrap32 (addr + k) = addr + k := by
  obtain ⟨-, -, -, hr⟩ := regionIsWritable_ok hw
  rw [wrap32, Nat.mod_eq_of_lt]
  rw [SECTOR] at *
  simp only [APP_BASE, APP_LEN, SCRATCH_BASE, SCRATCH_LEN] at hr
  omega

/-- A sector written with success holds the staged bytes and the padding. -/
theorem writeSector_ok (h : l.writeSector c = .ok () c') (hs : l.stage.length ≤ SECTOR) (a : ℕ) :
    c'.mem a = if l.sectorAddr ≤ a ∧ a < l.sectorAddr + SECTOR then
      l.padded.getD (a - l.sectorAddr) 0xFF else c.mem a := by
  rw [writeSector] at h
  obtain ⟨⟨⟩, c₁, herase, hrest⟩ := bind_ok h
  obtain ⟨⟨⟩, c₂, hloop, hrest⟩ := bind_ok hrest
  obtain ⟨c₃, c₄, hget, hcompare⟩ := bind_ok hrest
  cases hget
  have hw : c.regionIsWritable l.sectorAddr SECTOR = .ok () := by
    rw [eraseSector] at herase
    obtain ⟨⟨⟩, t, ht, -⟩ := bind_ok herase
    exact (checkedCommand_ok ht).1
  let I (_ : ℕ) (s : Chip) : Prop := ∀ a,
    if l.sectorAddr ≤ a ∧ a < l.sectorAddr + SECTOR then
      s.mem a = 0xFF ∨ s.mem a = l.padded.getD (a - l.sectorAddr) 0xFF
    else s.mem a = c.mem a
  have hI : I 16 c₂ := by
    refine forM_ok (I := I) hloop ?_ ?_
    · intro a
      have ha := eraseSector_ok herase a
      split
      · next hin => exact Or.inl (by rw [ha, if_pos hin])
      · next hout => rw [ha, if_neg hout]
    · intro k hk s s' hs₀ hprog a
      rw [List.length_range] at hk
      rw [List.getElem_range] at hprog
      have hstart : k * PAGE + PAGE ≤ SECTOR := by
        simp only [SECTOR, PAGE] at hk ⊢
        omega
      rw [wrap32_page hw (by omega)] at hprog
      have ha := hs₀ a
      rcases programPage_ok hprog a with hsame | ⟨⟨hlo, hhi⟩, hand⟩
      · simp only [hsame]
        exact ha
      · have hchunk := page_getD (i := a - (l.sectorAddr + k * PAGE)) hs hk (by
          have := (page_getD (i := 0) hs hk (by decide)).1
          omega)
        rw [hchunk.1] at hhi
        have hin : l.sectorAddr ≤ a ∧ a < l.sectorAddr + SECTOR := by omega
        rw [if_pos hin] at ha ⊢
        rw [hand, hchunk.2, show k * PAGE + (a - (l.sectorAddr + k * PAGE)) = a - l.sectorAddr by
          omega]
        rcases ha with ha | ha
        · right
          rw [ha]
          exact BitVec.allOnes_and
        · right
          rw [ha, BitVec.and_self]
  split at hcompare
  · cases hcompare
  · next hall =>
    cases hcompare
    rw [Bool.not_eq_true', Bool.not_eq_false, List.all_eq_true] at hall
    have ha := hI a
    split
    · next hin =>
      rw [if_pos hin] at ha
      rcases Nat.lt_or_ge (a - l.sectorAddr) l.stage.length with hlt | hge
      · have heq := hall (a - l.sectorAddr) (List.mem_range.mpr hlt)
        rw [beq_iff_eq, Chip.readByte, wrap32_page hw (by omega),
          Nat.add_sub_cancel' hin.1] at heq
        rw [padded_getD_stage hlt]
        exact heq
      · rw [padded_getD hge] at ha ⊢
        simpa using ha
    · next hout =>
      rw [if_neg hout] at ha
      exact ha

end BitstreamLoader

end Ledwall.Flash
