import Ledwall.Flash.SectorWrites

/-! A part that answers every command well takes every write the guard lets through. -/

namespace Ledwall.Flash

open Ledwall.Wire Ledwall.Library.Effects

def Chip.Healthy (c : Chip) : Prop := ∀ n, c.answers n = Answer.good

variable {c : Chip} {addr : ℕ}

theorem regionIsWritable_app (hg : c.goldenPresent = true) {len : ℕ} (ha : addr % SECTOR = 0)
    (hl : len % SECTOR = 0) (hpos : 0 < len) (hin : addr + len ≤ APP_LEN) :
    c.regionIsWritable addr len = .ok () := by
  simp only [APP_LEN] at hin
  have hmin : min (addr + len) (2 ^ 32 - 1) = addr + len := by omega
  simp only [Chip.regionIsWritable, hmin, FLASH_SIZE, GOLDEN_BASE, GOLDEN_LEN, MARGINAL_BASE,
    MARGINAL_LEN, APP_BASE, APP_LEN, SCRATCH_BASE, SCRATCH_LEN, hg]
  rw [if_neg (by omega), if_neg (by omega), if_neg (by omega), if_neg (by omega),
    if_pos (by omega)]
  rfl

theorem Guarded.writable {c' : Chip} (h : Guarded c c') (addr len : ℕ) :
    c'.regionIsWritable addr len = c.regionIsWritable addr len := by
  simp only [Chip.regionIsWritable, h.goldenPresent]

theorem checkedCommand_healthy {f : (ℕ → Byte) → ℕ → Byte} {len : ℕ} (h : c.Healthy)
    (hw : c.regionIsWritable addr len = .ok ()) :
    ∃ c', checkedCommand addr len f c = .ok () c' ∧ c'.Healthy ∧ c'.mem = f c.mem := by
  refine ⟨{ c with issued := c.issued + 1, mem := f c.mem }, ?_, h, rfl⟩
  simp only [checkedCommand, hw, command, h c.issued, Answer.good]
  rfl

theorem eraseSector_healthy (h : c.Healthy) (hw : c.regionIsWritable addr SECTOR = .ok ()) :
    ∃ c', eraseSector addr c = .ok () c' ∧ c'.Healthy ∧
      ∀ a, c'.mem a = if addr ≤ a ∧ a < addr + SECTOR then 0xFF else c.mem a := by
  obtain ⟨c', hc', hh, hmem⟩ := checkedCommand_healthy (f := Chip.sectorErase addr) h hw
  have ha (a : ℕ) : c'.mem a = if addr ≤ a ∧ a < addr + SECTOR then 0xFF else c.mem a := by
    rw [hmem, sectorErase_apply hw]
  refine ⟨c', ?_, hh, ha⟩
  have hblank : c'.regionIsBlank addr SECTOR = true := by
    rw [Chip.regionIsBlank, List.all_eq_true]
    intro i hi
    have hi := List.mem_range.mp hi
    rw [beq_iff_eq, Chip.readByte, ha, if_pos (by omega)]
  rw [eraseSector]
  refine (bind_of_ok hc').trans ((get_bind _ c').trans ?_)
  rw [hblank]
  rfl

theorem programPage_healthy (addr : ℕ) (data : List Byte) (h : c.Healthy)
    (hw : c.regionIsWritable (addr / SECTOR * SECTOR) SECTOR = .ok ())
    (hfit : addr % PAGE + data.length ≤ PAGE)
    (hblank : ∀ a, addr ≤ a → a < addr + data.length → c.mem a = 0xFF) :
    ∃ c', programPage addr data c = .ok () c' ∧ c'.Healthy ∧
      ∀ a, c'.mem a =
        if addr ≤ a ∧ a < addr + data.length then data.getD (a - addr) 0xFF else c.mem a := by
  rcases data with _ | ⟨b, data⟩
  · refine ⟨c, rfl, h, ?_⟩
    intro a
    rw [if_neg]
    simp only [List.length_nil]
    omega
  obtain ⟨c', hc', hh, hmem⟩ := checkedCommand_healthy (f := Chip.pageProgram addr (b :: data)) h hw
  have ha (a : ℕ) : c'.mem a = if addr ≤ a ∧ a < addr + (b :: data).length then
      (b :: data).getD (a - addr) 0xFF else c.mem a := by
    rw [hmem, pageProgram_apply hw hfit]
    split
    · next hin =>
      rw [hblank a hin.1 hin.2]
      exact BitVec.allOnes_and
    · rfl
  refine ⟨c', ?_, hh, ha⟩
  have hread : c'.readByte addr = b := by
    rw [Chip.readByte, ha, if_pos ⟨Nat.le_refl addr, by rw [List.length_cons]; omega⟩, Nat.sub_self]
    rfl
  rw [programPage, if_neg (by simp), if_neg (by omega)]
  refine (bind_of_ok hc').trans ((get_bind _ c').trans ?_)
  rw [hread, if_neg]
  · rfl
  · rintro ⟨-, hne⟩
    exact hne rfl

namespace BitstreamLoader

variable {l : BitstreamLoader}

theorem writeSector_healthy (h : c.Healthy) (hw : c.regionIsWritable l.sectorAddr SECTOR = .ok ())
    (hs : l.stage.length ≤ SECTOR) : ∃ c', l.writeSector c = .ok () c' ∧ c'.Healthy := by
  obtain ⟨c₁, hc₁, hh₁, hmem₁⟩ := eraseSector_healthy h hw
  have hw₁ : c₁.regionIsWritable l.sectorAddr SECTOR = .ok () := by
    have hmoves := eraseSector_moves l.sectorAddr c
    rw [hc₁] at hmoves
    exact (Guarded.writable hmoves _ _).trans hw
  have halign := (regionIsWritable_ok hw).1
  -- the pages below the cursor hold the image, those above are blank
  let I (k : ℕ) (s : Chip) : Prop := s.Healthy ∧ Guarded c₁ s ∧ ∀ i, i < SECTOR →
    s.mem (l.sectorAddr + i) = if i < k * PAGE then l.padded.getD i 0xFF else 0xFF
  have hturn (k : ℕ) (hk : k < SECTOR / PAGE) (s : Chip) (hI : I k s) :
      ∃ s', programPage (wrap32 (l.sectorAddr + k * PAGE)) ((l.padded.drop (k * PAGE)).take PAGE) s =
        .ok ⟨⟩ s' ∧ I (k + 1) s' := by
    obtain ⟨hh, hg, hmem⟩ := hI
    have hstart : k * PAGE + PAGE ≤ SECTOR := by
      simp only [SECTOR, PAGE] at hk ⊢
      omega
    have hpage (i : ℕ) (hi : i < PAGE) := page_getD hs hk hi
    have hlen := (hpage 0 (by decide)).1
    have haddr : (l.sectorAddr + k * PAGE) / SECTOR * SECTOR = l.sectorAddr ∧
        (l.sectorAddr + k * PAGE) % PAGE = 0 := by
      simp only [SECTOR, PAGE] at halign hstart ⊢
      omega
    rw [wrap32_page hw (by omega)]
    obtain ⟨s', hs', hh', hmem'⟩ := programPage_healthy (l.sectorAddr + k * PAGE)
      ((l.padded.drop (k * PAGE)).take PAGE) hh (by rw [haddr.1, hg.writable, hw₁])
      (by rw [hlen, haddr.2, Nat.zero_add]) (by
        intro a hlo hhi
        rw [hlen] at hhi
        have := hmem (a - l.sectorAddr) (by omega)
        rw [Nat.add_sub_cancel' (by omega), if_neg (by omega)] at this
        exact this)
    refine ⟨s', hs', hh', ?_, ?_⟩
    · have hmoves := programPage_moves (l.sectorAddr + k * PAGE) ((l.padded.drop (k * PAGE)).take PAGE) s
      rw [hs'] at hmoves
      exact hg.trans hmoves
    · intro i hi
      rw [hmem', hlen, Nat.add_mul, Nat.one_mul]
      by_cases hin : k * PAGE ≤ i ∧ i < k * PAGE + PAGE
      · rw [if_pos (by omega), if_pos (by omega),
          show l.sectorAddr + i - (l.sectorAddr + k * PAGE) = i - k * PAGE by omega,
          (hpage (i - k * PAGE) (by omega)).2, Nat.add_sub_cancel' hin.1]
      · rw [if_neg (by omega), hmem i hi]
        by_cases hlt : i < k * PAGE
        · rw [if_pos hlt, if_pos (by omega)]
        · rw [if_neg hlt, if_neg (by omega)]
  have h₀ : I 0 c₁ := by
    refine ⟨hh₁, Guarded.refl c₁, ?_⟩
    intro i hi
    rw [hmem₁, if_pos (by omega), if_neg (by omega)]
  obtain ⟨c₂, hc₂, hI⟩ := forM_succeeds (I := I) h₀ (by
    intro k hk s hI
    rw [List.length_range] at hk
    rw [List.getElem_range]
    exact hturn k hk s hI)
  obtain ⟨hh₂, -, hmem₂⟩ := hI
  refine ⟨c₂, ?_, hh₂⟩
  have hall : ((List.range l.stage.length).all fun i =>
      c₂.readByte (wrap32 (l.sectorAddr + i)) == l.stage.getD i 0) = true := by
    rw [List.all_eq_true]
    intro i hi
    have hi := List.mem_range.mp hi
    have hlast : i < SECTOR / PAGE * PAGE := Nat.lt_of_lt_of_le hi hs
    rw [beq_iff_eq, wrap32_page hw (by omega), Chip.readByte, hmem₂ i (by omega),
      List.length_range, if_pos hlast, padded_getD_stage hi]
  rw [writeSector]
  refine (bind_of_ok hc₁).trans ((bind_of_ok hc₂).trans ((get_bind _ c₂).trans ?_))
  rw [hall]
  rfl

end BitstreamLoader

end Ledwall.Flash
