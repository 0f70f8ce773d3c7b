import Ledwall.Panels.Sprites
import Ledwall.Values.PushRoundTrip

/-! The lookup of a face of one advance against the walk over the run. -/

namespace Ledwall.Panels

open Ledwall.Values Ledwall.Wire

namespace Font

variable (font : Font) (s : Str)

/-- `cover_at` without its branch for one advance. -/
def walkAt (x y ox oy : ℕ) : Option ℕ :=
  if y < oy ∨ oy + font.lineHeight ≤ y then none
  else if x < ox then none
  else font.walk ((x : ℤ) - ox) ((y : ℤ) - oy) 0 s

/-- Where the walk's pen ends. -/
def penEnd (pen : ℕ) : Str → ℕ
  | [] => pen
  | ch :: s =>
    match font.glyph ch with
    | none => penEnd pen s
    | some g => penEnd (pen + g.advance) s

/-- Each character the font has goes as far as the font says. -/
structure OneAdvance : Prop where
  pos : 0 < font.fixedAdvance
  same : ∀ ch g, font.glyph ch = some g → g.advance = font.fixedAdvance

/-- The glyphs of the characters the font has. -/
def present : List Glyph := s.filterMap font.glyph

def Contained : Prop :=
  ∀ g ∈ font.present s, ∀ i < g.sprite.w, ∀ j < g.sprite.h, g.sprite.cover i j ≠ some 0 →
    0 ≤ g.xoff + i ∧ g.xoff + i < font.fixedAdvance

/-- The k-th byte inks its cell as the k-th character the font has does. -/
def Aligned : Prop :=
  ∀ k : ℕ, ∀ off < font.fixedAdvance, ∀ dy < font.lineHeight,
    (((utf8 s)[k]?.bind font.byteGlyph).bind fun g => font.inkGlyph g 0 (off : ℕ) (dy : ℕ)) =
      (font.present s)[k]?.bind fun g => font.inkGlyph g 0 (off : ℕ) (dy : ℕ)

instance : Decidable (font.Contained s) :=
  inferInstanceAs (Decidable (∀ g ∈ font.present s, ∀ i < g.sprite.w, ∀ j < g.sprite.h,
    g.sprite.cover i j ≠ some 0 → 0 ≤ g.xoff + i ∧ g.xoff + i < font.fixedAdvance))

structure Agrees : Prop where
  cover : ∀ x y ox oy, font.coverAt s x y ox oy = font.walkAt s x y ox oy
  width : font.width s = font.penEnd 0 s

variable {font} {s}

lemma penEnd_eq (pen : ℕ) (s : Str) : font.penEnd pen s = pen + font.width s := by
  induction s generalizing pen with
  | nil => rfl
  | cons ch s ih =>
    rw [penEnd, width, List.map_cons, List.sum_cons]
    cases font.glyph ch with
    | none => simpa [width] using ih pen
    | some g => simpa [width, Nat.add_assoc] using ih (pen + g.advance)

lemma penned_eq_slotted (hone : font.OneAdvance) (k : ℕ) (s : Str) :
    font.penned (k * font.fixedAdvance) s = font.slotted k ((font.present s).map some) := by
  induction s generalizing k with
  | nil => rfl
  | cons ch s ih =>
    rw [penned, present, List.filterMap_cons]
    cases hg : font.glyph ch with
    | none => exact ih k
    | some g =>
      have hnext := ih (k + 1)
      rw [Nat.add_one_mul] at hnext
      have hadv := hone.same ch g hg
      exact congrArg ((g, k * font.fixedAdvance) :: ·) (hadv ▸ hnext)

lemma penned_present {pen : ℕ} {gp : Glyph × ℕ} (h : gp ∈ font.penned pen s) :
    gp.1 ∈ font.present s := by
  induction s generalizing pen with
  | nil => cases h
  | cons ch s ih =>
    rw [penned] at h
    rw [present, List.filterMap_cons]
    cases hg : font.glyph ch with
    | none =>
      rw [hg] at h
      exact ih h
    | some g =>
      rw [hg] at h
      rcases List.mem_cons.mp h with rfl | h
      · exact List.mem_cons_self
      · exact List.mem_cons_of_mem _ (ih h)

lemma walk_contained (hone : font.OneAdvance) (h : font.Contained s) (dx : ℕ) (dy : ℤ) :
    font.walk dx dy 0 s = (font.present s)[dx / font.fixedAdvance]?.bind fun g =>
      font.inkGlyph g 0 ((dx % font.fixedAdvance : ℕ) : ℤ) dy := by
  have hown : ∀ gp ∈ font.penned 0 s, ∀ c, font.inkGlyph gp.1 gp.2 dx dy = some c →
      (gp.2 : ℤ) ≤ (dx : ℤ) ∧ dx < gp.2 + font.fixedAdvance := by
    intro gp hgp c hc
    obtain ⟨i, hi, j, hj, hdx, -, hcover⟩ := Sprite.ink_bounds hc
    obtain ⟨hleft, hright⟩ := h gp.1 (penned_present hgp) i hi j hj hcover
    omega
  have hwalk := walk_eq fun gp hgp c hc => (hown gp hgp c hc).1.trans (by omega)
  have hslots := penned_eq_slotted hone 0 s
  rw [Nat.zero_mul] at hslots
  rw [hslots] at hown hwalk
  rw [Nat.cast_zero, slotted_eq hone.pos (Nat.zero_le _) hown, Nat.sub_zero, List.getElem?_map]
    at hwalk
  rw [hwalk]
  cases (font.present s)[dx / font.fixedAdvance]? <;> rfl

/-- The lookup by bytes is the walk over a run whose glyphs keep to their cells, where the bytes
stand for its glyphs one for one; and of such a run, only there. -/
theorem agrees_of_aligned (font : Font) (s : Str) (hone : font.OneAdvance) :
    (font.Contained s ∧ font.Aligned s → font.Agrees s) ∧
      (font.Contained s → font.Agrees s → font.Aligned s) := by
  constructor
  · rintro ⟨hcontained, h⟩
    refine ⟨?_, by rw [penEnd_eq, Nat.zero_add]⟩
    intro x y ox oy
    by_cases hband : oy ≤ y ∧ y < oy + font.lineHeight
    · by_cases hleft : ox ≤ x
      · have hdx : (x : ℤ) - ox = ((x - ox : ℕ) : ℤ) := by omega
        have hdy : (y : ℤ) - oy = ((y - oy : ℕ) : ℤ) := by omega
        rw [coverAt_fixed hone.pos hband hleft, walkAt, if_neg (by omega), if_neg (by omega), hdx,
          walk_contained hone hcontained, hdy]
        exact h _ _ (Nat.mod_lt _ hone.pos) _ (by omega)
      · have hin : ¬ (y < oy ∨ oy + font.lineHeight ≤ y) := by omega
        have hout : x < ox := by omega
        rw [coverAt, walkAt, if_neg hin, if_pos hout, if_neg hin, if_pos hout]
    · rw [coverAt, walkAt, if_pos (by omega), if_pos (by omega)]
  · intro hcontained h k off hoff dy hdy
    have hcover := h.cover (k * font.fixedAdvance + off) dy 0 0
    have hdiv : (k * font.fixedAdvance + off) / font.fixedAdvance = k := by
      rw [Nat.mul_comm, Nat.mul_add_div hone.pos, Nat.div_eq_of_lt hoff, Nat.add_zero]
    have hmod : (k * font.fixedAdvance + off) % font.fixedAdvance = off := by
      rw [Nat.mul_add_mod_self_right, Nat.mod_eq_of_lt hoff]
    rw [coverAt_fixed hone.pos (by omega) (Nat.zero_le _), walkAt, if_neg (by omega),
      if_neg (by omega), Nat.cast_zero, sub_zero, sub_zero, walk_contained hone hcontained,
      Nat.sub_zero, hdiv, hmod] at hcover
    exact hcover

lemma glyph_mem {ch : Char} {g : Glyph} (h : font.glyph ch = some g) : g ∈ font.glyphs := by
  simp only [glyph] at h
  split at h
  · split at h
    · exact List.mem_of_getElem? h
    · cases h
  · exact List.mem_of_find?_eq_some h

lemma aligned_of_printable (hprint : ∀ c ∈ s, Printable c) (hhas : ∀ c ∈ s, font.glyph c ≠ none) :
    font.Aligned s := by
  have hbytes : ∀ k : ℕ, (utf8 s)[k]?.bind font.byteGlyph = (font.present s)[k]? := by
    rw [utf8_printable hprint]
    induction s with
    | nil => exact fun _ => rfl
    | cons c s ih =>
      have hc : font.byteGlyph (toByte c) = font.glyph c := by
        rw [byteGlyph, toByte_toNat (hprint c List.mem_cons_self), Char.ofNat_toNat]
      obtain ⟨g, hg⟩ := Option.ne_none_iff_exists'.mp (hhas c List.mem_cons_self)
      intro k
      rw [present, List.filterMap_cons_some hg, List.map_cons]
      cases k with
      | zero => exact hc.trans hg
      | succ k =>
        exact ih (fun d hd => hprint d (List.mem_cons_of_mem c hd))
          (fun d hd => hhas d (List.mem_cons_of_mem c hd)) k
  intro k off hoff dy hdy
  rw [hbytes]

/-- A face of two dots, for "A" and for the degree sign. -/
def dots : Font where
  glyphs := [⟨'A', .dot, 0, 0, 1⟩, ⟨'°', .dot, 0, 0, 1⟩]
  ascent := 0
  lineHeight := 1
  fixedAdvance := 1
  advShift := 0
  ascii := (List.replicate 96 255).set 33 0
  table := by decide
  shift := by decide

lemma dots_oneAdvance : dots.OneAdvance := by
  refine ⟨by decide, ?_⟩
  intro ch g hg
  have hmem := glyph_mem hg
  fin_cases hmem <;> rfl

theorem dots_agrees : dots.Agrees ['A'] :=
  (agrees_of_aligned dots ['A'] dots_oneAdvance).1
    ⟨by decide +kernel, aligned_of_printable (by decide) (by decide +kernel)⟩

/-- The degree sign is two bytes: the lookup puts it in the second cell, the walk in the first. -/
theorem degree_disagrees : dots.OneAdvance ∧ ¬ dots.Agrees ['°'] := by
  refine ⟨dots_oneAdvance, ?_⟩
  intro h
  have hcover := h.cover 0 0 0 0
  revert hcover
  decide +kernel

end Font

end Ledwall.Panels
