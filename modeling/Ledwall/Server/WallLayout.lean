import Ledwall.Library.Tilings

/-! The geometry of a wall: its cards' boxes, and what the layout report finds wrong with them. -/

namespace Ledwall.Server.WallGeometry

open Library.Tilings

structure Card where
  name : String
  x : ℤ
  y : ℤ
  width : ℤ
  height : ℤ
  enabled : Bool := true
  mode : String := "stream"
  deriving DecidableEq

/-- This card's crop rectangle in wall coordinates. -/
def Card.box (c : Card) : ℤ × ℤ × ℤ × ℤ := (c.x, c.y, c.x + c.width, c.y + c.height)

structure Wall where
  width : ℕ
  height : ℕ
  cards : List Card

inductive Problem
  | overhang (card : String) (box : ℤ × ℤ × ℤ × ℤ) (width height : ℕ)
  | overlap (card other : String)
  | gap (pixels : ℤ)
  deriving DecidableEq

def Problem.isOverlap : Problem → Bool
  | .overlap .. => true
  | _ => false

namespace Wall

variable (w : Wall)

def enabledCards : List Card := w.cards.filter Card.enabled

/-- Pixels covered by cards. -/
def covers : ℤ := (w.enabledCards.map fun c => c.width * c.height).sum

def Overhangs (a : Card) : Prop := a.x + a.width > w.width ∨ a.y + a.height > w.height

instance (a : Card) : Decidable (w.Overhangs a) := inferInstanceAs (Decidable (_ ∨ _))

end Wall

def Card.Overlaps (a b : Card) : Prop :=
  a.x < b.x + b.width ∧ b.x < a.x + a.width ∧ a.y < b.y + b.height ∧ b.y < a.y + a.height

instance (a b : Card) : Decidable (a.Overlaps b) := inferInstanceAs (Decidable (_ ∧ _))

namespace Wall

variable (w : Wall)

def overhangProblem (a : Card) : Problem := .overhang a.name a.box w.width w.height

/-- The two checks over the cards, each against those after it. -/
def cardProblems : List Card → List Problem
  | [] => []
  | a :: rest =>
    (if w.Overhangs a then [w.overhangProblem a] else []) ++
      (rest.filter fun b => a.Overlaps b).map (fun b => .overlap a.name b.name) ++ cardProblems rest

def area : ℤ := w.width * w.height

def problems : List Problem :=
  let found := w.cardProblems w.enabledCards
  found ++ if w.covers < w.area ∧ ¬ found.any Problem.isOverlap then [.gap (w.area - w.covers)] else []

/-- What mode this wall is in, as one word. -/
def modeWord : String :=
  match (w.cards.map fun c => if c.mode = "" then "stream" else c.mode).dedup with
  | [] => "none"
  | [mode] => mode
  | _ => "mixed"

end Wall

structure Report where
  covered : ℤ
  problems : List Problem
  ok : Bool
  mode : String

/-- `wall_layout` -/
def wallLayout (w : Wall) : Report where
  covered := w.covers
  problems := w.problems
  ok := w.problems.isEmpty
  mode := w.modeWord

section Purpose

/-- The pixels a card shows. -/
noncomputable def Card.pixels (c : Card) : Finset (ℤ × ℤ) := cells c.x c.y c.width c.height

noncomputable def Wall.canvas (w : Wall) : Finset (ℤ × ℤ) := cells 0 0 w.width w.height

/-- The enabled cards lie inside the wall, pairwise disjoint, and cover every pixel of the canvas. -/
structure Wall.Tiled (w : Wall) : Prop where
  inside : ∀ c ∈ w.enabledCards, c.pixels ⊆ w.canvas
  disjoint : w.enabledCards.Pairwise fun a b => Disjoint a.pixels b.pixels
  covered : ∀ p ∈ w.canvas, ∃ c ∈ w.enabledCards, p ∈ c.pixels

/-- Some pixel of the canvas shows no card. -/
def Wall.Uncovered (w : Wall) : Prop := ∃ p ∈ w.canvas, ∀ c ∈ w.enabledCards, p ∉ c.pixels

/-- The report says exactly what is wrong. -/
structure Wall.Reported (w : Wall) : Prop where
  ok_iff : (wallLayout w).ok = true ↔ w.Tiled
  overlap : w.enabledCards.Pairwise fun a b =>
    ¬ Disjoint a.pixels b.pixels → .overlap a.name b.name ∈ (wallLayout w).problems
  overhang : ∀ c ∈ w.enabledCards, ¬ c.pixels ⊆ w.canvas →
    w.overhangProblem c ∈ (wallLayout w).problems
  gap : w.Uncovered → ∃ n, .gap n ∈ (wallLayout w).problems

/-- No enabled card sticks out on the left or at the top alone, and the cards do not make up for an
uncovered pixel by overlapping or by area elsewhere. -/
structure Wall.Plain (w : Wall) : Prop where
  origin : ∀ c ∈ w.enabledCards, c.x < 0 ∨ c.y < 0 → w.Overhangs c
  hole : w.Uncovered →
    w.enabledCards.Pairwise (fun a b => ¬ a.Overlaps b) ∧ w.covers < w.area

end Purpose

section Meaning

variable {w : Wall} {a b c : Card} {cards : List Card}

/-- A card shows something. -/
def Card.Sized (c : Card) : Prop := 0 < c.width ∧ 0 < c.height

instance (c : Card) : Decidable c.Sized := inferInstanceAs (Decidable (_ ∧ _))

lemma Card.Sized.overlaps_iff (ha : a.Sized) (hb : b.Sized) :
    ¬ Disjoint a.pixels b.pixels ↔ a.Overlaps b := by
  rw [Card.pixels, Card.pixels, not_disjoint_cells_iff ha.1 ha.2 hb.1 hb.2]
  exact Iff.rfl

lemma Card.Sized.inside_iff (hc : c.Sized) :
    c.pixels ⊆ w.canvas ↔ 0 ≤ c.x ∧ 0 ≤ c.y ∧ ¬ w.Overhangs c := by
  rw [Card.pixels, Wall.canvas, cells_subset_iff hc.1 hc.2, Wall.Overhangs]
  omega

lemma Wall.card_canvas : (w.canvas.card : ℤ) = w.area :=
  card_cells (Nat.cast_nonneg _) (Nat.cast_nonneg _)

lemma Wall.covers_eq (hs : ∀ c ∈ w.enabledCards, c.Sized) :
    w.covers = (Library.Tilings.area (w.enabledCards.map Card.pixels) : ℤ) := by
  rw [Wall.covers]
  generalize w.enabledCards = cards at hs
  induction cards with
  | nil => rfl
  | cons c cards ih =>
    obtain ⟨hc, hcards⟩ := List.forall_mem_cons.mp hs
    rw [List.map_cons, List.sum_cons, ih hcards, List.map_cons, area_cons, Nat.cast_add,
      Card.pixels, card_cells hc.1.le hc.2.le]

end Meaning

section Found

variable {w : Wall} {a b c : Card} {cards : List Card} {p : Problem}

lemma overhang_mem : w.overhangProblem c ∈ w.cardProblems cards ↔
    ∃ a ∈ cards, w.Overhangs a ∧ a.name = c.name ∧ a.box = c.box := by
  induction cards with
  | nil => simp [Wall.cardProblems]
  | cons a cards ih =>
    rw [Wall.cardProblems, List.mem_append, List.mem_append, ih]
    by_cases ha : w.Overhangs a <;> simp [ha, Wall.overhangProblem, eq_comm]

lemma overlap_mem_of_pairwise (h : ¬ cards.Pairwise fun a b => ¬ a.Overlaps b) :
    ∃ p ∈ w.cardProblems cards, p.isOverlap = true := by
  induction cards with
  | nil => simp at h
  | cons a cards ih =>
    rw [List.pairwise_cons, not_and_or] at h
    rcases h with h | h
    · push Not at h
      obtain ⟨b, hb, hab⟩ := h
      refine ⟨.overlap a.name b.name, ?_, rfl⟩
      rw [Wall.cardProblems, List.mem_append, List.mem_append]
      exact .inl (.inr (List.mem_map.mpr ⟨b, List.mem_filter.mpr ⟨hb, decide_eq_true hab⟩, rfl⟩))
    · obtain ⟨p, hp, hover⟩ := ih h
      exact ⟨p, List.mem_append_right _ hp, hover⟩

lemma no_overlap_of_pairwise (h : cards.Pairwise fun a b => ¬ a.Overlaps b) :
    ∀ p ∈ w.cardProblems cards, p.isOverlap = false := by
  induction cards with
  | nil => simp [Wall.cardProblems]
  | cons a cards ih =>
    obtain ⟨ha, hcards⟩ := List.pairwise_cons.mp h
    intro p hp
    rw [Wall.cardProblems, List.mem_append, List.mem_append] at hp
    rcases hp with (hp | hp) | hp
    · split at hp
      · rw [List.mem_singleton.mp hp]
        rfl
      · cases hp
    · obtain ⟨b, hb, rfl⟩ := List.mem_map.mp hp
      obtain ⟨hb, hover⟩ := List.mem_filter.mp hb
      exact absurd (of_decide_eq_true hover) (ha b hb)
    · exact ih hcards p hp

lemma overlap_mem : cards.Pairwise fun a b => a.Overlaps b →
    .overlap a.name b.name ∈ w.cardProblems cards := by
  induction cards with
  | nil => exact .nil
  | cons a cards ih =>
    rw [List.pairwise_cons]
    constructor
    · intro b hb hover
      rw [Wall.cardProblems, List.mem_append, List.mem_append]
      exact .inl (.inr (List.mem_map.mpr ⟨b, List.mem_filter.mpr ⟨hb, decide_eq_true hover⟩, rfl⟩))
    · apply ih.imp
      intro b c h hover
      exact List.mem_append_right _ (h hover)

lemma cardProblems_eq_nil : w.cardProblems cards = [] ↔
    (∀ c ∈ cards, ¬ w.Overhangs c) ∧ cards.Pairwise fun a b => ¬ a.Overlaps b := by
  induction cards with
  | nil => simp [Wall.cardProblems]
  | cons a cards ih =>
    rw [Wall.cardProblems, List.append_eq_nil_iff, List.append_eq_nil_iff, ih, List.map_eq_nil_iff,
      List.filter_eq_nil_iff, List.forall_mem_cons, List.pairwise_cons]
    by_cases ha : w.Overhangs a <;> simp [ha]
    tauto

lemma any_overlap_iff : (w.cardProblems cards).any Problem.isOverlap = false ↔
    cards.Pairwise fun a b => ¬ a.Overlaps b := by
  rw [List.any_eq_false]
  constructor
  · intro h
    by_contra hpair
    obtain ⟨p, hp, hover⟩ := @overlap_mem_of_pairwise w cards hpair
    exact h p hp hover
  · intro h p hp
    rw [no_overlap_of_pairwise h p hp]
    exact Bool.false_ne_true

end Found

section Reported

variable {w : Wall} {a b c : Card}

lemma mem_problems {p : Problem} : p ∈ (wallLayout w).problems ↔
    p ∈ w.cardProblems w.enabledCards ∨
      p = .gap (w.area - w.covers) ∧ w.covers < w.area ∧
        w.enabledCards.Pairwise fun a b => ¬ a.Overlaps b := by
  change p ∈ w.problems ↔ _
  rw [Wall.problems, List.mem_append]
  apply or_congr_right
  by_cases hgap : w.covers < w.area ∧ ¬ (w.cardProblems w.enabledCards).any Problem.isOverlap
  · have hpair := any_overlap_iff.mp (Bool.eq_false_iff.mpr hgap.2)
    rw [if_pos hgap, List.mem_singleton]
    exact ⟨fun h => ⟨h, hgap.1, hpair⟩, fun h => h.1⟩
  · rw [if_neg hgap]
    constructor
    · intro h
      cases h
    · rintro ⟨-, hlt, hpair⟩
      exact absurd ⟨hlt, Bool.eq_false_iff.mp (any_overlap_iff.mpr hpair)⟩ hgap

lemma gap_not_mem {n : ℤ} {cards : List Card} : .gap n ∉ w.cardProblems cards := by
  induction cards with
  | nil => simp [Wall.cardProblems]
  | cons a cards ih =>
    rw [Wall.cardProblems, List.mem_append, List.mem_append]
    rintro ((h | h) | h)
    · split at h
      · cases List.mem_singleton.mp h
      · cases h
    · obtain ⟨b, -, he⟩ := List.mem_map.mp h
      cases he
    · exact ih h

lemma gap_mem_iff : (∃ n, .gap n ∈ (wallLayout w).problems) ↔
    w.enabledCards.Pairwise (fun a b => ¬ a.Overlaps b) ∧ w.covers < w.area := by
  constructor
  · rintro ⟨n, h⟩
    rcases mem_problems.mp h with h | ⟨-, hlt, hpair⟩
    · exact absurd h gap_not_mem
    · exact ⟨hpair, hlt⟩
  · rintro ⟨hpair, hlt⟩
    exact ⟨_, mem_problems.mpr (.inr ⟨rfl, hlt, hpair⟩)⟩

lemma overhang_mem_iff (hc : c ∈ w.enabledCards) :
    w.overhangProblem c ∈ (wallLayout w).problems ↔ w.Overhangs c := by
  rw [mem_problems, overhang_mem]
  constructor
  · rintro (⟨a, -, hover, -, hbox⟩ | ⟨he, -⟩)
    · simp only [Card.box, Prod.mk.injEq] at hbox
      rw [Wall.Overhangs] at hover ⊢
      omega
    · cases he
  · intro hover
    exact .inl ⟨c, hc, hover, rfl, rfl⟩

lemma ok_iff : (wallLayout w).ok = true ↔ (∀ c ∈ w.enabledCards, ¬ w.Overhangs c) ∧
    w.enabledCards.Pairwise (fun a b => ¬ a.Overlaps b) ∧ w.area ≤ w.covers := by
  rw [show (wallLayout w).ok = (wallLayout w).problems.isEmpty from rfl, List.isEmpty_iff,
    List.eq_nil_iff_forall_not_mem]
  simp only [mem_problems, not_or]
  constructor
  · intro h
    obtain ⟨hover, hpair⟩ :=
      cardProblems_eq_nil.mp (List.eq_nil_iff_forall_not_mem.mpr fun p => (h p).1)
    refine ⟨hover, hpair, ?_⟩
    by_contra hlt
    exact (h _).2 ⟨rfl, not_le.mp hlt, hpair⟩
  · rintro ⟨hover, hpair, hle⟩ p
    refine ⟨?_, fun h => absurd h.2.1 (not_lt.mpr hle)⟩
    rw [cardProblems_eq_nil.mpr ⟨hover, hpair⟩]
    exact List.not_mem_nil

lemma Wall.tiled_iff (hs : ∀ c ∈ w.enabledCards, c.Sized) : w.Tiled ↔
    (∀ c ∈ w.enabledCards, c.pixels ⊆ w.canvas) ∧
      w.enabledCards.Pairwise (fun a b => ¬ a.Overlaps b) ∧ w.area ≤ w.covers := by
  have hpair : w.enabledCards.Pairwise (fun a b => Disjoint a.pixels b.pixels) ↔
      w.enabledCards.Pairwise (fun a b => ¬ a.Overlaps b) := by
    apply List.Pairwise.iff_of_mem
    intro a b ha hb
    rw [← (hs a ha).overlaps_iff (hs b hb), not_not]
  have hcount (hinside : ∀ c ∈ w.enabledCards, c.pixels ⊆ w.canvas)
      (hdisjoint : w.enabledCards.Pairwise fun a b => Disjoint a.pixels b.pixels) :
      (∀ p ∈ w.canvas, ∃ c ∈ w.enabledCards, p ∈ c.pixels) ↔ w.area ≤ w.covers := by
    have h := @covers_iff _ _ (w.enabledCards.map Card.pixels) w.canvas
      (List.pairwise_map.mpr hdisjoint) (by simpa using hinside)
    rw [Wall.covers_eq hs, ← Wall.card_canvas, Nat.cast_le, ← h]
    simp only [List.mem_map, exists_exists_and_eq_and]
  constructor
  · intro h
    exact ⟨h.inside, hpair.mp h.disjoint, (hcount h.inside h.disjoint).mp h.covered⟩
  · rintro ⟨hinside, hapart, hle⟩
    exact ⟨hinside, hpair.mpr hapart, (hcount hinside (hpair.mpr hapart)).mpr hle⟩

/-- The report says exactly what is wrong when no card sticks out on the left or at the top alone and
an uncovered pixel shows in the area. -/
theorem Wall.reported_iff (w : Wall) (hs : ∀ c ∈ w.enabledCards, c.Sized) :
    w.Reported ↔ w.Plain := by
  constructor
  · intro h
    refine ⟨?_, fun hole => gap_mem_iff.mp (h.gap hole)⟩
    intro c hc hleft
    have hout : ¬ c.pixels ⊆ w.canvas := by
      rw [(hs c hc).inside_iff]
      omega
    exact (overhang_mem_iff hc).mp (h.overhang c hc hout)
  · intro h
    have hout (c : Card) (hc : c ∈ w.enabledCards) : ¬ c.pixels ⊆ w.canvas ↔ w.Overhangs c := by
      have horigin := h.origin c hc
      rw [(hs c hc).inside_iff]
      constructor
      · intro hn
        by_contra hover
        exact hn ⟨by_contra fun hx => hover (horigin (.inl (not_le.mp hx))),
          by_contra fun hy => hover (horigin (.inr (not_le.mp hy))), hover⟩
      · intro hover hn
        exact hn.2.2 hover
    refine ⟨?_, ?_, ?_, fun hole => gap_mem_iff.mpr (h.hole hole)⟩
    · rw [ok_iff, Wall.tiled_iff hs]
      apply and_congr_left'
      apply forall₂_congr
      intro c hc
      rw [← hout c hc, not_not]
    · apply (overlap_mem (w := w)).imp_of_mem
      intro a b ha hb hname hover
      exact mem_problems.mpr (.inl (hname (((hs a ha).overlaps_iff (hs b hb)).mp hover)))
    · intro c hc hn
      exact (overhang_mem_iff hc).mpr ((hout c hc).mp hn)

end Reported

/-- Two cards side by side. -/
def twoCards : Wall :=
  ⟨4, 1, [⟨"left", 0, 0, 2, 1, true, "stream"⟩, ⟨"right", 2, 0, 2, 1, true, "stream"⟩]⟩

theorem Wall.reported_iff_twoCards : twoCards.Reported ↔ twoCards.Plain :=
  twoCards.reported_iff (by decide)

/-- One card that stands to the left of its wall. -/
def besideWall : Wall := ⟨4, 1, [⟨"left", -4, 0, 4, 1, true, "stream"⟩]⟩

theorem besideWall_not_reported : ¬ besideWall.Reported := by
  intro h
  have htiled : besideWall.Tiled := h.ok_iff.mp (by decide)
  have hcorner : ((-4, 0) : ℤ × ℤ) ∈ besideWall.canvas :=
    htiled.inside _ List.mem_cons_self (mem_cells.mpr (by decide))
  exact absurd (mem_cells.mp hcorner).1 (by decide)

end Ledwall.Server.WallGeometry
