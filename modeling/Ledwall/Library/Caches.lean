import Mathlib.Tactic

/-! A cache that keeps what was made for the first item of each key, and when that is what every later
item would have had made for itself. -/

namespace Ledwall.Library.Caches

variable {ι κ δ : Type*} [DecidableEq κ] (key : ι → κ) (make : ι → Option δ)

/-- Making can fail, which leaves the cache as it is. -/
def serve (cache : κ → Option δ) (i : ι) : Option δ × (κ → Option δ) :=
  match cache (key i) with
  | some d => (some d, cache)
  | none =>
    match make i with
    | some d => (some d, Function.update cache (key i) (some d))
    | none => (none, cache)

def serveAll : (κ → Option δ) → List ι → List (ι × Option δ) × (κ → Option δ)
  | cache, [] => ([], cache)
  | cache, i :: is =>
    let first := serve key make cache i
    let rest := serveAll first.2 is
    ((i, first.1) :: rest.1, rest.2)

/-- What an item was served is what would be made for it. -/
def Own (p : ι × Option δ) : Prop := ∀ d, p.2 = some d → make p.1 = some d

/-- Whatever the cache has for the item's key, the item would have it made too. -/
def Fits (cache : κ → Option δ) (i : ι) : Prop := ∀ d, cache (key i) = some d → make i = some d

/-- An item of the same key has the same made for it, if anything was made for the first. -/
def Agree (i j : ι) : Prop := key i = key j → ∀ d, make i = some d → make j = some d

variable {key make} {cache : κ → Option δ}

lemma serveAll_append (is js : List ι) : serveAll key make cache (is ++ js) =
    ((serveAll key make cache is).1 ++ (serveAll key make (serveAll key make cache is).2 js).1,
      (serveAll key make (serveAll key make cache is).2 js).2) := by
  induction is generalizing cache with
  | nil => rfl
  | cons i is ih => simp [serveAll, ih]

lemma serve_hit {i : ι} {d : δ} (h : cache (key i) = some d) :
    serve key make cache i = (some d, cache) := by
  simp [serve, h]

lemma serve_failed {i : ι} (h : cache (key i) = none) (hmake : make i = none) :
    serve key make cache i = (none, cache) := by
  simp [serve, h, hmake]

lemma serve_made {i : ι} {d : δ} (h : cache (key i) = none) (hmake : make i = some d) :
    serve key make cache i = (some d, Function.update cache (key i) (some d)) := by
  simp [serve, h, hmake]

lemma fits_serve {i j : ι} (hi : Fits key make cache i) :
    Fits key make (serve key make cache i).2 j ↔ Fits key make cache j ∧ Agree key make i j := by
  cases hc : cache (key i) with
  | some d =>
    have hmade := hi d hc
    rw [serve_hit hc]
    refine ⟨fun hj => ⟨hj, ?_⟩, And.left⟩
    intro hkey d' hd'
    apply hj
    dsimp only
    rw [← hkey, hc, ← hmade, hd']
  | none =>
    cases hm : make i with
    | none =>
      rw [serve_failed hc hm]
      refine ⟨fun hj => ⟨hj, ?_⟩, And.left⟩
      intro _ d hd
      rw [hm] at hd
      cases hd
    | some d =>
      rw [serve_made hc hm]
      by_cases hkey : key i = key j
      · have hnone : cache (key j) = none := hkey ▸ hc
        simp [Fits, Agree, hkey, hnone, hm]
      · have hne : key j ≠ key i := fun h => hkey h.symm
        simp [Fits, Agree, hkey, Function.update_of_ne hne]

lemma own_serve {i : ι} : Own make (i, (serve key make cache i).1) ↔ Fits key make cache i := by
  cases hc : cache (key i) with
  | some d => simp [serve_hit hc, Own, Fits, hc]
  | none =>
    cases hm : make i with
    | none => simp [serve_failed hc hm, Own, Fits, hc]
    | some d => simp [serve_made hc hm, Own, Fits, hc, hm]

/-- Every item is served its own exactly when the items fit the cache and agree among themselves. -/
theorem own_iff (is : List ι) : (∀ p ∈ (serveAll key make cache is).1, Own make p) ↔
    (∀ i ∈ is, Fits key make cache i) ∧ is.Pairwise (Agree key make) := by
  induction is generalizing cache with
  | nil => simp [serveAll]
  | cons i is ih =>
    rw [serveAll]
    simp only [List.forall_mem_cons, List.pairwise_cons, own_serve, ih]
    constructor
    · rintro ⟨hi, hrest, hpair⟩
      refine ⟨⟨hi, ?_⟩, ?_, hpair⟩
      · intro j hj
        exact ((fits_serve hi).mp (hrest j hj)).1
      · intro j hj
        exact ((fits_serve hi).mp (hrest j hj)).2
    · rintro ⟨⟨hi, hfits⟩, hagree, hpair⟩
      refine ⟨hi, ?_, hpair⟩
      intro j hj
      exact (fits_serve hi).mpr ⟨hfits j hj, hagree j hj⟩

end Ledwall.Library.Caches
