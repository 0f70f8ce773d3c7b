import Mathlib.Tactic

/-! Runs of a labelled transition relation, and properties of every step of a run. A label is
whatever the environment supplies at that step; a step that has no successor ends the run. -/

namespace Ledwall.Library.Runs

variable {σ ι : Type*} (step : σ → ι → σ → Prop)

/-- `P` holds at every step of every run from `s` on the labels. -/
def Always (P : σ → ι → Prop) : σ → List ι → Prop
  | _, [] => True
  | s, i :: is => P s i ∧ ∀ t, step s i t → Always P t is

/-- A finished run. -/
inductive Run : σ → List ι → σ → Prop
  | nil (s) : Run s [] s
  | cons {s i t is u} : step s i t → Run t is u → Run s (i :: is) u

variable {step} {P Q C : σ → ι → Prop} {I : σ → Prop} {s t u : σ} {is js : List ι}

lemma Always.of_forall (h : ∀ s i, P s i) : Always step P s is := by
  induction is generalizing s with
  | nil => trivial
  | cons i is ih => exact ⟨h s i, fun _ _ => ih⟩

lemma Always.of_mem (h : ∀ i ∈ is, ∀ s, P s i) : Always step P s is := by
  induction is generalizing s with
  | nil => trivial
  | cons i is ih =>
    refine ⟨h i List.mem_cons_self s, fun _ _ => ih ?_⟩
    intro j hj
    exact h j (List.mem_cons_of_mem i hj)

lemma Always.mono (h : ∀ s i, P s i → Q s i) (hp : Always step P s is) : Always step Q s is := by
  induction is generalizing s with
  | nil => trivial
  | cons i is ih => exact ⟨h s i hp.1, fun t ht => ih (hp.2 t ht)⟩

lemma Always.and (hp : Always step P s is) (hq : Always step Q s is) :
    Always step (fun s i => P s i ∧ Q s i) s is := by
  induction is generalizing s with
  | nil => trivial
  | cons i is ih => exact ⟨⟨hp.1, hq.1⟩, fun t ht => ih (hp.2 t ht) (hq.2 t ht)⟩

lemma Always.of_invariant (hkeep : ∀ s i t, I s → C s i → step s i t → I t)
    (hs : I s) (hc : Always step C s is) : Always step (fun s i => I s ∧ C s i) s is := by
  induction is generalizing s with
  | nil => trivial
  | cons i is ih =>
    exact ⟨⟨hs, hc.1⟩, fun t ht => ih (hkeep s i t hs hc.1 ht) (hc.2 t ht)⟩

lemma Always.of_safe (hkeep : ∀ s i t, I s → C s i → step s i t → I t)
    (hp : ∀ s i, I s → C s i → P s i) (hs : I s) (hc : Always step C s is) :
    Always step P s is :=
  (Always.of_invariant hkeep hs hc).mono fun s i h => hp s i h.1 h.2

lemma Run.append (h : Run step s is t) (h' : Run step t js u) : Run step s (is ++ js) u := by
  induction h with
  | nil => exact h'
  | cons he _ ih => exact .cons he (ih h')

lemma Run.snoc {i : ι} (h : Run step s is t) (h' : step t i u) : Run step s (is ++ [i]) u :=
  h.append (.cons h' (.nil u))

lemma Run.invariant (hkeep : ∀ s i t, I s → C s i → step s i t → I t)
    (h : Run step s is t) (hs : I s) (hc : Always step C s is) : I t := by
  induction h with
  | nil => exact hs
  | cons he _ ih => exact ih (hkeep _ _ _ hs hc.1 he) (hc.2 _ he)

lemma Always.at_prefix {i : ι} (hp : Always step P s (is ++ i :: js)) (h : Run step s is t) :
    P t i := by
  induction h with
  | nil => exact hp.1
  | cons he _ ih => exact ih (hp.2 _ he)

section Machines

variable {ο : Type*} {next : σ → ι → σ} {out : σ → ι → ο} {R : σ → σ → Prop}

/-- What a machine puts out along its inputs. -/
def trail (next : σ → ι → σ) (out : σ → ι → ο) : σ → List ι → List ο
  | _, [] => []
  | s, i :: is => out s i :: trail next out (next s i) is

lemma run_foldl (next : σ → ι → σ) (s : σ) (is : List ι) :
    Run (fun s i t => t = next s i) s is (is.foldl next s) := by
  induction is generalizing s with
  | nil => exact .nil s
  | cons i is ih => exact .cons rfl (ih (next s i))

lemma always_next_cons {P : σ → ι → Prop} {s : σ} {i : ι} {is : List ι} :
    Always (fun s i t => t = next s i) P s (i :: is) ↔
      P s i ∧ Always (fun s i t => t = next s i) P (next s i) is :=
  and_congr_right fun _ => forall_eq

lemma trail_eq_of_lockstep (hstep : ∀ s t i, R s t → out s i = out t i ∧ R (next s i) (next t i))
    (h : R s t) (is : List ι) : trail next out s is = trail next out t is := by
  induction is generalizing s t with
  | nil => rfl
  | cons i is ih =>
    obtain ⟨hout, hnext⟩ := hstep s t i h
    rw [trail, trail, hout, ih hnext]

/-- Along a machine's run, what can be checked at a step can be checked at every step. -/
instance decidableAlways {P : σ → ι → Prop} [∀ s i, Decidable (P s i)] :
    (s : σ) → (is : List ι) → Decidable (Always (fun s i t => t = next s i) P s is)
  | _, [] => .isTrue trivial
  | s, i :: is =>
    have : Decidable (Always (fun s i t => t = next s i) P (next s i) is) := decidableAlways _ is
    decidable_of_iff (P s i ∧ Always (fun s i t => t = next s i) P (next s i) is)
      always_next_cons.symm

end Machines

end Ledwall.Library.Runs
