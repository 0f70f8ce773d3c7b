import Ledwall.Library.Runs

/-! Machines that play scripts: what comes out of one, clock by clock, whatever goes in. Where a machine
waits between scripts, it cannot be told from a player that has them by heart. -/

namespace Ledwall.Library.Scripts

open Runs

variable {σ ι ο α : Type*} (next : σ → ι → σ) (out : σ → ο)

/-- As long as the inputs are as `C` says, the machine puts out the script and is then as `Q` says. -/
def Plays (C : σ → ι → Prop) (Q : σ → Prop) : σ → List ο → Prop
  | s, [] => Q s
  | s, o :: os => out s = o ∧ ∀ i, C s i → Plays C Q (next s i) os

variable {next out} {C D : σ → ι → Prop} {Q R : σ → Prop} {s : σ} {o : ο} {os os' : List ο}

namespace Plays

lemma one (ho : out s = o) (h : ∀ i, C s i → Q (next s i)) : Plays next out C Q s [o] := ⟨ho, h⟩

lemma append (h : Plays next out C Q s os) (h' : ∀ t, Q t → Plays next out C R t os') :
    Plays next out C R s (os ++ os') := by
  induction os generalizing s with
  | nil => exact h' s h
  | cons o os ih => exact ⟨h.1, fun i hi => ih (h.2 i hi)⟩

lemma mono (h : Plays next out C Q s os) (hqr : ∀ t, Q t → R t) : Plays next out C R s os := by
  induction os generalizing s with
  | nil => exact hqr s h
  | cons o os ih => exact ⟨h.1, fun i hi => ih (h.2 i hi)⟩

/-- One part of a script behind the other. -/
lemma flatMap {f : α → List ο} {I : ℕ → σ → Prop} {xs : List α}
    (hstep : ∀ k x, xs[k]? = some x → ∀ t, I k t → Plays next out C (I (k + 1)) t (f x))
    (h : I 0 s) : Plays next out C (I xs.length) s (xs.flatMap f) := by
  induction xs generalizing s I with
  | nil => exact h
  | cons x xs ih =>
    rw [List.flatMap_cons]
    refine (hstep 0 x rfl s h).append fun t ht => ?_
    exact ih (I := fun k => I (k + 1)) (fun k y hy => hstep (k + 1) y hy) ht

/-- A script that is written clock by clock. -/
lemma map_range {f : ℕ → ο} {I : ℕ → σ → Prop} {n : ℕ}
    (hstep : ∀ k < n, ∀ t, I k t → out t = f k ∧ ∀ i, C t i → I (k + 1) (next t i))
    (h : I 0 s) : Plays next out C (I n) s ((List.range n).map f) := by
  have hplays : Plays next out C (I (List.range n).length) s ((List.range n).flatMap fun k => [f k]) := by
    refine flatMap (fun k x hx t ht => ?_) h
    obtain ⟨hk, rfl⟩ : k < n ∧ k = x := by simpa [List.getElem?_eq_some_iff] using hx
    exact hstep k hk t ht
  rwa [List.length_range, ← List.map_eq_flatMap] at hplays

lemma replicate {I : ℕ → σ → Prop} {n : ℕ}
    (hstep : ∀ k < n, ∀ t, I k t → out t = o ∧ ∀ i, C t i → I (k + 1) (next t i))
    (h : I 0 s) : Plays next out C (I n) s (List.replicate n o) := by
  have hplays := map_range (f := fun _ => o) hstep h
  rwa [List.map_const', List.length_range] at hplays

/-- Along a run that is as long as the script. -/
lemma run (h : Plays next out C Q s os) {is : List ι} (hlen : is.length = os.length)
    (hc : Always (fun s i t => t = next s i) C s is) :
    trail next (fun s _ => out s) s is = os ∧ Q (is.foldl next s) := by
  induction os generalizing s is with
  | nil =>
    rw [List.length_nil, List.length_eq_zero_iff] at hlen
    subst hlen
    exact ⟨rfl, h⟩
  | cons o os ih =>
    cases is with
    | nil => cases hlen
    | cons i is =>
      obtain ⟨htrail, hq⟩ := ih (h.2 i hc.1) (Nat.succ.inj hlen) (hc.2 _ rfl)
      exact ⟨congrArg₂ List.cons h.1 htrail, hq⟩

end Plays

/-- How many scripts have been begun, and what is left of the last. -/
structure Player (ο : Type*) where
  begun : ℕ := 0
  rest : List ο := []

namespace Player

variable (script : ℕ → List ο) (start : ι → Bool) (idle : ℕ → ο) (p : Player ο)

def turn (p : Player ο) (i : ι) : Player ο :=
  match p.rest with
  | [] => if start i then ⟨p.begun + 1, script p.begun⟩ else p
  | _ :: os => ⟨p.begun, os⟩

def now : ο := p.rest.headD (idle p.begun)

/-- The script that is being played. -/
def playing : Option ℕ := p.rest.head?.map fun _ => p.begun - 1

lemma turn_nil_of_start {k : ℕ} {i : ι} (h : start i = true) :
    turn script start ⟨k, []⟩ i = ⟨k + 1, script k⟩ := by
  simp [turn, h]

lemma turn_nil {k : ℕ} {i : ι} (h : start i = false) : turn script start ⟨k, []⟩ i = ⟨k, []⟩ := by
  simp [turn, h]

end Player

/-- With its player beside it, the machine's inputs are as `K` says of the script that is being played. -/
def Fed (next : σ → ι → σ) (script : ℕ → List ο) (start : ι → Bool) (K : ℕ → σ → ι → Prop) (s : σ)
    (p : Player ο) (is : List ι) : Prop :=
  Always (fun x i y => y = (next x.1 i, x.2.turn script start i))
    (fun x i => ∀ k, x.2.playing = some k → K k x.1 i) (s, p) is

/-- A machine that, wherever it waits, goes on waiting or plays the next script, is its player. -/
theorem trail_eq_player {script : ℕ → List ο} {start : ι → Bool} {idle : ℕ → ο} {K : ℕ → σ → ι → Prop}
    {W : ℕ → σ → Prop} (hidle : ∀ k t, W k t → out t = idle k)
    (hwait : ∀ k t i, W k t → start i = false → W k (next t i))
    (hstart : ∀ k t i, W k t → start i = true →
      Plays next out (K k) (W (k + 1)) (next t i) (script k))
    (h : W 0 s) {is : List ι} (hfed : Fed next script start K s {} is) :
    trail next (fun s _ => out s) s is =
      trail (Player.turn script start) (fun p _ => p.now idle) {} is := by
  have hrun (is : List ι) (t : σ) (p : Player ο) (hplays : Plays next out (K (p.begun - 1)) (W p.begun) t p.rest)
      (hfed : Fed next script start K t p is) : trail next (fun s _ => out s) t is =
        trail (Player.turn script start) (fun p _ => p.now idle) p is := by
    induction is generalizing t p with
    | nil => rfl
    | cons i is ih =>
      obtain ⟨hnow, hlater⟩ := hfed
      have hlater' := hlater _ rfl
      obtain ⟨k, rest⟩ := p
      cases rest with
      | nil =>
        refine congrArg₂ List.cons (hidle k t hplays) (ih _ _ ?_ hlater')
        cases hi : start i with
        | false =>
          rw [Player.turn_nil script start hi]
          exact hwait k t i hplays hi
        | true =>
          rw [Player.turn_nil_of_start script start hi]
          exact hstart k t i hplays hi
      | cons o os =>
        exact congrArg₂ List.cons hplays.1 (ih _ _ (hplays.2 i (hnow _ rfl)) hlater')
  exact hrun is s {} h hfed

end Ledwall.Library.Scripts
