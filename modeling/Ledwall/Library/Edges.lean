import Mathlib.Tactic

/-! The edges of a signal in discrete time. -/

namespace Ledwall.Library.Edges

variable (s : ℕ → Bool)

/-- The signal goes up between `n` and the next instant. -/
def Rises (n : ℕ) : Prop := s n = false ∧ s (n + 1) = true

def Falls (n : ℕ) : Prop := s n = true ∧ s (n + 1) = false

variable {s} {a b n : ℕ}

lemma stays (ha : s a = true) (h : ∀ n, a ≤ n → n < b → ¬ Falls s n) :
    ∀ n, a ≤ n → n ≤ b → s n = true := by
  intro n han
  induction n, han using Nat.le_induction with
  | base => exact fun _ => ha
  | succ n han ih =>
    intro hnb
    by_contra hlow
    exact h n han hnb ⟨ih (Nat.le_of_succ_le hnb), by simpa using hlow⟩

lemma exists_rise (hab : a ≤ b) (ha : s a = false) (hb : s b = true) :
    ∃ n, a ≤ n ∧ n < b ∧ Rises s n := by
  induction b, hab using Nat.le_induction with
  | base =>
    rw [ha] at hb
    cases hb
  | succ b hab ih =>
    cases hs : s b with
    | false => exact ⟨b, hab, Nat.lt_succ_self b, hs, hb⟩
    | true =>
      obtain ⟨n, han, hnb, hn⟩ := ih hs
      exact ⟨n, han, Nat.lt_succ_of_lt hnb, hn⟩

/-- A signal that is low at the start and high at the end goes up once exactly when it never goes down. -/
theorem one_rise_iff (hab : a ≤ b) (ha : s a = false) (hb : s b = true) :
    (∃! n, a ≤ n ∧ n < b ∧ Rises s n) ↔ ∀ n, a ≤ n → n < b → ¬ Falls s n := by
  constructor
  · rintro ⟨m, -, honly⟩ n han hnb ⟨hhigh, hlow⟩
    -- it went up before it went down, and goes up again behind
    obtain ⟨k, hak, hkn, hk⟩ := exists_rise han ha hhigh
    obtain ⟨l, hnl, hlb, hl⟩ := exists_rise hnb hlow hb
    have hkm := honly k ⟨hak, hkn.trans hnb, hk⟩
    have hlm := honly l ⟨han.trans (Nat.le_of_succ_le hnl), hlb, hl⟩
    omega
  · intro hfalls
    obtain ⟨n, han, hnb, hn⟩ := exists_rise hab ha hb
    refine ⟨n, ⟨han, hnb, hn⟩, ?_⟩
    rintro m ⟨ham, hmb, hm⟩
    have hlater {k l : ℕ} (hak : a ≤ k) (hk : Rises s k) (hlb : l < b) (hl : Rises s l) : ¬ k < l := by
      intro hkl
      have hhigh := stays hk.2 (fun n hn hnb => hfalls n (hak.trans (Nat.le_of_succ_le hn)) hnb) l hkl
        hlb.le
      rw [hl.1] at hhigh
      cases hhigh
    exact le_antisymm (not_lt.mp (hlater han hn hmb hm)) (not_lt.mp (hlater ham hm hnb hn))

end Ledwall.Library.Edges
