import Ledwall.Gateware.SharedPort
import Ledwall.Library.Fairness

/-! Runs of commands through the port: which source's commands it takes while a run is going on. -/

namespace Ledwall.Gateware

namespace PipelinedArbiter

open Library.Fairness

section Rotation

variable {n a b d : ℕ}

lemma rotate_to (ha : a < n) (hb : b < n) : (a + (b + n - a) % n) % n = b := by
  rw [Nat.add_mod_mod, Nat.add_sub_cancel' (by omega), Nat.add_mod_right, Nat.mod_eq_of_lt hb]

lemma rotate_add (a d e n : ℕ) : ((a + d) % n + e) % n = (a + (d + e)) % n := by
  rw [Nat.mod_add_mod, Nat.add_assoc]

lemma rotate_inj {d e : ℕ} (hd : d < n) (he : e < n) (h : (a + d) % n = (a + e) % n) : d = e := by
  have hmod : d % n = e % n := Nat.ModEq.add_left_cancel' a h
  rwa [Nat.mod_eq_of_lt hd, Nat.mod_eq_of_lt he] at hmod

lemma chain_eq_find (p : ℕ → Bool) {l : List ℕ} (hl : l ≠ []) :
    l.dropLast.foldr (fun cand arm => if p cand then cand else arm) (l.getLastD 0) =
      (l.find? p).getD (l.getLastD 0) := by
  induction l with
  | nil => exact absurd rfl hl
  | cons a l ih =>
    cases l with
    | nil => cases hp : p a <;> simp [hp]
    | cons b l =>
      have hih := ih (List.cons_ne_nil b l)
      rw [List.dropLast_cons_cons, List.foldr_cons, List.find?_cons]
      cases p a with
      | true => rfl
      | false => simpa using hih

end Rotation

variable {z : ArbiterConfig} {s : PipelinedArbiter} {c : ArbiterCycle}

lemma pickC_eq (hg : s.grant < z.nSources) :
    s.pickC z c = (((List.range z.nSources).map fun k => (s.grant + k) % z.nSources).find?
      (s.eligible z c)).getD
        (((List.range z.nSources).map fun k => (s.grant + k) % z.nSources).getLastD 0) := by
  rw [pickC, if_pos hg]
  apply chain_eq_find
  simp
  omega

lemma pickC_first (hg : s.grant < z.nSources) {d : ℕ} (hd : d < z.nSources)
    (hel : s.eligible z c ((s.grant + d) % z.nSources) = true)
    (hbefore : ∀ e < d, s.eligible z c ((s.grant + e) % z.nSources) = false) :
    s.pickC z c = (s.grant + d) % z.nSources := by
  have hfind : (List.range z.nSources).find?
      (fun k => s.eligible z c ((s.grant + k) % z.nSources)) = some d := by
    apply List.find?_range_eq_some.mpr
    exact ⟨hel, List.mem_range.mpr hd, fun e he => by simp [hbefore e he]⟩
  rw [pickC_eq hg, List.find?_map]
  simp only [Function.comp_def, hfind, Option.map_some, Option.getD_some]

lemma pickC_upto (hg : s.grant < z.nSources) {d : ℕ} (hd : d < z.nSources)
    (hel : s.eligible z c ((s.grant + d) % z.nSources) = true) :
    ∃ e ≤ d, s.pickC z c = (s.grant + e) % z.nSources := by
  have hex : ∃ e, s.eligible z c ((s.grant + e) % z.nSources) = true := ⟨d, hel⟩
  have hle : Nat.find hex ≤ d := Nat.find_min' hex hel
  refine ⟨Nat.find hex, hle, pickC_first hg (hle.trans_lt hd) (Nat.find_spec hex) ?_⟩
  intro e he
  exact Bool.eq_false_iff.mpr (Nat.find_min hex he)

lemma pickC_own (hg : s.grant < z.nSources) (hel : s.eligible z c s.grant = true) :
    s.pickC z c = s.grant := by
  have hself : (s.grant + 0) % z.nSources = s.grant := Nat.mod_eq_of_lt hg
  have hfirst := pickC_first (d := 0) hg (by omega) (hself.symm ▸ hel) fun e he => by omega
  rw [hfirst, hself]

lemma pickC_lt (hg : s.grant < z.nSources) : s.pickC z c < z.nSources := by
  have hlt : ∀ i ∈ (List.range z.nSources).map fun k => (s.grant + k) % z.nSources,
      i < z.nSources := by
    intro i hi
    obtain ⟨k, -, rfl⟩ := List.mem_map.mp hi
    exact Nat.mod_lt _ (by omega)
  rw [pickC_eq hg]
  cases hfind : ((List.range z.nSources).map fun k => (s.grant + k) % z.nSources).find?
      (s.eligible z c) with
  | some i => exact hlt i (List.mem_of_find?_eq_some hfind)
  | none =>
    have hne : (List.range z.nSources).map (fun k => (s.grant + k) % z.nSources) ≠ [] := by
      simp
      omega
    rw [Option.getD_none, List.getLastD_eq_getLast?, List.getLast?_eq_some_getLast hne,
      Option.getD_some]
    exact hlt _ (List.getLast_mem hne)

lemma nextGrant_run (hsticky : z.sticky = true) (hlast : s.lastSel z c = false) :
    s.nextGrant z c = s.pick := by
  rw [nextGrant, if_pos hsticky, hlast]
  rfl

lemma nextGrant_last (hsticky : z.sticky = true) (hpick : s.pick < z.nSources)
    (hlast : s.lastSel z c = true) : s.nextGrant z c = (s.pick + 1) % z.nSources := by
  rw [nextGrant, if_pos hsticky, hlast]
  simp only [Bool.not_true, Bool.false_eq_true, if_false]
  split
  · next hend =>
    have hwrap : s.pick + 1 = z.nSources := by omega
    rw [hwrap, Nat.mod_self]
  · have hbits := lt_bitsFor (z.nSources - 1)
    have hwidth : s.pick + 1 < 2 ^ z.tagW := by
      rw [ArbiterConfig.tagW]
      omega
    rw [Nat.mod_eq_of_lt hwidth, Nat.mod_eq_of_lt (by omega)]

section Runs

variable (z : ArbiterConfig) (cycles : ℕ → ArbiterCycle)

def stateAt (t : ℕ) : PipelinedArbiter := along (next z) {} cycles t

/-- The port takes a command of source `i` in cycle `t`. -/
def Accepts (t i : ℕ) : Prop := (stateAt z cycles t).srcCmdAck z (cycles t) i = true

def Last (t i : ℕ) : Prop := ((cycles t).sources i).memLast = true

/-- Source `i` is requesting, under its allowance. -/
def Asks (t i : ℕ) : Prop := (stateAt z cycles t).eligible z (cycles t) i = true

instance (t i : ℕ) : Decidable (Accepts z cycles t i) := inferInstanceAs (Decidable (_ = true))

instance (t i : ℕ) : Decidable (Last cycles t i) := inferInstanceAs (Decidable (_ = true))

instance (t i : ℕ) : Decidable (Asks z cycles t i) := inferInstanceAs (Decidable (_ = true))

/-- Once a command of a run has been taken, no other source's is before the run's last one, as long
as its source asks. -/
def Uninterrupted : Prop :=
  ∀ t₀ t i, t₀ < t → Accepts z cycles t₀ i → ¬ Last cycles t₀ i →
    (∀ u, t₀ < u → u ≤ t → Asks z cycles u i) →
    (∀ u, t₀ < u → u < t → Accepts z cycles u i → ¬ Last cycles u i) →
    ∀ j, Accepts z cycles t j → j = i

/-- While a source asks in vain, no other source has a second run. -/
def OneRunEach : Prop :=
  ∀ k < z.nSources, ∀ t₁ t₂, (∀ u, t₁ ≤ u → u ≤ t₂ → Asks z cycles u k) →
    (∀ u, t₁ ≤ u → u < t₂ → ¬ Accepts z cycles u k) →
    ∀ j ≠ k, ∀ u v, t₁ ≤ u → u < v → v ≤ t₂ → Accepts z cycles u j → Last cycles u j →
      ¬ Accepts z cycles v j

/-- A cycle that takes a command in the middle of a run: no source that comes before its own in the
rotation from the grant asks. -/
def Unrivalled (s : PipelinedArbiter) (c : ArbiterCycle) : Prop :=
  s.issue z c = true → s.lastSel z c = false →
    ∀ d < (s.pick + z.nSources - s.grant) % z.nSources,
      s.eligible z c ((s.grant + d) % z.nSources) = false

variable {z} {cycles}

lemma grant_succ (t : ℕ) : (stateAt z cycles (t + 1)).grant =
    if (stateAt z cycles t).issue z (cycles t) then (stateAt z cycles t).nextGrant z (cycles t)
    else (stateAt z cycles t).grant := rfl

lemma pick_succ (t : ℕ) :
    (stateAt z cycles (t + 1)).pick = (stateAt z cycles t).pickC z (cycles t) := rfl

lemma Accepts.issue {t i : ℕ} (h : Accepts z cycles t i) :
    (stateAt z cycles t).issue z (cycles t) = true ∧ (stateAt z cycles t).pick = i ∧
      i < z.nSources := by
  simp only [Accepts, srcCmdAck, Bool.and_eq_true, beq_iff_eq] at h
  exact ⟨h.1, h.2, h.2 ▸ (issue_true h.1).1⟩

lemma Accepts.lastSel {t i : ℕ} (h : Accepts z cycles t i) :
    (stateAt z cycles t).lastSel z (cycles t) = true ↔ Last cycles t i := by
  obtain ⟨-, hpick, hlt⟩ := h.issue
  rw [PipelinedArbiter.lastSel, hpick, Last, decide_eq_true hlt, Bool.true_and]

lemma stateAt_bounds (hsticky : z.sticky = true) (hpos : 0 < z.nSources) (t : ℕ) :
    (stateAt z cycles t).grant < z.nSources ∧ (stateAt z cycles t).pick < z.nSources := by
  induction t with
  | zero => exact ⟨hpos, hpos⟩
  | succ t ih =>
    refine ⟨?_, pickC_lt ih.1⟩
    rw [grant_succ]
    split
    · cases hlast : (stateAt z cycles t).lastSel z (cycles t) with
      | false => exact (nextGrant_run hsticky hlast).symm ▸ ih.2
      | true => exact (nextGrant_last hsticky ih.2 hlast).symm ▸ Nat.mod_lt _ hpos
    · exact ih.1

lemma pickC_of_unrivalled (hpos : 0 < z.nSources) (hsticky : z.sticky = true) {t : ℕ}
    (hissue : (stateAt z cycles t).issue z (cycles t) = true)
    (hlast : (stateAt z cycles t).lastSel z (cycles t) = false)
    (h : Unrivalled z (stateAt z cycles t) (cycles t)) :
    (stateAt z cycles t).pickC z (cycles t) = (stateAt z cycles t).pick := by
  obtain ⟨hgrant, hpick⟩ := @stateAt_bounds z cycles hsticky hpos t
  have hrot := rotate_to hgrant hpick
  have hel : (stateAt z cycles t).eligible z (cycles t) (stateAt z cycles t).pick = true := by
    simp only [issue, cmdValid, stillEligible, Bool.and_eq_true] at hissue
    exact hissue.1.1.1.2.2
  have hfirst := pickC_first hgrant (Nat.mod_lt _ hpos) (by rw [hrot]; exact hel)
    (h hissue hlast)
  rw [hfirst, hrot]

lemma held (hsticky : z.sticky = true) {t₀ i : ℕ} (haccepts : Accepts z cycles t₀ i)
    (hlast : ¬ Last cycles t₀ i) (hrivals : Unrivalled z (stateAt z cycles t₀) (cycles t₀)) {d : ℕ}
    (hasks : ∀ u, t₀ < u → u ≤ t₀ + d → Asks z cycles u i)
    (hrun : ∀ u, t₀ < u → u ≤ t₀ + d → Accepts z cycles u i → ¬ Last cycles u i) :
    (stateAt z cycles (t₀ + d + 1)).grant = i ∧ (stateAt z cycles (t₀ + d + 1)).pick = i := by
  obtain ⟨hissue, hpick, hlt⟩ := haccepts.issue
  have hpos : 0 < z.nSources := by omega
  induction d with
  | zero =>
    have hsel : (stateAt z cycles t₀).lastSel z (cycles t₀) = false :=
      Bool.eq_false_iff.mpr fun h => hlast (haccepts.lastSel.mp h)
    constructor
    · rw [Nat.add_zero, grant_succ, if_pos hissue, nextGrant_run hsticky hsel, hpick]
    · exact (pickC_of_unrivalled hpos hsticky hissue hsel hrivals).trans hpick
  | succ d ih =>
    obtain ⟨hgrant', hpick'⟩ := ih (fun u h₁ h₂ => hasks u h₁ (by omega))
      fun u h₁ h₂ => hrun u h₁ (by omega)
    have hask := hasks (t₀ + d + 1) (by omega) (by omega)
    constructor
    · rw [← Nat.add_assoc, grant_succ]
      split
      · next hagain =>
        have hacc : Accepts z cycles (t₀ + d + 1) i := by
          simp [Accepts, srcCmdAck, hagain, hpick']
        have hsel := fun h => hrun _ (by omega) (by omega) hacc (hacc.lastSel.mp h)
        rw [nextGrant_run hsticky (Bool.eq_false_iff.mpr hsel), hpick']
      · exact hgrant'
    · rw [← Nat.add_assoc, pick_succ, pickC_own (hgrant'.symm ▸ hlt) (hgrant'.symm ▸ hask), hgrant']

theorem uninterrupted (hsticky : z.sticky = true)
    (hrivals : ∀ t, Unrivalled z (stateAt z cycles t) (cycles t)) : Uninterrupted z cycles := by
  intro t₀ t i ht haccepts hlast hasks hrun j hj
  obtain ⟨d, rfl⟩ : ∃ d, t = t₀ + d + 1 := ⟨t - t₀ - 1, by omega⟩
  have hheld := held hsticky haccepts hlast (hrivals t₀) (d := d)
    (fun u h₁ h₂ => hasks u h₁ (by omega)) fun u h₁ h₂ => hrun u h₁ (by omega)
  exact hj.issue.2.1.symm.trans hheld.2

/-- In the rotation from `b`, no further than `D`. -/
def Between (n b D x : ℕ) : Prop := ∃ d ≤ D, x = (b + d) % n

lemma between (hsticky : z.sticky = true) {b D t k : ℕ} (hD : D < z.nSources)
    (hk : k = (b + D) % z.nSources)
    (hgrant : Between z.nSources b D (stateAt z cycles t).grant)
    (hpick : (stateAt z cycles t).issue z (cycles t) = true →
      Between z.nSources b D (stateAt z cycles t).pick)
    (hasks : Asks z cycles t k) (hvain : ¬ Accepts z cycles t k) :
    Between z.nSources b D (stateAt z cycles (t + 1)).grant ∧
      Between z.nSources b D (stateAt z cycles (t + 1)).pick := by
  have hpos : 0 < z.nSources := by omega
  obtain ⟨hlt, hplt⟩ := @stateAt_bounds z cycles hsticky hpos t
  constructor
  · rw [grant_succ]
    split
    · next hissue =>
      obtain ⟨p, hp, hpeq⟩ := hpick hissue
      cases hlast : (stateAt z cycles t).lastSel z (cycles t) with
      | false =>
        rw [nextGrant_run hsticky hlast]
        exact ⟨p, hp, hpeq⟩
      | true =>
        have hne : p ≠ D := by
          rintro rfl
          apply hvain
          simp [Accepts, srcCmdAck, hissue, hpeq, hk]
        rw [nextGrant_last hsticky hplt hlast, hpeq, rotate_add]
        exact ⟨p + 1, by omega, rfl⟩
    · exact hgrant
  · obtain ⟨g, hg, hgeq⟩ := hgrant
    have htarget : ((stateAt z cycles t).grant + (D - g)) % z.nSources = k := by
      rw [hgeq, rotate_add, Nat.add_sub_cancel' hg, hk]
    obtain ⟨e, he, hchoice⟩ := pickC_upto hlt (by omega : D - g < z.nSources)
      (by rw [htarget]; exact hasks)
    rw [hgeq, rotate_add] at hchoice
    exact ⟨g + e, by omega, hchoice⟩

theorem oneRunEach (hsticky : z.sticky = true) : OneRunEach z cycles := by
  intro k hk t₁ t₂ hasks hvain j hjk u v hu huv hv hacc hlast hagain
  obtain ⟨hissue, hpick, hj⟩ := hacc.issue
  have hpos : 0 < z.nSources := by omega
  have hsel := hacc.lastSel.mpr hlast
  have hgrant : (stateAt z cycles (u + 1)).grant = (j + 1) % z.nSources := by
    rw [grant_succ, if_pos hissue, nextGrant_last hsticky (hpick ▸ hj) hsel, hpick]
  have hbubble : (stateAt z cycles (u + 1)).issue z (cycles (u + 1)) = false := by
    have hset : (stateAt z cycles (u + 1)).bubble = true := by
      change (z.sticky && (stateAt z cycles u).issue z (cycles u) &&
        (stateAt z cycles u).lastSel z (cycles u)) = true
      rw [hsticky, hissue, hsel]
      rfl
    simp [issue, cmdValid, hset]
  -- the rotation from the source behind `j` reaches `k` before it comes back to `j`
  obtain ⟨D, hD, hkD⟩ : ∃ D, D + 1 < z.nSources ∧ k = (j + 1 + D) % z.nSources := by
    have hrot := rotate_to (Nat.mod_lt (j + 1) hpos) hk
    rw [Nat.mod_add_mod] at hrot
    refine ⟨_, ?_, hrot.symm⟩
    have hmod := Nat.mod_lt (k + z.nSources - (j + 1) % z.nSources) hpos
    by_contra hfar
    have hend : (k + z.nSources - (j + 1) % z.nSources) % z.nSources = z.nSources - 1 := by omega
    rw [hend, Nat.add_assoc, Nat.add_sub_cancel' hpos, Nat.add_mod_right, Nat.mod_eq_of_lt hj] at hrot
    exact hjk hrot
  have hstretch : ∀ d, u + 1 + d < v →
      Between z.nSources (j + 1) D (stateAt z cycles (u + 1 + d + 1)).grant ∧
        Between z.nSources (j + 1) D (stateAt z cycles (u + 1 + d + 1)).pick := by
    intro d hd
    induction d with
    | zero =>
      apply between hsticky (by omega) hkD ⟨0, Nat.zero_le _, hgrant⟩
        (fun h => by rw [Nat.add_zero, hbubble] at h; cases h) (hasks _ (by omega) (by omega))
        (hvain _ (by omega) (by omega))
    | succ d ih =>
      obtain ⟨hg, hp⟩ := ih (by omega)
      exact between hsticky (by omega) hkD hg (fun _ => hp) (hasks _ (by omega) (by omega))
        (hvain _ (by omega) (by omega))
  have hissue' := hagain.issue
  rcases Nat.eq_or_lt_of_le huv with heq | hlt
  · rw [← heq, hbubble] at hissue'
    cases hissue'.1
  · obtain ⟨d, rfl⟩ : ∃ d, v = u + 1 + d + 1 := ⟨v - u - 2, by omega⟩
    obtain ⟨p, hp, hpeq⟩ := (hstretch d (by omega)).2
    rw [hissue'.2.1] at hpeq
    have hback : (j + 1 + (z.nSources - 1)) % z.nSources = j := by
      rw [Nat.add_assoc, Nat.add_sub_cancel' hpos, Nat.add_mod_right, Nat.mod_eq_of_lt hj]
    have hinj := rotate_inj (a := j + 1) (by omega : p < z.nSources)
      (by omega : z.nSources - 1 < z.nSources) (hpeq.symm.trans hback.symm)
    omega

/-- Whatever the sources ask and the memory takes and returns, a run is not interrupted where no
rival stands before its source in the cycle that takes one of its commands; and nobody who asks
waits for two runs of another. -/
theorem sticky_runs (z : ArbiterConfig) (hsticky : z.sticky = true) (cycles : ℕ → ArbiterCycle)
    (hrivals : ∀ t, Unrivalled z (stateAt z cycles t) (cycles t)) :
    Uninterrupted z cycles ∧ OneRunEach z cycles :=
  ⟨uninterrupted hsticky hrivals, oneRunEach hsticky⟩

/-- Two sources, two commands of each in flight. -/
def pairPort : ArbiterConfig := ⟨2, 2, none, true⟩

/-- The memory takes every command. -/
def openPort (asks : ℕ → Bool) : ArbiterCycle := ⟨fun i => ⟨0, asks i, false⟩, true, false, 0⟩

/-- Only source 1 asks. -/
def alone (_ : ℕ) : ArbiterCycle := openPort fun i => i == 1

lemma alone_unrivalled (t : ℕ) : Unrivalled pairPort (stateAt pairPort alone t) (alone t) := by
  intro hissue _ d hd
  have hasks : ∀ {i : ℕ}, (stateAt pairPort alone t).eligible pairPort (alone t) i = true → i = 1 := by
    intro i hi
    simp only [eligible, alone, openPort, Bool.and_eq_true, beq_iff_eq] at hi
    exact hi.1
  have hpick := @hasks (stateAt pairPort alone t).pick (by
    simp only [issue, cmdValid, stillEligible, Bool.and_eq_true] at hissue
    exact hissue.1.1.1.2.2)
  have hgrant : (stateAt pairPort alone t).grant < pairPort.nSources :=
    (stateAt_bounds rfl (by decide) t).1
  have htwo : pairPort.nSources = 2 := rfl
  apply Bool.eq_false_iff.mpr
  intro hel
  have hone := hasks hel
  rw [htwo] at hone hd hgrant
  rw [hpick] at hd
  omega

theorem alone_uninterrupted : Uninterrupted pairPort alone ∧ OneRunEach pairPort alone :=
  sticky_runs pairPort rfl alone alone_unrivalled

/-- Source 1 asks from the start, source 0 from cycle 1 on. -/
def late (t : ℕ) : ArbiterCycle := openPort fun i => i == 1 || decide (1 ≤ t)

/-- Source 0 comes in the cycle that takes the first command of source 1, and slips in. -/
theorem run_interrupted : pairPort.sticky = true ∧ ¬ Uninterrupted pairPort late := by
  refine ⟨rfl, ?_⟩
  intro h
  have hslip := h 1 2 1 (by decide) (by decide +kernel) (by decide +kernel) ?_ ?_ 0 (by decide +kernel)
  · cases hslip
  · intro u h₁ h₂
    obtain rfl : u = 2 := by omega
    decide +kernel
  · intro u h₁ h₂
    omega

end Runs

end PipelinedArbiter

end Ledwall.Gateware
