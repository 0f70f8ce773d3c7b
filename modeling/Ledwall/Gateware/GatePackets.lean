import Ledwall.Gateware.SmolEth
import Ledwall.Library.Packets
import Ledwall.Library.Runs

/-! The packets that `AlwaysReady` lets through, along every run of its two ends. -/

namespace Ledwall.Gateware

open Ledwall.Library.Packets Ledwall.Library.Runs

/-- Packets as they come out: whole, or a proper prefix and a terminator, in the order they went in.
The number counts those cut short. -/
inductive Delivered : List (List PhyBeat) → List (List PhyBeat) → ℕ → Prop
  | none : Delivered [] [] 0
  | whole {ins outs n} (p) (h : Delivered ins outs n) : Delivered (ins ++ [p]) (outs ++ [p]) n
  | cutShort {ins outs n p q t} (h : Delivered ins outs n) (hq : q <+: p) (hne : q ≠ p)
    (ht : t.last = true) : Delivered (ins ++ [p]) (outs ++ [q ++ [t]]) (n + 1)

/-- How the packet coming in fares: it goes through, it is being cut, it has been cut, or the packet
before it still waits for its terminator. -/
inductive Phase
  | through
  | cutting
  | cut
  | owed

/-- `Delivered`, with packets under way at either end. -/
inductive Carried (ins outs : Cut PhyBeat) : Phase → ℕ → Prop
  | through {n} (h : Delivered ins.packets outs.packets n) (hr : outs.rest = ins.rest) :
    Carried ins outs .through n
  | cutting {n} (h : Delivered ins.packets outs.packets n) (hq : outs.rest <+: ins.rest)
    (hne : outs.rest ≠ ins.rest) : Carried ins outs .cutting (n + 1)
  | cut {n ps q t} (h : Delivered ins.packets ps n) (hout : outs.packets = ps ++ [q ++ [t]])
    (hq : q <+: ins.rest) (hne : q ≠ ins.rest) (ht : t.last = true) (hr : outs.rest = []) :
    Carried ins outs .cut (n + 1)
  | owed {n ps p} (h : Delivered ps outs.packets n) (hin : ins.packets = ps ++ [p])
    (hr : ins.rest = []) (hq : outs.rest <+: p) (hne : outs.rest ≠ p) :
    Carried ins outs .owed (n + 1)

lemma Delivered.sources {ins outs : List (List PhyBeat)} {n : ℕ} (h : Delivered ins outs n) :
    ∀ o ∈ outs, ∃ p ∈ ins, o = p ∨ o.dropLast <+: p := by
  induction h with
  | none => nofun
  | whole p h ih =>
    intro o ho
    rcases List.mem_append.mp ho with ho | ho
    · obtain ⟨q, hq, hs⟩ := ih o ho
      exact ⟨q, List.mem_append_left _ hq, hs⟩
    · exact ⟨p, List.mem_append_right _ (List.mem_singleton.mpr rfl), .inl (List.mem_singleton.mp ho)⟩
  | @cutShort ins outs n p q t h hq hne ht ih =>
    intro o ho
    rcases List.mem_append.mp ho with ho | ho
    · obtain ⟨u, hu, hs⟩ := ih o ho
      exact ⟨u, List.mem_append_left _ hu, hs⟩
    · refine ⟨p, List.mem_append_right _ (List.mem_singleton.mpr rfl), .inr ?_⟩
      rw [List.mem_singleton.mp ho, List.dropLast_concat]
      exact hq

lemma Carried.sources {ins outs : Cut PhyBeat} {phase : Phase} {n : ℕ}
    (h : Carried ins outs phase n) :
    ∀ o ∈ outs.packets, ∃ p, (p ∈ ins.packets ∨ p = ins.rest) ∧ (o = p ∨ o.dropLast <+: p) := by
  intro o ho
  cases h with
  | through h hr =>
    obtain ⟨p, hp, hs⟩ := h.sources o ho
    exact ⟨p, .inl hp, hs⟩
  | cutting h hq hne =>
    obtain ⟨p, hp, hs⟩ := h.sources o ho
    exact ⟨p, .inl hp, hs⟩
  | cut h hout hq hne ht hr =>
    rw [hout] at ho
    rcases List.mem_append.mp ho with ho | ho
    · obtain ⟨p, hp, hs⟩ := h.sources o ho
      exact ⟨p, .inl hp, hs⟩
    · refine ⟨ins.rest, .inr rfl, .inr ?_⟩
      rw [List.mem_singleton.mp ho, List.dropLast_concat]
      exact hq
  | owed h hin hr hq hne =>
    obtain ⟨p, hp, hs⟩ := h.sources o ho
    refine ⟨p, .inl ?_, hs⟩
    rw [hin]
    exact List.mem_append_left _ hp

namespace AlwaysReady

def accepted (s : AlwaysReady) (i : Ends) : Option PhyBeat :=
  if s.sourceValid i && i.ready then some (s.sourceBeat i) else none

def offered (i : Ends) : Option PhyBeat := if i.valid then some i.sink else none

/-- Downstream takes the last beat of every packet that is going through, and has taken the
terminator of a packet it cut before the next one starts. -/
def Heeded (s : AlwaysReady) (i : Ends) : Prop :=
  i.valid = true →
    (s.needLast = true → s.dropping = true) ∧
      (i.sink.last = true → s.dropping = false → s.needLast = false → i.ready = true)

end AlwaysReady

/-- The gate with what has gone in and what has come out. -/
structure Gate where
  gate : AlwaysReady := {}
  ins : List PhyBeat := []
  outs : List PhyBeat := []

namespace Gate

def next (w : Gate) (i : Ends) : Gate :=
  ⟨w.gate.next i, w.ins ++ (AlwaysReady.offered i).toList, w.outs ++ (w.gate.accepted i).toList⟩

def Step (w : Gate) (i : Ends) (w' : Gate) : Prop := w' = w.next i

def after (w : Gate) (is : List Ends) : Gate := is.foldl next w

/-- Every packet has come out as it went in, or cut short and counted. -/
def Separates (w : Gate) : Prop :=
  ∃ phase n, w.gate.dropped = BitVec.ofNat 32 n ∧
    Carried (cut PhyBeat.last w.ins) (cut PhyBeat.last w.outs) phase n

end Gate

namespace AlwaysReady

def phase (s : AlwaysReady) : Phase :=
  match s.dropping, s.needLast with
  | false, false => .through
  | true, true => .cutting
  | true, false => .cut
  | false, true => .owed

variable {s : AlwaysReady} {i : Ends} {ins outs : Cut PhyBeat} {n : ℕ}

/-- The beats that pass in one cycle, pushed onto what has passed. -/
def push (c : Cut PhyBeat) (b : Option PhyBeat) : Cut PhyBeat := b.elim c (c.push PhyBeat.last)

/-- The packet is not refused, or not for the first time: the count stays. -/
def Steps (s : AlwaysReady) (i : Ends) (ins outs : Cut PhyBeat) (n : ℕ) : Prop :=
  ∃ m, (s.next i).dropped = s.dropped + BitVec.ofNat 32 m ∧
    Carried (push ins (offered i)) (push outs (s.accepted i)) (s.next i).phase (n + m)

lemma Carried.pass (h : Delivered ins.packets outs.packets n) (hr : outs.rest = ins.rest)
    (b : PhyBeat) : Carried (ins.push PhyBeat.last b) (outs.push PhyBeat.last b) .through n := by
  cases hb : b.last with
  | true =>
    rw [Cut.push_last hb, Cut.push_last hb, hr]
    exact .through (h.whole _) rfl
  | false =>
    rw [Cut.push_mid hb, Cut.push_mid hb, hr]
    exact .through h rfl

lemma steps_through (hd : s.dropping = false) (hn : s.needLast = false) (hi : s.Heeded i)
    (h : Delivered ins.packets outs.packets n) (hr : outs.rest = ins.rest) :
    s.Steps i ins outs n := by
  have hbeat : s.sourceBeat i = i.sink := by simp only [sourceBeat, hn, Bool.false_or]
  cases hv : i.valid with
  | false =>
    refine ⟨0, ?_, ?_⟩
    · simp [next, hv]
    · have hp : (s.next i).phase = .through := by simp [next, hv, phase, hd, hn]
      have ho : offered i = none := by simp [offered, hv]
      have ha : s.accepted i = none := by simp [accepted, sourceValid, hv, hn]
      rw [hp, ho, ha]
      exact .through h hr
  | true =>
    have ho : offered i = some i.sink := by simp [offered, hv]
    cases hk : i.ready with
    | true =>
      have ha : s.accepted i = some i.sink := by
        simp [accepted, sourceValid, hv, hd, hk, hbeat]
      have hp : (s.next i).phase = .through := by
        cases hl : i.sink.last <;> simp [next, hv, hl, refused, hk, phase, hd, hn]
      refine ⟨0, ?_, ?_⟩
      · cases hl : i.sink.last <;> simp [next, hv, hl, refused, hk]
      · rw [hp, ho, ha]
        exact Carried.pass h hr i.sink
    | false =>
      -- Only a beat inside the packet can be refused.
      have hl : i.sink.last = false := by
        by_contra hl
        have := (hi hv).2 (Bool.not_eq_false _ ▸ hl) hd hn
        rw [hk] at this
        cases this
      have ha : s.accepted i = none := by simp [accepted, hk]
      have hp : (s.next i).phase = .cutting := by simp [next, hv, hl, refused, hk, phase, hd, hn]
      refine ⟨1, ?_, ?_⟩
      · simp [next, hv, hl, refused, hk, hd, hn]
      · rw [hp, ho, ha]
        have hpush : push ins (some i.sink) = ⟨ins.packets, ins.rest ++ [i.sink]⟩ :=
          Cut.push_mid hl
        rw [hpush]
        obtain ⟨hq, hne⟩ := prefix_snoc (q := outs.rest) (by rw [hr]) i.sink
        exact .cutting h hq hne

lemma accepted_terminator (hn : s.needLast = true) (hk : i.ready = true) :
    ∃ t, t.last = true ∧ s.accepted i = some t := by
  refine ⟨s.sourceBeat i, ?_, ?_⟩
  · simp [sourceBeat, hn]
  · simp [accepted, sourceValid, hn, hk]

lemma push_terminator {t : PhyBeat} (ht : t.last = true) :
    push outs (some t) = ⟨outs.packets ++ [outs.rest ++ [t]], []⟩ := Cut.push_last ht

lemma steps_cutting (hd : s.dropping = true) (hn : s.needLast = true)
    (h : Delivered ins.packets outs.packets n) (hq : outs.rest <+: ins.rest)
    (hne : outs.rest ≠ ins.rest) : s.Steps i ins outs (n + 1) := by
  have hdropped : (s.next i).dropped = s.dropped + BitVec.ofNat 32 0 := by
    cases hv : i.valid <;> cases hl : i.sink.last <;> simp [next, hv, hl, refused, hd]
  refine ⟨0, hdropped, ?_⟩
  cases hk : i.ready with
  | false =>
    have ha : s.accepted i = none := by simp [accepted, hk]
    rw [ha]
    cases hv : i.valid with
    | false =>
      have hp : (s.next i).phase = .cutting := by simp [next, hv, hk, phase, hd, hn]
      have ho : offered i = none := by simp [offered, hv]
      rw [hp, ho]
      exact .cutting h hq hne
    | true =>
      have ho : offered i = some i.sink := by simp [offered, hv]
      obtain ⟨hq', hne'⟩ := prefix_snoc hq i.sink
      cases hl : i.sink.last with
      | false =>
        have hp : (s.next i).phase = .cutting := by
          simp [next, hv, hl, refused, hk, phase, hd, hn]
        rw [hp, ho, show push ins (some i.sink) = _ from Cut.push_mid hl]
        exact .cutting h hq' hne'
      | true =>
        have hp : (s.next i).phase = .owed := by simp [next, hv, hl, hk, phase, hn]
        rw [hp, ho, show push ins (some i.sink) = _ from Cut.push_last hl]
        exact .owed h rfl rfl hq' hne'
  | true =>
    obtain ⟨t, ht, ha⟩ := accepted_terminator hn hk
    rw [ha, push_terminator ht]
    cases hv : i.valid with
    | false =>
      have hp : (s.next i).phase = .cut := by simp [next, hv, hk, phase, hd]
      have ho : offered i = none := by simp [offered, hv]
      rw [hp, ho]
      exact .cut h rfl hq hne ht rfl
    | true =>
      have ho : offered i = some i.sink := by simp [offered, hv]
      obtain ⟨hq', hne'⟩ := prefix_snoc hq i.sink
      cases hl : i.sink.last with
      | false =>
        have hp : (s.next i).phase = .cut := by simp [next, hv, hl, refused, hk, phase, hd]
        rw [hp, ho, show push ins (some i.sink) = _ from Cut.push_mid hl]
        exact .cut h rfl hq' hne' ht rfl
      | true =>
        have hp : (s.next i).phase = .through := by simp [next, hv, hl, hk, phase]
        rw [hp, ho, show push ins (some i.sink) = _ from Cut.push_last hl]
        exact .through (h.cutShort hq' hne' ht) rfl

lemma steps_cut {ps : List (List PhyBeat)} {q : List PhyBeat} {t : PhyBeat}
    (hd : s.dropping = true) (hn : s.needLast = false) (h : Delivered ins.packets ps n)
    (hout : outs.packets = ps ++ [q ++ [t]]) (hq : q <+: ins.rest) (hne : q ≠ ins.rest)
    (ht : t.last = true) (hr : outs.rest = []) : s.Steps i ins outs (n + 1) := by
  have ha : s.accepted i = none := by simp [accepted, sourceValid, hd, hn]
  refine ⟨0, ?_, ?_⟩
  · cases hv : i.valid <;> cases hl : i.sink.last <;> simp [next, hv, hl, refused, hd]
  · rw [ha]
    cases hv : i.valid with
    | false =>
      have hp : (s.next i).phase = .cut := by simp [next, hv, phase, hd, hn]
      have ho : offered i = none := by simp [offered, hv]
      rw [hp, ho]
      exact .cut h hout hq hne ht hr
    | true =>
      have ho : offered i = some i.sink := by simp [offered, hv]
      obtain ⟨hq', hne'⟩ := prefix_snoc hq i.sink
      cases hl : i.sink.last with
      | false =>
        have hp : (s.next i).phase = .cut := by simp [next, hv, hl, refused, phase, hd, hn]
        rw [hp, ho, show push ins (some i.sink) = _ from Cut.push_mid hl]
        exact .cut h hout hq' hne' ht hr
      | true =>
        have hp : (s.next i).phase = .through := by simp [next, hv, hl, phase, hn]
        rw [hp, ho, show push ins (some i.sink) = _ from Cut.push_last hl]
        apply Carried.through
        · change Delivered _ outs.packets _
          rw [hout]
          exact h.cutShort hq' hne' ht
        · exact hr

lemma steps_owed {ps : List (List PhyBeat)} {p : List PhyBeat} (hd : s.dropping = false)
    (hn : s.needLast = true) (hi : s.Heeded i) (h : Delivered ps outs.packets n)
    (hin : ins.packets = ps ++ [p]) (hr : ins.rest = []) (hq : outs.rest <+: p)
    (hne : outs.rest ≠ p) : s.Steps i ins outs (n + 1) := by
  have hv : i.valid = false := by
    by_contra hv
    have := (hi (Bool.not_eq_false _ ▸ hv)).1 hn
    rw [hd] at this
    cases this
  have ho : offered i = none := by simp [offered, hv]
  refine ⟨0, ?_, ?_⟩
  · simp [next, hv]
  · rw [ho]
    cases hk : i.ready with
    | false =>
      have ha : s.accepted i = none := by simp [accepted, hk]
      have hp : (s.next i).phase = .owed := by simp [next, hv, hk, phase, hd, hn]
      rw [ha, hp]
      exact .owed h hin hr hq hne
    | true =>
      obtain ⟨t, ht, ha⟩ := accepted_terminator hn hk
      have hp : (s.next i).phase = .through := by simp [next, hv, hk, phase, hd]
      rw [ha, hp, push_terminator ht]
      apply Carried.through
      · change Delivered ins.packets _ _
        rw [hin]
        exact h.cutShort hq hne ht
      · exact hr.symm

lemma phase_through (h : s.phase = .through) : s.dropping = false ∧ s.needLast = false := by
  rw [phase] at h
  split at h <;> simp_all

lemma phase_cutting (h : s.phase = .cutting) : s.dropping = true ∧ s.needLast = true := by
  rw [phase] at h
  split at h <;> simp_all

lemma phase_cut (h : s.phase = .cut) : s.dropping = true ∧ s.needLast = false := by
  rw [phase] at h
  split at h <;> simp_all

lemma phase_owed (h : s.phase = .owed) : s.dropping = false ∧ s.needLast = true := by
  rw [phase] at h
  split at h <;> simp_all

theorem steps (hi : s.Heeded i) (h : Carried ins outs s.phase n) : s.Steps i ins outs n := by
  generalize hp : s.phase = p at h
  cases h with
  | through h hr =>
    obtain ⟨hd, hn⟩ := phase_through hp
    exact steps_through hd hn hi h hr
  | cutting h hq hne =>
    obtain ⟨hd, hn⟩ := phase_cutting hp
    exact steps_cutting hd hn h hq hne
  | cut h hout hq hne ht hr =>
    obtain ⟨hd, hn⟩ := phase_cut hp
    exact steps_cut hd hn h hout hq hne ht hr
  | owed h hin hr hq hne =>
    obtain ⟨hd, hn⟩ := phase_owed hp
    exact steps_owed hd hn hi h hin hr hq hne

end AlwaysReady

namespace Gate

/-- The invariant: how the packet fares is what the flags say. -/
def Inv (w : Gate) : Prop :=
  ∃ n, w.gate.dropped = BitVec.ofNat 32 n ∧
    Carried (cut PhyBeat.last w.ins) (cut PhyBeat.last w.outs) w.gate.phase n

lemma cut_passed (bs : List PhyBeat) (b : Option PhyBeat) :
    cut PhyBeat.last (bs ++ b.toList) = AlwaysReady.push (cut PhyBeat.last bs) b := by
  cases b with
  | none => exact congrArg _ (List.append_nil bs)
  | some b => exact cut_snoc bs b

lemma Inv.next {w : Gate} {i : Ends} (h : w.Inv) (hi : w.gate.Heeded i) : (w.next i).Inv := by
  obtain ⟨n, hd, hc⟩ := h
  obtain ⟨m, hm, hc'⟩ := AlwaysReady.steps hi hc
  refine ⟨n + m, ?_, ?_⟩
  · change (w.gate.next i).dropped = _
    rw [hm, hd, BitVec.ofNat_add]
  · simp only [Gate.next, cut_passed]
    exact hc'

lemma run_after (w : Gate) (is : List Ends) : Run Step w is (w.after is) := by
  induction is generalizing w with
  | nil => exact .nil w
  | cons i is ih => exact .cons rfl (ih (w.next i))

/-- In every run in which downstream heeds the gate, no packets are merged. -/
theorem separates_of_heeded (is : List Ends)
    (h : Always Step (fun w i => w.gate.Heeded i) {} is) : (after {} is).Separates := by
  have hstart : Inv {} := ⟨0, rfl, .through .none rfl⟩
  have hinv : (after {} is).Inv := by
    refine (run_after {} is).invariant ?_ hstart h
    rintro w i w' hw hi rfl
    exact hw.next hi
  obtain ⟨n, hd, hc⟩ := hinv
  exact ⟨_, n, hd, hc⟩

def beat (data : BitVec 32) (last : Bool) : PhyBeat := ⟨data, 0, 0, last⟩

/-- A packet of three beats cut at its second, downstream ready again after two cycles. -/
def cutRun : List Ends :=
  [⟨true, beat 1 false, true⟩, ⟨true, beat 2 false, false⟩, ⟨true, beat 3 true, true⟩]

theorem separates_of_heeded_cutRun : (after {} cutRun).Separates := by
  apply separates_of_heeded
  refine ⟨fun _ => ⟨nofun, nofun⟩, ?_⟩
  rintro _ rfl
  refine ⟨fun _ => ⟨nofun, nofun⟩, ?_⟩
  rintro _ rfl
  refine ⟨fun _ => ⟨fun _ => rfl, fun _ _ _ => rfl⟩, ?_⟩
  rintro _ rfl
  trivial

/-- Two packets of two beats, back to back, downstream refusing the last beat of the first. -/
def refusedLast : List Ends :=
  [⟨true, beat 1 false, true⟩, ⟨true, beat 2 true, false⟩, ⟨true, beat 3 false, true⟩,
    ⟨true, beat 4 true, true⟩]

theorem refusedLast_merges : ¬ (after {} refusedLast).Separates := by
  rintro ⟨phase, n, -, h⟩
  have hin : cut PhyBeat.last (after {} refusedLast).ins =
      ⟨[[beat 1 false, beat 2 true], [beat 3 false, beat 4 true]], []⟩ := by rfl
  have hout : cut PhyBeat.last (after {} refusedLast).outs =
      ⟨[[beat 1 false, beat 3 false, beat 4 true]], []⟩ := by rfl
  rw [hin, hout] at h
  obtain ⟨p, hp, hpre⟩ := h.sources _ (List.mem_singleton.mpr rfl)
  have hcases : p = [beat 1 false, beat 2 true] ∨ p = [beat 3 false, beat 4 true] ∨ p = [] := by
    simpa [or_assoc] using hp
  rcases hcases with rfl | rfl | rfl <;> revert hpre <;> decide

end Gate

end Ledwall.Gateware
