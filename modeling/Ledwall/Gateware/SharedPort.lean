import Ledwall.Gateware.PipelinedArbiter

/-! The shared memory port gives every source its own words. -/

namespace Ledwall.Gateware

open Library.Rings Library.Runs

/-- The arbiter and the commands the memory has accepted and not answered, each with the source
that was acknowledged; for each source the addresses acknowledged to it, and the words it was
given, each with the address the memory answers with it. -/
structure SharedPort where
  arbiter : PipelinedArbiter := {}
  flight : List (ℕ × BitVec 32) := []
  asked : ℕ → List (BitVec 32) := fun _ => []
  got : ℕ → List (BitVec 32 × BitVec 32) := fun _ => []

namespace SharedPort

variable (z : ArbiterConfig) (s : SharedPort) (c : ArbiterCycle)

/-- The commands of one source among these. -/
def ofSource (i : ℕ) (q : List (ℕ × BitVec 32)) : List (BitVec 32) :=
  (q.filter fun e => e.1 == i).map Prod.snd

def pending (i : ℕ) : List (BitVec 32) := ofSource i s.flight

/-- What is left in flight once the word of this cycle, if there is one, is returned. -/
def left : List (ℕ × BitVec 32) := if c.datValid then s.flight.tail else s.flight

/-- The memory answers in order, so a word is the answer to the oldest command. -/
def next : SharedPort where
  arbiter := s.arbiter.next z c
  flight :=
    s.left c ++ if s.arbiter.issue z c then [(s.arbiter.pick, s.arbiter.cmdAdr z c)] else []
  asked i := s.asked i ++ if s.arbiter.srcCmdAck z c i then [(c.sources i).memAdr] else []
  got i := s.got i ++
    if s.arbiter.srcAck c i then s.flight.head?.toList.map fun e => (e.2, c.dat) else []

/-- The memory answers only what it accepted in an earlier cycle. -/
def Answers : Prop := c.datValid = true → s.flight ≠ []

/-- One cycle of the port as its sources see it, and the state it starts from. -/
structure Serves : Prop where
  accepted : s.arbiter.issue z c = true → ∃ i, i < z.nSources ∧
    s.arbiter.cmdAdr z c = (c.sources i).memAdr ∧ ∀ j, s.arbiter.srcCmdAck z c j = true ↔ j = i
  refused : s.arbiter.issue z c = false → ∀ j, s.arbiter.srcCmdAck z c j = false
  answered : c.datValid = true → ∃ i a rest, s.flight = (i, a) :: rest ∧ i < z.nSources ∧
    ∀ j, s.arbiter.srcAck c j = true ↔ j = i
  silent : c.datValid = false → ∀ j, s.arbiter.srcAck c j = false
  own_words : ∀ i, s.asked i = (s.got i).map Prod.fst ++ s.pending i
  allowance : ∀ i, (s.pending i).length ≤ z.perSource
  tags : Holds z.depth s.arbiter.tags s.arbiter.wptr s.arbiter.rptr (s.flight.map Prod.fst)
  room : s.arbiter.issue z c = true → s.flight.length < z.depth

/-- What every cycle keeps. -/
structure Kept : Prop where
  ring : Holds z.depth s.arbiter.tags s.arbiter.wptr s.arbiter.rptr (s.flight.map Prod.fst)
  count : s.arbiter.count = s.flight.length
  owners : ∀ e ∈ s.flight, e.1 < z.nSources
  outst : ∀ i, s.arbiter.outst i = (s.pending i).length
  allowance : ∀ i, (s.pending i).length ≤ z.perSource
  own_words : ∀ i, s.asked i = (s.got i).map Prod.fst ++ s.pending i

end SharedPort

theorem lt_bitsFor (n : ℕ) : n < 2 ^ bitsFor n :=
  (Nat.lt_size_self n).trans_le (Nat.pow_le_pow_right (by decide) (Nat.le_max_right 1 n.size))

namespace PipelinedArbiter

variable {z : ArbiterConfig} {s : PipelinedArbiter} {c : ArbiterCycle}

theorem count'_eq {bits n m : ℕ} {up down : Bool} (h : n + up.toNat = m + down.toNat)
    (hlt : m < 2 ^ bits) : count' bits n up down = m := by
  rw [count', h, show m + down.toNat + 2 ^ bits - down.toNat = m + 2 ^ bits by omega,
    Nat.add_mod_right, Nat.mod_eq_of_lt hlt]

/-- What an accepted command says of the arbiter. -/
theorem issue_true (h : s.issue z c = true) :
    s.pick < z.nSources ∧ s.outst s.pick ≠ z.perSource ∧ s.count < z.depth := by
  simp only [issue, cmdValid, stillEligible, eligible, Bool.and_eq_true, decide_eq_true_eq,
    bne_iff_ne] at h
  exact ⟨h.1.1.1.2.1, h.1.1.1.2.2.2, h.1.1.2⟩

theorem depth_pos (z : ArbiterConfig) : 0 < z.depth :=
  Nat.lt_of_lt_of_le (by decide) (Nat.le_max_left 2 _)

end PipelinedArbiter

namespace SharedPort

variable {z : ArbiterConfig} {s : SharedPort} {c : ArbiterCycle}

theorem serves (h : s.Kept z) (hlaw : s.Answers c) : s.Serves z c where
  accepted hissue := by
    obtain ⟨hpick, -, -⟩ := PipelinedArbiter.issue_true hissue
    refine ⟨s.arbiter.pick, hpick, if_pos hpick, ?_⟩
    intro j
    rw [PipelinedArbiter.srcCmdAck, hissue, Bool.true_and, beq_iff_eq]
    exact eq_comm
  refused hissue j := by
    rw [PipelinedArbiter.srcCmdAck, hissue, Bool.false_and]
  answered hvalid := by
    obtain ⟨⟨i, a⟩, rest, hflight⟩ := List.exists_cons_of_ne_nil (hlaw hvalid)
    refine ⟨i, a, rest, hflight, h.owners (i, a) (by rw [hflight]; exact List.mem_cons_self), ?_⟩
    intro j
    have hring := h.ring
    rw [hflight, List.map_cons] at hring
    rw [PipelinedArbiter.srcAck, hvalid, Bool.true_and, hring.head, beq_iff_eq]
    exact eq_comm
  silent hvalid j := by
    rw [PipelinedArbiter.srcAck, hvalid, Bool.false_and]
  own_words := h.own_words
  allowance := h.allowance
  tags := h.ring
  room hissue := by
    rw [← h.count]
    exact (PipelinedArbiter.issue_true hissue).2.2

theorem ofSource_append (i : ℕ) (q q' : List (ℕ × BitVec 32)) :
    ofSource i (q ++ q') = ofSource i q ++ ofSource i q' := by
  rw [ofSource, List.filter_append, List.map_append, ofSource, ofSource]

theorem ofSource_cons (i j : ℕ) (a : BitVec 32) (q : List (ℕ × BitVec 32)) :
    ofSource i ((j, a) :: q) = (if j = i then [a] else []) ++ ofSource i q := by
  by_cases h : j = i <;> simp [ofSource, h]

/-- The word of a cycle goes to the source whose command is the oldest. -/
theorem returned (h : s.Kept z) (hlaw : s.Answers c) (i : ℕ) :
    s.pending i = (if s.arbiter.srcAck c i then s.flight.head?.toList.map Prod.snd else []) ++
        ofSource i (s.left c) ∧
      (s.pending i).length = (ofSource i (s.left c)).length + (s.arbiter.srcAck c i).toNat := by
  cases hvalid : c.datValid with
  | false =>
    have hack : s.arbiter.srcAck c i = false := by
      rw [PipelinedArbiter.srcAck, hvalid, Bool.false_and]
    simp [hack, left, hvalid, pending]
  | true =>
    obtain ⟨⟨j, a⟩, rest, hflight⟩ := List.exists_cons_of_ne_nil (hlaw hvalid)
    have hring := h.ring
    rw [hflight, List.map_cons] at hring
    have hack : s.arbiter.srcAck c i = decide (j = i) := by
      rw [PipelinedArbiter.srcAck, hvalid, Bool.true_and, hring.head]
      rfl
    have hleft : s.left c = rest := by
      rw [left, hvalid, hflight]
      rfl
    rw [pending, hleft, hflight, ofSource_cons, hack]
    by_cases hj : j = i <;> simp [hj, Nat.add_comm]

/-- The tag ring once the word is returned. -/
theorem ring_left (h : s.Kept z) (hlaw : s.Answers c) :
    Holds z.depth s.arbiter.tags s.arbiter.wptr (s.arbiter.next z c).rptr
      ((s.left c).map Prod.fst) := by
  have hring := h.ring
  rw [PipelinedArbiter.next, left]
  dsimp only
  cases hvalid : c.datValid with
  | false => exact hring
  | true =>
    obtain ⟨e, rest, hflight⟩ := List.exists_cons_of_ne_nil (hlaw hvalid)
    rw [hflight, List.map_cons] at hring
    rw [hflight]
    exact hring.pop

theorem length_left (hlaw : s.Answers c) :
    s.flight.length = (s.left c).length + c.datValid.toNat := by
  rw [left]
  cases hvalid : c.datValid with
  | false => rfl
  | true =>
    obtain ⟨e, rest, hflight⟩ := List.exists_cons_of_ne_nil (hlaw hvalid)
    rw [hflight]
    rfl

/-- The commands of a source after the cycle. -/
theorem pending_next (i : ℕ) : (s.next z c).pending i =
    ofSource i (s.left c) ++ if s.arbiter.srcCmdAck z c i then [s.arbiter.cmdAdr z c] else [] := by
  rw [pending, next, ofSource_append, PipelinedArbiter.srcCmdAck]
  congr 1
  cases s.arbiter.issue z c with
  | false => rfl
  | true =>
    rw [if_pos rfl, ofSource_cons, Bool.true_and]
    by_cases hi : s.arbiter.pick = i <;> simp [hi, ofSource]

theorem kept_next (h : s.Kept z) (hlaw : s.Answers c) : (s.next z c).Kept z := by
  have hleft (e : ℕ × BitVec 32) (he : e ∈ s.left c) : e ∈ s.flight := by
    rw [left] at he
    split at he
    · exact List.mem_of_mem_tail he
    · exact he
  have hcmd (i : ℕ) (hi : s.arbiter.srcCmdAck z c i = true) :
      s.arbiter.issue z c = true ∧ s.arbiter.pick = i := by
    rwa [PipelinedArbiter.srcCmdAck, Bool.and_eq_true, beq_iff_eq] at hi
  have hlen := length_left (s := s) hlaw
  have hroom (hissue : s.arbiter.issue z c = true) : s.flight.length < z.depth := by
    rw [← h.count]
    exact (PipelinedArbiter.issue_true hissue).2.2
  -- a source that is granted a command is under its allowance
  have hpending (i : ℕ) : ((s.next z c).pending i).length + (s.arbiter.srcAck c i).toNat =
      (s.pending i).length + (s.arbiter.srcCmdAck z c i).toNat := by
    rw [pending_next, (returned h hlaw i).2, List.length_append]
    cases s.arbiter.srcCmdAck z c i
    · simp
    · simp only [if_true, List.length_singleton, Bool.toNat_true]
      omega
  have hunder (i : ℕ) (hi : s.arbiter.srcCmdAck z c i = true) :
      (s.pending i).length < z.perSource := by
    obtain ⟨hissue, rfl⟩ := hcmd i hi
    have hne := (PipelinedArbiter.issue_true hissue).2.1
    rw [h.outst] at hne
    exact lt_of_le_of_ne (h.allowance _) hne
  have hallowance (i : ℕ) : ((s.next z c).pending i).length ≤ z.perSource := by
    have hi := hpending i
    have hle := h.allowance i
    cases hack : s.arbiter.srcCmdAck z c i with
    | false =>
      rw [hack, Bool.toNat_false] at hi
      omega
    | true =>
      have := hunder i hack
      rw [hack, Bool.toNat_true] at hi
      omega
  have hring : Holds z.depth (s.next z c).arbiter.tags (s.next z c).arbiter.wptr
      (s.next z c).arbiter.rptr ((s.next z c).flight.map Prod.fst) := by
    have hring := ring_left h hlaw
    rw [next, List.map_append]
    cases hissue : s.arbiter.issue z c with
    | false =>
      simpa only [PipelinedArbiter.next, hissue, Bool.false_eq_true, if_false, List.map_nil,
        List.append_nil] using hring
    | true =>
      have hpush := hring.push (by
        have := hroom hissue
        rw [List.length_map]
        omega) s.arbiter.pick
      simpa only [PipelinedArbiter.next, hissue, if_true, List.map_cons, List.map_nil] using hpush
  exact
    { ring := hring
      allowance := hallowance
      count := by
        apply PipelinedArbiter.count'_eq
        · rw [h.count, hlen, next, List.length_append]
          cases s.arbiter.issue z c
          · simp
          · simp only [if_true, List.length_singleton, Bool.toNat_true]
            omega
        · have := hring.room
          rw [List.length_map] at this
          exact this.trans_lt (lt_bitsFor z.depth)
      owners := by
        intro e he
        rcases List.mem_append.mp he with he | he
        · exact h.owners e (hleft e he)
        · split at he
          · next hissue =>
            rw [List.mem_singleton.mp he]
            exact (PipelinedArbiter.issue_true hissue).1
          · cases he
      outst := by
        intro i
        apply PipelinedArbiter.count'_eq
        · rw [h.outst]
          exact (hpending i).symm
        · exact (hallowance i).trans_lt (lt_bitsFor z.perSource)
      own_words := by
        intro i
        have hadr (hi : s.arbiter.srcCmdAck z c i = true) :
            s.arbiter.cmdAdr z c = (c.sources i).memAdr := by
          obtain ⟨hissue, rfl⟩ := hcmd i hi
          exact if_pos (PipelinedArbiter.issue_true hissue).1
        rw [pending_next, next]
        dsimp only
        rw [h.own_words, (returned h hlaw i).1, List.map_append]
        have hwords : (if s.arbiter.srcAck c i then
              s.flight.head?.toList.map fun e => (e.2, c.dat) else []).map Prod.fst =
            if s.arbiter.srcAck c i then s.flight.head?.toList.map Prod.snd else [] := by
          split
          · rw [List.map_map]
            rfl
          · rfl
        rw [hwords]
        cases hi : s.arbiter.srcCmdAck z c i with
        | false => simp
        | true => simp [hadr hi] }

/-- Whatever the sources ask and however the memory answers in order, every cycle serves. -/
theorem port_serves (z : ArbiterConfig) (cycles : List ArbiterCycle)
    (hlaw : Always (fun s c s' => s' = s.next z c) Answers {} cycles) :
    Always (fun s c s' => s' = s.next z c) (Serves z) {} cycles := by
  refine Always.of_safe (I := Kept z) (C := Answers) ?_ ?_ ?_ hlaw
  · rintro s c _ hs hc rfl
    exact kept_next hs hc
  · intro s c hs hc
    exact serves hs hc
  · exact
      { ring := Holds.empty (PipelinedArbiter.depth_pos z) _
        count := rfl
        owners := fun e he => by cases he
        outst := fun _ => rfl
        allowance := fun _ => Nat.zero_le _
        own_words := fun _ => rfl }

/-- Two sources ask at once, and the memory answers the first command while it takes the second. -/
def twoReads : List ArbiterCycle :=
  let asking (valid : Bool) : ArbiterCycle := ⟨fun i => ⟨.ofNat 32 i, true, true⟩, true, valid, 7⟩
  [asking false, asking false, asking true]

theorem twoReads_served :
    Always (fun s c s' => s' = s.next { nSources := 2 } c) (Serves { nSources := 2 }) {} twoReads := by
  apply port_serves { nSources := 2 } twoReads
  refine ⟨fun h => Bool.noConfusion h, ?_⟩
  rintro _ rfl
  refine ⟨fun h => Bool.noConfusion h, ?_⟩
  rintro _ rfl
  refine ⟨fun _ => List.cons_ne_nil _ _, fun _ _ => trivial⟩

end SharedPort

end Ledwall.Gateware
