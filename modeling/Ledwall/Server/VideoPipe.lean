import Mathlib.Data.List.Basic
import Mathlib.Tactic

/-! The pipe of a decoder: frames of one size read from it in pieces, a bounded wait at a time. -/

namespace Ledwall.Server.Video

/-- What a process writes: its bytes, and how many there are before it closes the pipe, if it ever
does. -/
structure Output (β : Type) where
  byte : ℕ → β
  length : Option ℕ

/-- What a turn of the loop that waits for the pipe meets. -/
inductive Poll
  | expired
  | ready (k : ℕ)
  | fault

/-- A process, how much of it has been read, and the bytes of a frame that is not complete. -/
structure Pipe (β : Type) where
  output : Output β
  pos : ℕ
  pending : List β

section Reading

variable {β : Type}

/-- `n` bytes from a position on. -/
def Output.bytes (o : Output β) (pos n : ℕ) : List β := (List.range' pos n).map o.byte

/-- How many of the `n` bytes behind a position there are. -/
def Output.left (o : Output β) (pos n : ℕ) : ℕ :=
  match o.length with
  | none => n
  | some l => min n (l - pos)

/-- What a read of `n` bytes leaves. -/
def Pipe.advance (p : Pipe β) (n : ℕ) : Pipe β :=
  { p with pos := p.pos + n, pending := p.pending ++ p.output.bytes p.pos n }

variable (frameBytes : ℕ)

/-- A whole frame, taken off the front of what is pending. -/
def Pipe.cut (p : Pipe β) : Option (List β) × Pipe β :=
  (some (p.pending.take frameBytes), { p with pending := p.pending.drop frameBytes })

/-- `_read_frame`: a frame, less than one at the end of the file, or `none` when the wait is over. A
read brings what is there, at least a byte of it and no more than the frame wants. -/
def Pipe.readFrame : List Poll → Pipe β → Option (List β) × Pipe β
  | [], p => if frameBytes ≤ p.pending.length then p.cut frameBytes else (none, p)
  | poll :: polls, p =>
    if frameBytes ≤ p.pending.length then p.cut frameBytes
    else match poll with
      | .expired => (none, p)
      | .fault => (some [], p)
      | .ready k =>
        let n := p.output.left p.pos (min (max 1 k) (frameBytes - p.pending.length))
        if n = 0 then (some p.pending, { p with pending := [] })
        else (p.advance n).readFrame polls

end Reading

section Meaning

variable {β : Type}

/-- The sizes that a wait's reads ask the pipe for, one after the other. -/
def reads : List Poll → List ℕ
  | .ready k :: polls => max 1 k :: reads polls
  | _ => []

/-- The wait is broken off by an error of the pipe. -/
def Faulty : List Poll → Prop
  | .ready _ :: polls => Faulty polls
  | .fault :: _ => True
  | _ => False

/-- The `n`-th frame of a stream. -/
def Output.frame (o : Output β) (frameBytes n : ℕ) : List β := o.bytes (n * frameBytes) frameBytes

variable (frameBytes : ℕ) (p : Pipe β)

/-- What is missing of the frame, and how much of that the stream still has. -/
def Pipe.need : ℕ := frameBytes - p.pending.length

def Pipe.rest : ℕ := p.output.left p.pos (p.need frameBytes)

/-- The wait brings the rest of a frame. -/
def Pipe.Completes (polls : List Poll) : Prop :=
  p.rest frameBytes = p.need frameBytes ∧ p.need frameBytes ≤ (reads polls).sum

/-- Fewer bytes remain than a frame wants, and the wait brings them and one read more, which finds the
end of the file. -/
def Pipe.Ends (polls : List Poll) : Prop :=
  p.rest frameBytes < p.need frameBytes ∧ reads polls ≠ [] ∧
    p.rest frameBytes ≤ (reads polls).dropLast.sum

/-- The wait is over before either. -/
def Pipe.TimesOut (polls : List Poll) : Prop :=
  ¬ p.Completes frameBytes polls ∧ ¬ p.Ends frameBytes polls ∧ ¬ Faulty polls

/-- No more has been read than the stream has. -/
def Pipe.Within : Prop := ∀ l, p.output.length = some l → p.pos ≤ l

/-- `n` frames of the stream have been cut off: what is pending starts the next one, or the end of the
stream has been reached inside it. -/
structure Pipe.Aligned (n : ℕ) : Prop where
  within : p.Within
  short : p.pending.length < frameBytes
  place : (p.pending = p.output.bytes (n * frameBytes) p.pending.length ∧
      p.pos = n * frameBytes + p.pending.length) ∨
    p.pending = [] ∧ p.output.length = some p.pos ∧ n * frameBytes ≤ p.pos ∧
      p.pos < (n + 1) * frameBytes

end Meaning

section Waiting

variable {β : Type} {frameBytes : ℕ} {p : Pipe β} {o : Output β} {polls : List Poll} {n m k : ℕ}

@[simp] lemma bytes_length (o : Output β) (pos n : ℕ) : (o.bytes pos n).length = n := by
  simp [Output.bytes]

lemma frame_length (o : Output β) (frameBytes n : ℕ) : (o.frame frameBytes n).length = frameBytes := by
  simp [Output.frame]

lemma bytes_add (o : Output β) (pos m n : ℕ) :
    o.bytes pos (m + n) = o.bytes pos m ++ o.bytes (pos + m) n := by
  rw [Output.bytes, ← List.range'_append_1, List.map_append]
  rfl

lemma left_le (o : Output β) (pos n : ℕ) : o.left pos n ≤ n := by
  unfold Output.left
  cases o.length with
  | none => exact le_refl n
  | some l => exact min_le_left _ _

lemma left_min (o : Output β) (pos m n : ℕ) : o.left pos (min m n) = min m (o.left pos n) := by
  unfold Output.left
  cases o.length with
  | none => rfl
  | some l => exact min_assoc _ _ _

lemma left_sub : o.left (k + m) (n - m) = o.left k n - m := by
  unfold Output.left
  cases o.length with
  | none => rfl
  | some l =>
    dsimp only
    omega

@[simp] lemma advance_zero (p : Pipe β) : p.advance 0 = p := by
  simp [Pipe.advance, Output.bytes]

lemma advance_advance (p : Pipe β) (m n : ℕ) : (p.advance m).advance n = p.advance (m + n) := by
  simp [Pipe.advance, bytes_add, Nat.add_assoc]

@[simp] lemma advance_pending_length (p : Pipe β) (n : ℕ) :
    (p.advance n).pending.length = p.pending.length + n := by
  simp [Pipe.advance]

lemma rest_le_need (frameBytes : ℕ) (p : Pipe β) : p.rest frameBytes ≤ p.need frameBytes :=
  left_le _ _ _

lemma need_advance (p : Pipe β) (n : ℕ) :
    (p.advance n).need frameBytes = p.need frameBytes - n := by
  simp [Pipe.need, Nat.sub_add_eq]

lemma rest_advance (p : Pipe β) (n : ℕ) :
    (p.advance n).rest frameBytes = p.rest frameBytes - n := by
  unfold Pipe.rest
  rw [need_advance]
  exact left_sub

lemma read_size (p : Pipe β) (k : ℕ) :
    p.output.left p.pos (min (max 1 k) (frameBytes - p.pending.length)) =
      min (max 1 k) (p.rest frameBytes) :=
  left_min _ _ _ _

lemma readFrame_full (h : frameBytes ≤ p.pending.length) :
    p.readFrame frameBytes polls = p.cut frameBytes := by
  cases polls with
  | nil => simp [Pipe.readFrame, h]
  | cons poll polls => simp [Pipe.readFrame, h]

lemma cut_of_length (h : p.pending.length = frameBytes) :
    p.cut frameBytes = (some p.pending, { p with pending := [] }) := by
  simp [Pipe.cut, ← h]

/-- How a wait of a pipe can come out: each way when it must, and after how many bytes. -/
inductive Waited (frameBytes : ℕ) (p : Pipe β) (polls : List Poll) : Option (List β) × Pipe β → Prop
  | frame (n : ℕ) (h : p.Completes frameBytes polls) (hn : p.pending.length + n = frameBytes)
      (hrest : n ≤ p.rest frameBytes) :
    Waited frameBytes p polls (some (p.advance n).pending, { p.advance n with pending := [] })
  | finish (n : ℕ) (h : p.Ends frameBytes polls) (hn : p.pending.length + n < frameBytes)
      (hrest : n = p.rest frameBytes) :
    Waited frameBytes p polls (some (p.advance n).pending, { p.advance n with pending := [] })
  | fault (n : ℕ) (h : ¬ p.Completes frameBytes polls ∧ ¬ p.Ends frameBytes polls ∧ Faulty polls)
      (hn : p.pending.length + n < frameBytes) (hrest : n ≤ p.rest frameBytes) :
    Waited frameBytes p polls (some [], p.advance n)
  | hold (n : ℕ) (h : p.TimesOut frameBytes polls) (hn : p.pending.length + n < frameBytes)
      (hrest : n ≤ p.rest frameBytes) :
    Waited frameBytes p polls (none, p.advance n)

lemma completes_cons (polls : List Poll) (hn : n = min (max 1 k) (p.rest frameBytes)) :
    p.Completes frameBytes (.ready k :: polls) ↔ (p.advance n).Completes frameBytes polls := by
  have hle := rest_le_need frameBytes p
  unfold Pipe.Completes
  rw [need_advance, rest_advance]
  simp only [reads, List.sum_cons]
  omega

lemma ends_cons (polls : List Poll) (hn : n = min (max 1 k) (p.rest frameBytes)) (hpos : 0 < n) :
    p.Ends frameBytes (.ready k :: polls) ↔ (p.advance n).Ends frameBytes polls := by
  have hle := rest_le_need frameBytes p
  unfold Pipe.Ends
  rw [need_advance, rest_advance]
  cases hr : reads polls with
  | nil =>
    simp only [reads, hr, ne_eq, not_true_eq_false, false_and, and_false, iff_false]
    simp
    omega
  | cons c cs =>
    simp only [reads, hr, ne_eq, reduceCtorEq, not_false_eq_true, true_and, List.dropLast_cons_cons,
      List.sum_cons]
    omega

theorem readFrame_spec (polls : List Poll) : ∀ {p : Pipe β}, p.pending.length < frameBytes →
    Waited frameBytes p polls (p.readFrame frameBytes polls) := by
  induction polls with
  | nil =>
    intro p hp
    have hread : p.readFrame frameBytes [] = (none, p.advance 0) := by
      simp [Pipe.readFrame, not_le.mpr hp]
    rw [hread]
    refine .hold 0 ⟨?_, fun h => h.2.1 rfl, id⟩ hp (Nat.zero_le _)
    rintro ⟨-, h⟩
    simp only [Pipe.need, reads, List.sum_nil] at h
    omega
  | cons poll polls ih =>
    intro p hp
    have hneed : 0 < p.need frameBytes := Nat.sub_pos_of_lt hp
    cases poll with
    | expired =>
      have hread : p.readFrame frameBytes (.expired :: polls) = (none, p.advance 0) := by
        simp [Pipe.readFrame, not_le.mpr hp]
      rw [hread]
      refine .hold 0 ⟨?_, fun h => h.2.1 rfl, id⟩ hp (Nat.zero_le _)
      rintro ⟨-, h⟩
      simp only [reads, List.sum_nil] at h
      omega
    | fault =>
      have hread : p.readFrame frameBytes (.fault :: polls) = (some [], p.advance 0) := by
        simp [Pipe.readFrame, not_le.mpr hp]
      rw [hread]
      refine .fault 0 ⟨?_, fun h => h.2.1 rfl, trivial⟩ hp (Nat.zero_le _)
      rintro ⟨-, h⟩
      simp only [reads, List.sum_nil] at h
      omega
    | ready k =>
      have hread : p.readFrame frameBytes (.ready k :: polls) =
          if min (max 1 k) (p.rest frameBytes) = 0 then (some p.pending, { p with pending := [] })
          else (p.advance (min (max 1 k) (p.rest frameBytes))).readFrame frameBytes polls := by
        simp [Pipe.readFrame, not_le.mpr hp, read_size]
      generalize hn : min (max 1 k) (p.rest frameBytes) = n at hread
      rcases Nat.eq_zero_or_pos n with hzero | hpos
      · -- the end of the file
        have hrest : p.rest frameBytes = 0 := by omega
        have hover : p.Ends frameBytes (.ready k :: polls) :=
          ⟨by omega, by simp [reads], by omega⟩
        rw [hread, if_pos hzero]
        have hw := Waited.finish 0 hover hp hrest.symm
        simpa using hw
      · rw [hread, if_neg hpos.ne']
        have hcompletes := completes_cons polls hn.symm
        have hends := ends_cons polls hn.symm hpos
        have hle := rest_le_need frameBytes p
        by_cases hfull : p.pending.length + n = frameBytes
        · have hlen : (p.advance n).pending.length = frameBytes := by simpa using hfull
          rw [readFrame_full hlen.ge, cut_of_length hlen]
          refine .frame n (hcompletes.mpr ?_) hfull (by omega)
          unfold Pipe.Completes
          rw [need_advance, rest_advance]
          unfold Pipe.need at hle ⊢
          omega
        · have hshort : (p.advance n).pending.length < frameBytes := by
            unfold Pipe.need at hle
            simp only [advance_pending_length]
            omega
          have hw := ih hshort
          generalize (p.advance n).readFrame frameBytes polls = out at hw
          cases hw with
          | frame m h hm hrest =>
            rw [rest_advance] at hrest
            rw [advance_pending_length] at hm
            rw [advance_advance]
            exact .frame (n + m) (hcompletes.mpr h) (by omega) (by omega)
          | finish m h hm hrest =>
            rw [rest_advance] at hrest
            rw [advance_pending_length] at hm
            rw [advance_advance]
            exact .finish (n + m) (hends.mpr h) (by omega) (by omega)
          | fault m h hm hrest =>
            rw [rest_advance] at hrest
            rw [advance_pending_length] at hm
            rw [advance_advance]
            exact .fault (n + m) ⟨mt hcompletes.mp h.1, mt hends.mp h.2.1, h.2.2⟩ (by omega) (by omega)
          | hold m h hm hrest =>
            rw [rest_advance] at hrest
            rw [advance_pending_length] at hm
            rw [advance_advance]
            exact .hold (n + m) ⟨mt hcompletes.mp h.1, mt hends.mp h.2.1, h.2.2⟩ (by omega) (by omega)

end Waiting

section Alignment

variable {β : Type} {frameBytes : ℕ} {p q : Pipe β} {polls : List Poll} {k n : ℕ}
  {out : Option (List β)}

lemma pos_add_le {l : ℕ} (hw : p.Within) (hn : n ≤ p.rest frameBytes)
    (hl : p.output.length = some l) : p.pos + n ≤ l := by
  have hpos := hw l hl
  simp only [Pipe.rest, Output.left, hl] at hn
  omega

lemma length_of_rest (hw : p.Within) (h : p.rest frameBytes < p.need frameBytes) :
    p.output.length = some (p.pos + p.rest frameBytes) := by
  cases hl : p.output.length with
  | none =>
    simp only [Pipe.rest, Output.left, hl] at h
    omega
  | some l =>
    have hpos := hw l hl
    simp only [Pipe.rest, Output.left, hl] at h ⊢
    congr 1
    omega

lemma advance_pending (hpending : p.pending = p.output.bytes (k * frameBytes) p.pending.length)
    (hpos : p.pos = k * frameBytes + p.pending.length) :
    (p.advance n).pending = p.output.bytes (k * frameBytes) (p.pending.length + n) :=
  calc (p.advance n).pending
      = p.pending ++ p.output.bytes (k * frameBytes + p.pending.length) n := by rw [← hpos]; rfl
    _ = p.output.bytes (k * frameBytes) p.pending.length ++
          p.output.bytes (k * frameBytes + p.pending.length) n := by rw [← hpending]
    _ = p.output.bytes (k * frameBytes) (p.pending.length + n) := (bytes_add _ _ _ _).symm

lemma Pipe.Aligned.advance (h : p.Aligned frameBytes k) (hn : p.pending.length + n < frameBytes)
    (hrest : n ≤ p.rest frameBytes) : (p.advance n).Aligned frameBytes k := by
  refine ⟨fun l hl => pos_add_le h.within hrest hl, by simpa using hn, ?_⟩
  rcases h.place with ⟨hpending, hpos⟩ | ⟨hpending, hl, hlow, hhigh⟩
  · left
    constructor
    · rw [advance_pending_length]
      exact advance_pending hpending hpos
    · rw [advance_pending_length, ← Nat.add_assoc, ← hpos]
      rfl
  · have hzero : n = 0 := by
      have := pos_add_le h.within hrest hl
      omega
    rw [hzero, advance_zero]
    exact .inr ⟨hpending, hl, hlow, hhigh⟩

lemma Pipe.Aligned.frame (h : p.Aligned frameBytes k) (hpos : 0 < frameBytes)
    (hc : p.Completes frameBytes polls) (hn : p.pending.length + n = frameBytes)
    (hrest : n ≤ p.rest frameBytes) :
    (p.advance n).pending = p.output.frame frameBytes k ∧
      ({ p.advance n with pending := [] } : Pipe β).Aligned frameBytes (k + 1) := by
  rcases h.place with ⟨hpending, hat⟩ | ⟨hpending, hl, -, -⟩
  · constructor
    · rw [advance_pending hpending hat, hn]
      rfl
    · refine ⟨fun l hl => pos_add_le h.within hrest hl, hpos, .inl ⟨rfl, ?_⟩⟩
      show p.pos + n = (k + 1) * frameBytes + 0
      rw [hat, Nat.add_assoc, hn, Nat.succ_mul, Nat.add_zero]
  · -- nothing is left to complete a frame with
    have hneed : p.need frameBytes = frameBytes := by simp [Pipe.need, hpending]
    have hzero : p.rest frameBytes = 0 := by simp [Pipe.rest, Output.left, hl]
    have := hc.1
    omega

lemma Pipe.Aligned.finish (h : p.Aligned frameBytes k) (hpos : 0 < frameBytes)
    (he : p.Ends frameBytes polls) (hn : p.pending.length + n < frameBytes)
    (hrest : n = p.rest frameBytes) :
    ({ p.advance n with pending := [] } : Pipe β).Aligned frameBytes k := by
  have hl := length_of_rest h.within he.1
  have hadv := h.advance hn hrest.le
  refine ⟨hadv.within, hpos, .inr ⟨rfl, by rw [hrest]; exact hl, ?_⟩⟩
  rcases hadv.place with ⟨-, hat⟩ | ⟨-, -, hlow, hhigh⟩
  · rw [advance_pending_length] at hat
    show k * frameBytes ≤ (p.advance n).pos ∧ (p.advance n).pos < (k + 1) * frameBytes
    rw [hat, Nat.succ_mul]
    omega
  · exact ⟨hlow, hhigh⟩

lemma Pipe.Aligned.whole (h : p.Aligned frameBytes k) (he : p.Ends frameBytes polls) :
    ∃ l, p.output.length = some l ∧ k = l / frameBytes := by
  have hl := length_of_rest h.within he.1
  have hlt := he.1
  refine ⟨_, hl, ?_⟩
  symm
  have hshort := h.short
  apply Nat.div_eq_of_lt_le
  · rcases h.place with ⟨-, hat⟩ | ⟨-, -, hlow, -⟩
    · rw [hat]
      omega
    · omega
  · rcases h.place with ⟨-, hat⟩ | ⟨-, hend, -, hhigh⟩
    · unfold Pipe.need at hlt
      rw [hat, Nat.succ_mul]
      omega
    · have hzero : p.rest frameBytes = 0 := by simp [Pipe.rest, Output.left, hend]
      rwa [hzero]

lemma Pipe.Aligned.count_le {l : ℕ} (h : p.Aligned frameBytes k)
    (hl : p.output.length = some l) : k ≤ l / frameBytes := by
  rw [Nat.le_div_iff_mul_le (by have := h.short; omega)]
  refine le_trans ?_ (h.within l hl)
  rcases h.place with ⟨-, hat⟩ | ⟨-, -, hlow, -⟩
  · omega
  · exact hlow

end Alignment

end Ledwall.Server.Video
