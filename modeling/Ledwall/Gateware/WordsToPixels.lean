import Mathlib.Data.BitVec
import Ledwall.Wire.Protocol

/-! The assembler of pixels from words, up to two of them in a cycle. -/

namespace Ledwall.Gateware

open Ledwall.Wire

/-- Red in the low byte. -/
def rgb (r g b : Byte) : BitVec 24 := b ++ g ++ r

/-- The bytes of a word in wire order. -/
def wordBytes (w : BitVec 32) : List Byte :=
  [w.extractLsb' 0 8, w.extractLsb' 8 8, w.extractLsb' 16 8, w.extractLsb' 24 8]

/-- The inputs of a cycle; `preload` is the value and the count that `res_set` loads. -/
structure WordCycle where
  valid : Bool := false
  data : BitVec 32 := 0
  last : Bool := false
  outReady : Bool := false
  preload : Option (BitVec 16 × BitVec 2) := none
  deriving DecidableEq

/-- `Words32ToPixels` -/
structure Words32ToPixels where
  res : BitVec 16 := 0
  resN : BitVec 2 := 0
  deriving DecidableEq

namespace Words32ToPixels

variable (s : Words32ToPixels) (c : WordCycle)

def win : BitVec 48 :=
  match s.resN with
  | 0 => c.data.setWidth 48
  | 1 => (s.res.extractLsb' 0 8).setWidth 48 ||| c.data.setWidth 48 <<< 8
  | 2 => s.res.setWidth 48 ||| c.data.setWidth 48 <<< 16
  | _ => 0

def accept : Bool := c.valid && c.outReady
def px0 : BitVec 24 := (s.win c).extractLsb' 0 24
def px1 : BitVec 24 := (s.win c).extractLsb' 24 24
def nOut : ℕ := if s.resN = 2 then 2 else 1
def done : Bool := c.valid && c.last

def next : Words32ToPixels :=
  match c.preload with
  | some (val, n) => ⟨val, n⟩
  | none =>
    if accept c then
      if c.last then ⟨0, 0⟩
      else
        match s.resN with
        | 0 => ⟨((s.win c).extractLsb' 24 8).setWidth 16, 1⟩
        | 1 => ⟨(s.win c).extractLsb' 24 16, 2⟩
        | 2 => ⟨0, 0⟩
        | _ => s
    else s

end Words32ToPixels

/-- The last of a list carries the mark. -/
def marked {α : Type} (mark : Bool) : List α → List (α × Bool)
  | [] => []
  | [a] => [(a, mark)]
  | a :: l => (a, false) :: marked mark l

namespace Words32ToPixels

/-- The pixels a consumer takes in a cycle, and `done` with the last of them. -/
def taken (s : Words32ToPixels) (c : WordCycle) : List (BitVec 24 × Bool) :=
  if accept c then marked (done c) ([s.px0 c, s.px1 c].take s.nOut) else []

def emitted : Words32ToPixels → List WordCycle → List (BitVec 24 × Bool)
  | _, [] => []
  | s, c :: cs => s.taken c ++ emitted (s.next c) cs

end Words32ToPixels

/-- A residue of at most two bytes, loaded while no word is offered. -/
def WordCycle.Loads (c : WordCycle) : Prop :=
  ∀ load ∈ c.preload, c.valid = false ∧ load.2 ≠ 3

instance (c : WordCycle) : Decidable c.Loads :=
  Option.decidableForallMem (p := fun load : BitVec 16 × BitVec 2 => c.valid = false ∧ load.2 ≠ 3) c.preload

/-- Not a stall. -/
def WordCycle.active (c : WordCycle) : Bool := c.preload.isSome || Words32ToPixels.accept c

/-- The consecutive groups of three. -/
def triples : List Byte → List (BitVec 24)
  | r :: g :: b :: l => rgb r g b :: triples l
  | _ => []

def leftover : List Byte → List Byte
  | _ :: _ :: _ :: l => leftover l
  | l => l

/-- The bytes a preload puts in front of a payload. -/
def preloadBytes (val : BitVec 16) (n : BitVec 2) : List Byte :=
  [val.extractLsb' 0 8, val.extractLsb' 8 8].take n.toNat

/-- A payload as the inputs tell it: the bytes loaded in front, the words accepted since, and whether
the last of them has been. -/
structure Payload where
  residue : List Byte := []
  words : List (BitVec 32) := []
  finished : Bool := false

namespace Payload

variable (p : Payload)

def bytes : List Byte := p.residue ++ p.words.flatMap wordBytes

/-- The pixels of a payload; a finished one's last is marked. -/
def pixels : List (BitVec 24 × Bool) := marked p.finished (triples p.bytes)

/-- A preload begins another payload, and so does what comes behind a last word. -/
def split (p : Payload) : List WordCycle → List Payload
  | [] => [p]
  | c :: cs =>
    match c.preload with
    | some (val, n) => p :: split { residue := preloadBytes val n } cs
    | none =>
      if Words32ToPixels.accept c then
        let p := { p with words := p.words ++ [c.data] }
        if c.last then { p with finished := true } :: split {} cs else split p cs
      else split p cs

end Payload

section Grouping

variable {l m : List Byte}

lemma triples_append (l m : List Byte) : triples (l ++ m) = triples l ++ triples (leftover l ++ m) := by
  fun_induction leftover l with
  | case1 r g b l ih => simp only [List.cons_append, triples, ih]
  | case2 l h =>
    have hnone : triples l = [] := by
      match l, h with
      | [], _ => rfl
      | [_], _ => rfl
      | [_, _], _ => rfl
      | r :: g :: b :: l, h => exact absurd rfl (h r g b l)
    rw [hnone, List.nil_append]

lemma leftover_append (l m : List Byte) : leftover (l ++ m) = leftover (leftover l ++ m) := by
  fun_induction leftover l with
  | case1 r g b l ih => exact ih
  | case2 => rfl

lemma marked_false {α : Type} (l : List α) : marked false l = l.map (·, false) := by
  fun_induction marked false l with
  | case1 => rfl
  | case2 => rfl
  | case3 a l h ih => rw [ih]; rfl

lemma marked_append {α : Type} (mark : Bool) (l : List α) {m : List α} (h : m ≠ []) :
    marked mark (l ++ m) = l.map (·, false) ++ marked mark m := by
  induction l with
  | nil => rfl
  | cons a l ih =>
    cases hl : l ++ m with
    | nil => exact absurd (List.append_eq_nil_iff.mp hl).2 h
    | cons b k =>
      rw [List.cons_append, hl, marked, ← hl, ih]
      · rfl
      · exact fun hk => nomatch hk

end Grouping

namespace Words32ToPixels

variable {s : Words32ToPixels} {c : WordCycle} {p : Payload}

/-- The bytes of the residue. -/
def bytes (s : Words32ToPixels) : List Byte := preloadBytes s.res s.resN

lemma resN_cases (h : s.resN ≠ 3) : s.resN = 0 ∨ s.resN = 1 ∨ s.resN = 2 := by
  have hall : ∀ n : BitVec 2, n ≠ 3 → n = 0 ∨ n = 1 ∨ n = 2 := by decide
  exact hall s.resN h

lemma extract_rgb (w : BitVec 48) (k : ℕ) : w.extractLsb' k 24 =
    rgb (w.extractLsb' k 8) (w.extractLsb' (k + 8) 8) (w.extractLsb' (k + 16) 8) := by
  ext i hi
  simp only [rgb, BitVec.getElem_extractLsb']
  grind

lemma win_zero (h : s.resN = 0) : s.bytes ++ wordBytes c.data =
    [(s.win c).extractLsb' 0 8, (s.win c).extractLsb' 8 8, (s.win c).extractLsb' 16 8,
      (s.win c).extractLsb' 24 8] := by
  have hbytes : s.bytes = [] := by rw [bytes, preloadBytes, h]; rfl
  have hwin : s.win c = c.data.setWidth 48 := by rw [win, h]; rfl
  rw [hbytes, hwin]
  simp only [wordBytes, List.nil_append, List.cons.injEq, and_true]
  refine ⟨?_, ?_, ?_, ?_⟩ <;> ext i hi <;>
    simp only [BitVec.getElem_extractLsb', BitVec.getLsbD_setWidth] <;> grind

lemma win_one (h : s.resN = 1) : s.bytes ++ wordBytes c.data =
    [(s.win c).extractLsb' 0 8, (s.win c).extractLsb' 8 8, (s.win c).extractLsb' 16 8,
      (s.win c).extractLsb' 24 8, (s.win c).extractLsb' 32 8] := by
  have hbytes : s.bytes = [s.res.extractLsb' 0 8] := by rw [bytes, preloadBytes, h]; rfl
  have hwin : s.win c = (s.res.extractLsb' 0 8).setWidth 48 ||| c.data.setWidth 48 <<< 8 := by
    rw [win, h]
    rfl
  rw [hbytes, hwin]
  simp only [wordBytes, List.singleton_append, List.cons.injEq, and_true]
  refine ⟨?_, ?_, ?_, ?_, ?_⟩ <;> ext i hi <;>
    simp only [BitVec.getElem_extractLsb', BitVec.getLsbD_or, BitVec.getLsbD_setWidth,
      BitVec.getLsbD_shiftLeft, BitVec.getLsbD_extractLsb'] <;> grind

lemma win_two (h : s.resN = 2) : s.bytes ++ wordBytes c.data =
    [(s.win c).extractLsb' 0 8, (s.win c).extractLsb' 8 8, (s.win c).extractLsb' 16 8,
      (s.win c).extractLsb' 24 8, (s.win c).extractLsb' 32 8, (s.win c).extractLsb' 40 8] := by
  have hbytes : s.bytes = [s.res.extractLsb' 0 8, s.res.extractLsb' 8 8] := by
    rw [bytes, preloadBytes, h]; rfl
  have hwin : s.win c = s.res.setWidth 48 ||| c.data.setWidth 48 <<< 16 := by
    rw [win, h]
    rfl
  rw [hbytes, hwin]
  simp only [wordBytes, List.cons_append, List.nil_append, List.cons.injEq, and_true]
  refine ⟨?_, ?_, ?_, ?_, ?_, ?_⟩ <;> ext i hi <;>
    simp only [BitVec.getElem_extractLsb', BitVec.getLsbD_or, BitVec.getLsbD_setWidth,
      BitVec.getLsbD_shiftLeft] <;> grind

lemma triples_word (h : s.resN ≠ 3) :
    triples (s.bytes ++ wordBytes c.data) = [s.px0 c, s.px1 c].take s.nOut := by
  rw [px0, px1, extract_rgb _ 0, extract_rgb _ 24, nOut]
  rcases resN_cases h with h | h | h
  · rw [win_zero h, h]
    rfl
  · rw [win_one h, h]
    rfl
  · rw [win_two h, h]
    rfl

lemma bytes_next (h : s.resN ≠ 3) (hpreload : c.preload = none) (haccept : accept c = true)
    (hlast : c.last = false) :
    (s.next c).bytes = leftover (s.bytes ++ wordBytes c.data) ∧ (s.next c).resN ≠ 3 := by
  rcases resN_cases h with h | h | h
  · have hnext : s.next c = ⟨((s.win c).extractLsb' 24 8).setWidth 16, 1⟩ := by
      simp only [next, hpreload, haccept, hlast, if_true, Bool.false_eq_true, if_false, h]
      rfl
    rw [win_zero h, hnext]
    refine ⟨?_, show (1 : BitVec 2) ≠ 3 by decide⟩
    show [_] = [_]
    congr 1
    ext i hi
    simp only [BitVec.getElem_extractLsb', BitVec.getLsbD_setWidth, BitVec.getLsbD_extractLsb']
    grind
  · have hnext : s.next c = ⟨(s.win c).extractLsb' 24 16, 2⟩ := by
      simp only [next, hpreload, haccept, hlast, if_true, Bool.false_eq_true, if_false, h]
      rfl
    rw [win_one h, hnext]
    refine ⟨?_, show (2 : BitVec 2) ≠ 3 by decide⟩
    show [_, _] = [_, _]
    simp only [List.cons.injEq, and_true]
    constructor <;> ext i hi <;>
      simp only [BitVec.getElem_extractLsb', BitVec.getLsbD_extractLsb'] <;> grind
  · have hnext : s.next c = ⟨0, 0⟩ := by
      simp only [next, hpreload, haccept, hlast, if_true, Bool.false_eq_true, if_false, h]
      rfl
    rw [win_two h, hnext]
    exact ⟨rfl, by decide⟩

lemma nOut_pos : [s.px0 c, s.px1 c].take s.nOut ≠ [] := by
  rw [nOut]
  split <;> exact List.cons_ne_nil _ _

lemma pixels_word (hn : s.resN ≠ 3) (hbytes : s.bytes = leftover p.bytes) (hp : p.finished = false)
    (haccept : accept c = true) :
    p.pixels ++ s.taken c =
      Payload.pixels { p with words := p.words ++ [c.data], finished := c.last } := by
  have hvalid : c.valid = true := (Bool.and_eq_true _ _ ▸ haccept : _ ∧ _).1
  have hdone : done c = c.last := by rw [done, hvalid, Bool.true_and]
  have hadd : Payload.bytes { p with words := p.words ++ [c.data], finished := c.last } =
      p.bytes ++ wordBytes c.data := by
    simp [Payload.bytes]
  rw [Payload.pixels, Payload.pixels, hp, marked_false, hadd, triples_append, ← hbytes,
    triples_word hn, marked_append _ _ nOut_pos, taken, if_pos haccept, hdone]

end Words32ToPixels

section Exactness

open Words32ToPixels

variable {s : Words32ToPixels} {p : Payload}

lemma preloadBytes_short (val : BitVec 16) (n : BitVec 2) :
    leftover (preloadBytes val n) = preloadBytes val n ∧ triples (preloadBytes val n) = [] := by
  have hlen : (preloadBytes val n).length ≤ 2 := List.length_take_le' _ _
  match preloadBytes val n, hlen with
  | [], _ => exact ⟨rfl, rfl⟩
  | [_], _ => exact ⟨rfl, rfl⟩
  | [_, _], _ => exact ⟨rfl, rfl⟩

lemma emitted_split (cs : List WordCycle) (hn : s.resN ≠ 3) (hbytes : s.bytes = leftover p.bytes)
    (hp : p.finished = false) (h : ∀ c ∈ cs, c.Loads) :
    p.pixels ++ emitted s cs = (p.split cs).flatMap Payload.pixels := by
  induction cs generalizing s p with
  | nil => simp [emitted, Payload.split]
  | cons c cs ih =>
    have hrest : ∀ c ∈ cs, c.Loads := fun c hc => h c (List.mem_cons_of_mem _ hc)
    rw [emitted, Payload.split]
    cases hload : c.preload with
    | some load =>
      obtain ⟨val, n⟩ := load
      obtain ⟨hvalid, hne⟩ := h c List.mem_cons_self (val, n) hload
      obtain ⟨hleft, hnone⟩ := preloadBytes_short val n
      have hnext : s.next c = ⟨val, n⟩ := by rw [next, hload]
      have hquiet : s.taken c = [] := by
        rw [taken, accept, hvalid]
        rfl
      have hempty : Payload.pixels { residue := preloadBytes val n } = [] := by
        rw [Payload.pixels, Payload.bytes, List.flatMap_nil, List.append_nil, hnone]
        rfl
      have hih := ih (s := ⟨val, n⟩) (p := { residue := preloadBytes val n }) hne
        (by rw [Payload.bytes, List.flatMap_nil, List.append_nil, hleft]; rfl) rfl hrest
      rw [hempty, List.nil_append] at hih
      rw [hnext, hquiet, List.nil_append, hih]
      rfl
    | none =>
      cases haccept : accept c with
      | false =>
        have hnext : s.next c = s := by rw [next, hload]; simp [haccept]
        have hquiet : s.taken c = [] := by rw [taken, haccept]; rfl
        rw [hnext, hquiet, List.nil_append]
        rw [if_neg (by decide)]
        exact ih hn hbytes hp hrest
      | true =>
        have hword := pixels_word hn hbytes hp haccept
        simp only [if_true]
        cases hlast : c.last with
        | false =>
          obtain ⟨hleft, hne⟩ := bytes_next hn hload haccept hlast
          rw [hlast, ← hp] at hword
          have hbytes' : (s.next c).bytes =
              leftover (Payload.bytes { p with words := p.words ++ [c.data] }) := by
            rw [hleft, hbytes, ← leftover_append]
            simp [Payload.bytes]
          rw [← List.append_assoc, hword, if_neg (by decide)]
          exact ih hne hbytes' hp hrest
        | true =>
          have hnext : s.next c = ⟨0, 0⟩ := by rw [next, hload]; simp [haccept, hlast]
          have hih := ih (s := ⟨0, 0⟩) (p := {}) (by decide) rfl rfl hrest
          rw [hlast] at hword
          rw [hnext, ← List.append_assoc, hword, if_pos rfl, List.flatMap_cons, ← hih]
          rfl

lemma split_active (p : Payload) (cs : List WordCycle) :
    p.split (cs.filter WordCycle.active) = p.split cs := by
  induction cs generalizing p with
  | nil => rfl
  | cons c cs ih =>
    cases hload : c.preload with
    | some load =>
      rw [List.filter_cons_of_pos (by rw [WordCycle.active, hload]; rfl)]
      simp only [Payload.split, hload, ih]
    | none =>
      cases haccept : accept c with
      | false =>
        rw [List.filter_cons_of_neg (by rw [WordCycle.active, hload, haccept]; decide), ih,
          Payload.split, hload]
        simp [haccept]
      | true =>
        rw [List.filter_cons_of_pos (by rw [WordCycle.active, hload, haccept]; rfl)]
        simp only [Payload.split, hload, ih]

lemma finished_words {q : Payload} {cs : List WordCycle} (hp : p.finished = false)
    (hq : q ∈ p.split cs) (hfinished : q.finished = true) : q.words ≠ [] := by
  induction cs generalizing p with
  | nil =>
    obtain rfl := List.mem_singleton.mp hq
    cases hp.symm.trans hfinished
  | cons c cs ih =>
    rw [Payload.split] at hq
    split at hq
    · rcases List.mem_cons.mp hq with rfl | hq
      · cases hp.symm.trans hfinished
      · exact ih rfl hq
    · split at hq
      · dsimp only at hq
        split at hq
        · rcases List.mem_cons.mp hq with rfl | hq
          · exact List.append_ne_nil_of_right_ne_nil _ (List.cons_ne_nil _ _)
          · exact ih rfl hq
        · exact ih (p := { p with words := p.words ++ [c.data] }) hp hq
      · exact ih hp hq

lemma triples_ne_nil {l : List Byte} (h : 3 ≤ l.length) : triples l ≠ [] := by
  match l, h with
  | _ :: _ :: _ :: _, _ => exact List.cons_ne_nil _ _

lemma pixels_finished (hfinished : p.finished = true) (h : p.words ≠ []) :
    ∃ (l : List (BitVec 24)) (px : BitVec 24), p.pixels = l.map (·, false) ++ [(px, true)] := by
  obtain ⟨w, ws, hwords⟩ := List.exists_cons_of_ne_nil h
  have hlen : 3 ≤ p.bytes.length := by
    rw [Payload.bytes, hwords, List.flatMap_cons]
    simp only [wordBytes, List.length_append, List.length_cons]
    omega
  have hne := triples_ne_nil hlen
  refine ⟨(triples p.bytes).dropLast, (triples p.bytes).getLast hne, ?_⟩
  have hsplit := marked_append true (triples p.bytes).dropLast (List.cons_ne_nil _ [])
    (m := [(triples p.bytes).getLast hne])
  rw [List.dropLast_append_getLast hne] at hsplit
  rw [Payload.pixels, hfinished, hsplit]
  rfl

/-- Each payload's pixels, and no others, whatever the stalls; the last of a finished payload comes
with `done`. -/
theorem pixels_exact (cs : List WordCycle) (h : ∀ c ∈ cs, c.Loads) :
    emitted {} cs = (Payload.split {} cs).flatMap Payload.pixels ∧
      emitted {} cs = emitted {} (cs.filter WordCycle.active) ∧
      ∀ p ∈ Payload.split {} cs, p.finished = true →
        ∃ (l : List (BitVec 24)) (px : BitVec 24), p.pixels = l.map (·, false) ++ [(px, true)] := by
  have hall (cs : List WordCycle) (h : ∀ c ∈ cs, c.Loads) :
      emitted {} cs = (Payload.split {} cs).flatMap Payload.pixels :=
    emitted_split (s := {}) (p := {}) cs (by decide) rfl rfl h
  refine ⟨hall cs h, ?_, fun p hp hfinished => ?_⟩
  · rw [hall cs h, hall _ fun c hc => h c (List.mem_of_mem_filter hc), split_active]
  · exact pixels_finished hfinished (finished_words rfl hp hfinished)

/-- Two bytes loaded, a word, a stall, and the last word: three pixels, and a byte dropped. -/
def stalledRun : List WordCycle :=
  [{ preload := some (0x2211, 2) }, { valid := true, data := 0x66554433, outReady := true },
    { valid := true, data := 0xAA998877, last := true },
    { valid := true, data := 0xAA998877, last := true, outReady := true }]

theorem pixels_exact_stalled :
    emitted {} stalledRun = [(0x332211, false), (0x665544, false), (0x998877, true)] := by
  rw [(pixels_exact stalledRun (by decide)).1]
  decide

end Exactness

end Ledwall.Gateware
