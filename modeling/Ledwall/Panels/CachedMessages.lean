import Ledwall.Values.ValueTable

/-! Live tickers: texts built from the pushed values, cached in a few slots that all call sites
share. -/

namespace Ledwall.Panels

open Ledwall.Wire Ledwall.Values

def MSG_LEN : ℕ := 128
def MSG_SLOTS : ℕ := 4

/-- `text` is the buffer up to `len`. -/
structure Msg where
  text : List Byte := []
  fits : text.length ≤ MSG_LEN := by decide

namespace Msg

variable (m : Msg)

def clear (_ : Msg) : Msg := {}

def asStr : List Byte := fromUtf8 m.text

def padTo (n : ℕ) : Msg where
  text := m.text ++ List.replicate (min n MSG_LEN - m.text.length) 0x20
  fits := by
    have hfits := m.fits
    rw [List.length_append, List.length_replicate]
    omega

def writeStr (s : List Byte) : Msg where
  text := m.text ++ s.take (MSG_LEN - m.text.length)
  fits := by
    have hfits := m.fits
    rw [List.length_append, List.length_take]
    omega

end Msg

/-- What a builder does to its message. -/
inductive Piece
  | writeStr (s : List Byte)
  | padTo (n : ℕ)
  | clear

def Msg.apply (m : Msg) : Piece → Msg
  | .writeStr s => m.writeStr s
  | .padTo n => m.padTo n
  | .clear => m.clear

/-- The ticker builders of all programs: each a function of the values, at an address of its own. -/
structure Builders (ι : Type*) where
  address : ι → BitVec 32
  pieces : ι → ValueTable → List Piece
  distinct : Function.Injective address
  nonzero : ∀ i, address i ≠ 0

/-- `pushes` and `table` are the card's when the text was built; the code keeps neither. -/
structure MsgSlot where
  owner : BitVec 32 := 0
  built : BitVec 32 := 0xFFFFFFFF
  msg : Msg := {}
  pushes : ℕ := 0
  table : ValueTable := {}

/-- `pushes` counts the calls of `ValueTable::set`, which `table.writes` does in 32 bits. -/
structure Tickers where
  table : ValueTable := {}
  slots : Vector MsgSlot MSG_SLOTS := Vector.replicate MSG_SLOTS {}
  pushes : ℕ := 0

/-- A program switch leaves values and slots alone: it decides which builders are called next. -/
inductive TickerEvent (ι : Type*)
  | switch
  | push (key val : List Byte) (now : ℤ)
  | call (i : ι)

namespace Tickers

variable {ι : Type*} (b : Builders ι) (s : Tickers) (i : ι)

def build (t : ValueTable) (m : Msg) : Msg := (b.pieces i t).foldl Msg.apply m

/-- What a fresh run of the builder gives. -/
def fresh (t : ValueTable) : List Byte := (build b i t {}).asStr

/-- The first slot of this owner or of none, else the last. -/
def slotOf (key : BitVec 32) : Fin MSG_SLOTS :=
  ((List.finRange MSG_SLOTS).find? fun k => s.slots[k].owner = key ∨ s.slots[k].owner = 0).getD
    ⟨MSG_SLOTS - 1, by decide⟩

/-- The slot that a call looks at. -/
def slot : MsgSlot := s.slots[s.slotOf (b.address i)]

def rebuilt : MsgSlot where
  owner := b.address i
  built := s.table.writes
  msg := build b i s.table (s.slot b i).msg.clear
  pushes := s.pushes
  table := s.table

def cachedMsg : List Byte × Tickers :=
  let slot := s.slot b i
  if slot.owner ≠ b.address i ∨ slot.built ≠ s.table.writes then
    let slot := s.rebuilt b i
    (slot.msg.asStr, { s with slots := s.slots.set (s.slotOf (b.address i)) slot })
  else (slot.msg.asStr, s)

def step : TickerEvent ι → Tickers
  | .switch => s
  | .push key val now => { s with table := s.table.set key val now, pushes := s.pushes + 1 }
  | .call i => (s.cachedMsg b i).2

def after (events : List (TickerEvent ι)) : Tickers := events.foldl (step b) {}

/-- The counter of writes went round since the slot was built, and the text has changed. -/
structure Lapped : Prop where
  owner : (s.slot b i).owner = b.address i
  fewer : (s.slot b i).pushes < s.pushes
  around : 2 ^ 32 ∣ s.pushes - (s.slot b i).pushes
  changed : fresh b i (s.slot b i).table ≠ fresh b i s.table

variable {b s i} {past : List (TickerEvent ι)} {k : MsgSlot}

/-- What a slot that is owned holds: its owner's text on a table the card had. -/
structure Holds (b : Builders ι) (past : List (TickerEvent ι)) (k : MsgSlot) : Prop where
  text : ∀ i, k.owner = b.address i → k.msg.asStr = fresh b i k.table
  built : k.built = BitVec.ofNat 32 k.pushes
  le : k.pushes ≤ (after b past).pushes
  same : k.pushes = (after b past).pushes → k.table = (after b past).table
  seen : ∃ pre, pre <+: past ∧ k.table = (after b pre).table

structure Inv (b : Builders ι) (past : List (TickerEvent ι)) : Prop where
  writes : (after b past).table.writes = BitVec.ofNat 32 (after b past).pushes
  slots : ∀ n : Fin MSG_SLOTS, (after b past).slots[n].owner = 0 ∨
    Holds b past (after b past).slots[n]

lemma after_snoc (past : List (TickerEvent ι)) (e : TickerEvent ι) :
    after b (past ++ [e]) = (after b past).step b e := by
  rw [after, after, List.foldl_append]
  rfl

lemma set_writes (t : ValueTable) (key val : List Byte) (now : ℤ) :
    (t.set key val now).writes = t.writes + 1 := by
  rw [ValueTable.set]
  split
  · rfl
  · split <;> rfl

lemma Holds.snoc {e : TickerEvent ι} (h : Holds b past k)
    (hle : (after b past).pushes ≤ (after b (past ++ [e])).pushes)
    (hsame : (after b (past ++ [e])).pushes = (after b past).pushes →
      (after b (past ++ [e])).table = (after b past).table) : Holds b (past ++ [e]) k where
  text := h.text
  built := h.built
  le := h.le.trans hle
  same heq := by
    have hpushes : (after b (past ++ [e])).pushes = (after b past).pushes :=
      le_antisymm (heq.symm.trans_le h.le) hle
    rw [hsame hpushes]
    exact h.same (heq.trans hpushes)
  seen := by
    obtain ⟨pre, hpre, htable⟩ := h.seen
    exact ⟨pre, hpre.trans (List.prefix_append _ _), htable⟩

lemma rebuilt_text (s : Tickers) (i : ι) : (s.rebuilt b i).msg.asStr = fresh b i s.table := rfl

lemma Inv.rebuilt (h : Inv b past) (i : ι) : Holds b past ((after b past).rebuilt b i) where
  text j hj := by
    rw [b.distinct (hj : b.address i = b.address j)]
    rfl
  built := h.writes
  le := le_refl _
  same _ := rfl
  seen := ⟨past, List.prefix_refl _, rfl⟩

lemma cachedMsg_table (s : Tickers) (i : ι) :
    (s.cachedMsg b i).2.table = s.table ∧ (s.cachedMsg b i).2.pushes = s.pushes := by
  rw [cachedMsg]
  split <;> exact ⟨rfl, rfl⟩

lemma cachedMsg_slots (s : Tickers) (i : ι) (n : Fin MSG_SLOTS) :
    (s.cachedMsg b i).2.slots[n] = s.slots[n] ∨ (s.cachedMsg b i).2.slots[n] = s.rebuilt b i := by
  rw [cachedMsg]
  split
  · dsimp only
    rw [Fin.getElem_fin, Fin.getElem_fin, Vector.getElem_set]
    split
    · exact .inr rfl
    · exact .inl rfl
  · exact .inl rfl

lemma Inv.step (h : Inv b past) (e : TickerEvent ι) : Inv b (past ++ [e]) := by
  cases e with
  | switch =>
    have hstep : after b (past ++ [.switch]) = after b past := after_snoc past .switch
    refine ⟨by rw [hstep]; exact h.writes, fun n => ?_⟩
    rw [hstep]
    exact (h.slots n).imp_right fun hk => hk.snoc (by rw [hstep]) (by rw [hstep]; exact fun _ => rfl)
  | push key val now =>
    have hstep := after_snoc (b := b) past (.push key val now)
    have hpushes : (after b (past ++ [.push key val now])).pushes = (after b past).pushes + 1 := by
      rw [hstep]
      rfl
    constructor
    · rw [hpushes, hstep, BitVec.ofNat_add, ← h.writes]
      exact set_writes _ _ _ _
    · intro n
      rw [show (after b (past ++ [.push key val now])).slots = (after b past).slots by rw [hstep]; rfl]
      exact (h.slots n).imp_right fun hk => hk.snoc (by omega) (by omega)
  | call i =>
    have hstep := after_snoc (b := b) past (.call i)
    obtain ⟨htable, hpushes⟩ := cachedMsg_table (b := b) (after b past) i
    have htable' : (after b (past ++ [.call i])).table = (after b past).table := by
      rw [hstep]
      exact htable
    have hpushes' : (after b (past ++ [.call i])).pushes = (after b past).pushes := by
      rw [hstep]
      exact hpushes
    constructor
    · rw [htable', hpushes']
      exact h.writes
    · intro n
      rw [show (after b (past ++ [.call i])).slots = ((after b past).cachedMsg b i).2.slots from
        congrArg Tickers.slots hstep]
      rcases cachedMsg_slots (b := b) (after b past) i n with hkept | hnew
      · rw [hkept]
        exact (h.slots n).imp_right fun hk => hk.snoc hpushes'.ge fun _ => htable'
      · rw [hnew]
        exact .inr ((h.rebuilt i).snoc hpushes'.ge fun _ => htable')

lemma inv_after (past : List (TickerEvent ι)) : Inv b past := by
  induction past using List.reverseRecOn with
  | nil =>
    refine ⟨rfl, fun n => .inl ?_⟩
    rw [after, List.foldl_nil, Fin.getElem_fin, Vector.getElem_replicate]
  | append_singleton past e ih => exact ih.step e

lemma Inv.reused (h : Inv b past) (hown : ((after b past).slot b i).owner = b.address i) :
    Holds b past ((after b past).slot b i) :=
  (h.slots _).resolve_left fun hzero => b.nonzero i (hown.symm.trans hzero)

lemma Inv.around_iff (h : Inv b past) (hk : Holds b past k) :
    k.built = (after b past).table.writes ↔ 2 ^ 32 ∣ (after b past).pushes - k.pushes := by
  rw [hk.built, h.writes, BitVec.toNat_inj.symm, BitVec.toNat_ofNat, BitVec.toNat_ofNat]
  exact Nat.modEq_iff_dvd' hk.le

lemma Inv.cachedMsg_eq_iff (h : Inv b past) (i : ι) :
    ((after b past).cachedMsg b i).1 = fresh b i (after b past).table ↔
      ¬ (after b past).Lapped b i := by
  rw [cachedMsg]
  split
  · next hbuild =>
    refine iff_of_true (rebuilt_text _ _) fun hlapped => ?_
    have hwrites := (h.around_iff (h.reused hlapped.owner)).mpr hlapped.around
    rcases hbuild with hne | hne
    · exact hne hlapped.owner
    · exact hne hwrites
  · next hreuse =>
    rw [not_or, not_not, not_not] at hreuse
    obtain ⟨hown, hwrites⟩ := hreuse
    have hk := h.reused hown
    have haround := (h.around_iff hk).mp hwrites
    have htext := hk.text i hown
    constructor
    · intro heq hlapped
      exact hlapped.changed (htext.symm.trans heq)
    · intro hlapped
      by_contra hne
      have hchanged : fresh b i ((after b past).slot b i).table ≠ fresh b i (after b past).table :=
        fun heq => hne (htext.trans heq)
      have hfewer : ((after b past).slot b i).pushes ≠ (after b past).pushes :=
        fun heq => hchanged (congrArg (fresh b i) (hk.same heq))
      exact hlapped ⟨hown, lt_of_le_of_ne hk.le hfewer, haround, hchanged⟩

lemma Inv.cachedMsg_own (h : Inv b past) (i : ι) :
    ∃ pre, pre <+: past ∧ ((after b past).cachedMsg b i).1 = fresh b i (after b pre).table := by
  rw [cachedMsg]
  split
  · exact ⟨past, List.prefix_refl _, rebuilt_text _ _⟩
  · next hreuse =>
    rw [not_or, not_not, not_not] at hreuse
    have hk := h.reused hreuse.1
    obtain ⟨pre, hpre, htable⟩ := hk.seen
    refine ⟨pre, hpre, ?_⟩
    rw [← htable]
    exact hk.text i hreuse.1

/-- At every call of every run the text is of the call's own builder, and it is the current one just
when the counter of writes has not gone round since, with another text. -/
theorem text_is_current (b : Builders ι) (events : List (TickerEvent ι)) :
    (∀ past i rest, events = past ++ .call i :: rest → ∃ pre, pre <+: past ∧
      ((after b past).cachedMsg b i).1 = fresh b i (after b pre).table) ∧
    ((∀ past i rest, events = past ++ .call i :: rest →
        ((after b past).cachedMsg b i).1 = fresh b i (after b past).table) ↔
      ∀ past i rest, events = past ++ .call i :: rest → ¬ (after b past).Lapped b i) := by
  refine ⟨fun past i _ _ => (inv_after past).cachedMsg_own i, ?_⟩
  exact forall₃_congr fun past i _ => imp_congr_right fun _ => (inv_after past).cachedMsg_eq_iff i

section Lap

/-- One ticker, of the value `a`. -/
def valueOfA : Builders Unit where
  address _ := 1
  pieces _ t := [.writeStr (t.text (ascii "a"))]
  distinct _ _ _ := rfl
  nonzero _ := by decide

def pushA : TickerEvent Unit := .push (ascii "a") (ascii "1") 1

/-- The table after `n + 1` pushes of the one value. -/
def pushedA (n : ℕ) : ValueTable where
  slots := [⟨ascii "a", ascii "1", 1, by decide, by decide⟩]
  writes := BitVec.ofNat 32 (n + 1)
  lastPushMs := 1

lemma after_pushes (n : ℕ) : after valueOfA (.call () :: List.replicate (n + 1) pushA) =
    { after valueOfA [.call ()] with table := pushedA n, pushes := n + 1 } := by
  induction n with
  | zero => rfl
  | succ n ih =>
    rw [List.replicate_succ', ← List.cons_append, after_snoc, ih, pushA, step]
    simp only [Tickers.mk.injEq, and_true]
    rw [pushedA, pushedA, show n + 1 + 1 = (n + 1) + 1 from rfl, BitVec.ofNat_add (n + 1) 1]
    rfl

lemma after_lap : ((after valueOfA (.call () :: List.replicate (2 ^ 32) pushA)).cachedMsg valueOfA ()).1 =
    ascii "-" ∧ fresh valueOfA () (after valueOfA (.call () :: List.replicate (2 ^ 32) pushA)).table =
      ascii "1" := by
  have hafter := after_pushes (2 ^ 32 - 1)
  rw [show 2 ^ 32 - 1 + 1 = 2 ^ 32 from rfl] at hafter
  rw [hafter]
  constructor
  · decide +kernel
  · decide +kernel

/-- After 2^32 pushes a ticker built before the first of them shows what it showed then. -/
theorem ticker_lapped : ¬ ∀ (b : Builders Unit) (events : List (TickerEvent Unit)),
    ∀ past i rest, events = past ++ .call i :: rest →
      ((after b past).cachedMsg b i).1 = fresh b i (after b past).table := by
  intro hclaim
  obtain ⟨hshown, hfresh⟩ := after_lap
  have heq := hclaim valueOfA _ (.call () :: List.replicate (2 ^ 32) pushA) () [] rfl
  rw [hshown, hfresh] at heq
  exact absurd heq (by decide)

end Lap

end Tickers

end Ledwall.Panels
