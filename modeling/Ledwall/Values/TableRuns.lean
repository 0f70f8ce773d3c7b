import Ledwall.Library.Runs
import Ledwall.Values.Utf8

/-! What the value table hands out after any pushes: text, under distinct keys. -/

namespace Ledwall.Values

open Ledwall.Library.Runs Ledwall.Wire

/-- A `&str`. -/
abbrev Text := {b : List Byte // validUtf8 b = true}

structure SetCall where
  key : Text
  val : Text
  now : ℤ

def Text.of (b : List Byte) : Text := ⟨fromUtf8 b, validUtf8_fromUtf8 b⟩

def Text.trim (s : Text) : Text := ⟨Values.trim s, validUtf8_trim s.2⟩

namespace ValueTable

def call (t : ValueTable) (c : SetCall) : ValueTable := t.set c.key c.val c.now

end ValueTable

namespace Scan

/-- The key and the value read from behind a key's opening quote, and what is left behind them. -/
def readPair (rest : List Byte) : Option (Text × Text × List Byte) :=
  match rest.dropWhile (· ≠ 0x22) with
  | [] => none
  | _ :: afterKey =>
    match afterKey.dropWhile fun b => b = 0x20 ∨ b = 0x3A with
    | [] => none
    | c :: r =>
      if c = 0x22 then
        match r.dropWhile (· ≠ 0x22) with
        | [] => none
        | _ :: afterVal =>
          some (.of (rest.takeWhile (· ≠ 0x22)), .of (r.takeWhile (· ≠ 0x22)), afterVal)
      else
        some (.of (rest.takeWhile (· ≠ 0x22)),
          (Text.of ((c :: r).takeWhile fun b => b ≠ 0x2C ∧ b ≠ 0x7D)).trim,
          (c :: r).dropWhile fun b => b ≠ 0x2C ∧ b ≠ 0x7D)

/-- The `set` calls of `n` turns of the loop. -/
def calls (now : ℤ) : ℕ → ℤ → List Byte → List SetCall
  | 0, _, _ => []
  | _ + 1, _, [] => []
  | n + 1, depth, b :: rest =>
    if b = 0x7B then calls now n (depth + 1) rest
    else if b = 0x7D then calls now n (depth - 1) rest
    else if b = 0x22 ∧ depth = 1 then
      match readPair rest with
      | some (key, val, rest) => ⟨key, val, now⟩ :: calls now n depth rest
      | none => []
    else calls now n depth rest

lemma scanPair_eq (s : Scan) (now : ℤ) (rest : List Byte) :
    s.scanPair now rest = (readPair rest).map fun p => s.store now p.1 p.2.1 p.2.2 := by
  unfold scanPair readPair
  cases rest.dropWhile (· ≠ 0x22) with
  | nil => rfl
  | cons q afterKey =>
    dsimp only
    cases afterKey.dropWhile fun b => b = 0x20 ∨ b = 0x3A with
    | nil => rfl
    | cons c r =>
      dsimp only
      split
      · cases r.dropWhile (· ≠ 0x22) <;> rfl
      · rfl

lemma run_table (now : ℤ) (n : ℕ) (s : Scan) :
    (run now n s).table = (calls now n s.depth s.rest).foldl ValueTable.call s.table := by
  induction n generalizing s with
  | zero => rfl
  | succ n ih =>
    obtain ⟨rest, depth, table, stored⟩ := s
    cases rest with
    | nil => rfl
    | cons b rest =>
      rw [run, step, calls]
      dsimp only
      by_cases hopen : b = 0x7B
      · simp only [if_pos hopen]
        exact ih _
      by_cases hclose : b = 0x7D
      · simp only [if_neg hopen, if_pos hclose]
        exact ih _
      by_cases hquote : b = 0x22 ∧ depth = 1
      · simp only [if_neg hopen, if_neg hclose, if_pos hquote, scanPair_eq]
        cases readPair rest with
        | none => rfl
        | some p => exact ih _
      · simp only [if_neg hopen, if_neg hclose, if_neg hquote]
        exact ih _

end Scan

/-- What changes the table: a `set` of the firmware's own, or a request to the card. -/
inductive Push
  | set (c : SetCall)
  | request (req : HttpRequest) (now : ℤ)

namespace Push

def apply (t : ValueTable) : Push → ValueTable
  | set c => t.call c
  | request req now => ((handleHttpRequest req t now).map Prod.fst).getD t

/-- The `set` calls a push makes, in order. -/
def calls : Push → List SetCall
  | set c => [c]
  | request req now =>
    if req.method = .post ∧ req.path = ascii "/api/values" then
      Scan.calls now req.bodyStr.length 0 req.bodyStr
    else []

lemma apply_eq (t : ValueTable) (p : Push) : apply t p = p.calls.foldl ValueTable.call t := by
  cases p with
  | set c => rfl
  | request req now =>
    simp only [apply, calls, handleHttpRequest]
    split
    · exact Scan.run_table now _ _
    · rfl

end Push

namespace ValueTable

structure WellFormed (t : ValueTable) : Prop where
  used : t.slots.length ≤ MAX_VALUES
  distinct : (t.slots.map (·.key)).Nodup
  keys : ∀ s ∈ t.slots, validUtf8 s.key = true
  vals : ∀ s ∈ t.slots, validUtf8 s.val = true

lemma wellFormed_new : WellFormed {} := by
  refine ⟨Nat.zero_le _, List.nodup_nil, ?_, ?_⟩
  · intro s hs
    cases hs
  · intro s hs
    cases hs

/-- The call finds its key in the table. -/
abbrev Has (t : ValueTable) (c : SetCall) : Prop := c.key.1 ∈ t.slots.map (·.key)

/-- The call adds its key to the table. -/
def Adds (t : ValueTable) (c : SetCall) : Prop :=
  ¬ t.Has c ∧ t.slots.length < MAX_VALUES ∧ c.key.1 ≠ [] ∧ c.key.1.length ≤ KEY_LEN

/-- The call is refused because the table is full. -/
def Refuses (t : ValueTable) (c : SetCall) : Prop := ¬ t.Has c ∧ MAX_VALUES ≤ t.slots.length

/-- The first 64 bytes of the call's value are text. -/
abbrev KeepsText (c : SetCall) : Prop := validUtf8 (c.val.1.take VAL_LEN) = true

section Calls

variable {t : ValueTable} {c : SetCall}

lemma storeAt_keys (key val : List Byte) (now : ℤ) (slots : List Value) :
    (storeAt key val now slots).map (·.key) = slots.map (·.key) := by
  induction slots with
  | nil => rfl
  | cons s slots ih =>
    rw [storeAt]
    split
    · rfl
    · rw [List.map_cons, ih, List.map_cons]

lemma mem_storeAt {key val : List Byte} {now : ℤ} {slots : List Value} {s : Value}
    (h : s ∈ storeAt key val now slots) : s ∈ slots ∨ s.val = val.take VAL_LEN := by
  induction slots with
  | nil => cases h
  | cons u slots ih =>
    rw [storeAt] at h
    split at h
    · rcases List.mem_cons.mp h with rfl | h
      · exact .inr rfl
      · exact .inl (List.mem_cons_of_mem u h)
    · rcases List.mem_cons.mp h with rfl | h
      · exact .inl List.mem_cons_self
      · exact (ih h).imp_left (List.mem_cons_of_mem u)

lemma exists_mem_storeAt {key : List Byte} (val : List Byte) (now : ℤ) {slots : List Value}
    (h : key ∈ slots.map (·.key)) :
    ∃ s ∈ storeAt key val now slots, s.val = val.take VAL_LEN := by
  induction slots with
  | nil => cases h
  | cons u slots ih =>
    rw [storeAt]
    split
    · exact ⟨_, List.mem_cons_self, rfl⟩
    · rename_i hu
      rcases List.mem_cons.mp h with rfl | h
      · exact absurd rfl hu
      · obtain ⟨s, hs, hv⟩ := ih h
        exact ⟨s, List.mem_cons_of_mem u hs, hv⟩

lemma any_iff : (t.slots.any (·.key = c.key.1) = true) ↔ t.Has c := by
  simp only [Has, List.any_eq_true, decide_eq_true_eq, List.mem_map]

lemma call_has (h : t.Has c) :
    (t.call c).slots = storeAt c.key c.val c.now t.slots := by
  rw [call, set, if_pos (any_iff.mpr h)]

lemma call_adds (h : t.Adds c) : ∃ s : Value, s.key = c.key.1 ∧ s.val = c.val.1.take VAL_LEN ∧
    (t.call c).slots = t.slots ++ [s] := by
  rw [call, set, if_neg (any_iff.not.mpr h.1), dif_pos h.2]
  exact ⟨_, rfl, rfl, rfl⟩

lemma call_ignores (hn : ¬ t.Has c) (ha : ¬ t.Adds c) : (t.call c).slots = t.slots := by
  rw [call, set, if_neg (any_iff.not.mpr hn), dif_neg fun h => ha ⟨hn, h⟩]

lemma call_writes : (t.call c).writes = t.writes + 1 := by
  rw [call, set]
  split
  · rfl
  split <;> rfl

lemma WellFormed.call (h : t.WellFormed) (hc : t.Has c ∨ t.Adds c → KeepsText c) :
    (t.call c).WellFormed := by
  by_cases hhas : t.Has c
  · refine ⟨(t.call c).used_le, ?_, ?_, ?_⟩
    · rw [call_has hhas, storeAt_keys]
      exact h.distinct
    · rw [← List.forall_mem_map (P := fun k => validUtf8 k = true) (f := Value.key), call_has hhas,
        storeAt_keys, List.forall_mem_map]
      exact h.keys
    · rw [call_has hhas]
      intro s hs
      rcases mem_storeAt hs with hs | hs
      · exact h.vals s hs
      · rw [hs]
        exact hc (.inl hhas)
  by_cases hadds : t.Adds c
  · obtain ⟨s, hk, hv, he⟩ := call_adds hadds
    refine ⟨(t.call c).used_le, ?_, ?_, ?_⟩
    · rw [he, List.map_append, List.map_singleton, hk]
      rw [← List.concat_eq_append]
      exact h.distinct.concat hhas
    · rw [he]
      intro u hu
      rcases List.mem_append.mp hu with hu | hu
      · exact h.keys u hu
      · rw [List.mem_singleton.mp hu, hk]
        exact c.key.2
    · rw [he]
      intro u hu
      rcases List.mem_append.mp hu with hu | hu
      · exact h.vals u hu
      · rw [List.mem_singleton.mp hu, hv]
        exact hc (.inr hadds)
  · have he := call_ignores hhas hadds
    refine ⟨(t.call c).used_le, ?_, ?_, ?_⟩
    · rw [he]
      exact h.distinct
    · rw [he]
      exact h.keys
    · rw [he]
      exact h.vals

lemma keepsText_of_wellFormed (h : (t.call c).WellFormed) (hs : t.Has c ∨ t.Adds c) :
    KeepsText c := by
  rcases hs with hhas | hadds
  · obtain ⟨s, hs, hv⟩ := exists_mem_storeAt c.val.1 c.now hhas
    rw [← call_has hhas] at hs
    rw [KeepsText, ← hv]
    exact h.vals s hs
  · obtain ⟨s, -, hv, he⟩ := call_adds hadds
    rw [KeepsText, ← hv]
    apply h.vals
    rw [he]
    exact List.mem_append_right _ (List.mem_singleton_self s)

lemma call_ne : t.call c ≠ t := by
  intro he
  have hw : t.writes + 1 = t.writes := call_writes.symm.trans (congrArg writes he)
  exact absurd hw (by bv_omega)

end Calls

end ValueTable

section Runs

open ValueTable

/-- The table after the call hands out text under distinct keys, and is the table before it if the
call was refused for lack of room. -/
def HandsOutText (t : ValueTable) (c : SetCall) : Prop :=
  (t.call c).WellFormed ∧ (t.Refuses c → t.call c = t)

/-- What the call stores of its value is text, and the table has room for its key. -/
def Orderly (t : ValueTable) (c : SetCall) : Prop :=
  (t.Has c ∨ t.Adds c → KeepsText c) ∧ ¬ t.Refuses c

/-- `P` holds at every `set` call of the push, made on `t`. -/
def Push.Each (P : ValueTable → SetCall → Prop) (t : ValueTable) (p : Push) : Prop :=
  Always (fun t c t' => t' = t.call c) P t p.calls

/-- `P` holds at every `set` call of the pushes, from the empty table on. -/
def AtEachCall (P : ValueTable → SetCall → Prop) (ps : List Push) : Prop :=
  Always (fun t p t' => t' = Push.apply t p) (Push.Each P) {} ps

lemma Orderly.handsOutText {t : ValueTable} {c : SetCall} (ht : t.WellFormed) (h : Orderly t c) :
    HandsOutText t c :=
  ⟨ht.call h.1, fun hr => absurd hr h.2⟩

lemma HandsOutText.orderly {t : ValueTable} {c : SetCall} (h : HandsOutText t c) : Orderly t c :=
  ⟨keepsText_of_wellFormed h.1, fun hr => call_ne (h.2 hr)⟩

lemma wellFormed_apply {t : ValueTable} {p : Push} (ht : t.WellFormed)
    (hp : Push.Each Orderly t p) : (Push.apply t p).WellFormed := by
  rw [Push.apply_eq]
  apply (run_foldl ValueTable.call t p.calls).invariant (I := WellFormed) (C := Orderly) _ ht hp
  rintro u c _ hu hc rfl
  exact hu.call hc.1

theorem handsOutText_iff (ps : List Push) :
    AtEachCall HandsOutText ps ↔ AtEachCall Orderly ps := by
  constructor
  · intro h
    refine Always.mono (fun t p hp => ?_) h
    exact Always.mono (fun t c hc => hc.orderly) hp
  · intro h
    refine Always.of_safe (I := WellFormed) (C := Push.Each Orderly) ?_ ?_ wellFormed_new h
    · rintro t p _ ht hp rfl
      exact wellFormed_apply ht hp
    · intro t p ht hp
      apply Always.of_safe (I := WellFormed) (C := Orderly) _ _ ht hp
      · rintro u c _ hu hc rfl
        exact hu.call hc.1
      · intro u c hu hc
        exact hc.handsOutText hu

/-- Sixty-three letters and a character of two bytes. -/
def longName : SetCall :=
  ⟨⟨ascii "name", by decide⟩, ⟨List.replicate 63 0x61 ++ [0xC3, 0xA9], by decide⟩, 0⟩

theorem longName_cut : ¬ AtEachCall HandsOutText [.set longName] := by
  intro h
  have hcut : KeepsText longName := h.1.1.orderly.1 (.inr ⟨by decide, by decide, by decide, by decide⟩)
  exact absurd hcut (by decide)

end Runs

end Ledwall.Values
