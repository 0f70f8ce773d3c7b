import Ledwall.Values.HttpRequest

/-! The card's table of named values, and the scanner that fills it from a request's body. -/

namespace Ledwall.Values

open Ledwall.Wire

def MAX_VALUES : ℕ := 24
def KEY_LEN : ℕ := 16
def VAL_LEN : ℕ := 64

structure Value where
  key : List Byte
  val : List Byte
  updatedMs : ℤ
  key_le : key.length ≤ KEY_LEN
  val_le : val.length ≤ VAL_LEN
  deriving DecidableEq

lemma used_nil : ([] : List Value).length ≤ MAX_VALUES := by decide

structure ValueTable where
  slots : List Value := []
  writes : BitVec 32 := 0
  lastPushMs : ℤ := 0
  used_le : slots.length ≤ MAX_VALUES := by first | exact used_nil | decide
  deriving DecidableEq

namespace Value

def store (s : Value) (val : List Byte) (now : ℤ) : Value :=
  { s with val := val.take VAL_LEN, updatedMs := now, val_le := List.length_take_le _ _ }

end Value

namespace ValueTable

variable (t : ValueTable)

/-- The first slot of that key is overwritten. -/
def storeAt (key val : List Byte) (now : ℤ) : List Value → List Value
  | [] => []
  | s :: slots => if s.key = key then s.store val now :: slots else s :: storeAt key val now slots

@[simp] lemma length_storeAt (key val : List Byte) (now : ℤ) (slots : List Value) :
    (storeAt key val now slots).length = slots.length := by
  induction slots with
  | nil => rfl
  | cons s slots ih =>
    rw [storeAt]
    split
    · rfl
    · rw [List.length_cons, ih, List.length_cons]

def set (key val : List Byte) (now : ℤ) : ValueTable :=
  if t.slots.any (·.key = key) then
    ⟨storeAt key val now t.slots, t.writes + 1, now, by simpa using t.used_le⟩
  else if h : t.slots.length < MAX_VALUES ∧ key ≠ [] ∧ key.length ≤ KEY_LEN then
    ⟨t.slots ++ [⟨key, val.take VAL_LEN, now, h.2.2, List.length_take_le _ _⟩], t.writes + 1, now,
      by simpa using h.1⟩
  else ⟨t.slots, t.writes + 1, now, t.used_le⟩

def get (key : List Byte) : Option Value := t.slots.find? (·.key = key)

def text (key : List Byte) : List Byte :=
  match t.get key with
  | some v => if v.val = [] then ascii "-" else v.val
  | none => ascii "-"

end ValueTable

/-- The encodings of the characters `str::trim` takes away. -/
def whitespace : List (List Byte) :=
  [[0x09], [0x0A], [0x0B], [0x0C], [0x0D], [0x20], [0xC2, 0x85], [0xC2, 0xA0], [0xE1, 0x9A, 0x80],
    [0xE2, 0x80, 0x80], [0xE2, 0x80, 0x81], [0xE2, 0x80, 0x82], [0xE2, 0x80, 0x83],
    [0xE2, 0x80, 0x84], [0xE2, 0x80, 0x85], [0xE2, 0x80, 0x86], [0xE2, 0x80, 0x87],
    [0xE2, 0x80, 0x88], [0xE2, 0x80, 0x89], [0xE2, 0x80, 0x8A], [0xE2, 0x80, 0xA8],
    [0xE2, 0x80, 0xA9], [0xE2, 0x80, 0xAF], [0xE2, 0x81, 0x9F], [0xE3, 0x80, 0x80]]

/-- Drops whole encodings from the front, at most `n` of them. -/
def dropEncodings (encodings : List (List Byte)) : ℕ → List Byte → List Byte
  | 0, b => b
  | n + 1, b =>
    match encodings.find? (· <+: b) with
    | some w => dropEncodings encodings n (b.drop w.length)
    | none => b

def trimStart (b : List Byte) : List Byte := dropEncodings whitespace b.length b

def trimEnd (b : List Byte) : List Byte :=
  (dropEncodings (whitespace.map List.reverse) b.length b.reverse).reverse

def trim (b : List Byte) : List Byte := trimEnd (trimStart b)

/-- The scanner between two turns of its loop: what is left of the body, and what it has done. -/
structure Scan where
  rest : List Byte
  depth : ℤ := 0
  table : ValueTable
  stored : BitVec 32 := 0

namespace Scan

variable (s : Scan) (now : ℤ)

def store (key val rest : List Byte) : Scan :=
  { s with rest := rest, table := s.table.set key val now, stored := s.stored + 1 }

/-- From behind a key's opening quote. -/
def scanPair (rest : List Byte) : Option Scan :=
  match rest.dropWhile (· ≠ 0x22) with
  | [] => none
  | _ :: afterKey =>
    match afterKey.dropWhile fun b => b = 0x20 ∨ b = 0x3A with
    | [] => none
    | c :: r =>
      if c = 0x22 then
        match r.dropWhile (· ≠ 0x22) with
        | [] => none
        | _ :: afterVal =>
          some (s.store now (fromUtf8 (rest.takeWhile (· ≠ 0x22)))
            (fromUtf8 (r.takeWhile (· ≠ 0x22))) afterVal)
      else
        some (s.store now (fromUtf8 (rest.takeWhile (· ≠ 0x22)))
          (trim (fromUtf8 ((c :: r).takeWhile fun b => b ≠ 0x2C ∧ b ≠ 0x7D)))
          ((c :: r).dropWhile fun b => b ≠ 0x2C ∧ b ≠ 0x7D))

/-- One turn of the loop; `none` where it ends. -/
def step : Option Scan :=
  match s.rest with
  | [] => none
  | b :: rest =>
    if b = 0x7B then some { s with rest := rest, depth := s.depth + 1 }
    else if b = 0x7D then some { s with rest := rest, depth := s.depth - 1 }
    else if b = 0x22 ∧ s.depth = 1 then s.scanPair now rest
    else some { s with rest := rest }

def run : ℕ → Scan → Scan
  | 0, s => s
  | n + 1, s =>
    match s.step now with
    | some t => run n t
    | none => s

lemma step_rest {s t : Scan} {now : ℤ} (h : s.step now = some t) : t.rest.length < s.rest.length := by
  obtain ⟨rest, depth, table, stored⟩ := s
  cases rest with
  | nil => cases h
  | cons b rest =>
    rw [step] at h
    dsimp only at h
    split at h
    · obtain rfl := Option.some.inj h
      exact Nat.lt_succ_self _
    split at h
    · obtain rfl := Option.some.inj h
      exact Nat.lt_succ_self _
    split at h
    · rw [scanPair] at h
      split at h
      · cases h
      rename_i hk
      have hkey := (List.dropWhile_suffix (l := rest) (· ≠ 0x22)).length_le
      rw [hk, List.length_cons] at hkey
      split at h
      · cases h
      rename_i afterKey _ c r hc
      have hcolon := (List.dropWhile_suffix (l := afterKey) fun b => b = 0x20 ∨ b = 0x3A).length_le
      rw [hc, List.length_cons] at hcolon
      split at h
      · split at h
        · cases h
        rename_i afterVal hv
        have hval := (List.dropWhile_suffix (l := r) (· ≠ 0x22)).length_le
        rw [hv, List.length_cons] at hval
        obtain rfl := Option.some.inj h
        change afterVal.length < rest.length + 1
        omega
      · have hval := (List.dropWhile_suffix (l := c :: r) fun b => b ≠ 0x2C ∧ b ≠ 0x7D).length_le
        rw [List.length_cons] at hval
        obtain rfl := Option.some.inj h
        exact Nat.lt_succ_of_le (hval.trans (by omega))
    · obtain rfl := Option.some.inj h
      exact Nat.lt_succ_self _

lemma run_eq {n : ℕ} {s : Scan} {now : ℤ} (h : s.rest.length ≤ n) :
    run now n s = run now s.rest.length s := by
  induction n using Nat.strong_induction_on generalizing s with
  | _ n ih =>
    cases hs : s.step now with
    | none =>
      have hstop (m : ℕ) : run now m s = s := by
        cases m with
        | zero => rfl
        | succ m => rw [run, hs]
      rw [hstop, hstop]
    | some t =>
      have ht := step_rest hs
      obtain ⟨m, hm⟩ := Nat.exists_eq_add_of_lt ht
      obtain ⟨k, rfl⟩ := Nat.exists_eq_add_of_le' (show 1 ≤ n by omega)
      rw [hm, run, run, hs]
      change run now k t = run now (t.rest.length + m) t
      rw [ih k (by omega) (by omega)]
      by_cases hk : t.rest.length + m = k
      · rw [hk, ih k (by omega) (by omega)]
      · exact (ih (t.rest.length + m) (by omega) (by omega)).symm

/-- The loop from here to its end. -/
def finish : Scan := run now s.rest.length s

variable {s now}

lemma finish_step {t : Scan} (h : s.step now = some t) : s.finish now = t.finish now := by
  have ht := step_rest h
  obtain ⟨m, hm⟩ := Nat.exists_eq_add_of_lt ht
  rw [finish, hm, run, h]
  exact run_eq (Nat.le_add_right _ _)

lemma finish_stop (h : s.step now = none) : s.finish now = s := by
  rw [finish]
  cases s.rest.length with
  | zero => rfl
  | succ n => rw [run, h]

end Scan

def apiValuesSet (req : HttpRequest) (table : ValueTable) (now : ℤ) : ValueTable × List Byte :=
  let s := Scan.finish { rest := req.bodyStr, table } now
  (s.table, ascii "HTTP/1.1 200 OK\r\nContent-Type: application/json\r\nConnection: close\r\n\r\n" ++
    ascii "\x7b\"stored\":" ++ ascii (toString s.stored.toNat) ++ ascii ",\"keys\":" ++
    ascii (toString s.table.slots.length) ++ ascii ",\"writes\":" ++
    ascii (toString s.table.writes.toNat) ++ ascii "\x7d")

/-- The one route of `handle_http_request` that is followed here. -/
def handleHttpRequest (req : HttpRequest) (table : ValueTable) (now : ℤ) :
    Option (ValueTable × List Byte) :=
  if req.method = .post ∧ req.path = ascii "/api/values" then some (apiValuesSet req table now)
  else none

end Ledwall.Values
