import Ledwall.Server.Renderer

/-! The brace tokens of a text. -/

namespace Ledwall.Server.Binding

open Ledwall.Server.Rendering (Text)

/-- A piece of a text: a brace token with its kind and argument, or a character outside of one. -/
inductive Segment
  | plain (c : Char)
  | token (raw kind arg : Text)
  deriving DecidableEq

def Segment.raw : Segment → Text
  | .plain c => [c]
  | .token raw _ _ => raw

/-- `[a-z_]` -/
def kindChar (c : Char) : Bool := ('a' ≤ c && c ≤ 'z') || c == '_'

/-- `_TOKEN` behind its opening brace: the kind, the argument, and what follows. -/
def matchToken (s : Text) : Option (Text × Text × Text) :=
  let kind := s.takeWhile kindChar
  if kind = [] then none
  else
    match s.dropWhile kindChar with
    | '}' :: rest => some (kind, [], rest)
    | ':' :: tail =>
      match tail.dropWhile (· ≠ '}') with
      | [] => none
      | _ :: rest => some (kind, tail.takeWhile (· ≠ '}'), rest)
    | _ => none

/-- Where a match of `_TOKEN` starts, if one does here. -/
def tokenAt (c : Char) (s : Text) : Option (Text × Text × Text) :=
  if c = '{' then matchToken s else none

/-- The matches from the left, of a text no longer than the bound. -/
def scanFor : ℕ → Text → List Segment
  | 0, s => s.map .plain
  | _ + 1, [] => []
  | n + 1, c :: s =>
    match tokenAt c s with
    | some (kind, arg, rest) =>
      .token (c :: s.take (s.length - rest.length)) kind arg :: scanFor n rest
    | none => .plain c :: scanFor n s

/-- `_TOKEN.finditer`, with what lies between. -/
def scan (text : Text) : List Segment := scanFor text.length text

lemma matchToken_suffix {s kind arg rest : Text} (h : matchToken s = some (kind, arg, rest)) :
    rest <:+ s := by
  have hdrop : s.dropWhile kindChar <:+ s := List.dropWhile_suffix _
  unfold matchToken at h
  simp only at h
  split at h
  case isTrue => cases h
  case isFalse =>
    split at h
    next r heq =>
      cases h
      exact (List.suffix_cons _ _).trans (heq ▸ hdrop)
    next tail heq =>
      have htail : tail <:+ s := (List.suffix_cons _ _).trans (heq ▸ hdrop)
      split at h
      next => cases h
      next c r hr =>
        cases h
        have : c :: rest <:+ tail := hr ▸ List.dropWhile_suffix _
        exact ((List.suffix_cons _ _).trans this).trans htail
    next => cases h

lemma tokenAt_suffix {c : Char} {s kind arg rest : Text} (h : tokenAt c s = some (kind, arg, rest)) :
    rest <:+ s := by
  unfold tokenAt at h
  split at h
  · exact matchToken_suffix h
  · cases h

lemma scanFor_eq (n : ℕ) : ∀ {s : Text}, s.length ≤ n → scanFor n s = scan s := by
  suffices h : ∀ (m n : ℕ) (s : Text), s.length ≤ m → s.length ≤ n → scanFor n s = scanFor m s from
    fun {s} hn => h s.length n s le_rfl hn
  intro m
  induction m with
  | zero =>
    intro n s hm _
    obtain rfl := List.length_eq_zero_iff.mp (Nat.le_zero.mp hm)
    cases n <;> rfl
  | succ m ih =>
    intro n s hm hn
    cases s with
    | nil => cases n <;> rfl
    | cons c s =>
      cases n with
      | zero => cases hn
      | succ n =>
        have hm' : s.length ≤ m := Nat.le_of_succ_le_succ hm
        have hn' : s.length ≤ n := Nat.le_of_succ_le_succ hn
        rw [scanFor, scanFor]
        split
        next kind arg rest heq =>
          have hle := (tokenAt_suffix heq).length_le
          rw [ih n rest (hle.trans hm') (hle.trans hn')]
        next => rw [ih n s hm' hn']

/-- The scan goes on behind a match, or behind a character where there is none. -/
theorem scan_cons (c : Char) (s : Text) : scan (c :: s) =
    match tokenAt c s with
    | some (kind, arg, rest) =>
      .token (c :: s.take (s.length - rest.length)) kind arg :: scan rest
    | none => .plain c :: scan s := by
  rw [scan, List.length_cons, scanFor]
  split
  next kind arg rest heq => rw [scanFor_eq s.length (tokenAt_suffix heq).length_le]
  next => rfl

/-- Nothing of the text is lost between the tokens. -/
theorem scan_raw (text : Text) : (scan text).flatMap Segment.raw = text := by
  suffices h : ∀ (n : ℕ) (s : Text), (scanFor n s).flatMap Segment.raw = s from h _ _
  intro n
  induction n with
  | zero =>
    intro s
    induction s with
    | nil => rfl
    | cons c s ih => exact congrArg (c :: ·) ih
  | succ n ih =>
    intro s
    cases s with
    | nil => rfl
    | cons c s =>
      rw [scanFor]
      split
      next kind arg rest heq =>
        obtain ⟨front, rfl⟩ := tokenAt_suffix heq
        simp [Segment.raw, ih]
      next => simp [Segment.raw, ih]

end Ledwall.Server.Binding
