import Ledwall.Values.ValueTable

/-! The host's push: the values as JSON, in the request `urllib` makes of them, and what the card's
request buffer makes of its segments. -/

namespace Ledwall.Values

open Ledwall.Wire

abbrev Str := List Char

-- Where all of Mathlib is seen, the search finds an instance that goes through every character.
instance (priority := high) decidableForallMem {p : Char → Prop} [DecidablePred p] (s : Str) :
    Decidable (∀ c ∈ s, p c) := List.decidableBAll p s

def utf8 (s : Str) : List Byte := s.flatMap fun c => (String.utf8EncodeChar c).map (·.toBitVec)

def HIST_LEN : ℕ := 60
def HIST_BASE : ℕ := 48
def HIST_STEPS : ℕ := 63

/-- On exact quotients, where Python's are floats. -/
def encodeSeries (nums : List ℚ) (length : ℕ) : Str :=
  match nums with
  | [] => []
  | v :: vs =>
    let lo := vs.foldl min v
    let hi := vs.foldl max v
    let span := if hi - lo = 0 then 1 else hi - lo
    (List.range length).map fun i => Char.ofNat <| HIST_BASE +
      ⌊((v :: vs).getD (i * vs.length / max 1 (length - 1)) 0 - lo) / span * HIST_STEPS⌋.toNat

def hex4 (n : ℕ) : Str :=
  [(n / 4096 % 16).digitChar, (n / 256 % 16).digitChar, (n / 16 % 16).digitChar,
    (n % 16).digitChar]

/-- `json.dumps` escapes what is not printable ASCII, with a surrogate pair from 2^16 on. -/
def escapeChar (c : Char) : Str :=
  if c = '"' then ['\\', '"']
  else if c = '\\' then ['\\', '\\']
  else if c = '\n' then ['\\', 'n']
  else if c = '\r' then ['\\', 'r']
  else if c = '\t' then ['\\', 't']
  else if c = '\x0c' then ['\\', 'f']
  else if c = '\x08' then ['\\', 'b']
  else if ' ' ≤ c ∧ c ≤ '~' then [c]
  else if c.toNat < 0x10000 then '\\' :: 'u' :: hex4 c.toNat
  else '\\' :: 'u' :: hex4 (0xD800 + (c.toNat - 0x10000) / 1024 % 1024) ++
    '\\' :: 'u' :: hex4 (0xDC00 + (c.toNat - 0x10000) % 1024)

def jsonString (s : Str) : Str := '"' :: s.flatMap escapeChar ++ ['"']

def jsonPair (p : Str × Str) : Str := jsonString p.1 ++ [':', ' '] ++ jsonString p.2

def jsonPairs : List (Str × Str) → Str
  | [] => []
  | [p] => jsonPair p
  | p :: q :: ps => jsonPair p ++ [',', ' '] ++ jsonPairs (q :: ps)

/-- A Python dictionary of strings. -/
structure Dict where
  items : List (Str × Str)
  nodup : (items.map Prod.fst).Nodup

def jsonDumps (d : Dict) : Str := '\x7b' :: jsonPairs d.items ++ ['\x7d']

def Dict.body (d : Dict) : List Byte := utf8 (jsonDumps d)

def decimal (n : ℕ) : List Byte :=
  if n = 0 then [0x30] else (Nat.digits 10 n).reverse.map fun d => BitVec.ofNat 8 (0x30 + d)

def joinLines : List (List Byte) → List Byte
  | [] => []
  | [l] => l
  | l :: m :: ls => l ++ crlf ++ joinLines (m :: ls)

/-- The lines `urllib` sends ahead of the body. -/
def headLines (host version : List Byte) (n : ℕ) : List (List Byte) :=
  [ascii "POST /api/values HTTP/1.1", ascii "Accept-Encoding: identity",
    ascii "Content-Length: " ++ decimal n, ascii "Host: " ++ host,
    ascii "User-Agent: Python-urllib/" ++ version, ascii "Content-Type: application/json",
    ascii "Connection: close"]

def request (host version body : List Byte) : List Byte :=
  joinLines (headLines host version body.length) ++ (crlf ++ crlf) ++ body

section Digits

lemma isDigit_decimal {n : ℕ} {b : Byte} (h : b ∈ decimal n) : isDigit b = true := by
  rw [decimal] at h
  split at h
  · obtain rfl := List.mem_singleton.mp h
    decide
  · obtain ⟨d, hd, rfl⟩ := List.mem_map.mp h
    have hlt := Nat.digits_lt_base (by decide : 1 < 10) (List.mem_reverse.mp hd)
    interval_cases d <;> decide

lemma isDigit_ofNat {d : ℕ} (h : d < 10) :
    isDigit (BitVec.ofNat 8 (0x30 + d)) = true ∧ (BitVec.ofNat 8 (0x30 + d)).toNat - 0x30 = d := by
  interval_cases d <;> decide

lemma parse_digits {ds : List ℕ} (hds : ∀ d ∈ ds, d < 10) (r : ℕ)
    (h : ds.foldl (fun r d => r * 10 + d) r < 2 ^ 32) :
    (ds.map fun d => BitVec.ofNat 8 (0x30 + d)).foldlM (fun r b =>
      if isDigit b ∧ r * 10 + (b.toNat - 0x30) < 2 ^ 32 then some (r * 10 + (b.toNat - 0x30))
      else none) r = some (ds.foldl (fun r d => r * 10 + d) r) := by
  induction ds generalizing r with
  | nil => rfl
  | cons d ds ih =>
    obtain ⟨hdigit, hval⟩ := isDigit_ofNat (hds d List.mem_cons_self)
    have hle (l : List ℕ) (x : ℕ) : x ≤ l.foldl (fun r d => r * 10 + d) x := by
      induction l generalizing x with
      | nil => exact le_rfl
      | cons e l ihl => exact (by omega : x ≤ x * 10 + e).trans (ihl _)
    have hlt := (hle ds (r * 10 + d)).trans_lt h
    rw [List.map_cons, List.foldlM_cons, hval, if_pos ⟨hdigit, hlt⟩, List.foldl_cons]
    exact ih (fun e he => hds e (List.mem_cons_of_mem d he)) _ h

lemma parseUsize_decimal {n : ℕ} (h : n < 2 ^ 32) : parseUsize (decimal n) = some n := by
  rw [decimal]
  split
  · rename_i hn
    subst hn
    decide
  · rename_i hn
    have hval : (Nat.digits 10 n).reverse.foldl (fun r d => r * 10 + d) 0 = n := by
      rw [List.foldl_reverse]
      conv_rhs => rw [← Nat.ofDigits_digits 10 n, Nat.ofDigits_eq_foldr]
      congr 1
      funext d r
      rw [Nat.mul_comm, Nat.add_comm]
      rfl
    rw [parseUsize, if_neg]
    · rw [parse_digits _ 0 (hval.symm ▸ h), hval]
      intro d hd
      exact Nat.digits_lt_base (by decide) (List.mem_reverse.mp hd)
    · intro hnil
      rw [List.map_eq_nil_iff, List.reverse_eq_nil_iff] at hnil
      exact Nat.digits_ne_nil_iff_ne_zero.mpr hn hnil

end Digits

section Head

variable {host version body t : List Byte} {n : ℕ}

/-- No header line holds a carriage return, and none is empty. -/
def Line (l : List Byte) : Prop := l ≠ [] ∧ 0x0D ∉ l

instance (l : List Byte) : Decidable (Line l) := inferInstanceAs (Decidable (_ ∧ _))

lemma findHeaderEnd_cons {b : Byte} (h : b ≠ 0x0D) :
    findHeaderEnd (b :: t) = (findHeaderEnd t).map (· + 1) := by
  rw [findHeaderEnd, findBytes, if_neg]
  · rfl
  · rintro ⟨-, hp⟩
    exact h (List.cons_prefix_cons.mp hp).1.symm

lemma findHeaderEnd_line {l : List Byte} (h : 0x0D ∉ l) :
    findHeaderEnd (l ++ t) = (findHeaderEnd t).map (· + l.length) := by
  induction l with
  | nil => simp
  | cons b l ih =>
    have hb := List.ne_of_not_mem_cons h
    rw [List.cons_append, findHeaderEnd_cons hb.symm, ih (List.not_mem_of_not_mem_cons h),
      Option.map_map]
    rfl

lemma findHeaderEnd_crlf {b : Byte} (h : b ≠ 0x0D) :
    findHeaderEnd (crlf ++ b :: t) = (findHeaderEnd (b :: t)).map (· + 2) := by
  change findHeaderEnd (0x0D :: 0x0A :: b :: t) = _
  rw [findHeaderEnd, findBytes, if_neg]
  · change (findHeaderEnd (0x0A :: b :: t)).map (· + 1) = _
    rw [findHeaderEnd_cons (by decide), Option.map_map]
    rfl
  · rintro ⟨-, hp⟩
    have hp := (List.cons_prefix_cons.mp (List.cons_prefix_cons.mp hp).2).2
    exact h (List.cons_prefix_cons.mp hp).1.symm

lemma findHeaderEnd_joinLines {ls : List (List Byte)} (h : ∀ l ∈ ls, Line l) :
    findHeaderEnd (joinLines ls ++ (crlf ++ crlf) ++ t) = some (joinLines ls).length := by
  have hend : findHeaderEnd ((crlf ++ crlf) ++ t) = some 0 := by
    have hp : (crlf ++ crlf) <+: (crlf ++ crlf) ++ t := List.prefix_append _ _
    change findBytes (crlf ++ crlf) (0x0D :: 0x0A :: 0x0D :: 0x0A :: t) = some 0
    rw [findBytes, if_pos ⟨by decide, hp⟩]
  induction ls with
  | nil => exact hend
  | cons l ls ih =>
    obtain ⟨hne, hl⟩ := h l List.mem_cons_self
    cases ls with
    | nil =>
      rw [joinLines, List.append_assoc, findHeaderEnd_line hl, hend]
      simp
    | cons m ms =>
      have ih := ih fun k hk => h k (List.mem_cons_of_mem l hk)
      obtain ⟨hmne, hm⟩ := h m (List.mem_cons_of_mem l List.mem_cons_self)
      obtain ⟨b, hb, rest, hrest⟩ : ∃ b, b ≠ 0x0D ∧ ∃ rest, joinLines (m :: ms) = b :: rest := by
        cases m with
        | nil => exact absurd rfl hmne
        | cons b m =>
          refine ⟨b, (List.ne_of_not_mem_cons hm).symm, ?_⟩
          cases ms with
          | nil => exact ⟨m, rfl⟩
          | cons k ks => exact ⟨_, rfl⟩
      rw [joinLines, List.append_assoc, List.append_assoc, List.append_assoc, findHeaderEnd_line hl,
        hrest, List.cons_append, findHeaderEnd_crlf hb, ← List.cons_append, ← hrest,
        ← List.append_assoc, ih]
      simp only [Option.map_some, List.length_append, show crlf.length = 2 from rfl]
      congr 1
      omega

lemma headLines_line (hhost : 0x0D ∉ host) (hversion : 0x0D ∉ version) :
    ∀ l ∈ headLines host version n, Line l := by
  have hline {l x : List Byte} (hl : Line l) (hx : 0x0D ∉ x) : Line (l ++ x) := by
    refine ⟨fun h => hl.1 (List.append_eq_nil_iff.mp h).1, fun h => ?_⟩
    exact (List.mem_append.mp h).elim hl.2 hx
  have hdecimal : 0x0D ∉ decimal n := fun h => absurd (isDigit_decimal h) (by decide)
  intro l hl
  simp only [headLines, List.mem_cons, List.not_mem_nil, or_false] at hl
  rcases hl with rfl | rfl | rfl | rfl | rfl | rfl | rfl
  · decide
  · decide
  · exact hline (by decide) hdecimal
  · exact hline (by decide) hhost
  · exact hline (by decide) hversion
  · decide
  · decide

lemma joinLines_headLines (host version : List Byte) (n : ℕ) : ∃ rest,
    joinLines (headLines host version n) =
      ascii "POST /api/values HTTP/1.1\r\nAccept-Encoding: identity\r\nContent-Length: " ++
        (decimal n ++ 0x0D :: rest) := by
  refine ⟨0x0A :: joinLines [ascii "Host: " ++ host, ascii "User-Agent: Python-urllib/" ++ version,
    ascii "Content-Type: application/json", ascii "Connection: close"], ?_⟩
  have hlines : ascii "POST /api/values HTTP/1.1\r\nAccept-Encoding: identity\r\nContent-Length: " =
      ascii "POST /api/values HTTP/1.1" ++ (crlf ++ (ascii "Accept-Encoding: identity" ++
        (crlf ++ ascii "Content-Length: "))) := by
    decide +kernel
  have hcrlf : crlf = [0x0D, 0x0A] := by decide
  rw [hlines]
  simp only [headLines, joinLines, List.append_assoc, hcrlf, List.cons_append, List.nil_append]

lemma parseContentLength_head (hn : n < 2 ^ 32) :
    parseContentLength (joinLines (headLines host version n)) = n := by
  obtain ⟨rest, hrest⟩ := joinLines_headLines host version n
  have hfind : findBytes (ascii "Content-Length: ") (joinLines (headLines host version n)) =
      some 54 := by
    rw [hrest]
    exact findBytes_append (by decide +kernel)
  have hat : contentLengthAt (joinLines (headLines host version n)) (ascii "Content-Length: ") =
      some n := by
    rw [contentLengthAt, hfind, hrest, Option.map_some]
    have hdrop : (ascii "POST /api/values HTTP/1.1\r\nAccept-Encoding: identity\r\nContent-Length: " ++
        (decimal n ++ 0x0D :: rest)).drop (54 + (ascii "Content-Length: ").length) =
          decimal n ++ 0x0D :: rest := List.drop_left' (by decide +kernel)
    rw [hdrop, List.takeWhile_append_of_pos fun b hb => isDigit_decimal hb]
    rw [List.takeWhile_cons_of_neg (by decide), List.append_nil, parseUsize_decimal hn]
    rfl
  rw [parseContentLength, hat]
  rfl

end Head

end Ledwall.Values
