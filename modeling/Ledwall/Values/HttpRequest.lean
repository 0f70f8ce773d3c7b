import Mathlib.Tactic
import Ledwall.Wire.Protocol

/-! The card's HTTP request: a buffer of 512 bytes that segments are fed into until the request is
whole. -/

namespace Ledwall.Values

open Ledwall.Wire

def ascii (s : String) : List Byte := s.toList.map fun c => BitVec.ofNat 8 c.toNat

def continuation (b : Byte) : Bool := 0x80 ≤ b && b ≤ 0xBF

def utf8Two (a b : Byte) : Bool := 0xC2 ≤ a && a ≤ 0xDF && continuation b

def utf8Three (a b c : Byte) : Bool :=
  (a == 0xE0 && 0xA0 ≤ b && b ≤ 0xBF || 0xE1 ≤ a && a ≤ 0xEC && continuation b ||
    a == 0xED && 0x80 ≤ b && b ≤ 0x9F || 0xEE ≤ a && a ≤ 0xEF && continuation b) && continuation c

def utf8Four (a b c d : Byte) : Bool :=
  (a == 0xF0 && 0x90 ≤ b && b ≤ 0xBF || 0xF1 ≤ a && a ≤ 0xF3 && continuation b ||
    a == 0xF4 && 0x80 ≤ b && b ≤ 0x8F) && continuation c && continuation d

/-- What `core::str::from_utf8` accepts. -/
def validUtf8 : List Byte → Bool
  | [] => true
  | a :: t =>
    if a < 0x80 then validUtf8 t
    else match t with
      | [] => false
      | b :: t =>
        if utf8Two a b then validUtf8 t
        else match t with
          | [] => false
          | c :: t =>
            if utf8Three a b c then validUtf8 t
            else match t with
              | [] => false
              | d :: t => utf8Four a b c d && validUtf8 t

lemma validUtf8_ascii {a : Byte} {t : List Byte} (h : a < 0x80) :
    validUtf8 (a :: t) = validUtf8 t := by
  rw [validUtf8.eq_def]
  exact if_pos h

/-- `from_utf8(b).unwrap_or("")` -/
def fromUtf8 (b : List Byte) : List Byte := if validUtf8 b then b else []

def MAX_REQUEST : ℕ := 512

inductive Method
  | get
  | post
  | unknown
  deriving DecidableEq, Repr

inductive ParseState
  | readingHeaders
  | readingBody (contentLength bodyStart : ℕ)
  | complete
  deriving DecidableEq, Repr

structure HttpRequest where
  buf : List Byte := []
  state : ParseState := .readingHeaders
  deriving DecidableEq, Repr

def findBytes (needle : List Byte) : List Byte → Option ℕ
  | [] => none
  | b :: t =>
    if needle ≠ [] ∧ needle <+: b :: t then some 0 else (findBytes needle t).map (· + 1)

def crlf : List Byte := ascii "\r\n"

def findHeaderEnd (buf : List Byte) : Option ℕ := findBytes (crlf ++ crlf) buf

def isDigit (b : Byte) : Bool := 0x30 ≤ b && b ≤ 0x39

/-- In the card's 32-bit `usize`. -/
def parseUsize (s : List Byte) : Option ℕ :=
  if s = [] then none
  else s.foldlM (fun r b =>
    if isDigit b ∧ r * 10 + (b.toNat - 0x30) < 2 ^ 32 then some (r * 10 + (b.toNat - 0x30))
    else none) 0

def contentLengthAt (headers pattern : List Byte) : Option ℕ :=
  (findBytes pattern headers).map fun pos =>
    (parseUsize ((headers.drop (pos + pattern.length)).takeWhile isDigit)).getD 0

def parseContentLength (headers : List Byte) : ℕ :=
  ((contentLengthAt headers (ascii "Content-Length: ")).or
    (contentLengthAt headers (ascii "content-length: "))).getD 0

namespace HttpRequest

variable (r : HttpRequest)

def isComplete : Bool := r.state = .complete

def fill (data : List Byte) : List Byte := r.buf ++ data.take (MAX_REQUEST - r.buf.length)

def nextState (buf : List Byte) : ParseState :=
  match r.state with
  | .readingHeaders =>
    match findHeaderEnd buf with
    | some headerEnd =>
      if 0 < parseContentLength (buf.take headerEnd) ∧
          buf.length < (headerEnd + 4 + parseContentLength (buf.take headerEnd)) % 2 ^ 32 then
        .readingBody (parseContentLength (buf.take headerEnd)) (headerEnd + 4)
      else .complete
    | none => if MAX_REQUEST ≤ buf.length then .complete else .readingHeaders
  | .readingBody contentLength bodyStart =>
    if (bodyStart + contentLength) % 2 ^ 32 ≤ buf.length ∨ MAX_REQUEST ≤ buf.length then .complete
    else .readingBody contentLength bodyStart
  | .complete => .complete

def feed (data : List Byte) : HttpRequest := ⟨r.fill data, r.nextState (r.fill data)⟩

def method : Method :=
  if ascii "GET " <+: r.buf then .get
  else if ascii "POST " <+: r.buf then .post
  else .unknown

def pathFrom (start : ℕ) : List Byte :=
  let p := (r.buf.drop start).takeWhile fun b => b ≠ 0x20 ∧ b ≠ 0x0D
  if validUtf8 p then p else ascii "/"

def path : List Byte :=
  match r.method with
  | .get => r.pathFrom 4
  | .post => r.pathFrom 5
  | .unknown => ascii "/"

def bodyStr : List Byte :=
  match findHeaderEnd r.buf with
  | some headerEnd => fromUtf8 (r.buf.drop (headerEnd + 4))
  | none => []

end HttpRequest

/-- A connection's request as it is handed to the handler: the segments are fed until it is whole. -/
def receive : HttpRequest → List (List Byte) → Option HttpRequest
  | _, [] => none
  | r, data :: segments =>
    if (r.feed data).isComplete then some (r.feed data) else receive (r.feed data) segments

section Searching

variable {needle hay t : List Byte} {k n : ℕ}

lemma findBytes_some (h : findBytes needle hay = some k) :
    needle <+: hay.drop k ∧ k + needle.length ≤ hay.length := by
  induction hay generalizing k with
  | nil => cases h
  | cons b hay ih =>
    rw [findBytes] at h
    split at h
    · rename_i hp
      obtain rfl := Option.some.inj h
      exact ⟨hp.2, by simpa using hp.2.length_le⟩
    · obtain ⟨j, hj, rfl⟩ := Option.map_eq_some_iff.mp h
      obtain ⟨hpre, hlen⟩ := ih hj
      refine ⟨hpre, ?_⟩
      rw [List.length_cons]
      omega

lemma findBytes_append (h : findBytes needle hay = some k) :
    findBytes needle (hay ++ t) = some k := by
  induction hay generalizing k with
  | nil => cases h
  | cons b hay ih =>
    have hlen := (findBytes_some h).2
    rw [findBytes] at h
    rw [List.cons_append, findBytes]
    split at h
    · rename_i hp
      rw [if_pos ⟨hp.1, hp.2.trans (List.prefix_append (b :: hay) t)⟩, h]
    · rename_i hp
      rw [if_neg]
      · obtain ⟨j, hj, rfl⟩ := Option.map_eq_some_iff.mp h
        rw [ih hj]
        rfl
      · rintro ⟨hne, hpre⟩
        apply hp
        refine ⟨hne, ?_⟩
        have hshort : needle.length ≤ (b :: hay).length := by omega
        exact List.prefix_of_prefix_length_le hpre (List.prefix_append (b :: hay) t) hshort

lemma findBytes_take (h : findBytes needle hay = some k) :
    findBytes needle (hay.take n) = if k + needle.length ≤ n then some k else none := by
  have hlen := (findBytes_some h).2
  cases hf : findBytes needle (hay.take n) with
  | some j =>
    have hj := findBytes_append (t := hay.drop n) hf
    rw [List.take_append_drop, h] at hj
    obtain rfl := Option.some.inj hj
    have hfit := (findBytes_some hf).2
    rw [List.length_take] at hfit
    rw [if_pos (by omega)]
  | none =>
    rw [if_neg]
    intro hn
    induction hay generalizing k n with
    | nil => cases h
    | cons b hay ih =>
      cases n with
      | zero =>
        rw [findBytes] at h
        split at h
        · rename_i hp
          exact hp.1 (List.eq_nil_of_length_eq_zero (by omega))
        · obtain ⟨j, -, rfl⟩ := Option.map_eq_some_iff.mp h
          omega
      | succ n =>
        rw [findBytes] at h
        rw [List.take_succ_cons, findBytes] at hf
        split at h
        · rename_i hp
          obtain rfl := Option.some.inj h
          rw [if_pos] at hf
          · cases hf
          · refine ⟨hp.1, ?_⟩
            rw [← List.take_succ_cons]
            exact List.prefix_take_iff.mpr ⟨hp.2, by omega⟩
        · obtain ⟨j, hj, rfl⟩ := Option.map_eq_some_iff.mp h
          split at hf
          · cases hf
          · exact ih hj (findBytes_some hj).2 (Option.map_eq_none_iff.mp hf) (by omega)

end Searching

end Ledwall.Values
