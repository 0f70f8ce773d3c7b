import Ledwall.Server.Bitstreams
import Ledwall.Flash.FairLoads

/-! The push of a stored bitstream to a card: the request, the file server, and how a push ends of
which nothing is lost. -/

namespace Ledwall.Server.Bitstreams

open Ledwall.Wire Ledwall.Values Ledwall.Flash Ledwall.Flash.BitstreamLoader Ledwall.Flash.Joint
  Ledwall.Library.Fairness

local instance : LawfulBEq Byte := inferInstance

/-- The string behind a key, from the key's closing quote on. -/
def fieldValue (rest : List Byte) : Option (List Byte) :=
  match rest.dropWhile (· = 0x20) with
  | 0x3A :: rest =>
    match rest.dropWhile (· = 0x20) with
    | 0x22 :: v => if 0x22 ∈ v then some (v.takeWhile (· ≠ 0x22)) else none
    | _ => none
  | _ => none

def jsonGetStr (key : List Byte) : List Byte → Option (List Byte)
  | [] => none
  | b :: t =>
    match if b = 0x22 ∧ key ++ [0x22] <+: t then fieldValue (t.drop (key.length + 1)) else none with
    | some v => if validUtf8 v then some v else none
    | none => jsonGetStr key t

inductive PostError
  | fileRequired
  | alreadyRunning
  | noBootServer
  | flash (e : FlashError)
  deriving DecidableEq, Repr

/-- `server` is the one the request names, else the one the card booted from. -/
def flashBitstreamPost (l : BitstreamLoader) (c : Chip) (server : Option (BitVec 32))
    (body : List Byte) : Except PostError Unit × BitstreamLoader :=
  match jsonGetStr (ascii "file") body with
  | some (b :: file) =>
    if l.isActive then (.error .alreadyRunning, l)
    else
      match server with
      | none => (.error .noBootServer, l)
      | some server =>
        match l.start c server (b :: file) with
        | (.ok (), l) => (.ok (), l)
        | (.error e, l) => (.error (.flash e), l)
  | _ => (.error .fileRequired, l)

/-- The stored bitstreams. -/
structure Store where
  file : Str → Option (List Byte)
  safe : ∀ name body, file name = some body → safeName name = true

/-- `_safe_path` -/
def safePath (name : Str) : Bool :=
  !(name.isEmpty || '/' ∈ name || ['.', '.'] <:+: name || name.head? == some '.')

inductive PushRefusal
  | unsafeName
  | noSuchBitstream
  | noGolden
  | cardRefused (e : PostError)
  deriving DecidableEq, Repr

/-- `json.dumps(\x7b"file": name\x7d)` -/
def postBody (name : Str) : List Byte :=
  Dict.body ⟨[("file".toList, name)], List.nodup_singleton _⟩

/-- `push_bitstream` up to where it waits: the loader the card has started. -/
def pushBitstream (store : Store) (l : BitstreamLoader) (c : Chip) (server : Option (BitVec 32))
    (name : Str) : Except PushRefusal BitstreamLoader :=
  if !safePath name then .error .unsafeName
  else if (store.file name).isNone then .error .noSuchBitstream
  else if !c.goldenPresent then .error .noGolden
  else
    match flashBitstreamPost l c server (postBody name) with
    | (.ok (), l) => .ok l
    | (.error e, _) => .error (.cardRefused e)

def decodeAscii (b : List Byte) : Str := b.map fun x => Char.ofNat x.toNat

/-- `tftp_resolve` of a name that ends as a bitstream's does. -/
def tftpResolve (store : Store) (filename : List Byte) : Option (List Byte) :=
  let name := basename (decodeAscii filename)
  if bitSuffix <:+ name then store.file name else none

def notFound : List Byte := [0, OPCODE_ERROR, 0, 1] ++ ascii "File not found" ++ [0]

/-- A server that does not have the file. -/
def turnAway (ep : Endpoint) (j : Joint) : Action → Joint
  | .receive i =>
    match j.up[i]? with
    | none => j
    | some d =>
      if j.server = .waiting ∧ d.1 = requestTo ep ∧ d.2.getD 1 0 = OPCODE_RRQ then
        { j with server := .failed, up := j.up.eraseIdx i, down := j.down ++ [(ep, notFound)] }
      else { j with up := j.up.eraseIdx i }
  | a => j.step [] ep a

def serve (found : Option (List Byte)) (ep : Endpoint) (j : Joint) (a : Action) : Joint :=
  match found with
  | some f => j.step f ep a
  | none => turnAway ep j a

/-- A push that nothing is lost of is refused before a command reaches the flash, or ends with the
file installed. -/
def Installs (store : Store) (name : Str) (body : List Byte) (ep : Endpoint) (l : BitstreamLoader)
    (c : Chip) (now : ℤ) : Prop :=
  ∀ l', pushBitstream store l c (some ep.addr) name = .ok l' →
    ∀ schedule, Faithful (serve (tftpResolve store l'.filename) ep) (begin l' c now) schedule →
      ∃ n j, along (serve (tftpResolve store l'.filename) ep) (begin l' c now) schedule n = j ∧
        (j.load.loader.state = .finished ∧ Installed body j.load.chip ∨
          j.load.loader.state = .failed ∧ j.load.chip.issued = c.issued)

/-- The name as the card is told it. -/
def asked (name : Str) : List Byte := utf8 (name.flatMap escapeChar)

section Requests

variable {name : Str} {c : Char}

lemma printable_asked (name : Str) : ∀ c ∈ name.flatMap escapeChar, Printable c := by
  intro d hd
  obtain ⟨c, -, hd⟩ := List.mem_flatMap.mp hd
  exact printable_escapeChar c d hd

/-- What the escapes are written with, the quote's apart. -/
def ESCAPES : Str := "\\nrtfbu0123456789abcdef".toList

lemma mem_hex4 {x : Char} (n : ℕ) (h : x ∈ hex4 n) : x ∈ ESCAPES := by
  have hdigit (n : ℕ) : (n % 16).digitChar ∈ ESCAPES := by
    have : n % 16 < 16 := Nat.mod_lt n (by decide)
    interval_cases n % 16 <;> decide
  simp only [hex4, List.mem_cons, List.not_mem_nil, or_false] at h
  rcases h with rfl | rfl | rfl | rfl <;> exact hdigit _

lemma escapeChar_other {x : Char} (hx : x ∉ ESCAPES) (hquote : c ≠ '"') (hne : c ≠ x) :
    x ∉ escapeChar c := by
  have hhex (n : ℕ) : x ∉ hex4 n := fun h => hx (mem_hex4 n h)
  have hletter : ∀ y ∈ ESCAPES, x ≠ y := fun y hy h => hx (h ▸ hy)
  have hback := hletter '\\' (by decide)
  have hu := hletter 'u' (by decide)
  rw [escapeChar, if_neg hquote]
  split
  · simp [hback]
  split
  · simp [hback, hletter 'n' (by decide)]
  split
  · simp [hback, hletter 'r' (by decide)]
  split
  · simp [hback, hletter 't' (by decide)]
  split
  · simp [hback, hletter 'f' (by decide)]
  split
  · simp [hback, hletter 'b' (by decide)]
  split
  · simp [hne.symm]
  split
  · simp [hback, hu, hhex]
  · simp [hback, hu, hhex]

lemma escapeChar_backslash (h : ¬ Printable c) : '\\' ∈ escapeChar c := by
  have hquote : c ≠ '"' := by
    rintro rfl
    exact h (by decide)
  rw [escapeChar, if_neg hquote]
  iterate 6
    split
    · decide
  split
  · next hp => exact absurd hp h
  split
  · exact List.mem_cons_self
  · exact List.mem_cons_self

lemma asked_no_quote (h : ∀ c ∈ name, c ≠ '"') : 0x22 ∉ asked name := by
  rw [asked, utf8_printable (printable_asked name)]
  intro hq
  obtain ⟨d, hd, hdq⟩ := List.mem_map.mp hq
  have hd' : d = '"' := toByte_inj (printable_asked name d hd) (by decide) (hdq.trans (by decide))
  obtain ⟨c, hc, hd⟩ := List.mem_flatMap.mp hd
  rw [hd'] at hd
  exact escapeChar_other (by decide) (h c hc) (h c hc) hd

lemma decode_asked (name : Str) : decodeAscii (asked name) = name.flatMap escapeChar := by
  rw [asked, utf8_printable (printable_asked name), decodeAscii, List.map_map]
  have hround : ∀ c ∈ name.flatMap escapeChar,
      ((fun x : Byte => Char.ofNat x.toNat) ∘ toByte) c = c := by
    intro c hc
    rw [Function.comp_apply, toByte_toNat (printable_asked name c hc)]
    exact Char.ofNat_toNat c
  exact (List.map_congr_left hround).trans (List.map_id _)

lemma jsonGetStr_postBody (h : ∀ c ∈ name, c ≠ '"') :
    jsonGetStr (ascii "file") (postBody name) = some (asked name) := by
  have hquote := asked_no_quote h
  have hbody : postBody name = 0x7B :: 0x22 :: (ascii "file" ++ 0x22 :: 0x3A :: 0x20 :: 0x22 ::
      (asked name ++ [0x22, 0x7D])) := by
    have hfile : utf8 ('\x7b' :: (jsonString "file".toList ++ [':', ' '])) =
        0x7B :: 0x22 :: (ascii "file" ++ [0x22, 0x3A, 0x20]) := by decide
    change utf8 ('\x7b' :: (jsonString "file".toList ++ [':', ' '] ++
      ('"' :: name.flatMap escapeChar ++ ['"'])) ++ ['\x7d']) = _
    rw [← List.cons_append, utf8_append, utf8_append, hfile, List.cons_append, utf8_cons,
      utf8_append]
    simp only [List.cons_append, List.append_assoc, List.nil_append]
    rfl
  have hvalue : fieldValue (0x3A :: 0x20 :: 0x22 :: (asked name ++ [0x22, 0x7D])) =
      some (asked name) := by
    change (if 0x22 ∈ asked name ++ [0x22, 0x7D] then
      some ((asked name ++ [0x22, 0x7D]).takeWhile (· ≠ 0x22)) else none) = _
    rw [if_pos (by simp), (takeWhile_quote hquote).1]
  have hvalid : validUtf8 (asked name) = true := by
    apply validUtf8_printable
    rw [asked, utf8_printable (printable_asked name)]
    intro b hb
    obtain ⟨c, hc, rfl⟩ := List.mem_map.mp hb
    exact printableByte_toByte (printable_asked name c hc)
  rw [hbody, jsonGetStr, if_neg fun h => absurd h.1 (by decide), jsonGetStr, if_pos]
  · change (match fieldValue (0x3A :: 0x20 :: 0x22 :: (asked name ++ [0x22, 0x7D])) with
      | some v => if validUtf8 v then some v else none
      | none => jsonGetStr (ascii "file") _) = _
    rw [hvalue]
    exact if_pos hvalid
  · refine ⟨rfl, ?_⟩
    exact ⟨0x3A :: 0x20 :: 0x22 :: (asked name ++ [0x22, 0x7D]), by simp⟩

end Requests

section Starts

variable {store : Store} {l l' : BitstreamLoader} {c : Chip} {server : BitVec 32} {name : Str}
  {body raw : List Byte} {filename : Str}

lemma start_ok {file : List Byte} (h : l.start c server file = (.ok (), l')) :
    l'.filename = file ∧ file.length ≤ MAX_FILENAME := by
  rw [BitstreamLoader.start] at h
  split at h
  · cases h
  · dsimp only at h
    split at h
    · cases h
    · next hlong =>
      cases h
      exact ⟨rfl, not_lt.mp hlong⟩

lemma pushBitstream_ok (hq : ∀ c ∈ name, c ≠ '"')
    (h : pushBitstream store l c (some server) name = .ok l') :
    l.isActive = false ∧ l.start c server (asked name) = (.ok (), l') := by
  rw [pushBitstream] at h
  split at h
  · cases h
  split at h
  · cases h
  split at h
  · cases h
  rw [flashBitstreamPost, jsonGetStr_postBody hq] at h
  cases hfile : asked name with
  | nil =>
    rw [hfile] at h
    cases h
  | cons b file =>
    rw [hfile] at h
    dsimp only at h
    cases hactive : l.isActive with
    | true =>
      rw [hactive] at h
      cases h
    | false =>
      rw [hactive, if_neg Bool.false_ne_true] at h
      refine ⟨rfl, ?_⟩
      cases hstart : l.start c server (b :: file) with
      | mk r l₁ =>
        rw [hstart] at h
        cases r with
        | ok u =>
          cases h
          rfl
        | error e => cases h

lemma uploadBitstream_ok (h : uploadBitstream filename raw = .ok (name, body)) :
    path name = .ok () ∧ bitSuffix <:+ name ∧ payload raw = .ok body := by
  rw [uploadBitstream] at h
  cases hpath : path (if bitSuffix <:+ basename filename then basename filename
      else basename filename ++ bitSuffix) with
  | error e =>
    rw [hpath] at h
    cases h
  | ok u =>
    rw [hpath] at h
    cases hbody : payload raw with
    | error e =>
      rw [hbody] at h
      cases h
    | ok b =>
      rw [hbody] at h
      cases h
      refine ⟨hpath, ?_, rfl⟩
      split
      · assumption
      · exact List.suffix_append _ _

lemma path_ok (h : path name = .ok ()) :
    '/' ∉ name ∧ ¬ ['.', '.'] <:+: name ∧ safeName name = true := by
  rw [path] at h
  split at h
  · cases h
  next hsafe =>
  split at h
  · next hname =>
    rw [not_or] at hsafe
    exact ⟨hsafe.1, hsafe.2, hname⟩
  · cases h

lemma safeName_head (h : safeName name = true) : name.head? = some '5' ∨ name.head? = some 'e' := by
  rw [safeName, List.any_eq_true] at h
  obtain ⟨b, hb, hname⟩ := h
  rw [Bool.and_eq_true] at hname
  obtain ⟨t, rfl⟩ := List.isPrefixOf_iff_prefix.mp hname.1
  simp only [BOARDS, List.mem_cons, List.not_mem_nil, or_false] at hb
  rcases hb with rfl | rfl
  · exact .inl rfl
  · exact .inr rfl

lemma path_safePath (h : path name = .ok ()) : safePath name = true := by
  obtain ⟨hslash, hdots, hname⟩ := path_ok h
  have hhead := safeName_head hname
  have hne : name ≠ [] := by
    rintro rfl
    simp at hhead
  rcases hhead with hhead | hhead <;> simp [safePath, hslash, hdots, hne, hhead]

lemma basename_of_plain {s : Str} (h : '/' ∉ s) : basename s = s := by
  have hall : ∀ c ∈ s.reverse, decide (c ≠ '/') = true := by
    intro c hc
    rw [decide_eq_true_eq]
    rintro rfl
    exact h (List.mem_reverse.mp hc)
  have htake := @List.takeWhile_append_of_pos Char _ s.reverse [] hall
  rw [List.append_nil, List.takeWhile_nil, List.append_nil] at htake
  rw [basename, htake, List.reverse_reverse]

lemma tftpResolve_plain (h : path name = .ok ()) (hbit : bitSuffix <:+ name)
    (hplain : ∀ c ∈ name, Printable c) : tftpResolve store (asked name) = store.file name := by
  obtain ⟨hslash, -, hname⟩ := path_ok h
  have hescape : name.flatMap escapeChar = name := by
    apply Plain.escape
    refine ⟨?_, fun c hc => ⟨hplain c hc, (safeName_chars hname c hc).unescaped⟩⟩
    rintro rfl
    have := safeName_head hname
    simp at this
  rw [tftpResolve, decode_asked, hescape, basename_of_plain hslash, if_pos hbit]

lemma tftpResolve_escaped (hpath : path name = .ok ()) (h : ¬ ∀ c ∈ name, Printable c) :
    tftpResolve store (asked name) = none := by
  obtain ⟨hslash, -, hname⟩ := path_ok hpath
  rw [not_forall] at h
  obtain ⟨c, hc⟩ := h
  rw [Classical.not_imp] at hc
  have hback : '\\' ∈ name.flatMap escapeChar :=
    List.mem_flatMap.mpr ⟨c, hc.1, escapeChar_backslash hc.2⟩
  have hescaped : '/' ∉ name.flatMap escapeChar := by
    intro hc
    obtain ⟨c, hc, hmem⟩ := List.mem_flatMap.mp hc
    refine escapeChar_other (by decide) (safeName_chars hname c hc).unescaped.1 ?_ hmem
    rintro rfl
    exact hslash hc
  rw [tftpResolve, decode_asked, basename_of_plain hescaped]
  split
  · cases hfile : store.file (name.flatMap escapeChar) with
    | none => rfl
    | some f =>
      have hchars := safeName_chars (store.safe _ f hfile) _ hback
      exact absurd rfl hchars.unescaped.2
  · rfl

end Starts

section TurnedAway

variable {ep : Endpoint} {c : Chip} {up down rx : List Flash.Datagram} {server : Flash.Server}
  {d : Flash.Datagram} {j : Joint} {a : Action} {schedule : ℕ → Action}

/-- Where a waiting loader, its server and the datagrams between them are. -/
structure Stage (c : Chip) (up down rx : List Flash.Datagram) (server : Flash.Server) (j : Joint) :
    Prop where
  waits : j.load.loader.state = .waitData
  chip : j.load.chip = c
  up : j.up = up
  down : j.down = down
  rx : j.load.socket.rx = rx
  server : j.server = server

lemma Stage.poll (h : Stage c up down [] server j) {around : Around}
    (htime : j.InTime (.poll around)) :
    Stage c up down [] server (turnAway ep j (.poll around)) := by
  have hpoll := poll_empty (c := j.load.chip) h.waits (htime.2 h.waits) h.rx
  simp only [turnAway, Joint.step, Load.step, hpoll, List.append_nil]
  exact ⟨h.waits, h.chip, h.up, h.down, h.rx, h.server⟩

lemma Stage.retransmit (h : Stage c up down rx server j) (hs : ∀ k, server ≠ .sending k) :
    turnAway ep j .retransmit = j := by
  rw [turnAway, Joint.step]
  · split
    · next k hk =>
      rw [h.server] at hk
      exact absurd hk (hs k)
    · rfl
  · exact fun _ => Flash.Action.noConfusion

lemma Stage.requested (h : Stage c [d] [] [] .waiting j) (hd : IsRequest ep d) (hl : a.Lossless)
    (htime : j.InTime a) :
    Stage c [] [(ep, notFound)] [] .failed (turnAway ep j a) ∨
      a ≠ .receive 0 ∧ Stage c [d] [] [] .waiting (turnAway ep j a) := by
  cases a with
  | poll around => exact .inr ⟨Flash.Action.noConfusion, h.poll htime⟩
  | deliver i =>
    refine .inr ⟨Flash.Action.noConfusion, ?_⟩
    simp only [turnAway, Joint.step, h.down, List.getElem?_nil]
    exact h
  | receive i =>
    rcases Nat.eq_zero_or_pos i with rfl | hpos
    · left
      simp only [turnAway, h.up, List.getElem?_cons_zero]
      rw [if_pos ⟨h.server, hd⟩]
      exact ⟨h.waits, h.chip, rfl, by rw [h.down]; rfl, h.rx, rfl⟩
    · right
      have hnone : [d][i]? = none := List.getElem?_eq_none_iff.mpr hpos
      simp only [turnAway, h.up, hnone]
      refine ⟨?_, h⟩
      rintro ⟨⟩
      omega
  | retransmit =>
    rw [h.retransmit fun _ => Server.noConfusion]
    exact .inr ⟨Flash.Action.noConfusion, h⟩
  | loseUp i => exact absurd hl id
  | loseDown i => exact absurd hl id
  | giveUp => exact absurd hl id

lemma Stage.answered (h : Stage c [] [d] [] .failed j) (hl : a.Lossless) (htime : j.InTime a) :
    Stage c [] [] [d] .failed (turnAway ep j a) ∨
      a ≠ .deliver 0 ∧ Stage c [] [d] [] .failed (turnAway ep j a) := by
  cases a with
  | poll around => exact .inr ⟨Flash.Action.noConfusion, h.poll htime⟩
  | deliver i =>
    rcases Nat.eq_zero_or_pos i with rfl | hpos
    · left
      simp only [turnAway, Joint.step, h.down, List.getElem?_cons_zero]
      exact ⟨h.waits, h.chip, h.up, rfl, by simp [Load.step, h.rx], h.server⟩
    · right
      have hnone : [d][i]? = none := List.getElem?_eq_none_iff.mpr hpos
      simp only [turnAway, Joint.step, h.down, hnone]
      refine ⟨?_, h⟩
      rintro ⟨⟩
      omega
  | receive i =>
    refine .inr ⟨Flash.Action.noConfusion, ?_⟩
    simp only [turnAway, h.up, List.getElem?_nil]
    exact h
  | retransmit =>
    rw [h.retransmit fun _ => Server.noConfusion]
    exact .inr ⟨Flash.Action.noConfusion, h⟩
  | loseUp i => exact absurd hl id
  | loseDown i => exact absurd hl id
  | giveUp => exact absurd hl id

lemma Stage.refused (h : Stage c [] [] [(ep, notFound)] .failed j) (hl : a.Lossless)
    (htime : j.InTime a) :
    ((turnAway ep j a).load.loader.state = .failed ∧ (turnAway ep j a).load.chip = c) ∨
      ¬ (∃ around, a = .poll around) ∧
        Stage c [] [] [(ep, notFound)] .failed (turnAway ep j a) := by
  have hother (hne : ∀ around, a ≠ .poll around) : ¬ ∃ around, a = .poll around := by
    rintro ⟨around, ha⟩
    exact hne around ha
  cases a with
  | poll around =>
    left
    have hpoll : j.load.loader.poll j.load.socket j.load.chip around =
        j.load.loader.fail { j.load.socket with rx := [] } j.load.chip := by
      rw [BitstreamLoader.poll, h.waits]
      dsimp only
      rw [if_neg (not_lt.mpr (htime.2 h.waits)), h.rx]
      rfl
    simp only [turnAway, Joint.step, Load.step, hpoll]
    exact ⟨rfl, h.chip⟩
  | deliver i =>
    refine .inr ⟨hother fun _ => Flash.Action.noConfusion, ?_⟩
    simp only [turnAway, Joint.step, h.down, List.getElem?_nil]
    exact h
  | receive i =>
    refine .inr ⟨hother fun _ => Flash.Action.noConfusion, ?_⟩
    simp only [turnAway, h.up, List.getElem?_nil]
    exact h
  | retransmit =>
    rw [h.retransmit fun _ => Server.noConfusion]
    exact .inr ⟨hother fun _ => Flash.Action.noConfusion, h⟩
  | loseUp i => exact absurd hl id
  | loseDown i => exact absurd hl id
  | giveUp => exact absurd hl id

lemma asking_turned (h : Asking [] ep j) (hl : a.Lossless) :
    (∃ d, IsRequest ep d ∧ Stage j.load.chip [d] [] [] .waiting (turnAway ep j a)) ∨
      ¬ (∃ around, a = .poll around) ∧ turnAway ep j a = j := by
  have hother (hne : ∀ around, a ≠ .poll around) : ¬ ∃ around, a = .poll around := by
    rintro ⟨around, ha⟩
    exact hne around ha
  cases a with
  | poll around =>
    left
    have hpoll := poll_request j.load.socket j.load.chip around h.asks
    have hsends : around.canSend = true ∧ around.takes = true := hl
    rw [if_pos hsends] at hpoll
    refine ⟨(requestTo ep, j.load.loader.rrq), ⟨rfl, rfl⟩, ?_⟩
    simp only [turnAway, Joint.step, Load.step, hpoll, h.up, h.addressed]
    refine ⟨rfl, rfl, rfl, h.down, ?_, h.server⟩
    dsimp only
    split <;> exact h.rx
  | deliver i =>
    refine .inr ⟨hother fun _ => Flash.Action.noConfusion, ?_⟩
    simp only [turnAway, Joint.step, h.down, List.getElem?_nil]
  | receive i =>
    refine .inr ⟨hother fun _ => Flash.Action.noConfusion, ?_⟩
    simp only [turnAway, h.up, List.getElem?_nil]
  | retransmit =>
    refine .inr ⟨hother fun _ => Flash.Action.noConfusion, ?_⟩
    simp only [turnAway, Joint.step, h.server]
  | loseUp i => exact absurd hl id
  | loseDown i => exact absurd hl id
  | giveUp => exact absurd hl id

/-- A load whose file the server does not have ends in failure with the flash untouched. -/
theorem turned_away_ends (h : Faithful (turnAway ep) j schedule) (hasking : Asking [] ep j) :
    Eventually (turnAway ep) j schedule
      (fun j' => j'.load.loader.state = .failed ∧ j'.load.chip = j.load.chip) 0 := by
  have hsteps : Throughout (turnAway ep) (fun j a => a.Lossless ∧ j.InTime a) j schedule :=
    fun n => ⟨h.lossless n, h.inTime n⟩
  have hrequested := eventually_of_variant (n := 0) (k := 0) h.polls hsteps
    (P := fun _ i => i = j)
    (Q := fun i => ∃ d, IsRequest ep d ∧ Stage j.load.chip [d] [] [] .waiting i) (by
      rintro k i a rfl ha
      rcases asking_turned hasking ha.1 with hsent | ⟨hnot, hsame⟩
      · exact .inl hsent
      · exact .inr ⟨k, Nat.le_refl k, fun hpoll => absurd hpoll hnot, hsame⟩) rfl
  apply hrequested.trans
  rintro n₁ ⟨d, hd, h₁⟩
  have hanswered := eventually_of_variant (k := 0) h.receives hsteps
    (P := fun _ => Stage j.load.chip [d] [] [] .waiting)
    (Q := Stage j.load.chip [] [(ep, notFound)] [] .failed) (by
      intro k i a hi ha
      rcases hi.requested hd ha.1 ha.2 with hq | ⟨hnot, hi'⟩
      · exact .inl hq
      · exact .inr ⟨k, Nat.le_refl k, fun heq => absurd heq hnot, hi'⟩) h₁
  apply hanswered.trans
  intro n₂ h₂
  have hdelivered := eventually_of_variant (k := 0) h.delivers hsteps
    (P := fun _ => Stage j.load.chip [] [(ep, notFound)] [] .failed)
    (Q := Stage j.load.chip [] [] [(ep, notFound)] .failed) (by
      intro k i a hi ha
      rcases hi.answered ha.1 ha.2 with hq | ⟨hnot, hi'⟩
      · exact .inl hq
      · exact .inr ⟨k, Nat.le_refl k, fun heq => absurd heq hnot, hi'⟩) h₂
  apply hdelivered.trans
  intro n₃ h₃
  exact eventually_of_variant (k := 0) h.polls hsteps
    (P := fun _ => Stage j.load.chip [] [] [(ep, notFound)] .failed) (by
      intro k i a hi ha
      rcases hi.refused ha.1 ha.2 with hq | ⟨hnot, hi'⟩
      · exact .inl hq
      · exact .inr ⟨k, Nat.le_refl k, fun hpoll => absurd hpoll hnot, hi'⟩) h₃

end TurnedAway

section Prompt

variable {f : List Byte} {ep : Endpoint} {j : Joint} {a : Action} {now : ℤ}

/-- A schedule of polls at one time, each datagram taken as soon as it is there. -/
def promptly (now : ℤ) (n : ℕ) : Action :=
  if n % 3 = 0 then .poll ⟨now, true, true⟩ else if n % 3 = 1 then .receive 0 else .deliver 0

def OnTime (now : ℤ) (j : Joint) : Prop :=
  j.now ≤ now ∧ (j.load.loader.state = .waitData → now ≤ j.load.loader.deadlineMs)

lemma poll_deadline {l : BitstreamLoader} {socket : UdpSocket} {c : Chip} {around : Around}
    (h : l.state = .waitData → around.timeMs ≤ l.deadlineMs)
    (hw : (l.poll socket c around).loader.state = .waitData) :
    around.timeMs ≤ (l.poll socket c around).loader.deadlineMs := by
  have hlater : around.timeMs ≤ around.timeMs + TIMEOUT_MS :=
    Int.le_add_of_nonneg_right (by decide)
  cases hawaited : l.awaited socket around.timeMs with
  | none =>
    cases hs : l.state with
    | sendRrq =>
      rw [poll_request socket c around hs] at hw ⊢
      split
      · exact hlater
      · next hnot =>
        rw [if_neg hnot] at hw
        exact h hw
    | waitData =>
      obtain ⟨⟨st, dl, hl, -⟩, -⟩ := poll_idle (c := c) hawaited
      have htime := h hs
      rw [BitstreamLoader.poll, hs] at hw ⊢
      dsimp only at hw ⊢
      rw [if_neg (not_lt.mpr htime)] at hw ⊢
      rw [awaited] at hawaited
      rcases hrx : socket.rx with _ | ⟨⟨ep, data⟩, rx⟩
      · exact htime
      · rw [hrx] at hw hawaited
        dsimp only at hw hawaited ⊢
        split
        · next b opcode b₁ b₀ body =>
          dsimp only at hw
          split
          · next herror =>
            rw [if_pos herror] at hw
            cases hw
          · split
            · exact htime
            · next hdata =>
              rw [not_or, not_not, not_not] at hdata
              rw [if_pos ⟨⟨hs, htime⟩, by simp, hdata.1, hdata.2⟩] at hawaited
              cases hawaited
        · exact htime
    | idle | finished | failed =>
      rw [BitstreamLoader.poll, hs] at hw
      rw [hs] at hw
      cases hw
  | some taken =>
    obtain ⟨ep, payload⟩ := taken
    rw [poll_awaited hawaited] at hw ⊢
    obtain ⟨-, -, l', c', -, hack⟩ := acceptBlock_ok (by rw [hw]; exact LoaderState.noConfusion)
    rw [hack] at hw ⊢
    rw [acknowledge] at hw ⊢
    split at hw
    · cases hw
    · next hmore =>
      rw [if_neg hmore]
      exact hlater

lemma OnTime.step (h : OnTime now j) (ha : ∀ around, a = .poll around → around.timeMs = now) :
    OnTime now (j.step f ep a) := by
  cases a with
  | poll around =>
    have htime := ha around rfl
    subst htime
    exact ⟨Int.le_refl _, poll_deadline h.2⟩
  | deliver i =>
    rw [Joint.step]
    split <;> exact h
  | receive i =>
    rw [Joint.step]
    split <;> exact h
  | retransmit =>
    rw [Joint.step]
    split <;> exact h
  | loseUp i => exact h
  | loseDown i => exact h
  | giveUp => exact h

lemma promptly_poll {n : ℕ} {around : Around} (h : promptly now n = .poll around) :
    around = ⟨now, true, true⟩ := by
  rw [promptly] at h
  split at h
  · cases h
    rfl
  · split at h <;> cases h

lemma promptly_onTime (h : OnTime now j) (n : ℕ) :
    OnTime now (along (Joint.step f ep) j (promptly now) n) := by
  induction n with
  | zero => exact h
  | succ n ih =>
    apply ih.step
    intro around ha
    rw [promptly_poll ha]

lemma promptly_faithful (h : OnTime now j) : Faithful (Joint.step f ep) j (promptly now) := by
  have hkind (k n : ℕ) (hk : k < 3) : ∃ m, n ≤ m ∧ m % 3 = k := ⟨3 * n + k, by omega, by omega⟩
  constructor
  · intro n
    rw [promptly]
    split
    · exact ⟨rfl, rfl⟩
    · split <;> trivial
  · intro n
    have htime : OnTime now (along (Joint.step f ep) j (promptly now) n) := promptly_onTime h n
    cases ha : promptly now n with
    | poll around =>
      rw [promptly_poll ha]
      exact htime
    | _ => trivial
  · intro n
    obtain ⟨m, hm, hmod⟩ := hkind 0 n (by decide)
    exact ⟨m, hm, ⟨now, true, true⟩, by rw [promptly, if_pos hmod]⟩
  · intro n
    obtain ⟨m, hm, hmod⟩ := hkind 1 n (by decide)
    exact ⟨m, hm, by rw [promptly, if_neg (by omega), if_pos hmod]⟩
  · intro n
    obtain ⟨m, hm, hmod⟩ := hkind 2 n (by decide)
    exact ⟨m, hm, by rw [promptly, if_neg (by omega), if_neg (by omega)]⟩

lemma over_step {s : LoaderState} {c : Chip} (hs : s = .failed ∨ s = .finished)
    (h : j.load.loader.state = s ∧ j.load.chip = c) (a : Action) :
    (j.step f ep a).load.loader.state = s ∧ (j.step f ep a).load.chip = c := by
  obtain ⟨hstate, hchip⟩ := h
  refine ⟨(step_over (by rw [hstate]; exact hs) a).trans hstate, ?_⟩
  cases a with
  | poll around =>
    change (j.load.loader.poll j.load.socket j.load.chip around).chip = c
    rw [BitstreamLoader.poll, hstate]
    rcases hs with rfl | rfl <;> exact hchip
  | deliver i =>
    rw [Joint.step]
    split <;> exact hchip
  | receive i =>
    rw [Joint.step]
    split <;> exact hchip
  | retransmit =>
    rw [Joint.step]
    split <;> exact hchip
  | loseUp i => exact hchip
  | loseDown i => exact hchip
  | giveUp => exact hchip

end Prompt

section Agreement

variable {store : Store} {name filename : Str} {raw body : List Byte} {ep : Endpoint}
  {l l' : BitstreamLoader} {c : Chip} {now : ℤ}

lemma begin_counted (h : l.start c ep.addr (asked name) = (.ok (), l')) :
    Counted c (begin l' c now) := by
  have hbehind := (begin_progress {} h [] ep).1.behind
  have hsectors : l'.sectors * SECTOR ≤ 0 * BLOCK := hbehind
  have hzero : l'.sectors = 0 := by
    simp only [SECTOR] at hsectors
    omega
  change c.issued + l'.sectors ≤ c.issued
  omega

lemma not_installs (hsync : hasSync (blockOf body 1) = true) (hhealthy : c.Healthy)
    (hstart : l.start c ep.addr (asked name) = (.ok (), l')) (hsize : APP_LEN < body.length) :
    ¬ ∃ n j, along (Joint.step body ep) (begin l' c now) (promptly now) n = j ∧
      (j.load.loader.state = .finished ∧ Installed body j.load.chip ∨
        j.load.loader.state = .failed ∧ j.load.chip.issued = c.issued) := by
  rintro ⟨n, j, hn, hj⟩
  have hasks := (begin_progress {} hstart body ep).2
  have hfaithful : Faithful (Joint.step body ep) (begin l' c now) (promptly now) := by
    apply promptly_faithful
    refine ⟨Int.le_refl _, ?_⟩
    intro hw
    have hw : l'.state = .waitData := hw
    rw [hasks] at hw
    cases hw
  have hcounted : Counted c (begin l' c now) := begin_counted hstart
  obtain ⟨m, -, hm⟩ := hfaithful.ends hsync (begin_asking hhealthy hstart) hcounted
  rw [Ended, if_neg (not_le.mpr hsize)] at hm
  -- the two ends of one run are the same
  have hend {i k : ℕ} {s : LoaderState} (hs : s = .failed ∨ s = .finished) (hik : i ≤ k)
      (h : (along (Joint.step body ep) (begin l' c now) (promptly now) i).load.loader.state = s) :=
    stays (Q := fun j : Joint => j.load.loader.state = s ∧ j.load.chip =
      (along (Joint.step body ep) (begin l' c now) (promptly now) i).load.chip)
      (fun _ a hq => over_step hs hq a) hik ⟨h, rfl⟩
  have hlater := hend (.inl rfl) (Nat.le_max_right n m) hm.1
  rcases hj with ⟨hfinished, -⟩ | ⟨hfailed, hissued⟩
  · rw [← hn] at hfinished
    have hearlier := hend (.inr rfl) (Nat.le_max_left n m) hfinished
    rw [hlater.1] at hearlier
    cases hearlier.1
  · rw [← hn] at hfailed hissued
    have hearlier := hend (.inl rfl) (Nat.le_max_left n m) hfailed
    have hchip := hearlier.2.symm.trans hlater.2
    rw [hchip] at hissued
    exact absurd hissued (Nat.ne_of_gt hm.2)

lemma installs_iff (hpath : path name = .ok ()) (hbit : bitSuffix <:+ name)
    (hsync : hasSync (blockOf body 1) = true) (hstored : store.file name = some body)
    (hhealthy : c.Healthy) (hgolden : c.goldenPresent = true) :
    Installs store name body ep l c now ↔ body.length ≤ APP_LEN ∨ l.isActive = true ∨
      MAX_FILENAME < (asked name).length ∨ ¬ ∀ c ∈ name, Printable c := by
  have hname := (path_ok hpath).2.2
  have hquote : ∀ c ∈ name, c ≠ '"' := fun c hc => (safeName_chars hname c hc).unescaped.1
  constructor
  · intro h
    by_contra hnot
    simp only [not_or, not_not, not_le, not_lt, Bool.not_eq_true] at hnot
    obtain ⟨hsize, hidle, hshort, hplain⟩ := hnot
    obtain ⟨l', hstart⟩ : ∃ l', l.start c ep.addr (asked name) = (.ok (), l') := by
      have hw : c.regionIsWritable APP_BASE APP_LEN = .ok () :=
        regionIsWritable_app hgolden (by decide) (by decide) (by decide) (by decide)
      rw [BitstreamLoader.start, hw]
      dsimp only
      rw [if_neg (not_lt.mpr hshort)]
      exact ⟨_, rfl⟩
    have hpush : pushBitstream store l c (some ep.addr) name = .ok l' := by
      rw [pushBitstream, path_safePath hpath, hstored, hgolden, flashBitstreamPost,
        jsonGetStr_postBody hquote]
      cases hfile : asked name with
      | nil =>
        rw [asked, utf8_eq_nil] at hfile
        rcases safeName_head hname with hhead | hhead <;> cases hn : name with
        | nil =>
          rw [hn] at hhead
          cases hhead
        | cons c s =>
          have hc := (safeName_chars hname c (by rw [hn]; exact List.mem_cons_self)).unescaped
          have hesc : escapeChar c = [c] := by
            have := Plain.escape (s := [c]) ⟨List.cons_ne_nil _ _, by
              intro d hd
              rw [List.mem_singleton.mp hd]
              exact ⟨hplain c (by rw [hn]; exact List.mem_cons_self), hc⟩⟩
            rwa [List.flatMap_singleton] at this
          rw [hn, List.flatMap_cons, hesc] at hfile
          cases hfile
      | cons b file =>
        rw [hfile] at hstart
        dsimp only
        rw [hidle, hstart]
        rfl
    have hresolve : tftpResolve store l'.filename = some body := by
      rw [(start_ok hstart).1, tftpResolve_plain hpath hbit hplain, hstored]
    have hruns := h l' hpush (promptly now)
    rw [hresolve] at hruns
    apply not_installs hsync hhealthy hstart hsize
    apply hruns
    apply promptly_faithful
    refine ⟨Int.le_refl _, ?_⟩
    intro hw
    have hw : l'.state = .waitData := hw
    rw [(begin_progress {} hstart body ep).2] at hw
    cases hw
  · rintro hcond l' hpush schedule hfaithful
    obtain ⟨hidle, hstart⟩ := pushBitstream_ok hquote hpush
    obtain ⟨hfilename, hshort⟩ := start_ok hstart
    rw [hfilename] at hfaithful ⊢
    by_cases hplain : ∀ c ∈ name, Printable c
    · rw [tftpResolve_plain hpath hbit hplain, hstored] at hfaithful ⊢
      have hsize : body.length ≤ APP_LEN := by
        rcases hcond with hsize | hactive | hlong | hescaped
        · exact hsize
        · rw [hidle] at hactive
          cases hactive
        · exact absurd hlong (not_lt.mpr hshort)
        · exact absurd hplain hescaped
      have hcounted : Counted c (begin l' c now) := begin_counted hstart
      obtain ⟨n, -, hn⟩ := Faithful.ends hsync hfaithful (begin_asking hhealthy hstart) hcounted
      rw [Ended, if_pos hsize] at hn
      exact ⟨n, _, rfl, .inl hn⟩
    · rw [tftpResolve_escaped hpath hplain] at hfaithful ⊢
      obtain ⟨n, -, hfailed, hchip⟩ := turned_away_ends hfaithful (begin_asking hhealthy hstart)
      refine ⟨n, _, rfl, .inr ⟨hfailed, ?_⟩⟩
      change (along (turnAway ep) (begin l' c now) schedule n).load.chip.issued = c.issued
      rw [hchip]
      rfl

/-- An accepted upload is stored as the card can take it, and its push installs it or is refused in
time, when it fits the region or the push is refused before it begins: the card is at work on
another, or the name is too long for it or not in plain characters. -/
theorem upload_agrees_iff (hupload : uploadBitstream filename raw = .ok (name, body))
    (hstored : store.file name = some body) (hhealthy : c.Healthy)
    (hgolden : c.goldenPresent = true) :
    (body <:+ raw ∧ payload body = .ok body ∧ hasSync (blockOf body 1) = true ∧
        Installs store name body ep l c now) ↔
      body.length ≤ APP_LEN ∨ l.isActive = true ∨ MAX_FILENAME < (asked name).length ∨
        ¬ ∀ c ∈ name, Printable c := by
  obtain ⟨hpath, hbit, hbody⟩ := uploadBitstream_ok hupload
  have hsync := payload_hasSync hbody
  have hinstalls : Installs store name body ep l c now ↔ _ :=
    installs_iff hpath hbit hsync hstored hhealthy hgolden
  rw [← hinstalls]
  constructor
  · exact fun h => h.2.2.2
  · exact fun h => ⟨(payload_cases hbody).1, payload_again hbody, hsync, h⟩

end Agreement

section Uploads

def panelBit : Str := "e320-128x64-out6-v1.0.0.bit".toList

def oneFile (body : List Byte) : Store where
  file n := if n = panelBit then some body else none
  safe := by
    intro n b h
    split at h
    · next hn =>
      rw [hn]
      decide +kernel
    · cases h

lemma oneFile_panelBit (body : List Byte) : (oneFile body).file panelBit = some body := by
  change (if panelBit = panelBit then some body else none) = some body
  rw [if_pos rfl]

lemma uploadBitstream_panelBit {raw body : List Byte} (h : payload raw = .ok body) :
    uploadBitstream panelBit raw = .ok (panelBit, body) := by
  have hname : (if bitSuffix <:+ basename panelBit then basename panelBit
      else basename panelBit ++ bitSuffix) = panelBit := by decide +kernel
  have hpath : path panelBit = .ok () := by
    have hsafe : ¬ ('/' ∈ panelBit ∨ ['.', '.'] <:+: panelBit) := by decide +kernel
    rw [path, if_neg hsafe, if_pos (by decide +kernel)]
  rw [uploadBitstream, hname, hpath, h]
  rfl

/-- A header of three bytes, and little behind the preamble. -/
def headed : List Byte := [0xFF, 0x00, 0x50] ++ PREAMBLE ++ [0x00]

theorem headed_agrees :
    (headed.drop 3 <:+ headed ∧ payload (headed.drop 3) = .ok (headed.drop 3) ∧
        hasSync (blockOf (headed.drop 3) 1) = true ∧
        Installs (oneFile (headed.drop 3)) panelBit (headed.drop 3) ⟨0, 1⟩ {} goldenChip 0) ↔
      (headed.drop 3).length ≤ APP_LEN ∨ isActive {} = true ∨
        MAX_FILENAME < (asked panelBit).length ∨ ¬ ∀ c ∈ panelBit, Printable c :=
  upload_agrees_iff (uploadBitstream_panelBit (by rfl)) (oneFile_panelBit _) (fun _ => rfl) (by decide)

/-- One byte too many for the region. -/
def oversized : List Byte := PREAMBLE ++ List.replicate (APP_LEN - 4) 0

theorem oversized_written_over : ¬ ∀ (filename : Str) (raw : List Byte) (name : Str)
    (body : List Byte) (store : Store) (ep : Endpoint) (l : BitstreamLoader) (c : Chip) (now : ℤ),
    uploadBitstream filename raw = .ok (name, body) → store.file name = some body → c.Healthy →
    c.goldenPresent = true →
    body <:+ raw ∧ payload body = .ok body ∧ hasSync (blockOf body 1) = true ∧
      Installs store name body ep l c now := by
  intro h
  have hpre : payload oversized = .ok oversized := by
    rw [payload, oversized, find_prefix (List.prefix_append _ _)]
    rfl
  obtain ⟨-, -, hsync, hinstalls⟩ := h panelBit oversized panelBit oversized (oneFile oversized)
    ⟨0, 1⟩ {} goldenChip 0 (uploadBitstream_panelBit hpre) (oneFile_panelBit _) (fun _ => rfl) (by decide)
  obtain ⟨hpath, hbit, -⟩ := uploadBitstream_ok (uploadBitstream_panelBit hpre)
  rw [installs_iff hpath hbit hsync (oneFile_panelBit _) (fun _ => rfl) (by decide)] at hinstalls
  rcases hinstalls with hsize | hactive | hlong | hescaped
  · have hlen : oversized.length = 5 + (APP_LEN - 4) := by
      rw [oversized, List.length_append, List.length_replicate]
      rfl
    rw [hlen, APP_LEN] at hsize
    omega
  · cases hactive
  · exact absurd hlong (by decide +kernel)
  · exact hescaped (by decide +kernel)

end Uploads

end Ledwall.Server.Bitstreams
