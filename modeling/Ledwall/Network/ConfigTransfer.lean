import Ledwall.Network.TftpConfig

/-! The configuration that the boot reads is one file, as long as every block comes from one server. -/

namespace Ledwall.Network

open Ledwall.Wire Ledwall.Flash Ledwall.Values Ledwall.Library.Runs
open Ledwall.Flash.BitstreamLoader (Around)

namespace TftpConfigLoader

variable (l : TftpConfigLoader)

/-- The block that a poll at this time takes: whence, and its payload. -/
def awaited (socket : UdpSocket) (timeMs : ℤ) : Option (Endpoint × List Byte) :=
  match socket.rx with
  | (ep, _ :: opcode :: b₁ :: b₀ :: payload) :: _ =>
    if (l.state = .waitData ∧ timeMs ≤ l.deadlineMs) ∧ opcode = OPCODE_DATA ∧ b₁ ++ b₀ = l.block then
      some (ep, payload)
    else none
  | _ => none

variable {l} {socket : UdpSocket} {around : Around} {ep : Endpoint} {payload : List Byte}

lemma awaited_some (h : l.awaited socket around.timeMs = some (ep, payload)) :
    l.state = .waitData ∧ ∃ b b₁ b₀ rx,
      socket.rx = (ep, b :: OPCODE_DATA :: b₁ :: b₀ :: payload) :: rx ∧ b₁ ++ b₀ = l.block := by
  rw [awaited] at h
  split at h
  · next ep' b opcode b₁ b₀ payload' rx hrx =>
    split at h
    · next hd =>
      obtain ⟨⟨hstate, -⟩, rfl, hnum⟩ := hd
      cases h
      exact ⟨hstate, b, b₁, b₀, rx, hrx, hnum⟩
    · cases h
  · cases h

lemma poll_awaited (h : l.awaited socket around.timeMs = some (ep, payload)) :
    l.poll socket around = ((l.store payload).identify ep).acknowledge
      { socket with rx := socket.rx.tail } around ep (payload.length < 512) := by
  rw [awaited] at h
  split at h
  · next ep' b opcode b₁ b₀ payload' rx hrx =>
    split at h
    · next hd =>
      obtain ⟨⟨hstate, htime⟩, hop, hnum⟩ := hd
      cases h
      rw [poll, hstate]
      dsimp only
      rw [if_neg (not_lt.mpr htime), hrx]
      dsimp only
      rw [if_pos ⟨hop, hnum⟩]
      rfl
    · cases h
  · cases h

/-- A poll that takes no block leaves what was fetched and what is known of the server. -/
structure Idle (l : TftpConfigLoader) (socket : UdpSocket) (p : ConfigPoll) : Prop where
  loader : ∃ st dl, p.loader = { l with state := st, deadlineMs := dl } ∧
    (st = l.state ∨ st = .failed ∨ l.state = .sendRrq ∧ st = .waitData)
  sent : p.sent = [] ∨
    l.state = .sendRrq ∧ p.sent = [(⟨l.gateway.toU32, .ofNat 16 TFTP_PORT⟩, l.rrq)]
  rx : ∀ d ∈ p.socket.rx, d ∈ socket.rx

lemma Idle.stay {socket' : UdpSocket} (h : ∀ d ∈ socket'.rx, d ∈ socket.rx) :
    Idle l socket ⟨false, l, socket', []⟩ :=
  ⟨⟨l.state, l.deadlineMs, rfl, Or.inl rfl⟩, Or.inl rfl, h⟩

lemma Idle.fail (socket' : UdpSocket) : Idle l socket (l.fail socket') :=
  ⟨⟨.failed, l.deadlineMs, rfl, Or.inr (Or.inl rfl)⟩, Or.inl rfl,
    by simp [TftpConfigLoader.fail, UdpSocket.close]⟩

lemma Idle.requests {p : ConfigPoll} (h : Idle l socket p) {d : Flash.Datagram} (hd : d ∈ p.sent) :
    d.2.getD 1 0 ≠ OPCODE_ACK := by
  rcases h.sent with hsent | ⟨-, hsent⟩ <;> rw [hsent] at hd
  · cases hd
  · rw [List.mem_singleton.mp hd]
    exact (by decide : OPCODE_RRQ ≠ OPCODE_ACK)

lemma poll_idle (h : l.awaited socket around.timeMs = none) :
    Idle l socket (l.poll socket around) := by
  rw [poll]
  split
  · next hstate =>
    have hrx : ∀ d ∈ (if socket.isOpen then socket else { socket with isOpen := true }).rx,
        d ∈ socket.rx := by
      intro d hd
      split at hd <;> exact hd
    dsimp only
    split
    · exact ⟨⟨.waitData, _, rfl, Or.inr (Or.inr ⟨hstate, rfl⟩)⟩, Or.inr ⟨hstate, rfl⟩, hrx⟩
    · exact Idle.stay hrx
  · next hstate =>
    split
    · exact Idle.fail _
    next htime =>
    split
    · exact Idle.stay fun d hd => hd
    next ep data rx hrx =>
    have htail : ∀ d ∈ rx, d ∈ socket.rx := by
      intro d hd
      rw [hrx]
      exact List.mem_cons_of_mem _ hd
    dsimp only
    split
    · next b opcode b₁ b₀ payload =>
      split
      · next hdata =>
        rw [awaited, hrx] at h
        dsimp only at h
        rw [if_pos ⟨⟨hstate, not_lt.mp htime⟩, hdata⟩] at h
        cases h
      · split
        · exact Idle.fail _
        · exact Idle.stay htail
    · exact Idle.stay htail
  all_goals exact Idle.stay fun d hd => hd

lemma identify_eq (l : TftpConfigLoader) (ep : Endpoint) : l.identify ep =
    { l with serverTid := if l.serverTid = 0 then ep.port else l.serverTid } := by
  rw [identify]
  split <;> rfl

lemma acknowledge_eq (l : TftpConfigLoader) (socket : UdpSocket) (around : Around) (ep : Endpoint)
    (last : Bool) : l.acknowledge socket around ep last =
      ⟨last, if last then { l with state := .done }
        else { l with block := l.block + 1, deadlineMs := around.timeMs + TIMEOUT_MS }, socket,
        if around.takes then
          [(⟨ep.addr, l.serverTid⟩, [0, OPCODE_ACK, (l.block >>> 8).setWidth 8, l.block.setWidth 8])]
        else []⟩ := by
  cases last <;> rfl

section Storing

variable {f : List Byte} {n : ℕ}

lemma store_buf (hn : n ≤ f.length) (hbuf : l.buf = f.take (min n MAX_CONFIG_SIZE)) :
    (l.store ((f.drop n).take BLOCK)).buf = f.take (min (n + BLOCK) MAX_CONFIG_SIZE) := by
  rw [store, hbuf]
  dsimp only
  rw [List.length_take, List.length_take, List.length_drop, List.take_take]
  rcases le_total n MAX_CONFIG_SIZE with hle | hge
  · rw [Nat.min_eq_left hle, Nat.min_eq_left hn, ← List.take_add, List.take_eq_take_iff]
    omega
  · rw [Nat.min_eq_right hge, Nat.min_eq_left (hge.trans hn), Nat.sub_self, Nat.min_zero,
      Nat.zero_min, List.take_zero, List.append_nil, Nat.min_eq_right (by omega)]

lemma store_overflowed {stale : Bool} (hn : n ≤ f.length)
    (hbuf : l.buf = f.take (min n MAX_CONFIG_SIZE))
    (hover : l.overflowed = (stale || decide (MAX_CONFIG_SIZE < n))) :
    (l.store ((f.drop n).take BLOCK)).overflowed =
      (stale || decide (MAX_CONFIG_SIZE < min (n + BLOCK) f.length)) := by
  rw [store, hbuf, hover]
  dsimp only
  rw [List.length_take, List.length_take, List.length_drop, Bool.or_assoc, ← Bool.decide_or]
  congr 1
  rw [decide_eq_decide]
  simp only [BLOCK]
  omega

end Storing

end TftpConfigLoader

/-- A load: the loader and its socket, whether it was marked as overflowed before, all it has sent,
and whence each block it took. -/
structure ConfigLoad where
  loader : TftpConfigLoader
  socket : UdpSocket := {}
  stale : Bool := false
  sent : List Flash.Datagram := []
  taken : List (Endpoint × BitVec 16) := []

namespace ConfigLoad

section Steps

variable (w : ConfigLoad)

def takes (around : Around) : List (Endpoint × BitVec 16) :=
  (w.loader.awaited w.socket around.timeMs).toList.map fun d => (d.1, w.loader.block)

def step : Flash.Event → ConfigLoad
  | .arrive d => { w with socket := { w.socket with rx := w.socket.rx ++ [d] } }
  | .poll around =>
    let p := w.loader.poll w.socket around
    { w with
      loader := p.loader
      socket := p.socket
      sent := w.sent ++ p.sent
      taken := w.taken ++ w.takes around }

/-- The block a poll is about to take comes from the server of the first one. -/
def SameServer : Flash.Event → Prop
  | .arrive _ => True
  | .poll around => ∀ ep payload, w.loader.awaited w.socket around.timeMs = some (ep, payload) →
      ∀ first ∈ w.taken.head?, ep = first.1

/-- What is read is `f`, if the buffer holds that, and it was `ep` alone that was acknowledged. -/
structure Whole (f : List Byte) (ep : Endpoint) : Prop where
  read : w.loader.parseConfig =
    if f = [] ∨ MAX_CONFIG_SIZE < f.length ∨ validUtf8 f = false then none else some f
  acknowledged : ∀ d ∈ w.sent, d.2.getD 1 0 = OPCODE_ACK → d.1 = ep

/-- What holds once `b` blocks of `f` were taken, `n` bytes of it. -/
structure Prefix (f : List Byte) (ep : Endpoint) (b n : ℕ) : Prop where
  buf : w.loader.buf = f.take (min n MAX_CONFIG_SIZE)
  overflowed : w.loader.overflowed = (w.stale || decide (MAX_CONFIG_SIZE < n))
  taken : w.taken = (List.range b).map fun i => (ep, .ofNat 16 (i + 1))
  acknowledged : ∀ d ∈ w.sent, d.2.getD 1 0 = OPCODE_ACK → b ≠ 0 ∧ d.1 = ep

/-- The first `b` blocks of `f`, all of them full, were taken. -/
structure Progress (f : List Byte) (ep : Endpoint) (b : ℕ) : Prop
    extends w.Prefix f ep b (b * BLOCK) where
  full : b * BLOCK ≤ f.length
  small : b < 2 ^ 16
  block : w.loader.block = .ofNat 16 (b + 1)
  tid : w.loader.serverTid = if b = 0 then 0 else ep.port

end Steps

section Taking

variable {w : ConfigLoad} {f : List Byte} {ep ep' : Endpoint} {b : ℕ} {around : Around}

lemma Prefix.whole (h : w.Prefix f ep b f.length) (hstale : w.stale = false) : w.Whole f ep where
  read := by
    have hbuf := h.buf
    have hover := h.overflowed
    rw [hstale, Bool.false_or] at hover
    rcases le_or_gt f.length MAX_CONFIG_SIZE with hle | hgt
    · rw [Nat.min_eq_left hle, List.take_length] at hbuf
      rw [TftpConfigLoader.parseConfig, hover, hbuf, decide_eq_false (not_lt.mpr hle)]
      by_cases hempty : f = []
      · rw [if_pos (Or.inl hempty), if_pos (Or.inl hempty)]
      · simp only [hempty, Bool.false_eq_true, or_false, if_false, false_or, not_lt.mpr hle]
        cases validUtf8 f <;> rfl
    · rw [TftpConfigLoader.parseConfig, hover, decide_eq_true hgt, if_pos (Or.inr rfl),
        if_pos (Or.inr (Or.inl hgt))]
  acknowledged d hd hack := (h.acknowledged d hd hack).2

lemma Progress.of_none (h : w.Progress f ep 0) (f' : List Byte) (ep' : Endpoint) :
    w.Progress f' ep' 0 where
  buf := by simpa using h.buf
  overflowed := h.overflowed
  taken := h.taken
  acknowledged d hd hack := absurd rfl (h.acknowledged d hd hack).1
  full := by simp
  small := h.small
  block := h.block
  tid := h.tid

lemma Progress.idle (h : w.Progress f ep b)
    (hidle : w.loader.awaited w.socket around.timeMs = none) :
    (w.step (.poll around)).Progress f ep b := by
  have hpoll := TftpConfigLoader.poll_idle hidle
  obtain ⟨st, dl, hl, -⟩ := hpoll.loader
  have htakes : w.takes around = [] := by rw [takes, hidle]; rfl
  constructor
  case toPrefix =>
    constructor
    case buf => simpa only [step, hl] using h.buf
    case overflowed => simpa only [step, hl] using h.overflowed
    case taken => simpa only [step, htakes, List.append_nil] using h.taken
    case acknowledged =>
      intro d hd hack
      rcases List.mem_append.mp hd with hd | hd
      · exact h.acknowledged d hd hack
      · exact absurd hack (hpoll.requests hd)
  case full => exact h.full
  case small => exact h.small
  case block => simpa only [step, hl] using h.block
  case tid => simpa only [step, hl] using h.tid

lemma Progress.take (h : w.Progress f ep b) (hnext : b + 1 < 2 ^ 16)
    (hawaited : w.loader.awaited w.socket around.timeMs = some (ep, blockOf f (b + 1))) :
    (w.step (.poll around)).socket = { w.socket with rx := w.socket.rx.tail } ∧
    (w.loader.poll w.socket around).sent =
      (if around.takes then [(ep, dataAck (b + 1))] else []) ∧
    (b * BLOCK + BLOCK ≤ f.length → (w.step (.poll around)).loader.state = w.loader.state ∧
      (w.step (.poll around)).Progress f ep (b + 1)) ∧
    (f.length < b * BLOCK + BLOCK → (w.step (.poll around)).loader.state = .done ∧
      (w.step (.poll around)).Prefix f ep (b + 1) f.length) := by
  have htakes : w.takes around = [(ep, .ofNat 16 (b + 1))] := by
    rw [takes, hawaited, h.block]
    rfl
  have htid : (if w.loader.serverTid = 0 then ep.port else w.loader.serverTid) = ep.port := by
    rw [h.tid]
    split_ifs <;> simp_all
  have hpoll := TftpConfigLoader.poll_awaited hawaited
  rw [TftpConfigLoader.identify_eq, TftpConfigLoader.acknowledge_eq] at hpoll
  obtain ⟨l', hl'⟩ : ∃ l', w.loader.store (blockOf f (b + 1)) = l' := ⟨_, rfl⟩
  have hkept : l'.block = .ofNat 16 (b + 1) ∧ l'.serverTid = w.loader.serverTid ∧
      l'.state = w.loader.state := by
    rw [← hl']
    exact ⟨h.block, rfl, rfl⟩
  have hpayload : blockOf f (b + 1) = (f.drop (b * BLOCK)).take BLOCK := by
    rw [blockOf, Nat.add_sub_cancel]
  have hbuf := TftpConfigLoader.store_buf h.full h.buf
  have hover := TftpConfigLoader.store_overflowed h.full h.buf h.overflowed
  rw [← hpayload, hl'] at hbuf hover
  rw [hl'] at hpoll
  dsimp only at hpoll
  rw [hkept.1, hkept.2.1, htid, dataAck_eq hnext] at hpoll
  have hsent : (w.loader.poll w.socket around).sent =
      if around.takes then [(ep, dataAck (b + 1))] else [] := by rw [hpoll]
  have hloader : (w.loader.poll w.socket around).loader.buf = l'.buf ∧
      (w.loader.poll w.socket around).loader.overflowed = l'.overflowed := by
    rw [hpoll]
    dsimp only
    split <;> exact ⟨rfl, rfl⟩
  have hprefix : (w.step (.poll around)).Prefix f ep (b + 1) (min (b * BLOCK + BLOCK) f.length) := by
    constructor
    case buf =>
      rw [step, hloader.1, hbuf, List.take_eq_take_iff]
      omega
    case overflowed => rw [step, hloader.2, hover]
    case taken => rw [step, htakes, h.taken, List.range_succ, List.map_append]; rfl
    case acknowledged =>
      intro d hd hack
      refine ⟨Nat.succ_ne_zero b, ?_⟩
      rcases List.mem_append.mp hd with hd | hd
      · exact (h.acknowledged d hd hack).2
      · rw [hsent] at hd
        split at hd
        · rw [List.mem_singleton.mp hd]
        · cases hd
  have hlen : (blockOf f (b + 1)).length = min BLOCK (f.length - b * BLOCK) := blockOf_length f b
  refine ⟨by rw [step, hpoll], hsent, ?_, ?_⟩
  · intro hfull
    have hmore : decide ((blockOf f (b + 1)).length < 512) = false := by
      rw [hlen]
      simp only [BLOCK] at hfull ⊢
      exact decide_eq_false (by omega)
    rw [hmore] at hpoll
    rw [Nat.min_eq_left hfull, ← Nat.succ_mul] at hprefix
    refine ⟨by rw [step, hpoll]; exact hkept.2.2, ?_⟩
    constructor
    case toPrefix => exact hprefix
    case full => rwa [Nat.succ_mul]
    case small => exact hnext
    case block =>
      rw [step, hpoll]
      exact (BitVec.ofNat_add _ _).symm
    case tid =>
      rw [step, hpoll]
      rfl
  · intro hshort
    have hlast : decide ((blockOf f (b + 1)).length < 512) = true := by
      rw [hlen]
      simp only [BLOCK] at hshort ⊢
      exact decide_eq_true (by omega)
    rw [hlast] at hpoll
    rw [Nat.min_eq_right hshort.le] at hprefix
    exact ⟨by rw [step, hpoll]; rfl, hprefix⟩

end Taking

section Runs

variable {files : Endpoint → List Byte} {w : ConfigLoad}

/-- What a load keeps on its way: a prefix of some server's file while it goes on, the whole of it
once it is done. -/
def Kept (files : Endpoint → List Byte) (w : ConfigLoad) : Prop :=
  w.stale = false ∧ (∀ d ∈ w.socket.rx, IsData files d) ∧
    (w.loader.state = .sendRrq ∨ w.loader.state = .waitData → ∃ ep b, w.Progress (files ep) ep b) ∧
    (w.loader.state = .done → ∃ ep, w.Whole (files ep) ep)

lemma number_unique {k b : ℕ} (hpos : 0 < k) (hk : k < 2 ^ 16) (hb : b < 2 ^ 16)
    (h : BitVec.ofNat 16 k = BitVec.ofNat 16 (b + 1)) : k = b + 1 := by
  have hnum := congrArg BitVec.toNat h
  rw [BitVec.toNat_ofNat, BitVec.toNat_ofNat] at hnum
  omega

lemma kept_step {e : Flash.Event} (h : Kept files w) (hdata : e.Carries files) (hsame : w.SameServer e) :
    Kept files (w.step e) := by
  obtain ⟨hstale, hrx, hprogress, hwhole⟩ := h
  cases e with
  | arrive d =>
    refine ⟨hstale, ?_, ?_, ?_⟩
    · intro d' hd'
      rcases List.mem_append.mp hd' with hd' | hd'
      · exact hrx d' hd'
      · rw [List.mem_singleton.mp hd']
        exact hdata
    · intro hs
      obtain ⟨ep, b, hp⟩ := hprogress hs
      exact ⟨ep, b, ⟨⟨hp.buf, hp.overflowed, hp.taken, hp.acknowledged⟩, hp.full, hp.small, hp.block,
        hp.tid⟩⟩
    · intro hs
      obtain ⟨ep, hh⟩ := hwhole hs
      exact ⟨ep, hh.read, hh.acknowledged⟩
  | poll around =>
    cases hawaited : w.loader.awaited w.socket around.timeMs with
    | none =>
      have hidle := TftpConfigLoader.poll_idle hawaited
      obtain ⟨st, dl, hl, hst⟩ := hidle.loader
      have hstate : (w.step (.poll around)).loader.state = st := congrArg TftpConfigLoader.state hl
      refine ⟨hstale, fun d hd => hrx d (hidle.rx d hd), ?_, ?_⟩
      · intro hs
        rw [hstate] at hs
        have hactive : w.loader.state = .sendRrq ∨ w.loader.state = .waitData := by
          rcases hst with rfl | rfl | ⟨hsend, -⟩
          · exact hs
          · rcases hs with hs | hs <;> cases hs
          · exact Or.inl hsend
        obtain ⟨ep, b, hp⟩ := hprogress hactive
        exact ⟨ep, b, hp.idle hawaited⟩
      · intro hs
        rw [hstate] at hs
        subst hs
        have hdone : w.loader.state = .done := by
          rcases hst with hst | hst | ⟨-, hst⟩
          · exact hst.symm
          · cases hst
          · cases hst
        obtain ⟨ep, hh⟩ := hwhole hdone
        refine ⟨ep, ?_, ?_⟩
        · rw [← hh.read, step, hl]
          rfl
        · intro d hd hack
          rcases List.mem_append.mp hd with hd | hd
          · exact hh.acknowledged d hd hack
          · exact absurd hack (hidle.requests hd)
    | some taken =>
      obtain ⟨ep, payload⟩ := taken
      obtain ⟨hwait, c, b₁, b₀, rx, hhead, hnum⟩ := TftpConfigLoader.awaited_some hawaited
      obtain ⟨b, hp⟩ : ∃ b, w.Progress (files ep) ep b := by
        obtain ⟨ep', b, hp⟩ := hprogress (Or.inr hwait)
        rcases Nat.eq_zero_or_pos b with rfl | hpos
        · exact ⟨0, hp.of_none _ _⟩
        · have hfirst : w.taken.head? = some (ep', .ofNat 16 1) := by
            rw [hp.taken, ← Nat.succ_pred_eq_of_pos hpos, List.range_succ_eq_map]
            rfl
          obtain rfl : ep = ep' := hsame ep _ hawaited _ hfirst
          exact ⟨b, hp⟩
      obtain ⟨k, hk, hdata⟩ := hrx _ (by rw [hhead]; exact List.mem_cons_self)
      obtain ⟨-, -, rfl, rfl, rfl⟩ : c = 0 ∧ OPCODE_DATA = OPCODE_DATA ∧ b₁ = .ofNat 8 (k / 256) ∧
          b₀ = .ofNat 8 (k % 256) ∧ payload = blockOf (files ep) k := by
        simpa [dataOf] using hdata
      rw [number_append hk.2.1, hp.block] at hnum
      obtain rfl := number_unique hk.1 hk.2.1 hp.small hnum
      obtain ⟨hsocket, -, hmore, hlast⟩ := hp.take hk.2.1 hawaited
      have hrest : ∀ d ∈ (w.step (.poll around)).socket.rx, IsData files d := by
        intro d hd
        rw [hsocket] at hd
        exact hrx d (List.mem_of_mem_tail hd)
      rcases lt_or_ge (files ep).length (b * BLOCK + BLOCK) with hshort | hfull
      · obtain ⟨hdone, hprefix⟩ := hlast hshort
        refine ⟨hstale, hrest, ?_, fun _ => ⟨ep, hprefix.whole hstale⟩⟩
        rw [hdone]
        rintro (hs | hs) <;> cases hs
      · obtain ⟨hstate, hp'⟩ := hmore hfull
        refine ⟨hstale, hrest, fun _ => ⟨ep, b + 1, hp'⟩, ?_⟩
        rw [hstate, hwait]
        intro hs
        cases hs

/-- A load as `start` leaves it. -/
def begin (l : TftpConfigLoader) (gateway : Ipv4Address) (filename : List Byte)
    (socket : UdpSocket) : ConfigLoad :=
  { loader := l.start gateway filename, socket, stale := l.overflowed }

variable {l : TftpConfigLoader}

lemma begin_progress (l : TftpConfigLoader) (gateway : Ipv4Address) (filename : List Byte)
    (socket : UdpSocket) (f : List Byte) (ep : Endpoint) :
    (begin l gateway filename socket).Progress f ep 0 := by
  constructor
  case toPrefix =>
    constructor <;> simp [begin, TftpConfigLoader.start]
  all_goals simp [begin, TftpConfigLoader.start]

lemma done_whole (hover : l.overflowed = false) (gateway : Ipv4Address) (filename : List Byte)
    {socket : UdpSocket} (hrx : ∀ d ∈ socket.rx, IsData files d) {events : List Flash.Event}
    (hdata : ∀ e ∈ events, e.Carries files)
    (hsame : Always (fun w e w' => w' = w.step e) SameServer (begin l gateway filename socket) events)
    (hdone : (events.foldl step (begin l gateway filename socket)).loader.state = .done) :
    ∃ ep, (events.foldl step (begin l gateway filename socket)).Whole (files ep) ep := by
  have hcarries : Always (fun w e w' => w' = w.step e) (fun _ e => e.Carries files)
      (begin l gateway filename socket) events := Always.of_mem fun e he _ => hdata e he
  have hbegin : Kept files (begin l gateway filename socket) :=
    ⟨hover, hrx, fun _ => ⟨⟨0, 0⟩, 0, begin_progress _ _ _ _ _ _⟩, fun hs => by cases hs⟩
  have hkept := (run_foldl step (begin l gateway filename socket) events).invariant
    (I := Kept files) (C := fun w e => e.Carries files ∧ w.SameServer e) (by
      intro w e w' hw hc hstep
      rw [hstep]
      exact kept_step hw hc.1 hc.2)
    hbegin (hcarries.and hsame)
  exact hkept.2.2.2 hdone

end Runs

end ConfigLoad

end Ledwall.Network
