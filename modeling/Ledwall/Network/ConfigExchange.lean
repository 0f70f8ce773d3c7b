import Ledwall.Network.ConfigTransfer

/-! The configuration's loader and its server when an acknowledgement is lost between them. -/

namespace Ledwall.Network

open Ledwall.Wire Ledwall.Flash Ledwall.Library.Runs
open Ledwall.Flash.BitstreamLoader (Around)
open Ledwall.Flash.Joint (reply isAckOf_inj isAckOf_dataAck mem_of_mem_eraseIdx)

/-- `up` and `down` are the datagrams in flight to the server and to the loader. -/
structure ConfigExchange where
  load : ConfigLoad
  server : Flash.Server := .waiting
  up : List Flash.Datagram := []
  down : List Flash.Datagram := []

/-- The number of a file's last block. -/
def lastBlock (f : List Byte) : ℕ := f.length / BLOCK + 1

namespace ConfigExchange

section Steps

variable (f : List Byte) (ep : Endpoint) (j : ConfigExchange)

def step : Action → ConfigExchange
  | .poll around =>
    { j with
      load := j.load.step (.poll around)
      up := j.up ++ (j.load.loader.poll j.load.socket around).sent }
  | .deliver i =>
    match j.down[i]? with
    | none => j
    | some d => { j with load := j.load.step (.arrive d), down := j.down.eraseIdx i }
  | .receive i =>
    match j.up[i]? with
    | none => j
    | some d =>
      let (server, answer) := j.server.receive f ep d
      { j with server := server, up := j.up.eraseIdx i, down := j.down ++ reply f ep answer }
  | .retransmit =>
    match j.server with
    | .sending k => { j with down := j.down ++ [(ep, dataOf f k)] }
    | _ => j
  | .loseUp i => { j with up := j.up.eraseIdx i }
  | .loseDown i => { j with down := j.down.eraseIdx i }
  | .giveUp => { j with server := .failed }

/-- The step loses the acknowledgement of block `k`: on its way, or where the socket takes none. -/
def LosesAck (k : ℕ) : Action → Prop
  | .poll around => around.takes = false ∧ j.load.loader.block = .ofNat 16 k ∧
      (j.load.loader.awaited j.load.socket around.timeMs).isSome
  | .loseUp i => ∃ d ∈ j.up[i]?, IsAckOf ep k d
  | _ => False

/-- A continuation that loses nothing brings the loader to its end. -/
def Reaches : Prop := ∃ actions : List Action, (∀ a ∈ actions, a.Lossless) ∧
  (actions.foldl (step f ep) j).load.loader.state = .done

/-- A loader just started, a server that waits, and nothing in flight. -/
def begin (l : TftpConfigLoader) (gateway : Ipv4Address) (filename : List Byte) : ConfigExchange :=
  { load := ConfigLoad.begin l gateway filename {} }

/-- A datagram with a block up to `s`. -/
def Carries (s : ℕ) (d : Flash.Datagram) : Prop := ∃ k, HasBlock f k ∧ k ≤ s ∧ d = (ep, dataOf f k)

/-- What the loader sent last: its request, or the acknowledgement of block `b`. -/
def Asks (b : ℕ) (d : Flash.Datagram) : Prop :=
  if b = 0 then d.2.getD 1 0 = OPCODE_RRQ else d = (ep, dataAck b)

/-- The loader waits for block `b + 1`, and the server sent block `s` last. -/
structure Waits (b s : ℕ) : Prop where
  progress : j.load.Progress f ep b
  waits : j.load.loader.state = .waitData
  near : s = b ∨ s = b + 1
  server : j.server = .failed ∨ j.server = if s = 0 then .waiting else .sending s
  rx : ∀ d ∈ j.load.socket.rx, Carries f ep s d
  down : ∀ d ∈ j.down, Carries f ep s d
  up : j.up = [] ∨ s = b ∧ ∃ d, j.up = [d] ∧ Asks ep b d

/-- The request is not sent yet. -/
structure Asking : Prop where
  progress : j.load.Progress f ep 0
  asks : j.load.loader.state = .sendRrq
  server : j.server = .failed ∨ j.server = .waiting
  rx : j.load.socket.rx = []
  up : j.up = []
  down : j.down = []

/-- Every acknowledgement in flight is of a block like this. -/
def Acks (P : ℕ → Prop) : Prop := ∀ d ∈ j.up, ∀ k, HasBlock f k → IsAckOf ep k d → P k

/-- The loader is over; only with the file complete is the last block acknowledged. -/
inductive Over : Prop
  | done (h : j.load.loader.state = .done) (hacks : Acks f ep j (· = lastBlock f))
  | failed (h : j.load.loader.state = .failed) (hacks : Acks f ep j (· ≠ lastBlock f))

/-- The loader waits for a block that nothing asks the server for. -/
def Wedged : Prop := ∃ b, Waits f ep j b b ∧ j.up = []

end Steps

section Waiting

variable {f : List Byte} {ep : Endpoint} {j : ConfigExchange} {b s : ℕ}

lemma Carries.later {d : Flash.Datagram} (h : Carries f ep s d) : Carries f ep (s + 1) d := by
  obtain ⟨k, hk, hks, hd⟩ := h
  exact ⟨k, hk, by omega, hd⟩

lemma Waits.hasBlock (hsize : lastBlock f < 2 ^ 16) (h : Waits f ep j b s) {k : ℕ} (hpos : 0 < k)
    (hk : k ≤ b + 1) : HasBlock f k := by
  have hfull := h.progress.full
  have hb : b ≤ f.length / BLOCK := (Nat.le_div_iff_mul_le (by decide)).mpr hfull
  rw [lastBlock] at hsize
  refine ⟨hpos, by omega, ?_⟩
  exact (Nat.mul_le_mul_right BLOCK (by omega : k - 1 ≤ b)).trans hfull

lemma Waits.asks_acks (h : Waits f ep j b s) {d : Flash.Datagram} (hd : Asks ep b d) {k : ℕ}
    (hk : HasBlock f k) (hack : IsAckOf ep k d) : k = b := by
  rw [Asks] at hd
  split at hd
  · rw [hack.2.1] at hd
    cases hd
  · next hb =>
    subst hd
    exact isAckOf_inj hk.2.1 h.progress.small hack (isAckOf_dataAck h.progress.small)

lemma Waits.lt_lastBlock (h : Waits f ep j b s) : b < lastBlock f :=
  Nat.lt_succ_of_le ((Nat.le_div_iff_mul_le (by decide)).mpr h.progress.full)

lemma Waits.acks (h : Waits f ep j b s) : Acks f ep j (· ≠ lastBlock f) := by
  intro d hd k hk hack
  rcases h.up with hup | ⟨-, d', hup, hasks⟩ <;> rw [hup] at hd
  · cases hd
  · rw [List.mem_singleton.mp hd] at hack
    rw [h.asks_acks hasks hk hack]
    exact h.lt_lastBlock.ne

lemma Waits.poll_idle (h : Waits f ep j b s) {around : Around}
    (hidle : j.load.loader.awaited j.load.socket around.timeMs = none) :
    Waits f ep (j.step f ep (.poll around)) b s ∧ (j.step f ep (.poll around)).up = j.up ∨
      (j.step f ep (.poll around)).load.loader.state = .failed ∧
        (j.step f ep (.poll around)).up = j.up := by
  have hpoll := TftpConfigLoader.poll_idle hidle
  obtain ⟨st, dl, hl, hst⟩ := hpoll.loader
  have hup : (j.step f ep (.poll around)).up = j.up := by
    rcases hpoll.sent with hsent | ⟨hsend, -⟩
    · rw [step, hsent, List.append_nil]
    · rw [h.waits] at hsend
      cases hsend
  have hstate : (j.step f ep (.poll around)).load.loader.state = st :=
    congrArg TftpConfigLoader.state hl
  rcases hst with rfl | rfl | ⟨hsend, -⟩
  · refine Or.inl ⟨{ h with
      progress := h.progress.idle hidle
      waits := hstate.trans h.waits
      rx := fun d hd => h.rx d (hpoll.rx d hd)
      up := by rw [hup]; exact h.up }, hup⟩
  · exact Or.inr ⟨hstate, hup⟩
  · rw [h.waits] at hsend
    cases hsend

lemma Waits.awaited_next (h : Waits f ep j b s) {around : Around} {from' : Endpoint}
    {payload : List Byte}
    (hawaited : j.load.loader.awaited j.load.socket around.timeMs = some (from', payload)) :
    from' = ep ∧ payload = blockOf f (b + 1) ∧ HasBlock f (b + 1) ∧ s = b + 1 := by
  obtain ⟨-, c, b₁, b₀, rx, hhead, hnum⟩ := TftpConfigLoader.awaited_some hawaited
  obtain ⟨k, hk, hks, hdata⟩ := h.rx _ (by rw [hhead]; exact List.mem_cons_self)
  obtain ⟨rfl, -, -, rfl, rfl, rfl⟩ : from' = ep ∧ c = 0 ∧ OPCODE_DATA = OPCODE_DATA ∧
      b₁ = .ofNat 8 (k / 256) ∧ b₀ = .ofNat 8 (k % 256) ∧ payload = blockOf f k := by
    simpa [dataOf] using hdata
  rw [number_append hk.2.1, h.progress.block] at hnum
  obtain rfl := ConfigLoad.number_unique hk.1 hk.2.1 h.progress.small hnum
  refine ⟨rfl, rfl, hk, ?_⟩
  rcases h.near with hs | hs <;> omega

lemma Waits.poll_takes (h : Waits f ep j b s) {around : Around} {taken : Endpoint × List Byte}
    (hawaited : j.load.loader.awaited j.load.socket around.timeMs = some taken) :
    (j.step f ep (.poll around)).up =
      (if around.takes then [(ep, dataAck (b + 1))] else []) ∧
    (b + 1 < lastBlock f → Waits f ep (j.step f ep (.poll around)) (b + 1) (b + 1)) ∧
    (b + 1 = lastBlock f → (j.step f ep (.poll around)).load.loader.state = .done) := by
  obtain ⟨rfl, hpayload, hblock, rfl⟩ := h.awaited_next hawaited
  rw [← Prod.mk.eta (p := taken), hpayload] at hawaited
  have hup : j.up = [] := by
    rcases h.up with hup | ⟨hs, -⟩
    · exact hup
    · exact absurd hs (Nat.succ_ne_self b)
  obtain ⟨hsocket, hsent, hmore, hlast⟩ := h.progress.take hblock.2.1 hawaited
  have hup' : (j.step f taken.1 (.poll around)).up =
      if around.takes then [(taken.1, dataAck (b + 1))] else [] := by
    rw [step, hup, hsent, List.nil_append]
  refine ⟨hup', ?_, ?_⟩
  · intro hlt
    have hfull : b * BLOCK + BLOCK ≤ f.length := by
      rw [← Nat.succ_mul]
      exact (Nat.le_div_iff_mul_le (by decide)).mp (Nat.le_of_lt_succ hlt)
    obtain ⟨hstate, hprogress⟩ := hmore hfull
    constructor
    case progress => exact hprogress
    case waits => exact hstate.trans h.waits
    case near => exact Or.inl rfl
    case server => exact h.server
    case rx =>
      intro d hd
      apply h.rx d
      have hd : d ∈ (j.load.step (.poll around)).socket.rx := hd
      rw [hsocket] at hd
      exact List.mem_of_mem_tail hd
    case down => exact h.down
    case up =>
      rw [hup']
      split
      · exact Or.inr ⟨rfl, _, rfl, by rw [Asks, if_neg (Nat.succ_ne_zero b)]⟩
      · exact Or.inl rfl
  · intro heq
    refine (hlast ?_).1
    rw [← Nat.succ_mul]
    apply not_le.mp
    intro hle
    have := (Nat.le_div_iff_mul_le (by decide)).mpr hle
    rw [lastBlock] at heq
    omega

lemma Waits.deliver (h : Waits f ep j b s) (i : ℕ) : Waits f ep (j.step f ep (.deliver i)) b s := by
  rw [step]
  split
  · exact h
  · next d hd =>
    exact { h with
      progress := { h.progress with }
      rx := by
        intro d' hd'
        rcases List.mem_append.mp hd' with hd' | hd'
        · exact h.rx d' hd'
        · rw [List.mem_singleton.mp hd']
          exact h.down d (List.mem_of_getElem? hd)
      down := fun d' hd' => h.down d' (mem_of_mem_eraseIdx hd') }

lemma Waits.retransmit (hsize : lastBlock f < 2 ^ 16) (h : Waits f ep j b s) :
    Waits f ep (j.step f ep .retransmit) b s := by
  rw [step]
  split
  · next k hserver =>
    have hk : 0 < s ∧ k = s := by
      rcases h.server with hs | hs <;> rw [hserver] at hs
      · cases hs
      · split at hs
        · cases hs
        · next hpos =>
          cases hs
          exact ⟨Nat.pos_of_ne_zero hpos, rfl⟩
    refine { h with down := ?_ }
    intro d hd
    rcases List.mem_append.mp hd with hd | hd
    · exact h.down d hd
    · rw [hk.2] at hd
      refine ⟨s, h.hasBlock hsize hk.1 ?_, le_refl s, List.mem_singleton.mp hd⟩
      rcases h.near with hs | hs <;> omega
  · exact h

lemma Waits.answered (h : Waits f ep j b b) {d : Flash.Datagram} (hasks : Asks ep b d) :
    j.server.receive f ep d = (.sending (b + 1), some (b + 1)) ∨
      ∃ srv, j.server.receive f ep d = (srv, none) ∧
        (srv = .failed ∨ srv = if b = 0 then .waiting else .sending b) := by
  rcases h.server with hserver | hserver
  · exact Or.inr ⟨.failed, by rw [hserver]; rfl, Or.inl rfl⟩
  rw [Asks] at hasks
  split at hserver
  · next hb =>
    subst hb
    rw [hserver, Server.receive]
    split
    · exact Or.inl rfl
    · exact Or.inr ⟨.waiting, rfl, Or.inr rfl⟩
  · next hb =>
    rw [if_neg hb] at hasks
    have hack : IsAckOf ep b d := hasks ▸ isAckOf_dataAck h.progress.small
    left
    rw [hserver, Server.receive, if_pos hack, if_neg (not_lt.mpr h.progress.full)]

lemma Waits.receive (hsize : lastBlock f < 2 ^ 16) (h : Waits f ep j b s) (i : ℕ) :
    ∃ s', Waits f ep (j.step f ep (.receive i)) b s' ∧
      (j.up = [] → s' = s ∧ (j.step f ep (.receive i)).up = []) := by
  cases hd : j.up[i]? with
  | none =>
    have hsame : j.step f ep (.receive i) = j := by rw [step, hd]
    rw [hsame]
    exact ⟨s, h, fun hup => ⟨rfl, hup⟩⟩
  | some d =>
    rcases h.up with hup | ⟨rfl, d', hup, hasks⟩
    · rw [hup] at hd
      cases hd
    obtain ⟨rfl, rfl⟩ : i = 0 ∧ d' = d := by
      rw [hup, List.getElem?_singleton] at hd
      split at hd
      · next hi => exact ⟨hi, Option.some.inj hd⟩
      · cases hd
    have hstep : j.step f ep (.receive 0) = { j with
        server := (j.server.receive f ep d').1
        up := []
        down := j.down ++ reply f ep (j.server.receive f ep d').2 } := by
      rw [step, hd]
      dsimp only
      rw [hup, List.eraseIdx_cons_zero]
    rw [hstep]
    rcases h.answered hasks with hanswer | ⟨srv, hanswer, hsrv⟩ <;> rw [hanswer]
    · refine ⟨s + 1, { h with
        near := Or.inr rfl
        server := Or.inr (if_neg (Nat.succ_ne_zero s)).symm
        rx := fun d hd => (h.rx d hd).later
        down := ?_
        up := Or.inl rfl }, fun hnone => absurd (hup.symm.trans hnone) (List.cons_ne_nil _ _)⟩
      intro d hd
      rcases List.mem_append.mp hd with hd | hd
      · exact (h.down d hd).later
      · exact ⟨s + 1, h.hasBlock hsize (Nat.succ_pos s) (le_refl _), le_refl _,
          List.mem_singleton.mp hd⟩
    · refine ⟨s, { h with server := hsrv, down := ?_, up := Or.inl rfl }, fun _ => ⟨rfl, rfl⟩⟩
      intro d hd
      rw [reply, List.append_nil] at hd
      exact h.down d hd

lemma Waits.loseUp (h : Waits f ep j b s) (i : ℕ) : Waits f ep (j.step f ep (.loseUp i)) b s := by
  refine { h with up := ?_ }
  rw [step]
  dsimp only
  rcases h.up with hup | ⟨hs, d, hup, hasks⟩ <;> rw [hup]
  · exact Or.inl (List.eraseIdx_nil)
  · cases i with
    | zero => exact Or.inl rfl
    | succ i => exact Or.inr ⟨hs, d, by simp, hasks⟩

lemma Waits.lost (h : Waits f ep j b s) {i : ℕ} {d : Flash.Datagram} (hd : d ∈ j.up[i]?) :
    s = b ∧ Asks ep b d ∧ (j.step f ep (.loseUp i)).up = [] := by
  rcases h.up with hup | ⟨rfl, d', hup, hasks⟩
  · rw [hup] at hd
    cases hd
  · rw [hup, List.getElem?_singleton] at hd
    split at hd
    · next hi =>
      obtain rfl := Option.some.inj hd
      subst hi
      refine ⟨rfl, hasks, ?_⟩
      rw [step, hup]
      rfl
    · cases hd

end Waiting

section Runs

variable {f : List Byte} {ep : Endpoint} {j : ConfigExchange}

/-- The loader is at one of its stages. -/
def Held (f : List Byte) (ep : Endpoint) (j : ConfigExchange) : Prop :=
  Asking f ep j ∨ (∃ b s, Waits f ep j b s) ∨ Over f ep j

lemma poll_over {l : TftpConfigLoader} (h : l.state = .done ∨ l.state = .failed)
    (socket : UdpSocket) (around : Around) : l.poll socket around = ⟨false, l, socket, []⟩ := by
  rw [TftpConfigLoader.poll]
  rcases h with h | h <;> rw [h]

lemma poll_request {l : TftpConfigLoader} (h : l.state = .sendRrq) (socket : UdpSocket)
    (around : Around) : l.poll socket around =
      if around.canSend ∧ around.takes then
        ⟨false, { l with deadlineMs := around.timeMs + TftpConfigLoader.TIMEOUT_MS, state := .waitData },
          if socket.isOpen then socket else { socket with isOpen := true },
          [(⟨l.gateway.toU32, .ofNat 16 TFTP_PORT⟩, l.rrq)]⟩
      else ⟨false, l, if socket.isOpen then socket else { socket with isOpen := true }, []⟩ := by
  rw [TftpConfigLoader.poll, h]

lemma step_over (f : List Byte) (ep : Endpoint)
    (h : j.load.loader.state = .done ∨ j.load.loader.state = .failed) (a : Action) :
    (j.step f ep a).load.loader = j.load.loader ∧ ∀ d ∈ (j.step f ep a).up, d ∈ j.up := by
  cases a with
  | poll around =>
    have hpoll := poll_over h j.load.socket around
    refine ⟨congrArg ConfigPoll.loader hpoll, ?_⟩
    intro d hd
    rwa [step, hpoll, List.append_nil] at hd
  | deliver i =>
    rw [step]
    split <;> exact ⟨rfl, fun d hd => hd⟩
  | receive i =>
    rw [step]
    split
    · exact ⟨rfl, fun d hd => hd⟩
    · exact ⟨rfl, fun d hd => mem_of_mem_eraseIdx hd⟩
  | retransmit =>
    rw [step]
    split <;> exact ⟨rfl, fun d hd => hd⟩
  | loseUp i => exact ⟨rfl, fun d hd => mem_of_mem_eraseIdx hd⟩
  | loseDown i => exact ⟨rfl, fun d hd => hd⟩
  | giveUp => exact ⟨rfl, fun d hd => hd⟩

lemma Over.step (h : Over f ep j) (a : Action) : Over f ep (j.step f ep a) := by
  cases h with
  | done h hacks =>
    obtain ⟨hl, hup⟩ := step_over f ep (Or.inl h) a
    exact .done (hl ▸ h) fun d hd => hacks d (hup d hd)
  | failed h hacks =>
    obtain ⟨hl, hup⟩ := step_over f ep (Or.inr h) a
    exact .failed (hl ▸ h) fun d hd => hacks d (hup d hd)

lemma Waits.poll {b s : ℕ} (h : Waits f ep j b s) (around : Around) :
    (∃ b' s', Waits f ep (j.step f ep (.poll around)) b' s') ∨
      Over f ep (j.step f ep (.poll around)) := by
  cases hawaited : j.load.loader.awaited j.load.socket around.timeMs with
  | none =>
    rcases h.poll_idle hawaited with ⟨h', -⟩ | ⟨hfailed, hup⟩
    · exact Or.inl ⟨b, s, h'⟩
    · refine Or.inr (.failed hfailed ?_)
      rw [Acks, hup]
      exact h.acks
  | some taken =>
    have hblock := (h.awaited_next hawaited).2.2.1
    obtain ⟨hup, hmore, hlast⟩ := h.poll_takes hawaited
    rcases Nat.lt_or_eq_of_le (Nat.succ_le_of_lt h.lt_lastBlock) with hlt | heq
    · exact Or.inl ⟨b + 1, b + 1, hmore hlt⟩
    · refine Or.inr (.done (hlast heq) ?_)
      intro d hd k hk hack
      rw [hup] at hd
      split at hd
      · rw [List.mem_singleton.mp hd] at hack
        rw [← heq]
        exact isAckOf_inj hk.2.1 hblock.2.1 hack (isAckOf_dataAck hblock.2.1)
      · cases hd

lemma Asking.step (h : Asking f ep j) (a : Action) : Held f ep (j.step f ep a) := by
  cases a with
  | poll around =>
    have hidle : j.load.loader.awaited j.load.socket around.timeMs = none := by
      rw [TftpConfigLoader.awaited, h.rx]
    have hprogress := h.progress.idle hidle
    have hrx : (j.step f ep (.poll around)).load.socket.rx = [] := by
      apply List.eq_nil_iff_forall_not_mem.mpr
      intro d hd
      have hd := (TftpConfigLoader.poll_idle hidle).rx d hd
      rw [h.rx] at hd
      cases hd
    have hpoll := poll_request h.asks j.load.socket around
    split at hpoll
    · refine Or.inr (Or.inl ⟨0, 0, ?_⟩)
      constructor
      case progress => exact hprogress
      case waits => exact congrArg (fun p => p.loader.state) hpoll
      case near => exact Or.inl rfl
      case server => exact h.server
      case rx => rw [hrx]; simp
      case down => rw [ConfigExchange.step, h.down]; simp
      case up =>
        refine Or.inr ⟨rfl, (⟨j.load.loader.gateway.toU32, .ofNat 16 TFTP_PORT⟩, j.load.loader.rrq),
          ?_, rfl⟩
        rw [ConfigExchange.step, hpoll, h.up, List.nil_append]
    · refine Or.inl ⟨hprogress, ?_, h.server, hrx, ?_, h.down⟩
      · exact (congrArg (fun p => p.loader.state) hpoll).trans h.asks
      · rw [ConfigExchange.step, hpoll, h.up, List.nil_append]
  | deliver i =>
    have hsame : j.step f ep (.deliver i) = j := by
      rw [ConfigExchange.step, h.down]
      rfl
    rw [hsame]
    exact Or.inl h
  | receive i =>
    have hsame : j.step f ep (.receive i) = j := by
      rw [ConfigExchange.step, h.up]
      rfl
    rw [hsame]
    exact Or.inl h
  | retransmit =>
    have hsame : j.step f ep .retransmit = j := by
      rcases h.server with hs | hs <;> simp only [ConfigExchange.step, hs]
    rw [hsame]
    exact Or.inl h
  | loseUp i => exact Or.inl { h with up := by rw [ConfigExchange.step, h.up]; rfl }
  | loseDown i => exact Or.inl { h with down := by rw [ConfigExchange.step, h.down]; rfl }
  | giveUp => exact Or.inl { h with server := Or.inl rfl }

lemma Waits.step {b s : ℕ} (hsize : lastBlock f < 2 ^ 16) (h : Waits f ep j b s) (a : Action) :
    Held f ep (j.step f ep a) := by
  cases a with
  | poll around => exact Or.inr (h.poll around)
  | deliver i => exact Or.inr (Or.inl ⟨b, s, h.deliver i⟩)
  | receive i =>
    obtain ⟨s', h', -⟩ := h.receive hsize i
    exact Or.inr (Or.inl ⟨b, s', h'⟩)
  | retransmit => exact Or.inr (Or.inl ⟨b, s, h.retransmit hsize⟩)
  | loseUp i => exact Or.inr (Or.inl ⟨b, s, h.loseUp i⟩)
  | loseDown i =>
    exact Or.inr (Or.inl ⟨b, s, { h with down := fun d hd => h.down d (mem_of_mem_eraseIdx hd) }⟩)
  | giveUp => exact Or.inr (Or.inl ⟨b, s, { h with server := Or.inl rfl }⟩)

lemma Held.step (hsize : lastBlock f < 2 ^ 16) (h : Held f ep j) (a : Action) :
    Held f ep (j.step f ep a) := by
  rcases h with h | ⟨b, s, h⟩ | h
  · exact h.step a
  · exact h.step hsize a
  · exact Or.inr (Or.inr (h.step a))

lemma Wedged.step (hsize : lastBlock f < 2 ^ 16) (h : Wedged f ep j) (a : Action) :
    Wedged f ep (j.step f ep a) ∨ (j.step f ep a).load.loader.state = .failed := by
  obtain ⟨b, h, hup⟩ := h
  cases a with
  | poll around =>
    cases hawaited : j.load.loader.awaited j.load.socket around.timeMs with
    | none =>
      rcases h.poll_idle hawaited with ⟨h', hup'⟩ | ⟨hfailed, -⟩
      · exact Or.inl ⟨b, h', hup'.trans hup⟩
      · exact Or.inr hfailed
    | some taken => exact absurd (h.awaited_next hawaited).2.2.2.symm (Nat.succ_ne_self b)
  | deliver i =>
    refine Or.inl ⟨b, h.deliver i, ?_⟩
    rw [ConfigExchange.step]
    split <;> exact hup
  | receive i =>
    obtain ⟨s', h', hsame⟩ := h.receive hsize i
    obtain ⟨rfl, hup'⟩ := hsame hup
    exact Or.inl ⟨s', h', hup'⟩
  | retransmit =>
    refine Or.inl ⟨b, h.retransmit hsize, ?_⟩
    rw [ConfigExchange.step]
    split <;> exact hup
  | loseUp i =>
    refine Or.inl ⟨b, h.loseUp i, ?_⟩
    rw [ConfigExchange.step, hup]
    rfl
  | loseDown i =>
    exact Or.inl ⟨b, { h with down := fun d hd => h.down d (mem_of_mem_eraseIdx hd) }, hup⟩
  | giveUp => exact Or.inl ⟨b, { h with server := Or.inl rfl }, hup⟩

lemma Held.lost {a : Action} {k : ℕ} (h : Held f ep j) (hk : HasBlock f k)
    (hlost : LosesAck ep j k a) :
    k = lastBlock f ∧ (j.step f ep a).load.loader.state = .done ∨ k ≠ lastBlock f ∧
      (Wedged f ep (j.step f ep a) ∨ (j.step f ep a).load.loader.state = .failed) := by
  rcases h with h | ⟨b, s, h⟩ | h
  · cases a with
    | poll around =>
      obtain ⟨-, -, hsome⟩ := hlost
      rw [TftpConfigLoader.awaited, h.rx] at hsome
      cases hsome
    | loseUp i =>
      obtain ⟨d, hd, -⟩ := hlost
      rw [h.up] at hd
      cases hd
    | _ => cases hlost
  · cases a with
    | poll around =>
      obtain ⟨htakes, hnum, hsome⟩ := hlost
      obtain ⟨taken, hawaited⟩ := Option.isSome_iff_exists.mp hsome
      obtain ⟨hup, hmore, hlast⟩ := h.poll_takes hawaited
      rw [htakes] at hup
      rw [h.progress.block] at hnum
      obtain rfl := ConfigLoad.number_unique hk.1 hk.2.1 h.progress.small hnum.symm
      rcases Nat.lt_or_eq_of_le (Nat.succ_le_of_lt h.lt_lastBlock) with hlt | heq
      · exact Or.inr ⟨hlt.ne, Or.inl ⟨b + 1, hmore hlt, hup⟩⟩
      · exact Or.inl ⟨heq, hlast heq⟩
    | loseUp i =>
      obtain ⟨d, hd, hack⟩ := hlost
      obtain ⟨rfl, hasks, hup⟩ := h.lost hd
      obtain rfl := h.asks_acks hasks hk hack
      exact Or.inr ⟨h.lt_lastBlock.ne, Or.inl ⟨k, h.loseUp i, hup⟩⟩
    | _ => cases hlost
  · have hstate : j.load.loader.state ≠ .waitData := by
      rcases h with ⟨h, -⟩ | ⟨h, -⟩ <;> rw [h] <;> exact TftpState.noConfusion
    cases a with
    | poll around =>
      obtain ⟨-, -, hsome⟩ := hlost
      obtain ⟨taken, hawaited⟩ := Option.isSome_iff_exists.mp hsome
      exact absurd (TftpConfigLoader.awaited_some hawaited).1 hstate
    | loseUp i =>
      obtain ⟨d, hd, hack⟩ := hlost
      cases h with
      | done h hacks => exact Or.inl ⟨hacks d (List.mem_of_getElem? hd) k hk hack, h⟩
      | failed h hacks =>
        exact Or.inr ⟨hacks d (List.mem_of_getElem? hd) k hk hack, Or.inr h⟩
    | _ => cases hlost

variable {l : TftpConfigLoader} {gateway : Ipv4Address} {filename : List Byte}

/-- What a run leads to. -/
def after (f : List Byte) (ep : Endpoint) (l : TftpConfigLoader) (gateway : Ipv4Address)
    (filename : List Byte) (actions : List Action) : ConfigExchange :=
  actions.foldl (step f ep) (begin l gateway filename)

lemma held_after (hsize : lastBlock f < 2 ^ 16) (actions : List Action) :
    Held f ep (after f ep l gateway filename actions) := by
  apply (run_foldl (step f ep) (begin l gateway filename) actions).invariant (I := Held f ep)
    (C := fun _ _ => True)
  · intro j a j' h _ hstep
    rw [hstep]
    exact h.step hsize a
  · exact Or.inl ⟨ConfigLoad.begin_progress _ _ _ _ _ _, rfl, Or.inr rfl, rfl, rfl, rfl⟩
  · exact Always.of_forall fun _ _ => trivial

lemma done_foldl (h : j.load.loader.state = .done) (actions : List Action) :
    (actions.foldl (step f ep) j).load.loader.state = .done := by
  induction actions generalizing j with
  | nil => exact h
  | cons a actions ih =>
    apply ih
    rw [(step_over f ep (Or.inl h) a).1, h]

lemma wedged_foldl (hsize : lastBlock f < 2 ^ 16)
    (h : Wedged f ep j ∨ j.load.loader.state = .failed) (actions : List Action) :
    (actions.foldl (step f ep) j).load.loader.state ≠ .done := by
  induction actions generalizing j with
  | nil =>
    rcases h with ⟨b, h, -⟩ | h
    · exact (congrArg (· ≠ TftpState.done) h.waits).mpr TftpState.noConfusion
    · exact (congrArg (· ≠ TftpState.done) h).mpr TftpState.noConfusion
  | cons a actions ih =>
    apply ih
    rcases h with h | h
    · exact h.step hsize a
    · right
      rw [(step_over f ep (Or.inr h) a).1, h]

lemma reaches_after_lost (hsize : lastBlock f < 2 ^ 16) {pre : List Action} {a : Action} {k : ℕ}
    (hk : HasBlock f k) (hlost : LosesAck ep (after f ep l gateway filename pre) k a)
    (post : List Action) :
    Reaches f ep (after f ep l gateway filename (pre ++ a :: post)) ↔ k = lastBlock f := by
  have hrun : after f ep l gateway filename (pre ++ a :: post) =
      post.foldl (step f ep) (step f ep (after f ep l gateway filename pre) a) := by
    rw [after, List.foldl_append]
    rfl
  rw [hrun]
  rcases (held_after hsize pre).lost hk hlost with ⟨hlast, hdone⟩ | ⟨hne, hwedged⟩
  · exact iff_of_true ⟨[], by simp, done_foldl hdone post⟩ hlast
  · refine iff_of_false ?_ hne
    rintro ⟨actions, -, hdone⟩
    rw [← List.foldl_append] at hdone
    exact wedged_foldl hsize hwedged (post ++ actions) hdone

end Runs

end ConfigExchange

open ConfigExchange

/-- A configuration that is read is one file, as long as the loader was not marked before and every
block it takes comes from the server of the first. After the loss of an acknowledgement, the end of
the transfer is within reach just if it was that of the last block. -/
theorem config_is_one_file (files : Endpoint → List Byte) (l : TftpConfigLoader) (gateway : Ipv4Address)
    (filename : List Byte) (socket : UdpSocket) (events : List Flash.Event) :
    (l.overflowed = false →
      (∀ d ∈ socket.rx, IsData files d) → (∀ e ∈ events, e.Carries files) →
      Always (fun w e w' => w' = w.step e) ConfigLoad.SameServer
        (ConfigLoad.begin l gateway filename socket) events →
      (events.foldl ConfigLoad.step (ConfigLoad.begin l gateway filename socket)).loader.state =
        .done →
      ∃ ep, (events.foldl ConfigLoad.step (ConfigLoad.begin l gateway filename socket)).Whole
        (files ep) ep) ∧
    ∀ (f : List Byte) (ep : Endpoint) (l : TftpConfigLoader) (gateway : Ipv4Address)
      (filename : List Byte) (pre post : List Action) (a : Action) (k : ℕ), lastBlock f < 2 ^ 16 →
      HasBlock f k → LosesAck ep (after f ep l gateway filename pre) k a →
      (Reaches f ep (after f ep l gateway filename (pre ++ a :: post)) ↔ k = lastBlock f) :=
  ⟨fun hover hrx hdata hsame hdone => ConfigLoad.done_whole hover gateway filename hrx hdata hsame hdone,
    fun _ _ _ _ _ _ post _ _ hsize hk hlost => reaches_after_lost hsize hk hlost post⟩

section Examples

def ownConfig : List Byte := List.replicate 513 0x61

def otherConfig : List Byte := List.replicate 513 0x62

/-- The server answers from port 1; port 2 is left over from a transfer of another file. -/
def twoConfigs (ep : Endpoint) : List Byte := if ep.port = 1 then ownConfig else otherConfig

def splicedConfig : List Flash.Event :=
  [.poll ⟨0, true, true⟩, .arrive (⟨0, 1⟩, dataOf ownConfig 1), .poll ⟨0, true, true⟩,
    .arrive (⟨0, 2⟩, dataOf otherConfig 2), .poll ⟨0, true, true⟩]

def noGateway : Ipv4Address := Vector.replicate 4 0

def lostConfigAck : List Action :=
  [.poll ⟨0, true, true⟩, .receive 0, .deliver 0, .poll ⟨0, true, true⟩]

lemma spliced_loader :
    (splicedConfig.foldl ConfigLoad.step (ConfigLoad.begin {} noGateway [] {})).loader.state = .done ∧
      (splicedConfig.foldl ConfigLoad.step (ConfigLoad.begin {} noGateway [] {})).loader.parseConfig =
        some (List.replicate 512 0x61 ++ [0x62]) := by
  decide +kernel

lemma lost_ack : LosesAck ⟨0, 1⟩ (after ownConfig ⟨0, 1⟩ {} noGateway [] lostConfigAck) 1
    (.loseUp 0) := by
  have hup : (after ownConfig ⟨0, 1⟩ {} noGateway [] lostConfigAck).up = [(⟨0, 1⟩, dataAck 1)] := by
    decide +kernel
  refine ⟨(⟨0, 1⟩, dataAck 1), ?_, isAckOf_dataAck (by decide)⟩
  rw [hup]
  rfl

def shortConfig : List Flash.Event :=
  [.poll ⟨0, true, true⟩, .arrive (⟨0, 1⟩, dataOf [0x61] 1), .poll ⟨0, true, true⟩]

/-- A short file is read, and a lost acknowledgement before the last block ends the other load. -/
theorem config_is_one_file_runs :
    (∃ ep, (shortConfig.foldl ConfigLoad.step (ConfigLoad.begin {} noGateway [] {})).Whole
      [0x61] ep) ∧
    ¬ Reaches ownConfig ⟨0, 1⟩
      (after ownConfig ⟨0, 1⟩ {} noGateway [] (lostConfigAck ++ [.loseUp 0])) := by
  constructor
  · refine (config_is_one_file (fun _ => [0x61]) {} noGateway [] {} shortConfig).1 rfl (by simp) ?_ ?_
      (by decide +kernel)
    · intro e he
      simp only [shortConfig, List.mem_cons, List.not_mem_nil, or_false] at he
      rcases he with rfl | rfl | rfl
      · trivial
      · exact ⟨1, ⟨by decide, by decide, by decide⟩, rfl⟩
      · trivial
    · refine ⟨?_, ?_⟩
      · intro ep payload hawaited
        cases hawaited
      rintro _ rfl
      refine ⟨trivial, ?_⟩
      rintro _ rfl
      refine ⟨?_, fun _ _ => trivial⟩
      intro ep payload _ first hfirst
      cases hfirst
  · intro hreaches
    have hlast := ((config_is_one_file (fun _ => [0x61]) {} noGateway [] {} shortConfig).2 ownConfig ⟨0, 1⟩ {} noGateway [] lostConfigAck []
      (.loseUp 0) 1 (by decide +kernel) ⟨by decide, by decide, by decide +kernel⟩ lost_ack).mp hreaches
    exact absurd hlast (by decide +kernel)

/-- A block of another transfer, from another port, is stored as if it were the file's own; and one
lost acknowledgement is enough to end a load. -/
theorem config_spliced :
    (¬ ∀ (files : Endpoint → List Byte) (l : TftpConfigLoader) (gateway : Ipv4Address)
      (filename : List Byte) (socket : UdpSocket) (events : List Flash.Event),
      (∀ d ∈ socket.rx, IsData files d) → (∀ e ∈ events, e.Carries files) →
      (events.foldl ConfigLoad.step (ConfigLoad.begin l gateway filename socket)).loader.state =
        .done →
      ∃ ep, (events.foldl ConfigLoad.step (ConfigLoad.begin l gateway filename socket)).Whole
        (files ep) ep) ∧
    ¬ ∀ (f : List Byte) (ep : Endpoint) (l : TftpConfigLoader) (gateway : Ipv4Address)
      (filename : List Byte) (pre post : List Action) (a : Action) (k : ℕ), lastBlock f < 2 ^ 16 →
      HasBlock f k → LosesAck ep (after f ep l gateway filename pre) k a →
      Reaches f ep (after f ep l gateway filename (pre ++ a :: post)) := by
  constructor
  · intro hclaim
    have hdata : ∀ e ∈ splicedConfig, e.Carries twoConfigs := by
      have hown : IsData twoConfigs (⟨0, 1⟩, dataOf ownConfig 1) :=
        ⟨1, ⟨by decide, by decide, by decide +kernel⟩, rfl⟩
      have hother : IsData twoConfigs (⟨0, 2⟩, dataOf otherConfig 2) :=
        ⟨2, ⟨by decide, by decide, by decide +kernel⟩, rfl⟩
      intro e he
      simp only [splicedConfig, List.mem_cons, List.not_mem_nil, or_false] at he
      rcases he with rfl | rfl | rfl | rfl | rfl
      · trivial
      · exact hown
      · trivial
      · exact hother
      · trivial
    obtain ⟨hdone, htext⟩ := spliced_loader
    obtain ⟨ep, hread, -⟩ := hclaim twoConfigs {} noGateway [] {} splicedConfig (by simp) hdata hdone
    rw [htext, twoConfigs] at hread
    split at hread <;> revert hread <;> decide +kernel
  · intro hclaim
    have hsize : lastBlock ownConfig < 2 ^ 16 := by decide +kernel
    have hblock : HasBlock ownConfig 1 := ⟨by decide, by decide, by decide +kernel⟩
    have hreaches := hclaim ownConfig ⟨0, 1⟩ {} noGateway [] lostConfigAck [] (.loseUp 0) 1 hsize
      hblock lost_ack
    exact absurd ((reaches_after_lost hsize hblock lost_ack []).mp hreaches) (by decide +kernel)

end Examples

end Ledwall.Network
