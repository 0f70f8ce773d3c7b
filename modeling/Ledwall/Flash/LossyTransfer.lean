import Ledwall.Flash.Transfer

/-! The loader, a server that repeats its last block, and a network that loses datagrams between
them. -/

namespace Ledwall.Flash

open Ledwall.Wire Ledwall.Library.Runs BitstreamLoader

/-- An RFC 1350 server of one file: the block it sent last and waits to see acknowledged. -/
inductive Server
  | waiting
  | sending (k : ℕ)
  | finished
  | failed
  deriving DecidableEq

def requestTo (ep : Endpoint) : Endpoint := ⟨ep.addr, .ofNat 16 TFTP_PORT⟩

/-- The acknowledgement of block `k` at the server's own port. -/
def IsAckOf (ep : Endpoint) (k : ℕ) (d : Datagram) : Prop :=
  d.1 = ep ∧ d.2.getD 1 0 = OPCODE_ACK ∧ d.2.getD 2 0 ++ d.2.getD 3 0 = BitVec.ofNat 16 k

instance (ep : Endpoint) (k : ℕ) (d : Datagram) : Decidable (IsAckOf ep k d) :=
  inferInstanceAs (Decidable (_ ∧ _ ∧ _))

/-- What the server does with a datagram, and the block it answers with. -/
def Server.receive (f : List Byte) (ep : Endpoint) (d : Datagram) : Server → Server × Option ℕ
  | .waiting =>
    if d.1 = requestTo ep ∧ d.2.getD 1 0 = OPCODE_RRQ then (.sending 1, some 1)
    else (.waiting, none)
  | .sending k =>
    if IsAckOf ep k d then
      if f.length < k * BLOCK then (.finished, none) else (.sending (k + 1), some (k + 1))
    else (.sending k, none)
  | s => (s, none)

/-- `up` and `down` are the datagrams in flight to the server and to the loader. -/
structure Joint where
  load : Load
  now : ℤ
  server : Server := .waiting
  up : List Datagram := []
  down : List Datagram := []

inductive Action
  | poll (around : Around)
  | deliver (i : ℕ)
  | receive (i : ℕ)
  | retransmit
  | loseUp (i : ℕ)
  | loseDown (i : ℕ)
  | giveUp

/-- The action loses nothing: what the loader sends is taken, and the server does not give up. -/
def Action.Lossless : Action → Prop
  | .poll around => around.canSend = true ∧ around.takes = true
  | .loseUp _ | .loseDown _ | .giveUp => False
  | _ => True

namespace Joint

section Steps

variable (f : List Byte) (ep : Endpoint) (j : Joint)

def reply : Option ℕ → List Datagram
  | none => []
  | some k => [(ep, dataOf f k)]

def step : Action → Joint
  | .poll around =>
    { j with
      load := j.load.step (.poll around)
      now := around.timeMs
      up := j.up ++ (j.load.loader.poll j.load.socket j.load.chip around).sent }
  | .deliver i =>
    match j.down[i]? with
    | none => j
    | some d => { j with load := j.load.step (.arrive d), down := j.down.eraseIdx i }
  | .receive i =>
    match j.up[i]? with
    | none => j
    | some d =>
      let (server, answer) := j.server.receive f ep d
      { j with server := server, up := j.up.eraseIdx i, down := j.down ++ reply f ep answer }
  | .retransmit =>
    match j.server with
    | .sending k => { j with down := j.down ++ [(ep, dataOf f k)] }
    | _ => j
  | .loseUp i => { j with up := j.up.eraseIdx i }
  | .loseDown i => { j with down := j.down.eraseIdx i }
  | .giveUp => { j with server := .failed }

/-- Time does not run backwards from poll to poll. -/
def Timely : Action → Prop
  | .poll around => j.now ≤ around.timeMs
  | _ => True

/-- The step loses no request, and no acknowledgement but that of the last block. -/
def Answers : Action → Prop
  | .poll around => ∀ from' payload,
      j.load.loader.awaited j.load.socket around.timeMs = some (from', payload) →
        payload.length < BLOCK ∨ around.takes = true
  | .loseUp i => ∀ d ∈ j.up[i]?, IsAckOf ep (f.length / BLOCK + 1) d
  | _ => True

/-- A request at the server's well-known port. -/
def IsRequest (d : Datagram) : Prop := d.1 = requestTo ep ∧ d.2.getD 1 0 = OPCODE_RRQ

/-- What brings the server to block `b + 1` is in flight. -/
def Linked (b : ℕ) : Prop := ∃ d ∈ j.up, if b = 0 then IsRequest ep d else IsAckOf ep b d

/-- The loader waits for block `b + 1` and the server sent block `s` last. -/
structure Synced (b s : ℕ) : Prop where
  progress : j.load.Progress f ep b
  waits : j.load.loader.state = .waitData
  time : j.now ≤ j.load.loader.deadlineMs
  healthy : j.load.chip.Healthy
  golden : j.load.chip.goldenPresent = true
  near : s = b ∨ s = b + 1
  server : j.server = if s = 0 then .waiting else .sending s
  rx : ∀ d ∈ j.load.socket.rx, ∃ k, HasBlock f k ∧ k ≤ s ∧ d = (ep, dataOf f k)
  down : ∀ d ∈ j.down, ∃ k, HasBlock f k ∧ k ≤ s ∧ d = (ep, dataOf f k)
  up : ∀ d ∈ j.up, IsRequest ep d ∨ ∃ k, 0 < k ∧ k ≤ b ∧ d = (ep, dataAck k)

/-- What one step can do to two parties in step. -/
inductive Outcome (b s : ℕ) (a : Action) (j' : Joint) : Prop
  | failed (h : j'.load.loader.state = .failed)
  | gaveUp (ha : a = .giveUp) (h : j'.server = .failed)
  | finished (hs : s = b + 1) (h : j'.load.loader.state = .finished)
  | same (h : Synced f ep j' b s) (hlost : Answers f ep j a → Linked ep j b → s = b → Linked ep j' b)
      (hnew : Linked ep j' b → Linked ep j b)
  | served (hs : s = b) (hlink : Linked ep j b) (h : Synced f ep j' b (b + 1))
  | stored (hs : s = b + 1) (h : Synced f ep j' (b + 1) (b + 1))
      (hlink : Answers f ep j a → Linked ep j' (b + 1))

end Steps

section Outcomes

variable {f : List Byte} {ep : Endpoint} {j : Joint} {b s : ℕ}

theorem mem_eraseIdx {α : Type} {l : List α} {x d : α} {i : ℕ} (hx : x ∈ l) (hd : l[i]? = some d)
    (hne : x ≠ d) : x ∈ l.eraseIdx i := by
  obtain ⟨m, hm⟩ := List.mem_iff_getElem?.mp hx
  apply List.mem_eraseIdx_iff_getElem?.mpr
  refine ⟨m, ?_, hm⟩
  rintro rfl
  rw [hm] at hd
  exact hne (Option.some.inj hd)

theorem mem_of_mem_eraseIdx {α : Type} {l : List α} {x : α} {i : ℕ} (hx : x ∈ l.eraseIdx i) :
    x ∈ l :=
  (List.eraseIdx_sublist l i).subset hx

theorem isAckOf_dataAck {k : ℕ} (hk : k < 2 ^ 16) : IsAckOf ep k (ep, dataAck k) :=
  ⟨rfl, rfl, number_append hk⟩

theorem isAckOf_inj {k m : ℕ} {d : Datagram} (hk : k < 2 ^ 16) (hm : m < 2 ^ 16)
    (h : IsAckOf ep k d) (h' : IsAckOf ep m d) : k = m := by
  have := congrArg BitVec.toNat (h.2.2.symm.trans h'.2.2)
  rwa [BitVec.toNat_ofNat, BitVec.toNat_ofNat, Nat.mod_eq_of_lt hk, Nat.mod_eq_of_lt hm] at this

theorem not_ack_of_request {k : ℕ} {d : Datagram} (h : IsRequest ep d) : ¬ IsAckOf ep k d := by
  intro hack
  have := h.2.symm.trans hack.2.1
  cases this

theorem Synced.block_small (h : Synced f ep j b s) : b + 1 < 2 ^ 16 := by
  have := h.progress.fits
  simp only [BLOCK, APP_LEN] at this
  omega

/-- The blocks up to the awaited one are blocks of the file. -/
theorem Synced.hasBlock (h : Synced f ep j b s) {k : ℕ} (hpos : 0 < k) (hk : k ≤ b + 1) :
    HasBlock f k := by
  have hfull := h.progress.full
  have hsmall := h.block_small
  refine ⟨hpos, by omega, ?_⟩
  have hle : (k - 1) * BLOCK ≤ b * BLOCK := Nat.mul_le_mul_right BLOCK (by omega)
  exact hle.trans hfull

/-- A block of another number at the head of the queue is dropped. -/
theorem poll_skips {l : BitstreamLoader} {socket : UdpSocket} {c : Chip} {around : Around} {k : ℕ}
    {rx : List Datagram} (hstate : l.state = .waitData) (htime : around.timeMs ≤ l.deadlineMs)
    (hrx : socket.rx = (ep, dataOf f k) :: rx) (hk : k < 2 ^ 16) (hne : l.block ≠ .ofNat 16 k) :
    l.awaited socket around.timeMs = none ∧
      l.poll socket c around = ⟨false, l, { socket with rx := rx }, c, []⟩ := by
  constructor
  · rw [awaited, hrx]
    dsimp only
    rw [if_neg]
    rintro ⟨-, -, -, hnum⟩
    rw [dataOf_number f hk] at hnum
    exact hne hnum.symm
  · have hnum := number_append hk
    rw [BitstreamLoader.poll, hstate, hrx]
    dsimp only
    rw [if_neg (not_lt.mpr htime)]
    change (if OPCODE_DATA = OPCODE_ERROR then _ else if OPCODE_DATA ≠ OPCODE_DATA ∨
      BitVec.ofNat 8 (k / 256) ++ BitVec.ofNat 8 (k % 256) ≠ l.block then _ else _) = _
    rw [if_neg (by decide), if_pos]
    right
    rw [hnum]
    exact hne.symm

/-- A poll that takes nothing from a block changes nothing but the queue. -/
theorem step_skips {w : Load} {socket : UdpSocket} {around : Around}
    (hawaited : w.loader.awaited w.socket around.timeMs = none)
    (hpoll : w.loader.poll w.socket w.chip around = ⟨false, w.loader, socket, w.chip, []⟩) :
    w.step (.poll around) = { w with socket := socket } := by
  simp only [Load.step, hpoll, Load.taken, hawaited, List.append_nil, ite_self]

theorem Synced.skip (h : Synced f ep j b s) {around : Around} {socket : UdpSocket}
    (htime : around.timeMs ≤ j.load.loader.deadlineMs)
    (hawaited : j.load.loader.awaited j.load.socket around.timeMs = none)
    (hpoll : j.load.loader.poll j.load.socket j.load.chip around =
      ⟨false, j.load.loader, socket, j.load.chip, []⟩)
    (hrx : ∀ d ∈ socket.rx, d ∈ j.load.socket.rx) :
    ∃ j', j.step f ep (.poll around) = j' ∧ j'.up = j.up ∧ j'.load.socket = socket ∧
      j'.now = around.timeMs ∧ Synced f ep j' b s := by
  have hstep : j.step f ep (.poll around) =
      { j with load := { j.load with socket := socket }, now := around.timeMs } := by
    rw [step, step_skips hawaited hpoll, hpoll, List.append_nil]
  refine ⟨_, hstep, rfl, rfl, rfl, ?_⟩
  exact { h with
    progress := { h.progress with }
    time := htime
    rx := fun d hd => h.rx d (hrx d hd) }

theorem Outcome.of_up {a : Action} {j' : Joint} (h : Synced f ep j' b s) (hup : j'.up = j.up) :
    Outcome f ep j b s a j' := by
  refine .same h ?_ ?_
  · rintro - ⟨d, hd, hlink⟩ -
    exact ⟨d, by rwa [hup], hlink⟩
  · rintro ⟨d, hd, hlink⟩
    exact ⟨d, by rwa [← hup], hlink⟩

/-- A poll in time of an awaited block. -/
theorem Synced.take (hfits : min f.length (b * BLOCK + BLOCK) ≤ APP_LEN) (hsync : hasSync (blockOf f 1) = true)
    (h : Synced f ep j b s) (around : Around) (htime : around.timeMs ≤ j.load.loader.deadlineMs)
    {rx : List Datagram} (hrx : j.load.socket.rx = (ep, dataOf f (b + 1)) :: rx)
    (hs : s = b + 1) :
    (b * BLOCK + BLOCK ≤ f.length → ∃ j', j.step f ep (.poll around) = j' ∧
      Synced f ep j' (b + 1) (b + 1) ∧
      (around.takes = true → (ep, dataAck (b + 1)) ∈ j'.up)) ∧
    (f.length < b * BLOCK + BLOCK →
      (j.step f ep (.poll around)).load.loader.state = .finished) := by
  subst hs
  obtain ⟨p, hpoll, hh, hg, hsocket, hsent, hmore, hlast⟩ := h.progress.polled around ep.port rx
    h.waits htime hrx (Or.inl rfl) h.progress.full hfits hsync h.healthy h.golden
  have htaken : j.load.taken around = [(ep, j.load.loader.block)] := by
    rw [Load.taken, awaited_data h.waits htime hrx h.block_small h.progress.block]
  have hstep (hne : p.loader.state ≠ .failed) : j.step f ep (.poll around) =
      { j with load := j.load.polled p ep, now := around.timeMs, up := j.up ++ p.sent } := by
    rw [step, Load.step, hpoll, if_neg hne, htaken]
    rfl
  constructor
  · intro hfull
    obtain ⟨hp, hwait, hdeadline⟩ := hmore hfull
    refine ⟨_, hstep (by rw [hwait]; exact LoaderState.noConfusion), ?_, ?_⟩
    · constructor
      case progress => exact hp
      case waits => exact hwait
      case time =>
        change around.timeMs ≤ p.loader.deadlineMs
        rw [hdeadline]
        exact Int.le_add_of_nonneg_right (by decide)
      case healthy => exact hh
      case golden => exact hg
      case near => exact Or.inl rfl
      case server => exact h.server
      case down => exact h.down
      case rx =>
        intro d hd
        apply h.rx d
        have hd : d ∈ p.socket.rx := hd
        rw [hsocket] at hd
        rw [hrx]
        exact List.mem_cons_of_mem _ hd
      case up =>
        intro d hd
        rcases List.mem_append.mp hd with hd | hd
        · rcases h.up d hd with hreq | ⟨k, hpos, hk, rfl⟩
          · exact Or.inl hreq
          · exact Or.inr ⟨k, hpos, by omega, rfl⟩
        · rw [hsent] at hd
          split at hd
          · exact Or.inr ⟨b + 1, Nat.succ_pos b, Nat.le_refl _, List.mem_singleton.mp hd⟩
          · cases hd
    · intro htakes
      apply List.mem_append_right
      rw [hsent, if_pos htakes]
      exact List.mem_singleton_self _
  · intro hshort
    obtain ⟨-, hfinished⟩ := hlast hshort
    rw [hstep (by rw [hfinished]; exact LoaderState.noConfusion)]
    exact hfinished

/-- A poll in time of a block that is not awaited. -/
theorem Synced.drops (h : Synced f ep j b s) (around : Around) {k : ℕ} {rx : List Datagram}
    (htime : around.timeMs ≤ j.load.loader.deadlineMs)
    (hrx : j.load.socket.rx = (ep, dataOf f k) :: rx) (hk : HasBlock f k) (hne : k ≠ b + 1) :
    ∃ j', j.step f ep (.poll around) = j' ∧ j'.up = j.up ∧
      j'.load.socket = { j.load.socket with rx := rx } ∧ j'.now = around.timeMs ∧
      Synced f ep j' b s := by
  have hblock : j.load.loader.block ≠ .ofNat 16 k := by
    rw [h.progress.block]
    intro heq
    have := congrArg BitVec.toNat heq
    rw [BitVec.toNat_ofNat, BitVec.toNat_ofNat, Nat.mod_eq_of_lt h.block_small,
      Nat.mod_eq_of_lt hk.2.1] at this
    exact hne this.symm
  obtain ⟨hawaited, hpoll⟩ := poll_skips (c := j.load.chip) h.waits htime hrx hk.2.1 hblock
  apply h.skip htime hawaited hpoll
  intro d hd
  rw [hrx]
  exact List.mem_cons_of_mem _ hd

theorem Synced.poll (hsize : f.length ≤ APP_LEN) (hsync : hasSync (blockOf f 1) = true)
    (h : Synced f ep j b s) (around : Around) :
    Outcome f ep j b s (.poll around) (j.step f ep (.poll around)) := by
  rcases lt_or_ge j.load.loader.deadlineMs around.timeMs with hlate | htime
  · apply Outcome.failed
    change (j.load.loader.poll j.load.socket j.load.chip around).loader.state = .failed
    rw [poll_late h.waits hlate]
    rfl
  cases hrx : j.load.socket.rx with
  | nil =>
    have hawaited : j.load.loader.awaited j.load.socket around.timeMs = none := by
      rw [awaited, hrx]
    obtain ⟨j', hstep, hup, -, -, h'⟩ := h.skip htime hawaited (poll_empty h.waits htime hrx)
      fun d hd => hd
    rw [hstep]
    exact Outcome.of_up h' hup
  | cons d rx =>
    obtain ⟨k, hk, hks, rfl⟩ := h.rx d (by rw [hrx]; exact List.mem_cons_self)
    rcases eq_or_ne k (b + 1) with rfl | hne
    · have hs : s = b + 1 := by
        rcases h.near with hs | hs <;> omega
      obtain ⟨hmore, hlast⟩ := h.take (min_le_of_left_le hsize) hsync around htime hrx hs
      rcases Nat.lt_or_ge f.length (b * BLOCK + BLOCK) with hshort | hfull
      · exact .finished hs (hlast hshort)
      · obtain ⟨j', hstep, h', hack⟩ := hmore hfull
        rw [hstep]
        refine .stored hs h' ?_
        intro hanswers
        have htaken := awaited_data h.waits htime hrx h.block_small h.progress.block
        rcases hanswers ep _ htaken with hlt | htakes
        · rw [blockOf_length] at hlt
          omega
        · refine ⟨_, hack htakes, ?_⟩
          rw [if_neg (Nat.succ_ne_zero b)]
          exact isAckOf_dataAck h.block_small
    · obtain ⟨j', hstep, hup, -, -, h'⟩ := h.drops around htime hrx hk hne
      rw [hstep]
      exact Outcome.of_up h' hup

theorem Synced.arrive (h : Synced f ep j b s) {d : Datagram} {i : ℕ} (hd : j.down[i]? = some d) :
    Synced f ep { j with load := j.load.step (.arrive d), down := j.down.eraseIdx i } b s :=
  { h with
    progress := { h.progress with }
    rx := by
      intro d' hd'
      rcases List.mem_append.mp hd' with hd' | hd'
      · exact h.rx d' hd'
      · rw [List.mem_singleton.mp hd']
        exact h.down d (List.mem_of_getElem? hd)
    down := fun d' hd' => h.down d' (mem_of_mem_eraseIdx hd') }

theorem Synced.deliver (h : Synced f ep j b s) (i : ℕ) :
    Outcome f ep j b s (.deliver i) (j.step f ep (.deliver i)) := by
  rw [step]
  split
  · exact Outcome.of_up h rfl
  · next d hd => exact Outcome.of_up (h.arrive hd) rfl

theorem Synced.resend (h : Synced f ep j b s) (hpos : 0 < s) :
    Synced f ep { j with down := j.down ++ [(ep, dataOf f s)] } b s :=
  { h with
    down := by
      intro d hd
      rcases List.mem_append.mp hd with hd | hd
      · exact h.down d hd
      · refine ⟨s, h.hasBlock hpos ?_, Nat.le_refl s, List.mem_singleton.mp hd⟩
        rcases h.near with hs | hs <;> omega }

theorem Synced.retransmit (h : Synced f ep j b s) :
    Outcome f ep j b s .retransmit (j.step f ep .retransmit) := by
  rw [step]
  split
  · next k hserver =>
    rw [h.server] at hserver
    split at hserver
    · cases hserver
    · next hs =>
      cases hserver
      exact Outcome.of_up (h.resend (Nat.pos_of_ne_zero hs)) rfl
  · exact Outcome.of_up h rfl

theorem Synced.loseDown (h : Synced f ep j b s) (i : ℕ) :
    Outcome f ep j b s (.loseDown i) (j.step f ep (.loseDown i)) :=
  Outcome.of_up { h with down := fun d hd => h.down d (mem_of_mem_eraseIdx hd) } rfl

theorem Synced.loseUp (hsize : f.length ≤ APP_LEN) (h : Synced f ep j b s) (i : ℕ) :
    Outcome f ep j b s (.loseUp i) (j.step f ep (.loseUp i)) := by
  refine .same { h with up := fun d hd => h.up d (mem_of_mem_eraseIdx hd) } ?_ ?_
  · rintro hanswers ⟨d, hd, hlink⟩ -
    cases hi : j.up[i]? with
    | none =>
      refine ⟨d, ?_, hlink⟩
      have hlen : j.up.length ≤ i := List.getElem?_eq_none_iff.mp hi
      change d ∈ j.up.eraseIdx i
      rwa [List.eraseIdx_of_length_le hlen]
    | some d' =>
      refine ⟨d, mem_eraseIdx hd hi ?_, hlink⟩
      rintro rfl
      have hfinal := hanswers d hi
      have hfull := h.progress.full
      have hsmall := h.block_small
      split at hlink
      · exact not_ack_of_request hlink hfinal
      · simp only [BLOCK, APP_LEN] at hfinal hfull hsize
        have := isAckOf_inj (by omega) (by omega) hfinal hlink
        omega
  · rintro ⟨d, hd, hlink⟩
    exact ⟨d, mem_of_mem_eraseIdx hd, hlink⟩

/-- What links the two brings the server to the block the loader waits for. -/
theorem Synced.answered (h : Synced f ep j b b) {d : Datagram}
    (hlink : if b = 0 then IsRequest ep d else IsAckOf ep b d) :
    j.server.receive f ep d = (.sending (b + 1), some (b + 1)) := by
  have hserver := h.server
  split at hlink
  · next hb =>
    subst hb
    rw [hserver, if_pos rfl, Server.receive]
    exact if_pos hlink
  · next hb =>
    rw [hserver, if_neg hb, Server.receive, if_pos hlink, if_neg (not_lt.mpr h.progress.full)]

theorem Synced.serve (h : Synced f ep j b b) {d : Datagram} {i : ℕ} (hd : j.up[i]? = some d)
    (hlink : if b = 0 then IsRequest ep d else IsAckOf ep b d) :
    Synced f ep (j.step f ep (.receive i)) b (b + 1) := by
  simp only [step, hd, h.answered hlink, reply]
  have hnew (d : Datagram) (h' : ∃ k, HasBlock f k ∧ k ≤ b ∧ d = (ep, dataOf f k)) :
      ∃ k, HasBlock f k ∧ k ≤ b + 1 ∧ d = (ep, dataOf f k) := by
    obtain ⟨k, hk, hkb, hdk⟩ := h'
    exact ⟨k, hk, by omega, hdk⟩
  exact { h with
    near := Or.inr rfl
    server := (if_neg (Nat.succ_ne_zero b)).symm
    rx := fun d hd => hnew d (h.rx d hd)
    down := by
      intro d hd
      rcases List.mem_append.mp hd with hd | hd
      · exact hnew d (h.down d hd)
      · exact ⟨b + 1, h.hasBlock (Nat.succ_pos b) (Nat.le_refl _), Nat.le_refl _,
          List.mem_singleton.mp hd⟩
    up := fun d hd => h.up d (mem_of_mem_eraseIdx hd) }

theorem Synced.receive (h : Synced f ep j b s) (i : ℕ) :
    Outcome f ep j b s (.receive i) (j.step f ep (.receive i)) := by
  cases hd : j.up[i]? with
  | none =>
    rw [step, hd]
    exact Outcome.of_up h rfl
  | some d =>
    have hup := h.up d (List.mem_of_getElem? hd)
    have hserver := h.server
    have hsmall := h.block_small
    rcases Nat.eq_zero_or_pos s with rfl | hpos
    · have hb : b = 0 := by
        rcases h.near with hb | hb <;> omega
      subst hb
      rcases hup with hreq | ⟨k, hpos, hk, -⟩
      · exact .served rfl ⟨d, List.mem_of_getElem? hd, hreq⟩ (h.serve hd hreq)
      · omega
    · rw [if_neg (by omega)] at hserver
      by_cases hack : IsAckOf ep s d
      · have hsb : s = b := by
          rcases hup with hreq | ⟨k, -, hk, rfl⟩
          · exact absurd hack (not_ack_of_request hreq)
          · have hks : k = s := isAckOf_inj (by omega) (by rcases h.near with hs | hs <;> omega)
              (isAckOf_dataAck (by omega)) hack
            rcases h.near with hs | hs <;> omega
        subst hsb
        have hlink : if s = 0 then IsRequest ep d else IsAckOf ep s d := by
          rwa [if_neg (by omega)]
        exact .served rfl ⟨d, List.mem_of_getElem? hd, hlink⟩ (h.serve hd hlink)
      · have hstep : j.step f ep (.receive i) = { j with up := j.up.eraseIdx i } := by
          simp only [step, hd, hserver, Server.receive, if_neg hack, reply, List.append_nil]
        rw [hstep]
        refine .same { h with
          server := by
            rw [if_neg (by omega)]
            exact hserver
          up := fun d hd => h.up d (mem_of_mem_eraseIdx hd) } ?_ ?_
        · rintro - ⟨d', hd', hlink⟩ rfl
          refine ⟨d', mem_eraseIdx hd' hd ?_, hlink⟩
          rintro rfl
          rw [if_neg (by omega)] at hlink
          exact hack hlink
        · rintro ⟨d', hd', hlink⟩
          exact ⟨d', mem_of_mem_eraseIdx hd', hlink⟩

/-- What any step does to two parties in step. -/
theorem Synced.step (hsize : f.length ≤ APP_LEN) (hsync : hasSync (blockOf f 1) = true)
    (h : Synced f ep j b s) (a : Action) : Outcome f ep j b s a (j.step f ep a) := by
  cases a with
  | poll around => exact h.poll hsize hsync around
  | deliver i => exact h.deliver i
  | receive i => exact h.receive i
  | retransmit => exact h.retransmit
  | loseUp i => exact h.loseUp hsize i
  | loseDown i => exact h.loseDown i
  | giveUp => exact .gaveUp rfl rfl

end Outcomes

section Continuations

variable (f : List Byte) (ep : Endpoint) (j : Joint)

/-- A continuation that loses nothing finishes the load. -/
def Reaches : Prop := ∃ actions,
  Always (fun j a j' => j' = step f ep j a) (fun j a => j.Timely a ∧ a.Lossless) j actions ∧
    (actions.foldl (step f ep) j).load.loader.state = .finished

variable {f ep j} {b s : ℕ}

theorem Reaches.of_step {a : Action} (ht : j.Timely a) (hl : a.Lossless)
    (h : Reaches f ep (j.step f ep a)) : Reaches f ep j := by
  obtain ⟨actions, halways, hdone⟩ := h
  refine ⟨a :: actions, ⟨⟨ht, hl⟩, ?_⟩, hdone⟩
  rintro _ rfl
  exact halways

theorem Reaches.of_finished (h : j.load.loader.state = .finished) : Reaches f ep j :=
  ⟨[], trivial, h⟩

/-- From where the server sends the awaited block, if every state one block further reaches the
end. -/
theorem Synced.reaches_sent (hsize : f.length ≤ APP_LEN) (hsync : hasSync (blockOf f 1) = true)
    (hnext : ∀ j', Synced f ep j' (b + 1) (b + 1) → Linked ep j' (b + 1) → Reaches f ep j')
    (h : Synced f ep j b (b + 1)) : Reaches f ep j := by
  have hpoll {j : Joint} {rx : List Datagram} (h : Synced f ep j b (b + 1))
      (hrx : j.load.socket.rx = (ep, dataOf f (b + 1)) :: rx) : Reaches f ep j := by
    obtain ⟨hmore, hlast⟩ := h.take (min_le_of_left_le hsize) hsync ⟨j.now, true, true⟩ h.time hrx rfl
    refine .of_step (a := .poll ⟨j.now, true, true⟩) (Int.le_refl _) ⟨rfl, rfl⟩ ?_
    rcases Nat.lt_or_ge f.length (b * BLOCK + BLOCK) with hshort | hfull
    · exact .of_finished (hlast hshort)
    · obtain ⟨j', hstep, h', hack⟩ := hmore hfull
      rw [hstep]
      refine hnext j' h' ⟨_, hack rfl, ?_⟩
      rw [if_neg (Nat.succ_ne_zero b)]
      exact isAckOf_dataAck h.block_small
  -- by induction on what waits in the socket: a block of another number is dropped
  generalize hn : j.load.socket.rx.length = n
  induction n generalizing j with
  | zero =>
    have hrx : j.load.socket.rx = [] := List.length_eq_zero_iff.mp hn
    have hserver : j.server = .sending (b + 1) := h.server
    refine .of_step (a := .retransmit) trivial trivial ?_
    have hsent : j.step f ep .retransmit =
        { j with down := j.down ++ [(ep, dataOf f (b + 1))] } := by
      simp only [Joint.step, hserver]
    rw [hsent]
    have hlast : (j.down ++ [(ep, dataOf f (b + 1))])[j.down.length]? = some (ep, dataOf f (b + 1)) :=
      List.getElem?_concat_length
    have h' := (h.resend (Nat.succ_pos b)).arrive hlast
    refine .of_step (a := .deliver j.down.length) trivial trivial ?_
    simp only [Joint.step, hlast]
    apply hpoll h'
    change j.load.socket.rx ++ [(ep, dataOf f (b + 1))] = (ep, dataOf f (b + 1)) :: []
    rw [hrx]
    rfl
  | succ n ih =>
    obtain ⟨d, rx, hrx⟩ := List.exists_cons_of_length_eq_add_one hn
    obtain ⟨k, hk, -, rfl⟩ := h.rx d (by rw [hrx]; exact List.mem_cons_self)
    rcases eq_or_ne k (b + 1) with rfl | hne
    · exact hpoll h hrx
    · obtain ⟨j', hstep, -, hsocket, -, h'⟩ := h.drops ⟨j.now, true, true⟩ h.time hrx hk hne
      refine .of_step (a := .poll ⟨j.now, true, true⟩) (Int.le_refl _) ⟨rfl, rfl⟩ ?_
      rw [hstep]
      apply ih h'
      rw [hsocket]
      rw [hrx, List.length_cons] at hn
      exact Nat.succ.inj hn

/-- Two parties in step reach the end, by induction on the blocks still to come. -/
theorem Synced.reaches (hsize : f.length ≤ APP_LEN) (hsync : hasSync (blockOf f 1) = true)
    (h : Synced f ep j b s) (hlink : s = b → Linked ep j b) : Reaches f ep j := by
  have hblocks : b ≤ f.length / BLOCK := by
    rw [Nat.le_div_iff_mul_le (by decide)]
    exact h.progress.full
  generalize hn : f.length / BLOCK - b = n
  induction n generalizing j b s with
  | zero =>
    have hlast {j : Joint} (h : Synced f ep j b (b + 1)) : Reaches f ep j := by
      apply h.reaches_sent hsize hsync
      intro j' h' _
      have hfull := h'.progress.full
      rw [← Nat.le_div_iff_mul_le (by decide)] at hfull
      omega
    rcases h.near with rfl | rfl
    · obtain ⟨d, hd, hl⟩ := hlink rfl
      obtain ⟨i, hi⟩ := List.mem_iff_getElem?.mp hd
      exact .of_step (a := .receive i) trivial trivial (hlast (h.serve hi hl))
    · exact hlast h
  | succ n ih =>
    have hmore {j : Joint} (h : Synced f ep j b (b + 1)) : Reaches f ep j := by
      apply h.reaches_sent hsize hsync
      intro j' h' hlink'
      exact ih h' (fun _ => hlink') (by omega) (by omega)
    rcases h.near with rfl | rfl
    · obtain ⟨d, hd, hl⟩ := hlink rfl
      obtain ⟨i, hi⟩ := List.mem_iff_getElem?.mp hd
      exact .of_step (a := .receive i) trivial trivial (hmore (h.serve hi hl))
    · exact hmore h

end Continuations

section Runs

variable (f : List Byte) (ep : Endpoint) (j : Joint)

/-- The request is not sent yet. -/
structure Asking : Prop where
  progress : j.load.Progress f ep 0
  asks : j.load.loader.state = .sendRrq
  addressed : j.load.loader.server = ep.addr
  healthy : j.load.chip.Healthy
  golden : j.load.chip.goldenPresent = true
  server : j.server = .waiting
  rx : j.load.socket.rx = []
  up : j.up = []
  down : j.down = []

variable {f ep j}

lemma Asking.idle (h : Asking f ep j) (around : Around) :
    Idle j.load.loader j.load.chip j.load.socket
      (j.load.loader.poll j.load.socket j.load.chip around) := by
  apply poll_idle
  rw [awaited, h.rx]

lemma Asking.stored (h : Asking f ep j) (around : Around) :
    (j.load.step (.poll around)).stored = j.load.stored := by
  simp only [Load.step, Load.taken, awaited, h.rx, List.append_nil, ite_self]

/-- The poll that sends the request. -/
theorem Asking.request (h : Asking f ep j) (around : Around)
    (hsend : around.canSend = true ∧ around.takes = true) :
    Synced f ep (j.step f ep (.poll around)) 0 0 ∧ Linked ep (j.step f ep (.poll around)) 0 := by
  have hpoll := poll_request j.load.socket j.load.chip around h.asks
  rw [if_pos hsend] at hpoll
  have hidle := h.idle around
  have hstored := h.stored around
  have hup : (j.step f ep (.poll around)).up = [(requestTo ep, j.load.loader.rrq)] := by
    simp only [step, hpoll, h.up, List.nil_append, requestTo, h.addressed]
  have hrequest : IsRequest ep (requestTo ep, j.load.loader.rrq) := ⟨rfl, rfl⟩
  refine ⟨?_, ⟨_, by rw [hup]; exact List.mem_singleton_self _, hrequest⟩⟩
  constructor
  case progress => exact h.progress.idle hidle hstored
  case waits => simp only [step, Load.step, hpoll]
  case time =>
    simp only [step, Load.step, hpoll]
    exact Int.le_add_of_nonneg_right (by decide)
  case healthy => simpa only [step, Load.step, hpoll] using h.healthy
  case golden => simpa only [step, Load.step, hpoll] using h.golden
  case near => exact Or.inl rfl
  case server => exact h.server
  case rx =>
    intro d hd
    have hd := hidle.rx d hd
    rw [h.rx] at hd
    cases hd
  case down =>
    intro d hd
    have hd : d ∈ j.down := hd
    rw [h.down] at hd
    cases hd
  case up =>
    intro d hd
    rw [hup] at hd
    rw [List.mem_singleton.mp hd]
    exact Or.inl hrequest

theorem Asking.reaches (hsize : f.length ≤ APP_LEN) (hsync : hasSync (blockOf f 1) = true)
    (h : Asking f ep j) : Reaches f ep j := by
  obtain ⟨h', hlink⟩ := h.request ⟨j.now, true, true⟩ ⟨rfl, rfl⟩
  refine .of_step (a := .poll ⟨j.now, true, true⟩) (Int.le_refl _) ⟨rfl, rfl⟩ ?_
  exact h'.reaches hsize hsync fun _ => hlink

/-- A poll whose request is not taken asks again later. -/
theorem Asking.asks_again (h : Asking f ep j) {around : Around}
    (hsend : ¬ (around.canSend = true ∧ around.takes = true)) :
    Asking f ep (j.step f ep (.poll around)) := by
  have hpoll := poll_request j.load.socket j.load.chip around h.asks
  rw [if_neg hsend] at hpoll
  have hidle := h.idle around
  have hstored := h.stored around
  have hrx := hidle.rx
  constructor
  case progress => exact h.progress.idle hidle hstored
  case asks => simpa only [step, Load.step, hpoll] using h.asks
  case addressed => simpa only [step, Load.step, hpoll] using h.addressed
  case healthy => simpa only [step, Load.step, hpoll] using h.healthy
  case golden => simpa only [step, Load.step, hpoll] using h.golden
  case server => exact h.server
  case rx =>
    rw [h.rx] at hrx
    apply List.eq_nil_iff_forall_not_mem.mpr
    intro d hd
    exact List.not_mem_nil (hrx d hd)
  case up => simp only [step, hpoll, h.up, List.append_nil]
  case down => exact h.down

/-- A loader that is over stays so, and so does a server that gave up. -/
theorem step_over (h : j.load.loader.state = .failed ∨ j.load.loader.state = .finished)
    (a : Action) : (j.step f ep a).load.loader.state = j.load.loader.state := by
  cases a with
  | poll around =>
    change (j.load.loader.poll j.load.socket j.load.chip around).loader.state = _
    rw [BitstreamLoader.poll]
    rcases h with h | h <;> rw [h] <;> exact h
  | deliver i =>
    rw [step]
    split <;> rfl
  | receive i =>
    rw [step]
    split <;> rfl
  | retransmit =>
    rw [step]
    split <;> rfl
  | loseUp i => rfl
  | loseDown i => rfl
  | giveUp => rfl

theorem step_gaveUp (h : j.server = .failed) (a : Action) : (j.step f ep a).server = .failed := by
  cases a with
  | poll around => exact h
  | deliver i =>
    rw [step]
    split <;> exact h
  | receive i =>
    rw [step]
    split
    · exact h
    · next d hd =>
      rw [h]
      rfl
  | retransmit =>
    rw [step, h]
    exact h
  | loseUp i => exact h
  | loseDown i => exact h
  | giveUp => rfl

/-- The load is over, or the two parties can still bring it to its end. -/
def Alive (f : List Byte) (ep : Endpoint) (j : Joint) : Prop :=
  (j.load.loader.state = .failed ∨ j.load.loader.state = .finished) ∨ j.server = .failed ∨
    Asking f ep j ∨ ∃ b s, Synced f ep j b s ∧ (s = b → Linked ep j b)

theorem Asking.step (h : Asking f ep j) (a : Action) : Alive f ep (j.step f ep a) := by
  cases a with
  | poll around =>
    by_cases hsend : around.canSend = true ∧ around.takes = true
    · obtain ⟨h', hlink⟩ := h.request around hsend
      exact .inr (.inr (.inr ⟨0, 0, h', fun _ => hlink⟩))
    · exact .inr (.inr (.inl (h.asks_again hsend)))
  | deliver i =>
    have hsame : j.step f ep (.deliver i) = j := by
      rw [Joint.step, h.down]
      rfl
    rw [hsame]
    exact .inr (.inr (.inl h))
  | receive i =>
    have hsame : j.step f ep (.receive i) = j := by
      rw [Joint.step, h.up]
      rfl
    rw [hsame]
    exact .inr (.inr (.inl h))
  | retransmit =>
    have hsame : j.step f ep .retransmit = j := by
      simp only [Joint.step, h.server]
    rw [hsame]
    exact .inr (.inr (.inl h))
  | loseUp i =>
    refine .inr (.inr (.inl { h with up := ?_ }))
    change j.up.eraseIdx i = []
    rw [h.up]
    rfl
  | loseDown i =>
    refine .inr (.inr (.inl { h with down := ?_ }))
    change j.down.eraseIdx i = []
    rw [h.down]
    rfl
  | giveUp => exact .inr (.inl rfl)

/-- While no request and no acknowledgement but the last is lost, the two stay in step. -/
theorem alive_step (hsize : f.length ≤ APP_LEN) (hsync : hasSync (blockOf f 1) = true)
    {a : Action} (h : Alive f ep j) (hanswers : Answers f ep j a) : Alive f ep (j.step f ep a) := by
  rcases h with hover | hgave | hasking | ⟨b, s, hsynced, hlink⟩
  · left
    rw [step_over hover]
    exact hover
  · exact .inr (.inl (step_gaveUp hgave a))
  · exact hasking.step a
  · cases hsynced.step hsize hsync a with
    | failed h => exact .inl (.inl h)
    | gaveUp _ h => exact .inr (.inl h)
    | finished _ h => exact .inl (.inr h)
    | same h hlost _ =>
      exact .inr (.inr (.inr ⟨b, s, h, fun hs => hlost hanswers (hlink hs) hs⟩))
    | served _ _ h =>
      exact .inr (.inr (.inr ⟨b, b + 1, h, fun hs => absurd hs (Nat.succ_ne_self b)⟩))
    | stored _ h hlink' => exact .inr (.inr (.inr ⟨b + 1, b + 1, h, fun _ => hlink' hanswers⟩))

theorem Alive.reaches (hsize : f.length ≤ APP_LEN) (hsync : hasSync (blockOf f 1) = true)
    (h : Alive f ep j) (hloader : j.load.loader.state ≠ .failed) (hserver : j.server ≠ .failed) :
    Reaches f ep j := by
  rcases h with (hfailed | hfinished) | hgave | hasking | ⟨b, s, hsynced, hlink⟩
  · exact absurd hfailed hloader
  · exact .of_finished hfinished
  · exact absurd hgave hserver
  · exact hasking.reaches hsize hsync
  · exact hsynced.reaches hsize hsync hlink

/-- A loader just started, a server that waits, and nothing in flight. -/
def begin (l : BitstreamLoader) (c : Chip) (now : ℤ) : Joint :=
  { load := Load.begin l {} c, now := now }

theorem begin_asking {l l' : BitstreamLoader} {c : Chip} {filename : List Byte} {now : ℤ}
    (hhealthy : c.Healthy) (hstart : l.start c ep.addr filename = (.ok (), l')) :
    Asking f ep (begin l' c now) := by
  obtain ⟨hprogress, hasks⟩ := begin_progress {} hstart f ep
  rw [start] at hstart
  cases hw : c.regionIsWritable APP_BASE APP_LEN with
  | error e =>
    rw [hw] at hstart
    cases hstart
  | ok u =>
    rw [hw] at hstart
    dsimp only at hstart
    split at hstart
    · cases hstart
    cases hstart
    have hgolden : c.goldenPresent = true := by
      obtain ⟨-, -, -, happ | hscratch⟩ := regionIsWritable_ok hw
      · exact happ.2
      · simp only [SCRATCH_BASE, APP_BASE] at hscratch
        omega
    exact ⟨hprogress, rfl, rfl, hhealthy, hgolden, rfl, rfl, rfl, rfl⟩

end Runs

/-- From every state that a run reaches in which neither side has failed, a continuation that loses
nothing finishes the load, as long as the run lost no request and no acknowledgement but that of
the last block. -/
theorem reaches_finished {f : List Byte} {ep : Endpoint} {l l' : BitstreamLoader} {c : Chip}
    {filename : List Byte} {now : ℤ} {actions : List Action} (hsize : f.length ≤ APP_LEN)
    (hsync : hasSync (blockOf f 1) = true) (hhealthy : c.Healthy)
    (hstart : l.start c ep.addr filename = (.ok (), l'))
    (hanswers : Always (fun j a j' => j' = step f ep j a) (Answers f ep) (begin l' c now) actions)
    (hloader : (actions.foldl (step f ep) (begin l' c now)).load.loader.state ≠ .failed)
    (hserver : (actions.foldl (step f ep) (begin l' c now)).server ≠ .failed) :
    Reaches f ep (actions.foldl (step f ep) (begin l' c now)) := by
  have halive := (run_foldl (step f ep) (begin l' c now) actions).invariant (I := Alive f ep)
    (C := Answers f ep) (by
      intro j a j' hj ha hstep
      rw [hstep]
      exact alive_step hsize hsync hj ha)
    (.inr (.inr (.inl (begin_asking hhealthy hstart)))) hanswers
  exact halive.reaches hsize hsync hloader hserver

/-- A request and an answer that is already on its way. -/
theorem request_reaches :
    Reaches shortFile ⟨0, 1⟩ ((begin fetch goldenChip 0).step shortFile ⟨0, 1⟩ (.poll ⟨0, true, true⟩)) :=
  @reaches_finished shortFile ⟨0, 1⟩ fetch fetch goldenChip [] 0 [.poll ⟨0, true, true⟩] (by decide)
    (by decide) (fun _ => rfl) fetch_started
    ⟨fun _ _ h => absurd h (Option.some_ne_none _).symm, fun _ _ => trivial⟩ (by decide) (by decide)

section Wedged

variable {f : List Byte} {ep : Endpoint} {j : Joint}

/-- The loader waits for a block that nothing asks the server for. -/
def Wedged (f : List Byte) (ep : Endpoint) (j : Joint) : Prop :=
  j.load.loader.state = .failed ∨ ∃ b, Synced f ep j b b ∧ ¬ Linked ep j b

theorem wedged_step (hsize : f.length ≤ APP_LEN) (hsync : hasSync (blockOf f 1) = true)
    {a : Action} (h : Wedged f ep j) (hl : a.Lossless) : Wedged f ep (j.step f ep a) := by
  rcases h with hfailed | ⟨b, hsynced, hlink⟩
  · left
    rw [step_over (Or.inl hfailed)]
    exact hfailed
  · cases hsynced.step hsize hsync a with
    | failed h => exact Or.inl h
    | gaveUp ha _ =>
      rw [ha] at hl
      cases hl
    | finished hs _ => exact absurd hs.symm (Nat.succ_ne_self b)
    | same h _ hnew => exact Or.inr ⟨b, h, fun hlink' => hlink (hnew hlink')⟩
    | served _ hlinked _ => exact absurd hlinked hlink
    | stored hs _ _ => exact absurd hs.symm (Nat.succ_ne_self b)

/-- A lost acknowledgement wedges the load: no continuation that loses nothing finishes it. -/
theorem Wedged.not_reaches (hsize : f.length ≤ APP_LEN) (hsync : hasSync (blockOf f 1) = true)
    (h : Wedged f ep j) : ¬ Reaches f ep j := by
  rintro ⟨actions, halways, hdone⟩
  have hwedged := (run_foldl (step f ep) j actions).invariant (I := Wedged f ep)
    (C := fun j a => j.Timely a ∧ a.Lossless) (by
      intro j a j' hj ha hstep
      rw [hstep]
      exact wedged_step hsize hsync hj ha.2)
    h halways
  rcases hwedged with hfailed | ⟨b, hsynced, -⟩
  · rw [hdone] at hfailed
    cases hfailed
  · have hwaits := hsynced.waits
    rw [hdone] at hwaits
    cases hwaits

/-- The acknowledgement of the first of two blocks is lost. -/
def lostAck : List Action :=
  [.poll ⟨0, true, true⟩, .receive 0, .deliver 0, .poll ⟨0, true, true⟩, .loseUp 0]

theorem lostAck_wedged :
    Wedged ownFile ⟨0, 1⟩ (lostAck.foldl (step ownFile ⟨0, 1⟩) (begin fetch goldenChip 0)) := by
  let ep : Endpoint := ⟨0, 1⟩
  have hlen : ownFile.length = 1000 := by decide +kernel
  have hsize : ownFile.length ≤ APP_LEN := by
    rw [hlen]
    decide
  have hsync : hasSync (blockOf ownFile 1) = true := by decide +kernel
  obtain ⟨j₁, hj₁⟩ : ∃ j₁, j₁ = (begin fetch goldenChip 0).step ownFile ep (.poll ⟨0, true, true⟩) :=
    ⟨_, rfl⟩
  have h₁ : Synced ownFile ep j₁ 0 0 := by
    rw [hj₁]
    exact ((begin_asking (fun _ => rfl) fetch_started).request _ ⟨rfl, rfl⟩).1
  have hup₁ : j₁.up[0]? = some (requestTo ep, fetch.rrq) := by
    rw [hj₁]
    rfl
  obtain ⟨j₂, hj₂⟩ : ∃ j₂, j₂ = j₁.step ownFile ep (.receive 0) := ⟨_, rfl⟩
  have h₂ : Synced ownFile ep j₂ 0 1 := by
    rw [hj₂]
    exact h₁.serve hup₁ ⟨rfl, rfl⟩
  have hdown₂ : j₂.down[0]? = some (ep, dataOf ownFile 1) := by
    rw [hj₂, hj₁]
    rfl
  obtain ⟨j₃, hj₃⟩ : ∃ j₃, j₃ = j₂.step ownFile ep (.deliver 0) := ⟨_, rfl⟩
  have h₃ : Synced ownFile ep j₃ 0 1 := by
    rw [hj₃, step, hdown₂]
    exact h₂.arrive hdown₂
  have hrx₃ : j₃.load.socket.rx = [(ep, dataOf ownFile 1)] := by
    rw [hj₃, hj₂, hj₁]
    rfl
  obtain ⟨hmore, -⟩ := h₃.take (min_le_of_left_le hsize) hsync ⟨0, true, true⟩
    (by rw [hj₃, hj₂, hj₁]; decide) hrx₃ rfl
  obtain ⟨j₄, hj₄, h₄, -⟩ := hmore (by rw [hlen]; decide)
  have hup₄ : j₄.up.eraseIdx 0 = [] := by
    rw [← hj₄, hj₃, hj₂, hj₁]
    decide +kernel
  have hrun : lostAck.foldl (step ownFile ep) (begin fetch goldenChip 0) =
      j₄.step ownFile ep (.loseUp 0) := by
    rw [← hj₄, hj₃, hj₂, hj₁]
    rfl
  rw [hrun]
  refine Or.inr ⟨1, { h₄ with up := fun d hd => h₄.up d (mem_of_mem_eraseIdx hd) }, ?_⟩
  rintro ⟨d, hd, -⟩
  have hd : d ∈ j₄.up.eraseIdx 0 := hd
  rw [hup₄] at hd
  cases hd

/-- One lost acknowledgement is enough. -/
theorem lostAck_wedges : ¬ ∀ (f : List Byte) (ep : Endpoint) (l l' : BitstreamLoader) (c : Chip)
    (filename : List Byte) (now : ℤ) (actions : List Action), f.length ≤ APP_LEN →
    hasSync (blockOf f 1) = true → c.Healthy → l.start c ep.addr filename = (.ok (), l') →
    (actions.foldl (step f ep) (begin l' c now)).load.loader.state ≠ .failed →
    (actions.foldl (step f ep) (begin l' c now)).server ≠ .failed →
    Reaches f ep (actions.foldl (step f ep) (begin l' c now)) := by
  intro hclaim
  apply lostAck_wedged.not_reaches (by decide +kernel) (by decide +kernel)
  exact hclaim ownFile ⟨0, 1⟩ fetch fetch goldenChip [] 0 lostAck (by decide +kernel)
    (by decide +kernel) (fun _ => rfl) fetch_started (by decide +kernel) (by decide +kernel)

end Wedged

end Joint

end Ledwall.Flash
