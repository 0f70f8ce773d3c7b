import Ledwall.Flash.LossyTransfer
import Ledwall.Library.Fairness

/-! Loads whose datagrams all arrive, each in time: how every one of them ends. -/

namespace Ledwall.Flash

open Ledwall.Wire Ledwall.Library.Effects Ledwall.Library.Fairness BitstreamLoader

section Issued

variable {c c' : Chip} {addr len : ℕ} {f : (ℕ → Byte) → ℕ → Byte} {l : BitstreamLoader}

/-- Commands are only added. -/
def Later (c c' : Chip) : Prop := c.issued ≤ c'.issued

lemma Later.refl (c : Chip) : Later c c := Nat.le_refl _

lemma later_trans (c₁ c₂ c₃ : Chip) (h : Later c₁ c₂) (h' : Later c₂ c₃) : Later c₁ c₃ :=
  Nat.le_trans h h'

lemma command_issued (f : (ℕ → Byte) → ℕ → Byte) (c : Chip) :
    (final (command f c)).issued = c.issued + 1 := by
  rw [command]
  dsimp only
  split
  · rfl
  · split <;> split <;> rfl

lemma checkedCommand_later : Moves Later (checkedCommand addr len f) := by
  intro c
  rw [checkedCommand]
  split
  · exact Later.refl c
  · exact (Nat.le_succ _).trans (command_issued f c).ge

lemma eraseSector_later (addr : ℕ) : Moves Later (eraseSector addr) :=
  eraseSector_keeps Later.refl later_trans checkedCommand_later

lemma programPage_later (addr : ℕ) (data : List Byte) : Moves Later (programPage addr data) :=
  programPage_keeps Later.refl later_trans checkedCommand_later

lemma writeSector_later (l : BitstreamLoader) : Moves Later l.writeSector :=
  l.writeSector_keeps Later.refl later_trans eraseSector_later programPage_later

lemma eraseSector_issues (h : eraseSector addr c = .ok () c') : c.issued < c'.issued := by
  rw [eraseSector] at h
  obtain ⟨⟨⟩, t, ht, hrest⟩ := bind_ok h
  have hissued : c.issued < t.issued := by
    rw [checkedCommand] at ht
    split at ht
    · cases ht
    · have := command_issued (Chip.sectorErase addr) c
      rw [ht] at this
      simp only [final] at this
      omega
  obtain ⟨t', u, hget, hblank⟩ := bind_ok hrest
  cases hget
  split at hblank
  · cases hblank
  · cases hblank
    exact hissued

lemma writeSector_issues (h : l.writeSector c = .ok () c') : c.issued < c'.issued := by
  rw [writeSector] at h
  obtain ⟨⟨⟩, c₁, herase, hrest⟩ := bind_ok h
  have hissues := eraseSector_issues herase
  have hlater : Later c₁ c' := by
    have hmoves : Moves Later (do
        (List.range (SECTOR / PAGE)).forM fun k =>
          programPage (wrap32 (l.sectorAddr + k * PAGE)) ((l.padded.drop (k * PAGE)).take PAGE)
        let c ← get
        if !(List.range l.stage.length).all fun i =>
            c.readByte (wrap32 (l.sectorAddr + i)) == l.stage.getD i 0 then
          throw FlashError.mismatch : Spi Unit) := by
      apply Moves.bind later_trans
      · apply Moves.forM Later.refl later_trans
        intro k _
        exact programPage_later _ _
      · intro _
        apply Moves.bind later_trans (Moves.get Later.refl)
        intro _
        split
        · exact Moves.throw Later.refl _
        · exact Moves.pure Later.refl _
    have hfinal := hmoves c₁
    rw [hrest] at hfinal
    exact hfinal
  exact Nat.lt_of_lt_of_le hissues hlater

lemma flushIfDue_issued {last : Bool} {r : Except FlashError BitstreamLoader}
    (h : l.flushIfDue last c = (r, c')) :
    c.issued ≤ c'.issued ∧ ∀ l', r = .ok l' → c.issued + l'.sectors ≤ c'.issued + l.sectors := by
  have hlater := writeSector_later l c
  rw [flushIfDue] at h
  split at h
  · rw [flush] at h
    split at h
    · cases h
      refine ⟨Nat.le_refl _, ?_⟩
      rintro _ ⟨⟩
      exact Nat.le_refl _
    · split at h
      · next hwrite =>
        cases h
        have hissues := writeSector_issues hwrite
        refine ⟨hissues.le, ?_⟩
        rintro _ ⟨⟩
        dsimp only
        omega
      · next hwrite =>
        cases h
        rw [hwrite] at hlater
        refine ⟨hlater, ?_⟩
        rintro _ ⟨⟩
  · cases h
    refine ⟨Nat.le_refl _, ?_⟩
    rintro _ ⟨⟩
    exact Nat.le_refl _

lemma acceptBlock_issued (l : BitstreamLoader) (socket : UdpSocket) (c : Chip) (around : Around)
    (ep : Endpoint) (payload : List Byte) :
    c.issued + (l.acceptBlock socket c around ep payload).loader.sectors ≤
      (l.acceptBlock socket c around ep payload).chip.issued + l.sectors := by
  have hidentify : (l.identify ep).sectors = l.sectors := by
    rw [identify]
    split <;> rfl
  rw [acceptBlock]
  split
  · exact (congrArg (c.issued + ·) hidentify).le
  rw [storeBlock]
  split
  · exact (congrArg (c.issued + ·) hidentify).le
  split
  · next e c' hflush =>
    have hlater := (flushIfDue_issued hflush).1
    change c.issued + (l.identify ep).sectors ≤ c'.issued + l.sectors
    omega
  · next l' c' hflush =>
    have hissued := (flushIfDue_issued hflush).2 l' rfl
    have hsame : ((l.identify ep).stageBlock payload).sectors = l.sectors := hidentify
    rw [hsame] at hissued
    rw [acknowledge]
    split <;> exact hissued

lemma poll_issued (l : BitstreamLoader) (socket : UdpSocket) (c : Chip) (around : Around) :
    c.issued + (l.poll socket c around).loader.sectors ≤
      (l.poll socket c around).chip.issued + l.sectors := by
  cases hawaited : l.awaited socket around.timeMs with
  | none =>
    obtain ⟨⟨st, dl, hl, -⟩, hchip, -, -⟩ := poll_idle (c := c) hawaited
    rw [hl, hchip]
  | some taken =>
    obtain ⟨ep, payload⟩ := taken
    rw [poll_awaited hawaited]
    exact acceptBlock_issued l _ c around ep payload

end Issued

/-- The application region holds the file, and blank bytes to the end of its last sector. -/
def Installed (f : List Byte) (c : Chip) : Prop :=
  ∀ a, a < (f.length + SECTOR - 1) / SECTOR * SECTOR → c.readByte (APP_BASE + a) = f.getD a 0xFF

lemma in_last_sector {n s a : ℕ} (hn : n ≤ s * SECTOR)
    (ha : a < (n + SECTOR - 1) / SECTOR * SECTOR) : a < s * SECTOR := by
  have hsectors : (n + SECTOR - 1) / SECTOR ≤ s := by
    apply Nat.le_of_lt_succ
    rw [Nat.div_lt_iff_lt_mul (by decide)]
    simp only [SECTOR] at hn ⊢
    omega
  exact Nat.lt_of_lt_of_le ha (Nat.mul_le_mul_right SECTOR hsectors)

namespace Load

variable {w : Load} {f : List Byte} {ep : Endpoint} {b : ℕ} {around : Around} {socket : UdpSocket}

lemma Progress.installed (h : w.Progress f ep b) (hw : w.loader.state = .waitData)
    (hb : b * BLOCK ≤ f.length)
    (hdone : (w.loader.acceptBlock socket w.chip around ep (blockOf f (b + 1))).loader.state =
      .finished) :
    Installed f (w.loader.acceptBlock socket w.chip around ep (blockOf f (b + 1))).chip := by
  have hne : (w.loader.acceptBlock socket w.chip around ep (blockOf f (b + 1))).loader.state ≠
      .failed := by
    rw [hdone]
    exact LoaderState.noConfusion
  obtain ⟨-, hfits, l', c', hflush, hack⟩ := acceptBlock_ok hne
  obtain ⟨l, n, hl, hn, hnf, hroom, hsectors, hbase, hstate, -, -, hwritten, hstage⟩ := staged h hb
  rw [hl] at hfits hflush
  have hlen := blockOf_length f b
  have hbehind := h.behind
  have hlast (hlt : decide ((blockOf f (b + 1)).length < BLOCK) = true) : n = f.length := by
    have := of_decide_eq_true hlt
    omega
  obtain ⟨⟨hstate', -⟩, hflash, hfull, -⟩ :=
    flushIfDue_image (hbase.trans h.base) (by rw [hsectors]; omega) hroom hnf (by omega) hstage hlast
      (by rw [hsectors]; exact h.flash) hflush
  rw [hack] at hdone ⊢
  cases hcase : decide ((blockOf f (b + 1)).length < BLOCK) with
  | false =>
    rw [hcase] at hdone
    have hwaits : l'.state = .finished := hdone
    rw [hstate', hstate, hw] at hwaits
    cases hwaits
  | true =>
    intro a ha
    have hcovers := hfull hcase
    rw [hlast hcase] at hcovers
    change c'.mem (APP_BASE + a) = _
    rw [APP_BASE, Nat.zero_add]
    exact hflash a (in_last_sector hcovers ha)

lemma Progress.overrun (h : w.Progress f ep b) (hb : b * BLOCK ≤ f.length)
    (hover : APP_LEN < min f.length (b * BLOCK + BLOCK)) :
    (w.loader.acceptBlock socket w.chip around ep (blockOf f (b + 1))).loader.state = .failed ∧
      (w.loader.acceptBlock socket w.chip around ep (blockOf f (b + 1))).chip = w.chip ∧
      0 < w.loader.sectors := by
  have hfits := h.fits
  have hroom := h.room
  have hsectors : 0 < w.loader.sectors := by
    simp only [BLOCK, SECTOR, APP_LEN] at hfits hroom hover
    omega
  obtain ⟨l, n, hl, hn, -, -, -, -, -, -, -, hw, -⟩ := staged h hb
  rw [acceptBlock]
  split
  · exact ⟨rfl, rfl, hsectors⟩
  · rw [hl, storeBlock, if_pos]
    · exact ⟨rfl, rfl, hsectors⟩
    · rw [hw, hn, blockOf_length]
      omega

end Load

namespace Joint

section Phases

variable (f : List Byte) (ep : Endpoint) (c₀ : Chip) (b k : ℕ) (j : Joint)

/-- A loader that waits is polled before its deadline. -/
def InTime : Action → Prop
  | .poll around => j.now ≤ around.timeMs ∧
      (j.load.loader.state = .waitData → around.timeMs ≤ j.load.loader.deadlineMs)
  | _ => True

/-- Every sector counted since the chip was `c₀` cost a command. -/
def Counted : Prop := c₀.issued + j.load.loader.sectors ≤ j.load.chip.issued

structure Sound (a : Action) : Prop where
  lossless : a.Lossless
  inTime : j.InTime a
  counted : Counted c₀ j

/-- How a load of `f` ends when nothing is lost. -/
def Ended : Prop :=
  if f.length ≤ APP_LEN then j.load.loader.state = .finished ∧ Installed f j.load.chip
  else j.load.loader.state = .failed ∧ c₀.issued < j.load.chip.issued

/-- The datagram brings the server to block `b + 1`. -/
def Calls (d : Datagram) : Prop := if b = 0 then IsRequest ep d else IsAckOf ep b d

/-- The loader waits for block `b + 1`, and what calls for it is the `k`-th on its way. -/
def Called : Prop := Synced f ep j b b ∧ ∃ d, j.up[k]? = some d ∧ Calls ep b d

/-- The block that is waited for is the `k`-th on its way. -/
def Sent : Prop := Synced f ep j b (b + 1) ∧ j.down[k]? = some (ep, dataOf f (b + 1))

/-- The block that is waited for is the `k`-th in the socket. -/
def Held : Prop := Synced f ep j b (b + 1) ∧ j.load.socket.rx[k]? = some (ep, dataOf f (b + 1))

/-- One block further, or at the end. -/
def Further : Prop := Ended f c₀ j ∨ ∃ k, Called f ep (b + 1) k j

end Phases

section Steps

variable {f : List Byte} {ep : Endpoint} {c₀ : Chip} {b s k : ℕ} {j : Joint} {a : Action}

lemma getElem?_eraseIdx_keeps {α : Type} {l : List α} {i k : ℕ} {x : α} (hx : l[k]? = some x)
    (hne : i ≠ k) :
    ∃ k', k' ≤ k ∧ (i = 0 → k' < k) ∧ (l.eraseIdx i)[k']? = some x := by
  rcases Nat.lt_or_ge i k with hlt | hge
  · refine ⟨k - 1, Nat.sub_le k 1, fun _ => by omega, ?_⟩
    rw [List.getElem?_eraseIdx_of_ge (by omega), Nat.sub_add_cancel (by omega)]
    exact hx
  · refine ⟨k, Nat.le_refl k, fun _ => by omega, ?_⟩
    rw [List.getElem?_eraseIdx_of_lt (by omega)]
    exact hx

lemma Synced.unanswered (h : Synced f ep j b s) {d : Datagram} {i : ℕ} (hd : j.up[i]? = some d)
    (hnot : s = b → ¬ Calls ep b d) :
    j.step f ep (.receive i) = { j with up := j.up.eraseIdx i } := by
  have hup := h.up d (List.mem_of_getElem? hd)
  have hsmall := h.block_small
  have hreceive : j.server.receive f ep d = (j.server, none) := by
    rw [h.server]
    rcases Nat.eq_zero_or_pos s with rfl | hpos
    · have hb : b = 0 := by
        rcases h.near with hb | hb <;> omega
      subst hb
      rcases hup with hreq | ⟨k, hpos, hk, -⟩
      · exact absurd hreq (hnot rfl)
      · omega
    · rw [if_neg (by omega), Server.receive, if_neg]
      intro hack
      rcases hup with hreq | ⟨k, -, hk, rfl⟩
      · exact not_ack_of_request hreq hack
      · have hks : k = s := isAckOf_inj (by omega) (by rcases h.near with hs | hs <;> omega)
          (isAckOf_dataAck (by omega)) hack
        have hs : s = b := by
          rcases h.near with hs | hs <;> omega
        apply hnot hs
        rw [Calls, if_neg (by omega), ← hs]
        exact hack
  simp only [Joint.step, hd, hreceive, reply, List.append_nil]

lemma Synced.erase_up (h : Synced f ep j b s) (i : ℕ) :
    Synced f ep { j with up := j.up.eraseIdx i } b s :=
  { h with up := fun d hd => h.up d (mem_of_mem_eraseIdx hd) }

lemma Synced.repeats (h : Synced f ep j b s) :
    ∃ ds, j.step f ep .retransmit = { j with down := j.down ++ ds } ∧
      Synced f ep { j with down := j.down ++ ds } b s := by
  rw [Joint.step]
  split
  · next k hserver =>
    rw [h.server] at hserver
    split at hserver
    · cases hserver
    · next hs =>
      cases hserver
      exact ⟨_, rfl, h.resend (Nat.pos_of_ne_zero hs)⟩
  · refine ⟨[], ?_, ?_⟩ <;> rw [List.append_nil]
    exact h

lemma Synced.passes (h : Synced f ep j b s) {around : Around}
    (htime : around.timeMs ≤ j.load.loader.deadlineMs)
    (hnot : j.load.socket.rx[0]? ≠ some (ep, dataOf f (b + 1))) :
    ∃ j', j.step f ep (.poll around) = j' ∧ j'.up = j.up ∧ j'.down = j.down ∧
      j'.load.socket.rx = j.load.socket.rx.tail ∧ Synced f ep j' b s := by
  cases hrx : j.load.socket.rx with
  | nil =>
    have hawaited : j.load.loader.awaited j.load.socket around.timeMs = none := by
      rw [awaited, hrx]
    obtain ⟨j', hstep, hup, hsocket, -, h'⟩ := h.skip htime hawaited (poll_empty h.waits htime hrx)
      fun d hd => hd
    refine ⟨j', hstep, hup, ?_, ?_, h'⟩
    · rw [← hstep]
      rfl
    · rw [hsocket, hrx]
      rfl
  | cons d rx =>
    obtain ⟨m, hm, -, rfl⟩ := h.rx d (by rw [hrx]; exact List.mem_cons_self)
    have hne : m ≠ b + 1 := by
      rintro rfl
      apply hnot
      rw [hrx]
      rfl
    obtain ⟨j', hstep, hup, hsocket, -, h'⟩ := h.drops around htime hrx hm hne
    refine ⟨j', hstep, hup, ?_, ?_, h'⟩
    · rw [← hstep]
      rfl
    · rw [hsocket]
      rfl

lemma Synced.takes (hsync : hasSync (blockOf f 1) = true) (h : Synced f ep j b (b + 1))
    {around : Around} (hsound : Sound c₀ j (.poll around))
    (hhead : j.load.socket.rx[0]? = some (ep, dataOf f (b + 1))) :
    Further f ep c₀ b (j.step f ep (.poll around)) := by
  have htime := hsound.inTime.2 h.waits
  obtain ⟨rx, hrx⟩ : ∃ rx, j.load.socket.rx = (ep, dataOf f (b + 1)) :: rx := by
    cases hq : j.load.socket.rx with
    | nil =>
      rw [hq] at hhead
      cases hhead
    | cons d rx =>
      rw [hq] at hhead
      cases hhead
      exact ⟨rx, rfl⟩
  have hpoll := poll_awaited (c := j.load.chip)
    (awaited_data h.waits htime hrx h.block_small h.progress.block)
  rcases Nat.lt_or_ge APP_LEN (min f.length (b * BLOCK + BLOCK)) with hover | hfits
  · have hsize : ¬ f.length ≤ APP_LEN := by omega
    obtain ⟨hfailed, hchip, hsectors⟩ := h.progress.overrun h.progress.full hover
    rw [← hpoll] at hfailed hchip
    have hcounted : c₀.issued + j.load.loader.sectors ≤ j.load.chip.issued := hsound.counted
    left
    rw [Ended, if_neg hsize]
    refine ⟨hfailed, ?_⟩
    change c₀.issued < (j.load.loader.poll j.load.socket j.load.chip around).chip.issued
    rw [hchip]
    omega
  · obtain ⟨hmore, hlast⟩ := h.take hfits hsync around htime hrx rfl
    rcases Nat.lt_or_ge f.length (b * BLOCK + BLOCK) with hshort | hfull
    · have hfinished := hlast hshort
      left
      rw [Ended, if_pos (by omega)]
      refine ⟨hfinished, ?_⟩
      have hdone : (j.load.loader.poll j.load.socket j.load.chip around).loader.state = .finished :=
        hfinished
      rw [hpoll] at hdone
      have hinstalled := h.progress.installed h.waits h.progress.full hdone
      rw [← hpoll] at hinstalled
      exact hinstalled
    · obtain ⟨j', hstep, h', hack⟩ := hmore hfull
      right
      rw [hstep]
      obtain ⟨k, hk⟩ := List.mem_iff_getElem?.mp (hack hsound.lossless.2)
      refine ⟨k, h', _, hk, ?_⟩
      rw [Calls, if_neg (Nat.succ_ne_zero b)]
      exact isAckOf_dataAck h.block_small

lemma called_step (h : Called f ep b k j) (hsound : Sound c₀ j a) :
    (∃ m, Sent f ep b m (j.step f ep a)) ∨
      ∃ k', k' ≤ k ∧ (a = .receive 0 → k' < k) ∧ Called f ep b k' (j.step f ep a) := by
  obtain ⟨hsynced, d, hd, hcalls⟩ := h
  cases a with
  | poll around =>
    right
    obtain ⟨j', hstep, hup, -, -, h'⟩ := hsynced.passes (hsound.inTime.2 hsynced.waits) (by
      intro hhead
      -- the block is not sent yet
      obtain ⟨m, hm, hmb, hdata⟩ := hsynced.rx _ (List.mem_of_getElem? hhead)
      have hnum := congrArg (fun d : Datagram => d.2.getD 2 0 ++ d.2.getD 3 0) hdata
      have hsmall := hsynced.block_small
      dsimp only at hnum
      rw [dataOf_number f hsmall, dataOf_number f hm.2.1] at hnum
      have := congrArg BitVec.toNat hnum
      rw [BitVec.toNat_ofNat, BitVec.toNat_ofNat, Nat.mod_eq_of_lt hsmall,
        Nat.mod_eq_of_lt hm.2.1] at this
      omega)
    rw [hstep]
    exact ⟨k, Nat.le_refl k, Action.noConfusion, h', d, by rw [hup]; exact hd, hcalls⟩
  | deliver i =>
    right
    refine ⟨k, Nat.le_refl k, Action.noConfusion, ?_⟩
    rw [Joint.step]
    split
    · exact ⟨hsynced, d, hd, hcalls⟩
    · next d' hd' => exact ⟨hsynced.arrive hd', d, hd, hcalls⟩
  | receive i =>
    cases hi : j.up[i]? with
    | none =>
      right
      have hstep : j.step f ep (.receive i) = j := by
        rw [Joint.step, hi]
      rw [hstep]
      refine ⟨k, Nat.le_refl k, ?_, hsynced, d, hd, hcalls⟩
      rintro ⟨⟩
      rw [List.getElem?_eq_none_iff] at hi
      have := (List.getElem?_eq_some_iff.mp hd).1
      omega
    | some d' =>
      by_cases hcalls' : Calls ep b d'
      · left
        refine ⟨j.down.length, hsynced.serve hi hcalls', ?_⟩
        simp only [Joint.step, hi, hsynced.answered hcalls', reply]
        exact List.getElem?_concat_length
      · right
        rw [hsynced.unanswered hi fun _ => hcalls']
        have hne : i ≠ k := by
          rintro rfl
          rw [hi] at hd
          cases hd
          exact hcalls' hcalls
        obtain ⟨k', hk', hlower, hkept⟩ := getElem?_eraseIdx_keeps hd hne
        refine ⟨k', hk', ?_, hsynced.erase_up i, d, hkept, hcalls⟩
        rintro ⟨⟩
        exact hlower rfl
  | retransmit =>
    right
    obtain ⟨ds, hstep, h'⟩ := hsynced.repeats
    rw [hstep]
    exact ⟨k, Nat.le_refl k, Action.noConfusion, h', d, hd, hcalls⟩
  | loseUp i => exact absurd hsound.lossless id
  | loseDown i => exact absurd hsound.lossless id
  | giveUp => exact absurd hsound.lossless id

lemma Synced.lets_pass (h : Synced f ep j b (b + 1)) (i : ℕ) :
    ∃ j', j.step f ep (.receive i) = j' ∧ j'.down = j.down ∧ j'.load = j.load ∧
      Synced f ep j' b (b + 1) := by
  cases hi : j.up[i]? with
  | none =>
    refine ⟨j, ?_, rfl, rfl, h⟩
    rw [Joint.step, hi]
  | some d =>
    exact ⟨_, h.unanswered hi fun hb => absurd hb (Nat.succ_ne_self b), rfl, rfl, h.erase_up i⟩

lemma sent_step (hsync : hasSync (blockOf f 1) = true) (h : Sent f ep b k j)
    (hsound : Sound c₀ j a) :
    (Further f ep c₀ b (j.step f ep a) ∨ ∃ m, Held f ep b m (j.step f ep a)) ∨
      ∃ k', k' ≤ k ∧ (a = .deliver 0 → k' < k) ∧ Sent f ep b k' (j.step f ep a) := by
  obtain ⟨hsynced, hk⟩ := h
  cases a with
  | poll around =>
    by_cases hhead : j.load.socket.rx[0]? = some (ep, dataOf f (b + 1))
    · exact .inl (.inl (hsynced.takes hsync hsound hhead))
    · obtain ⟨j', hstep, -, hdown, -, h'⟩ := hsynced.passes (hsound.inTime.2 hsynced.waits) hhead
      right
      rw [hstep]
      exact ⟨k, Nat.le_refl k, Action.noConfusion, h', by rw [hdown]; exact hk⟩
  | deliver i =>
    cases hi : j.down[i]? with
    | none =>
      right
      have hstep : j.step f ep (.deliver i) = j := by
        rw [Joint.step, hi]
      rw [hstep]
      refine ⟨k, Nat.le_refl k, ?_, hsynced, hk⟩
      rintro ⟨⟩
      rw [List.getElem?_eq_none_iff] at hi
      have := (List.getElem?_eq_some_iff.mp hk).1
      omega
    | some d =>
      have hstep : j.step f ep (.deliver i) =
          { j with load := j.load.step (.arrive d), down := j.down.eraseIdx i } := by
        simp only [Joint.step, hi]
      rw [hstep]
      rcases eq_or_ne i k with rfl | hne
      · rw [hk] at hi
        cases hi
        exact .inl (.inr ⟨_, hsynced.arrive hk, List.getElem?_concat_length⟩)
      · obtain ⟨k', hk', hlower, hkept⟩ := getElem?_eraseIdx_keeps hk hne
        right
        refine ⟨k', hk', ?_, hsynced.arrive hi, hkept⟩
        rintro ⟨⟩
        exact hlower rfl
  | receive i =>
    obtain ⟨j', hstep, hdown, -, h'⟩ := hsynced.lets_pass i
    right
    rw [hstep]
    exact ⟨k, Nat.le_refl k, Action.noConfusion, h', by rw [hdown]; exact hk⟩
  | retransmit =>
    right
    obtain ⟨ds, hstep, h'⟩ := hsynced.repeats
    rw [hstep]
    refine ⟨k, Nat.le_refl k, Action.noConfusion, h', ?_⟩
    exact (List.getElem?_append_left (List.getElem?_eq_some_iff.mp hk).1).trans hk
  | loseUp i => exact absurd hsound.lossless id
  | loseDown i => exact absurd hsound.lossless id
  | giveUp => exact absurd hsound.lossless id

lemma held_step (hsync : hasSync (blockOf f 1) = true) (h : Held f ep b k j)
    (hsound : Sound c₀ j a) :
    Further f ep c₀ b (j.step f ep a) ∨
      ∃ k', k' ≤ k ∧ ((∃ around, a = .poll around) → k' < k) ∧ Held f ep b k' (j.step f ep a) := by
  obtain ⟨hsynced, hk⟩ := h
  have hother (hne : ∀ around, a ≠ .poll around) : (∃ around, a = .poll around) → k < k := by
    rintro ⟨around, ha⟩
    exact absurd ha (hne around)
  cases a with
  | poll around =>
    by_cases hhead : j.load.socket.rx[0]? = some (ep, dataOf f (b + 1))
    · exact .inl (hsynced.takes hsync hsound hhead)
    · obtain ⟨j', hstep, -, -, hrx, h'⟩ := hsynced.passes (hsound.inTime.2 hsynced.waits) hhead
      have hpos : k ≠ 0 := by
        rintro rfl
        exact hhead hk
      right
      rw [hstep]
      refine ⟨k - 1, Nat.sub_le k 1, fun _ => by omega, h', ?_⟩
      rw [hrx, List.getElem?_tail, Nat.sub_add_cancel (Nat.pos_of_ne_zero hpos)]
      exact hk
  | deliver i =>
    right
    refine ⟨k, Nat.le_refl k, hother fun _ => Action.noConfusion, ?_⟩
    rw [Joint.step]
    split
    · exact ⟨hsynced, hk⟩
    · next d hd =>
      refine ⟨hsynced.arrive hd, ?_⟩
      exact (List.getElem?_append_left (List.getElem?_eq_some_iff.mp hk).1).trans hk
  | receive i =>
    obtain ⟨j', hstep, -, hload, h'⟩ := hsynced.lets_pass i
    right
    rw [hstep]
    exact ⟨k, Nat.le_refl k, hother fun _ => Action.noConfusion, h', by rw [hload]; exact hk⟩
  | retransmit =>
    right
    obtain ⟨ds, hstep, h'⟩ := hsynced.repeats
    rw [hstep]
    exact ⟨k, Nat.le_refl k, hother fun _ => Action.noConfusion, h', hk⟩
  | loseUp i => exact absurd hsound.lossless id
  | loseDown i => exact absurd hsound.lossless id
  | giveUp => exact absurd hsound.lossless id

end Steps

section Ends

variable {f : List Byte} {ep : Endpoint} {c₀ : Chip} {b k : ℕ} {j : Joint} {schedule : ℕ → Action}
  {n : ℕ}

/-- Nothing is lost: every datagram on its way comes to be taken in its turn, each in time, and the
loader is polled again and again. -/
structure Faithful (step : Joint → Action → Joint) (j : Joint) (schedule : ℕ → Action) : Prop where
  lossless : ∀ n, (schedule n).Lossless
  inTime : Throughout step InTime j schedule
  polls : Infinitely (fun a => ∃ around, a = .poll around) schedule
  receives : Infinitely (fun a => a = .receive 0) schedule
  delivers : Infinitely (fun a => a = .deliver 0) schedule

lemma counted_step (h : Counted c₀ j) (a : Action) : Counted c₀ (j.step f ep a) := by
  cases a with
  | poll around =>
    have hissued := poll_issued j.load.loader j.load.socket j.load.chip around
    have hcounted : c₀.issued + j.load.loader.sectors ≤ j.load.chip.issued := h
    change c₀.issued + (j.load.loader.poll j.load.socket j.load.chip around).loader.sectors ≤
      (j.load.loader.poll j.load.socket j.load.chip around).chip.issued
    omega
  | deliver i =>
    rw [Joint.step]
    split <;> exact h
  | receive i =>
    rw [Joint.step]
    split <;> exact h
  | retransmit =>
    rw [Joint.step]
    split <;> exact h
  | loseUp i => exact h
  | loseDown i => exact h
  | giveUp => exact h

lemma Faithful.sound (h : Faithful (step f ep) j schedule) (hcounted : Counted c₀ j) :
    Throughout (step f ep) (Sound c₀) j schedule := by
  intro n
  refine ⟨h.lossless n, h.inTime n, ?_⟩
  exact h.inTime.invariant (I := Counted c₀) (fun _ a hs _ => counted_step hs a) hcounted n

/-- One block further, in three legs: to the server, to the socket, to the loader. -/
theorem Faithful.further (hsync : hasSync (blockOf f 1) = true)
    (h : Faithful (step f ep) j schedule) (hcounted : Counted c₀ j)
    (hcalled : Called f ep b k (along (step f ep) j schedule n)) :
    Eventually (step f ep) j schedule (Further f ep c₀ b) n := by
  have hsound := h.sound hcounted
  have hsent := eventually_of_variant h.receives hsound
    (Q := fun j => ∃ m, Sent f ep b m j) (fun _ _ _ hp hc => called_step hp hc) hcalled
  apply hsent.trans
  rintro n₁ ⟨m, hm⟩
  have hheld := eventually_of_variant h.delivers hsound
    (Q := fun j => Further f ep c₀ b j ∨ ∃ m, Held f ep b m j)
    (fun _ _ _ hp hc => sent_step hsync hp hc) hm
  apply hheld.trans
  rintro n₂ (hfurther | ⟨m', hm'⟩)
  · exact .here hfurther
  · exact eventually_of_variant h.polls hsound (Q := Further f ep c₀ b)
      (fun _ _ _ hp hc => held_step hsync hp hc) hm'

/-- A load that nothing is lost of comes to its end, by induction on the blocks still to come. -/
theorem Faithful.ends_called (hsync : hasSync (blockOf f 1) = true)
    (h : Faithful (step f ep) j schedule) (hcounted : Counted c₀ j)
    (hcalled : Called f ep b k (along (step f ep) j schedule n)) :
    Eventually (step f ep) j schedule (Ended f c₀) n := by
  generalize hleft : f.length / BLOCK - b = left
  induction left generalizing b k n with
  | zero =>
    apply (h.further hsync hcounted hcalled).trans
    rintro m (hended | ⟨k', hk'⟩)
    · exact .here hended
    · have hfull := hk'.1.progress.full
      rw [← Nat.le_div_iff_mul_le (by decide)] at hfull
      omega
  | succ left ih =>
    apply (h.further hsync hcounted hcalled).trans
    rintro m (hended | ⟨k', hk'⟩)
    · exact .here hended
    · exact ih hk' (by omega)

lemma Asking.waits (h : Asking f ep j) {a : Action} (hl : a.Lossless) :
    (∃ k, Called f ep 0 k (j.step f ep a)) ∨
      ¬ (∃ around, a = .poll around) ∧ Asking f ep (j.step f ep a) := by
  have hother (hne : ∀ around, a ≠ .poll around) : ¬ ∃ around, a = .poll around := by
    rintro ⟨around, ha⟩
    exact hne around ha
  cases a with
  | poll around =>
    left
    obtain ⟨h', d, hd, hlink⟩ := h.request around hl
    obtain ⟨k, hk⟩ := List.mem_iff_getElem?.mp hd
    exact ⟨k, h', d, hk, hlink⟩
  | deliver i =>
    right
    refine ⟨hother fun _ => Action.noConfusion, ?_⟩
    rw [Joint.step, h.down]
    exact h
  | receive i =>
    right
    refine ⟨hother fun _ => Action.noConfusion, ?_⟩
    rw [Joint.step, h.up]
    exact h
  | retransmit =>
    right
    refine ⟨hother fun _ => Action.noConfusion, ?_⟩
    rw [Joint.step, h.server]
    exact h
  | loseUp i => exact absurd hl id
  | loseDown i => exact absurd hl id
  | giveUp => exact absurd hl id

/-- Every faithful load ends: with the file installed if it fits the region, and else in failure
after the region is written over. -/
theorem Faithful.ends (hsync : hasSync (blockOf f 1) = true)
    (h : Faithful (step f ep) j schedule) (hasking : Asking f ep j) (hcounted : Counted c₀ j) :
    Eventually (step f ep) j schedule (Ended f c₀) 0 := by
  have hcalled := eventually_of_variant (n := 0) h.polls (h.sound hcounted)
    (P := fun _ => Asking f ep) (k := 0) (Q := fun j => ∃ k, Called f ep 0 k j) (by
      intro k j a hj ha
      rcases hj.waits ha.lossless with hcalled | ⟨hnot, hasking⟩
      · exact .inl hcalled
      · exact .inr ⟨k, Nat.le_refl k, fun hpoll => absurd hpoll hnot, hasking⟩) hasking
  apply hcalled.trans
  rintro n ⟨k, hk⟩
  exact h.ends_called hsync hcounted hk

end Ends

end Joint

end Ledwall.Flash
