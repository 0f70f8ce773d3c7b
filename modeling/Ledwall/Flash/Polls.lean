import Ledwall.Flash.HealthyWrites

/-! What one poll of the loader does: it takes the block it waits for, or it stores nothing. -/

namespace Ledwall.Flash.BitstreamLoader

open Ledwall.Wire Ledwall.Library.Effects

variable (l : BitstreamLoader)

/-- The block that a poll at this time takes: whence, and its payload. -/
def awaited (socket : UdpSocket) (timeMs : ℤ) : Option (Endpoint × List Byte) :=
  match socket.rx with
  | [] => none
  | (ep, data) :: _ =>
    if (l.state = .waitData ∧ timeMs ≤ l.deadlineMs) ∧ 4 ≤ data.length ∧
        data.getD 1 0 = OPCODE_DATA ∧ data.getD 2 0 ++ data.getD 3 0 = l.block then
      some (ep, (data.drop 4).take BLOCK)
    else none

variable {l} {socket : UdpSocket} {c c' : Chip} {around : Around} {ep : Endpoint}
  {payload : List Byte}

theorem awaited_some (h : l.awaited socket around.timeMs = some (ep, payload)) :
    l.state = .waitData ∧ ∃ data rx, socket.rx = (ep, data) :: rx ∧
      data.getD 1 0 = OPCODE_DATA ∧ data.getD 2 0 ++ data.getD 3 0 = l.block ∧
      payload = (data.drop 4).take BLOCK := by
  rw [awaited] at h
  split at h
  · cases h
  · next ep' data rx hrx =>
    split at h
    · next hd =>
      cases h
      exact ⟨hd.1.1, data, rx, hrx, hd.2.2.1, hd.2.2.2, rfl⟩
    · cases h

theorem poll_awaited (h : l.awaited socket around.timeMs = some (ep, payload)) :
    l.poll socket c around =
      l.acceptBlock { socket with rx := socket.rx.tail } c around ep payload := by
  rw [awaited] at h
  split at h
  · cases h
  next ep' data rx hrx =>
  split at h
  · next hd =>
    cases h
    obtain ⟨⟨hstate, htime⟩, hlen, hop, hnum⟩ := hd
    rcases data with _ | ⟨b, _ | ⟨opcode, _ | ⟨b₁, _ | ⟨b₀, body⟩⟩⟩⟩
    iterate 4 exact absurd hlen (by simp)
    have hop : opcode = OPCODE_DATA := hop
    have hnum : b₁ ++ b₀ = l.block := hnum
    rw [poll, hstate]
    dsimp only
    rw [if_neg (not_lt.mpr htime), hrx]
    dsimp only
    rw [if_neg (by rw [hop]; decide), if_neg (by simp [hop, hnum])]
    rfl
  · cases h

/-- A poll that takes no block leaves the image and what is known of the server as they were. -/
structure Idle (l : BitstreamLoader) (c : Chip) (socket : UdpSocket) (p : Polled) : Prop where
  loader : ∃ st dl, p.loader = { l with state := st, deadlineMs := dl } ∧
    (st = l.state ∨ st = .failed ∨ l.state = .sendRrq ∧ st = .waitData)
  chip : p.chip = c
  sent : ∀ d ∈ p.sent, d.2.getD 1 0 = OPCODE_RRQ
  rx : ∀ d ∈ p.socket.rx, d ∈ socket.rx

theorem Idle.stay {socket' : UdpSocket} (h : ∀ d ∈ socket'.rx, d ∈ socket.rx) :
    Idle l c socket ⟨false, l, socket', c, []⟩ := by
  refine ⟨⟨l.state, l.deadlineMs, rfl, Or.inl rfl⟩, rfl, ?_, h⟩
  intro d hd
  cases hd

theorem Idle.fail (socket' : UdpSocket) : Idle l c socket (l.fail socket' c) := by
  refine ⟨⟨.failed, l.deadlineMs, rfl, Or.inr (Or.inl rfl)⟩, rfl, ?_, ?_⟩
  · intro d hd
    cases hd
  · intro d hd
    cases hd

theorem poll_idle (h : l.awaited socket around.timeMs = none) :
    Idle l c socket (l.poll socket c around) := by
  rw [poll]
  split
  · next hstate =>
    have hrx : ∀ d ∈ (if socket.isOpen then socket else { socket with isOpen := true }).rx,
        d ∈ socket.rx := by
      intro d hd
      split at hd <;> exact hd
    dsimp only
    split
    · refine ⟨⟨.waitData, _, rfl, Or.inr (Or.inr ⟨hstate, rfl⟩)⟩, rfl, ?_, hrx⟩
      intro d hd
      rw [List.mem_singleton.mp hd]
      rfl
    · exact Idle.stay hrx
  · next hstate =>
    split
    · exact Idle.fail _
    next htime =>
    split
    · exact Idle.stay fun d hd => hd
    next ep data rx hrx =>
    have htail : ∀ d ∈ rx, d ∈ socket.rx := by
      intro d hd
      rw [hrx]
      exact List.mem_cons_of_mem _ hd
    dsimp only
    split
    · next b opcode b₁ b₀ body =>
      split
      · exact Idle.fail _
      split
      · exact Idle.stay htail
      · next hnot =>
        rw [awaited, hrx] at h
        simp only [ne_eq, not_or, not_not] at hnot
        refine absurd h ?_
        dsimp only
        rw [if_pos]
        · exact Option.some_ne_none _
        · refine ⟨⟨hstate, not_lt.mp htime⟩, ?_, hnot.1, hnot.2⟩
          simp
    · exact Idle.stay htail
  all_goals exact Idle.stay fun d hd => hd

theorem poll_request (socket : UdpSocket) (c : Chip) (around : Around)
    (hstate : l.state = .sendRrq) :
    l.poll socket c around =
      if around.canSend ∧ around.takes then
        ⟨false, { l with deadlineMs := around.timeMs + TIMEOUT_MS, state := .waitData },
          if socket.isOpen then socket else { socket with isOpen := true }, c,
          [(⟨l.server, .ofNat 16 TFTP_PORT⟩, l.rrq)]⟩
      else
        ⟨false, l, if socket.isOpen then socket else { socket with isOpen := true }, c, []⟩ := by
  rw [poll, hstate]

theorem poll_late (hstate : l.state = .waitData) (htime : l.deadlineMs < around.timeMs) :
    l.poll socket c around = l.fail socket c := by
  rw [poll, hstate]
  exact if_pos htime

theorem poll_empty (hstate : l.state = .waitData) (htime : around.timeMs ≤ l.deadlineMs)
    (hrx : socket.rx = []) : l.poll socket c around = ⟨false, l, socket, c, []⟩ := by
  rw [poll, hstate]
  dsimp only
  rw [if_neg (not_lt.mpr htime), hrx]

/-- A flush that succeeds moves the staged bytes to the flash and goes on to the next sector. -/
theorem flushIfDue_ok {l' : BitstreamLoader} {last : Bool}
    (h : l.flushIfDue last c = (.ok l', c')) :
    (l' = l ∧ c' = c ∧ (l.stage = [] ∨ l.stage.length ≠ SECTOR ∧ last = false)) ∨
      (l.stage.length = SECTOR ∨ last = true) ∧
        l' = { l with sectors := l.sectors + 1, stage := [] } ∧ l.writeSector c = .ok () c' := by
  rw [flushIfDue] at h
  split at h
  · next hdue =>
    rw [flush] at h
    split at h
    · next hempty =>
      cases h
      exact Or.inl ⟨rfl, rfl, Or.inl (List.isEmpty_iff.mp hempty)⟩
    · split at h
      · next hw =>
        cases h
        exact Or.inr ⟨hdue, rfl, hw⟩
      · cases h
  · next hdue =>
    cases h
    rw [not_or, Bool.not_eq_true] at hdue
    exact Or.inl ⟨rfl, rfl, Or.inr hdue⟩

theorem identify_written (l : BitstreamLoader) (ep : Endpoint) :
    (l.identify ep).written = l.written := by
  rw [identify]
  split <;> rfl

/-- A block that does not end the load in failure is staged, flushed if due and acknowledged. -/
theorem acceptBlock_ok (h : (l.acceptBlock socket c around ep payload).loader.state ≠ .failed) :
    (l.written ≠ 0 ∨ hasSync payload = true) ∧
      ((l.identify ep).stageBlock payload).written ≤ APP_LEN ∧
      ∃ l' c', ((l.identify ep).stageBlock payload).flushIfDue (payload.length < BLOCK) c = (.ok l', c') ∧
        l.acceptBlock socket c around ep payload =
          l'.acknowledge socket c' around ep (payload.length < BLOCK) := by
  have hwritten := l.identify_written ep
  rw [acceptBlock] at h ⊢
  split at h
  · exact absurd rfl h
  next hsync =>
  rw [if_neg hsync]
  rw [storeBlock] at h ⊢
  split at h
  · exact absurd rfl h
  next hfits =>
  rw [if_neg hfits]
  split at h
  · exact absurd rfl h
  next l' c' hflush =>
  refine ⟨?_, not_lt.mp hfits, l', c', hflush, ?_⟩
  · rw [hwritten, not_and_or, Bool.not_eq_false] at hsync
    exact hsync
  · rfl

/-- Once the server's port is known, the port a block comes from makes no difference. -/
theorem acceptBlock_port (h : l.serverTid ≠ 0) (addr : BitVec 32) (p q : BitVec 16) :
    l.acceptBlock socket c around ⟨addr, p⟩ payload =
      l.acceptBlock socket c around ⟨addr, q⟩ payload := by
  simp only [acceptBlock, identify, if_neg h, storeBlock, acknowledge]

/-- A healthy part takes a flush that stays in the application region. -/
theorem flushIfDue_healthy (last : Bool) (h : c.Healthy) (hg : c.goldenPresent = true)
    (hbase : l.base = APP_BASE) (hs : l.stage.length ≤ SECTOR)
    (hfits : l.stage ≠ [] → l.sectors * SECTOR + SECTOR ≤ APP_LEN) :
    ∃ l' c', l.flushIfDue last c = (.ok l', c') ∧ c'.Healthy ∧ c'.goldenPresent = true := by
  rw [flushIfDue, flush]
  split
  · split
    · exact ⟨l, c, rfl, h, hg⟩
    · next hne =>
      have hfits := hfits fun hnil => hne (List.isEmpty_iff.mpr hnil)
      have haddr : l.sectorAddr = l.sectors * SECTOR := by
        rw [sectorAddr, hbase, APP_BASE, Nat.zero_add, wrap32]
        apply Nat.mod_eq_of_lt
        simp only [APP_LEN] at hfits
        omega
      obtain ⟨c', hc', hh⟩ := writeSector_healthy (l := l) h (by
        rw [haddr]
        exact regionIsWritable_app hg (Nat.mul_mod_left _ _) (Nat.mod_self _) (by decide) hfits) hs
      have hmoves := l.writeSector_moves c
      rw [hc'] at hmoves ⊢
      exact ⟨_, c', rfl, hh, hmoves.goldenPresent.trans hg⟩
  · exact ⟨l, c, rfl, h, hg⟩

theorem acceptBlock_rx {d : Datagram}
    (h : d ∈ (l.acceptBlock socket c around ep payload).socket.rx) : d ∈ socket.rx := by
  rw [acceptBlock] at h
  split at h
  · cases h
  rw [storeBlock] at h
  split at h
  · cases h
  split at h
  · cases h
  rw [acknowledge] at h
  split at h <;> exact h

end Ledwall.Flash.BitstreamLoader
