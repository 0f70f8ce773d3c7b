import Ledwall.Flash.BitstreamLoader
import Ledwall.Library.Effects

/-! The write guard: whatever the job and the loader are asked, only the scratch region changes,
and the application region when a golden image is present. -/

namespace Ledwall.Flash

open Ledwall.Wire Ledwall.Library.Effects

def InScratch (a : ℕ) : Prop := SCRATCH_BASE ≤ a ∧ a < SCRATCH_BASE + SCRATCH_LEN

def InApp (a : ℕ) : Prop := APP_BASE ≤ a ∧ a < APP_BASE + APP_LEN

/-- The bytes the firmware may change on a chip that holds `c`. -/
def Chip.MayChange (c : Chip) (a : ℕ) : Prop := InScratch a ∨ InApp a ∧ c.goldenPresent = true

/-- Only bytes that may change have changed. -/
def Guarded (c c' : Chip) : Prop := ∀ a, ¬ c.MayChange a → c'.mem a = c.mem a

namespace Guarded

variable {c c' c'' : Chip}

theorem refl (c : Chip) : Guarded c c := fun _ _ => rfl

theorem goldenPresent (h : Guarded c c') : c'.goldenPresent = c.goldenPresent := by
  have hread (i : ℕ) (hi : i ≤ 8) :
      c'.readByte (GOLDEN_BASE + i) = c.readByte (GOLDEN_BASE + i) := by
    apply h
    simp only [Chip.MayChange, InScratch, InApp, GOLDEN_BASE, SCRATCH_BASE, SCRATCH_LEN, APP_BASE,
      APP_LEN]
    omega
  rw [Chip.goldenPresent, Chip.goldenPresent, Chip.preambleAt, Chip.preambleAt]
  rw [Bool.eq_iff_iff, List.any_eq_true, List.any_eq_true]
  apply exists_congr
  intro off
  apply and_congr_right
  intro hoff
  have hlt : off < 8 := List.mem_range.mp hoff
  rw [hread off (by omega), Nat.add_assoc, hread (off + 1) (by omega)]

theorem mayChange (h : Guarded c c') (a : ℕ) : c'.MayChange a ↔ c.MayChange a := by
  rw [Chip.MayChange, Chip.MayChange, h.goldenPresent]

theorem trans (h₁ : Guarded c c') (h₂ : Guarded c' c'') : Guarded c c'' := by
  intro a ha
  rw [h₂ a (by rwa [h₁.mayChange]), h₁ a ha]

end Guarded

theorem guarded_trans (c c' c'' : Chip) : Guarded c c' → Guarded c' c'' → Guarded c c'' :=
  Guarded.trans

/-- What the guard lets through: a whole number of sectors of one of the two regions. -/
theorem regionIsWritable_ok {c : Chip} {addr len : ℕ} (h : c.regionIsWritable addr len = .ok ()) :
    addr % SECTOR = 0 ∧ len % SECTOR = 0 ∧ 0 < len ∧
      (addr + len ≤ APP_BASE + APP_LEN ∧ c.goldenPresent = true ∨
        SCRATCH_BASE ≤ addr ∧ addr + len ≤ SCRATCH_BASE + SCRATCH_LEN) := by
  rw [Chip.regionIsWritable] at h
  split at h
  · cases h
  next hsize =>
  split at h
  · cases h
  next halign =>
  split at h
  · cases h
  split at h
  · cases h
  have hsplit : addr % SECTOR = 0 ∧ len % SECTOR = 0 ∧ 0 < len := by
    simp only [ne_eq, not_or, not_not] at halign
    exact ⟨halign.1, halign.2, by omega⟩
  refine ⟨hsplit.1, hsplit.2.1, hsplit.2.2, ?_⟩
  rw [FLASH_SIZE] at hsize
  split at h
  · next happ =>
    split at h
    · next hgolden =>
      left
      refine ⟨?_, hgolden⟩
      omega
    · cases h
  · split at h
    · cases h
    · next hscratch =>
      right
      omega

/-- Every byte of a region the guard lets through may change. -/
theorem mayChange_of_writable {c : Chip} {addr len a : ℕ}
    (h : c.regionIsWritable addr len = .ok ()) (hlo : addr ≤ a) (hhi : a < addr + len) :
    c.MayChange a := by
  obtain ⟨-, -, -, happ | hscratch⟩ := regionIsWritable_ok h
  · right
    refine ⟨⟨?_, ?_⟩, happ.2⟩
    · rw [APP_BASE]
      omega
    · omega
  · left
    constructor <;> omega

/-- A region the guard lets through lies in the chip. -/
theorem address_of_writable {c : Chip} {addr len a : ℕ} (h : c.regionIsWritable addr len = .ok ())
    (hlo : addr ≤ a) (hhi : a < addr + len) : Chip.address a = a := by
  obtain ⟨-, -, -, hr⟩ := regionIsWritable_ok h
  simp only [Chip.address, FLASH_SIZE, APP_BASE, APP_LEN, SCRATCH_BASE, SCRATCH_LEN] at *
  omega

theorem page_in_sector (addr : ℕ) : addr / SECTOR * SECTOR ≤ addr / PAGE * PAGE ∧
    addr / PAGE * PAGE + PAGE ≤ addr / SECTOR * SECTOR + SECTOR := by
  rw [SECTOR, PAGE]
  omega

section Commands

/-- A command whose effect stays inside what may change, after its own guard. -/
theorem command_guarded {f : (ℕ → Byte) → ℕ → Byte} {s s' : ℕ} {c : Chip}
    (hw : c.regionIsWritable s s' = .ok ())
    (hf : ∀ a, ¬ (s ≤ a ∧ a < s + s') → f c.mem a = c.mem a) : Guarded c (final (command f c)) := by
  have hobeyed (a : ℕ) (ha : ¬ c.MayChange a) : f c.mem a = c.mem a := by
    apply hf
    rintro ⟨hlo, hhi⟩
    exact ha (mayChange_of_writable hw hlo hhi)
  rw [command]
  dsimp only
  cases (c.answers c.issued).unlocks <;> cases (c.answers c.issued).obeys <;>
    cases (c.answers c.issued).settles <;>
    first
    | exact fun a ha => hobeyed a ha
    | exact fun a ha => rfl

/-- The guard passed, then one command inside its region. -/
theorem checkedCommand_moves {f : (ℕ → Byte) → ℕ → Byte} {addr len : ℕ}
    (hf : ∀ c : Chip, c.regionIsWritable addr len = .ok () →
      ∀ a, ¬ (addr ≤ a ∧ a < addr + len) → f c.mem a = c.mem a) :
    Moves Guarded (checkedCommand addr len f) := by
  intro c
  rw [checkedCommand]
  cases hw : c.regionIsWritable addr len with
  | error e => exact Guarded.refl c
  | ok u =>
    dsimp only
    exact command_guarded hw (hf c hw)

section Access

variable {R : Chip → Chip → Prop}

/-- What every command keeps, an erase keeps. -/
theorem eraseSector_keeps {addr : ℕ} (hr : ∀ c, R c c) (ht : ∀ c₁ c₂ c₃, R c₁ c₂ → R c₂ c₃ → R c₁ c₃)
    (hcommand : Moves R (checkedCommand addr SECTOR (Chip.sectorErase addr))) :
    Moves R (eraseSector addr) := by
  rw [eraseSector]
  apply Moves.bind ht hcommand
  intro _
  apply Moves.bind ht (Moves.get hr)
  intro _
  split
  · exact Moves.throw hr _
  · exact Moves.pure hr _

theorem programPage_keeps {addr : ℕ} {data : List Byte} (hr : ∀ c, R c c)
    (ht : ∀ c₁ c₂ c₃, R c₁ c₂ → R c₂ c₃ → R c₁ c₃)
    (hcommand : Moves R
      (checkedCommand (addr / SECTOR * SECTOR) SECTOR (Chip.pageProgram addr data))) :
    Moves R (programPage addr data) := by
  rw [programPage]
  split
  · exact Moves.pure hr _
  split
  · exact Moves.throw hr _
  apply Moves.bind ht hcommand
  intro _
  apply Moves.bind ht (Moves.get hr)
  intro _
  split
  · exact Moves.throw hr _
  · exact Moves.pure hr _

theorem BitstreamLoader.writeSector_keeps (l : BitstreamLoader) (hr : ∀ c, R c c)
    (ht : ∀ c₁ c₂ c₃, R c₁ c₂ → R c₂ c₃ → R c₁ c₃) (herase : ∀ addr, Moves R (eraseSector addr))
    (hprogram : ∀ addr data, Moves R (programPage addr data)) : Moves R l.writeSector := by
  rw [BitstreamLoader.writeSector]
  apply Moves.bind ht (herase _)
  intro _
  apply Moves.bind ht
  · apply Moves.forM hr ht
    intro k _
    exact hprogram _ _
  · intro _
    apply Moves.bind ht (Moves.get hr)
    intro _
    split
    · exact Moves.throw hr _
    · exact Moves.pure hr _

end Access

theorem eraseSector_moves (addr : ℕ) : Moves Guarded (eraseSector addr) := by
  apply eraseSector_keeps Guarded.refl guarded_trans
  apply checkedCommand_moves
  intro c hw a ha
  have haddr : Chip.address addr = addr :=
    address_of_writable hw (Nat.le_refl addr) (Nat.lt_add_of_pos_right (by decide))
  have halign := (regionIsWritable_ok hw).1
  rw [Chip.sectorErase, haddr, Nat.div_mul_cancel (Nat.dvd_of_mod_eq_zero halign), if_neg ha]

theorem programPage_moves (addr : ℕ) (data : List Byte) : Moves Guarded (programPage addr data) := by
  apply programPage_keeps Guarded.refl guarded_trans
  apply checkedCommand_moves
  intro c hw a ha
  have hlt : addr < addr / SECTOR * SECTOR + SECTOR := by
    rw [SECTOR]
    omega
  have haddr : Chip.address addr = addr :=
    address_of_writable hw (Nat.div_mul_le_self addr SECTOR) hlt
  have hpage := page_in_sector addr
  simp only [Chip.pageProgram, haddr]
  apply if_neg
  rintro ⟨hlo, hhi, -⟩
  exact ha ⟨hpage.1.trans hlo, Nat.lt_of_lt_of_le hhi hpage.2⟩

end Commands

theorem Job.work_moves (job : Job) : Moves Guarded job.work := by
  rw [Job.work]
  split
  · apply Moves.bind guarded_trans (eraseSector_moves _)
    intro _
    exact Moves.pure Guarded.refl _
  · split
    · apply Moves.bind guarded_trans (eraseSector_moves _)
      intro _
      exact Moves.pure Guarded.refl _
    · apply Moves.bind guarded_trans (programPage_moves _ _)
      intro _
      exact Moves.pure Guarded.refl _
  · exact Moves.pure Guarded.refl _

theorem Job.tick_guarded (job : Job) (c : Chip) : Guarded c (job.tick c).2 := by
  rw [Job.tick]
  split
  · exact Guarded.refl c
  · dsimp only
    split
    · exact Guarded.refl c
    · have hwork := Job.work_moves { job with state := .running } c
      split <;> simp_all [final]

namespace BitstreamLoader

variable (l : BitstreamLoader)

theorem writeSector_moves : Moves Guarded l.writeSector :=
  l.writeSector_keeps Guarded.refl guarded_trans eraseSector_moves programPage_moves

theorem flush_guarded (c : Chip) : Guarded c (l.flush c).2 := by
  rw [flush]
  split
  · exact Guarded.refl c
  · have hwrite := l.writeSector_moves c
    split <;> simp_all [final]

theorem flushIfDue_guarded (last : Bool) (c : Chip) : Guarded c (l.flushIfDue last c).2 := by
  rw [flushIfDue]
  split
  · exact l.flush_guarded c
  · exact Guarded.refl c

theorem storeBlock_guarded (socket : UdpSocket) (c : Chip) (around : Around) (ep : Endpoint)
    (last : Bool) : Guarded c (l.storeBlock socket c around ep last).chip := by
  have hflush := l.flushIfDue_guarded last c
  rw [storeBlock]
  split
  · exact Guarded.refl c
  · split
    · next h =>
      rw [h] at hflush
      exact hflush
    · next h =>
      rw [h] at hflush
      rw [acknowledge]
      split <;> exact hflush

theorem acceptBlock_guarded (socket : UdpSocket) (c : Chip) (around : Around) (ep : Endpoint)
    (payload : List Byte) : Guarded c (l.acceptBlock socket c around ep payload).chip := by
  rw [acceptBlock]
  split
  · exact Guarded.refl c
  · exact storeBlock_guarded _ _ _ _ _ _

theorem poll_guarded (socket : UdpSocket) (c : Chip) (around : Around) :
    Guarded c (l.poll socket c around).chip := by
  rw [poll]
  split
  · dsimp only
    split <;> exact Guarded.refl c
  · split
    · exact Guarded.refl c
    split
    · exact Guarded.refl c
    dsimp only
    split
    · split
      · exact Guarded.refl c
      split
      · exact Guarded.refl c
      · exact l.acceptBlock_guarded _ _ _ _ _
    · exact Guarded.refl c
  all_goals exact Guarded.refl c

end BitstreamLoader

/-- The two writers, the socket of the second and the chip. -/
structure Updater where
  job : Job
  loader : BitstreamLoader
  socket : UdpSocket
  chip : Chip

/-- What the firmware is called with, one call after another. -/
inductive Call
  | queue (kind : JobKind) (addr len : BitVec 32)
  | tick
  | start (server : BitVec 32) (filename : List Byte)
  | arrive (d : Datagram)
  | poll (around : BitstreamLoader.Around)

namespace Updater

variable (u : Updater)

def call : Call → Updater
  | .queue kind addr len =>
    match u.job.queue u.chip kind addr len with
    | .ok job => { u with job := job }
    | .error _ => u
  | .tick => { u with job := (u.job.tick u.chip).1, chip := (u.job.tick u.chip).2 }
  | .start server filename => { u with loader := (u.loader.start u.chip server filename).2 }
  | .arrive d => if u.socket.isOpen then
      { u with socket := { u.socket with rx := u.socket.rx ++ [d] } } else u
  | .poll around =>
    let polled := u.loader.poll u.socket u.chip around
    { u with loader := polled.loader, socket := polled.socket, chip := polled.chip }

def run (calls : List Call) : Updater := calls.foldl call u

theorem call_guarded (e : Call) : Guarded u.chip (u.call e).chip := by
  cases e with
  | queue kind addr len =>
    rw [call]
    split <;> exact Guarded.refl _
  | tick => exact u.job.tick_guarded u.chip
  | start server filename => exact Guarded.refl _
  | arrive d =>
    rw [call]
    split <;> exact Guarded.refl _
  | poll around => exact u.loader.poll_guarded u.socket u.chip around

theorem run_guarded (calls : List Call) : Guarded u.chip (u.run calls).chip := by
  rw [run]
  induction calls generalizing u with
  | nil => exact Guarded.refl _
  | cons e calls ih => exact (u.call_guarded e).trans (ih (u.call e))

/-- After any calls, a byte that changed is in the scratch region, or in the application region of
a card with a golden image. -/
theorem changed_only_where_writable (calls : List Call) (a : ℕ) :
    (u.run calls).chip.mem a = u.chip.mem a ∨ InScratch a ∨
      InApp a ∧ u.chip.goldenPresent = true := by
  by_cases h : u.chip.MayChange a
  · exact Or.inr h
  · exact Or.inl (u.run_guarded calls a h)

end Updater

end Ledwall.Flash
