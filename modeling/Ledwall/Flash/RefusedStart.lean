import Ledwall.Flash.Transfer

/-! What a start that is refused leaves of the loader and of all around it. -/

namespace Ledwall.Flash

open Ledwall.Wire

namespace BitstreamLoader

variable (l : BitstreamLoader) (server : BitVec 32)

/-- What `start` resets before it looks at the name. -/
def reset : BitstreamLoader :=
  { l with
    server := server
    serverTid := 0
    block := 1
    base := APP_BASE
    written := 0
    sectors := 0
    stage := []
    error := none
    badPreamble := false }

/-- A reset for a load from `server` would lose nothing. -/
structure Fresh : Prop where
  server : l.server = server
  serverTid : l.serverTid = 0
  block : l.block = 1
  base : l.base = APP_BASE
  written : l.written = 0
  sectors : l.sectors = 0
  stage : l.stage = []
  error : l.error = none
  badPreamble : l.badPreamble = false

variable {l server} {c : Chip} {filename : List Byte} {e : FlashError}

lemma reset_eq_iff : l.reset server = l ↔ l.Fresh server := by
  constructor
  · intro h
    constructor <;> rw [← h] <;> rfl
  · intro h
    obtain ⟨state, server', tid, block, deadline, name, base, written, sectors, stage, error, bad⟩ := l
    obtain ⟨rfl, rfl, rfl, rfl, rfl, rfl, rfl, rfl, rfl⟩ := h
    rfl

lemma start_refused (h : (l.start c server filename).1 = .error e) :
    (c.regionIsWritable APP_BASE APP_LEN = .error e ∧ (l.start c server filename).2 = l) ∨
      (c.regionIsWritable APP_BASE APP_LEN = .ok () ∧ MAX_FILENAME < filename.length ∧
        e = .nameTooLong ∧ (l.start c server filename).2 = l.reset server) := by
  rw [start] at h ⊢
  cases hw : c.regionIsWritable APP_BASE APP_LEN with
  | error e' =>
    rw [hw] at h
    injection h with h
    exact .inl ⟨congrArg Except.error h, rfl⟩
  | ok u =>
    rw [hw] at h
    dsimp only at h ⊢
    split at h
    · rename_i hlong
      injection h with h
      rw [if_pos hlong]
      exact .inr ⟨rfl, hlong, h.symm, rfl⟩
    · cases h

end BitstreamLoader

namespace Updater

variable {u v : Updater}

lemma call_start_eq_iff (server : BitVec 32) (filename : List Byte) :
    u.call (.start server filename) = u ↔
      (u.loader.start u.chip server filename).2 = u.loader := by
  constructor
  · intro h
    exact congrArg Updater.loader h
  · intro h
    rw [call, h]

/-- A refused start leaves all as it was when it is refused for the region, or when there was
nothing to reset. -/
theorem refused_unchanged_iff (u : Updater) (server : BitVec 32) (filename : List Byte)
    (e : FlashError) (h : (u.loader.start u.chip server filename).1 = .error e) :
    u.call (.start server filename) = u ↔
      u.chip.regionIsWritable APP_BASE APP_LEN ≠ .ok () ∨ u.loader.Fresh server := by
  rw [call_start_eq_iff]
  rcases BitstreamLoader.start_refused h with ⟨hregion, hsame⟩ | ⟨hregion, -, -, hreset⟩
  · rw [hregion, hsame]
    constructor
    · intro _
      left
      intro hok
      cases hok
    · intro _
      rfl
  · rw [hregion, hreset, BitstreamLoader.reset_eq_iff]
    constructor
    · exact Or.inr
    · rintro (hne | hfresh)
      · exact absurd rfl hne
      · exact hfresh

/-- A load is over, and its result is still to be read. -/
def loaded (chip : Chip) : Updater where
  job := {}
  loader := { state := .finished, block := 2, written := 1000, sectors := 1 }
  socket := {}
  chip := chip

def blankChip : Chip := ⟨fun _ => 0xFF, 0, fun _ => .good⟩

/-- A name of one byte too many. -/
def longFilename : List Byte := List.replicate 97 0x61

theorem refused_without_golden :
    (loaded blankChip).call (.start 0 longFilename) = loaded blankChip ↔
      (loaded blankChip).chip.regionIsWritable APP_BASE APP_LEN ≠ .ok () ∨
        (loaded blankChip).loader.Fresh 0 :=
  refused_unchanged_iff (loaded blankChip) 0 longFilename .noGolden (by decide)

/-- The refused start takes the finished load's result away. -/
theorem refused_resets : ¬ ∀ (u : Updater) (server : BitVec 32) (filename : List Byte)
    (e : FlashError), (u.loader.start u.chip server filename).1 = .error e →
    u.call (.start server filename) = u := by
  intro h
  have hsame := h (loaded goldenChip) 0 longFilename .nameTooLong (by decide)
  have hwritten := congrArg (fun u : Updater => u.loader.written) hsame
  exact absurd hwritten (by decide)

end Updater

end Ledwall.Flash
