import Ledwall.Flash.SectorWrites

/-! A queued job, one tick after another: it ends, it stays in its region, and what it leaves there
is what it was queued for. -/

namespace Ledwall.Flash

open Ledwall.Wire Ledwall.Library.Effects

/-- The part carries out every command it lets through. -/
def Chip.Obeys (c : Chip) : Prop := ∀ n, (c.answers n).obeys = true

/-- The first offset at which a region does not hold the self-test's bytes. -/
def verifySelftest (c : Chip) (addr len : ℕ) : Except ℕ Unit :=
  match (List.range len).find? fun i => c.readByte (addr + i) != selftestByte i with
  | some i => .error i
  | none => .ok ()

/-- Only bytes of the region have changed, on the same part. -/
structure Inside (addr len : ℕ) (c c' : Chip) : Prop where
  mem : ∀ a, ¬ (addr ≤ a ∧ a < addr + len) → c'.mem a = c.mem a
  answers : c'.answers = c.answers

section Inside

variable {addr len lo n : ℕ} {c c' c'' : Chip}

lemma Inside.refl (addr len : ℕ) (c : Chip) : Inside addr len c c := ⟨fun _ _ => rfl, rfl⟩

lemma Inside.trans (h : Inside addr len c c') (h' : Inside addr len c' c'') :
    Inside addr len c c'' where
  mem a ha := (h'.mem a ha).trans (h.mem a ha)
  answers := h'.answers.trans h.answers

lemma inside_trans (c c' c'' : Chip) (h : Inside addr len c c') (h' : Inside addr len c' c'') :
    Inside addr len c c'' :=
  h.trans h'

lemma Inside.widen (h : Inside lo n c c') (hlo : addr ≤ lo) (hhi : lo + n ≤ addr + len) :
    Inside addr len c c' where
  mem a ha := h.mem a (by omega)
  answers := h.answers

lemma Inside.obeys (h : Inside addr len c c') (hc : c.Obeys) : c'.Obeys := by
  intro n
  rw [h.answers]
  exact hc n

lemma checkedCommand_inside {f : (ℕ → Byte) → ℕ → Byte}
    (hf : ∀ c : Chip, c.regionIsWritable lo n = .ok () →
      ∀ a, ¬ (addr ≤ a ∧ a < addr + len) → f c.mem a = c.mem a) :
    Moves (Inside addr len) (checkedCommand lo n f) := by
  intro c
  rw [checkedCommand]
  cases hw : c.regionIsWritable lo n with
  | error e => exact Inside.refl addr len c
  | ok u =>
    have hobeyed := hf c hw
    dsimp only
    rw [command]
    dsimp only
    cases (c.answers c.issued).unlocks <;> cases (c.answers c.issued).obeys <;>
      cases (c.answers c.issued).settles <;>
      first
      | exact ⟨hobeyed, rfl⟩
      | exact ⟨fun _ _ => rfl, rfl⟩

lemma eraseSector_inside (addr : ℕ) : Moves (Inside addr SECTOR) (eraseSector addr) := by
  rw [eraseSector]
  apply Moves.bind inside_trans
  · apply checkedCommand_inside
    intro c hw a ha
    rw [sectorErase_apply hw, if_neg ha]
  · intro _
    apply Moves.bind inside_trans (Moves.get (Inside.refl _ _))
    intro _
    split
    · exact Moves.throw (Inside.refl _ _) _
    · exact Moves.pure (Inside.refl _ _) _

lemma programPage_inside (addr : ℕ) (data : List Byte) :
    Moves (Inside addr data.length) (programPage addr data) := by
  rw [programPage]
  split
  · exact Moves.pure (Inside.refl _ _) _
  split
  · exact Moves.throw (Inside.refl _ _) _
  next hfit =>
  apply Moves.bind inside_trans
  · apply checkedCommand_inside
    intro c hw a ha
    rw [pageProgram_apply hw (by omega), if_neg ha]
  · intro _
    apply Moves.bind inside_trans (Moves.get (Inside.refl _ _))
    intro _
    split
    · exact Moves.throw (Inside.refl _ _) _
    · exact Moves.pure (Inside.refl _ _) _

lemma Moves.of_ok {α : Type} {R : Chip → Chip → Prop} {x : Spi α} {a : α} (h : Moves R x)
    (hx : x c = .ok a c') : R c c' := by
  have hc := h c
  rw [hx] at hc
  exact hc

lemma Moves.of_error {α : Type} {R : Chip → Chip → Prop} {x : Spi α} {e : FlashError}
    (h : Moves R x) (hx : x c = .error e c') : R c c' := by
  have hc := h c
  rw [hx] at hc
  exact hc

lemma programPage_obeyed {data : List Byte} (hc : c.Obeys) (h : programPage addr data c = .ok () c')
    (a : ℕ) : c'.mem a =
      if addr ≤ a ∧ a < addr + data.length then c.mem a &&& data.getD (a - addr) 0xFF
      else c.mem a := by
  rw [programPage] at h
  split at h
  · next hnil =>
    cases h
    rw [List.isEmpty_iff.mp hnil, List.length_nil, if_neg (by omega)]
  split at h
  · cases h
  next hfit =>
  obtain ⟨⟨⟩, t, ht, hrest⟩ := bind_ok h
  obtain ⟨t', u, hget, hread⟩ := bind_ok hrest
  cases hget
  have htc : c' = t := by
    split at hread
    · cases hread
    · cases hread
      rfl
  rw [htc]
  have hw := (checkedCommand_ok ht).1
  rw [checkedCommand, hw] at ht
  dsimp only at ht
  rw [command, hc c.issued] at ht
  dsimp only at ht
  split at ht
  · cases ht
  · split at ht <;> cases ht
    exact pageProgram_apply hw (by omega) c.mem a

end Inside

namespace Job

def Over (job : Job) : Prop := job.state = .finished ∨ job.state = .failed

def ticks (n : ℕ) (p : Job × Chip) : Job × Chip := (fun p => p.1.tick p.2)^[n] p

/-- What is left of a job in ticks, if each of its bytes took an erase and a page. -/
def remaining (job : Job) : ℕ := 2 * (job.len - job.cursor) + if job.erased then 0 else 1

/-- What the guard lets a job be queued for. -/
structure Accepted (q : Job) (c₀ : Chip) : Prop where
  kind : q.kind ≠ .none
  aligned : q.addr % SECTOR = 0 ∧ q.len % SECTOR = 0
  fits : q.addr + q.len ≤ FLASH_SIZE

/-- What holds of the job queued as `q` and of the chip, since it was queued on `c₀`. -/
structure Sound (c₀ : Chip) (q job : Job) (c : Chip) : Prop where
  same : job.kind = q.kind ∧ job.addr = q.addr ∧ job.len = q.len
  cursor : job.cursor ≤ q.len
  aligned : job.cursor % (if q.kind = .erase then SECTOR else PAGE) = 0
  inside : Inside q.addr q.len c₀ c
  whole : job.state = .finished → job.cursor = q.len
  blank : q.kind = .erase → ∀ i, i < job.cursor → c.mem (q.addr + i) = 0xFF
  filled : q.kind = .selfTest → c₀.Obeys → ∀ i, i < job.cursor →
    c.mem (q.addr + i) = selftestByte i
  /-- A page goes into a sector that has been erased. -/
  ready : q.kind = .selfTest → c₀.Obeys → job.state ≠ .failed →
    (job.cursor % SECTOR ≠ 0 → job.erased = true) ∧
      (job.erased = true → ∀ i, job.cursor ≤ i → i < job.cursor / SECTOR * SECTOR + SECTOR →
        c.mem (q.addr + i) = 0xFF)

variable {q job : Job} {c₀ c c' : Chip} {adv : ℕ} {erased : Bool} {e : FlashError}

lemma Accepted.wrap32 (h : q.Accepted c₀) {n : ℕ} (hn : n ≤ q.len) :
    Flash.wrap32 (q.addr + n) = q.addr + n := by
  have hfits := h.fits
  rw [FLASH_SIZE] at hfits
  exact Nat.mod_eq_of_lt (by omega)

lemma work_cases (hkind : job.kind ≠ .none) :
    (job.kind = .erase ∧ job.work = do
      eraseSector (Flash.wrap32 (job.addr + job.cursor))
      return (SECTOR, job.erased)) ∨
    (job.kind = .selfTest ∧ (Flash.wrap32 (job.addr + job.cursor) % SECTOR = 0 ∧ job.erased = false) ∧
      job.work = do
        eraseSector (Flash.wrap32 (job.addr + job.cursor))
        return (0, true)) ∨
    (job.kind = .selfTest ∧ (Flash.wrap32 (job.addr + job.cursor) % SECTOR = 0 → job.erased = true) ∧
      job.work = do
        programPage (Flash.wrap32 (job.addr + job.cursor))
          ((List.range (min PAGE (job.len - job.cursor))).map fun i =>
            selftestByte (Flash.wrap32 (job.cursor + i)))
        return (min PAGE (job.len - job.cursor),
          if Flash.wrap32 (Flash.wrap32 (job.addr + job.cursor) + min PAGE (job.len - job.cursor)) %
            SECTOR = 0 then false else job.erased)) := by
  rw [work]
  cases hk : job.kind with
  | none => exact absurd hk hkind
  | erase => exact .inl ⟨rfl, rfl⟩
  | selfTest =>
    right
    by_cases hfirst : Flash.wrap32 (job.addr + job.cursor) % SECTOR = 0 ∧ job.erased = false
    · left
      refine ⟨rfl, hfirst, ?_⟩
      dsimp only
      rw [if_pos]
      rw [hfirst.2]
      exact ⟨hfirst.1, rfl⟩
    · right
      refine ⟨rfl, ?_, ?_⟩
      · intro hmod
        by_contra hne
        exact hfirst ⟨hmod, Bool.eq_false_of_not_eq_true hne⟩
      · dsimp only
        rw [if_neg]
        rintro ⟨hmod, hne⟩
        exact hfirst ⟨hmod, by simpa using hne⟩

lemma moves_inside_mono {α : Type} {x : Spi α} {lo n lo' n' : ℕ} (h : Moves (Inside lo n) x)
    (hlo : lo' ≤ lo) (hhi : lo + n ≤ lo' + n') : Moves (Inside lo' n') x :=
  fun c => (h c).widen hlo hhi

namespace Sound

lemma sector_fits (hq : q.Accepted c₀) (hlt : job.cursor < q.len) (hmod : job.cursor % SECTOR = 0) :
    job.cursor + SECTOR ≤ q.len := by
  have hlen := hq.aligned.2
  rw [SECTOR] at *
  omega

lemma work_inside (hq : q.Accepted c₀) (h : Sound c₀ q job c) (hlt : job.cursor < q.len) :
    Moves (Inside (q.addr + job.cursor) (q.len - job.cursor)) job.work := by
  obtain ⟨hkind, haddr, hlen⟩ := h.same
  have haligned := h.aligned
  have hwrap := hq.wrap32 h.cursor
  have hq₀ := hq.aligned.1
  have hpure {α β : Type} {x : Spi α} {b : β} {lo n : ℕ} (hx : Moves (Inside lo n) x) :
      Moves (Inside lo n) (do let _ ← x; return b) :=
    Moves.bind inside_trans hx fun _ => Moves.pure (Inside.refl _ _) _
  rcases work_cases (hkind ▸ hq.kind) with ⟨hk, hw⟩ | ⟨hk, ⟨hmod, -⟩, hw⟩ | ⟨hk, -, hw⟩
  · rw [hw, haddr, hwrap]
    rw [← hkind, if_pos hk] at haligned
    have hfits := sector_fits hq hlt haligned
    exact moves_inside_mono (hpure (eraseSector_inside _)) le_rfl (by omega)
  · rw [hw, haddr, hwrap]
    rw [haddr, hwrap] at hmod
    have hfits := sector_fits hq hlt (by rw [SECTOR] at *; omega)
    exact moves_inside_mono (hpure (eraseSector_inside _)) le_rfl (by omega)
  · rw [hw, haddr, hwrap, hlen]
    apply moves_inside_mono (hpure (programPage_inside _ _)) le_rfl
    rw [List.length_map, List.length_range]
    omega

lemma failed (hq : q.Accepted c₀) (h : Sound c₀ q job c) (hlt : job.cursor < q.len)
    (hw : job.work c = .error e c') :
    Sound c₀ q { job with error := some e, state := .failed } c' := by
  have hinside := Moves.of_error (h.work_inside hq hlt) hw
  have hbefore (i : ℕ) (hi : i < job.cursor) : c'.mem (q.addr + i) = c.mem (q.addr + i) :=
    hinside.mem _ (by omega)
  refine ⟨h.same, h.cursor, h.aligned, h.inside.trans (hinside.widen (by omega) (by omega)), ?_, ?_,
    ?_, ?_⟩
  · intro hfin
    cases hfin
  · intro hk i hi
    rw [hbefore i hi]
    exact h.blank hk i hi
  · intro hk ho i hi
    rw [hbefore i hi]
    exact h.filled hk ho i hi
  · intro _ _ hne
    exact absurd rfl hne

lemma erased_sector (hq : q.Accepted c₀) (h : Sound c₀ q job c) (hlt : job.cursor < q.len)
    (hk : q.kind = .erase) (hstate : job.state = .running)
    (hw : eraseSector (q.addr + job.cursor) c = .ok () c') :
    Sound c₀ q { job with cursor := job.cursor + SECTOR } c' := by
  have haligned := h.aligned
  rw [if_pos hk] at haligned
  have hfits := sector_fits hq hlt haligned
  have hinside := Moves.of_ok (eraseSector_inside _) hw
  refine ⟨h.same, hfits, ?_, h.inside.trans (hinside.widen (by omega) (by omega)), ?_, ?_, ?_, ?_⟩
  · rw [if_pos hk, Nat.add_mod_right]
    exact haligned
  · intro hfin
    rw [show ({ job with cursor := job.cursor + SECTOR } : Job).state = job.state from rfl,
      hstate] at hfin
    cases hfin
  · intro _ i hi
    have hi : i < job.cursor + SECTOR := hi
    rw [eraseSector_ok hw]
    split
    · rfl
    · exact h.blank hk i (by omega)
  · intro hs
    rw [hk] at hs
    cases hs
  · intro hs
    rw [hk] at hs
    cases hs

lemma erased_ahead (hq : q.Accepted c₀) (h : Sound c₀ q job c) (hlt : job.cursor < q.len)
    (hk : q.kind = .selfTest) (hmod : job.cursor % SECTOR = 0)
    (hw : eraseSector (q.addr + job.cursor) c = .ok () c') :
    Sound c₀ q { job with erased := true } c' := by
  have hfits := sector_fits hq hlt hmod
  have hinside := Moves.of_ok (eraseSector_inside _) hw
  refine ⟨h.same, h.cursor, h.aligned, h.inside.trans (hinside.widen (by omega) (by omega)), h.whole,
    ?_, ?_, ?_⟩
  · intro he
    rw [hk] at he
    cases he
  · intro _ ho i hi
    have hi : i < job.cursor := hi
    rw [hinside.mem _ (by omega)]
    exact h.filled hk ho i hi
  · intro _ _ _
    refine ⟨fun _ => rfl, ?_⟩
    intro _ i hlo hhi
    have hlo : job.cursor ≤ i := hlo
    have hhi : i < job.cursor / SECTOR * SECTOR + SECTOR := hhi
    rw [eraseSector_ok hw, if_pos]
    rw [SECTOR] at *
    omega

lemma same_sector {addr cursor : ℕ} (haddr : addr % SECTOR = 0) (hcursor : cursor % PAGE = 0)
    (h : (addr + cursor + PAGE) % SECTOR ≠ 0) : (cursor + PAGE) / SECTOR = cursor / SECTOR := by
  rw [SECTOR, PAGE] at *
  omega

lemma page_length (hq : q.Accepted c₀) (h : Sound c₀ q job c) (hlt : job.cursor < q.len)
    (hk : q.kind = .selfTest) : min PAGE (q.len - job.cursor) = PAGE := by
  have haligned := h.aligned
  have hlen := hq.aligned.2
  rw [if_neg (by rw [hk]; exact JobKind.noConfusion)] at haligned
  rw [SECTOR, PAGE] at *
  omega

lemma page (hq : q.Accepted c₀) (h : Sound c₀ q job c) (hlt : job.cursor < q.len)
    (hk : q.kind = .selfTest) (hstate : job.state = .running)
    (herased : (q.addr + job.cursor) % SECTOR = 0 → job.erased = true)
    (hw : programPage (q.addr + job.cursor)
      ((List.range PAGE).map fun i => selftestByte (Flash.wrap32 (job.cursor + i))) c = .ok () c') :
    Sound c₀ q { job with
      cursor := job.cursor + PAGE
      erased := if (q.addr + job.cursor + PAGE) % SECTOR = 0 then false else job.erased } c' := by
  have hpage := h.page_length hq hlt hk
  have haligned := h.aligned
  have hlen := hq.aligned
  have hinside := Moves.of_ok (programPage_inside _ _) hw
  rw [List.length_map, List.length_range] at hinside
  rw [if_neg (by rw [hk]; exact JobKind.noConfusion)] at haligned
  have hnext : job.cursor + PAGE ≤ q.len := by omega
  have hfits := hq.fits
  rw [FLASH_SIZE] at hfits
  have hsector (i : ℕ) (hi : i < job.cursor + PAGE) :
      i < job.cursor / SECTOR * SECTOR + SECTOR := by
    rw [SECTOR, PAGE] at *
    omega
  refine ⟨h.same, hnext, ?_, h.inside.trans (hinside.widen (by omega) (by omega)), ?_, ?_, ?_, ?_⟩
  · change (job.cursor + PAGE) % (if q.kind = .erase then SECTOR else PAGE) = 0
    rw [if_neg (by rw [hk]; exact JobKind.noConfusion), Nat.add_mod_right]
    exact haligned
  · intro hfin
    have hfin : job.state = .finished := hfin
    rw [hstate] at hfin
    cases hfin
  · intro he
    rw [hk] at he
    cases he
  · intro _ ho i hi
    have hi : i < job.cursor + PAGE := hi
    by_cases hold : i < job.cursor
    · rw [hinside.mem _ (by omega)]
      exact h.filled hk ho i hold
    · obtain ⟨hmid, hblank⟩ := h.ready hk ho (by rw [hstate]; exact JobState.noConfusion)
      have he : job.erased = true := by
        by_cases hmod : job.cursor % SECTOR = 0
        · apply herased
          rw [SECTOR] at *
          omega
        · exact hmid hmod
      have hbyte : ((List.range PAGE).map fun i => selftestByte (Flash.wrap32 (job.cursor + i))).getD
          (q.addr + i - (q.addr + job.cursor)) 0xFF = selftestByte i := by
        rw [List.getD_eq_getElem _ _ (by rw [List.length_map, List.length_range]; omega),
          List.getElem_map, List.getElem_range]
        congr 1
        rw [Flash.wrap32]
        omega
      rw [programPage_obeyed (h.inside.obeys ho) hw, if_pos
        (by rw [List.length_map, List.length_range]; omega), hbyte,
        hblank he i (by omega) (hsector i hi)]
      exact BitVec.allOnes_and
  · intro _ ho _
    obtain ⟨hmid, hblank⟩ := h.ready hk ho (by rw [hstate]; exact JobState.noConfusion)
    refine ⟨?_, ?_⟩
    · intro hmod
      have hmod : (job.cursor + PAGE) % SECTOR ≠ 0 := hmod
      have he : job.erased = true := by
        by_cases hstart : job.cursor % SECTOR = 0
        · apply herased
          rw [SECTOR] at *
          omega
        · exact hmid hstart
      dsimp only
      rw [if_neg, he]
      rw [SECTOR] at *
      omega
    · intro he i hlo hhi
      dsimp only at he hlo hhi
      split at he
      · cases he
      · rename_i hmod
        rw [hinside.mem _ (by omega)]
        apply hblank he i (by omega)
        rw [← same_sector hlen.1 haligned hmod]
        exact hhi

lemma running (h : Sound c₀ q job c) (hp : job.pending = true) :
    Sound c₀ q { job with state := .running } c := by
  refine ⟨h.same, h.cursor, h.aligned, h.inside, ?_, h.blank, h.filled, ?_⟩
  · intro hfin
    cases hfin
  · intro hk ho _
    apply h.ready hk ho
    intro hf
    rw [pending, hf] at hp
    cases hp

lemma finished (h : Sound c₀ q job c) (hstate : job.state = .running) (hend : job.cursor = q.len)
    (crc : BitVec 32) : Sound c₀ q { job with crc := crc, state := .finished } c := by
  refine ⟨h.same, h.cursor, h.aligned, h.inside, fun _ => hend, h.blank, h.filled, ?_⟩
  intro hk ho _
  exact h.ready hk ho (by rw [hstate]; exact JobState.noConfusion)

lemma advance (hq : q.Accepted c₀) (h : Sound c₀ q job c) (hlt : job.cursor < q.len)
    (hstate : job.state = .running) (hw : job.work c = .ok (adv, erased) c') :
    Sound c₀ q { job with cursor := Flash.wrap32 (job.cursor + adv), erased := erased } c' ∧
      Job.remaining { job with cursor := Flash.wrap32 (job.cursor + adv), erased := erased } <
        job.remaining := by
  obtain ⟨hkind, haddr, hlen⟩ := h.same
  have hwrap := hq.wrap32 h.cursor
  have hfits := hq.fits
  rw [FLASH_SIZE] at hfits
  rcases work_cases (hkind ▸ hq.kind) with ⟨hk, heq⟩ | ⟨hk, ⟨hmod, herased⟩, heq⟩ | ⟨hk, herased, heq⟩
  · rw [heq] at hw
    obtain ⟨⟨⟩, t, ht, hpure⟩ := bind_ok hw
    cases hpure
    rw [haddr, hwrap] at ht
    have hstep := h.erased_sector hq hlt (hkind ▸ hk) hstate ht
    have hnext := hstep.cursor
    dsimp only at hnext
    rw [Flash.wrap32, Nat.mod_eq_of_lt (by omega)]
    refine ⟨hstep, ?_⟩
    rw [remaining, remaining, hlen]
    have : 0 < SECTOR := by decide
    dsimp only
    omega
  · rw [heq] at hw
    obtain ⟨⟨⟩, t, ht, hpure⟩ := bind_ok hw
    cases hpure
    rw [haddr, hwrap] at ht hmod
    have hstart : job.cursor % SECTOR = 0 := by
      have haligned := hq.aligned.1
      rw [SECTOR] at *
      omega
    have hstep := h.erased_ahead hq hlt (hkind ▸ hk) hstart ht
    rw [Nat.add_zero, Flash.wrap32, Nat.mod_eq_of_lt (by omega)]
    refine ⟨hstep, ?_⟩
    rw [remaining, remaining, herased]
    dsimp only
    rw [if_pos rfl, if_neg Bool.false_ne_true]
    omega
  · have hpage := h.page_length hq hlt (hkind ▸ hk)
    rw [haddr, hwrap] at herased
    rw [heq, haddr, hwrap, hlen, hpage] at hw
    obtain ⟨⟨⟩, t, ht, hpure⟩ := bind_ok hw
    cases hpure
    have hstep := h.page hq hlt (hkind ▸ hk) hstate herased ht
    have hnext := hstep.cursor
    dsimp only at hnext
    have haddr' : Flash.wrap32 (q.addr + job.cursor + PAGE) = q.addr + job.cursor + PAGE :=
      Nat.mod_eq_of_lt (by omega)
    have hcursor' : Flash.wrap32 (job.cursor + PAGE) = job.cursor + PAGE :=
      Nat.mod_eq_of_lt (by omega)
    rw [haddr', hcursor']
    refine ⟨hstep, ?_⟩
    rw [remaining, remaining, hlen]
    have : PAGE = 256 := rfl
    dsimp only
    split <;> split <;> omega

lemma tick (hq : q.Accepted c₀) (h : Sound c₀ q job c) (hp : job.pending = true) :
    Sound c₀ q (job.tick c).1 (job.tick c).2 ∧ ((job.tick c).1.Over ∨
      (job.tick c).1.pending = true ∧ (job.tick c).1.remaining < job.remaining) := by
  have hlen := h.same.2.2
  have hcursor := h.cursor
  have hr := h.running hp
  rw [Job.tick, hp]
  simp only [Bool.not_true, Bool.false_eq_true, if_false]
  by_cases hend : job.len ≤ job.cursor
  · rw [if_pos hend]
    have hwhole : job.cursor = q.len := by omega
    have hdone := hr.finished rfl hwhole (crc32Region c job.addr job.len)
    exact ⟨hdone, .inl (.inl rfl)⟩
  rw [if_neg hend]
  have hlt : job.cursor < q.len := by omega
  cases hw : work { job with state := .running } c with
  | error e c' =>
    have hfailed := hr.failed hq hlt hw
    exact ⟨hfailed, .inl (.inr rfl)⟩
  | ok p c' =>
    obtain ⟨hstep, hless⟩ := hr.advance hq hlt rfl hw
    exact ⟨hstep, .inr ⟨rfl, hless⟩⟩

end Sound

lemma queue_ok {job q : Job} {c : Chip} {kind : JobKind} {addr len : BitVec 32}
    (hkind : kind ≠ .none) (h : job.queue c kind addr len = .ok q) :
    q = { kind := kind, state := .queued, addr := addr.toNat, len := len.toNat } ∧
      q.Accepted c := by
  rw [queue] at h
  split at h
  · cases h
  · next hw =>
    split at h
    · cases h
    · cases h
      refine ⟨rfl, hkind, ?_, ?_⟩
      · obtain ⟨ha, hl, -⟩ := regionIsWritable_ok hw
        exact ⟨ha, hl⟩
      · obtain ⟨-, -, -, hr⟩ := regionIsWritable_ok hw
        dsimp only
        rw [FLASH_SIZE]
        simp only [APP_BASE, APP_LEN, SCRATCH_BASE, SCRATCH_LEN] at hr
        omega

lemma Accepted.sound {q : Job} {c : Chip} (h : q.state = .queued) (hcursor : q.cursor = 0)
    (herased : q.erased = false) : Sound c q q c := by
  refine ⟨⟨rfl, rfl, rfl⟩, ?_, ?_, Inside.refl _ _ _, ?_, ?_, ?_, ?_⟩
  · rw [hcursor]
    exact Nat.zero_le _
  · rw [hcursor, Nat.zero_mod]
  · intro hf
    rw [h] at hf
    cases hf
  · intro _ i hi
    omega
  · intro _ _ i hi
    omega
  · intro _ _ _
    refine ⟨?_, ?_⟩
    · intro hmod
      rw [hcursor, Nat.zero_mod] at hmod
      exact absurd rfl hmod
    · intro he
      rw [herased] at he
      cases he

lemma over_tick {job : Job} (c : Chip) (h : job.Over) : job.tick c = (job, c) := by
  have hp : job.pending = false := by
    rcases h with h | h <;> rw [pending, h] <;> rfl
  rw [Job.tick, hp]
  rfl

lemma over_ticks {p : Job × Chip} (h : p.1.Over) (n : ℕ) : ticks n p = p :=
  Function.iterate_fixed (over_tick p.2 h) n

lemma over_or_pending {job : Job} (h : job.state ≠ .idle) : job.Over ∨ job.pending = true := by
  rw [Over, pending]
  cases hs : job.state with
  | idle => exact absurd hs h
  | queued => exact .inr rfl
  | running => exact .inr rfl
  | finished => exact .inl (.inl rfl)
  | failed => exact .inl (.inr rfl)

lemma Sound.ticks {q : Job} {c₀ : Chip} (hq : q.Accepted c₀) (n : ℕ) : ∀ {p : Job × Chip},
    Sound c₀ q p.1 p.2 → p.1.Over ∨ p.1.pending = true →
      Sound c₀ q (ticks n p).1 (ticks n p).2 := by
  induction n with
  | zero =>
    intro p h _
    exact h
  | succ n ih =>
    intro p h hp
    rcases hp with hover | hpending
    · rw [over_ticks hover]
      exact h
    · obtain ⟨hnext, hgoes⟩ := h.tick hq hpending
      exact ih hnext (hgoes.imp_right And.left)

lemma Sound.ends {q : Job} {c₀ : Chip} (hq : q.Accepted c₀) (n : ℕ) : ∀ {p : Job × Chip},
    Sound c₀ q p.1 p.2 → p.1.Over ∨ p.1.pending = true ∧ p.1.remaining ≤ n →
      (Job.ticks (n + 1) p).1.Over := by
  induction n with
  | zero =>
    intro p h hp
    rcases hp with hover | ⟨hpending, hn⟩
    · rw [over_ticks hover]
      exact hover
    · obtain ⟨-, hover | ⟨-, hless⟩⟩ := h.tick hq hpending
      · exact hover
      · omega
  | succ n ih =>
    intro p h hp
    rcases hp with hover | ⟨hpending, hn⟩
    · rw [over_ticks hover]
      exact hover
    · obtain ⟨hnext, hgoes⟩ := h.tick hq hpending
      apply ih hnext
      apply hgoes.imp_right
      rintro ⟨hstill, hless⟩
      exact ⟨hstill, by omega⟩

/-- A job that is queued for an erase or a self-test ends, and does what it was queued for. -/
theorem queued_job_ends {job q : Job} {c : Chip} {kind : JobKind} {addr len : BitVec 32}
    (hkind : kind ≠ .none) (h : job.queue c kind addr len = .ok q) :
    (∃ n, ∀ m, n ≤ m → (ticks m (q, c)).1.Over) ∧
    ∀ n,
      (ticks n (q, c)).1.cursor ≤ len.toNat ∧
      (∀ a, ¬ (addr.toNat ≤ a ∧ a < addr.toNat + len.toNat) →
        (ticks n (q, c)).2.mem a = c.mem a) ∧
      (kind = .erase → (ticks n (q, c)).1.state = .finished →
        ∀ a, addr.toNat ≤ a → a < addr.toNat + len.toNat → (ticks n (q, c)).2.mem a = 0xFF) ∧
      (kind = .selfTest → c.Obeys → (ticks n (q, c)).1.state = .finished →
        verifySelftest (ticks n (q, c)).2 addr.toNat len.toNat = .ok ()) := by
  obtain ⟨hjob, hq⟩ := queue_ok hkind h
  have hstart : Sound c q q c := Accepted.sound (by rw [hjob]) (by rw [hjob]) (by rw [hjob])
  have hpending : q.Over ∨ q.pending = true := over_or_pending (by rw [hjob]; exact JobState.noConfusion)
  have hkind' : q.kind = kind := by rw [hjob]
  have haddr : q.addr = addr.toNat := by rw [hjob]
  have hlen : q.len = len.toNat := by rw [hjob]
  constructor
  · use q.remaining + 1
    intro m hm
    obtain ⟨k, rfl⟩ := Nat.exists_eq_add_of_le hm
    rw [Nat.add_comm, ticks, Function.iterate_add_apply]
    have hends := @Sound.ends q c hq q.remaining (q, c) hstart (hpending.imp_right (⟨·, le_rfl⟩))
    rw [← ticks, ← ticks, over_ticks hends]
    exact hends
  · intro n
    have hsound := @Sound.ticks q c hq n (q, c) hstart hpending
    rw [← haddr, ← hlen]
    refine ⟨hsound.cursor, hsound.inside.mem, ?_, ?_⟩
    · intro hk hfin a hlo hhi
      have hcursor := hsound.whole hfin
      have hblank := hsound.blank (hkind'.trans hk) (a - q.addr) (by omega)
      rwa [Nat.add_sub_cancel' hlo] at hblank
    · intro hk ho hfin
      have hcursor := hsound.whole hfin
      rw [verifySelftest, List.find?_eq_none.mpr]
      intro i hi
      have hfilled := hsound.filled (hkind'.trans hk) ho i (by
        rw [List.mem_range] at hi
        omega)
      rw [Chip.readByte, hfilled]
      simp

/-- A blank part that answers every command well. -/
def freshChip : Chip := ⟨fun _ => 0xFF, 0, fun _ => Answer.good⟩

def scratchJob (kind : JobKind) : Job :=
  { kind := kind, state := .queued, addr := SCRATCH_BASE, len := SECTOR }

theorem scratch_erase_ends :
    (∃ n, ∀ m, n ≤ m → (ticks m (scratchJob .erase, freshChip)).1.Over) ∧
    ∀ n,
      (ticks n (scratchJob .erase, freshChip)).1.cursor ≤ (0x1000#32).toNat ∧
      (∀ a, ¬ ((0x360000#32).toNat ≤ a ∧ a < (0x360000#32).toNat + (0x1000#32).toNat) →
        (ticks n (scratchJob .erase, freshChip)).2.mem a = freshChip.mem a) ∧
      (JobKind.erase = .erase → (ticks n (scratchJob .erase, freshChip)).1.state = .finished →
        ∀ a, (0x360000#32).toNat ≤ a → a < (0x360000#32).toNat + (0x1000#32).toNat →
          (ticks n (scratchJob .erase, freshChip)).2.mem a = 0xFF) ∧
      (JobKind.erase = .selfTest → freshChip.Obeys →
        (ticks n (scratchJob .erase, freshChip)).1.state = .finished →
        verifySelftest (ticks n (scratchJob .erase, freshChip)).2 (0x360000#32).toNat
          (0x1000#32).toNat = .ok ()) :=
  @queued_job_ends {} _ _ _ _ _ JobKind.noConfusion rfl

lemma none_tick (c : Chip) : (scratchJob .none).tick c =
    ({ scratchJob .none with state := .running }, c) ∧
    Job.tick { scratchJob .none with state := .running } c =
      ({ scratchJob .none with state := .running }, c) :=
  ⟨rfl, rfl⟩

lemma none_ticks (c : Chip) (n : ℕ) :
    ticks n ({ scratchJob .none with state := .running }, c) =
      ({ scratchJob .none with state := .running }, c) := by
  induction n with
  | zero => rfl
  | succ n ih =>
    rw [ticks, Function.iterate_succ_apply, ← ticks]
    dsimp only
    rw [(none_tick c).2, ih]

theorem none_never_ends :
    Job.queue {} freshChip .none 0x360000#32 0x1000#32 = .ok (scratchJob .none) ∧
      ∀ n, ¬ (ticks n (scratchJob .none, freshChip)).1.Over := by
  refine ⟨rfl, ?_⟩
  intro n
  have hnot : ¬ (scratchJob .none).Over ∧
      ¬ Job.Over { scratchJob .none with state := .running } := by
    constructor <;> rintro (h | h) <;> cases h
  cases n with
  | zero => exact hnot.1
  | succ n =>
    rw [ticks, Function.iterate_succ_apply]
    dsimp only
    rw [(none_tick freshChip).1, ← ticks, none_ticks]
    exact hnot.2

end Job

end Ledwall.Flash
