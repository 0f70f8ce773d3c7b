import Ledwall.Flash.WireCommands

/-! The two writers on the flash, interrupted anywhere: what they leave is what the same calls leave when
they are made one after another. -/

namespace Ledwall.Flash.Registers

open Ledwall.Wire Ledwall.Library.Processes Ledwall.Library.Processes.Proc Ledwall.Library.Runs

structure Machine where
  sys : System := {}
  part : Part

/-- The access that the running code is about to make. -/
def System.access (s : System) : Option Access :=
  match s.isr with
  | some (.access a _) => some a
  | some _ => none
  | none =>
    match s.main with
    | some (.access a _) => some a
    | _ => none

/-- What an access reads is what the part answers. -/
def Machine.Step (b : Board) (m : Machine) (e : Event) (m' : Machine) : Prop :=
  m'.sys = m.sys.next b e ∧
    match e with
    | .go w =>
      match m.sys.access with
      | some a => m.part.Step a w m'.part
      | none => m'.part = m.part
    | _ => m'.part = m.part

/-- A call, or the close of the socket behind a load that is done. -/
inductive Atomic
  | call (e : Call)
  | close

def perform (u : Updater) : Atomic → Updater
  | .call e => u.call e
  | .close => { u with socket := if u.socket.isOpen then u.socket.close else u.socket }

/-- A card that has just started. -/
def fresh (mem : ℕ → Byte) (answers : ℕ → Answer) : Updater := ⟨{}, {}, {}, ⟨mem, 0, answers⟩⟩

/-- The same card, where the chip has been given `n` commands and has these answers. -/
def withAnswers (u : Updater) (n : ℕ) (answers : ℕ → Answer) : Updater :=
  { u with chip := ⟨u.chip.mem, n, answers⟩ }

/-- The calls `ops` come to `u` on a chip that has the answers `as`. -/
def Leaves (mem : ℕ → Byte) (ops : List Atomic) (as : List Answer) (u : Updater) : Prop :=
  ∀ answers, (∀ i < as.length, answers i = as.getD i .good) →
    ops.foldl perform (fresh mem answers) = withAnswers u as.length answers

lemma Leaves.concat {mem : ℕ → Byte} {ops : List Atomic} {as as' : List Answer} {u u' : Updater}
    {op : Atomic} (h : Leaves mem ops as u)
    (hop : ∀ n answers, (∀ i < as'.length, answers (n + i) = as'.getD i .good) →
      perform (withAnswers u n answers) op = withAnswers u' (n + as'.length) answers) :
    Leaves mem (ops ++ [op]) (as ++ as') u' := by
  intro answers hanswers
  rw [List.foldl_append, List.length_append, h answers]
  · refine hop _ answers ?_
    intro i hi
    rw [hanswers _ (by rw [List.length_append]; omega),
      List.getD_append_right _ _ _ _ (Nat.le_add_right _ _), Nat.add_sub_cancel_left]
  · intro i hi
    rw [hanswers i (by rw [List.length_append]; omega), List.getD_append _ _ _ _ hi]

lemma Leaves.silent {mem : ℕ → Byte} {ops : List Atomic} {as : List Answer} {u u' : Updater}
    {op : Atomic} (h : Leaves mem ops as u)
    (hop : ∀ n answers, perform (withAnswers u n answers) op = withAnswers u' n answers) :
    Leaves mem (ops ++ [op]) as u' := by
  have hconcat : Leaves mem (ops ++ [op]) (as ++ []) u' := h.concat fun n answers _ => hop n answers
  rwa [List.append_nil] at hconcat

/-- What the code of an interrupt comes to that makes no command. -/
def answer (u : Updater) : Interrupt → Outcome
  | .queue kind addr len => .queued (u.chip.regionIsWritable addr.toNat len.toNat) kind addr len
  | .start server filename =>
    if u.loader.isActive then .busy
    else .started (u.chip.regionIsWritable APP_BASE APP_LEN) server filename
  | .poll _ =>
    if u.loader.state = .finished then
      .closed (if u.socket.isOpen then u.socket.close else u.socket)
    else .busy

/-- The code of an interrupt under way: it reads the flash at most, or it is a poll that writes while
no tick is under way. -/
inductive Handling (m : Machine) (u : Updater) (p : Steps Outcome) : Prop
  | reads (i : Interrupt) (hreads : Part.Reads m.part (answer u i) p)
      (hrests : m.sys.main = none → m.part.bus.cs = false ∧ m.part.mem = u.chip.mem)
  | polls (around : BitstreamLoader.Around) (hmain : m.sys.main = none)
      (hdoes : Part.Does (fun q o => ∃ r, o = .polled r ∧
        Played (fun c => polledOf (u.loader.poll u.socket c around)) u.chip.mem q r) m.part p)

/-- The card where the code under way has not yet begun is `u`. -/
structure Tracks (m : Machine) (u : Updater) : Prop where
  loader : m.sys.loader = u.loader
  socket : m.sys.socket = u.socket
  guarded : Guarded u.chip (holding m.part.mem)
  job : m.sys.main = none → m.sys.job = u.job
  ticks : ∀ p ∈ m.sys.main, u.job.pending = true ∧ m.sys.job = { u.job with state := .running } ∧
    Part.Does (fun q f => Played u.job.tick u.chip.mem q (f { u.job with state := .running })) m.part p
  handles : ∀ p ∈ m.sys.isr, Handling m u p
  rests : m.sys.main = none → m.sys.isr = none → m.part.bus.cs = false ∧ m.part.mem = u.chip.mem

/-- The machine is where some calls lead, and what is under way comes to the next one. -/
def Reached (mem : ℕ → Byte) (m : Machine) : Prop := ∃ ops as u, Leaves mem ops as u ∧ Tracks m u

namespace Tracks

variable {b : Board} {m m' : Machine} {u : Updater}

lemma interrupt (h : Tracks m u) (hinv : m.sys.Inv) (hidle : m.sys.isr = none) (i : Interrupt) :
    Handling m u (m.sys.handler b i) := by
  have hregion (addr len : ℕ) : Part.Reads m.part (u.chip.regionIsWritable addr len)
      (regionIsWritable addr len).run := by
    rw [← h.guarded.writable]
    exact Part.regionIsWritable_reads m.part addr len
  have hrests (hmain : m.sys.main = none) := h.rests hmain hidle
  cases i with
  | queue kind addr len =>
    refine .reads (.queue kind addr len) ?_ hrests
    exact Finds.bind (hregion _ _) ⟨rfl, rfl⟩
  | start server filename =>
    refine .reads (.start server filename) ?_ hrests
    rw [System.handler, answer, h.loader]
    split
    · exact ⟨rfl, rfl⟩
    · exact Finds.bind (hregion _ _) ⟨rfl, rfl⟩
  | poll around =>
    rw [System.handler, h.loader, h.socket]
    split
    · next hdone =>
      refine .reads (.poll around) ?_ hrests
      rw [answer, if_pos hdone]
      exact ⟨rfl, rfl⟩
    next hdone =>
    split
    · next hactive =>
      have hmain : m.sys.main = none := by
        cases hmain : m.sys.main with
        | none => rfl
        | some p =>
          have hoff := hinv.isActive_of_main hmain
          rw [h.loader, hactive] at hoff
          cases hoff
      obtain ⟨hcs, hmem⟩ := h.rests hmain hidle
      refine .polls around hmain (Within.bind ?_ (poll_does u.loader u.socket around hcs))
      intro q r hr
      rw [hmem] at hr
      exact ⟨r, rfl, hr⟩
    · refine .reads (.poll around) ?_ hrests
      rw [answer, if_neg hdone]
      exact ⟨rfl, rfl⟩

section Steps

variable {mem : ℕ → Byte} {ops : List Atomic} {as : List Answer}

lemma arrive (h : Tracks m u) (hl : Leaves mem ops as u) (hidle : m.sys.isr = none) (hopen : m.sys.socket.isOpen = true)
    (d : Datagram)
    (hsys : m'.sys = { m.sys with socket := { m.sys.socket with rx := m.sys.socket.rx ++ [d] } })
    (hpart : m'.part = m.part) : Reached mem m' := by
  refine ⟨ops ++ [.call (.arrive d)], as,
    { u with socket := { u.socket with rx := u.socket.rx ++ [d] } }, hl.silent ?_, ?_⟩
  · intro n answers
    have hopen' : (withAnswers u n answers).socket.isOpen = true := by
      rw [← hopen, h.socket]
      rfl
    rw [perform, Updater.call, if_pos hopen']
    rfl
  · constructor
    · rw [hsys]
      exact h.loader
    · rw [hsys, h.socket]
    · rw [hpart]
      exact h.guarded
    · rw [hsys]
      exact h.job
    · rw [hsys, hpart]
      exact h.ticks
    · rw [hsys]
      intro p hp
      cases hidle.symm.trans hp
    · rw [hsys, hpart]
      exact h.rests

lemma begin_interrupt (h : Tracks m u) (hinv : m.sys.Inv) (hidle : m.sys.isr = none) (i : Interrupt)
    (hsys : m'.sys = { m.sys with isr := some (m.sys.handler b i) }) (hpart : m'.part = m.part) :
    Tracks m' u := by
  have hm' : m' = ⟨{ m.sys with isr := some (m.sys.handler b i) }, m.part⟩ := by
    cases m'
    cases hsys
    cases hpart
    rfl
  subst hm'
  refine ⟨h.loader, h.socket, h.guarded, h.job, h.ticks, ?_, fun _ => nofun⟩
  rintro p ⟨⟩
  cases h.interrupt (b := b) hinv hidle i with
  | reads i hreads hrests => exact .reads i hreads hrests
  | polls around hmain hdoes => exact .polls around hmain hdoes

lemma begin_tick (h : Tracks m u) (hidle : m.sys.isr = none) (hmain : m.sys.main = none)
    (hpending : m.sys.job.pending = true)
    (hsys : m'.sys = { m.sys with
      job := { m.sys.job with state := .running }
      main := some (Job.tick b { m.sys.job with state := .running }) })
    (hpart : m'.part = m.part) : Tracks m' u := by
  have hjob := h.job hmain
  rw [hjob] at hpending
  obtain ⟨hcs, hmem⟩ := h.rests hmain hidle
  constructor
  · rw [hsys]
    exact h.loader
  · rw [hsys]
    exact h.socket
  · rw [hpart]
    exact h.guarded
  · rw [hsys]
    exact nofun
  · rw [hsys, hpart]
    rintro p ⟨⟩
    rw [hjob, ← hmem]
    exact ⟨hpending, rfl, tick_does hpending hcs⟩
  · rw [hsys]
    intro p hp
    exact absurd (hidle.symm.trans hp) nofun
  · rw [hsys]
    exact nofun

/-- An access of the main loop. -/
lemma go_main (h : Tracks m u) {a : Access} {k : Word → Steps (Job → Job)} {w : Word}
    (hmain : m.sys.main = some (.access a k))
    (hsys : m'.sys = { m.sys with
      main := some (k w)
      isr := none
      trace := m.sys.trace ++ [(.mainLoop, a)] })
    (hpart : m.part.Step a w m'.part) : Tracks m' u := by
  obtain ⟨hpending, hjob, hspares, hdoes⟩ := h.ticks _ hmain
  constructor
  · rw [hsys]
    exact h.loader
  · rw [hsys]
    exact h.socket
  · exact h.guarded.trans (hpart.guarded hspares)
  · rw [hsys]
    exact nofun
  · rw [hsys]
    rintro p ⟨⟩
    exact ⟨hpending, hjob, hdoes w _ hpart⟩
  · rw [hsys]
    exact nofun
  · rw [hsys]
    exact nofun

/-- An access of an interrupt's code. -/
lemma go_interrupt (h : Tracks m u) {a : Access} {k : Word → Steps Outcome} {w : Word}
    (hisr : m.sys.isr = some (.access a k))
    (hsys : m'.sys = { m.sys with isr := some (k w), trace := m.sys.trace ++ [(.interrupt, a)] })
    (hpart : m.part.Step a w m'.part) : Tracks m' u := by
  have hisr' : ∀ p ∈ m'.sys.isr, p = k w := by
    rw [hsys]
    rintro p ⟨⟩
    rfl
  cases h.handles _ hisr with
  | reads i hreads hrests =>
    obtain ⟨hsilent, hk⟩ := hreads
    have hsame := hpart.eq_self hsilent
    have hk := hk w _ hpart
    constructor
    · rw [hsys]
      exact h.loader
    · rw [hsys]
      exact h.socket
    · rw [hsame]
      exact h.guarded
    · rw [hsys]
      exact h.job
    · rw [hsys, hsame]
      exact h.ticks
    · intro p hp
      cases hisr' p hp
      refine .reads i ?_ ?_
      · rw [hsame] at hk ⊢
        exact hk
      · rw [hsys, hsame]
        exact hrests
    · rw [hsys]
      exact fun _ => nofun
  | polls around hmain hdoes =>
    obtain ⟨hspares, hk⟩ := hdoes
    constructor
    · rw [hsys]
      exact h.loader
    · rw [hsys]
      exact h.socket
    · exact h.guarded.trans (hpart.guarded hspares)
    · rw [hsys]
      exact h.job
    · rw [hsys]
      intro p hp
      cases hmain.symm.trans hp
    · intro p hp
      cases hisr' p hp
      refine .polls around ?_ (hk w _ hpart)
      rw [hsys]
      exact hmain
    · rw [hsys]
      exact fun _ => nofun

/-- The end of a tick. -/
lemma end_main (h : Tracks m u) (hl : Leaves mem ops as u) {f : Job → Job}
    (hmain : m.sys.main = some (.ret f))
    (hsys : m'.sys = { m.sys with main := none, isr := none, job := f m.sys.job }) (hpart : m'.part = m.part) :
    Reached mem m' := by
  obtain ⟨-, hjob, hcs, as', has⟩ := h.ticks _ hmain
  refine ⟨ops ++ [.call .tick], as ++ as',
    { u with job := f { u.job with state := .running }, chip := holding m.part.mem }, hl.concat ?_, ?_⟩
  · intro n answers hanswers
    have htick := has n answers hanswers
    change (⟨(u.job.tick ⟨u.chip.mem, n, answers⟩).1, u.loader, u.socket,
      (u.job.tick ⟨u.chip.mem, n, answers⟩).2⟩ : Updater) = _
    rw [htick]
    rfl
  · constructor
    · rw [hsys]
      exact h.loader
    · rw [hsys]
      exact h.socket
    · rw [hpart]
      exact .refl _
    · rw [hsys, hjob]
      exact fun _ => rfl
    · rw [hsys]
      exact nofun
    · rw [hsys]
      intro p hp
      cases hp
    · rw [hpart]
      exact fun _ _ => ⟨hcs, rfl⟩

/-- What the end of an interrupt's code stores is what the call changes. -/
lemma stored (h : Tracks m u) (hl : Leaves mem ops as u) {s : System} (u' : Updater) (op : Atomic)
    (hsys : m'.sys = s) (hpart : m'.part = m.part)
    (hop : ∀ n answers, perform (withAnswers u n answers) op = withAnswers u' n answers)
    (hchip : u'.chip = u.chip) (hloader : s.loader = u'.loader) (hsocket : s.socket = u'.socket)
    (hmain : s.main = m.sys.main) (hisr : s.isr = none) (hnone : m.sys.main = none → s.job = u'.job)
    (hsome : m.sys.main ≠ none → s.job = m.sys.job ∧ u'.job = u.job)
    (hrests : m.sys.main = none → m.part.bus.cs = false ∧ m.part.mem = u.chip.mem) :
    Reached mem m' := by
  refine ⟨ops ++ [op], as, u', hl.silent hop, ?_⟩
  subst hsys
  constructor
  · exact hloader
  · exact hsocket
  · rw [hchip, hpart]
    exact h.guarded
  · rw [hmain]
    exact hnone
  · intro p hp
    rw [hmain] at hp
    have hbusy : m.sys.main ≠ none := by
      rw [Option.mem_def.mp hp]
      exact nofun
    obtain ⟨hjob, hjob'⟩ := hsome hbusy
    rw [hjob, hjob', hchip, hpart]
    exact h.ticks p hp
  · rw [hisr]
    exact nofun
  · rw [hmain, hpart, hchip]
    exact fun hm _ => hrests hm

/-- The end of an interrupt's code that changes nothing. -/
lemma passed (h : Tracks m u) (hl : Leaves mem ops as u)
    (hrests : m.sys.main = none → m.part.bus.cs = false ∧ m.part.mem = u.chip.mem)
    (hsys : m'.sys = { m.sys with isr := none }) (hpart : m'.part = m.part) : Reached mem m' := by
  refine ⟨ops, as, u, hl, ?_⟩
  constructor
  · rw [hsys]
    exact h.loader
  · rw [hsys]
    exact h.socket
  · rw [hpart]
    exact h.guarded
  · rw [hsys]
    exact h.job
  · rw [hsys, hpart]
    exact h.ticks
  · rw [hsys]
    exact nofun
  · rw [hsys, hpart]
    exact fun hm _ => hrests hm

/-- The end of an interrupt's code that made no command. -/
lemma end_reads (h : Tracks m u) (hl : Leaves mem ops as u) (i : Interrupt)
    (hrests : m.sys.main = none → m.part.bus.cs = false ∧ m.part.mem = u.chip.mem)
    (hsys : m'.sys = ({ m.sys with isr := none } : System).store (answer u i))
    (hpart : m'.part = m.part) : Reached mem m' := by
  have hregion (n : ℕ) (answers : ℕ → Answer) (addr len : ℕ) :
      (withAnswers u n answers).chip.regionIsWritable addr len = u.chip.regionIsWritable addr len := rfl
  cases i with
  | queue kind addr len =>
    rw [answer] at hsys
    cases hw : u.chip.regionIsWritable addr.toNat len.toNat with
    | error e =>
      rw [hw] at hsys
      exact h.passed hl hrests hsys hpart
    | ok v =>
      rw [hw, System.store] at hsys
      have hpending : m.sys.job.pending = u.job.pending := by
        cases hmain : m.sys.main with
        | none => rw [h.job hmain]
        | some p =>
          obtain ⟨hp, hjob, -⟩ := h.ticks p hmain
          rw [hjob, hp]
          rfl
      dsimp only at hsys
      split at hsys
      · exact h.passed hl hrests hsys hpart
      next hfree =>
        have hu : ¬ u.job.pending = true := by rwa [hpending] at hfree
        have hmain : m.sys.main = none := by
          cases hmain : m.sys.main with
          | none => rfl
          | some p => exact absurd (h.ticks p hmain).1 hu
        refine h.stored hl
          { u with job := { kind := kind, state := .queued, addr := addr.toNat, len := len.toNat } }
          (.call (.queue kind addr len)) hsys hpart ?_ rfl h.loader h.socket rfl rfl (fun _ => rfl) (fun hm => absurd hmain hm) hrests
        intro n answers
        rw [perform, Updater.call, Flash.Job.queue, hregion, hw]
        have hfree' : ¬ (withAnswers u n answers).job.pending = true := hu
        dsimp only
        rw [if_neg hfree']
        rfl
  | start server filename =>
    rw [answer] at hsys
    split at hsys
    · exact h.passed hl hrests hsys hpart
    cases hw : u.chip.regionIsWritable APP_BASE APP_LEN with
    | error e =>
      rw [hw] at hsys
      exact h.passed hl hrests hsys hpart
    | ok v =>
      rw [hw, System.store] at hsys
      refine h.stored hl { u with loader := (BitstreamLoader.begin u.loader server filename).2 }
        (.call (.start server filename)) hsys hpart ?_ rfl ?_ h.socket rfl rfl h.job (fun _ => ⟨rfl, rfl⟩) hrests
      · intro n answers
        rw [perform, Updater.call, Flash.BitstreamLoader.start]
        rw [hregion, hw]
        rfl
      · exact congrArg (fun l => (BitstreamLoader.begin l server filename).2) h.loader
  | poll around =>
    rw [answer] at hsys
    split at hsys
    · refine h.stored hl { u with socket := if u.socket.isOpen then u.socket.close else u.socket }
        .close hsys hpart ?_ rfl h.loader rfl rfl rfl h.job (fun _ => ⟨rfl, rfl⟩) hrests
      exact fun n answers => rfl
    · exact h.passed hl hrests hsys hpart

/-- The end of a poll that writes. -/
lemma end_polls (h : Tracks m u) (hl : Leaves mem ops as u) {around : BitstreamLoader.Around}
    {r : BitstreamLoader.Polled} (hmain : m.sys.main = none)
    (hplayed : Played (fun c => polledOf (u.loader.poll u.socket c around)) u.chip.mem m.part r)
    (hsys : m'.sys = ({ m.sys with isr := none } : System).store (.polled r))
    (hpart : m'.part = m.part) : Reached mem m' := by
  obtain ⟨hcs, as', has⟩ := hplayed
  refine ⟨ops ++ [.call (.poll around)], as ++ as',
    ⟨u.job, r.loader, r.socket, holding m.part.mem⟩, hl.concat ?_, ?_⟩
  · intro n answers hanswers
    have hpoll := has n answers hanswers
    obtain ⟨rfl, hchip⟩ := Prod.mk.inj hpoll
    change (⟨u.job, _, _, (u.loader.poll u.socket ⟨u.chip.mem, n, answers⟩ around).chip⟩ : Updater) = _
    rw [hchip]
    rfl
  · rw [System.store] at hsys
    constructor
    · rw [hsys]
    · rw [hsys]
    · rw [hpart]
      exact .refl _
    · rw [hsys]
      exact h.job
    · rw [hsys]
      intro p hp
      cases hmain.symm.trans hp
    · rw [hsys]
      intro p hp
      cases hp
    · rw [hpart]
      exact fun _ _ => ⟨hcs, rfl⟩

end Steps

end Tracks

namespace Reached

variable {b : Board} {m m' : Machine} {mem : ℕ → Byte} {e : Event} {es : List Event}

lemma start (mem : ℕ → Byte) : Reached mem ⟨{}, { mem := mem }⟩ := by
  refine ⟨[], [], fresh mem fun _ => .good, fun _ _ => rfl, ?_⟩
  exact ⟨rfl, rfl, .refl _, fun _ => rfl, nofun, nofun, fun _ _ => ⟨rfl, rfl⟩⟩

theorem step (hinv : m.sys.Inv) (h : Reached mem m) (hstep : m.Step b e m') :
    Reached mem m' := by
  obtain ⟨ops, as, u, hl, ht⟩ := h
  obtain ⟨hsys, hpart⟩ := hstep
  -- where nothing is changed
  have hsame (hs : m'.sys = m.sys) (hp : m'.part = m.part) : Reached mem m' := by
    have hm : m' = m := by
      cases m
      cases m'
      cases hs
      cases hp
      rfl
    exact hm ▸ ⟨ops, as, u, hl, ht⟩
  cases e with
  | arrive d =>
    rw [System.next] at hsys
    split at hsys
    · exact hsame hsys hpart
    next hready =>
      rw [not_or, Option.not_isSome_iff_eq_none, Bool.not_eq_false] at hready
      exact ht.arrive hl hready.1 hready.2 d hsys hpart
  | interrupt i =>
    rw [System.next] at hsys
    split at hsys
    · exact hsame hsys hpart
    next hidle =>
      have hidle := Option.not_isSome_iff_eq_none.mp hidle
      exact ⟨ops, as, u, hl, ht.begin_interrupt hinv hidle i hsys hpart⟩
  | turn =>
    rw [System.next] at hsys
    split at hsys
    · exact hsame hsys hpart
    next hready =>
      rw [not_or, not_or, Option.not_isSome_iff_eq_none, Option.not_isSome_iff_eq_none,
        Bool.not_eq_false] at hready
      obtain ⟨hidle, hmain, hp⟩ := hready
      exact ⟨ops, as, u, hl, ht.begin_tick hidle hmain hp hsys hpart⟩
  | go w =>
    rw [System.next] at hsys
    cases hisr : m.sys.isr with
    | some p =>
      cases p with
      | access a k =>
        rw [hisr] at hsys
        simp only [System.access, hisr] at hpart
        exact ⟨ops, as, u, hl, ht.go_interrupt hisr hsys hpart⟩
      | ret o =>
        rw [hisr] at hsys
        simp only [System.access, hisr] at hpart
        cases ht.handles _ hisr with
        | reads i hreads hrests =>
          obtain ⟨-, rfl⟩ := hreads
          exact ht.end_reads hl i hrests hsys hpart
        | polls around hmain hdoes =>
          obtain ⟨r, rfl, hplayed⟩ := hdoes
          exact ht.end_polls hl hmain hplayed hsys hpart
      | hang =>
        rw [hisr] at hsys
        simp only [System.access, hisr] at hpart
        exact hsame hsys hpart
    | none =>
      rw [hisr] at hsys
      cases hmain : m.sys.main with
      | some p =>
        rw [hmain] at hsys
        cases p with
        | access a k =>
          simp only [System.access, hisr, hmain] at hpart
          exact ⟨ops, as, u, hl, ht.go_main hmain hsys hpart⟩
        | ret f =>
          simp only [System.access, hisr, hmain] at hpart
          exact ht.end_main hl hmain hsys hpart
        | hang =>
          simp only [System.access, hisr, hmain] at hpart
          exact hsame hsys hpart
      | none =>
        rw [hmain] at hsys
        simp only [System.access, hisr, hmain] at hpart
        exact hsame hsys hpart

lemma run (hrun : Run (Machine.Step b) m es m')
    (halone : Always (fun s e t => t = System.next b s e) System.ArmsAlone m.sys es)
    (hinv : m.sys.Inv) (h : Reached mem m) : Reached mem m' := by
  induction hrun with
  | nil m => exact h
  | cons hstep _ ih =>
    obtain ⟨ha, hrest⟩ := halone
    refine ih ?_ ?_ (h.step hinv hstep)
    · exact hrest _ hstep.1
    · rw [hstep.1]
      exact hinv.next ha

/-- Calls one after another change nothing that may not change. -/
lemma perform_guarded (u : Updater) (ops : List Atomic) :
    Guarded u.chip (ops.foldl perform u).chip := by
  induction ops generalizing u with
  | nil => exact .refl _
  | cons op ops ih =>
    refine Guarded.trans ?_ (ih (perform u op))
    cases op with
    | call e => exact u.call_guarded e
    | close => exact .refl _

lemma guarded (h : Reached mem m) : Guarded (holding mem) (holding m.part.mem) := by
  obtain ⟨ops, as, u, hl, ht⟩ := h
  have hcalls := perform_guarded (fresh mem fun i => as.getD i .good) ops
  rw [hl _ fun i _ => rfl] at hcalls
  exact hcalls.trans ht.guarded

end Reached

section Runs

variable {b : Board} {mem : ℕ → Byte} {m : Machine} {es : List Event}

/-- Wherever the interrupts come, the two writers leave what some calls leave that are made one after
another, as long as whatever arms one of them finds the other one at rest. -/
theorem same_as_calls (hrun : Run (Machine.Step b) ⟨{}, { mem := mem }⟩ es m)
    (halone : Always (fun s e t => t = System.next b s e) System.ArmsAlone {} es)
    (hmain : m.sys.main = none) (hisr : m.sys.isr = none) :
    ∃ (ops : List Atomic) (answers : ℕ → Answer) (u : Updater),
      ops.foldl perform (fresh mem answers) = u ∧ u.job = m.sys.job ∧ u.loader = m.sys.loader ∧
        u.socket = m.sys.socket ∧ u.chip.mem = m.part.mem := by
  obtain ⟨ops, as, u, hl, ht⟩ := (Reached.start mem).run hrun halone System.inv_start
  refine ⟨ops, fun i => as.getD i .good, _, hl _ fun i _ => rfl, (ht.job hmain).symm, ht.loader.symm,
    ht.socket.symm, (ht.rests hmain hisr).2.symm⟩

/-- A job is queued on a card that has just started. -/
def queueErase : List Event := [.interrupt (.queue .erase (.ofNat 32 SCRATCH_BASE) 4096), .go 0]

def queued (b : Board) : Machine := ⟨queueErase.foldl (System.next b) {}, { mem := fun _ => 0xFF }⟩

lemma scratch_writable :
    regionIsWritable (BitVec.ofNat 32 SCRATCH_BASE).toNat (4096 : BitVec 32).toNat = pure () := by
  unfold regionIsWritable
  rfl

lemma queued_run (b : Board) :
    Run (Machine.Step b) ⟨{}, { mem := fun _ => 0xFF }⟩ queueErase (queued b) := by
  refine .cons (t := ⟨System.next b {} (.interrupt (.queue .erase (.ofNat 32 SCRATCH_BASE) 4096)),
    { mem := fun _ => 0xFF }⟩) ⟨rfl, rfl⟩ (.cons ⟨rfl, ?_⟩ (.nil _))
  simp only [System.next, System.handler, scratch_writable]
  rfl

lemma queued_alone (b : Board) :
    Always (fun s e t => t = System.next b s e) System.ArmsAlone {} queueErase := by
  refine ⟨trivial, ?_⟩
  rintro _ rfl
  refine ⟨?_, fun _ _ => trivial⟩
  simp only [System.next, System.handler, scratch_writable]
  exact fun _ => rfl

lemma queued_sys (b : Board) : (queued b).sys =
    { job := { kind := .erase, state := .queued, addr := SCRATCH_BASE, len := 4096 } } := by
  simp only [queued, queueErase, List.foldl_cons, List.foldl_nil, System.next, System.handler,
    scratch_writable]
  rfl

theorem same_as_calls_queued : ∃ (ops : List Atomic) (answers : ℕ → Answer) (u : Updater),
    ops.foldl perform (fresh (fun _ => 0xFF) answers) = u ∧ u.job = (queued ⟨60000000, 3⟩).sys.job ∧
      u.loader = (queued ⟨60000000, 3⟩).sys.loader ∧ u.socket = (queued ⟨60000000, 3⟩).sys.socket ∧
      u.chip.mem = (queued ⟨60000000, 3⟩).part.mem :=
  same_as_calls (queued_run _) (queued_alone _) (by rw [queued_sys]) (by rw [queued_sys])

/-- Then, at any moment and in the middle of any command, only bytes have changed that may change. -/
theorem guarded_throughout (hrun : Run (Machine.Step b) ⟨{}, { mem := mem }⟩ es m)
    (halone : Always (fun s e t => t = System.next b s e) System.ArmsAlone {} es) (a : ℕ) :
    m.part.mem a = mem a ∨ InScratch a ∨ InApp a ∧ (holding mem).goldenPresent = true := by
  by_cases h : (holding mem).MayChange a
  · exact .inr h
  · exact .inl (((Reached.start mem).run hrun halone System.inv_start).guarded a h)

theorem guarded_throughout_queued : (queued ⟨60000000, 3⟩).part.mem GOLDEN_BASE = 0xFF ∨
    InScratch GOLDEN_BASE ∨ InApp GOLDEN_BASE ∧ (holding fun _ => 0xFF).goldenPresent = true :=
  guarded_throughout (queued_run _) (queued_alone _) GOLDEN_BASE

end Runs

end Ledwall.Flash.Registers
