import Ledwall.Flash.SpiAccess
import Ledwall.Library.Runs

/-! The queued job and the bitstream load on the one SPI master, whenever an interrupt comes. -/

namespace Ledwall.Flash.Registers

open Ledwall.Wire Ledwall.Library.Processes Ledwall.Library.Processes.Proc Ledwall.Library.Runs

/-- The flash's side of the master: the bytes since it was selected, and the commands it has seen. -/
structure Bus where
  cs : Bool := false
  bytes : List Byte := []
  seen : List (List Byte) := []
  deriving DecidableEq, Repr

namespace Bus

def take (s : Bus) : Access → Bus
  | .masterCs true => if s.cs then s else { s with cs := true, bytes := [] }
  | .masterCs false => if s.cs then ⟨false, [], s.seen ++ [s.bytes]⟩ else s
  | .writeRxtx tx => if s.cs then { s with bytes := s.bytes ++ [tx] } else s
  | _ => s

def after (accesses : List Access) : Bus := accesses.foldl take {}

end Bus

/-- The commands that the flash sees of some accesses, each from its opcode to the chip's release. -/
def commands (accesses : List Access) : List (List Byte) := (Bus.after accesses).seen

/-- What the interrupt is for: a handler that queues a job or starts a load, or the load's next poll. -/
inductive Interrupt
  | queue (kind : JobKind) (addr len : BitVec 32)
  | start (server : BitVec 32) (filename : List Byte)
  | poll (around : BitstreamLoader.Around)

/-- What the interrupt's code comes to, before it is stored. -/
inductive Outcome
  | queued (r : Except FlashError Unit) (kind : JobKind) (addr len : BitVec 32)
  | started (r : Except FlashError Unit) (server : BitVec 32) (filename : List Byte)
  | busy
  | polled (p : BitstreamLoader.Polled)
  | closed (socket : UdpSocket)

inductive Context
  | mainLoop
  | interrupt
  deriving DecidableEq, Repr

/-- The card: its two writers, the code in progress on either level, and all accesses made. -/
structure System where
  job : Job := {}
  loader : BitstreamLoader := {}
  socket : UdpSocket := {}
  main : Option (Steps (Job → Job)) := none
  isr : Option (Steps Outcome) := none
  trace : List (Context × Access) := []

inductive Event
  | arrive (d : Datagram)
  | interrupt (i : Interrupt)
  /-- The main loop comes to its flash job. -/
  | turn
  /-- The code that runs makes its next access, and reads this. -/
  | go (w : Word)

namespace System

variable (b : Board) (s : System)

def handler : Interrupt → Steps Outcome
  | .queue kind addr len => do
    return .queued (← (regionIsWritable addr.toNat len.toNat).run) kind addr len
  | .start server filename =>
    if s.loader.isActive then return .busy
    else do return .started (← (regionIsWritable APP_BASE APP_LEN).run) server filename
  | .poll around =>
    if s.loader.state = .finished then
      return .closed (if s.socket.isOpen then s.socket.close else s.socket)
    else if s.loader.isActive then do return .polled (← BitstreamLoader.poll b s.loader s.socket around)
    else return .busy

def store : Outcome → System
  | .queued (.ok ()) kind addr len =>
    if s.job.pending then s
    else { s with job := { kind := kind, state := .queued, addr := addr.toNat, len := len.toNat } }
  | .started (.ok ()) server filename =>
    { s with loader := (BitstreamLoader.begin s.loader server filename).2 }
  | .polled p => { s with loader := p.loader, socket := p.socket }
  | .closed socket => { s with socket := socket }
  | .queued (.error _) _ _ _ | .started (.error _) _ _ | .busy => s

/-- The interrupt's code runs to its end before the main loop goes on. -/
def next : Event → System
  | .arrive d =>
    if s.isr.isSome ∨ s.socket.isOpen = false then s
    else { s with socket := { s.socket with rx := s.socket.rx ++ [d] } }
  | .interrupt i => if s.isr.isSome then s else { s with isr := some (s.handler b i) }
  | .turn =>
    if s.isr.isSome ∨ s.main.isSome ∨ s.job.pending = false then s
    else
      let job := { s.job with state := .running }
      { s with job := job, main := some (Job.tick b job) }
  | .go w =>
    match s.isr with
    | some (.access a k) => { s with isr := some (k w), trace := s.trace ++ [(.interrupt, a)] }
    | some (.ret o) => { s with isr := none }.store o
    | some .hang => s
    | none =>
      match s.main with
      | some (.access a k) => { s with main := some (k w), trace := s.trace ++ [(.mainLoop, a)] }
      | some (.ret f) => { s with main := none, job := f s.job }
      | some .hang | none => s

def accesses (c : Context) : List Access := (s.trace.filter (·.1 = c)).map Prod.snd

/-- Never both a queued job and an active load, and every command that the flash sees is one that one
of the two levels has issued in full. -/
def Apart : Prop :=
  ¬ (s.job.pending = true ∧ s.loader.isActive = true) ∧
    (commands (s.trace.map Prod.snd)).Perm
      (commands (s.accesses .mainLoop) ++ commands (s.accesses .interrupt))

instance : Decidable s.Apart := inferInstanceAs (Decidable (_ ∧ _))

/-- A handler that is about to arm one of the writers finds the other one at rest. -/
def ArmsAlone : Event → Prop
  | .go _ =>
    match s.isr with
    | some (.ret (.queued (.ok ()) _ _ _)) => s.job.pending = false → s.loader.isActive = false
    | some (.ret (.started (.ok ()) _ filename)) =>
      filename.length ≤ MAX_FILENAME → s.job.pending = false
    | _ => True
  | _ => True

end System

section Selecting

/-- Whether whoever makes the accesses holds the chip selected. -/
def csAfter : Bool → Access → Bool
  | _, .masterCs on => on
  | on, _ => on

abbrev Selects (on : Bool) (a : Access) (_ : Word) (off : Bool) : Prop := off = csAfter on a

abbrev Drives {α : Type} (on off : Bool) (x : Steps α) : Prop :=
  Leads csAfter (fun _ _ => True) on off x

/-- From where the chip is selected or not to where it is or not, or after an error it is not. -/
abbrev Works {α : Type} (on off : Bool) (x : Task α) : Prop :=
  Tries csAfter (fun _ _ => True) on off false x

variable {α : Type} {b : Board} {on off : Bool}

lemma masterCs_drives (off : Bool) : Drives on off (masterCs off) := ⟨trivial, fun _ _ h => h⟩

lemma configureMaster_drives : Drives on on configureMaster := ⟨trivial, fun _ _ h => h⟩

lemma readByte_drives {addr : ℕ} : Drives on on (readByte addr) := ⟨trivial, fun _ _ h => h⟩

lemma perform_drives {a : Access} (h : csAfter on a = on) : Drives on on (perform (R := Word) a) :=
  ⟨trivial, fun _ _ ht => ht.trans h⟩

lemma awaitStatus_drives {bit n : ℕ} : Drives on on (awaitStatus bit n) := by
  induction n with
  | zero => trivial
  | succ n ih =>
    refine ⟨trivial, ?_⟩
    rintro w _ rfl
    dsimp only
    split
    · rfl
    · exact ih

lemma spiTransferByte_drives {tx : Byte} : Drives on on (spiTransferByte b tx) := by
  refine awaitStatus_drives.bind fun _ => ?_
  refine (perform_drives rfl).bind fun _ => ?_
  refine awaitStatus_drives.bind fun _ => ?_
  exact (perform_drives rfl).bind fun _ => rfl

lemma timerTicks_drives : Drives on on (timerTicks b) := (perform_drives rfl).bind fun _ => rfl

lemma writeEnable_drives : Drives on false (writeEnable b) := by
  refine (masterCs_drives true).bind fun _ => ?_
  exact spiTransferByte_drives.bind fun _ => masterCs_drives false

lemma readSr1_drives : Drives on false (readSr1 b) := by
  refine (masterCs_drives true).bind fun _ => ?_
  refine spiTransferByte_drives.bind fun _ => ?_
  refine spiTransferByte_drives.bind fun _ => ?_
  exact (masterCs_drives false).bind fun _ => rfl

lemma pollBusy_works {budget n spent : ℕ} {last : Word} :
    Works false false (pollBusy b budget n spent last) := by
  induction n generalizing spent last with
  | zero => exact .lift trivial
  | succ n ih =>
    refine (Tries.lift readSr1_drives).bind fun sr => ?_
    split
    · exact .pure _
    refine (Tries.lift timerTicks_drives).bind fun now => ?_
    dsimp only
    split
    · exact .throw _
    · exact ih

lemma waitNotBusy_works {timeoutMs : ℕ} : Works false false (waitNotBusy b timeoutMs) :=
  (Tries.lift timerTicks_drives).bind fun _ => pollBusy_works

lemma unprotect_works : Works false false (unprotect b) := by
  refine (Tries.lift configureMaster_drives).bind fun _ => ?_
  refine (Tries.lift readSr1_drives).bind fun before => ?_
  split
  · exact .pure _
  refine (Tries.lift writeEnable_drives).bind fun _ => ?_
  refine (Tries.lift (masterCs_drives true)).bind fun _ => ?_
  refine (Tries.lift spiTransferByte_drives).bind fun _ => ?_
  refine (Tries.lift spiTransferByte_drives).bind fun _ => ?_
  refine (Tries.lift (masterCs_drives false)).bind fun _ => ?_
  exact waitNotBusy_works.bind fun _ => .pure _

lemma sendAddr_drives {addr : ℕ} : Drives on on (sendAddr b addr) := by
  refine spiTransferByte_drives.bind fun _ => ?_
  refine spiTransferByte_drives.bind fun _ => ?_
  exact spiTransferByte_drives.bind fun _ => rfl

lemma regionIsBlank_drives {addr len : ℕ} : Drives on on (regionIsBlank addr len) := by
  unfold regionIsBlank
  exact .allM fun _ => readByte_drives.bind fun _ => rfl

/-- Whatever leads on from a command's opcode and address. -/
lemma command_works {addr : ℕ} {opcode : Byte} {rest : Task α} (hrest : Works true false rest) :
    Works false false (do
      let _ ← unprotect b
      ExceptT.lift configureMaster
      ExceptT.lift (writeEnable b)
      ExceptT.lift (masterCs true)
      let _ ← ExceptT.lift (spiTransferByte b opcode)
      ExceptT.lift (sendAddr b addr)
      rest) := by
  refine unprotect_works.bind fun _ => ?_
  refine (Tries.lift configureMaster_drives).bind fun _ => ?_
  refine (Tries.lift writeEnable_drives).bind fun _ => ?_
  refine (Tries.lift (masterCs_drives true)).bind fun _ => ?_
  refine (Tries.lift spiTransferByte_drives).bind fun _ => ?_
  exact (Tries.lift sendAddr_drives).bind fun _ => hrest

section Windows

variable {σ : Type} {step : σ → Access → σ} {ok : σ → Access → Prop} {s : σ}

/-- The check of a region reads the window and does nothing else. -/
lemma regionIsWritable_tries (h : ∀ addr, ok s (.window addr) ∧ step s (.window addr) = s)
    (addr len : ℕ) : Tries step ok s s s (regionIsWritable addr len) := by
  have hread (addr : ℕ) : Leads step ok s s (readByte addr) := ⟨(h addr).1, fun _ _ ht => ht.trans (h addr).2⟩
  have hgolden : Leads step ok s s goldenPresent := by
    refine .anyM fun off => (hread _).bind fun first => ?_
    split
    · exact (hread _).bind fun _ => rfl
    · rfl
  unfold regionIsWritable
  dsimp only
  split
  · exact .throw _
  split
  · exact .throw _
  split
  · exact .throw _
  split
  · exact .throw _
  split
  · refine (Tries.lift hgolden).bind fun golden => ?_
    split
    · exact .pure _
    · exact .throw _
  split
  · exact .throw _
  · exact .pure _

end Windows

lemma regionIsWritable_works (addr len : ℕ) : Works false false (regionIsWritable addr len) :=
  regionIsWritable_tries (fun _ => ⟨trivial, rfl⟩) addr len

lemma eraseSector_works (addr : ℕ) : Works false false (eraseSector b addr) := by
  unfold eraseSector
  refine Tries.bind (regionIsWritable_works addr SECTOR) fun _ => ?_
  refine command_works ?_
  refine (Tries.lift (masterCs_drives false)).bind fun _ => ?_
  refine waitNotBusy_works.bind fun _ => ?_
  refine (Tries.lift regionIsBlank_drives).bind fun blank => ?_
  split
  · exact .throw _
  · exact .pure _

lemma programPage_works (addr : ℕ) (data : List Byte) : Works false false (programPage b addr data) := by
  unfold programPage
  split
  · exact .pure _
  split
  · exact .throw _
  refine Tries.bind (regionIsWritable_works _ SECTOR) fun _ => ?_
  refine command_works ?_
  have hdata : Drives true true (data.forM fun d => do let _ ← spiTransferByte b d) :=
    .forM fun d => spiTransferByte_drives.bind fun _ => rfl
  refine (Tries.lift hdata).bind fun _ => ?_
  refine (Tries.lift (masterCs_drives false)).bind fun _ => ?_
  refine waitNotBusy_works.bind fun _ => ?_
  split
  · refine (Tries.lift readByte_drives).bind fun first => ?_
    split
    · exact .throw _
    · exact .pure _
  · exact .pure _

lemma crc32Region_drives {addr len : ℕ} : Drives on on (crc32Region addr len) := by
  refine Leads.bind (.foldlM fun crc i => ?_) fun _ => rfl
  exact readByte_drives.bind fun _ => rfl

lemma work_works (job : Job) : Works false false (Job.work b job) := by
  unfold Job.work
  dsimp only
  split
  · exact Tries.bind (eraseSector_works _) fun _ => .pure _
  · split
    · exact Tries.bind (eraseSector_works _) fun _ => .pure _
    · exact Tries.bind (programPage_works _ _) fun _ => .pure _
  · exact .pure _

lemma tick_drives (job : Job) : Drives false false (Job.tick b job) := by
  unfold Job.tick
  split
  · exact crc32Region_drives.bind fun _ => rfl
  · refine Within.bind ?_ (work_works job)
    rintro on (e | ⟨advance, erased⟩) hon
    · exact hon
    · exact hon

lemma writeSector_works (l : BitstreamLoader) : Works false false (BitstreamLoader.writeSector b l) := by
  unfold BitstreamLoader.writeSector
  refine Tries.bind (eraseSector_works _) fun _ => ?_
  refine (Tries.forM fun k => programPage_works _ _).bind fun _ => ?_
  have hsame : Drives false false ((List.range l.stage.length).allM fun i => do
      return (← readByte (wrap32 (l.sectorAddr + i))) = l.stage.getD i 0) :=
    .allM fun i => readByte_drives.bind fun _ => rfl
  refine (Tries.lift hsame).bind fun same => ?_
  split
  · exact .throw _
  · exact .pure _

lemma flush_works (l : BitstreamLoader) : Works false false (BitstreamLoader.flush b l) := by
  unfold BitstreamLoader.flush
  split
  · exact .pure _
  · exact Tries.bind (writeSector_works l) fun _ => .pure _

lemma poll_drives (l : BitstreamLoader) (socket : UdpSocket) (around : BitstreamLoader.Around) :
    Drives false false (BitstreamLoader.poll b l socket around) := by
  unfold BitstreamLoader.poll
  split
  · dsimp only
    split <;> rfl
  · split
    · rfl
    split
    · rfl
    dsimp only
    split
    · split
      · rfl
      split
      · rfl
      unfold BitstreamLoader.acceptBlock
      dsimp only
      split
      · rfl
      unfold BitstreamLoader.storeBlock
      split
      · rfl
      split
      · refine Within.bind ?_ (flush_works _)
        rintro on (e | l) hon
        · exact hon
        · exact hon
      · rfl
    · rfl
  · rfl
  · rfl
  · rfl

/-- Accesses that are nothing to the flash's commands. -/
def Silent (_ : Unit) : Access → Prop
  | .masterCs _ | .writeRxtx _ => False
  | _ => True

abbrev Quiet {α : Type} (x : Steps α) : Prop := Leads (fun _ _ => ()) Silent () () x

lemma regionIsWritable_quiet (addr len : ℕ) : Quiet (regionIsWritable addr len).run :=
  Within.mono (fun _ _ _ => rfl) (regionIsWritable_tries (fun _ => ⟨trivial, rfl⟩) addr len)

end Selecting

namespace Bus

variable {all own other : Bus} {a : Access}

lemma after_concat (as : List Access) (a : Access) : after (as ++ [a]) = (after as).take a := by
  rw [after, List.foldl_append]
  rfl

lemma take_cs (s : Bus) (a : Access) : (s.take a).cs = csAfter s.cs a := by
  cases a with
  | masterCs on =>
    cases hcs : s.cs <;> cases on <;> simp [take, csAfter, hcs]
  | writeRxtx tx =>
    cases hcs : s.cs <;> simp [take, csAfter, hcs]
  | masterPhyconfig => rfl
  | masterStatus => rfl
  | readRxtx => rfl
  | window addr => rfl
  | timer => rfl

lemma take_silent (s : Bus) (h : Silent () a) : s.take a = s := by
  cases a with
  | masterCs on => exact h.elim
  | writeRxtx tx => exact h.elim
  | masterPhyconfig => rfl
  | masterStatus => rfl
  | readRxtx => rfl
  | window addr => rfl
  | timer => rfl

/-- The flash is where the one who has it selected believes it to be. -/
structure Follows (all own : Bus) : Prop where
  cs : all.cs = own.cs
  bytes : own.cs = true → all.bytes = own.bytes

lemma Follows.take (h : all.Follows own) (a : Access) :
    (all.take a).Follows (own.take a) ∧
      ∃ cmds, (all.take a).seen = all.seen ++ cmds ∧ (own.take a).seen = own.seen ++ cmds := by
  obtain ⟨cs, bytes, seen⟩ := all
  obtain ⟨cs', bytes', seen'⟩ := own
  obtain ⟨hcs, hbytes⟩ := h
  dsimp only at hcs hbytes
  subst hcs
  have hidle : ∃ cmds, seen = seen ++ cmds ∧ seen' = seen' ++ cmds :=
    ⟨[], (List.append_nil _).symm, (List.append_nil _).symm⟩
  cases cs with
  | false =>
    cases a with
    | masterCs on =>
      cases on with
      | true => exact ⟨⟨rfl, fun _ => rfl⟩, hidle⟩
      | false => exact ⟨⟨rfl, hbytes⟩, hidle⟩
    | _ => exact ⟨⟨rfl, hbytes⟩, hidle⟩
  | true =>
    obtain rfl := hbytes rfl
    cases a with
    | masterCs on =>
      cases on with
      | true => exact ⟨⟨rfl, hbytes⟩, hidle⟩
      | false => exact ⟨⟨rfl, fun _ => rfl⟩, [bytes], rfl, rfl⟩
    | _ => exact ⟨⟨rfl, fun _ => rfl⟩, hidle⟩

end Bus

/-- What is left of a load is no more active than the load was. -/
def Outcome.Fits (l : BitstreamLoader) (o : Outcome) : Prop :=
  ∀ p, o = .polled p → p.loader.isActive = true → l.isActive = true

namespace System

variable {b : Board} {s : System} {e : Event}

def bus (s : System) (c : Context) : Bus := Bus.after (s.accesses c)

def wire (s : System) : Bus := Bus.after (s.trace.map Prod.snd)

lemma handler_within (s : System) (i : Interrupt) :
    Within Selects (fun _ _ => True) (fun on o => on = false ∧ o.Fits s.loader) false
      (s.handler b i) := by
  cases i with
  | queue kind addr len =>
    refine Within.bind ?_ (regionIsWritable_works addr.toNat len.toNat)
    intro on r hon
    have hoff : on = false := by
      cases r with
      | error e => exact hon
      | ok u => exact hon
    exact ⟨hoff, fun p hp => Outcome.noConfusion hp⟩
  | start server filename =>
    rw [handler]
    split
    · exact ⟨rfl, fun p hp => Outcome.noConfusion hp⟩
    · refine Within.bind ?_ (regionIsWritable_works APP_BASE APP_LEN)
      intro on r hon
      have hoff : on = false := by
        cases r with
        | error e => exact hon
        | ok u => exact hon
      exact ⟨hoff, fun p hp => Outcome.noConfusion hp⟩
  | poll around =>
    rw [handler]
    split
    · exact ⟨rfl, fun p hp => Outcome.noConfusion hp⟩
    split
    · next hactive =>
      refine Within.bind ?_ (poll_drives s.loader s.socket around)
      rintro on p rfl
      exact ⟨rfl, fun _ _ _ => hactive⟩
    · exact ⟨rfl, fun p hp => Outcome.noConfusion hp⟩

lemma handler_quiet (h : s.loader.isActive = false) (i : Interrupt) : Quiet (s.handler b i) := by
  have hrest : ¬ s.loader.isActive = true := by simp [h]
  cases i with
  | queue kind addr len =>
    rw [handler]
    exact Leads.bind (regionIsWritable_quiet _ _) fun r => rfl
  | start server filename =>
    rw [handler, if_neg hrest]
    exact Leads.bind (regionIsWritable_quiet _ _) fun r => rfl
  | poll around =>
    rw [handler, if_neg hrest]
    split
    · rfl
    · rfl

/-- At most one of the two levels has the chip selected, and the flash is where that one believes it. -/
structure Inv (s : System) : Prop where
  apart : ¬ (s.job.pending = true ∧ s.loader.isActive = true)
  seen : s.wire.seen.Perm ((s.bus .mainLoop).seen ++ (s.bus .interrupt).seen)
  one : (s.bus .interrupt).cs = false ∧ s.wire.Follows (s.bus .mainLoop) ∨
    (s.bus .mainLoop).cs = false ∧ s.wire.Follows (s.bus .interrupt)
  ticks : ∀ p ∈ s.main, s.job.pending = true ∧ Drives (s.bus .mainLoop).cs false p
  rests : s.main = none → (s.bus .mainLoop).cs = false
  handles : ∀ p ∈ s.isr, Within Selects (fun _ _ => True)
    (fun on o => on = false ∧ o.Fits s.loader) (s.bus .interrupt).cs p
  returned : s.isr = none → (s.bus .interrupt).cs = false
  quiet : ∀ p ∈ s.isr, s.loader.isActive = false → (s.bus .interrupt).cs = false ∧ Quiet p

lemma inv_start : Inv {} where
  apart := by simp [BitstreamLoader.isActive]
  seen := .refl _
  one := .inl ⟨rfl, ⟨rfl, fun _ => rfl⟩⟩
  ticks := nofun
  rests _ := rfl
  handles := nofun
  returned _ := rfl
  quiet := nofun

lemma Inv.isActive_of_main (h : s.Inv) {p : Steps (Job → Job)} (hp : s.main = some p) :
    s.loader.isActive = false := by
  rw [← Bool.not_eq_true]
  exact fun hactive => h.apart ⟨(h.ticks p hp).1, hactive⟩

section Traces

variable (s) (c d : Context) (a : Access)

/-- One more access. -/
def push : System := { s with trace := s.trace ++ [(c, a)] }

lemma push_wire : (s.push c a).wire = s.wire.take a := by
  rw [wire, push, List.map_append]
  exact Bus.after_concat _ _

lemma push_bus : (s.push c a).bus c = (s.bus c).take a := by
  have hacc : (s.push c a).accesses c = s.accesses c ++ [a] := by simp [push, accesses]
  rw [bus, hacc]
  exact Bus.after_concat _ _

lemma push_other (h : c ≠ d) : (s.push c a).bus d = s.bus d := by
  have hacc : (s.push c a).accesses d = s.accesses d := by simp [push, accesses, h]
  rw [bus, hacc, bus]

end Traces

/-- The one who has the chip to itself makes an access. -/
lemma push_main (h : s.Inv) (hother : (s.bus .interrupt).cs = false) (a : Access) :
    (s.push .mainLoop a).wire.seen.Perm
        (((s.push .mainLoop a).bus .mainLoop).seen ++ ((s.push .mainLoop a).bus .interrupt).seen) ∧
      (s.push .mainLoop a).wire.Follows ((s.push .mainLoop a).bus .mainLoop) := by
  have hfollows : s.wire.Follows (s.bus .mainLoop) := by
    rcases h.one with ⟨-, hf⟩ | ⟨hm, hf⟩
    · exact hf
    · exact ⟨hf.cs.trans (hother.trans hm.symm), fun hcs => absurd (hm.symm.trans hcs) Bool.false_ne_true⟩
  obtain ⟨htake, cmds, hall, hown⟩ := hfollows.take a
  rw [push_wire, push_bus, push_other s _ _ a (by decide), hall, hown]
  refine ⟨?_, htake⟩
  refine (h.seen.append_right cmds).trans ?_
  rw [List.append_assoc, List.append_assoc]
  exact (List.perm_append_comm).append_left _

lemma push_interrupt (h : s.Inv) (hother : (s.bus .mainLoop).cs = false) (a : Access) :
    (s.push .interrupt a).wire.seen.Perm
        (((s.push .interrupt a).bus .mainLoop).seen ++ ((s.push .interrupt a).bus .interrupt).seen) ∧
      (s.push .interrupt a).wire.Follows ((s.push .interrupt a).bus .interrupt) := by
  have hfollows : s.wire.Follows (s.bus .interrupt) := by
    rcases h.one with ⟨hi, hf⟩ | ⟨-, hf⟩
    · exact ⟨hf.cs.trans (hother.trans hi.symm), fun hcs => absurd (hi.symm.trans hcs) Bool.false_ne_true⟩
    · exact hf
  obtain ⟨htake, cmds, hall, hown⟩ := hfollows.take a
  rw [push_wire, push_bus, push_other s _ _ a (by decide), hall, hown]
  refine ⟨?_, htake⟩
  rw [← List.append_assoc]
  exact h.seen.append_right cmds

section Steps

/-- Only what the code of one level is, and the job and the load, matter beside the trace. -/
lemma Inv.arrive (h : s.Inv) (socket : UdpSocket) : ({ s with socket := socket } : System).Inv :=
  ⟨h.apart, h.seen, h.one, h.ticks, h.rests, h.handles, h.returned, h.quiet⟩

lemma Inv.interrupt (h : s.Inv) (hidle : s.isr = none) (i : Interrupt) :
    ({ s with isr := some (s.handler b i) } : System).Inv where
  apart := h.apart
  seen := h.seen
  one := h.one
  ticks := h.ticks
  rests := h.rests
  handles := by
    rintro p ⟨⟩
    change Within _ _ _ (s.bus .interrupt).cs _
    rw [h.returned hidle]
    exact handler_within s i
  returned := nofun
  quiet := by
    rintro p ⟨⟩ hrest
    exact ⟨h.returned hidle, handler_quiet hrest i⟩

lemma Inv.turn (h : s.Inv) (hmain : s.main = none) (hp : s.job.pending = true) (job : Job) :
    ({ s with job := { s.job with state := .running }, main := some (Job.tick b job) } : System).Inv where
  apart hboth := h.apart ⟨hp, hboth.2⟩
  seen := h.seen
  one := h.one
  ticks := by
    rintro p ⟨⟩
    refine ⟨rfl, ?_⟩
    change Drives (s.bus .mainLoop).cs false _
    rw [h.rests hmain]
    exact tick_drives job
  rests := nofun
  handles := h.handles
  returned := h.returned
  quiet := h.quiet

lemma Inv.go_main (h : s.Inv) {a : Access} {k : Word → Steps (Job → Job)} (hidle : s.isr = none)
    (hmain : s.main = some (.access a k)) (w : Word) :
    ({ s.push .mainLoop a with main := some (k w) } : System).Inv := by
  have hoff := h.returned hidle
  have hbus : (s.push .mainLoop a).bus .interrupt = s.bus .interrupt := push_other s _ _ a (by decide)
  obtain ⟨hseen, hfollows⟩ := push_main h hoff a
  refine ⟨h.apart, hseen, .inl ⟨?_, hfollows⟩, ?_, nofun, ?_, fun _ => ?_, ?_⟩
  · exact (congrArg Bus.cs hbus).trans hoff
  · rintro p ⟨⟩
    obtain ⟨hp, hdrives⟩ := h.ticks _ hmain
    refine ⟨hp, ?_⟩
    change Drives ((s.push .mainLoop a).bus .mainLoop).cs false (k w)
    rw [push_bus, Bus.take_cs]
    exact hdrives.2 w _ rfl
  · intro p hp
    exact absurd (hidle.symm.trans hp) nofun
  · exact (congrArg Bus.cs hbus).trans hoff
  · intro p hp
    exact absurd (hidle.symm.trans hp) nofun

lemma Inv.end_main (h : s.Inv) {f : Job → Job} (hmain : s.main = some (.ret f)) :
    ({ s with main := none, job := f s.job } : System).Inv where
  apart hboth := absurd ((h.isActive_of_main hmain).symm.trans hboth.2) nofun
  seen := h.seen
  one := h.one
  ticks := nofun
  rests _ := (h.ticks _ hmain).2
  handles := h.handles
  returned := h.returned
  quiet := h.quiet

/-- While a load writes, no tick is under way. -/
lemma Inv.mainLoop_rests (h : s.Inv) (hactive : s.loader.isActive = true) :
    (s.bus .mainLoop).cs = false := by
  refine h.rests ?_
  cases hmain : s.main with
  | none => rfl
  | some p => exact absurd ((h.isActive_of_main hmain).symm.trans hactive) nofun

lemma Inv.go_interrupt (h : s.Inv) {a : Access} {k : Word → Steps Outcome}
    (hisr : s.isr = some (.access a k)) (w : Word) :
    ({ s.push .interrupt a with isr := some (k w) } : System).Inv := by
  have hbus : (s.push .interrupt a).bus .mainLoop = s.bus .mainLoop := push_other s _ _ a (by decide)
  have hhandles : ∀ p ∈ some (k w), Within Selects (fun _ _ => True)
      (fun on o => on = false ∧ Outcome.Fits s.loader o)
      ((s.push .interrupt a).bus .interrupt).cs p := by
    rintro p ⟨⟩
    rw [push_bus, Bus.take_cs]
    exact (h.handles _ hisr).2 w _ rfl
  have hticks : ∀ p ∈ s.main, s.job.pending = true ∧
      Drives ((s.push .interrupt a).bus .mainLoop).cs false p := by
    rw [hbus]
    exact h.ticks
  have hrests : s.main = none → ((s.push .interrupt a).bus .mainLoop).cs = false := by
    rw [hbus]
    exact h.rests
  cases hactive : s.loader.isActive with
  | true =>
    have hoff := h.mainLoop_rests hactive
    obtain ⟨hseen, hfollows⟩ := push_interrupt h hoff a
    refine ⟨h.apart, hseen, .inr ⟨(congrArg Bus.cs hbus).trans hoff, hfollows⟩, hticks, hrests,
      hhandles, nofun, ?_⟩
    intro p _ hrest
    exact absurd (hactive.symm.trans hrest) nofun
  | false =>
    -- a handler that checks a region reads the window only
    obtain ⟨hoff, hsilent, hk⟩ := h.quiet _ hisr hactive
    have hown : (s.push .interrupt a).bus .interrupt = s.bus .interrupt := by
      rw [push_bus, Bus.take_silent _ hsilent]
    have hwire : (s.push .interrupt a).wire = s.wire := by
      rw [push_wire, Bus.take_silent _ hsilent]
    refine ⟨h.apart, ?_, ?_, hticks, hrests, hhandles, nofun, ?_⟩
    · change (s.push .interrupt a).wire.seen.Perm _
      rw [hwire]
      change s.wire.seen.Perm (((s.push .interrupt a).bus .mainLoop).seen ++
        ((s.push .interrupt a).bus .interrupt).seen)
      rw [hbus, hown]
      exact h.seen
    · change ((s.push .interrupt a).bus .interrupt).cs = false ∧
          (s.push .interrupt a).wire.Follows ((s.push .interrupt a).bus .mainLoop) ∨
        ((s.push .interrupt a).bus .mainLoop).cs = false ∧
          (s.push .interrupt a).wire.Follows ((s.push .interrupt a).bus .interrupt)
      rw [hwire, hown, hbus]
      exact h.one
    · rintro p ⟨⟩ _
      exact ⟨(congrArg Bus.cs hown).trans hoff, hk w _ rfl⟩

lemma Inv.end_interrupt (h : s.Inv) {o : Outcome} (hisr : s.isr = some (.ret o))
    (ha : s.ArmsAlone (.go w)) : (({ s with isr := none } : System).store o).Inv := by
  obtain ⟨hoff, hfits⟩ := h.handles _ hisr
  -- what the outcome leaves as it was
  have hrest (job : Job) (loader : BitstreamLoader) (socket : UdpSocket)
      (hapart : ¬ (job.pending = true ∧ loader.isActive = true))
      (hmain : ∀ p ∈ s.main, job.pending = true) :
      (⟨job, loader, socket, s.main, none, s.trace⟩ : System).Inv :=
    ⟨hapart, h.seen, h.one, fun p hp => ⟨hmain p hp, (h.ticks p hp).2⟩, h.rests, nofun, fun _ => hoff,
      nofun⟩
  have hpending : ∀ p ∈ s.main, s.job.pending = true := fun p hp => (h.ticks p hp).1
  have hsame := hrest s.job s.loader s.socket h.apart hpending
  cases o with
  | queued r kind addr len =>
    cases r with
    | error e => exact hsame
    | ok u =>
      rw [store]
      split
      · exact hsame
      next hp =>
        have hp := Bool.eq_false_iff.mpr hp
        rw [ArmsAlone, hisr] at ha
        refine hrest _ s.loader s.socket (fun hboth => absurd ((ha hp).symm.trans hboth.2) nofun) ?_
        intro p hmain
        exact absurd (hp.symm.trans (hpending p hmain)) nofun
  | started r server filename =>
    cases r with
    | error e => exact hsame
    | ok u =>
      refine hrest s.job _ s.socket ?_ hpending
      rintro ⟨hp, hactive⟩
      rw [ArmsAlone, hisr] at ha
      by_cases hlong : MAX_FILENAME < filename.length
      · simp only [BitstreamLoader.begin, if_pos hlong] at hactive
        exact h.apart ⟨hp, hactive⟩
      · exact absurd ((ha (not_lt.mp hlong)).symm.trans hp) nofun
  | busy => exact hsame
  | polled p =>
    refine hrest s.job p.loader p.socket ?_ hpending
    rintro ⟨hp, hactive⟩
    exact h.apart ⟨hp, hfits p rfl hactive⟩
  | closed socket => exact hrest s.job s.loader socket h.apart hpending

theorem Inv.next (h : s.Inv) (ha : s.ArmsAlone e) : (s.next b e).Inv := by
  cases e with
  | arrive d =>
    rw [System.next]
    split
    · exact h
    · exact h.arrive _
  | interrupt i =>
    rw [System.next]
    split
    · exact h
    next hidle => exact h.interrupt (Option.not_isSome_iff_eq_none.mp hidle) i
  | turn =>
    rw [System.next]
    split
    · exact h
    next hready =>
      rw [not_or, not_or] at hready
      obtain ⟨-, hmain, hp⟩ := hready
      exact h.turn (Option.not_isSome_iff_eq_none.mp hmain) (Bool.not_eq_false _ ▸ hp) _
  | go w =>
    rw [System.next]
    cases hisr : s.isr with
    | some p =>
      cases p with
      | access a k => exact h.go_interrupt hisr w
      | ret o => exact h.end_interrupt hisr ha
      | hang => exact h
    | none =>
      cases hmain : s.main with
      | some p =>
        cases p with
        | access a k =>
          have hinv := h.go_main hisr hmain w
          rwa [push, hisr] at hinv
        | ret f =>
          have hinv := h.end_main hmain
          rwa [hisr] at hinv
        | hang => exact h
      | none => exact h

end Steps

/-- Only a handler that arms a writer beside the other one lets both have the chip at once. -/
lemma armsAlone_of_apart (h : (s.next b e).Apart) : s.ArmsAlone e := by
  cases e with
  | arrive d => trivial
  | interrupt i => trivial
  | turn => trivial
  | go w =>
    rw [ArmsAlone]
    cases hisr : s.isr with
    | none => trivial
    | some p =>
      cases p with
      | access a k => trivial
      | hang => trivial
      | ret o =>
        rw [System.next, hisr] at h
        cases o with
        | queued r kind addr len =>
          cases r with
          | error e => trivial
          | ok u =>
            intro hp
            simp only [store, hp] at h
            exact Bool.eq_false_iff.mpr fun hactive => h.1 ⟨rfl, hactive⟩
        | started r server filename =>
          cases r with
          | error e => trivial
          | ok u =>
            intro hname
            refine Bool.eq_false_iff.mpr fun hp => h.1 ⟨hp, ?_⟩
            simp [store, BitstreamLoader.begin, not_lt.mpr hname, BitstreamLoader.isActive]
        | busy => trivial
        | polled p => trivial
        | closed socket => trivial

/-- A job and a load that are both armed, and a poll that comes within the first command of a tick. -/
def scramble : List Event :=
  [.interrupt (.queue .selfTest (.ofNat 32 SCRATCH_BASE) 4096), .go 0,
    .interrupt (.start 0 []), .go 0xBD, .go 0xB3, .go 0,
    .interrupt (.poll ⟨0, true, true⟩), .go 0,
    .arrive (⟨0, 69⟩, [0, 3, 0, 1, 0xFF, 0xFF, 0xBD, 0xB3]),
    .turn, .go 0, .go 0, .go 1, .go 0,
    .interrupt (.poll ⟨1, true, true⟩), .go 0xBD, .go 0xB3, .go 0, .go 0,
    .go 1, .go 0, .go 2, .go 0, .go 1, .go 0, .go 2, .go 0, .go 0]

example : (commands ((scramble.foldl (System.next ⟨60000000, 3⟩) {}).trace.map Prod.snd)) =
    [[0x05, 0x05, 0x00]] := by decide +kernel

end System

end Ledwall.Flash.Registers
