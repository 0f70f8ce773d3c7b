import Ledwall.Library.Rounds
import Ledwall.Library.Runs
import Ledwall.Server.Renderer

/-! The player of a library: which film comes next, while a worker opens it ahead of its turn. -/

namespace Ledwall.Server.Shuffling

open Ledwall.Library.Rounds Ledwall.Library.Runs
open Ledwall.Server.Rendering (Text)

/-- A generator: how it shuffles a list, and the place it chooses in one. -/
structure Rng where
  shuffle : ℕ → List Text → List Text
  choice : ℕ → ℕ
  shuffle_perm : ∀ n xs, (shuffle n xs).Perm xs

/-- The `prewarm` thread: `warmed` has handed its decoder over and is about to clear the flag. -/
inductive Worker
  | idle
  | opening (path : Text)
  | warmed
  deriving DecidableEq

/-- Where the caller is in `next_frame`, between two accesses of what it shares with the worker.
`readNxt` and `readWarming` are the two halves of the test in `_prewarm`, with the turn of the loop
that they go back to, if any. -/
inductive Pc
  | idle
  | turn (k : ℕ)
  | test (k : ℕ)
  | advance (k : ℕ)
  | readNxt (back : Option ℕ)
  | readWarming (back : Option ℕ)
  deriving DecidableEq

/-- A player. Decoders are known by their films, and `played` is the films that were put on, in
order. -/
structure Player where
  pool : List Text
  random : Bool
  bag : List Text
  current : Option Text
  dec : Option Text
  nxt : Option Text
  nxtPath : Option Text
  warming : Bool
  worker : Worker
  pc : Pc
  draws : ℕ
  played : List Text

/-- What can happen next: the caller goes on, its decoder at the end of its film or not; the worker
hands over what it opened, or nothing; the worker clears the flag. -/
inductive Event
  | caller (ended : Bool)
  | handOver (opened : Bool)
  | clear

namespace Player

variable (rng : Rng)

/-- The films that may be chosen at random: not the one on screen, while there are others. -/
def choices (p : Player) : List Text :=
  match p.current with
  | none => p.pool
  | some c => if c ≠ [] ∧ 1 < p.pool.length then p.pool.filter (· ≠ c) else p.pool

/-- A new bag, in which the film on screen does not come first. -/
def refill (p : Player) : List Text :=
  let bag := rng.shuffle p.draws p.pool
  match bag, p.current with
  | first :: rest, some c => if c ≠ [] ∧ 1 < bag.length ∧ first = c then rest ++ [first] else bag
  | _, _ => bag

/-- `_pick`, which raises when there is nothing to pick from. -/
def pick (p : Player) : Option (Text × Player) :=
  if p.random then
    match p.choices[rng.choice p.draws % p.choices.length]? with
    | none => none
    | some path => some (path, { p with draws := p.draws + 1 })
  else
    match (if p.bag = [] then p.refill rng else p.bag) with
    | [] => none
    | path :: rest => some (path, { p with bag := rest, draws := p.draws + 1 })

/-- The second half of `_prewarm`: a film is picked and the worker started on it. -/
def startWorker (p : Player) : Option Player :=
  (p.pick rng).map fun r =>
    { r.2 with nxtPath := some r.1, warming := true, worker := .opening r.1 }

def back (p : Player) : Option ℕ → Player
  | none => { p with pc := .idle }
  | some k => { p with pc := .turn k }

/-- `_advance`, up to its `_prewarm`. -/
def advance (p : Player) : Option Player :=
  match p.nxt with
  | some film =>
    some { p with
      dec := some film, current := p.nxtPath, nxt := none, nxtPath := none, played := p.played ++ [film] }
  | none => (p.pick rng).map fun r =>
    { r.2 with current := some r.1, dec := some r.1, played := p.played ++ [r.1] }

/-- A call that raises is over. -/
def orRaise (p : Player) : Option Player → Player
  | some q => q
  | none => { p with pc := .idle }

/-- The caller's next step. -/
def caller (p : Player) (ended : Bool) : Player :=
  match p.pc with
  | .idle => { p with pc := .turn 0 }
  | .turn k => { p with pc := if k < 4 ∧ ended then .test k else .idle }
  | .test k => { p with pc := if p.nxt.isNone then .readNxt none else .advance k }
  | .advance k => p.orRaise ((p.advance rng).map fun q => { q with pc := .readNxt (some (k + 1)) })
  | .readNxt ret => if p.nxt.isSome then p.back ret else { p with pc := .readWarming ret }
  | .readWarming ret =>
    if p.warming then p.back ret else p.orRaise ((p.startWorker rng).map fun q => q.back ret)

def step (p : Player) : Event → Player
  | .caller ended => p.caller rng ended
  | .handOver opened =>
    match p.worker with
    | .opening path => { p with nxt := if opened then some path else none, worker := .warmed }
    | _ => p
  | .clear =>
    match p.worker with
    | .warmed => { p with warming := false, worker := .idle }
    | _ => p

/-- `ShufflePlayer(…)`: the first film is put on, and the worker started on the second. -/
def create (pool : List Text) (random : Bool) : Option Player :=
  let p : Player := ⟨pool, random, [], none, none, none, none, false, .idle, .idle, 0, []⟩
  (p.advance rng).bind fun p => p.startWorker rng

def run (p : Player) (events : List Event) : Player := events.foldl (step rng) p

/-- The film that was picked and has not been put on: the one that is open, or being opened. -/
def pending (p : Player) : List Text :=
  match p.nxt, p.worker with
  | some film, _ => [film]
  | none, .opening path => [path]
  | none, _ => []

/-- The worker hands its decoder over and clears the flag outside the test of `_prewarm`, never
between its two halves. -/
def TestsTogether (p : Player) (e : Event) : Prop :=
  ∀ ended ret, e = .caller ended → p.pc = .readWarming ret → p.warming = false → p.nxt = none

/-- The worker does open what it was started on. -/
def Opens (p : Player) (e : Event) : Prop := ∀ path, p.worker = .opening path → e ≠ .handOver false

/-- What the player keeps while the test is never split. -/
structure Settled (p : Player) : Prop where
  screen : ∃ film, p.dec = some film ∧ p.current = some film ∧ p.played.getLast? = some film
  warming : p.warming = true ↔ p.worker ≠ .idle
  opening : ∀ path, p.worker = .opening path → p.nxt = none ∧ p.nxtPath = some path
  ready : ∀ film, p.nxt = some film → p.nxtPath = some film
  advancing : ∀ k, p.pc = .advance k → p.nxt.isSome

/-- What a step does to the films picked and put on: nothing; the film that was waiting is put on; one
is picked; the one that was waiting is lost, where films can be. -/
inductive Moved (rng : Rng) (lossy : Prop) (p q : Player) : Prop
  | stay (h : q.played = p.played ∧ q.pending = p.pending ∧ q.bag = p.bag)
  | putOn (film : Text) (hp : p.pending = [film])
      (h : q.played = p.played ++ [film] ∧ q.pending = [] ∧ q.bag = p.bag)
  | draw (path : Text) (r : Player) (hp : p.pending = []) (hpick : p.pick rng = some (path, r))
      (h : q.played = p.played ∧ q.pending = [path] ∧ q.bag = r.bag)
  | lose (path : Text) (hl : lossy) (hp : p.pending = [path])
      (h : q.played = p.played ∧ q.pending = [] ∧ q.bag = p.bag)

/-- A step from a settled player to another one. -/
structure Steps (rng : Rng) (lossy : Prop) (p q : Player) : Prop where
  settled : q.Settled
  pool : q.pool = p.pool
  random : q.random = p.random
  moved : Moved rng lossy p q

variable {rng : Rng} {lossy : Prop} {p q r : Player} {path : Text}

lemma pick_frame (h : p.pick rng = some (path, r)) :
    r = { p with bag := r.bag, draws := p.draws + 1 } := by
  unfold pick at h
  split at h
  · split at h
    · cases h
    · cases h
      rfl
  · split at h
    · cases h
    · cases h
      rfl

lemma Settled.withPc (h : p.Settled) (pc : Pc) (hpc : ∀ k, pc = .advance k → p.nxt.isSome) :
    ({ p with pc := pc } : Player).Settled :=
  ⟨h.screen, h.warming, h.opening, h.ready, hpc⟩

lemma Settled.back (h : p.Settled) (ret : Option ℕ) : (p.back ret).Settled := by
  cases ret with
  | none => exact h.withPc .idle (by intro k hk; cases hk)
  | some k => exact h.withPc (.turn k) (by intro k hk; cases hk)

lemma back_same (p : Player) (ret : Option ℕ) :
    (p.back ret).played = p.played ∧ (p.back ret).pending = p.pending ∧ (p.back ret).bag = p.bag ∧
      (p.back ret).pool = p.pool ∧ (p.back ret).random = p.random := by
  cases ret <;> exact ⟨rfl, rfl, rfl, rfl, rfl⟩

lemma pending_of_none (h : p.nxt = none) (hw : p.worker = .idle) : p.pending = [] := by
  simp [pending, h, hw]

lemma startWorker_spec (h : p.Settled) (hidle : p.worker = .idle) (hn : p.nxt = none)
    (hs : p.startWorker rng = some q) : Steps rng lossy p q := by
  obtain ⟨⟨path, r⟩, hpick, rfl⟩ := Option.map_eq_some_iff.mp hs
  have hr := pick_frame hpick
  refine ⟨⟨?_, by simp, ?_, ?_, ?_⟩, ?_, ?_,
    .draw path r (pending_of_none hn hidle) hpick ⟨?_, ?_, rfl⟩⟩
  · rw [hr]
    exact h.screen
  · intro path' hw
    cases hw
    rw [hr]
    exact ⟨hn, rfl⟩
  · intro film hf
    rw [hr] at hf
    simp only [hn] at hf
    cases hf
  · intro k hk
    rw [hr] at hk ⊢
    exact h.advancing k hk
  · rw [hr]
  · rw [hr]
  · rw [hr]
  · rw [hr]
    simp [pending, hn]

lemma Steps.back (h : Steps rng lossy p q) (ret : Option ℕ) : Steps rng lossy p (q.back ret) := by
  obtain ⟨hplayed, hpending, hbag, hpool, hrandom⟩ := back_same q ret
  refine ⟨h.settled.back ret, hpool.trans h.pool, hrandom.trans h.random, ?_⟩
  cases h.moved with
  | stay hm => exact .stay ⟨hplayed.trans hm.1, hpending.trans hm.2.1, hbag.trans hm.2.2⟩
  | putOn film hp hm =>
    exact .putOn film hp ⟨hplayed.trans hm.1, hpending.trans hm.2.1, hbag.trans hm.2.2⟩
  | draw path r hp hpick hm =>
    exact .draw path r hp hpick ⟨hplayed.trans hm.1, hpending.trans hm.2.1, hbag.trans hm.2.2⟩
  | lose path hl hp hm =>
    exact .lose path hl hp ⟨hplayed.trans hm.1, hpending.trans hm.2.1, hbag.trans hm.2.2⟩

lemma Settled.steps (h : p.Settled) : Steps rng lossy p p := ⟨h, rfl, rfl, .stay ⟨rfl, rfl, rfl⟩⟩

/-- Everything a step can do. -/
theorem step_moved (rng : Rng) (h : p.Settled) {e : Event} (ht : p.TestsTogether e) :
    Steps rng (¬ p.Opens e) p (p.step rng e) := by
  cases e with
  | handOver opened =>
    cases hw : p.worker with
    | idle | warmed =>
      simp only [step, hw]
      exact ⟨h, rfl, rfl, .stay ⟨rfl, rfl, rfl⟩⟩
    | opening path =>
      obtain ⟨hn, hpath⟩ := h.opening path hw
      simp only [step, hw]
      refine ⟨⟨h.screen, ?_, ?_, ?_, ?_⟩, rfl, rfl, ?_⟩
      · simp [h.warming.mpr (by simp [hw])]
      · intro path' hw'
        cases hw'
      · intro film hf
        cases opened with
        | true => rw [← Option.some.inj hf, hpath]
        | false => cases hf
      · intro k hk
        have := h.advancing k hk
        simp [hn] at this
      · cases opened with
        | true => exact .stay ⟨rfl, by simp [pending, hn, hw], rfl⟩
        | false =>
          exact .lose path (fun ho => ho path hw rfl) (by simp [pending, hn, hw]) ⟨rfl, rfl, rfl⟩
  | clear =>
    cases hw : p.worker with
    | idle | opening =>
      simp only [step, hw]
      exact ⟨h, rfl, rfl, .stay ⟨rfl, rfl, rfl⟩⟩
    | warmed =>
      simp only [step, hw]
      refine ⟨⟨h.screen, by simp, ?_, h.ready, h.advancing⟩, rfl, rfl, .stay ⟨rfl, ?_, rfl⟩⟩
      · intro path hw'
        cases hw'
      · cases hn : p.nxt <;> simp [pending, hn, hw]
  | caller ended =>
    cases hpc : p.pc with
    | idle =>
      simp only [step, caller, hpc]
      exact ⟨h.withPc _ (by intro k hk; cases hk), rfl, rfl, .stay ⟨rfl, rfl, rfl⟩⟩
    | turn k =>
      simp only [step, caller, hpc]
      refine ⟨h.withPc _ ?_, rfl, rfl, .stay ⟨rfl, rfl, rfl⟩⟩
      intro j hj
      split at hj <;> cases hj
    | test k =>
      simp only [step, caller, hpc]
      refine ⟨h.withPc _ ?_, rfl, rfl, .stay ⟨rfl, rfl, rfl⟩⟩
      intro j hj
      cases hn : p.nxt with
      | none => simp [hn] at hj
      | some film => rfl
    | advance k =>
      obtain ⟨film, hn⟩ := Option.isSome_iff_exists.mp (h.advancing k hpc)
      have hpath := h.ready film hn
      have hidle : ∀ path, p.worker ≠ .opening path := by
        intro path hw
        rw [(h.opening path hw).1] at hn
        cases hn
      simp only [step, caller, hpc, advance, hn, Option.map_some, orRaise]
      refine ⟨⟨⟨film, rfl, hpath, by simp⟩, h.warming, ?_, ?_, ?_⟩, rfl, rfl,
        .putOn film (by simp [pending, hn]) ⟨rfl, ?_, rfl⟩⟩
      · intro path hw
        exact absurd hw (hidle path)
      · intro film hf
        cases hf
      · intro j hj
        cases hj
      · cases hw : p.worker with
        | opening path => exact absurd hw (hidle path)
        | idle | warmed => rfl
    | readNxt ret =>
      simp only [step, caller, hpc]
      split
      · exact h.steps.back ret
      · exact ⟨h.withPc _ (by intro k hk; cases hk), rfl, rfl, .stay ⟨rfl, rfl, rfl⟩⟩
    | readWarming ret =>
      simp only [step, caller, hpc]
      cases hwarm : p.warming with
      | true =>
        exact h.steps.back ret
      | false =>
        have hn := ht ended ret rfl hpc hwarm
        have hidle : p.worker = .idle := by
          by_contra hne
          rw [h.warming.mpr hne] at hwarm
          cases hwarm
        cases hs : p.startWorker rng with
        | none =>
          simp only [Option.map_none, orRaise, Bool.false_eq_true, if_false]
          exact ⟨h.withPc _ (by intro k hk; cases hk), rfl, rfl, .stay ⟨rfl, rfl, rfl⟩⟩
        | some q =>
          simp only [Option.map_some, orRaise, Bool.false_eq_true, if_false]
          exact (startWorker_spec h hidle hn hs).back ret

section Bags

/-- In bag mode: what was put on, the film that waits and the bag make up whole rounds, in which no
film stands next to itself. -/
structure InRounds (pool : List Text) (p : Player) : Prop where
  pool_eq : p.pool = pool
  bagged : p.random = false
  dealt : Dealt pool (p.played ++ p.pending ++ p.bag)
  apart : 2 ≤ pool.length → Apart (p.played ++ p.pending ++ p.bag)

/-- At random: what was put on and the film that waits are films of the pool, none next to itself. -/
structure AtRandom (pool : List Text) (p : Player) : Prop where
  pool_eq : p.pool = pool
  chosen : p.random = true
  mem : ∀ path ∈ p.played ++ p.pending, path ∈ pool
  apart : 2 ≤ pool.length → Apart (p.played ++ p.pending)

variable {pool : List Text}

lemma refill_perm (rng : Rng) (p : Player) : (p.refill rng).Perm p.pool := by
  have hperm := rng.shuffle_perm p.draws p.pool
  unfold refill
  generalize rng.shuffle p.draws p.pool = bag at hperm
  cases bag with
  | nil => exact hperm
  | cons first rest =>
    cases p.current with
    | none => exact hperm
    | some c =>
      simp only
      split
      · exact (List.perm_append_singleton first rest).trans hperm
      · exact hperm

lemma refill_head (hnodup : p.pool.Nodup) (hlen : 2 ≤ p.pool.length) {c : Text}
    (hc : p.current = some c) (hne : c ≠ []) : ∀ y ∈ (p.refill rng).head?, c ≠ y := by
  have hperm := rng.shuffle_perm p.draws p.pool
  unfold refill
  generalize rng.shuffle p.draws p.pool = bag at hperm
  have hlen' : 2 ≤ bag.length := hperm.length_eq ▸ hlen
  have hnodup' : bag.Nodup := hperm.nodup_iff.mpr hnodup
  match bag with
  | [] => simp at hlen'
  | [_] => simp at hlen'
  | first :: second :: rest =>
    rw [hc]
    simp only
    intro y hy
    split at hy
    · next h =>
      have hfirst : first = c := h.2.2
      obtain rfl : second = y := by simpa using hy
      have hnot := (List.nodup_cons.mp hnodup').1
      rintro rfl
      exact hnot (hfirst ▸ List.mem_cons_self)
    · next h =>
      obtain rfl : first = y := by simpa using hy
      intro hcy
      exact h ⟨hne, by simp, hcy.symm⟩

lemma pick_bag (hb : p.random = false) (h : p.pick rng = some (path, r)) :
    (if p.bag = [] then p.refill rng else p.bag) = path :: r.bag := by
  unfold pick at h
  rw [hb] at h
  simp only [Bool.false_eq_true, if_false] at h
  split at h
  · cases h
  · next hbag =>
    cases h
    exact hbag

lemma mem_of_dealt {xs : List Text} (h : Dealt pool xs) (hx : path ∈ xs) : path ∈ pool := by
  obtain ⟨rounds, hperm, rfl⟩ := h
  obtain ⟨round, hround, hmem⟩ := List.mem_flatten.mp hx
  exact (hperm round hround).mem_iff.mp hmem

lemma InRounds.refill (hi : p.InRounds pool) (h : p.Settled) (hnodup : pool.Nodup)
    (hne : [] ∉ pool) (hp : p.pending = []) (hb : p.bag = []) :
    Dealt pool (p.played ++ p.refill rng) ∧
      (2 ≤ pool.length → Apart (p.played ++ p.refill rng)) := by
  have hdealt : Dealt pool p.played := by simpa [hp, hb] using hi.dealt
  have hperm : (p.refill rng).Perm pool := hi.pool_eq ▸ refill_perm rng p
  refine ⟨hdealt.append hperm, ?_⟩
  intro hlen
  obtain ⟨film, -, hcurrent, hlast⟩ := h.screen
  have hplayed : Apart p.played := by simpa [hp, hb] using hi.apart hlen
  rw [apart_append_iff]
  refine ⟨hplayed, .nodup (hperm.nodup_iff.mpr hnodup), ?_⟩
  intro x hx y hy
  obtain rfl : film = x := Option.some.inj (hlast.symm.trans hx)
  have hmem : film ∈ pool := mem_of_dealt hdealt (List.mem_of_getLast? hlast)
  exact refill_head (hi.pool_eq ▸ hnodup) (hi.pool_eq ▸ hlen) hcurrent (fun h => hne (h ▸ hmem)) y hy

lemma InRounds.moved (hi : p.InRounds pool) (h : p.Settled) (hnodup : pool.Nodup) (hne : [] ∉ pool)
    (hs : Steps rng lossy p q) (hl : ¬ lossy) : q.InRounds pool := by
  have hpool : q.pool = pool := hs.pool.trans hi.pool_eq
  have hbagged : q.random = false := hs.random.trans hi.bagged
  suffices hsame : Dealt pool (q.played ++ q.pending ++ q.bag) ∧
      (2 ≤ pool.length → Apart (q.played ++ q.pending ++ q.bag)) from ⟨hpool, hbagged, hsame.1, hsame.2⟩
  cases hs.moved with
  | stay hm =>
    rw [hm.1, hm.2.1, hm.2.2]
    exact ⟨hi.dealt, hi.apart⟩
  | putOn film hp hm =>
    have hall : q.played ++ q.pending ++ q.bag = p.played ++ p.pending ++ p.bag := by
      rw [hm.1, hm.2.1, hm.2.2, hp, List.append_nil]
    rw [hall]
    exact ⟨hi.dealt, hi.apart⟩
  | draw path r hp hpick hm =>
    have hbag := pick_bag hi.bagged hpick
    have hall : q.played ++ q.pending ++ q.bag = p.played ++ (path :: r.bag) := by
      rw [hm.1, hm.2.1, hm.2.2]
      simp
    rw [hall, ← hbag]
    split
    · next hb => exact hi.refill h hnodup hne hp hb
    · have hsame : p.played ++ p.pending ++ p.bag = p.played ++ p.bag := by simp [hp]
      rw [← hsame]
      exact ⟨hi.dealt, hi.apart⟩
  | lose path hlossy => exact absurd hlossy hl

lemma pick_random (hr : p.random = true) (h : p.pick rng = some (path, r)) :
    path ∈ p.pool ∧ ∀ c, p.current = some c → c ≠ [] → 2 ≤ p.pool.length → path ≠ c := by
  unfold pick at h
  rw [hr] at h
  simp only [if_true] at h
  split at h
  · cases h
  · next hget =>
    cases h
    have hmem := List.mem_of_getElem? hget
    unfold choices at hmem
    constructor
    · split at hmem
      · exact hmem
      · split at hmem
        · exact (List.mem_filter.mp hmem).1
        · exact hmem
    · intro c hc hne hlen
      rw [hc] at hmem
      simp only [ne_eq, hne, not_false_eq_true, true_and, show 1 < p.pool.length from hlen,
        if_true] at hmem
      simpa using (List.mem_filter.mp hmem).2

lemma AtRandom.moved (hi : p.AtRandom pool) (h : p.Settled) (hne : [] ∉ pool)
    (hs : Steps rng lossy p q) : q.AtRandom pool := by
  have hpool : q.pool = pool := hs.pool.trans hi.pool_eq
  have hchosen : q.random = true := hs.random.trans hi.chosen
  suffices hsame : (∀ path ∈ q.played ++ q.pending, path ∈ pool) ∧
      (2 ≤ pool.length → Apart (q.played ++ q.pending)) from ⟨hpool, hchosen, hsame.1, hsame.2⟩
  cases hs.moved with
  | stay hm =>
    rw [hm.1, hm.2.1]
    exact ⟨hi.mem, hi.apart⟩
  | putOn film hp hm =>
    have hall : q.played ++ q.pending = p.played ++ p.pending := by
      rw [hm.1, hm.2.1, hp, List.append_nil]
    rw [hall]
    exact ⟨hi.mem, hi.apart⟩
  | draw path r hp hpick hm =>
    obtain ⟨hmem, hnot⟩ := pick_random hi.chosen hpick
    have hplayed : ∀ x ∈ p.played, x ∈ pool := fun x hx => hi.mem x (List.mem_append_left _ hx)
    rw [hm.1, hm.2.1]
    constructor
    · intro x hx
      rcases List.mem_append.mp hx with hx | hx
      · exact hplayed x hx
      · exact List.mem_singleton.mp hx ▸ hi.pool_eq ▸ hmem
    · intro hlen
      obtain ⟨film, -, hcurrent, hlast⟩ := h.screen
      have hfilm : film ≠ [] := fun he => hne (he ▸ hplayed film (List.mem_of_getLast? hlast))
      have hapart : Apart p.played := by simpa [hp] using hi.apart hlen
      rw [apart_append_iff]
      refine ⟨hapart, List.isChain_singleton path, ?_⟩
      intro x hx y hy
      obtain rfl : film = x := Option.some.inj (hlast.symm.trans hx)
      obtain rfl : path = y := by simpa using hy
      exact (hnot film hcurrent hfilm (hi.pool_eq ▸ hlen)).symm
  | lose path _ hp hm =>
    rw [hm.1, hm.2.1, List.append_nil]
    exact ⟨fun x hx => hi.mem x (List.mem_append_left _ hx), fun hlen => (hi.apart hlen).left⟩

end Bags

section Runs

variable {pool : List Text}

/-- What a run of the player is asked: that the worker never finishes inside the test of `_prewarm`,
and in bag mode that it opens what it was started on. -/
def Undisturbed (p : Player) (e : Event) : Prop := p.TestsTogether e ∧ (p.random = false → p.Opens e)

lemma advance_spec {random : Bool} (hnodup : pool.Nodup)
    (h : advance rng ⟨pool, random, [], none, none, none, none, false, .idle, .idle, 0, []⟩ = some p) :
    p.Settled ∧ p.worker = .idle ∧ p.nxt = none ∧
      (random = false → p.InRounds pool) ∧ (random = true → p.AtRandom pool) := by
  obtain ⟨⟨path, r⟩, hpick, rfl⟩ := Option.map_eq_some_iff.mp h
  have hr := pick_frame hpick
  simp only at hr
  refine ⟨⟨⟨path, rfl, rfl, rfl⟩, ?_, ?_, ?_, ?_⟩, ?_, ?_, ?_, ?_⟩
  · rw [hr]
    simp
  · intro path' hw
    rw [hr] at hw
    cases hw
  · intro film hf
    rw [hr] at hf
    cases hf
  · intro k hk
    rw [hr] at hk
    cases hk
  · rw [hr]
  · rw [hr]
  · rintro rfl
    have hbag := pick_bag rfl hpick
    simp only [if_true] at hbag
    have hperm : (path :: r.bag).Perm pool := hbag ▸ refill_perm rng _
    have hall : ([] ++ [path] : List Text) ++ [] ++ r.bag = path :: r.bag := rfl
    refine ⟨by rw [hr], by rw [hr], ?_, fun _ => ?_⟩
    · rw [hr]
      simpa [pending] using Dealt.nil.append hperm
    · rw [hr]
      simpa [pending] using Apart.nodup (hperm.nodup_iff.mpr hnodup)
  · rintro rfl
    have hmem := (pick_random rfl hpick).1
    refine ⟨by rw [hr], by rw [hr], ?_, fun _ => ?_⟩
    · rw [hr]
      simpa [pending] using hmem
    · rw [hr]
      simp [pending, Apart]

lemma create_spec {random : Bool} (hnodup : pool.Nodup) (hne : [] ∉ pool)
    (h : create rng pool random = some p) :
    p.Settled ∧ (random = false → p.InRounds pool) ∧ (random = true → p.AtRandom pool) := by
  obtain ⟨first, hfirst, hstart⟩ := Option.bind_eq_some_iff.mp h
  obtain ⟨hsettled, hidle, hn, hbag, hrandom⟩ := advance_spec hnodup hfirst
  have hs : Steps rng False first p := startWorker_spec hsettled hidle hn hstart
  exact ⟨hs.settled, fun hb => (hbag hb).moved hsettled hnodup hne hs id,
    fun hr => (hrandom hr).moved hsettled hne hs⟩

/-- In a run in which nothing disturbs the worker, the films that were put on are rounds of the pool
in bag mode, and in either mode no film follows itself. -/
theorem played_in_rounds {random : Bool} (hnodup : pool.Nodup) (hne : [] ∉ pool)
    (h : create rng pool random = some p) (events : List Event)
    (hc : Always (fun p e q => q = step rng p e) Undisturbed p events) :
    (random = false → Dealing pool (p.run rng events).played) ∧
      (2 ≤ pool.length → Apart (p.run rng events).played) := by
  obtain ⟨hsettled, hbag, hrandom⟩ := create_spec hnodup hne h
  have hrun := run_foldl (step rng) p events
  cases random with
  | false =>
    have hinv : (p.run rng events).Settled ∧ (p.run rng events).InRounds pool := by
      refine hrun.invariant (I := fun q => q.Settled ∧ q.InRounds pool) ?_ ⟨hsettled, hbag rfl⟩ hc
      rintro s e t ⟨hs, hi⟩ ⟨htest, hopen⟩ rfl
      have hstep := step_moved rng hs htest
      exact ⟨hstep.settled, hi.moved hs hnodup hne hstep (not_not.mpr (hopen hi.bagged))⟩
    refine ⟨fun _ => ?_, fun hlen => (hinv.2.apart hlen).left.left⟩
    have hdealt := hinv.2.dealt
    rw [List.append_assoc] at hdealt
    exact hdealt.dealing
  | true =>
    have hinv : (p.run rng events).Settled ∧ (p.run rng events).AtRandom pool := by
      refine hrun.invariant (I := fun q => q.Settled ∧ q.AtRandom pool) ?_ ⟨hsettled, hrandom rfl⟩ hc
      rintro s e t ⟨hs, hi⟩ ⟨htest, -⟩ rfl
      have hstep := step_moved rng hs htest
      exact ⟨hstep.settled, hi.moved hs hne hstep⟩
    refine ⟨?_, fun hlen => (hinv.2.apart hlen).left⟩
    intro hf
    cases hf

end Runs

end Player

open Player

/-- A generator that leaves a list as it is and takes its first element. -/
def plainRng : Rng := ⟨fun _ xs => xs, fun _ => 0, fun _ xs => .refl xs⟩

def threeFilms : List Text := ["sea".toList, "fire".toList, "snow".toList]

/-- The player of three films, the first of them on screen and the worker at the second. -/
def threePlayer : Player where
  pool := threeFilms
  random := false
  bag := ["snow".toList]
  current := some "sea".toList
  dec := some "sea".toList
  nxt := none
  nxtPath := some "fire".toList
  warming := true
  worker := .opening "fire".toList
  pc := .idle
  draws := 2
  played := ["sea".toList]

/-- A film that ends once the next is open. -/
theorem played_in_rounds_two :
    threeFilms.Nodup ∧ [] ∉ threeFilms ∧ create plainRng threeFilms false = some threePlayer ∧
    Always (fun p e q => q = step plainRng p e) Undisturbed threePlayer
      [.handOver true, .clear, .caller false, .caller true, .caller true, .caller true] ∧
    Dealing threeFilms (threePlayer.run plainRng
      [.handOver true, .clear, .caller false, .caller true, .caller true, .caller true]).played ∧
    Apart (threePlayer.run plainRng
      [.handOver true, .clear, .caller false, .caller true, .caller true, .caller true]).played := by
  have hc : Always (fun p e q => q = step plainRng p e) Undisturbed threePlayer
      [.handOver true, .clear, .caller false, .caller true, .caller true, .caller true] := by
    simp only [always_next_cons, Undisturbed]
    refine ⟨⟨?_, ?_⟩, ⟨?_, ?_⟩, ⟨?_, ?_⟩, ⟨?_, ?_⟩, ⟨?_, ?_⟩, ⟨?_, ?_⟩, trivial⟩
    all_goals first
      | exact fun _ ret _ hpc => Pc.noConfusion hpc
      | exact fun _ _ _ he => Event.noConfusion he fun h => Bool.noConfusion h
      | exact fun _ _ _ he => Event.noConfusion he
  have hnodup : threeFilms.Nodup := by decide
  have hne : [] ∉ threeFilms := by decide
  have hcreate : create plainRng threeFilms false = some threePlayer := by rfl
  obtain ⟨hdealing, hapart⟩ := played_in_rounds hnodup hne hcreate _ hc
  exact ⟨hnodup, hne, hcreate, hc, hdealing rfl, hapart (by decide)⟩

/-- The second film cannot be opened: its turn is over before it has come. -/
def unopened : List Event :=
  [.handOver false, .clear, .caller false, .caller true, .caller true, .caller true, .caller true,
    .handOver true, .clear, .caller false, .caller true, .caller true, .caller true, .caller true,
    .caller true, .handOver true, .clear, .caller true, .caller true, .caller true]

/-- The second film is opened just while the caller is in the test of `_prewarm`: the third is picked
over it. -/
def overtaken : List Event :=
  [.caller false, .caller true, .caller true, .caller true, .handOver true, .clear, .caller true,
    .handOver true, .clear, .caller false, .caller true, .caller true, .caller true, .caller true,
    .caller true, .handOver true, .clear, .caller true, .caller true, .caller true]

/-- Either way the first film comes round again before the second has been on. -/
theorem second_film_lost :
    (threePlayer.run plainRng unopened).played = ["sea".toList, "snow".toList, "sea".toList] ∧
    (threePlayer.run plainRng overtaken).played = ["sea".toList, "snow".toList, "sea".toList] ∧
    ¬ ∀ (rng : Rng) (pool : List Text) (p : Player) (events : List Event), pool.Nodup →
      create rng pool false = some p → Dealing pool (p.run rng events).played := by
  have hplayed : (threePlayer.run plainRng unopened).played =
      ["sea".toList, "snow".toList, "sea".toList] := by decide
  refine ⟨hplayed, by decide, ?_⟩
  intro h
  have hdealing := h plainRng threeFilms threePlayer unopened (by decide) rfl
  rw [hplayed] at hdealing
  have hperm := hdealing.first (by decide) (by decide)
  have hmem : "fire".toList ∈ ["sea".toList, "snow".toList, "sea".toList] :=
    hperm.mem_iff.mpr (by decide)
  exact absurd hmem (by decide)

end Ledwall.Server.Shuffling
