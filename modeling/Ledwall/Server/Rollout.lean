import Ledwall.Library.Polling

/-! Rolling a firmware image across the cards, one card after another. -/

namespace Ledwall.Server.Firmware

open Ledwall.Library.Polling

/-- The object that a card's status is. -/
abbrev Status := List (String × String)

/-- A status, and whether the firmware that sends it is the one from before the reboot, which the
server is not told. -/
structure Answer where
  status : Status
  old : Bool

/-- What a card does from when an image is assigned to it: what it answers before, whether it accepts
the reboot, and what each poll after that brings. -/
structure Behaviour where
  before : Option Status
  accepts : Bool
  polls : ℕ → Poll (Option Answer)

structure Card where
  name : String
  host : String
  wallId : Option ℕ
  enabled : Bool
  firmware : Option String

/-- `DEFAULT_NAME` -/
def defaultName : String := "boot.bin"

/-- What a request is refused with, in both cases as a 400. -/
inductive Refusal
  | unsafeName (name : String)
  | noSuchFirmware (name : String)

/-- `SAFE_NAME`, whose `$` stands also ahead of a last line feed. -/
def safeName (name : String) : Bool :=
  let s := name.toList
  let s := if s.getLast? = some '\n' then s.dropLast else s
  match s with
  | [] => false
  | c :: cs => c.isAlphanum && cs.all (fun c => c.isAlphanum || c ∈ ['.', '_', '-']) && cs.length ≤ 63

/-- Which names are those of files in the firmware directory. -/
abbrev Images := String → Bool

structure AssignIn where
  firmware : Option String
  reboot : Bool
  verify : ℚ

structure Result where
  card : String
  host : String
  previous : Option String
  firmware : String
  rebooted : Bool := false
  back : Option Bool := none
  status : Option (List (String × Option String)) := none
  wasRunning : Option String := none
  wentDown : Option Bool := none
  nowRunning : Option String := none
  hint : Option String := none

section Assigning

/-- `deadline` and `down_deadline`, from when the reboot has been requested. -/
def deadline (verify : ℚ) : ℚ := max 5 verify

def downDeadline (verify : ℚ) : ℚ := min (deadline verify) 20

/-- `_running(host) is None` -/
def unanswered (a : Option Answer) : Bool := a.isNone

/-- `if st:`, which an empty object is not. -/
def answered : Option Answer → Bool
  | none => false
  | some a => a.status ≠ []

variable (images : Images)

/-- `os.path.isfile(_path(name))`, or why not. -/
def checkImage (name : String) : Except Refusal Unit :=
  if ¬ safeName name ∨ '/' ∈ name.toList ∨ ['.', '.'] <:+: name.toList then .error (.unsafeName name)
  else if ¬ images name then .error (.noSuchFirmware name)
  else .ok ()

/-- What a card that answers is reported with. -/
def reported (st : Status) : List (String × Option String) :=
  ["mac", "ip", "version", "bitmap_frames", "isr_count"].map fun key => (key, st.lookup key)

/-- The wait for the card to come back. -/
def comeBack (verify : ℚ) (b : Behaviour) (wentDown : Bool) (k : ℕ) (now : ℚ) (r : Result) : Result :=
  match wait answered 2 (deadline verify) b.polls k now with
  | .hit j _ =>
    let st := ((b.polls j).answer.map Answer.status).getD []
    { r with
      back := some true
      nowRunning := st.lookup "version"
      status := some (reported st)
      hint := if wentDown then none else
        some "the card never stopped answering, so it may not have rebooted; compare was_running/now_running" }
  | .late _ _ =>
    { r with
      back := some false
      hint := some "card did not answer in time. It netboots on every power cycle, so reassign the previous image and reboot to recover; nothing is written to its flash." }

/-- The wait for the card to go down, and then the one for it to come back. -/
def reboot (verify : ℚ) (b : Behaviour) (r : Result) : Result :=
  let r := { r with wasRunning := (b.before.getD []).lookup "version", rebooted := b.accepts }
  match wait unanswered (1 / 2) (downDeadline verify) b.polls 0 0 with
  | .hit k now => comeBack verify b true (k + 1) now { r with wentDown := some true }
  | .late k now => comeBack verify b false k now { r with wentDown := some false }

/-- `assign_firmware`, and the card as it is stored then. -/
def assignFirmware (body : AssignIn) (card : Card) (b : Behaviour) : Except Refusal (Result × Card) := do
  match body.firmware with
  | none => .ok ()
  | some name => checkImage images name
  let r : Result :=
    { card := card.name, host := card.host, previous := card.firmware,
      -- an empty name, which no image has, counts as none
      firmware := match body.firmware with
        | none | some "" => defaultName
        | some name => name }
  .ok (if body.reboot then reboot body.verify b r else r, { card with firmware := body.firmware })

end Assigning

structure RolloutIn where
  firmware : String
  wallId : Option ℕ
  verify : ℚ
  stopOnFailure : Bool

/-- What a rollout reports; `remaining` and the hint are there when it was halted. -/
structure Rolled where
  firmware : String
  halted : Bool
  completed : List Result
  remaining : Option (List String)
  hint : Option String

section Rollouts

variable (images : Images) (body : RolloutIn)

/-- The enabled cards of the wall, or of all walls. -/
def selected (cards : List (Card × Behaviour)) : List (Card × Behaviour) :=
  cards.filter fun c => (body.wallId.isNone || c.1.wallId == body.wallId) && c.1.enabled

/-- The loop over the cards, and the cards it has stored. -/
def rolloutLoop (cards : List (Card × Behaviour)) :
    List (Card × Behaviour) → List Result → List Card → Except Refusal (Rolled × List Card)
  | [], results, stored => .ok (⟨body.firmware, false, results, none, none⟩, stored)
  | c :: rest, results, stored => do
    let (r, card) ← assignFirmware images ⟨some body.firmware, true, body.verify⟩ c.1 c.2
    let results := results ++ [r]
    let stored := stored ++ [card]
    if r.back ≠ some true ∧ body.stopOnFailure then
      .ok (⟨body.firmware, true, results, some ((cards.drop results.length).map (·.1.name)),
        some (c.1.name ++ " did not come back; stopped before the rest")⟩, stored)
    else rolloutLoop cards rest results stored

/-- `rollout` -/
def rollout (cards : List (Card × Behaviour)) : Except Refusal (Rolled × List Card) := do
  checkImage images body.firmware
  rolloutLoop images body (selected body cards) (selected body cards) [] []

end Rollouts

section Meaning

variable (verify : ℚ) (b : Behaviour)

/-- How the wait for a card to go down ends: whether it did, which poll comes next and when. -/
inductive DownEnds : Bool → ℕ → ℚ → Prop
  | down (n : ℕ) (h : FirstHit unanswered (1 / 2) (downDeadline verify) b.polls 0 0 n) :
    DownEnds true (n + 1) (instant (1 / 2) b.polls 0 0 n + (b.polls n).takes)
  | never (n : ℕ) (h : Expires unanswered (1 / 2) (downDeadline verify) b.polls 0 0 n) :
    DownEnds false n (instant (1 / 2) b.polls 0 0 n)

/-- The card answers a poll after that, in time. -/
def AnswersAgain : Prop :=
  ∃ went k now n, DownEnds verify b went k now ∧ FirstHit answered 2 (deadline verify) b.polls k now n

/-- The card accepted the reboot, was seen not answering after it and then answering, and it is not its
old firmware that answers. -/
def Renewed : Prop :=
  b.accepts = true ∧ ∃ k now n a, DownEnds verify b true k now ∧
    FirstHit answered 2 (deadline verify) b.polls k now n ∧
    (b.polls (k + n)).answer = some a ∧ a.old = false

/-- The card answers in time, although it refused the reboot, or was never seen not answering, or runs
its old firmware. -/
def Misleads : Prop :=
  ∃ went k now n, DownEnds verify b went k now ∧
    FirstHit answered 2 (deadline verify) b.polls k now n ∧
    (b.accepts = false ∨ went = false ∨ ∃ a, (b.polls (k + n)).answer = some a ∧ a.old = true)

/-- No card misleads of those that the rollout comes to, each card before them answering in time. -/
def NoneMisleads : List Behaviour → Prop
  | [] => True
  | b :: bs => ¬ Misleads verify b ∧ (AnswersAgain verify b → NoneMisleads bs)

/-- What a rollout that stops on failure promises of the cards and their results. -/
structure StopsAtFailure (cards : List (Card × Behaviour)) (out : Rolled) (stored : List Card) :
    Prop where
  /-- It moves on only from a card that was renewed. -/
  moved : ∀ (i : ℕ) (c : Card × Behaviour),
    i + 1 < out.completed.length → cards[i]? = some c → Renewed verify c.2
  /-- A card that was not is reported as failed. -/
  failed : ∀ (i : ℕ) (r : Result) (c : Card × Behaviour), out.completed[i]? = some r →
    cards[i]? = some c → ¬ Renewed verify c.2 → r.back ≠ some true
  /-- The cards behind the first failure are reported as not attempted, and none of them was. -/
  remaining : ∀ (i : ℕ) (r : Result), out.completed[i]? = some r → r.back ≠ some true →
    out.completed.length = i + 1 ∧ stored.length = i + 1 ∧ out.halted = true ∧
      out.remaining = some ((cards.drop (i + 1)).map (·.1.name))
  /-- Without a failure every card was attempted. -/
  complete : (∀ r ∈ out.completed, r.back = some true) →
    out.completed.length = cards.length ∧ out.halted = false

end Meaning

section Waits

variable {verify : ℚ} {b : Behaviour} {r : Result}

lemma downEnds_unique {w w' : Bool} {k k' : ℕ} {t t' : ℚ} (h : DownEnds verify b w k t)
    (h' : DownEnds verify b w' k' t') : w = w' ∧ k = k' ∧ t = t' := by
  have hp : (0 : ℚ) ≤ 1 / 2 := by norm_num
  cases h with
  | down n hn =>
    cases h' with
    | down m hm => rw [hn.unique hm]; exact ⟨rfl, rfl, rfl⟩
    | never m hm => exact absurd hn (hm.not_firstHit hp)
  | never n hn =>
    cases h' with
    | down m hm => exact absurd hm (hn.not_firstHit hp)
    | never m hm => rw [hn.unique hm]; exact ⟨rfl, rfl, rfl⟩

lemma comeBack_back (w : Bool) (k : ℕ) (now : ℚ) :
    (comeBack verify b w k now r).back = some true ↔
      ∃ n, FirstHit answered 2 (deadline verify) b.polls k now n := by
  have hp : (0 : ℚ) < 2 := by norm_num
  unfold comeBack
  cases hw : wait answered 2 (deadline verify) b.polls k now with
  | hit j t =>
    obtain ⟨n, hn, -⟩ := (wait_hit_iff hp).mp hw
    simp only [true_iff]
    exact ⟨n, hn⟩
  | late j t =>
    obtain ⟨n, hn, -⟩ := (wait_late_iff hp).mp hw
    simp only [Option.some.injEq, Bool.false_eq_true, false_iff]
    rintro ⟨m, hm⟩
    exact hn.not_firstHit hp.le hm

lemma reboot_back : (reboot verify b r).back = some true ↔ AnswersAgain verify b := by
  have hp : (0 : ℚ) < 1 / 2 := by norm_num
  unfold reboot
  -- the first wait ends in one way, and that is where the second begins
  have second : ∀ {w : Bool} {k : ℕ} {now : ℚ} (r : Result), DownEnds verify b w k now →
      ((comeBack verify b w k now r).back = some true ↔ AnswersAgain verify b) := by
    intro w k now r hd
    rw [comeBack_back]
    constructor
    · rintro ⟨n, hn⟩
      exact ⟨w, k, now, n, hd, hn⟩
    · rintro ⟨w', k', now', n, hd', hn⟩
      obtain ⟨-, rfl, rfl⟩ := downEnds_unique hd hd'
      exact ⟨n, hn⟩
  cases hw : wait unanswered (1 / 2) (downDeadline verify) b.polls 0 0 with
  | hit k now =>
    obtain ⟨n, hn, rfl, rfl⟩ := (wait_hit_iff hp).mp hw
    simp only [Nat.zero_add]
    exact second _ (.down n hn)
  | late k now =>
    obtain ⟨n, hn, rfl, rfl⟩ := (wait_late_iff hp).mp hw
    simp only [Nat.zero_add]
    exact second _ (.never n hn)

lemma Misleads.answersAgain (h : Misleads verify b) : AnswersAgain verify b := by
  obtain ⟨w, k, now, n, hd, hn, -⟩ := h
  exact ⟨w, k, now, n, hd, hn⟩

lemma renewed_iff (h : AnswersAgain verify b) : Renewed verify b ↔ ¬ Misleads verify b := by
  obtain ⟨w, k, now, n, hd, hn⟩ := h
  constructor
  · rintro ⟨hacc, k₁, now₁, n₁, a, hd₁, hn₁, ha, hold⟩ ⟨w₂, k₂, now₂, n₂, hd₂, hn₂, hbad⟩
    obtain ⟨rfl, rfl, rfl⟩ := downEnds_unique hd₁ hd₂
    obtain rfl := hn₁.unique hn₂
    rcases hbad with hacc' | hw | ⟨a', ha', hold'⟩
    · rw [hacc] at hacc'
      cases hacc'
    · cases hw
    · rw [ha] at ha'
      cases ha'
      rw [hold] at hold'
      cases hold'
  · intro hno
    have hgood : ¬ (b.accepts = false ∨ w = false ∨
        ∃ a, (b.polls (k + n)).answer = some a ∧ a.old = true) :=
      fun hbad => hno ⟨w, k, now, n, hd, hn, hbad⟩
    obtain ⟨hacc, hrest⟩ := not_or.mp hgood
    obtain ⟨hw, hold⟩ := not_or.mp hrest
    obtain rfl : w = true := by simpa using hw
    cases ha : (b.polls (k + n)).answer with
    | none =>
      have := hn.2.1
      rw [ha] at this
      cases this
    | some a =>
      refine ⟨by simpa using hacc, k, now, n, a, hd, hn, ha, ?_⟩
      cases ho : a.old with
      | false => rfl
      | true => exact absurd ⟨a, ha, ho⟩ hold

end Waits

section Halting

variable {images : Images} {body : RolloutIn} {verify : ℚ} {cards : List (Card × Behaviour)}
  {out : Rolled} {stored : List Card}

/-- Each result says whether its card answered again. -/
abbrev Tells (verify : ℚ) (results : List Result) (cards : List (Card × Behaviour)) : Prop :=
  List.Forall₂ (fun r c => r.back = some true ↔ AnswersAgain verify c.2) results cards

/-- Where the loop is: the cards it has done have all answered again. -/
structure Done (verify : ℚ) (done : List (Card × Behaviour)) (results : List Result)
    (stored : List Card) : Prop where
  tells : Tells verify results done
  back : ∀ r ∈ results, r.back = some true
  stored : stored.length = results.length

/-- How the loop ends: behind the last card, or at the first that did not answer again. -/
inductive Ended (verify : ℚ) (cards : List (Card × Behaviour)) (out : Rolled) (stored : List Card) : Prop
  | all (h : Done verify cards out.completed stored) (hh : out.halted = false)
  | halted (done rest : List (Card × Behaviour)) (c : Card × Behaviour) (results : List Result)
    (before : List Card) (r : Result) (card : Card) (hc : cards = done ++ c :: rest)
    (h : Done verify done results before) (hr : out.completed = results ++ [r])
    (hs : stored = before ++ [card]) (hb : r.back ≠ some true) (ha : ¬ AnswersAgain verify c.2)
    (hh : out.halted = true) (hrest : out.remaining = some (rest.map (·.1.name)))

lemma assignFirmware_ok {name : String} (himage : checkImage images name = .ok ()) (verify : ℚ)
    (c : Card × Behaviour) : ∃ r card,
      assignFirmware images ⟨some name, true, verify⟩ c.1 c.2 = .ok (r, card) ∧
        (r.back = some true ↔ AnswersAgain verify c.2) := by
  unfold assignFirmware
  simp only [himage, bind, Except.bind, if_true]
  exact ⟨_, _, rfl, reboot_back⟩

lemma Done.snoc {done : List (Card × Behaviour)} {results : List Result} {c : Card × Behaviour}
    {r : Result} {card : Card} (h : Done verify done results stored)
    (hr : r.back = some true ↔ AnswersAgain verify c.2) (hback : r.back = some true) :
    Done verify (done ++ [c]) (results ++ [r]) (stored ++ [card]) := by
  refine ⟨?_, ?_, by simp [h.stored]⟩
  · exact List.rel_append h.tells (.cons hr .nil)
  · intro r' hr'
    rcases List.mem_append.mp hr' with hold | hnew
    · exact h.back r' hold
    · rw [List.mem_singleton.mp hnew]
      exact hback

lemma rolloutLoop_ended (himage : checkImage images body.firmware = .ok ())
    (hstop : body.stopOnFailure = true) (todo : List (Card × Behaviour)) :
    ∀ {done : List (Card × Behaviour)} {results : List Result} {before : List Card},
      cards = done ++ todo → Done body.verify done results before → ∃ out stored,
        rolloutLoop images body cards todo results before = .ok (out, stored) ∧
          Ended body.verify cards out stored := by
  induction todo with
  | nil =>
    intro done results before hcards hdone
    rw [hcards, List.append_nil]
    exact ⟨_, _, rfl, .all hdone rfl⟩
  | cons c rest ih =>
    intro done results before hcards hdone
    obtain ⟨r, card, hassign, hr⟩ := assignFirmware_ok himage body.verify c
    simp only [rolloutLoop, hassign, bind, Except.bind]
    by_cases hback : r.back = some true
    · rw [if_neg (fun hfailed => hfailed.1 hback)]
      exact ih (by rw [hcards, List.append_cons]) (hdone.snoc hr hback)
    · have hdrop : cards.drop (results ++ [r]).length = rest := by
        have hlen : (results ++ [r]).length = done.length + 1 := by simp [hdone.tells.length_eq]
        rw [hlen, hcards]
        simp
      rw [if_pos ⟨hback, hstop⟩]
      exact ⟨_, _, rfl, .halted done rest c results before r card hcards hdone rfl rfl hback
        (mt hr.mpr hback) rfl (congrArg (fun l => some (l.map (·.1.name))) hdrop)⟩

lemma Done.answersAgain {done : List (Card × Behaviour)} {results : List Result}
    (h : Done verify done results stored) : ∀ c ∈ done, AnswersAgain verify c.2 := by
  obtain ⟨htells, hback, -⟩ := h
  induction htells with
  | nil =>
    intro c hc
    cases hc
  | @cons r c results done hrc _ ih =>
    obtain ⟨hr, hrest⟩ := List.forall_mem_cons.mp hback
    exact List.forall_mem_cons.mpr ⟨hrc.mp hr, ih hrest⟩

lemma noneMisleads_done {done rest : List (Card × Behaviour)} (h : ∀ c ∈ done, AnswersAgain verify c.2) :
    NoneMisleads verify ((done ++ rest).map (·.2)) ↔
      (∀ c ∈ done, Renewed verify c.2) ∧ NoneMisleads verify (rest.map (·.2)) := by
  induction done with
  | nil => simp
  | cons c done ih =>
    obtain ⟨hc, hdone⟩ := List.forall_mem_cons.mp h
    simp only [List.cons_append, List.map_cons, NoneMisleads, List.forall_mem_cons, ih hdone,
      renewed_iff hc, hc, true_imp_iff, and_assoc]

lemma Done.renewed {done : List (Card × Behaviour)} {results : List Result} {before : List Card}
    (h : Done verify done results before) (hs : StopsAtFailure verify cards out stored)
    (hr : results <+: out.completed) (hc : done <+: cards) : ∀ c ∈ done, Renewed verify c.2 := by
  intro c hmem
  obtain ⟨i, hi, rfl⟩ := List.getElem_of_mem hmem
  have hlt : i < results.length := by rwa [h.tells.length_eq]
  by_contra hno
  refine hs.failed i results[i] done[i] ?_ ?_ hno (h.back _ (List.getElem_mem hlt))
  · exact (hr.getElem hlt) ▸ List.getElem?_eq_getElem _
  · exact (hc.getElem hi) ▸ List.getElem?_eq_getElem _

lemma Ended.stopsAtFailure (h : Ended verify cards out stored) :
    StopsAtFailure verify cards out stored ↔ NoneMisleads verify (cards.map (·.2)) := by
  cases h with
  | all h hh =>
    have hlen := h.tells.length_eq
    have hnone := @noneMisleads_done verify cards [] h.answersAgain
    simp only [List.append_nil, List.map_nil, NoneMisleads, and_true] at hnone
    rw [hnone]
    constructor
    · intro hs
      exact h.renewed hs List.prefix_rfl List.prefix_rfl
    · intro hall
      refine ⟨?_, ?_, ?_, fun _ => ⟨hlen, hh⟩⟩
      · intro i c _ hc
        exact hall c (List.mem_of_getElem? hc)
      · intro i r c _ hc hno
        exact absurd (hall c (List.mem_of_getElem? hc)) hno
      · intro i r hr hb
        exact absurd (h.back r (List.mem_of_getElem? hr)) hb
  | halted done rest c results before r card hc h hr hs hb ha hh hrest =>
    have hlen := h.tells.length_eq
    have hdone : NoneMisleads verify (cards.map (·.2)) ↔ ∀ c ∈ done, Renewed verify c.2 := by
      rw [hc, noneMisleads_done h.answersAgain]
      -- the card that did not answer again misleads nobody
      simp only [List.map_cons, NoneMisleads, ha, false_imp_iff, and_true, and_iff_left_iff_imp]
      exact fun _ hm => ha hm.answersAgain
    have hcases : ∀ (i : ℕ) (r' : Result), out.completed[i]? = some r' →
        (i < done.length ∧ r'.back = some true) ∨ (i = done.length ∧ r' = r) := by
      intro i r' hi
      rw [hr] at hi
      rcases lt_or_ge i results.length with hlt | hge
      · rw [List.getElem?_append_left hlt] at hi
        exact .inl ⟨hlen ▸ hlt, h.back r' (List.mem_of_getElem? hi)⟩
      · rw [List.getElem?_append_right hge, List.getElem?_singleton] at hi
        split at hi
        case isTrue hzero => exact .inr ⟨by omega, (Option.some.inj hi).symm⟩
        case isFalse => cases hi
    have hat : ∀ {i : ℕ} {c' : Card × Behaviour}, i < done.length → cards[i]? = some c' → c' ∈ done := by
      intro i c' hi hget
      rw [hc, List.getElem?_append_left hi] at hget
      exact List.mem_of_getElem? hget
    rw [hdone]
    constructor
    · intro hstops
      exact h.renewed hstops (hr ▸ List.prefix_append _ _) (hc ▸ List.prefix_append _ _)
    · intro hall
      refine ⟨?_, ?_, ?_, ?_⟩
      · intro i c' hi hget
        rw [hr, List.length_append, List.length_singleton, hlen] at hi
        exact hall c' (hat (Nat.lt_of_succ_lt_succ hi) hget)
      · intro i r' c' hi hget hno
        rcases hcases i r' hi with ⟨hlt, -⟩ | ⟨-, rfl⟩
        · exact absurd (hall c' (hat hlt hget)) hno
        · exact hb
      · intro i r' hi hback
        rcases hcases i r' hi with ⟨-, hyes⟩ | ⟨rfl, -⟩
        · exact absurd hyes hback
        · refine ⟨by simp [hr, hlen], by simp [hs, h.stored, hlen], hh, ?_⟩
          rw [hrest, hc]
          simp
      · intro hyes
        exact absurd (hyes r (by simp [hr])) hb

/-- A rollout that stops on failure stops where it promises to exactly when none of the cards it comes
to misleads it: none answers a poll behind the wait for it to go down, and in time, although it refused
the reboot, answered every poll of that wait, or runs its old firmware. -/
theorem stops_at_failure_iff (images : Images) (body : RolloutIn) (cards : List (Card × Behaviour))
    (hstop : body.stopOnFailure = true) (himage : checkImage images body.firmware = .ok ()) :
    ∃ out stored, rollout images body cards = .ok (out, stored) ∧
      (StopsAtFailure body.verify (selected body cards) out stored ↔
        NoneMisleads body.verify ((selected body cards).map (·.2))) := by
  have hstart : Done body.verify [] [] [] :=
    ⟨.nil, fun r hr => absurd hr List.not_mem_nil, rfl⟩
  obtain ⟨out, stored, h, hended⟩ :=
    rolloutLoop_ended himage hstop (selected body cards) rfl hstart
  refine ⟨out, stored, ?_, hended.stopsAtFailure⟩
  rw [rollout, himage]
  exact h

/-- A card that reboots at once into its new firmware. -/
def rebooting : Card × Behaviour :=
  (⟨"left", "10.0.0.2", none, true, none⟩,
    ⟨some [("version", "1")], true, fun k =>
      if k = 0 then ⟨none, 0, le_rfl⟩ else ⟨some ⟨[("version", "2")], false⟩, 0, le_rfl⟩⟩)

/-- A card that refuses the reboot and goes on answering. -/
def refusing : Card × Behaviour :=
  (⟨"left", "10.0.0.2", none, true, none⟩,
    ⟨some [("version", "1")], false, fun _ => ⟨some ⟨[("version", "1")], true⟩, 0, le_rfl⟩⟩)

lemma boot_image : checkImage (fun _ => true) "boot.bin" = .ok () := by
  rw [checkImage, if_neg (by decide), if_neg (by decide)]

theorem stops_at_failure_two : ∃ out stored,
    rollout (fun _ => true) ⟨"boot.bin", none, 90, true⟩ [rebooting, rebooting] = .ok (out, stored) ∧
      StopsAtFailure 90 [rebooting, rebooting] out stored := by
  obtain ⟨out, stored, h, hiff⟩ := stops_at_failure_iff (fun _ => true) ⟨"boot.bin", none, 90, true⟩
    [rebooting, rebooting] rfl boot_image
  have hdown : DownEnds 90 rebooting.2 true 1 0 := by
    have := @DownEnds.down 90 rebooting.2 0
      ⟨by norm_num [instant, downDeadline, deadline], rfl, fun m hm => absurd hm (Nat.not_lt_zero m)⟩
    simpa [instant, rebooting] using this
  have hagain : FirstHit answered 2 (deadline 90) rebooting.2.polls 1 0 0 :=
    ⟨by norm_num [instant, deadline], rfl, fun m hm => absurd hm (Nat.not_lt_zero m)⟩
  have hno : ¬ Misleads 90 rebooting.2 := by
    apply (renewed_iff ⟨true, 1, 0, 0, hdown, hagain⟩).mp
    exact ⟨rfl, 1, 0, 0, _, hdown, hagain, rfl, rfl⟩
  exact ⟨out, stored, h, hiff.mpr ⟨hno, fun _ => ⟨hno, fun _ => trivial⟩⟩⟩

theorem refused_reboot_moves_on : ∃ out stored,
    rollout (fun _ => true) ⟨"boot.bin", none, 90, true⟩ [refusing, refusing] = .ok (out, stored) ∧
      out.completed.length = 2 ∧ out.halted = false ∧
      ¬ StopsAtFailure 90 [refusing, refusing] out stored := by
  have hat (m : ℕ) : instant (1 / 2) refusing.2.polls 0 0 m = 0 + m * (0 + 1 / 2) :=
    instant_const (refusing.2.polls 0) 0 0 m
  have hdown : DownEnds 90 refusing.2 false 40 (instant (1 / 2) refusing.2.polls 0 0 40) := by
    refine .never 40 ⟨?_, fun m hm => ⟨?_, rfl⟩⟩
    · rw [hat]
      norm_num [downDeadline, deadline]
    · have hm : (m : ℚ) < 40 := by exact_mod_cast hm
      rw [hat]
      norm_num [downDeadline, deadline]
      linarith
  have hagain : FirstHit answered 2 (deadline 90) refusing.2.polls 40
      (instant (1 / 2) refusing.2.polls 0 0 40) 0 := by
    refine ⟨?_, rfl, fun m hm => absurd hm (Nat.not_lt_zero m)⟩
    rw [instant, hat]
    norm_num [deadline]
  have hmis : Misleads 90 refusing.2 := ⟨false, 40, _, 0, hdown, hagain, .inl rfl⟩
  have hstart : Done 90 [] [] [] := ⟨.nil, fun r hr => absurd hr List.not_mem_nil, rfl⟩
  obtain ⟨out, stored, h, hended⟩ := @rolloutLoop_ended (fun _ => true) ⟨"boot.bin", none, 90, true⟩
    _ boot_image rfl [refusing, refusing] [] [] [] rfl hstart
  have hnot : ¬ StopsAtFailure 90 [refusing, refusing] out stored :=
    fun hs => (hended.stopsAtFailure.mp hs).1 hmis
  have hok : rollout (fun _ => true) ⟨"boot.bin", none, 90, true⟩ [refusing, refusing] =
      .ok (out, stored) := by
    rw [rollout, boot_image]
    exact h
  cases hended with
  | all hdone hh => exact ⟨out, stored, hok, hdone.tells.length_eq, hh, hnot⟩
  | halted done rest c results before r card hc _ _ _ _ ha =>
    have hmem : c ∈ [] ++ [refusing, refusing] := by
      rw [hc]
      simp
    obtain rfl : c = refusing := by simpa using hmem
    exact absurd hmis.answersAgain ha

end Halting

end Ledwall.Server.Firmware
