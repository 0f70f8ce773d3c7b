import Ledwall.Library.Outcomes
import Ledwall.Library.Runs
import Ledwall.Server.FleetCalls

/-! Which calls keep the fleet database free of dangling rows. -/

namespace Ledwall.Server.Fleet

open Ledwall.Library.Tables Ledwall.Library.Runs Ledwall.Library.Outcomes

/-- Every row refers to rows that exist. -/
structure Linked (db : Db) : Prop where
  cardWall : Refers Card.wallId db.cards.rows db.walls
  assignmentWall : Refers Assignment.wallId db.assignments.rows db.walls
  assignmentShow : Refers Assignment.showId db.assignments.rows db.shows
  scheduleWall : Refers Schedule.wallId db.schedules.rows db.walls
  scheduleShow : Refers Schedule.showId db.schedules.rows db.shows
  statCard : Refers CardStat.cardId db.stats.rows db.cards

/-- A wall has one assignment at most, and the other unique columns hold too. -/
structure Sound (db : Db) : Prop extends Linked db where
  unique : db.Unique

/-- The calls that leave nothing dangling: a schedule is made for a wall and a show that exist, and a
wall or a card goes when nothing but what its cascades reach refers to it. -/
def Careful (db : Db) : Call → Prop
  | .createSchedule body => Storable body.wallId ∧ Storable body.showId →
      (∃ w ∈ db.walls.rows, w.id = body.wallId) ∧ ∃ s ∈ db.shows.rows, s.id = body.showId
  | .deleteWall wid => (∀ s ∈ db.schedules.rows, s.wallId ≠ wid) ∧
      ∀ st ∈ db.stats.rows, ∀ c ∈ db.cards.rows, c.id = st.cardId → c.wallId ≠ wid
  | .deleteCard cid => ∀ st ∈ db.stats.rows, st.cardId ≠ cid
  | _ => True

namespace Db

variable {host : Host} {db db' : Db}

lemma commit_ok (h : db.commit = .ok db') : db' = db ∧ db.Unique := by
  rw [commit] at h
  split at h
  · next hu =>
    cases h
    exact ⟨rfl, hu⟩
  · cases h

lemma commit_of_unique (h : db.Unique) : db.commit = .ok db := if_pos h

lemma found_ok {α : Type} {what : String} {o : Option α} {a : α} (h : found what o = .ok a) :
    o = some a := by
  cases o with
  | none => cases h
  | some b =>
    cases h
    rfl

end Db

/-! ### Changes to the tables -/

section Changes

variable {db : Db} (h : Linked db)
include h

lemma Linked.insertWall (row : ℤ → Wall) (hrow : ∀ k, (row k).id = k) :
    Linked { db with walls := db.walls.insert row hrow } :=
  ⟨h.cardWall.insert row hrow, h.assignmentWall.insert row hrow, h.assignmentShow,
    h.scheduleWall.insert row hrow, h.scheduleShow, h.statCard⟩

lemma Linked.updateWalls (p : Wall → Bool) (f : Wall → Wall) (hf : ∀ w, (f w).id = w.id) :
    Linked { db with walls := db.walls.update p f hf } :=
  ⟨h.cardWall.update p f hf, h.assignmentWall.update p f hf, h.assignmentShow,
    h.scheduleWall.update p f hf, h.scheduleShow, h.statCard⟩

lemma Linked.insertCard (row : ℤ → Card) (hrow : ∀ k, (row k).id = k)
    (hwall : ∃ w ∈ db.walls.rows, w.id = (row db.cards.fresh).wallId) :
    Linked { db with cards := db.cards.insert row hrow } := by
  refine ⟨?_, h.assignmentWall, h.assignmentShow, h.scheduleWall, h.scheduleShow,
    h.statCard.insert row hrow⟩
  apply Refers.append_iff.mpr
  refine ⟨h.cardWall, ?_⟩
  intro c hc
  rw [List.mem_singleton.mp hc]
  exact hwall

lemma Linked.changeCards (p : Card → Bool) (f : Card → Card) (hf : ∀ c, (f c).id = c.id)
    (hwall : ∀ c ∈ db.cards.rows, p c = true →
      (f c).wallId = c.wallId ∨ ∃ w ∈ db.walls.rows, w.id = (f c).wallId) :
    Linked { db with cards := db.cards.update p f hf } := by
  refine ⟨h.cardWall.map ?_, h.assignmentWall, h.assignmentShow, h.scheduleWall, h.scheduleShow,
    h.statCard.update p f hf⟩
  intro c hc
  split
  · next hp => exact hwall c hc hp
  · exact .inl rfl

lemma Linked.updateCards (wid : ℤ) (mode : String) (program : Option String) :
    Linked (db.updateCards wid mode program) := by
  apply h.changeCards
  intro c _ _
  exact .inl rfl

lemma Linked.insertShow (name body : String) (description : Option String) :
    Linked (db.insertShow name body description) :=
  ⟨h.cardWall, h.assignmentWall, h.assignmentShow.insert _ _, h.scheduleWall,
    h.scheduleShow.insert _ _, h.statCard⟩

lemma Linked.updateShows (p : Show → Bool) (f : Show → Show) (hf : ∀ s, (f s).id = s.id) :
    Linked { db with shows := db.shows.update p f hf } :=
  ⟨h.cardWall, h.assignmentWall, h.assignmentShow.update p f hf, h.scheduleWall,
    h.scheduleShow.update p f hf, h.statCard⟩

lemma Linked.setAssignment {wid sid : ℤ} (hwall : ∃ w ∈ db.walls.rows, w.id = wid)
    (hshow : ∃ s ∈ db.shows.rows, s.id = sid) : Linked (db.setAssignment wid sid) := by
  rw [Db.setAssignment]
  split
  · refine ⟨h.cardWall, h.assignmentWall.map ?_, h.assignmentShow.map ?_, h.scheduleWall,
      h.scheduleShow, h.statCard⟩
    · intro a _
      split <;> exact .inl rfl
    · intro a _
      split
      · exact .inr hshow
      · exact .inl rfl
  · refine ⟨h.cardWall, Refers.append_iff.mpr ⟨h.assignmentWall, ?_⟩,
      Refers.append_iff.mpr ⟨h.assignmentShow, ?_⟩, h.scheduleWall, h.scheduleShow, h.statCard⟩
    · intro a ha
      rw [List.mem_singleton.mp ha]
      exact hwall
    · intro a ha
      rw [List.mem_singleton.mp ha]
      exact hshow

/-- A new schedule dangles unless its wall and its show exist. -/
lemma Linked.insertSchedule_iff (row : ℤ → Schedule) (hrow : ∀ k, (row k).id = k) :
    Linked { db with schedules := db.schedules.insert row hrow } ↔
      (∃ w ∈ db.walls.rows, w.id = (row db.schedules.fresh).wallId) ∧
        ∃ s ∈ db.shows.rows, s.id = (row db.schedules.fresh).showId := by
  have hlast : row db.schedules.fresh ∈ [row db.schedules.fresh] := List.mem_singleton_self _
  constructor
  · intro hlinked
    exact ⟨(Refers.append_iff.mp hlinked.scheduleWall).2 _ hlast,
      (Refers.append_iff.mp hlinked.scheduleShow).2 _ hlast⟩
  · rintro ⟨hwall, hshow⟩
    refine ⟨h.cardWall, h.assignmentWall, h.assignmentShow,
      Refers.append_iff.mpr ⟨h.scheduleWall, ?_⟩, Refers.append_iff.mpr ⟨h.scheduleShow, ?_⟩,
      h.statCard⟩
    · intro s hs
      rw [List.mem_singleton.mp hs]
      exact hwall
    · intro s hs
      rw [List.mem_singleton.mp hs]
      exact hshow

lemma Linked.eraseSchedules (p : Schedule → Bool) :
    Linked { db with schedules := db.schedules.erase p } := by
  have hsub : ∀ s ∈ (db.schedules.erase p).rows, s ∈ db.schedules.rows :=
    fun s hs => (Table.mem_erase.mp hs).1
  exact ⟨h.cardWall, h.assignmentWall, h.assignmentShow, h.scheduleWall.subset hsub,
    h.scheduleShow.subset hsub, h.statCard⟩

lemma Linked.eraseCard_iff (cid : ℤ) :
    Linked { db with cards := db.cards.erase fun c => c.id = cid } ↔
      ∀ st ∈ db.stats.rows, st.cardId ≠ cid := by
  have hstats := h.statCard.erase_iff fun c => decide (c.id = cid)
  constructor
  · intro hlinked st hst heq
    obtain ⟨c, hc, hkey⟩ := h.statCard st hst
    have hne := hstats.mp hlinked.statCard st hst c hc hkey
    exact of_decide_eq_false hne (hkey.trans heq)
  · intro hfree
    refine ⟨h.cardWall.subset fun c hc => (Table.mem_erase.mp hc).1, h.assignmentWall,
      h.assignmentShow, h.scheduleWall, h.scheduleShow, hstats.mpr ?_⟩
    intro st hst c _ hkey
    apply decide_eq_false
    intro hc
    exact hfree st hst (hkey.symm.trans hc)

lemma Linked.eraseWall_iff (wid : ℤ) :
    Linked { db with
      walls := db.walls.erase fun w => w.id = wid
      cards := db.cards.erase fun c => c.wallId = wid
      assignments := db.assignments.erase fun a => a.wallId = wid } ↔
    (∀ s ∈ db.schedules.rows, s.wallId ≠ wid) ∧
      ∀ st ∈ db.stats.rows, ∀ c ∈ db.cards.rows, c.id = st.cardId → c.wallId ≠ wid := by
  have hschedules := h.scheduleWall.erase_iff fun w => decide (w.id = wid)
  have hstats := h.statCard.erase_iff fun c => decide (c.wallId = wid)
  constructor
  · intro hlinked
    refine ⟨?_, ?_⟩
    · intro s hs heq
      obtain ⟨w, hw, hkey⟩ := h.scheduleWall s hs
      have hne := hschedules.mp hlinked.scheduleWall s hs w hw hkey
      exact of_decide_eq_false hne (hkey.trans heq)
    · intro st hst c hc hkey
      exact of_decide_eq_false (hstats.mp hlinked.statCard st hst c hc hkey)
  · rintro ⟨hfree, hunsampled⟩
    -- what is left on the walls that stay refers to them still
    have hstay {β : Type} {ref : β → ℤ} {rows : List β} (hr : Refers ref rows db.walls)
        (hne : ∀ b ∈ rows, ref b ≠ wid) :
        Refers ref rows (db.walls.erase fun w => decide (w.id = wid)) := by
      rw [hr.erase_iff]
      intro b hb w _ hkey
      apply decide_eq_false
      intro hw
      exact hne b hb (hkey.symm.trans hw)
    refine ⟨hstay (h.cardWall.subset fun c hc => (Table.mem_erase.mp hc).1) ?_,
      hstay (h.assignmentWall.subset fun a ha => (Table.mem_erase.mp ha).1) ?_,
      h.assignmentShow.subset fun a ha => (Table.mem_erase.mp ha).1, hstay h.scheduleWall hfree,
      h.scheduleShow, hstats.mpr ?_⟩
    · intro c hc
      exact of_decide_eq_false (Table.mem_erase.mp hc).2
    · intro a ha
      exact of_decide_eq_false (Table.mem_erase.mp ha).2
    · intro st hst c hc hkey
      exact decide_eq_false (hunsampled st hst c hc hkey)

lemma Linked.insertStat {cid : ℤ} (hcard : ∃ c ∈ db.cards.rows, c.id = cid) (reachable : Bool) :
    Linked (db.insertStat cid reachable) := by
  refine ⟨h.cardWall, h.assignmentWall, h.assignmentShow, h.scheduleWall, h.scheduleShow,
    Refers.append_iff.mpr ⟨h.statCard, ?_⟩⟩
  intro st hst
  rw [List.mem_singleton.mp hst]
  exact hcard

end Changes

/-! ### The calls -/

section Calls

variable {host : Host} {db db' : Db}

lemma Linked.sound_commit (h : Linked db) (hcommit : db.commit = .ok db') : Sound db' := by
  obtain ⟨rfl, hu⟩ := Db.commit_ok hcommit
  exact ⟨h, hu⟩

lemma Linked.createWall {name : String} (h : Linked db) (hcall : db.createWall name = .ok db') :
    Sound db' := by
  rw [Db.createWall] at hcall
  split at hcall
  · cases hcall
  · exact (h.insertWall _ _).sound_commit hcall

lemma Linked.updateWall {wid : ℤ} {name : Option (Option String)} (h : Linked db)
    (hcall : db.updateWall wid name = .ok db') : Sound db' := by
  rw [Db.updateWall.eq_def] at hcall
  obtain ⟨w, -, hcall⟩ := bind_eq_ok.mp hcall
  split at hcall
  · exact h.sound_commit hcall
  · cases hcall
  · exact (h.updateWalls _ _ _).sound_commit hcall

lemma Linked.createCard {body : CardIn} (h : Linked db) (hcall : db.createCard body = .ok db') :
    Sound db' := by
  rw [Db.createCard] at hcall
  split at hcall
  · cases hcall
  · obtain ⟨w, hw, hcall⟩ := bind_eq_ok.mp hcall
    obtain ⟨-, -, hcall⟩ := bind_eq_ok.mp hcall
    obtain ⟨hmem, hkey⟩ := Table.get_some (Db.found_ok hw)
    exact (h.insertCard _ _ ⟨w, hmem, hkey⟩).sound_commit hcall

lemma Linked.updateCard {cid : ℤ} {body : CardPatch} (h : Linked db)
    (hcall : db.updateCard cid body = .ok db') : Sound db' := by
  rw [Db.updateCard] at hcall
  obtain ⟨c, hc, hcall⟩ := bind_eq_ok.mp hcall
  obtain ⟨wallId, hwall, hcall⟩ := bind_eq_ok.mp hcall
  obtain ⟨-, -, hcall⟩ := bind_eq_ok.mp hcall
  split at hcall
  · cases hcall
  · refine Linked.sound_commit (h.changeCards _ _ _ ?_) hcall
    intro c' hc' hp
    -- the wall of the card itself, or the one that was asked for
    rw [Db.patchedWall.eq_def] at hwall
    split at hwall
    · cases hwall
      obtain ⟨hmem, hkey⟩ := Table.get_some (Db.found_ok hc)
      have heq : c = c' := Table.eq_of_key hmem hc' (hkey.trans (of_decide_eq_true hp).symm)
      exact .inl (by rw [heq])
    · cases hwall
    · obtain ⟨w, hw, hpure⟩ := bind_eq_ok.mp hwall
      cases hpure
      obtain ⟨hmem, hkey⟩ := Table.get_some (Db.found_ok hw)
      exact .inr ⟨w, hmem, hkey⟩

lemma Linked.createShow {body : ShowIn} (h : Linked db) (hcall : db.createShow host body = .ok db') :
    Sound db' := by
  rw [Db.createShow] at hcall
  obtain ⟨-, -, hcall⟩ := bind_eq_ok.mp hcall
  exact (h.insertShow _ _ _).sound_commit hcall

lemma Linked.updateShow {sid : ℤ} {body : ShowIn} (h : Linked db)
    (hcall : db.updateShow host sid body = .ok db') : Sound db' := by
  rw [Db.updateShow] at hcall
  obtain ⟨s, -, hcall⟩ := bind_eq_ok.mp hcall
  obtain ⟨-, -, hcall⟩ := bind_eq_ok.mp hcall
  exact (h.updateShows _ _ _).sound_commit hcall

lemma Linked.assign {wid sid : ℤ} (h : Linked db) (hcall : db.assign wid sid = .ok db') :
    Sound db' := by
  rw [Db.assign] at hcall
  obtain ⟨w, hw, hcall⟩ := bind_eq_ok.mp hcall
  obtain ⟨s, hs, hcall⟩ := bind_eq_ok.mp hcall
  have hassigned := h.setAssignment ⟨w, Table.get_some (Db.found_ok hw)⟩
    ⟨s, Table.get_some (Db.found_ok hs)⟩
  exact hassigned.sound_commit hcall

lemma Linked.setWallContent {wid : ℤ} {body : WallContent} (h : Linked db)
    (hcall : db.setWallContent wid body = .ok db') : Sound db' := by
  rw [Db.setWallContent] at hcall
  obtain ⟨w, hw, hcall⟩ := bind_eq_ok.mp hcall
  split at hcall
  · split at hcall
    · cases hcall
    · obtain ⟨s, hs, hcall⟩ := bind_eq_ok.mp hcall
      have hassigned := h.setAssignment ⟨w, Table.get_some (Db.found_ok hw)⟩
        ⟨s, Table.get_some (Db.found_ok hs)⟩
      exact (hassigned.updateCards _ _ _).sound_commit hcall
  · split at hcall
    · split at hcall
      · cases hcall
      · cases hcall
      · exact (h.updateCards _ _ _).sound_commit hcall
    · cases hcall

lemma target_mem {name : String} {w : Wall} (h : db.target host name = .ok (some w)) :
    w ∈ db.walls.rows := by
  have hcard : ∀ {o : Option Wall}, o = ((db.cards.rows.find? fun c => c.name = name).bind fun c =>
      db.walls.get c.wallId) → o = some w → w ∈ db.walls.rows := by
    rintro o ho rfl
    obtain ⟨c, -, hget⟩ := Option.bind_eq_some_iff.mp ho.symm
    exact (Table.get_some hget).1
  rw [Db.target] at h
  split at h
  · next w' hw' =>
    cases h
    exact List.mem_of_find?_eq_some hw'
  · split at h
    · exact hcard rfl (Except.ok.inj h)
    · cases h
    · rcases Option.or_eq_some_iff.mp (Except.ok.inj h) with hget | ⟨-, hofCard⟩
      · exact (Table.get_some hget).1
      · exact hcard rfl hofCard

lemma Linked.play {req : PlayRequest} (h : Linked db) (hcall : db.play host req = .ok db') :
    Sound db' := by
  rw [Db.play] at hcall
  split at hcall
  · cases hcall
  · obtain ⟨o, ho, hcall⟩ := bind_eq_ok.mp hcall
    obtain ⟨w, hw, hcall⟩ := bind_eq_ok.mp hcall
    have hmem := target_mem (ho.trans (congrArg Except.ok (Db.found_ok hw)))
    split at hcall
    · obtain ⟨-, -, hcall⟩ := bind_eq_ok.mp hcall
      refine Linked.sound_commit ((h.insertShow _ _ _).setAssignment ⟨w, hmem, rfl⟩ ?_) hcall
      exact ⟨_, Table.mem_insert.mpr (.inr rfl), rfl⟩
    · obtain ⟨s, hs, hcall⟩ := bind_eq_ok.mp hcall
      have hshow := List.mem_of_find?_eq_some (Db.found_ok hs)
      exact (h.setAssignment ⟨w, hmem, rfl⟩ ⟨s, hshow, rfl⟩).sound_commit hcall
    · cases hcall

lemma Sound.sample (h : Sound db) (answers : ℤ → Bool) : Sound (db.sample answers) := by
  have hfold (cards : List Card) (hcards : ∀ c ∈ cards, c ∈ db.cards.rows) : ∀ db₁ : Db,
      Sound db₁ → db₁.cards = db.cards →
        Sound (cards.foldl (fun db c => db.insertStat c.id (answers c.id)) db₁) := by
    induction cards with
    | nil =>
      intro db₁ hs _
      exact hs
    | cons c cards ih =>
      intro db₁ hs heq
      have hmem : c ∈ db₁.cards.rows := by
        rw [heq]
        exact hcards c List.mem_cons_self
      apply ih (fun c' hc' => hcards c' (List.mem_cons_of_mem c hc')) (db₁.insertStat c.id (answers c.id))
      · exact ⟨hs.toLinked.insertStat ⟨c, hmem, rfl⟩ _, hs.unique⟩
      · exact heq
  apply hfold
  · intro c hc
    obtain ⟨w, -, hc⟩ := List.mem_flatMap.mp hc
    exact (List.mem_filter.mp hc).1
  · exact h
  · rfl

lemma unique_mono (h : db.Unique) (hwalls : db'.walls.rows.Sublist db.walls.rows)
    (hcards : db'.cards.rows.Sublist db.cards.rows) (hshows : db'.shows = db.shows)
    (hassignments : db'.assignments.rows.Sublist db.assignments.rows) : db'.Unique := by
  obtain ⟨h₁, h₂, h₃, h₄, h₅⟩ := h
  refine ⟨h₁.sublist (hwalls.map _), h₂.sublist (hcards.map _), h₃.sublist (hcards.filterMap _), ?_,
    h₅.sublist (hassignments.map _)⟩
  rw [hshows]
  exact h₄

lemma step_createSchedule (h : Sound db) (body : ScheduleIn) :
    Sound (db.step host (.createSchedule body)) ↔ Careful db (.createSchedule body) := by
  rw [Db.step, Db.handle, Db.createSchedule, Careful]
  by_cases hs : Storable body.wallId ∧ Storable body.showId
  · have hu : Db.Unique { db with
        schedules := db.schedules.insert (fun k => ⟨k, body.wallId, body.showId, body.name⟩)
          fun _ => rfl } := h.unique
    rw [if_pos hs, Db.commit_of_unique hu]
    have hiff := h.toLinked.insertSchedule_iff
      (fun k => ⟨k, body.wallId, body.showId, body.name⟩) fun _ => rfl
    constructor
    · intro hsound _
      exact hiff.mp hsound.toLinked
    · intro hcareful
      exact ⟨hiff.mpr (hcareful hs), h.unique⟩
  · rw [if_neg hs]
    exact ⟨fun _ hs' => absurd hs' hs, fun _ => h⟩

lemma step_of_ok {call : Call} {db' : Db} (h : db.handle host call = .ok db') :
    db.step host call = db' := by
  rw [Db.step, h]

lemma step_deleteCard (h : Sound db) (cid : ℤ) :
    Sound (db.step host (.deleteCard cid)) ↔ Careful db (.deleteCard cid) := by
  rw [Careful]
  cases hget : db.cards.get cid with
  | none =>
    rw [Db.step, Db.handle, Db.deleteCard, hget]
    refine ⟨?_, fun _ => h⟩
    intro _ st hst heq
    obtain ⟨c, hc, hkey⟩ := h.statCard st hst
    exact Table.get_none hget c hc (hkey.trans heq)
  | some c =>
    have hiff := h.toLinked.eraseCard_iff cid
    have hu : Db.Unique { db with cards := db.cards.erase fun c => c.id = cid } :=
      unique_mono h.unique (List.Sublist.refl _) List.filter_sublist rfl (List.Sublist.refl _)
    have hok : db.handle host (.deleteCard cid) =
        .ok { db with cards := db.cards.erase fun c => c.id = cid } := by
      rw [Db.handle, Db.deleteCard, hget]
      exact Db.commit_of_unique hu
    rw [step_of_ok hok]
    exact ⟨fun hsound => hiff.mp hsound.toLinked, fun hcareful => ⟨hiff.mpr hcareful, hu⟩⟩

lemma step_deleteWall (h : Sound db) (wid : ℤ) :
    Sound (db.step host (.deleteWall wid)) ↔ Careful db (.deleteWall wid) := by
  rw [Careful]
  have hiff := h.toLinked.eraseWall_iff wid
  cases hget : db.walls.get wid with
  | none =>
    have hnone := Table.get_none hget
    rw [Db.step, Db.handle, Db.deleteWall, hget]
    refine ⟨?_, fun _ => h⟩
    intro _
    refine ⟨?_, ?_⟩
    · intro s hs heq
      obtain ⟨w, hw, hkey⟩ := h.scheduleWall s hs
      exact hnone w hw (hkey.trans heq)
    · intro st _ c hc _ heq
      obtain ⟨w, hw, hkey⟩ := h.cardWall c hc
      exact hnone w hw (hkey.trans heq)
  | some w =>
    have hu : Db.Unique { db with
        walls := db.walls.erase fun w => w.id = wid
        cards := db.cards.erase fun c => c.wallId = wid
        assignments := db.assignments.erase fun a => a.wallId = wid } :=
      unique_mono h.unique List.filter_sublist List.filter_sublist rfl List.filter_sublist
    have hok : db.handle host (.deleteWall wid) = .ok { db with
        walls := db.walls.erase fun w => w.id = wid
        cards := db.cards.erase fun c => c.wallId = wid
        assignments := db.assignments.erase fun a => a.wallId = wid } := by
      rw [Db.handle, Db.deleteWall, hget]
      exact Db.commit_of_unique hu
    rw [step_of_ok hok]
    exact ⟨fun hsound => hiff.mp hsound.toLinked, fun hcareful => ⟨hiff.mpr hcareful, hu⟩⟩

lemma step_sound {call : Call} (h : Sound db) (hcall : ∀ db', db.handle host call = .ok db' → Sound db') :
    Sound (db.step host call) := by
  rw [Db.step]
  cases hr : db.handle host call with
  | ok db' => exact hcall db' hr
  | error e => exact h

/-- A call keeps the database sound when it is careful, and only then. -/
theorem step_sound_iff (h : Sound db) (call : Call) :
    Sound (db.step host call) ↔ Careful db call := by
  cases call with
  | createSchedule body => exact step_createSchedule h body
  | deleteCard cid => exact step_deleteCard h cid
  | deleteWall wid => exact step_deleteWall h wid
  | createWall name =>
    exact iff_of_true (step_sound h fun _ => h.toLinked.createWall) trivial
  | updateWall wid name =>
    exact iff_of_true (step_sound h fun _ => h.toLinked.updateWall) trivial
  | createCard body =>
    exact iff_of_true (step_sound h fun _ => h.toLinked.createCard) trivial
  | updateCard cid body =>
    exact iff_of_true (step_sound h fun _ => h.toLinked.updateCard) trivial
  | createShow body =>
    exact iff_of_true (step_sound h fun _ => h.toLinked.createShow) trivial
  | updateShow sid body =>
    exact iff_of_true (step_sound h fun _ => h.toLinked.updateShow) trivial
  | assign wid sid =>
    exact iff_of_true (step_sound h fun _ => h.toLinked.assign) trivial
  | setWallContent wid body =>
    exact iff_of_true (step_sound h fun _ => h.toLinked.setWallContent) trivial
  | deleteSchedule sid =>
    refine iff_of_true (step_sound h ?_) trivial
    intro db' hcall
    obtain ⟨s, -, hcall⟩ := bind_eq_ok.mp hcall
    exact (h.toLinked.eraseSchedules _).sound_commit hcall
  | play req =>
    exact iff_of_true (step_sound h fun _ => h.toLinked.play) trivial
  | sample answers =>
    exact iff_of_true (h.sample answers) trivial

end Calls

/-! ### Runs -/

/-- No row refers to the wall or the card that a call makes. -/
def Uninherited (db : Db) : Call → Prop
  | .createWall name => ∀ db', db.createWall name = .ok db' →
      (∀ a ∈ db'.assignments.rows, a.wallId ≠ db.walls.fresh) ∧
        ∀ s ∈ db'.schedules.rows, s.wallId ≠ db.walls.fresh
  | .createCard body => ∀ db', db.createCard body = .ok db' →
      ∀ st ∈ db'.stats.rows, st.cardId ≠ db.cards.fresh
  | _ => True

lemma Linked.uninherited {db : Db} (h : Linked db) (call : Call) : Uninherited db call := by
  cases call with
  | createWall name =>
    intro db' hcall
    rw [Db.createWall] at hcall
    split at hcall
    · cases hcall
    · obtain ⟨rfl, -⟩ := Db.commit_ok hcall
      exact ⟨h.assignmentWall.ne_fresh, h.scheduleWall.ne_fresh⟩
  | createCard body =>
    intro db' hcall
    rw [Db.createCard] at hcall
    split at hcall
    · cases hcall
    · obtain ⟨-, -, hcall⟩ := bind_eq_ok.mp hcall
      obtain ⟨-, -, hcall⟩ := bind_eq_ok.mp hcall
      obtain ⟨rfl, -⟩ := Db.commit_ok hcall
      exact h.statCard.ne_fresh
  | _ => trivial

lemma Sound.empty : Sound Db.empty where
  cardWall := Refers.nil
  assignmentWall := Refers.nil
  assignmentShow := Refers.nil
  scheduleWall := Refers.nil
  scheduleShow := Refers.nil
  statCard := Refers.nil
  unique := ⟨List.nodup_nil, List.nodup_nil, List.nodup_nil, List.nodup_nil, List.nodup_nil⟩

/-- The calls of a run keep the database sound, and hand no old row to a new wall or card, as long as
they are careful and no longer. -/
theorem fleet_sound_iff (host : Host) (calls : List Call) :
    Always (fun db call db' => db' = Db.step host db call)
        (fun db call => Sound (db.step host call) ∧ Uninherited db call) Db.empty calls ↔
      Always (fun db call db' => db' = Db.step host db call) Careful Db.empty calls := by
  have hrun : ∀ db, Sound db →
      (Always (fun db call db' => db' = Db.step host db call)
          (fun db call => Sound (db.step host call) ∧ Uninherited db call) db calls ↔
        Always (fun db call db' => db' = Db.step host db call) Careful db calls) := by
    induction calls with
    | nil =>
      intro db _
      exact Iff.rfl
    | cons call calls ih =>
      intro db h
      rw [always_next_cons, always_next_cons, step_sound_iff h]
      constructor
      · rintro ⟨⟨hcareful, -⟩, hrest⟩
        exact ⟨hcareful, (ih _ ((step_sound_iff h call).mpr hcareful)).mp hrest⟩
      · rintro ⟨hcareful, hrest⟩
        exact ⟨⟨hcareful, h.toLinked.uninherited call⟩,
          (ih _ ((step_sound_iff h call).mpr hcareful)).mpr hrest⟩
  exact hrun Db.empty .empty

/-- A wall is scheduled, deleted and replaced. -/
def replaced : List Call :=
  [.createWall "lobby", .createShow ⟨"evening", "scenes: []", none⟩, .createSchedule ⟨1, 1, "nights"⟩,
    .deleteWall 1, .createWall "kitchen"]

def anyHost : Host := ⟨fun _ => true, fun _ => none⟩

/-- The new wall has the schedule of the old one. -/
theorem kitchen_plays_lobby :
    (replaced.foldl (Db.step anyHost) Db.empty).walls.rows = [⟨1, "kitchen"⟩] ∧
    (replaced.foldl (Db.step anyHost) Db.empty).schedules.rows = [⟨1, 1, 1, "nights"⟩] ∧
    ¬ Always (fun db call db' => db' = Db.step anyHost db call)
      (fun db call => Sound (db.step anyHost call) ∧ Uninherited db call) Db.empty replaced := by
  refine ⟨by decide +kernel, by decide +kernel, ?_⟩
  rintro ⟨-, h⟩
  obtain ⟨-, h⟩ := h _ rfl
  obtain ⟨-, h⟩ := h _ rfl
  obtain ⟨⟨hdeleted, -⟩, -⟩ := h _ rfl
  -- the schedule is still there, the wall is not
  have hschedules : (⟨1, 1, 1, "nights"⟩ : Schedule) ∈
      ((replaced.take 4).foldl (Db.step anyHost) Db.empty).schedules.rows := by decide +kernel
  have hwalls : ((replaced.take 4).foldl (Db.step anyHost) Db.empty).walls.rows = [] := by
    decide +kernel
  obtain ⟨w, hw, -⟩ := hdeleted.scheduleWall _ hschedules
  exact List.not_mem_nil (hwalls ▸ hw)

end Ledwall.Server.Fleet
