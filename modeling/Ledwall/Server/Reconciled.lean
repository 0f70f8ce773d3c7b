import Ledwall.Library.Runs
import Ledwall.Server.LinkTable

/-! What goes out, against the rows an iteration has read last. -/

namespace Ledwall.Server

open Ledwall.Library.Runs Ledwall.Wire

/-- The place a row asks for. -/
def Rows.Asks (r : Rows) (p : Place) : Prop := ∃ c ∈ r.streamable, p = c.place

/-- Each crop is the canvas's, by the box of the link it is for. -/
def Cropped (links : List CardLink) (canvas : Box → Crop) (payloads : List Payload) : Prop :=
  ∀ p ∈ payloads, ∃ link, links[p.1]? = some link ∧ p.2 = canvas link.box

theorem Cropped.grow {links links' : List CardLink} {canvas : Box → Crop} {payloads : List Payload}
    (h : Cropped links canvas payloads) (hg : Grows links links') :
    Cropped links' canvas payloads := by
  intro p hp
  obtain ⟨link, hi, hcrop⟩ := h p hp
  obtain ⟨link', hi', hplace⟩ := hg p.1 link hi
  have hbox : link'.box = link.box := congrArg Place.box hplace
  exact ⟨link', hi', by rw [hcrop, hbox]⟩

namespace WallPlayer

variable (w : WallPlayer)

def linkOf (id : ℕ) : Option CardLink := (w.lookup id).bind fun i => w.links[i]?

/-- A link that matches its card has the card's port. -/
def PortsHeld (r : Rows) : Prop :=
  ∀ c ∈ r.streamable, ∀ link ∈ w.linkOf c.id, link.matches c = true → link.port = c.port

instance (r : Rows) : Decidable (w.PortsHeld r) :=
  inferInstanceAs (Decidable (∀ c ∈ r.streamable, ∀ link ∈ w.linkOf c.id,
    link.matches c = true → link.port = c.port))

/-- The step that ends the reconciliation of the links. -/
def reconciles : Bool :=
  match w.render with
  | .linking _ [] => true
  | _ => false

/-- The step after which the queue holds frames of the current show alone. -/
def drains : Bool :=
  match w.render with
  | .comparing r => r.key = w.cur
  | .draining _ => w.queue.isEmpty
  | _ => false

/-- The queue holds frames of the show `key` alone. -/
def Drained (key : ShowKey) : Prop := w.cur = key ∧ ∀ r, w.render ≠ .draining r

/-- The iteration is about the rows read last. -/
def About (seen : Option Rows) (r : Rows) : Prop :=
  seen = some r ∧ r.enabled = true ∧ w.PortsHeld r

/-- What the iteration has established where it stands. -/
def Stage (seen : Option Rows) : Render → Prop
  | .top => True
  | .comparing r => w.About seen r
  | .draining r | .checking r => w.About seen r ∧ w.cur = r.key
  | .closing r => w.About seen r ∧ w.renderer = some w.cur
  | .linking r todo => w.About seen r ∧ w.renderer = some w.cur ∧ todo ⊆ r.streamable ∧
      AllOpen (fun p => r.Asks p ∨ ∃ c ∈ todo, p.id = c.id) w.links
  | .composing r => w.About seen r ∧ w.renderer = some w.cur
  | .putting item => item.show = w.cur ∧ Cropped w.links item.canvas item.payloads

structure Sound (seen : Option Rows) : Prop where
  tabled : Tabled w.table w.links
  stage : w.Stage seen w.render
  queued : ∀ item ∈ w.queue, Cropped w.links item.canvas item.payloads
  shown : (∀ r, w.render ≠ .draining r) → ∀ item ∈ w.queue, item.show = w.cur
  held : w.phase.payloads = [] ∨
    ∃ item, w.hand = some item ∧ Cropped w.links item.canvas w.phase.payloads
  renderer : ∀ k, w.renderer = some k → k = w.cur

variable {w} {w' : WallPlayer} {r : Rows} {c : CardRow} {seen : Option Rows}

/-- Each card's link is the one it was, or none. -/
def Sheds (w w' : WallPlayer) : Prop :=
  ∀ id link', w'.linkOf id = some link' → ∃ link, w.linkOf id = some link ∧ link'.place = link.place

theorem PortsHeld.shed (h : w.PortsHeld r) (hs : Sheds w w') : w'.PortsHeld r := by
  intro c hc link' hlink' hm
  obtain ⟨link, hlink, hplace⟩ := hs c.id link' hlink'
  rw [CardLink.matches_of_place hplace] at hm
  rw [CardLink.port_of_place hplace]
  exact h c hc link hlink hm

theorem About.shed (h : w.About seen r) (hs : Sheds w w') : w'.About seen r :=
  ⟨h.1, h.2.1, h.2.2.shed hs⟩

theorem sheds_retire (id i : ℕ) : Sheds w (w.retire id i) := by
  intro id' link' h
  simp only [linkOf, lookup_retire] at h
  split at h
  · cases h
  · obtain ⟨j, hj, hlink'⟩ := Option.bind_eq_some_iff.mp h
    simp only [retire, List.getElem?_modify] at hlink'
    obtain ⟨link, hlink, heq⟩ := Option.map_eq_some_iff.mp hlink'
    refine ⟨link, Option.bind_eq_some_iff.mpr ⟨j, hj, hlink⟩, ?_⟩
    rw [← heq]
    split <;> rfl

theorem sheds_unmatch (c : CardRow) : Sheds w (w.unmatch c) := by
  rw [unmatch]
  split
  · exact sheds_retire _ _
  · exact fun _ link h => ⟨link, h, rfl⟩

theorem sheds_of_fixed {links : List CardLink} {phase : Phase}
    (h : links.map CardLink.fixed = w.links.map CardLink.fixed) :
    Sheds w { w with links := links, phase := phase } := by
  intro id link' hlink'
  obtain ⟨i, hi, hlink'⟩ := Option.bind_eq_some_iff.mp hlink'
  obtain ⟨link, hlink, hf⟩ := exists_of_fixed h.symm hlink'
  exact ⟨link, Option.bind_eq_some_iff.mpr ⟨i, hi, hlink⟩, (congrArg Prod.fst hf).symm⟩

/-- A row's id is its own among the cards. -/
theorem streamable_inj {c' : CardRow} (hc : c ∈ r.streamable) (hc' : c' ∈ r.streamable)
    (hid : c'.id = c.id) : c' = c :=
  List.inj_on_of_nodup_map r.keys (List.mem_of_mem_filter hc') (List.mem_of_mem_filter hc) hid

/-- A link made for a row has its port. -/
theorem PortsHeld.openLink (h : w.PortsHeld r) (ht : Tabled w.table w.links)
    (hc : c ∈ r.streamable) (hnone : w.lookup c.id = none) : (w.openLink c).PortsHeld r := by
  intro c' hc' link hlink hm
  simp only [linkOf, lookup_openLink hnone] at hlink
  split at hlink
  · next hid =>
    have hnew : (w.links ++ [CardLink.new c])[w.links.length]? = some link := hlink
    rw [List.getElem?_concat_length] at hnew
    cases hnew
    rw [streamable_inj hc hc' hid]
    rfl
  · obtain ⟨i, hi, hlink⟩ := Option.bind_eq_some_iff.mp hlink
    obtain ⟨old, hold, -⟩ := ht.names c'.id i (lookup_mem hi)
    have hlt : i < w.links.length := (List.getElem?_eq_some_iff.mp hold).1
    simp only [WallPlayer.openLink, List.getElem?_append_left hlt] at hlink
    exact h c' hc' link (Option.bind_eq_some_iff.mpr ⟨i, hi, hlink⟩) hm

theorem tabled_openLink (ht : Tabled w.table w.links) (hnone : w.lookup c.id = none) :
    Tabled (w.openLink c).table (w.openLink c).links := by
  have hnew : ∀ i, ((CardLink.new c).id, i) ∉ w.table := lookup_none hnone
  exact ht.append hnew

theorem tabled_unmatch (ht : Tabled w.table w.links) (c : CardRow) :
    Tabled (w.unmatch c).table (w.unmatch c).links := by
  rw [unmatch]
  split
  · next i hi => exact ht.retire (mismatched_mem hi)
  · exact ht

theorem grows_unmatch (c : CardRow) : Grows w.links (w.unmatch c).links := by
  rw [unmatch]
  split
  · exact Grows.close _
  · exact Grows.refl _

theorem allOpen_unmatch {P : Place → Prop} (h : AllOpen P w.links) (c : CardRow) :
    AllOpen P (w.unmatch c).links := by
  rw [unmatch]
  split
  · exact h.close _
  · exact h

/-- An open link of the card that is left after its mismatch is dropped is at the card's place. -/
theorem place_unmatch (ht : Tabled w.table w.links) (hports : w.PortsHeld r)
    (hc : c ∈ r.streamable) {i : ℕ} {link : CardLink} (hi : (w.unmatch c).links[i]? = some link)
    (hopen : link.closed = false) (hid : link.id = c.id) : link.place = c.place := by
  rw [unmatch] at hi
  split at hi
  · next j hj =>
    obtain ⟨hne, hold⟩ := open_of_close hi hopen
    have hmem := ht.opened i link hold hopen
    rw [hid] at hmem
    exact absurd (ht.same hmem (mismatched_mem hj)) hne
  · next hnone =>
    have hm := matches_of_kept ht hnone hi hopen hid
    have hmem := ht.opened i link hi hopen
    rw [hid] at hmem
    have hlinkOf : w.linkOf c.id = some link :=
      Option.bind_eq_some_iff.mpr ⟨i, lookup_of_mem ht hmem, hi⟩
    exact CardLink.place_of_matches hid hm (hports c hc link hlinkOf hm)

/-- What an iteration has established does not hang on what a send changes of a link. -/
theorem stage_of_fixed {links : List CardLink} {phase : Phase} {render : Render}
    (h : links.map CardLink.fixed = w.links.map CardLink.fixed) (hs : w.Stage seen render) :
    { w with links := links, phase := phase }.Stage seen render := by
  have hsheds := @sheds_of_fixed w links phase h
  cases render with
  | top => trivial
  | comparing r => exact About.shed hs hsheds
  | draining r => exact ⟨About.shed hs.1 hsheds, hs.2⟩
  | checking r => exact ⟨About.shed hs.1 hsheds, hs.2⟩
  | closing r => exact ⟨About.shed hs.1 hsheds, hs.2⟩
  | linking r todo =>
    exact ⟨About.shed hs.1 hsheds, hs.2.1, hs.2.2.1, hs.2.2.2.of_fixed h⟩
  | composing r => exact ⟨About.shed hs.1 hsheds, hs.2⟩
  | putting item => exact ⟨hs.1, hs.2.grow (Grows.of_fixed h)⟩

/-- What is kept when the links grow and no frame is queued or taken. -/
theorem Sound.relink (h : w.Sound seen) (hg : Grows w.links w'.links)
    (ht : Tabled w'.table w'.links) (hstage : w'.Stage seen w'.render)
    (hrender : ∀ r, w.render ≠ .draining r) (hcur : w'.cur = w.cur)
    (hrenderer : ∀ k, w'.renderer = some k → k = w.cur) (hqueue : w'.queue = w.queue)
    (hhand : w'.hand = w.hand) (hphase : w'.phase = w.phase) : w'.Sound seen where
  tabled := ht
  stage := hstage
  queued item hitem := by
    rw [hqueue] at hitem
    exact (h.queued item hitem).grow hg
  shown _ item hitem := by
    rw [hqueue] at hitem
    rw [hcur]
    exact h.shown hrender item hitem
  held := by
    rw [hphase, hhand]
    rcases h.held with hnone | ⟨item, hitem, hcrop⟩
    · exact Or.inl hnone
    · exact Or.inr ⟨item, hitem, hcrop.grow hg⟩
  renderer k hk := by
    rw [hcur]
    exact hrenderer k hk

/-- What is kept when the iteration moves on by itself. -/
theorem Sound.move (h : w.Sound seen) {render : Render}
    (hrender : ∀ r, w.render ≠ .draining r) (hstage : w.Stage seen render) :
    { w with render := render }.Sound seen := by
  refine h.relink (Grows.refl _) h.tabled ?_ hrender rfl h.renderer rfl rfl rfl
  cases render <;> exact hstage

theorem cropped_payloads (canvas : Box → Crop) (cards : List CardRow) :
    Cropped w.links canvas (w.payloads canvas cards) := by
  intro p hp
  obtain ⟨c, -, hc⟩ := List.mem_filterMap.mp hp
  obtain ⟨i, -, hi⟩ := Option.bind_eq_some_iff.mp hc
  obtain ⟨link, hlink, rfl⟩ := Option.map_eq_some_iff.mp hi
  exact ⟨link, hlink, rfl⟩

theorem unmatch_frame : (w.unmatch c).cur = w.cur ∧ (w.unmatch c).renderer = w.renderer ∧
    (w.unmatch c).queue = w.queue ∧ (w.unmatch c).hand = w.hand ∧
      (w.unmatch c).phase = w.phase := by
  rw [unmatch]
  split <;> exact ⟨rfl, rfl, rfl, rfl, rfl⟩

theorem sound_comparing (h : w.Sound seen) (hr : w.render = .comparing r) (course : Course) :
    (w.renderStep course).Sound seen := by
  have hnot : ∀ r, w.render ≠ .draining r := by simp [hr]
  have hstage := h.stage
  rw [hr] at hstage
  simp only [renderStep, hr]
  split
  · next hkey => exact h.move hnot ⟨hstage, hkey.symm⟩
  · split
    · exact h.move hnot trivial
    · exact ⟨h.tabled, ⟨hstage, rfl⟩, h.queued, fun hd => absurd rfl (hd r), h.held,
        fun k hk => by cases hk⟩

theorem sound_draining (h : w.Sound seen) (hr : w.render = .draining r) (course : Course) :
    (w.renderStep course).Sound seen := by
  have hstage := h.stage
  rw [hr] at hstage
  simp only [renderStep, hr]
  split
  · next hq =>
    refine ⟨h.tabled, hstage, h.queued, ?_, h.held, h.renderer⟩
    intro _ item hitem
    simp [hq] at hitem
  · next item queue hq =>
    refine ⟨h.tabled, hstage, ?_, fun hd => absurd rfl (hd r), h.held, h.renderer⟩
    intro item' hitem'
    apply h.queued item'
    rw [hq]
    exact List.mem_cons_of_mem item hitem'

theorem sound_checking (h : w.Sound seen) (hr : w.render = .checking r) (course : Course) :
    (w.renderStep course).Sound seen := by
  have hnot : ∀ r, w.render ≠ .draining r := by simp [hr]
  have hstage := h.stage
  rw [hr] at hstage
  obtain ⟨habout, hcur⟩ := hstage
  simp only [renderStep, hr]
  split
  · exact h.move hnot trivial
  · have hkey : w.renderer.getD r.key = w.cur := by
      cases hk : w.renderer with
      | none => exact hcur.symm
      | some k => exact h.renderer k hk
    refine h.relink (Grows.refl _) h.tabled ⟨habout, congrArg some hkey⟩ hnot rfl ?_ rfl rfl rfl
    rintro k hk
    cases hk
    exact hkey

theorem sound_closing (h : w.Sound seen) (hr : w.render = .closing r) (course : Course) :
    (w.renderStep course).Sound seen := by
  have hnot : ∀ r, w.render ≠ .draining r := by simp [hr]
  have hstage := h.stage
  rw [hr] at hstage
  obtain ⟨habout, hrenderer⟩ := hstage
  simp only [renderStep, hr]
  split
  · next id i hfind =>
    have hmem : (id, i) ∈ w.table := List.mem_of_find?_eq_some hfind
    refine h.relink (Grows.close i) (h.tabled.retire hmem) ?_ hnot rfl h.renderer rfl rfl rfl
    change (w.retire id i).Stage seen w.render
    rw [hr]
    exact ⟨habout.shed (sheds_retire id i), hrenderer⟩
  · next hfind =>
    refine h.move hnot ⟨habout, hrenderer, List.Subset.refl _, ?_⟩
    intro i link hi hopen
    right
    have hno := List.find?_eq_none.mp hfind _ (h.tabled.opened i link hi hopen)
    simp only [decide_eq_true_eq, not_forall, not_not] at hno
    obtain ⟨c, hc, hid⟩ := hno
    exact ⟨c, hc, hid.symm⟩

theorem sound_linking {todo : List CardRow} (h : w.Sound seen) (hr : w.render = .linking r todo)
    (course : Course) : (w.renderStep course).Sound seen := by
  have hnot : ∀ r, w.render ≠ .draining r := by simp [hr]
  have hstage := h.stage
  rw [hr] at hstage
  obtain ⟨habout, hrenderer, hsub, hlinks⟩ := hstage
  rcases todo with _ | ⟨c, todo⟩
  · simp only [renderStep, hr]
    exact h.move hnot ⟨habout, hrenderer⟩
  · obtain ⟨hc, htodo⟩ := List.cons_subset.mp hsub
    have htabled := tabled_unmatch h.tabled c
    have hgrows := @grows_unmatch w c
    have habout' := habout.shed (sheds_unmatch c)
    obtain ⟨hcur, hren, hqueue, hhand, hphase⟩ := @unmatch_frame w c
    have hrenderer' : (w.unmatch c).renderer = some (w.unmatch c).cur := by rw [hren, hcur, hrenderer]
    have hold : ∀ k, (w.unmatch c).renderer = some k → k = w.cur := by
      rw [hren]
      exact h.renderer
    have hlinks' : AllOpen (fun p => r.Asks p ∨ ∃ c ∈ todo, p.id = c.id) (w.unmatch c).links := by
      intro i link hi hopen
      obtain hasks | ⟨c', hc', hid⟩ := allOpen_unmatch hlinks c i link hi hopen
      · exact Or.inl hasks
      · rcases List.mem_cons.mp hc' with rfl | hc'
        · exact Or.inl ⟨c', hc, place_unmatch h.tabled habout.2.2 hc hi hopen hid⟩
        · exact Or.inr ⟨c', hc', hid⟩
    simp only [renderStep, hr]
    split
    · exact h.relink hgrows htabled ⟨habout', hrenderer', htodo, hlinks'⟩ hnot hcur hold hqueue
        hhand hphase
    · next hlookup =>
      split
      · exact h.relink hgrows htabled trivial hnot hcur hold hqueue hhand hphase
      · have hnone : (w.unmatch c).lookup c.id = none := by simpa using hlookup
        have hgrows' : Grows w.links ((w.unmatch c).links ++ [.new c]) := by
          intro i link hi
          obtain ⟨link', hi', hplace⟩ := hgrows i link hi
          obtain ⟨link'', hi'', hplace'⟩ := Grows.append (.new c) i link' hi'
          exact ⟨link'', hi'', hplace'.trans hplace⟩
        refine h.relink hgrows' (tabled_openLink htabled hnone) ?_ hnot hcur hold hqueue hhand
          hphase
        refine ⟨⟨habout'.1, habout'.2.1, habout'.2.2.openLink htabled hc hnone⟩, hrenderer', htodo,
          ?_⟩
        exact hlinks'.append (Or.inl ⟨c, hc, rfl⟩)

theorem sound_composing (h : w.Sound seen) (hr : w.render = .composing r) (course : Course) :
    (w.renderStep course).Sound seen := by
  have hnot : ∀ r, w.render ≠ .draining r := by simp [hr]
  have hstage := h.stage
  rw [hr] at hstage
  obtain ⟨-, hrenderer⟩ := hstage
  simp only [renderStep, hr]
  split
  · exact h.move hnot trivial
  · refine h.move hnot ⟨?_, cropped_payloads course.canvas r.streamable⟩
    rw [hrenderer]
    rfl

theorem sound_putting {item : Item} (h : w.Sound seen) (hr : w.render = .putting item)
    (course : Course) : (w.renderStep course).Sound seen := by
  have hnot : ∀ r, w.render ≠ .draining r := by simp [hr]
  have hstage := h.stage
  rw [hr] at hstage
  obtain ⟨hshow, hcrop⟩ := hstage
  simp only [renderStep, hr]
  split
  · refine ⟨h.tabled, trivial, ?_, ?_, h.held, h.renderer⟩
    · intro item' hitem'
      rcases List.mem_append.mp hitem' with hold | hnew
      · exact h.queued item' hold
      · rw [List.mem_singleton.mp hnew]
        exact hcrop
    · intro _ item' hitem'
      rcases List.mem_append.mp hitem' with hold | hnew
      · exact h.shown hnot item' hold
      · rw [List.mem_singleton.mp hnew]
        exact hshow
  · exact h

theorem sound_render (h : w.Sound seen) (course : Course) : (w.renderStep course).Sound seen := by
  cases hr : w.render with
  | top =>
    simp only [renderStep, hr]
    exact h
  | comparing r => exact sound_comparing h hr course
  | draining r => exact sound_draining h hr course
  | checking r => exact sound_checking h hr course
  | closing r => exact sound_closing h hr course
  | linking r todo => exact sound_linking h hr course
  | composing r => exact sound_composing h hr course
  | putting item => exact sound_putting h hr course

theorem hand_render (course : Course) : (w.renderStep course).hand = w.hand := by
  fun_cases renderStep <;> try rfl
  all_goals exact unmatch_frame.2.2.2.1

/-- With the links reconciled, an iteration about the same rows opens none they do not ask for. -/
theorem allOpen_render (h : w.Sound (some r)) (ho : AllOpen r.Asks w.links) (course : Course) :
    AllOpen r.Asks (w.renderStep course).links := by
  have hstage := h.stage
  cases hr : w.render with
  | closing r' =>
    simp only [renderStep, hr]
    split
    · exact ho.close _
    · exact ho
  | linking r' todo =>
    rcases todo with _ | ⟨c, todo⟩
    · simp only [renderStep, hr]
      exact ho
    · rw [hr] at hstage
      obtain ⟨⟨heq, -⟩, -, hsub, -⟩ := hstage
      cases heq
      have ho' := allOpen_unmatch ho c
      simp only [renderStep, hr]
      split
      · exact ho'
      · split
        · exact ho'
        · exact ho'.append ⟨c, hsub List.mem_cons_self, rfl⟩
  | top => simpa only [renderStep, hr] using ho
  | comparing r' =>
    simp only [renderStep, hr]
    split
    · exact ho
    · split <;> exact ho
  | draining r' =>
    simp only [renderStep, hr]
    split <;> exact ho
  | checking r' =>
    simp only [renderStep, hr]
    split <;> exact ho
  | composing r' =>
    simp only [renderStep, hr]
    split <;> exact ho
  | putting item =>
    simp only [renderStep, hr]
    split <;> exact ho

/-- The step that ends the reconciliation leaves open what the rows ask for alone. -/
theorem allOpen_of_reconciles (h : w.Sound seen) (hrec : w.reconciles = true) (course : Course) :
    ∃ r, seen = some r ∧ r.enabled = true ∧ AllOpen r.Asks (w.renderStep course).links := by
  have hstage := h.stage
  rw [reconciles] at hrec
  split at hrec
  · next r hr =>
    rw [hr] at hstage
    obtain ⟨⟨hseen, henabled, -⟩, -, -, hlinks⟩ := hstage
    refine ⟨r, hseen, henabled, ?_⟩
    have hasks : AllOpen r.Asks w.links := by
      refine AllOpen.mono ?_ hlinks
      rintro p (hp | ⟨c, hc, -⟩)
      · exact hp
      · cases hc
    simpa only [renderStep, hr] using hasks
  · cases hrec

theorem drained_render {key : ShowKey} (hkey : ∀ r, w.render = .comparing r → r.key = key)
    (hd : w.Drained key) (course : Course) : (w.renderStep course).Drained key := by
  obtain ⟨hcur, hnot⟩ := hd
  cases hr : w.render with
  | top => exact ⟨by simpa only [renderStep, hr] using hcur, by simp [renderStep, hr]⟩
  | comparing r =>
    have heq : r.key = w.cur := (hkey r hr).trans hcur.symm
    simp only [renderStep, hr, if_pos heq]
    exact ⟨hcur, by simp⟩
  | draining r => exact absurd hr (hnot r)
  | checking r =>
    simp only [renderStep, hr]
    split <;> exact ⟨hcur, by simp⟩
  | closing r =>
    simp only [renderStep, hr]
    split
    · exact ⟨hcur, by simp [retire, hr]⟩
    · exact ⟨hcur, by simp⟩
  | linking r todo =>
    rcases todo with _ | ⟨c, todo⟩
    · simp only [renderStep, hr]
      exact ⟨hcur, by simp⟩
    · have hcur' : (w.unmatch c).cur = key := unmatch_frame.1.trans hcur
      simp only [renderStep, hr]
      split
      · exact ⟨hcur', by simp⟩
      · split <;> exact ⟨hcur', by simp⟩
  | composing r =>
    simp only [renderStep, hr]
    split <;> exact ⟨hcur, by simp⟩
  | putting item =>
    simp only [renderStep, hr]
    split
    · exact ⟨hcur, by simp⟩
    · exact ⟨hcur, hnot⟩

theorem drained_of_drains {key : ShowKey} (h : w.Sound seen)
    (hkey : ∀ r, seen = some r → r.enabled = true → key = r.key) (hd : w.drains = true)
    (course : Course) : (w.renderStep course).Drained key := by
  have hstage := h.stage
  rw [drains] at hd
  split at hd
  · next r hr =>
    rw [hr] at hstage
    obtain ⟨hseen, henabled, -⟩ := hstage
    have hcur : r.key = w.cur := by simpa using hd
    simp only [renderStep, hr, if_pos hcur]
    exact ⟨hcur.symm.trans (hkey r hseen henabled).symm, by simp⟩
  · next r hr =>
    rw [hr] at hstage
    obtain ⟨⟨hseen, henabled, -⟩, hcur⟩ := hstage
    have hq : w.queue = [] := by simpa using hd
    simp only [renderStep, hr, hq]
    exact ⟨hcur.trans (hkey r hseen henabled).symm, by simp⟩
  · cases hd

end WallPlayer

/-- A player, and what is remembered of its run: the rows read last, the show of the last ones of
an enabled wall, whether the links have been reconciled with those rows, whether frames of another
show have been dropped from the queue, and whether the frame in hand was taken after that. -/
structure Watch where
  player : WallPlayer := {}
  seen : Option Rows := none
  «show» : ShowKey := (none, none)
  reconciled : Bool := false
  drained : Bool := false
  fresh : Bool := false

/-- What the threads, the database and the network do next. -/
inductive Watch.Event
  | read (r : Rows)
  | render (course : WallPlayer.Course)
  | get
  | send (net : Network)
  | hold (host : String) (on : Bool)

namespace Watch

variable (w : Watch)

def read (r : Rows) : Watch :=
  let same := !r.enabled || decide (r.key = w.show)
  { player := w.player.read r
    seen := some r
    «show» := if r.enabled then r.key else w.show
    reconciled := w.reconciled && r.enabled && w.seen.any fun s => s.streamable = r.streamable
    drained := w.drained && same
    fresh := w.fresh && same }

def step : Event → Watch
  | .read r =>
    match w.player.render with
    | .top => w.read r
    | _ => w
  | .render course =>
    { w with
      player := w.player.renderStep course
      reconciled := w.reconciled || w.player.reconciles
      drained := w.drained || w.player.drains }
  | .get =>
    { w with
      player := w.player.get
      fresh :=
        match w.player.phase, w.player.queue with
        | .waiting, _ :: _ => w.drained
        | _, _ => w.fresh }
  | .send net => { w with player := w.player.send net }
  | .hold host on =>
    { w with player := { w.player with down := fun h => if h = host then on else w.player.down h } }

/-- The datagram that goes out next. -/
def wire (net : Network) : Option (ℕ × List Byte) :=
  (senderStep w.player.links w.player.down net w.player.phase).wire

/-- A datagram goes to a card the rows read last ask for, on an enabled wall, at the address and of
the size its row gives, with the crop of its row's box, from a frame of the show they name. -/
def Rightful : Event → Prop
  | .send net => ∀ i d, w.wire net = some (i, d) →
      ∃ r c link item crop, w.seen = some r ∧ r.enabled = true ∧ c ∈ r.streamable ∧
        w.player.links[i]? = some link ∧ link.host = c.host ∧ link.port = c.port ∧
        (link.w, link.h) = (c.width, c.height) ∧
        w.player.phase.current = some (i, crop) ∧ w.player.hand = some item ∧
        crop = item.canvas c.box ∧ item.show = r.key
  | _ => True

/-- A datagram goes out only once the links are reconciled with the rows read last, of a frame
taken after the queue was drained for their show; and no row's port alone is another. -/
def Orderly : Event → Prop
  | .read r => r.enabled = true → w.player.PortsHeld r
  | .send net => (w.wire net).isSome → w.reconciled = true ∧ w.fresh = true
  | _ => True

instance (w : Watch) (e : Event) : Decidable (w.Orderly e) :=
  match e with
  | .read r => inferInstanceAs (Decidable (r.enabled = true → w.player.PortsHeld r))
  | .send net =>
    inferInstanceAs (Decidable ((w.wire net).isSome → w.reconciled = true ∧ w.fresh = true))
  | .render _ | .get | .hold _ _ => .isTrue trivial

/-- What every step keeps. -/
structure Kept : Prop where
  sound : w.player.Sound w.seen
  «show» : ∀ r, w.seen = some r → r.enabled = true → w.show = r.key
  reconciled : w.reconciled = true → ∃ r, w.seen = some r ∧ r.enabled = true ∧
    AllOpen r.Asks w.player.links
  drained : w.drained = true → w.player.Drained w.show
  fresh : w.fresh = true → ∃ item, w.player.hand = some item ∧ item.show = w.show

variable {w}

theorem kept_read (h : w.Kept) {r : Rows} (htop : w.player.render = .top)
    (ho : w.Orderly (.read r)) : (w.read r).Kept := by
  have hnot : ∀ r, w.player.render ≠ .draining r := by simp [htop]
  have hsound : (w.player.read r).Sound (some r) := by
    have hs := h.sound
    refine ⟨?_, ?_, ?_, ?_, ?_, ?_⟩ <;> simp only [WallPlayer.read, htop]
    · exact hs.tabled
    · by_cases henabled : r.enabled = true
      · rw [if_pos henabled]
        exact ⟨rfl, henabled, ho henabled⟩
      · rw [if_neg henabled]
        trivial
    · exact hs.queued
    · exact fun _ => hs.shown hnot
    · exact hs.held
    · exact hs.renderer
  have hplayer : (w.player.read r).links = w.player.links ∧ (w.player.read r).cur = w.player.cur ∧
      (w.player.read r).hand = w.player.hand ∧ ∀ r', (w.player.read r).render ≠ .draining r' := by
    simp only [WallPlayer.read, htop]
    refine ⟨trivial, trivial, trivial, ?_⟩
    intro r'
    split <;> simp
  obtain ⟨hlinks, hcur, hhand, hnot'⟩ := hplayer
  have hshow : (!r.enabled || decide (r.key = w.show)) = true → (w.read r).show = w.show := by
    intro hsame
    simp only [read]
    split
    · next henabled => simpa [henabled] using hsame
    · rfl
  refine ⟨hsound, ?_, ?_, ?_, ?_⟩
  · intro r' hr' henabled
    cases hr'
    simp only [read, henabled, if_true]
  · intro hrec
    simp only [read, Bool.and_eq_true] at hrec
    obtain ⟨⟨hrec, henabled⟩, hsame⟩ := hrec
    obtain ⟨s, hs, -, hopen⟩ := h.reconciled hrec
    have hcards : s.streamable = r.streamable := by simpa [hs] using hsame
    refine ⟨r, rfl, henabled, ?_⟩
    simp only [read, hlinks]
    refine AllOpen.mono ?_ hopen
    rintro p ⟨c, hc, hp⟩
    exact ⟨c, hcards ▸ hc, hp⟩
  · intro hd
    simp only [read, Bool.and_eq_true] at hd
    rw [hshow hd.2]
    exact ⟨hcur.trans (h.drained hd.1).1, hnot'⟩
  · intro hf
    simp only [read, Bool.and_eq_true] at hf
    rw [hshow hf.2]
    obtain ⟨item, hitem, hkey⟩ := h.fresh hf.1
    exact ⟨item, hhand.trans hitem, hkey⟩

theorem kept_render (h : w.Kept) (course : WallPlayer.Course) :
    (w.step (.render course)).Kept := by
  have hkey : ∀ r, w.player.render = .comparing r → r.key = w.show := by
    intro r hr
    have hstage := h.sound.stage
    rw [hr] at hstage
    exact (h.show r hstage.1 hstage.2.1).symm
  refine ⟨WallPlayer.sound_render h.sound course, h.show, ?_, ?_, ?_⟩
  · intro hrec
    rcases (Bool.or_eq_true _ _).mp hrec with hold | hnew
    · obtain ⟨r, hr, henabled, hopen⟩ := h.reconciled hold
      exact ⟨r, hr, henabled, WallPlayer.allOpen_render (hr ▸ h.sound) hopen course⟩
    · exact WallPlayer.allOpen_of_reconciles h.sound hnew course
  · intro hd
    rcases (Bool.or_eq_true _ _).mp hd with hold | hnew
    · exact WallPlayer.drained_render hkey (h.drained hold) course
    · exact WallPlayer.drained_of_drains h.sound h.show hnew course
  · intro hf
    obtain ⟨item, hitem, hshow⟩ := h.fresh hf
    exact ⟨item, (WallPlayer.hand_render course).trans hitem, hshow⟩

theorem kept_get (h : w.Kept) : (w.step .get).Kept := by
  cases hphase : w.player.phase with
  | waiting =>
    cases hq : w.player.queue with
    | nil =>
      have hsame : w.step .get = w := by simp only [step, WallPlayer.get, hphase, hq]
      rw [hsame]
      exact h
    | cons item queue =>
      have hs := h.sound
      have hmem : item ∈ w.player.queue := by rw [hq]; exact List.mem_cons_self
      have hsub : ∀ item' ∈ queue, item' ∈ w.player.queue := by
        intro item' hitem'
        rw [hq]
        exact List.mem_cons_of_mem item hitem'
      simp only [step, WallPlayer.get, hphase, hq]
      refine ⟨⟨hs.tabled, hs.stage, ?_, ?_, ?_, hs.renderer⟩, h.show, h.reconciled, h.drained, ?_⟩
      · exact fun item' hitem' => hs.queued item' (hsub item' hitem')
      · exact fun hnot item' hitem' => hs.shown hnot item' (hsub item' hitem')
      · exact Or.inr ⟨item, rfl, hs.queued item hmem⟩
      · intro hf
        obtain ⟨hcur, hnot⟩ := h.drained hf
        exact ⟨item, rfl, (hs.shown hnot item hmem).trans hcur⟩
  | holding _ | chosen _ _ _ | sending _ _ _ _ =>
    have hsame : w.step .get = w := by simp only [step, WallPlayer.get, hphase]
    rw [hsame]
    exact h

theorem kept_send (h : w.Kept) (net : Network) : (w.step (.send net)).Kept := by
  have hs := h.sound
  obtain ⟨hfixed, hpayloads, -⟩ :=
    senderStep_kept w.player.links w.player.down net w.player.phase
  have hgrows := Grows.of_fixed hfixed
  refine ⟨⟨hs.tabled.of_fixed hfixed, ?_, ?_, hs.shown, ?_, hs.renderer⟩, h.show, ?_, h.drained,
    h.fresh⟩
  · exact WallPlayer.stage_of_fixed hfixed hs.stage
  · exact fun item hitem => (hs.queued item hitem).grow hgrows
  · rcases hs.held with hnone | ⟨item, hitem, hcrop⟩
    · rw [hnone] at hpayloads
      exact Or.inl (List.subset_nil.mp hpayloads)
    · refine Or.inr ⟨item, hitem, ?_⟩
      intro p hp
      exact (hcrop.grow hgrows) p (hpayloads hp)
  · intro hrec
    obtain ⟨r, hr, henabled, hopen⟩ := h.reconciled hrec
    exact ⟨r, hr, henabled, hopen.of_fixed hfixed⟩

theorem kept_step (h : w.Kept) {e : Event} (ho : w.Orderly e) : (w.step e).Kept := by
  cases e with
  | read r =>
    simp only [step]
    split
    · next htop => exact kept_read h htop ho
    · exact h
  | render course => exact kept_render h course
  | get => exact kept_get h
  | send net => exact kept_send h net
  | hold host on =>
    obtain ⟨htabled, hstage, hqueued, hshown, hheld, hrenderer⟩ := h.sound
    refine ⟨⟨htabled, ?_, hqueued, hshown, hheld, hrenderer⟩, h.show, h.reconciled, h.drained,
      h.fresh⟩
    change WallPlayer.Stage _ w.seen w.player.render
    revert hstage
    cases w.player.render <;> exact id

theorem rightful_of_kept (h : w.Kept) {e : Event} (ho : w.Orderly e) : w.Rightful e := by
  cases e with
  | send net =>
    intro i d hwire
    obtain ⟨-, -, hsent⟩ := senderStep_kept w.player.links w.player.down net w.player.phase
    obtain ⟨crop, link, hcurrent, hlink, hopen⟩ := hsent i d hwire
    obtain ⟨hreconciled, hfresh⟩ := ho (by rw [hwire]; rfl)
    obtain ⟨r, hseen, henabled, hasks⟩ := h.reconciled hreconciled
    obtain ⟨c, hc, hplace⟩ := hasks i link hlink hopen
    obtain ⟨item, hitem, hshow⟩ := h.fresh hfresh
    have hmem := Phase.current_mem hcurrent
    rcases h.sound.held with hnone | ⟨item', hitem', hcropped⟩
    · rw [hnone] at hmem
      cases hmem
    · rw [hitem] at hitem'
      cases hitem'
      obtain ⟨link', hlink', hcrop⟩ := hcropped _ hmem
      rw [hlink] at hlink'
      cases hlink'
      simp only [CardLink.place, CardRow.place, Place.mk.injEq] at hplace
      obtain ⟨-, hhost, hport, hbox, hw, hh, -⟩ := hplace
      refine ⟨r, c, link, item, crop, hseen, henabled, hc, hlink, hhost, hport, ?_, hcurrent,
        hitem, ?_, ?_⟩
      · rw [hw, hh]
      · rw [← hbox]
        exact hcrop
      · exact hshow.trans (h.show r hseen henabled)
  | read r => trivial
  | render course => trivial
  | get => trivial
  | hold host on => trivial

/-- In every run in which frames go out only once reconciled with the rows, each goes where the
rows say. -/
theorem datagrams_rightful (events : List Event)
    (ho : Always (fun w e w' => w' = step w e) Orderly {} events) :
    Always (fun w e w' => w' = step w e) Rightful {} events := by
  refine Always.of_safe (I := Kept) (C := Orderly) ?_ ?_ ?_ ho
  · rintro w e _ hw he rfl
    exact kept_step hw he
  · intro w e hw he
    exact rightful_of_kept hw he
  · have hsound : WallPlayer.Sound {} none := by
      refine ⟨⟨List.nodup_nil, ?_, ?_⟩, trivial, ?_, ?_, Or.inl rfl, ?_⟩
      · intro id i hi
        cases hi
      · intro i link hi
        cases hi
      · intro item hitem
        cases hitem
      · intro _ item hitem
        cases hitem
      · intro k hk
        cases hk
    refine ⟨hsound, ?_, ?_, ?_, ?_⟩
    · intro r hr
      cases hr
    · intro hr
      cases hr
    · intro hd
      cases hd
    · intro hf
      cases hf

section Disabled

/-- A card of one pixel. -/
def pixelCard : CardRow := ⟨1, "card", 7000, 0, 0, 1, 1, 0, true, none⟩

def pixelRows (enabled : Bool) : Rows := ⟨enabled, some 1, some "show", [pixelCard], by decide⟩

/-- An iteration of the loop: the rows, and the steps that queue a white pixel. -/
def iteration : List Event :=
  .read (pixelRows true) ::
    List.replicate 8 (.render ⟨false, false, fun _ => .rgb [0xFF, 0xFF, 0xFF]⟩)

/-- The sender takes a frame and reaches its datagram. -/
def taken : List Event := [.get, .send .delivers, .send .delivers]

/-- The wall is disabled while the frame is queued. -/
def disabledBetween : List Event := iteration ++ .read (pixelRows false) :: taken

theorem disabledBetween_sends :
    ((disabledBetween.foldl step {}).wire .delivers).isSome = true ∧
      (disabledBetween.foldl step {}).seen.map Rows.enabled = some false := by
  decide +kernel

/-- What was queued for a wall goes out after the rows that disable it are read. -/
theorem disabledBetween_wrongful : ¬ ∀ events : List Event,
    Always (fun w e w' => w' = step w e) Rightful {} events := by
  intro hclaim
  have hat := Always.at_prefix (hclaim (disabledBetween ++ [.send .delivers]))
    (run_foldl step {} disabledBetween)
  obtain ⟨hsends, hdisabled⟩ := disabledBetween_sends
  obtain ⟨⟨i, d⟩, hwire⟩ := Option.isSome_iff_exists.mp hsends
  obtain ⟨r, _, _, _, _, hseen, henabled, -⟩ := hat i d hwire
  rw [hseen, Option.map_some, henabled] at hdisabled
  cases hdisabled

/-- The frame queued for a wall left alone goes out in order. -/
theorem iteration_rightful : Always (fun w e w' => w' = step w e) Rightful {}
    (iteration ++ taken ++ [.send .delivers]) := by
  apply datagrams_rightful
  decide +kernel

end Disabled

end Watch

end Ledwall.Server
