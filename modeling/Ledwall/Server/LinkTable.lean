import Ledwall.Server.WallPlayer

/-! The links a wall keeps by card: the table, and the links still open. -/

namespace Ledwall.Server

/-- What a link is made with. -/
structure Place where
  id : ℕ
  host : String
  port : ℕ
  box : Box
  w : ℕ
  h : ℕ
  packetDelay : ℚ

def CardRow.place (c : CardRow) : Place :=
  ⟨c.id, c.host, c.port, c.box, c.width, c.height, c.packetDelay⟩

namespace CardLink

variable {link link' : CardLink} {c : CardRow}

def place (link : CardLink) : Place :=
  ⟨link.id, link.host, link.port, link.box, link.w, link.h, link.packetDelay⟩

/-- What a send leaves of a link. -/
def fixed (link : CardLink) : Place × Bool := (link.place, link.closed)

theorem new_place (c : CardRow) : (new c).place = c.place := rfl

theorem matches_of_place (h : link'.place = link.place) : link'.matches c = link.matches c := by
  simp only [place, Place.mk.injEq] at h
  simp only [«matches», h]

theorem port_of_place (h : link'.place = link.place) : link'.port = link.port :=
  congrArg Place.port h

theorem place_of_matches (hid : link.id = c.id) (hm : link.matches c = true)
    (hport : link.port = c.port) : link.place = c.place := by
  simp only [«matches», Bool.and_eq_true, decide_eq_true_eq, Prod.mk.injEq] at hm
  obtain ⟨⟨⟨hhost, hbox⟩, hw, hh⟩, hdelay⟩ := hm
  simp only [place, CardRow.place, hid, hhost, hport, hbox, hw, hh, hdelay]

end CardLink

section Links

variable {links links' : List CardLink} {P : Place → Prop}

/-- Each link keeps what it was made with. -/
def Grows (links links' : List CardLink) : Prop :=
  ∀ (i : ℕ) (link : CardLink), links[i]? = some link →
    ∃ link', links'[i]? = some link' ∧ link'.place = link.place

/-- What every link not yet closed was made with. -/
def AllOpen (P : Place → Prop) (links : List CardLink) : Prop :=
  ∀ (i : ℕ) (link : CardLink), links[i]? = some link → link.closed = false → P link.place

theorem exists_of_fixed (h : links'.map CardLink.fixed = links.map CardLink.fixed) {i : ℕ}
    {link : CardLink} (hi : links[i]? = some link) :
    ∃ link', links'[i]? = some link' ∧ link'.fixed = link.fixed := by
  have hmap := congrArg (fun l : List (Place × Bool) => l[i]?) h
  simp only [List.getElem?_map, hi, Option.map_some, Option.map_eq_some_iff] at hmap
  exact hmap

theorem Grows.refl (links : List CardLink) : Grows links links :=
  fun _ link hi => ⟨link, hi, rfl⟩

theorem Grows.of_fixed (h : links'.map CardLink.fixed = links.map CardLink.fixed) :
    Grows links links' := by
  intro i link hi
  obtain ⟨link', hi', hf⟩ := exists_of_fixed h hi
  exact ⟨link', hi', congrArg Prod.fst hf⟩

theorem Grows.append (link : CardLink) : Grows links (links ++ [link]) := by
  intro i link' hi
  have hlt : i < links.length := (List.getElem?_eq_some_iff.mp hi).1
  exact ⟨link', by rwa [List.getElem?_append_left hlt], rfl⟩

theorem Grows.close (i : ℕ) :
    Grows links (links.modify i fun link => { link with closed := true }) := by
  intro j link hj
  rw [List.getElem?_modify, hj]
  split
  · exact ⟨_, rfl, rfl⟩
  · exact ⟨link, rfl, rfl⟩

theorem AllOpen.of_fixed (h : links'.map CardLink.fixed = links.map CardLink.fixed)
    (hp : AllOpen P links) : AllOpen P links' := by
  intro i link' hi' hopen
  obtain ⟨link, hi, hf⟩ := exists_of_fixed h.symm hi'
  have hplace : link.place = link'.place := congrArg Prod.fst hf
  have hclosed : link.closed = link'.closed := congrArg Prod.snd hf
  rw [← hplace]
  exact hp i link hi (hclosed.trans hopen)

/-- A link open after one is closed is another, open before. -/
theorem open_of_close {i j : ℕ} {link' : CardLink}
    (hj : (links.modify i fun link => { link with closed := true })[j]? = some link')
    (hopen : link'.closed = false) : j ≠ i ∧ links[j]? = some link' := by
  rw [List.getElem?_modify] at hj
  split at hj
  · obtain ⟨link, -, rfl⟩ := Option.map_eq_some_iff.mp hj
    cases hopen
  · next hne => exact ⟨Ne.symm hne, by simpa using hj⟩

theorem AllOpen.close (hp : AllOpen P links) (i : ℕ) :
    AllOpen P (links.modify i fun link => { link with closed := true }) := by
  intro j link' hj hopen
  exact hp j link' (open_of_close hj hopen).2 hopen

/-- A link after one is added is it, or one from before. -/
theorem old_or_new {link new : CardLink} {i : ℕ} (hi : (links ++ [new])[i]? = some link) :
    links[i]? = some link ∨ i = links.length ∧ link = new := by
  rcases Nat.lt_or_ge i links.length with hlt | hge
  · rw [List.getElem?_append_left hlt] at hi
    exact Or.inl hi
  · rw [List.getElem?_append_right hge] at hi
    have hone := List.getElem?_eq_some_iff.mp hi
    obtain ⟨hlt, heq⟩ := hone
    have hi0 : i - links.length = 0 := by simpa using hlt
    right
    refine ⟨by omega, ?_⟩
    simpa [hi0] using heq.symm

theorem AllOpen.append (hp : AllOpen P links) {link : CardLink} (hnew : P link.place) :
    AllOpen P (links ++ [link]) := by
  intro i link' hi hopen
  rcases old_or_new hi with hold | ⟨-, rfl⟩
  · exact hp i link' hold hopen
  · exact hnew

theorem AllOpen.mono {Q : Place → Prop} (h : ∀ p, P p → Q p) (hp : AllOpen P links) :
    AllOpen Q links :=
  fun i link hi hopen => h _ (hp i link hi hopen)

end Links

section Sends

variable (links : List CardLink) (down : String → Bool) (net : Network)

/-- What a phase has left to send, what it sends now first. -/
def Phase.payloads : Phase → List Payload
  | .waiting => []
  | .holding rest => rest
  | .chosen i crop rest | .sending i crop _ rest => (i, crop) :: rest

def Phase.current : Phase → Option Payload
  | .waiting | .holding _ => none
  | .chosen i crop _ | .sending i crop _ _ => some (i, crop)

theorem Phase.current_mem {phase : Phase} {p : Payload} (h : phase.current = some p) :
    p ∈ phase.payloads := by
  cases phase <;> cases h <;> exact List.mem_cons_self

theorem map_fixed_set {i : ℕ} {link link' : CardLink} (hi : links[i]? = some link)
    (hf : link'.fixed = link.fixed) :
    (links.set i link').map CardLink.fixed = links.map CardLink.fixed := by
  rw [List.map_set, hf]
  apply List.ext_getElem?
  intro j
  rw [List.getElem?_set]
  split
  · next hij =>
    subst hij
    obtain ⟨hlt, rfl⟩ := List.getElem?_eq_some_iff.mp hi
    simp [hlt]
  · rfl

theorem beginFrame_kept {i : ℕ} {link : CardLink} (hi : links[i]? = some link) (crop : Crop)
    (rest : List Payload) :
    (beginFrame links i link crop rest).links.map CardLink.fixed = links.map CardLink.fixed :=
  map_fixed_set links hi rfl

theorem putPalette_kept {i : ℕ} {link : CardLink} (hi : links[i]? = some link)
    (palette : Palette) (crop : Crop) (rest : List Payload) :
    (putPalette links net i link palette crop rest).links.map CardLink.fixed =
        links.map CardLink.fixed ∧
      (putPalette links net i link palette crop rest).phase.payloads ⊆ (i, crop) :: rest ∧
      ∀ j d, (putPalette links net i link palette crop rest).wire = some (j, d) →
        j = i ∧ link.closed = false := by
  rw [putPalette]
  split
  · exact ⟨rfl, List.subset_cons_self _ _, fun _ _ h => by cases h⟩
  · split
    · exact ⟨rfl, List.subset_cons_self _ _, fun _ _ h => by cases h⟩
    · next hgo =>
      refine ⟨map_fixed_set links hi rfl, List.Subset.refl _, ?_⟩
      intro j d h
      cases h
      exact ⟨rfl, by simpa using fun hc => hgo (Or.inr hc)⟩

/-- A step of the thread sends what it had to send, on a link that is open, and leaves every link
what it was made with. -/
theorem senderStep_kept (phase : Phase) :
    (senderStep links down net phase).links.map CardLink.fixed = links.map CardLink.fixed ∧
      (senderStep links down net phase).phase.payloads ⊆ phase.payloads ∧
      ∀ i d, (senderStep links down net phase).wire = some (i, d) →
        ∃ crop link, phase.current = some (i, crop) ∧ links[i]? = some link ∧
          link.closed = false := by
  cases phase with
  | waiting => exact ⟨rfl, List.Subset.refl _, fun _ _ h => by cases h⟩
  | holding payloads =>
    rcases payloads with _ | ⟨⟨i, crop⟩, rest⟩
    · exact ⟨rfl, List.Subset.refl _, fun _ _ h => by cases h⟩
    · rw [senderStep]
      split
      · exact ⟨rfl, List.subset_cons_self _ _, fun _ _ h => by cases h⟩
      · split
        · exact ⟨rfl, List.subset_cons_self _ _, fun _ _ h => by cases h⟩
        · exact ⟨rfl, List.Subset.refl _, fun _ _ h => by cases h⟩
  | chosen i crop rest =>
    cases hi : links[i]? with
    | none =>
      rw [senderStep, hi]
      exact ⟨rfl, List.subset_cons_self _ _, fun _ _ h => by cases h⟩
    | some link =>
      have hbegin := beginFrame_kept links hi crop rest
      have hquiet : ∀ j d, (beginFrame links i link crop rest).wire = some (j, d) →
          ∃ crop' link, (Phase.chosen i crop rest).current = some (j, crop') ∧
            links[j]? = some link ∧ link.closed = false := fun _ _ h => by cases h
      rw [senderStep, hi]
      dsimp only
      split
      · exact ⟨hbegin, List.Subset.refl _, hquiet⟩
      · split
        · exact ⟨hbegin, List.Subset.refl _, hquiet⟩
        · next palette _ _ =>
          obtain ⟨hlinks, hpayloads, hwire⟩ := putPalette_kept links net hi palette crop rest
          refine ⟨hlinks, hpayloads, ?_⟩
          intro j d h
          obtain ⟨rfl, hopen⟩ := hwire j d h
          exact ⟨crop, link, rfl, hi, hopen⟩
  | sending i crop out rest =>
    rcases out with _ | ⟨d, out⟩
    · exact ⟨rfl, List.subset_cons_self _ _, fun _ _ h => by cases h⟩
    · rw [senderStep]
      split
      · exact ⟨rfl, List.subset_cons_self _ _, fun _ _ h => by cases h⟩
      · next hgo =>
        refine ⟨rfl, List.Subset.refl _, ?_⟩
        intro j d' h
        cases h
        cases hi : links[i]? with
        | none => simp [hi] at hgo
        | some link => exact ⟨crop, link, rfl, rfl, by simpa [hi] using fun hc => hgo (Or.inr hc)⟩

end Sends

/-- Each card's entry names a link made for it, and each open link has its entry. -/
structure Tabled (table : List (ℕ × ℕ)) (links : List CardLink) : Prop where
  keys : (table.map Prod.fst).Nodup
  names : ∀ id i, (id, i) ∈ table → ∃ link, links[i]? = some link ∧ link.id = id
  opened : ∀ (i : ℕ) (link : CardLink), links[i]? = some link → link.closed = false →
    (link.id, i) ∈ table

namespace Tabled

variable {table : List (ℕ × ℕ)} {links links' : List CardLink}

theorem same (h : Tabled table links) {id i j : ℕ} (hi : (id, i) ∈ table) (hj : (id, j) ∈ table) :
    i = j := by
  have heq := List.inj_on_of_nodup_map h.keys hi hj rfl
  exact congrArg Prod.snd heq

theorem of_fixed (h : Tabled table links)
    (hf : links'.map CardLink.fixed = links.map CardLink.fixed) : Tabled table links' where
  keys := h.keys
  names id i hi := by
    obtain ⟨link, hlink, hid⟩ := h.names id i hi
    obtain ⟨link', hlink', hplace⟩ := Grows.of_fixed hf i link hlink
    exact ⟨link', hlink', (congrArg Place.id hplace).trans hid⟩
  opened i link' hi' hopen := by
    obtain ⟨link, hi, hfix⟩ := exists_of_fixed hf.symm hi'
    have hid : link.id = link'.id := congrArg (Place.id ∘ Prod.fst) hfix
    have hclosed : link.closed = link'.closed := congrArg Prod.snd hfix
    rw [← hid]
    exact h.opened i link hi (hclosed.trans hopen)

theorem retire (h : Tabled table links) {id i : ℕ} (hi : (id, i) ∈ table) :
    Tabled (table.filter fun e => e.1 ≠ id)
      (links.modify i fun link => { link with closed := true }) where
  keys := h.keys.sublist (List.filter_sublist.map Prod.fst)
  names id' j hj := by
    obtain ⟨link, hlink, hid⟩ := h.names id' j (List.mem_filter.mp hj).1
    obtain ⟨link', hlink', hplace⟩ := Grows.close i j link hlink
    exact ⟨link', hlink', (congrArg Place.id hplace).trans hid⟩
  opened j link hj hopen := by
    obtain ⟨hne, hold⟩ := open_of_close hj hopen
    have hmem := h.opened j link hold hopen
    apply List.mem_filter.mpr
    refine ⟨hmem, ?_⟩
    simp only [ne_eq, decide_eq_true_eq]
    rintro rfl
    exact hne (h.same hmem hi)

theorem append (h : Tabled table links) {link : CardLink} (hnew : ∀ i, (link.id, i) ∉ table) :
    Tabled (table ++ [(link.id, links.length)]) (links ++ [link]) where
  keys := by
    simp only [List.map_append, List.map_cons, List.map_nil]
    apply List.nodup_append.mpr
    refine ⟨h.keys, List.nodup_singleton _, ?_⟩
    rintro id hid _ hlast rfl
    obtain ⟨⟨id', i⟩, hi, rfl⟩ := List.mem_map.mp hid
    have heq : id' = link.id := List.mem_singleton.mp hlast
    rw [heq] at hi
    exact hnew i hi
  names id i hi := by
    rcases List.mem_append.mp hi with hold | hlast
    · obtain ⟨link', hlink', hid⟩ := h.names id i hold
      have hlt : i < links.length := (List.getElem?_eq_some_iff.mp hlink').1
      exact ⟨link', by rwa [List.getElem?_append_left hlt], hid⟩
    · cases List.mem_singleton.mp hlast
      exact ⟨link, by simp, rfl⟩
  opened i link' hi hopen := by
    rcases old_or_new hi with hold | ⟨rfl, rfl⟩
    · exact List.mem_append_left _ (h.opened i link' hold hopen)
    · exact List.mem_append_right _ (List.mem_singleton_self _)

end Tabled

namespace WallPlayer

variable {w : WallPlayer} {c : CardRow}

theorem lookup_mem {id i : ℕ} (h : w.lookup id = some i) : (id, i) ∈ w.table := by
  obtain ⟨⟨id', i'⟩, hfind, rfl⟩ := Option.map_eq_some_iff.mp h
  have hid : id' = id := by simpa using List.find?_some hfind
  rw [← hid]
  exact List.mem_of_find?_eq_some hfind

theorem lookup_none {id : ℕ} (h : w.lookup id = none) (i : ℕ) : (id, i) ∉ w.table := by
  intro hi
  have hfind := List.find?_eq_none.mp (Option.map_eq_none_iff.mp h) _ hi
  simp at hfind

theorem lookup_of_mem (h : Tabled w.table w.links) {id i : ℕ} (hi : (id, i) ∈ w.table) :
    w.lookup id = some i := by
  cases hl : w.lookup id with
  | none => exact absurd hi (lookup_none hl i)
  | some j => rw [h.same hi (lookup_mem hl)]

theorem mismatched_mem {i : ℕ} (h : w.mismatched c = some i) : (c.id, i) ∈ w.table := by
  simp only [mismatched] at h
  split at h
  · next j hj =>
    split at h
    · cases h
    · cases h
      exact lookup_mem hj
  · cases h

theorem lookup_retire (id i id' : ℕ) :
    (w.retire id i).lookup id' = if id' = id then none else w.lookup id' := by
  simp only [lookup, retire, List.find?_filter]
  split
  · next heq =>
    subst heq
    simp only [Option.map_eq_none_iff, List.find?_eq_none]
    intro e _
    simp
  · next hne =>
    congr 1
    apply List.find?_congr
    intro e _
    by_cases he : e.1 = id'
    · simp [he, hne]
    · simp [he]

theorem lookup_openLink (hnone : w.lookup c.id = none) (id : ℕ) :
    (w.openLink c).lookup id = if id = c.id then some w.links.length else w.lookup id := by
  simp only [lookup, openLink, List.find?_append]
  split
  · next heq =>
    subst heq
    rw [lookup, Option.map_eq_none_iff] at hnone
    simp [hnone]
  · next hne =>
    have hno : ¬ c.id = id := fun h => hne h.symm
    simp [hno]

/-- A card's open link that stays is one its row matches. -/
theorem matches_of_kept (h : Tabled w.table w.links) (hm : w.mismatched c = none) {i : ℕ}
    {link : CardLink} (hi : w.links[i]? = some link) (hopen : link.closed = false)
    (hid : link.id = c.id) : link.matches c = true := by
  have hmem := h.opened i link hi hopen
  rw [hid] at hmem
  simp only [mismatched, lookup_of_mem h hmem, hi, Option.any_some] at hm
  by_contra hne
  simp [hne] at hm

end WallPlayer

end Ledwall.Server
