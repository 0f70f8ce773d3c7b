import Ledwall.Library.Runs
import Ledwall.Receiver.PendingPalette
import Ledwall.Receiver.ShownColours
import Ledwall.Server.Sender

/-! The palette a card holds, against the one its sender believes it holds. -/

namespace Ledwall.Server

open Ledwall.Library.Runs Ledwall.Receiver Ledwall.Receiver.BitmapReceiver Ledwall.Wire

/-- A card since its last reboot: the palettes it was sent, and whether every datagram arrived. -/
structure CardSide where
  arrived : List PaletteWrite := []
  complete : Bool := true

/-- The palette of a card that came up with `boot`. -/
def CardSide.held (c : CardSide) (boot : ℕ → Word) : ℕ → Word := cumulative boot c.arrived

def CardSide.take (c : CardSide) (net : Network) (d : List Byte) : CardSide :=
  match net with
  | .delivers => { c with arrived := c.arrived ++ (paletteOf d).toList }
  | _ => { c with complete := false }

/-- The firmware of a one-bank card holds, in its palette RAM or waiting for the next swap, what was
sent, as long as each palette covers one that still waits, as a whole one does. -/
theorem CardSide.held_by_firmware {b : Bench} (hbanks : b.hub.paletteBanks < 2)
    (hwaiting : b.rx.waiting = none) (harrived : b.arrived = []) {ps : List Poll}
    (hc : Always Bench.Step Bench.Supersedes b ps) :
    Always Bench.Step (fun b' _ => (b'.rx.colours b'.hub).due =
      CardSide.held ⟨b'.arrived, true⟩ b.hub.paletteRam) b ps := by
  apply Always.of_safe
    (I := fun b' => Due (cumulative b.hub.paletteRam b'.arrived) (b'.rx.setting b'.hub)) _ _ _ hc
  · intro b₁ p b₂ h hc hs
    exact Bench.due_step h hc hs
  · intro b₁ p h _
    exact h.due
  · refine ⟨hbanks, ?_⟩
    have hn : (b.rx.setting b.hub).colours.waiting = none := hwaiting
    rw [harrived, Colours.due, hn]
    rfl

/-- The sender, the hosts held back, and the cards. `owner` is the link that last sent a card a
palette since the card came up. -/
structure Transmission where
  links : List CardLink := []
  phase : Phase := .waiting
  down : String → Bool := fun _ => false
  cards : String → CardSide := fun _ => {}
  owner : String → Option ℕ := fun _ => none

inductive Happening
  | send (net : Network)
  | take (payloads : List Payload)
  | hold (host : String) (on : Bool)
  | reboot (host : String)
  | openLink (link : CardLink)
  | closeLink (i : ℕ)

namespace Transmission

variable (w : Transmission)

def host (i : ℕ) : String := (w.links[i]?.map CardLink.host).getD ""

/-- The card's side of a datagram that went out. -/
def receive (net : Network) (wire : Option (ℕ × List Byte)) (host : String) : CardSide :=
  match wire with
  | none => w.cards host
  | some (i, d) => if w.host i = host then (w.cards host).take net d else w.cards host

/-- A palette that goes out is its link's. -/
def ownerAfter (wire : Option (ℕ × List Byte)) (host : String) : Option ℕ :=
  match wire with
  | none => w.owner host
  | some (i, d) => if w.host i = host ∧ (paletteOf d).isSome then some i else w.owner host

def step : Happening → Transmission
  | .send net =>
    let s := senderStep w.links w.down net w.phase
    { w with
      links := s.links
      phase := s.phase
      cards := w.receive net s.wire
      owner := w.ownerAfter s.wire }
  | .take payloads =>
    match w.phase with
    | .waiting => { w with phase := .holding payloads }
    | _ => w
  | .hold host on => { w with down := fun h => if h = host then on else w.down h }
  | .reboot host =>
    { w with
      cards := fun h => if h = host then {} else w.cards h
      owner := fun h => if h = host then none else w.owner h }
  | .openLink link =>
    { w with links := w.links ++ [{ link with lastPalette := none, closed := false }] }
  | .closeLink i =>
    { w with links := w.links.modify i fun link => { link with closed := true } }

/-- Each time a datagram of an indexed frame goes out to a card that missed none, the card holds
the frame's palette. -/
def Matches (boot : ℕ → Word) : Happening → Prop
  | .send net => ∀ i crop out rest palette d, w.phase = .sending i crop out rest →
      crop.palette = some palette → (senderStep w.links w.down net w.phase).wire = some (i, d) →
      (w.cards (w.host i)).complete = true →
      ∀ e < 256, (w.cards (w.host i)).held boot e = paletteTriple palette.bytes e
  | _ => True

/-- The card has not come up anew, nor been sent a palette on another link, since the frame's link
last sent it one. -/
def Undisturbed : Happening → Prop
  | .send _ => ∀ i crop out rest palette, w.phase = .sending i crop out rest →
      crop.palette = some palette → w.owner (w.host i) = some i
  | _ => True

instance (w : Transmission) (e : Happening) : Decidable (w.Undisturbed e) :=
  match e with
  | .send _ =>
    match h : w.phase with
    | .sending i crop out rest =>
      decidable_of_iff (crop.palette.isSome → w.owner (w.host i) = some i) (by
        simp only [Undisturbed, h, Option.isSome_iff_exists]
        constructor
        · rintro ho i' crop' out' rest' palette hp hpalette
          cases hp
          exact ho ⟨palette, hpalette⟩
        · rintro ho ⟨palette, hpalette⟩
          exact ho i crop out rest palette rfl hpalette)
    | .waiting | .holding _ | .chosen _ _ _ =>
      .isTrue (by
        intro i crop out rest palette hp
        rw [h] at hp
        cases hp)
  | .take _ | .hold _ _ | .reboot _ | .openLink _ | .closeLink _ => .isTrue trivial

/-- What every step keeps. -/
structure Kept (boot : ℕ → Word) : Prop where
  owners : ∀ host i, w.owner host = some i → ∃ link palette, w.links[i]? = some link ∧
    link.host = host ∧ link.lastPalette = some palette ∧
    ((w.cards host).complete = true →
      ∀ e < 256, (w.cards host).held boot e = paletteTriple palette.bytes e)
  frames : ∀ i crop out rest, w.phase = .sending i crop out rest →
    (∀ d ∈ out, paletteOf d = none) ∧
      ∀ palette, crop.palette = some palette →
        ∃ link, w.links[i]? = some link ∧ link.lastPalette = some palette

end Transmission

section Links

variable {links links' : List CardLink}

/-- Every link is still there, with its host and the palette it sent last. -/
def Keeps (links links' : List CardLink) : Prop := ∀ (i : ℕ) (link : CardLink),
  links[i]? = some link → ∃ link', links'[i]? = some link' ∧ link'.host = link.host ∧ link'.lastPalette = link.lastPalette

theorem Keeps.refl (links : List CardLink) : Keeps links links :=
  fun _ link h => ⟨link, h, rfl, rfl⟩

theorem Keeps.set {i : ℕ} {link : CardLink} (h : links[i]? = some link) (stream : CardStream) :
    Keeps links (links.set i { link with stream := stream }) := by
  intro j link' hj
  rcases eq_or_ne j i with rfl | hne
  · rw [h] at hj
    cases hj
    have hlt : j < links.length := (List.getElem?_eq_some_iff.mp h).1
    exact ⟨_, List.getElem?_set_self hlt, rfl, rfl⟩
  · exact ⟨link', by rwa [List.getElem?_set_ne hne.symm], rfl, rfl⟩

theorem Keeps.append (link : CardLink) : Keeps links (links ++ [link]) := by
  intro i link' h
  have hlt : i < links.length := (List.getElem?_eq_some_iff.mp h).1
  exact ⟨link', by rwa [List.getElem?_append_left hlt], rfl, rfl⟩

theorem Keeps.close (i : ℕ) :
    Keeps links (links.modify i fun link => { link with closed := true }) := by
  intro j link h
  rw [List.getElem?_modify, h]
  split
  · exact ⟨_, rfl, rfl, rfl⟩
  · exact ⟨link, rfl, rfl, rfl⟩

end Links

namespace Transmission

variable {w : Transmission} {boot : ℕ → Word}

/-- What is kept when nothing goes out. -/
theorem Kept.quiet (h : w.Kept boot) {w' : Transmission} (hlinks : Keeps w.links w'.links)
    (hcards : ∀ host, w'.owner host ≠ none →
      w'.cards host = w.cards host ∧ w'.owner host = w.owner host)
    (hframes : ∀ i crop out rest, w'.phase = .sending i crop out rest →
      (∀ d ∈ out, paletteOf d = none) ∧
        ∀ palette, crop.palette = some palette →
          ∃ link, w'.links[i]? = some link ∧ link.lastPalette = some palette) :
    w'.Kept boot where
  owners host i hi := by
    obtain ⟨hcard, howner⟩ := hcards host (by rw [hi]; exact Option.some_ne_none i)
    rw [howner] at hi
    obtain ⟨link, palette, hlink, hhost, hlast, hheld⟩ := h.owners host i hi
    obtain ⟨link', hlink', hhost', hlast'⟩ := hlinks i link hlink
    rw [hcard]
    exact ⟨link', palette, hlink', hhost'.trans hhost, hlast'.trans hlast, hheld⟩
  frames := hframes

/-- A phase that is not changed keeps its frame's palette. -/
theorem Kept.phase (h : w.Kept boot) {w' : Transmission} (hlinks : Keeps w.links w'.links)
    (hphase : w'.phase = w.phase) : ∀ i crop out rest, w'.phase = .sending i crop out rest →
      (∀ d ∈ out, paletteOf d = none) ∧
        ∀ palette, crop.palette = some palette →
          ∃ link, w'.links[i]? = some link ∧ link.lastPalette = some palette := by
  intro i crop out rest hp
  rw [hphase] at hp
  obtain ⟨hout, hlast⟩ := h.frames i crop out rest hp
  refine ⟨hout, ?_⟩
  intro palette hpalette
  obtain ⟨link, hlink, hl⟩ := hlast palette hpalette
  obtain ⟨link', hlink', -, hl'⟩ := hlinks i link hlink
  exact ⟨link', hlink', hl'.trans hl⟩

theorem matches_of_kept (h : w.Kept boot) {e : Happening} (hu : w.Undisturbed e) :
    w.Matches boot e := by
  cases e with
  | send net =>
    intro i crop out rest palette d hphase hpalette _ hcomplete
    obtain ⟨link, palette', hlink, -, hlast, hheld⟩ :=
      h.owners _ i (hu i crop out rest palette hphase hpalette)
    obtain ⟨link', hlink', hlast'⟩ := (h.frames i crop out rest hphase).2 palette hpalette
    rw [hlink] at hlink'
    cases hlink'
    rw [hlast] at hlast'
    cases hlast'
    exact hheld hcomplete
  | take payloads => trivial
  | hold host on => trivial
  | reboot host => trivial
  | openLink link => trivial
  | closeLink i => trivial

/-- A step of the thread that puts nothing on the wire. -/
theorem Kept.silent (h : w.Kept boot) {net : Network} {links : List CardLink} {phase : Phase}
    (hs : senderStep w.links w.down net w.phase = ⟨links, phase, none⟩)
    (hlinks : Keeps w.links links) (hframes : ∀ i crop out rest, phase = .sending i crop out rest →
      (∀ d ∈ out, paletteOf d = none) ∧ ∀ palette, crop.palette = some palette →
        ∃ link, links[i]? = some link ∧ link.lastPalette = some palette) :
    (w.step (.send net)).Kept boot := by
  rw [step, hs]
  exact h.quiet hlinks (fun _ _ => ⟨rfl, rfl⟩) hframes

theorem no_frame {links : List CardLink} {phase : Phase}
    (hp : ∀ i crop out rest, phase ≠ .sending i crop out rest) :
    ∀ i crop out rest, phase = .sending i crop out rest →
      (∀ d ∈ out, paletteOf d = none) ∧ ∀ palette, crop.palette = some palette →
        ∃ link, links[i]? = some link ∧ link.lastPalette = some palette :=
  fun i crop out rest h => absurd h (hp i crop out rest)

theorem kept_beginFrame (h : w.Kept boot) {net : Network} {i : ℕ} {link : CardLink} {crop : Crop}
    {rest : List Payload} (hlink : w.links[i]? = some link)
    (hlast : ∀ palette, crop.palette = some palette → link.lastPalette = some palette)
    (hs : senderStep w.links w.down net w.phase = beginFrame w.links i link crop rest) :
    (w.step (.send net)).Kept boot := by
  apply h.silent hs (Keeps.set hlink _)
  intro j crop' out rest' hp
  cases hp
  refine ⟨fun d hd => paletteOf_send hd, ?_⟩
  intro palette hpalette
  have hlt : i < w.links.length := (List.getElem?_eq_some_iff.mp hlink).1
  exact ⟨_, List.getElem?_set_self hlt, hlast palette hpalette⟩

/-- A palette on the wire is what its card holds from then on. -/
theorem kept_putPalette (h : w.Kept boot) {net : Network} {i : ℕ} {link : CardLink} {crop : Crop}
    {palette : Palette} {rest : List Payload} {d : List Byte} {ds : List (List Byte)}
    (hlink : w.links[i]? = some link) (hnet : net ≠ .raises)
    (hd : (link.stream.sendPalette palette.bytes 0).datagrams = d :: ds)
    (hs : senderStep w.links w.down net w.phase =
      ⟨w.links.set i { link with
          stream := (link.stream.sendPalette palette.bytes 0).stream, lastPalette := some palette },
        .chosen i crop rest, some (i, d)⟩) :
    (w.step (.send net)).Kept boot := by
  have hlt : i < w.links.length := (List.getElem?_eq_some_iff.mp hlink).1
  have hwrite : paletteOf d = some (wholePalette palette.bytes) :=
    paletteOf_sendPalette palette.whole (by rw [hd]; exact List.mem_cons_self)
  have hhost : w.host i = link.host := by
    rw [host, hlink]
    rfl
  rw [step, hs]
  refine ⟨?_, no_frame fun _ _ _ _ hp => by cases hp⟩
  intro host' j hj
  simp only [ownerAfter, hhost, hwrite, Option.isSome_some, and_true] at hj
  split at hj
  · next hh =>
    cases hj
    subst hh
    refine ⟨_, palette, List.getElem?_set_self hlt, rfl, rfl, ?_⟩
    intro hcomplete e he
    simp only [receive, hhost, if_pos] at hcomplete ⊢
    cases net with
    | raises => exact absurd rfl hnet
    | loses => cases hcomplete
    | delivers =>
      simp only [CardSide.take, CardSide.held, hwrite, Option.toList_some, cumulative,
        List.foldl_append, List.foldl_cons, List.foldl_nil]
      exact overlay_wholePalette palette.bytes _ he
  · next hne =>
    obtain ⟨link', palette', hlink', hhost', hlast, hheld⟩ := h.owners host' j hj
    have hij : i ≠ j := by
      rintro rfl
      rw [hlink] at hlink'
      cases hlink'
      exact hne hhost'
    refine ⟨link', palette', ?_, hhost', hlast, ?_⟩
    · rwa [List.getElem?_set_ne hij]
    · simp only [receive, hhost, if_neg hne]
      exact hheld

/-- A datagram of a frame changes no palette. -/
theorem kept_sendDatagram (h : w.Kept boot) {net : Network} {i : ℕ} {crop : Crop} {d : List Byte}
    {out : List (List Byte)} {rest : List Payload}
    (hphase : w.phase = .sending i crop (d :: out) rest)
    (hs : senderStep w.links w.down net w.phase =
      ⟨w.links, .sending i crop out rest, some (i, d)⟩) :
    (w.step (.send net)).Kept boot := by
  obtain ⟨hout, hlast⟩ := h.frames i crop (d :: out) rest hphase
  have hnone : paletteOf d = none := hout d List.mem_cons_self
  rw [step, hs]
  constructor
  · intro host' j hj
    have hj : w.owner host' = some j := by
      simpa only [ownerAfter, hnone, Option.isSome_none, Bool.false_eq_true, and_false,
        if_false] using hj
    obtain ⟨link, palette, hlink, hhost, hl, hheld⟩ := h.owners host' j hj
    refine ⟨link, palette, hlink, hhost, hl, ?_⟩
    intro hcomplete
    simp only [receive] at hcomplete ⊢
    split
    · next hh =>
      rw [if_pos hh] at hcomplete
      cases net with
      | raises => cases hcomplete
      | loses => cases hcomplete
      | delivers =>
        simp only [CardSide.take, CardSide.held, hnone, Option.toList_none, List.append_nil]
        exact hheld hcomplete
    · next hh =>
      rw [if_neg hh] at hcomplete
      exact hheld hcomplete
  · intro j crop' out' rest' hp
    cases hp
    exact ⟨fun d' hd' => hout d' (List.mem_cons_of_mem d hd'), hlast⟩

theorem kept_send (h : w.Kept boot) (net : Network) : (w.step (.send net)).Kept boot := by
  cases hphase : w.phase with
  | waiting =>
    apply h.silent (by rw [hphase]; rfl) (Keeps.refl _)
    exact no_frame fun _ _ _ _ hp => by cases hp
  | holding payloads =>
    rcases payloads with _ | ⟨⟨i, crop⟩, rest⟩
    · apply h.silent (by rw [hphase]; rfl) (Keeps.refl _)
      exact no_frame fun _ _ _ _ hp => by cases hp
    · have hs : senderStep w.links w.down net w.phase =
          ⟨w.links, (senderStep w.links w.down net w.phase).phase, none⟩ ∧
          ∀ i crop out rest, (senderStep w.links w.down net w.phase).phase ≠
            .sending i crop out rest := by
        rw [hphase, senderStep]
        split
        · exact ⟨rfl, fun _ _ _ _ hp => by cases hp⟩
        · split
          · exact ⟨rfl, fun _ _ _ _ hp => by cases hp⟩
          · exact ⟨rfl, fun _ _ _ _ hp => by cases hp⟩
      exact h.silent hs.1 (Keeps.refl _) (no_frame hs.2)
  | chosen i crop rest =>
    cases hlink : w.links[i]? with
    | none =>
      apply h.silent (by rw [hphase, senderStep, hlink]) (Keeps.refl _)
      exact no_frame fun _ _ _ _ hp => by cases hp
    | some link =>
      cases hpalette : crop.palette with
      | none =>
        apply kept_beginFrame h hlink _ (by rw [hphase, senderStep, hlink, hpalette])
        intro palette hp
        rw [hpalette] at hp
        cases hp
      | some palette =>
        by_cases hlast : link.lastPalette = some palette
        · apply kept_beginFrame h hlink _ (by
            rw [hphase, senderStep, hlink, hpalette]
            exact if_pos hlast)
          intro palette' hp
          rw [hpalette] at hp
          cases hp
          exact hlast
        · have hput : senderStep w.links w.down net w.phase =
              putPalette w.links net i link palette crop rest := by
            rw [hphase, senderStep, hlink, hpalette]
            exact if_neg hlast
          cases hd : (link.stream.sendPalette palette.bytes 0).datagrams with
          | nil =>
            apply h.silent (by rw [hput, putPalette, hd]) (Keeps.refl _)
            exact no_frame fun _ _ _ _ hp => by cases hp
          | cons d ds =>
            by_cases hraise : net = .raises ∨ link.closed = true
            · apply h.silent (by
                rw [hput, putPalette, hd]
                exact if_pos hraise) (Keeps.refl _)
              exact no_frame fun _ _ _ _ hp => by cases hp
            · apply kept_putPalette h hlink (fun hr => hraise (Or.inl hr)) hd
              rw [hput, putPalette, hd]
              exact if_neg hraise
  | sending i crop out rest =>
    rcases out with _ | ⟨d, out⟩
    · apply h.silent (by rw [hphase]; rfl) (Keeps.refl _)
      exact no_frame fun _ _ _ _ hp => by cases hp
    · by_cases hraise : net = .raises ∨ (w.links[i]?.all CardLink.closed) = true
      · apply h.silent (by
          rw [hphase]
          exact if_pos hraise) (Keeps.refl _)
        exact no_frame fun _ _ _ _ hp => by cases hp
      · apply kept_sendDatagram h hphase
        rw [hphase]
        exact if_neg hraise

theorem kept_step (h : w.Kept boot) (e : Happening) : (w.step e).Kept boot := by
  cases e with
  | send net => exact kept_send h net
  | take payloads =>
    rw [step]
    split
    · have hframes := @no_frame w.links (.holding payloads) fun _ _ _ _ hp => by cases hp
      exact @Kept.quiet w boot h { w with phase := .holding payloads } (Keeps.refl _)
        (fun _ _ => ⟨rfl, rfl⟩) hframes
    · exact h
  | hold host on =>
    exact h.quiet (Keeps.refl _) (fun _ _ => ⟨rfl, rfl⟩) (h.phase (Keeps.refl _) rfl)
  | reboot host =>
    refine h.quiet (Keeps.refl _) ?_ (h.phase (Keeps.refl _) rfl)
    intro host' hne
    change (if host' = host then none else w.owner host') ≠ none at hne
    change (if host' = host then {} else w.cards host') = _ ∧
      (if host' = host then none else w.owner host') = _
    split at hne
    · exact absurd rfl hne
    · next hh => exact ⟨if_neg hh, if_neg hh⟩
  | openLink link =>
    exact h.quiet (Keeps.append _) (fun _ _ => ⟨rfl, rfl⟩) (h.phase (Keeps.append _) rfl)
  | closeLink i =>
    exact h.quiet (Keeps.close i) (fun _ _ => ⟨rfl, rfl⟩) (h.phase (Keeps.close i) rfl)

/-- In every run in which each indexed frame goes out undisturbed, each matches the palette its card
holds. -/
theorem palettes_match (boot : ℕ → Word) (events : List Happening)
    (hu : Always (fun w e w' => w' = step w e) Undisturbed {} events) :
    Always (fun w e w' => w' = step w e) (fun w => w.Matches boot) {} events := by
  refine Always.of_safe (I := fun w => w.Kept boot) (C := Undisturbed) ?_ ?_ ?_ hu
  · rintro w e _ hw _ rfl
    exact kept_step hw e
  · intro w e hw he
    exact matches_of_kept hw he
  · constructor
    · intro host i hi
      cases hi
    · intro i crop out rest hp
      cases hp

section Reboot

def white : Palette := ⟨List.replicate 768 0xFF, List.length_replicate⟩

/-- A link to a card of one pixel. -/
def pixelLink : CardLink where
  id := 1
  host := "card"
  port := 7000
  box := ⟨0, 0, 1, 1⟩
  w := 1
  h := 1
  packetDelay := 0
  stream := ⟨0, 0, 0, 1⟩

/-- One white pixel, up to where its datagram goes out. -/
def whitePixel : List Happening :=
  [.take [(0, .indexed [0] white)], .send .delivers, .send .delivers, .send .delivers]

/-- The card reboots between two frames with the same palette. -/
def rebootBetween : List Happening :=
  .openLink pixelLink :: whitePixel ++
    [.send .delivers, .send .delivers, .send .delivers, .reboot "card",
      .take [(0, .indexed [0] white)], .send .delivers, .send .delivers]

/-- The datagram of the white pixel, as the `n`th frame of its link. -/
def pixelDatagram (n : ℕ) : List (List Byte) :=
  (CardStream.send ⟨n, 0, 0, 1⟩ (.indexed [0]) 1 1).datagrams

theorem rebootBetween_phase : (rebootBetween.foldl step {}).phase =
    .sending 0 (.indexed [0] white) (pixelDatagram 1) [] := by
  decide +kernel

/-- After a reboot the host's idea of the card's palette is stale, and the frame goes out to a black
one. -/
theorem rebootBetween_mismatches : ¬ ∀ (boot : ℕ → Word) (events : List Happening),
    Always (fun w e w' => w' = step w e) (fun w => w.Matches boot) {} events := by
  intro hclaim
  have hat := Always.at_prefix (hclaim (fun _ => 0) (rebootBetween ++ [.send .delivers]))
    (run_foldl step {} rebootBetween)
  have hwire : (senderStep (rebootBetween.foldl step {}).links (rebootBetween.foldl step {}).down
      .delivers (rebootBetween.foldl step {}).phase).wire =
        some (0, (pixelDatagram 1).headD []) := by
    decide +kernel
  have hcomplete : ((rebootBetween.foldl step {}).cards
      ((rebootBetween.foldl step {}).host 0)).complete = true := by
    decide +kernel
  have hheld := hat 0 _ _ _ white _ rebootBetween_phase rfl hwire hcomplete 0 (by decide)
  revert hheld
  decide +kernel

/-- The first frame goes out undisturbed. -/
theorem whitePixel_matches : Always (fun w e w' => w' = step w e) (fun w => w.Matches fun _ => 0) {}
    (.openLink pixelLink :: whitePixel ++ [.send .delivers, .send .delivers]) := by
  apply palettes_match
  decide +kernel

end Reboot

end Transmission

end Ledwall.Server
