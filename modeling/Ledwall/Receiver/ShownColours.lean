import Ledwall.Receiver.PaletteBanks
import Ledwall.Receiver.RoundTrip

/-! The colours on the glass: what the scan-out fetches for a pixel, and that one flip after a whole
palette it looks them up in that palette. -/

namespace Ledwall.Receiver

open BitmapReceiver Colours Ledwall.Library.Outcomes Ledwall.Library.Runs Ledwall.Wire

namespace Hub75

/-- The palette word of a framebuffer word's low byte, from the bank on the glass, cut to 24 bits. -/
def lookup (h : Hub75) (word : Word) : BitVec 24 :=
  (h.paletteRam (h.liveBank * 256 + (word.setWidth 8).toNat)).setWidth 24

/-- What the scan-out fetches for pixel `p`, before the gamma correction. -/
def fetched (h : Hub75) (p : ℕ) : BitVec 24 :=
  if h.ctrlIndexed then h.lookup (h.displayBuffer p) else (h.displayBuffer p).setWidth 24

end Hub75

section Datagram

variable {s : CardStream} {palette : List Byte} {d : Datagram}

/-- The write a whole palette makes. -/
def wholePalette (palette : List Byte) : PaletteWrite :=
  ⟨0, (List.range 256).map (paletteTriple palette)⟩

lemma wholePalette_whole (palette : List Byte) : (wholePalette palette).Whole := by
  refine ⟨rfl, ?_⟩
  simp only [wholePalette, List.length_map, List.length_range, le_refl]

lemma wholePalette_taken_ne (palette : List Byte) : (wholePalette palette).taken ≠ [] := by
  intro hn
  have hl := (wholePalette_whole palette).taken_length
  rw [hn] at hl
  cases hl

lemma overlay_wholePalette (palette : List Byte) (shadow : ℕ → Word) {e : ℕ} (he : e < 256) :
    (wholePalette palette).overlay shadow e = paletteTriple palette e := by
  have hw := wholePalette_whole palette
  have htaken : (wholePalette palette).taken = (List.range 256).map (paletteTriple palette) := by
    apply List.take_of_length_le
    simp only [wholePalette, List.length_map, List.length_range]
    decide
  have hin : (wholePalette palette).start ≤ e ∧
      e < (wholePalette palette).start + (wholePalette palette).taken.length := by
    rw [hw.taken_length, hw.1]
    omega
  rw [PaletteWrite.overlay, if_pos hin, htaken, hw.1, Nat.sub_zero, List.getD_eq_getElem?_getD,
    List.getElem?_map, List.getElem?_range he]
  rfl

lemma paletteOf_sendPalette (hp : palette.length = 768)
    (hd : d ∈ (s.sendPalette palette 0).datagrams) : paletteOf d = some (wholePalette palette) := by
  have hmod : ¬ palette.length % 3 ≠ 0 := by
    rw [hp]
    decide
  have hfits : ¬ ((0 : ℤ) < 0 ∨ (PALETTE_ENTRIES : ℤ) < 0 + (palette.length / 3 : ℕ)) := by
    rw [hp]
    decide
  simp only [CardStream.sendPalette, if_neg hmod, if_neg hfits] at hd
  cases hh : packHeader .palette s.frameId (0 : ℤ).toNat 1 (palette.length / 3) 1 with
  | error e =>
    rw [hh] at hd
    cases hd
  | ok header =>
    rw [hh] at hd
    obtain rfl := List.mem_singleton.mp hd
    have hheader : header = [letterB, letterP, BitVec.ofNat 8 s.frameId,
        BitVec.ofNat 8 (s.frameId / 256), 0, 1, 0, 1, 1, 0] := by
      rw [hp] at hh
      simp only [packHeader, packH] at hh
      split at hh
      · exact (Except.ok.inj hh).symm
      · cases hh
    subst hheader
    have hlen : HEADER_SIZE ≤ ([letterB, letterP, BitVec.ofNat 8 s.frameId,
        BitVec.ofNat 8 (s.frameId / 256), 0, 1, 0, 1, 1, 0] ++ palette).length := by
      rw [List.length_append]
      exact Nat.le_add_right _ _
    rw [paletteOf, if_pos ⟨hlen, rfl, rfl⟩]
    have hbody : List.drop HEADER_SIZE ([letterB, letterP, BitVec.ofNat 8 s.frameId,
        BitVec.ofNat 8 (s.frameId / 256), 0, 1, 0, 1, 1, 0] ++ palette) = palette := rfl
    simp only [hbody, hp]
    rfl

end Datagram

namespace Colours

variable {c d : Colours} {palette : List Byte} {k : ℕ}

/-- A whole palette on its way to the glass, `k` flips having been made before it came. -/
inductive Phase (palette : List Byte) (k : ℕ) (c : Colours) : Prop
  | waits (hf : c.flips = k) (hw : c.waiting = some (wholePalette palette))
  | held (hf : c.flips = k) (hw : c.waiting = none)
    (hs : ∀ e < 256, c.shadow e = paletteTriple palette e)
    (hr : ∀ e < 256, c.ram ((1 - c.liveBank) * 256 + e) = paletteTriple palette e)
  | shown (hf : c.flips = k + 1) (hw : c.waiting = none)
    (hr : ∀ e < 256, c.ram (c.liveBank * 256 + e) = paletteTriple palette e)
  | past (hf : k + 1 < c.flips)

lemma Phase.of_held (h : c.Wired) (n : ℕ) (hf : c.flips = k) (hw : c.waiting = none)
    (hs : ∀ e < 256, c.shadow e = paletteTriple palette e)
    (hr : ∀ e < 256, c.ram ((1 - c.liveBank) * 256 + e) = paletteTriple palette e) :
    Phase palette k (Colours.flip^[n] c) := by
  match n with
  | 0 => exact .held hf hw hs hr
  | 1 =>
    apply Phase.shown
    · rw [flips_flips, hf]
    · rw [flip_waiting, hw]
    · intro e he
      rw [Function.iterate_one, h.flip_liveBank]
      exact hr e he
  | n + 2 =>
    apply Phase.past
    rw [flips_flips, hf]
    omega

lemma put_whole (palette : List Byte) (hb : c.backBank = 1 - c.liveBank) :
    (∀ e < 256, (c.put (wholePalette palette)).shadow e = paletteTriple palette e) ∧
      ∀ e < 256, (c.put (wholePalette palette)).ram
        ((1 - (c.put (wholePalette palette)).liveBank) * 256 + e) = paletteTriple palette e := by
  have hlive : (c.put (wholePalette palette)).liveBank = c.liveBank := put_liveBank _
  rw [hlive, ← hb, Colours.put, if_neg (wholePalette_taken_ne palette),
    (wholePalette_whole palette).taken_length]
  have hback : (c.record (wholePalette palette)).backBank = c.backBank := rfl
  constructor
  · intro e he
    exact overlay_wholePalette palette c.shadow he
  · intro e he
    have hstart : (wholePalette palette).start = 0 := rfl
    have hin : c.backBank * 256 + 0 ≤ c.backBank * 256 + e ∧
        c.backBank * 256 + e < c.backBank * 256 + 0 + 256 := by omega
    simp only [Colours.settle, Colours.copyOut, hback, hstart, if_pos hin, Nat.add_sub_cancel_left]
    exact overlay_wholePalette palette c.shadow he

lemma Phase.moves (h : c.Wired) (hb : c.backBank = 1 - c.liveBank) (hp : Phase palette k c)
    (hm : Moves c d) : Phase palette k d := by
  cases hm with
  | flips n hn =>
    cases hp with
    | waits hf hw =>
      have h₀ : n = 0 := by
        apply hn.resolve_right
        rw [hw]
        exact Option.some_ne_none _
      subst h₀
      exact .waits hf hw
    | held hf hw hs hr => exact .of_held h n hf hw hs hr
    | shown hf hw hr =>
      cases n with
      | zero => exact .shown hf hw hr
      | succ n =>
        apply Phase.past
        rw [flips_flips, hf]
        omega
    | past hf =>
      apply Phase.past
      rw [flips_flips]
      omega
  | put n w hw =>
    cases hp with
    | waits hf hw' =>
      obtain rfl := Option.some.inj (hw'.symm.trans hw)
      obtain ⟨hs, hr⟩ := put_whole palette hb
      exact .of_held (h.put _) n ((put_flips _).trans hf) (put_waiting _) hs hr
    | held hf hw' hs hr =>
      rw [hw'] at hw
      cases hw
    | shown hf hw' hr =>
      rw [hw'] at hw
      cases hw
    | past hf =>
      apply Phase.past
      rw [flips_flips, put_flips]
      omega

lemma Phase.face (hp : Phase palette k c) : Phase palette k c.face := by
  cases hp with
  | waits hf hw => exact .waits hf hw
  | held hf hw hs hr => exact .held hf hw hs hr
  | shown hf hw hr => exact .shown hf hw hr
  | past hf => exact .past hf

lemma Phase.synced (h : c.Wired) (hp : Phase palette k c) (hs : Synced c d) :
    Phase palette k d := by
  cases hs with
  | refl => exact hp
  | face => exact hp.face
  | copied =>
    have hlive := c.face.liveBank_lt
    have hback := h.backBank
    have hl : c.face.liveBank = c.liveBank := rfl
    cases hp with
    | waits hf hw => exact .waits hf hw
    | held hf hw hs hr =>
      refine .held hf hw hs fun e he => ?_
      have hin : c.face.backBank * 256 + 0 ≤ (1 - c.liveBank) * 256 + e ∧
          (1 - c.liveBank) * 256 + e < c.face.backBank * 256 + 0 + 256 := by omega
      have he' : (1 - c.liveBank) * 256 + e - c.face.backBank * 256 = e := by omega
      exact (if_pos hin).trans ((congrArg c.shadow he').trans (hs e he))
    | shown hf hw hr =>
      refine .shown hf hw fun e he => ?_
      have hout : ¬ (c.face.backBank * 256 + 0 ≤ c.liveBank * 256 + e ∧
          c.liveBank * 256 + e < c.face.backBank * 256 + 0 + 256) := by omega
      exact (if_neg hout).trans (hr e he)
    | past hf => exact .past hf

lemma Phase.on_glass (hp : Phase palette k c) (hf : c.flips = k + 1) {e : ℕ} (he : e < 256) :
    c.ram (c.liveBank * 256 + e) = paletteTriple palette e := by
  cases hp with
  | waits hf' _ => omega
  | held hf' _ _ _ => omega
  | shown _ _ hr => exact hr e he
  | past hf' => omega

end Colours

namespace Sign

variable {s s' : Sign} {e : Turn} {es : List Turn} {palette : List Byte} {k : ℕ}

lemma Step.phase (hn : s.Step e s') (hw : (s.rx.colours s.hub).Wired)
    (hp : Phase palette k (s.found e)) :
    (s'.rx.colours s'.hub).Wired ∧ Phase palette k (s'.rx.colours s'.hub) := by
  have hfound : (s.found e).Wired := ⟨hw.banks, hw.swap, hw.placed⟩
  cases ho : e.run s.rx s.hub with
  | error p =>
    simp only [Step, next, ho] at hn
    cases hn
  | ok o =>
    have hs : s.after e o = s' := by
      simp only [Step, next, ho] at hn
      exact Except.ok.inj hn
    subst hs
    have hsteady : (s.found e).Steady := ⟨hw.banks, hw.swap, fun _ => rfl⟩
    obtain ⟨c, hmoves, hsync⟩ := run_moves hsteady o ho
    have hback : (s.found e).backBank = 1 - (s.found e).liveBank := hw.backBank
    have hc := hfound.moves hmoves
    exact ⟨hc.synced hsync, (hp.moves hfound hback hmoves).synced hc hsync⟩

lemma found_of_none (hn : paletteOf e.entry.payload = none) :
    s.found e = (s.rx.colours s.hub).face := by
  rw [found, waiting, waitingAfter_of_none hn]
  rfl

lemma phase_of_run (h : Run Step s es s') (hn : ∀ e ∈ es, paletteOf e.entry.payload = none)
    (hw : (s.rx.colours s.hub).Wired) (hp : Phase palette k (s.rx.colours s.hub)) :
    Phase palette k (s'.rx.colours s'.hub) := by
  induction h with
  | nil s => exact hp
  | @cons s e t es u he _ ih =>
    have hf := found_of_none (s := s) (hn e List.mem_cons_self)
    obtain ⟨hw', hp'⟩ := he.phase hw (hf ▸ hp.face)
    exact ih (fun e h => hn e (List.mem_cons_of_mem _ h)) hw' hp'

end Sign

/-- The live bank holds the palette. -/
def Hub75.OnGlass (palette : List Byte) (h : Hub75) : Prop :=
  ∀ e < 256, h.paletteRam (h.liveBank * 256 + e) = paletteTriple palette e

/-- `h` is the driver of a sign that a whole palette reached, and after it, with no other palette,
one flip. -/
structure AfterPalette (palette : List Byte) (h : Hub75) : Prop where
  run : ∃ (stream : CardStream) (s t : Sign) (e : Turn) (es : List Turn),
    (s.rx.colours s.hub).Wired ∧ s.rx.hold = false ∧
    e.entry.payload ∈ (stream.sendPalette palette 0).datagrams ∧
    (∀ e ∈ es, paletteOf e.entry.payload = none) ∧ Run Sign.Step s (e :: es) t ∧
    t.hub.flips.length = s.hub.flips.length + 1 ∧ t.hub = h

lemma AfterPalette.onGlass {palette : List Byte} {h : Hub75} (hp : palette.length = 768)
    (ha : AfterPalette palette h) : h.OnGlass palette := by
  obtain ⟨stream, s, t, e, es, hw, hhold, hsent, hno, hrun, hone, rfl⟩ := ha.run
  have hwaiting : s.waiting e = some (wholePalette palette) := by
    rw [Sign.waiting, waitingAfter, hhold, paletteOf_sendPalette hp hsent]
    rfl
  have hfound : Phase palette s.hub.flips.length (s.found e) := .waits rfl hwaiting
  cases hrun with
  | cons he hrest =>
    obtain ⟨hw', hp'⟩ := he.phase hw hfound
    intro i hi
    exact (Sign.phase_of_run hrest hno hw' hp').on_glass hone hi

/-- A card ready for an image, its mode cache and its registers telling the truth. -/
structure Starts (width height : ℕ) (r : BitmapReceiver) (h : Hub75) : Prop
    extends Ready width height r h where
  agrees : ModeAgrees r.progress h.glass
  wired : (r.colours h).Wired
  faces : h.facing h.regs = h

section Cpu

variable {width height : ℕ} {r : BitmapReceiver} {h : Hub75} {palette : List Byte}
  {ds : List (Slice × ℤ)}

lemma deliver_moves {x : List Bool × BitmapReceiver × Hub75} (hs : (r.colours h).Steady)
    (hn : ∀ d ∈ ds, paletteOf d.1.bytes = none) (hx : r.deliver h ds = .ok x) :
    Moves (r.colours h) (x.2.1.colours x.2.2) := by
  induction ds generalizing r h x with
  | nil =>
    cases hx
    exact .refl _
  | cons d ds ih =>
    simp only [deliver] at hx
    cases ho : r.processPacket h d.1 d.2 with
    | error p =>
      rw [ho] at hx
      cases hx
    | ok o =>
      rw [ho] at hx
      cases hy : o.rx.deliver o.hub ds with
      | error p =>
        simp only [bind, Except.bind, hy] at hx
        cases hx
      | ok y =>
        simp only [bind, Except.bind, hy] at hx
        cases hx
        have hm := processPacket_moves hs d.1 d.2 o ho
        rw [waitingAfter_of_none (hn d List.mem_cons_self)] at hm
        exact hm.trans (ih (x := y) (hm.steady hs) (fun d h => hn d (List.mem_cons_of_mem _ h)) hy)

lemma Starts.stash {d : Slice} (hs : Starts width height r h) (t : ℤ)
    (hd : paletteOf d.bytes = some (wholePalette palette)) :
    ∃ o, r.processPacket h d t = .ok o ∧ Ready width height o.rx o.hub ∧
      ModeAgrees o.rx.progress o.hub.glass ∧
      Moves (h.colours (some (wholePalette palette))) (o.rx.colours o.hub) ∧
      o.hub.flips = h.flips := by
  have hsteady : (r.colours h).Steady := by
    have hsteady := hs.wired.steady
    rw [← hs.faces]
    exact hsteady
  have hpixels : ¬ ∃ indexed wide, pixelMagic d.bytes = some (indexed, wide) := by
    rintro ⟨indexed, wide, hm⟩
    have hb : d.bytes.getD 1 0 = letterP := by
      by_contra hb
      rw [paletteOf_of_ne fun h => hb h.2] at hd
      cases hd
    simp only [pixelMagic, hb] at hm
    split at hm
    · rename_i h
      exact absurd h.2 (by decide)
    · split at hm
      · rename_i h
        exact absurd h.2 (by decide)
      · split at hm
        · rename_i h
          exact absurd h.2 (by decide)
        · cases hm
  rcases r.processPacket_cases h d t hs.reachable.kept.palette with
    ⟨indexed, wide, r₀, hlen, hm, -⟩ | ⟨-, r', h', ho, hf, hg, hr⟩
  · exact absurd ⟨indexed, wide, hm⟩ hpixels
  · have hr : r'.progress = r.progress := by
      rcases hr with hr | ⟨hcpu, -⟩
      · exact hr
      · rw [hs.cpuPixels] at hcpu
        cases hcpu
    have hm := processPacket_moves hsteady d t _ ho
    rw [waitingAfter, hs.hold, hd] at hm
    refine ⟨_, ho, ⟨?_, ?_, ?_, ?_, ?_, ?_, ?_⟩, ?_, hm, congrArg Glass.flips hg⟩
    · obtain ⟨es, hes⟩ := hs.reachable
      have hstep : Event.step r ⟨.processPacket d, h, t⟩ r' := ⟨_, ho, rfl⟩
      exact ⟨_, hes.snoc hstep⟩
    · exact (congrArg Progress.total hr).trans hs.total
    · exact (congrArg Progress.hold hr).trans hs.hold
    · exact (congrArg Progress.cpuPixels hr).trans hs.cpuPixels
    · exact (congrArg Glass.dmaEnable hg).trans hs.dma
    · exact (congrArg Glass.autoSwap hg).trans hs.swap
    · exact (congrArg (fun g => (Glass.width g, Glass.length g)) hg).trans hs.image
    · rw [hr, hg]
      exact hs.agrees

end Cpu

/-- The driver of a card to which a palette was sent and then an indexed image, by the CPU path. -/
structure IndexedOnCpu (palette indices : List Byte) (width height : ℕ) (h : Hub75) : Prop where
  run : ∃ (s : CardStream) (r : BitmapReceiver) (h₀ : Hub75) (bp : Slice × ℤ)
    (ds : List (Slice × ℤ)) (last : Slice × ℤ) (flags : List Bool) (r' : BitmapReceiver),
    Starts width height r h₀ ∧ bp.1.bytes ∈ (s.sendPalette palette 0).datagrams ∧
    Delivery ((s.sendPalette palette 0).stream.send (.indexed indices) width height).datagrams
      ds last ∧
    r.deliver h₀ (bp :: (ds ++ [last])) = .ok (flags, r', h)

/-- The driver of a card to which an RGB image was sent, by the CPU path. -/
structure RgbOnCpu (body : List Byte) (width height : ℕ) (h : Hub75) : Prop where
  run : ∃ (s : CardStream) (r : BitmapReceiver) (h₀ : Hub75) (ds : List (Slice × ℤ))
    (last : Slice × ℤ) (flags : List Bool) (r' : BitmapReceiver),
    Starts width height r h₀ ∧ Delivery (s.send (.rgb body) width height).datagrams ds last ∧
    r.deliver h₀ (ds ++ [last]) = .ok (flags, r', h)

section Pictures

variable {width height : ℕ} {palette indices body : List Byte} {h : Hub75}

/-- The images the card takes in either form: the wide RGB frame is the larger one. -/
def Fits (width height : ℕ) : Prop :=
  width < 65536 ∧ height < 65536 ∧ width * height ≤ MAX_CHUNKS * PIXELS_PER_CHUNK_WIDE

lemma Fits.le (hf : Fits width height) : width * height ≤ 248832 := hf.2.2

lemma Fits.le_image (hf : Fits width height) : width * height ≤ MAX_IMG_PIXELS :=
  hf.2.2.trans (by decide)

lemma Fits.indexed_total (hf : Fits width height) (hi : indices.length = width * height) (s : CardStream) :
    (s.nextFrame (.indexed indices) width height).total < 256 := by
  have hle := hf.le
  rw [← hi] at hle
  have ht : (s.nextFrame (.indexed indices) width height).total = (indices.length + 1460) / 1461 := rfl
  rw [ht]
  omega

lemma Fits.rgb_total (hf : Fits width height) (hb : body.length = width * height * 3) (s : CardStream) :
    (s.nextFrame (.rgb body) width height).total ≤ MAX_CHUNKS := by
  have hle := hf.le
  simp only [Frame.total, Frame.format, CardStream.nextFrame, Picture.format, Picture.body]
  split
  · have ht : chunkTotal body.length Format.wide.bytesPerChunk = (body.length + 1457) / 1458 := rfl
    rw [ht, MAX_CHUNKS]
    omega
  · rename_i hn
    have hn : ¬ 255 < chunkTotal body.length BYTES_PER_CHUNK := hn
    have ht : chunkTotal body.length Format.narrow.bytesPerChunk =
        chunkTotal body.length BYTES_PER_CHUNK := rfl
    rw [ht, MAX_CHUNKS]
    omega

lemma paletteOf_send {s : CardStream} {picture : Picture} {d : Datagram}
    (hd : d ∈ (s.send picture width height).datagrams) : paletteOf d = none := by
  obtain ⟨-, i, -, rfl⟩ := CardStream.mem_send hd
  apply paletteOf_of_ne
  rintro ⟨-, hp⟩
  have hm := pixelMagic_datagram (s.nextFrame picture width height) i
  simp only [pixelMagic, hp] at hm
  split at hm
  · rename_i h
    exact absurd h.2 (by decide)
  · split at hm
    · rename_i h
      exact absurd h.2 (by decide)
    · split at hm
      · rename_i h
        exact absurd h.2 (by decide)
      · cases hm

lemma IndexedOnCpu.fetched (ho : IndexedOnCpu palette indices width height h)
    (hf : Fits width height) (hp : palette.length = 768) (hi : indices.length = width * height)
    {p : ℕ} (hlt : p < width * height) :
    h.fetched p = (paletteTriple palette (indices.getD p 0).toNat).setWidth 24 := by
  obtain ⟨s, r, h₀, bp, ds, last, flags, r', hs, hbp, hd, hdel⟩ := ho.run
  have hpal := paletteOf_sendPalette hp hbp
  obtain ⟨o, ho, hready, hagree, hm, hflips⟩ := hs.stash bp.2 hpal
  have hchunks := (hf.indexed_total hi (s.sendPalette palette 0).stream).le.trans
    (show 256 ≤ MAX_CHUNKS by decide)
  obtain ⟨r₁, h₁, hdel₁, -, hpicture, hone, hmode⟩ := hd.shown hready hchunks hf.le_image
  have hsame : h₁ = h := by
    have hwhole := deliver_cons ho hdel₁
    rw [hdel] at hwhole
    cases hwhole
    rfl
  subst hsame
  have hwired : (h₀.colours (some (wholePalette palette))).Wired :=
    ⟨hs.wired.banks, hs.wired.swap, hs.wired.placed⟩
  have hface : (h₀.colours (some (wholePalette palette))).face =
      h₀.colours (some (wholePalette palette)) :=
    congrArg (fun k : Hub75 => k.colours (some (wholePalette palette))) hs.faces
  have hsteady := hface ▸ hwired.steady
  have hrest := deliver_moves (hm.steady hsteady)
    (fun d h => paletteOf_send (hd.sent d h)) hdel₁
  have hphase : Phase palette h₀.flips.length (h₀.colours (some (wholePalette palette))) :=
    .waits rfl rfl
  have hback := hface ▸ hwired.backBank
  have hglass := hphase.moves hwired hback (hm.trans hrest)
  have hcount : h₁.flips.length = h₀.flips.length + 1 := by rw [hone, hflips]
  have hword : h₁.displayBuffer p = (indices.getD p 0).setWidth 32 := hpicture p hlt
  have hlow : ((h₁.displayBuffer p).setWidth 8).toNat = (indices.getD p 0).toNat := by
    rw [hword, BitVec.setWidth_setWidth_of_le _ (by decide), BitVec.setWidth_eq]
  have hctrl : h₁.ctrlIndexed = true := hmode hagree
  rw [Hub75.fetched, hctrl, if_pos rfl, Hub75.lookup, hlow]
  exact congrArg _ (hglass.on_glass hcount (indices.getD p 0).isLt)

lemma RgbOnCpu.fetched (ho : RgbOnCpu body width height h) (hf : Fits width height)
    (hb : body.length = width * height * 3) {p : ℕ} (hlt : p < width * height) :
    h.fetched p = (Hub75.rgbTriple body p).setWidth 24 := by
  obtain ⟨s, r, h₀, ds, last, flags, r', hs, hd, hdel⟩ := ho.run
  obtain ⟨r₁, h₁, hdel₁, -, hpicture, -, hmode⟩ := hd.shown hs.toReady (hf.rgb_total hb s) hf.le_image
  have hsame : h₁ = h := by
    rw [hdel] at hdel₁
    cases hdel₁
    rfl
  subst hsame
  have hformat : (Picture.rgb body).format.isIndexed = false := by
    simp only [Picture.format]
    split <;> rfl
  have hctrl : h₁.ctrlIndexed = false := (hmode hs.agrees).trans hformat
  rw [Hub75.fetched, hctrl, hpicture p hlt]
  rfl

lemma exists_delivery {s : CardStream} {picture : Picture}
    (hs : (s.nextFrame picture width height).Sendable)
    (hpos : 0 < (s.nextFrame picture width height).total) :
    ∃ ds last, Delivery (s.send picture width height).datagrams ds last := by
  set f := s.nextFrame picture width height
  set ds : List (Slice × ℤ) := (List.range (f.total - 1)).map fun n => (⟨0, f.datagram n⟩, 0)
  set last : Slice × ℤ := (⟨0, f.datagram (f.total - 1)⟩, 0)
  have hmem {d : Slice × ℤ} (hd : d ∈ ds ++ [last]) : ∃ n < f.total, d = (⟨0, f.datagram n⟩, 0) := by
    rcases List.mem_append.mp hd with hd | hd
    · obtain ⟨n, hn, rfl⟩ := List.mem_map.mp hd
      have hn := List.mem_range.mp hn
      exact ⟨n, by omega, rfl⟩
    · exact ⟨f.total - 1, by omega, List.mem_singleton.mp hd⟩
  refine ⟨ds, last, ?_, ?_, ?_⟩
  · intro d hd
    obtain ⟨n, hn, rfl⟩ := hmem hd
    exact CardStream.datagram_mem_send hs hn
  · intro b hb
    obtain ⟨-, n, hn, rfl⟩ := CardStream.mem_send hb
    refine ⟨(⟨0, f.datagram n⟩, 0), ?_, rfl⟩
    by_cases he : n = f.total - 1
    · rw [he]
      exact List.mem_append_right _ (List.mem_singleton_self _)
    · apply List.mem_append_left
      have hlt : n < f.total - 1 := lt_of_le_of_ne (Nat.le_sub_one_of_lt hn) he
      exact List.mem_map.mpr ⟨n, List.mem_range.mpr hlt, rfl⟩
  · intro d hd he
    obtain ⟨n, hn, rfl⟩ := List.mem_map.mp hd
    have hn := List.mem_range.mp hn
    have hlt : n < f.total := hn.trans_le (Nat.sub_le _ _)
    have hlast : f.total - 1 < f.total := Nat.sub_lt hpos Nat.one_pos
    exact absurd (datagram_inj hs hlt hlast he) hn.ne

/-- A card fresh from power-up. -/
def freshCard (width height : ℕ) : Hub75 :=
  (Sign.powerUp (BitVec.ofNat 16 width) (BitVec.ofNat 16 height)).hub.facing Registers.reset

lemma Fits.starts (hf : Fits width height) : Starts width height {} (freshCard width height) := by
  have hw : (BitVec.ofNat 16 width).toNat = width := by
    rw [BitVec.toNat_ofNat, Nat.mod_eq_of_lt hf.1]
  have hh : (BitVec.ofNat 16 height).toNat = height := by
    rw [BitVec.toNat_ofNat, Nat.mod_eq_of_lt hf.2.1]
  have hready := ready_blank (BitVec.ofNat 16 width) (BitVec.ofNat 16 height)
  rw [hw, hh] at hready
  refine ⟨⟨hready.reachable, rfl, rfl, rfl, rfl, rfl, hready.image⟩, ?_, ?_, rfl⟩
  · intro b hb
    cases hb
  · exact ⟨rfl, rfl, .inl ⟨rfl, rfl⟩⟩

def freshStream : CardStream := ⟨0, 0, 0, 1⟩

lemma Fits.sendable_indexed (hf : Fits width height) (hi : indices.length = width * height)
    (s : CardStream) : (s.nextFrame (.indexed indices) width height).Sendable :=
  ⟨Nat.mod_lt _ (by decide), hf.1, hf.2.1, hi.trans (Nat.mul_one _).symm, hf.indexed_total hi s⟩

lemma Fits.sendable_rgb (hf : Fits width height) (hb : body.length = width * height * 3)
    (s : CardStream) : (s.nextFrame (.rgb body) width height).Sendable := by
  have htotal := hf.rgb_total hb s
  by_cases hn : MAX_CHUNKS_NARROW < chunkTotal body.length BYTES_PER_CHUNK
  · have hm : (s.nextFrame (.rgb body) width height).format = .wide := if_pos hn
    refine ⟨Nat.mod_lt _ (by decide), hf.1, hf.2.1, ?_, ?_⟩
    · rw [hm]
      exact hb
    · rw [hm]
      exact htotal.trans_lt (by decide)
  · have hm : (s.nextFrame (.rgb body) width height).format = .narrow := if_neg hn
    refine ⟨Nat.mod_lt _ (by decide), hf.1, hf.2.1, ?_, ?_⟩
    · rw [hm]
      exact hb
    · have ht : (s.nextFrame (.rgb body) width height).total =
          chunkTotal body.length BYTES_PER_CHUNK := by
        rw [Frame.total, hm]
        rfl
      rw [hm, ht]
      exact Nat.lt_succ_of_le (not_lt.mp hn)

lemma Frame.total_pos {f : Frame} (hs : f.Sendable) (hp : 0 < f.pixels) : 0 < f.total := by
  rw [Frame.total_eq_count hs.body_length]
  exact (Ledwall.Library.Chunking.count_pos_iff f.format.pixelsPerChunk_pos).mpr hp

lemma exists_indexedOnCpu (hf : Fits width height) (hp : palette.length = 768)
    (hi : indices.length = width * height) (hpos : 0 < width * height) :
    ∃ h, IndexedOnCpu palette indices width height h := by
  set s : CardStream := (freshStream.sendPalette palette 0).stream
  obtain ⟨ds, last, hd⟩ := exists_delivery (hf.sendable_indexed hi s)
    (Frame.total_pos (hf.sendable_indexed hi s) hpos)
  have hsent : (freshStream.sendPalette palette 0).datagrams =
      [[letterB, letterP, 0, 0, 0, 1, 0, 1, 1, 0] ++ palette] := by
    simp only [CardStream.sendPalette, hp]
    rfl
  have hbp : [letterB, letterP, 0, 0, 0, 1, 0, 1, 1, 0] ++ palette ∈
      (freshStream.sendPalette palette 0).datagrams := by
    rw [hsent]
    exact List.mem_singleton_self _
  obtain ⟨o, ho, hready, -⟩ := hf.starts.stash (d := ⟨0, _⟩) 0 (paletteOf_sendPalette hp hbp)
  obtain ⟨r', h', hdel, -⟩ := hd.shown hready
    ((hf.indexed_total hi s).le.trans (by decide)) hf.le_image
  exact ⟨h', freshStream, {}, freshCard width height, (⟨0, _⟩, 0), ds, last, _, r', hf.starts, hbp,
    hd, deliver_cons ho hdel⟩

lemma exists_rgbOnCpu (hf : Fits width height) (hb : body.length = width * height * 3)
    (hpos : 0 < width * height) : ∃ h, RgbOnCpu body width height h := by
  obtain ⟨ds, last, hd⟩ := exists_delivery (hf.sendable_rgb hb freshStream)
    (Frame.total_pos (hf.sendable_rgb hb freshStream) hpos)
  obtain ⟨r', h', hdel, -⟩ := hd.shown hf.starts.toReady (hf.rgb_total hb freshStream) hf.le_image
  exact ⟨h', freshStream, {}, freshCard width height, ds, last, _, r', hf.starts, hd, hdel⟩

end Pictures

end Ledwall.Receiver
