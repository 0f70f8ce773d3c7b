import Ledwall.Receiver.Simulation

/-! One frame, sent and received: its datagrams in any order, with repeats, put it on the glass. -/

namespace Ledwall.Wire

open Ledwall.Receiver

/-- The framebuffer word of pixel `i`: `B << 16 | G << 8 | R` of its triple, or its palette index. -/
def Picture.word : Picture → ℕ → Word
  | .rgb body, i => Hub75.rgbTriple body i
  | .indexed body, i => Hub75.indexedByte body i

end Ledwall.Wire

namespace Ledwall.Receiver

open BitmapReceiver Ledwall.Wire

/-- Datagrams handed to `process_packet` one after another, and what the calls returned. -/
def BitmapReceiver.deliver (r : BitmapReceiver) (h : Hub75) :
    List (Slice × ℤ) → Except Panic (List Bool × BitmapReceiver × Hub75)
  | [] => return ([], r, h)
  | d :: ds => do
    let o ← r.processPacket h d.1 d.2
    let rest ← o.rx.deliver o.hub ds
    return (o.presented :: rest.1, rest.2)

section Delivery

variable {r : BitmapReceiver} {h : Hub75} {d : Slice × ℤ} {ds ds' : List (Slice × ℤ)}

lemma deliver_cons {o : Outcome} {x : List Bool × BitmapReceiver × Hub75}
    (ho : r.processPacket h d.1 d.2 = .ok o) (hx : o.rx.deliver o.hub ds = .ok x) :
    r.deliver h (d :: ds) = .ok (o.presented :: x.1, x.2) := by
  simp only [deliver, ho, hx, bind, Except.bind]
  rfl

lemma deliver_append {x y : List Bool × BitmapReceiver × Hub75} (h₁ : r.deliver h ds = .ok x)
    (h₂ : x.2.1.deliver x.2.2 ds' = .ok y) : r.deliver h (ds ++ ds') = .ok (x.1 ++ y.1, y.2) := by
  induction ds generalizing r h x with
  | nil =>
    cases h₁
    exact h₂
  | cons d ds ih =>
    simp only [deliver, bind, Except.bind] at h₁
    split at h₁
    · cases h₁
    · rename_i o ho
      split at h₁
      · cases h₁
      · rename_i z hz
        cases h₁
        exact deliver_cons ho (ih hz h₂)

end Delivery

/-- Chunk `l` of `f` is the one still to come, the other chunks in `acc` are there. -/
structure Awaiting (width height : ℕ) (f : Frame) (l : ℕ) (acc : Finset ℕ) (repairs : ℕ)
    (r : BitmapReceiver) (h : Hub75) : Prop where
  palette : r.PaletteFits
  tracks : ∃ A, Tracks width height A r.progress h.glass ∧
    (∀ a, A.current = some a → a.frame = f) ∧ A.kept f = acc
  last : l ∉ acc
  lt_total : ∀ j ∈ acc, j < f.total
  repairs_eq : r.progress.repairs = repairs

section Awaiting

variable {width height : ℕ} {f : Frame} {i j l t : ℕ} {acc : Finset ℕ} {n : ℕ}
  {r : BitmapReceiver} {h : Hub75} {ds : List (Slice × ℤ)}

lemma datagram_inj (hs : f.Sendable) (hi : i < f.total) (hj : j < f.total)
    (he : f.datagram i = f.datagram j) : i = j := by
  have hi := headerOf_datagram hs hi
  rw [he, headerOf_datagram hs hj] at hi
  cases hi
  rfl

lemma card_lt_total (hl : l < f.total) (hlt : ∀ j ∈ acc, j < f.total) (hn : l ∉ acc) :
    acc.card < f.total := by
  have hsub : insert l acc ⊆ Finset.range f.total := by
    intro j hj
    rw [Finset.mem_range]
    rcases Finset.mem_insert.mp hj with rfl | hj
    · exact hl
    · exact hlt j hj
  have hcard := Finset.card_le_card hsub
  rw [Finset.card_insert_of_notMem hn, Finset.card_range] at hcard
  omega

lemma Awaiting.step (ha : Awaiting width height f l acc n r h) (hs : Suits width height f)
    (ht : Takes f) (hl : l < f.total) {d : Slice × ℤ} (hj : j < f.total) (hjl : j ≠ l)
    (hd : d.1.bytes = f.datagram j) :
    ∃ o, r.processPacket h d.1 d.2 = .ok o ∧ o.presented = false ∧
      Awaiting width height f l (insert j acc) n o.rx o.hub ∧ o.hub.flips = h.flips ∧
      (ModeAgrees r.progress h.glass → ModeAgrees o.rx.progress o.hub.glass) := by
  obtain ⟨A, htr, hsame, hk⟩ := ha.tracks
  obtain ⟨o, ho, hfol, hrep⟩ := processPacket_chunk d.1 d.2 ha.palette htr hs hj
    (fun a hc _ => hsame a hc) hd r.hwFilterOn d.1.addr
  have hout : A.outgoing f = [] := by
    cases hcur : A.current with
    | none => simp only [Assembler.outgoing, hcur]
    | some a => simp only [Assembler.outgoing, hcur, hsame a hcur, if_true]
  have hlast : l ∉ insert j acc := by
    rw [Finset.mem_insert]
    rintro (he | he)
    · exact hjl he.symm
    · exact ha.last he
  have hlt : ∀ k ∈ insert j acc, k < f.total := by
    intro k hk
    rcases Finset.mem_insert.mp hk with rfl | hk
    · exact hj
    · exact ha.lt_total k hk
  have hstep : A.step r.hwFilterOn (.chunk f j d.1.addr d.2) =
      (⟨some ⟨f, insert j acc, d.2⟩, some f.format⟩, []) := by
    simp only [Assembler.step, if_pos ht, hk, hout, Assembler.join]
    split
    · rename_i hin
      rw [Finset.insert_eq_of_mem hin]
      rfl
    · rw [if_neg (card_lt_total hl hlt hlast).ne]
      rfl
  rw [hstep] at hfol
  have hflips : o.hub.flips = h.flips := by
    obtain ⟨fs, he, -, hnil⟩ := hfol.flips
    cases hnil
    exact he.trans (List.append_nil _)
  refine ⟨o, ho, hfol.presented, ⟨hfol.palette, ⟨_, hfol.tracks, ?_, ?_⟩, hlast, hlt,
    (hrep hsame).trans ha.repairs_eq⟩, hflips, hfol.agrees⟩
  · intro a hc
    cases hc
    rfl
  · simp only [Assembler.kept, if_true]

lemma Awaiting.deliver (ha : Awaiting width height f l acc n r h) (hs : Suits width height f)
    (ht : Takes f) (hl : l < f.total)
    (hds : ∀ d ∈ ds, ∃ j < f.total, j ≠ l ∧ d.1.bytes = f.datagram j) :
    ∃ r' h' acc', r.deliver h ds = .ok (ds.map (fun _ => false), r', h') ∧
      Awaiting width height f l acc' n r' h' ∧ acc ⊆ acc' ∧
      (∀ d ∈ ds, ∀ j < f.total, d.1.bytes = f.datagram j → j ∈ acc') ∧ h'.flips = h.flips ∧
      (ModeAgrees r.progress h.glass → ModeAgrees r'.progress h'.glass) := by
  induction ds generalizing r h acc with
  | nil => exact ⟨r, h, acc, rfl, ha, Finset.Subset.refl acc, (fun d hd => by cases hd), rfl, id⟩
  | cons d ds ih =>
    obtain ⟨j, hj, hjl, hd⟩ := hds d List.mem_cons_self
    obtain ⟨o, ho, hp, ho', hflips, hagree⟩ := ha.step hs ht hl hj hjl hd
    obtain ⟨r', h', acc', hdel, ha', hsub, hall, hflips', hagree'⟩ :=
      ih ho' fun d hd => hds d (List.mem_cons_of_mem _ hd)
    refine ⟨r', h', acc', ?_, ha', (Finset.subset_insert j acc).trans hsub, ?_,
      hflips'.trans hflips, hagree' ∘ hagree⟩
    · rw [deliver_cons ho hdel, hp]
      rfl
    · intro e he k hk hek
      rcases List.mem_cons.mp he with rfl | he
      · rw [← datagram_inj hs.sendable hj hk (hd.symm.trans hek)]
        exact hsub (Finset.mem_insert_self j acc)
      · exact hall e he k hk hek

lemma Awaiting.finish (ha : Awaiting width height f l acc n r h) (hs : Suits width height f)
    (ht : Takes f) (hl : l < f.total) (hall : ∀ j < f.total, j ≠ l → j ∈ acc) {d : Slice × ℤ}
    (hd : d.1.bytes = f.datagram l) :
    ∃ o, r.processPacket h d.1 d.2 = .ok o ∧ o.presented = true ∧
      o.rx.progress.repairs = n ∧ (∀ p < f.pixels, o.hub.glass.front p = pixelOf f p) ∧
      o.hub.flips.length = h.flips.length + 1 ∧
      (ModeAgrees r.progress h.glass → o.hub.glass.indexedMode = f.format.isIndexed) := by
  obtain ⟨A, htr, hsame, hk⟩ := ha.tracks
  obtain ⟨o, ho, hfol, hrep⟩ := processPacket_chunk d.1 d.2 ha.palette htr hs hl
    (fun a hc _ => hsame a hc) hd r.hwFilterOn d.1.addr
  have hout : A.outgoing f = [] := by
    cases hcur : A.current with
    | none => simp only [Assembler.outgoing, hcur]
    | some a => simp only [Assembler.outgoing, hcur, hsame a hcur, if_true]
  have hwhole : insert l acc = Finset.range f.total := by
    ext j
    rw [Finset.mem_insert, Finset.mem_range]
    constructor
    · rintro (rfl | hj)
      · exact hl
      · exact ha.lt_total j hj
    · intro hj
      by_cases he : j = l
      · exact .inl he
      · exact .inr (hall j hj he)
  have hstep : A.step r.hwFilterOn (.chunk f l d.1.addr d.2) =
      (⟨none, some f.format⟩, [⟨f, Finset.range f.total, d.2⟩]) := by
    simp only [Assembler.step, if_pos ht, hk, hout, Assembler.join, if_neg ha.last, hwhole,
      Finset.card_range, if_true, List.nil_append]
  rw [hstep] at hfol
  obtain ⟨fs, hflips, hfront, hfs⟩ := hfol.flips
  cases hfs with
  | cons hof hnil =>
    cases hnil
    obtain ⟨m, hm, hof⟩ := hof
    cases hm
    refine ⟨o, ho, hfol.presented, (hrep hsame).trans ha.repairs_eq, fun p hp => ?_, ?_, ?_⟩
    · rw [hfront]
      apply (hof.pixels rfl).own p hp
      rw [Finset.mem_range, Frame.total_eq_count hs.sendable.body_length]
      exact Ledwall.Library.Chunking.div_lt_count f.format.pixelsPerChunk_pos hp
    · exact (congrArg List.length hflips).trans (List.length_append ..)
    · intro hagree
      exact hfol.agrees hagree _ (hfol.tracks.latch _ rfl).1.mode

end Awaiting

/-- Datagrams of a send call that bring its whole frame, the last of them a chunk the others have
not brought. -/
structure Delivery (call : List Datagram) (ds : List (Slice × ℤ)) (last : Slice × ℤ) : Prop where
  sent : ∀ d ∈ ds ++ [last], d.1.bytes ∈ call
  every : ∀ b ∈ call, ∃ d ∈ ds ++ [last], d.1.bytes = b
  fresh : ∀ d ∈ ds, d.1.bytes ≠ last.1.bytes

lemma Delivery.shown {width height : ℕ} {r : BitmapReceiver} {h : Hub75}
    (hr : Ready width height r h) {s : CardStream} {picture : Picture}
    (hchunks : (s.nextFrame picture width height).total ≤ MAX_CHUNKS)
    (himage : width * height ≤ MAX_IMG_PIXELS) {ds : List (Slice × ℤ)} {last : Slice × ℤ}
    (hd : Delivery (s.send picture width height).datagrams ds last) :
    ∃ r' h', r.deliver h (ds ++ [last]) = .ok (ds.map (fun _ => false) ++ [true], r', h') ∧
      r'.stats.chunksRepaired = r.stats.chunksRepaired ∧
      (∀ i < width * height, h'.displayBuffer i = picture.word i) ∧
      h'.flips.length = h.flips.length + 1 ∧
      (ModeAgrees r.progress h.glass → h'.ctrlIndexed = picture.format.isIndexed) := by
  generalize hf : s.nextFrame picture width height = f at hchunks
  have hmem : ∀ b ∈ (s.send picture width height).datagrams,
      f.Sendable ∧ ∃ j < f.total, b = f.datagram j := by
    intro b hb
    rw [← hf]
    exact CardStream.mem_send hb
  have hin : last ∈ ds ++ [last] := List.mem_append_right _ (List.mem_singleton_self last)
  obtain ⟨hs, l, hl, hbytes⟩ := hmem _ (hd.sent last hin)
  have hsuits : Suits width height f := by
    subst hf
    exact ⟨hs, rfl, rfl⟩
  have hpixels := hsuits.pixels
  have htakes : Takes f := ⟨hchunks, hpixels.trans_le himage⟩
  have hstart : Awaiting width height f l ∅ r.progress.repairs r h :=
    ⟨hr.reachable.kept.palette, ⟨_, hr.tracks, fun a ha => (by cases ha), rfl⟩,
      Finset.notMem_empty l, fun j hj => absurd hj (Finset.notMem_empty j), rfl⟩
  have hds : ∀ d ∈ ds, ∃ j < f.total, j ≠ l ∧ d.1.bytes = f.datagram j := by
    intro d hdd
    obtain ⟨-, j, hj, hdj⟩ := hmem _ (hd.sent d (List.mem_append_left _ hdd))
    refine ⟨j, hj, ?_, hdj⟩
    rintro rfl
    exact hd.fresh d hdd (hdj.trans hbytes.symm)
  obtain ⟨r₁, h₁, acc, hdel, hwait, -, hacc, hflips, hagree⟩ := hstart.deliver hsuits htakes hl hds
  have hall : ∀ j < f.total, j ≠ l → j ∈ acc := by
    intro j hj hjl
    have hdj : f.datagram j ∈ (s.send picture width height).datagrams := by
      subst hf
      exact CardStream.datagram_mem_send hs hj
    obtain ⟨d, hdd, he⟩ := hd.every _ hdj
    rcases List.mem_append.mp hdd with hdd | hdd
    · exact hacc d hdd j hj he
    · rw [List.mem_singleton.mp hdd] at he
      exact absurd (datagram_inj hs hj hl (he.symm.trans hbytes)) hjl
  obtain ⟨o, ho, hpres, hrep, hfront, hone, hmode⟩ := hwait.finish hsuits htakes hl hall hbytes
  refine ⟨o.rx, o.hub, ?_, hrep, fun i hi => ?_, ?_, ?_⟩
  · rw [deliver_append hdel (deliver_cons ho rfl), hpres]
  · rw [← hpixels] at hi
    refine (hfront i hi).trans ?_
    subst hf
    cases picture with
    | rgb body =>
      have hrgb : (Picture.rgb body).format.isIndexed = false := by
        simp only [Picture.format]
        split <;> rfl
      simp only [pixelOf, Frame.format, CardStream.nextFrame, hrgb, pixelWord]
      rfl
    | indexed body => rfl
  · rw [hone, hflips]
  · intro h₀
    subst hf
    exact hmode (hagree h₀)

/-- The datagrams of one send call, in any order and with any repeats before the last distinct one:
only that one presents the frame, nothing is repaired, and the front buffer is the picture. -/
theorem round_trip {width height : ℕ} {r : BitmapReceiver} {h : Hub75}
    (hr : Ready width height r h) (s : CardStream) (picture : Picture)
    (hchunks : (s.nextFrame picture width height).total ≤ MAX_CHUNKS)
    (himage : width * height ≤ MAX_IMG_PIXELS) (ds : List (Slice × ℤ)) (last : Slice × ℤ)
    (hsent : ∀ d ∈ ds ++ [last], d.1.bytes ∈ (s.send picture width height).datagrams)
    (hevery : ∀ b ∈ (s.send picture width height).datagrams, ∃ d ∈ ds ++ [last], d.1.bytes = b)
    (hlast : ∀ d ∈ ds, d.1.bytes ≠ last.1.bytes) :
    ∃ r' h', r.deliver h (ds ++ [last]) = .ok (ds.map (fun _ => false) ++ [true], r', h') ∧
      r'.stats.chunksRepaired = r.stats.chunksRepaired ∧
      ∀ i < width * height, h'.displayBuffer i = picture.word i := by
  have hd : Delivery (s.send picture width height).datagrams ds last := ⟨hsent, hevery, hlast⟩
  obtain ⟨r', h', he, hrep, hpicture, -⟩ := hd.shown hr hchunks himage
  exact ⟨r', h', he, hrep, hpicture⟩

/-- A black RGB frame of two chunks. -/
def black : Frame := ⟨1, .rgb (List.replicate 1464 0), 488, 1⟩

lemma black_format : black.format = .narrow := by
  simp only [Frame.format, black, Picture.format, List.length_replicate]
  rfl

lemma black_total : black.total = 2 := by
  rw [Frame.total, black_format]
  simp only [black, Picture.body, List.length_replicate]
  rfl

lemma black_sendable : black.Sendable := by
  refine ⟨by decide, by decide, by decide, ?_, ?_⟩
  · rw [black_format]
    exact List.length_replicate
  · rw [black_format, black_total]
    decide

lemma black_takes : Takes black := by
  refine ⟨?_, by decide⟩
  rw [black_total]
  decide

/-- The second chunk twice, then the first. -/
theorem round_trip_black : ∃ r' h', BitmapReceiver.deliver {} (blank 488 1)
      ([(⟨0, black.datagram 1⟩, 0), (⟨0, black.datagram 1⟩, 1)] ++ [(⟨0, black.datagram 0⟩, 2)]) =
        .ok ([false, false, true], r', h') ∧
      r'.stats.chunksRepaired = 0 ∧
      ∀ i < 488 * 1, h'.displayBuffer i = Picture.word (.rgb (List.replicate 1464 0)) i := by
  have h₀ : 0 < black.total := black_total ▸ Nat.zero_lt_two
  have h₁ : 1 < black.total := black_total ▸ Nat.one_lt_two
  have hready : Ready 488 1 {} (blank 488 1) := ready_blank 488 1
  apply round_trip hready ⟨0, 0, 0, 1⟩ (.rgb (List.replicate 1464 0)) black_takes.1
    black_takes.2 [(⟨0, black.datagram 1⟩, 0), (⟨0, black.datagram 1⟩, 1)]
  · have hmem {i : ℕ} (hi : i < black.total) := CardStream.datagram_mem_send (s := ⟨0, 0, 0, 1⟩)
      black_sendable hi
    intro d hd
    simp only [List.cons_append, List.nil_append, List.mem_cons, List.not_mem_nil, or_false] at hd
    rcases hd with rfl | rfl | rfl
    · exact hmem h₁
    · exact hmem h₁
    · exact hmem h₀
  · intro b hb
    obtain ⟨-, i, hi, he⟩ := CardStream.mem_send hb
    have hi : i < black.total := hi
    rw [black_total] at hi
    have hi : i = 0 ∨ i = 1 := by omega
    rcases hi with hi | hi
    · rw [hi] at he
      exact ⟨_, List.mem_append_right _ (List.mem_singleton_self _), he.symm⟩
    · rw [hi] at he
      exact ⟨_, List.mem_cons_self, he.symm⟩
  · intro d hd he
    simp only [List.mem_cons, List.not_mem_nil, or_false] at hd
    rcases hd with rfl | rfl <;> exact absurd (datagram_inj black_sendable h₁ h₀ he) Nat.one_ne_zero

end Ledwall.Receiver
