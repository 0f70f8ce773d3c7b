import Ledwall.Gateware.ScanGeometry

/-! A row fetched and shifted out: when every panel shows the pixels of its place in the image. -/

namespace Ledwall.Gateware

open RowFetch

/-- A word is the image pixel at column `k` of half `h` of panel `s`, in its colour. -/
def RowSettings.Shows (z : PanelSize) (gamma : BitVec 8 → BitVec 8) (v : RowSettings) (s h k : ℕ)
    (px : Pixel) : Prop :=
  px.adr.word = v.imageWord z s h k ∧ px.colour = v.colourAt gamma (v.imageWord z s h k)

/-- The row's fetch, over any earlier content of the buffers, puts at every output, chain position,
half and column the image pixel of that place, and asks for each panel's pixels once and for nothing
else. -/
structure RowShown (z : PanelSize) (gamma : BitVec 8 → BitVec 8) (v : RowSettings) (f : RowFetch)
    (ps : List PortCycle) : Prop where
  pins : ∀ (before : ℕ → ℕ → Pixel) (s : ShiftOut) (order : BitVec 3) (outputBit : ℕ), s.Idle →
    ∀ o < z.nOutputs, ∀ c < 2 ^ z.chainLength2, ∀ k < z.columns, ∃ upper lower,
      (s.shifted z (({ f with buffers := before }.fetch z gamma v ps).buffers o) order
        outputBit)[c * z.columns + k]? = some (pinsOf order outputBit upper, pinsOf order outputBit lower) ∧
      v.Shows z gamma (o * 2 ^ z.chainLength2 + c) 0 k upper ∧
      v.Shows z gamma (o * 2 ^ z.chainLength2 + c) 1 k lower
  listed : ∀ a ∈ (f.fetch z gamma v ps).asked, a.1 < z.panels
  once : ∀ s < z.panels, (((f.fetch z gamma v ps).asked.filter fun a => a.1 = s).map
    fun a => a.2.word).Perm
      ((List.range 2 ×ˢ List.range z.columns).map fun place => v.imageWord z s place.1 place.2)

namespace RowFetch

variable {z : PanelSize} {gamma : BitVec 8 → BitVec 8} {v : RowSettings} {f : RowFetch}
  {before : ℕ → ℕ → Pixel} {ps : List PortCycle} {taken : List ℕ}

lemma next_before (f : RowFetch) (before : ℕ → ℕ → Pixel) (start : Bool) (p : PortCycle) :
    ∃ after, { f with buffers := before }.next z gamma v start p =
      { f.next z gamma v start p with buffers := after } :=
  ⟨_, rfl⟩

lemma foldl_before (f : RowFetch) (before : ℕ → ℕ → Pixel) (ps : List PortCycle) :
    ∃ after, ps.foldl (fun f p => f.next z gamma v false p) { f with buffers := before } =
      { ps.foldl (fun f p => f.next z gamma v false p) f with buffers := after } := by
  induction ps generalizing f before with
  | nil => exact ⟨before, rfl⟩
  | cons p ps ih =>
    obtain ⟨after, hnext⟩ := f.next_before (z := z) (v := v) before false p
    rw [List.foldl_cons, List.foldl_cons, hnext]
    exact ih _ after

lemma fetch_before (f : RowFetch) (before : ℕ → ℕ → Pixel) (ps : List PortCycle) :
    ∃ after, { f with buffers := before }.fetch z gamma v ps =
      { f.fetch z gamma v ps with buffers := after } := by
  cases ps with
  | nil => exact ⟨before, rfl⟩
  | cons p ps =>
    obtain ⟨after, hnext⟩ := f.next_before (z := z) (v := v) before true p
    obtain ⟨later, hfold⟩ := foldl_before (f.next z gamma v true p) after ps
    refine ⟨later, ?_⟩
    rw [fetch, fetch, hnext]
    exact hfold

lemma allKept_before (f : RowFetch) (before : ℕ → ℕ → Pixel) (ps : List PortCycle) :
    AllKept z gamma v { f with buffers := before } ps ↔ AllKept z gamma v f ps := by
  have hrun (f : RowFetch) (before : ℕ → ℕ → Pixel) (ps : List PortCycle) :
      Library.Runs.Always (fun f p t => t = f.next z gamma v false p) Kept
        { f with buffers := before } ps ↔
      Library.Runs.Always (fun f p t => t = f.next z gamma v false p) Kept f ps := by
    induction ps generalizing f before with
    | nil => exact Iff.rfl
    | cons p ps ih =>
      rw [Library.Runs.always_next_cons, Library.Runs.always_next_cons]
      exact and_congr Iff.rfl (ih (f.next z gamma v false p) _)
  cases ps with
  | nil => exact Iff.rfl
  | cons p ps => exact hrun (f.next z gamma v true p) _ ps

end RowFetch

lemma pinsOf_pixel (order : BitVec 3) (outputBit : ℕ) (px : Pixel) :
    (pinsOf order outputBit px).pixel = px := by
  rw [pinsOf]
  split <;> rfl

lemma ShiftOut.Idle.shifted_at {z : PanelSize} {buffer : ℕ → Pixel} {order : BitVec 3} {outputBit t : ℕ}
    {s : ShiftOut} (hs : s.Idle) (ht : t < z.columns * 2 ^ z.chainLength2) :
    (s.shifted z buffer order outputBit)[t]? = some (pair buffer order outputBit t) := by
  rw [hs.shifted, List.getElem?_map, List.getElem?_range ht, Option.map_some]

namespace RowShown

open PanelSize

variable {z : PanelSize} {gamma : BitVec 8 → BitVec 8} {v : RowSettings} {f : RowFetch}
  {before : ℕ → ℕ → Pixel} {ps : List PortCycle} {taken : List ℕ} {o c h k : ℕ}

lemma clock_lt (hc : c < 2 ^ z.chainLength2) (hk : k < z.columns) :
    c * z.columns + k < z.columns * 2 ^ z.chainLength2 := by
  calc c * z.columns + k < (c + 1) * z.columns := by
        rw [Nat.add_one_mul]
        omega
    _ ≤ 2 ^ z.chainLength2 * z.columns := Nat.mul_le_mul_right _ hc
    _ = _ := Nat.mul_comm _ _

lemma shows (hr : RowShown z gamma v f ps) (before : ℕ → ℕ → Pixel) (ho : o < z.nOutputs)
    (hc : c < 2 ^ z.chainLength2) (hk : k < z.columns) (hh : h < 2) :
    v.Shows z gamma (o * 2 ^ z.chainLength2 + c) h k
      (({ f with buffers := before }.fetch z gamma v ps).buffers o (2 * (c * z.columns + k) + h)) := by
  have hidle : ShiftOut.Idle {} := ⟨rfl, rfl, rfl⟩
  obtain ⟨upper, lower, hpins, hupper, hlower⟩ := hr.pins before {} 0 0 hidle o ho c hc k hk
  rw [hidle.shifted_at (clock_lt hc hk), Option.some_inj, ShiftOut.pair, Prod.mk.injEq] at hpins
  have hfirst := congrArg Pins.pixel hpins.1
  have hsecond := congrArg Pins.pixel hpins.2
  rw [pinsOf_pixel, pinsOf_pixel] at hfirst hsecond
  have hcases : h = 0 ∨ h = 1 := by omega
  rcases hcases with rfl | rfl
  · rw [Nat.add_zero, hfirst]
    exact hupper
  · rw [hsecond]
    exact hlower

lemma exists_not_shows (s h k : ℕ) : ∃ px : Pixel, ¬ v.Shows z gamma s h k px := by
  refine ⟨⟨⟨⟨0, v.imageWord z s h k + 1⟩, false⟩, 0⟩, fun hs => ?_⟩
  have hword : BitVec.setWidth 32 (0 : BitVec 20) + (v.imageWord z s h k + 1) = v.imageWord z s h k := hs.1
  bv_omega

lemma last_read (hz : z.Built) (ha : z.Aligned) :
    z.addressOf z.last = 2 * ((2 ^ z.chainLength2 - 1) * z.columns + (z.columns - 1)) + 1 := by
  have hcolumns := hz.columns
  have houtputs := hz.nOutputs
  have hchain : 0 < 2 ^ z.chainLength2 := Nat.two_pow_pos _
  have hlt : z.columns - 1 < 2 ^ z.columnsBits := lt_of_lt_of_le (by omega) columns_le
  have hpanel : z.panels - 1 = (z.nOutputs - 1) * 2 ^ z.chainLength2 + (2 ^ z.chainLength2 - 1) := by
    rw [panels, Nat.mul_comm, Nat.sub_one_mul]
    have hle := Nat.le_mul_of_pos_left (2 ^ z.chainLength2) houtputs
    omega
  rw [last, hpanel, addressOf_index hlt (by decide) (by omega)]
  rcases ha with hpow | hone
  · rw [← hpow]
  · rw [Nat.eq_one_of_mul_eq_one_right hone, Nat.sub_self, Nat.zero_mul, Nat.zero_mul]

/-- Nothing comes to the last place unless every word of the row comes, and columns are a power of
two. -/
lemma last_written (hr : RowShown z gamma v f ps) (hz : z.Built) (ha : z.Aligned)
    (hfetched : ∀ before, ∃ taken, Fetched z gamma v { f with buffers := before }
      ({ f with buffers := before }.fetch z gamma v ps) taken ∧
        (taken = List.range z.total ↔ AllKept z gamma v f ps)) :
    z.columns = 2 ^ z.columnsBits ∧ AllKept z gamma v f ps := by
  have hcolumns := hz.columns
  have houtputs := hz.nOutputs
  have hchain : 0 < 2 ^ z.chainLength2 := Nat.two_pow_pos _
  obtain ⟨px, hpx⟩ := exists_not_shows (z := z) (v := v)
    ((z.nOutputs - 1) * 2 ^ z.chainLength2 + (2 ^ z.chainLength2 - 1)) 1 (z.columns - 1)
  obtain ⟨taken, hf, hkept⟩ := hfetched fun _ _ => px
  have hlen := hf.sublist.length_le
  rw [List.length_range] at hlen
  have hmore : z.last < taken.length := by
    by_contra hle
    have hstale := hf.spared ha (by omega)
    have hshows := hr.shows (fun _ _ => px) (show z.nOutputs - 1 < z.nOutputs by omega)
      (show 2 ^ z.chainLength2 - 1 < 2 ^ z.chainLength2 by omega)
      (show z.columns - 1 < z.columns by omega) (show 1 < 2 by decide)
    rw [← last_read hz ha, hstale] at hshows
    exact hpx hshows
  have hpow : z.columns = 2 ^ z.columnsBits := by
    by_contra hne
    have hle := total_le_last hz hne
    omega
  refine ⟨hpow, hkept.mp (hf.sublist.eq_of_length ?_)⟩
  have htotal := total_eq_last hz hpow
  rw [List.length_range]
  omega

/-- The words asked for the last of several panels are too few, unless columns are a power of two. -/
lemma last_short (hr : RowShown z gamma v f ps) (hz : z.Built) (hmany : z.panels ≠ 1)
    (hf : Fetched z gamma v f (f.fetch z gamma v ps) taken) : z.columns = 2 ^ z.columnsBits := by
  have hpanels := hz.panels_pos
  have hall := (hr.once (z.panels - 1) (by omega)).length_eq
  rw [List.length_map, List.length_map, List.length_product, List.length_range, List.length_range,
    hf.asked, List.filter_map, List.length_map] at hall
  have hsub : taken.filter ((fun a : ℕ × FbAddress => decide (a.1 = z.panels - 1)) ∘
      fun m => (z.panelOf m, v.address z m)) ⊆
      List.range' ((z.panels - 1) * 2 ^ (z.columnsBits + 1))
        (z.total - (z.panels - 1) * 2 ^ (z.columnsBits + 1)) := by
    intro m hm
    obtain ⟨hmem, hpanel⟩ := List.mem_filter.mp hm
    have hlt := List.mem_range.mp (hf.sublist.subset hmem)
    have hpanel : z.panelOf m = z.panels - 1 := of_decide_eq_true hpanel
    have hge : (z.panels - 1) * 2 ^ (z.columnsBits + 1) ≤ m := by
      rw [← hpanel, panelOf]
      exact Nat.div_mul_le_self m _
    rw [List.mem_range'_1]
    omega
  have hnodup : (taken.filter ((fun a : ℕ × FbAddress => decide (a.1 = z.panels - 1)) ∘
      fun m => (z.panelOf m, v.address z m))).Nodup := (hf.sublist.nodup List.nodup_range).filter _
  have hcount := (hnodup.subperm hsub).length_le
  rw [hall, List.length_range', Nat.pow_succ, total_eq] at hcount
  by_contra hne
  have hlt : z.columns + 1 ≤ 2 ^ z.columnsBits := lt_of_le_of_ne columns_le hne
  have hmul : (z.panels - 1) * (z.columns + 1) ≤ (z.panels - 1) * 2 ^ z.columnsBits :=
    Nat.mul_le_mul_left _ hlt
  have hwidth : 2 * z.panels * z.columns = 2 * ((z.panels - 1) * z.columns) + 2 * z.columns := by
    rw [Nat.mul_assoc, ← Nat.mul_add, ← Nat.add_one_mul, Nat.sub_add_cancel hpanels]
  have hassoc : (z.panels - 1) * (2 ^ z.columnsBits * 2) =
      2 * ((z.panels - 1) * 2 ^ z.columnsBits) := by ring
  rw [Nat.mul_add_one] at hmul
  have hcolumns := hz.columns
  omega

lemma mem_places {n : ℕ} : (h, k) ∈ List.range 2 ×ˢ List.range n ↔ h < 2 ∧ k < n :=
  List.pair_mem_product.trans (and_congr List.mem_range List.mem_range)

lemma filter_panelOf (hz : z.columns = 2 ^ z.columnsBits) {s : ℕ} (hs : s < z.panels) :
    ((List.range z.total).filter fun m => z.panelOf m = s).Perm
      ((List.range 2 ×ˢ List.range z.columns).map fun place => z.index s place.1 place.2) := by
  have hplaces : ((List.range 2 ×ˢ List.range z.columns).map
      fun place => z.index s place.1 place.2).Nodup := by
    refine (List.nodup_range.product List.nodup_range).map_on ?_
    rintro ⟨h, k⟩ hm ⟨h', k'⟩ hm' heq
    rw [mem_places, hz] at hm hm'
    have hcolumn := congrArg (· % 2 ^ z.columnsBits) heq
    have hhalf := congrArg (· / 2 ^ z.columnsBits % 2) heq
    dsimp only at hcolumn hhalf
    rw [index_column hm.2, index_column hm'.2] at hcolumn
    rw [index_half hm.2 hm.1, index_half hm'.2 hm'.1] at hhalf
    exact Prod.ext hhalf hcolumn
  rw [List.perm_ext_iff_of_nodup (List.nodup_range.filter _) hplaces]
  intro m
  rw [List.mem_filter, List.mem_range, List.mem_map, decide_eq_true_iff]
  constructor
  · rintro ⟨-, rfl⟩
    refine ⟨(m / 2 ^ z.columnsBits % 2, m % 2 ^ z.columnsBits), ?_, index_panelOf m⟩
    rw [mem_places, hz]
    exact ⟨Nat.mod_lt _ (by decide), Nat.mod_lt _ (Nat.two_pow_pos _)⟩
  · rintro ⟨⟨h, k⟩, hm, rfl⟩
    rw [mem_places] at hm
    exact ⟨index_lt hz hs hm.2 hm.1, panelOf_index (hz ▸ hm.2) hm.1⟩

lemma of_placed {imageHeight : ℕ} (hz : z.Built) (hpow : z.columns = 2 ^ z.columnsBits)
    (hrow : v.row < z.rowsPerHalf) (hin : v.Inside z imageHeight) (hplaced : ∀ s < z.panels, v.Placed z s)
    (hfetched : ∀ before, Fetched z gamma v { f with buffers := before }
      ({ f with buffers := before }.fetch z gamma v ps) (List.range z.total)) :
    RowShown z gamma v f ps := by
  have hword {s h k : ℕ} (hs : s < z.panels) (hh : h < 2) (hk : k < z.columns) :
      (v.address z (z.index s h k)).word = v.imageWord z s h k :=
    (hin.word_iff hpow hrow hs hk hh).mpr
      ((hin.placed_iff hpow hrow hs hz.columns).mpr (hplaced s hs) h hh k hk)
  have hasked := (hfetched f.buffers).asked
  change (f.fetch z gamma v ps).asked = _ at hasked
  refine ⟨?_, ?_, ?_⟩
  · intro before s order outputBit hidle o ho c hc k hk
    have hpanel : o * 2 ^ z.chainLength2 + c < z.panels := by
      calc o * 2 ^ z.chainLength2 + c < (o + 1) * 2 ^ z.chainLength2 := by
            rw [Nat.add_one_mul]
            omega
        _ ≤ z.nOutputs * 2 ^ z.chainLength2 := Nat.mul_le_mul_right _ ho
        _ = z.panels := Nat.mul_comm _ _
    have hread {h : ℕ} (hh : h < 2) : v.Shows z gamma (o * 2 ^ z.chainLength2 + c) h k
        (({ f with buffers := before }.fetch z gamma v ps).buffers o
          (2 * (c * z.columns + k) + h)) := by
      have hlt := index_lt hpow hpanel hk hh
      have hlen : z.index (o * 2 ^ z.chainLength2 + c) h k < (List.range z.total).length := by
        rwa [List.length_range]
      have hfilled := (hfetched before).filled (Or.inl hpow) _ hlen
      rw [outputOf_index (hpow ▸ hk) hh hc, addressOf_index (hpow ▸ hk) hh hc, ← hpow,
        List.getD_eq_getElem _ _ hlen, List.getElem_range] at hfilled
      rw [hfilled, RowSettings.Shows, ← hword hpanel hh hk]
      exact ⟨rfl, rfl⟩
    exact ⟨_, _, hidle.shifted_at (clock_lt hc hk), hread (show 0 < 2 by decide),
      hread (show 1 < 2 by decide)⟩
  · intro a ha
    rw [hasked, List.mem_map] at ha
    obtain ⟨m, hm, rfl⟩ := ha
    have hlt := List.mem_range.mp hm
    rw [total_eq, hpow] at hlt
    refine Nat.div_lt_of_lt_mul (hlt.trans_le (le_of_eq ?_))
    rw [Nat.pow_succ]
    ring
  · intro s hs
    rw [hasked, List.filter_map, List.map_map]
    refine ((filter_panelOf hpow hs).map fun m => (v.address z m).word).trans (List.Perm.of_eq ?_)
    rw [List.map_map]
    apply List.map_congr_left
    rintro ⟨h, k⟩ hm
    rw [mem_places] at hm
    exact hword hs hm.1 hm.2

end RowShown

namespace RowFetch

open RowShown PanelSize

variable {z : PanelSize} {gamma : BitVec 8 → BitVec 8} {v : RowSettings} {f : RowFetch}
  {ps : List PortCycle}

/-- From a reader between rows, whatever its port's pace: enough open cycles end the fetch, and a
fetch that has ended shows the image exactly when columns are a power of two, every panel is within
the offsets' reach, and the port was ready for the last two addresses in their own cycle. -/
theorem shown_iff {imageHeight : ℕ} (hz : z.Built) (hrow : v.row < z.rowsPerHalf)
    (hin : v.Inside z imageHeight) (hidle : f.reader.Idle z) (hasked : f.asked = []) (hps : ps ≠ []) :
    (2 * z.total + 6 ≤ (ps.tail.filter fun p => Open p).length →
        (f.fetch z gamma v ps).reader.done = true) ∧
      ((f.fetch z gamma v ps).reader.done = true → (f.fetch z gamma v ps).reader.Idle z ∧
        (RowShown z gamma v f ps ↔ z.columns = 2 ^ z.columnsBits ∧
          (∀ s < z.panels, v.Placed z s) ∧ AllKept z gamma v f ps)) := by
  constructor
  · cases ps with
    | nil => exact absurd rfl hps
    | cons p ps => exact fetch_done hz hidle hasked p ps
  intro hdone
  have hfetched (before : ℕ → ℕ → Pixel) : ∃ taken, Fetched z gamma v { f with buffers := before }
      ({ f with buffers := before }.fetch z gamma v ps) taken ∧
        (taken = List.range z.total ↔ AllKept z gamma v f ps) := by
    rw [← allKept_before f before ps]
    refine fetched (f := { f with buffers := before }) hz hidle hasked hps ?_
    obtain ⟨after, hafter⟩ := f.fetch_before (z := z) (v := v) before ps
    rw [hafter]
    exact hdone
  obtain ⟨taken, hf, -⟩ := hfetched f.buffers
  refine ⟨hf.idle, ?_⟩
  constructor
  · intro hr
    have hpow : z.columns = 2 ^ z.columnsBits := by
      by_cases hone : z.panels = 1
      · exact (hr.last_written hz (Or.inr hone) hfetched).1
      · exact hr.last_short hz hone hf
    have hkept := (hr.last_written hz (Or.inl hpow) hfetched).2
    refine ⟨hpow, fun s hs => ?_, hkept⟩
    rw [← hin.placed_iff hpow hrow hs hz.columns]
    intro h hh k hk
    rw [← hin.word_iff hpow hrow hs hk hh]
    obtain ⟨taken, hf, hall⟩ := hfetched f.buffers
    obtain rfl := hall.mpr hkept
    have hlt := index_lt hpow hs hk hh
    have hlen : z.index s h k < (List.range z.total).length := by rwa [List.length_range]
    have hfilled := hf.filled (Or.inl hpow) _ hlen
    have hchain : s % 2 ^ z.chainLength2 < 2 ^ z.chainLength2 := Nat.mod_lt _ (Nat.two_pow_pos _)
    have hsplit : s / 2 ^ z.chainLength2 * 2 ^ z.chainLength2 + s % 2 ^ z.chainLength2 = s :=
      Nat.div_add_mod' s _
    have hout : s / 2 ^ z.chainLength2 < z.nOutputs := Nat.div_lt_of_lt_mul hs
    have hshows := hr.shows f.buffers hout hchain hk hh
    rw [← hsplit, outputOf_index (hpow ▸ hk) hh hchain, addressOf_index (hpow ▸ hk) hh hchain, ← hpow,
      List.getD_eq_getElem _ _ (hsplit.symm ▸ hlen), List.getElem_range] at hfilled
    rw [hfilled, hsplit] at hshows
    exact hshows.1
  · rintro ⟨hpow, hplaced, hkept⟩
    refine of_placed hz hpow hrow hin hplaced fun before => ?_
    obtain ⟨taken, hf, hall⟩ := hfetched before
    obtain rfl := hall.mpr hkept
    exact hf

/-- A reader between rows, and `n` cycles of a port that takes and gives. -/
def between : RowFetch where
  reader := { paletteDataDone := true, gammaDataDone := true, bufferDone := true }

def openCycles (n : ℕ) : List PortCycle := List.replicate n ⟨true, true⟩

lemma between_idle (z : PanelSize) : between.reader.Idle z :=
  ⟨rfl, rfl, rfl, rfl, rfl, rfl, rfl, rfl, rfl, rfl, rfl, rfl,
    fun _ _ hwe => absurd hwe Bool.false_ne_true⟩

lemma openCycles_length (n : ℕ) : ((openCycles n).filter fun p => Open p).length = n := by
  rw [openCycles, List.filter_replicate, if_pos (by decide), List.length_replicate]

/-- Upright panels one above the other. -/
def stacked (width : BitVec 16) (rows : ℕ) : RowSettings where
  row := 0
  usePalette := false
  imageWidth := width
  panelConfig s := { y := BitVec.ofNat 8 (s * rows / 16) }
  fbBase := sdramOffset.setWidth 20
  ram := id
  palette _ := 0

theorem shown_small :
    RowShown ⟨2, 1, 0, 1⟩ id (stacked 2 16) between (openCycles 15) := by
  have hin : (stacked 2 16).Inside ⟨2, 1, 0, 1⟩ 2 := by decide
  have h : (_ → _) ∧ (_ → _ ∧
      (RowShown ⟨2, 1, 0, 1⟩ id (stacked 2 16) between (openCycles 15) ↔ _)) :=
    shown_iff ⟨by decide, by decide⟩ (by decide) hin (between_idle _) rfl (by decide)
  refine ((h.2 (h.1 ?_)).2).mpr ⟨by decide, ?_, by decide +kernel⟩
  · change _ ≤ ((openCycles 14).filter fun p => Open p).length
    rw [openCycles_length]
    decide
  · intro s hs
    exact show 1 + 0 < 128 by decide

/-- The default build does not show its own panels. -/
theorem not_shown_default : (⟨96, 24, 0, 8⟩ : PanelSize).Built ∧
    (stacked 96 48).Inside ⟨96, 24, 0, 8⟩ 384 ∧ between.reader.Idle ⟨96, 24, 0, 8⟩ ∧
    (between.fetch ⟨96, 24, 0, 8⟩ id (stacked 96 48) (openCycles 3079)).reader.done = true ∧
    ¬ RowShown ⟨96, 24, 0, 8⟩ id (stacked 96 48) between (openCycles 3079) := by
  have hz : (⟨96, 24, 0, 8⟩ : PanelSize).Built := ⟨by decide, by decide⟩
  have hdone : (between.fetch ⟨96, 24, 0, 8⟩ id (stacked 96 48) (openCycles 3079)).reader.done = true := by
    apply fetch_done hz (between_idle _) rfl ⟨true, true⟩ (openCycles 3078)
    rw [openCycles_length]
    decide
  refine ⟨hz, by decide, between_idle _, hdone, fun hr => ?_⟩
  obtain ⟨taken, hf, -⟩ := fetched hz (between_idle _) rfl (show openCycles 3079 ≠ [] by decide) hdone
  exact absurd (hr.last_short hz (by decide) hf) (by decide)

end RowFetch

end Ledwall.Gateware
