import Ledwall.Gateware.RegisterTrain
import Ledwall.Gateware.ShiftClock

/-! A frame of S-PWM panels, clock by clock: what LAT and the colour lines of every connector do from
its first clock to its last, and that it shows every pixel once. -/

namespace Ledwall.Gateware.Spwm

open Library.Runs Library.Scripts

/-- LAT, and the colour lines of every connector, in one clock. -/
structure PanelClock (z : Shape) (n : ℕ) where
  lat : Bool := false
  rgb : Fin n → z.Channels → Bool

/-- What the connectors are to show: by row and column, the value of each channel. -/
abbrev Picture (z : Shape) (n : ℕ) := Fin n → ℕ → ℕ → z.Channels → BitVec z.greyBits

section Frame

variable {z : Shape} {n : ℕ} (v : Settings)

/-- The row that is shown at a frame's sweep `j`. -/
def shownRow (z : Shape) (c : OutputConfig) (j : ℕ) : ℕ := (j + c.sweepAdv.toNat) / 16 % z.rowsPerFrame

/-- The channel of each chip that is shown at sweep `j`. -/
def shownChan (c : OutputConfig) (j : ℕ) : ℕ :=
  let a := (j + c.sweepAdv.toNat) % 16
  (if c.chanRev then 15 - a else a) ^^^ c.chanXor.toNat

/-- The word for a chip, counted along the chain, in a sweep. -/
def word (c : OutputConfig) (pic : Picture z n) (k : Fin n) (j s : ℕ) (ch : z.Channels) : BitVec 16 :=
  (pic k (shownRow z c j) (CHANNELS_PER_CHIP * s + shownChan c j) ch).setWidth 16

lemma lane_lt {z : Shape} (ch : z.Channels) : (ch : ℕ) % 3 < 3 := Nat.mod_lt _ (Nat.succ_pos 2)

/-- The train is on every connector, each group with all three lanes. -/
def trainClock (t : TrainClock) : PanelClock z n := ⟨t.lat, fun _ ch => t.lanes ⟨ch % 3, lane_lt ch⟩⟩

/-- The extra latches, as far apart as those of the sweeps. -/
def phases (c : OutputConfig) (ρ : Fin n → z.Channels → Bool) : List (PanelClock z n) :=
  (List.range c.latchPhase.toNat).flatMap fun _ =>
    List.replicate 15 { rgb := ρ } ++ [{ lat := true, rgb := ρ }]

/-- A word for each chip, most significant bit first, with LAT on the very last bit. -/
def sweep (c : OutputConfig) (pic : Picture z n) (j : ℕ) : List (PanelClock z n) :=
  (List.range z.sections).flatMap fun s => (List.range 16).map fun b =>
    { lat := c.dataLatchEn && decide (s + 1 = z.sections) && decide (b = 15)
      rgb := fun k ch => (word c pic k j s ch).getMsbD b }

/-- The lines as the last word leaves them. -/
def lastLines (c : OutputConfig) (pic : Picture z n) : Fin n → z.Channels → Bool :=
  fun k ch => (word c pic k (16 * z.rowsPerFrame - 1) (z.sections - 1) ch).getMsbD 15

/-- The frame that shows a picture with register `r`'s turn, behind lines that were left at `ρ`. -/
def frame (r : ℕ) (ρ : Fin n → z.Channels → Bool) (pic : Picture z n) : List (PanelClock z n) :=
  { rgb := ρ } :: ((v.train.train z.columns r).map trainClock ++ ({ rgb := ρ } ::
    (phases v.output ρ ++ ({ rgb := ρ } :: { rgb := ρ } ::
      ((List.range (16 * z.rowsPerFrame)).flatMap (sweep v.output pic) ++
        [{ rgb := lastLines v.output pic }])))))

/-- The lines ahead of frame `k`. -/
def left (pics : ℕ → Picture z n) : ℕ → Fin n → z.Channels → Bool
  | 0 => fun _ _ => false
  | k + 1 => lastLines v.output (pics k)

/-- The frames of a run, each with its own register's turn. -/
def frames (pics : ℕ → Picture z n) (k : ℕ) : List (PanelClock z n) :=
  frame v (k % v.train.regCount.toNat) (left v pics k) (pics k)

end Frame

namespace Stage

variable {z : Shape} {n : ℕ} {v : Settings} {s : Stage z n} {ρ : Fin n → z.Channels → Bool}
  {r : BitVec 6} {pic : Picture z n}

/-- No word is in the serialisers, and the lines are as they were left. -/
def Empty (ρ : Fin n → z.Channels → Bool) (s : Stage z n) : Prop :=
  ∀ k, (s.outs k).ser.shifting = false ∧ (s.outs k).ser.channelsOut = ρ k

/-- The prefix is at rest and the serialisers are empty, with every connector where `P` says. -/
structure Still (ρ : Fin n → z.Channels → Bool) (r : BitVec 6) (P : Icn1065Output z → Prop)
    (s : Stage z n) : Prop where
  resting : s.train.Resting
  idle : s.train.fsm = .idle
  index : s.train.regIndex = r
  empty : Empty ρ s
  outs : ∀ k, P (s.outs k)

/-- The counters are those of the frame's first word. -/
structure AtFirst (o : Icn1065Output z) : Prop where
  sect : o.sect = 0
  chan : o.chan = 0
  row : o.row = 0

variable {P Q : Icn1065Output z → Prop} {i : StageInputs z n}

lemma Still.notBusy (h : Still ρ r P s) : s.train.busy = false := by
  simp [SpwmPrefix.busy, h.idle]

variable [NeZero n]

def clock (v : Settings) (s : Stage z n) : PanelClock z n :=
  ⟨(s.outs 0).lat v.output s.train, fun k => (s.outs k).rgb s.train⟩

/-- Where the serialiser of a connector takes a word, it is that of the pixel the connector asks for. -/
def Supplied (v : Settings) (pic : Picture z n) (s : Stage z n) (i : StageInputs z n) : Prop :=
  ∀ k, (s.outs k).ser.loading (s.outs k).run = true →
    i.pixIn k = pic k ((s.outs k).pixRow v.output) ((s.outs k).pixCol v.output)

/-- What the stage puts out from here, as long as it is supplied. -/
abbrev Emits (v : Settings) (pic : Picture z n) (Q : Stage z n → Prop) (s : Stage z n)
    (os : List (PanelClock z n)) : Prop :=
  Plays (fun s i => s.next v i) (clock v) (Supplied v pic) Q s os

/-- Of a still stage only an extra latch is seen. -/
lemma Still.clock (h : Still ρ r P s) :
    s.clock v = { lat := (s.outs 0).phaseLat, rgb := ρ } := by
  have hpre : s.train.lat = false := congrArg TrainClock.lat h.resting.clock
  have hdata : (s.outs 0).dataLat v.output = false := by
    simp [Icn1065Output.dataLat, Serialiser.lastBit, (h.empty 0).1]
  have hrgb (k : Fin n) : (s.outs k).rgb s.train = ρ k := by
    rw [Icn1065Output.rgb, h.notBusy, if_neg Bool.false_ne_true, (h.empty k).2]
  rw [Stage.clock, Icn1065Output.lat, hpre, hdata]
  simp only [hrgb, Bool.false_or]

lemma next_outs (s : Stage z n) (i : StageInputs z n) (k : Fin n) :
    (s.next v i).outs k = (s.outs k).next v.output s.train i.enabled (i.pixIn k) := rfl

/-- The serialiser runs on its own. -/
lemma next_ser (o : Icn1065Output z) (c : OutputConfig) (pre : SpwmPrefix) (start : Bool)
    (pixIn : z.Channels → BitVec z.greyBits) :
    (o.next c pre start pixIn).ser = o.ser.next o.run pixIn := by
  have hadvance (o' : Icn1065Output z) : o'.advance.ser = o'.ser := by
    rw [Icn1065Output.advance]
    split
    · split
      · split <;> rfl
      · rfl
    · rfl
  rw [Icn1065Output.next]
  split
  · split <;> rfl
  · split <;> rfl
  · rfl
  · split <;> rfl
  · split
    · rfl
    · split <;> rfl
  · split
    · exact hadvance _
    · rfl
  · split <;> rfl

/-- A connector with what its serialiser and its row scanner have gone on to. -/
def moved (o : Icn1065Output z) (c : OutputConfig) (pixIn : z.Channels → BitVec z.greyBits) :
    Icn1065Output z :=
  { o with
    ser := o.ser.next o.run pixIn
    scan := o.scan.next z.rowsPerFrame z.slotLen c.toRowPulses (!o.scan.busy) }

lemma next_pixels {o : Icn1065Output z} (h : o.fsm = .pixels) (c : OutputConfig) (pre : SpwmPrefix)
    (start : Bool) (pixIn : z.Channels → BitVec z.greyBits) : o.next c pre start pixIn =
      if o.ser.loading o.run then (moved o c pixIn).advance else moved o c pixIn := by
  simp only [Icn1065Output.next, moved, h]

lemma next_drain {o : Icn1065Output z} (h : o.fsm = .drain) (c : OutputConfig) (pre : SpwmPrefix)
    (start : Bool) (pixIn : z.Channels → BitVec z.greyBits) : o.next c pre start pixIn =
      if o.ser.busy then moved o c pixIn else { moved o c pixIn with fsm := .hold } := by
  simp only [Icn1065Output.next, moved, h]

lemma ser_empty (o : Serialiser z) (h : o.shifting = false) (pixIn : z.Channels → BitVec z.greyBits) :
    o.next false pixIn = o := by
  simp [Serialiser.next, Serialiser.loading, h]

lemma Empty.next (h : Empty ρ s) (hrun : ∀ k, (s.outs k).fsm ≠ .pixels) :
    Empty ρ (s.next v i) := by
  intro k
  have hser : ((s.next v i).outs k).ser = (s.outs k).ser := by
    rw [next_outs, next_ser, Icn1065Output.run, decide_eq_false (hrun k)]
    exact ser_empty _ (h k).1 _
  rw [hser]
  exact h k

/-- A clock in which every connector goes on by itself. -/
lemma Still.next (h : Still ρ r P s) (hfsm : ∀ o, P o → o.fsm ≠ .prefixReq ∧ o.fsm ≠ .pixels)
    (hnext : ∀ o pixIn, P o → Q (o.next v.output s.train i.enabled pixIn)) :
    Still ρ r Q (s.next v i) := by
  have hreq : (s.outs 0).prefixReq = false := decide_eq_false (hfsm _ (h.outs 0)).1
  have htrain : (s.next v i).train = s.train.next v.train z.columns false := by
    rw [Stage.next, hreq]
  refine ⟨?_, ?_, ?_, h.empty.next fun k => (hfsm _ (h.outs k)).2, fun k => hnext _ _ (h.outs k)⟩
  · rw [htrain]
    exact h.resting.next (by simp [h.idle]) (by simp [h.idle])
  · rw [htrain]
    simp [SpwmPrefix.next, h.idle]
  · rw [htrain]
    simpa [SpwmPrefix.next, h.idle] using h.index

section Ahead

/-- The connectors ask for the prefix. -/
structure Requesting (o : Icn1065Output z) : Prop extends AtFirst o where
  fsm : o.fsm = .prefixReq

structure Waiting (o : Icn1065Output z) : Prop extends AtFirst o where
  fsm : o.fsm = .prefixWait

/-- Of the extra latches `m` are to come, the next of them in `g` clocks. -/
structure Phasing (m : BitVec 4) (g : ℕ) (o : Icn1065Output z) : Prop extends AtFirst o where
  fsm : o.fsm = .phase
  phaseN : o.phaseN = m
  phaseGap : o.phaseGap = BitVec.ofNat 4 g

structure Starting (o : Icn1065Output z) : Prop extends AtFirst o where
  fsm : o.fsm = .pixels

lemma phaseLat_of_fsm {o : Icn1065Output z} (h : o.fsm ≠ .phase) : o.phaseLat = false := by
  simp [Icn1065Output.phaseLat, h]

/-- While the prefix sends its train the connectors wait, and the train is on their lines. -/
lemma train_on_lines {D : SpwmPrefix → Prop} {os : List TrainClock}
    (hplays : SpwmPrefix.Emits v.train z.columns D s.train os) (hbusy : ∀ o ∈ os, o.busy = true)
    (hempty : Empty ρ s) (hwait : ∀ k, Waiting (s.outs k)) :
    Emits v pic (fun t => D t.train ∧ Empty ρ t ∧ ∀ k, Waiting (t.outs k)) s (os.map trainClock) := by
  induction os generalizing s with
  | nil => exact ⟨hplays, hempty, hwait⟩
  | cons o os ih =>
    obtain ⟨hnow, hlater⟩ := hplays
    have hpre : s.train.busy = true := by
      rw [← hbusy o List.mem_cons_self, ← hnow]
      rfl
    refine ⟨?_, fun i _ => ih ?_ (fun o' ho' => hbusy o' (List.mem_cons_of_mem _ ho')) ?_ fun k => ?_⟩
    · have hdata : (s.outs 0).dataLat v.output = false := by
        simp [Icn1065Output.dataLat, (hwait 0).fsm]
      have hrgb (k : Fin n) : (s.outs k).rgb s.train =
          fun ch : z.Channels => o.lanes ⟨ch % 3, Nat.mod_lt _ (by decide)⟩ := by
        rw [Icn1065Output.rgb, if_pos hpre, ← hnow]
        rfl
      have hlat : s.train.lat = o.lat := congrArg TrainClock.lat hnow
      rw [Stage.clock, Icn1065Output.lat, hdata, phaseLat_of_fsm (by simp [(hwait 0).fsm]), hlat]
      simp only [hrgb, Bool.or_false]
      rfl
    · have hreq : (s.outs 0).prefixReq = false := by simp [Icn1065Output.prefixReq, (hwait 0).fsm]
      have htrain : (s.next v i).train = s.train.next v.train z.columns false := by
        rw [Stage.next, hreq]
      change SpwmPrefix.Emits v.train z.columns D (s.next v i).train os
      rw [htrain]
      exact hlater false trivial
    · exact hempty.next fun k => by simp [(hwait k).fsm]
    · obtain ⟨⟨hsect, hchan, hrow⟩, hfsm⟩ := hwait k
      constructor
      · constructor <;> simp [Stage.next, Icn1065Output.next, hfsm, hpre, hsect, hchan, hrow]
      · simp [Stage.next, Icn1065Output.next, hfsm, hpre]

lemma busy_of_mem_train {c : PrefixConfig} {blockLen : ℕ} {o : TrainClock} (h : o ∈ c.train blockLen r.toNat) :
    o.busy = true := by
  rw [PrefixConfig.train, List.mem_append, List.mem_flatMap, List.mem_flatMap] at h
  rcases h with ⟨m, -, hm⟩ | ⟨j, -, hj⟩
  · simp only [command, List.mem_cons, List.mem_append, List.mem_replicate, List.not_mem_nil,
      or_false] at hm
    rcases hm with rfl | ⟨-, rfl⟩ | ⟨-, rfl⟩ | rfl <;> rfl
  · simp only [block, List.mem_cons, List.mem_append, List.mem_map, List.mem_range, List.not_mem_nil,
      or_false] at hj
    rcases hj with rfl | ⟨t, -, rfl⟩ | rfl <;> rfl

/-- The request, the train, and the clock in which the connectors see its end. -/
lemma prefix_plays (hc : v.train.Usable) (hcolumns : 0 < z.columns) (h : Still ρ r Requesting s) :
    Emits v pic (Still ρ (SpwmPrefix.succIndex v.train r) (Phasing v.output.latchPhase 15)) s
      ({ rgb := ρ } :: ((v.train.train z.columns r.toNat).map trainClock ++ [{ rgb := ρ }])) := by
  refine ⟨?_, fun i _ => ?_⟩
  · rw [h.clock, phaseLat_of_fsm (by simp [(h.outs 0).fsm])]
  have hreq : (s.outs 0).prefixReq = true := by simp [Icn1065Output.prefixReq, (h.outs 0).fsm]
  have htrain : (s.next v i).train = s.train.next v.train z.columns true := by rw [Stage.next, hreq]
  have hbegin : SpwmPrefix.Commands v.train r 0 (s.next v i).train := by
    rw [htrain, ← h.index]
    refine ⟨h.resting.next (by simp [h.idle]) (by simp [h.idle]), ?_, ?_, ?_⟩
    · simp [SpwmPrefix.next, h.idle]
    · simp [SpwmPrefix.next, h.idle]
    · rw [SpwmPrefix.commands_length, if_pos (by split <;> decide)]
      simp [SpwmPrefix.next, h.idle]
  have hwait (k : Fin n) : Waiting ((s.next v i).outs k) := by
    obtain ⟨⟨hsect, hchan, hrow⟩, hfsm⟩ := h.outs k
    constructor
    · constructor <;> simp [Stage.next, Icn1065Output.next, hfsm, hsect, hchan, hrow]
    · simp [Stage.next, Icn1065Output.next, hfsm]
  refine (train_on_lines (SpwmPrefix.train_plays hc hcolumns hbegin) (fun o ho => busy_of_mem_train ho)
    (h.empty.next fun k => by simp [(h.outs k).fsm]) hwait).append fun t ht => ?_
  obtain ⟨⟨hresting, hidle, hindex⟩, hempty, hwaiting⟩ := ht
  have hstill : Still ρ (SpwmPrefix.succIndex v.train r) Waiting t := ⟨hresting, hidle, hindex, hempty, hwaiting⟩
  refine .one ?_ fun i _ => hstill.next (fun o ho => by simp [ho.fsm]) fun o pixIn ho => ?_
  · rw [hstill.clock, phaseLat_of_fsm (by simp [(hstill.outs 0).fsm])]
  · obtain ⟨⟨hsect, hchan, hrow⟩, hfsm⟩ := ho
    have hnot := hstill.notBusy
    constructor
    · constructor <;> simp [Icn1065Output.next, hfsm, hnot, hsect, hchan, hrow]
    · simp [Icn1065Output.next, hfsm, hnot]
    · simp [Icn1065Output.next, hfsm, hnot]
    · simp [Icn1065Output.next, hfsm, hnot]

/-- Fifteen clocks and a latch. -/
lemma phase_plays {m : ℕ} (hm : 0 < m) (hlt : m < 16) (h : Still ρ r (Phasing (BitVec.ofNat 4 m) 15) s) :
    Emits v pic (Still ρ r (Phasing (BitVec.ofNat 4 (m - 1)) 15)) s
      (List.replicate 15 { rgb := ρ } ++ [{ lat := true, rgb := ρ }]) := by
  have hne : BitVec.ofNat 4 m ≠ 0 := by
    rw [Ne, ← BitVec.toNat_inj, BitVec.toNat_ofNat]
    change ¬ m % 16 = 0
    omega
  refine (Plays.replicate (I := fun g => Still ρ r (Phasing (BitVec.ofNat 4 m) (15 - g))) ?_ h).append ?_
  · intro g hg t ht
    have hgap : BitVec.ofNat 4 (15 - g) ≠ 0 := by
      rw [Ne, ← BitVec.toNat_inj, BitVec.toNat_ofNat]
      change ¬ (15 - g) % 16 = 0
      omega
    have hsub : BitVec.ofNat 4 (15 - g) - 1 = BitVec.ofNat 4 (15 - (g + 1)) := by
      apply BitVec.eq_of_toNat_eq
      rw [BitVec.toNat_sub, BitVec.toNat_ofNat, BitVec.toNat_ofNat]
      change (16 - 1 + (15 - g) % 16) % 16 = (15 - (g + 1)) % 16
      omega
    refine ⟨?_, fun i _ => ht.next (fun o ho => by simp [ho.fsm]) fun o pixIn ho => ?_⟩
    · have hlat : (t.outs 0).phaseLat = false := by
        simp only [Icn1065Output.phaseLat, (ht.outs 0).phaseGap, Bool.and_eq_false_iff]
        exact .inr (beq_eq_false_iff_ne.mpr hgap)
      rw [ht.clock, hlat]
    · obtain ⟨⟨hsect, hchan, hrow⟩, hfsm, hphaseN, hphaseGap⟩ := ho
      rw [← hphaseN] at hne
      rw [← hphaseGap] at hgap
      have hnext : o.next v.output t.train i.enabled pixIn =
          { o with ser := (o.next v.output t.train i.enabled pixIn).ser, scan := (o.next v.output t.train i.enabled pixIn).scan,
                   phaseGap := o.phaseGap - 1 } := by
        simp only [Icn1065Output.next, hfsm, if_neg hne, if_neg hgap]
      rw [hnext]
      exact ⟨⟨hsect, hchan, hrow⟩, hfsm, hphaseN, by rw [← hsub, ← hphaseGap]⟩
  · intro t ht
    refine .one ?_ fun i _ => ht.next (fun o ho => by simp [ho.fsm]) fun o pixIn ho => ?_
    · have hlat : (t.outs 0).phaseLat = true := by
        simp [Icn1065Output.phaseLat, (ht.outs 0).fsm, (ht.outs 0).phaseN, (ht.outs 0).phaseGap]
        exact hne
      rw [ht.clock, hlat]
    · obtain ⟨⟨hsect, hchan, hrow⟩, hfsm, hphaseN, hphaseGap⟩ := ho
      rw [← hphaseN] at hne
      have hgap : o.phaseGap = 0 := hphaseGap
      have hnext : o.next v.output t.train i.enabled pixIn =
          { o with ser := (o.next v.output t.train i.enabled pixIn).ser, scan := (o.next v.output t.train i.enabled pixIn).scan,
                   phaseGap := 15, phaseN := o.phaseN - 1 } := by
        simp only [Icn1065Output.next, hfsm, if_neg hne, if_pos hgap]
      have hsub : BitVec.ofNat 4 m - 1 = BitVec.ofNat 4 (m - 1) := by
        apply BitVec.eq_of_toNat_eq
        rw [BitVec.toNat_sub, BitVec.toNat_ofNat, BitVec.toNat_ofNat]
        change (16 - 1 + m % 16) % 16 = (m - 1) % 16
        omega
      rw [hnext]
      exact ⟨⟨hsect, hchan, hrow⟩, hfsm, by rw [← hsub, ← hphaseN], rfl⟩

/-- The extra latches, and the clock behind them. -/
lemma phases_play (h : Still ρ r (Phasing v.output.latchPhase 15) s) :
    Emits v pic (Still ρ r Starting) s (phases v.output ρ ++ [{ rgb := ρ }]) := by
  have hlt := v.output.latchPhase.isLt
  have hphases : Emits v pic (Still ρ r (Phasing 0 15)) s (phases v.output ρ) := by
    refine (Plays.flatMap (I := fun j =>
      Still ρ r (Phasing (BitVec.ofNat 4 (v.output.latchPhase.toNat - j)) 15)) ?_ ?_).mono ?_
    · intro k j hk t ht
      obtain ⟨hlt', rfl⟩ : k < v.output.latchPhase.toNat ∧ k = j := by
        simpa [List.getElem?_eq_some_iff] using hk
      have hplays : Emits v pic _ t _ := phase_plays (by omega) (by omega) ht
      rwa [Nat.sub_sub] at hplays
    · rwa [Nat.sub_zero, BitVec.ofNat_toNat, BitVec.setWidth_eq]
    · intro t ht
      rwa [List.length_range, Nat.sub_self] at ht
  refine hphases.append fun t ht => .one ?_ fun i _ =>
    ht.next (fun o ho => by simp [ho.fsm]) fun o pixIn ho => ?_
  · have hlat : (t.outs 0).phaseLat = false := by
      simp [Icn1065Output.phaseLat, (ht.outs 0).phaseN]
    rw [ht.clock, hlat]
  · obtain ⟨⟨hsect, hchan, hrow⟩, hfsm, hphaseN, -⟩ := ho
    have hnext : o.next v.output t.train i.enabled pixIn =
        { o with ser := (o.next v.output t.train i.enabled pixIn).ser, scan := (o.next v.output t.train i.enabled pixIn).scan,
                 fsm := .pixels } := by
      simp [Icn1065Output.next, hfsm, hphaseN]
    rw [hnext]
    exact ⟨⟨hsect, hchan, hrow⟩, rfl⟩

end Ahead

section Pixels

/-- The counters are at a sweep's word for a chip, or the frame's words have all been taken. -/
def Counts (j s : ℕ) (o : Icn1065Output z) : Prop :=
  if j < 16 * z.rowsPerFrame then
    o.fsm = .pixels ∧ o.sect = s ∧ o.chan = BitVec.ofNat 4 (j % 16) ∧ o.row = j / 16
  else o.fsm = .drain ∧ o.sect = 0

/-- The counters behind a word that has been taken. -/
def CountsNext (j s : ℕ) (o : Icn1065Output z) : Prop :=
  if s + 1 < z.sections then Counts j (s + 1) o else Counts (j + 1) 0 o

/-- Bit `b` of a word is on the lines. -/
structure Sending (v : Settings) (pic : Picture z n) (r : BitVec 6) (j s b : ℕ) (t : Stage z n) : Prop where
  resting : t.train.Resting
  idle : t.train.fsm = .idle
  index : t.train.regIndex = r
  ser : ∀ k, (t.outs k).ser =
    { shifting := true, shifts := fun ch => word v.output pic k j s ch <<< b, count := BitVec.ofNat 5 (16 - b) }
  counts : ∀ k, CountsNext j s (t.outs k)

variable {j c b : ℕ} {o : Icn1065Output z}

lemma pixRow_eq (hj : j < 16 * z.rowsPerFrame) (hchan : o.chan = BitVec.ofNat 4 (j % 16))
    (hrow : o.row = j / 16) : o.pixRow v.output = shownRow z v.output j := by
  have hadv := v.output.sweepAdv.isLt
  have hsum : (o.advSum v.output).toNat = j % 16 + v.output.sweepAdv.toNat := by
    rw [Icn1065Output.advSum, hchan, BitVec.toNat_add, BitVec.toNat_setWidth, BitVec.toNat_setWidth,
      BitVec.toNat_ofNat]
    omega
  have hcarry : o.sweepCarry v.output = decide (16 ≤ j % 16 + v.output.sweepAdv.toNat) := by
    rw [Icn1065Output.sweepCarry, BitVec.msb_eq_decide, hsum]
  rw [Icn1065Output.pixRow, hcarry, hrow, shownRow]
  by_cases hover : 16 ≤ j % 16 + v.output.sweepAdv.toNat
  · rw [decide_eq_true hover, if_pos rfl, show (j + v.output.sweepAdv.toNat) / 16 = j / 16 + 1 by omega]
    split
    · next hlast => rw [hlast, Nat.sub_add_cancel (by omega), Nat.mod_self]
    · exact (Nat.mod_eq_of_lt (by omega)).symm
  · rw [decide_eq_false hover, if_neg Bool.false_ne_true,
      show (j + v.output.sweepAdv.toNat) / 16 = j / 16 by omega]
    exact (Nat.mod_eq_of_lt (by omega)).symm

lemma chanEff_eq (hchan : o.chan = BitVec.ofNat 4 (j % 16)) :
    (o.chanEff v.output).toNat = shownChan v.output j := by
  have hadv := v.output.sweepAdv.isLt
  have ha : (o.chanA v.output).toNat = (j + v.output.sweepAdv.toNat) % 16 := by
    rw [Icn1065Output.chanA, Icn1065Output.advSum, hchan, BitVec.toNat_setWidth, BitVec.toNat_add,
      BitVec.toNat_setWidth, BitVec.toNat_setWidth, BitVec.toNat_ofNat]
    omega
  rw [Icn1065Output.chanEff, shownChan, BitVec.toNat_xor]
  congr 1
  cases v.output.chanRev with
  | false => exact ha
  | true =>
    rw [if_pos rfl, if_pos rfl, BitVec.toNat_not, ha]

lemma pixCol_eq (hsect : o.sect = c) (hchan : o.chan = BitVec.ofNat 4 (j % 16)) :
    o.pixCol v.output = CHANNELS_PER_CHIP * c + shownChan v.output j := by
  rw [Icn1065Output.pixCol, hsect, chanEff_eq hchan]

/-- Taking a word moves the counters on. -/
lemma counts_advance (hj : j < 16 * z.rowsPerFrame) (hc : c < z.sections) (hfsm : o.fsm = .pixels)
    (hsect : o.sect = c) (hchan : o.chan = BitVec.ofNat 4 (j % 16)) (hrow : o.row = j / 16) :
    CountsNext j c o.advance := by
  have hlast : o.chan = 15 ↔ j % 16 = 15 := by
    rw [hchan, ← BitVec.toNat_inj, BitVec.toNat_ofNat]
    change j % 16 % 16 = 15 ↔ _
    omega
  have hsucc (hmore : j % 16 ≠ 15) : o.chan + 1 = BitVec.ofNat 4 ((j + 1) % 16) := by
    rw [hchan, show (j + 1) % 16 = j % 16 + 1 by omega, BitVec.ofNat_add]
    rfl
  rw [CountsNext, Icn1065Output.advance, hsect]
  by_cases hmore : c + 1 < z.sections
  · rw [if_pos hmore, if_neg (by omega), Counts, if_pos hj]
    exact ⟨hfsm, rfl, hchan, hrow⟩
  · rw [if_neg hmore, if_pos (by omega), Counts]
    by_cases hend : j % 16 = 15
    · rw [if_pos (hlast.mpr hend), hrow]
      by_cases hover : j + 1 < 16 * z.rowsPerFrame
      · rw [if_pos hover, if_neg (by omega)]
        refine ⟨hfsm, rfl, ?_, ?_⟩
        · rw [show (j + 1) % 16 = 0 by omega]
          rfl
        · change j / 16 + 1 = _
          omega
      · rw [if_neg hover, if_pos (by omega)]
        exact ⟨rfl, rfl⟩
    · rw [if_neg (fun h => hend (hlast.mp h)), if_pos (by omega)]
      refine ⟨hfsm, rfl, hsucc hend, ?_⟩
      change o.row = _
      omega

/-- The prefix stays at rest as long as nobody asks for it. -/
lemma train_rests {t : Stage z n} (hresting : t.train.Resting) (hidle : t.train.fsm = .idle)
    (hindex : t.train.regIndex = r) (hreq : (t.outs 0).fsm ≠ .prefixReq) :
    (t.next v i).train.Resting ∧ (t.next v i).train.fsm = .idle ∧ (t.next v i).train.regIndex = r := by
  have htrain : (t.next v i).train = t.train.next v.train z.columns false := by
    rw [Stage.next, Icn1065Output.prefixReq, decide_eq_false hreq]
  rw [htrain]
  refine ⟨hresting.next (by simp [hidle]) (by simp [hidle]), ?_, ?_⟩
  · simp [SpwmPrefix.next, hidle]
  · simpa [SpwmPrefix.next, hidle] using hindex

/-- The serialisers take the next word. -/
lemma load {t : Stage z n} (hresting : t.train.Resting) (hidle : t.train.fsm = .idle)
    (hindex : t.train.regIndex = r) (hj : j < 16 * z.rowsPerFrame) (hc : c < z.sections)
    (hcounts : ∀ k, Counts j c (t.outs k)) (hload : ∀ k, (t.outs k).ser.loading true = true)
    (hsupplied : Supplied v pic t i) : Sending v pic r j c 0 (t.next v i) := by
  have hpixels (k : Fin n) : (t.outs k).fsm = .pixels ∧ (t.outs k).sect = c ∧
      (t.outs k).chan = BitVec.ofNat 4 (j % 16) ∧ (t.outs k).row = j / 16 := by
    have h := hcounts k
    rwa [Counts, if_pos hj] at h
  have hrun (k : Fin n) : (t.outs k).run = true := by simp [Icn1065Output.run, (hpixels k).1]
  obtain ⟨hresting', hidle', hindex'⟩ := train_rests (v := v) (i := i) hresting hidle hindex
    (by simp [(hpixels 0).1])
  refine ⟨hresting', hidle', hindex', fun k => ?_, fun k => ?_⟩
  · obtain ⟨hfsm, hsect, hchan, hrow⟩ := hpixels k
    have hpix := hsupplied k (by rw [hrun k]; exact hload k)
    rw [pixRow_eq hj hchan hrow, pixCol_eq hsect hchan] at hpix
    rw [next_outs, next_ser, hrun k, Serialiser.next, if_pos (hload k), hpix]
    simp only [BitVec.shiftLeft_zero]
    rfl
  · obtain ⟨hfsm, hsect, hchan, hrow⟩ := hpixels k
    rw [next_outs, next_pixels hfsm, if_pos (by rw [hrun k]; exact hload k)]
    exact counts_advance hj hc hfsm hsect hchan hrow

/-- Whether the counters have gone on to the next sweep. -/
lemma sect_eq (hj : j < 16 * z.rowsPerFrame) (h : CountsNext j c o) :
    (o.fsm = .pixels ∨ o.fsm = .drain) ∧ (c < z.sections → (o.sect = 0 ↔ c + 1 = z.sections)) := by
  rw [CountsNext] at h
  split at h
  · rw [Counts, if_pos hj] at h
    obtain ⟨hfsm, hsect, -⟩ := h
    exact ⟨.inl hfsm, fun _ => by omega⟩
  · rw [Counts] at h
    split at h
    · obtain ⟨hfsm, hsect, -⟩ := h
      exact ⟨.inl hfsm, fun _ => by omega⟩
    · obtain ⟨hfsm, hsect⟩ := h
      exact ⟨.inr hfsm, fun _ => by omega⟩

/-- A word's last bit, as its counter tells. -/
lemma count_eq (hb : b < 16) : (BitVec.ofNat 5 (16 - b) == 1) = decide (b = 15) := by
  rw [Bool.eq_iff_iff, beq_iff_eq, decide_eq_true_iff, ← BitVec.toNat_inj, BitVec.toNat_ofNat]
  change (16 - b) % 32 = 1 ↔ _
  omega

/-- The lines while a word goes out. -/
lemma Sending.clock {t : Stage z n} (h : Sending v pic r j c b t) (hb : b < 16)
    (hj : j < 16 * z.rowsPerFrame) (hc : c < z.sections) :
    t.clock v = { lat := v.output.dataLatchEn && decide (c + 1 = z.sections) && decide (b = 15)
                  rgb := fun k ch => (word v.output pic k j c ch).getMsbD b } := by
  obtain ⟨hfsm, hsect⟩ := sect_eq hj (h.counts 0)
  have hpre : t.train.lat = false := congrArg TrainClock.lat h.resting.clock
  have hbusy : t.train.busy = false := by simp [SpwmPrefix.busy, h.idle]
  have hphase : (t.outs 0).phaseLat = false := by
    rcases hfsm with hfsm | hfsm <;> exact phaseLat_of_fsm (by simp [hfsm])
  have hlast : (t.outs 0).ser.lastBit = decide (b = 15) := by
    rw [Serialiser.lastBit, h.ser 0, Bool.true_and, count_eq hb]
  have hzero : ((t.outs 0).sect == 0) = decide (c + 1 = z.sections) := by
    rw [Bool.eq_iff_iff, beq_iff_eq, decide_eq_true_iff]
    exact hsect hc
  have hrgb (k : Fin n) : (t.outs k).rgb t.train = fun ch => (word v.output pic k j c ch).getMsbD b := by
    rw [Icn1065Output.rgb, hbusy, if_neg Bool.false_ne_true, h.ser k]
    funext ch
    exact BitVec.msb_shiftLeft
  rw [Stage.clock, Icn1065Output.lat, hpre, hphase, Icn1065Output.dataLat, hlast, hzero, decide_eq_true hfsm]
  simp only [hrgb, Bool.false_or, Bool.or_false, Bool.and_true, Bool.and_assoc, Bool.and_comm (decide (b = 15))]

/-- Before a word's last bit. -/
lemma Sending.next {t : Stage z n} (h : Sending v pic r j c b t) (hb : b < 15)
    (hj : j < 16 * z.rowsPerFrame) : Sending v pic r j c (b + 1) (t.next v i) := by
  have hfsm (k : Fin n) := (sect_eq hj (h.counts k)).1
  have hreq : (t.outs 0).fsm ≠ .prefixReq := by
    rcases hfsm 0 with hfsm | hfsm <;> simp [hfsm]
  obtain ⟨hresting, hidle, hindex⟩ := train_rests (v := v) (i := i) h.resting h.idle h.index hreq
  have hcount (k : Fin n) : ((t.outs k).ser.count == 1) = false := by
    rw [h.ser k, count_eq (by omega), decide_eq_false (by omega)]
  have hshift (k : Fin n) : (t.outs k).ser.shifting = true := by rw [h.ser k]
  have hload (k : Fin n) (run : Bool) : (t.outs k).ser.loading run = false := by
    rw [Serialiser.loading, hshift k, hcount k]
    cases run <;> rfl
  refine ⟨hresting, hidle, hindex, fun k => ?_, fun k => ?_⟩
  · have hne : (t.outs k).ser.count ≠ 1 := beq_eq_false_iff_ne.mp (hcount k)
    rw [next_outs, next_ser, Serialiser.next, hload k, if_neg Bool.false_ne_true, hshift k, if_pos rfl,
      if_neg hne, h.ser k]
    simp only [shiftUp, ← BitVec.shiftLeft_add]
    congr 1
    apply BitVec.eq_of_toNat_eq
    rw [BitVec.toNat_sub, BitVec.toNat_ofNat, BitVec.toNat_ofNat]
    change (32 - 1 + (16 - b) % 32) % 32 = (16 - (b + 1)) % 32
    omega
  · have hnext : (t.next v i).outs k = moved (t.outs k) v.output (i.pixIn k) := by
      rw [next_outs]
      rcases hfsm k with hfsm | hfsm
      · rw [next_pixels hfsm, hload k, if_neg Bool.false_ne_true]
      · rw [next_drain hfsm, Serialiser.busy, hshift k, if_pos rfl]
    have hcounts := h.counts k
    rw [hnext]
    rw [CountsNext] at hcounts ⊢
    exact hcounts

/-- The first word of a sweep has been taken, or, behind the last sweep, the serialisers have run dry. -/
def Loaded (v : Settings) (pic : Picture z n) (r : BitVec 6) (j : ℕ) (t : Stage z n) : Prop :=
  if j < 16 * z.rowsPerFrame then Sending v pic r j 0 0 t
  else Still (lastLines v.output pic) r (fun o => o.fsm = .drain) t

/-- The next word of the sweep has been taken, or the first of the next one. -/
def LoadedNext (v : Settings) (pic : Picture z n) (r : BitVec 6) (j c : ℕ) (t : Stage z n) : Prop :=
  if c < z.sections then Sending v pic r j c 0 t else Loaded v pic r (j + 1) t

/-- With its last bit a word gives way to the next one. -/
lemma Sending.last {t : Stage z n} (h : Sending v pic r j c 15 t) (hj : j < 16 * z.rowsPerFrame)
    (hc : c < z.sections) (hsupplied : Supplied v pic t i) :
    LoadedNext v pic r j (c + 1) (t.next v i) := by
  have hload (k : Fin n) : (t.outs k).ser.loading true = true := by
    rw [Serialiser.loading, h.ser k]
    rfl
  have hcounts := h.counts
  simp only [CountsNext] at hcounts
  rw [LoadedNext]
  by_cases hmore : c + 1 < z.sections
  · simp only [if_pos hmore] at hcounts ⊢
    exact load h.resting h.idle h.index hj hmore hcounts hload hsupplied
  simp only [if_neg hmore] at hcounts ⊢
  rw [Loaded]
  by_cases hrows : j + 1 < 16 * z.rowsPerFrame
  · rw [if_pos hrows]
    exact load h.resting h.idle h.index hrows (by omega) hcounts hload hsupplied
  -- the last word of the frame
  rw [if_neg hrows]
  have hdrain (k : Fin n) : (t.outs k).fsm = .drain := by
    have hk := hcounts k
    rw [Counts, if_neg hrows] at hk
    exact hk.1
  have hshift (k : Fin n) : (t.outs k).ser.shifting = true := by rw [h.ser k]
  have hnext (k : Fin n) : (t.next v i).outs k = moved (t.outs k) v.output (i.pixIn k) := by
    rw [next_outs, next_drain (hdrain k), Serialiser.busy, hshift k, if_pos rfl]
  have hser (k : Fin n) : ((t.next v i).outs k).ser =
      { shifting := false, shifts := fun ch => word v.output pic k j c ch <<< 15, count := 0 } := by
    rw [hnext k]
    change (t.outs k).ser.next (t.outs k).run (i.pixIn k) = _
    rw [Icn1065Output.run, decide_eq_false (by simp [hdrain k]), h.ser k]
    simp [Serialiser.next, Serialiser.loading]
  obtain ⟨hresting, hidle, hindex⟩ := train_rests (v := v) (i := i) h.resting h.idle h.index
    (by simp [hdrain 0])
  refine ⟨hresting, hidle, hindex, fun k => ?_, fun k => ?_⟩
  · rw [hser k]
    refine ⟨rfl, ?_⟩
    funext ch
    rw [lastLines, show 16 * z.rowsPerFrame - 1 = j by omega, show z.sections - 1 = c by omega]
    exact BitVec.msb_shiftLeft
  · rw [hnext k]
    exact hdrain k

/-- A word goes out. -/
lemma word_plays {t : Stage z n} (h : Sending v pic r j c 0 t) (hj : j < 16 * z.rowsPerFrame)
    (hc : c < z.sections) : Emits v pic (LoadedNext v pic r j (c + 1)) t
      ((List.range 16).map fun b =>
        { lat := v.output.dataLatchEn && decide (c + 1 = z.sections) && decide (b = 15)
          rgb := fun k ch => (word v.output pic k j c ch).getMsbD b }) := by
  refine (Plays.map_range (I := fun b t =>
    if b < 16 then Sending v pic r j c b t else LoadedNext v pic r j (c + 1) t) ?_ ?_).mono ?_
  · intro b hb u hu
    rw [if_pos hb] at hu
    refine ⟨hu.clock hb hj hc, fun i hi => ?_⟩
    by_cases hlast : b < 15
    · rw [if_pos (by omega)]
      exact hu.next hlast hj
    · obtain rfl : b = 15 := by omega
      rw [if_neg (by decide)]
      exact hu.last hj hc hi
  · exact h
  · exact fun u hu => hu

/-- The words of all sweeps go out. -/
lemma pixels_play {t : Stage z n} (h : Sending v pic r 0 0 0 t) (hrows : 0 < z.rowsPerFrame)
    (hsections : 0 < z.sections) :
    Emits v pic (Still (lastLines v.output pic) r (fun o => o.fsm = .drain)) t
      ((List.range (16 * z.rowsPerFrame)).flatMap (sweep v.output pic)) := by
  refine (Plays.flatMap (I := fun j => Loaded v pic r j) ?_ ?_).mono ?_
  · intro k j hk u hu
    obtain ⟨hj, rfl⟩ : k < 16 * z.rowsPerFrame ∧ k = j := by simpa [List.getElem?_eq_some_iff] using hk
    rw [Loaded, if_pos hj] at hu
    refine (Plays.flatMap (I := fun c => LoadedNext v pic r k c) ?_ ?_).mono ?_
    · intro l c hl w hw
      obtain ⟨hc, rfl⟩ : l < z.sections ∧ l = c := by simpa [List.getElem?_eq_some_iff] using hl
      rw [LoadedNext, if_pos hc] at hw
      exact word_plays hw hj hc
    · rwa [LoadedNext, if_pos hsections]
    · intro w hw
      rwa [List.length_range, LoadedNext, if_neg (Nat.lt_irrefl _)] at hw
  · rwa [Loaded, if_pos (by omega)]
  · intro u hu
    rwa [List.length_range, Loaded, if_neg (Nat.lt_irrefl _)] at hu

/-- From the clock in which the first word is taken to the end of the frame. -/
lemma words_play (h : Still ρ r Starting s) (hrows : 0 < z.rowsPerFrame) (hsections : 0 < z.sections) :
    Emits v pic (Still (lastLines v.output pic) r (fun o => o.fsm = .hold)) s
      ({ rgb := ρ } :: ((List.range (16 * z.rowsPerFrame)).flatMap (sweep v.output pic) ++
        [{ rgb := lastLines v.output pic }])) := by
  refine ⟨?_, fun i hi => ?_⟩
  · rw [h.clock, phaseLat_of_fsm (by simp [(h.outs 0).fsm])]
  have hfirst : Sending v pic r 0 0 0 (s.next v i) := by
    refine load h.resting h.idle h.index (by omega) hsections (fun k => ?_) (fun k => ?_) hi
    · obtain ⟨⟨hsect, hchan, hrow⟩, hfsm⟩ := h.outs k
      rw [Counts, if_pos (by omega)]
      exact ⟨hfsm, hsect, hchan, hrow⟩
    · rw [Serialiser.loading, (h.empty k).1]
      rfl
  refine (pixels_play hfirst hrows hsections).append fun t ht => .one ?_ fun i' _ => ?_
  · rw [ht.clock, phaseLat_of_fsm (by simp [ht.outs 0])]
  · obtain ⟨hresting, hidle, hindex⟩ := train_rests (v := v) (i := i') ht.resting ht.idle ht.index
      (by simp [ht.outs 0])
    refine ⟨hresting, hidle, hindex, ht.empty.next fun k => by simp [ht.outs k], fun k => ?_⟩
    rw [next_outs, next_drain (ht.outs k), Serialiser.busy, (ht.empty k).1, if_neg Bool.false_ne_true]

end Pixels

section Frames

/-- A frame, from the request for the prefix on. -/
lemma frame_plays (hv : v.train.Usable) (hrows : 0 < z.rowsPerFrame) (hsections : 0 < z.sections)
    (h : Still ρ r Requesting s) :
    Emits v pic (Still (lastLines v.output pic) (SpwmPrefix.succIndex v.train r) (fun o => o.fsm = .hold)) s
      (frame v r.toNat ρ pic) := by
  have hcolumns : 0 < z.columns := Nat.pos_of_div_pos hsections
  have hprefix : Emits v pic _ s _ := prefix_plays hv hcolumns h
  have hplays := hprefix.append fun t ht =>
    (phases_play ht).append fun u hu => words_play hu hrows hsections
  simpa only [frame, List.cons_append, List.append_assoc, List.nil_append] using hplays

/-- The stage waits for its frame `k`. -/
def Waits (v : Settings) (pics : ℕ → Picture z n) (k : ℕ) (s : Stage z n) : Prop :=
  ∃ r : BitVec 6, r.toNat = k % v.train.regCount.toNat ∧
    Still (left v pics k) r (fun o => o.fsm = .idle ∨ o.fsm = .hold) s

variable {pics : ℕ → Picture z n} {k : ℕ}

lemma Waits.clock (h : Waits v pics k s) : s.clock v = { rgb := left v pics k } := by
  obtain ⟨r, -, hstill⟩ := h
  have hfsm : (s.outs 0).fsm ≠ .phase := by rcases hstill.outs 0 with h | h <;> simp [h]
  rw [hstill.clock, phaseLat_of_fsm hfsm]

lemma Waits.next (h : Waits v pics k s) (hi : i.enabled = false) : Waits v pics k (s.next v i) := by
  obtain ⟨r, hr, hstill⟩ := h
  refine ⟨r, hr, hstill.next (fun o ho => ?_) fun o pixIn ho => ?_⟩
  · rcases ho with ho | ho <;> simp [ho]
  · rcases ho with ho | ho
    · exact .inl (by simp [Icn1065Output.next, ho, hi])
    · exact .inr (by simp [Icn1065Output.next, ho, hi])

/-- Told to, it asks for the prefix. -/
lemma Waits.start (h : Waits v pics k s) (hi : i.enabled = true) :
    ∃ r : BitVec 6, r.toNat = k % v.train.regCount.toNat ∧
      Still (left v pics k) r Requesting (s.next v i) := by
  obtain ⟨r, hr, hstill⟩ := h
  refine ⟨r, hr, hstill.next (fun o ho => ?_) fun o pixIn ho => ?_⟩
  · rcases ho with ho | ho <;> simp [ho]
  · rcases ho with ho | ho <;>
      exact ⟨⟨by simp [Icn1065Output.next, ho, hi], by simp [Icn1065Output.next, ho, hi],
        by simp [Icn1065Output.next, ho, hi]⟩, by simp [Icn1065Output.next, ho, hi]⟩

lemma shownChan_lt (c : OutputConfig) (j : ℕ) : shownChan c j < 16 := by
  have hmod := Nat.mod_lt (j + c.sweepAdv.toNat) (show 16 > 0 by decide)
  rw [shownChan]
  refine Nat.xor_lt_two_pow (n := 4) ?_ c.chanXor.isLt
  split <;> omega

lemma shownChan_eq_iff {c : OutputConfig} {j y : ℕ} (hy : y < 16) : shownChan c j = y ↔
    (j + c.sweepAdv.toNat) % 16 =
      if c.chanRev then 15 - (y ^^^ c.chanXor.toNat) else y ^^^ c.chanXor.toNat := by
  have hxor : y ^^^ c.chanXor.toNat < 2 ^ 4 := Nat.xor_lt_two_pow hy c.chanXor.isLt
  have hswap (m : ℕ) : m ^^^ c.chanXor.toNat = y ↔ m = y ^^^ c.chanXor.toNat := by
    constructor
    · rintro rfl
      rw [Nat.xor_assoc, Nat.xor_self, Nat.xor_zero]
    · rintro rfl
      rw [Nat.xor_assoc, Nat.xor_self, Nat.xor_zero]
  rw [shownChan, hswap]
  cases c.chanRev with
  | false => simp
  | true =>
    simp only [if_true]
    omega

/-- A sweep shows a channel of every chip, and between them the sweeps show every channel of every row. -/
lemma shown_once (c : OutputConfig) {row col : ℕ} (hrow : row < z.rowsPerFrame)
    (hcol : col < CHANNELS_PER_CHIP * z.sections) :
    ∃! x : ℕ × ℕ, x.1 < 16 * z.rowsPerFrame ∧ x.2 < z.sections ∧ shownRow z c x.1 = row ∧
      CHANNELS_PER_CHIP * x.2 + shownChan c x.1 = col := by
  have hadv := c.sweepAdv.isLt
  change col < 16 * z.sections at hcol
  obtain ⟨m, hm⟩ : ∃ m, m = if c.chanRev then 15 - (col % 16 ^^^ c.chanXor.toNat)
    else col % 16 ^^^ c.chanXor.toNat := ⟨_, rfl⟩
  have hxor : col % 16 ^^^ c.chanXor.toNat < 2 ^ 4 :=
    Nat.xor_lt_two_pow (Nat.mod_lt _ (by decide)) c.chanXor.isLt
  have hmlt : m < 16 := by
    rw [hm]
    split <;> omega
  -- what is asked of a sweep and a chip, in terms of the advanced sweep
  have hiff (j s : ℕ) (hj : j < 16 * z.rowsPerFrame) : shownRow z c j = row ∧ 16 * s + shownChan c j = col ↔
      s = col / 16 ∧ (j + c.sweepAdv.toNat = 16 * row + m ∨
        row = 0 ∧ j + c.sweepAdv.toNat = 16 * z.rowsPerFrame + m) := by
    have hchan := shownChan_lt c j
    have hcol' : 16 * s + shownChan c j = col ↔ s = col / 16 ∧ shownChan c j = col % 16 := by omega
    have hrow' : shownRow z c j = row ↔ (j + c.sweepAdv.toNat) / 16 = row ∨
        row = 0 ∧ (j + c.sweepAdv.toNat) / 16 = z.rowsPerFrame := by
      rw [shownRow]
      by_cases hover : (j + c.sweepAdv.toNat) / 16 = z.rowsPerFrame
      · rw [hover, Nat.mod_self]
        omega
      · rw [Nat.mod_eq_of_lt (by omega)]
        omega
    rw [hcol', hrow', shownChan_eq_iff (Nat.mod_lt _ (by decide)), ← hm]
    omega
  obtain ⟨j, hj, hshows⟩ : ∃ j < 16 * z.rowsPerFrame, j + c.sweepAdv.toNat = 16 * row + m ∨
      row = 0 ∧ j + c.sweepAdv.toNat = 16 * z.rowsPerFrame + m := by
    by_cases hle : c.sweepAdv.toNat ≤ 16 * row + m
    · exact ⟨16 * row + m - c.sweepAdv.toNat, by omega, .inl (by omega)⟩
    · exact ⟨16 * z.rowsPerFrame + m - c.sweepAdv.toNat, by omega, .inr (by omega)⟩
  refine ⟨(j, col / 16), ⟨hj, by change col / 16 < _; omega, (hiff j _ hj).mpr ⟨rfl, hshows⟩⟩, ?_⟩
  rintro ⟨j', s'⟩ ⟨hj', -, hshows'⟩
  obtain ⟨rfl, hwhen⟩ := (hiff j' s' hj').mp hshows'
  exact Prod.ext (by change j' = j; omega) rfl

/-- Supplied with the pictures, the stage puts out their frames, one for each time that it is told to
while it waits, and nothing else; and a frame has every pixel once. -/
theorem trail_eq_frames (hv : v.train.Usable) (hrows : 0 < z.rowsPerFrame) (hsections : 0 < z.sections)
    {is : List (StageInputs z n)} (hfed : Fed (fun s i => s.next v i) (frames v pics)
      StageInputs.enabled (fun k => Supplied v (pics k)) {} {} is) :
    trail (fun (s : Stage z n) i => s.next v i) (fun s _ => s.clock v) {} is =
        trail (Player.turn (frames v pics) StageInputs.enabled)
          (fun p _ => p.now fun k => { rgb := left v pics k }) {} is ∧
      ∀ row < z.rowsPerFrame, ∀ col < CHANNELS_PER_CHIP * z.sections, ∃! x : ℕ × ℕ,
        x.1 < 16 * z.rowsPerFrame ∧ x.2 < z.sections ∧ shownRow z v.output x.1 = row ∧
          CHANNELS_PER_CHIP * x.2 + shownChan v.output x.1 = col := by
  refine ⟨trail_eq_player (W := Waits v pics) ?_ ?_ ?_ ?_ hfed, fun row hrow col hcol =>
    shown_once v.output hrow hcol⟩
  · exact fun k t ht => ht.clock
  · exact fun k t i ht hi => ht.next hi
  · intro k t i ht hi
    obtain ⟨r, hr, hstill⟩ := ht.start hi
    have hplays : Emits v (pics k) _ (t.next v i) (frame v r.toNat (left v pics k) (pics k)) :=
      frame_plays hv hrows hsections hstill
    rw [hr] at hplays
    refine hplays.mono fun u hu => ⟨_, SpwmPrefix.succIndex_toNat hv hr, ?_⟩
    exact ⟨hu.resting, hu.idle, hu.index, hu.empty, fun j => .inr (hu.outs j)⟩
  · exact ⟨0, (Nat.zero_mod _).symm, ⟨rfl, rfl, rfl⟩, rfl, rfl,
      fun _ => ⟨rfl, funext fun _ => by simp [Serialiser.channelsOut, left]⟩, fun _ => .inl rfl⟩

/-- Frames of one grey, on a single chip of two rows. -/
theorem trail_eq_frames_grey :
    let is : List (StageInputs ShiftStage.small 1) := List.replicate 3000 ⟨true, fun _ _ => 5⟩
    let pics : ℕ → Picture ShiftStage.small 1 := fun _ _ _ _ _ => 5
    trail (fun (s : Stage ShiftStage.small 1) i => s.next ShiftStage.plain i)
        (fun s _ => s.clock ShiftStage.plain) {} is =
        trail (Player.turn (frames ShiftStage.plain pics) StageInputs.enabled)
          (fun p _ => p.now fun k => { rgb := left ShiftStage.plain pics k }) {} is ∧
      ∀ row < 2, ∀ col < 16, ∃! x : ℕ × ℕ,
        x.1 < 32 ∧ x.2 < 1 ∧ shownRow ShiftStage.small ShiftStage.plain.output x.1 = row ∧
          CHANNELS_PER_CHIP * x.2 + shownChan ShiftStage.plain.output x.1 = col :=
  trail_eq_frames (z := ShiftStage.small) (n := 1) (v := ShiftStage.plain) ⟨by decide, by decide⟩
    (by decide) (by decide) (.of_mem fun i hi x k _ j _ => by rw [List.eq_of_mem_replicate hi])

end Frames

end Stage

end Ledwall.Gateware.Spwm
