import Ledwall.Gateware.HardwareDelivery
import Ledwall.Gateware.StreamSplitter

/-! The hardware branch from the splitter to the bytes: gate, rejection of groups, burst FIFO and
serialiser, cycle by cycle. -/

namespace Ledwall.Gateware

open Library.Fairness Library.Packets Library.Streams Wire

/-- A FIFO between two endpoints: its sink is `writable`, its source has what is `readable`. -/
structure SyncFIFO (α : Type) where
  State : Type
  start : State
  writable : State → Bool
  readable : State → Option α
  next : State → Option α → Bool → State

/-- What it promises: the words that it has taken come out in their order, each after a while. -/
structure SyncFIFO.Holds {α : Type} (q : SyncFIFO α) (contents : q.State → List α)
    (wait : q.State → ℕ) : Prop where
  empty : contents q.start = []
  head {s a} : q.readable s = some a → (contents s).head? = some a
  next (s : q.State) (sink : Option α) (ready : Bool) : contents (q.next s sink ready) =
    (if ready && (q.readable s).isSome then (contents s).tail else contents s) ++
      if q.writable s then sink.toList else []
  waits {s} (sink : Option α) (ready : Bool) : q.readable s = none → contents s ≠ [] →
    wait (q.next s sink ready) < wait s

/-- A frame as its beats show it. Lanes that hold no byte of it may hold anything. -/
structure Frame where
  front : List PhyBeat
  final : PhyBeat
  lane : ℕ
  front_mid : ∀ b ∈ front, b.last = false
  final_last : final.last = true
  lane_lt : lane < 4
  one_hot : final.lastBe = 1 <<< lane

namespace Frame

variable (f : Frame)

def beats : List PhyBeat := f.front ++ [f.final]

def bytes : List Byte :=
  (f.front.flatMap fun b => (List.range 4).map b.byte) ++ (List.range (f.lane + 1)).map f.final.byte

def first : PhyBeat := f.front.headD f.final

/-- The group bit of its first octet. -/
def Group : Prop := (f.first.byte 0).getLsbD 0 = true

/-- Broadcast as far as its first four octets show. -/
def Broadcast : Prop := ∀ k < 4, f.first.byte k = 0xFF

instance : Decidable f.Group := inferInstanceAs (Decidable (_ = true))

instance : Decidable f.Broadcast := inferInstanceAs (Decidable (∀ k < 4, _))

/-- What there is of it behind the serialiser. -/
def served : List (ByteBeat Unit) := if f.Group ∧ ¬ f.Broadcast then [] else byteBeats () f.bytes

end Frame

/-- The branch behind the splitter. A cycle shows the beat that the splitter has for it, and whether
the consumer of the bytes is ready. -/
structure BurstBranch (q : SyncFIFO PhyBeat) where
  gate : AlwaysReady := {}
  groupreject : SmolEthGroupReject := {}
  burstFifo : q.State := q.start
  narrow : Bytes32to8 := {}

namespace BurstBranch

variable {q : SyncFIFO PhyBeat}

section Step

variable (w : BurstBranch q) (c : Ends)

/-- The beat that the gate passes on. -/
def passed : Option PhyBeat := if w.gate.sourceValid c then some (w.gate.sourceBeat c) else none

def kept : Option PhyBeat := SmolEthGroupReject.stage.gives w.groupreject (w.passed c)

def rejectReady : Bool :=
  SmolEthGroupReject.stage.takes w.groupreject (w.passed c) (q.writable w.burstFifo)

def out : Option (ByteBeat Unit) :=
  if c.ready then Bytes32to8.stage.gives w.narrow (q.readable w.burstFifo) else none

def next : BurstBranch q where
  gate := w.gate.next { c with ready := w.rejectReady c }
  groupreject := SmolEthGroupReject.stage.next w.groupreject (w.passed c) (q.writable w.burstFifo)
  burstFifo := q.next w.burstFifo (w.kept c)
    (Bytes32to8.stage.takes w.narrow (q.readable w.burstFifo) c.ready)
  narrow := Bytes32to8.stage.next w.narrow (q.readable w.burstFifo) c.ready

end Step

end BurstBranch

/-- The branch with what has come in and what has gone out. -/
structure BranchRun (q : SyncFIFO PhyBeat) where
  branch : BurstBranch q := {}
  arrived : List PhyBeat := []
  outs : List (ByteBeat Unit) := []

namespace BranchRun

variable {q : SyncFIFO PhyBeat}

def next (w : BranchRun q) (c : Ends) : BranchRun q where
  branch := w.branch.next c
  arrived := w.arrived ++ if c.valid then [c.sink] else []
  outs := w.outs ++ (w.branch.out c).toList

/-- The FIFO has room for the beat, or the beat is thrown away. -/
def Absorbed (w : BranchRun q) (c : Ends) : Prop :=
  c.valid = true → w.branch.rejectReady c = true

end BranchRun

lemma PhyBeat.data_bytes (b : PhyBeat) : b.data = b.byte 3 ++ b.byte 2 ++ b.byte 1 ++ b.byte 0 := by
  ext i hi
  simp [PhyBeat.byte]
  grind

namespace SmolEthGroupReject

lemma owes_append (s : SmolEthGroupReject) (xs ys : List PhyBeat) :
    s.owes (xs ++ ys) = s.owes xs ++ (xs.foldl take s).owes ys := by
  induction xs generalizing s with
  | nil => rfl
  | cons x xs ih => rw [List.cons_append, owes, ih, owes, List.foldl_cons, List.append_assoc]

lemma isGroup_iff (b : PhyBeat) :
    isGroup b = true ↔ (b.byte 0).getLsbD 0 = true ∧ ¬ ∀ k < 4, b.byte k = 0xFF := by
  have hlsb : (b.byte 0).getLsbD 0 = b.data.getLsbD 0 := by simp [PhyBeat.byte]
  have hall : (∀ k < 4, b.byte k = 0xFF) ↔ b.data = 0xFFFFFFFF := by
    constructor
    · intro h
      have h0 := h 0 (by decide)
      have h1 := h 1 (by decide)
      have h2 := h 2 (by decide)
      have h3 := h 3 (by decide)
      rw [b.data_bytes, h0, h1, h2, h3]
      rfl
    · intro h k hk
      rw [PhyBeat.byte, h]
      obtain rfl | rfl | rfl | rfl : k = 0 ∨ k = 1 ∨ k = 2 ∨ k = 3 := by omega
      all_goals rfl
  rw [isGroup, hlsb, hall, Bool.and_eq_true, Bool.not_eq_true', beq_eq_false_iff_ne]

end SmolEthGroupReject

/-- What the serialiser makes of a beat. -/
def byteRun (b : PhyBeat) : List (ByteBeat Unit) := (Bytes32to8.load b).rest

lemma Bytes32to8.owes_append (s : Bytes32to8) (xs ys : List PhyBeat) :
    s.owes (xs ++ ys) = s.owes xs ++ ys.flatMap byteRun := by
  rw [owes, List.flatMap_append, ← List.append_assoc]
  rfl

lemma byteBeats_snoc {H : Type} (user : H) (as : List Byte) (a : Byte) :
    byteBeats user (as ++ [a]) = as.map (fun x => ⟨user, x, false⟩) ++ [⟨user, a, true⟩] := by
  have hlen : (as ++ [a]).length = as.length + 1 := by simp
  rw [byteBeats, hlen, List.range_succ, List.map_append]
  congr 1
  · apply List.ext_getElem
    · simp
    · intro k h₁ h₂
      have hk : k < as.length := by simpa using h₂
      simp [List.getElem?_append_left hk, hk, hk.ne]
  · simp

namespace Frame

variable (f : Frame)

lemma isPacket : IsPacket PhyBeat.last f.beats := ⟨f.front, f.final, rfl, f.front_mid, f.final_last⟩

lemma beats_cons : ∃ bs, f.beats = f.first :: bs := by
  cases hfront : f.front with
  | nil => exact ⟨[], by simp [beats, first, hfront]⟩
  | cons b bs => exact ⟨bs ++ [f.final], by simp [beats, first, hfront]⟩

lemma byteRun_beats : f.beats.flatMap byteRun = byteBeats () f.bytes := by
  have hmid : f.front.flatMap byteRun =
      (f.front.flatMap fun b => (List.range 4).map b.byte).map fun x => ⟨(), x, false⟩ := by
    rw [List.map_flatMap]
    apply List.flatMap_congr
    intro b hb
    rw [byteRun, Bytes32to8.rest_load_mid (f.front_mid b hb), List.map_map]
    rfl
  have hlast : byteRun f.final = ((List.range f.lane).map f.final.byte).map
      (fun x => ⟨(), x, false⟩) ++ [⟨(), f.final.byte f.lane, true⟩] := by
    rw [byteRun, Bytes32to8.rest_load_last f.final_last f.lane_lt f.one_hot, List.range_succ,
      List.map_append, List.map_map]
    congr 1
    · apply List.map_congr_left
      intro j hj
      have hne : j ≠ f.lane := (List.mem_range.mp hj).ne
      simp [hne]
    · simp
  rw [beats, List.flatMap_append, List.flatMap_singleton, hmid, hlast, bytes, @List.range_succ f.lane,
    List.map_append, List.map_singleton, ← List.append_assoc, ← List.append_assoc, byteBeats_snoc,
    List.map_append]

end Frame

namespace BranchRun

variable {q : SyncFIFO PhyBeat} (contents : q.State → List PhyBeat)

/-- What is still inside the branch. -/
def inside (w : BranchRun q) : List (ByteBeat Unit) :=
  Bytes32to8.owes w.branch.narrow (contents w.branch.burstFifo)

/-- The gate is open, and what has gone out and what is inside is what is kept of the beats. -/
structure Inv (w : BranchRun q) : Prop where
  dropping : w.branch.gate.dropping = false
  needLast : w.branch.gate.needLast = false
  reject : w.branch.groupreject = w.arrived.foldl SmolEthGroupReject.take {}
  balance : w.outs ++ w.inside contents = (SmolEthGroupReject.owes {} w.arrived).flatMap byteRun

variable {contents} {wait : q.State → ℕ} {w : BranchRun q} {c : Ends}

lemma Inv.passed (h : w.Inv contents) :
    w.branch.passed c = if c.valid then some c.sink else none := by
  have hvalid : w.branch.gate.sourceValid c = c.valid := by
    simp [AlwaysReady.sourceValid, h.dropping, h.needLast]
  have hbeat : w.branch.gate.sourceBeat c = c.sink := by
    simp [AlwaysReady.sourceBeat, h.needLast]
  rw [BurstBranch.passed, hvalid, hbeat]

lemma Inv.kept (h : w.Inv contents) (hc : w.Absorbed c) :
    (if q.writable w.branch.burstFifo then (w.branch.kept c).toList else []) =
      w.branch.groupreject.owes (if c.valid then [c.sink] else []) := by
  have habs := hc
  rw [BurstBranch.kept, h.passed]
  rw [Absorbed, BurstBranch.rejectReady, h.passed] at habs
  cases hv : c.valid with
  | false => simp [SmolEthGroupReject.stage, SmolEthGroupReject.owes]
  | true =>
    have hready := habs hv
    cases hk : w.branch.groupreject.killNow c.sink <;>
      simp_all [SmolEthGroupReject.stage, SmolEthGroupReject.owes]

lemma Inv.next (hq : q.Holds contents wait) (h : w.Inv contents) (hc : w.Absorbed c) :
    (w.next c).Inv contents := by
  have hopen : (w.next c).branch.gate.dropping = false ∧ (w.next c).branch.gate.needLast = false := by
    change (w.branch.gate.next _).dropping = false ∧ (w.branch.gate.next _).needLast = false
    cases hv : c.valid with
    | false => simp [AlwaysReady.next, h.dropping, h.needLast]
    | true =>
      cases hl : c.sink.last <;>
        simp [AlwaysReady.next, AlwaysReady.refused, hl, hc hv, h.dropping, h.needLast]
  have hreject : (w.next c).branch.groupreject =
      (if c.valid then [c.sink] else []).foldl SmolEthGroupReject.take w.branch.groupreject := by
    change SmolEthGroupReject.stage.next w.branch.groupreject (w.branch.passed c) _ = _
    have habs := hc
    rw [Absorbed, BurstBranch.rejectReady, h.passed] at habs
    rw [h.passed]
    cases hv : c.valid with
    | false => rfl
    | true =>
      have hready := habs hv
      simp only [hv, if_true, SmolEthGroupReject.stage, Option.any_some] at hready
      rw [if_pos rfl, if_pos rfl]
      exact if_pos hready
  refine ⟨hopen.1, hopen.2, ?_, ?_⟩
  · change _ = List.foldl _ _ (w.arrived ++ _)
    rw [hreject, List.foldl_append, ← h.reject]
  · -- one cycle of the serialiser, with the contents of the FIFO to come
    have htick := Bytes32to8.owing.tick
      ⟨w.branch.narrow, contents w.branch.burstFifo, []⟩
      ⟨(q.readable w.branch.burstFifo).isSome, c.ready⟩
    have hsink : Line.sink ⟨w.branch.narrow, contents w.branch.burstFifo, ([] : List (ByteBeat Unit))⟩
        ⟨(q.readable w.branch.burstFifo).isSome, c.ready⟩ = q.readable w.branch.burstFifo := by
      cases hread : q.readable w.branch.burstFifo with
      | none => rfl
      | some b => exact hq.head hread
    simp only [Line.tick, hsink, List.nil_append] at htick
    have hout : (if c.ready then (Bytes32to8.stage.gives w.branch.narrow
        (q.readable w.branch.burstFifo)).toList else []) = (w.branch.out c).toList := by
      rw [BurstBranch.out]
      cases c.ready <;> rfl
    have hcontents := hq.next w.branch.burstFifo (w.branch.kept c)
      (Bytes32to8.stage.takes w.branch.narrow (q.readable w.branch.burstFifo) c.ready)
    rw [h.kept hc, Bool.and_comm] at hcontents
    have hinside : (w.branch.out c).toList ++ (w.next c).inside contents = w.inside contents ++
        (w.branch.groupreject.owes (if c.valid then [c.sink] else [])).flatMap byteRun := by
      change _ ++ Bytes32to8.owes _ (contents (q.next _ _ _)) = _
      rw [hcontents, Bytes32to8.owes_append, ← List.append_assoc, ← hout]
      exact congrArg (· ++ _) htick
    change (w.outs ++ (w.branch.out c).toList) ++ _ = (SmolEthGroupReject.owes {} (w.arrived ++ _)).flatMap _
    rw [List.append_assoc, hinside, ← List.append_assoc, h.balance, SmolEthGroupReject.owes_append,
      ← h.reject, List.flatMap_append]

variable (q) in
def stateAt (cycles : ℕ → Ends) (t : ℕ) : BranchRun q := along next {} cycles t

variable (q) in
/-- The FIFO is never full when a beat comes that it is to take. -/
def Absorbs (cycles : ℕ → Ends) : Prop := Throughout next Absorbed (BranchRun.mk {} [] [] : BranchRun q) cycles

variable {cycles : ℕ → Ends}

lemma inv (hq : q.Holds contents wait) (habs : Absorbs q cycles) (t : ℕ) :
    (stateAt q cycles t).Inv contents := by
  have hstart : (BranchRun.mk {} [] [] : BranchRun q).Inv contents := by
    refine ⟨rfl, rfl, rfl, ?_⟩
    change Bytes32to8.owes {} (contents q.start) = []
    rw [hq.empty]
    rfl
  exact habs.invariant (fun _ _ h hc => h.next hq hc) hstart t

variable (contents wait) in
/-- Something is inside, at most `k` cycles from the serialiser. -/
def Nears (k : ℕ) (w : BranchRun q) : Prop :=
  w.branch.narrow.loaded = true ∨ contents w.branch.burstFifo ≠ [] ∧
    if (q.readable w.branch.burstFifo).isSome then 1 ≤ k else wait w.branch.burstFifo + 2 ≤ k

lemma nears_of_inside (h : w.inside contents ≠ []) : ∃ k, w.Nears contents wait k := by
  by_cases hl : w.branch.narrow.loaded = true
  · exact ⟨0, .inl hl⟩
  · have hcontents : contents w.branch.burstFifo ≠ [] := by
      intro hnil
      apply h
      rw [inside, Bytes32to8.owes, hnil, Bytes32to8.rest_unloaded (by simpa using hl)]
      rfl
    refine ⟨wait w.branch.burstFifo + 2, .inr ⟨hcontents, ?_⟩⟩
    split <;> omega

lemma outs_next (w : BranchRun q) (c : Ends) :
    (w.next c).outs.length = w.outs.length +
      if c.ready && w.branch.narrow.loaded then 1 else 0 := by
  change (w.outs ++ (w.branch.out c).toList).length = _
  rw [List.length_append, BurstBranch.out]
  cases c.ready <;> cases hl : w.branch.narrow.loaded <;> simp [Bytes32to8.stage, hl]

lemma Nears.next (hq : q.Holds contents wait) {k : ℕ} (h : w.Nears contents wait k) (c : Ends) :
    w.outs.length < (w.next c).outs.length ∨
      ∃ k' ≤ k, (c.ready = true → k' < k) ∧ (w.next c).Nears contents wait k' := by
  have hnarrow : (w.next c).branch.narrow =
      Bytes32to8.stage.next w.branch.narrow (q.readable w.branch.burstFifo) c.ready := rfl
  cases hl : w.branch.narrow.loaded with
  | true =>
    cases hr : c.ready with
    | true => exact .inl (by rw [outs_next, hr, hl]; exact Nat.lt_succ_self _)
    | false =>
      refine .inr ⟨k, Nat.le_refl k, by simp, .inl ?_⟩
      rw [hnarrow, hr]
      simp [Bytes32to8.stage, hl]
  | false =>
    obtain hloaded | ⟨hcontents, hk⟩ := h
    · rw [hl] at hloaded
      cases hloaded
    cases hread : q.readable w.branch.burstFifo with
    | some b =>
      rw [hread, if_pos Option.isSome_some] at hk
      refine .inr ⟨0, Nat.zero_le k, fun _ => hk, .inl ?_⟩
      rw [hnarrow, hread]
      simp [Bytes32to8.stage, hl, Bytes32to8.load]
    | none =>
      rw [hread, if_neg (by simp)] at hk
      have hnext := hq.next w.branch.burstFifo (w.branch.kept c) true
      have hwaits := hq.waits (w.branch.kept c) true hread hcontents
      have hfifo : (w.next c).branch.burstFifo = q.next w.branch.burstFifo (w.branch.kept c) true := by
        change q.next _ _ (!w.branch.narrow.loaded) = _
        rw [hl]
        rfl
      refine .inr ⟨k - 1, by omega, fun _ => by omega, .inr ⟨?_, ?_⟩⟩
      · rw [hfifo, hnext, hread]
        simp [hcontents]
      · rw [hfifo]
        split <;> omega

lemma outs_grow (hq : q.Holds contents wait) (hready : Infinitely (fun c => c.ready = true) cycles)
    {t : ℕ} (h : (stateAt q cycles t).inside contents ≠ []) :
    ∃ u ≥ t, (stateAt q cycles t).outs.length < (stateAt q cycles u).outs.length := by
  obtain ⟨k, hk⟩ := @nears_of_inside q contents wait _ h
  refine eventually_of_variant
    (P := fun k (s : BranchRun q) => (stateAt q cycles t).outs.length ≤ s.outs.length ∧ s.Nears contents wait k)
    (Q := fun s : BranchRun q => (stateAt q cycles t).outs.length < s.outs.length)
    (C := fun _ _ => True) hready (fun _ => trivial) ?_ ⟨Nat.le_refl _, hk⟩
  intro k s c ⟨hle, hnears⟩ _
  rcases hnears.next hq c with hlt | ⟨k', hk', hlower, hnears'⟩
  · exact .inl (hle.trans_lt hlt)
  · refine .inr ⟨k', hk', hlower, ?_, hnears'⟩
    rw [outs_next]
    omega

lemma outs_mono {t u : ℕ} (h : t ≤ u) :
    (stateAt q cycles t).outs <+: (stateAt q cycles u).outs := by
  induction u, h using Nat.le_induction with
  | base => exact List.prefix_rfl
  | succ u _ ih => exact ih.trans (List.prefix_append _ _)

lemma arrived_mono {t u : ℕ} (h : t ≤ u) :
    (stateAt q cycles t).arrived <+: (stateAt q cycles u).arrived := by
  induction u, h using Nat.le_induction with
  | base => exact List.prefix_rfl
  | succ u _ ih => exact ih.trans (List.prefix_append _ _)

/-- What the branch makes of the beats that have come. -/
def due (xs : List PhyBeat) : List (ByteBeat Unit) := (SmolEthGroupReject.owes {} xs).flatMap byteRun

lemma due_mono {xs ys : List PhyBeat} (h : xs <+: ys) : due xs <+: due ys := by
  obtain ⟨zs, rfl⟩ := h
  rw [due, due, SmolEthGroupReject.owes_append, List.flatMap_append]
  exact List.prefix_append _ _

lemma owes_frames (s : SmolEthGroupReject) (hs : s.first = true) (fs : List Frame) :
    (s.owes (fs.flatMap Frame.beats)).flatMap byteRun = fs.flatMap Frame.served := by
  induction fs generalizing s with
  | nil => rfl
  | cons f fs ih =>
    have hfirst : (f.beats.foldl SmolEthGroupReject.take s).first = true := by
      rw [Frame.beats, List.foldl_append]
      exact f.final_last
    have hframe : (s.owes f.beats).flatMap byteRun = f.served := by
      obtain ⟨bs, hbs⟩ := f.beats_cons
      have hpacket := f.isPacket
      rw [hbs] at hpacket
      have hgroup : SmolEthGroupReject.isGroup f.first = true ↔ f.Group ∧ ¬ f.Broadcast :=
        SmolEthGroupReject.isGroup_iff f.first
      have hrun := f.byteRun_beats
      rw [hbs] at hrun
      rw [hbs, SmolEthGroupReject.owes_packet hs hpacket, Frame.served]
      by_cases hkill : SmolEthGroupReject.isGroup f.first = true
      · rw [if_pos hkill, if_pos (hgroup.mp hkill)]
        rfl
      · rw [if_neg hkill, if_neg fun h => hkill (hgroup.mpr h), hrun]
    rw [List.flatMap_cons, SmolEthGroupReject.owes_append, List.flatMap_append, hframe,
      ih _ hfirst, List.flatMap_cons]

lemma outs_due (hq : q.Holds contents wait) (habs : Absorbs q cycles) (t : ℕ) :
    (stateAt q cycles t).outs <+: due (stateAt q cycles t).arrived :=
  ⟨_, (inv hq habs t).balance⟩

lemma outs_eventually (hq : q.Holds contents wait) (habs : Absorbs q cycles)
    (hready : Infinitely (fun c => c.ready = true) cycles) {t n : ℕ}
    (hn : n ≤ (due (stateAt q cycles t).arrived).length) :
    ∃ u ≥ t, n ≤ (stateAt q cycles u).outs.length := by
  induction n with
  | zero => exact ⟨t, Nat.le_refl t, Nat.zero_le _⟩
  | succ n ih =>
    obtain ⟨u, hu, hlen⟩ := ih (by omega)
    rcases Nat.lt_or_ge n (stateAt q cycles u).outs.length with hlt | hge
    · exact ⟨u, hu, hlt⟩
    · have hinside : (stateAt q cycles u).inside contents ≠ [] := by
        intro hnil
        have hbalance := (inv hq habs u).balance
        rw [hnil, List.append_nil] at hbalance
        have hdue := (due_mono (@arrived_mono q cycles t u hu)).length_le
        rw [due, due, ← hbalance] at hdue
        rw [due] at hn
        omega
      obtain ⟨v, hv, hgrow⟩ := outs_grow hq hready hinside
      exact ⟨v, by omega, by omega⟩

/-- Frames in a row, as far as they have come: their bytes leave in order and nothing else does, and
in the end all of them do. -/
structure Serialises (cycles : ℕ → Ends) (fs : List Frame) : Prop where
  nothingElse (t : ℕ) : (stateAt q cycles t).arrived <+: fs.flatMap Frame.beats →
    (stateAt q cycles t).outs <+: fs.flatMap Frame.served
  allOfThem (t : ℕ) : fs.flatMap Frame.beats <+: (stateAt q cycles t).arrived →
    Infinitely (fun c => c.ready = true) cycles →
    ∃ n, ∀ m ≥ n, fs.flatMap Frame.served <+: (stateAt q cycles m).outs

theorem serialises (hq : q.Holds contents wait) (habs : Absorbs q cycles) (fs : List Frame) :
    Serialises (q := q) cycles fs where
  nothingElse t h := by
    have hdue := (outs_due hq habs t).trans (due_mono h)
    rwa [due, owes_frames {} rfl] at hdue
  allOfThem t h hready := by
    have hserved := due_mono h
    rw [due, owes_frames {} rfl] at hserved
    obtain ⟨u, hu, hlen⟩ := outs_eventually hq habs hready hserved.length_le
    refine ⟨u, ?_⟩
    intro m hm
    have hm' := hlen.trans (@outs_mono q cycles u m hm).length_le
    exact List.prefix_of_prefix_length_le
      (hserved.trans (due_mono (arrived_mono (hu.trans hm)))) (outs_due hq habs m) hm'

end BranchRun

/-- Behind the splitter each frame leaves as its bytes, or not at all if it is for a group; the
splitter hands each beat once to each side. -/
theorem branch_serialises {q : SyncFIFO PhyBeat} {contents : q.State → List PhyBeat}
    {wait : q.State → ℕ} (hq : q.Holds contents wait) {cycles : ℕ → Ends}
    (habs : BranchRun.Absorbs q cycles) (fs : List Frame) (beats : ℕ → PhyBeat)
    (ticks : ℕ → SplitTick) :
    BranchRun.Serialises (q := q) cycles fs ∧ Split.HandsOnce beats ticks :=
  ⟨BranchRun.serialises hq habs fs, Split.handsOnce beats ticks⟩

/-- A memory of so many words with a register behind it. -/
def bufferedFIFO (α : Type) (depth : ℕ) : SyncFIFO α where
  State := List α × Option α
  start := ([], none)
  writable s := decide (s.1.length < depth)
  readable s := s.2
  next s sink ready :=
    let moves := ready || s.2.isNone
    ((if moves then s.1.tail else s.1) ++ (if s.1.length < depth then sink.toList else []),
      if moves then s.1.head? else s.2)

lemma bufferedFIFO_holds (α : Type) (depth : ℕ) :
    (bufferedFIFO α depth).Holds (fun s => s.2.toList ++ s.1) (fun s => if s.2.isNone then 1 else 0) where
  empty := rfl
  head := by
    rintro ⟨words, out⟩ a h
    have hout : out = some a := h
    simp [hout]
  next := by
    rintro ⟨words, out⟩ sink ready
    cases out <;> cases words <;> cases ready <;> simp [bufferedFIFO]
  waits := by
    rintro ⟨words, out⟩ sink ready h hcontents
    have hout : out = none := h
    cases words <;> simp_all [bufferedFIFO]

def sixBytes : Frame where
  front := [⟨0x0000D5E2, 0, 0, false⟩]
  final := ⟨0xFFFF0100, 0x2, 0, true⟩
  lane := 1
  front_mid := by decide
  final_last := rfl
  lane_lt := Nat.one_lt_succ_succ 2
  one_hot := rfl

def toGroup : Frame where
  front := []
  final := ⟨0x005E0001, 0x8, 0, true⟩
  lane := 3
  front_mid := by decide
  final_last := rfl
  lane_lt := Nat.lt_succ_self 3
  one_hot := rfl

/-- A frame for a group and one for a single card, with a pause in it. -/
def twoFrames (t : ℕ) : Ends :=
  match t with
  | 0 => ⟨true, toGroup.final, false⟩
  | 1 => ⟨true, sixBytes.first, true⟩
  | 3 => ⟨true, sixBytes.final, true⟩
  | t => ⟨false, sixBytes.final, t % 2 == 1⟩

theorem branch_serialises_twoFrames :
    BranchRun.Serialises (q := bufferedFIFO PhyBeat 2048) twoFrames [toGroup, sixBytes] ∧
      Split.HandsOnce (fun _ => sixBytes.final) fun t => ⟨true, t % 2 == 0, t % 3 == 0⟩ := by
  refine branch_serialises (bufferedFIFO_holds PhyBeat 2048) ?_ _ _ _
  intro t hvalid
  obtain rfl | rfl | rfl | rfl | ht : t = 0 ∨ t = 1 ∨ t = 2 ∨ t = 3 ∨ 4 ≤ t := by omega
  · decide
  · decide
  · decide
  · decide
  · obtain ⟨u, rfl⟩ := Nat.exists_eq_add_of_le' ht
    cases hvalid

end Ledwall.Gateware
