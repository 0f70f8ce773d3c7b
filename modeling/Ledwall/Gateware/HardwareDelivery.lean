import Ledwall.Gateware.HardwareBranch
import Ledwall.Gateware.PixelFilter

/-! What the hardware branch makes of a frame that the classifier kills. -/

namespace Ledwall.Gateware

open Ledwall.Library.Packets Ledwall.Library.Streams Ledwall.Wire

lemma AlwaysReady.unrefused_eq {s : AlwaysReady} (hd : s.dropping = false)
    (hl : s.needLast = false) (bs : List PhyBeat) : s.unrefused bs = bs := by
  induction bs generalizing s with
  | nil => rfl
  | cons b bs ih =>
    have hvalid : s.sourceValid ⟨true, b, true⟩ = true := by simp [sourceValid, hd]
    have hbeat : s.sourceBeat ⟨true, b, true⟩ = b := by simp [sourceBeat, hl]
    have hnext : (s.next ⟨true, b, true⟩).dropping = false ∧
        (s.next ⟨true, b, true⟩).needLast = false := by
      cases hb : b.last <;> simp [next, refused, hd, hl, hb]
    rw [unrefused, hvalid, hbeat, ih hnext.1 hnext.2]
    rfl

namespace SmolEthGroupReject

def owes : SmolEthGroupReject → List PhyBeat → List PhyBeat
  | _, [] => []
  | s, b :: bs => (if s.killNow b then [] else [b]) ++ (s.take b).owes bs

theorem owing : Owing stage owes fun _ xs => xs.length where
  tick w t := by
    obtain ⟨s, xs, outs⟩ := w
    obtain ⟨offer, ready⟩ := t
    cases xs with
    | nil => cases offer <;> cases ready <;> simp [Line.tick, Line.sink, stage, owes]
    | cons b bs =>
      cases offer <;> cases ready <;> cases hk : s.killNow b <;>
        simp [Line.tick, Line.sink, stage, owes, Option.filter, hk]
  done := by
    intro s xs h
    rw [List.length_eq_zero_iff.mp h]
    rfl
  less w h := by
    obtain ⟨s, xs, outs⟩ := w
    cases xs with
    | nil => exact absurd rfl h
    | cons b bs => simp [Line.tick, Line.sink, stage]

lemma owes_inside {s : SmolEthGroupReject} (hs : s.first = false) {front : List PhyBeat}
    (hfront : ∀ b ∈ front, b.last = false) (e : PhyBeat) :
    s.owes (front ++ [e]) = if s.killing then [] else front ++ [e] := by
  induction front generalizing s with
  | nil => simp [owes, killNow, hs]
  | cons b bs ih =>
    have hb := hfront b List.mem_cons_self
    have hfirst : (s.take b).first = false := hb
    have hkilling : (s.take b).killing = s.killing := by simp [take, hb, hs]
    rw [List.cons_append, owes, ih hfirst fun a ha => hfront a (List.mem_cons_of_mem _ ha), hkilling,
      killNow, hs]
    cases s.killing <;> rfl

lemma owes_packet {s : SmolEthGroupReject} (hs : s.first = true) {b : PhyBeat} {bs : List PhyBeat}
    (h : IsPacket PhyBeat.last (b :: bs)) :
    s.owes (b :: bs) = if isGroup b then [] else b :: bs := by
  obtain ⟨front, e, hsplit, hfront, -⟩ := h
  cases front with
  | nil =>
    obtain ⟨rfl, rfl⟩ := List.cons.inj hsplit
    simp [owes, killNow, hs]
  | cons a as =>
    rw [List.cons_append] at hsplit
    obtain ⟨rfl, rfl⟩ := List.cons.inj hsplit
    have hb := hfront b List.mem_cons_self
    have hfirst : (s.take b).first = false := hb
    have hkilling : (s.take b).killing = isGroup b := by simp [take, hb, hs]
    rw [owes, owes_inside hfirst (fun a ha => hfront a (List.mem_cons_of_mem _ ha)), hkilling,
      killNow, hs]
    cases isGroup b <;> rfl

end SmolEthGroupReject

namespace Bytes32to8

/-- The bytes that are still to leave, at most `n` of them. -/
def restFrom : ℕ → Bytes32to8 → List (ByteBeat Unit)
  | 0, _ => []
  | n + 1, s => if s.loaded then ⟨(), s.byte, s.sourceLast⟩ :: restFrom n s.unload else []

def rest (s : Bytes32to8) : List (ByteBeat Unit) := restFrom 4 s

variable {s : Bytes32to8}

lemma unload_idx (h : s.unload.loaded = true) :
    s.loaded = true ∧ s.unload.idx.toNat = s.idx.toNat + 1 := by
  by_cases hc : s.sourceLast || s.idx == 3
  · rw [unload, if_pos hc] at h
    cases h
  · rw [unload, if_neg hc] at h ⊢
    have hne : s.idx ≠ 3 := by
      simp only [Bool.or_eq_true, beq_iff_eq, not_or] at hc
      exact hc.2
    refine ⟨h, ?_⟩
    change (s.idx + 1).toNat = _
    generalize s.idx = i at hne ⊢
    decide +revert

lemma restFrom_stable (n : ℕ) (h : s.loaded = true → 4 ≤ n + s.idx.toNat) :
    restFrom (n + 1) s = restFrom n s := by
  induction n generalizing s with
  | zero =>
    have hlt := s.idx.isLt
    rw [restFrom, restFrom, if_neg fun hl => by have := h hl; omega]
  | succ n ih =>
    have hstep : restFrom (n + 1) s.unload = restFrom n s.unload := by
      apply ih
      intro hl
      obtain ⟨hloaded, hidx⟩ := unload_idx hl
      have := h hloaded
      omega
    rw [restFrom, hstep]
    rfl

lemma rest_loaded (h : s.loaded = true) : s.rest = ⟨(), s.byte, s.sourceLast⟩ :: s.unload.rest := by
  have hstable : restFrom 4 s.unload = restFrom 3 s.unload := by
    apply restFrom_stable
    intro hl
    have := (unload_idx hl).2
    omega
  rw [rest, rest, hstable, restFrom, if_pos h]

lemma rest_unloaded (h : s.loaded = false) : s.rest = [] := by
  rw [rest, restFrom, if_neg (by simp [h])]

def owes (s : Bytes32to8) (xs : List PhyBeat) : List (ByteBeat Unit) :=
  s.rest ++ xs.flatMap fun b => (load b).rest

def work (s : Bytes32to8) (xs : List PhyBeat) : ℕ :=
  5 * xs.length + if s.loaded then 4 - s.idx.toNat else 0

theorem owing : Owing stage owes work where
  tick w t := by
    obtain ⟨s, xs, outs⟩ := w
    obtain ⟨offer, ready⟩ := t
    cases hl : s.loaded with
    | true => cases ready <;> simp [Line.tick, stage, owes, hl, rest_loaded hl]
    | false =>
      cases xs <;> cases offer <;> cases ready <;>
        simp [Line.tick, Line.sink, stage, owes, hl, rest_unloaded hl]
  done := by
    intro s xs h
    have hlt := s.idx.isLt
    rw [work] at h
    have hxs : xs = [] := by
      rw [← List.length_eq_zero_iff]
      omega
    have hl : s.loaded = false := by
      by_contra hl
      rw [if_pos (by simpa using hl)] at h
      omega
    rw [owes, rest_unloaded hl, hxs]
    rfl
  less w h := by
    obtain ⟨s, xs, outs⟩ := w
    have hlt := s.idx.isLt
    cases hl : s.loaded with
    | true =>
      have hnext : (s.unload.loaded = true → s.unload.idx.toNat = s.idx.toNat + 1) :=
        fun hu => (unload_idx hu).2
      simp only [Line.tick, stage, work, hl, if_true, Bool.not_true, Bool.and_false,
        Bool.false_eq_true, if_false]
      split
      · have := hnext ‹_›
        omega
      · omega
    | false =>
      cases xs with
      | nil => simp [work, hl] at h
      | cons b bs =>
        simp [Line.tick, Line.sink, stage, work, hl, load]
        omega

lemma rest_load_mid {b : PhyBeat} (h : b.last = false) :
    (load b).rest = (List.range 4).map fun j => ⟨(), b.byte j, false⟩ := by
  simp [rest, restFrom, load, unload, sourceLast, h, byte, PhyBeat.byte, List.range_succ]

lemma rest_load_last {b : PhyBeat} (h : b.last = true) {r : ℕ} (hr : r < 4)
    (hbe : b.lastBe = 1 <<< r) :
    (load b).rest = (List.range (r + 1)).map fun j => ⟨(), b.byte j, decide (j = r)⟩ := by
  obtain rfl | rfl | rfl | rfl : r = 0 ∨ r = 1 ∨ r = 2 ∨ r = 3 := by omega
  all_goals
    simp [rest, restFrom, load, unload, sourceLast, finalIdx, h, hbe, byte, PhyBeat.byte,
      List.range_succ]

variable {f : List Byte} {k : ℕ}

lemma rest_beatAt (hk : k < beatCount f) :
    (load (beatAt f k)).rest = (List.range' (4 * k) (min 4 (f.length - 4 * k))).map
      fun j => ⟨(), f.getD j 0, decide (j + 1 = f.length)⟩ := by
  rw [beatCount] at hk
  by_cases hlast : k + 1 = beatCount f
  · have hl : (beatAt f k).last = true := decide_eq_true hlast
    have hbe : (beatAt f k).lastBe = 1 <<< ((f.length - 1) % 4) := if_pos hlast
    rw [beatCount] at hlast
    have hlen : min 4 (f.length - 4 * k) = (f.length - 1) % 4 + 1 := by omega
    rw [rest_load_last hl (Nat.mod_lt _ (by decide)) hbe, hlen, List.range'_eq_map_range,
      List.map_map]
    apply List.map_congr_left
    intro j hj
    have hj := List.mem_range.mp hj
    have hend : j = (f.length - 1) % 4 ↔ 4 * k + j + 1 = f.length := by omega
    simp only [Function.comp_apply, beatAt_byte f k (show j < 4 by omega), hend]
  · have hl : (beatAt f k).last = false := decide_eq_false hlast
    rw [beatCount] at hlast
    have hlen : min 4 (f.length - 4 * k) = 4 := by omega
    rw [rest_load_mid hl, hlen, List.range'_eq_map_range, List.map_map]
    apply List.map_congr_left
    intro j hj
    have hj := List.mem_range.mp hj
    have hend : ¬ 4 * k + j + 1 = f.length := by omega
    simp only [Function.comp_apply, beatAt_byte f k hj, hend, decide_false]

lemma flatMap_range' {α : Type*} (g : ℕ → α) (n k : ℕ) :
    (List.range k).flatMap (fun j => (List.range' (4 * j) (min 4 (n - 4 * j))).map g) =
      (List.range (min (4 * k) n)).map g := by
  induction k with
  | zero => simp
  | succ k ih =>
    rw [List.range_succ, List.flatMap_append, ih, List.flatMap_singleton, ← List.map_append]
    congr 1
    by_cases hk : 4 * k ≤ n
    · have hcat := @List.range'_append_1 0 (4 * k) (min 4 (n - 4 * k))
      rw [Nat.zero_add] at hcat
      rw [Nat.min_eq_left hk, List.range_eq_range', List.range_eq_range', hcat]
      congr 1
      omega
    · rw [show min 4 (n - 4 * k) = 0 by omega, show min (4 * (k + 1)) n = min (4 * k) n by omega]
      exact List.append_nil _

/-- A frame leaves as its bytes. -/
theorem makes_frame {s : Bytes32to8} (hs : s.loaded = false) (f : List Byte) :
    stage.Makes s (frameBeats f) (byteBeats () f) := by
  have hmakes := owing.makes s (frameBeats f)
  have howes : owes s (frameBeats f) = byteBeats () f := by
    rw [owes, rest_unloaded hs, List.nil_append, frameBeats, List.flatMap_map,
      List.flatMap_congr fun k hk => rest_beatAt (List.mem_range.mp hk), flatMap_range', byteBeats]
    rw [Nat.min_eq_right (by rw [beatCount]; omega)]
  rwa [howes] at hmakes

end Bytes32to8

section Filters

variable {H H' K : Type} {pass : H → Bool}

def filterOwes (pass : H → Bool) : FilterFsm → List (ByteBeat H) → List (ByteBeat H)
  | _, [] => []
  | .idle, b :: bs =>
    if pass b.user then b :: filterOwes pass (if b.last then .idle else .receive) bs
    else filterOwes pass (if b.last then .idle else .drop) bs
  | .receive, b :: bs => b :: filterOwes pass (if b.last then .idle else .receive) bs
  | .drop, b :: bs => filterOwes pass (if b.last then .idle else .drop) bs

def filterWork : FilterFsm → List (ByteBeat H) → ℕ
  | _, [] => 0
  | .idle, _ :: bs => 2 * bs.length + 3
  | .receive, _ :: bs | .drop, _ :: bs => 2 * bs.length + 2

lemma filterWork_le (s : FilterFsm) (bs : List (ByteBeat H)) : filterWork s bs < 2 * bs.length + 2 := by
  cases bs with
  | nil => exact Nat.succ_pos _
  | cons b bs => cases s <;> simp only [filterWork, List.length_cons] <;> omega

theorem headerFilter_owing (pass : H → Bool) :
    Owing (headerFilter pass) (filterOwes pass) filterWork where
  tick w t := by
    obtain ⟨s, xs, outs⟩ := w
    obtain ⟨offer, ready⟩ := t
    cases xs with
    | nil =>
      cases s <;> cases offer <;> cases ready <;>
        simp [Line.tick, Line.sink, headerFilter, filterOwes]
    | cons b bs =>
      cases s <;> cases offer <;> cases ready <;> cases hl : b.last <;> cases hp : pass b.user <;>
        simp [Line.tick, Line.sink, headerFilter, filterOwes, hl, hp]
  done := by
    intro s xs h
    cases xs with
    | nil => rfl
    | cons b bs => cases s <;> simp [filterWork] at h
  less w h := by
    obtain ⟨s, xs, outs⟩ := w
    cases xs with
    | nil => exact absurd rfl h
    | cons b bs =>
      have hle (s' : FilterFsm) := filterWork_le s' bs
      cases s with
      | idle => cases hp : pass b.user <;> simp [Line.tick, Line.sink, headerFilter, filterWork, hp]
      | receive =>
        simp only [Line.tick, Line.sink, headerFilter, filterWork]
        exact hle _
      | drop =>
        simp only [Line.tick, Line.sink, headerFilter, filterWork]
        exact hle _

lemma filterOwes_receive {front : List (ByteBeat H)} (hfront : ∀ b ∈ front, b.last = false)
    (e : ByteBeat H) : filterOwes pass .receive (front ++ [e]) = front ++ [e] := by
  induction front with
  | nil => cases e.last <;> rfl
  | cons b bs ih =>
    rw [List.cons_append, filterOwes, hfront b List.mem_cons_self,
      if_neg Bool.false_ne_true, ih fun a ha => hfront a (List.mem_cons_of_mem _ ha)]

lemma filterOwes_drop {front : List (ByteBeat H)} (hfront : ∀ b ∈ front, b.last = false)
    (e : ByteBeat H) : filterOwes pass .drop (front ++ [e]) = [] := by
  induction front with
  | nil => cases e.last <;> simp [filterOwes]
  | cons b bs ih =>
    rw [List.cons_append, filterOwes, hfront b List.mem_cons_self,
      if_neg Bool.false_ne_true, ih fun a ha => hfront a (List.mem_cons_of_mem _ ha)]

lemma filterOwes_packet {b : ByteBeat H} {bs : List (ByteBeat H)}
    (h : IsPacket ByteBeat.last (b :: bs)) :
    filterOwes pass .idle (b :: bs) = if pass b.user then b :: bs else [] := by
  obtain ⟨front, e, hsplit, hfront, he⟩ := h
  rw [filterOwes]
  cases front with
  | nil =>
    obtain ⟨rfl, rfl⟩ := List.cons.inj hsplit
    cases b.last <;> rfl
  | cons a as =>
    rw [List.cons_append] at hsplit
    obtain ⟨rfl, rfl⟩ := List.cons.inj hsplit
    have hrest (x : ByteBeat H) (hx : x ∈ as) := hfront x (List.mem_cons_of_mem _ hx)
    rw [hfront b List.mem_cons_self, if_neg Bool.false_ne_true, if_neg Bool.false_ne_true,
      filterOwes_receive hrest, filterOwes_drop hrest]

lemma isPacket_byteBeats (user : H) {p : List Byte} (hp : p ≠ []) :
    IsPacket ByteBeat.last (byteBeats user p) :=
  isPacket_range (List.length_pos_iff.mpr hp) fun _ => rfl

lemma byteBeats_cons (user : H) {p : List Byte} (hp : p ≠ []) :
    ∃ b bs, byteBeats user p = b :: bs ∧ b.user = user := by
  obtain ⟨a, as, rfl⟩ := List.exists_cons_of_ne_nil hp
  rw [byteBeats, List.length_cons, List.range_succ_eq_map]
  exact ⟨_, _, rfl, rfl⟩

lemma byteBeats_data (user : H) (p : List Byte) : (byteBeats user p).map ByteBeat.data = p := by
  apply List.ext_getElem
  · simp [byteBeats]
  · intro k h₁ h₂
    simp [byteBeats, h₂]

/-- A packet that has got so far goes on if its header passes. -/
theorem makes_byteBeats {user : H} {p : List Byte} (hp : p ≠ []) (x : Prop) [Decidable x]
    (ys : List (ByteBeat H)) :
    (headerFilter pass).Makes .idle (if x then byteBeats user p else []) ys ↔
      ys = if x ∧ pass user = true then byteBeats user p else [] := by
  rw [(headerFilter_owing pass).makes_iff]
  by_cases hx : x
  · obtain ⟨b, bs, hcons, rfl⟩ := byteBeats_cons user hp
    have hpacket := isPacket_byteBeats b.user hp
    rw [hcons] at hpacket ⊢
    simp only [hx, if_true, true_and, filterOwes_packet hpacket]
  · simp only [hx, if_false, false_and]
    rfl

lemma depacketize_byteBeats (d : Depacketizer H') (keep : H → H' → K) (user : H) {p : List Byte}
    (hp : p ≠ []) (x : Prop) [Decidable x] :
    depacketize d keep (if x then byteBeats user p else []) =
      if x then byteBeats (keep user (d p).1) (d p).2 else [] := by
  split
  · have hdata := byteBeats_data user p
    rw [depacketize, (isPacket_byteBeats user hp).cut]
    obtain ⟨b, bs, hcons, rfl⟩ := byteBeats_cons user hp
    rw [hcons] at hdata ⊢
    rw [List.flatMap_singleton]
    simp only [hdata]
  · rfl

end Filters

def MacHeader.read (p : List Byte) : MacHeader where
  targetMac := p.getD 0 0 ++ p.getD 1 0 ++ p.getD 2 0 ++ p.getD 3 0 ++ p.getD 4 0 ++ p.getD 5 0
  ethernetType := p.getD 12 0 ++ p.getD 13 0

def IpHeader.read (p : List Byte) : IpHeader where
  version := (p.getD 0 0).extractLsb' 4 4
  ihl := (p.getD 0 0).extractLsb' 0 4
  protocol := p.getD 9 0
  targetIp := p.getD 16 0 ++ p.getD 17 0 ++ p.getD 18 0 ++ p.getD 19 0

def UdpHeader.read (p : List Byte) : UdpHeader := ⟨p.getD 2 0 ++ p.getD 3 0⟩

/-- What is assumed of the depacketizers, which are not part of the repository. -/
structure Depacketizers.Strip (d : Depacketizers) : Prop where
  mac (p : List Byte) (h : 14 < p.length) : d.mac p = (.read p, p.drop 14)
  ip (p : List Byte) (h : 20 < p.length) : d.ip p = (.read p, p.drop 20)
  udp (p : List Byte) (h : 8 < p.length) : d.udp p = (.read p, p.drop 8)

namespace HardwareBranch

/-- Nothing of an earlier packet is left inside. -/
structure Between (hw : HardwareBranch) : Prop where
  dropping : hw.gate.dropping = false
  needLast : hw.gate.needLast = false
  first : hw.groupreject.first = true
  loaded : hw.narrow.loaded = false

/-- The frame is for this card: to its addresses and to the port, and not to a group. -/
structure Addressed (hw : HardwareBranch) (f : List Byte) : Prop where
  unicast : SmolEthGroupReject.isGroup (beatAt f 0) = false
  mac : (MacHeader.read f).targetMac = hw.macAddress
  ip : (IpHeader.read (f.drop 14)).targetIp = hw.ipAddress
  port : toPort f hw.udpPort = true

variable {hw : HardwareBranch} {d : Depacketizers} {f : List Byte}

lemma append_eq_iff (a b : Byte) (c : BitVec 16) :
    a ++ b = c ↔ a = c.extractLsb' 8 8 ∧ b = c.extractLsb' 0 8 := by
  constructor
  · rintro rfl
    exact ⟨(BitVec.extractLsb'_append_eq_left).symm, (BitVec.extractLsb'_append_eq_right).symm⟩
  · rintro ⟨rfl, rfl⟩
    ext i hi
    simp
    grind

lemma nibbles_iff (a : Byte) : a.extractLsb' 4 4 = 4 ∧ a.extractLsb' 0 4 = 5 ↔ a = 0x45 := by
  decide +revert

lemma passes_iff (hw : HardwareBranch) (f : List Byte) :
    ((MacHeader.read f).ethernetType = ETHERNET_TYPE_IP ∧
      (IpHeader.read (f.drop 14)).version = 0x4 ∧ (IpHeader.read (f.drop 14)).ihl = 0x5 ∧
      (IpHeader.read (f.drop 14)).protocol = UDP_PROTOCOL ∧
      (UdpHeader.read (f.drop 34)).dstPort = hw.udpPort) ↔ toPort f hw.udpPort = true := by
  have hdrop (n k : ℕ) : (f.drop n).getD k 0 = f.getD (n + k) 0 := by
    simp [List.getD_eq_getElem?_getD, List.getElem?_drop]
  have hhigh : BitVec.extractLsb' 8 8 ETHERNET_TYPE_IP = 0x08 := rfl
  have hlow : BitVec.extractLsb' 0 8 ETHERNET_TYPE_IP = 0x00 := rfl
  simp only [MacHeader.read, IpHeader.read, UdpHeader.read, hdrop, UDP_PROTOCOL, append_eq_iff, hhigh,
    hlow, toPort, ipAt, udpAt, portAt, Bool.and_eq_true, beq_iff_eq, Nat.reduceAdd, ← nibbles_iff]
  tauto

lemma narrow_iff (hbetween : hw.Between) (hf : 0 < f.length) (bytes : List (ByteBeat Unit)) :
    (∃ beats, SmolEthGroupReject.stage.Makes hw.groupreject (hw.gate.unrefused (frameBeats f)) beats ∧
      Bytes32to8.stage.Makes hw.narrow beats bytes) ↔
    bytes = if SmolEthGroupReject.isGroup (beatAt f 0) = false then byteBeats () f else [] := by
  have hcount : 0 < beatCount f := by
    rw [beatCount]
    omega
  have hpacket : IsPacket PhyBeat.last (frameBeats f) := isPacket_range hcount fun _ => rfl
  have hcons : frameBeats f = beatAt f 0 :: (frameBeats f).drop 1 := drop_frameBeats hcount
  have howes : hw.groupreject.owes (frameBeats f) =
      if SmolEthGroupReject.isGroup (beatAt f 0) then [] else frameBeats f := by
    rw [hcons] at hpacket ⊢
    exact SmolEthGroupReject.owes_packet hbetween.first hpacket
  simp only [AlwaysReady.unrefused_eq hbetween.dropping hbetween.needLast,
    SmolEthGroupReject.owing.makes_iff, howes, exists_eq_left]
  cases SmolEthGroupReject.isGroup (beatAt f 0) with
  | true =>
    simp only [if_true, Bool.true_eq_false, if_false]
    rw [Bytes32to8.owing.makes_iff, Bytes32to8.owes, Bytes32to8.rest_unloaded hbetween.loaded]
    rfl
  | false =>
    simp only [if_true, Bool.false_eq_true, if_false]
    constructor
    · exact fun h => h.unique (Bytes32to8.makes_frame hbetween.loaded f)
    · rintro rfl
      exact Bytes32to8.makes_frame hbetween.loaded f

lemma filters_iff (hw : HardwareBranch) (hd : d.Strip) (hlen : 60 ≤ f.length) (x : Prop) [Decidable x]
    (ys : List (ByteBeat (BitVec 8 × UdpHeader))) :
    (∃ macs ips,
      (SmolEthMACFilter hw.macAddress).Makes .idle
        (depacketize d.mac (fun _ h => h) (if x then byteBeats () f else [])) macs ∧
      (SmolEthIP hw.ipAddress UDP_PROTOCOL).Makes .idle (depacketize d.ip (fun _ h => h) macs) ips ∧
      (SmolEthUDP hw.udpPort).Makes .idle
        (depacketize d.udp (fun ip h => (ip.protocol, h)) ips) ys) ↔
    ys = if x ∧ (MacHeader.read f).targetMac = hw.macAddress ∧
        (IpHeader.read (f.drop 14)).targetIp = hw.ipAddress ∧ toPort f hw.udpPort = true
      then byteBeats ((IpHeader.read (f.drop 14)).protocol, .read (f.drop 34)) (f.drop 42) else [] := by
  have hne (n : ℕ) (hn : n < 60) : f.drop n ≠ [] := by
    rw [← List.length_pos_iff, List.length_drop]
    omega
  have hf : f ≠ [] := hne 0 (by decide)
  have hip : d.ip (f.drop 14) = (.read (f.drop 14), f.drop 34) := by
    rw [hd.ip _ (by rw [List.length_drop]; omega), List.drop_drop]
  have hudp : d.udp (f.drop 34) = (.read (f.drop 34), f.drop 42) := by
    rw [hd.udp _ (by rw [List.length_drop]; omega), List.drop_drop]
  simp only [← passes_iff hw f, SmolEthMACFilter, SmolEthIP, SmolEthUDP,
    depacketize_byteBeats _ _ _ hf, hd.mac f (by omega),
    makes_byteBeats (hne 14 (by decide)), exists_and_left, exists_eq_left,
    depacketize_byteBeats _ _ _ (hne 14 (by decide)), hip, makes_byteBeats (hne 34 (by decide)),
    depacketize_byteBeats _ _ _ (hne 34 (by decide)), hudp, makes_byteBeats (hne 42 (by decide))]
  apply iff_of_eq
  congr 1
  apply if_congr _ rfl rfl
  simp only [Bool.and_eq_true, beq_iff_eq]
  tauto

lemma addressed_iff : hw.Addressed f ↔ SmolEthGroupReject.isGroup (beatAt f 0) = false ∧
    (MacHeader.read f).targetMac = hw.macAddress ∧
    (IpHeader.read (f.drop 14)).targetIp = hw.ipAddress ∧ toPort f hw.udpPort = true :=
  ⟨fun h => ⟨h.unicast, h.mac, h.ip, h.port⟩, fun h => ⟨h.1, h.2.1, h.2.2.1, h.2.2.2⟩⟩

instance : Decidable (hw.Addressed f) := decidable_of_iff _ addressed_iff.symm

/-- What the branch makes of a whole frame. -/
theorem delivers_iff (hd : d.Strip) (hbetween : hw.Between) (hlen : 60 ≤ f.length)
    (ys : List (ByteBeat (BitVec 8 × UdpHeader))) :
    hw.Delivers d (frameBeats f) ys ↔ ys = if hw.Addressed f then
      byteBeats ((IpHeader.read (f.drop 14)).protocol, .read (f.drop 34)) (f.drop 42) else [] := by
  have hnarrow := narrow_iff (f := f) hbetween (by omega)
  have hfilters := filters_iff hw hd hlen (SmolEthGroupReject.isGroup (beatAt f 0) = false) ys
  simp only [addressed_iff]
  rw [← hfilters]
  constructor
  · rintro ⟨beats, bytes, macs, ips, hgroup, hbytes, hmac, hip, hudp⟩
    rw [← (hnarrow bytes).mp ⟨beats, hgroup, hbytes⟩]
    exact ⟨macs, ips, hmac, hip, hudp⟩
  · rintro ⟨macs, ips, hmac, hip, hudp⟩
    obtain ⟨beats, hgroup, hbytes⟩ := (hnarrow _).mpr rfl
    exact ⟨beats, _, macs, ips, hgroup, hbytes, hmac, hip, hudp⟩

/-- The frame's payload reaches the pixel DMA. -/
def DeliversPayload (hw : HardwareBranch) (d : Depacketizers) (f : List Byte) : Prop :=
  ∃ user, hw.Delivers d (frameBeats f) (byteBeats user (f.drop 42))

lemma deliversPayload_iff (hd : d.Strip) (hbetween : hw.Between) (hlen : 60 ≤ f.length) :
    hw.DeliversPayload d f ↔ hw.Addressed f := by
  simp only [DeliversPayload, delivers_iff hd hbetween hlen]
  constructor
  · rintro ⟨user, huser⟩
    by_contra haddressed
    rw [if_neg haddressed] at huser
    have hzero := congrArg List.length huser
    simp [byteBeats] at hzero
    omega
  · intro haddressed
    exact ⟨_, (if_pos haddressed).symm⟩

end HardwareBranch

section Killing

variable {f : List Byte} {port : BitVec 16}

def SmolEthPixelClassifier.over (port : BitVec 16) (c : SmolEthPixelClassifier) (bs : List PhyBeat) :
    SmolEthPixelClassifier := bs.foldl (fun c b => c.take true port b) c

/-- The frame counts as killed on the CPU's branch. -/
def Kills (f : List Byte) (port : BitVec 16) (killed : BitVec 32) : Prop :=
  (SmolEthPixelClassifier.over port { killed := killed } (frameBeats f)).killed = killed + 1

lemma judged_take (hf : IsFrame f) (port : BitVec 16) (killed : BitVec 32) {k : ℕ}
    (hk : k < beatCount f) :
    let c := SmolEthPixelClassifier.over port { killed := killed } ((frameBeats f).take k)
    Judged f port k c ∧ c.killed = killed := by
  induction k with
  | zero => exact ⟨judged_fresh f port killed, rfl⟩
  | succ k ih =>
    obtain ⟨hj, hkilled⟩ := ih (by omega)
    have hmax := hf.count_le
    have hl : (beatAt f k).last = false := decide_eq_false (by omega)
    rw [take_frameBeats (by omega), SmolEthPixelClassifier.over, List.foldl_append, List.foldl_cons,
      List.foldl_nil, Feed.take_mid hl]
    exact ⟨hj.next (by omega), hkilled⟩

lemma kills_iff (hf : IsFrame f) (killed : BitVec 32) :
    Kills f port killed ↔ isPixel f port = true ∨ Misread f port := by
  have h₁₅ := hf.fifteen_le
  obtain ⟨n, hn⟩ : ∃ n, beatCount f = n + 1 := ⟨beatCount f - 1, by omega⟩
  obtain ⟨hj, hkilled⟩ := judged_take hf port killed (k := n) (by omega)
  have hl : (beatAt f n).last = true := decide_eq_true hn.symm
  have hall : frameBeats f = (frameBeats f).take n ++ [beatAt f n] := by
    rw [← take_frameBeats (by omega), ← hn, ← frameBeats_length, List.take_length]
  have hmatched := hj.matched
  rw [Kills, hall, SmolEthPixelClassifier.over, List.foldl_append, List.foldl_cons, List.foldl_nil,
    ← SmolEthPixelClassifier.over]
  generalize SmolEthPixelClassifier.over _ _ _ = c at hkilled hmatched ⊢
  rw [SmolEthPixelClassifier.take, if_pos hl]
  have hcount : (c.killed + if c.invalid true then 1 else 0) = killed + 1 ↔ c.matched = true := by
    rw [hkilled, SmolEthPixelClassifier.invalid, Bool.and_true]
    cases c.matched <;> simp
  rw [hcount, hmatched, if_neg (by omega), Misread, hn]
  by_cases hwrap : n ≤ 266
  · rw [if_pos hwrap]
    constructor
    · exact Or.inl
    · rintro (hp | ⟨hle, -⟩)
      · exact hp
      · omega
  · rw [if_neg hwrap]
    simp only [Bool.or_eq_true, Bool.and_eq_true, Bool.not_eq_true']
    have hle : 268 ≤ n + 1 := by omega
    tauto

end Killing

namespace HardwareBranch

/-- Of the frames that the classifier kills, the hardware branch delivers the ones that are addressed
to it. -/
theorem killed_delivers_iff (d : Depacketizers) (hd : d.Strip) (hw : HardwareBranch)
    (hbetween : hw.Between) (f : List Byte) (hf : IsFrame f) (port : BitVec 16) (killed : BitVec 32) :
    (Kills f port killed → hw.DeliversPayload d f) ↔
      (isPixel f port = true ∨ Misread f port → hw.Addressed f) := by
  rw [kills_iff hf killed, deliversPayload_iff hd hbetween hf.sixty_le]

def cutters : Depacketizers where
  mac p := (.read p, p.drop 14)
  ip p := (.read p, p.drop 20)
  udp p := (.read p, p.drop 8)

lemma cutters_strip : cutters.Strip := ⟨fun _ _ => rfl, fun _ _ => rfl, fun _ _ => rfl⟩

/-- A card at 10:e2:d5:00:00:01 and 192.168.1.50. -/
def card : HardwareBranch where
  macAddress := 0x10e2d5000001
  ipAddress := 0xc0a80132
  udpPort := 7000

theorem killed_delivers_iff_pixels :
    (Kills Feed.pixels 7000 0 → card.DeliversPayload cutters Feed.pixels) ↔
      (isPixel Feed.pixels 7000 = true ∨ Misread Feed.pixels 7000 → card.Addressed Feed.pixels) :=
  killed_delivers_iff cutters cutters_strip card ⟨rfl, rfl, rfl, rfl⟩ Feed.pixels
    ⟨by decide, by decide⟩ 7000 0

/-- A chunk that is sent to everyone. -/
def broadcast : List Byte :=
  List.replicate 6 0xFF ++ List.replicate 6 0 ++ [0x08, 0x00, 0x45] ++ List.replicate 8 0 ++ [17] ++
    List.replicate 6 0 ++ [192, 168, 1, 255] ++ List.replicate 2 0 ++ [0x1B, 0x58] ++
    List.replicate 4 0 ++ [0x42, 0x4D] ++ List.replicate 20 0

theorem broadcast_lost : IsFrame broadcast ∧ Kills broadcast 7000 0 ∧
    ¬ card.DeliversPayload cutters broadcast := by
  have hframe : IsFrame broadcast := ⟨by decide, by decide⟩
  refine ⟨hframe, (kills_iff hframe 0).mpr (.inl (by decide)), ?_⟩
  rw [deliversPayload_iff cutters_strip ⟨rfl, rfl, rfl, rfl⟩ hframe.sixty_le]
  intro haddressed
  exact absurd haddressed.mac (by decide)

end HardwareBranch

end Ledwall.Gateware
