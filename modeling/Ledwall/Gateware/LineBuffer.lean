import Mathlib.Data.Nat.Size
import Ledwall.Gateware.SourceReturns

/-! A row's fill through a source that takes requests ahead, and the line buffer over it: a fill's valids
are the row's columns, and a line buffer that says it is primed shows the row it is asked for. -/

namespace Ledwall.Gateware

namespace FetchTrace

variable {z : SourceConfig} {s : FetchTrace z.greyBits} {req : Bool} {row col : ℕ} {c : FillCycle z}

/-- A request has all its columns only with its last word. -/
lemma mul_le_of_done (hz : z.Built) {n m : ℕ} (h : z.burst * m ≤ z.done n) : z.perRequest * m ≤ n := by
  cases hf : z.fetch with
  | block k a0 a1 b0 b1 =>
    have hk := hz.block_pos hf
    rw [SourceConfig.done, hz.burst_block hf, hf] at h
    rw [SourceConfig.perRequest_block hf]
    dsimp only at h
    have hdiv := Nat.div_add_mod n (4 * k)
    have hlt := Nat.mod_lt n (show 0 < 4 * k by omega)
    have hm : m ≤ n / (4 * k) := by
      by_contra hmore
      have hle : k * (n / (4 * k) + 1) ≤ k * m := Nat.mul_le_mul_left k (by omega)
      rw [Nat.mul_succ] at hle
      omega
    calc 4 * k * m ≤ 4 * k * (n / (4 * k)) := Nat.mul_le_mul_left _ hm
      _ ≤ n := Nat.mul_div_le n _
  | plain | pipelined =>
    rw [SourceConfig.done, SourceConfig.burst, SourceConfig.block, hf] at h
    rw [SourceConfig.perRequest, hf]
    dsimp only at h ⊢
    have hm : m ≤ n / z.groups := (Nat.one_mul m).symm.le.trans h
    calc z.groups * m ≤ z.groups * (n / z.groups) := Nat.mul_le_mul_left _ hm
      _ ≤ n := Nat.mul_div_le n _

/-- Every word that was asked for is back, and there is no valid to come. -/
structure Quiet (s : FetchTrace z.greyBits) : Prop where
  idle : s.source.issuer.fsm = .idle
  all : s.answers.length = z.perRequest * s.asked.length
  validR : s.source.receiver.validR = false

/-- A source that takes requests ahead is idle once it has asked for all of them. -/
lemma Asking.idle (h : s.Asking) (hz : z.Built) (hf : z.fetch ≠ .plain)
    (hall : s.sentReads = z.perRequest * s.asked.length) : s.source.issuer.fsm = .idle := by
  cases h with
  | none _ hidle => exact hidle
  | some q n _ hsent hcount =>
    have hn : n = z.perRequest := by omega
    rw [Issuer.Sent] at hsent
    rw [SourceConfig.perRequest] at hn
    cases hfetch : z.fetch with
    | plain => exact absurd hfetch hf
    | pipelined =>
      simp only [hfetch] at hsent hn
      obtain ⟨-, hlt⟩ | ⟨hidle, -⟩ := hsent
      · omega
      · exact hidle
    | block k a0 a1 b0 b1 =>
      have hk := hz.block_pos hfetch
      simp only [hfetch] at hsent hn
      obtain hblock | ⟨hidle, -⟩ := hsent
      · cases hblock with
        | mul _ _ _ hzero => omega
        | adr0 _ _ _ hzero => omega
        | issue _ _ _ hat hj =>
          split at hat <;> omega
      · exact hidle

/-- Nothing comes of a cycle in which every word is back and no request is taken. -/
lemma Serves.quiet_next (h : s.Serves) (hz : z.Built) (hshared : z.sharedGamma = true → z.packed = false)
    (row col : ℕ) (hsteady : s.Steady c) (hidle : s.source.issuer.fsm = .idle)
    (hall : s.answers.length = z.perRequest * s.asked.length) :
    (s.next z false row col c).Quiet ∧ (s.next z false row col c).asked = s.asked ∧
      (s.next z false row col c).answers = s.answers := by
  have hcounts := h.asking.counts (c := c) h.rows
  have hasked : (s.next z false row col c).asked = s.asked := by simp [FetchTrace.next, takes]
  have hnone : s.answered z c = none := by
    cases ha : s.answered z c with
    | none => rfl
    | some ax =>
      have hlt := answered_lt ha
      omega
  have hanswers : (s.next z false row col c).answers = s.answers := answers_next_none hnone
  obtain ⟨-, hvalid⟩ := receives h hz hshared false row col hsteady
  refine ⟨⟨Issuer.next_idle hidle rfl _, by rw [hanswers, hasked, hall], ?_⟩, hasked, hanswers⟩
  rw [hanswers] at hvalid
  obtain ⟨hquiet, -⟩ | ⟨-, hdone, -⟩ := hvalid
  · exact hquiet
  · omega

lemma Serves.length_reads (h : s.Serves) : s.answers.length + s.reads.length ≤ z.perRequest * s.asked.length :=
  (Nat.le_add_right _ _).trans (h.asking.counts (c := {}) h.rows)

/-- Where nothing is on its way the books can be closed. -/
lemma Serves.close (h : s.Serves) (hz : z.Built) (hquiet : s.Quiet) :
    ({ s with asked := [], answers := [], shown := [] } : FetchTrace z.greyBits).Serves := by
  have hdone : z.done 0 = 0 := by simpa using done_mul z hz 0
  have hreads : s.reads = [] := by
    have hle := h.length_reads
    rw [hquiet.all] at hle
    exact List.eq_nil_of_length_eq_zero (by omega)
  have hall := hquiet.all
  have hcollected := h.collected
  refine ⟨fun _ hq => absurd hq List.not_mem_nil, .none rfl hquiet.idle ?_, ?_, ?_, ?_, ?_⟩
  · simp [sentReads, hreads]
  · simp [sentReads, hreads]
  · cases hf : z.fetch with
    | plain =>
      simp only [Collected, hf]
      rw [if_pos hquiet.idle]
      rfl
    | pipelined =>
      simp only [Collected, hf] at hcollected ⊢
      rw [SourceConfig.perRequest, hf] at hall
      have hrecvd := hcollected.recvd
      rw [hall, Nat.mul_mod_right] at hrecvd
      refine ⟨?_, fun g hg => ?_⟩
      · rw [hrecvd]
        exact (Nat.zero_mod _).symm
      · exact absurd hg (by simp)
    | block k a0 a1 b0 b1 =>
      simp only [Collected, hf] at hcollected ⊢
      rw [SourceConfig.perRequest_block hf] at hall
      obtain ⟨hrphase, hrk, hrw, -, -⟩ := hcollected
      have hpos := hz.block_pos hf
      rw [hall, Nat.mul_mod_right, decide_eq_false (by omega)] at hrphase
      rw [hall, show 4 * k * s.asked.length = 2 * k * (2 * s.asked.length) by ring, Nat.mul_mod_right] at hrk
      rw [hall, show 4 * k * s.asked.length = 2 * (2 * k * s.asked.length) by ring, Nat.mul_mod_right,
        decide_eq_false (by omega)] at hrw
      refine ⟨?_, ?_, ?_, ?_, ?_⟩
      · rw [hrphase]
        simp
        exact hpos.ne'
      · rw [hrk]
        simp
      · rw [hrw]
        simp
      · simp
      · simp
  · change (valids _).length = z.done 0
    rw [hdone, valids]
    simp [hquiet.validR]
  · change ∀ j < z.done 0, _
    rw [hdone]
    exact fun j hj => absurd hj (Nat.not_lt_zero j)

end FetchTrace

namespace RowLoad

variable {z : SourceConfig} {s : RowLoad z.greyBits} {c : FillCycle z}

/-- The requests are those of the row's columns, one burst behind the other. -/
def InRow (z : SourceConfig) (row : ℕ) (asked : List FetchRequest) : Prop :=
  ∀ m q, asked[m]? = some q → q.row = row ∧ q.col = z.burst * m

/-- How far the requests of a fill are. -/
def Requested (z : SourceConfig) (f : LineFill) (m : ℕ) : Prop :=
  if f.reqActive then f.reqCol = z.burst * m ∧ f.reqCol < z.columns else z.burst * m = z.columns

/-- A fill has written as many columns as there have been valids, and asked for all up to its request
column; between fills nothing is on its way. -/
structure Loads (s : RowLoad z.greyBits) : Prop where
  serves : s.trace.Serves
  between : s.fill.filling = false → s.trace.Quiet
  inRow : s.fill.filling = true → InRow z s.fill.fillRow s.trace.asked
  requested : s.fill.filling = true → Requested z s.fill s.trace.asked.length
  written : s.fill.filling = true → s.trace.shown.length = s.fill.fillCol ∧ s.fill.fillCol < z.columns

lemma req_eq (hf : z.fetch ≠ .plain) : s.req z = (s.fill.filling && s.fill.reqActive) := by
  rw [req, LineFill.srcReq]
  split
  · contradiction
  · rfl

lemma srcCol_eq (hf : z.fetch ≠ .plain) : s.fill.srcCol z = s.fill.reqCol := by
  rw [LineFill.srcCol]
  split
  · contradiction
  · rfl

lemma InRow.next {row : ℕ} (h : InRow z row s.trace.asked) {req : Bool} {col : ℕ} 
    (hcol : s.trace.takes z req = true → col = z.burst * s.trace.asked.length) :
    InRow z row (s.trace.next z req row col c).asked := by
  intro m q hq
  rw [FetchTrace.next] at hq
  by_cases hm : m < s.trace.asked.length
  · rw [List.getElem?_append_left hm] at hq
    exact h m q hq
  · rw [List.getElem?_append_right (by omega)] at hq
    split at hq
    · next htakes =>
      cases hk : m - s.trace.asked.length with
      | zero =>
        rw [hk] at hq
        cases hq
        exact ⟨rfl, by rw [hcol htakes, show m = s.trace.asked.length by omega]⟩
      | succ k =>
        rw [hk] at hq
        cases hq
    · cases hq

/-- The valids of a fill that is at its last column are all there will be. -/
lemma Loads.all (h : s.Loads) (hz : z.Built) (hf : z.fetch ≠ .plain) (hfilling : s.fill.filling = true)
    (hvalid : s.trace.source.receiver.validR = true) (hlast : s.fill.fillCol = z.columns - 1) :
    s.fill.reqActive = false ∧ s.trace.answers.length = z.perRequest * s.trace.asked.length ∧
      s.trace.source.issuer.fsm = .idle := by
  obtain ⟨m, hm⟩ := hz.burst_dvd
  obtain ⟨hshown, hcol⟩ := h.written hfilling
  have hrequested := h.requested hfilling
  have hlen : s.trace.valids.length = z.burst * m := by
    rw [FetchTrace.valids, hvalid, if_pos rfl, List.length_append, hshown, List.length_singleton, ← hm]
    omega
  have hle := FetchTrace.mul_le_of_done hz (h.serves.count ▸ hlen).ge
  have hreads := h.serves.length_reads
  have hpos := hz.perRequest_pos
  have hasked : m ≤ s.trace.asked.length :=
    Nat.le_of_mul_le_mul_left (hle.trans (by omega)) hpos
  have hactive : s.fill.reqActive = false := by
    cases ha : s.fill.reqActive with
    | false => rfl
    | true =>
      rw [Requested, ha, if_pos rfl, hm] at hrequested
      have hlt : s.trace.asked.length < m := Nat.lt_of_mul_lt_mul_left (hrequested.1 ▸ hrequested.2)
      omega
  rw [Requested, hactive, if_neg Bool.false_ne_true, hm] at hrequested
  have heq := Nat.eq_of_mul_eq_mul_left SourceConfig.burst_pos hrequested
  rw [← heq] at hle
  refine ⟨hactive, by omega, h.serves.asking.idle hz hf ?_⟩
  rw [FetchTrace.sentReads]
  omega

/-- A cycle between two fills, or the one that begins a fill. -/
lemma Loads.next_between (h : s.Loads) (hz : z.Built) (hf : z.fetch ≠ .plain)
    (hshared : z.sharedGamma = true → z.packed = false) (hsteady : s.trace.Steady c)
    (hbetween : s.fill.filling = false) : (s.next z c).Loads := by
  have hpacked : z.packed = false := (hz.plain hf).1
  have hreq : s.req z = false := by rw [req_eq hf, hbetween, Bool.false_and]
  obtain ⟨hidle, hall, -⟩ := h.between hbetween
  have hserves := h.serves.next hz hshared false s.fill.fillRow (s.fill.srcCol z)
    (by rw [hpacked]; exact nofun) hsteady
  obtain ⟨hquiet, -, -⟩ := h.serves.quiet_next hz hshared s.fill.fillRow (s.fill.srcCol z)
    hsteady hidle hall
  rw [next, starts, hreq, hbetween]
  cases hstart : c.start with
  | none =>
    refine ⟨hserves, fun _ => hquiet, ?_, ?_, ?_⟩ <;>
      · intro hfilling
        simp [LineFill.next, hbetween] at hfilling
  | some row =>
    refine ⟨hserves.close hz hquiet, ?_, ?_, ?_, ?_⟩
    · intro hfilling
      simp [LineFill.next, hbetween] at hfilling
    · exact fun _ m q hq => absurd hq (by simp)
    · intro _
      simp [Requested, LineFill.next, hbetween, hz.columns]
    · intro _
      simp [LineFill.next, hbetween, hz.columns]

section Filling

/-- A fill's requests go on whatever its writes do. -/
def request (z : SourceConfig) (f : LineFill) (ack : Bool) : LineFill :=
  if ack then
    if f.reqCol ≥ z.columns - max 1 z.block then { f with reqActive := false }
    else { f with reqCol := f.reqCol + max 1 z.block }
  else f

lemma fill_next {f : LineFill} (h : f.filling = true) (start : Option ℕ) (ack valid : Bool) :
    f.next z start ack valid =
      if valid then
        if f.fillCol = z.columns - 1 then { request z f ack with filling := false }
        else { request z f ack with fillCol := f.fillCol + 1 }
      else request z f ack := by
  simp [LineFill.next, h, request]

lemma request_same (f : LineFill) (ack : Bool) : (request z f ack).filling = f.filling ∧
    (request z f ack).fillRow = f.fillRow ∧ (request z f ack).fillCol = f.fillCol := by
  rw [request]
  split
  · split <;> exact ⟨rfl, rfl, rfl⟩
  · exact ⟨rfl, rfl, rfl⟩

/-- One more request of a row. -/
lemma Requested.next {f : LineFill} {m : ℕ} (h : Requested z f m) (hz : z.Built)
    (hactive : f.reqActive = true) : Requested z (request z f true) (m + 1) := by
  obtain ⟨k, hk⟩ := hz.burst_dvd
  rw [Requested, hactive, if_pos rfl] at h
  obtain ⟨hcol, hlt⟩ := h
  have hpos := SourceConfig.burst_pos (z := z)
  have hm : m < k := Nat.lt_of_mul_lt_mul_left (hcol ▸ hk ▸ hlt)
  have hle : z.burst * (m + 1) ≤ z.columns := hk ▸ Nat.mul_le_mul_left _ hm
  rw [Nat.mul_succ] at hle
  rw [request, if_pos rfl]
  change Requested z (if f.reqCol ≥ z.columns - z.burst then _ else { f with reqCol := f.reqCol + z.burst }) _
  by_cases hend : f.reqCol ≥ z.columns - z.burst
  · rw [if_pos hend, Requested, if_neg (by exact Bool.false_ne_true), Nat.mul_succ]
    omega
  · rw [if_neg hend, Requested]
    change if f.reqActive = true then f.reqCol + z.burst = z.burst * (m + 1) ∧ f.reqCol + z.burst < z.columns
      else z.burst * (m + 1) = z.columns
    rw [hactive, if_pos rfl, Nat.mul_succ]
    omega

lemma length_asked_next (s : FetchTrace z.greyBits) (req : Bool) (row col : ℕ) (c : FillCycle z) :
    (s.next z req row col c).asked.length = s.asked.length + (s.takes z req).toNat := by
  rw [FetchTrace.next, List.length_append]
  cases s.takes z req <;> rfl

/-- A fill's requests and valids in one cycle. -/
lemma Loads.goes_on (h : s.Loads) (hz : z.Built) (hfilling : s.fill.filling = true) (c : FillCycle z) :
    InRow z s.fill.fillRow (s.trace.next z s.fill.reqActive s.fill.fillRow s.fill.reqCol c).asked ∧
      Requested z (request z s.fill (s.trace.takes z s.fill.reqActive))
        (s.trace.next z s.fill.reqActive s.fill.fillRow s.fill.reqCol c).asked.length ∧
      (s.trace.next z s.fill.reqActive s.fill.fillRow s.fill.reqCol c).shown.length =
        s.fill.fillCol + s.trace.source.receiver.validR.toNat := by
  have hrequested := h.requested hfilling
  refine ⟨(h.inRow hfilling).next fun htakes => ?_, ?_, ?_⟩
  · rw [FetchTrace.takes, Bool.and_eq_true] at htakes
    rw [Requested, htakes.2, if_pos rfl] at hrequested
    exact hrequested.1
  · rw [length_asked_next]
    cases htakes : s.trace.takes z s.fill.reqActive with
    | false => exact hrequested
    | true =>
      rw [FetchTrace.takes, Bool.and_eq_true] at htakes
      exact hrequested.next hz htakes.2
  · rw [FetchTrace.next, List.length_append, (h.written hfilling).1]
    cases s.trace.source.receiver.validR <;> rfl

lemma next_of_filling (hf : z.fetch ≠ .plain) (hfilling : s.fill.filling = true) :
    s.next z c = ⟨s.fill.next z (c.start.map Fin.val) (s.trace.takes z s.fill.reqActive)
      s.trace.source.receiver.validR,
      s.trace.next z s.fill.reqActive s.fill.fillRow s.fill.reqCol c⟩ := by
  have hreq : s.req z = s.fill.reqActive := by rw [req_eq hf, hfilling, Bool.true_and]
  rw [next, starts, hfilling, Bool.not_true, Bool.false_and, if_neg Bool.false_ne_true, srcCol_eq hf,
    hreq, decide_eq_true hf, Bool.true_and]

/-- A cycle of a fill. -/
lemma Loads.next_filling (h : s.Loads) (hz : z.Built) (hf : z.fetch ≠ .plain)
    (hshared : z.sharedGamma = true → z.packed = false) (hsteady : s.trace.Steady c)
    (hfilling : s.fill.filling = true) : (s.next z c).Loads := by
  have hpacked : z.packed = false := (hz.plain hf).1
  have hserves := h.serves.next hz hshared s.fill.reqActive s.fill.fillRow s.fill.reqCol
    (by rw [hpacked]; exact nofun) hsteady
  obtain ⟨hinRow, hrequested, hshown⟩ := h.goes_on hz hfilling c
  obtain ⟨hfilling', hrow, hcol'⟩ := request_same (z := z) s.fill (s.trace.takes z s.fill.reqActive)
  have hcol := (h.written hfilling).2
  rw [next_of_filling hf hfilling, fill_next hfilling]
  cases hvalid : s.trace.source.receiver.validR with
  | false =>
    rw [hvalid, Bool.toNat_false, Nat.add_zero] at hshown
    rw [if_neg Bool.false_ne_true]
    refine ⟨hserves, fun hno => ?_, fun _ => hrow ▸ hinRow, fun _ => hrequested, fun _ => ?_⟩
    · rw [hfilling', hfilling] at hno
      cases hno
    · rw [hcol']
      exact ⟨hshown, hcol⟩
  | true =>
    rw [hvalid, Bool.toNat_true] at hshown
    rw [if_pos rfl]
    by_cases hlast : s.fill.fillCol = z.columns - 1
    · obtain ⟨hactive, hall, hidle⟩ := h.all hz hf hfilling hvalid hlast
      rw [if_pos hlast]
      rw [hactive] at hserves ⊢
      obtain ⟨hquiet, -⟩ := h.serves.quiet_next hz hshared s.fill.fillRow s.fill.reqCol
        hsteady hidle hall
      exact ⟨hserves, fun _ => hquiet, nofun, nofun, nofun⟩
    · rw [if_neg hlast]
      refine ⟨hserves, fun hno => ?_, fun _ => hrow ▸ hinRow, fun _ => hrequested, fun _ => ⟨hshown, ?_⟩⟩
      · rw [hfilling', hfilling] at hno
        cases hno
      · change s.fill.fillCol + 1 < z.columns
        omega

end Filling

lemma Loads.next (h : s.Loads) (hz : z.Built) (hf : z.fetch ≠ .plain)
    (hshared : z.sharedGamma = true → z.packed = false) (hsteady : s.trace.Steady c) :
    (s.next z c).Loads := by
  cases hfilling : s.fill.filling with
  | false => exact h.next_between hz hf hshared hsteady hfilling
  | true => exact h.next_filling hz hf hshared hsteady hfilling

lemma loads_reset (hz : z.Built) : ({} : RowLoad z.greyBits).Loads :=
  ⟨FetchTrace.serves_reset hz, fun _ => ⟨rfl, rfl, rfl⟩, nofun, nofun, nofun⟩

end RowLoad

open Library.Runs

/-- How many rows a line buffer holds. -/
inductive Bufs
  | two
  | three
  deriving DecidableEq, Repr

def Bufs.count : Bufs → ℕ
  | two => 2
  | three => 3

/-- One cycle around a line buffer: where the serialiser is, and the memory behind the source. -/
structure LineCycle (z : SourceConfig) where
  row : Fin z.rowsPerFrame
  rowBase : Fin z.rowsPerFrame
  col : Fin z.columns
  settings : FetchSettings := {}
  ready : Bool := false
  answer : Bool := false
  ram : BitVec 32 → BitVec 32 := fun _ => 0

/-- `Icn1065LineBuffer`. `load` is its fill side with the source behind it, `mem` goes by address and
group, `datR` is the registered output of the read port. Beside them, for each slot, what went to and
fro in the fill that last ended in it. -/
structure LineBuffer (w : ℕ) where
  load : RowLoad w := {}
  mem : ℕ → ℕ → Shades w := fun _ _ _ => 0
  held : ℕ → ℕ := fun _ => 0
  heldOk : ℕ → Bool := fun _ => false
  fillSlot : ℕ := 0
  prevRow : ℕ := 0
  rdSlot : ℕ := 0
  datR : ℕ → Shades w := fun _ _ => 0
  filled : ℕ → FetchTrace w := fun _ => {}

namespace LineBuffer

variable (z : SourceConfig) (bufs : Bufs) (b : LineBuffer z.greyBits) (i : LineCycle z)

lemma nextRow_lt {n : ℕ} (r : Fin n) : (if r.val = n - 1 then 0 else r.val + 1) < n := by
  have hlt := r.isLt
  split <;> omega

def nextRow {n : ℕ} (r : Fin n) : Fin n := ⟨if r.val = n - 1 then 0 else r.val + 1, nextRow_lt r⟩

def nextSlot (k : ℕ) : ℕ := if k = 2 then 0 else k + 1

/-- The slot of the true row. -/
def slotNow : ℕ := if i.rowBase.val ≠ b.prevRow then nextSlot b.rdSlot else b.rdSlot

def need (row slot : ℕ) : Bool := !b.heldOk slot || b.held slot ≠ row

/-- The row that is missing, if one is, and its slot. -/
def start : Option (Fin z.rowsPerFrame × ℕ) :=
  match bufs with
  | .two =>
    let r := nextRow i.row
    if b.need z r.val (r.val % 2) then some (r, r.val % 2) else none
  | .three =>
    let s1 := nextSlot (b.slotNow z i)
    let s2 := nextSlot s1
    let r1 := nextRow i.rowBase
    let r2 := nextRow r1
    if b.need z r1.val s1 then some (r1, s1)
    else if b.need z r2.val s2 then some (r2, s2)
    else none

/-- Two slots are told apart by the row, three by a counter. A column of a power of two is put below
the slot's bits. -/
def adr (slot col : ℕ) : ℕ :=
  match bufs with
  | .two => slot * z.columns + col
  | .three =>
    if z.columns &&& (z.columns - 1) = 0 then col + slot <<< max 1 (z.columns - 1).size
    else slot * z.columns + col

/-- How many words the memory has. -/
def depth : ℕ :=
  match bufs with
  | .two => 2 * z.columns
  | .three => if z.columns &&& (z.columns - 1) = 0 then 4 * z.columns else 3 * z.columns

def writeSlot : ℕ :=
  match bufs with
  | .two => b.load.fill.fillRow % 2
  | .three => b.fillSlot

def readSlot : ℕ :=
  match bufs with
  | .two => i.row.val % 2
  | .three => if i.row ≠ i.rowBase then nextSlot (b.slotNow z i) else b.slotNow z i

def writeAdr : ℕ := adr z bufs (b.writeSlot z bufs) b.load.fill.fillCol

def readAdr : ℕ := adr z bufs (b.readSlot z bufs i) i.col.val

def we : Bool := b.load.trace.source.receiver.validR && b.load.fill.filling

/-- The last column of a fill is written. -/
def ends : Bool := b.we z && b.load.fill.fillCol = z.columns - 1

def primed : Bool :=
  b.heldOk (b.readSlot z bufs i) && b.held (b.readSlot z bufs i) = i.row.val

def memory : FillCycle z where
  start := (b.start z bufs i).map Prod.fst
  settings := i.settings
  ready := i.ready
  answer := i.answer
  ram := i.ram

/-- The slot that a fill begins to overwrite. -/
def opens : Option ℕ := if b.load.fill.filling then none else (b.start z bufs i).map Prod.snd

def next : LineBuffer z.greyBits where
  load := b.load.next z (b.memory z bufs i)
  mem :=
    if b.we z then Function.update b.mem (b.writeAdr z bufs) b.load.trace.source.receiver.held else b.mem
  held := if b.ends z then Function.update b.held (b.writeSlot z bufs) b.load.fill.fillRow else b.held
  heldOk :=
    match b.opens z bufs i with
    | some k => Function.update b.heldOk k false
    | none => if b.ends z then Function.update b.heldOk (b.writeSlot z bufs) true else b.heldOk
  fillSlot := (b.opens z bufs i).getD b.fillSlot
  prevRow := i.rowBase.val
  rdSlot := b.slotNow z i
  datR := b.mem (b.readAdr z bufs i)
  filled := if b.ends z then Function.update b.filled (b.writeSlot z bufs) b.load.trace else b.filled

/-- What the constructors of the buffer and of its serialiser assert. -/
structure Built : Prop where
  source : z.Built
  pipelined : z.fetch ≠ .plain
  rows : z.rowsPerFrame % 2 = 0
  columns : 16 ∣ z.columns

variable {z bufs b i}

section Addresses

/-- No two columns of the slots share a word. -/
lemma adr_inj {k l c d : ℕ} (hc : c < z.columns) (hd : d < z.columns)
    (h : adr z bufs k c = adr z bufs l d) : k = l ∧ c = d := by
  have hrows : k * z.columns + c = l * z.columns + d → k = l ∧ c = d := by
    intro heq
    have hk : k = l := by
      have hdiv := congrArg (· / z.columns) heq
      simpa [Nat.add_div_of_dvd_right (Nat.dvd_mul_left _ _), Nat.div_eq_of_lt hc, Nat.div_eq_of_lt hd,
        Nat.mul_div_cancel _ (show 0 < z.columns by omega)] using hdiv
    subst hk
    exact ⟨rfl, by omega⟩
  cases bufs with
  | two => exact hrows h
  | three =>
    rw [adr, adr] at h
    split at h
    · have hsize := Nat.lt_size_self (z.columns - 1)
      have hle : 2 ^ (z.columns - 1).size ≤ 2 ^ max 1 (z.columns - 1).size :=
        Nat.pow_le_pow_right (by decide) (Nat.le_max_right _ _)
      rw [Nat.shiftLeft_eq, Nat.shiftLeft_eq] at h
      generalize 2 ^ max 1 (z.columns - 1).size = n at h hle
      have hk : k = l := by
        have hdiv := congrArg (· / n) h
        simpa [Nat.add_mul_div_right _ _ (show 0 < n by omega), Nat.div_eq_of_lt (show c < n by omega),
          Nat.div_eq_of_lt (show d < n by omega)] using hdiv
      subst hk
      exact ⟨rfl, by omega⟩
    · exact hrows h

/-- A slot's columns lie within the memory. -/
lemma adr_lt {k c : ℕ} (hcolumns : 16 ∣ z.columns) (hk : k < bufs.count)
    (hc : c < z.columns) : adr z bufs k c < depth z bufs := by
  have hrow (n : ℕ) (hn : k < n) : k * z.columns + c < n * z.columns := by
    calc k * z.columns + c < (k + 1) * z.columns := by rw [Nat.succ_mul]; omega
      _ ≤ n * z.columns := Nat.mul_le_mul_right _ hn
  cases bufs with
  | two => exact hrow 2 hk
  | three =>
    rw [adr, depth]
    split
    · next hp =>
      obtain ⟨e, he⟩ := (Nat.and_sub_one_eq_zero_iff_isPowerOfTwo (by omega)).mp hp
      obtain ⟨m, hm⟩ := hcolumns
      have hpos : 0 < e := by
        rcases Nat.eq_zero_or_pos e with rfl | hpos
        · omega
        · exact hpos
      have hsize : (z.columns - 1).size = e := by
        refine Nat.le_antisymm (Nat.size_le.mpr (by omega)) ?_
        by_contra hless
        have hlt := Nat.size_le.mp (show (z.columns - 1).size ≤ e - 1 by omega)
        have htwo : 2 ^ e = 2 * 2 ^ (e - 1) := by rw [← Nat.pow_succ', Nat.succ_eq_add_one, Nat.sub_add_cancel hpos]
        omega
      rw [hsize, Nat.max_eq_right hpos, Nat.shiftLeft_eq, ← he]
      have hle : k * z.columns ≤ 2 * z.columns := Nat.mul_le_mul_right _ (Nat.lt_succ_iff.mp hk)
      omega
    · exact hrow 3 hk

end Addresses

/-- A slot that is marked as holding a row holds what one whole fill of that row brought. The slot that
a fill is going on in is not marked, and has the columns that the fill has written. -/
structure Honest (z : SourceConfig) (bufs : Bufs) (b : LineBuffer z.greyBits) : Prop where
  loads : b.load.Loads
  filling : b.load.fill.filling = true → b.heldOk (b.writeSlot z bufs) = false ∧
    ∀ j < b.load.fill.fillCol, b.mem (adr z bufs (b.writeSlot z bufs) j) =
      b.load.trace.shown.getD j fun _ _ => 0
  slot : ∀ k, b.heldOk k = true → (b.filled k).Serves ∧ (b.filled k).valids.length = z.columns ∧
    RowLoad.InRow z (b.held k) (b.filled k).asked ∧
      ∀ j < z.columns, b.mem (adr z bufs k j) = (b.filled k).valids.getD j fun _ _ => 0
  slots : b.rdSlot < 3 ∧ b.fillSlot < 3

lemma honest_reset (hz : z.Built) : Honest z bufs {} :=
  ⟨RowLoad.loads_reset hz, nofun, nofun, Nat.succ_pos 2, Nat.succ_pos 2⟩

lemma nextSlot_lt {k : ℕ} (hk : k < 3) : nextSlot k < 3 := by
  rw [nextSlot]
  split <;> omega

lemma Honest.slotNow_lt (h : Honest z bufs b) : b.slotNow z i < 3 := by
  rw [slotNow]
  split
  · exact nextSlot_lt h.slots.1
  · exact h.slots.1

section Next

lemma next_mem : (b.next z bufs i).mem = if b.we z then
    Function.update b.mem (b.writeAdr z bufs) b.load.trace.source.receiver.held else b.mem := rfl

lemma next_held : (b.next z bufs i).held = if b.ends z then
    Function.update b.held (b.writeSlot z bufs) b.load.fill.fillRow else b.held := rfl

lemma next_filled : (b.next z bufs i).filled = if b.ends z then
    Function.update b.filled (b.writeSlot z bufs) b.load.trace else b.filled := rfl

lemma next_heldOk : (b.next z bufs i).heldOk = ((b.opens z bufs i).map fun k =>
    Function.update b.heldOk k false).getD
      (if b.ends z then Function.update b.heldOk (b.writeSlot z bufs) true else b.heldOk) := by
  rw [next]
  cases b.opens z bufs i <;> rfl

end Next

/-- The slot that is opened is one there is, and with two slots the row's own. -/
lemma start_slot {r : Fin z.rowsPerFrame} {k : ℕ} (h : Honest z bufs b) (hstart : b.start z bufs i = some (r, k)) :
    k < 3 ∧ (bufs = .two → r.val % 2 = k) := by
  have hnow := h.slotNow_lt (i := i)
  cases bufs with
  | two =>
    simp only [start] at hstart
    split at hstart
    · cases hstart
      exact ⟨by omega, fun _ => rfl⟩
    · cases hstart
  | three =>
    simp only [start] at hstart
    refine ⟨?_, nofun⟩
    split at hstart
    · cases hstart
      exact nextSlot_lt hnow
    · split at hstart
      · cases hstart
        exact nextSlot_lt (nextSlot_lt hnow)
      · cases hstart

/-- A cycle between two fills, or the one that begins a fill. -/
lemma Honest.next_between (h : Honest z bufs b) (hb : Built z)
    (hsteady : b.load.trace.Steady (b.memory z bufs i)) (hbetween : b.load.fill.filling = false) :
    Honest z bufs (b.next z bufs i) := by
  have hpacked : z.packed = false := (hb.source.plain hb.pipelined).1
  have hloads := h.loads.next hb.source hb.pipelined (fun _ => hpacked) hsteady
  have hwe : b.we z = false := by rw [we, hbetween, Bool.and_false]
  have hends : b.ends z = false := by rw [ends, hwe, Bool.false_and]
  have hopens : b.opens z bufs i = (b.start z bufs i).map Prod.snd := by
    rw [opens, hbetween, if_neg Bool.false_ne_true]
  have hkept (k : ℕ) (hk : (b.next z bufs i).heldOk k = true) : b.heldOk k = true := by
    rw [next_heldOk, hopens, hends] at hk
    cases hstart : b.start z bufs i with
    | none =>
      rw [hstart] at hk
      exact hk
    | some rk =>
      rw [hstart] at hk
      change Function.update b.heldOk rk.2 false k = true at hk
      by_cases hkeq : k = rk.2
      · rw [hkeq, Function.update_self] at hk
        cases hk
      · rwa [Function.update_of_ne hkeq] at hk
  refine ⟨hloads, fun hfilling => ?_, fun k hk => ?_, h.slotNow_lt, ?_⟩
  · have hload : (b.next z bufs i).load = b.load.next z (b.memory z bufs i) := rfl
    rw [hload] at hfilling ⊢
    cases hstart : b.start z bufs i with
    | none => simp [RowLoad.next, LineFill.next, hbetween, memory, hstart] at hfilling
    | some rk =>
      obtain ⟨r, k⟩ := rk
      have hfill : (b.load.next z (b.memory z bufs i)).fill =
          { filling := true, fillRow := r.val, fillCol := 0, reqCol := 0, reqActive := true } := by
        simp [RowLoad.next, LineFill.next, hbetween, memory, hstart]
      have hslot : (b.next z bufs i).writeSlot z bufs = k := by
        cases hbufs : bufs with
        | two =>
          subst hbufs
          rw [writeSlot, hload, hfill]
          exact (start_slot h hstart).2 rfl
        | three =>
          subst hbufs
          rw [writeSlot, LineBuffer.next, hopens, hstart]
          rfl
      rw [hslot]
      refine ⟨?_, fun j hj => ?_⟩
      · rw [next_heldOk, hopens, hstart]
        exact Function.update_self ..
      · rw [hfill] at hj
        exact absurd hj (Nat.not_lt_zero j)
  · obtain ⟨hserves, hlen, hinRow, hmem⟩ := h.slot k (hkept k hk)
    rw [next_mem, next_held, next_filled, hends, hwe]
    exact ⟨hserves, hlen, hinRow, hmem⟩
  · change (b.opens z bufs i).getD b.fillSlot < 3
    rw [hopens]
    cases hstart : b.start z bufs i with
    | none => exact h.slots.2
    | some rk => exact (start_slot h hstart).1

/-- In the cycle of a valid the column goes behind those already written. -/
lemma Honest.written (h : Honest z bufs b) (hfilling : b.load.fill.filling = true)
    (hvalid : b.load.trace.source.receiver.validR = true) {j : ℕ} (hj : j < b.load.fill.fillCol + 1) :
    Function.update b.mem (b.writeAdr z bufs) b.load.trace.source.receiver.held
        (adr z bufs (b.writeSlot z bufs) j) =
      b.load.trace.valids.getD j fun _ _ => 0 := by
  obtain ⟨hshown, hcol⟩ := h.loads.written hfilling
  rw [FetchTrace.valids, hvalid, if_pos rfl]
  rcases Nat.lt_succ_iff_lt_or_eq.mp hj with hlt | rfl
  · have hne : adr z bufs (b.writeSlot z bufs) j ≠ b.writeAdr z bufs := by
      intro heq
      have heq' := (adr_inj (hlt.trans hcol) hcol heq).2
      omega
    rw [Function.update_of_ne hne, (h.filling hfilling).2 j hlt, List.getD_append _ _ _ _ (hshown ▸ hlt)]
  · rw [writeAdr, Function.update_self, List.getD_append_right _ _ _ _ hshown.le, hshown, Nat.sub_self]
    rfl

lemma request_slot (h : b.load.fill.filling = true) (hf : z.fetch ≠ .plain) :
    (b.next z bufs i).writeSlot z bufs = b.writeSlot z bufs := by
  have hopens : b.opens z bufs i = none := by rw [opens, h, if_pos rfl]
  cases hbufs : bufs with
  | two =>
    have hrow : (b.next z .two i).load.fill.fillRow = b.load.fill.fillRow := by
      rw [LineBuffer.next, RowLoad.next_of_filling hf h, RowLoad.fill_next h]
      have hsame := (RowLoad.request_same (z := z) b.load.fill
        (b.load.trace.takes z b.load.fill.reqActive)).2.1
      split
      · split <;> exact hsame
      · exact hsame
    simp only [writeSlot, hrow]
  | three =>
    subst hbufs
    simp only [writeSlot, LineBuffer.next, hopens, Option.getD_none]

/-- A cycle of a fill. -/
lemma Honest.next_filling (h : Honest z bufs b) (hb : Built z)
    (hsteady : b.load.trace.Steady (b.memory z bufs i)) (hfilling : b.load.fill.filling = true) :
    Honest z bufs (b.next z bufs i) := by
  have hpacked : z.packed = false := (hb.source.plain hb.pipelined).1
  have hloads := h.loads.next hb.source hb.pipelined (fun _ => hpacked) hsteady
  have hopens : b.opens z bufs i = none := by rw [opens, hfilling, if_pos rfl]
  have hslot : (b.next z bufs i).writeSlot z bufs = b.writeSlot z bufs :=
    request_slot hfilling hb.pipelined
  obtain ⟨hshown, hcol⟩ := h.loads.written hfilling
  obtain ⟨hclosed, hcells⟩ := h.filling hfilling
  have hslots : (b.next z bufs i).rdSlot < 3 ∧ (b.next z bufs i).fillSlot < 3 := by
    refine ⟨h.slotNow_lt, ?_⟩
    change (b.opens z bufs i).getD b.fillSlot < 3
    rw [hopens]
    exact h.slots.2
  have hload : (b.next z bufs i).load = ⟨b.load.fill.next z ((b.memory z bufs i).start.map Fin.val)
      (b.load.trace.takes z b.load.fill.reqActive) b.load.trace.source.receiver.validR,
      b.load.trace.next z b.load.fill.reqActive b.load.fill.fillRow b.load.fill.reqCol
        (b.memory z bufs i)⟩ := RowLoad.next_of_filling hb.pipelined hfilling
  have hshown' : (b.next z bufs i).load.trace.shown = b.load.trace.valids := by
    rw [hload]
    rfl
  obtain ⟨hfilling', -, hcol'⟩ := RowLoad.request_same (z := z) b.load.fill
    (b.load.trace.takes z b.load.fill.reqActive)
  -- a slot that is marked is not the one that is written
  have hapart (k : ℕ) (hk : b.heldOk k = true) (j : ℕ) (hj : j < z.columns) :
      adr z bufs k j ≠ b.writeAdr z bufs := by
    intro heq
    rw [(adr_inj hj hcol heq).1, hclosed] at hk
    cases hk
  cases hvalid : b.load.trace.source.receiver.validR with
  | false =>
    have hwe : b.we z = false := by rw [we, hvalid, Bool.false_and]
    have hends : b.ends z = false := by rw [ends, hwe, Bool.false_and]
    have hok : (b.next z bufs i).heldOk = b.heldOk := by
      rw [next_heldOk, hopens, hends]
      rfl
    have hmem : (b.next z bufs i).mem = b.mem := by rw [next_mem, hwe, if_neg Bool.false_ne_true]
    refine ⟨hloads, fun _ => ?_, fun k hk => ?_, hslots⟩
    · rw [hslot, hok, hmem, hshown', FetchTrace.valids, hvalid, if_neg Bool.false_ne_true,
        List.append_nil, hload, RowLoad.fill_next hfilling, hvalid, if_neg Bool.false_ne_true]
      refine ⟨hclosed, fun j hj => hcells j ?_⟩
      rwa [hcol'] at hj
    · rw [hok] at hk
      rw [hmem, next_held, next_filled, hends]
      exact h.slot k hk
  | true =>
    have hwe : b.we z = true := by rw [we, hvalid, hfilling, Bool.and_self]
    have hmem : (b.next z bufs i).mem =
        Function.update b.mem (b.writeAdr z bufs) b.load.trace.source.receiver.held := by
      rw [next_mem, hwe, if_pos rfl]
    have hother (k : ℕ) (hk : b.heldOk k = true) (j : ℕ) (hj : j < z.columns) :
        (b.next z bufs i).mem (adr z bufs k j) = b.mem (adr z bufs k j) := by
      rw [hmem, Function.update_of_ne (hapart k hk j hj)]
    by_cases hlast : b.load.fill.fillCol = z.columns - 1
    · have hends : b.ends z = true := by rw [ends, hwe, Bool.true_and, decide_eq_true hlast]
      refine ⟨hloads, fun hno => ?_, fun k hk => ?_, hslots⟩
      · rw [hload, RowLoad.fill_next hfilling, hvalid, if_pos rfl, if_pos hlast] at hno
        cases hno
      · rw [next_heldOk, hopens, hends] at hk
        change Function.update b.heldOk (b.writeSlot z bufs) true k = true at hk
        have hheld : (b.next z bufs i).held =
            Function.update b.held (b.writeSlot z bufs) b.load.fill.fillRow := by
          rw [next_held, hends, if_pos rfl]
        have hfilled : (b.next z bufs i).filled =
            Function.update b.filled (b.writeSlot z bufs) b.load.trace := by
          rw [next_filled, hends, if_pos rfl]
        rw [hheld, hfilled]
        by_cases hkeq : k = b.writeSlot z bufs
        · rw [hkeq, Function.update_self, Function.update_self]
          refine ⟨h.loads.serves, ?_, h.loads.inRow hfilling, fun j hj => ?_⟩
          · rw [FetchTrace.valids, hvalid, if_pos rfl, List.length_append, hshown, List.length_singleton]
            omega
          · rw [hmem]
            exact h.written hfilling hvalid (by omega)
        · rw [Function.update_of_ne hkeq] at hk
          rw [Function.update_of_ne hkeq, Function.update_of_ne hkeq]
          obtain ⟨hserves, hlen, hinRow, hcells'⟩ := h.slot k hk
          exact ⟨hserves, hlen, hinRow, fun j hj => (hother k hk j hj).trans (hcells' j hj)⟩
    · have hends : b.ends z = false := by rw [ends, decide_eq_false hlast, Bool.and_false]
      have hok : (b.next z bufs i).heldOk = b.heldOk := by
        rw [next_heldOk, hopens, hends]
        rfl
      refine ⟨hloads, fun _ => ?_, fun k hk => ?_, hslots⟩
      · rw [hslot, hok, hmem, hshown', hload, RowLoad.fill_next hfilling, hvalid, if_pos rfl,
          if_neg hlast]
        exact ⟨hclosed, fun j hj => h.written hfilling hvalid hj⟩
      · rw [hok] at hk
        obtain ⟨hserves, hlen, hinRow, hcells'⟩ := h.slot k hk
        rw [next_held, next_filled, hends]
        exact ⟨hserves, hlen, hinRow, fun j hj => (hother k hk j hj).trans (hcells' j hj)⟩

lemma Honest.next (h : Honest z bufs b) (hb : Built z)
    (hsteady : b.load.trace.Steady (b.memory z bufs i)) : Honest z bufs (b.next z bufs i) := by
  cases hfilling : b.load.fill.filling with
  | false => exact h.next_between hb hsteady hfilling
  | true => exact h.next_filling hb hsteady hfilling

/-- Along the run the settings stay as they are while a request is being asked for. -/
def SteadyRun (bufs : Bufs) (b : LineBuffer z.greyBits) (is : List (LineCycle z)) : Prop :=
  Always (fun b i c => c = b.next z bufs i) (fun b i => b.load.trace.Steady (b.memory z bufs i)) b is

/-- Settings that never change are steady. -/
lemma steadyRun_of_const {v : FetchSettings} {is : List (LineCycle z)}
    (hset : ∀ i ∈ is, i.settings = v) : SteadyRun bufs ({} : LineBuffer z.greyBits) is := by
  refine Always.of_safe (I := fun b => ∀ q ∈ b.load.trace.asked, q.settings = v)
    (C := fun _ i => i.settings = v) ?_ ?_ nofun (Always.of_mem fun i hi _ => hset i hi)
  · rintro b i c hb hc rfl q hq
    rw [LineBuffer.next, RowLoad.next] at hq
    dsimp only at hq
    split at hq
    · cases hq
    · exact FetchTrace.settings_next hb hc hq
  · intro b i hb hc _ q hq
    exact hc.trans (hb q (List.mem_of_getLast? hq)).symm

lemma honest_run (hb : Built z) {is : List (LineCycle z)}
    (hsteady : SteadyRun bufs ({} : LineBuffer z.greyBits) is) :
    Honest z bufs (is.foldl (LineBuffer.next z bufs) {}) := by
  refine (run_foldl (LineBuffer.next z bufs) _ is).invariant ?_ (honest_reset hb.source) hsteady
  rintro b i c h hc rfl
  exact h.next hb hc

/-- A primed column is what the slot's fill brought for it. -/
lemma Honest.shows (h : Honest z bufs b) (hb : Built z) (hprimed : b.primed z bufs i = true) :
    ∃ q, (b.filled (b.readSlot z bufs i)).asked[i.col.val / z.burst]? = some q ∧ q.row = i.row.val ∧
      q.col + i.col.val % z.burst = i.col.val ∧ ∀ g < z.groups, ∃ x,
        (b.filled (b.readSlot z bufs i)).answers[z.turn i.col.val g]? =
            some (z.wordAt q.settings i.row.val i.col.val g, x) ∧
          (b.next z bufs i).datR g = z.decode q.settings i.row.val i.col.val g x := by
  rw [primed, Bool.and_eq_true, decide_eq_true_eq] at hprimed
  obtain ⟨hok, hheld⟩ := hprimed
  obtain ⟨hserves, hlen, hinRow, hcells⟩ := h.slot _ hok
  have hcol : i.col.val < (b.filled (b.readSlot z bufs i)).valids.length := by
    rw [hlen]
    exact i.col.isLt
  obtain ⟨q, hq⟩ : ∃ q, (b.filled (b.readSlot z bufs i)).asked[i.col.val / z.burst]? = some q :=
    ⟨_, List.getElem?_eq_getElem (hserves.asked_of_valid hb.source hcol)⟩
  obtain ⟨hrow, hfirst⟩ := hinRow _ _ hq
  have hspot : q.col + i.col.val % z.burst = i.col.val := by rw [hfirst, Nat.div_add_mod]
  refine ⟨q, hq, hrow.trans hheld, hspot, fun g hg => ?_⟩
  obtain ⟨x, hanswer, hshown⟩ := hserves.valid hb.source hcol hq hg
  rw [hrow, hheld, hspot] at hanswer hshown
  refine ⟨x, hanswer, ?_⟩
  rw [← hshown]
  exact congrFun (hcells _ i.col.isLt) g

/-- The column being written is not one that can be read. -/
lemma Honest.apart (h : Honest z bufs b) (hwe : b.we z = true) (hprimed : b.primed z bufs i = true) :
    b.writeAdr z bufs ≠ b.readAdr z bufs i := by
  rw [we, Bool.and_eq_true] at hwe
  rw [primed, Bool.and_eq_true] at hprimed
  intro heq
  have hslot := (adr_inj (h.loads.written hwe.2).2 i.col.isLt heq).1
  have hclosed := (h.filling hwe.2).1
  rw [hslot, hprimed.1] at hclosed
  cases hclosed

lemma Honest.writeSlot_lt (h : Honest z bufs b) : b.writeSlot z bufs < bufs.count := by
  cases bufs with
  | two => exact Nat.mod_lt _ (by decide)
  | three => exact h.slots.2

lemma Honest.readSlot_lt (h : Honest z bufs b) : b.readSlot z bufs i < bufs.count := by
  cases bufs with
  | two => exact Nat.mod_lt _ (by decide)
  | three =>
    rw [readSlot]
    split
    · exact nextSlot_lt h.slotNow_lt
    · exact h.slotNow_lt

end LineBuffer

end Ledwall.Gateware
