import Ledwall.Gateware.LineFill

/-! Which word of the framebuffer holds which pixel, and in which order a source asks for them. -/

namespace Ledwall.Gateware

/-- A group's strip begins this many pixels into the frame. -/
def FetchSettings.offset (z : SourceConfig) (v : FetchSettings) (g : ℕ) : ℕ :=
  if z.grouped then (v.groupOffset g).toNat else g * z.rowsPerFrame * v.width.toNat

/-- A pixel's index within the framebuffer. -/
def FetchSettings.index (z : SourceConfig) (v : FetchSettings) (row col g : ℕ) : ℕ :=
  row * v.width.toNat + col + v.offset z g

namespace SourceConfig

variable (z : SourceConfig)

/-- The word a pixel lies in. -/
def wordAt (v : FetchSettings) (row col g : ℕ) : BitVec 32 := z.wordOf v (v.index z row col g)

/-- A pixel out of its word, converted. -/
def decode (v : FetchSettings) (row col g : ℕ) (x : BitVec 32) : Shades z.greyBits :=
  fun c => z.conv (z.rawbytes (z.packed && v.index z row col g % 2 = 1) x c)

/-- The reads of one request. -/
def perRequest : ℕ :=
  match z.fetch with
  | .block k .. => 4 * k
  | _ => z.groups

/-- The column within its request and the group that a request's `m`-th read is for. -/
def place (m : ℕ) : ℕ × ℕ :=
  match z.fetch with
  | .block k a0 a1 b0 b1 =>
    (m % (2 * k) / 2, if m < 2 * k then if m % 2 = 1 then a1 else a0 else if m % 2 = 1 then b1 else b0)
  | _ => (0, m)

/-- Where among a request's reads that of a column and a group is. -/
def rank (c g : ℕ) : ℕ :=
  match z.fetch with
  | .block k a0 a1 b0 _ =>
    2 * c + if g = a0 then 0 else if g = a1 then 1 else if g = b0 then 2 * k else 2 * k + 1
  | _ => g

/-- The columns of one request. -/
def burst : ℕ := max 1 z.block

/-- The column and the group that a row's `n`-th read is for. -/
def spot (n : ℕ) : ℕ × ℕ :=
  (z.burst * (n / z.perRequest) + (z.place (n % z.perRequest)).1, (z.place (n % z.perRequest)).2)

/-- Where among a row's reads that of a column and a group is. -/
def turn (c g : ℕ) : ℕ := z.perRequest * (c / z.burst) + z.rank (c % z.burst) g

/-- The word of a row's `n`-th read. -/
def scan (v : FetchSettings) (row n : ℕ) : BitVec 32 := z.wordAt v row (z.spot n).1 (z.spot n).2

/-- A row's `m`-th request. -/
def request (v : FetchSettings) (row m : ℕ) : FetchRequest := ⟨v, row, z.burst * m⟩

/-- What the constructor's assertions make sure of, with a row of whole requests. -/
structure Built : Prop where
  columns : 0 < z.columns
  groups : 0 < z.groups
  rows : z.packed = true → z.rowsPerFrame ≤ 2 ^ 16
  plain : z.fetch ≠ .plain → z.packed = false ∧ z.grouped = true
  block {k a0 a1 b0 b1 : ℕ} (h : z.fetch = .block k a0 a1 b0 b1) :
    k.isPowerOfTwo ∧ z.groups = 4 ∧ [a0, a1, b0, b1].Perm [0, 1, 2, 3] ∧ k ∣ z.columns

end SourceConfig

/-- The word of a request's `m`-th read. -/
def FetchRequest.read (z : SourceConfig) (q : FetchRequest) (m : ℕ) : BitVec 32 :=
  z.wordAt q.settings q.row (q.col + (z.place m).1) (z.place m).2

variable {z : SourceConfig} {q : FetchRequest} {v : FetchSettings}

namespace SourceConfig

lemma Built.block_pos (hz : z.Built) {k a0 a1 b0 b1 : ℕ} (h : z.fetch = .block k a0 a1 b0 b1) :
    0 < k := by
  obtain ⟨e, rfl⟩ := (hz.block h).1
  exact Nat.two_pow_pos e

lemma perRequest_block {k a0 a1 b0 b1 : ℕ} (h : z.fetch = .block k a0 a1 b0 b1) :
    z.perRequest = 4 * k := by rw [perRequest, h]

lemma Built.burst_block (hz : z.Built) {k a0 a1 b0 b1 : ℕ} (h : z.fetch = .block k a0 a1 b0 b1) :
    z.burst = k := by
  rw [burst, SourceConfig.block, h]
  exact Nat.max_eq_right (hz.block_pos h)

lemma burst_pos : 0 < z.burst := Nat.lt_of_lt_of_le Nat.one_pos (Nat.le_max_left 1 _)

lemma Built.perRequest_pos (hz : z.Built) : 0 < z.perRequest := by
  cases hf : z.fetch with
  | block k => rw [perRequest_block hf]; exact Nat.mul_pos (by decide) (hz.block_pos hf)
  | plain => rw [perRequest, hf]; exact hz.groups
  | pipelined => rw [perRequest, hf]; exact hz.groups

lemma Built.burst_dvd (hz : z.Built) : z.burst ∣ z.columns := by
  cases hf : z.fetch with
  | block => rw [hz.burst_block hf]; exact (hz.block hf).2.2.2
  | plain => rw [burst, SourceConfig.block, hf]; exact Nat.one_dvd _
  | pipelined => rw [burst, SourceConfig.block, hf]; exact Nat.one_dvd _

lemma Built.place_rank (hz : z.Built) {c g : ℕ} (hc : c < z.burst) (hg : g < z.groups) :
    z.rank c g < z.perRequest ∧ z.place (z.rank c g) = (c, g) := by
  cases hf : z.fetch with
  | block k a0 a1 b0 b1 =>
    obtain ⟨-, hfour, hperm, -⟩ := hz.block hf
    rw [hz.burst_block hf] at hc
    rw [perRequest_block hf]
    simp only [rank, place, hf]
    have hmem : g ∈ [a0, a1, b0, b1] := hperm.mem_iff.mpr (by simp; omega)
    have hdup : [a0, a1, b0, b1].Nodup := hperm.nodup_iff.mpr (by decide)
    simp only [List.mem_cons, List.not_mem_nil, or_false] at hmem
    simp only [List.nodup_cons, List.mem_cons, List.not_mem_nil, or_false, not_or] at hdup
    obtain ⟨⟨h01, h02, h03⟩, ⟨h12, h13⟩, h23, -⟩ := hdup
    have hmod (d : ℕ) (hd : d < 2) : (2 * c + 2 * k + d) % (2 * k) = 2 * c + d := by
      rw [show 2 * c + 2 * k + d = 2 * c + d + 2 * k by omega, Nat.add_mod_right,
        Nat.mod_eq_of_lt (by omega)]
    rcases hmem with rfl | rfl | rfl | rfl
    · refine ⟨by simp; omega, ?_⟩
      rw [if_pos rfl, Nat.mod_eq_of_lt (by omega), if_pos (by omega), if_neg (by omega)]
      exact Prod.ext (by simp) rfl
    · rw [if_neg (Ne.symm h01), if_pos rfl]
      refine ⟨by omega, ?_⟩
      rw [Nat.mod_eq_of_lt (by omega), if_pos (by omega), if_pos (by omega)]
      exact Prod.ext (by simp; omega) rfl
    · rw [if_neg (Ne.symm h02), if_neg (Ne.symm h12), if_pos rfl]
      refine ⟨by omega, ?_⟩
      rw [if_neg (by omega), if_neg (by omega), ← Nat.add_zero (2 * c + 2 * k), hmod 0 (by decide)]
      exact Prod.ext (by simp) rfl
    · rw [if_neg (Ne.symm h03), if_neg (Ne.symm h13), if_neg (Ne.symm h23)]
      refine ⟨by omega, ?_⟩
      rw [if_neg (by omega), if_pos (by omega), ← Nat.add_assoc, hmod 1 (by decide)]
      exact Prod.ext (by simp; omega) rfl
  | plain | pipelined =>
    have hone : z.burst = 1 := by rw [burst, SourceConfig.block, hf]; rfl
    rw [perRequest, rank, place, hf]
    exact ⟨hg, Prod.ext (by simp; omega) rfl⟩

lemma Built.spot_turn (hz : z.Built) {g : ℕ} (hg : g < z.groups) (c : ℕ) :
    z.spot (z.turn c g) = (c, g) := by
  obtain ⟨hrank, hplace⟩ := hz.place_rank (Nat.mod_lt c burst_pos) hg
  have hdiv : z.turn c g / z.perRequest = c / z.burst := by
    rw [turn, Nat.mul_add_div hz.perRequest_pos, Nat.div_eq_of_lt hrank, Nat.add_zero]
  have hmod : z.turn c g % z.perRequest = z.rank (c % z.burst) g := by
    rw [turn, Nat.mul_add_mod, Nat.mod_eq_of_lt hrank]
  rw [spot, hdiv, hmod, hplace, Nat.div_add_mod]

lemma request_read {m n row : ℕ} (hn : n < z.perRequest) :
    (z.request v row m).read z n = z.scan v row (z.perRequest * m + n) := by
  have hpos : 0 < z.perRequest := by omega
  rw [FetchRequest.read, scan, spot, Nat.mul_add_div hpos, Nat.div_eq_of_lt hn, Nat.add_zero,
    Nat.mul_add_mod, Nat.mod_eq_of_lt hn]
  rfl

end SourceConfig

lemma toNat_product (v : FetchSettings) (row : ℕ) :
    (PixelSource.product v.width row).toNat = row * v.width.toNat % 2 ^ 32 := by
  rw [PixelSource.product, BitVec.toNat_mul, BitVec.toNat_ofNat, BitVec.toNat_setWidth,
    ← Nat.mul_mod]

lemma toNat_product_of_lt (v : FetchSettings) {row : ℕ} (h : row < 2 ^ 16) :
    (PixelSource.product v.width row).toNat = row * v.width.toNat := by
  have hwidth := v.width.isLt
  have hlt : row * v.width.toNat < 2 ^ 32 := by nlinarith
  rw [toNat_product, Nat.mod_eq_of_lt hlt]

namespace Issuer

variable {s : Issuer} {row col : ℕ}

lemma linear_eq (hrow : s.rowL = row) (hcol : s.colL = col) (hlt : row < 2 ^ 16)
    (hbase : z.grouped = true → s.rowbase = PixelSource.product v.width row) (g : ℕ) :
    s.linear z v g = v.index z row col g := by
  rw [linear, FetchSettings.index, FetchSettings.offset]
  cases hg : z.grouped with
  | true => simp only [if_true, hbase hg, toNat_product_of_lt v hlt, hcol]
  | false =>
    simp only [Bool.false_eq_true, if_false, hrow, hcol]
    ring

lemma address_eq (hrow : s.rowL = row) (hcol : s.colL = col) (hlt : z.packed = true → row < 2 ^ 16)
    (hbase : z.grouped = true → s.rowbase = PixelSource.product v.width row) (g : ℕ) :
    s.address z v g = z.wordAt v row col g := by
  rw [address, SourceConfig.wordAt]
  cases hp : z.packed with
  | true => rw [linear_eq hrow hcol (hlt hp) hbase]
  | false =>
    rw [linear, SourceConfig.wordOf, SourceConfig.wordOf, hp, FetchSettings.index,
      FetchSettings.offset]
    simp only [Bool.false_eq_true, if_false]
    congr 1
    apply BitVec.eq_of_toNat_eq
    rw [BitVec.toNat_ofNat, BitVec.toNat_ofNat]
    cases hg : z.grouped with
    | true =>
      simp only [if_true, hbase hg, toNat_product, hcol]
      omega
    | false =>
      simp only [Bool.false_eq_true, if_false, hrow, hcol]
      congr 1
      ring

lemma half_eq (hrow : s.rowL = row) (hcol : s.colL = col) (hlt : z.packed = true → row < 2 ^ 16)
    (hbase : z.grouped = true → s.rowbase = PixelSource.product v.width row) (g : ℕ) :
    s.half z v g = (z.packed && v.index z row col g % 2 = 1) := by
  rw [half]
  cases hp : z.packed with
  | true => rw [linear_eq hrow hcol (hlt hp) hbase]
  | false => rfl

end Issuer

end Ledwall.Gateware
