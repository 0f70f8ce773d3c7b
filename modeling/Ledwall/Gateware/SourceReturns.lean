import Mathlib.Data.List.GetD
import Ledwall.Gateware.IssueOrder
import Ledwall.Library.Runs

/-! Whatever it is asked for and at whatever pace the memory answers, a source raises one valid for
each column it was asked for, in order, with the words of that column. -/

namespace Ledwall.Gateware

open Library.Runs

/-- The last of a round is followed by the first of the next one. -/
lemma succ_mod {b : ℕ} (hb : 0 < b) (n : ℕ) :
    (n + 1) % b = if n % b + 1 = b then 0 else n % b + 1 := by
  have hdiv := Nat.div_add_mod n b
  have hlt := Nat.mod_lt n hb
  split
  · next h =>
    rw [show n + 1 = b * (n / b + 1) by rw [Nat.mul_succ]; omega, Nat.mul_mod_right]
  · next h =>
    rw [show n + 1 = b * (n / b) + (n % b + 1) by omega, Nat.mul_add_mod,
      Nat.mod_eq_of_lt (show n % b + 1 < b by omega)]

lemma succ_div {b : ℕ} (hb : 0 < b) (n : ℕ) :
    (n + 1) / b = if n % b + 1 = b then n / b + 1 else n / b := by
  have hdiv := Nat.div_add_mod n b
  have hlt := Nat.mod_lt n hb
  split
  · next h =>
    rw [show n + 1 = b * (n / b + 1) by rw [Nat.mul_succ]; omega, Nat.mul_div_cancel_left _ hb]
  · next h =>
    rw [show n + 1 = b * (n / b) + (n % b + 1) by omega, Nat.mul_add_div hb,
      Nat.div_eq_of_lt (show n % b + 1 < b by omega), Nat.add_zero]

namespace Receiver

variable {w : ℕ} {r : Receiver w} {groups k W : ℕ} {pix pix' : ℕ → Shades w} {live : Shades w}

/-- The words of a column, as far as they have come, are in the latches. -/
structure Gathers (groups W : ℕ) (pix : ℕ → Shades w) (r : Receiver w) : Prop where
  recvd : r.recvd = W % groups
  stored : ∀ g < W % groups, r.stored g = pix (W - W % groups + g)

lemma Gathers.congr (h : r.Gathers groups W pix) (heq : ∀ n < W, pix n = pix' n) :
    r.Gathers groups W pix' := by
  refine ⟨h.recvd, fun g hg => ?_⟩
  have hle := Nat.mod_le W groups
  rw [h.stored g hg, heq _ (by omega)]

/-- A word that is not a column's last goes to the latches. -/
lemma Gathers.take (h : r.Gathers groups W pix) (hmore : W % groups + 1 < groups) (hlive : live = pix W) :
    Gathers groups (W + 1) pix { r.quiet.take groups live with recvd := r.recvd + 1 } ∧
      (r.quiet.take groups live).validR = false := by
  have hmod : (W + 1) % groups = W % groups + 1 := by rw [succ_mod (by omega), if_neg (by omega)]
  have hle := Nat.mod_le W groups
  have hrecvd := h.recvd
  have hne : ¬ r.quiet.recvd = groups - 1 := by
    change ¬ r.recvd = groups - 1
    omega
  rw [Receiver.take, if_neg hne]
  refine ⟨⟨?_, fun g hg => ?_⟩, rfl⟩
  · change r.recvd + 1 = _
    rw [hmod, hrecvd]
  · change Function.update r.stored r.recvd live g = _
    rw [hmod] at hg ⊢
    rw [show W + 1 - (W % groups + 1) = W - W % groups by omega, hrecvd]
    rcases Nat.lt_succ_iff_lt_or_eq.mp hg with hlt | rfl
    · rw [Function.update_of_ne (by omega), h.stored g hlt]
    · rw [Function.update_self, hlive]
      congr 1
      omega

/-- A column's last word raises the valid, with the words of the column. -/
lemma Gathers.complete (h : r.Gathers groups W pix) (hlast : W % groups + 1 = groups) (hlive : live = pix W) :
    (r.quiet.take groups live).validR = true ∧
      ∀ g < groups, (r.quiet.take groups live).held g = pix (W + 1 - groups + g) := by
  have hle := Nat.mod_le W groups
  have heq : r.quiet.recvd = groups - 1 := by
    change r.recvd = groups - 1
    rw [h.recvd]
    omega
  rw [Receiver.take, if_pos heq]
  refine ⟨rfl, fun g hg => ?_⟩
  change Function.update r.stored (groups - 1) live g = _
  rw [show W + 1 - groups = W - W % groups by omega]
  by_cases hg' : g = groups - 1
  · rw [hg', Function.update_self, hlive]
    congr 1
    omega
  · rw [Function.update_of_ne hg', h.stored g (by omega)]

/-- The first pair's words of a block are in the staging memories, as far as they have come. -/
structure Stages (k W : ℕ) (pix : ℕ → Shades w) (r : Receiver w) : Prop where
  rphase : r.rphase = decide (2 * k ≤ W % (4 * k))
  rk : r.rk = W % (2 * k) / 2
  rw_eq : r.rw = decide (W % 2 = 1)
  stg : ∀ j < 2 * k, j < W % (4 * k) →
    r.stg (decide (j % 2 = 1)) (j / 2) = pix (W - W % (4 * k) + j)
  st2 : 2 * k ≤ W % (4 * k) → W % 2 = 1 → r.st2 = pix (W - 1)

lemma Stages.congr (h : r.Stages k W pix) (heq : ∀ n < W, pix n = pix' n) : r.Stages k W pix' := by
  have hle := Nat.mod_le W (4 * k)
  refine ⟨h.rphase, h.rk, h.rw_eq, fun j hj hlt => ?_, fun hphase hodd => ?_⟩
  · rw [h.stg j hj hlt, heq _ (by omega)]
  · rw [h.st2 hphase hodd, heq _ (by omega)]

/-- A word's place within its block. -/
lemma block_place (W : ℕ) (hk : 0 < k) : ∃ m, W = 4 * m + W % (4 * k) ∧ W % (4 * k) < 4 * k ∧
    W % 2 = W % (4 * k) % 2 ∧
    W % (2 * k) = (if W % (4 * k) < 2 * k then W % (4 * k) else W % (4 * k) - 2 * k) ∧
    (W + 1) % (4 * k) = (if W % (4 * k) + 1 = 4 * k then 0 else W % (4 * k) + 1) ∧
    (W + 1) % (2 * k) = (if W % (2 * k) + 1 = 2 * k then 0 else W % (2 * k) + 1) := by
  have hdiv := Nat.div_add_mod W (4 * k)
  have hlt := Nat.mod_lt W (show 0 < 4 * k by omega)
  refine ⟨k * (W / (4 * k)), ?_, hlt, ?_, ?_, succ_mod (by omega) W, succ_mod (by omega) W⟩
  · rw [← Nat.mul_assoc]
    exact hdiv.symm
  · exact (Nat.mod_mod_of_dvd W ⟨2 * k, by ring⟩).symm
  · rw [← Nat.mod_mod_of_dvd W (show 2 * k ∣ 4 * k from ⟨2, by ring⟩)]
    split
    · next h => exact Nat.mod_eq_of_lt h
    · rw [Nat.mod_eq_sub_mod (by omega), Nat.mod_eq_of_lt (by omega)]

/-- A word of a block's first pair is staged. -/
lemma Stages.stage (h : r.Stages k W pix) (hk : 0 < k) (hlive : live = pix W)
    (hphase : W % (4 * k) < 2 * k) (a0 a1 b0 b1 : ℕ) :
    (r.nextBlock live k a0 a1 b0 b1 true).Stages k (W + 1) pix ∧
      (r.nextBlock live k a0 a1 b0 b1 true).validR = false := by
  obtain ⟨m, hW, -, hodd, h2, h4', h2'⟩ := block_place W hk
  obtain ⟨hrphase, hrk, hrw, hstg, -⟩ := h
  rw [if_pos hphase] at h2
  have hnext : (W + 1) % (4 * k) = W % (4 * k) + 1 := by rw [h4', if_neg (by omega)]
  have hbase : W + 1 - (W % (4 * k) + 1) = W - W % (4 * k) := by omega
  rw [decide_eq_false (by omega)] at hrphase
  -- the staging memories with this word
  have hstg' : ∀ j < 2 * k, j < W % (4 * k) + 1 →
      Function.update r.stg r.rw (Function.update (r.stg r.rw) r.rk live) (decide (j % 2 = 1)) (j / 2) =
        pix (W - W % (4 * k) + j) := by
    intro j hj hle
    rcases Nat.lt_succ_iff_lt_or_eq.mp hle with hlt | rfl
    · rw [← hstg j hj hlt]
      by_cases hside : decide (j % 2 = 1) = r.rw
      · rw [hside, Function.update_self, Function.update_of_ne]
        rw [hrw, decide_eq_decide] at hside
        rw [hrk, h2]
        omega
      · rw [Function.update_of_ne hside]
    · rw [hrw, hodd, Function.update_self, hrk, h2, Function.update_self, hlive]
      congr 1
      omega
  rw [nextBlock, if_pos rfl, hrphase, Bool.not_false, if_pos rfl]
  dsimp only
  cases hside : r.rw with
  | false =>
    have heven : W % 2 = 0 := by
      rw [hrw, decide_eq_false_iff_not] at hside
      omega
    rw [hside] at hstg'
    refine ⟨⟨?_, ?_, ?_, ?_, ?_⟩, rfl⟩
    · rw [hnext, decide_eq_false (by omega)]
      exact hrphase
    · change r.rk = _
      rw [h2', if_neg (by omega), hrk]
      omega
    · rw [decide_eq_true (by omega)]
      rfl
    · rw [hnext, hbase]
      exact hstg'
    · omega
  | true =>
    have hoddW : W % 2 = 1 := by
      rw [hrw, decide_eq_true_eq] at hside
      exact hside
    rw [hside] at hstg'
    rw [if_pos rfl]
    by_cases hend : r.rk = k - 1
    · rw [if_pos hend]
      have hlast : W % (2 * k) + 1 = 2 * k := by omega
      refine ⟨⟨?_, ?_, ?_, ?_, ?_⟩, rfl⟩
      · rw [hnext, decide_eq_true (by omega)]
      · rw [h2', if_pos hlast]
      · rw [decide_eq_false (by omega)]
      · rw [hnext, hbase]
        exact hstg'
      · omega
    · rw [if_neg hend]
      have hmore : W % (2 * k) + 1 ≠ 2 * k := by omega
      refine ⟨⟨?_, ?_, ?_, ?_, ?_⟩, rfl⟩
      · rw [hnext, decide_eq_false (by omega)]
        exact hrphase
      · change r.rk + 1 = _
        rw [h2', if_neg hmore, hrk]
        omega
      · rw [decide_eq_false (by omega)]
      · rw [hnext, hbase]
        exact hstg'
      · omega

/-- The first word of a column of a block's second pair is put by. -/
lemma Stages.hold (h : r.Stages k W pix) (hk : 0 < k) (hlive : live = pix W)
    (hphase : 2 * k ≤ W % (4 * k)) (heven : W % 2 = 0) (a0 a1 b0 b1 : ℕ) :
    (r.nextBlock live k a0 a1 b0 b1 true).Stages k (W + 1) pix ∧
      (r.nextBlock live k a0 a1 b0 b1 true).validR = false := by
  obtain ⟨m, hW, hlt, hodd, h2, h4', h2'⟩ := block_place W hk
  obtain ⟨hrphase, hrk, hrw, hstg, -⟩ := h
  rw [if_neg (by omega)] at h2
  have hnext : (W + 1) % (4 * k) = W % (4 * k) + 1 := by rw [h4', if_neg (by omega)]
  have hbase : W + 1 - (W % (4 * k) + 1) = W - W % (4 * k) := by omega
  rw [decide_eq_true hphase] at hrphase
  rw [decide_eq_false (by omega)] at hrw
  rw [nextBlock, if_pos rfl, hrphase, Bool.not_true, if_neg Bool.false_ne_true, hrw,
    if_neg Bool.false_ne_true]
  refine ⟨⟨?_, ?_, ?_, ?_, ?_⟩, rfl⟩
  · rw [hnext, decide_eq_true (by omega)]
    exact hrphase
  · change r.rk = _
    rw [h2', if_neg (by omega), hrk]
    omega
  · rw [decide_eq_true (by omega)]
  · rw [hnext, hbase]
    exact fun j hj _ => hstg j hj (by omega)
  · exact fun _ _ => hlive

/-- What a block's words are, once a column's last has come. -/
lemma Stages.column (h : r.Stages k W pix) (hk : 0 < k) (hlive : live = pix W)
    (hphase : 2 * k ≤ W % (4 * k)) (hodd : W % 2 = 1) {n i : ℕ} (hn : W - W % (4 * k) = n)
    (hi : (W % (4 * k) - 2 * k) / 2 = i) :
    r.stg false r.rk = pix (n + 2 * i) ∧ r.stg true r.rk = pix (n + (2 * i + 1)) ∧
      r.st2 = pix (n + (2 * i + 2 * k)) ∧ live = pix (n + (2 * i + (2 * k + 1))) := by
  obtain ⟨m, hW, hlt, hodd', h2, -⟩ := block_place W hk
  obtain ⟨-, hrk, -, hstg, hst2⟩ := h
  rw [if_neg (by omega)] at h2
  have hrk' : r.rk = i := by omega
  have hfirst := hstg (2 * i) (by omega) (by omega)
  have hsecond := hstg (2 * i + 1) (by omega) (by omega)
  rw [decide_eq_false (by omega), show 2 * i / 2 = i by omega, hn] at hfirst
  rw [decide_eq_true (by omega), show (2 * i + 1) / 2 = i by omega, hn] at hsecond
  refine ⟨?_, ?_, ?_, ?_⟩
  · rw [hrk', hfirst]
  · rw [hrk', hsecond]
  · rw [hst2 hphase hodd]
    congr 1
    omega
  · rw [hlive]
    congr 1
    omega

/-- The second word of a column of a block's second pair raises the valid. -/
lemma Stages.publish {r' : Receiver w} (h : r.Stages k W pix) (hk : 0 < k) (hlive : live = pix W)
    (hphase : 2 * k ≤ W % (4 * k)) (hodd : W % 2 = 1) {a0 a1 b0 b1 : ℕ}
    (hdup : [a0, a1, b0, b1].Nodup) (hr' : r.nextBlock live k a0 a1 b0 b1 true = r') {n i : ℕ}
    (hn : W - W % (4 * k) = n) (hi : (W % (4 * k) - 2 * k) / 2 = i) :
    r'.Stages k (W + 1) pix ∧ r'.validR = true ∧
      r'.held a0 = pix (n + 2 * i) ∧ r'.held a1 = pix (n + (2 * i + 1)) ∧
        r'.held b0 = pix (n + (2 * i + 2 * k)) ∧ r'.held b1 = pix (n + (2 * i + (2 * k + 1))) := by
  obtain ⟨hfirst, hsecond, hthird, hfourth⟩ := h.column hk hlive hphase hodd hn hi
  obtain ⟨m, hW, hlt, hodd', h2, h4', h2'⟩ := block_place W hk
  obtain ⟨hrphase, hrk, hrw, hstg, -⟩ := h
  rw [if_neg (by omega)] at h2
  rw [decide_eq_true hphase] at hrphase
  rw [decide_eq_true hodd] at hrw
  simp only [List.nodup_cons, List.mem_cons, List.not_mem_nil, or_false, not_or] at hdup
  obtain ⟨⟨h01, h02, h03⟩, ⟨h12, h13⟩, h23, -⟩ := hdup
  have hheld {held' : ℕ → Shades w} (heq : Function.update (Function.update (Function.update
      (Function.update r.held a0 (r.stg false r.rk)) a1 (r.stg true r.rk)) b0 r.st2) b1 live = held') :
      held' a0 = pix (n + 2 * i) ∧ held' a1 = pix (n + (2 * i + 1)) ∧
        held' b0 = pix (n + (2 * i + 2 * k)) ∧ held' b1 = pix (n + (2 * i + (2 * k + 1))) := by
    subst heq
    refine ⟨?_, ?_, ?_, ?_⟩
    · rw [Function.update_of_ne h03, Function.update_of_ne h02, Function.update_of_ne h01,
        Function.update_self, hfirst]
    · rw [Function.update_of_ne h13, Function.update_of_ne h12, Function.update_self, hsecond]
    · rw [Function.update_of_ne h23, Function.update_self, hthird]
    · rw [Function.update_self, hfourth]
  rw [nextBlock, if_pos rfl, hrphase, Bool.not_true, if_neg Bool.false_ne_true, hrw, if_pos rfl] at hr'
  dsimp only at hr'
  by_cases hend : r.rk = k - 1
  · rw [if_pos hend] at hr'
    subst hr'
    have hlast : W % (4 * k) + 1 = 4 * k := by omega
    refine ⟨⟨?_, ?_, ?_, ?_, ?_⟩, rfl, hheld rfl⟩
    · rw [h4', if_pos hlast, decide_eq_false (by omega)]
    · rw [h2', if_pos (by omega)]
    · rw [decide_eq_false (by omega)]
    · rw [h4', if_pos hlast]
      omega
    · rw [h4', if_pos hlast]
      omega
  · rw [if_neg hend] at hr'
    subst hr'
    have hmore : W % (4 * k) + 1 ≠ 4 * k := by omega
    refine ⟨⟨?_, ?_, ?_, ?_, ?_⟩, rfl, hheld rfl⟩
    · rw [h4', if_neg hmore, decide_eq_true (by omega)]
      exact hrphase
    · change r.rk + 1 = _
      rw [h2', if_neg (by omega), hrk]
      omega
    · rw [decide_eq_false (by omega)]
    · rw [h4', if_neg hmore]
      intro j hj _
      change r.stg _ _ = _
      rw [hstg j hj (by omega)]
      congr 1
      omega
    · omega

end Receiver

namespace FetchTrace

variable {z : SourceConfig}

section Logs

variable (s : FetchTrace z.greyBits)

/-- The `m`-th request the source took. -/
def requestAt (m : ℕ) : FetchRequest := s.asked.getD m ⟨{}, 0, 0⟩

/-- The address of the `n`-th word that the requests ask for. -/
def readAt (n : ℕ) : BitVec 32 := (s.requestAt (n / z.perRequest)).read z (n % z.perRequest)

def sentReads : ℕ := s.answers.length + s.reads.length

/-- The `n`-th word that came back, as the pixel it was read for. -/
def pixelAt (n : ℕ) : Shades z.greyBits :=
  let q := s.requestAt (n / z.perRequest)
  let p := z.place (n % z.perRequest)
  z.decode q.settings q.row (q.col + p.1) p.2 (s.answers.getD n (0, 0)).2

/-- The settings are those of the request that is being served. -/
def Steady (c : FillCycle z) : Prop :=
  s.source.issuer.fsm ≠ .idle → ∀ q ∈ s.asked.getLast?, c.settings = q.settings

/-- How much of the last request has been asked for. -/
inductive Asking : Prop
  | none (hasked : s.asked = []) (hidle : s.source.issuer.fsm = .idle) (hsent : s.sentReads = 0)
  | some (q : FetchRequest) (n : ℕ) (hlast : s.asked.getLast? = some q)
    (hsent : s.source.issuer.Sent z q n)
    (hcount : s.sentReads + z.perRequest = z.perRequest * s.asked.length + n)

/-- The words that have come back and make no whole column yet are put by. -/
def Collected : Prop :=
  match z.fetch with
  | .plain =>
    if s.source.issuer.fsm = .idle then s.answers.length = z.groups * s.asked.length
    else s.source.receiver.Gathers z.groups s.answers.length s.pixelAt ∧
      s.answers.length / z.groups + 1 = s.asked.length
  | .pipelined => s.source.receiver.Gathers z.groups s.answers.length s.pixelAt
  | .block k .. => s.source.receiver.Stages k s.answers.length s.pixelAt

end Logs

end FetchTrace

/-- The whole columns among the first `n` words of a source's requests. -/
def SourceConfig.done (z : SourceConfig) (n : ℕ) : ℕ :=
  match z.fetch with
  | .block k .. => k * (n / (4 * k)) + (n % (4 * k) - 2 * k) / 2
  | _ => n / z.groups

namespace FetchTrace

variable {z : SourceConfig}

/-- What a source has been asked for, what it has asked the memory for, what has come back and what it
has shown fit together. -/
structure Serves (s : FetchTrace z.greyBits) : Prop where
  rows : ∀ q ∈ s.asked, z.packed = true → q.row < 2 ^ 16
  asking : s.Asking
  order : s.answers.map Prod.fst ++ s.reads = (List.range s.sentReads).map s.readAt
  collected : s.Collected
  count : s.valids.length = z.done s.answers.length
  shown : ∀ j < z.done s.answers.length, ∀ g < z.groups,
    s.valids.getD j (fun _ _ => 0) g = s.pixelAt (z.turn j g)

variable {s : FetchTrace z.greyBits} {req : Bool} {row col : ℕ} {c : FillCycle z}

section Memory

lemma next_reads (s : FetchTrace z.greyBits) (req : Bool) (row col : ℕ) (c : FillCycle z) :
    (s.next z req row col c).answers.map Prod.fst ++ (s.next z req row col c).reads =
      s.answers.map Prod.fst ++ s.queue z c := by
  simp only [next, answered]
  by_cases hanswer : c.answer = true
  · simp only [hanswer, if_true]
    cases hq : s.queue z c with
    | nil => simp
    | cons a as => simp
  · simp [hanswer]

lemma next_sentReads : (s.next z req row col c).sentReads = s.sentReads + (s.memCmdAck z c).toNat := by
  have hlen := congrArg List.length (next_reads s req row col c)
  simp only [List.length_append, List.length_map, queue] at hlen
  simp only [sentReads]
  cases hc : s.memCmdAck z c with
  | false =>
    simp only [hc, Bool.false_eq_true, if_false, List.length_nil] at hlen
    simpa using hlen
  | true =>
    simp only [hc, if_true, List.length_singleton] at hlen
    simp only [Bool.toNat_true]
    omega

/-- Every command is one of the requests that the source has taken. -/
lemma Asking.counts (h : s.Asking) (hrows : ∀ q ∈ s.asked, z.packed = true → q.row < 2 ^ 16) :
    s.sentReads + (s.memCmdAck z c).toNat ≤ z.perRequest * s.asked.length := by
  cases hc : s.memCmdAck z c with
  | false =>
    rw [Bool.toNat_false, Nat.add_zero]
    cases h with
    | none _ _ hsent => omega
    | some q n hlast hsent hcount =>
      have hle := hsent.le
      omega
  | true =>
    have hreq : s.source.issuer.memReq z = true := by
      rw [memCmdAck, Bool.and_eq_true] at hc
      exact hc.1
    rw [Bool.toNat_true]
    cases h with
    | none _ hidle => 
      rw [Issuer.memReq] at hreq
      split at hreq
      · simp [hidle] at hreq
      · simp [hidle] at hreq
    | some q n hlast hsent hcount =>
      have hlt := (hsent.command hreq (hrows q (List.mem_of_getLast? hlast))).1
      omega

end Memory

section Asked

/-- The command of this cycle is the next word of the requests. -/
lemma Asking.command (h : s.Asking) (hrows : ∀ q ∈ s.asked, z.packed = true → q.row < 2 ^ 16)
    (hsteady : s.Steady c) (hc : s.memCmdAck z c = true) :
    s.source.issuer.memAdr z c.settings = s.readAt s.sentReads := by
  have hreq : s.source.issuer.memReq z = true := by
    rw [memCmdAck, Bool.and_eq_true] at hc
    exact hc.1
  have hbusy : s.source.issuer.fsm ≠ .idle := by
    intro hidle
    rw [Issuer.memReq] at hreq
    split at hreq
    · simp [hidle] at hreq
    · simp [hidle] at hreq
  cases h with
  | none _ hidle => exact absurd hidle hbusy
  | some q n hlast hsent hcount =>
    obtain ⟨hlt, hadr⟩ := hsent.command hreq (hrows q (List.mem_of_getLast? hlast))
    rw [hsteady hbusy q hlast, hadr]
    obtain ⟨qs, hqs⟩ : ∃ qs, s.asked = qs ++ [q] := List.getLast?_eq_some_iff.mp hlast
    have hlen : s.asked.length = qs.length + 1 := by rw [hqs, List.length_append]; rfl
    have hcount' : s.sentReads = z.perRequest * qs.length + n := by
      rw [hlen, Nat.mul_succ] at hcount
      omega
    have hpos : 0 < z.perRequest := by omega
    rw [readAt, hcount', Nat.mul_add_div hpos, Nat.div_eq_of_lt hlt, Nat.add_zero, Nat.mul_add_mod,
      Nat.mod_eq_of_lt hlt, requestAt, hqs, List.getD_append_right _ _ _ _ (Nat.le_refl _), Nat.sub_self]
    rfl

lemma requestAt_next {m : ℕ} (hm : m < s.asked.length) :
    (s.next z req row col c).requestAt m = s.requestAt m := by
  rw [requestAt, requestAt, next, List.getD_append _ _ _ _ hm]

/-- A cycle of the commands. -/
lemma Asking.next (h : s.Asking) (hz : z.Built)
    (hrows : ∀ q ∈ s.asked, z.packed = true → q.row < 2 ^ 16) (hsteady : s.Steady c)
    (hlast : z.fetch = .plain → s.source.issuer.fsm ≠ .idle →
      s.source.last z (s.inputs z req row col c) = true →
        s.sentReads + (s.memCmdAck z c).toNat = z.perRequest * s.asked.length) :
    (s.next z req row col c).Asking := by
  have hcounts := h.counts (c := c) hrows
  have hsent' : (s.next z req row col c).sentReads = s.sentReads + (s.memCmdAck z c).toNat :=
    next_sentReads
  have hack : s.memCmdAck z c = true → s.source.issuer.memReq z = true := by
    intro hc
    rw [memCmdAck, Bool.and_eq_true] at hc
    exact hc.1
  by_cases hidle : s.source.issuer.fsm = .idle
  · have hall : s.sentReads = z.perRequest * s.asked.length := by
      cases h with
      | none hasked _ hsent => rw [hsent, hasked, List.length_nil, Nat.mul_zero]
      | some q n hlast hsent hcount =>
        rw [hsent.of_idle hidle] at hcount
        omega
    have hquiet : s.memCmdAck z c = false := by
      cases hc : s.memCmdAck z c with
      | false => rfl
      | true =>
        rw [hc, Bool.toNat_true] at hcounts
        omega
    rw [hquiet, Bool.toNat_false, Nat.add_zero] at hsent'
    cases hreq : req with
    | false =>
      have hidle' : (s.next z false row col c).source.issuer.fsm = .idle :=
        Issuer.next_idle hidle rfl _
      have hasked' : (s.next z false row col c).asked = s.asked := by
        simp [FetchTrace.next, takes]
      rw [hreq] at hsent'
      cases h with
      | none hasked _ hsent => exact .none (hasked'.trans hasked) hidle' (hsent'.trans hsent)
      | some q n hlast hsent hcount =>
        refine .some q z.perRequest (hasked' ▸ hlast) (Issuer.sent_of_idle hidle') ?_
        rw [hsent', hasked', hall]
    | true =>
      have hasked' : (s.next z true row col c).asked = s.asked ++ [⟨c.settings, row, col⟩] := by
        simp [FetchTrace.next, takes, hidle]
      rw [hreq] at hsent'
      refine .some ⟨c.settings, row, col⟩ 0 ?_ ?_ ?_
      · rw [hasked', List.getLast?_concat]
      · exact Issuer.sent_accept hidle rfl rfl rfl rfl hz.groups _
      · rw [hsent', hasked', hall, List.length_append, List.length_singleton]
        ring
  · have hasked' : (s.next z req row col c).asked = s.asked := by
      simp [FetchTrace.next, takes, hidle]
    cases h with
    | none _ hidle' => exact absurd hidle' hidle
    | some q n hq hsent hcount =>
      refine .some q (n + (s.memCmdAck z c).toNat) (hasked' ▸ hq) ?_ ?_
      · refine hsent.next (i := s.inputs z req row col c) hz (hsteady hidle q hq) hidle hack ?_
        intro hf hend
        have hdone := hlast hf hidle hend
        have hper : z.perRequest = z.groups := by rw [SourceConfig.perRequest, hf]
        change n + (s.memCmdAck z c).toNat = z.groups
        omega
      · rw [hsent', hasked']
        omega

end Asked

section Returned

lemma div_lt_asked {n : ℕ} (hn : n < z.perRequest * s.asked.length) :
    n / z.perRequest < s.asked.length := Nat.div_lt_of_lt_mul hn

lemma readAt_next {n : ℕ} (hn : n < z.perRequest * s.asked.length) :
    (s.next z req row col c).readAt n = s.readAt n := by
  rw [readAt, readAt, requestAt_next (div_lt_asked hn)]

/-- The words come back in the order of the commands. -/
lemma order_next (h : s.Asking) (hrows : ∀ q ∈ s.asked, z.packed = true → q.row < 2 ^ 16)
    (hsteady : s.Steady c)
    (horder : s.answers.map Prod.fst ++ s.reads = (List.range s.sentReads).map s.readAt) :
    (s.next z req row col c).answers.map Prod.fst ++ (s.next z req row col c).reads =
      (List.range (s.next z req row col c).sentReads).map (s.next z req row col c).readAt := by
  have hcounts := h.counts (c := c) hrows
  have hsame : ∀ n ∈ List.range (s.sentReads + (s.memCmdAck z c).toNat),
      (s.next z req row col c).readAt n = s.readAt n := by
    intro n hn
    have hlt := List.mem_range.mp hn
    exact readAt_next (by omega)
  rw [next_reads, next_sentReads, List.map_congr_left hsame, queue, ← List.append_assoc, horder]
  cases hc : s.memCmdAck z c with
  | false => simp
  | true => simp [List.range_succ, h.command hrows hsteady hc]

/-- What is answered is a command that was not answered before. -/
lemma answered_lt {a x : BitVec 32} (ha : s.answered z c = some (a, x)) :
    s.answers.length < s.sentReads + (s.memCmdAck z c).toNat := by
  have hqueue : 0 < (s.queue z c).length := by
    rw [answered] at ha
    cases hq : s.queue z c with
    | nil =>
      rw [hq] at ha
      simp at ha
    | cons b as => exact Nat.succ_pos _
  rw [queue, List.length_append] at hqueue
  rw [sentReads]
  cases hc : s.memCmdAck z c with
  | false =>
    simp only [hc, Bool.false_eq_true, if_false, List.length_nil, Nat.add_zero] at hqueue
    omega
  | true =>
    rw [Bool.toNat_true]
    omega

lemma pixelAt_next {n : ℕ} (hn : n < s.answers.length)
    (hasked : s.answers.length ≤ z.perRequest * s.asked.length) :
    (s.next z req row col c).pixelAt n = s.pixelAt n := by
  rw [pixelAt, pixelAt, requestAt_next (div_lt_asked (by omega))]
  simp only [next]
  rw [List.getD_append _ _ _ _ hn]

/-- The pixel of the word that comes back in this cycle. -/
lemma pixelAt_new {a x : BitVec 32} (ha : s.answered z c = some (a, x))
    (hasked : s.answers.length < z.perRequest * s.asked.length) {q : FetchRequest}
    (hq : s.requestAt (s.answers.length / z.perRequest) = q) {p : ℕ × ℕ}
    (hp : z.place (s.answers.length % z.perRequest) = p) :
    (s.next z req row col c).pixelAt s.answers.length =
      z.decode q.settings q.row (q.col + p.1) p.2 x := by
  rw [pixelAt, requestAt_next (div_lt_asked hasked), hq, hp]
  simp only [next, ha, Option.toList_some]
  rw [List.getD_append_right _ _ _ _ (Nat.le_refl _), Nat.sub_self]
  rfl

lemma live_eq (hshared : z.sharedGamma = true → z.packed = false) (half : Bool) (x : BitVec 32) :
    z.live half x = fun i => z.conv (z.rawbytes half x i) := by
  rw [SourceConfig.live]
  split
  · next h =>
    funext i
    rw [SourceConfig.rawbytes, if_neg (by rw [hshared h]; exact Bool.false_ne_true)]
    fin_cases i <;> rfl
  · rfl

/-- A source of whole-pixel words takes each of them for the pixel it was read for. -/
lemma live_wide (req : Bool) (row col : ℕ) (hpacked : z.packed = false) {a x : BitVec 32} (ha : s.answered z c = some (a, x))
    (hasked : s.answers.length < z.perRequest * s.asked.length) :
    s.source.live z (s.inputs z req row col c) =
      (s.next z req row col c).pixelAt s.answers.length := by
  rw [pixelAt_new ha hasked rfl rfl, GroupFetch.live, live_eq (fun _ => hpacked)]
  have hdat : (s.inputs z req row col c).memDat = x := by simp [inputs, ha]
  funext i
  rw [hdat, SourceConfig.decode, Issuer.half, hpacked, Bool.false_and, Bool.false_and]

end Returned

section Receiving

/-- A cycle of the receiver: what is put by stays right, and a valid is that of the next column. -/
def Receives (s s' : FetchTrace z.greyBits) : Prop :=
  s'.Collected ∧
    (s'.source.receiver.validR = false ∧ z.done s'.answers.length = z.done s.answers.length ∨
      s'.source.receiver.validR = true ∧ z.done s'.answers.length = z.done s.answers.length + 1 ∧
        ∀ g < z.groups, s'.source.receiver.held g = s'.pixelAt (z.turn (z.done s.answers.length) g))

lemma answers_next_none (ha : s.answered z c = none) :
    (s.next z req row col c).answers = s.answers := by simp [next, ha]

lemma length_next_some {a x : BitVec 32} (ha : s.answered z c = some (a, x)) :
    (s.next z req row col c).answers.length = s.answers.length + 1 := by simp [next, ha]

lemma turn_group (hf : ∀ k a0 a1 b0 b1, z.fetch ≠ .block k a0 a1 b0 b1) (j g : ℕ) :
    z.turn j g = z.groups * j + g := by
  cases hfetch : z.fetch with
  | block k a0 a1 b0 b1 => exact absurd hfetch (hf _ _ _ _ _)
  | plain | pipelined =>
    rw [SourceConfig.turn, SourceConfig.burst, SourceConfig.block, SourceConfig.perRequest,
      SourceConfig.rank, hfetch]
    simp

lemma receives_pipelined (hf : z.fetch = .pipelined) (hz : z.Built) (hcollected : s.Collected)
    (hcounts : s.sentReads + (s.memCmdAck z c).toNat ≤ z.perRequest * s.asked.length) :
    s.Receives (s.next z req row col c) := by
  have hpacked : z.packed = false := (hz.plain (by rw [hf]; exact nofun)).1
  have hfetch : ∀ k a0 a1 b0 b1, z.fetch ≠ .block k a0 a1 b0 b1 := by
    rw [hf]
    exact nofun
  have hle : s.answers.length ≤ s.sentReads := Nat.le_add_right _ _
  simp only [Collected, hf] at hcollected
  simp only [Receives, Collected, SourceConfig.done, hf]
  have hrecv : (s.next z req row col c).source.receiver = s.source.receiver.nextPipelined z.groups
      (s.source.live z (s.inputs z req row col c)) (s.answered z c).isSome := by
    simp only [next, GroupFetch.next, hf]
    rfl
  have hkeep : s.source.receiver.Gathers z.groups s.answers.length (s.next z req row col c).pixelAt :=
    hcollected.congr fun n hn => (pixelAt_next hn (by omega)).symm
  rw [hrecv]
  cases ha : s.answered z c with
  | none =>
    rw [answers_next_none ha]
    exact ⟨⟨hkeep.recvd, hkeep.stored⟩, .inl ⟨rfl, rfl⟩⟩
  | some ax =>
    obtain ⟨a, x⟩ := ax
    have hlt := answered_lt ha
    have hlive := live_wide req row col hpacked ha (by omega)
    have hmod := Nat.mod_lt s.answers.length hz.groups
    rw [length_next_some ha, succ_div hz.groups, Option.isSome_some, Receiver.nextPipelined, if_pos rfl]
    by_cases hlast : s.answers.length % z.groups + 1 = z.groups
    · obtain ⟨hvalid, hheld⟩ := hkeep.complete hlast hlive
      rw [if_pos hlast]
      refine ⟨⟨?_, ?_⟩, .inr ⟨hvalid, rfl, fun g hg => ?_⟩⟩
      · change (if s.source.receiver.recvd = z.groups - 1 then 0 else _) = _
        rw [if_pos (by rw [hkeep.recvd]; omega), succ_mod hz.groups, if_pos hlast]
      · rw [succ_mod hz.groups, if_pos hlast]
        exact nofun
      · rw [turn_group hfetch]
        refine (hheld g hg).trans (congrArg _ ?_)
        have hdiv := Nat.div_add_mod s.answers.length z.groups
        omega
    · obtain ⟨hgathers, hvalid⟩ := hkeep.take (by omega) hlive
      rw [if_neg hlast]
      refine ⟨⟨?_, hgathers.stored⟩, .inl ⟨hvalid, rfl⟩⟩
      change (if s.source.receiver.recvd = z.groups - 1 then 0 else _) = _
      rw [if_neg (by rw [hkeep.recvd]; omega)]
      exact hgathers.recvd

section Block

variable {k a0 a1 b0 b1 : ℕ}

/-- Where among a row's reads those of a block's column are. -/
lemma turn_block (hf : z.fetch = .block k a0 a1 b0 b1) (hk : 0 < k) (hburst : z.burst = k) {m i : ℕ}
    (hi : i < k) (hdup : [a0, a1, b0, b1].Nodup) :
    z.turn (k * m + i) a0 = 4 * k * m + 2 * i ∧ z.turn (k * m + i) a1 = 4 * k * m + (2 * i + 1) ∧
      z.turn (k * m + i) b0 = 4 * k * m + (2 * i + 2 * k) ∧
        z.turn (k * m + i) b1 = 4 * k * m + (2 * i + (2 * k + 1)) := by
  simp only [List.nodup_cons, List.mem_cons, List.not_mem_nil, or_false, not_or] at hdup
  obtain ⟨⟨h01, h02, h03⟩, ⟨h12, h13⟩, h23, -⟩ := hdup
  simp only [SourceConfig.turn, SourceConfig.perRequest_block hf, hburst, SourceConfig.rank, hf,
    Nat.mul_add_div hk, Nat.div_eq_of_lt hi, Nat.mul_add_mod, Nat.mod_eq_of_lt hi, Nat.add_zero,
    if_true, if_neg (Ne.symm h01), if_neg (Ne.symm h02), if_neg (Ne.symm h03), if_neg (Ne.symm h12),
    if_neg (Ne.symm h13), if_neg (Ne.symm h23), and_self]

lemma receives_block (hf : z.fetch = .block k a0 a1 b0 b1) (hz : z.Built) (hcollected : s.Collected)
    (hcounts : s.sentReads + (s.memCmdAck z c).toNat ≤ z.perRequest * s.asked.length) :
    s.Receives (s.next z req row col c) := by
  have hpacked : z.packed = false := (hz.plain (by rw [hf]; exact nofun)).1
  have hk := hz.block_pos hf
  obtain ⟨-, hfour, hperm, -⟩ := hz.block hf
  have hdup : [a0, a1, b0, b1].Nodup := hperm.nodup_iff.mpr (by decide)
  have hle : s.answers.length ≤ s.sentReads := Nat.le_add_right _ _
  simp only [Collected, hf] at hcollected
  simp only [Receives, Collected, SourceConfig.done, hf]
  have hrecv : (s.next z req row col c).source.receiver = s.source.receiver.nextBlock
      (s.source.live z (s.inputs z req row col c)) k a0 a1 b0 b1 (s.answered z c).isSome := by
    simp only [next, GroupFetch.next, hf]
    rfl
  have hkeep : s.source.receiver.Stages k s.answers.length (s.next z req row col c).pixelAt :=
    hcollected.congr fun n hn => (pixelAt_next hn (by omega)).symm
  rw [hrecv]
  cases ha : s.answered z c with
  | none =>
    rw [answers_next_none ha]
    exact ⟨⟨hkeep.rphase, hkeep.rk, hkeep.rw_eq, hkeep.stg, hkeep.st2⟩, .inl ⟨rfl, rfl⟩⟩
  | some ax =>
    obtain ⟨a, x⟩ := ax
    have hlt := answered_lt ha
    have hlive := live_wide req row col hpacked ha (by omega)
    obtain ⟨-, -, hp, hodd, -, hmod, -⟩ := Receiver.block_place s.answers.length hk
    have hdiv := Nat.div_add_mod s.answers.length (4 * k)
    rw [length_next_some ha, succ_div (by omega), hmod, Option.isSome_some]
    by_cases hphase : s.answers.length % (4 * k) < 2 * k
    · obtain ⟨hstages, hvalid⟩ := hkeep.stage hk hlive hphase a0 a1 b0 b1
      refine ⟨hstages, .inl ⟨hvalid, ?_⟩⟩
      rw [if_neg (by omega), if_neg (by omega)]
      omega
    rw [not_lt] at hphase
    by_cases heven : s.answers.length % 2 = 0
    · obtain ⟨hstages, hvalid⟩ := hkeep.hold hk hlive hphase heven a0 a1 b0 b1
      refine ⟨hstages, .inl ⟨hvalid, ?_⟩⟩
      rw [if_neg (by omega), if_neg (by omega)]
      omega
    · obtain ⟨hstages, hvalid, h0, h1, h2, h3⟩ := hkeep.publish hk hlive hphase (by omega) hdup rfl
        (show s.answers.length - s.answers.length % (4 * k) = 4 * k * (s.answers.length / (4 * k)) by omega)
        rfl
      refine ⟨hstages, .inr ⟨hvalid, ?_, fun g hg => ?_⟩⟩
      · by_cases hend : s.answers.length % (4 * k) + 1 = 4 * k
        · rw [if_pos hend, if_pos hend, Nat.mul_succ]
          omega
        · rw [if_neg hend, if_neg hend]
          omega
      · obtain ⟨t0, t1, t2, t3⟩ := turn_block hf hk (hz.burst_block hf)
          (m := s.answers.length / (4 * k)) (i := (s.answers.length % (4 * k) - 2 * k) / 2)
          (by omega) hdup
        have hmem : g ∈ [a0, a1, b0, b1] := hperm.mem_iff.mpr (by simp; omega)
        simp only [List.mem_cons, List.not_mem_nil, or_false] at hmem
        rcases hmem with rfl | rfl | rfl | rfl
        · rw [h0, t0]
        · rw [h1, t1]
        · rw [h2, t2]
        · rw [h3, t3]

end Block

section Plain

/-- The last request is the one that is being answered. -/
lemma requestAt_last {q : FetchRequest} (hq : s.asked.getLast? = some q) {m : ℕ}
    (hm : m + 1 = s.asked.length) : s.requestAt m = q := by
  obtain ⟨qs, hqs⟩ : ∃ qs, s.asked = qs ++ [q] := List.getLast?_eq_some_iff.mp hq
  rw [hqs, List.length_append, List.length_singleton, Nat.succ_inj] at hm
  rw [requestAt, hqs, hm, List.getD_append_right _ _ _ _ (Nat.le_refl _), Nat.sub_self]
  rfl

/-- A source that reads one column at a time takes a word for the pixel it was read for, whichever
half of it that is. -/
lemma live_plain (req : Bool) (row col : ℕ) (hf : z.fetch = .plain)
    (hshared : z.sharedGamma = true → z.packed = false) {q : FetchRequest} {n : ℕ} {a x : BitVec 32}
    (hrow : z.packed = true → q.row < 2 ^ 16) (hset : c.settings = q.settings)
    (hq : s.asked.getLast? = some q) (hsent : s.source.issuer.ByGroup z q n)
    (hfsm : s.source.issuer.fsm = .issue) (ha : s.answered z c = some (a, x))
    (hrecvd : s.source.receiver.recvd = s.answers.length % z.groups)
    (hgroups : 0 < z.groups) (hlast : s.answers.length / z.groups + 1 = s.asked.length) :
    s.source.live z (s.inputs z req row col c) =
      (s.next z req row col c).pixelAt s.answers.length := by
  have hper : z.perRequest = z.groups := by rw [SourceConfig.perRequest, hf]
  have hplace (m : ℕ) : z.place m = (0, m) := by rw [SourceConfig.place, hf]
  have hasked : s.answers.length < z.perRequest * s.asked.length := by
    rw [hper, ← hlast]
    exact Nat.lt_mul_div_succ _ hgroups
  rw [pixelAt_new ha hasked (requestAt_last hq (by rw [hper]; exact hlast)) (hplace _)]
  have hdat : (s.inputs z req row col c).memDat = x := by simp [inputs, ha]
  cases hsent with
  | mul _ hmul => cases hfsm.symm.trans hmul
  | issue hat _ _ _ hbase =>
    funext i
    rw [GroupFetch.live, live_eq hshared, hdat]
    change z.conv (z.rawbytes (s.source.issuer.half z c.settings s.source.receiver.recvd) x i) = _
    rw [hset, Issuer.half_eq hat.row hat.col hrow hbase, hrecvd, SourceConfig.decode, hper]
    rfl

/-- Words come back to a source that reads one column at a time only where it waits for them. -/
lemma answered_plain (hf : z.fetch = .plain) (hasking : s.Asking) (hcollected : s.Collected)
    (hrows : ∀ q ∈ s.asked, z.packed = true → q.row < 2 ^ 16) {a x : BitVec 32}
    (ha : s.answered z c = some (a, x)) :
    ∃ q n, s.asked.getLast? = some q ∧ s.source.issuer.ByGroup z q n ∧ s.source.issuer.fsm = .issue := by
  have hcounts := hasking.counts (c := c) hrows
  have hlt := answered_lt ha
  have hper : z.perRequest = z.groups := by rw [SourceConfig.perRequest, hf]
  simp only [Collected, hf] at hcollected
  rw [hper] at hcounts
  have hbusy : s.source.issuer.fsm ≠ .idle := by
    intro hidle
    rw [if_pos hidle] at hcollected
    omega
  rw [if_neg hbusy] at hcollected
  cases hasking with
  | none _ hidle => exact absurd hidle hbusy
  | some q n hq hsent hcount =>
    have hcommand : s.memCmdAck z c = true → s.source.issuer.fsm = .issue := by
      intro hc
      rw [memCmdAck, Bool.and_eq_true] at hc
      have hreq := hc.1
      simp only [Issuer.memReq, hf, Bool.and_eq_true, decide_eq_true_eq] at hreq
      exact hreq.1
    simp only [Issuer.Sent, hf] at hsent
    obtain hgroup | ⟨hidle, -⟩ := hsent
    · refine ⟨q, n, hq, hgroup, ?_⟩
      cases hgroup with
      | issue _ hfsm => exact hfsm
      | mul _ hfsm _ hzero =>
        -- none of the request's words has been asked for
        have hquiet : s.memCmdAck z c = false := by
          cases hc : s.memCmdAck z c with
          | false => rfl
          | true => cases hfsm.symm.trans (hcommand hc)
        have hall := Nat.div_mul_le_self s.answers.length z.groups
        rw [hquiet, Bool.toNat_false] at hlt
        rw [hper, ← hcollected.2, hzero, Nat.mul_succ, Nat.mul_comm] at hcount
        omega
    · exact absurd hidle hbusy

/-- The last word of a request is that of its last command. -/
lemma last_plain (hf : z.fetch = .plain) (hz : z.Built) (hasking : s.Asking)
    (hcollected : s.Collected) (hrows : ∀ q ∈ s.asked, z.packed = true → q.row < 2 ^ 16)
    (hbusy : s.source.issuer.fsm ≠ .idle)
    (hend : s.source.last z (s.inputs z req row col c) = true) :
    s.sentReads + (s.memCmdAck z c).toNat = z.perRequest * s.asked.length := by
  have hcounts := hasking.counts (c := c) hrows
  have hper : z.perRequest = z.groups := by rw [SourceConfig.perRequest, hf]
  simp only [Collected, hf, if_neg hbusy] at hcollected
  obtain ⟨hgathers, hasked⟩ := hcollected
  rw [GroupFetch.last, Bool.and_eq_true, decide_eq_true_eq, hgathers.recvd] at hend
  have hsome : (s.answered z c).isSome = true := hend.1
  obtain ⟨⟨a, x⟩, ha⟩ := Option.isSome_iff_exists.mp hsome
  have hlt := answered_lt ha
  have hdiv := Nat.div_add_mod s.answers.length z.groups
  have hpos := hz.groups
  rw [hper, ← hasked, Nat.mul_succ] at hcounts ⊢
  omega

lemma receives_plain (hf : z.fetch = .plain) (hz : z.Built)
    (hshared : z.sharedGamma = true → z.packed = false) (hasking : s.Asking)
    (hcollected : s.Collected) (hrows : ∀ q ∈ s.asked, z.packed = true → q.row < 2 ^ 16)
    (hsteady : s.Steady c) : s.Receives (s.next z req row col c) := by
  have hcounts := hasking.counts (c := c) hrows
  have hper : z.perRequest = z.groups := by rw [SourceConfig.perRequest, hf]
  have hfetch : ∀ k a0 a1 b0 b1, z.fetch ≠ .block k a0 a1 b0 b1 := by
    simp [hf]
  have hle : s.answers.length ≤ s.sentReads := Nat.le_add_right _ _
  have hissuer : (s.next z req row col c).source.issuer =
      s.source.issuer.nextPlain z (s.inputs z req row col c) (s.source.last z (s.inputs z req row col c)) := by
    simp only [next, GroupFetch.next, Issuer.next, hf]
  have hrecv : (s.next z req row col c).source.receiver = s.source.receiver.nextPlain z.groups
      (s.source.live z (s.inputs z req row col c)) s.source.issuer.fsm req (s.answered z c).isSome := by
    simp only [next, GroupFetch.next, hf]
    rfl
  have hinput : (s.inputs z req row col c).req = req := rfl
  have hquiet (hnot : s.source.issuer.fsm ≠ .issue) : s.answered z c = none := by
    cases ha : s.answered z c with
    | none => rfl
    | some ax =>
      obtain ⟨-, -, -, -, hissue⟩ := answered_plain hf hasking hcollected hrows ha
      exact absurd hissue hnot
  have hgathered := hcollected
  simp only [Collected, hf] at hgathered
  simp only [Receives, Collected, SourceConfig.done, hf]
  rw [hissuer, hrecv]
  cases hfsm : s.source.issuer.fsm with
  | idle =>
    have hnone := hquiet (by simp [hfsm])
    rw [if_pos hfsm] at hgathered
    rw [answers_next_none hnone, Issuer.nextPlain, hfsm, Receiver.nextPlain, hinput]
    cases hreq : req with
    | false =>
      have hasked' : (s.next z false row col c).asked = s.asked := by simp [next, takes]
      simp only [Bool.false_eq_true, if_false, hfsm, if_true, hasked']
      exact ⟨hgathered, .inl ⟨rfl, trivial⟩⟩
    | true =>
      have hasked' : (s.next z true row col c).asked.length = s.asked.length + 1 := by
        simp [next, takes, hfsm]
      simp only [if_true, hasked']
      have hbusy : (if z.grouped = true then SourceFsm.mul else .issue) ≠ .idle := by
        split <;> simp
      rw [if_neg hbusy, hgathered]
      refine ⟨⟨⟨?_, ?_⟩, ?_⟩, .inl ⟨rfl, trivial⟩⟩
      · rw [Nat.mul_mod_right]
      · rw [Nat.mul_mod_right]
        exact fun g hg => absurd hg (Nat.not_lt_zero g)
      · rw [Nat.mul_div_cancel_left _ hz.groups]
  | adr0 =>
    cases hasking with
    | none _ hidle => cases hfsm.symm.trans hidle
    | some q n _ hsent =>
      simp only [Issuer.Sent, hf] at hsent
      obtain hgroup | ⟨hidle, -⟩ := hsent
      · cases hgroup with
        | mul _ hmul => cases hfsm.symm.trans hmul
        | issue _ hissue => cases hfsm.symm.trans hissue
      · cases hfsm.symm.trans hidle
  | mul =>
    have hnone := hquiet (by simp [hfsm])
    have hasked' : (s.next z req row col c).asked = s.asked := by simp [next, takes, hfsm]
    rw [if_neg (by simp [hfsm])] at hgathered
    rw [answers_next_none hnone, Issuer.nextPlain, hfsm, hasked']
    dsimp only [Receiver.nextPlain]
    have hkeep : s.source.receiver.Gathers z.groups s.answers.length (s.next z req row col c).pixelAt :=
      hgathered.1.congr fun n hn => (pixelAt_next hn (by omega)).symm
    exact ⟨⟨⟨hkeep.recvd, hkeep.stored⟩, hgathered.2⟩, .inl ⟨rfl, rfl⟩⟩
  | issue =>
    have hbusy : s.source.issuer.fsm ≠ .idle := by simp [hfsm]
    have hasked' : (s.next z req row col c).asked = s.asked := by simp [next, takes, hfsm]
    rw [if_neg hbusy] at hgathered
    obtain ⟨hgathers, hasked⟩ := hgathered
    have hkeep : s.source.receiver.Gathers z.groups s.answers.length (s.next z req row col c).pixelAt :=
      hgathers.congr fun n hn => (pixelAt_next hn (by omega)).symm
    rw [Issuer.nextPlain, hfsm, Receiver.nextPlain, hasked', GroupFetch.last]
    have hack : (s.inputs z req row col c).memAck = (s.answered z c).isSome := rfl
    rw [hack]
    cases ha : s.answered z c with
    | none =>
      rw [answers_next_none ha]
      simp only [Option.isSome_none, Bool.false_and, Bool.false_eq_true, if_false]
      exact ⟨⟨⟨hkeep.recvd, hkeep.stored⟩, hasked⟩, .inl ⟨rfl, trivial⟩⟩
    | some ax =>
      obtain ⟨a, x⟩ := ax
      obtain ⟨q, n, hq, hgroup, -⟩ := answered_plain hf hasking hcollected hrows ha
      have hlive := live_plain req row col hf hshared (hrows q (List.mem_of_getLast? hq))
        (hsteady hbusy q hq) hq hgroup hfsm ha hgathers.recvd hz.groups hasked
      have hmod := Nat.mod_lt s.answers.length hz.groups
      have hdiv := Nat.div_add_mod s.answers.length z.groups
      simp only [Option.isSome_some, Bool.true_and, if_true, hkeep.recvd, decide_eq_true_eq]
      rw [length_next_some ha, succ_div hz.groups]
      by_cases hlast : s.answers.length % z.groups + 1 = z.groups
      · obtain ⟨hvalid, hheld⟩ := hkeep.complete hlast hlive
        rw [if_pos hlast]
        have hend : s.answers.length % z.groups = z.groups - 1 := by omega
        simp only [if_pos hend, if_true]
        refine ⟨?_, .inr ⟨hvalid, trivial, fun g hg => ?_⟩⟩
        · rw [← hasked, Nat.mul_succ]
          omega
        · rw [turn_group hfetch]
          refine (hheld g hg).trans (congrArg _ ?_)
          omega
      · obtain ⟨hgathers', hvalid⟩ := hkeep.take (by omega) hlive
        have hend : s.answers.length % z.groups ≠ z.groups - 1 := by omega
        rw [hkeep.recvd] at hgathers'
        simp only [if_neg hlast, if_neg hend]
        exact ⟨⟨hgathers', hasked⟩, .inl ⟨hvalid, trivial⟩⟩

end Plain

lemma receives (h : s.Serves) (hz : z.Built) (hshared : z.sharedGamma = true → z.packed = false)
    (req : Bool) (row col : ℕ) (hsteady : s.Steady c) : s.Receives (s.next z req row col c) := by
  have hcounts := h.asking.counts (c := c) h.rows
  cases hf : z.fetch with
  | plain => exact receives_plain hf hz hshared h.asking h.collected h.rows hsteady
  | pipelined => exact receives_pipelined hf hz h.collected hcounts
  | block k a0 a1 b0 b1 => exact receives_block hf hz h.collected hcounts

end Receiving

section Run

lemma done_mul (z : SourceConfig) (hz : z.Built) (m : ℕ) : z.done (z.perRequest * m) = z.burst * m := by
  cases hf : z.fetch with
  | block k a0 a1 b0 b1 =>
    have hpos : 0 < 4 * k := Nat.mul_pos (by decide) (hz.block_pos hf)
    rw [SourceConfig.done, SourceConfig.perRequest_block hf, hz.burst_block hf, hf]
    dsimp only
    rw [Nat.mul_div_cancel_left _ hpos, Nat.mul_mod_right]
    omega
  | plain | pipelined =>
    rw [SourceConfig.done, SourceConfig.perRequest, SourceConfig.burst, SourceConfig.block, hf]
    dsimp only
    rw [Nat.mul_div_cancel_left _ hz.groups]
    exact (Nat.one_mul m).symm

/-- The words of a whole column have all come. -/
lemma turn_lt (hz : z.Built) {n j g : ℕ} (hj : j < z.done n) (hg : g < z.groups) : z.turn j g < n := by
  cases hf : z.fetch with
  | block k a0 a1 b0 b1 =>
    have hk := hz.block_pos hf
    obtain ⟨-, hfour, hperm, -⟩ := hz.block hf
    have hmem : g ∈ [a0, a1, b0, b1] := hperm.mem_iff.mpr (by simp; omega)
    have hdup : [a0, a1, b0, b1].Nodup := hperm.nodup_iff.mpr (by decide)
    have hturn := turn_block hf hk (hz.burst_block hf) (m := j / k) (Nat.mod_lt j hk) hdup
    rw [Nat.div_add_mod] at hturn
    obtain ⟨t0, t1, t2, t3⟩ := hturn
    have hlt : z.turn j g ≤ 4 * k * (j / k) + (2 * (j % k) + (2 * k + 1)) := by
      simp only [List.mem_cons, List.not_mem_nil, or_false] at hmem
      have hmod := Nat.mod_lt j hk
      rcases hmem with rfl | rfl | rfl | rfl <;> omega
    refine hlt.trans_lt ?_
    simp only [SourceConfig.done, hf] at hj
    have hdiv := Nat.div_add_mod n (4 * k)
    have hn := Nat.mod_lt n (show 0 < 4 * k by omega)
    have hdivj := Nat.div_add_mod j k
    have hmodj := Nat.mod_lt j hk
    rcases Nat.lt_or_ge (j / k) (n / (4 * k)) with hless | hmore
    · have hle : 4 * k * (j / k + 1) ≤ 4 * k * (n / (4 * k)) := Nat.mul_le_mul_left _ hless
      rw [Nat.mul_succ] at hle
      omega
    · have hle : k * (n / (4 * k)) ≤ k * (j / k) := Nat.mul_le_mul_left _ hmore
      have heq : j / k = n / (4 * k) := by
        refine Nat.le_antisymm (Nat.lt_succ_iff.mp (Nat.div_lt_of_lt_mul ?_)) hmore
        rw [Nat.mul_succ]
        omega
      rw [heq] at hdivj ⊢
      omega
  | plain | pipelined =>
    have hfetch : ∀ k a0 a1 b0 b1, z.fetch ≠ .block k a0 a1 b0 b1 := by
      rw [hf]
      exact nofun
    simp only [SourceConfig.done, hf] at hj
    rw [turn_group hfetch]
    calc z.groups * j + g < z.groups * (j + 1) := by rw [Nat.mul_succ]; omega
      _ ≤ z.groups * (n / z.groups) := Nat.mul_le_mul_left _ hj
      _ ≤ n := Nat.mul_div_le n z.groups

lemma valids_next (s : FetchTrace z.greyBits) (req : Bool) (row col : ℕ) (c : FillCycle z) :
    (s.next z req row col c).valids = s.valids ++
      if (s.next z req row col c).source.receiver.validR then
        [(s.next z req row col c).source.receiver.held] else [] := rfl

/-- A cycle around a source. -/
lemma Serves.next (h : s.Serves) (hz : z.Built) (hshared : z.sharedGamma = true → z.packed = false)
    (req : Bool) (row col : ℕ) (hrow : z.packed = true → row < 2 ^ 16) (hsteady : s.Steady c) :
    (s.next z req row col c).Serves := by
  have hcounts := h.asking.counts (c := c) h.rows
  have hle : s.answers.length ≤ s.sentReads := Nat.le_add_right _ _
  obtain ⟨hcollected, hvalid⟩ := receives h hz hshared req row col hsteady
  have hkeep : ∀ j < z.done s.answers.length, ∀ g < z.groups,
      s.valids.getD j (fun _ _ => 0) g = (s.next z req row col c).pixelAt (z.turn j g) := by
    intro j hj g hg
    rw [h.shown j hj g hg, pixelAt_next (turn_lt hz hj hg) (by omega)]
  refine ⟨?_, ?_, order_next h.asking h.rows hsteady h.order, hcollected, ?_, ?_⟩
  · intro q hq hpacked
    rw [FetchTrace.next, List.mem_append] at hq
    rcases hq with hq | hq
    · exact h.rows q hq hpacked
    · split at hq
      · rw [List.mem_singleton.mp hq]
        exact hrow hpacked
      · cases hq
  · exact h.asking.next hz h.rows hsteady fun hf hbusy hend =>
      last_plain hf hz h.asking h.collected h.rows hbusy hend
  · rw [valids_next, List.length_append, h.count]
    rcases hvalid with ⟨hquiet, hdone⟩ | ⟨hnew, hdone, -⟩
    · rw [hquiet, hdone]
      rfl
    · rw [hnew, hdone]
      rfl
  · intro j hj g hg
    rw [valids_next]
    rcases hvalid with ⟨hquiet, hdone⟩ | ⟨hnew, hdone, hheld⟩
    · rw [hdone] at hj
      rw [List.getD_append _ _ _ _ (h.count ▸ hj), hkeep j hj g hg]
    · rw [hdone] at hj
      rcases Nat.lt_succ_iff_lt_or_eq.mp hj with hlt | rfl
      · rw [List.getD_append _ _ _ _ (h.count ▸ hlt), hkeep j hlt g hg]
      · rw [List.getD_append_right _ _ _ _ h.count.le, h.count, Nat.sub_self, hnew]
        exact hheld g hg

end Run

end FetchTrace

/-- One cycle around a source: whether and for what it is asked, and the memory. -/
structure SourceCycle (z : SourceConfig) where
  req : Bool := false
  row : ℕ := 0
  col : ℕ := 0
  memory : FillCycle z := {}

namespace FetchTrace

variable {z : SourceConfig}

def cycle (s : FetchTrace z.greyBits) (i : SourceCycle z) : FetchTrace z.greyBits :=
  s.next z i.req i.row i.col i.memory

/-- Along the run the settings stay as they are while a request is being asked for, and the rows of a
16-bit source have 16 bits. -/
def SteadyRun (s : FetchTrace z.greyBits) (is : List (SourceCycle z)) : Prop :=
  Always (fun s i t => t = s.cycle i)
    (fun s i => s.Steady i.memory ∧ (z.packed = true → i.row < 2 ^ 16)) s is

lemma serves_reset (hz : z.Built) : ({} : FetchTrace z.greyBits).Serves := by
  have hdone : z.done 0 = 0 := by simpa using done_mul z hz 0
  refine ⟨nofun, .none rfl rfl rfl, rfl, ?_, hdone.symm, ?_⟩
  · rw [Collected]
    split
    · rw [if_pos rfl]
      rfl
    · exact ⟨(Nat.zero_mod _).symm, fun g hg => absurd hg (by simp)⟩
    · refine ⟨?_, ?_, ?_, ?_, ?_⟩ <;> simp
      next hf => exact (hz.block_pos hf).ne'
  · change ∀ j < z.done 0, _
    rw [hdone]
    exact nofun

lemma serves_run (hz : z.Built) (hshared : z.sharedGamma = true → z.packed = false)
    {is : List (SourceCycle z)} (hsteady : ({} : FetchTrace z.greyBits).SteadyRun is) :
    (is.foldl cycle ({} : FetchTrace z.greyBits)).Serves := by
  refine (run_foldl cycle _ is).invariant ?_ (serves_reset hz) hsteady
  rintro s i t hs hc rfl
  exact hs.next hz hshared i.req i.row i.col hc.2 hc.1

lemma settings_next {s : FetchTrace z.greyBits} {req : Bool} {row col : ℕ} {c : FillCycle z}
    {v : FetchSettings} (h : ∀ q ∈ s.asked, q.settings = v) (hc : c.settings = v) {q : FetchRequest}
    (hq : q ∈ (s.next z req row col c).asked) : q.settings = v := by
  rw [FetchTrace.next, List.mem_append] at hq
  rcases hq with hq | hq
  · exact h q hq
  · split at hq
    · rw [List.mem_singleton.mp hq]
      exact hc
    · cases hq

/-- Settings that never change are steady. -/
lemma steadyRun_of_const {v : FetchSettings} {is : List (SourceCycle z)}
    (hset : ∀ i ∈ is, i.memory.settings = v) (hrow : ∀ i ∈ is, z.packed = true → i.row < 2 ^ 16) :
    ({} : FetchTrace z.greyBits).SteadyRun is := by
  refine Always.of_safe (I := fun s => ∀ q ∈ s.asked, q.settings = v)
    (C := fun s i => i.memory.settings = v ∧ (z.packed = true → i.row < 2 ^ 16)) ?_ ?_ nofun
    (Always.of_mem fun i hi _ => ⟨hset i hi, hrow i hi⟩)
  · rintro s i t hs hc rfl q hq
    exact settings_next hs hc.1 hq
  · intro s i hs hc
    exact ⟨fun _ q hq => hc.1.trans (hs q (List.mem_of_getLast? hq)).symm, hc.2⟩

/-- A word of a column lies among those of the column's request. -/
lemma turn_place (hz : z.Built) {g : ℕ} (hg : g < z.groups) (j : ℕ) :
    z.turn j g / z.perRequest = j / z.burst ∧ z.place (z.turn j g % z.perRequest) = (j % z.burst, g) := by
  obtain ⟨hrank, hplace⟩ := hz.place_rank (Nat.mod_lt j SourceConfig.burst_pos) hg
  rw [SourceConfig.turn, Nat.mul_add_div hz.perRequest_pos, Nat.div_eq_of_lt hrank, Nat.add_zero,
    Nat.mul_add_mod, Nat.mod_eq_of_lt hrank]
  exact ⟨rfl, hplace⟩

section Shown

variable {s : FetchTrace z.greyBits}

/-- The words that have come back are those of the first reads. -/
lemma Serves.answer (h : s.Serves) {n : ℕ} (hn : n < s.answers.length) :
    s.answers[n]? = some (s.readAt n, (s.answers.getD n (0, 0)).2) := by
  have horder := congrArg (fun l => l[n]?) h.order
  have hlt : n < s.sentReads := hn.trans_le (Nat.le_add_right _ _)
  rw [List.getElem?_append_left (by rwa [List.length_map]), List.getElem?_map, List.getElem?_map,
    List.getElem?_range hlt, List.getElem?_eq_getElem hn] at horder
  rw [List.getD_eq_getElem _ _ hn, List.getElem?_eq_getElem hn]
  exact congrArg some (Prod.ext (Option.some.inj horder) rfl)

lemma Serves.asked_of_valid (h : s.Serves) (hz : z.Built) {j : ℕ} (hj : j < s.valids.length) :
    j / z.burst < s.asked.length := by
  rw [h.count] at hj
  have hcounts := h.asking.counts (c := {}) h.rows
  have hturn := turn_lt hz hj hz.groups
  have hle : s.answers.length ≤ s.sentReads := Nat.le_add_right _ _
  rw [← (turn_place hz hz.groups j).1]
  exact div_lt_asked (by omega)

/-- A source's valid shows, for each group, the pixel of its column out of the word that came back for
it. -/
lemma Serves.valid (h : s.Serves) (hz : z.Built) {j : ℕ} (hj : j < s.valids.length) {q : FetchRequest}
    (hq : s.asked[j / z.burst]? = some q) {g : ℕ} (hg : g < z.groups) :
    ∃ x, s.answers[z.turn j g]? = some (z.wordAt q.settings q.row (q.col + j % z.burst) g, x) ∧
      s.valids.getD j (fun _ _ => 0) g = z.decode q.settings q.row (q.col + j % z.burst) g x := by
  rw [h.count] at hj
  obtain ⟨hdiv, hplace⟩ := turn_place hz hg j
  have hrequest : s.requestAt (z.turn j g / z.perRequest) = q := by
    rw [requestAt, hdiv, List.getD_eq_getElem?_getD, hq]
    rfl
  refine ⟨(s.answers.getD (z.turn j g) (0, 0)).2, ?_, ?_⟩
  · rw [h.answer (turn_lt hz hj hg), readAt, hrequest, FetchRequest.read, hplace]
  · rw [h.shown j hj g hg, pixelAt, hrequest, hplace]

end Shown

end FetchTrace

end Ledwall.Gateware
