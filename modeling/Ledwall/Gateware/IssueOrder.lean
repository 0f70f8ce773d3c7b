import Mathlib.Data.BitVec
import Ledwall.Gateware.FetchPlan

/-! A source asks for the words of a request in the order of its plan, whatever the memory's pace. -/

namespace Ledwall.Gateware

variable {z : SourceConfig} {q : FetchRequest} {v : FetchSettings} {i : FetchInputs} {s : Issuer}
  {n : ℕ}

/-- A whole pixel per word, and strips that begin where their offsets say. -/
def SourceConfig.Wide (z : SourceConfig) : Prop := z.packed = false ∧ z.grouped = true

lemma SourceConfig.Wide.wordAt (h : z.Wide) (v : FetchSettings) (row col g : ℕ) :
    z.wordAt v row col g =
      v.fbBase + PixelSource.product v.width row + BitVec.ofNat 32 col + v.groupOffset g := by
  rw [SourceConfig.wordAt, wordOf, FetchSettings.index, FetchSettings.offset, h.1, h.2]
  simp only [Bool.false_eq_true, if_false, if_true]
  apply BitVec.eq_of_toNat_eq
  simp only [BitVec.toNat_add, BitVec.toNat_ofNat, toNat_product]
  omega

namespace Issuer

/-- The coordinates are those of the request. -/
structure At (q : FetchRequest) (s : Issuer) : Prop where
  row : s.rowL = q.row
  col : s.colL = q.col

/-- The registered product is that of the request's row. -/
def Based (q : FetchRequest) (s : Issuer) : Prop :=
  s.rowbase = PixelSource.product q.settings.width q.row

/-- A source that reads one column at a time has asked for `n` of its words. -/
inductive ByGroup (z : SourceConfig) (q : FetchRequest) (n : ℕ) (s : Issuer) : Prop
  | mul (hat : s.At q) (hfsm : s.fsm = .mul) (hissued : s.issued = n) (hn : n = 0)
  | issue (hat : s.At q) (hfsm : s.fsm = .issue) (hissued : s.issued = n) (hle : n ≤ z.groups)
    (hbase : z.grouped = true → s.Based q)

/-- The offsets, and the steps between them, are those of the request. -/
structure Steps (q : FetchRequest) (a0 a1 b0 b1 : ℕ) (s : Issuer) : Prop where
  s01 : s.s01 = q.settings.groupOffset a1 - q.settings.groupOffset a0
  s10 : s.s10 = q.settings.groupOffset a0 - q.settings.groupOffset a1 + 1
  s23 : s.s23 = q.settings.groupOffset b1 - q.settings.groupOffset b0
  s32 : s.s32 = q.settings.groupOffset b0 - q.settings.groupOffset b1 + 1

/-- A block source has asked for `n` words of its request. -/
inductive ByBlock (z : SourceConfig) (k a0 a1 b0 b1 : ℕ) (q : FetchRequest) (n : ℕ) (s : Issuer) : Prop
  | mul (hat : s.At q) (ho : s.o = q.settings.groupOffset) (hfsm : s.fsm = .mul) (hn : n = 0)
    (hj : s.j = 0) (hphase : s.iphase = false)
    (hproduct : s.rowbaseR = PixelSource.product q.settings.width q.row)
  | adr0 (hat : s.At q) (ho : s.o = q.settings.groupOffset) (hfsm : s.fsm = .adr0) (hn : n = 0)
    (hj : s.j = 0) (hphase : s.iphase = false) (hbase : s.Based q) (hsteps : s.Steps q a0 a1 b0 b1)
  | issue (hat : s.At q) (ho : s.o = q.settings.groupOffset) (hfsm : s.fsm = .issue)
    (hn : n = (if s.iphase then 2 * k else 0) + s.j) (hj : s.j < 2 * k) (hadr : s.adrQ = q.read z n)
    (hfirst : s.first1 = q.read z (2 * k)) (hbase : s.Based q) (hsteps : s.Steps q a0 a1 b0 b1)

/-- The source has asked for `n` words of the request. -/
def Sent (z : SourceConfig) (q : FetchRequest) (n : ℕ) (s : Issuer) : Prop :=
  match z.fetch with
  | .plain => s.ByGroup z q n ∨ s.fsm = .idle ∧ n = z.groups
  | .pipelined => s.ByGroup z q n ∧ n < z.groups ∨ s.fsm = .idle ∧ n = z.groups
  | .block k a0 a1 b0 b1 => s.ByBlock z k a0 a1 b0 b1 q n ∨ s.fsm = .idle ∧ n = 4 * k

section Group

lemma read_group (hf : ∀ k a0 a1 b0 b1, z.fetch ≠ .block k a0 a1 b0 b1) :
    q.read z n = z.wordAt q.settings q.row q.col n := by
  rw [FetchRequest.read, SourceConfig.place]
  split
  · exact absurd ‹_› (hf _ _ _ _ _)
  · rfl

lemma ByGroup.address (h : s.ByGroup z q n) (hfsm : s.fsm = .issue)
    (hlt : z.packed = true → q.row < 2 ^ 16) : s.address z q.settings s.issued =
      z.wordAt q.settings q.row q.col n := by
  cases h with
  | mul hat hmul => cases hfsm.symm.trans hmul
  | issue hat _ hissued hle hbase => rw [address_eq hat.row hat.col hlt hbase, hissued]

lemma byGroup_accept (hrow : i.row = q.row) (hcol : i.col = q.col) :
    (s.accept i).ByGroup z q 0 := .mul ⟨hrow, hcol⟩ rfl rfl rfl

lemma ByGroup.nextPlain (h : s.ByGroup z q n) (hset : i.toFetchSettings = q.settings)
    (hack : i.memCmdAck = true → s.fsm = .issue ∧ s.issued ≠ z.groups) :
    (s.nextPlain z i false).ByGroup z q (n + i.memCmdAck.toNat) := by
  cases h with
  | mul hat hfsm hissued hn =>
    have hquiet : i.memCmdAck = false := by
      cases hc : i.memCmdAck
      · rfl
      · cases hfsm.symm.trans (hack hc).1
    rw [Issuer.nextPlain, hfsm, hquiet, hn]
    refine .issue ⟨hat.row, hat.col⟩ rfl (hissued.trans hn) (Nat.zero_le _) fun _ => ?_
    show PixelSource.product i.width s.rowL = _
    rw [hat.row, ← hset]
  | issue hat hfsm hissued hle hbase =>
    rw [Issuer.nextPlain, hfsm]
    cases hc : i.memCmdAck with
    | false => exact .issue ⟨hat.row, hat.col⟩ rfl (by simpa [hc] using hissued) hle hbase
    | true =>
      have hne := (hack hc).2
      exact .issue ⟨hat.row, hat.col⟩ rfl (by simpa [hne] using hissued)
        (by simp only [Bool.toNat_true]; omega) hbase

lemma ByGroup.nextPipelined (h : s.ByGroup z q n) (hset : i.toFetchSettings = q.settings)
    (hlt : n < z.groups) (hack : i.memCmdAck = true → s.fsm = .issue) :
    (s.nextPipelined z i).ByGroup z q (n + i.memCmdAck.toNat) ∧ n + i.memCmdAck.toNat < z.groups ∨
      (s.nextPipelined z i).fsm = .idle ∧ n + i.memCmdAck.toNat = z.groups := by
  cases h with
  | mul hat hfsm hissued hn =>
    have hquiet : i.memCmdAck = false := by
      cases hc : i.memCmdAck
      · rfl
      · cases hfsm.symm.trans (hack hc)
    rw [Issuer.nextPipelined, hfsm, hquiet, hn]
    refine .inl ⟨.issue ⟨hat.row, hat.col⟩ rfl (hissued.trans hn) (Nat.zero_le _) fun _ => ?_,
      hn ▸ hlt⟩
    show PixelSource.product i.width s.rowL = _
    rw [hat.row, ← hset]
  | issue hat hfsm hissued hle hbase =>
    rw [Issuer.nextPipelined, hfsm]
    cases hc : i.memCmdAck with
    | false => exact .inl ⟨.issue ⟨hat.row, hat.col⟩ hfsm hissued hle hbase, hlt⟩
    | true =>
      by_cases hend : s.issued = z.groups - 1
      · exact .inr ⟨by simp [hend], by simp only [Bool.toNat_true]; omega⟩
      · refine .inl ⟨.issue ⟨hat.row, hat.col⟩ (by simp [hend]) (by simp [hissued]) ?_ hbase, ?_⟩ <;>
          simp only [Bool.toNat_true] <;> omega

end Group

section Block

variable {k a0 a1 b0 b1 : ℕ}

lemma read_first (hf : z.fetch = .block k a0 a1 b0 b1) {j : ℕ} (hj : j < 2 * k) :
    q.read z j = z.wordAt q.settings q.row (q.col + j / 2) (if j % 2 = 1 then a1 else a0) := by
  rw [FetchRequest.read, SourceConfig.place, hf]
  simp only [if_pos hj, Nat.mod_eq_of_lt hj]

lemma read_second (hf : z.fetch = .block k a0 a1 b0 b1) {j : ℕ} (hj : j < 2 * k) :
    q.read z (2 * k + j) =
      z.wordAt q.settings q.row (q.col + j / 2) (if j % 2 = 1 then b1 else b0) := by
  rw [FetchRequest.read, SourceConfig.place, hf]
  have hmod : (2 * k + j) % 2 = j % 2 := by omega
  simp only [if_neg (show ¬ 2 * k + j < 2 * k by omega), Nat.add_mod_left, Nat.mod_eq_of_lt hj, hmod]

lemma wordAt_step (hz : z.Wide) {j g h : ℕ} :
    z.wordAt q.settings q.row (q.col + (j + 1) / 2) (if (j + 1) % 2 = 1 then h else g) =
      z.wordAt q.settings q.row (q.col + j / 2) (if j % 2 = 1 then h else g) +
        if j % 2 = 1 then q.settings.groupOffset g - q.settings.groupOffset h + 1
        else q.settings.groupOffset h - q.settings.groupOffset g := by
  rw [hz.wordAt, hz.wordAt]
  by_cases hodd : j % 2 = 1
  · rw [if_pos hodd, if_pos hodd, if_neg (by omega), show (j + 1) / 2 = j / 2 + 1 by omega,
      ← Nat.add_assoc, BitVec.ofNat_add, show BitVec.ofNat 32 1 = 1 from rfl]
    ring
  · rw [if_neg hodd, if_neg hodd, if_pos (by omega), show (j + 1) / 2 = j / 2 by omega]
    ring

lemma ByBlock.adrQ_step (hz : z.Wide) (hf : z.fetch = .block k a0 a1 b0 b1)
    (hn : n = (if s.iphase then 2 * k else 0) + s.j) (hj : s.j + 1 < 2 * k)
    (hadr : s.adrQ = q.read z n) (hsteps : s.Steps q a0 a1 b0 b1) :
    s.adrQ + s.step = q.read z (n + 1) := by
  rw [hadr, hn, Issuer.step]
  cases hphase : s.iphase with
  | false =>
    simp only [Bool.false_eq_true, if_false, Nat.zero_add]
    rw [read_first hf (by omega), read_first hf hj, wordAt_step hz, hsteps.s10, hsteps.s01]
  | true =>
    simp only [if_true]
    rw [Nat.add_assoc, read_second hf (by omega), read_second hf hj, wordAt_step hz, hsteps.s32,
      hsteps.s23]

lemma byBlock_accept (hset : i.toFetchSettings = q.settings) (hrow : i.row = q.row)
    (hcol : i.col = q.col) : ((s.registered i a0 a1 b0 b1).accept i).ByBlock z k a0 a1 b0 b1 q 0 := by
  refine .mul ⟨hrow, hcol⟩ (congrArg FetchSettings.groupOffset hset) rfl rfl rfl rfl ?_
  show PixelSource.product i.width i.row = _
  rw [hrow, ← hset]

lemma registered_steps (i : FetchInputs) (a0 a1 b0 b1 : ℕ) (ho : s.o = q.settings.groupOffset) :
    (s.registered i a0 a1 b0 b1).Steps q a0 a1 b0 b1 :=
  ⟨by rw [← ho]; rfl, by rw [← ho]; rfl, by rw [← ho]; rfl, by rw [← ho]; rfl⟩

lemma first_eq (hz : z.Wide) (hat : s.At q) (hbase : s.Based q) (g : ℕ) :
    s.first q.settings (q.settings.groupOffset g) = z.wordAt q.settings q.row q.col g := by
  rw [hz.wordAt, first, hbase, hat.col]

lemma registered_first (hz : z.Wide) (hf : z.fetch = .block k a0 a1 b0 b1) (hk : 0 < k)
    (hset : i.toFetchSettings = q.settings) (hat : s.At q) (ho : s.o = q.settings.groupOffset)
    (hbase : s.Based q) : (s.registered i a0 a1 b0 b1).first1 = q.read z (2 * k) := by
  have hread := read_second (q := q) hf (j := 0) (by omega)
  show s.first i.toFetchSettings (s.o b0) = _
  rw [hset, ho, first_eq hz hat hbase]
  exact hread.symm

lemma ByBlock.nextBlock (h : s.ByBlock z k a0 a1 b0 b1 q n) (hz : z.Wide)
    (hf : z.fetch = .block k a0 a1 b0 b1) (hk : 0 < k) (hset : i.toFetchSettings = q.settings)
    (hack : i.memCmdAck = true → s.fsm = .issue) :
    (s.nextBlock i k a0 a1 b0 b1).ByBlock z k a0 a1 b0 b1 q (n + i.memCmdAck.toNat) ∨
      (s.nextBlock i k a0 a1 b0 b1).fsm = .idle ∧ n + i.memCmdAck.toNat = 4 * k := by
  have hgroups : i.groupOffset = q.settings.groupOffset := congrArg FetchSettings.groupOffset hset
  have hquiet : s.fsm ≠ .issue → i.memCmdAck = false := fun hne => by
    cases hc : i.memCmdAck
    · rfl
    · exact absurd (hack hc) hne
  cases h with
  | mul hat ho hfsm hn hj hphase hproduct =>
    rw [Issuer.nextBlock, hfsm, hquiet (by rw [hfsm]; decide)]
    have hsteps := registered_steps i a0 a1 b0 b1 ho
    exact .inl (.adr0 ⟨hat.row, hat.col⟩ hgroups rfl hn hj hphase hproduct
      ⟨hsteps.s01, hsteps.s10, hsteps.s23, hsteps.s32⟩)
  | adr0 hat ho hfsm hn hj hphase hbase hsteps =>
    rw [Issuer.nextBlock, hfsm, hquiet (by rw [hfsm]; decide)]
    have hsteps' := registered_steps i a0 a1 b0 b1 ho
    have hread := read_first (q := q) hf (j := 0) (by omega)
    refine .inl (.issue ⟨hat.row, hat.col⟩ hgroups rfl ?_ (hj.trans_lt (by omega)) ?_
      (registered_first hz hf hk hset hat ho hbase) hbase
      ⟨hsteps'.s01, hsteps'.s10, hsteps'.s23, hsteps'.s32⟩)
    · show n + 0 = (if s.iphase then 2 * k else 0) + s.j
      rw [hn, hphase, hj]
      rfl
    · show s.first i.toFetchSettings (s.o a0) = _
      rw [hset, ho, first_eq hz hat hbase, hn]
      exact hread.symm
  | issue hat ho hfsm hn hj hadr hfirst hbase hsteps =>
    have hsteps' := registered_steps i a0 a1 b0 b1 ho
    have hfirst' := registered_first hz hf hk hset hat ho hbase
    rw [Issuer.nextBlock, hfsm]
    cases hc : i.memCmdAck with
    | false =>
      exact .inl (.issue ⟨hat.row, hat.col⟩ hgroups hfsm hn hj hadr hfirst' hbase
        ⟨hsteps'.s01, hsteps'.s10, hsteps'.s23, hsteps'.s32⟩)
    | true =>
      by_cases hend : s.j = 2 * k - 1
      · cases hphase : s.iphase with
        | false =>
          simp only [hphase, Bool.false_eq_true, if_false] at hn
          simp only [if_true, if_pos hend, Bool.false_eq_true, if_false]
          refine .inl (.issue ⟨hat.row, hat.col⟩ hgroups hfsm ?_ (show 0 < 2 * k by omega) ?_
            hfirst' hbase ⟨hsteps'.s01, hsteps'.s10, hsteps'.s23, hsteps'.s32⟩)
          · show n + 1 = 2 * k + 0
            omega
          · show s.first1 = _
            rw [hfirst, show n + true.toNat = 2 * k by simp only [Bool.toNat_true]; omega]
        | true =>
          simp only [hphase, if_true] at hn
          simp only [if_true, if_pos hend]
          exact .inr ⟨trivial, by simp only [Bool.toNat_true]; omega⟩
      · simp only [if_true, if_neg hend]
        refine .inl (.issue ⟨hat.row, hat.col⟩ hgroups hfsm ?_ (show s.j + 1 < 2 * k by omega) ?_
          hfirst' hbase ⟨hsteps'.s01, hsteps'.s10, hsteps'.s23, hsteps'.s32⟩)
        · show n + 1 = (if s.iphase then 2 * k else 0) + (s.j + 1)
          omega
        · exact adrQ_step hz hf hn (by omega) hadr hsteps

end Block

section Requests

/-- A source that is idle has asked for every word of its request. -/
lemma Sent.of_idle (h : s.Sent z q n) (hidle : s.fsm = .idle) : n = z.perRequest := by
  rw [Sent] at h
  cases hf : z.fetch with
  | plain =>
    simp only [SourceConfig.perRequest, hf] at h ⊢
    obtain h | ⟨-, hn⟩ := h
    · cases h with
      | mul _ hfsm => cases hidle.symm.trans hfsm
      | issue _ hfsm => cases hidle.symm.trans hfsm
    · exact hn
  | pipelined =>
    simp only [SourceConfig.perRequest, hf] at h ⊢
    obtain ⟨h, -⟩ | ⟨-, hn⟩ := h
    · cases h with
      | mul _ hfsm => cases hidle.symm.trans hfsm
      | issue _ hfsm => cases hidle.symm.trans hfsm
    · exact hn
  | block k a0 a1 b0 b1 =>
    simp only [SourceConfig.perRequest, hf] at h ⊢
    obtain h | ⟨-, hn⟩ := h
    · cases h with
      | mul _ _ hfsm => cases hidle.symm.trans hfsm
      | adr0 _ _ hfsm => cases hidle.symm.trans hfsm
      | issue _ _ hfsm => cases hidle.symm.trans hfsm
    · exact hn

lemma sent_of_idle (hidle : s.fsm = .idle) : s.Sent z q z.perRequest := by
  rw [Sent]
  cases hf : z.fetch with
  | plain => exact .inr ⟨hidle, by rw [SourceConfig.perRequest, hf]⟩
  | pipelined => exact .inr ⟨hidle, by rw [SourceConfig.perRequest, hf]⟩
  | block k a0 a1 b0 b1 => exact .inr ⟨hidle, by rw [SourceConfig.perRequest, hf]⟩

lemma Sent.le (h : s.Sent z q n) : n ≤ z.perRequest := by
  rw [Sent] at h
  cases hf : z.fetch with
  | plain =>
    simp only [SourceConfig.perRequest, hf] at h ⊢
    obtain h | ⟨-, hn⟩ := h
    · cases h with
      | mul _ _ _ hn => omega
      | issue _ _ _ hle => exact hle
    · exact hn.le
  | pipelined =>
    simp only [SourceConfig.perRequest, hf] at h ⊢
    obtain ⟨-, hn⟩ | ⟨-, hn⟩ := h
    · exact hn.le
    · exact hn.le
  | block k a0 a1 b0 b1 =>
    simp only [SourceConfig.perRequest, hf] at h ⊢
    obtain h | ⟨-, hn⟩ := h
    · cases h with
      | mul _ _ _ hn => omega
      | adr0 _ _ _ hn => omega
      | issue _ _ _ hn hj =>
        rw [hn]
        split <;> omega
    · exact hn.le

/-- The command that a source holds out is the next word of its request. -/
lemma Sent.command (h : s.Sent z q n) (hreq : s.memReq z = true)
    (hrow : z.packed = true → q.row < 2 ^ 16) :
    n < z.perRequest ∧ s.memAdr z q.settings = q.read z n := by
  rw [Sent] at h
  rw [memReq] at hreq
  rw [SourceConfig.perRequest, memAdr]
  cases hf : z.fetch with
  | plain =>
    simp only [hf, Bool.and_eq_true, decide_eq_true_eq] at h hreq ⊢
    obtain h | ⟨hidle, -⟩ := h
    · have hread := h.address hreq.1 hrow
      rw [read_group (by simp [hf])]
      refine ⟨?_, hread⟩
      cases h with
      | mul _ hfsm => cases hreq.1.symm.trans hfsm
      | issue _ _ hissued hle =>
        have hne := hreq.2
        omega
    · cases hreq.1.symm.trans hidle
  | pipelined =>
    simp only [hf, decide_eq_true_eq] at h hreq ⊢
    obtain ⟨h, hn⟩ | ⟨hidle, -⟩ := h
    · have hread := h.address hreq hrow
      rw [read_group (by simp [hf])]
      exact ⟨hn, hread⟩
    · cases hreq.symm.trans hidle
  | block k a0 a1 b0 b1 =>
    simp only [hf, decide_eq_true_eq] at h hreq ⊢
    obtain h | ⟨hidle, -⟩ := h
    · cases h with
      | mul _ _ hfsm => cases hreq.symm.trans hfsm
      | adr0 _ _ hfsm => cases hreq.symm.trans hfsm
      | issue _ _ _ hn hj hadr =>
        refine ⟨?_, hadr⟩
        rw [hn]
        split <;> omega
    · cases hreq.symm.trans hidle

/-- A request that is taken has none of its words asked for. -/
lemma sent_accept (hidle : s.fsm = .idle) (hreq : i.req = true) (hset : i.toFetchSettings = q.settings)
    (hrow : i.row = q.row) (hcol : i.col = q.col) (hgroups : 0 < z.groups) (last : Bool) :
    (s.next z i last).Sent z q 0 := by
  rw [Sent, Issuer.next]
  cases hf : z.fetch with
  | plain =>
    simp only [Issuer.nextPlain, hidle, hreq, if_true]
    cases hg : z.grouped with
    | true => exact .inl (byGroup_accept hrow hcol)
    | false =>
      exact .inl (.issue ⟨hrow, hcol⟩ rfl rfl (Nat.zero_le _) (by rw [hg]; exact nofun))
  | pipelined =>
    simp only [Issuer.nextPipelined, hidle, hreq, if_true]
    exact .inl ⟨byGroup_accept hrow hcol, hgroups⟩
  | block k a0 a1 b0 b1 =>
    simp only [Issuer.nextBlock, hidle, hreq, if_true]
    exact .inl (byBlock_accept hset hrow hcol)

/-- A cycle of a request that is being served. -/
lemma Sent.next (h : s.Sent z q n) (hz : z.Built) (hset : i.toFetchSettings = q.settings)
    (hbusy : s.fsm ≠ .idle) (hack : i.memCmdAck = true → s.memReq z = true) {last : Bool}
    (hlast : z.fetch = .plain → last = true → n + i.memCmdAck.toNat = z.groups) :
    (s.next z i last).Sent z q (n + i.memCmdAck.toNat) := by
  rw [Sent] at h ⊢
  rw [Issuer.next]
  cases hf : z.fetch with
  | plain =>
    simp only [hf] at h ⊢
    obtain h | ⟨hidle, -⟩ := h
    · have hack' : i.memCmdAck = true → s.fsm = .issue ∧ s.issued ≠ z.groups := by
        intro hc
        have hreq := hack hc
        simpa only [memReq, hf, Bool.and_eq_true, decide_eq_true_eq] using hreq
      cases last with
      | false => exact .inl (h.nextPlain hset hack')
      | true =>
        have hn := hlast hf rfl
        refine .inr ⟨?_, hn⟩
        cases h with
        | mul _ hfsm _ hzero =>
          have hpos := hz.groups
          cases hc : i.memCmdAck with
          | false =>
            rw [hc, Bool.toNat_false] at hn
            omega
          | true => cases hfsm.symm.trans (hack' hc).1
        | issue _ hfsm => simp only [Issuer.nextPlain, hfsm, if_true]
    · exact absurd hidle hbusy
  | pipelined =>
    simp only [hf] at h ⊢
    obtain ⟨h, hn⟩ | ⟨hidle, -⟩ := h
    · refine h.nextPipelined hset hn ?_
      intro hc
      have hreq := hack hc
      simpa only [memReq, hf, decide_eq_true_eq] using hreq
    · exact absurd hidle hbusy
  | block k a0 a1 b0 b1 =>
    simp only [hf] at h ⊢
    obtain h | ⟨hidle, -⟩ := h
    · refine h.nextBlock (hz.plain (by rw [hf]; exact nofun)) hf (hz.block_pos hf) hset ?_
      intro hc
      have hreq := hack hc
      simpa only [memReq, hf, decide_eq_true_eq] using hreq
    · exact absurd hidle hbusy

/-- Nothing becomes of a source that is idle and not asked. -/
lemma next_idle (hidle : s.fsm = .idle) (hreq : i.req = false) (last : Bool) :
    (s.next z i last).fsm = .idle := by
  rw [Issuer.next]
  split
  · simp only [Issuer.nextPlain, hidle, hreq, Bool.false_eq_true, if_false]
  · simp only [Issuer.nextPipelined, hidle, hreq, Bool.false_eq_true, if_false]
  · simp only [Issuer.nextBlock, hidle, hreq, Bool.false_eq_true, if_false]
    exact hidle

end Requests

end Issuer

end Ledwall.Gateware
