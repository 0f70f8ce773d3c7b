import Ledwall.Gateware.PayloadTrace

/-! Payloads follow one another: what one leaves behind for the next. -/

namespace Ledwall.Gateware

open Ledwall.Library.Runs Ledwall.Wire

/-- The registers that outlive a payload, the counters aside. -/
structure Lasting where
  arrival : BitVec 512
  received : BitVec 16
  gap : BitVec 4
  status : FrameStatus
  done : DoneFrame
  fbBaseEff : BitVec 20
  deriving DecidableEq

namespace PixelPath

def lasting (p : PixelPath) : Lasting :=
  ⟨p.dma.arrival, p.dma.received, p.dma.gap, p.dma.status, p.dma.done, p.fbBaseEff⟩

def Step (p : PixelPath) (i : Inputs) (p' : PixelPath) : Prop := p' = p.next i

/-- What the DMA drives in a cycle, and the registers it leaves for the CPU and the next payload. -/
def observe (p : PixelPath) (i : Inputs) : Outputs × Lasting := (p.outputs i, (p.next i).lasting)

/-- Between payloads: in `IDLE`, and all that is to come depends on the lasting registers alone. -/
def Synchronised (p : PixelPath) : Prop :=
  p.dma.fsm = .idle ∧ ∀ p' : PixelPath, p'.dma.fsm = .idle → p'.lasting = p.lasting →
    ∀ is, trail next observe p' is = trail next observe p is

/-- The beat starts a header in `IDLE`. -/
def Starts (p : PixelPath) (i : Inputs) (b : Beat) : Prop :=
  p.dma.fsm = .idle ∧ i.enable = true ∧ b.data = 0x42

end PixelPath

section Next

variable {s : Hub75UdpDma} {d : BitVec 20} {i : Inputs} {b : Beat}

/-- Where the FSM goes. -/
def Hub75UdpDma.goes (s : Hub75UdpDma) (i : Inputs) : Fsm :=
  match s.taken i with
  | none => if s.fsm = .pix ∧ s.stall = STALL_LIMIT then .drop else s.fsm
  | some b =>
    match s.fsm with
    | .idle =>
      if i.enable then if b.data = 0x42 then .hdr else b.upTo .drop else .idle
    | .hdr =>
      if s.hdrIdx = 1 then b.upTo (if b.data ∈ Header.magics then .hdr else .drop)
      else b.upTo (if s.hdrIdx = s.header.hdrLast then .pix else .hdr)
    | .pix => b.upTo (if s.stall = STALL_LIMIT then .drop else .pix)
    | .drop => b.upTo .drop

lemma next_goes (s : Hub75UdpDma) (d : BitVec 20) (i : Inputs) : (s.next d i).fsm = s.goes i := by
  cases edge s d i with
  | quiet hs hk hf hp => simp only [Hub75UdpDma.goes, hk, hs, false_and, if_false, hf]
  | ignored b hs hk he hf hp =>
    simp only [Hub75UdpDma.goes, hk, hs, he, Bool.false_eq_true, if_false, hf]
  | start b hs hk he hb hf hp => simp only [Hub75UdpDma.goes, hk, hs, he, hb, if_true, hf]
  | refused b hs hk he hb hf => simp only [Hub75UdpDma.goes, hk, hs, he, hb, if_true, if_false, hf]
  | magic b hs hk hi hm hf hp => simp only [Hub75UdpDma.goes, hk, hs, hi, hm, if_true, hf]
  | rejected b hs hk hi hm hf => simp only [Hub75UdpDma.goes, hk, hs, hi, hm, if_true, if_false, hf]
  | field b hs hk hi hl hf hp => simp only [Hub75UdpDma.goes, hk, hs, hi, hl, if_false, hf]
  | commit b hs hk hl hf hp =>
    have hi : s.hdrIdx ≠ 1 := hl.trans_ne (hdrLast_ne_one _)
    simp only [Hub75UdpDma.goes, hk, hs, if_neg hi, if_pos hl, hf]
  | blocked hs hk hf hp => simp only [Hub75UdpDma.goes, hk, hs, true_and, hf]
  | colour b hs hk he hf hp => simp only [Hub75UdpDma.goes, hk, hs, hf]
  | pixel b hs hk he hf hp => simp only [Hub75UdpDma.goes, hk, hs, hf]
  | skipped b hs hk hf => simp only [Hub75UdpDma.goes, hk, hs, hf]

/-- After a payload's last byte the FSM is in `IDLE`, unless that byte starts a header. -/
lemma next_idle_iff (p : PixelPath) (hk : p.dma.taken i = some b) (hl : b.last = true) :
    (p.next i).dma.fsm = .idle ↔ ¬ p.Starts i b := by
  have hup (f : Fsm) : b.upTo f = .idle := if_pos hl
  rw [show (p.next i).dma.fsm = p.dma.goes i from next_goes _ _ _, PixelPath.Starts]
  simp only [Hub75UdpDma.goes, hk, hup]
  cases p.dma.fsm with
  | idle =>
    by_cases he : i.enable = true <;> by_cases hb : b.data = 0x42 <;>
      simp [he, hb]
  | hdr => simp
  | pix => simp
  | drop => simp

lemma actHdr_status (hi : i.sink = some b) (d : BitVec 20) :
    (s.actHdr d i).status = (s.hdrByte d i b.data).status ∧
      (s.actHdr d i).done = (s.hdrByte d i b.data).done := by
  rw [Hub75UdpDma.actHdr, hi]
  exact ⟨rfl, rfl⟩

lemma actPix_status (s : Hub75UdpDma) (d : BitVec 20) (i : Inputs) :
    (s.actPix d i).status = s.status ∧ (s.actPix d i).done = s.done := by
  rw [Hub75UdpDma.actPix]
  cases s.taken i with
  | none => exact ⟨rfl, rfl⟩
  | some b =>
    simp only [Hub75UdpDma.pixByte]
    split
    · exact ⟨rfl, rfl⟩
    · split <;> exact ⟨rfl, rfl⟩

lemma not_frameChange (hc : s.commits i = false) : s.frameChange i = false := by
  rw [Hub75UdpDma.frameChange, hc]
  rfl

lemma act_status (s : Hub75UdpDma) (d : BitVec 20) (i : Inputs) :
    (s.act d i).status = (if s.frameChange i then
      ⟨s.header.frameId, s.header.totalChunks, s.header.indexed⟩ else s.status) ∧
    (s.act d i).done = (if s.frameChange i then ⟨s.arrival, s.status, s.done.seq + 1⟩
      else s.done) := by
  cases hs : s.fsm with
  | idle =>
    have hc : s.commits i = false := by rw [Hub75UdpDma.commits, hs]; rfl
    rw [act_idle hs, not_frameChange hc, Hub75UdpDma.actIdle]
    split
    · exact ⟨rfl, rfl⟩
    · split
      · split <;> exact ⟨rfl, rfl⟩
      · exact ⟨rfl, rfl⟩
  | pix =>
    have hc : s.commits i = false := by rw [Hub75UdpDma.commits, hs]; rfl
    rw [act_pix hs, not_frameChange hc]
    exact actPix_status s d i
  | drop =>
    have hc : s.commits i = false := by rw [Hub75UdpDma.commits, hs]; rfl
    rw [act_drop hs, not_frameChange hc, Hub75UdpDma.actDrop]
    split <;> exact ⟨rfl, rfl⟩
  | hdr =>
    rw [act_hdr hs]
    cases hi : i.sink with
    | none =>
      have hc : s.commits i = false := by
        rw [Hub75UdpDma.commits, hi, Option.isSome_none, Bool.and_false, Bool.false_and]
      rw [not_frameChange hc, Hub75UdpDma.actHdr, hi]
      exact ⟨rfl, rfl⟩
    | some b =>
      obtain ⟨hst, hdn⟩ := actHdr_status (s := s) hi d
      rw [hst, hdn, Hub75UdpDma.hdrByte]
      have hc : s.commits i = (s.hdrIdx == s.header.hdrLast) := by
        rw [Hub75UdpDma.commits, hs, hi]
        rfl
      by_cases h₁ : s.hdrIdx = 1
      · have hn : s.commits i = false := by
          rw [hc, h₁]
          exact beq_eq_false_iff_ne.mpr (hdrLast_ne_one _).symm
        rw [if_pos h₁, not_frameChange hn, Hub75UdpDma.hdrReject]
        split
        · exact ⟨rfl, rfl⟩
        · split <;> exact ⟨rfl, rfl⟩
      · rw [if_neg h₁]
        by_cases hl : s.hdrIdx = s.header.hdrLast
        · rw [if_pos hl, Hub75UdpDma.hdrCommit]
          split <;> exact ⟨rfl, rfl⟩
        · have hn : s.commits i = false := by
            rw [hc]
            exact beq_eq_false_iff_ne.mpr hl
          rw [if_neg hl, not_frameChange hn]
          split <;> exact ⟨rfl, rfl⟩

end Next

/-- Two pixel paths that have taken the same bytes of the payload on the stream, and agree on what
came before it. -/
structure Alike (p p' : PixelPath) (t : Trace) : Prop where
  fsm : p'.dma.fsm = p.dma.fsm
  lasting : p'.lasting = p.lasting
  stall : p.dma.fsm = .pix → p'.dma.stall = p.dma.stall
  reads : Reads p.dma t
  reads' : Reads p'.dma t

section Lockstep

variable {p p' : PixelPath} {t : Trace} {i : Inputs}

lemma InHeader.wide {q : Parse} {head : List Byte} (h : InHeader q head) (hi : q.hdrIdx ≠ 1) :
    q.header.wide = (head.getD 1 0 == 0x57) := by
  obtain ⟨ds, rfl, ⟨h₀, hload⟩, hm⟩ := h.bytes
  cases ds with
  | nil => exact absurd (BitVec.eq_of_toNat_eq h.idx) hi
  | cons m ds =>
    rw [hload, Header.load, Header.load_wide _ le_rfl]
    rcases mem_magics_iff.mp (hm m rfl) with rfl | rfl | rfl <;> rfl

lemma InHeader.header {q : Parse} {head : List Byte} (h : InHeader q head)
    (hl : q.hdrIdx = q.header.hdrLast) : q.header = .ofBytes (head ++ [0]) :=
  (h.commit hl 0 sdramOffset (u := { head := head ++ [0] }) rfl rfl rfl).header

/-- What the two agree on in a cycle. -/
structure Agree (s s' : Hub75UdpDma) (i : Inputs) : Prop where
  ready : s'.sinkReady i = s.sinkReady i
  commits : s'.commits i = s.commits i
  goes : s'.goes i = s.goes i
  header : s.commits i = true ∨ s.fsm = .pix → s'.header = s.header
  pixels : s.fsm = .pix → s'.emits = s.emits ∧ s'.pixAdr = s.pixAdr ∧
    (s.emits = true → ∀ b, s'.word b = s.word b)

lemma not_commits_of_ne {s : Hub75UdpDma} (hs : s.fsm ≠ .hdr) (i : Inputs) :
    s.commits i = false := by
  rw [Hub75UdpDma.commits, beq_eq_false_iff_ne.mpr hs]
  rfl

lemma agree_elsewhere {s s' : Hub75UdpDma} (hf : s'.fsm = s.fsm) (hs : s.fsm = .idle ∨ s.fsm = .drop)
    (i : Inputs) : Agree s s' i := by
  have hpix : s.fsm ≠ .pix := by rcases hs with hs | hs <;> rw [hs] <;> decide
  have hhdr : s.fsm ≠ .hdr := by rcases hs with hs | hs <;> rw [hs] <;> decide
  have hpix' : s'.fsm ≠ .pix := hf.trans_ne hpix
  have hc := not_commits_of_ne hhdr i
  refine ⟨?_, ?_, ?_, ?_, fun h => absurd h hpix⟩
  · rw [sinkReady_of_ne hpix, sinkReady_of_ne hpix']
  · rw [hc, not_commits_of_ne (hf.trans_ne hhdr)]
  · rcases hs with hs | hs <;>
      simp only [Hub75UdpDma.goes, taken_of_ne hpix, taken_of_ne hpix', hf, hs, reduceCtorEq,
        false_and, if_false]
  · rintro (h | h)
    · rw [hc] at h
      cases h
    · exact absurd h hpix

lemma agree_hdr {s s' : Hub75UdpDma} {head : List Byte} (hf : s'.fsm = s.fsm) (hs : s.fsm = .hdr)
    (h : InHeader s.parse head) (h' : InHeader s'.parse head) (i : Inputs) : Agree s s' i := by
  have hpix : s.fsm ≠ .pix := hs.trans_ne (by decide)
  have hpix' : s'.fsm ≠ .pix := hf.trans_ne hpix
  have hidx : s'.hdrIdx = s.hdrIdx := BitVec.eq_of_toNat_eq (h'.idx.trans h.idx.symm)
  have hlast : s.hdrIdx ≠ 1 → s'.header.hdrLast = s.header.hdrLast := by
    intro hi
    have hw : s.header.wide = _ := h.wide hi
    have hw' : s'.header.wide = _ := h'.wide (hidx.trans_ne hi)
    rw [Header.hdrLast, Header.hdrLast, hw, hw']
  have hends : s'.hdrIdx = s'.header.hdrLast ↔ s.hdrIdx = s.header.hdrLast := by
    by_cases hi : s.hdrIdx = 1
    · rw [hidx, hi]
      constructor
      · intro he
        exact absurd he.symm (hdrLast_ne_one _)
      · intro he
        exact absurd he.symm (hdrLast_ne_one _)
    · rw [hidx, hlast hi]
  have hc : s'.commits i = s.commits i := by
    rw [Hub75UdpDma.commits, Hub75UdpDma.commits, hf]
    congr 1
    rw [Bool.eq_iff_iff, beq_iff_eq, beq_iff_eq]
    exact hends
  refine ⟨?_, hc, ?_, ?_, fun h => absurd h hpix⟩
  · rw [sinkReady_of_ne hpix, sinkReady_of_ne hpix']
  · simp only [Hub75UdpDma.goes, taken_of_ne hpix, taken_of_ne hpix', hf, hs, reduceCtorEq,
      false_and, if_false, hends]
    rw [hidx]
  · rintro (hc | hs')
    · simp only [Hub75UdpDma.commits, Bool.and_eq_true, beq_iff_eq] at hc
      have hl : s.parse.header = _ := h.header hc.2
      have hl' : s'.parse.header = _ := h'.header (hends.mpr hc.2)
      exact hl'.trans hl.symm
    · exact absurd hs' hpix

lemma agree_pix {s s' : Hub75UdpDma} {t : Trace} (hf : s'.fsm = s.fsm) (hs : s.fsm = .pix)
    (hgap : s'.gap = s.gap) (hstall : s'.stall = s.stall) (h : InPixels s.parse t)
    (h' : InPixels s'.parse t) (i : Inputs) : Agree s s' i := by
  have hhdr : s.fsm ≠ .hdr := hs.trans_ne (by decide)
  have hheader : s'.header = s.header := h'.header.trans h.header.symm
  have hsub : s'.sub = s.sub := BitVec.eq_of_toNat_eq (h'.sub.trans h.sub.symm)
  have hadr : s'.pixAdr = s.pixAdr := h'.pixAdr.trans h.pixAdr.symm
  have hemits : s'.emits = s.emits := by
    rw [Hub75UdpDma.emits, Hub75UdpDma.emits, hheader, hsub]
  have hready : s'.sinkReady i = s.sinkReady i := by
    simp only [Hub75UdpDma.sinkReady, hf, hs, hemits, Hub75UdpDma.gapOk, hgap]
  refine ⟨hready, ?_, ?_, fun _ => hheader, fun _ => ⟨hemits, hadr, fun he b => ?_⟩⟩
  · rw [not_commits_of_ne hhdr, not_commits_of_ne (hf.trans_ne hhdr)]
  · simp only [Hub75UdpDma.goes, Hub75UdpDma.taken, hready, hf, hs, hstall]
  · rw [Hub75UdpDma.word, Hub75UdpDma.word, hheader]
    by_cases hi : s.header.indexed = true
    · rw [if_pos hi, if_pos hi]
    · -- the third byte of a triple: both have its first two
      have htwo : s.sub = 2 := ((emits_iff s).mp he).resolve_left hi
      have hr : s'.r = s.r := by
        have hne : s.sub ≠ 0 := htwo.trans_ne (by decide)
        exact (h'.red (hsub.trans_ne hne)).trans (h.red hne).symm
      have hg : s'.g = s.g := (h'.green (hsub.trans htwo)).trans (h.green htwo).symm
      rw [if_neg hi, if_neg hi, hr, hg]

lemma Alike.agree (h : Alike p p' t) (i : Inputs) : Agree p.dma p'.dma i := by
  cases hs : p.dma.fsm with
  | idle => exact agree_elsewhere h.fsm (.inl hs) i
  | drop => exact agree_elsewhere h.fsm (.inr hs) i
  | hdr => exact agree_hdr h.fsm hs (h.reads.inHeader hs) (h.reads'.inHeader (h.fsm.trans hs)) i
  | pix =>
    exact agree_pix h.fsm hs (congrArg Lasting.gap h.lasting) (h.stall hs) (h.reads.inPixels hs)
      (h.reads'.inPixels (h.fsm.trans hs)) i

lemma Alike.next (h : Alike p p' t) (i : Inputs) :
    p'.observe i = p.observe i ∧ Alike (p.next i) (p'.next i) (t.next p i) := by
  have ha := h.agree i
  have hl := h.lasting
  have harrival : p'.dma.arrival = p.dma.arrival := congrArg Lasting.arrival hl
  have hreceived : p'.dma.received = p.dma.received := congrArg Lasting.received hl
  have hgap : p'.dma.gap = p.dma.gap := congrArg Lasting.gap hl
  have hstatus : p'.dma.status = p.dma.status := congrArg Lasting.status hl
  have hdone : p'.dma.done = p.dma.done := congrArg Lasting.done hl
  have hbase : p'.fbBaseEff = p.fbBaseEff := congrArg Lasting.fbBaseEff hl
  have htaken : p'.dma.taken i = p.dma.taken i := by
    rw [Hub75UdpDma.taken, Hub75UdpDma.taken, ha.ready]
  have hchange : p'.dma.frameChange i = p.dma.frameChange i := by
    rw [Hub75UdpDma.frameChange, Hub75UdpDma.frameChange, ha.commits, hstatus]
    cases hc : p.dma.commits i with
    | false => rfl
    | true => rw [ha.header (.inl hc)]
  have hswap : p'.dma.swapReq i = p.dma.swapReq i := by
    simp only [Hub75UdpDma.swapReq, Hub75UdpDma.outgoingWhole, hchange, hreceived, hstatus]
  have hset : p'.dma.setArrival i = p.dma.setArrival i := by
    simp only [Hub75UdpDma.setArrival, htaken, h.fsm]
  have hprogress : p'.dma.progress i = p.dma.progress i := by
    simp only [Hub75UdpDma.progress, htaken, h.fsm]
  have hnext : p'.dma.writeBaseNext p'.fbBaseEff i = p.dma.writeBaseNext p.fbBaseEff i := by
    simp only [Hub75UdpDma.writeBaseNext, hswap, hbase]
  have hindex : p.dma.setArrival i = true → p'.dma.header = p.dma.header := by
    intro hs
    simp only [Hub75UdpDma.setArrival, Bool.and_eq_true, beq_iff_eq] at hs
    exact ha.header (.inr hs.1)
  have hidentity : p.dma.frameChange i = true → p'.dma.header = p.dma.header := by
    intro hc
    simp only [Hub75UdpDma.frameChange, Bool.and_eq_true] at hc
    exact ha.header (.inl hc.1)
  have hpixel : p.dma.progress i = true →
      p'.dma.emits = p.dma.emits ∧ p'.dma.inRange p'.fbBaseEff i = p.dma.inRange p.fbBaseEff i := by
    intro hp
    simp only [Hub75UdpDma.progress, Bool.and_eq_true, beq_iff_eq] at hp
    obtain ⟨he, hadr, -⟩ := ha.pixels hp.1
    simp only [Hub75UdpDma.inRange, hadr, hbase, he, and_self]
  have hlasting : (p'.next i).lasting = (p.next i).lasting := by
    simp only [PixelPath.lasting, Lasting.mk.injEq]
    refine ⟨?_, ?_, ?_, ?_, ?_, ?_⟩
    · change p'.dma.nextArrival i = p.dma.nextArrival i
      rw [Hub75UdpDma.nextArrival, Hub75UdpDma.nextArrival, hchange, hset, harrival]
      cases hs : p.dma.setArrival i with
      | false => simp only [Bool.false_eq_true, if_false]
      | true => rw [hindex hs]
    · change p'.dma.nextReceived i = p.dma.nextReceived i
      rw [Hub75UdpDma.nextReceived, Hub75UdpDma.nextReceived, hchange, hset, hreceived]
      cases hs : p.dma.setArrival i with
      | false => rfl
      | true => rw [Hub75UdpDma.alreadySeen, Hub75UdpDma.alreadySeen, harrival, hindex hs]
    · change p'.dma.nextGap i = p.dma.nextGap i
      rw [Hub75UdpDma.nextGap, Hub75UdpDma.nextGap, hprogress, Hub75UdpDma.gapOk,
        Hub75UdpDma.gapOk, hgap]
      cases hp : p.dma.progress i with
      | false => rfl
      | true => rw [(hpixel hp).1]
    · change (p'.dma.act _ i).status = (p.dma.act _ i).status
      rw [(act_status _ _ _).1, (act_status _ _ _).1, hchange, hstatus]
      cases hc : p.dma.frameChange i with
      | false => rfl
      | true => rw [hidentity hc]
    · change (p'.dma.act _ i).done = (p.dma.act _ i).done
      rw [(act_status _ _ _).2, (act_status _ _ _).2, hchange, harrival, hstatus, hdone]
    · change p'.nextBase i = p.nextBase i
      simp only [PixelPath.nextBase, hswap, hbase]
  have htrace : t.next p' i = t.next p i := by
    simp only [Trace.next, Trace.take, htaken, h.fsm, ha.commits, hnext, hchange]
  have hwrite : p'.write i = p.write i := by
    rw [PixelPath.write, PixelPath.write, Hub75UdpDma.writes, Hub75UdpDma.writes, hprogress, htaken]
    cases hp : p.dma.progress i with
    | false => rfl
    | true =>
      obtain ⟨he, hr⟩ := hpixel hp
      simp only [Hub75UdpDma.progress, Bool.and_eq_true, beq_iff_eq] at hp
      obtain ⟨-, hadr, hword⟩ := ha.pixels hp.1
      rw [he, hr, hadr]
      cases hemits : p.dma.emits with
      | false => rfl
      | true => simp only [hword hemits]
  refine ⟨?_, ?_, hlasting, ?_, h.reads.next i, htrace ▸ h.reads'.next i⟩
  · rw [PixelPath.observe, PixelPath.observe, hlasting, PixelPath.outputs, PixelPath.outputs,
      ha.ready, hwrite, hswap, hset, hchange]
  · rw [PixelPath.next, PixelPath.next, next_goes, next_goes]
    exact ha.goes
  · intro _
    change p'.dma.nextStall i = p.dma.nextStall i
    rw [Hub75UdpDma.nextStall, Hub75UdpDma.nextStall, h.fsm, hprogress]
    by_cases hs : p.dma.fsm = .pix
    · rw [h.stall hs]
    · rw [if_pos (.inl hs), if_pos (.inl hs)]

end Lockstep

namespace PixelPath

lemma synchronised_of_idle {p : PixelPath} (hp : p.dma.fsm = .idle) : p.Synchronised := by
  refine ⟨hp, fun p' hp' hl is => ?_⟩
  apply trail_eq_of_lockstep (R := fun q' q => ∃ t, Alike q q' t)
  · rintro q' q i ⟨t, h⟩
    obtain ⟨hout, hnext⟩ := h.next i
    exact ⟨hout, _, hnext⟩
  · refine ⟨{}, hp'.trans hp.symm, hl, ?_, .of_idle (.inl hp) _, .of_idle (.inl hp') _⟩
    intro hs
    rw [hp] at hs
    cases hs

/-- In every run, a payload's last byte leaves the DMA synchronised exactly when it does not start a
header. -/
theorem synchronised_iff (p : PixelPath) (is : List Inputs) :
    Always Step (fun p i => ∀ b, p.dma.taken i = some b → b.last = true →
      ((p.next i).Synchronised ↔ ¬ p.Starts i b)) p is := by
  apply Always.of_forall
  intro p i b hk hl
  rw [← next_idle_iff p hk hl]
  exact ⟨fun h => h.1, synchronised_of_idle⟩

theorem lone_byte_unsynchronised :
    ¬ Always Step (fun p i => ∀ b, p.dma.taken i = some b → b.last = true →
      (p.next i).Synchronised) {} (feed 1 [0x42]) := by
  intro h
  have hidle := (h.1 ⟨0x42, true⟩ (by decide) rfl).1
  exact absurd hidle (by decide)

end PixelPath

end Ledwall.Gateware
