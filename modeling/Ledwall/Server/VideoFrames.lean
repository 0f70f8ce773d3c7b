import Ledwall.Server.VideoPipe

/-! The images of a video: one call after another, process after process. -/

namespace Ledwall.Server.Video

/-- The waits of a call: those for the process that is open, and those for the one it opens. -/
structure Call where
  first : List Poll
  second : List Poll

/-- A decoder: how many processes it has opened so far, and the one that is open, if any. -/
structure Decoder (β : Type) where
  frameBytes : ℕ
  loop : Bool
  opened : ℕ
  proc : Option (Pipe β)
  last : List β
  ended : Bool

/-- An image that is handed out, and for a new one the process it is from. -/
structure Shown (β : Type) where
  image : List β
  fresh : Option ℕ

section Decoding

variable {β : Type} (outputs : ℕ → Output β)

/-- `_open`: the next process, and nothing pending. -/
def Decoder.openNext (d : Decoder β) : Decoder β :=
  { d with proc := some ⟨outputs d.opened, 0, []⟩, opened := d.opened + 1 }

/-- `close` -/
def Decoder.close (d : Decoder β) : Decoder β := { d with proc := none }

/-- `VideoDecoder(…)`, whose first image is blank. -/
def Decoder.create (frameBytes : ℕ) (loop : Bool) (blank : List β) : Decoder β :=
  Decoder.openNext outputs ⟨frameBytes, loop, 0, none, blank, false⟩

/-- `_read_frame` of the process that is open. -/
def Decoder.readFrame (d : Decoder β) (polls : List Poll) : Option (List β) × Decoder β :=
  match d.proc with
  | none => (some [], d)
  | some p => ((p.readFrame d.frameBytes polls).1, { d with proc := some (p.readFrame d.frameBytes polls).2 })

/-- The image before, again. -/
def Decoder.hold (d : Decoder β) : Shown β × Decoder β := (⟨d.last, none⟩, d)

def Decoder.finish (d : Decoder β) : Shown β × Decoder β := { d with ended := true }.hold

def Decoder.handOut (d : Decoder β) (buf : List β) : Shown β × Decoder β :=
  (⟨buf, some (d.opened - 1)⟩, { d with last := buf })

/-- `next_frame` -/
def Decoder.nextFrame (d : Decoder β) (call : Call) : Shown β × Decoder β :=
  if d.proc.isNone then d.finish
  else match d.readFrame call.first with
    | (none, d) => d.hold
    | (some buf, d) =>
      if buf.length < d.frameBytes then
        if d.loop then
          let (buf, d) := (d.openNext outputs).readFrame call.second
          let buf := buf.getD []
          if buf.length < d.frameBytes then d.finish else d.handOut buf
        else d.finish
      else d.handOut buf

/-- The images of a run of calls, and the decoder after it. -/
def Decoder.run (d : Decoder β) : List Call → List (Shown β) × Decoder β
  | [] => ([], d)
  | call :: calls =>
    let (shown, d) := d.nextFrame outputs call
    let (rest, d) := d.run calls
    (shown :: rest, d)

end Decoding

section Runs

variable {β : Type} {outputs : ℕ → Output β} {d : Decoder β} {c : ℕ → ℕ} {polls : List Poll}

/-- `c` frames of each process have been handed out: of the one that is open the pipe is at the next,
and of those to come it is none. Without `loop` there is only the first. -/
structure Decoder.Inv (outputs : ℕ → Output β) (c : ℕ → ℕ) (d : Decoder β) : Prop where
  pos : 0 < d.frameBytes
  opened : 0 < d.opened
  once : d.loop = false → d.opened = 1
  proc : ∃ p, d.proc = some p ∧ p.output = outputs (d.opened - 1) ∧
    p.Aligned d.frameBytes (c (d.opened - 1))
  later : ∀ q, d.opened ≤ q → c q = 0

lemma Decoder.Inv.withProc {p : Pipe β} (h : d.Inv outputs c) (ho : p.output = outputs (d.opened - 1))
    (ha : p.Aligned d.frameBytes (c (d.opened - 1))) :
    ({ d with proc := some p } : Decoder β).Inv outputs c :=
  ⟨h.pos, h.opened, h.once, ⟨p, rfl, ho, ha⟩, h.later⟩

lemma Decoder.Inv.counted {p : Pipe β} (h : d.Inv outputs c) (ho : p.output = outputs (d.opened - 1))
    (ha : p.Aligned d.frameBytes (c (d.opened - 1) + 1)) :
    ({ d with proc := some p } : Decoder β).Inv outputs
      (Function.update c (d.opened - 1) (c (d.opened - 1) + 1)) := by
  refine ⟨h.pos, h.opened, h.once, ⟨p, rfl, ho, ?_⟩, ?_⟩
  · simpa using ha
  · intro q hq
    have hopened := h.opened
    have hne : q ≠ d.opened - 1 := by
      simp only at hq
      omega
    rw [Function.update_of_ne hne]
    exact h.later q hq

lemma Decoder.Inv.openNext (h : d.Inv outputs c) (hl : d.loop = true) :
    (d.openNext outputs).Inv outputs c := by
  refine ⟨h.pos, Nat.succ_pos _, ?_, ⟨⟨outputs d.opened, 0, []⟩, rfl, rfl, ?_⟩, ?_⟩
  · intro hloop
    rw [show (d.openNext outputs).loop = d.loop from rfl, hl] at hloop
    cases hloop
  · have hzero : c ((d.openNext outputs).opened - 1) = 0 := h.later d.opened (le_refl _)
    rw [hzero]
    refine ⟨fun l _ => Nat.zero_le l, h.pos, .inl ⟨rfl, ?_⟩⟩
    simp
  · intro q hq
    exact h.later q (Nat.le_of_succ_le hq)

/-- What a call can come to: the image before, or the next frame of a process. -/
structure Decoder.Serves (outputs : ℕ → Output β) (c : ℕ → ℕ) (d : Decoder β)
    (r : Shown β × Decoder β) : Prop where
  frameBytes : r.2.frameBytes = d.frameBytes
  loop : r.2.loop = d.loop
  last : r.2.last = r.1.image
  image : (r.1.fresh = none ∧ r.1.image = d.last ∧ r.2.Inv outputs c) ∨
    ∃ q, r.1.fresh = some q ∧ r.1.image = (outputs q).frame d.frameBytes (c q) ∧
      r.2.Inv outputs (Function.update c q (c q + 1))

lemma Decoder.Inv.hold (h : d.Inv outputs c) : d.Serves outputs c d.hold :=
  ⟨rfl, rfl, rfl, .inl ⟨rfl, rfl, h⟩⟩

lemma Decoder.Inv.finish (h : d.Inv outputs c) : d.Serves outputs c d.finish :=
  ⟨rfl, rfl, rfl, .inl ⟨rfl, rfl, h.pos, h.opened, h.once, h.proc, h.later⟩⟩

/-- What a read of the decoder can bring. -/
inductive Decoder.Read (outputs : ℕ → Output β) (c : ℕ → ℕ) (d : Decoder β) (p : Pipe β)
    (polls : List Poll) : Option (List β) × Decoder β → Prop
  | frame (q : Pipe β) (h : p.Completes d.frameBytes polls)
      (hi : ({ d with proc := some q } : Decoder β).Inv outputs
        (Function.update c (d.opened - 1) (c (d.opened - 1) + 1))) :
    Read outputs c d p polls (some ((outputs (d.opened - 1)).frame d.frameBytes (c (d.opened - 1))),
      { d with proc := some q })
  | short (buf : List β) (q : Pipe β) (h : p.Ends d.frameBytes polls ∨
        ¬ p.Completes d.frameBytes polls ∧ ¬ p.Ends d.frameBytes polls ∧ Faulty polls)
      (hlen : buf.length < d.frameBytes)
      (hi : ({ d with proc := some q } : Decoder β).Inv outputs c) :
    Read outputs c d p polls (some buf, { d with proc := some q })
  | hold (n : ℕ) (h : p.TimesOut d.frameBytes polls)
      (hi : ({ d with proc := some (p.advance n) } : Decoder β).Inv outputs c) :
    Read outputs c d p polls (none, { d with proc := some (p.advance n) })

lemma Decoder.Inv.read {p : Pipe β} (h : d.Inv outputs c) (hp : d.proc = some p)
    (polls : List Poll) : d.Read outputs c p polls (d.readFrame polls) := by
  obtain ⟨p', hp', ho, ha⟩ := h.proc
  obtain rfl : p = p' := Option.some.inj (hp.symm.trans hp')
  have hread : d.readFrame polls =
      ((p.readFrame d.frameBytes polls).1, { d with proc := some (p.readFrame d.frameBytes polls).2 }) := by
    simp [Decoder.readFrame, hp]
  have hw := readFrame_spec polls ha.short
  rw [hread]
  generalize p.readFrame d.frameBytes polls = out at hw
  cases hw with
  | frame n hc hn hrest =>
    obtain ⟨hframe, halign⟩ := ha.frame h.pos hc hn hrest
    rw [hframe, ho]
    exact .frame _ hc (h.counted ho halign)
  | finish n he hn hrest =>
    exact .short _ _ (.inl he) (by simpa using hn) (h.withProc ho (ha.finish h.pos he hn hrest))
  | fault n hf hn hrest =>
    exact .short _ _ (.inr hf) h.pos (h.withProc ho (ha.advance hn hrest))
  | hold n ht hn hrest =>
    exact .hold n ht (h.withProc ho (ha.advance hn hrest))

section Calls

variable {e : Decoder β} {buf : List β} {call : Call} {p : Pipe β}

lemma nextFrame_hold (hp : d.proc = some p) (hr : d.readFrame call.first = (none, e)) :
    d.nextFrame outputs call = e.hold := by
  simp [Decoder.nextFrame, hp, hr]

lemma nextFrame_frame (hp : d.proc = some p) (hr : d.readFrame call.first = (some buf, e))
    (hlen : e.frameBytes ≤ buf.length) : d.nextFrame outputs call = e.handOut buf := by
  simp [Decoder.nextFrame, hp, hr, not_lt.mpr hlen]

lemma nextFrame_short (hp : d.proc = some p) (hr : d.readFrame call.first = (some buf, e))
    (hlen : buf.length < e.frameBytes) (hl : e.loop = false) :
    d.nextFrame outputs call = e.finish := by
  simp [Decoder.nextFrame, hp, hr, hlen, hl]

lemma nextFrame_loop (hp : d.proc = some p) (hr : d.readFrame call.first = (some buf, e))
    (hlen : buf.length < e.frameBytes) (hl : e.loop = true) :
    d.nextFrame outputs call =
      let r := (e.openNext outputs).readFrame call.second
      if (r.1.getD []).length < r.2.frameBytes then r.2.finish else r.2.handOut (r.1.getD []) := by
  simp [Decoder.nextFrame, hp, hr, hlen, hl]

end Calls

lemma Decoder.Serves.of_eq {e : Decoder β} {r : Shown β × Decoder β} (h : e.Serves outputs c r)
    (hf : e.frameBytes = d.frameBytes) (hl : e.loop = d.loop) (hlast : e.last = d.last) :
    d.Serves outputs c r :=
  ⟨h.frameBytes.trans hf, h.loop.trans hl, h.last, hf ▸ hlast ▸ h.image⟩

lemma Decoder.Inv.handOut {q : Pipe β} (h : ({ d with proc := some q } : Decoder β).Inv outputs
      (Function.update c (d.opened - 1) (c (d.opened - 1) + 1))) :
    d.Serves outputs c (({ d with proc := some q } : Decoder β).handOut
      ((outputs (d.opened - 1)).frame d.frameBytes (c (d.opened - 1)))) :=
  ⟨rfl, rfl, rfl, .inr ⟨d.opened - 1, rfl, rfl, h.pos, h.opened, h.once, h.proc, h.later⟩⟩

lemma second_serves {p : Pipe β} (h : d.Inv outputs c) (hp : d.proc = some p) (polls : List Poll) :
    d.Serves outputs c
      (let r := d.readFrame polls
       if (r.1.getD []).length < r.2.frameBytes then r.2.finish else r.2.handOut (r.1.getD [])) := by
  have hr := h.read hp polls
  generalize d.readFrame polls = out at hr
  cases hr with
  | frame q hc hi =>
    simp only [Option.getD_some, frame_length, lt_irrefl, if_false]
    exact hi.handOut
  | hold n ht hi =>
    simp only [Option.getD_none, List.length_nil, h.pos, if_true]
    exact hi.finish.of_eq rfl rfl rfl
  | short buf q hs hlen hi =>
    simp only [Option.getD_some, hlen, if_true]
    exact hi.finish.of_eq rfl rfl rfl

/-- A call hands out the next frame of a process or the image before. -/
theorem nextFrame_serves (h : d.Inv outputs c) (call : Call) :
    d.Serves outputs c (d.nextFrame outputs call) := by
  obtain ⟨p, hp, -, -⟩ := h.proc
  have hr := h.read hp call.first
  generalize hout : d.readFrame call.first = out at hr
  cases hr with
  | frame q hc hi =>
    rw [nextFrame_frame hp hout (frame_length _ _ _).ge]
    exact hi.handOut
  | hold n ht hi =>
    rw [nextFrame_hold hp hout]
    exact hi.hold.of_eq rfl rfl rfl
  | short buf q hs hlen hi =>
    cases hl : ({ d with proc := some q } : Decoder β).loop with
    | false =>
      rw [nextFrame_short hp hout hlen hl]
      exact hi.finish.of_eq rfl rfl rfl
    | true =>
      rw [nextFrame_loop hp hout hlen hl]
      have hopen := hi.openNext hl
      obtain ⟨p', hp', -, -⟩ := hopen.proc
      exact (second_serves hopen hp' call.second).of_eq rfl rfl rfl

/-- A call that times out holds the image before and drops nothing. -/
theorem nextFrame_timesOut {p : Pipe β} (h : d.Inv outputs c) (hp : d.proc = some p) {call : Call}
    (ht : p.TimesOut d.frameBytes call.first) :
    (d.nextFrame outputs call).1 = ⟨d.last, none⟩ ∧
      ∃ n, (d.nextFrame outputs call).2 = { d with proc := some (p.advance n) } := by
  have hr := h.read hp call.first
  generalize hout : d.readFrame call.first = out at hr
  cases hr with
  | frame q hc hi => exact absurd hc ht.1
  | hold n _ hi =>
    rw [nextFrame_hold hp hout]
    exact ⟨rfl, n, rfl⟩
  | short buf q hs hlen hi =>
    rcases hs with he | ⟨-, -, hf⟩
    · exact absurd he ht.2.1
    · exact absurd hf ht.2.2

/-- Without `loop` it is the end of the file, and nothing else but an error of the pipe, that ends a
video. -/
theorem nextFrame_ended {p : Pipe β} (h : d.Inv outputs c) (hp : d.proc = some p) {call : Call}
    (hl : d.loop = false) (hf : ¬ Faulty call.first) :
    (d.nextFrame outputs call).2.ended = true ↔
      d.ended = true ∨ p.Ends d.frameBytes call.first := by
  have hr := h.read hp call.first
  generalize hout : d.readFrame call.first = out at hr
  cases hr with
  | frame q hc hi =>
    rw [nextFrame_frame hp hout (frame_length _ _ _).ge]
    have hne : ¬ p.Ends d.frameBytes call.first := fun he => absurd hc.1 he.1.ne
    simp [Decoder.handOut, hne]
  | hold n ht hi =>
    rw [nextFrame_hold hp hout]
    simp [Decoder.hold, ht.2.1]
  | short buf q hs hlen hi =>
    rw [nextFrame_short hp hout hlen hl]
    rcases hs with he | ⟨-, -, hf'⟩
    · simp [Decoder.finish, Decoder.hold, he]
    · exact absurd hf' hf

end Runs

section Exactness

variable {β : Type} {outputs : ℕ → Output β} {d : Decoder β} {c : ℕ → ℕ} {calls : List Call}

/-- The new images of a process. -/
def news (q : ℕ) (shown : List (Shown β)) : List (List β) :=
  (shown.filter fun s => s.fresh = some q).map Shown.image

/-- An image that is not new is the one before it. -/
def Repeats : List β → List (Shown β) → Prop
  | _, [] => True
  | prev, s :: shown => (s.fresh = none → s.image = prev) ∧ Repeats s.image shown

/-- A call comes where the process that is open has fewer bytes left than a frame wants, and finds the
end of its file. -/
def EndsWithin (outputs : ℕ → Output β) (d : Decoder β) (calls : List Call) : Prop :=
  ∃ before call after, calls = before ++ call :: after ∧
    ∃ p, (d.run outputs before).2.proc = some p ∧ p.Ends d.frameBytes call.first

@[simp] lemma news_nil (q : ℕ) : news q ([] : List (Shown β)) = [] := rfl

lemma news_append (q : ℕ) (xs ys : List (Shown β)) : news q (xs ++ ys) = news q xs ++ news q ys := by
  simp [news]

lemma news_cons_of_none {s : Shown β} {shown : List (Shown β)} (q : ℕ) (h : s.fresh = none) :
    news q (s :: shown) = news q shown := by
  simp [news, h]

lemma news_cons_of_some {s : Shown β} {shown : List (Shown β)} {q : ℕ} (h : s.fresh = some q) :
    news q (s :: shown) = s.image :: news q shown := by
  simp [news, h]

lemma news_cons_of_ne {s : Shown β} {shown : List (Shown β)} {q r : ℕ} (h : s.fresh = some r)
    (hne : r ≠ q) : news q (s :: shown) = news q shown := by
  simp [news, h, hne]

lemma run_cons (call : Call) :
    d.run outputs (call :: calls) =
      ((d.nextFrame outputs call).1 :: ((d.nextFrame outputs call).2.run outputs calls).1,
        ((d.nextFrame outputs call).2.run outputs calls).2) := rfl

lemma run_append (xs ys : List Call) : ∀ d : Decoder β,
    d.run outputs (xs ++ ys) =
      ((d.run outputs xs).1 ++ ((d.run outputs xs).2.run outputs ys).1,
        ((d.run outputs xs).2.run outputs ys).2) := by
  induction xs with
  | nil =>
    intro d
    rfl
  | cons call xs ih =>
    intro d
    rw [List.cons_append, run_cons, ih, run_cons]
    rfl

/-- What a run of calls keeps: the frames it hands out are counted on, process by process. -/
structure Decoder.Ran (outputs : ℕ → Output β) (c : ℕ → ℕ) (d : Decoder β)
    (r : List (Shown β) × Decoder β) : Prop where
  frameBytes : r.2.frameBytes = d.frameBytes
  loop : r.2.loop = d.loop
  repeats : Repeats d.last r.1
  news : ∀ q, news q r.1 =
    (List.range' (c q) (news q r.1).length).map ((outputs q).frame d.frameBytes)
  inv : r.2.Inv outputs fun q => c q + (Video.news q r.1).length

theorem run_spec (calls : List Call) : ∀ {d : Decoder β} {c : ℕ → ℕ}, d.Inv outputs c →
    d.Ran outputs c (d.run outputs calls) := by
  induction calls with
  | nil =>
    intro d c h
    exact ⟨rfl, rfl, trivial, fun q => rfl, h⟩
  | cons call calls ih =>
    intro d c h
    have hs := nextFrame_serves h call
    rw [run_cons]
    generalize d.nextFrame outputs call = r at hs
    rcases hs.image with ⟨hfresh, himage, hinv⟩ | ⟨q, hfresh, himage, hinv⟩
    · have hr := ih hinv
      refine ⟨hr.frameBytes.trans hs.frameBytes, hr.loop.trans hs.loop, ⟨fun _ => himage, ?_⟩, ?_, ?_⟩
      · rw [← hs.last]
        exact hr.repeats
      · intro q
        simp only [news_cons_of_none q hfresh]
        rw [hr.news q, hs.frameBytes]
        simp
      · simp only [news_cons_of_none _ hfresh]
        exact hr.inv
    · have hr := ih hinv
      refine ⟨hr.frameBytes.trans hs.frameBytes, hr.loop.trans hs.loop, ⟨?_, ?_⟩, ?_, ?_⟩
      · intro hnone
        rw [hfresh] at hnone
        cases hnone
      · rw [← hs.last]
        exact hr.repeats
      · intro q'
        have hnews := hr.news q'
        rw [hs.frameBytes] at hnews
        by_cases hq : q' = q
        · subst hq
          simp only [news_cons_of_some hfresh, List.length_cons, List.range'_succ, List.map_cons]
          rw [himage]
          congr 1
          simpa using hnews
        · simp only [news_cons_of_ne hfresh (Ne.symm hq)]
          rwa [Function.update_of_ne hq] at hnews
      · have hcount : (fun q' => c q' + (Video.news q' (r.1 :: (r.2.run outputs calls).1)).length) =
            fun q' => Function.update c q (c q + 1) q' +
              (Video.news q' (r.2.run outputs calls).1).length := by
          funext q'
          by_cases hq : q' = q
          · subst hq
            simp only [news_cons_of_some hfresh, List.length_cons, Function.update_self]
            omega
          · simp only [news_cons_of_ne hfresh (Ne.symm hq), Function.update_of_ne hq]
        rw [hcount]
        exact hr.inv

lemma ends_cons_iff {call : Call} {p : Pipe β} (hp : d.proc = some p)
    (hf : (d.nextFrame outputs call).2.frameBytes = d.frameBytes) :
    EndsWithin outputs d (call :: calls) ↔ p.Ends d.frameBytes call.first ∨
      EndsWithin outputs (d.nextFrame outputs call).2 calls := by
  constructor
  · rintro ⟨before, call', after, hcalls, p', hp', he⟩
    cases before with
    | nil =>
      obtain ⟨rfl, rfl⟩ := List.cons.inj hcalls
      obtain rfl : p = p' := Option.some.inj (hp.symm.trans hp')
      exact .inl he
    | cons first before =>
      obtain ⟨rfl, rfl⟩ := List.cons.inj hcalls
      exact .inr ⟨before, call', after, rfl, p', hp', hf ▸ he⟩
  · rintro (he | ⟨before, call', after, rfl, p', hp', he⟩)
    · exact ⟨[], call, calls, rfl, p, hp, he⟩
    · exact ⟨call :: before, call', after, rfl, p', hp', hf ▸ he⟩

theorem run_ended (calls : List Call) : ∀ {d : Decoder β} {c : ℕ → ℕ}, d.Inv outputs c →
    d.loop = false → (∀ call ∈ calls, ¬ Faulty call.first) →
    ((d.run outputs calls).2.ended = true ↔ d.ended = true ∨ EndsWithin outputs d calls) := by
  induction calls with
  | nil =>
    intro d c _ _ _
    have hno : ¬ EndsWithin outputs d [] := by
      rintro ⟨before, call, after, h, -⟩
      simp at h
    simp [Decoder.run, hno]
  | cons call calls ih =>
    intro d c h hl hf
    obtain ⟨p, hp, -, -⟩ := h.proc
    have hs := nextFrame_serves h call
    have hended := nextFrame_ended h hp hl (hf call List.mem_cons_self)
    have hrest : ∀ call ∈ calls, ¬ Faulty call.first := fun x hx => hf x (List.mem_cons_of_mem _ hx)
    have hnext : ((d.nextFrame outputs call).2.run outputs calls).2.ended = true ↔
        (d.nextFrame outputs call).2.ended = true ∨
          EndsWithin outputs (d.nextFrame outputs call).2 calls := by
      rcases hs.image with ⟨-, -, hinv⟩ | ⟨q, -, -, hinv⟩
      · exact ih hinv (hs.loop.trans hl) hrest
      · exact ih hinv (hs.loop.trans hl) hrest
    rw [run_cons, hnext, hended, ends_cons_iff hp hs.frameBytes, or_assoc]

lemma create_inv (outputs : ℕ → Output β) {frameBytes : ℕ} (hpos : 0 < frameBytes) (loop : Bool) (blank : List β) :
    (Decoder.create outputs frameBytes loop blank).Inv outputs fun _ => 0 := by
  refine ⟨hpos, Nat.one_pos, fun _ => rfl, ⟨⟨outputs 0, 0, []⟩, rfl, rfl, ?_⟩, fun _ _ => rfl⟩
  exact ⟨fun l _ => Nat.zero_le l, hpos, .inl ⟨rfl, by simp⟩⟩

/-- The images of a run of calls, from a new decoder on. -/
structure FramesExact (outputs : ℕ → Output β) (d : Decoder β) (calls : List Call) : Prop where
  /-- The new images of a process are the first frames of its stream, each once and in order. -/
  slices : ∀ q, ∃ n, news q (d.run outputs calls).1 = (List.range n).map ((outputs q).frame d.frameBytes)
  once : d.loop = false → ∀ s ∈ (d.run outputs calls).1, ∀ q, s.fresh = some q → q = 0
  repeats : Repeats d.last (d.run outputs calls).1
  held : ∀ before call after, calls = before ++ call :: after →
    ∀ p, (d.run outputs before).2.proc = some p → p.TimesOut d.frameBytes call.first →
      ((d.run outputs before).2.nextFrame outputs call).1 = ⟨(d.run outputs before).2.last, none⟩ ∧
        ∃ n, ((d.run outputs before).2.nextFrame outputs call).2 =
          { (d.run outputs before).2 with proc := some (p.advance n) }
  ended : d.loop = false → (∀ call ∈ calls, ¬ Faulty call.first) →
    ((d.run outputs calls).2.ended = true ↔ EndsWithin outputs d calls)
  whole : d.loop = false → EndsWithin outputs d calls → ∃ l, (outputs 0).length = some l ∧
    news 0 (d.run outputs calls).1 = (List.range (l / d.frameBytes)).map ((outputs 0).frame d.frameBytes)

end Exactness

example : (((Decoder.create (fun _ => ⟨id, some 5⟩) 2 false [9, 9]).run (fun _ => ⟨id, some 5⟩)
      [⟨[.ready 1, .ready 4], []⟩, ⟨[.ready 1, .expired], []⟩, ⟨[.ready 3], []⟩,
        ⟨[.ready 8, .ready 8], []⟩]).1.map fun s => (s.image, s.fresh)) =
    [([0, 1], some 0), ([0, 1], none), ([2, 3], some 0), ([2, 3], none)] := by decide

end Ledwall.Server.Video
