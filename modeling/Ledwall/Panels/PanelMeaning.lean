import Ledwall.Panels.PanelCompiler

/-! The panel compiler's code draws what the document means, and where it does not. -/

namespace Ledwall.Panels

open Ledwall.Values

section Slices

variable (escape : Str → Str) (code : ProgramCode) (ctx : Ctx)

/-- A row cut into slices is the row. -/
theorem ProgramCode.render_append (y x0 m n : ℕ) : code.render escape ctx y x0 (m + n) =
    code.render escape ctx y x0 m ++ code.render escape ctx y (x0 + m) n := by
  rw [render, render, render]
  split
  · exact (List.replicate_append_replicate).symm
  · rw [List.range_add, List.map_append, List.map_map]
    congr 2
    funext i
    rw [Function.comp_apply, Nat.add_assoc]

end Slices

section Positions

variable {ctx : Ctx} {position : Position} {e : UExpr}

theorem anchor_x (h : anchor .x true position = some e) (size : ℕ) :
    e.eval ctx size = position.place ctx.w (some size) := by
  cases position with
  | absolute n =>
    cases h
    rfl
  | anchored side minus n =>
    cases side <;> simp only [anchor] at h <;>
      grind [UExpr.eval, Position.place, Ctx.dim]

theorem anchor_y (h : anchor .y false position = some e) (size : ℕ) :
    e.eval ctx size = position.place ctx.h none := by
  cases position with
  | absolute n =>
    cases h
    rfl
  | anchored side minus n =>
    cases side <;> simp only [anchor] at h <;>
      grind [UExpr.eval, Position.place, Ctx.dim]

end Positions

/-- The guard that a widget's code reads. -/
def Widget.guard : Widget → Option Guard
  | .border _ _ => none
  | .text _ label | .value _ label =>
    if label.cond.getD [] = [] then none else condExpr (label.cond.getD [])
  | .icon _ _ _ _ cond => if cond.getD [] = [] then none else condExpr (cond.getD [])

/-- The texts of a widget that its code holds as literals. -/
def Widget.literals (w : Widget) : List Str :=
  (match w with
    | .border _ _ | .icon _ _ _ _ _ => []
    | .text own label | .value own label => [own, label.pre, label.suf]) ++
    w.guard.elim [] fun g => [g.key, g.literal]

/-- The run of a label, in its face. -/
def Widget.drawn (assets : Assets) (ctx : Ctx) : Widget → Option (Font × Str)
  | .border _ _ | .icon _ _ _ _ _ => none
  | .text own label => (assets.fonts label.font).map fun font => (font, label.shows own)
  | .value key label => (assets.fonts label.font).map fun font => (font, label.shows (ctx.val key))

/-- The operator that a condition's code compares with is the one that comes first. -/
def Straight (cond : Str) : Prop := ∀ p q, cutAt ('=', '=') cond = some p →
  cutAt ('!', '=') cond = some q → p.1.length < q.1.length

/-- What lets a widget's code draw the widget. -/
structure Widget.Clear (assets : Assets) (ctx : Ctx) (w : Widget) : Prop where
  border : ∀ color cond, w = .border color cond → cond.getD [] = []
  straight : Straight (w.cond.getD [])
  literals : ∀ s ∈ w.literals, plain s = true
  fits : condHolds ctx w.cond = true → ∀ fs ∈ w.drawn assets ctx, fs.1.Fits fs.2

section Guards

variable {escape : Str → Str} {ctx : Ctx} {keys : List Str} {cond : Option Str} {g : Guard}

theorem readGuard_eq (hs : Straight (cond.getD [])) (h : condExpr (cond.getD []) = some g) :
    readGuard (cond.getD []) = some g := by
  rw [condExpr] at h
  rw [readGuard]
  cases hp : cutAt ('=', '=') (cond.getD []) with
  | none =>
    simp only [hp] at h ⊢
    obtain ⟨q, hq, rfl⟩ := Option.map_eq_some_iff.mp h
    rw [hq]
  | some p =>
    simp only [hp] at h ⊢
    cases hq : cutAt ('!', '=') (cond.getD []) with
    | none => exact h
    | some q =>
      simp only [if_pos (hs p q hp hq)]
      exact h

lemma lexed_plain {s : Str} (h : plain s = true) : lexed escape s = s := by
  rw [lexed, if_pos h]

/-- The local of a key whose name no other key has holds the key's value. -/
theorem hoisted_eq {key : Str} (hmem : key ∈ keys) (hown : ∀ k ∈ keys, ident k = ident key → k = key)
    (hplain : plain key = true) : hoisted escape ctx keys (ident key) = ctx.val key := by
  rw [hoisted]
  cases hfind : keys.reverse.find? fun k => ident k = ident key with
  | none =>
    have hno := List.find?_eq_none.mp hfind key (List.mem_reverse.mpr hmem)
    simp at hno
  | some k =>
    have hident : ident k = ident key := by simpa using List.find?_some hfind
    have hk := hown k (List.mem_reverse.mp (List.mem_of_find?_eq_some hfind)) hident
    rw [hk, Option.map_some, lexed_plain hplain, Option.getD_some]

theorem guard_eval (hmem : g.key ∈ keys)
    (hown : ∀ k ∈ keys, ident k = ident g.key → k = g.key) (hkey : plain g.key = true)
    (hliteral : plain g.literal = true) : g.code.eval escape ctx keys = g.holds ctx := by
  rw [GuardCode.eval, Guard.code, hoisted_eq hmem hown hkey, lexed_plain hliteral, Guard.holds]

/-- A widget's guard in the code is its condition. -/
theorem cond_eval {guard : Option Guard} (h : emitCond cond = some guard)
    (hs : Straight (cond.getD [])) (hmem : ∀ g ∈ guard, g.key ∈ keys)
    (hown : ∀ g ∈ guard, ∀ k ∈ keys, ident k = ident g.key → k = g.key)
    (hplain : ∀ g ∈ guard, plain g.key = true ∧ plain g.literal = true) :
    (guard.map Guard.code).all (fun g => g.eval escape ctx keys) = condHolds ctx cond := by
  rw [emitCond] at h
  rw [condHolds]
  split at h
  · next hnil =>
    cases h
    simp [hnil]
  · next hne =>
    obtain ⟨g, hg, rfl⟩ := Option.map_eq_some_iff.mp h
    rw [readGuard_eq hs hg, Option.map_some, Option.all_some, Option.any_some,
      guard_eval (hmem g rfl) (hown g rfl) (hplain g rfl).1 (hplain g rfl).2]
    simp [hne]

theorem source_eval {label : Label} {own : Source} (hpre : plain label.pre = true)
    (hsuf : plain label.suf = true) :
    (label.source own).eval escape ctx = label.shows (own.eval escape ctx) := by
  rw [Label.source, Label.shows]
  split
  · rw [Source.eval, lexed_plain hpre, lexed_plain hsuf]
  · rfl

end Guards

section Widgets

variable {escape : Str → Str} {assets : Assets} {ctx : Ctx} {keys : List Str}

/-- A run's code draws the run where its condition holds, and its gate is open where it inks. -/
theorem run_pixel {font : Font} {label : Label} {oy ox : UExpr} {guard : Option GuardCode}
    {src : Source} {ramp : ℕ} {s : Str} (hoy : anchor .y false label.y = some oy)
    (hox : anchor .x true label.x = some ox) (hsrc : src.eval escape ctx = s)
    {holds : Bool} (hguard : guard.all (fun g => g.eval escape ctx keys) = holds)
    (hfits : holds = true → font.Fits s) (x y : ℕ) :
    ((WidgetCode.run font oy ox guard src ramp).bind escape ctx keys y).pixel ctx x y =
      if holds then (label.ink font ctx s x y).map (ramp + ·) else none := by
  cases holds with
  | false =>
    rw [WidgetCode.bind]
    simp [hguard, Binding.pixel]
  | true =>
    have hink := Font.coverAt_eq_ink (hfits rfl) x y (label.x.place ctx.w (some (font.width s)))
      (label.y.place ctx.h none)
    rw [if_pos rfl, Label.ink, ← hink, WidgetCode.bind]
    simp only [hguard, Bool.and_true, Bool.and_eq_true, decide_eq_true_eq, hsrc, anchor_x hox,
      anchor_y hoy]
    by_cases hband : label.y.place ctx.h none ≤ y ∧ y < label.y.place ctx.h none + font.lineHeight
    · rw [if_pos hband]
      simp only [Binding.pixel, true_and, hband.1, hband.2]
      split <;> rfl
    · rw [if_neg hband, Binding.pixel, if_neg (by simp), if_neg fun h => hband ⟨h.1, h.2.1⟩]
      rfl

theorem icon_pixel {sprite : Sprite} {px py : Position} {iy ix : UExpr} {guard : Option GuardCode}
    {ramp : ℕ} (hiy : anchor .y false py = some iy) (hix : anchor .x true px = some ix)
    {holds : Bool} (hguard : guard.all (fun g => g.eval escape ctx keys) = holds) (x y : ℕ) :
    ((WidgetCode.icon sprite iy ix guard ramp).bind escape ctx keys y).pixel ctx x y =
      if holds then (sprite.ink ((x : ℤ) - px.place ctx.w (some sprite.w))
        ((y : ℤ) - py.place ctx.h none)).map (ramp + ·) else none := by
  cases holds with
  | false =>
    rw [WidgetCode.bind]
    simp [hguard, Binding.pixel]
  | true =>
    rw [if_pos rfl, WidgetCode.bind]
    simp only [hguard, Bool.and_true, Binding.pixel, Bool.and_eq_true, decide_eq_true_eq,
      anchor_x hix, anchor_y hiy]
    split
    · rw [Sprite.coverAt_eq_ink]
    · next hout =>
      cases hink : sprite.ink ((x : ℤ) - px.place ctx.w (some sprite.w))
          ((y : ℤ) - py.place ctx.h none) with
      | none => rfl
      | some c =>
        obtain ⟨i, hi, j, hj, hdx, hdy, -⟩ := Sprite.ink_bounds hink
        exact absurd ⟨⟨by omega, by omega⟩, by omega, by omega⟩ hout

theorem emit_guard {w : Widget} {code : WidgetCode} {guard : Option Guard}
    (h : w.emit assets = some (code, guard)) : guard = w.guard := by
  have hcond : ∀ {cond : Option Str} {guard : Option Guard}, emitCond cond = some guard →
      guard = if cond.getD [] = [] then none else condExpr (cond.getD []) := by
    intro cond guard hemit
    rw [emitCond] at hemit
    split at hemit
    · next hnil =>
      cases hemit
      rw [if_pos hnil]
    · next hne =>
      obtain ⟨g, hg, rfl⟩ := Option.map_eq_some_iff.mp hemit
      rw [if_neg hne, hg]
  have hlabel : ∀ {label : Label} {own : Source}, label.emit assets own = some (code, guard) →
      emitCond label.cond = some guard := by
    intro label own hemit
    simp only [Label.emit, Option.bind_eq_bind, Option.bind_eq_some_iff, Option.pure_def,
      Option.some.injEq, Prod.mk.injEq] at hemit
    obtain ⟨_, _, _, _, g, hg, _, _, _, _, _, rfl⟩ := hemit
    exact hg
  cases w with
  | border color cond =>
    obtain ⟨c, -, hc⟩ := Option.map_eq_some_iff.mp h
    cases hc
    rfl
  | text own label => exact hcond (hlabel h)
  | value key label => exact hcond (hlabel h)
  | icon name x y color cond =>
    simp only [Widget.emit, Option.bind_eq_bind, Option.bind_eq_some_iff, Option.pure_def,
      Option.some.injEq, Prod.mk.injEq] at h
    obtain ⟨_, _, g, hg, _, _, _, _, _, _, _, rfl⟩ := h
    exact hcond hg

/-- A widget's code draws the widget. -/
theorem widget_pixel {w : Widget} {code : WidgetCode} {guard : Option Guard}
    (h : w.emit assets = some (code, guard)) (hclear : w.Clear assets ctx)
    (hmem : ∀ g ∈ w.guard, g.key ∈ keys)
    (hown : ∀ g ∈ w.guard, ∀ k ∈ keys, ident k = ident g.key → k = g.key) (x y : ℕ) :
    (code.bind escape ctx keys y).pixel ctx x y = w.shown assets ctx x y := by
  have hguard := emit_guard h
  have hplain : ∀ g ∈ w.guard, plain g.key = true ∧ plain g.literal = true := by
    intro g hg
    have hg : w.guard = some g := hg
    constructor <;> exact hclear.literals _ (by simp [Widget.literals, hg])
  have hcond := fun hemit => @cond_eval escape ctx keys w.cond guard hemit hclear.straight
    (hguard ▸ hmem) (hguard ▸ hown) (hguard ▸ hplain)
  have hlabel : ∀ (label : Label) (own : Source), label.emit assets own = some (code, guard) →
      w.cond = label.cond → ∀ s, own.eval escape ctx = s → plain label.pre = true →
      plain label.suf = true → (∀ fs ∈ (assets.fonts label.font).map fun font =>
        (font, label.shows s), condHolds ctx w.cond = true → fs.1.Fits fs.2) →
      (code.bind escape ctx keys y).pixel ctx x y = if condHolds ctx w.cond then (do
        let font ← assets.fonts label.font
        let ramp ← colorOf COLORS label.color "white"
        (label.ink font ctx (label.shows s) x y).map (ramp + ·)) else none := by
    intro label own hemit hsame s heval hpre hsuf hfits
    simp only [Label.emit, Option.bind_eq_bind, Option.bind_eq_some_iff, Option.pure_def,
      Option.some.injEq, Prod.mk.injEq] at hemit
    obtain ⟨font, hfont, ramp, hramp, g, hg, oy, hoy, ox, hox, rfl, rfl⟩ := hemit
    have hsrc : (label.source own).eval escape ctx = label.shows s := by
      rw [source_eval hpre hsuf, heval]
    have hholds := hcond (by rw [hsame]; exact hg)
    have hfit : condHolds ctx w.cond = true → font.Fits (label.shows s) :=
      hfits (font, label.shows s) (by rw [hfont]; rfl)
    simp only [hfont, hramp, Option.bind_eq_bind, Option.bind_some]
    exact run_pixel hoy hox hsrc hholds hfit x y
  cases w with
  | border color cond =>
    obtain ⟨c, hc, hcode⟩ := Option.map_eq_some_iff.mp h
    cases hcode
    have hnil := hclear.border color cond rfl
    have hholds : condHolds ctx cond = true := by simp [condHolds, hnil]
    rw [Widget.shown, Widget.cond, hholds, if_pos rfl, Widget.covers, hc]
    rfl
  | text own label =>
    have hlits := hclear.literals
    simp only [Widget.literals, List.mem_append, List.mem_cons] at hlits
    exact hlabel label _ h rfl own (lexed_plain (hlits own (by simp)))
      (hlits _ (by simp)) (hlits _ (by simp)) fun fs hfs hholds => hclear.fits hholds fs hfs
  | value key label =>
    have hlits := hclear.literals
    simp only [Widget.literals, List.mem_append, List.mem_cons] at hlits
    have hval : (Source.val key).eval escape ctx = ctx.val key := by
      rw [Source.eval, lexed_plain (hlits key (by simp))]
    exact hlabel label _ h rfl _ hval (hlits _ (by simp)) (hlits _ (by simp))
      fun fs hfs hholds => hclear.fits hholds fs hfs
  | icon name px py color cond =>
    simp only [Widget.emit, Option.bind_eq_bind, Option.bind_eq_some_iff, Option.pure_def,
      Option.some.injEq, Prod.mk.injEq] at h
    obtain ⟨ramp, hramp, g, hg, sprite, hsprite, iy, hiy, ix, hix, rfl, rfl⟩ := h
    rw [icon_pixel hiy hix (hcond hg), Widget.shown, Widget.covers, hsprite, hramp]
    rfl

/-- A gate that is not open is none of a widget that inks the row. -/
theorem pixel_of_gate {binding : Binding} (h : binding.gate = some false) (x y : ℕ) :
    binding.pixel ctx x y = none := by
  cases binding with
  | border index => cases h
  | run gate s o e oy font ramp =>
    cases h
    rfl
  | icon gate ix iy sprite ramp =>
    cases h
    rfl

end Widgets

section Programs

variable {escape : Str → Str} {assets : Assets} {ctx : Ctx} {doc : List Widget}

/-- What lets a document's code draw the document: each widget's does, and no two of the keys that
its guards name have one identifier. -/
structure Clear (assets : Assets) (ctx : Ctx) (doc : List Widget) : Prop where
  widgets : ∀ w ∈ doc, w.Clear assets ctx
  keys : ∀ g ∈ doc.filterMap Widget.guard, ∀ g' ∈ doc.filterMap Widget.guard,
    ident g'.key = ident g.key → g'.key = g.key

/-- The code hoists each key that a guard names, and no other. -/
theorem emitFrom_keys {keys : List Str} {code : ProgramCode}
    (h : emitFrom assets keys doc = some code) :
    keys ⊆ code.keys ∧ (∀ g ∈ doc.filterMap Widget.guard, g.key ∈ code.keys) ∧
      ∀ k ∈ code.keys, k ∈ keys ∨ ∃ g ∈ doc.filterMap Widget.guard, g.key = k := by
  induction doc generalizing keys code with
  | nil =>
    cases h
    exact ⟨List.Subset.refl _, by simp, fun k hk => Or.inl hk⟩
  | cons w doc ih =>
    simp only [emitFrom, Option.bind_eq_bind, Option.bind_eq_some_iff, Option.pure_def,
      Option.some.injEq] at h
    obtain ⟨⟨wcode, guard⟩, hw, rest, hrest, rfl⟩ := h
    obtain ⟨hsub, hall, honly⟩ := ih hrest
    have hguard := emit_guard hw
    have hadd : keys ⊆ addKey keys guard := by
      cases guard with
      | none => exact List.Subset.refl _
      | some g =>
        simp only [addKey]
        split
        · exact List.Subset.refl _
        · exact List.subset_append_left _ _
    refine ⟨List.Subset.trans hadd hsub, ?_, ?_⟩
    · intro g hg
      rcases List.mem_filterMap.mp hg with ⟨w', hw', hg'⟩
      rcases List.mem_cons.mp hw' with rfl | hw'
      · apply hsub
        rw [hguard, hg']
        simp only [addKey]
        split
        · assumption
        · exact List.mem_append_right _ (List.mem_singleton_self _)
      · exact hall g (List.mem_filterMap.mpr ⟨w', hw', hg'⟩)
    · intro k hk
      rcases honly k hk with hold | ⟨g, hg, rfl⟩
      · cases guard with
        | none => exact Or.inl hold
        | some g =>
          have hmem : g ∈ (w :: doc).filterMap Widget.guard :=
            List.mem_filterMap.mpr ⟨w, List.mem_cons_self, hguard.symm⟩
          simp only [addKey] at hold
          split at hold
          · exact Or.inl hold
          · rcases List.mem_append.mp hold with hold | hnew
            · exact Or.inl hold
            · exact Or.inr ⟨g, hmem, (List.mem_singleton.mp hnew).symm⟩
      · obtain ⟨w', hw', hg'⟩ := List.mem_filterMap.mp hg
        exact Or.inr ⟨g, List.mem_filterMap.mpr ⟨w', List.mem_cons_of_mem w hw', hg'⟩, rfl⟩

/-- The widgets' code in order draws the widgets in order, hoisted keys given. -/
theorem findSome_pixels {keys hoists : List Str} {code : ProgramCode}
    (h : emitFrom assets keys doc = some code) (hclear : ∀ w ∈ doc, w.Clear assets ctx)
    (hmem : ∀ g ∈ doc.filterMap Widget.guard, g.key ∈ hoists)
    (hown : ∀ g ∈ doc.filterMap Widget.guard, ∀ k ∈ hoists, ident k = ident g.key → k = g.key)
    (x y : ℕ) :
    (code.widgets.map fun w => w.bind escape ctx hoists y).findSome? (Binding.pixel ctx x y) =
      doc.findSome? (Widget.shown assets ctx x y) := by
  induction doc generalizing keys code with
  | nil =>
    cases h
    rfl
  | cons w doc ih =>
    simp only [emitFrom, Option.bind_eq_bind, Option.bind_eq_some_iff, Option.pure_def,
      Option.some.injEq] at h
    obtain ⟨⟨wcode, guard⟩, hw, rest, hrest, rfl⟩ := h
    have hhead : ∀ g ∈ w.guard, g ∈ (w :: doc).filterMap Widget.guard :=
      fun g hg => List.mem_filterMap.mpr ⟨w, List.mem_cons_self, hg⟩
    have htail : ∀ g ∈ doc.filterMap Widget.guard, g ∈ (w :: doc).filterMap Widget.guard := by
      intro g hg
      obtain ⟨w', hw', hg'⟩ := List.mem_filterMap.mp hg
      exact List.mem_filterMap.mpr ⟨w', List.mem_cons_of_mem w hw', hg'⟩
    rw [List.map_cons, List.findSome?_cons, List.findSome?_cons,
      widget_pixel hw (hclear w List.mem_cons_self) (fun g hg => hmem g (hhead g hg))
        (fun g hg => hown g (hhead g hg)),
      ih hrest (fun w' hw' => hclear w' (List.mem_cons_of_mem w hw'))
        (fun g hg => hmem g (htail g hg)) (fun g hg => hown g (htail g hg))]

/-- The code of a clear document draws what the document means, in every slice of every row. -/
theorem render_meaning (escape : Str → Str) (assets : Assets) (doc : List Widget)
    (code : ProgramCode) (ctx : Ctx) (hemit : emitProgram assets doc = some code)
    (hclear : Clear assets ctx doc) (y x0 length : ℕ) :
    code.render escape ctx y x0 length =
      (List.range length).map fun i => meaning assets doc ctx (x0 + i) y := by
  obtain ⟨-, hmem, honly⟩ := emitFrom_keys hemit
  have hown : ∀ g ∈ doc.filterMap Widget.guard, ∀ k ∈ code.keys,
      ident k = ident g.key → k = g.key := by
    intro g hg k hk hident
    rcases honly k hk with hnil | ⟨g', hg', rfl⟩
    · cases hnil
    · exact hclear.keys g hg g' hg' hident
  have hpixel := fun x => @findSome_pixels escape assets ctx doc [] code.keys code hemit
    hclear.widgets hmem hown x y
  rw [ProgramCode.render]
  split
  · next hskip =>
    -- every gate is shut, so no widget inks the row
    have hshut : ∀ binding ∈ code.bindings escape ctx y, binding.gate = some false := by
      intro binding hbinding
      simp only [ProgramCode.skips, Bool.and_eq_true, List.all_eq_true, decide_eq_true_eq] at hskip
      exact hskip.2 _ (List.mem_map_of_mem hbinding)
    have hblank : ∀ x, meaning assets doc ctx x y = BG := by
      intro x
      have hnone : (code.bindings escape ctx y).findSome? (Binding.pixel ctx x y) = none :=
        List.findSome?_eq_none_iff.mpr fun binding hbinding =>
          pixel_of_gate (hshut binding hbinding) x y
      rw [ProgramCode.bindings, hpixel] at hnone
      rw [meaning, hnone]
      rfl
    simp only [hblank, List.map_const', List.length_range]
  · apply List.map_congr_left
    intro i _
    rw [meaning, ← hpixel]
    rfl

end Programs

section Keys

/-- A face of one glyph. -/
def dots : Font where
  glyphs := [⟨'.', .dot, 0, 0, 2⟩]
  ascent := 0
  lineHeight := 1
  fixedAdvance := 0
  advShift := 0
  ascii := List.replicate 14 255 ++ 0 :: List.replicate 81 255
  table := by decide
  shift := by decide

def dotAssets : Assets := ⟨fun _ => some dots, fun _ => some .dot⟩

/-- Two keys that differ in a character that no identifier has. -/
def twoKeys : List Widget :=
  [.icon "dot".toList (.absolute 0) (.absolute 0) none (some "a-b == 'on'".toList),
    .icon "dot".toList (.absolute 1) (.absolute 0) none (some "a_b == 'on'".toList)]

def onOff : Ctx := ⟨2, 1, fun key => if key = "a-b".toList then "on".toList else "off".toList⟩

/-- The first icon's guard is compared with the second's value. -/
theorem twoKeys_blank : ¬ ∀ (escape : Str → Str) (assets : Assets) (doc : List Widget)
    (code : ProgramCode) (ctx : Ctx), emitProgram assets doc = some code →
    ∀ y x0 length, code.render escape ctx y x0 length =
      (List.range length).map fun i => meaning assets doc ctx (x0 + i) y := by
  intro hclaim
  have hdraws : ∀ code ∈ emitProgram dotAssets twoKeys, code.render id onOff 0 0 1 ≠
      (List.range 1).map fun i => meaning dotAssets twoKeys onOff (0 + i) 0 := by
    decide +kernel
  cases hemit : emitProgram dotAssets twoKeys with
  | none =>
    have hsome : (emitProgram dotAssets twoKeys).isSome = true := by decide +kernel
    rw [hemit] at hsome
    cases hsome
  | some code => exact hdraws code hemit (hclaim id dotAssets twoKeys code onOff hemit 0 0 1)

/-- A full stop, and a dot behind it while the key is on. -/
def stopAndDot : List Widget :=
  [.text ".".toList ⟨.absolute 0, .absolute 0, "dots".toList, none, none, [], []⟩,
    .icon "dot".toList (.anchored .right true 1) (.absolute 0) none (some "a-b == 'on'".toList)]

theorem stopAndDot_draws :
    (emitProgram dotAssets stopAndDot).map (fun code => code.render id onOff 0 0 2) =
      some ((List.range 2).map fun i => meaning dotAssets stopAndDot onOff (0 + i) 0) := by
  have hsome : (emitProgram dotAssets stopAndDot).isSome = true := by decide +kernel
  obtain ⟨code, hcode⟩ := Option.isSome_iff_exists.mp hsome
  rw [hcode, Option.map_some]
  apply congrArg some
  apply render_meaning id dotAssets stopAndDot code onOff hcode
  have hguards : ∀ g ∈ stopAndDot.filterMap Widget.guard,
      ∀ g' ∈ stopAndDot.filterMap Widget.guard, ident g'.key = ident g.key → g'.key = g.key := by
    decide
  have hliterals : ∀ w ∈ stopAndDot, ∀ s ∈ w.literals, plain s = true := by decide
  have hfits : ∀ w ∈ stopAndDot, ∀ fs ∈ w.drawn dotAssets onOff, fs.1.Fits fs.2 := by
    decide +kernel
  have hcut : ∀ w ∈ stopAndDot, cutAt ('!', '=') (w.cond.getD []) = none := by decide
  refine ⟨?_, hguards⟩
  intro w hw
  refine ⟨?_, ?_, hliterals w hw, fun _ => hfits w hw⟩
  · rintro color cond rfl
    simp [stopAndDot] at hw
  · intro p q _ hq
    rw [hcut w hw] at hq
    cases hq

end Keys

end Ledwall.Panels
