import Ledwall.Server.TextBindings

/-! Which texts the bindings resolve by their documented resolvers alone. -/

namespace Ledwall.Server.Binding

open Ledwall.Server.Live (noValue)
open Ledwall.Server.Rendering (Text)

section Meaning

/-- What the layers do with the bindings that they share, and the pool behind them. -/
inductive Step : State → State → Prop
  | resolve (worlds : ℕ → World) (text : Text) (s : State) : Step s (resolve worlds text s).2
  | history (w : World) (entity hours : Text) (s : State) : Step s (history w entity hours s).2
  | land (w : World) (s : State) : Step s (land w w.landed s)

/-- The states that bindings can come to. -/
def Reachable (s : State) : Prop :=
  ∃ tz fresh ha http live hist,
    Relation.ReflTransGen Step ⟨.new tz fresh ha http live hist, []⟩ s

/-- The bindings but for what is in the fetch cache and the in-flight set. -/
def Bindings.shared (b : Bindings) : Bindings :=
  { b with cache := b.cache.map fun _ _ => none, inflight := b.inflight.map fun _ => ∅ }

def Documented (kind : Text) : Prop := kind ∈ resolvers.map Prod.fst

instance (kind : Text) : Decidable (Documented kind) :=
  inferInstanceAs (Decidable (kind ∈ resolvers.map Prod.fst))

/-- What is to become of a segment. -/
inductive Follows : Segment → Piece → Prop
  | plain (c : Char) : Follows (.plain c) (.left [c])
  | resolved {raw kind arg t : Text} (h : Documented kind) : Follows (.token raw kind arg) (.replaced t)
  | left {raw kind arg : Text} (h : ¬ Documented kind) : Follows (.token raw kind arg) (.left raw)

/-- The promise of the bindings. -/
structure FixedSet (text : Text) (s : State) (out : List Piece × State) : Prop where
  /-- A text is returned. -/
  total : ∃ t, joined out.1 = some t
  /-- The tokens of the documented kinds are replaced, and everything else is left. -/
  exact : List.Forall₂ Follows (scan text) out.1
  /-- No attribute is changed. -/
  shared : out.2.self.shared = s.self.shared

/-- The object has no attribute of the name, or it is `None`. -/
def Bindings.Lacks (b : Bindings) (name : Text) : Prop :=
  b.attribute name = none ∨ b.attribute name = some .nothing

def Harmless (b : Bindings) : Segment → Prop
  | .plain _ => True
  | .token _ kind _ => Documented kind ∨ b.Lacks ('_' :: kind)

/-- Whether a fetch brings a text. -/
def Fetch.IsText : Fetch → Prop
  | .http _ | .ha _ => True
  | .history _ _ => False

/-- The cache holds texts under the keys of the fetches that bring one. -/
def Typed (b : Bindings) : Prop :=
  ∀ c f t v, b.cache = some c → Fetch.IsText f → c f.key = some (t, v) → ∃ x, v = .text x

end Meaning

section Keeping

variable {w : World} {b : Bindings} {s : State} {f : Fetch} {kind arg : Text}

/-- Only the in-flight set is another. -/
structure Claims (b b' : Bindings) : Prop where
  shared : b'.shared = b.shared
  cache : b'.cache = b.cache

lemma Claims.refl (b : Bindings) : Claims b b := ⟨rfl, rfl⟩

lemma Claims.typed {b' : Bindings} (h : Claims b b') (hb : Typed b) : Typed b' := by
  intro c f t v hc
  rw [h.cache] at hc
  exact hb c f t v hc

lemma claim_claims (w : World) (f : Fetch) (s : State) : Claims s.self (claim w f s).2.self := by
  unfold claim
  split
  next hlock hkeys =>
    split
    next => exact .refl _
    next =>
      have hclaimed (x : Finset Text) : Claims s.self { s.self with inflight := some x } :=
        ⟨by simp [Bindings.shared, hkeys], rfl⟩
      cases s.self.pool with
      | none => exact hclaimed _
      | some p =>
        dsimp only
        split
        · exact .refl _
        · exact hclaimed _
  next => exact .refl _

lemma cached_claims (w : World) (f : Fetch) (empty : Returned) (s : State) :
    Claims s.self (cached w f empty s).2.self := by
  unfold cached
  split
  next => exact .refl _
  next cache hcache =>
    split
    next => exact .refl _
    next =>
      have h := claim_claims w f s
      split
      next s' heq => rwa [heq] at h
      next s' heq => rwa [heq] at h

lemma served_text (hf : f.IsText) (hb : Typed b) {c : Cache} (hc : b.cache = some c) {age : ℚ}
    {v : Returned} (h : served w c f.key age = some v) : ∃ y, v = .text y := by
  unfold served at h
  split at h
  next t v' hv =>
    split at h
    · cases h
      exact hb c f t v hc hf hv
    · cases h
  next => cases h

lemma cached_text (hf : f.IsText) (hb : Typed s.self) (x : Text) {v : Returned}
    (h : (cached w f (.text x) s).1 = some v) : ∃ y, v = .text y := by
  unfold cached at h
  split at h
  next => cases h
  next c hc =>
    split at h
    next v' hv =>
      cases h
      exact served_text hf hb hc hv
    next =>
      split at h
      next => cases h
      next =>
        cases h
        cases hg : served w c f.key giveUp with
        | none => exact ⟨x, rfl⟩
        | some v' => exact served_text hf hb hc hg

lemma key_ne_history (hf : f.IsText) (entity hours : Text) :
    f.key ≠ (Fetch.history entity hours).key := by
  intro h
  have hsecond := congrArg (fun t : Text => t[1]?) h
  cases f with
  | http arg => exact absurd hsecond (by rintro ⟨⟩)
  | ha arg => exact absurd hsecond (by rintro ⟨⟩)
  | history e h => exact hf.elim

lemma run_text (hf : f.IsText) {v : Returned} (h : f.run w b = some v) : ∃ y, v = .text y := by
  cases f with
  | http arg =>
    obtain ⟨t, -, rfl⟩ := Option.map_eq_some_iff.mp h
    exact ⟨t, rfl⟩
  | ha arg =>
    simp only [Fetch.run] at h
    split at h
    · obtain ⟨t, -, rfl⟩ := Option.map_eq_some_iff.mp h
      exact ⟨_, rfl⟩
    · cases h
  | history e h => exact hf.elim

lemma release_claims (f : Fetch) (b : Bindings) : Claims b (release f b) := by
  unfold release
  split
  · exact .refl b
  · exact ⟨by simp [Bindings.shared, Function.comp_def], rfl⟩

lemma store_shared (w : World) (f : Fetch) (b : Bindings) : (store w f b).shared = b.shared := by
  unfold store
  split
  · rfl
  · rfl
  · simp [Bindings.shared, Function.comp_def]

lemma store_typed (w : World) (g : Fetch) (hb : Typed b) : Typed (store w g b) := by
  unfold store
  split
  next => exact hb
  next => exact hb
  next v' _ hrun =>
    intro c f t v hc hf hv
    obtain ⟨c', hc', rfl⟩ := Option.map_eq_some_iff.mp hc
    by_cases hkey : f.key = g.key
    · rw [hkey, Function.update_self] at hv
      cases hv
      cases g with
      | http arg => exact run_text (f := .http arg) trivial hrun
      | ha arg => exact run_text (f := .ha arg) trivial hrun
      | history entity hours => exact absurd hkey (key_ne_history hf entity hours)
    · rw [Function.update_of_ne hkey] at hv
      exact hb c' f t v hc' hf hv

lemma refresh_shared (w : World) (f : Fetch) (b : Bindings) : (refresh w f b).shared = b.shared :=
  (release_claims f _).shared.trans (store_shared w f b)

lemma refresh_typed (w : World) (f : Fetch) (hb : Typed b) : Typed (refresh w f b) :=
  (release_claims f _).typed (store_typed w f hb)

lemma land_keeps (w : World) (is : List ℕ) : ∀ {s : State}, Typed s.self →
    (land w is s).self.shared = s.self.shared ∧ Typed (land w is s).self := by
  induction is with
  | nil =>
    intro s hs
    exact ⟨rfl, hs⟩
  | cons i is ih =>
    intro s hs
    rw [land]
    split
    next => exact ih hs
    next f _ =>
      obtain ⟨hshared, htyped⟩ := @ih ⟨refresh w f s.self, s.jobs.eraseIdx i⟩ (refresh_typed w f hs)
      exact ⟨hshared.trans (refresh_shared w f s.self), htyped⟩

lemma call_claims (w : World) (arg : Text) (s : State) (r : Resolver) :
    Claims s.self (r.call w arg s).2.self := by
  cases r with
  | http => exact cached_claims _ _ _ _
  | ha =>
    simp only [Resolver.call]
    split
    · exact .refl _
    · exact .refl _
    · exact cached_claims _ _ _ _
  | _ => exact .refl _

lemma call_text {r : Resolver} (hs : Typed s.self) {v : Returned}
    (h : (r.call w arg s).1 = some v) : ∃ y, v = .text y := by
  have htime {format : String} (h : (s.self.tz.bind fun z =>
      (w.strftime z (orElse arg format)).map Returned.text) = some v) : ∃ y, v = .text y := by
    obtain ⟨z, -, h⟩ := Option.bind_eq_some_iff.mp h
    obtain ⟨t, -, rfl⟩ := Option.map_eq_some_iff.mp h
    exact ⟨t, rfl⟩
  have hbus (h : readBus w s.self arg = some v) : ∃ y, v = .text y := by
    unfold readBus at h
    split at h
    next => cases h
    next =>
      cases h
      exact ⟨_, rfl⟩
    next =>
      split at h
      next =>
        cases h
        exact ⟨_, rfl⟩
      next =>
        cases h
        exact ⟨_, rfl⟩
      next =>
        split at h
        next => cases h
        all_goals
          cases h
          exact ⟨_, rfl⟩
  cases r with
  | clock => exact htime h
  | date => exact htime h
  | env =>
    cases h
    exact ⟨_, rfl⟩
  | file =>
    cases h
    exact ⟨_, rfl⟩
  | http => exact cached_text (f := .http arg) trivial hs noValue h
  | ha =>
    simp only [Resolver.call] at h
    split at h
    · cases h
    · cases h
      exact ⟨_, rfl⟩
    · exact cached_text (f := .ha arg) trivial hs noValue h
  | bus => exact hbus h
  | data => exact hbus h

lemma attribute_shared (b : Bindings) (name : Text) : b.shared.attribute name = b.attribute name := by
  unfold Bindings.attribute
  split
  next f _ => cases f <;> simp [Bindings.field, Bindings.shared, Function.comp_def]
  next => rfl

lemma attribute_documented (b : Bindings) (h : Documented kind) :
    ∃ r, b.attribute ('_' :: kind) = some (.resolver r) := by
  simp only [Documented, resolvers, List.map_cons, List.map_nil, List.mem_cons, List.not_mem_nil,
    or_false] at h
  rcases h with rfl | rfl | rfl | rfl | rfl | rfl | rfl | rfl <;> exact ⟨_, rfl⟩

end Keeping

section Substituting

variable {w : World} {s : State} {raw kind arg : Text}

lemma sub_harmless (hs : Typed s.self) (h : Harmless s.self (.token raw kind arg)) :
    Follows (.token raw kind arg) (sub w raw kind arg s).1 ∧
      Claims s.self (sub w raw kind arg s).2.self := by
  by_cases hdoc : Documented kind
  · obtain ⟨r, hr⟩ := attribute_documented s.self hdoc
    have hclaims := call_claims w arg s r
    simp only [sub, hr, Found.call]
    cases hcall : r.call w arg s with
    | mk v s' =>
      rw [hcall] at hclaims
      cases v with
      | none => exact ⟨.resolved hdoc, hclaims⟩
      | some v =>
        obtain ⟨t, rfl⟩ := call_text hs (congrArg Prod.fst hcall)
        exact ⟨.resolved hdoc, hclaims⟩
  · rcases h.resolve_left hdoc with hnone | hnothing
    · simp only [sub, hnone]
      exact ⟨.left hdoc, .refl _⟩
    · simp only [sub, hnothing]
      exact ⟨.left hdoc, .refl _⟩

lemma sub_harmful (h : ¬ Harmless s.self (.token raw kind arg)) :
    ¬ Follows (.token raw kind arg) (sub w raw kind arg s).1 := by
  obtain ⟨hdoc, hlacks⟩ := not_or.mp h
  intro hfollows
  unfold sub at hfollows
  split at hfollows
  next hnone => exact hlacks (.inl hnone)
  next hnothing => exact hlacks (.inr hnothing)
  next =>
    split at hfollows <;> cases hfollows
    all_goals exact hdoc ‹Documented kind›

lemma typed_erase (hs : Typed s.self) (f : Field) : Typed (s.self.erase f) := by
  cases f with
  | cache =>
    intro c f t v hc
    cases hc
  | _ => exact hs

lemma special_typed (w : World) (arg : Text) (hs : Typed s.self) (m : Special) :
    Typed (m.call w arg s).2.self := by
  cases m with
  | init =>
    simp only [Special.call]
    split
    next => exact hs
    next =>
      intro c f t v hc _ hv
      cases hc
      cases hv
  | delattr =>
    simp only [Special.call]
    split
    next =>
      intro c f t v hc
      cases hc
    next =>
      split
      next => exact hs
      next f _ =>
        split
        next => exact typed_erase hs f
        next => exact hs
  | getattribute =>
    simp only [Special.call]
    split <;> exact hs
  | _ => exact hs

lemma sub_typed (w : World) (raw kind arg : Text) (hs : Typed s.self) :
    Typed (sub w raw kind arg s).2.self := by
  have hcall (f : Found) : Typed (f.call w arg s).2.self := by
    cases f with
    | resolver r => exact (call_claims w arg s r).typed hs
    | special m => exact special_typed w arg hs m
    | _ => exact hs
  unfold sub
  split
  next => exact hs
  next => exact hs
  next f _ _ =>
    have h := hcall f
    split
    all_goals
      next heq => rwa [heq] at h

end Substituting

section Runs

variable {s : State}

lemma resolveFrom_typed (worlds : ℕ → World) (segs : List Segment) : ∀ {k : ℕ} {s : State},
    Typed s.self → Typed (resolveFrom worlds segs k s).2.self := by
  induction segs with
  | nil =>
    intro k s hs
    exact hs
  | cons seg segs ih =>
    intro k s hs
    cases seg with
    | plain c => exact ih hs
    | token raw kind arg => exact ih (sub_typed _ _ _ _ (land_keeps _ _ hs).2)

lemma Step.typed {s s' : State} (h : Step s s') (hs : Typed s.self) : Typed s'.self := by
  cases h with
  | resolve worlds text => exact resolveFrom_typed worlds _ hs
  | history w entity hours =>
    unfold Binding.history
    split
    · exact hs
    · exact hs
    · exact (cached_claims _ _ _ _).typed hs
  | land w => exact (land_keeps w w.landed hs).2

/-- In every state that bindings come to, the cache holds texts where texts are fetched. -/
theorem Reachable.typed (h : Reachable s) : Typed s.self := by
  obtain ⟨tz, fresh, ha, http, live, hist, h⟩ := h
  induction h with
  | refl =>
    intro c f t v hc _ hv
    cases hc
    cases hv
  | tail _ hstep ih => exact hstep.typed ih

lemma joined_of_follows {segs : List Segment} {ps : List Piece} (h : List.Forall₂ Follows segs ps) :
    ∃ t, joined ps = some t := by
  induction h with
  | nil => exact ⟨[], rfl⟩
  | cons hp _ ih =>
    obtain ⟨t, ht⟩ := ih
    cases hp <;> exact ⟨_, by rw [joined, ht]; rfl⟩

lemma harmless_shared {b b' : Bindings} (h : b'.shared = b.shared) (seg : Segment) :
    Harmless b' seg ↔ Harmless b seg := by
  cases seg with
  | plain c => exact Iff.rfl
  | token raw kind arg =>
    have hattr : b'.attribute ('_' :: kind) = b.attribute ('_' :: kind) := by
      rw [← attribute_shared b', h, attribute_shared]
    simp only [Harmless, Bindings.Lacks, hattr]

lemma resolveFrom_iff (worlds : ℕ → World) (segs : List Segment) : ∀ {k : ℕ} {s : State},
    Typed s.self →
      ((List.Forall₂ Follows segs (resolveFrom worlds segs k s).1 ∧
        (resolveFrom worlds segs k s).2.self.shared = s.self.shared) ↔
          ∀ seg ∈ segs, Harmless s.self seg) := by
  induction segs with
  | nil =>
    intro k s _
    simp [resolveFrom]
  | cons seg segs ih =>
    intro k s hs
    cases seg with
    | plain c =>
      have htail := @ih k s hs
      have hplain : Harmless s.self (.plain c) := trivial
      rw [List.forall_mem_cons, ← htail]
      simp only [resolveFrom, List.forall₂_cons]
      constructor
      · rintro ⟨⟨-, hrest⟩, hshared⟩
        exact ⟨hplain, hrest, hshared⟩
      · rintro ⟨-, hrest, hshared⟩
        exact ⟨⟨.plain c, hrest⟩, hshared⟩
    | token raw kind arg =>
      obtain ⟨hland, htyped⟩ := land_keeps (worlds k) (worlds k).landed hs
      generalize hl : land (worlds k) (worlds k).landed s = l at hland htyped
      simp only [resolveFrom, hl, List.forall₂_cons, List.forall_mem_cons]
      have hsub := sub_typed (worlds k) raw kind arg htyped
      have htail := @ih (k + 1) _ hsub
      have hhead := harmless_shared hland (.token raw kind arg)
      by_cases hharm : Harmless l.self (.token raw kind arg)
      · obtain ⟨hfollows, hclaims⟩ := sub_harmless (w := worlds k) htyped hharm
        have hshared := hclaims.shared.trans hland
        rw [hshared] at htail
        have hall : (∀ seg ∈ segs, Harmless (sub (worlds k) raw kind arg l).2.self seg) ↔
            ∀ seg ∈ segs, Harmless s.self seg :=
          forall₂_congr fun seg _ => harmless_shared hshared seg
        rw [← hhead, ← hall, ← htail]
        tauto
      · have hnot := sub_harmful (w := worlds k) hharm
        rw [← hhead]
        tauto

/-- Bindings hold to their fixed set on a text exactly when no token of it names, behind the first
underscore, an attribute other than a documented resolver. -/
theorem fixed_set_iff (h : Reachable s) (worlds : ℕ → World) (text : Text) :
    FixedSet text s (resolve worlds text s) ↔ ∀ seg ∈ scan text, Harmless s.self seg := by
  rw [← resolveFrom_iff worlds (scan text) h.typed]
  constructor
  · intro hfixed
    exact ⟨hfixed.exact, hfixed.shared⟩
  · rintro ⟨hexact, hshared⟩
    exact ⟨joined_of_follows hexact, hexact, hshared⟩

/-- A world where it is noon, with no files, readers or topics, and one zone. -/
def noon : World where
  now := 0
  zone name := if name = "UTC".toList then some name else none
  strftime _ _ := some "12:00".toList
  environ _ := none
  read _ := none
  live _ := none
  digits := ⟨Char.isDigit, fun _ => none⟩
  str _ := []
  call _ _ := none
  history _ _ _ := none
  urlopen _ := none
  jsonAt _ _ := none
  repr := "Bindings".toList
  fresh := 1
  closing := false
  landed := []

def unused : State := ⟨.new "UTC".toList 0 none none none none, []⟩

lemma unused_reachable : Reachable unused := ⟨_, _, _, _, _, _, .refl⟩

theorem fixed_set_clock : FixedSet "\x7bclock\x7d \x7bsun\x7d".toList unused
    (resolve (fun _ => noon) "\x7bclock\x7d \x7bsun\x7d".toList unused) := by
  apply (fixed_set_iff unused_reachable _ _).mpr
  have hscan : scan "\x7bclock\x7d \x7bsun\x7d".toList =
      [.token "\x7bclock\x7d".toList "clock".toList [], .plain ' ',
        .token "\x7bsun\x7d".toList "sun".toList []] := by decide
  rw [hscan]
  simp only [List.forall_mem_cons, List.not_mem_nil, false_imp_iff, implies_true, and_true]
  exact ⟨.inl (by decide), trivial, .inr (.inl rfl)⟩

/-- A token that constructs bindings cannot be joined with the text, and one that deletes an attribute
leaves the shared object without it. -/
theorem special_methods_reached : Reachable unused ∧
    joined (resolve (fun _ => noon) "\x7b_class__:UTC\x7d".toList unused).1 = none ∧
    (resolve (fun _ => noon) "\x7b_delattr__:tz\x7d".toList unused).2.self.tz = none ∧
    ¬ FixedSet "\x7b_class__:UTC\x7d".toList unused
      (resolve (fun _ => noon) "\x7b_class__:UTC\x7d".toList unused) := by
  have hnone : joined (resolve (fun _ => noon) "\x7b_class__:UTC\x7d".toList unused).1 = none := rfl
  refine ⟨unused_reachable, hnone, rfl, ?_⟩
  rintro ⟨⟨t, ht⟩, -, -⟩
  rw [hnone] at ht
  cases ht

end Runs

end Ledwall.Server.Binding
