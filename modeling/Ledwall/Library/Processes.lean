import Mathlib.Tactic

/-! Computations that make one access after another, each of which can be interrupted, and conditions
on all the accesses that a computation can make. -/

namespace Ledwall.Library.Processes

/-- `hang` is a wait that never ends. -/
inductive Proc (A R α : Type)
  | ret (a : α)
  | hang
  | access (a : A) (k : R → Proc A R α)

namespace Proc

variable {A R α β ι : Type}

def bind : Proc A R α → (α → Proc A R β) → Proc A R β
  | ret a, f => f a
  | hang, _ => hang
  | access a k, f => access a fun r => (k r).bind f

instance : Monad (Proc A R) where
  pure := ret
  bind := bind

/-- One access, and what it reads. -/
def perform (a : A) : Proc A R R := access a ret

variable {σ : Type} (env : σ → A → R → σ → Prop) (ok : σ → A → Prop)

/-- Whatever the environment answers, every access is allowed where it is made, and `Q` holds in the
end. -/
def Within (Q : σ → α → Prop) : σ → Proc A R α → Prop
  | s, ret a => Q s a
  | _, hang => True
  | s, access a k => ok s a ∧ ∀ r t, env s a r t → Within Q t (k r)

variable {env ok} {Q : σ → α → Prop} {P : σ → β → Prop} {s : σ} {x : Proc A R α}
  {f : α → Proc A R β}

lemma Within.mono {Q' : σ → α → Prop} (h : ∀ s a, Q s a → Q' s a) :
    ∀ {s} {x : Proc A R α}, Within env ok Q s x → Within env ok Q' s x
  | s, ret a, hx => h s a hx
  | _, hang, _ => trivial
  | _, access _ _, hx => ⟨hx.1, fun r t ht => Within.mono h (hx.2 r t ht)⟩

lemma Within.bind (hf : ∀ s a, Q s a → Within env ok P s (f a)) :
    ∀ {s} {x : Proc A R α}, Within env ok Q s x → Within env ok P s (x >>= f)
  | s, ret a, hx => hf s a hx
  | _, hang, _ => trivial
  | _, access _ _, hx => ⟨hx.1, fun r t ht => Within.bind hf (hx.2 r t ht)⟩

lemma Within.weaken {ok' : σ → A → Prop} (h : ∀ s a, ok s a → ok' s a) :
    ∀ {s} {x : Proc A R α}, Within env ok Q s x → Within env ok' Q s x
  | _, ret _, hx => hx
  | _, hang, _ => trivial
  | _, access _ _, hx => ⟨h _ _ hx.1, fun r t ht => Within.weaken h (hx.2 r t ht)⟩

/-- `x` finds `v` without a change of the state. -/
abbrev Finds (env : σ → A → R → σ → Prop) (ok : σ → A → Prop) (s : σ) (v : α) (x : Proc A R α) : Prop :=
  Within env ok (fun t a => t = s ∧ a = v) s x

namespace Finds

lemma bind {v : α} (hx : Finds env ok s v x) (hf : Within env ok P s (f v)) :
    Within env ok P s (x >>= f) := by
  refine Within.bind ?_ hx
  rintro t a ⟨rfl, rfl⟩
  exact hf

lemma anyM {g : ι → Proc A R Bool} {p : ι → Bool} (as : List ι) (hg : ∀ i, Finds env ok s (p i) (g i)) :
    Finds env ok s (as.any p) (as.anyM g) := by
  induction as with
  | nil => exact ⟨rfl, rfl⟩
  | cons i as ih =>
    refine bind (hg i) ?_
    rw [List.any_cons]
    cases p i with
    | true => exact ⟨rfl, rfl⟩
    | false => exact ih

lemma allM {g : ι → Proc A R Bool} {p : ι → Bool} (as : List ι) (hg : ∀ i, Finds env ok s (p i) (g i)) :
    Finds env ok s (as.all p) (as.allM g) := by
  induction as with
  | nil => exact ⟨rfl, rfl⟩
  | cons i as ih =>
    refine bind (hg i) ?_
    rw [List.all_cons]
    cases p i with
    | true => exact ih
    | false => exact ⟨rfl, rfl⟩

lemma foldlM {g : β → ι → Proc A R β} {h : β → ι → β} (as : List ι) (b : β)
    (hg : ∀ b i, Finds env ok s (h b i) (g b i)) : Finds env ok s (as.foldl h b) (as.foldlM g b) := by
  induction as generalizing b with
  | nil => exact ⟨rfl, rfl⟩
  | cons i as ih => exact bind (hg b i) (ih (h b i))

end Finds

section Attempting

variable {ε : Type} {x : ExceptT ε (Proc A R) α} {f : α → ExceptT ε (Proc A R) β}
  {Q : σ → Except ε α → Prop} {P : σ → Except ε β → Prop}

/-- `Within` of what can fail. -/
def Attempts (env : σ → A → R → σ → Prop) (ok : σ → A → Prop) (Q : σ → Except ε α → Prop) (s : σ)
    (x : ExceptT ε (Proc A R) α) : Prop :=
  Within env ok Q s x.run

namespace Attempts

lemma pure {a : α} (h : Q s (.ok a)) : Attempts env ok Q s (Pure.pure a) := h

lemma throw {e : ε} (h : Q s (.error e)) : Attempts env ok Q s (throw e) := h

lemma lift {x : Proc A R α} (hx : Within env ok (fun t a => Q t (.ok a)) s x) :
    Attempts env ok Q s (ExceptT.lift x) :=
  Within.bind (f := fun a => ret (Except.ok a)) (fun _ _ h => h) hx

lemma bind (hf : ∀ t a, Q t (.ok a) → Attempts env ok P t (f a))
    (he : ∀ t e, Q t (.error e) → P t (.error e)) (hx : Attempts env ok Q s x) :
    Attempts env ok P s (x >>= f) := by
  refine Within.bind ?_ hx
  rintro t (e | a) h
  · exact he t e h
  · exact hf t a h

/-- A first part that cannot fail. -/
lemma then_ {x : Proc A R α} {Q : σ → α → Prop} (hf : ∀ t a, Q t a → Attempts env ok P t (f a))
    (hx : Within env ok Q s x) : Attempts env ok P s (ExceptT.lift x >>= f) :=
  bind (Q := fun t r => ∃ a, r = .ok a ∧ Q t a) (fun t a h => by
    obtain ⟨a, ⟨⟩, ha⟩ := h
    exact hf t a ha) (fun t e h => by
    obtain ⟨a, ⟨⟩, -⟩ := h) (lift (hx.mono fun t a ha => ⟨a, rfl, ha⟩))

end Attempts

end Attempting

section Leading

variable {next : σ → A → σ}

/-- Accesses that move the state on whatever they read, all of them allowed, lead from `s` to `t`. -/
abbrev Leads (next : σ → A → σ) (ok : σ → A → Prop) (s t : σ) (x : Proc A R α) : Prop :=
  Within (fun s a _ t => t = next s a) ok (fun u _ => u = t) s x

namespace Leads

variable {t u : σ}

lemma bind (hx : Leads next ok s t x) (hf : ∀ a, Leads next ok t u (f a)) :
    Leads next ok s u (x >>= f) := by
  refine Within.bind ?_ hx
  rintro t a rfl
  exact hf a

lemma forM {g : ι → Proc A R PUnit} {as : List ι} (hg : ∀ i, Leads next ok s s (g i)) :
    Leads next ok s s (as.forM g) := by
  induction as with
  | nil => rfl
  | cons i as ih => exact (hg i).bind fun _ => ih

lemma anyM {g : ι → Proc A R Bool} {as : List ι} (hg : ∀ i, Leads next ok s s (g i)) :
    Leads next ok s s (as.anyM g) := by
  induction as with
  | nil => rfl
  | cons i as ih =>
    refine (hg i).bind fun b => ?_
    cases b with
    | true => rfl
    | false => exact ih

lemma allM {g : ι → Proc A R Bool} {as : List ι} (hg : ∀ i, Leads next ok s s (g i)) :
    Leads next ok s s (as.allM g) := by
  induction as with
  | nil => rfl
  | cons i as ih =>
    refine (hg i).bind fun b => ?_
    cases b with
    | true => exact ih
    | false => rfl

lemma foldlM {g : β → ι → Proc A R β} {as : List ι} {b : β}
    (hg : ∀ b i, Leads next ok s s (g b i)) : Leads next ok s s (as.foldlM g b) := by
  induction as generalizing b with
  | nil => rfl
  | cons i as ih => exact (hg b i).bind fun _ => ih

end Leads

section Failing

variable {ε : Type} {t u v : σ} {x : ExceptT ε (Proc A R) α} {f : α → ExceptT ε (Proc A R) β}

/-- The accesses lead to `t`, or where there is an error, to `u`. -/
def Tries (next : σ → A → σ) (ok : σ → A → Prop) (s t u : σ) (x : ExceptT ε (Proc A R) α) : Prop :=
  Attempts (fun s a _ t => t = next s a) ok (fun v r => v = r.casesOn (fun _ => u) fun _ => t) s x

namespace Tries

lemma pure (a : α) : Tries next ok s s u (Pure.pure a : ExceptT ε (Proc A R) α) := rfl

lemma throw (e : ε) : Tries next ok u t u (throw e : ExceptT ε (Proc A R) α) := rfl

lemma lift {x : Proc A R α} (hx : Leads next ok s t x) :
    Tries next ok s t u (ExceptT.lift x : ExceptT ε (Proc A R) α) :=
  Attempts.lift hx

lemma bind (hx : Tries next ok s t u x) (hf : ∀ a, Tries next ok t v u (f a)) :
    Tries next ok s v u (x >>= f) := by
  refine Attempts.bind ?_ ?_ hx
  · rintro w a rfl
    exact hf a
  · exact fun w e hw => hw

lemma forM {g : ι → ExceptT ε (Proc A R) PUnit} {as : List ι} (hg : ∀ i, Tries next ok s s u (g i)) :
    Tries next ok s s u (as.forM g) := by
  induction as with
  | nil => rfl
  | cons i as ih => exact (hg i).bind fun _ => ih

end Tries

end Failing

end Leading

end Proc

end Ledwall.Library.Processes
