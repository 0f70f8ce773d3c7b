import Ledwall.Layout.LayoutText

/-! What a layout's text sets, line by line, and what each field is left with. -/

namespace Ledwall.Layout

open Ledwall.Wire Ledwall.Values

section Trimming

variable {s t : Str}

lemma rdropWhile_append (p : Char → Bool) (s t : Str) :
    (s ++ t).rdropWhile p = if t.rdropWhile p = [] then s.rdropWhile p else s ++ t.rdropWhile p := by
  simp only [List.rdropWhile, List.reverse_append, List.dropWhile_append, List.reverse_eq_nil_iff,
    List.isEmpty_iff]
  split
  · rfl
  · rw [List.reverse_append, List.reverse_reverse]

lemma trimmed_eq_nil : trimmed s = [] ↔ ∀ c ∈ s, whiteSpace c = true := by
  rw [trimmed, List.rdropWhile_eq_nil_iff, ← List.dropWhile_eq_nil_iff,
    List.dropWhile_idempotent, List.dropWhile_eq_nil_iff]

lemma trimmed_concat {c : Char} (hc : whiteSpace c = true) (s : Str) :
    trimmed (s ++ [c]) = trimmed s := by
  rw [trimmed, trimmed, List.dropWhile_append]
  split
  · next h =>
    rw [List.isEmpty_iff.mp h]
    simp [hc]
  · exact List.rdropWhile_concat_pos _ _ _ hc

lemma trimmed_rdropWhile (s : Str) : trimmed (s.rdropWhile whiteSpace) = trimmed s := by
  induction s using List.reverseRecOn with
  | nil => rfl
  | append_singleton s c ih =>
    by_cases hc : whiteSpace c = true
    · rw [List.rdropWhile_concat_pos _ _ _ hc, ih, trimmed_concat hc]
    · rw [List.rdropWhile_concat_neg _ _ _ hc]

lemma trimmed_stripCr (s : Str) : trimmed (stripCr s) = trimmed s := by
  rw [stripCr]
  split
  · next h =>
    have hs := List.dropLast_append_getLast? '\r' h
    nth_rewrite 2 [← hs]
    exact (trimmed_concat (by decide) _).symm
  · rfl

lemma setting_stripCr (s : Str) : setting (stripCr s) = setting s := by
  rw [setting, setting, trimmed_stripCr]

end Trimming

section Lines

variable {a b : Str}

/-- Text whose last line is ended. -/
def Ended (text : Str) : Prop := text = [] ∨ ∃ a, text = a ++ ['\n']

lemma Ended.append (ha : Ended a) (hb : Ended b) : Ended (a ++ b) := by
  rcases hb with rfl | ⟨b, rfl⟩
  · rwa [List.append_nil]
  · exact Or.inr ⟨a ++ b, (List.append_assoc _ _ _).symm⟩

lemma lines_ended (a : Str) : lines (a ++ ['\n']) = (a.splitOn '\n').map stripCr := by
  rw [lines, List.splitOn_append_cons_self]
  simp

lemma lines_append (h : Ended a) (b : Str) : lines (a ++ b) = lines a ++ lines b := by
  rcases h with rfl | ⟨a, rfl⟩
  · rfl
  · rw [lines_ended, List.append_assoc, List.singleton_append, lines, lines,
      List.splitOn_append_cons_self, List.dropLast_append_of_ne_nil (List.splitOn_ne_nil _ _),
      List.getLast?_append_of_ne_nil _ (List.splitOn_ne_nil _ _), List.map_append,
      List.append_assoc]

lemma settings_append (h : Ended a) (b : Str) : settings (a ++ b) = settings a ++ settings b := by
  rw [settings, lines_append h, List.filterMap_append, settings, settings]

lemma settings_line {l : Str} (h : '\n' ∉ l) : settings (l ++ ['\n']) = (setting l).toList := by
  rw [settings, lines_ended, List.splitOn_eq_singleton h, List.map_singleton,
    List.filterMap_cons, setting_stripCr]
  cases setting l <;> rfl

end Lines

section KeyLines

variable {key value : Str} {k : LayoutKey}

/-- A key that reads as itself in front of a ": ". -/
structure Names (key : Str) (k : LayoutKey) : Prop where
  known : layoutKey key = some k
  plain : ∀ c ∈ key, whiteSpace c = false ∧ c ≠ '=' ∧ c ≠ ':' ∧ c ≠ '#' ∧ c ≠ 'J' ∧ c ≠ '\n'
  ne_nil : key ≠ []

instance : Decidable (Names key k) :=
  decidable_of_iff (layoutKey key = some k ∧ (∀ c ∈ key, whiteSpace c = false ∧ c ≠ '=' ∧ c ≠ ':' ∧
      c ≠ '#' ∧ c ≠ 'J' ∧ c ≠ '\n') ∧ key ≠ [])
    ⟨fun h => ⟨h.1, h.2.1, h.2.2⟩, fun h => ⟨h.known, h.plain, h.ne_nil⟩⟩

lemma dropWhile_key {p : Char → Bool} (hp : ∀ c ∈ key, p c = false) (hne : key ≠ []) (s : Str) :
    (key ++ s).dropWhile p = key ++ s := by
  cases key with
  | nil => exact absurd rfl hne
  | cons c key =>
    rw [List.cons_append, List.dropWhile_cons_of_neg]
    simp [hp c List.mem_cons_self]

lemma Names.trimmed_key (h : Names key k) : trimmed key = key := by
  have hstart := dropWhile_key (fun c hc => (h.plain c hc).1) h.ne_nil []
  rw [List.append_nil] at hstart
  rw [trimmed, hstart]
  apply List.rdropWhile_eq_self_iff.mpr
  intro hne
  rw [(h.plain _ (List.getLast_mem hne)).1]
  exact Bool.false_ne_true

lemma Names.trimmed_line (h : Names key k) (value : Str) :
    trimmed (key ++ ':' :: ' ' :: value) =
      if trimmed value = [] then key ++ [':']
      else key ++ ':' :: ' ' :: value.rdropWhile whiteSpace := by
  have hend : (key ++ [':']).rdropWhile whiteSpace = key ++ [':'] :=
    List.rdropWhile_concat_neg _ _ _ (by decide)
  have hblank : trimmed value = [] ↔ value.rdropWhile whiteSpace = [] := by
    rw [trimmed_eq_nil, List.rdropWhile_eq_nil_iff]
  have hsplit : key ++ ':' :: ' ' :: value = (key ++ [':']) ++ ([' '] ++ value) := by simp
  rw [trimmed, dropWhile_key (fun c hc => (h.plain c hc).1) h.ne_nil, hsplit, rdropWhile_append,
    rdropWhile_append]
  by_cases hv : value.rdropWhile whiteSpace = []
  · have hspace : [' '].rdropWhile whiteSpace = [] := by decide
    rw [if_pos hv, if_pos (hblank.mpr hv), if_pos hspace, hend]
  · rw [if_neg hv, if_neg (mt hblank.mp hv), if_neg (by simp)]
    simp

lemma splitColon_key (hcolon : ':' ∉ key) (rest : Str) :
    splitColon (key ++ ':' :: ' ' :: rest) = some (key, rest) := by
  induction key with
  | nil => rfl
  | cons c key ih =>
    have hc : c ≠ ':' := fun h => hcolon (h ▸ List.mem_cons_self)
    have hih := ih fun h => hcolon (List.mem_cons_of_mem c h)
    rw [List.cons_append, splitColon, hih]
    · rfl
    · rintro rest' h -
      exact hc h

lemma splitColon_none (hcolon : ':' ∉ key) : splitColon (key ++ [':']) = none := by
  induction key with
  | nil => rfl
  | cons c key ih =>
    have hc : c ≠ ':' := fun h => hcolon (h ▸ List.mem_cons_self)
    rw [List.cons_append, splitColon, ih fun h => hcolon (List.mem_cons_of_mem c h)]
    · rfl
    · rintro rest' h -
      exact hc h

lemma layoutKey_colon (hcolon : ':' ∈ key) (hJ : key.head? ≠ some 'J') : layoutKey key = none := by
  have hknown : ∀ e ∈ KEYS, ':' ∉ e.1 := by decide
  have hfind : KEYS.find? (fun e => e.1 = key) = none := by
    apply List.find?_eq_none.mpr
    intro e he heq
    rw [← of_decide_eq_true heq] at hcolon
    exact hknown e he hcolon
  rw [layoutKey, hfind]
  cases key with
  | nil => rfl
  | cons c key =>
    have hc : c ≠ 'J' := fun h => hJ (congrArg some h)
    simp only [outputKey]
    split
    · next heq => exact absurd (List.cons.inj heq).1 hc
    · rfl

lemma mem_rdropWhile {c : Char} (hc : whiteSpace c = false) :
    c ∈ value.rdropWhile whiteSpace ↔ c ∈ value := by
  constructor
  · exact fun h => (List.rdropWhile_prefix _ _).subset h
  · intro h
    rw [← @List.rdropWhile_append_rtakeWhile _ whiteSpace value] at h
    rcases List.mem_append.mp h with h | h
    · exact h
    · have hws := List.mem_rtakeWhile_imp h
      rw [hc] at hws
      cases hws

/-- A line in front of whose value stands a key sets it to the value, trimmed, unless that is empty
or has an "=", when the line sets nothing. -/
theorem Names.setting_line (h : Names key k) (value : Str) :
    setting (key ++ ':' :: ' ' :: value) =
      if '=' ∈ value ∨ trimmed value = [] then none else some (k, trimmed value) := by
  have hno : ∀ c ∈ key, c ≠ '=' := fun c hc => (h.plain c hc).2.1
  have hcolon : ':' ∉ key := fun hc => (h.plain _ hc).2.2.1 rfl
  have hhead : ∀ s : Str, key ++ s ≠ [] ∧ (key ++ s).head? ≠ some '#' ∧
      (key ++ s).head? ≠ some 'J' := by
    intro s
    obtain ⟨c, t, rfl⟩ := List.exists_cons_of_ne_nil h.ne_nil
    obtain ⟨-, -, -, hhash, hJ, -⟩ := h.plain c List.mem_cons_self
    exact ⟨List.cons_ne_nil _ _, fun hc => hhash (Option.some.inj hc),
      fun hc => hJ (Option.some.inj hc)⟩
  rw [setting, h.trimmed_line]
  by_cases hblank : trimmed value = []
  · have heq : '=' ∉ value := by
      intro hmem
      have hws := trimmed_eq_nil.mp hblank '=' hmem
      revert hws
      decide
    have heq' : '=' ∉ key ++ [':'] := by
      intro hmem
      rcases List.mem_append.mp hmem with hk | hk
      · exact hno _ hk rfl
      · simp at hk
    simp [hblank, hhead, keyValue, heq', splitColon_none hcolon]
  · have hmem : '=' ∈ key ++ ':' :: ' ' :: value.rdropWhile whiteSpace ↔ '=' ∈ value := by
      rw [← @mem_rdropWhile value '=' (by decide)]
      simp only [List.mem_append, List.mem_cons]
      constructor
      · rintro (hk | hk | hk | hk)
        · exact absurd rfl (hno _ hk)
        · cases hk
        · cases hk
        · exact hk
      · exact fun hk => Or.inr (Or.inr (Or.inr hk))
    rw [if_neg hblank]
    simp only [hhead, or_self, if_false, keyValue, hmem]
    by_cases heq : '=' ∈ value
    · have htake : (key ++ ':' :: ' ' :: value.rdropWhile whiteSpace).takeWhile (· ≠ '=') =
          key ++ ':' :: ' ' :: (value.rdropWhile whiteSpace).takeWhile (· ≠ '=') := by
        rw [List.takeWhile_append_of_pos]
        · simp
        · intro c hc
          simpa using hno c hc
      have hunknown : layoutKey (trimmed
          (key ++ ':' :: ' ' :: (value.rdropWhile whiteSpace).takeWhile (· ≠ '='))) = none := by
        rw [h.trimmed_line]
        split
        · exact layoutKey_colon (by simp) (hhead _).2.2
        · exact layoutKey_colon (by simp) (hhead _).2.2
      simp only [heq, if_true, true_or, Option.bind_some, htake, hunknown, Option.map_none]
    · simp only [heq, if_false, hblank, or_self, splitColon_key hcolon, Option.bind_some,
        h.trimmed_key, h.known, Option.map_some, trimmed_rdropWhile]

end KeyLines

section Fields

/-- The values given to a key, first to last. -/
def valuesOf (key : LayoutKey) (es : List (LayoutKey × Str)) : List Str :=
  (es.filter fun e => e.1 = key).map Prod.snd

@[simp] lemma valuesOf_nil (key : LayoutKey) : valuesOf key [] = [] := rfl

@[simp] lemma valuesOf_append (key : LayoutKey) (es fs : List (LayoutKey × Str)) :
    valuesOf key (es ++ fs) = valuesOf key es ++ valuesOf key fs := by
  rw [valuesOf, List.filter_append, List.map_append, valuesOf, valuesOf]

@[simp] lemma valuesOf_cons (key k : LayoutKey) (value : Str) (es : List (LayoutKey × Str)) :
    valuesOf key ((k, value) :: es) =
      if k = key then value :: valuesOf key es else valuesOf key es := by
  rw [valuesOf, List.filter_cons]
  by_cases h : k = key
  · simp [h, valuesOf]
  · simp [h, valuesOf]

lemma foldl_last {α : Type} (f : Str → α) (a : α) (vs : List Str) :
    vs.foldl (fun _ v => f v) a = (vs.getLast?.map f).getD a := by
  induction vs using List.reverseRecOn with
  | nil => rfl
  | append_singleton vs v _ => simp

lemma foldl_lastSome {α : Type} (f : Str → Option α) (a : α) (vs : List Str) :
    vs.foldl (fun a v => (f v).getD a) a = (vs.filterMap f).getLast?.getD a := by
  induction vs using List.reverseRecOn with
  | nil => rfl
  | append_singleton vs v ih =>
    rw [List.foldl_append, List.filterMap_append, List.foldl_cons, List.foldl_nil, ih]
    cases hv : f v with
    | none => simp [hv]
    | some a' => simp [hv]

namespace LayoutConfig

lemma set_frame (config : LayoutConfig) (key : LayoutKey) (value : Str) :
    (key ≠ .panelWidth → (config.set (key, value)).panelWidth = config.panelWidth) ∧
    (key ≠ .panelHeight → (config.set (key, value)).panelHeight = config.panelHeight) ∧
    (key ≠ .mode → (config.set (key, value)).mode = config.mode) ∧
    (key ≠ .program → (config.set (key, value)).programBytes = config.programBytes) ∧
    (key ≠ .drive → (config.set (key, value)).driveBytes = config.driveBytes) ∧
    (key ≠ .rgbOrder → (config.set (key, value)).rgbOrder = config.rgbOrder) ∧
    (key ≠ .clkDiv → (config.set (key, value)).clkDiv = config.clkDiv) ∧
    (key ≠ .writeThrottle → (config.set (key, value)).writeThrottle = config.writeThrottle) ∧
    (key ≠ .groupOrigins → (config.set (key, value)).groupOrigins = config.groupOrigins) := by
  cases key with
  | grid =>
    simp only [set]
    split <;> simp
  | _ =>
    refine ⟨?_, ?_, ?_, ?_, ?_, ?_, ?_, ?_, ?_⟩ <;> intro hkey <;>
      first | exact absurd rfl hkey | rfl

variable (config : LayoutConfig) (es : List (LayoutKey × Str))

lemma foldl_field {α : Type} {get : LayoutConfig → α} {key : LayoutKey} {put : α → Str → α}
    (hput : ∀ c v, get (set c (key, v)) = put (get c) v)
    (hframe : ∀ c k v, k ≠ key → get (set c (k, v)) = get c) :
    get (es.foldl set config) = (valuesOf key es).foldl put (get config) := by
  induction es generalizing config with
  | nil => rfl
  | cons e es ih =>
    obtain ⟨k, v⟩ := e
    rw [List.foldl_cons, ih, valuesOf_cons]
    by_cases hk : k = key
    · subst hk
      rw [if_pos rfl, hput, List.foldl_cons]
    · rw [if_neg hk, hframe config k v hk]

lemma foldl_mode : (es.foldl set config).mode =
    ((valuesOf .mode es).getLast?.map fun v =>
      if eqIgnoreAsciiCase v "program".toList then DisplayMode.program else .stream).getD
        config.mode := by
  rw [← foldl_last]
  exact foldl_field config es (fun _ _ => rfl) fun c k v h => (set_frame c k v).2.2.1 h

lemma foldl_program : (es.foldl set config).programBytes =
    ((valuesOf .program es).getLast?.map fun v => (utf8 v).take MAX_PROGRAM_NAME).getD
      config.programBytes := by
  rw [← foldl_last]
  exact foldl_field config es (fun _ _ => rfl) fun c k v h => (set_frame c k v).2.2.2.1 h

lemma foldl_drive : (es.foldl set config).driveBytes =
    ((valuesOf .drive es).getLast?.map fun v => (utf8 v).take MAX_PROGRAM_NAME).getD
      config.driveBytes := by
  rw [← foldl_last]
  exact foldl_field config es (fun _ _ => rfl) fun c k v h => (set_frame c k v).2.2.2.2.1 h

lemma foldl_rgbOrder : (es.foldl set config).rgbOrder =
    ((valuesOf .rgbOrder es).getLast?.map fun v => BitVec.ofNat 8 (rgbIndex v)).getD
      config.rgbOrder := by
  rw [← foldl_last]
  exact foldl_field config es (fun _ _ => rfl) fun c k v h => (set_frame c k v).2.2.2.2.2.1 h

lemma foldl_groupOrigins : (es.foldl set config).groupOrigins =
    ((valuesOf .groupOrigins es).getLast?.map origins).getD config.groupOrigins := by
  rw [← foldl_last]
  exact foldl_field config es (fun _ _ => rfl) fun c k v h =>
    (set_frame c k v).2.2.2.2.2.2.2.2 h

lemma foldl_panelWidth : (es.foldl set config).panelWidth =
    ((valuesOf .panelWidth es).filterMap parseU16).getLast?.getD config.panelWidth := by
  rw [← foldl_lastSome]
  exact foldl_field config es (fun _ _ => rfl) fun c k v h => (set_frame c k v).1 h

lemma foldl_panelHeight : (es.foldl set config).panelHeight =
    ((valuesOf .panelHeight es).filterMap parseU16).getLast?.getD config.panelHeight := by
  rw [← foldl_lastSome]
  exact foldl_field config es (fun _ _ => rfl) fun c k v h => (set_frame c k v).2.1 h

lemma foldl_clkDiv : (es.foldl set config).clkDiv =
    ((valuesOf .clkDiv es).filterMap (parseUpTo 255)).getLast?.getD config.clkDiv := by
  rw [← foldl_lastSome]
  exact foldl_field config es (fun _ _ => rfl) fun c k v h => (set_frame c k v).2.2.2.2.2.2.1 h

lemma foldl_writeThrottle : (es.foldl set config).writeThrottle =
    ((valuesOf .writeThrottle es).filterMap (parseUpTo 15)).getLast?.getD
      config.writeThrottle := by
  rw [← foldl_lastSome]
  exact foldl_field config es (fun _ _ => rfl) fun c k v h => (set_frame c k v).2.2.2.2.2.2.2.1 h

end LayoutConfig

end Fields

end Ledwall.Layout
