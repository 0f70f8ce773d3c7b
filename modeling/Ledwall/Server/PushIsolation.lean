import Ledwall.Library.Traversals
import Ledwall.Server.PushPasses

/-! What a pass owes each card, and when a fault of one feed is kept from the other cards. -/

namespace Ledwall.Server.Pushing

open Ledwall.Values
open Ledwall.Library.Outcomes Ledwall.Library.Traversals
open Ledwall.Server.Live (Json Walks dig_spec found segments)

variable {Obj : Type} (py : Python Obj) (t : Tick Obj)

section Laws

/-- The walker can take the path in its topic's document. -/
def Leads (topic path : Str) : Prop := Walks py.digits ((t.live topic).getD .null) (segments path)

/-- What the path names there. -/
def named (topic path : Str) : Json := found py.digits ((t.live topic).getD .null) (segments path)

/-- A value that its own path, and nothing else, decides. -/
inductive BusValue : Str → Str → Prop
  | mapped {m : Str × Str × Str} {s : Str} (hm : m ∈ MAPPING) (hleads : Leads py t m.2.1 m.2.2)
      (hsome : named py t m.2.1 m.2.2 ≠ .null) (htext : py.text (named py t m.2.1 m.2.2) = .ok s) :
      BusValue m.1 s
  | history {s : Str} (hleads : Leads py t "home.status".toList "power.history".toList)
      (henc : encodeSeries (named py t "home.status".toList "power.history".toList) = .ok s)
      (hs : s ≠ []) : BusValue "hist".toList s

variable (v : Visit)

/-- A card that answers, and answers that it is in a program's mode. -/
def Visit.Runs : Prop := programMode v.reply = .ok true

def Visit.program : Str := v.card.program.getD []

/-- The pages that the providers of its program returned. -/
def returned : List (Page Obj) :=
  (serving t v.program).flatMap fun p => (p.boardPages t.live).toOption.getD []

/-- Every path leads somewhere, to a value with a text, and the history is one that can be packed. -/
structure BusReads : Prop where
  leads : ∀ m ∈ MAPPING, Leads py t m.2.1 m.2.2
  texts : ∀ m ∈ MAPPING, named py t m.2.1 m.2.2 ≠ .null → ∃ s, py.text (named py t m.2.1 m.2.2) = .ok s
  history : Leads py t "home.status".toList "power.history".toList
  encodes : ∃ s, encodeSeries (named py t "home.status".toList "power.history".toList) = .ok s

def Answered : Prop := ∀ p ∈ serving t v.program, ∃ pages, p.boardPages t.live = .ok pages

variable [DecidableEq Obj]

def Pushed (values : List (Obj × Obj)) : Prop := ∃ p ∈ (pass py t).1, p.card = v.card ∧ p.values = values

/-- The current page of its providers, if there is one and it can be written; where none returned
pages, every bus value there is. -/
def Served : Prop :=
  match pick t (returned t v) with
  | some page => ∀ d s, page = .ok d → py.dumps (withClock py t d) = .ok s →
      Pushed py t v (withClock py t d)
  | none => ∃ values, Pushed py t v values ∧
      ∀ key s, BusValue py t key s → (py.ofText key, py.ofText s) ∈ values

/-- Whatever is wrong with a topic, a provider or a card, the others are served. -/
def Isolated : Prop := ∀ v ∈ t.enabled, v.Runs → Served py t v

def Presentable (page : Page Obj) : Prop := ∃ d s, page = .ok d ∧ py.dumps (withClock py t d) = .ok s

/-- There is something that the card can be sent. -/
def Owed : Prop := ∀ page, pick t (returned t v) = some page → Presentable py t page

/-- A card that the loop comes past. -/
structure Passes : Prop where
  mode : ∃ b, programMode v.reply = .ok b
  answered : v.Runs → Answered t v
  page : v.Runs → Owed py t v
  post : v.Runs → ∀ e, v.post ≠ .broken e

/-- Wherever a card is owed something, the bus can be read, the providers of its program return, and the
loop comes past the cards ahead of it. -/
def Unbroken : Prop :=
  ∀ v ∈ t.enabled, v.Runs → Owed py t v → BusReads py t ∧ Answered t v ∧
    ∃ pre post, t.enabled = pre ++ v :: post ∧ ∀ u ∈ pre, Passes py t u

end Laws

section Bus

variable {py t} {topic path key s : Str} {x : Json} {m : Str × Str × Str} {es rest bus : List (Str × Str)}

lemma digAt_eq_ok : digAt py t topic path = .ok x ↔ Leads py t topic path ∧ named py t topic path = x := by
  rw [digAt]
  rcases dig_spec py.digits (segments path) ((t.live topic).getD .null) with ⟨hw, hd⟩ | ⟨hw, e, hd⟩
  · rw [hd]
    constructor
    · intro h
      exact ⟨hw, Except.ok.inj h⟩
    · rintro ⟨-, rfl⟩
      rfl
  · rw [hd]
    exact ⟨nofun, fun h => absurd h.1 hw⟩

lemma entry_eq_ok : entry py t m = .ok es ↔ Leads py t m.2.1 m.2.2 ∧
    (named py t m.2.1 m.2.2 = .null ∧ es = [] ∨ named py t m.2.1 m.2.2 ≠ .null ∧
      ∃ s, py.text (named py t m.2.1 m.2.2) = .ok s ∧ es = [(m.1, s)]) := by
  rw [entry, bind_eq_ok]
  simp only [digAt_eq_ok]
  have htext {x : Json} : (py.text x >>= fun s => .ok [(m.1, s)]) = .ok es ↔
      ∃ s, py.text x = .ok s ∧ es = [(m.1, s)] := by
    rw [bind_eq_ok]
    simp only [Except.ok.injEq, eq_comm]
  constructor
  · rintro ⟨x, ⟨hleads, rfl⟩, h⟩
    refine ⟨hleads, ?_⟩
    split at h
    · next hnull => exact .inl ⟨hnull, (Except.ok.inj h).symm⟩
    · next hsome => exact .inr ⟨hsome, htext.mp h⟩
  · rintro ⟨hleads, ⟨hnull, rfl⟩ | ⟨hsome, h⟩⟩
    · refine ⟨_, ⟨hleads, rfl⟩, ?_⟩
      rw [hnull]
    · refine ⟨_, ⟨hleads, rfl⟩, ?_⟩
      split
      · next hnull => exact absurd hnull hsome
      · exact htext.mpr h

/-- What `derived` makes of the history's text. -/
def withHistory (now : Clock) (enc : Str) : List (Str × Str) :=
  [("hhmm".toList, now.hhmm), ("date".toList, now.date),
      ("page".toList, decimal (now.timestamp / PAGE_SECONDS % PAGES).toNat)] ++
    if enc = [] then [] else [("hist".toList, enc)]

lemma derived_eq_ok : derived py t = .ok rest ↔
    Leads py t "home.status".toList "power.history".toList ∧
      ∃ enc, encodeSeries (named py t "home.status".toList "power.history".toList) = .ok enc ∧
        rest = withHistory t.now enc := by
  rw [derived, bind_eq_ok]
  simp only [digAt_eq_ok, bind_eq_ok, Except.ok.injEq]
  constructor
  · rintro ⟨_, ⟨hleads, rfl⟩, enc, henc, rfl⟩
    exact ⟨hleads, enc, henc, rfl⟩
  · rintro ⟨hleads, enc, henc, rfl⟩
    exact ⟨_, ⟨hleads, rfl⟩, enc, henc, rfl⟩

lemma collect_eq_ok : collect py t = .ok bus ↔ ∃ out rest, MAPPING.mapM (entry py t) = .ok out ∧
    derived py t = .ok rest ∧ bus = out.flatten ++ rest := by
  rw [collect, bind_eq_ok]
  simp only [bind_eq_ok, Except.ok.injEq]
  constructor
  · rintro ⟨out, hout, rest, hrest, rfl⟩
    exact ⟨out, rest, hout, hrest, rfl⟩
  · rintro ⟨out, rest, hout, hrest, rfl⟩
    exact ⟨out, hout, rest, hrest, rfl⟩

theorem collect_returns_iff : (∃ bus, collect py t = .ok bus) ↔ BusReads py t := by
  have hentry (m : Str × Str × Str) : (∃ es, entry py t m = .ok es) ↔ Leads py t m.2.1 m.2.2 ∧
      (named py t m.2.1 m.2.2 ≠ .null → ∃ s, py.text (named py t m.2.1 m.2.2) = .ok s) := by
    simp only [entry_eq_ok]
    constructor
    · rintro ⟨es, hleads, ⟨hnull, -⟩ | ⟨-, s, hs, -⟩⟩
      · exact ⟨hleads, fun h => absurd hnull h⟩
      · exact ⟨hleads, fun _ => ⟨s, hs⟩⟩
    · rintro ⟨hleads, htext⟩
      by_cases hnull : named py t m.2.1 m.2.2 = .null
      · exact ⟨[], hleads, .inl ⟨hnull, rfl⟩⟩
      · obtain ⟨s, hs⟩ := htext hnull
        exact ⟨_, hleads, .inr ⟨hnull, s, hs, rfl⟩⟩
  constructor
  · rintro ⟨bus, hbus⟩
    obtain ⟨out, rest, hout, hrest, -⟩ := collect_eq_ok.mp hbus
    obtain ⟨hleads, enc, henc, -⟩ := derived_eq_ok.mp hrest
    have hall := exists_mapM_iff.mp ⟨out, hout⟩
    exact ⟨fun m hm => ((hentry m).mp (hall m hm)).1, fun m hm => ((hentry m).mp (hall m hm)).2, hleads,
      enc, henc⟩
  · rintro ⟨hleads, htexts, hhistory, enc, henc⟩
    obtain ⟨out, hout⟩ := exists_mapM_iff.mpr fun m hm => (hentry m).mpr ⟨hleads m hm, htexts m hm⟩
    exact ⟨_, collect_eq_ok.mpr ⟨out, _, hout, derived_eq_ok.mpr ⟨hhistory, enc, henc, rfl⟩, rfl⟩⟩

/-- No key is lost: what is collected holds every value there is. -/
theorem collect_has (h : collect py t = .ok bus) (hv : BusValue py t key s) : (key, s) ∈ bus := by
  obtain ⟨out, rest, hout, hrest, rfl⟩ := collect_eq_ok.mp h
  cases hv with
  | @mapped m s hm hleads hsome htext =>
    obtain ⟨es, hes, hentry⟩ : ∃ es ∈ out, entry py t m = .ok es := by
      have hall := mapM_returns_iff.mp hout
      obtain ⟨i, hi, rfl⟩ := List.getElem_of_mem hm
      have hi' : i < out.length := hall.length_eq ▸ hi
      exact ⟨out[i], List.getElem_mem hi', (List.forall₂_iff_get.mp hall).2 i hi hi'⟩
    obtain ⟨-, ⟨hnull, -⟩ | ⟨-, s', hs', rfl⟩⟩ := entry_eq_ok.mp hentry
    · exact absurd hnull hsome
    · obtain rfl := Except.ok.inj (htext.symm.trans hs')
      exact List.mem_append_left _ (List.mem_flatten.mpr ⟨_, hes, List.mem_singleton_self _⟩)
  | history hleads henc hs =>
    obtain ⟨-, enc, henc', rfl⟩ := derived_eq_ok.mp hrest
    obtain rfl := Except.ok.inj (henc.symm.trans henc')
    apply List.mem_append_right
    rw [withHistory, if_neg hs]
    exact List.mem_append_right _ (List.mem_singleton_self _)

lemma collect_ne_nil (h : collect py t = .ok bus) : bus ≠ [] := by
  obtain ⟨out, rest, -, hrest, rfl⟩ := collect_eq_ok.mp h
  obtain ⟨-, enc, -, rfl⟩ := derived_eq_ok.mp hrest
  rw [withHistory]
  simp

end Bus

section Turns

variable {py t} {v u : Visit} {bus : List (Str × Str)} {values : List (Obj × Obj)} {x : Sent Obj}

lemma push_fault : (push py v values).2 = none ↔
    (∃ s, py.dumps values = .ok s) ∧ ∀ e, v.post ≠ .broken e := by
  rw [push]
  cases py.dumps values with
  | error e => simp
  | ok s => cases v.post <;> simp

lemma push_sent (s : Str) (h : py.dumps values = .ok s) : (push py v values).1 = [⟨v.card, values, s⟩] := by
  rw [push, h]

lemma mem_push (h : x ∈ (push py v values).1) : x.card = v.card ∧ x.values = values ∧
    ∃ s, py.dumps values = .ok s := by
  rw [push] at h
  cases hd : py.dumps values with
  | error e =>
    rw [hd] at h
    cases h
  | ok s =>
    rw [hd] at h
    obtain rfl := List.mem_singleton.mp h
    exact ⟨rfl, rfl, s, rfl⟩

lemma orBus_some {d : List (Obj × Obj)} (h : d ≠ []) : orBus py (some d) bus = d := by
  cases d with
  | nil => exact absurd rfl h
  | cons p d => rfl

variable [DecidableEq Obj]

lemma withClock_ne_nil (py : Python Obj) (t : Tick Obj) (d : List (Obj × Obj)) : withClock py t d ≠ [] := by
  rw [withClock, setdefault]
  split
  · rintro rfl
    simp_all
  · simp

lemma providerValues_answered (py : Python Obj) (h : Answered t v) : providerValues py t v.program =
    match pick t (returned t v) with
    | none => .ok none
    | some page => page.map fun d => some (withClock py t d) := by
  have hmapM : (serving t v.program).mapM (fun p => p.boardPages t.live) =
      .ok ((serving t v.program).map fun p => (p.boardPages t.live).toOption.getD []) := by
    obtain ⟨ys, hys⟩ := exists_mapM_iff.mpr h
    rw [hys, eq_map_of_mapM (g := fun p => (p.boardPages t.live).toOption.getD []) ?_ hys]
    intro p _ y hy
    rw [hy]
    rfl
  rw [providerValues, hmapM, returned, List.flatMap_def]
  change (match pick t _ with
    | none => _
    | some page => _) = _
  cases pick t ((serving t v.program).map fun p => (p.boardPages t.live).toOption.getD []).flatten with
  | none => rfl
  | some page => cases page <;> rfl

lemma providerValues_unanswered (py : Python Obj) (h : ¬ Answered t v) : ∃ e, providerValues py t v.program = .error e := by
  cases hmapM : (serving t v.program).mapM fun p => p.boardPages t.live with
  | ok ys => exact absurd (exists_mapM_iff.mp ⟨ys, hmapM⟩) h
  | error e =>
    refine ⟨e, ?_⟩
    rw [providerValues, hmapM]
    rfl

lemma turn_answered (hruns : v.Runs) (h : Answered t v) (hbus : bus ≠ []) : turn py t bus v =
    match pick t (returned t v) with
    | none => push py v (bus.map fun p => (py.ofText p.1, py.ofText p.2))
    | some (.error e) => ([], some e)
    | some (.ok d) => push py v (withClock py t d) := by
  have hvalues : bus.map (fun p => (py.ofText p.1, py.ofText p.2)) ≠ [] := by simpa using hbus
  rw [Visit.Runs] at hruns
  have hprogram := providerValues_answered py h
  rw [Visit.program] at hprogram
  rw [turn, hruns]
  dsimp only
  rw [hprogram]
  rcases pick t (returned t v) with _ | e | d
  · obtain ⟨p, d, hcons⟩ := List.exists_cons_of_ne_nil hvalues
    dsimp only [orBus]
    rw [hcons]
  · rfl
  · obtain ⟨p, d', hcons⟩ := List.exists_cons_of_ne_nil (withClock_ne_nil py t d)
    dsimp only [Except.map]
    rw [orBus_some (withClock_ne_nil py t d), hcons]

end Turns

section Loop

variable [DecidableEq Obj] {py t} {v u : Visit} {bus : List (Str × Str)} {values : List (Obj × Obj)}
  {x : Sent Obj}

lemma turn_card (h : x ∈ (turn py t bus v).1) : x.card = v.card := by
  rw [turn] at h
  split at h
  · cases h
  · cases h
  · split at h
    · cases h
    · split at h
      · cases h
      · exact (mem_push h).1

lemma turn_fault_iff (hbus : bus ≠ []) : (turn py t bus v).2 = none ↔ Passes py t v := by
  have hmode (hnone : (turn py t bus v).2 = none) : ∃ b, programMode v.reply = .ok b := by
    cases hm : programMode v.reply with
    | error e =>
      rw [turn, hm] at hnone
      cases hnone
    | ok b => exact ⟨b, rfl⟩
  by_cases hruns : v.Runs
  · have hpasses : Passes py t v ↔
        Answered t v ∧ Owed py t v ∧ ∀ e, v.post ≠ .broken e :=
      ⟨fun h => ⟨h.answered hruns, h.page hruns, h.post hruns⟩,
        fun h => ⟨⟨true, hruns⟩, fun _ => h.1, fun _ => h.2.1, fun _ => h.2.2⟩⟩
    rw [hpasses]
    by_cases hans : Answered t v
    · rw [turn_answered hruns hans hbus, Owed]
      rcases pick t (returned t v) with _ | e | d
      · dsimp only
        rw [push_fault]
        exact ⟨fun h => ⟨hans, nofun, h.2⟩, fun h => ⟨py.dumps_text bus, h.2.2⟩⟩
      · refine ⟨nofun, fun h => ?_⟩
        obtain ⟨d, s, hd, -⟩ := h.2.1 _ rfl
        cases hd
      · dsimp only
        rw [push_fault]
        constructor
        · rintro ⟨⟨s, hs⟩, hpost⟩
          refine ⟨hans, ?_, hpost⟩
          rintro page ⟨⟩
          exact ⟨d, s, rfl, hs⟩
        · rintro ⟨-, howed, hpost⟩
          obtain ⟨d', s, hd, hs⟩ := howed _ rfl
          cases hd
          exact ⟨⟨s, hs⟩, hpost⟩
    · obtain ⟨e, he⟩ := providerValues_unanswered py hans
      rw [Visit.Runs] at hruns
      rw [Visit.program] at he
      rw [turn, hruns]
      dsimp only
      rw [he]
      exact ⟨nofun, fun h => absurd h.1 hans⟩
  · constructor
    · intro hnone
      exact ⟨hmode hnone, fun h => absurd h hruns, fun h => absurd h hruns, fun h => absurd h hruns⟩
    · rintro ⟨⟨b, hb⟩, -⟩
      cases b with
      | true => exact absurd hb hruns
      | false => rw [turn, hb]

lemma pushed_iff (hv : v ∈ t.enabled) : Pushed py t v values ↔
    ∃ bus, collect py t = .ok bus ∧ (∃ pre post, t.enabled = pre ++ v :: post ∧ ∀ u ∈ pre, Passes py t u) ∧
      ∃ x ∈ (turn py t bus v).1, x.values = values := by
  have hcard {u : Visit} (hu : u ∈ t.enabled) (heq : u.card = v.card) : u = v :=
    List.inj_on_of_nodup_map t.ids (List.mem_of_mem_filter hu) (List.mem_of_mem_filter hv)
      (congrArg Card.id heq)
  rw [Pushed, pass]
  cases hcollect : collect py t with
  | error e => exact ⟨nofun, nofun⟩
  | ok bus =>
    have hbus := collect_ne_nil hcollect
    constructor
    · rintro ⟨x, hx, hxcard, rfl⟩
      obtain ⟨pre, u, post, hsplit, hpre, hxu⟩ := mem_sweep.mp hx
      obtain rfl : u = v := hcard (hsplit ▸ by simp) ((turn_card hxu).symm.trans hxcard)
      exact ⟨bus, rfl, ⟨pre, post, hsplit, fun w hw => (turn_fault_iff hbus).mp (hpre w hw)⟩, x, hxu, rfl⟩
    · rintro ⟨bus', hbus', ⟨pre, post, hsplit, hpre⟩, x, hx, rfl⟩
      obtain rfl := Except.ok.inj hbus'
      refine ⟨x, mem_sweep.mpr ⟨pre, v, post, hsplit, ?_, hx⟩, turn_card hx, rfl⟩
      exact fun w hw => (turn_fault_iff hbus).mpr (hpre w hw)

lemma served_iff (hv : v ∈ t.enabled) (hruns : v.Runs) (howed : Owed py t v) : Served py t v ↔
    BusReads py t ∧ Answered t v ∧
      ∃ pre post, t.enabled = pre ++ v :: post ∧ ∀ u ∈ pre, Passes py t u := by
  have hpushed {values : List (Obj × Obj)} (h : Pushed py t v values) : BusReads py t ∧ Answered t v ∧
      ∃ pre post, t.enabled = pre ++ v :: post ∧ ∀ u ∈ pre, Passes py t u := by
    obtain ⟨bus, hbus, hsplit, x, hx, -⟩ := (pushed_iff hv).mp h
    refine ⟨collect_returns_iff.mp ⟨bus, hbus⟩, ?_, hsplit⟩
    by_contra hans
    obtain ⟨e, he⟩ := providerValues_unanswered py hans
    rw [Visit.Runs] at hruns
    rw [Visit.program] at he
    rw [turn, hruns] at hx
    dsimp only at hx
    rw [he] at hx
    cases hx
  have hsent (h : BusReads py t ∧ Answered t v ∧
      ∃ pre post, t.enabled = pre ++ v :: post ∧ ∀ u ∈ pre, Passes py t u) :
      ∃ bus, collect py t = .ok bus ∧ ∀ values, (∃ x ∈ (turn py t bus v).1, x.values = values) →
        Pushed py t v values := by
    obtain ⟨bus, hbus⟩ := collect_returns_iff.mpr h.1
    exact ⟨bus, hbus, fun values hx => (pushed_iff hv).mpr ⟨bus, hbus, h.2.2, hx⟩⟩
  rw [Served]
  rw [Owed] at howed
  cases hpick : pick t (returned t v) with
  | some page =>
    obtain ⟨d, s, rfl, hs⟩ := howed page hpick
    constructor
    · intro h
      exact hpushed (h d s rfl hs)
    · rintro h d' s' hd -
      cases hd
      obtain ⟨bus, hbus, hx⟩ := hsent h
      apply hx
      rw [turn_answered hruns h.2.1 (collect_ne_nil hbus), hpick]
      dsimp only
      rw [push_sent s hs]
      exact ⟨_, List.mem_singleton_self _, rfl⟩
  | none =>
    constructor
    · rintro ⟨values, h, -⟩
      exact hpushed h
    · intro h
      obtain ⟨bus, hbus, hx⟩ := hsent h
      obtain ⟨s, hs⟩ := py.dumps_text bus
      refine ⟨bus.map fun p => (py.ofText p.1, py.ofText p.2), hx _ ?_, ?_⟩
      · rw [turn_answered hruns h.2.1 (collect_ne_nil hbus), hpick]
        dsimp only
        rw [push_sent s hs]
        exact ⟨_, List.mem_singleton_self _, rfl⟩
      · intro key s hvalue
        exact List.mem_map.mpr ⟨(key, s), collect_has hbus hvalue, rfl⟩

end Loop

/-- In a pass every card is served, whatever is wrong with the others, if and only if nothing that is
wrong comes before a card that is owed something. -/
theorem isolated_iff [DecidableEq Obj] : Isolated py t ↔ Unbroken py t := by
  constructor
  · intro h v hv hruns howed
    exact (served_iff hv hruns howed).mp (h v hv hruns)
  · intro h v hv hruns
    by_cases howed : Owed py t v
    · exact (served_iff hv hruns howed).mpr (h v hv hruns howed)
    · -- its page is none that could be written
      rw [Served]
      split
      · next page hpick =>
        intro d s hd hs
        exfalso
        apply howed
        intro page' hpick'
        obtain rfl := Option.some.inj (hpick.symm.trans hpick')
        exact ⟨d, s, hd, hs⟩
      · next hpick =>
        exfalso
        apply howed
        intro page hpick'
        rw [hpick] at hpick'
        cases hpick'

section Malformed

def plain : Python Str where
  digits := ⟨Char.isDigit, fun c => if c.isDigit then some (c.toNat - 48) else none⟩
  text _ := .ok []
  ofText := id
  dumps _ := .ok []
  dumps_text _ := ⟨[], rfl⟩

/-- A board on the wall, in a program's mode. -/
def board : Visit where
  card := ⟨1, "192.168.1.70".toList, some "railboard".toList, true⟩
  reply := .document (.dict [("source".toList, .str "program (on-panel)".toList)])
  post := .accepted

/-- A list where the status should be, and a provider that has a page for the board. -/
def listTopic : Tick Str where
  live topic := if topic = "home.status".toList then some (.list []) else none
  now := ⟨0, "17:08".toList, "Sat 19 Sep".toList⟩
  providers := [⟨fun program => program = "railboard".toList,
    fun _ => .ok [.ok [("hdr".toList, "Harlem".toList)]]⟩]
  visits := [board]
  ids := List.nodup_singleton _

theorem listTopic_starves : ¬ ∀ (py : Python Str) (t : Tick Str), Isolated py t := by
  intro h
  have hserved := h plain listTopic board (List.mem_filter.mpr ⟨List.mem_singleton_self _, rfl⟩) rfl
  have hnothing : (pass plain listTopic).1 = [] := by rfl
  have hpage : pick listTopic (returned listTopic board) =
      some (.ok [("hdr".toList, "Harlem".toList)]) := by rfl
  rw [Served, hpage] at hserved
  obtain ⟨x, hx, -⟩ := hserved _ [] rfl rfl
  rw [hnothing] at hx
  cases hx

end Malformed

end Ledwall.Server.Pushing
