import Ledwall.Library.Runs
import Ledwall.Server.ProgramFeeds
import Ledwall.Values.SharedTable

/-! What a card's table shows after any history of programs and pushes. The table is never emptied, so
it holds the keys of every push since the card booted. -/

namespace Ledwall.Server.Feeds

open Ledwall.Library.Runs Ledwall.Wire Ledwall.Values Ledwall.Server.Fleet

/-- Nothing in it that JSON has to escape for the sake of its own syntax. -/
def Unescaped (s : Str) : Prop := '"' ∉ s ∧ '\\' ∉ s

instance (s : Str) : Decidable (Unescaped s) := inferInstanceAs (Decidable (_ ∧ _))

/-- A dictionary within the limits of the table. -/
def Limits (d : Dict) : Prop :=
  d.items.length ≤ MAX_VALUES ∧ ∀ p ∈ d.items, (Unescaped p.1 ∧ Unescaped p.2) ∧
    (1 ≤ (utf8 p.1).length ∧ (utf8 p.1).length ≤ KEY_LEN) ∧ (utf8 p.2).length ≤ VAL_LEN

instance (d : Dict) : Decidable (Limits d) := inferInstanceAs (Decidable (_ ∧ _))

namespace Site

variable (host : Host) (cid : ℤ) (s : Site) (e : Event)

structure Booted : Prop where
  table : s.table = {}
  sent : s.sent = []

def sentKeys : List (List Byte) := s.sent.map fun x => utf8 x.2

/-- A key that the feed of the current program has not sent is shown as absent. -/
def NothingLeft : Prop :=
  ∀ k : List Byte, (∀ x ∈ s.sent, x.1 = s.program cid → utf8 x.2 ≠ k) → s.table.text k = ascii "-"

/-- The push shows on the card, and nothing of other programs does. -/
def TakesEffect : Prop :=
  ∀ d ∈ s.feed cid e, (∀ p ∈ d.items, (s.step host cid e).table.text (utf8 p.1) = utf8 p.2) ∧
    (s.step host cid e).NothingLeft cid

def Pushable : Prop := ∀ d ∈ s.feed cid e, Limits d

/-- The push is printable ASCII without empty values, in a request that fits the card's buffer; the
keys sent since boot fit in the table, and each of them is one that the current program's feed sends. -/
def Fits : Prop :=
  match e with
  | .tick k => ∀ d ∈ s.feed cid e, (k.request d).length ≤ MAX_REQUEST ∧
    (∀ p ∈ d.items, Plain p.1 ∧ Plain p.2) ∧
    (s.sentKeys ++ d.items.map fun p => utf8 p.1).toFinset.card ≤ MAX_VALUES ∧
    ∀ x ∈ s.sent, (s.program cid, x.2) ∈ s.sent ∨ x.2 ∈ d.items.map Prod.fst
  | _ => True

/-- No program is left for one whose feed has not sent all the keys in the table. -/
def Shared : Prop :=
  s.feed cid e = none → ∀ x ∈ s.sent, ((s.step host cid e).program cid, x.2) ∈ s.sent

/-- The table has the keys sent since boot. -/
structure Tracks : Prop where
  distinct : s.table.keys.Nodup
  mem : ∀ k, k ∈ s.table.keys ↔ k ∈ s.sentKeys

variable {host cid s e}

lemma Booted.tracks (h : s.Booted) : s.Tracks := by
  constructor
  · rw [h.table]
    exact List.nodup_nil
  · rw [sentKeys, h.table, h.sent]
    exact fun k => Iff.rfl

variable (host) in
lemma step_of_feed_none (h : s.feed cid e = none) :
    (s.step host cid e).table = s.table ∧ (s.step host cid e).sent = s.sent := by
  cases e with
  | programSet body on => exact ⟨rfl, rfl⟩
  | call c reached =>
    rw [step, afterCall]
    split
    · exact ⟨rfl, rfl⟩
    split
    · exact ⟨rfl, rfl⟩
    · exact ⟨rfl, rfl⟩
  | tick k =>
    rw [step, h]
    exact ⟨rfl, rfl⟩

section Push

variable {k : Tick} {d : Dict}

lemma step_of_feed (h : s.feed cid (.tick k) = some d) :
    s.step host cid (.tick k) = s.push cid k d := by
  rw [step, h]

@[simp] lemma push_program : (s.push cid k d).program cid = s.program cid := rfl

lemma push_table (hfits : (k.request d).length ≤ MAX_REQUEST)
    (hplain : ∀ p ∈ d.items, Plain p.1 ∧ Plain p.2) :
    (s.push cid k d).table = storeAll k.timeMs s.table d.items := by
  have honto : pushOnto s.table (k.segments (k.request d)) k.timeMs = _ :=
    pushOnto_eq s.table k.host_line k.version_line hfits (k.flatten _)
  rw [push, honto, Option.getD_some, finish_body s.table hplain]

/-- The keys sent so far and those of the push. -/
def union (s : Site) (d : Dict) : Finset (List Byte) :=
  (s.sentKeys ++ d.items.map fun p => utf8 p.1).toFinset

lemma Tracks.within (h : s.Tracks) : s.table.Within (s.union d) := by
  refine ⟨h.distinct, ?_⟩
  intro k hk
  exact List.mem_toFinset.mpr (List.mem_append_left _ ((h.mem k).mp hk))

lemma room_of_fits (hd : Limits d) (hplain : ∀ p ∈ d.items, Plain p.1 ∧ Plain p.2)
    (hcard : (s.union d).card ≤ MAX_VALUES) : Room (s.union d) d.items where
  card := hcard
  mem _ hp := List.mem_toFinset.mpr (List.mem_append_right _ (List.mem_map_of_mem hp))
  key p hp := ⟨(hplain p hp).1.ne_nil, (hd.2 p hp).2.1.2⟩
  val p hp := ⟨(hplain p hp).2.ne_nil, (hd.2 p hp).2.2⟩

lemma sentKeys_push : (s.push cid k d).sentKeys = s.sentKeys ++ d.items.map fun p => utf8 p.1 := by
  rw [sentKeys, push, List.map_append, List.map_map]
  rfl

end Push

lemma Tracks.push {k : Tick} {d : Dict} (h : s.Tracks) (hfeed : s.feed cid (.tick k) = some d)
    (hd : Limits d) (hfits : s.Fits cid (.tick k)) :
    (s.push cid k d).Tracks ∧ ∀ p ∈ d.items, (s.push cid k d).table.text (utf8 p.1) = utf8 p.2 := by
  obtain ⟨hlen, hplain, hcard, -⟩ := hfits d hfeed
  have htable : (s.push cid k d).table = _ := push_table hlen hplain
  have hroom := room_of_fits hd hplain hcard
  have hwithin : s.table.Within (s.union d) := h.within
  refine ⟨⟨?_, ?_⟩, ?_⟩
  · rw [htable]
    exact (hroom.within_storeAll hwithin).distinct
  · intro b
    rw [htable, hroom.mem_keys_storeAll hwithin, sentKeys_push, List.mem_append, h.mem]
  · rw [htable]
    exact hroom.text_storeAll hwithin (nodup_keys hplain)

lemma Tracks.nothingLeft (h : s.Tracks) (hshared : ∀ x ∈ s.sent, (s.program cid, x.2) ∈ s.sent) :
    s.NothingLeft cid := by
  intro k hk
  apply ValueTable.text_of_not_mem
  intro hmem
  obtain ⟨x, hx, hxk⟩ := List.mem_map.mp ((h.mem k).mp hmem)
  exact hk _ (hshared x hx) rfl hxk

lemma Tracks.step (h : s.Tracks) (hd : s.Pushable cid e) (hfits : s.Fits cid e) :
    (s.step host cid e).Tracks := by
  cases hfeed : s.feed cid e with
  | none =>
    obtain ⟨htable, hsent⟩ := step_of_feed_none host hfeed
    refine ⟨htable ▸ h.distinct, fun k => ?_⟩
    rw [htable, sentKeys, hsent]
    exact h.mem k
  | some d =>
    cases e with
    | tick k =>
      rw [step_of_feed hfeed]
      exact (h.push hfeed (hd d hfeed) hfits).1
    | programSet body on => cases hfeed
    | call c reached => cases hfeed

lemma shared_push {k : Tick} {d : Dict} (hfeed : s.feed cid (.tick k) = some d)
    (hfits : s.Fits cid (.tick k)) :
    ∀ x ∈ (s.push cid k d).sent, ((s.push cid k d).program cid, x.2) ∈ (s.push cid k d).sent := by
  obtain ⟨-, -, -, hold⟩ := hfits d hfeed
  have hnew {key : Str} (hkey : key ∈ d.items.map Prod.fst) :
      (s.program cid, key) ∈ d.items.map fun p => (s.program cid, p.1) := by
    obtain ⟨p, hp, rfl⟩ := List.mem_map.mp hkey
    exact List.mem_map_of_mem hp
  intro x hx
  rw [push_program]
  apply List.mem_append.mpr
  rcases List.mem_append.mp hx with hx | hx
  · exact (hold x hx).imp id hnew
  · obtain ⟨p, hp, rfl⟩ := List.mem_map.mp hx
    exact .inr (hnew (List.mem_map_of_mem hp))

lemma Tracks.takesEffect (h : s.Tracks) (hd : s.Pushable cid e) (hfits : s.Fits cid e) :
    s.TakesEffect host cid e := by
  intro d hfeed
  cases e with
  | tick k =>
    obtain ⟨htracks, htext⟩ := h.push hfeed (hd d hfeed) hfits
    rw [step_of_feed hfeed]
    exact ⟨htext, htracks.nothingLeft (shared_push hfeed hfits)⟩
  | programSet body on => cases hfeed
  | call c reached => cases hfeed

lemma Tracks.nothingLeft_step (h : s.Tracks) (hd : s.Pushable cid e) (hfits : s.Fits cid e)
    (hshared : s.Shared host cid e) : (s.step host cid e).NothingLeft cid := by
  cases hfeed : s.feed cid e with
  | some d => exact (h.takesEffect hd hfits d hfeed).2
  | none =>
    apply (h.step hd hfits).nothingLeft
    rw [(step_of_feed_none host hfeed).2]
    exact hshared hfeed

variable (host cid)

/-- One event after the other. -/
abbrev Next (s : Site) (e : Event) (t : Site) : Prop := t = s.step host cid e

variable {host cid}

/-- In every history in which the pushes fit, each takes effect; and nothing is left at any time if no
program is left for one whose feed has not sent all the keys in the table. -/
theorem takesEffect_of_fits {es : List Event} (hboot : s.Booted)
    (hlimits : Always (Next host cid) (fun s e => s.Pushable cid e) s es)
    (hfits : Always (Next host cid) (fun s e => s.Fits cid e) s es) :
    Always (Next host cid) (fun s e => s.TakesEffect host cid e) s es ∧
      (Always (Next host cid) (fun s e => s.Shared host cid e) s es →
        Always (Next host cid) (fun s e => (s.step host cid e).NothingLeft cid) s es) := by
  have htracks : Always (Next host cid) (fun s e => s.Tracks ∧ s.Pushable cid e ∧ s.Fits cid e) s es :=
    Always.of_invariant (fun s e t h hc ht => ht ▸ h.step hc.1 hc.2) hboot.tracks (hlimits.and hfits)
  constructor
  · exact htracks.mono fun s e h => h.1.takesEffect h.2.1 h.2.2
  · intro hshared
    exact (htracks.and hshared).mono fun s e h => h.1.1.nothingLeft_step h.1.2.1 h.1.2.2 h.2

end Site

section Runs

open Site

def card : Fleet.Card := ⟨1, "card", 1, none, "program", some "railboard", none⟩

def db : Db := { Db.empty with cards := ⟨[card], by decide⟩ }

def running : Running := { fn := some (ascii "railboard"), active := true }

/-- A turn of the pusher, its request in two segments. -/
def tick (providers : List Provider) (bus : Dict) : Tick where
  providers := providers
  bus := bus
  clock := ⟨0, "12:00".toList⟩
  host := ascii "10.11.6.174"
  version := ascii "3.12"
  segments := cut
  timeMs := 0
  host_line := by decide +kernel
  version_line := by decide +kernel
  flatten r := by simp [cut]

def temp : Dict := ⟨[("temp".toList, "71".toList)], by decide⟩

def rows : Dict :=
  ⟨("abcdefghijklmnopqrstuvw".toList).map fun c => ([c], "1".toList), by decide +kernel⟩

def board : Provider := ⟨["railboard"], [rows]⟩

/-- The card is given another program, and takes it. -/
def another : Event :=
  .call (.updateCard 1 ⟨none, none, none, none, some (some "hello"), none⟩) true

def nowhere : Host := ⟨fun _ => false, fun _ => none⟩

def site : Site := { db := db, running := running }

instance (cid : ℤ) (s : Site) (e : Event) : Decidable (s.Pushable cid e) :=
  inferInstanceAs (Decidable (∀ d ∈ s.feed cid e, Limits d))

instance (cid : ℤ) (s : Site) (e : Event) : Decidable (s.Fits cid e) :=
  match e with
  | .tick k => inferInstanceAs (Decidable (∀ d ∈ s.feed cid (.tick k), (k.request d).length ≤ MAX_REQUEST ∧
      (∀ p ∈ d.items, Plain p.1 ∧ Plain p.2) ∧
      (s.sentKeys ++ d.items.map fun p => utf8 p.1).toFinset.card ≤ MAX_VALUES ∧
      ∀ x ∈ s.sent, (s.program cid, x.2) ∈ s.sent ∨ x.2 ∈ d.items.map Prod.fst))
  | .programSet _ _ => .isTrue trivial
  | .call _ _ => .isTrue trivial

/-- Another program, fed the same keys. -/
def sharing : List Event := [.tick (tick [] temp), another, .tick (tick [] temp)]

theorem sharing_takesEffect :
    Always (Next nowhere 1) (fun s e => s.TakesEffect nowhere 1 e) site sharing ∧
      (Always (Next nowhere 1) (fun s e => s.Shared nowhere 1 e) site sharing →
        Always (Next nowhere 1) (fun s e => (s.step nowhere 1 e).NothingLeft 1) site sharing) :=
  takesEffect_of_fits ⟨rfl, rfl⟩ (by decide +kernel) (by decide +kernel)

/-- Twenty-four keys for one program, and one of its own for the next. -/
def crowding : List Event := [.tick (tick [board] temp), another, .tick (tick [board] temp)]

theorem crowding_drops : ¬ ∀ (host : Host) (cid : ℤ) (s : Site) (es : List Event), s.Booted →
    Always (Next host cid) (fun s e => s.Pushable cid e) s es →
    Always (Next host cid) (fun s e => s.TakesEffect host cid e) s es := by
  intro h
  have hrun := h nowhere 1 site crowding ⟨rfl, rfl⟩ (by decide +kernel)
  obtain ⟨d, hd, htemp⟩ : ∃ d ∈ Site.feed 1 (([.tick (tick [board] temp), another] : List Event).foldl
      (Site.step nowhere 1) site) (.tick (tick [board] temp)), d.items = temp.items := by
    apply Option.map_eq_some_iff.mp
    decide +kernel
  have hlast := ((hrun.2 _ rfl).2 _ rfl).1 d hd
  rw [htemp] at hlast
  have htext := hlast.1 _ List.mem_cons_self
  exact absurd htext (by decide +kernel)

end Runs

end Ledwall.Server.Feeds
