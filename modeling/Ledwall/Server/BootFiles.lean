import Ledwall.Library.TextLines
import Ledwall.Server.BitstreamPush
import Ledwall.Server.BootConfig

/-! The files a card boots from: which card a request is taken to come from, and what it is sent. -/

namespace Ledwall.Server.Boot

open Ledwall.Wire Ledwall.Values
open Ledwall.Library.TextLines (isBlank)
open Ledwall.Server.Bitstreams (basename basename_of_plain bitSuffix decodeAscii)

def lower (s : Str) : Str := s.map Char.toLower

/-- The row of a card, as far as its boot reads it. -/
structure Card extends Server.Card where
  name : Str
  host : Str
  mac : Option Str
  firmware : Option Str

inductive OsError
  | isADirectory
  | permission
  deriving DecidableEq

/-- What a name stands for: a plain file, or what cannot be opened and read. -/
inductive Entry
  | file (blob : List Byte)
  | refused (e : OsError)

/-- The names that end a path in a directory, and none that stands for one is a file. -/
structure Directory where
  entry : Str → Option Entry
  dots : ∀ name blob, entry name = some (.file blob) → name ∉ [[], ['.'], ['.', '.']]

/-- `os.path.exists(path)`, and the file read; `none` is the refusal. -/
def Directory.read (d : Directory) (name : Str) : Except OsError (Option (List Byte)) :=
  match d.entry name with
  | none => .ok none
  | some (.file blob) => .ok (some blob)
  | some (.refused e) => .error e

/-- The cards in the order of their table, the lines of `/proc/net/arp` where it can be opened, and
the two directories. No two cards have a MAC in common, whichever case it is in. -/
structure Site where
  cards : List Card
  arp : Option (List Str)
  firmware : Directory
  bitstreams : Directory
  macs : cards.Pairwise fun c d => ∀ m ∈ c.mac, ∀ n ∈ d.mac, lower m ≠ lower n

/-- `line.split()` -/
def split (line : Str) : List Str := (line.splitOnP isBlank).filter (· ≠ [])

/-- A complete entry for the address. -/
def complete (ip line : Str) : Bool :=
  let f := split line
  4 ≤ f.length && f[0]? = some ip && f[2]? = some "0x2".toList

/-- `_mac_for_ip` -/
def macForIp (arp : Option (List Str)) (ip : Str) : Option Str := do
  let lines ← arp
  let line ← (lines.drop 1).find? (complete ip)
  let mac := lower ((split line).getD 3 [])
  if mac ≠ "00:00:00:00:00:00".toList then some mac else none

def bootBin : Str := "boot.bin".toList

def ymlSuffix : Str := ".yml".toList

/-- `card.firmware if card and card.firmware else "boot.bin"` -/
def imageName (card : Option Card) : Str :=
  let name := (card.bind Card.firmware).getD []
  if name = [] then bootBin else name

/-- The MAC that a configuration's name is made of. -/
def macNamed (stem : Str) : Str := lower (stem.map fun c => if c = '-' then ':' else c)

/-- The configuration of a card that has a layout. -/
def Card.layout (p : Card) : Option (List Byte) :=
  if p.layoutYaml.getD [] = [] then none else some (utf8 p.bootConfig)

namespace Site

variable (site : Site)

/-- `db.scalar(select(Card).where(Card.host == ip))`: the first of several. -/
def byHost (ip : Str) : Option Card := site.cards.find? fun c => c.host = ip

def byMac (mac : Str) : Option Card := site.cards.find? fun c => c.mac = some mac

/-- The image of a card, or the default one. -/
def image (card : Option Card) : Except OsError (Option (List Byte)) :=
  site.firmware.read (basename (imageName card))

/-- The card an image is chosen for: by the address, else by the MAC that ARP has for it. -/
def bootCard (ip : Str) : Option Card := (site.byHost ip).or ((macForIp site.arp ip).bind site.byMac)

/-- `tftp_resolve` -/
def tftpResolve (filename ip : Str) : Except OsError (Option (List Byte)) :=
  if filename = bootBin then site.image (site.bootCard ip)
  else if bitSuffix <:+ filename then site.bitstreams.read (basename filename)
  else if ymlSuffix <:+ filename then
    .ok (((site.byHost ip).or
      (site.byMac (macNamed (filename.take (filename.length - 4))))).bind Card.layout)
  else .ok none

/-- `_dyn`: what the card is sent, where an exception is a file that is not there. -/
def dyn (path : Str) (raddress : Option Str) : Option (List Byte) :=
  match site.tftpResolve (basename path) (raddress.getD []) with
  | .ok data => data
  | .error _ => none

end Site

section Serving

variable (site : Site) (filename ip : Str)

/-- What is sent is the configuration of a card, or the contents of a plain file of the directories. -/
def Contained (blob : List Byte) : Prop :=
  (ymlSuffix <:+ filename ∧ ∃ c ∈ site.cards, blob = utf8 c.bootConfig) ∨
    ∃ name, '/' ∉ name ∧ name ∉ [[], ['.'], ['.', '.']] ∧
      (site.firmware.entry name = some (.file blob) ∨ site.bitstreams.entry name = some (.file blob))

/-- Each card is sent its own files, by the MAC in the name or the MAC in the ARP table. -/
structure OwnFiles : Prop where
  returns : ∃ data, site.tftpResolve filename ip = .ok data
  layout : ∀ c ∈ site.cards, ∀ stem, filename = stem ++ ymlSuffix →
    c.mac.map lower = some (macNamed stem) →
      site.tftpResolve filename ip = .ok none ∨
        site.tftpResolve filename ip = .ok (some (utf8 c.bootConfig))
  image : filename = bootBin → ∀ c ∈ site.cards, ∀ mac, macForIp site.arp ip = some mac →
    c.mac.map lower = some mac → site.tftpResolve filename ip = site.image (some c)
  contained : ∀ blob, site.tftpResolve filename ip = .ok (some blob) → Contained site filename blob

/-- The address a request comes from is asked first, and ARP when it is no card's. -/
structure ByAddress : Prop where
  returns : (filename = bootBin →
      ∀ e, site.firmware.entry (basename (imageName (site.bootCard ip))) ≠ some (.refused e)) →
    (bitSuffix <:+ filename → ∀ e, site.bitstreams.entry (basename filename) ≠ some (.refused e)) →
      ∃ data, site.tftpResolve filename ip = .ok data
  layout : ∀ c ∈ site.cards, (∀ d ∈ site.cards, d.host = ip → d = c) →
    ∀ stem, filename = stem ++ ymlSuffix → c.mac.map lower = some (macNamed stem) →
      site.tftpResolve filename ip = .ok none ∨
        site.tftpResolve filename ip = .ok (some (utf8 c.bootConfig))
  image : filename = bootBin → ∀ c, site.byHost ip = some c →
    site.tftpResolve filename ip = site.image (some c)
  imageByArp : filename = bootBin → site.byHost ip = none → ∀ c ∈ site.cards, ∀ mac,
    macForIp site.arp ip = some mac → c.mac = some mac →
      site.tftpResolve filename ip = site.image (some c)
  contained : ∀ blob, site.tftpResolve filename ip = .ok (some blob) → Contained site filename blob

end Serving

section Answers

variable {site : Site} {filename ip name stem mac : Str} {blob : List Byte} {c d : Card}

lemma toLower_toLower (c : Char) : c.toLower.toLower = c.toLower := by
  delta Char.toLower
  split
  · split
    · next h h2 =>
      simp only [ge_iff_le, UInt32.le_iff_toNat_le, UInt32.toNat_add] at h h2
      have hoffset : ('a'.val - 'A'.val).toNat = 32 := rfl
      have hfirst : 'A'.val.toNat = 65 := rfl
      have hlast : 'Z'.val.toNat = 90 := rfl
      omega
    · rfl
  · rfl

lemma lower_lower (s : Str) : lower (lower s) = lower s := by
  rw [lower, lower, List.map_map]
  exact List.map_congr_left fun c _ => toLower_toLower c

lemma not_mem_basename (s : Str) : '/' ∉ basename s := by
  intro h
  rw [basename, List.mem_reverse] at h
  have := List.mem_takeWhile_imp h
  simp at this

lemma Directory.read_some {d : Directory} (h : d.read name = .ok (some blob)) :
    d.entry name = some (.file blob) := by
  rw [read] at h
  split at h
  · cases h
  · next hentry =>
    cases h
    exact hentry
  · cases h

lemma Directory.read_returns {d : Directory} (h : ∀ e, d.entry name ≠ some (.refused e)) :
    ∃ data, d.read name = .ok data := by
  rw [read]
  split
  · exact ⟨none, rfl⟩
  · exact ⟨_, rfl⟩
  · next e hentry => exact absurd hentry (h e)

lemma suffix_apart (h : ymlSuffix <:+ filename) : filename ≠ bootBin ∧ ¬ bitSuffix <:+ filename := by
  constructor
  · rintro rfl
    revert h
    decide
  · intro hbit
    exact absurd (List.suffix_of_suffix_length_le hbit h (by decide)) (by decide)

lemma bootBin_apart : ¬ bitSuffix <:+ bootBin ∧ ¬ ymlSuffix <:+ bootBin := by decide

lemma tftpResolve_yml (stem ip : Str) : site.tftpResolve (stem ++ ymlSuffix) ip =
    .ok (((site.byHost ip).or (site.byMac (macNamed stem))).bind Card.layout) := by
  have hsuffix : ymlSuffix <:+ stem ++ ymlSuffix := List.suffix_append stem ymlSuffix
  obtain ⟨hboot, hbit⟩ := suffix_apart hsuffix
  have hstem : (stem ++ ymlSuffix).take ((stem ++ ymlSuffix).length - 4) = stem := by
    rw [List.length_append, show ymlSuffix.length = 4 from rfl, Nat.add_sub_cancel]
    exact List.take_left
  rw [Site.tftpResolve, if_neg hboot, if_neg hbit, if_pos hsuffix, hstem]

lemma Site.eq_of_mac (hc : c ∈ site.cards) (hd : d ∈ site.cards) (hm : c.mac.map lower = some mac)
    (hn : d.mac.map lower = some mac) : c = d := by
  by_contra hne
  obtain ⟨m, hcm, rfl⟩ := Option.map_eq_some_iff.mp hm
  obtain ⟨n, hdn, hnm⟩ := Option.map_eq_some_iff.mp hn
  have : Std.Symm fun c d : Card => ∀ m ∈ c.mac, ∀ n ∈ d.mac, lower m ≠ lower n :=
    ⟨fun _ _ h m hm n hn heq => h n hn m hm heq.symm⟩
  exact site.macs.forall hc hd hne m hcm n hdn hnm.symm

lemma Site.byMac_some (h : site.byMac mac = some c) : c ∈ site.cards ∧ c.mac = some mac :=
  ⟨List.mem_of_find?_eq_some h, of_decide_eq_true (List.find?_some (p := fun c : Card => decide (c.mac = some mac)) h)⟩

lemma Site.chosen_mem (h : (site.byHost ip).or (site.byMac mac) = some c) : c ∈ site.cards := by
  rcases Option.or_eq_some_iff.mp h with hhost | ⟨-, hmac⟩
  · exact List.mem_of_find?_eq_some hhost
  · exact (Site.byMac_some hmac).1

lemma Card.layout_some (h : c.layout = some blob) : blob = utf8 c.bootConfig := by
  rw [layout] at h
  split at h
  · cases h
  · exact (Option.some.inj h).symm

lemma layout_or (c : Card) : c.layout = none ∨ c.layout = some (utf8 c.bootConfig) := by
  rw [Card.layout]
  split
  · exact .inl rfl
  · exact .inr rfl

theorem tftpResolve_returns
    (himage : filename = bootBin →
      ∀ e, site.firmware.entry (basename (imageName (site.bootCard ip))) ≠ some (.refused e))
    (hbit : bitSuffix <:+ filename → ∀ e, site.bitstreams.entry (basename filename) ≠ some (.refused e)) :
    ∃ data, site.tftpResolve filename ip = .ok data := by
  rw [Site.tftpResolve]
  split
  · next h => exact Directory.read_returns (himage h)
  · split
    · next h => exact Directory.read_returns (hbit h)
    · split
      · exact ⟨_, rfl⟩
      · exact ⟨_, rfl⟩

/-- A configuration asked for from an address that is no other card's is the right one. -/
theorem tftpResolve_layout (hc : c ∈ site.cards) (halone : ∀ d ∈ site.cards, d.host = ip → d = c)
    (hmac : c.mac.map lower = some (macNamed stem)) :
    site.tftpResolve (stem ++ ymlSuffix) ip = .ok none ∨
      site.tftpResolve (stem ++ ymlSuffix) ip = .ok (some (utf8 c.bootConfig)) := by
  rw [tftpResolve_yml]
  cases hchosen : (site.byHost ip).or (site.byMac (macNamed stem)) with
  | none => exact .inl rfl
  | some d =>
    have hd : d = c := by
      rcases Option.or_eq_some_iff.mp hchosen with hhost | ⟨-, hfound⟩
      · exact halone d (List.mem_of_find?_eq_some hhost)
          (of_decide_eq_true (List.find?_some (p := fun d : Card => decide (d.host = ip)) hhost))
      · obtain ⟨hd, hdm⟩ := Site.byMac_some hfound
        refine Site.eq_of_mac hd hc ?_ hmac
        rw [hdm, Option.map_some, macNamed, lower_lower]
    subst hd
    rcases layout_or d with hl | hl
    · exact .inl (congrArg Except.ok hl)
    · exact .inr (congrArg Except.ok hl)

theorem tftpResolve_image (hc : site.byHost ip = some c) :
    site.tftpResolve bootBin ip = site.image (some c) := by
  rw [Site.tftpResolve, if_pos rfl, Site.bootCard, hc, Option.some_or]

theorem tftpResolve_imageByArp (hnone : site.byHost ip = none) (hc : c ∈ site.cards)
    (harp : macForIp site.arp ip = some mac) (hmac : c.mac = some mac) :
    site.tftpResolve bootBin ip = site.image (some c) := by
  have hfound : site.byMac mac = some c := by
    cases hfind : site.byMac mac with
    | none =>
      have := List.find?_eq_none.mp hfind c hc
      exact absurd hmac (by simpa using this)
    | some d =>
      obtain ⟨hd, hdm⟩ := Site.byMac_some hfind
      rw [Site.eq_of_mac hd hc (congrArg (Option.map lower) hdm) (congrArg (Option.map lower) hmac)]
  rw [Site.tftpResolve, if_pos rfl, Site.bootCard, hnone, Option.none_or, harp, Option.bind_some, hfound]

theorem tftpResolve_contained (h : site.tftpResolve filename ip = .ok (some blob)) :
    Contained site filename blob := by
  have hfile {d : Directory} {s : Str} (hd : d = site.firmware ∨ d = site.bitstreams)
      (hread : d.read (basename s) = .ok (some blob)) : Contained site filename blob := by
    have hentry := Directory.read_some hread
    refine .inr ⟨basename s, not_mem_basename s, d.dots _ _ hentry, ?_⟩
    rcases hd with rfl | rfl
    · exact .inl hentry
    · exact .inr hentry
  rw [Site.tftpResolve] at h
  split at h
  · exact hfile (.inl rfl) h
  · split at h
    · exact hfile (.inr rfl) h
    · split at h
      · next hyml =>
        obtain ⟨c, hchosen, hl⟩ := Option.bind_eq_some_iff.mp (Except.ok.inj h)
        exact .inl ⟨hyml, c, Site.chosen_mem hchosen, Card.layout_some hl⟩
      · cases h

theorem dyn_contained {path : Str} {raddress : Option Str} (h : site.dyn path raddress = some blob) :
    Contained site (basename path) blob := by
  rw [Site.dyn] at h
  split at h
  · next data hdata =>
    subst h
    exact tftpResolve_contained hdata
  · cases h

/-- Where the bitstream directory holds the stored bitstreams, a push is served from them. -/
theorem dyn_bitstream {store : Bitstreams.Store} {filename : List Byte} (raddress : Option Str)
    (hstore : ∀ name, site.bitstreams.read name = .ok (store.file name))
    (hbit : bitSuffix <:+ basename (decodeAscii filename)) :
    site.dyn (decodeAscii filename) raddress = Bitstreams.tftpResolve store filename := by
  have hboot : basename (decodeAscii filename) ≠ bootBin := fun h => bootBin_apart.1 (h ▸ hbit)
  have hname := basename_of_plain (not_mem_basename (decodeAscii filename))
  rw [Site.dyn, Site.tftpResolve, if_neg hboot, if_pos hbit, hname, hstore, Bitstreams.tftpResolve,
    if_pos hbit]

end Answers

/-- What the boot server answers, whatever the fleet, the ARP table, the name and the address. -/
theorem served_by_address (site : Site) (filename ip : Str) : ByAddress site filename ip where
  returns := tftpResolve_returns
  layout := by
    rintro c hc halone stem rfl hmac
    exact tftpResolve_layout hc halone hmac
  image := by
    rintro rfl c hc
    exact tftpResolve_image hc
  imageByArp := by
    rintro rfl hnone c hc mac harp hmac
    exact tftpResolve_imageByArp hnone hc harp hmac
  contained := fun _ => tftpResolve_contained

section Moved

/-- A card whose host is the address that the other one now has. -/
def moved : Card where
  layoutYaml := none
  panelType := none
  mode := "stream".toList
  program := none
  drive := none
  rgbOrder := none
  name := "left".toList
  host := "192.168.1.70".toList
  mac := some "02:00:00:00:00:01".toList
  firmware := some "a.bin".toList

def newcomer : Card :=
  { moved with
    name := "right".toList
    host := "192.168.1.71".toList
    mac := some "02:00:00:00:00:02".toList
    firmware := some "b.bin".toList }

def images (name : Str) : Option Entry :=
  if name = "a.bin".toList then some (.file [1])
  else if name = "b.bin".toList then some (.file [2])
  else none

def movedSite : Site where
  cards := [moved, newcomer]
  arp := some ["IP address".toList,
    "192.168.1.70 0x1 0x2 02:00:00:00:00:02 * eth0".toList]
  firmware := ⟨images, by
    intro name blob h hdot
    have hnone : ∀ n ∈ [[], ['.'], ['.', '.']], (images n).isNone = true := by decide
    have := hnone name hdot
    rw [h] at this
    cases this⟩
  bitstreams := ⟨fun _ => none, nofun⟩
  macs := by decide +kernel

theorem moved_host_first : ¬ ∀ (site : Site) (filename ip : Str), OwnFiles site filename ip := by
  intro h
  have himage := (h movedSite bootBin "192.168.1.70".toList).image rfl newcomer (by simp [movedSite])
    "02:00:00:00:00:02".toList (by decide +kernel) (by decide +kernel)
  have hserved : movedSite.tftpResolve bootBin "192.168.1.70".toList = .ok (some [1]) := by rfl
  have hown : movedSite.image (some newcomer) = .ok (some [2]) := by rfl
  rw [hserved, hown] at himage
  cases himage

end Moved

end Ledwall.Server.Boot
