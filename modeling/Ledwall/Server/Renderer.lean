import Ledwall.Library.Caches
import Mathlib.Data.List.Sort

/-! The renderer of a show: which decoder draws a video layer, one frame after another. -/

namespace Ledwall.Server.Rendering

open Ledwall.Library.Caches

/-- A text, as its characters. -/
abbrev Text := List Char

/-- A box edge: pixels, a fraction of the wall, or a text such as a percentage. -/
inductive Dim
  | px (n : ℤ)
  | frac (f : ℚ)
  | text (t : Text)

/-- What the host's floating point makes of a fraction and of a text, against a span. -/
structure Floats where
  ofFrac : ℚ → ℤ → ℤ
  ofText : Text → ℤ → ℤ

/-- `_dim` -/
def Dim.resolve (floats : Floats) (span : ℤ) : Dim → ℤ
  | .px n => n
  | .frac f => floats.ofFrac f span
  | .text t => floats.ofText t span

structure Box (α : Type) where
  x : α
  y : α
  w : α
  h : α
  deriving DecidableEq

def Box.resolve (floats : Floats) (box : Box Dim) (width height : ℤ) : Box ℤ where
  x := box.x.resolve floats width
  y := box.y.resolve floats height
  w := box.w.resolve floats width
  h := box.h.resolve floats height

inductive Fit
  | smart
  | cover
  | contain
  | stretch
  deriving DecidableEq

structure Video where
  src : Text
  fit : Fit
  loop : Bool
  start : ℚ
  deriving DecidableEq

/-- `other` is a layer that no decoder draws. -/
inductive Kind
  | video (v : Video)
  | other

structure Layer where
  box : Box Dim
  z : ℤ
  kind : Kind

structure Scene where
  duration : ℚ
  layers : List Layer

/-- Times are the rationals the code's floats stand for. -/
structure Show where
  width : Option ℤ
  height : Option ℤ
  fps : ℚ
  scenes : List Scene
  scenes_ne : scenes ≠ []

/-- The path of a source and the pool of a playlist, `none` where looking for it raises. -/
structure Resolver where
  resolve : Text → Option Text
  pool : Text → Option (List Text)

inductive Pick
  | bag
  | random
  deriving DecidableEq

/-- What a decoder was made with. -/
inductive Decoder
  | video (path : Text) (w h : ℤ) (fps : ℚ) (loop : Bool) (start : ℚ) (fit : Fit)
  | shuffle (pool : List Text) (w h : ℤ) (fps : ℚ) (pick : Pick) (fit : Fit)
  deriving DecidableEq

def shufflePrefix : Text := "shuffle:".toList

def randomPrefix : Text := "random:".toList

/-- What a layer's box and source are made into. It fails where a source is missing, where the pool
is empty and where the picture would have a negative side. -/
def openDecoder (res : Resolver) (fps : ℚ) (v : Video) (box : Box ℤ) : Option Decoder :=
  if shufflePrefix.isPrefixOf v.src ∨ randomPrefix.isPrefixOf v.src then
    let scheme := v.src.takeWhile (· ≠ ':')
    let ref := v.src.drop (scheme.length + 1)
    (res.pool ref).bind fun pool =>
      if pool = [] ∨ box.w < 0 ∨ box.h < 0 then none
      else some (.shuffle pool box.w box.h fps (if scheme = "random".toList then .random else .bag)
        v.fit)
  else
    (res.resolve v.src).bind fun path =>
      if box.w < 0 ∨ box.h < 0 then none
      else some (.video path box.w box.h fps v.loop v.start v.fit)

/-- A video layer that a frame is composed from, by its place in the order of the scene's `z`. -/
structure Showing where
  idx : ℕ
  video : Video
  box : Box ℤ
  deriving DecidableEq

/-- The decoders of a renderer, by `idx`. -/
abbrev Videos := ℕ → Option Decoder

/-- A tile is a frame of the decoder; without one the layer is passed over. -/
abbrev Tile := Showing × Option Decoder

namespace Show

variable (floats : Floats) (res : Resolver) (doc : Show)

def totalDuration : ℚ := (doc.scenes.map Scene.duration).sum

/-- The loop of `scene_at`. -/
def sceneFrom (last : Scene) : List Scene → ℚ → Scene
  | [], _ => last
  | sc :: scenes, t => if t < sc.duration then sc else sceneFrom last scenes (t - sc.duration)

def sceneAt (t : ℚ) : Scene :=
  let total := doc.totalDuration
  if total ≤ 0 then doc.scenes.head doc.scenes_ne
  else sceneFrom (doc.scenes.getLast doc.scenes_ne) doc.scenes (t - total * ⌊t / total⌋)

/-- The wall's size, or the show's own. -/
def sizeOr (size : Option (ℤ × ℤ)) : ℤ × ℤ :=
  size.getD (doc.width.getD 256, doc.height.getD 128)

/-- `_video` -/
def video (videos : Videos) (s : Showing) : Option Decoder × Videos :=
  match videos s.idx with
  | some dec => (some dec, videos)
  | none =>
    match openDecoder res doc.fps s.video s.box with
    | some dec => (some dec, Function.update videos s.idx (some dec))
    | none => (none, videos)

/-- The loop of `render` over the layers and their numbers. -/
def drawLayers (width height : ℤ) : Videos → List (Layer × ℕ) → List Tile × Videos
  | videos, [] => ([], videos)
  | videos, (layer, idx) :: layers =>
    match layer.kind with
    | .other => drawLayers width height videos layers
    | .video v =>
      let s : Showing := ⟨idx, v, layer.box.resolve floats width height⟩
      let drawn := doc.video res videos s
      let rest := drawLayers width height drawn.2 layers
      ((s, drawn.1) :: rest.1, rest.2)

/-- `sorted(scene.layers, key=lambda l: l.z)`, numbered. -/
def ordered (t : ℚ) : List (Layer × ℕ) :=
  ((doc.sceneAt t).layers.insertionSort fun a b => a.z ≤ b.z).zipIdx

def render (videos : Videos) (call : ℚ × Option (ℤ × ℤ)) : List Tile × Videos :=
  let size := doc.sizeOr call.2
  doc.drawLayers floats res size.1 size.2 videos (doc.ordered call.1)

/-- One call of `render` after another. -/
def renderAll : Videos → List (ℚ × Option (ℤ × ℤ)) → List Tile × Videos
  | videos, [] => ([], videos)
  | videos, call :: calls =>
    let first := doc.render floats res videos call
    let rest := renderAll first.2 calls
    (first.1 ++ rest.1, rest.2)

/-- The video layers of one frame, whatever decoders there are. -/
def showings (call : ℚ × Option (ℤ × ℤ)) : List Showing :=
  let size := doc.sizeOr call.2
  (doc.ordered call.1).filterMap fun p =>
    match p.1.kind with
    | .other => none
    | .video v => some ⟨p.2, v, p.1.box.resolve floats size.1 size.2⟩

/-- The decoder of a layer's own source, box and settings. -/
def own (s : Showing) : Option Decoder := openDecoder res doc.fps s.video s.box

lemma video_eq (videos : Videos) (s : Showing) :
    doc.video res videos s = serve Showing.idx (doc.own res) videos s := by
  cases h : videos s.idx with
  | some dec => simp [video, serve, h]
  | none => cases hown : openDecoder res doc.fps s.video s.box <;> simp [video, serve, own, h, hown]

variable {floats res doc}

lemma drawLayers_eq (width height : ℤ) (videos : Videos) (layers : List (Layer × ℕ)) :
    doc.drawLayers floats res width height videos layers =
      serveAll Showing.idx (doc.own res) videos (layers.filterMap fun p =>
        match p.1.kind with
        | .other => none
        | .video v => some ⟨p.2, v, p.1.box.resolve floats width height⟩) := by
  induction layers generalizing videos with
  | nil => rfl
  | cons p layers ih =>
    obtain ⟨⟨box, z, kind⟩, idx⟩ := p
    cases kind with
    | other => simp [drawLayers, ih]
    | video v => simp [drawLayers, serveAll, video_eq, ih]

lemma render_eq (videos : Videos) (call : ℚ × Option (ℤ × ℤ)) :
    doc.render floats res videos call =
      serveAll Showing.idx (doc.own res) videos (doc.showings floats call) :=
  drawLayers_eq _ _ _ _

lemma renderAll_eq (videos : Videos) (calls : List (ℚ × Option (ℤ × ℤ))) :
    doc.renderAll floats res videos calls =
      serveAll Showing.idx (doc.own res) videos (calls.flatMap (doc.showings floats)) := by
  induction calls generalizing videos with
  | nil => rfl
  | cons call calls ih =>
    rw [renderAll, List.flatMap_cons, serveAll_append, ← render_eq, ← ih]

/-- Every frame of a video layer is of its own decoder, over any run of `render` from a new renderer,
when the layers that are shown in one place of the `z` order have the same one. -/
theorem own_frames_iff (floats : Floats) (res : Resolver) (doc : Show)
    (calls : List (ℚ × Option (ℤ × ℤ))) :
    (∀ tile ∈ (doc.renderAll floats res (fun _ => none) calls).1, ∀ dec, tile.2 = some dec →
      openDecoder res doc.fps tile.1.video tile.1.box = some dec) ↔
    (calls.flatMap (doc.showings floats)).Pairwise fun s s' => s.idx = s'.idx →
      ∀ dec, openDecoder res doc.fps s.video s.box = some dec →
        openDecoder res doc.fps s'.video s'.box = some dec := by
  have hown := @own_iff _ _ _ _ Showing.idx (doc.own res) (fun _ => none)
    (calls.flatMap (doc.showings floats))
  rw [← renderAll_eq] at hown
  have hfits : ∀ s ∈ calls.flatMap (doc.showings floats),
      Fits Showing.idx (doc.own res) (fun _ => none) s := by
    intro s _ dec hdec
    cases hdec
  exact hown.trans (and_iff_right hfits)

/-- A resolver that finds every source where it says it is. -/
def anywhere : Resolver := ⟨some, fun _ => none⟩

def plainFloats : Floats := ⟨fun f span => ⌊f * span⌋, fun _ _ => 0⟩

def film (src : String) : Layer :=
  ⟨⟨.px 0, .px 0, .px 64, .px 32⟩, 0, .video ⟨src.toList, .cover, true, 0⟩⟩

/-- Two scenes of ten seconds, a film in each. -/
def twoFilms : Show where
  width := some 64
  height := some 32
  fps := 24
  scenes := [⟨10, [film "sea.mp4"]⟩, ⟨10, [film "fire.mp4"]⟩]
  scenes_ne := List.cons_ne_nil _ _

/-- The second scene shows the film of the first. -/
theorem second_scene_shows_first :
    (twoFilms.renderAll plainFloats anywhere (fun _ => none) [(0, none), (15, none)]).1.map
        (fun tile => (tile.1.video.src, tile.2)) =
      [("sea.mp4".toList, some (.video "sea.mp4".toList 64 32 24 true 0 .cover)),
        ("fire.mp4".toList, some (.video "sea.mp4".toList 64 32 24 true 0 .cover))] ∧
    ¬ ∀ tile ∈ (twoFilms.renderAll plainFloats anywhere (fun _ => none) [(0, none), (15, none)]).1,
      ∀ dec, tile.2 = some dec →
        openDecoder anywhere twoFilms.fps tile.1.video tile.1.box = some dec := by
  refine ⟨by decide +kernel, ?_⟩
  intro h
  have htile : ((⟨0, ⟨"fire.mp4".toList, .cover, true, 0⟩, ⟨0, 0, 64, 32⟩⟩ : Showing),
      some (Decoder.video "sea.mp4".toList 64 32 24 true 0 .cover)) ∈
        (twoFilms.renderAll plainFloats anywhere (fun _ => none) [(0, none), (15, none)]).1 := by
    decide +kernel
  exact absurd (h _ htile _ rfl) (by decide +kernel)

end Show

end Ledwall.Server.Rendering
