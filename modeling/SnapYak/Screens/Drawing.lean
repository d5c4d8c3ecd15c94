import Mathlib.Data.List.Defs
import Mathlib.Data.List.Induction
import Mathlib.Data.List.ModifyLast
import Mathlib.Data.Rat.Defs
import SnapYak.Machine.Run

/-!
# Drawing on the photo

The user draws on the photo with a finger (`DrawView.swift`), in a colour that four buttons of the
upload screen select (`MessageUploadViewController.swift`). The view keeps the segments of all
strokes in one array, `currentLine`, and carries the last point from one event to the next; nothing
marks where a stroke ends. Strokes are separated by `touchesBegan` alone, which overwrites the
point.

A drawing in its own terms is a list of strokes (`Drawing`). The view records it
(`DrawView.Records`): it paints the segments of the strokes one stroke after the other, each in the
colour that was selected when its end point arrived (`DrawScreen.painted_strokes`).

Coordinates are only stored, so their type is a parameter. The field `lines`, which only code that
is commented out reads, is left out.

## Main definitions

* `CGContext` : a graphics context, with what has been painted on it.
* `DrawView` : the view and its methods.
* `DrawScreen` : the view and the colour buttons.
* `DrawScreen.touches`, `DrawScreen.machine` : the touches that UIKit delivers, and what they do.
* `Stroke`, `Drawing` : drawings.
* `DrawView.Records` : the view records a drawing.

## Main results

* `DrawView.painted_draw` : `draw` paints `currentLine`.
* `Drawing.selected_ofEvents` : the selected colour is that of the button touched last.
* `DrawScreen.records_step` : every event does to the view what it does to the drawing.
* `DrawScreen.painted_strokes` : the segments painted after every run.
* `DrawScreen.contents_eq` : what is on the screen once the view has been displayed.
-/

namespace SnapYak

/-! ### Points and colours -/

/-- `CGPoint`. -/
structure CGPoint (CGFloat : Type) where
  x : CGFloat
  y : CGFloat
deriving DecidableEq

/-- `CGColor`, in one of two colour spaces. -/
inductive CGColor
  | gray (white alpha : ℚ)
  | rgb (red green blue alpha : ℚ)
deriving DecidableEq

/-- `UIColor`. -/
structure UIColor where
  cgColor : CGColor
deriving DecidableEq

namespace UIColor

/-- `UIColor(white:alpha:)`. -/
def ofWhite (white alpha : ℚ) : UIColor := ⟨.gray white alpha⟩

def black : UIColor := ofWhite 0 1

def gray : UIColor := ofWhite 0.5 1

def white : UIColor := ofWhite 1 1

/-- `#colorLiteral(red:green:blue:alpha:)`. -/
def colorLiteral (red green blue alpha : ℚ) : UIColor := ⟨.rgb red green blue alpha⟩

end UIColor

/-- A segment of a stroke. -/
structure Line (CGFloat : Type) where
  start : CGPoint CGFloat
  /-- `end`. -/
  endPoint : CGPoint CGFloat
  color : CGColor
deriving DecidableEq

/-! ### The graphics context -/

inductive CGLineCap
  | butt
  | round
  | square
deriving DecidableEq

/-- A segment that was painted. -/
structure PaintedSegment (CGFloat : Type) where
  line : Line CGFloat
  lineWidth : ℚ
  lineCap : CGLineCap
deriving DecidableEq

/-- A graphics context. -/
structure CGContext (CGFloat : Type) where
  lineWidth : ℚ
  lineCap : CGLineCap
  strokeColor : CGColor
  /-- The segments of the current path. -/
  path : List (CGPoint CGFloat × CGPoint CGFloat)
  currentPoint : Option (CGPoint CGFloat)
  /-- What has been painted, in order. -/
  painted : List (PaintedSegment CGFloat)

namespace CGContext

variable {CGFloat : Type}

/-- A new context. -/
def initial : CGContext CGFloat := ⟨1, .butt, UIColor.black.cgColor, [], none, []⟩

def setLineWidth (context : CGContext CGFloat) (width : ℚ) : CGContext CGFloat :=
  { context with lineWidth := width }

def setLineCap (context : CGContext CGFloat) (cap : CGLineCap) : CGContext CGFloat :=
  { context with lineCap := cap }

def setStrokeColor (context : CGContext CGFloat) (color : CGColor) : CGContext CGFloat :=
  { context with strokeColor := color }

def beginPath (context : CGContext CGFloat) : CGContext CGFloat :=
  { context with path := [], currentPoint := none }

/-- `move(to:)`. -/
def move (context : CGContext CGFloat) (point : CGPoint CGFloat) : CGContext CGFloat :=
  { context with currentPoint := some point }

/-- `addLine(to:)`. Without a current point, nothing is added. -/
def addLine (context : CGContext CGFloat) (point : CGPoint CGFloat) : CGContext CGFloat :=
  match context.currentPoint with
  | some currentPoint =>
    { context with path := context.path ++ [(currentPoint, point)], currentPoint := some point }
  | none => context

/-- `strokePath()`: the path is painted and cleared. -/
def strokePath (context : CGContext CGFloat) : CGContext CGFloat :=
  { context with
    painted := context.painted ++ context.path.map fun p =>
      ⟨⟨p.1, p.2, context.strokeColor⟩, context.lineWidth, context.lineCap⟩
    path := []
    currentPoint := none }

end CGContext

/-! ### The view -/

/-- `DrawView`. -/
structure DrawView (CGFloat : Type) where
  currentLine : List (Line CGFloat)
  lastPoint : Option (CGPoint CGFloat)
  drawColor : Option UIColor
  backgroundColor : Option UIColor
  /-- Whether the view is to be displayed again. -/
  needsDisplay : Bool

namespace DrawView

variable {CGFloat : Type}

/-- The view when it is loaded. -/
def initial : DrawView CGFloat := ⟨[], none, some .black, none, true⟩

/-- `touchesBegan(_:with:)`, for the location of `touches.first`. -/
def touchesBegan (v : DrawView CGFloat) (location : Option (CGPoint CGFloat)) : DrawView CGFloat :=
  match location with
  | some point => { v with lastPoint := some point }
  | none => v

/-- `touchesMoved(_:with:)`, for the location of `touches.first`. `none` is the trap of a missing
`lastPoint` or `drawColor`. -/
def touchesMoved (v : DrawView CGFloat) (location : Option (CGPoint CGFloat)) :
    Option (DrawView CGFloat) :=
  match location with
  | some newPoint => do
    let lastPoint ← v.lastPoint
    let drawColor ← v.drawColor
    some { v with
      currentLine := v.currentLine ++ [⟨lastPoint, newPoint, drawColor.cgColor⟩]
      lastPoint := some newPoint
      needsDisplay := true }
  | none => some v

/-- A move adds the segment from the last point, in the selected colour. -/
theorem touchesMoved_eq {v : DrawView CGFloat} {lastPoint : CGPoint CGFloat} {drawColor : UIColor}
    (hlast : v.lastPoint = some lastPoint) (hcolor : v.drawColor = some drawColor)
    (newPoint : CGPoint CGFloat) : v.touchesMoved (some newPoint) = some { v with
      currentLine := v.currentLine ++ [⟨lastPoint, newPoint, drawColor.cgColor⟩]
      lastPoint := some newPoint
      needsDisplay := true } := by
  simp only [touchesMoved, hlast, hcolor, Option.bind_eq_bind, Option.bind_some]

/-- `touchesEnded(_:with:)`. -/
def touchesEnded (v : DrawView CGFloat) (_ : Option (CGPoint CGFloat)) : DrawView CGFloat := v

/-- The body of the loop of `draw(_:)`. -/
def drawLine (context : CGContext CGFloat) (l : Line CGFloat) : CGContext CGFloat :=
  let context := context.beginPath
  let context := context.move l.start
  let context := context.addLine l.endPoint
  let context := context.setStrokeColor l.color
  context.strokePath

/-- `draw(_:)`, for the result of `UIGraphicsGetCurrentContext()`. -/
def draw (v : DrawView CGFloat) (context : Option (CGContext CGFloat)) :
    DrawView CGFloat × Option (CGContext CGFloat) :=
  ({ v with backgroundColor := some (.ofWhite 1 0) }, context.map fun context =>
    v.currentLine.foldl drawLine ((context.setLineWidth 3).setLineCap .round))

/-- A segment as `draw(_:)` paints it. -/
def paint (l : Line CGFloat) : PaintedSegment CGFloat := ⟨l, 3, .round⟩

/-- One round of the loop paints one segment. -/
theorem drawLine_eq (context : CGContext CGFloat) (l : Line CGFloat) :
    drawLine context l = { context with
      strokeColor := l.color, path := [], currentPoint := none,
      painted := context.painted ++ [⟨l, context.lineWidth, context.lineCap⟩] } := rfl

theorem painted_foldl_drawLine (lines : List (Line CGFloat)) (context : CGContext CGFloat) :
    (lines.foldl drawLine context).painted =
      context.painted ++ lines.map fun l => ⟨l, context.lineWidth, context.lineCap⟩ := by
  induction lines generalizing context with
  | nil => exact (List.append_nil _).symm
  | cons l lines ih =>
    rw [List.foldl_cons, ih, drawLine_eq]
    simp

/-- **What `draw` paints.** It adds `currentLine` to what the context has. -/
theorem painted_draw (v : DrawView CGFloat) (context : CGContext CGFloat) :
    ∃ context', (v.draw (some context)).2 = some context' ∧
      context'.painted = context.painted ++ v.currentLine.map paint :=
  ⟨_, rfl, painted_foldl_drawLine ..⟩

end DrawView

/-! ### The screen -/

/-- A colour button. -/
structure ColorButton where
  tag : ℤ
  borderColor : CGColor
  backgroundColor : UIColor
deriving DecidableEq

/-- The part of the upload screen that draws. -/
structure DrawScreen (CGFloat : Type) where
  drawView : DrawView CGFloat
  drawColorButtons : Vector ColorButton 4
  /-- What UIKit shows of the view. -/
  contents : List (PaintedSegment CGFloat)

namespace DrawScreen

variable {CGFloat : Type}

def textColors : Vector UIColor 4 :=
  #v[.colorLiteral 0 0 0 1, .colorLiteral 1 1 1 1,
    .colorLiteral 0.7450980544 0.1568627506 0.07450980693 1,
    .colorLiteral 0.1725490196 0.6156862745 0.8980392157 1]

def drawColors : Vector UIColor 4 :=
  #v[.colorLiteral 0 0 0 1, .colorLiteral 1 1 1 1,
    .colorLiteral 0.7450980544 0.1568627506 0.07450980693 1,
    .colorLiteral 0.1725490196 0.6156862745 0.8980392157 1]

/-- `loadColorButtons(buttons:type:)`, for the button at a position. -/
def loadColorButton (count : Fin 4) : ColorButton :=
  ⟨count, UIColor.gray.cgColor, textColors[count]⟩

/-- The branch of `setDrawColorAction(_:)` for a tag. -/
def colorIndex (tag : ℤ) : Fin 4 :=
  match tag with
  | 0 => 0
  | 1 => 1
  | 2 => 2
  | 3 => 3
  | _ => 3

/-- `setDrawColorAction(_:)`, for a button with the given tag. -/
def setDrawColorAction (s : DrawScreen CGFloat) (tag : ℤ) : DrawScreen CGFloat :=
  let buttons := s.drawColorButtons.map fun button =>
    { button with borderColor := UIColor.gray.cgColor }
  let i := colorIndex tag
  { s with
    drawView := { s.drawView with drawColor := some drawColors[i] }
    drawColorButtons := buttons.set i { buttons[i] with borderColor := UIColor.white.cgColor } }

/-- The screen when it is loaded. -/
def start : DrawScreen CGFloat := ⟨.initial, .ofFn loadColorButton, []⟩

/-- A colour button shows the colour that it selects. -/
theorem backgroundColor_loadColorButton (count : Fin 4) :
    (loadColorButton count).backgroundColor =
      drawColors[colorIndex (loadColorButton count).tag] := by
  match count with
  | 0 => rfl
  | 1 => rfl
  | 2 => rfl
  | 3 => rfl

/-- What can happen to the screen. -/
inductive Event (CGFloat : Type)
  | touchesBegan (location : CGPoint CGFloat)
  | touchesMoved (location : CGPoint CGFloat)
  | touchesEnded (location : CGPoint CGFloat)
  | touchesCancelled
  /-- A touch of a colour button. -/
  | setDrawColor (tag : ℤ)
  /-- UIKit displays the view. -/
  | display

/-- The touches that UIKit delivers to a view without multiple touch: one at a time, its moves after
its beginning. The state is whether the view is being touched. -/
def touches : Machine Bool (Event CGFloat) where
  step
    | false, .touchesBegan _ => some true
    | true, .touchesMoved _ => some true
    | true, .touchesEnded _ => some false
    | true, .touchesCancelled => some false
    | isTouched, .setDrawColor _ => some isTouched
    | isTouched, .display => some isTouched
    | _, _ => none

/-- All runs of the screen. -/
def machine : Machine (DrawScreen CGFloat) (Event CGFloat) where
  step s
    | .touchesBegan location =>
      some { s with drawView := s.drawView.touchesBegan (some location) }
    | .touchesMoved location => do
      let drawView ← s.drawView.touchesMoved (some location)
      some { s with drawView := drawView }
    | .touchesEnded location =>
      some { s with drawView := s.drawView.touchesEnded (some location) }
    | .touchesCancelled => some s
    | .setDrawColor tag => some (s.setDrawColorAction tag)
    | .display =>
      let (drawView, context) := s.drawView.draw (some .initial)
      some { s with
        drawView := { drawView with needsDisplay := false }
        contents := (context.map CGContext.painted).getD [] }

end DrawScreen

/-! ### Drawings -/

/-- A stroke: its start point, and the points that it was moved to, with the colours selected when
they arrived. -/
structure Stroke (CGFloat : Type) where
  start : CGPoint CGFloat
  moves : List (CGPoint CGFloat × CGColor)
deriving DecidableEq

namespace Stroke

variable {CGFloat : Type}

def points (stroke : Stroke CGFloat) : List (CGPoint CGFloat) :=
  stroke.start :: stroke.moves.map Prod.fst

/-- The consecutive pairs of points, each with the colour of its end point. -/
def segments (stroke : Stroke CGFloat) : List (Line CGFloat) :=
  List.zipWith (fun p color => ⟨p.1, p.2, color⟩) stroke.points.consecutivePairs
    (stroke.moves.map Prod.snd)

def lastPoint (stroke : Stroke CGFloat) : CGPoint CGFloat :=
  stroke.points.getLast (List.cons_ne_nil _ _)

/-- The stroke is continued. -/
def move (point : CGPoint CGFloat) (color : CGColor) (stroke : Stroke CGFloat) : Stroke CGFloat :=
  { stroke with moves := stroke.moves ++ [(point, color)] }

@[simp] theorem segments_mk_nil (start : CGPoint CGFloat) :
    (⟨start, []⟩ : Stroke CGFloat).segments = [] :=
  rfl

@[simp] theorem lastPoint_move (point : CGPoint CGFloat) (color : CGColor)
    (stroke : Stroke CGFloat) : (stroke.move point color).lastPoint = point := by
  simp [lastPoint, points, move]

/-- A move adds the segment from the last point. -/
theorem segments_move (point : CGPoint CGFloat) (color : CGColor) (stroke : Stroke CGFloat) :
    (stroke.move point color).segments =
      stroke.segments ++ [⟨stroke.lastPoint, point, color⟩] := by
  obtain ⟨start, moves⟩ := stroke
  induction moves generalizing start with
  | nil => rfl
  | cons m moves ih =>
    have hlast : (⟨start, m :: moves⟩ : Stroke CGFloat).lastPoint =
        (⟨m.1, moves⟩ : Stroke CGFloat).lastPoint := List.getLast_cons _
    rw [hlast]
    exact congrArg (⟨start, m.1, m.2⟩ :: ·) (ih m.1)

end Stroke

/-- A drawing in progress. -/
structure Drawing (CGFloat : Type) where
  selected : UIColor
  strokes : List (Stroke CGFloat)

namespace Drawing

variable {CGFloat : Type}

/-- The drawing after an event. -/
def next (d : Drawing CGFloat) : DrawScreen.Event CGFloat → Drawing CGFloat
  | .touchesBegan point => { d with strokes := d.strokes ++ [⟨point, []⟩] }
  | .touchesMoved point =>
    { d with strokes := d.strokes.modifyLast (.move point d.selected.cgColor) }
  | .setDrawColor tag => { d with selected := DrawScreen.drawColors[DrawScreen.colorIndex tag] }
  | _ => d

/-- The drawing that the events make. -/
def ofEvents (es : List (DrawScreen.Event CGFloat)) : Drawing CGFloat :=
  es.foldl next ⟨.black, []⟩

/-- The segments of the strokes, one stroke after the other. -/
def segments (d : Drawing CGFloat) : List (Line CGFloat) := d.strokes.flatMap Stroke.segments

/-- The colour that an event selects. -/
def selects : DrawScreen.Event CGFloat → Option UIColor
  | .setDrawColor tag => some DrawScreen.drawColors[DrawScreen.colorIndex tag]
  | _ => none

/-- The selected colour is that of the button touched last. -/
theorem selected_ofEvents (es : List (DrawScreen.Event CGFloat)) :
    (ofEvents es).selected = (es.filterMap selects).getLast?.getD .black := by
  induction es using List.reverseRecOn with
  | nil => rfl
  | append_singleton es e ih =>
    simp only [ofEvents, List.foldl_append, List.foldl_cons, List.foldl_nil, List.filterMap_append,
      List.filterMap_cons, List.filterMap_nil] at ih ⊢
    cases e with
    | setDrawColor tag => simp [next, selects]
    | _ => simpa [next, selects] using ih

variable {d : Drawing CGFloat}

/-- A stroke that has only begun has no segments. -/
theorem segments_touchesBegan (point : CGPoint CGFloat) :
    (d.next (.touchesBegan point)).segments = d.segments := by
  simp [segments, next]

/-- A move adds a segment to the last stroke. -/
theorem segments_touchesMoved {strokes : List (Stroke CGFloat)} {stroke : Stroke CGFloat}
    (h : d.strokes = strokes ++ [stroke]) (point : CGPoint CGFloat) :
    (d.next (.touchesMoved point)).segments =
      d.segments ++ [⟨stroke.lastPoint, point, d.selected.cgColor⟩] := by
  simp only [segments, next, h, List.modifyLast_concat, List.flatMap_append, List.flatMap_singleton,
    Stroke.segments_move, List.append_assoc]

end Drawing

/-! ### The view records the drawing -/

/-- The view has the segments of the drawing in one array, and carries the last point. -/
structure DrawView.Records {CGFloat : Type} (v : DrawView CGFloat) (d : Drawing CGFloat) :
    Prop where
  currentLine : v.currentLine = d.segments
  lastPoint : v.lastPoint = d.strokes.getLast?.map Stroke.lastPoint
  drawColor : v.drawColor = some d.selected

namespace DrawScreen

variable {CGFloat : Type} {s t : DrawScreen CGFloat} {d : Drawing CGFloat} {e : Event CGFloat}
  {es : List (Event CGFloat)} {isTouched isTouched' : Bool}

/-- **Every event does to the view what it does to the drawing.** A move that UIKit delivers has a
stroke to continue. -/
theorem records_step (hs : s.drawView.Records d) (htouched : isTouched = true → d.strokes ≠ [])
    (he : touches.step isTouched e = some isTouched') :
    (isTouched' = true → (d.next e).strokes ≠ []) ∧
      ∃ t, machine.step s e = some t ∧ t.drawView.Records (d.next e) := by
  cases e with
  | touchesBegan point =>
    refine ⟨fun _ => by simp [Drawing.next], _, rfl, ?_, ?_, hs.drawColor⟩
    · rw [Drawing.segments_touchesBegan]
      exact hs.currentLine
    · simp [Drawing.next, DrawView.touchesBegan, Stroke.lastPoint, Stroke.points]
  | touchesMoved point =>
    obtain rfl : isTouched = true := by
      cases isTouched
      · exact absurd he (by simp [touches])
      · rfl
    rcases List.eq_nil_or_concat d.strokes with hnil | ⟨strokes, stroke, hstrokes⟩
    · exact absurd hnil (htouched rfl)
    rw [List.concat_eq_append] at hstrokes
    have hlast : s.drawView.lastPoint = some stroke.lastPoint := by
      rw [hs.lastPoint, hstrokes, List.getLast?_concat, Option.map_some]
    have hmoved := DrawView.touchesMoved_eq hlast hs.drawColor point
    refine ⟨fun _ => by simp [Drawing.next, hstrokes, List.modifyLast_concat], _,
      Option.bind_eq_some_iff.mpr ⟨_, hmoved, rfl⟩, ?_, ?_, hs.drawColor⟩
    · rw [Drawing.segments_touchesMoved hstrokes, ← hs.currentLine]
    · simp [Drawing.next, hstrokes, List.modifyLast_concat]
  | touchesEnded _ | touchesCancelled =>
    cases isTouched with
    | false => exact absurd he (by simp [touches])
    | true => exact ⟨fun _ => htouched rfl, _, rfl, hs⟩
  | setDrawColor tag =>
    have hsame : isTouched = isTouched' := by cases isTouched <;> exact Option.some.inj he
    exact ⟨fun h => htouched (hsame.trans h), _, rfl, hs.currentLine, hs.lastPoint, rfl⟩
  | display =>
    have hsame : isTouched = isTouched' := by cases isTouched <;> exact Option.some.inj he
    exact ⟨fun h => htouched (hsame.trans h), _, rfl, hs.currentLine, hs.lastPoint, hs.drawColor⟩

/-- A run of the screen records the drawing that its events make, and does not trap. -/
theorem records_run (hs : s.drawView.Records d) (htouched : isTouched = true → d.strokes ≠ [])
    (hes : touches.run isTouched es = some isTouched') :
    ∃ t, machine.run s es = some t ∧ t.drawView.Records (es.foldl Drawing.next d) := by
  induction es generalizing s d isTouched with
  | nil => exact ⟨s, rfl, hs⟩
  | cons e es ih =>
    obtain ⟨isTouched₁, he, hes⟩ := Machine.run_cons_eq_some.mp hes
    obtain ⟨htouched₁, u, hu, hrecords⟩ := records_step hs htouched he
    obtain ⟨t, ht, hrecords'⟩ := ih hrecords htouched₁ hes
    exact ⟨t, Machine.run_cons_eq_some.mpr ⟨u, hu, ht⟩, hrecords'⟩

/-- No segment is taken away or changed. -/
theorem currentLine_prefix_step (h : machine.step s e = some t) :
    s.drawView.currentLine <+: t.drawView.currentLine := by
  cases e with
  | touchesMoved point =>
    simp only [machine, DrawView.touchesMoved, Option.bind_eq_bind, Option.bind_eq_some_iff] at h
    obtain ⟨v, ⟨lastPoint, -, drawColor, -, hv⟩, h⟩ := h
    obtain rfl := Option.some.inj hv
    obtain rfl := Option.some.inj h
    exact List.prefix_append ..
  | _ =>
    obtain rfl := Option.some.inj h
    exact List.prefix_rfl

/-- **What is on the screen.** Once the view has been displayed since the last move, the screen
shows all its segments. -/
theorem contents_eq (hrun : machine.run start es = some s)
    (hdisplay : s.drawView.needsDisplay = false) :
    s.contents = s.drawView.currentLine.map DrawView.paint := by
  refine Machine.run_invariant (I := fun s => s.drawView.needsDisplay = false →
    s.contents = s.drawView.currentLine.map DrawView.paint) ?_ (by simp [start, DrawView.initial])
    hrun hdisplay
  intro s e t hs ht hdisplay
  cases e with
  | touchesMoved point =>
    simp only [machine, DrawView.touchesMoved, Option.bind_eq_bind, Option.bind_eq_some_iff] at ht
    obtain ⟨v, ⟨lastPoint, -, drawColor, -, hv⟩, ht⟩ := ht
    obtain rfl := Option.some.inj hv
    obtain rfl := Option.some.inj ht
    exact absurd hdisplay (by simp)
  | display =>
    obtain rfl := Option.some.inj ht
    exact DrawView.painted_foldl_drawLine ..
  | _ =>
    obtain rfl := Option.some.inj ht
    exact hs hdisplay

/-- **Drawing.** Whatever strokes UIKit delivers, with the colour buttons touched at any moment, no
handler traps. `draw` then paints, in order, the segments of the strokes, one stroke after the
other: the consecutive pairs of its points, each in the colour that was selected when its end point
arrived. Later events leave these segments as they are. -/
theorem painted_strokes (hes : touches.run false es = some isTouched) :
    ∃ s, machine.run start es = some s ∧
      (∀ context, ∃ context', (s.drawView.draw (some context)).2 = some context' ∧
        context'.painted = context.painted ++
          ((Drawing.ofEvents es).strokes.flatMap Stroke.segments).map DrawView.paint) ∧
      ∀ es' t, machine.run s es' = some t →
        s.drawView.currentLine <+: t.drawView.currentLine := by
  have hstart : (start : DrawScreen CGFloat).drawView.Records ⟨.black, []⟩ := ⟨rfl, rfl, rfl⟩
  obtain ⟨s, hrun, hrecords⟩ := records_run hstart (by simp) hes
  refine ⟨s, hrun, fun context => ?_, fun es' t ht => ?_⟩
  · obtain ⟨context', hcontext, hpainted⟩ := s.drawView.painted_draw context
    rw [hrecords.currentLine] at hpainted
    exact ⟨context', hcontext, hpainted⟩
  · exact Machine.run_invariant (I := fun u => s.drawView.currentLine <+: u.drawView.currentLine)
      (fun hu hv => hu.trans (currentLine_prefix_step hv)) List.prefix_rfl ht

/-- The colour changes in the middle of the first stroke; the second one has no move; the third one
is not over yet. -/
theorem painted_strokes_three_strokes :
    let es : List (Event ℕ) := [.touchesBegan ⟨0, 0⟩, .touchesMoved ⟨0, 1⟩, .setDrawColor 2,
      .touchesMoved ⟨1, 1⟩, .touchesEnded ⟨1, 1⟩, .touchesBegan ⟨5, 5⟩, .touchesEnded ⟨5, 5⟩,
      .display, .touchesBegan ⟨7, 7⟩, .touchesMoved ⟨8, 8⟩]
    ∃ s context, machine.run start es = some s ∧
      (s.drawView.draw (some .initial)).2 = some context ∧
      context.painted = [⟨⟨0, 0⟩, ⟨0, 1⟩, UIColor.black.cgColor⟩,
        ⟨⟨0, 1⟩, ⟨1, 1⟩, drawColors[2].cgColor⟩,
        ⟨⟨7, 7⟩, ⟨8, 8⟩, drawColors[2].cgColor⟩].map DrawView.paint := by
  intro es
  have hes : touches.run false es = some true := rfl
  obtain ⟨s, hrun, hdraw, -⟩ := painted_strokes hes
  obtain ⟨context, hcontext, hpainted⟩ := hdraw .initial
  exact ⟨s, context, hrun, hcontext, hpainted⟩

end DrawScreen

end SnapYak
