import ErDiagram.Drawing
import ErDiagram.DragSession
import ErDiagram.Scene
import ErDiagram.Schema.Parse

/-! A diagram on the scene of its own tables. -/

namespace ErDiagram

/-- A table and how far to move it. -/
structure Move (α : Type) where
  table : String
  dx : α
  dy : α
deriving DecidableEq, Repr

structure Canvas (α : Type) where
  diagram : Diagram α
  scene : Scene α

namespace Canvas

variable {α : Type} [Coordinate α]

/-- Brings the boxes to the places of their tables and routes the connectors anew. -/
def refresh (c : Canvas α) : Canvas α :=
  let scene := c.scene.sync c.diagram.positions
  ⟨c.diagram.reroute scene.rectOf, scene⟩

/-- Measures, lays out and routes the tables. -/
def ofTables (settings : Settings α) (tables : List Table) : Canvas α :=
  let scene := Scene.ofTables settings.metrics tables
  let diagram := (Diagram.ofTables settings tables).layOut scene.rectOf
  refresh ⟨diagram.2, scene⟩

/-- The canvas of the tables that a source declares. -/
def load (settings : Settings α) (source : String) : Except SyntaxError (Canvas α) :=
  (parse source).map (ofTables settings)

/-- The text of the drawing. -/
def render [Written α] (c : Canvas α) : String :=
  ErDiagram.render c.diagram c.scene

/-- The text of the drawing of a source, with standard settings and no moves. -/
def renderSource [Written α] (source : String) : Except SyntaxError String :=
  (load (.standard : Settings α) source).map render

end Canvas

/-- A canvas that is dragged on by a pointer. The hook of the session marks the canvas as stale: a
table was moved, and the boxes and the connectors do not show it yet. -/
structure LiveCanvas (α : Type) where
  canvas : Canvas α
  session : DragSession Unit
  isStale : Bool

namespace LiveCanvas

variable {α : Type} [Coordinate α]

/-- A canvas on which no table is held. -/
def start (canvas : Canvas α) : LiveCanvas α := ⟨canvas, .start (some ()), false⟩

/-- The canvas of the tables that a source declares, with standard settings. -/
def load (source : String) : Except SyntaxError (LiveCanvas α) :=
  (Canvas.load .standard source).map start

def press (c : LiveCanvas α) (table : String) : LiveCanvas α :=
  { c with session := c.session.press table }

def release (c : LiveCanvas α) : LiveCanvas α :=
  { c with session := c.session.release }

/-- Moves the table that is held, and tells whether it did. -/
def drag (c : LiveCanvas α) (dx dy : α) : Bool × LiveCanvas α :=
  let drag := c.session.dragBy c.canvas.diagram dx dy
  (drag.moved, { c with
    canvas := { c.canvas with diagram := drag.diagram }
    isStale := c.isStale || drag.fired.isSome })

/-- Routes a stale canvas anew, and tells whether it was stale. -/
def catchUp (c : LiveCanvas α) : Bool × LiveCanvas α :=
  if c.isStale then (true, { c with canvas := c.canvas.refresh, isStale := false }) else (false, c)

/-- Moves the table that is held and routes anew, and tells whether it did. -/
def dragBy (c : LiveCanvas α) (dx dy : α) : Bool × LiveCanvas α :=
  (c.drag dx dy).2.catchUp

/-- Makes the moves one after another up to the first of an unknown table: a press, a drag and a
release, and then a routing if the canvas is stale. Gives the name of the unknown table if there is
one. -/
def makeMoves (c : LiveCanvas α) : List (Move α) → LiveCanvas α × Option String
  | [] => (c, none)
  | m :: later =>
    let (moved, c) := (c.press m.table).drag m.dx m.dy
    let c := c.release
    if moved then c.catchUp.2.makeMoves later else (c, some m.table)

end LiveCanvas

/-- Makes the moves one after another up to the first of an unknown table, with a session of their
own. Gives the canvas after those that were made, and the name of the unknown table if there is
one. -/
def Canvas.applyMoves {α : Type} [Coordinate α] (c : Canvas α) (moves : List (Move α)) :
    Canvas α × Option String :=
  let (live, unknown) := (LiveCanvas.start c).makeMoves moves
  (live.canvas, unknown)

end ErDiagram
