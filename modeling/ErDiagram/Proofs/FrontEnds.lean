import ErDiagram.Command.Run
import ErDiagram.Proofs.CanvasRun

/-! The ways to a drawing: all at once, on a live canvas under a pointer, and by the command. They
show the same picture after the same moves. -/
namespace ErDiagram

variable {α : Type} [Coordinate α]

/-! ### A pointer on a live canvas -/

namespace LiveCanvas

/-- What a pointer does. It sets no hook: the hook of the session is the canvas's own. -/
def act (c : LiveCanvas α) : DragAction Empty α → LiveCanvas α
  | .press table => c.press table
  | .drag dx dy => (c.dragBy dx dy).2
  | .release => c.release

def run (c : LiveCanvas α) (actions : List (DragAction Empty α)) : LiveCanvas α :=
  actions.foldl act c

/-- A drag that returns true, as a move of the table that is held then. -/
def move? (c : LiveCanvas α) : DragAction Empty α → Option (Move α)
  | .drag dx dy => if (c.dragBy dx dy).1 then c.session.held.map (⟨·, dx, dy⟩) else none
  | _ => none

/-- The drags that return true, one after another. -/
def moves (c : LiveCanvas α) : List (DragAction Empty α) → List (Move α)
  | [] => []
  | a :: actions => (c.move? a).toList ++ (c.act a).moves actions

theorem run_append (c : LiveCanvas α) (first last : List (DragAction Empty α)) :
    c.run (first ++ last) = (c.run first).run last :=
  List.foldl_append

/-- Everything that a drag on a ready canvas can do: a move with its routing, or nothing. -/
theorem dragBy_cases {c : LiveCanvas α} (h : c.IsReady) (dx dy : α) :
    (∃ table moved, c.session.held = some table ∧ c.canvas.applyMove? ⟨table, dx, dy⟩ = some moved ∧
      c.dragBy dx dy = (true, ⟨moved, c.session, false⟩)) ∨
    (∀ table, c.session.held = some table → table ∉ c.canvas.diagram.tables.map Table.name) ∧
      c.dragBy dx dy = (false, c) := by
  rcases drag_cases h dx dy with ⟨table, d, hHeld, hMove, hDrag⟩ | ⟨hNot, hDrag⟩
  · refine Or.inl ⟨table, _, hHeld, by rw [Canvas.applyMove?, hMove]; rfl, ?_⟩
    rw [dragBy, hDrag]
    rfl
  · refine Or.inr ⟨fun table hHeld hDeclared => ?_, ?_⟩
    · have hMoved := Diagram.move?_of_declared hDeclared dx dy
      rw [hNot table hHeld] at hMoved
      cases hMoved
    · rw [dragBy, hDrag, catchUp, h.isStale]
      rfl

/-- No action leaves the mark behind. -/
theorem act_isReady {c : LiveCanvas α} (h : c.IsReady) (a : DragAction Empty α) :
    (c.act a).IsReady := by
  cases a with
  | press table => exact ⟨h.hook, h.isStale⟩
  | drag dx dy =>
      rcases dragBy_cases h dx dy with ⟨table, moved, -, -, hDrag⟩ | ⟨-, hDrag⟩
      · rw [act, hDrag]
        exact ⟨h.hook, rfl⟩
      · rw [act, hDrag]
        exact h
  | release => exact ⟨h.hook, h.isStale⟩
  | setHook hook => exact hook.elim

theorem run_isReady {c : LiveCanvas α} (h : c.IsReady) (actions : List (DragAction Empty α)) :
    (c.run actions).IsReady := by
  induction actions generalizing c with
  | nil => exact h
  | cons a actions ih => exact ih (act_isReady h a)

/-- An action is worth the move that it makes, if it makes one. -/
theorem applyMoves_move? {c : LiveCanvas α} (h : c.IsReady) (a : DragAction Empty α) :
    c.canvas.applyMoves (c.move? a).toList = ((c.act a).canvas, none) := by
  cases a with
  | press table => rfl
  | drag dx dy =>
      rcases dragBy_cases h dx dy with ⟨table, moved, hHeld, hMove, hDrag⟩ | ⟨-, hDrag⟩
      · rw [move?, act, hDrag, if_pos rfl, hHeld, Option.map_some, Option.toList_some,
          Canvas.applyMoves_cons, hMove]
        rfl
      · rw [move?, act, hDrag]
        rfl
  | release => rfl
  | setHook hook => exact hook.elim

/-- A run of a pointer is worth the list of the moves that it makes. -/
theorem applyMoves_moves {c : LiveCanvas α} (h : c.IsReady) (actions : List (DragAction Empty α)) :
    c.canvas.applyMoves (c.moves actions) = ((c.run actions).canvas, none) := by
  induction actions generalizing c with
  | nil => rfl
  | cons a actions ih =>
      have hFirst := applyMoves_move? h a
      rw [moves, Canvas.applyMoves_append (by rw [hFirst]), hFirst]
      exact ih (act_isReady h a)

theorem act_held {c : LiveCanvas α} (h : c.IsReady) {actions : List (DragAction Empty α)}
    (hHeld : c.session.held = heldAfter actions) (a : DragAction Empty α) :
    (c.act a).session.held = heldAfter (actions ++ [a]) := by
  rw [heldAfter, findRev?_concat]
  cases a with
  | press table => rfl
  | drag dx dy =>
      rcases dragBy_cases h dx dy with ⟨table, moved, -, -, hDrag⟩ | ⟨-, hDrag⟩
      · rw [act, hDrag]
        exact hHeld
      · rw [act, hDrag]
        exact hHeld
  | release => rfl
  | setHook hook => exact hook.elim

theorem run_held (c : Canvas α) (actions : List (DragAction Empty α)) :
    ((start c).run actions).session.held = heldAfter actions := by
  induction actions using List.reverseRecOn with
  | nil => rfl
  | append_singleton actions a ih =>
      rw [run_append]
      exact act_held (run_isReady (start_isReady c) actions) ih a

theorem dragBy_eq_true {c : LiveCanvas α} (h : c.IsReady) (dx dy : α) :
    (c.dragBy dx dy).1 = true ↔
      ∃ table, c.session.held = some table ∧ table ∈ c.canvas.diagram.tables.map Table.name := by
  rcases dragBy_cases h dx dy with ⟨table, moved, hHeld, hMove, hDrag⟩ | ⟨hNot, hDrag⟩
  · obtain ⟨d, hMoved, -⟩ := Option.map_eq_some_iff.1 hMove
    rw [hDrag]
    exact iff_of_true rfl ⟨table, hHeld, Diagram.move?_isSome.1 (Option.isSome_of_eq_some hMoved)⟩
  · rw [hDrag]
    exact iff_of_false Bool.false_ne_true fun ⟨table, hHeld, hDeclared⟩ =>
      hNot table hHeld hDeclared

end LiveCanvas

/-- When all moves of a list are made on a routed canvas, there is one routing behind them, if it is
needed or not. -/
theorem Canvas.moved_of_applyMoves {c later : Canvas α} (hRouted : c.refresh = c)
    {moves : List (Move α)} (h : c.applyMoves moves = (later, none)) :
    ∃ d, c.diagram.replay? moves = some d ∧ later = Canvas.refresh { c with diagram := d } := by
  have hReplay := c.applyMoves_isReplay moves
  rw [h] at hReplay
  have hAll : c.movesToMake moves = moves.length := hReplay.accepted.1 rfl
  cases moves with
  | nil => exact ⟨c.diagram, rfl, (hReplay.unchanged rfl).trans hRouted.symm⟩
  | cons m moves =>
      obtain ⟨d, hMoved, hLater⟩ := hReplay.moved (hAll ▸ Nat.succ_pos moves.length)
      rw [hAll, List.take_length] at hMoved
      exact ⟨d, hMoved, hLater⟩

/-! ### The command -/

namespace Command

/-- The command is given this source and no settings. -/
structure Arguments.Reads (a : Arguments) (t : FileTree) (source : String) : Prop where
  settings : a.settings = none
  input : t.readText a.input = .ok source

/-- How the command ends with a drawing: it is the result, or it is written to the output file. -/
def deliver (output : Option String) (t : FileTree) (drawing : String) :
    Except RunError (Option String) × FileTree :=
  match output with
  | none => (.ok (some drawing), t)
  | some path =>
    match t.writeText path drawing with
    | .ok later => (.ok none, later)
    | .error error => (.error (.file error), t)

namespace FileTree

theorem run_readText (t : FileTree) (path : String) :
    StateT.run (FileAccess.readText path : StateM FileTree _) t = pure (t.readText path, t) :=
  rfl

theorem run_writeText (t : FileTree) (path text : String) :
    StateT.run (FileAccess.writeText path text : StateM FileTree _) t =
      pure (match t.writeText path text with
        | .ok later => (.ok (), later)
        | .error error => (.error error, t)) := by
  change StateT.run (do
    match t.writeText path text with
    | .ok tree => set tree; return .ok ()
    | .error error => return .error error : StateM FileTree (Except FileError Unit)) t = _
  cases t.writeText path text <;> rfl

end FileTree

/-- The command in a directory in memory. -/
def runIn (t : FileTree) (a : Arguments) : Except RunError (Option String) × FileTree :=
  StateT.run (run a : StateM FileTree (Except RunError (Option String))) t

theorem runIn_of_reads {a : Arguments} {t : FileTree} {source : String} (h : a.Reads t source) :
    runIn t a = match draw .standard source a.moves with
      | .ok drawing => deliver a.output t drawing
      | .error error => (.error error, t) := by
  simp only [runIn, run, h.settings, loadSettings, StateT.run_bind, pure_bind,
    FileTree.run_readText, h.input]
  cases draw .standard source a.moves with
  | error error => rfl
  | ok drawing =>
      cases a.output with
      | none => rfl
      | some path =>
          simp only [deliver, StateT.run_bind, FileTree.run_writeText]
          cases t.writeText path drawing <;> rfl

end Command

/-! ### One picture -/

/-- Every way to a drawing refuses the source with this error and its wording. -/
structure RefusedByAll (source : String) (e : SyntaxError) : Prop where
  atOnce : @Canvas.renderSource Float _ _ source = .error e
  live : @LiveCanvas.load Float _ source = .error e
  command : ∀ (t : Command.FileTree) (a : Command.Arguments), a.Reads t source →
    Command.runIn t a = (.error (.invalidSource e), t)
  message : (Command.RunError.invalidSource e).message = e.message

/-- Every way to a drawing of a source with these tables begins with the canvas `c` and shows the
same picture after the same moves. -/
structure DrawnAlike (source : String) (ds : List Table) (c : Canvas Float) : Prop where
  canvas : Canvas.load .standard source = .ok c
  atOnce : @Canvas.renderSource Float _ _ source = .ok c.render
  live : LiveCanvas.load source = .ok (.start c)
  held : ∀ actions, ((LiveCanvas.start c).run actions).session.held = heldAfter actions
  answer : ∀ actions dx dy, (((LiveCanvas.start c).run actions).dragBy dx dy).1 = true ↔
    ∃ table, heldAfter actions = some table ∧ table ∈ ds.map Table.name
  /-- The drags that return true are made as moves of the diagram, with one routing at the end. -/
  moved : ∀ actions, ∃ d, c.diagram.replay? ((LiveCanvas.start c).moves actions) = some d ∧
    ((LiveCanvas.start c).run actions).canvas = Canvas.refresh { c with diagram := d }
  unmoved : ∀ actions, (LiveCanvas.start c).moves actions = [] →
    ((LiveCanvas.start c).run actions).canvas = c
  command : ∀ actions (t : Command.FileTree) (a : Command.Arguments), a.Reads t source →
    a.moves = (LiveCanvas.start c).moves actions → Command.runIn t a =
      Command.deliver a.output t ((LiveCanvas.start c).run actions).canvas.render

theorem refusedByAll {source : String} {e : SyntaxError} (h : parse source = .error e) :
    RefusedByAll source e := by
  have hLoad {α : Type} [Coordinate α] (settings : Settings α) :
      Canvas.load settings source = .error e := by
    rw [Canvas.load, h]
    rfl
  refine ⟨?_, ?_, fun t a hReads => ?_, rfl⟩
  · rw [Canvas.renderSource, hLoad]
    rfl
  · rw [LiveCanvas.load, hLoad]
    rfl
  · rw [Command.runIn_of_reads hReads, Command.draw, hLoad]

/-- A loaded canvas is routed already, so a routing after no moves changes nothing. -/
theorem Canvas.refresh_ofTables (settings : Settings α) {ds : List Table} (h : WellNamed ds) :
    (Canvas.ofTables settings ds).refresh = Canvas.ofTables settings ds :=
  ((Canvas.ofTables_fits settings h).isCoherent h.nodup (Canvas.refresh_isSettled _)).refreshed

theorem drawnAlike {source : String} {ds : List Table} (h : parse source = .ok ds) :
    DrawnAlike source ds (Canvas.ofTables .standard ds) := by
  have hNamed := wellNamed_of_parse h
  have hLoad := Canvas.load_of_parse (.standard : Settings Float) h
  generalize hCanvas : Canvas.ofTables (.standard : Settings Float) ds = c at hLoad
  have hFits : c.Fits .standard ds := hCanvas ▸ Canvas.ofTables_fits .standard hNamed
  have hRefresh : c.refresh = c := hCanvas ▸ Canvas.refresh_ofTables .standard hNamed
  have hReady := LiveCanvas.start_isReady c
  have hMoves (actions : List (DragAction Empty Float)) :
      c.applyMoves ((LiveCanvas.start c).moves actions) =
        (((LiveCanvas.start c).run actions).canvas, none) :=
    LiveCanvas.applyMoves_moves hReady actions
  refine
    { canvas := hLoad
      atOnce := by rw [Canvas.renderSource, hLoad]; rfl
      live := by rw [LiveCanvas.load, hLoad]; rfl
      held := LiveCanvas.run_held c
      answer := fun actions dx dy => ?_
      moved := fun actions => ?_
      unmoved := fun actions hNone => ?_
      command := fun actions t a hReads hSame => ?_ }
  · have hTables := (hFits.applyMoves hNamed.nodup ((LiveCanvas.start c).moves actions)).tables
    rw [hMoves] at hTables
    rw [LiveCanvas.dragBy_eq_true (LiveCanvas.run_isReady hReady actions), LiveCanvas.run_held,
      hTables]
  · exact Canvas.moved_of_applyMoves hRefresh (hMoves actions)
  · have hUnmoved := hMoves actions
    rw [hNone] at hUnmoved
    exact (congrArg Prod.fst hUnmoved).symm
  · rw [Command.runIn_of_reads hReads, Command.draw, hLoad, hSame]
    simp only [hMoves]

/-- A source is drawn by all ways or refused by all with the same message. -/
theorem frontEnds_agree (source : String) :
    match parse source with
    | .error e => RefusedByAll source e
    | .ok ds => ∃ c, DrawnAlike source ds c := by
  cases h : parse source with
  | error e => exact refusedByAll h
  | ok ds => exact ⟨_, drawnAlike h⟩

/-- A directory with one source in it. -/
def ordersDirectory : Command.FileTree := .ofFiles [("orders.erd", ordersSource.toUTF8)]

/-- A press, a drag and a release show what the command draws with one move. -/
theorem orders_drawnAlike : ∃ c : Canvas Float,
    let dragged := (LiveCanvas.start c).run [.press "user", .drag 3 4, .release]
    LiveCanvas.load ordersSource = .ok (.start c) ∧
      Command.runIn ordersDirectory ⟨"orders.erd", none, none, [⟨"user", 3, 4⟩], "warn"⟩ =
        (.ok (some dragged.canvas.render), ordersDirectory) := by
  have hAgree := frontEnds_agree ordersSource
  rw [parse_ordersSource] at hAgree
  obtain ⟨c, hAlike⟩ := hAgree
  have hDrag : (((LiveCanvas.start c).press "user").dragBy 3 4).1 = true :=
    (hAlike.answer [.press "user"] 3 4).2 ⟨"user", rfl, by decide⟩
  have hMoves : (LiveCanvas.start c).moves [.press "user", .drag 3 4, .release] =
      [⟨"user", 3, 4⟩] := by
    simp only [LiveCanvas.moves, LiveCanvas.act, LiveCanvas.move?, hDrag]
    rfl
  have hReads : (Command.Arguments.mk "orders.erd" none none [⟨"user", 3, 4⟩] "warn").Reads
      ordersDirectory ordersSource := ⟨rfl, by decide +kernel⟩
  exact ⟨c, hAlike.live, hAlike.command _ _ _ hReads hMoves.symm⟩

end ErDiagram
