import ErDiagram.Proofs.DragRun
import ErDiagram.Proofs.SceneGeometry

/-! Lists of moves on a canvas. Each move is followed by a routing of its own, but only the last
routing leaves a trace, so making the moves one by one is as good as making them all and routing
once. -/
namespace ErDiagram

variable {α : Type} [Coordinate α]

/-! ### One move -/

/-- The canvas after one move and a routing, if the table is declared. -/
def Canvas.applyMove? (c : Canvas α) (m : Move α) : Option (Canvas α) :=
  (c.diagram.move? m.table m.dx m.dy).map fun d => Canvas.refresh { c with diagram := d }

namespace LiveCanvas

/-- The session has the hook that marks the canvas, and the canvas is not marked. -/
structure IsReady (c : LiveCanvas α) : Prop where
  hook : c.session.hook = some ()
  isStale : c.isStale = false

omit [Coordinate α] in
theorem start_isReady (c : Canvas α) : (start c).IsReady := ⟨rfl, rfl⟩

/-- Everything that a drag can do. A drag that moves a table leaves a mark. -/
theorem drag_cases {c : LiveCanvas α} (h : c.IsReady) (dx dy : α) :
    (∃ table d, c.session.held = some table ∧ c.canvas.diagram.move? table dx dy = some d ∧
      c.drag dx dy = (true, ⟨{ c.canvas with diagram := d }, c.session, true⟩)) ∨
    (∀ table, c.session.held = some table → c.canvas.diagram.move? table dx dy = none) ∧
      c.drag dx dy = (false, c) := by
  rcases c.session.dragBy_cases c.canvas.diagram dx dy with
    ⟨table, hHeld, hDeclared, hDrag⟩ | ⟨hNot, hDrag⟩
  · refine Or.inl ⟨table, _, hHeld, Diagram.move?_of_declared hDeclared dx dy, ?_⟩
    rw [drag, hDrag, h.hook, h.isStale]
    rfl
  · refine Or.inr ⟨fun table hHeld => Diagram.move?_of_undeclared (hNot table hHeld) dx dy, ?_⟩
    rw [drag, hDrag]
    exact Prod.ext rfl (congrArg (LiveCanvas.mk _ _) (Bool.or_false _))

/-- The mark that a move leaves is taken away before the next move, so every move begins alike. -/
theorem makeMoves_cons {c : LiveCanvas α} (h : c.IsReady) (m : Move α) (later : List (Move α)) :
    c.makeMoves (m :: later) =
      match c.canvas.applyMove? m with
      | some moved => makeMoves ⟨moved, c.session.release, false⟩ later
      | none => (⟨c.canvas, c.session.release, false⟩, some m.table) := by
  have hPressed : (c.press m.table).IsReady := ⟨h.hook, h.isStale⟩
  rw [makeMoves, Canvas.applyMove?]
  rcases drag_cases hPressed m.dx m.dy with ⟨table, d, hHeld, hMove, hDrag⟩ | ⟨hNot, hDrag⟩
  · obtain rfl : m.table = table := Option.some.inj hHeld
    have hMoved : c.canvas.diagram.move? m.table m.dx m.dy = some d := hMove
    rw [hDrag, hMoved]
    rfl
  · have hMoved : c.canvas.diagram.move? m.table m.dx m.dy = none := hNot m.table rfl
    rw [hDrag, hMoved]
    exact Prod.ext (congrArg (LiveCanvas.mk _ _) h.isStale) rfl

end LiveCanvas

theorem Canvas.applyMoves_cons (c : Canvas α) (m : Move α) (later : List (Move α)) :
    c.applyMoves (m :: later) =
      match c.applyMove? m with
      | some moved => moved.applyMoves later
      | none => (c, some m.table) := by
  have hMoves := LiveCanvas.makeMoves_cons (LiveCanvas.start_isReady c) m later
  have hCanvas : (LiveCanvas.start c).canvas = c := rfl
  rw [hCanvas] at hMoves
  rw [applyMoves, hMoves]
  cases c.applyMove? m <;> rfl

/-! ### Moves of a diagram -/

namespace Diagram

theorem move?_withConnectors (d : Diagram α) (connectors : List (Connector α)) (table : String)
    (dx dy : α) : Diagram.move? { d with connectors } table dx dy =
      (d.move? table dx dy).map fun moved => { moved with connectors } := by
  by_cases hDeclared : table ∈ d.tables.map Table.name
  · rw [move?_of_declared hDeclared]
    exact move?_of_declared (d := { d with connectors }) hDeclared dx dy
  · rw [move?_of_undeclared hDeclared]
    exact move?_of_undeclared (d := { d with connectors }) hDeclared dx dy

/-- Moves do not depend on the connectors, and leave them as they are. -/
theorem replay?_withConnectors (d : Diagram α) (connectors : List (Connector α))
    (moves : List (Move α)) : Diagram.replay? { d with connectors } moves =
      (d.replay? moves).map fun moved => { moved with connectors } := by
  induction moves generalizing d with
  | nil => rfl
  | cons m moves ih =>
      change (Diagram.move? { d with connectors } m.table m.dx m.dy).bind _ =
        ((d.move? m.table m.dx m.dy).bind _).map _
      rw [move?_withConnectors]
      cases d.move? m.table m.dx m.dy with
      | none => rfl
      | some moved => exact ih moved

theorem keys_subset_of_move? {d moved : Diagram α} {table : String} {dx dy : α}
    (h : d.move? table dx dy = some moved) : d.positions.keys ⊆ moved.positions.keys := by
  have hDeclared := move?_isSome.1 (Option.isSome_iff_exists.2 ⟨moved, h⟩)
  rw [move?_of_declared hDeclared, Option.some.injEq] at h
  rw [← h]
  exact (NameMap.keys_prefix_insert _ _ _).subset

theorem keys_subset_of_replay? {d moved : Diagram α} {moves : List (Move α)}
    (h : d.replay? moves = some moved) : d.positions.keys ⊆ moved.positions.keys := by
  induction moves generalizing d with
  | nil =>
      rw [← Option.some.inj h]
      exact List.Subset.refl _
  | cons m moves ih =>
      obtain ⟨next, hMove, hLater⟩ := Option.bind_eq_some_iff.1 h
      exact List.Subset.trans (keys_subset_of_move? hMove) (ih hLater)

end Diagram

/-! ### One routing for all moves -/

namespace Canvas

/-- A routing before the moves has no effect on a routing behind them. -/
theorem refresh_replay (c : Canvas α) {moves : List (Move α)} {d : Diagram α}
    (h : c.refresh.diagram.replay? moves = some d) : ∃ moved,
      c.diagram.replay? moves = some moved ∧ Canvas.refresh { c.refresh with diagram := d } =
        Canvas.refresh { c with diagram := moved } := by
  have hMoves := c.diagram.replay?_withConnectors c.refresh.diagram.connectors moves
  obtain ⟨moved, hMoved, rfl⟩ := Option.map_eq_some_iff.1 (hMoves.symm.trans h)
  have hScene : c.refresh.scene.sync moved.positions = c.scene.sync moved.positions :=
    c.scene.sync_sync_of_subset (Diagram.keys_subset_of_replay? hMoved)
  refine ⟨moved, hMoved, ?_⟩
  change Canvas.mk (moved.reroute (c.refresh.scene.sync moved.positions).rectOf)
    (c.refresh.scene.sync moved.positions) = _
  rw [hScene]
  rfl

/-- How many of the moves stand before the first one of a table that is not declared. -/
def movesToMake (c : Canvas α) (moves : List (Move α)) : Nat :=
  moves.findIdx fun m => m.table ∉ c.diagram.tables.map Table.name

/-- What a list of moves makes of a canvas: the moves before the first one of an unknown table are
made, and the canvas is routed once if there are any. -/
structure IsReplay (c : Canvas α) (moves : List (Move α)) (result : Canvas α × Option String) :
    Prop where
  accepted : result.2 = none ↔ c.movesToMake moves = moves.length
  unknown : ∀ h : c.movesToMake moves < moves.length,
    result.2 = some (moves[c.movesToMake moves]).table
  unchanged : c.movesToMake moves = 0 → result.1 = c
  moved : 0 < c.movesToMake moves → ∃ d, c.diagram.replay? (moves.take (c.movesToMake moves)) =
    some d ∧ result.1 = Canvas.refresh { c with diagram := d }

omit [Coordinate α] in
theorem movesToMake_cons_of_declared {c : Canvas α} {m : Move α}
    (h : m.table ∈ c.diagram.tables.map Table.name) (moves : List (Move α)) :
    c.movesToMake (m :: moves) = c.movesToMake moves + 1 := by
  rw [movesToMake, List.findIdx_cons, decide_eq_false (not_not_intro h)]
  rfl

omit [Coordinate α] in
theorem movesToMake_cons_of_undeclared {c : Canvas α} {m : Move α}
    (h : m.table ∉ c.diagram.tables.map Table.name) (moves : List (Move α)) :
    c.movesToMake (m :: moves) = 0 := by
  rw [movesToMake, List.findIdx_cons, decide_eq_true h]
  rfl

theorem isReplay_nil (c : Canvas α) : c.IsReplay [] (c.applyMoves []) :=
  ⟨iff_of_true rfl rfl, fun h => absurd h (Nat.lt_irrefl 0), fun _ => rfl,
    fun h => absurd h (Nat.lt_irrefl 0)⟩

theorem isReplay_of_undeclared {c : Canvas α} {m : Move α}
    (h : m.table ∉ c.diagram.tables.map Table.name) (moves : List (Move α)) :
    c.IsReplay (m :: moves) (c, some m.table) := by
  have hNone := movesToMake_cons_of_undeclared h moves
  refine ⟨iff_of_false (Option.some_ne_none _) ?_, fun _ => ?_, fun _ => rfl, fun hPos => ?_⟩
  · rw [hNone]
    exact (Nat.succ_ne_zero _).symm
  · simp only [hNone, List.getElem_cons_zero]
  · exact absurd hNone hPos.ne'

/-- A declared move in front of a list is made and routed; that routing is forgotten as soon as a
second move is made. -/
theorem IsReplay.cons {c : Canvas α} {m : Move α} {d : Diagram α}
    (hMove : c.diagram.move? m.table m.dx m.dy = some d) {moves : List (Move α)}
    {result : Canvas α × Option String}
    (h : (Canvas.refresh { c with diagram := d }).IsReplay moves result) :
    c.IsReplay (m :: moves) result := by
  have hDeclared := Diagram.move?_isSome.1 (Option.isSome_iff_exists.2 ⟨d, hMove⟩)
  have hTables : d.tables = c.diagram.tables := by
    rw [Diagram.move?_of_declared hDeclared, Option.some.injEq] at hMove
    rw [← hMove]
    rfl
  generalize hRouted : Canvas.refresh { c with diagram := d } = routed at h
  have hCount : c.movesToMake (m :: moves) = routed.movesToMake moves + 1 := by
    rw [movesToMake_cons_of_declared hDeclared, movesToMake, ← hTables, ← hRouted]
    rfl
  have hReplay (first : List (Move α)) :
      c.diagram.replay? (m :: first) = d.replay? first := by
    change (c.diagram.move? m.table m.dx m.dy).bind _ = _
    rw [hMove]
    rfl
  refine ⟨?_, fun hLess => ?_, fun hNone => ?_, fun _ => ?_⟩
  · rw [h.accepted, hCount, List.length_cons, Nat.succ_inj]
  · simp only [hCount, List.getElem_cons_succ]
    exact h.unknown _
  · rw [hCount] at hNone
    cases hNone
  · rw [hCount, List.take_succ_cons, hReplay]
    rcases Nat.eq_zero_or_pos (routed.movesToMake moves) with hZero | hPos
    · rw [hZero, h.unchanged hZero, ← hRouted]
      exact ⟨d, rfl, rfl⟩
    · obtain ⟨e, hLater, hResult⟩ := h.moved hPos
      rw [← hRouted] at hLater hResult
      obtain ⟨moved, hMoved, hRefresh⟩ := refresh_replay _ hLater
      rw [hRouted] at hMoved
      exact ⟨moved, hMoved, hResult.trans hRefresh⟩

theorem applyMoves_isReplay (c : Canvas α) (moves : List (Move α)) :
    c.IsReplay moves (c.applyMoves moves) := by
  induction moves generalizing c with
  | nil => exact c.isReplay_nil
  | cons m moves ih =>
      rw [applyMoves_cons, applyMove?]
      by_cases hDeclared : m.table ∈ c.diagram.tables.map Table.name
      · have hMove := Diagram.move?_of_declared hDeclared m.dx m.dy
        rw [hMove]
        exact .cons hMove (ih _)
      · rw [Diagram.move?_of_undeclared hDeclared]
        exact isReplay_of_undeclared hDeclared moves

/-- If all moves of a list are made, those of a list behind it are made from there. -/
theorem applyMoves_append {c : Canvas α} {first : List (Move α)}
    (h : (c.applyMoves first).2 = none) (last : List (Move α)) :
    c.applyMoves (first ++ last) = (c.applyMoves first).1.applyMoves last := by
  induction first generalizing c with
  | nil => rfl
  | cons m first ih =>
      rw [applyMoves_cons] at h ⊢
      rw [List.cons_append, applyMoves_cons]
      cases hMove : c.applyMove? m with
      | none =>
          rw [hMove] at h
          exact absurd h (Option.some_ne_none _)
      | some moved =>
          rw [hMove] at h
          exact ih h

/-- On any canvas, whatever was done with it before, making moves one by one and routing after each
is the same as making them all and routing once. They end at the first move of a table that is not
declared, which leaves the canvas as the moves before it have made it. So a list of moves can be cut
into two wherever its first part is made. -/
theorem applyMoves_batch (c : Canvas α) (moves : List (Move α)) :
    c.IsReplay moves (c.applyMoves moves) ∧
      ∀ first last, moves = first ++ last → (c.applyMoves first).2 = none →
        c.applyMoves moves = (c.applyMoves first).1.applyMoves last := by
  refine ⟨c.applyMoves_isReplay moves, ?_⟩
  rintro first last rfl hFirst
  exact applyMoves_append hFirst last

end Canvas

end ErDiagram
