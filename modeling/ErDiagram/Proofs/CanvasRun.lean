import ErDiagram.Proofs.MoveReplay

/-! Runs of actions on a canvas. The places of the tables stand in the diagram and again in the
scene, and the connectors are drawn from the scene; all three agree from a routing on until the next
move. -/
namespace ErDiagram

variable {Hook α : Type} [Coordinate α]

/-! ### Actions -/

/-- What can be done with a canvas and a drag session on it. A drag or a move does not route
anew. -/
inductive CanvasAction (α : Type) where
  | press (table : String)
  | drag (dx dy : α)
  | release
  | move (table : String) (dx dy : α)
  | layOut
  | refresh
  | applyMoves (moves : List (Move α))

/-- The action does not touch the scene or the connectors. -/
def CanvasAction.IsQuiet : CanvasAction α → Prop
  | .refresh | .applyMoves _ => False
  | _ => True

/-- A canvas, and the session that drags its tables. -/
structure CanvasSession (Hook α : Type) where
  canvas : Canvas α
  drag : DragSession Hook

namespace CanvasSession

def withDiagram (s : CanvasSession Hook α) (d : Diagram α) : CanvasSession Hook α :=
  { s with canvas := { s.canvas with diagram := d } }

def act (s : CanvasSession Hook α) : CanvasAction α → CanvasSession Hook α
  | .press table => { s with drag := s.drag.press table }
  | .drag dx dy => s.withDiagram (s.drag.dragBy s.canvas.diagram dx dy).diagram
  | .release => { s with drag := s.drag.release }
  | .move table dx dy => s.withDiagram ((s.canvas.diagram.move? table dx dy).getD s.canvas.diagram)
  | .layOut => s.withDiagram (s.canvas.diagram.layOut s.canvas.scene.rectOf).2
  | .refresh => { s with canvas := s.canvas.refresh }
  | .applyMoves moves => { s with canvas := (s.canvas.applyMoves moves).1 }

def run (s : CanvasSession Hook α) (actions : List (CanvasAction α)) : CanvasSession Hook α :=
  actions.foldl act s

theorem run_append (s : CanvasSession Hook α) (first last : List (CanvasAction α)) :
    s.run (first ++ last) = (s.run first).run last :=
  List.foldl_append

/-- The action ends with a routing. A list of moves does so if it moves a table at all, that is, if
its first table is declared. -/
def Reroutes (s : CanvasSession Hook α) : CanvasAction α → Prop
  | .refresh => True
  | .applyMoves (m :: _) => (s.canvas.diagram.table? m.table).isSome
  | _ => False

/-- The last of the actions ends with a routing; loading a canvas does so too. -/
def HasRouted (s : CanvasSession Hook α) (actions : List (CanvasAction α)) : Prop :=
  actions = [] ∨ ∃ before a, actions = before ++ [a] ∧ (s.run before).Reroutes a

/-- None of the actions has an effect on the places of the tables. -/
def LeavesPlaces (s : CanvasSession Hook α) : List (CanvasAction α) → Prop
  | [] => True
  | a :: actions =>
      (s.act a).canvas.diagram.positions = s.canvas.diagram.positions ∧
        (s.act a).LeavesPlaces actions

end CanvasSession

/-! ### What belongs to the schema -/

/-- What holds of a canvas of these tables whatever is done with it. -/
structure Canvas.Fits (settings : Settings α) (ds : List Table) (c : Canvas α) : Prop where
  tables : c.diagram.tables = ds
  colors : c.diagram.colors = settings.palette.assign ds
  routing : c.diagram.routing = settings.routing
  isLaidOut : c.diagram.isLaidOut = true
  positions : c.diagram.positions.keys = columnOrder ds
  measures : c.scene.Measures settings.metrics ds
  connectors : c.diagram.connectors =
    settings.routing.route ds (settings.palette.assign ds) c.scene.rectOf

/-- The boxes are at the places that the diagram has for their tables. -/
def Canvas.IsSettled (c : Canvas α) : Prop := c.scene.sync c.diagram.positions = c.scene

/-- All three copies agree: the box of each table is at its place and as large as it was measured,
and the connectors are those of a routing over these boxes, so another routing changes nothing. -/
structure Canvas.IsCoherent (settings : Settings α) (ds : List Table) (c : Canvas α) : Prop where
  boxes : ∀ t ∈ ds, ∃ p, c.diagram.positions.get? t.name = some p ∧ c.scene.tableRect t.name =
    some ⟨p.x, p.y, settings.metrics.tableWidth t, settings.metrics.tableHeight t⟩
  connectors : c.diagram.connectors =
    settings.routing.route ds (settings.palette.assign ds) c.scene.rectOf
  refreshed : c.refresh = c

/-- The tables may have changed their places, and nothing else has changed. -/
def Diagram.MovedTo (d later : Diagram α) : Prop :=
  ∃ positions : NameMap (Point α), positions.keys = d.positions.keys ∧
    later = { d with positions }

omit [Coordinate α] in
theorem Diagram.MovedTo.refl (d : Diagram α) : d.MovedTo d := ⟨d.positions, rfl, rfl⟩

section Canvas

variable {settings : Settings α} {ds : List Table} {c : Canvas α}

namespace Canvas

theorem Fits.of_movedTo (h : c.Fits settings ds) {d : Diagram α} (hMoved : c.diagram.MovedTo d) :
    Fits settings ds { c with diagram := d } := by
  obtain ⟨positions, hKeys, rfl⟩ := hMoved
  exact ⟨h.tables, h.colors, h.routing, h.isLaidOut, hKeys.trans h.positions, h.measures,
    h.connectors⟩

theorem Fits.refresh (h : c.Fits settings ds) : c.refresh.Fits settings ds where
  tables := h.tables
  colors := h.colors
  routing := h.routing
  isLaidOut := h.isLaidOut
  positions := h.positions
  measures := h.measures.sync c.diagram.positions
  connectors := by
    rw [← h.colors, ← h.routing, ← h.tables]
    rfl

theorem refresh_isSettled (c : Canvas α) : c.refresh.IsSettled :=
  c.scene.sync_sync c.diagram.positions

theorem Fits.layOut (h : c.Fits settings ds) (geometry : Geometry α) :
    (c.diagram.layOut geometry).2 = c.diagram := by
  rw [Diagram.layOut, if_pos h.isLaidOut]

/-- A table that can be moved has a place already, so no name is added to the places. -/
theorem Fits.move? (h : c.Fits settings ds) (hNodup : (ds.map Table.name).Nodup) {table : String}
    {dx dy : α} {d : Diagram α} (hMove : c.diagram.move? table dx dy = some d) :
    c.diagram.MovedTo d := by
  have hDeclared := Diagram.move?_isSome.1 (Option.isSome_iff_exists.2 ⟨d, hMove⟩)
  rw [Diagram.move?_of_declared hDeclared, Option.some.injEq] at hMove
  refine ⟨_, ?_, hMove.symm⟩
  have hKey : table ∈ c.diagram.positions.keys := by
    rw [h.positions, (columnOrder_perm hNodup).mem_iff, ← h.tables]
    exact hDeclared
  rw [NameMap.keys_insert, if_pos hKey]

theorem Fits.dragBy (h : c.Fits settings ds) (hNodup : (ds.map Table.name).Nodup)
    (session : DragSession Hook) (dx dy : α) :
    c.diagram.MovedTo (session.dragBy c.diagram dx dy).diagram := by
  unfold DragSession.dragBy
  split
  · rename_i d hDrag
    obtain ⟨table, -, hMove⟩ := Option.bind_eq_some_iff.1 hDrag
    exact h.move? hNodup hMove
  · exact .refl c.diagram

/-- A move that is made ends with a routing. -/
theorem Fits.applyMove? (h : c.Fits settings ds) (hNodup : (ds.map Table.name).Nodup)
    {m : Move α} {later : Canvas α} (hMove : c.applyMove? m = some later) :
    ∃ d, c.diagram.MovedTo d ∧ later = Canvas.refresh { c with diagram := d } := by
  obtain ⟨d, hMoved, rfl⟩ := Option.map_eq_some_iff.1 hMove
  exact ⟨d, h.move? hNodup hMoved, rfl⟩

theorem Fits.applyMoves (h : c.Fits settings ds) (hNodup : (ds.map Table.name).Nodup)
    (moves : List (Move α)) : (c.applyMoves moves).1.Fits settings ds := by
  induction moves generalizing c with
  | nil => exact h
  | cons m later ih =>
      rw [applyMoves_cons]
      split
      · rename_i moved hMove
        obtain ⟨d, hMoved, rfl⟩ := h.applyMove? hNodup hMove
        exact ih (h.of_movedTo hMoved).refresh
      · exact h

theorem applyMove?_isSettled {m : Move α} {later : Canvas α}
    (hMove : c.applyMove? m = some later) : later.IsSettled := by
  obtain ⟨d, -, rfl⟩ := Option.map_eq_some_iff.1 hMove
  exact refresh_isSettled _

theorem IsSettled.applyMoves (h : c.IsSettled) (moves : List (Move α)) :
    (c.applyMoves moves).1.IsSettled := by
  induction moves generalizing c with
  | nil => exact h
  | cons m later ih =>
      rw [applyMoves_cons]
      split
      · rename_i moved hMove
        exact ih (applyMove?_isSettled hMove)
      · exact h

theorem applyMove?_isSome {m : Move α} (h : (c.diagram.table? m.table).isSome) :
    (c.applyMove? m).isSome := by
  simp [Canvas.applyMove?, Diagram.move?, h]

theorem applyMoves_isSettled {m : Move α} (h : (c.diagram.table? m.table).isSome)
    (later : List (Move α)) : (c.applyMoves (m :: later)).1.IsSettled := by
  obtain ⟨moved, hMove⟩ := Option.isSome_iff_exists.1 (applyMove?_isSome h)
  rw [applyMoves_cons, hMove]
  exact (applyMove?_isSettled hMove).applyMoves later

theorem Fits.isCoherent (h : c.Fits settings ds) (hNodup : (ds.map Table.name).Nodup)
    (hSettled : c.IsSettled) : c.IsCoherent settings ds := by
  refine ⟨fun t ht => ?_, h.connectors, ?_⟩
  · have hKey : t.name ∈ c.diagram.positions.keys := by
      rw [h.positions, (columnOrder_perm hNodup).mem_iff]
      exact List.mem_map_of_mem ht
    obtain ⟨p, hPlace⟩ := Option.ne_none_iff_exists'.1 (mt NameMap.get?_eq_none_iff.1
      (not_not_intro hKey))
    obtain ⟨corner, hBox⟩ := h.measures.boxes t ht
    refine ⟨p, hPlace, ?_⟩
    rw [← hSettled, Scene.tableRect, Scene.get?_sync, hBox, hPlace]
    rfl
  · have hRoute : c.diagram.routing.route c.diagram.tables c.diagram.colors c.scene.rectOf =
        c.diagram.connectors := by
      rw [h.tables, h.colors, h.routing, h.connectors]
    rw [Canvas.refresh, hSettled, Diagram.reroute, hRoute]

end Canvas

/-! ### Loading -/

namespace LayoutSettings

theorem keys_placeFrom (s : LayoutSettings α) {geometry : Geometry α} {names : List String}
    (hDrawn : ∀ name ∈ names, (geometry (tableId name)).isSome) (placed : NameMap (Point α))
    (x : α) (hNodup : (placed.keys ++ names).Nodup) :
    (s.placeFrom geometry placed x names).keys = placed.keys ++ names := by
  induction names generalizing placed x with
  | nil => rw [placeFrom, List.append_nil]
  | cons name names ih =>
      obtain ⟨hHere, hLater⟩ := List.forall_mem_cons.1 hDrawn
      obtain ⟨rect, hRect⟩ := Option.isSome_iff_exists.1 hHere
      have hNew : name ∉ placed.keys := fun hMem =>
        (List.nodup_append.1 hNodup).2.2 name hMem name List.mem_cons_self rfl
      have hKeys : (placed.insert name ⟨x, s.marginY⟩).keys = placed.keys ++ [name] := by
        rw [NameMap.keys_insert, if_neg hNew]
      simp only [placeFrom, hRect]
      rw [ih hLater _ _ (by simpa [hKeys] using hNodup), hKeys, List.append_assoc]
      rfl

/-- Tables that are all drawn are placed in their order. -/
theorem keys_place (s : LayoutSettings α) {geometry : Geometry α} {order : List String}
    (hDrawn : ∀ name ∈ order, (geometry (tableId name)).isSome) (hNodup : order.Nodup) :
    (s.place order geometry).keys = order :=
  s.keys_placeFrom hDrawn .empty s.marginX hNodup

end LayoutSettings

theorem Canvas.load_of_parse (settings : Settings α) {text : String} {ds : List Table}
    (h : parse text = .ok ds) : Canvas.load settings text = .ok (Canvas.ofTables settings ds) := by
  rw [Canvas.load, h]
  rfl

/-- All tables of an accepted schema are measured, so all of them are placed. -/
theorem Canvas.ofTables_fits (settings : Settings α) {ds : List Table} (h : WellNamed ds) :
    (Canvas.ofTables settings ds).Fits settings ds := by
  have hMeasures := Scene.ofTables_measures settings.metrics h.nodup
  have hPerm := columnOrder_perm h.nodup
  have hDrawn : ∀ name ∈ columnOrder ds,
      ((Scene.ofTables settings.metrics ds).rectOf (tableId name)).isSome := by
    intro name hName
    obtain ⟨t, ht, rfl⟩ := List.mem_map.1 (hPerm.mem_iff.1 hName)
    rw [Scene.rectOf_tableId _ (h.tables t ht).name.dot_not_mem]
    exact hMeasures.tableRect_isSome ht
  have hPlaced := settings.layout.keys_place hDrawn (hPerm.nodup_iff.2 h.nodup)
  exact ⟨rfl, rfl, rfl, rfl, hPlaced, hMeasures.sync _, rfl⟩

end Canvas

/-! ### Runs -/

namespace CanvasSession

variable {settings : Settings α} {ds : List Table} {s : CanvasSession Hook α}

/-- A quiet action moves tables in the diagram at most. -/
theorem act_of_isQuiet (h : s.canvas.Fits settings ds) (hNodup : (ds.map Table.name).Nodup)
    {a : CanvasAction α} (hQuiet : a.IsQuiet) :
    ∃ d, s.canvas.diagram.MovedTo d ∧ (s.act a).canvas = { s.canvas with diagram := d } := by
  cases a with
  | press table => exact ⟨_, .refl _, rfl⟩
  | drag dx dy => exact ⟨_, h.dragBy hNodup s.drag dx dy, rfl⟩
  | release => exact ⟨_, .refl _, rfl⟩
  | move table dx dy =>
      refine ⟨_, ?_, rfl⟩
      cases hMove : s.canvas.diagram.move? table dx dy with
      | none => exact .refl _
      | some d => exact h.move? hNodup hMove
  | layOut =>
      refine ⟨_, ?_, rfl⟩
      rw [h.layOut]
      exact .refl _
  | refresh => exact hQuiet.elim
  | applyMoves => exact hQuiet.elim

theorem act_fits (h : s.canvas.Fits settings ds) (hNodup : (ds.map Table.name).Nodup)
    (a : CanvasAction α) : (s.act a).canvas.Fits settings ds := by
  have hQuiet (hQuiet : a.IsQuiet) : (s.act a).canvas.Fits settings ds := by
    obtain ⟨d, hMoved, hCanvas⟩ := act_of_isQuiet h hNodup hQuiet
    rw [hCanvas]
    exact h.of_movedTo hMoved
  cases a with
  | refresh => exact h.refresh
  | applyMoves moves => exact h.applyMoves hNodup moves
  | _ => exact hQuiet trivial

theorem run_fits (h : s.canvas.Fits settings ds) (hNodup : (ds.map Table.name).Nodup)
    (actions : List (CanvasAction α)) : (s.run actions).canvas.Fits settings ds := by
  induction actions generalizing s with
  | nil => exact h
  | cons a actions ih => exact ih (act_fits h hNodup a)

theorem run_of_isQuiet (h : s.canvas.Fits settings ds) (hNodup : (ds.map Table.name).Nodup)
    {actions : List (CanvasAction α)} (hQuiet : ∀ a ∈ actions, a.IsQuiet) :
    (s.run actions).canvas.scene = s.canvas.scene ∧
      (s.run actions).canvas.diagram.connectors = s.canvas.diagram.connectors := by
  induction actions generalizing s with
  | nil => exact ⟨rfl, rfl⟩
  | cons a actions ih =>
      obtain ⟨hHere, hLater⟩ := List.forall_mem_cons.1 hQuiet
      obtain ⟨d, ⟨positions, -, rfl⟩, hCanvas⟩ := act_of_isQuiet h hNodup hHere
      obtain ⟨hScene, hConnectors⟩ := ih (act_fits h hNodup a) hLater
      rw [hCanvas] at hScene hConnectors
      exact ⟨hScene, hConnectors⟩

theorem act_isSettled_of_reroutes {a : CanvasAction α} (h : s.Reroutes a) :
    (s.act a).canvas.IsSettled := by
  cases a with
  | refresh => exact s.canvas.refresh_isSettled
  | applyMoves moves =>
      cases moves with
      | nil => exact h.elim
      | cons m later => exact Canvas.applyMoves_isSettled h later
  | _ => exact h.elim

/-- Boxes stay at the places of their tables while these do not move. -/
theorem act_isSettled (h : s.canvas.Fits settings ds) (hNodup : (ds.map Table.name).Nodup)
    (hSettled : s.canvas.IsSettled) {a : CanvasAction α}
    (hPlaces : (s.act a).canvas.diagram.positions = s.canvas.diagram.positions) :
    (s.act a).canvas.IsSettled := by
  have hQuiet (hQuiet : a.IsQuiet) : (s.act a).canvas.IsSettled := by
    obtain ⟨d, -, hCanvas⟩ := act_of_isQuiet h hNodup hQuiet
    have hScene : (s.act a).canvas.scene = s.canvas.scene := by rw [hCanvas]
    rw [Canvas.IsSettled, hPlaces, hScene]
    exact hSettled
  cases a with
  | refresh => exact s.canvas.refresh_isSettled
  | applyMoves moves => exact hSettled.applyMoves moves
  | _ => exact hQuiet trivial

theorem run_isSettled (h : s.canvas.Fits settings ds) (hNodup : (ds.map Table.name).Nodup)
    (hSettled : s.canvas.IsSettled) {actions : List (CanvasAction α)}
    (hPlaces : s.LeavesPlaces actions) : (s.run actions).canvas.IsSettled := by
  induction actions generalizing s with
  | nil => exact hSettled
  | cons a actions ih =>
      exact ih (act_fits h hNodup a) (act_isSettled h hNodup hSettled hPlaces.1) hPlaces.2

theorem HasRouted.isSettled {start : CanvasSession Hook α} {actions : List (CanvasAction α)}
    (hStart : start.canvas.IsSettled) (h : start.HasRouted actions) :
    (start.run actions).canvas.IsSettled := by
  rcases h with rfl | ⟨before, a, rfl, hReroutes⟩
  · exact hStart
  · rw [run_append]
    exact act_isSettled_of_reroutes hReroutes

end CanvasSession

/-- After any run on a loaded canvas the places are those of all tables, in their order, and the
scene has the measured boxes and no others. From a routing on, the places, the boxes and the
connectors agree until an action moves a table; an action that does not route leaves the boxes and
the connectors as they are. -/
theorem load_run_coherent (settings : Settings α) {text : String} {ds : List Table}
    (hParse : parse text = .ok ds) :
    ∃ c, Canvas.load settings text = .ok c ∧
      (columnOrder ds).Nodup ∧ (columnOrder ds).Perm (ds.map Table.name) ∧
      ∀ (drag : DragSession Hook) (first last : List (CanvasAction α)),
        let start : CanvasSession Hook α := ⟨c, drag⟩
        let s := start.run first
        let later := start.run (first ++ last)
        later.canvas.diagram.positions.keys = columnOrder ds ∧
        later.canvas.scene.Measures settings.metrics ds ∧
        (start.HasRouted first → s.LeavesPlaces last → later.canvas.IsCoherent settings ds) ∧
        ((∀ a ∈ last, a.IsQuiet) → later.canvas.scene = s.canvas.scene ∧
          later.canvas.diagram.connectors = s.canvas.diagram.connectors) := by
  have hNamed := wellNamed_of_parse hParse
  have hPerm := columnOrder_perm hNamed.nodup
  refine ⟨_, Canvas.load_of_parse settings hParse, hPerm.nodup_iff.2 hNamed.nodup, hPerm, ?_⟩
  intro drag first last start s later
  have hStart : start.canvas.Fits settings ds := Canvas.ofTables_fits settings hNamed
  have hFirst : s.canvas.Fits settings ds := CanvasSession.run_fits hStart hNamed.nodup first
  have hLater : later.canvas.Fits settings ds := CanvasSession.run_fits hStart hNamed.nodup _
  have hSplit : later = s.run last := start.run_append first last
  refine ⟨hLater.positions, hLater.measures, fun hRouted hPlaces => ?_, fun hQuiet => ?_⟩
  · apply hLater.isCoherent hNamed.nodup
    rw [hSplit]
    exact CanvasSession.run_isSettled hFirst hNamed.nodup
      (hRouted.isSettled (Canvas.refresh_isSettled _)) hPlaces
  · rw [hSplit]
    exact CanvasSession.run_of_isQuiet hFirst hNamed.nodup hQuiet

/-- A table with a reference to itself, one to another table and one to an attribute that is not
declared. -/
def ordersSource : String :=
  "table order \x7b\nuser -> user.id\nparent? -> order.user\ngone -> user.age\n\x7d\n" ++
    "table user \x7b\nid: int\n\x7d\n"

def ordersTables : List Table :=
  [⟨"order", [⟨"user", false, [], [], .reference "user" "id"⟩,
      ⟨"parent", true, [], [], .reference "order" "user"⟩,
      ⟨"gone", false, [], [], .reference "user" "age"⟩]⟩,
    ⟨"user", [⟨"id", false, [], [], .typed "int"⟩]⟩]

theorem parse_ordersSource : parse ordersSource = .ok ordersTables := by decide +kernel

/-- A drag leaves the boxes where they are, and they agree with the places again after a routing. -/
theorem orders_coherent_after_drag :
    ∃ c : Canvas Float, Canvas.load .standard ordersSource = .ok c ∧
      let dragged := (CanvasSession.mk c (DragSession.start (some ()))).run
        [.press "user", .drag 3 4]
      let later := dragged.run [.refresh, .release]
      dragged.canvas.scene = c.scene ∧ later.canvas.diagram.positions.keys = ["order", "user"] ∧
        later.canvas.IsCoherent .standard ordersTables := by
  obtain ⟨c, hLoad, -, -, hRun⟩ :=
    @load_run_coherent Unit Float _ .standard _ _ parse_ordersSource
  refine ⟨c, hLoad, ?_, ?_, ?_⟩
  · refine ((hRun (.start (some ())) [] [.press "user", .drag 3 4]).2.2.2 ?_).1
    simp [CanvasAction.IsQuiet]
  · exact (hRun (.start (some ())) [.press "user", .drag 3 4, .refresh, .release] []).1
  · exact (hRun (.start (some ())) [.press "user", .drag 3 4, .refresh] [.release]).2.2.1
      (Or.inr ⟨[.press "user", .drag 3 4], .refresh, rfl, trivial⟩) ⟨rfl, trivial⟩

end ErDiagram
