import ErDiagram.Diagram
import ErDiagram.Proofs.ColumnOrder

/-! Runs of actions on a diagram. Only the first layout is made. From then on the place of a table
depends on nothing but that layout and the moves of this table. -/
namespace ErDiagram

variable {α : Type} [Coordinate α]

/-! ### Actions -/

/-- What can be done with a diagram. -/
inductive DiagramAction (α : Type) where
  | layOut (geometry : Geometry α)
  | reroute (geometry : Geometry α)
  | move (table : String) (dx dy : α)

/-- One of the actions is a layout. -/
def LaysOut (actions : List (DiagramAction α)) : Prop :=
  ∃ geometry, DiagramAction.layOut geometry ∈ actions

/-- One of the actions is a routing. -/
def Reroutes (actions : List (DiagramAction α)) : Prop :=
  ∃ geometry, DiagramAction.reroute geometry ∈ actions

/-- The first layout among the actions is over this geometry, and these actions come after it. -/
def IsFirstLayOut (actions : List (DiagramAction α)) (geometry : Geometry α)
    (after : List (DiagramAction α)) : Prop :=
  ∃ before, ¬ LaysOut before ∧ actions = before ++ .layOut geometry :: after

/-- The last routing among the actions is over this geometry. -/
def IsLastReroute (actions : List (DiagramAction α)) (geometry : Geometry α) : Prop :=
  ∃ before after, ¬ Reroutes after ∧ actions = before ++ .reroute geometry :: after

/-- How far an action shifts a table of the schema. -/
def DiagramAction.shift? (ds : List Table) (table : String) : DiagramAction α → Option (α × α)
  | .move name dx dy => if name = table ∧ table ∈ ds.map Table.name then some (dx, dy) else none
  | _ => none

/-- The accepted moves of a table. -/
def shiftsOf (ds : List Table) (table : String) (actions : List (DiagramAction α)) :
    List (α × α) :=
  actions.filterMap (·.shift? ds table)

/-- Where shifts take a table, one after another. A table without a place is shifted from the
origin; if it is not shifted either, it has no place. -/
def shifted (place : Option (Point α)) : List (α × α) → Option (Point α)
  | [] => place
  | s :: shifts => some ((s :: shifts).foldl (fun p s => p.offset s.1 s.2) (place.getD .origin))

theorem shifted_append (place : Option (Point α)) (first last : List (α × α)) :
    shifted place (first ++ last) = shifted (shifted place first) last := by
  cases first with
  | nil => rfl
  | cons s first =>
      cases last with
      | nil => rw [List.append_nil]; rfl
      | cons r last =>
          rw [List.cons_append, shifted, ← List.cons_append, List.foldl_append]
          rfl

namespace Diagram

/-- A layout of a diagram that is laid out has no effect, and neither has a move of a table that is
not declared. -/
def act (d : Diagram α) : DiagramAction α → Diagram α
  | .layOut geometry => (d.layOut geometry).2
  | .reroute geometry => d.reroute geometry
  | .move table dx dy => (d.move? table dx dy).getD d

def run (d : Diagram α) (actions : List (DiagramAction α)) : Diagram α :=
  actions.foldl act d

theorem run_append (d : Diagram α) (first last : List (DiagramAction α)) :
    d.run (first ++ last) = (d.run first).run last :=
  List.foldl_append

end Diagram

/-- What a run of actions has made of a new diagram of these tables. -/
structure Diagram.IsResult (settings : Settings α) (ds : List Table)
    (actions : List (DiagramAction α)) (d : Diagram α) : Prop where
  tables : d.tables = ds
  colors : d.colors = settings.palette.assign ds
  firstLayOut : ¬ LaysOut actions → ∀ geometry, d.layOut geometry = (true, d.placeTables geometry)
  laterLayOut : LaysOut actions → ∀ geometry, d.layOut geometry = (false, d)
  move : ∀ table dx dy, (d.move? table dx dy).isSome ↔ table ∈ ds.map Table.name
  refusedMove : ∀ table dx dy, table ∉ ds.map Table.name → d.act (.move table dx dy) = d
  noOrder : ¬ LaysOut actions → d.order = []
  order : LaysOut actions → d.order = columnOrder ds
  /-- Moves before the layout, and moves of other tables, have no influence. -/
  place : ∀ geometry after, IsFirstLayOut actions geometry after → ∀ table,
    d.positions.get? table = shifted ((settings.layout.place (columnOrder ds) geometry).get? table)
      (shiftsOf ds table after)
  front : ∀ geometry after, IsFirstLayOut actions geometry after →
    (settings.layout.place (columnOrder ds) geometry).keys <+: d.positions.keys
  keys : d.positions.keys.Nodup ∧ d.positions.keys ⊆ ds.map Table.name
  noConnectors : ¬ Reroutes actions → d.connectors = []
  connectors : ∀ geometry, IsLastReroute actions geometry →
    d.connectors = settings.routing.route ds (settings.palette.assign ds) geometry

/-! ### What the layout gives -/

theorem LayoutSettings.mem_of_mem_placeFrom (s : LayoutSettings α) (geometry : Geometry α)
    {placed : NameMap (Point α)} {x : α} {names : List String} {name : String}
    (h : name ∈ (s.placeFrom geometry placed x names).keys) :
    name ∈ placed.keys ∨ name ∈ names := by
  induction names generalizing placed x with
  | nil => exact Or.inl h
  | cons first names ih =>
      rw [placeFrom] at h
      split at h
      · exact (ih h).imp_right (List.mem_cons_of_mem _)
      · rcases ih h with hPlaced | hLater
        · rcases NameMap.mem_keys_insert.1 hPlaced with rfl | hEarlier
          · exact Or.inr List.mem_cons_self
          · exact Or.inl hEarlier
        · exact Or.inr (List.mem_cons_of_mem _ hLater)

/-- Only tables of the order are placed. -/
theorem LayoutSettings.keys_place_subset (s : LayoutSettings α) (order : List String)
    (geometry : Geometry α) : (s.place order geometry).keys ⊆ order := by
  intro name h
  exact (s.mem_of_mem_placeFrom geometry h).resolve_left List.not_mem_nil

namespace Diagram

/-! ### The actions one by one -/

omit [Coordinate α] in
theorem table?_isSome {d : Diagram α} {name : String} :
    (d.table? name).isSome ↔ name ∈ d.tables.map Table.name := by
  simp [table?, List.find?_isSome]

theorem layOut_of_isLaidOut {d : Diagram α} (h : d.isLaidOut = true) (geometry : Geometry α) :
    d.layOut geometry = (false, d) :=
  if_pos h

theorem layOut_of_not {d : Diagram α} (h : d.isLaidOut = false) (geometry : Geometry α) :
    d.layOut geometry = (true, d.placeTables geometry) :=
  if_neg (by rw [h]; exact Bool.false_ne_true)

/-- The diagram after a move of a declared table. -/
def shift (d : Diagram α) (table : String) (dx dy : α) : Diagram α :=
  { d with positions :=
      d.positions.insert table (((d.positions.get? table).getD .origin).offset dx dy) }

theorem move?_of_declared {d : Diagram α} {table : String} (h : table ∈ d.tables.map Table.name)
    (dx dy : α) : d.move? table dx dy = some (d.shift table dx dy) :=
  if_pos (table?_isSome.2 h)

theorem move?_of_undeclared {d : Diagram α} {table : String} (h : table ∉ d.tables.map Table.name)
    (dx dy : α) : d.move? table dx dy = none :=
  if_neg (mt table?_isSome.1 h)

theorem move?_isSome {d : Diagram α} {table : String} {dx dy : α} :
    (d.move? table dx dy).isSome ↔ table ∈ d.tables.map Table.name := by
  by_cases hDeclared : table ∈ d.tables.map Table.name
  · simp [move?_of_declared hDeclared, hDeclared]
  · simp [move?_of_undeclared hDeclared, hDeclared]

/-- Everything that an action can do. -/
inductive Effect (d : Diagram α) : DiagramAction α → Diagram α → Prop where
  | layOut (geometry : Geometry α) (h : d.isLaidOut = false) :
      Effect d (.layOut geometry) (d.placeTables geometry)
  | layOutAgain (geometry : Geometry α) (h : d.isLaidOut = true) : Effect d (.layOut geometry) d
  | reroute (geometry : Geometry α) : Effect d (.reroute geometry) (d.reroute geometry)
  | move (table : String) (dx dy : α) (h : table ∈ d.tables.map Table.name) :
      Effect d (.move table dx dy) (d.shift table dx dy)
  | refuse (table : String) (dx dy : α) (h : table ∉ d.tables.map Table.name) :
      Effect d (.move table dx dy) d

theorem act_effect (d : Diagram α) (a : DiagramAction α) : d.Effect a (d.act a) := by
  cases a with
  | layOut geometry =>
      cases hLaid : d.isLaidOut with
      | false =>
          rw [act, layOut_of_not hLaid]
          exact .layOut geometry hLaid
      | true =>
          rw [act, layOut_of_isLaidOut hLaid]
          exact .layOutAgain geometry hLaid
  | reroute geometry => exact .reroute geometry
  | move table dx dy =>
      by_cases hDeclared : table ∈ d.tables.map Table.name
      · rw [act, move?_of_declared hDeclared]
        exact .move table dx dy hDeclared
      · rw [act, move?_of_undeclared hDeclared]
        exact .refuse table dx dy hDeclared

/-! ### What never changes -/

/-- What holds of a diagram of these tables whatever is done with it. -/
structure Fits (settings : Settings α) (ds : List Table) (d : Diagram α) : Prop where
  tables : d.tables = ds
  colors : d.colors = settings.palette.assign ds
  layout : d.layout = settings.layout
  routing : d.routing = settings.routing
  order : d.order = if d.isLaidOut then columnOrder ds else []
  keys : d.positions.keys ⊆ ds.map Table.name

variable {settings : Settings α} {ds : List Table} {d later : Diagram α} {a : DiagramAction α}
  {actions : List (DiagramAction α)}

omit [Coordinate α] in
theorem ofTables_fits (settings : Settings α) (ds : List Table) :
    (ofTables settings ds).Fits settings ds :=
  ⟨rfl, rfl, rfl, rfl, rfl, List.nil_subset _⟩

theorem Fits.placeTables (h : d.Fits settings ds) (geometry : Geometry α) :
    (d.placeTables geometry).Fits settings ds where
  tables := h.tables
  colors := h.colors
  layout := h.layout
  routing := h.routing
  order := congrArg columnOrder h.tables
  keys name hName := by
    rw [← h.tables]
    exact (columnOrder_perm_names d.tables).mem_iff.1
      (d.layout.keys_place_subset (columnOrder d.tables) geometry hName)

theorem Fits.shift (h : d.Fits settings ds) {table : String} (hDeclared : table ∈ ds.map Table.name)
    (dx dy : α) : (d.shift table dx dy).Fits settings ds where
  tables := h.tables
  colors := h.colors
  layout := h.layout
  routing := h.routing
  order := h.order
  keys name hName := by
    rcases NameMap.mem_keys_insert.1 hName with rfl | hEarlier
    · exact hDeclared
    · exact h.keys hEarlier

theorem Effect.fits (hEffect : d.Effect a later) (h : d.Fits settings ds) :
    later.Fits settings ds := by
  cases hEffect with
  | layOut geometry hNew => exact h.placeTables geometry
  | layOutAgain geometry hLaid => exact h
  | reroute geometry => exact ⟨h.tables, h.colors, h.layout, h.routing, h.order, h.keys⟩
  | move table dx dy hDeclared => exact h.shift (h.tables ▸ hDeclared) dx dy
  | refuse table dx dy hUndeclared => exact h

theorem Fits.run (h : d.Fits settings ds) (actions : List (DiagramAction α)) :
    (d.run actions).Fits settings ds := by
  induction actions generalizing d with
  | nil => exact h
  | cons a actions ih => exact ih ((d.act_effect a).fits h)

/-! ### The layout -/

theorem Effect.isLaidOut (hEffect : d.Effect a later) :
    later.isLaidOut = true ↔ LaysOut [a] ∨ d.isLaidOut = true := by
  cases hEffect <;> simp_all [LaysOut, Diagram.placeTables, Diagram.reroute, Diagram.shift]

/-- A diagram is laid out from the first layout on. -/
theorem run_isLaidOut (d : Diagram α) (actions : List (DiagramAction α)) :
    (d.run actions).isLaidOut = true ↔ LaysOut actions ∨ d.isLaidOut = true := by
  induction actions generalizing d with
  | nil => simp [LaysOut, run]
  | cons a actions ih =>
      refine (ih (d.act a)).trans ?_
      rw [(d.act_effect a).isLaidOut, ← or_assoc, or_comm (a := LaysOut actions)]
      simp [LaysOut, exists_or]

/-- What the actions make of a diagram that is laid out: the placed tables keep their order in
front, and each table is shifted by its own moves. -/
structure ShiftedBy (actions : List (DiagramAction α)) (d later : Diagram α) : Prop where
  tables : later.tables = d.tables
  isLaidOut : later.isLaidOut = true
  front : d.positions.keys <+: later.positions.keys
  place : ∀ table,
    later.positions.get? table = shifted (d.positions.get? table) (shiftsOf d.tables table actions)

theorem ShiftedBy.refl (h : d.isLaidOut = true) : ShiftedBy [] d d :=
  ⟨rfl, h, List.prefix_refl _, fun _ => rfl⟩

theorem ShiftedBy.trans {first last : List (DiagramAction α)} {middle : Diagram α}
    (hFirst : ShiftedBy first d middle) (hLast : ShiftedBy last middle later) :
    ShiftedBy (first ++ last) d later where
  tables := hLast.tables.trans hFirst.tables
  isLaidOut := hLast.isLaidOut
  front := hFirst.front.trans hLast.front
  place table := by
    rw [hLast.place, hFirst.place, ← shifted_append, hFirst.tables, shiftsOf, shiftsOf,
      ← List.filterMap_append]
    rfl

theorem Effect.shiftedBy (hEffect : d.Effect a later) (h : d.isLaidOut = true) :
    ShiftedBy [a] d later := by
  cases hEffect with
  | layOut geometry hNew => exact absurd h (by rw [hNew]; exact Bool.false_ne_true)
  | layOutAgain geometry => exact ⟨rfl, h, List.prefix_refl _, fun _ => rfl⟩
  | reroute geometry => exact ⟨rfl, h, List.prefix_refl _, fun _ => rfl⟩
  | move name dx dy hDeclared =>
      refine ⟨rfl, h, NameMap.keys_prefix_insert _ _ _, fun table => ?_⟩
      rw [shift, NameMap.get?_insert]
      by_cases hName : table = name
      · subst hName
        simp [shiftsOf, DiagramAction.shift?, shifted, hDeclared]
      · simp [shiftsOf, DiagramAction.shift?, shifted, hName, Ne.symm hName]
  | refuse name dx dy hUndeclared =>
      refine ⟨rfl, h, List.prefix_refl _, fun table => ?_⟩
      have hNone : shiftsOf d.tables table [.move name dx dy] = [] := by
        simp only [shiftsOf, DiagramAction.shift?, List.filterMap_cons, List.filterMap_nil]
        rw [if_neg]
        rintro ⟨rfl, hDeclared⟩
        exact hUndeclared hDeclared
      rw [hNone]
      rfl

theorem run_shiftedBy (h : d.isLaidOut = true) (actions : List (DiagramAction α)) :
    ShiftedBy actions d (d.run actions) := by
  induction actions generalizing d with
  | nil => exact .refl h
  | cons a actions ih =>
      have hHere := (d.act_effect a).shiftedBy h
      exact hHere.trans (ih hHere.isLaidOut)

/-- After the first layout the places are those that it gives, shifted by what comes after it. -/
theorem Fits.shiftedBy_of_isFirstLayOut (h : d.Fits settings ds) (hNew : d.isLaidOut = false)
    {geometry : Geometry α} {after : List (DiagramAction α)}
    (hFirst : IsFirstLayOut actions geometry after) :
    ∃ placed, placed.positions = settings.layout.place (columnOrder ds) geometry ∧
      placed.tables = ds ∧ ShiftedBy after placed (d.run actions) := by
  obtain ⟨before, hBefore, rfl⟩ := hFirst
  have hFits := h.run before
  have hStill : (d.run before).isLaidOut = false := by
    rw [← Bool.not_eq_true, run_isLaidOut, hNew]
    simpa using hBefore
  have hRun : d.run (before ++ .layOut geometry :: after) =
      ((d.run before).placeTables geometry).run after := by
    rw [run_append]
    -- The layout replaces whatever places the moves before it have given.
    exact congrArg (fun answer => answer.2.run after) (layOut_of_not hStill geometry)
  refine ⟨(d.run before).placeTables geometry, ?_, hFits.tables, ?_⟩
  · rw [← hFits.layout, ← hFits.tables]
    rfl
  · rw [hRun]
    exact run_shiftedBy rfl after

/-! ### The connectors -/

theorem Effect.connectors (hEffect : d.Effect a later) (h : ¬ Reroutes [a]) :
    later.connectors = d.connectors := by
  cases hEffect with
  | reroute geometry => exact absurd ⟨geometry, List.mem_cons_self⟩ h
  | _ => rfl

/-- The connectors stay until the next routing. -/
theorem run_connectors (h : ¬ Reroutes actions) : (d.run actions).connectors = d.connectors := by
  induction actions generalizing d with
  | nil => rfl
  | cons a actions ih =>
      have hHere : ¬ Reroutes [a] := fun ⟨geometry, hMem⟩ =>
        h ⟨geometry, List.mem_cons.2 (Or.inl (List.mem_singleton.1 hMem))⟩
      have hLater : ¬ Reroutes actions := fun ⟨geometry, hMem⟩ =>
        h ⟨geometry, List.mem_cons_of_mem _ hMem⟩
      exact (ih hLater).trans ((d.act_effect a).connectors hHere)

theorem Fits.connectors_of_isLastReroute (h : d.Fits settings ds) {geometry : Geometry α}
    (hLast : IsLastReroute actions geometry) : (d.run actions).connectors =
      settings.routing.route ds (settings.palette.assign ds) geometry := by
  obtain ⟨before, after, hAfter, rfl⟩ := hLast
  have hFits := h.run before
  have hConnectors : ((d.run before).reroute geometry).connectors =
      (d.run before).routing.route (d.run before).tables (d.run before).colors geometry := rfl
  rw [hFits.routing, hFits.tables, hFits.colors] at hConnectors
  rw [run_append]
  exact (run_connectors hAfter).trans hConnectors

end Diagram

/-- After any run the diagram has the tables and colors it was made of, at most one layout has been
made, each table stands where that layout and its own later moves take it, and the connectors are
those of the last routing. -/
theorem Diagram.run_isResult (settings : Settings α) (ds : List Table)
    (actions : List (DiagramAction α)) :
    ((Diagram.ofTables settings ds).run actions).IsResult settings ds actions := by
  have hStart := ofTables_fits settings ds
  have hFits := hStart.run actions
  have hLaidOut : ((Diagram.ofTables settings ds).run actions).isLaidOut = true ↔
      LaysOut actions := by
    rw [run_isLaidOut]
    exact or_iff_left Bool.false_ne_true
  refine
    { tables := hFits.tables
      colors := hFits.colors
      firstLayOut := fun h => layOut_of_not (by rwa [← Bool.not_eq_true, hLaidOut])
      laterLayOut := fun h => layOut_of_isLaidOut (hLaidOut.2 h)
      move := fun table dx dy => by rw [move?_isSome, hFits.tables]
      refusedMove := fun table dx dy h => ?_
      noOrder := fun h => by rw [hFits.order, if_neg (mt hLaidOut.1 h)]
      order := fun h => by rw [hFits.order, if_pos (hLaidOut.2 h)]
      place := fun geometry after h table => ?_
      front := fun geometry after h => ?_
      keys := ⟨NameMap.nodup_keys _, hFits.keys⟩
      noConnectors := run_connectors
      connectors := fun geometry h => hStart.connectors_of_isLastReroute h }
  · rw [act, move?_of_undeclared (by rwa [hFits.tables])]
    rfl
  · obtain ⟨placed, hPositions, hTables, hShifted⟩ := hStart.shiftedBy_of_isFirstLayOut rfl h
    rw [hShifted.place, hPositions, hTables]
  · obtain ⟨placed, hPositions, -, hShifted⟩ := hStart.shiftedBy_of_isFirstLayOut rfl h
    rw [← hPositions]
    exact hShifted.front

/-- Only the second table is measured, so the first one comes behind it when it is moved. -/
example :
    let measured : Geometry Float := fun id => if id = tableId "b" then some ⟨0, 0, 9, 9⟩ else none
    ((Diagram.ofTables .standard [⟨"a", []⟩, ⟨"b", []⟩]).run
      [.move "a" 1 1, .layOut measured, .move "c" 1 1, .move "a" 1 1]).positions.keys =
        ["b", "a"] := by
  decide +kernel

end ErDiagram
