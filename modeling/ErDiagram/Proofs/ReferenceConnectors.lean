import ErDiagram.Proofs.CanvasRun
import ErDiagram.Proofs.Lists

/-! The connectors of a canvas. There is one for each reference whose target is declared, and it
joins the rows of the two attributes. -/
namespace ErDiagram

/-! ### References -/

/-- Some table of this name has an attribute of this name. -/
def Declares (ds : List Table) (table attr : String) : Prop :=
  ∃ t ∈ ds, t.name = table ∧ ∃ a ∈ t.attributes, a.name = attr

instance (ds : List Table) (table attr : String) : Decidable (Declares ds table attr) :=
  inferInstanceAs (Decidable (∃ t ∈ ds, t.name = table ∧ ∃ a ∈ t.attributes, a.name = attr))

/-- The references of all tables in the order of their declaration, each with its table. -/
def allReferences (ds : List Table) : List (Table × Reference) :=
  ds.flatMap fun t => t.references.map (t, ·)

/-- The references that lead to a declared attribute. -/
def resolvable (ds : List Table) : List (Table × Reference) :=
  (allReferences ds).filter fun (_, r) => Declares ds r.targetTable r.targetAttribute

theorem mem_allReferences {ds : List Table} {t : Table} {r : Reference} :
    (t, r) ∈ allReferences ds ↔ t ∈ ds ∧ r ∈ t.references := by
  simp [allReferences]

/-! ### Colors -/

/-- A table has the color whose number is its own among the tables; the colors begin again after the
last one. -/
theorem Palette.get?_assign (p : Palette) {ds : List Table} (hNodup : (ds.map Table.name).Nodup)
    {index : Nat} {t : Table} (ht : ds[index]? = some t) :
    (p.assign ds).get? t.name = p.colors[index % p.colors.length]? := by
  cases hColors : p.colors with
  | nil =>
      have hNone : p.assign ds = .empty := by
        simp [Palette.assign, Palette.colorAt, hColors, NameMap.ofList]
      simp [hNone]
  | cons first others =>
      have hLength : 0 < p.colors.length := by simp [hColors]
      let color (i : Nat) : String := p.colors.get ⟨i % p.colors.length, Nat.mod_lt _ hLength⟩
      have hAt (i : Nat) : p.colors[i % p.colors.length]? = some (color i) :=
        List.getElem?_eq_getElem _
      have hAssign : p.assign ds =
          .ofList (ds.zipIdx.map fun pair => (pair.1.name, color pair.2)) := by
        rw [Palette.assign, ← List.filterMap_eq_map]
        refine congrArg NameMap.ofList (List.filterMap_congr fun pair _ => ?_)
        simp [Palette.colorAt, hAt]
      have hNames : (ds.zipIdx.map fun pair => (pair.1.name, color pair.2)).map Prod.fst =
          ds.map Table.name := by
        rw [List.map_map, ← List.zipIdx_map_fst 0 ds, List.map_map, List.zipIdx_map_fst]
        rfl
      rw [hAssign, ← hColors, hAt, NameMap.get?_eq_some_iff,
        NameMap.entries_ofList (hNames ▸ hNodup)]
      exact List.mem_map.2 ⟨(t, index), List.mem_zipIdx_iff_getElem?.2 ht, rfl⟩

/-! ### Connectors -/

variable {Hook α : Type} [Coordinate α]

/-- The marker has the set size, and the point is in the middle of it. -/
structure Marker.IsAround (m : Marker α) (settings : RoutingSettings α) (p : Point α) : Prop where
  width : m.rect.width = settings.markerWidth
  height : m.rect.height = settings.markerHeight
  x : m.rect.x = p.x - settings.markerWidth / ((2 : Nat) : α)
  y : m.rect.y = p.y - settings.markerHeight / ((2 : Nat) : α)

/-- The connector joins the row of a reference to the row that it refers to. It leaves at the middle
of the right edge and arrives at the middle of the left edge, its segments are level or upright, a
marker is around each end, and all of it has the color of the table referred to. -/
structure Joins (settings : Settings α) (ds : List Table) (s : Scene α) (entry : Table × Reference)
    (c : Connector α) : Prop where
  source : c.source = attributeId entry.1.name entry.2.source
  target : c.target = attributeId entry.2.targetTable entry.2.targetAttribute
  start : ∃ row p, s.rowRect entry.1.name entry.2.source = some row ∧ c.points.head? = some p ∧
    p.x = row.x + row.width ∧ p.y = row.y + row.height / ((2 : Nat) : α) ∧
    c.sourceMarker.IsAround settings.routing p
  finish : ∃ row p, s.rowRect entry.2.targetTable entry.2.targetAttribute = some row ∧
    c.points.getLast? = some p ∧ p.x = row.x ∧ p.y = row.y + row.height / ((2 : Nat) : α) ∧
    c.targetMarker.IsAround settings.routing p
  elbows : c.points.IsChain fun p q => p.x = q.x ∨ p.y = q.y
  color : ∃ (index : Nat) (t : Table), ds[index]? = some t ∧ t.name = entry.2.targetTable ∧
    (settings.palette.colors = [] → c.color = settings.routing.defaultColor) ∧
    (settings.palette.colors ≠ [] →
      settings.palette.colors[index % settings.palette.colors.length]? = some c.color)
  markers : c.sourceMarker.color = c.color ∧ c.targetMarker.color = c.color

namespace RoutingSettings

variable (s : RoutingSettings α) (start finish : Point α) (sourceBox targetBox : Rect α)

theorem marker_isAround (center : Point α) (color : String) :
    (s.marker center color).IsAround s center :=
  ⟨rfl, rfl, rfl, rfl⟩

theorem path_head? : (s.path start finish sourceBox targetBox).head? = some start := rfl

theorem path_getLast? : (s.path start finish sourceBox targetBox).getLast? = some finish := by
  unfold path
  dsimp only
  split <;> rfl

/-- Each turn of a path keeps one of the two numbers of the point before it, so no arithmetic is
needed for its segments to be level or upright. -/
theorem path_isChain :
    (s.path start finish sourceBox targetBox).IsChain fun p q => p.x = q.x ∨ p.y = q.y := by
  unfold path
  dsimp only
  split <;> simp

theorem route_eq (ds : List Table) (colors : NameMap String) (geometry : Geometry α) :
    s.route ds colors geometry =
      (allReferences ds).filterMap fun (t, r) => s.connect colors geometry t.name r := by
  simp only [route, allReferences, List.filterMap_flatMap, List.filterMap_map]
  rfl

end RoutingSettings

section Scene

variable {settings : Settings α} {ds : List Table} {s : Scene α}
  (hNamed : WellNamed ds) (hMeasures : s.Measures settings.metrics ds) {t : Table} {r : Reference}
  (hEntry : (t, r) ∈ allReferences ds)
include hNamed hMeasures hEntry

theorem connect_eq_none (hDeclares : ¬ Declares ds r.targetTable r.targetAttribute) :
    settings.routing.connect (settings.palette.assign ds) s.rectOf t.name r = none := by
  obtain ⟨ht, hr⟩ := mem_allReferences.1 hEntry
  have hDot := (hNamed.tables t ht).targets r hr |>.1.dot_not_mem
  have hTarget : s.rectOf (tableId r.targetTable) = none ∨
      s.rectOf (attributeId r.targetTable r.targetAttribute) = none := by
    rw [s.rectOf_tableId hDot, s.rectOf_attributeId hDot]
    by_cases hTable : ∃ u ∈ ds, u.name = r.targetTable
    · obtain ⟨u, hu, hName⟩ := hTable
      refine Or.inr (Option.not_isSome_iff_eq_none.1 fun hRow => hDeclares ⟨u, hu, hName, ?_⟩)
      rw [← hName] at hRow
      exact (hMeasures.rowRect_isSome_iff hu).1 hRow
    · exact Or.inl (hMeasures.tableRect_eq_none fun u hu hName => hTable ⟨u, hu, hName⟩)
  rcases hTarget with hNone | hNone <;>
    simp [RoutingSettings.connect, hNone]

theorem connect_joins (hDeclares : Declares ds r.targetTable r.targetAttribute) :
    ∃ c, settings.routing.connect (settings.palette.assign ds) s.rectOf t.name r = some c ∧
      Joins settings ds s (t, r) c := by
  obtain ⟨ht, hr⟩ := mem_allReferences.1 hEntry
  obtain ⟨u, hu, hName, hAttr⟩ := hDeclares
  obtain ⟨a, ha, hSource, -⟩ := mem_references_iff.1 hr
  have hDot := (hNamed.tables t ht).name.dot_not_mem
  have hTargetDot := (hNamed.tables u hu).name.dot_not_mem
  obtain ⟨sourceBox, hSourceBox⟩ := Option.isSome_iff_exists.1 (hMeasures.tableRect_isSome ht)
  obtain ⟨targetBox, hTargetBox⟩ := Option.isSome_iff_exists.1 (hMeasures.tableRect_isSome hu)
  obtain ⟨sourceRow, hSourceRow⟩ := Option.isSome_iff_exists.1
    ((hMeasures.rowRect_isSome_iff ht).2 ⟨a, ha, hSource⟩)
  obtain ⟨targetRow, hTargetRow⟩ := Option.isSome_iff_exists.1
    ((hMeasures.rowRect_isSome_iff hu).2 hAttr)
  obtain ⟨index, hIndex⟩ := List.mem_iff_getElem?.1 hu
  have hColor := settings.palette.get?_assign hNamed.nodup hIndex
  rw [← s.rectOf_tableId hDot] at hSourceBox
  rw [← s.rectOf_tableId hTargetDot] at hTargetBox
  have hSourceId := s.rectOf_attributeId hDot r.source
  have hTargetId := s.rectOf_attributeId hTargetDot r.targetAttribute
  rw [hSourceRow] at hSourceId
  rw [hTargetRow] at hTargetId
  rw [hName] at hTargetBox hTargetId hTargetRow hColor
  simp only [RoutingSettings.connect, hSourceBox, hTargetBox, hSourceId, hTargetId, bind,
    Option.bind_some, pure, Option.some.injEq, exists_eq_left']
  refine ⟨rfl, rfl, ⟨sourceRow, sourceRow.rightCenter, hSourceRow, ?_, rfl, rfl, ?_⟩,
    ⟨targetRow, targetRow.leftCenter, hTargetRow, ?_, rfl, rfl, ?_⟩, ?_,
    ⟨index, u, hIndex, hName, fun hEmpty => ?_, fun hColors => ?_⟩, rfl, rfl⟩
  · exact RoutingSettings.path_head? ..
  · exact RoutingSettings.marker_isAround ..
  · exact RoutingSettings.path_getLast? ..
  · exact RoutingSettings.marker_isAround ..
  · exact RoutingSettings.path_isChain ..
  · rw [hColor, hEmpty]
    rfl
  · have hBound : index % settings.palette.colors.length < settings.palette.colors.length :=
      Nat.mod_lt _ (List.length_pos_iff.2 hColors)
    rw [hColor, List.getElem?_eq_getElem hBound]
    rfl

end Scene

theorem route_joins {settings : Settings α} {ds : List Table} {s : Scene α}
    (hNamed : WellNamed ds) (hMeasures : s.Measures settings.metrics ds) :
    List.Forall₂ (Joins settings ds s) (resolvable ds)
      (settings.routing.route ds (settings.palette.assign ds) s.rectOf) := by
  rw [RoutingSettings.route_eq, resolvable]
  apply forall₂_filter_filterMap
  · rintro ⟨t, r⟩ hEntry hSkipped
    exact connect_eq_none hNamed hMeasures hEntry (by simpa using hSkipped)
  · rintro ⟨t, r⟩ hEntry hKept
    exact connect_joins hNamed hMeasures hEntry (by simpa using hKept)

/-- After any run on a loaded canvas the connectors are, in the order of declaration, one for each
reference to a declared attribute and none for any other, and each is attached to its rows on the
scene as it stands. -/
theorem load_run_joins (settings : Settings α) {text : String} {ds : List Table}
    (hParse : parse text = .ok ds) :
    ∃ c, Canvas.load settings text = .ok c ∧
      ∀ (drag : DragSession Hook) (actions : List (CanvasAction α)),
        let s := (CanvasSession.mk c drag).run actions
        List.Forall₂ (Joins settings ds s.canvas.scene) (resolvable ds)
          s.canvas.diagram.connectors := by
  have hNamed := wellNamed_of_parse hParse
  refine ⟨_, Canvas.load_of_parse settings hParse, fun drag actions => ?_⟩
  intro s
  have hFits : s.canvas.Fits settings ds :=
    CanvasSession.run_fits (Canvas.ofTables_fits settings hNamed) hNamed.nodup actions
  rw [hFits.connectors]
  exact route_joins hNamed hFits.measures

/-- The reference to an attribute that is not declared has no connector; the others have one each,
also the one that a table has to itself. -/
theorem orders_joins_after_move :
    ∃ c : Canvas Float, Canvas.load .standard ordersSource = .ok c ∧
      let s := (CanvasSession.mk c (DragSession.start (some ()))).run [.move "user" 3 4, .refresh]
      List.Forall₂ (Joins .standard ordersTables s.canvas.scene)
        [(ordersTables[0], ⟨"user", "user", "id"⟩), (ordersTables[0], ⟨"parent", "order", "user"⟩)]
        s.canvas.diagram.connectors := by
  obtain ⟨c, hLoad, hRun⟩ :=
    @load_run_joins Unit Float _ .standard _ _ parse_ordersSource
  refine ⟨c, hLoad, ?_⟩
  have hResolvable : resolvable ordersTables = [(ordersTables[0], ⟨"user", "user", "id"⟩),
      (ordersTables[0], ⟨"parent", "order", "user"⟩)] := by decide
  rw [← hResolvable]
  exact hRun (.start (some ())) [.move "user" 3 4, .refresh]

end ErDiagram
