import ErDiagram.Proofs.CanvasRun
import ErDiagram.Proofs.ExactNumbers

/-! Where the tables of a source are when it is loaded: side by side in the column order, each
behind the width of the one before it and a gap. Without rounding no two of them overlap. -/

namespace ErDiagram

variable {α : Type} [Coordinate α]

/-- The tables themselves from left to right. -/
theorem exists_columns (ds : List Table) :
    ∃ ts : List Table, ts.Perm ds ∧ ts.map Table.name = columnOrder ds := by
  have hNames : List.Forall₂ (fun name t => Table.name t = name) (ds.map Table.name) ds :=
    List.forall₂_map_left_iff.2 (List.forall₂_same.2 fun _ _ => rfl)
  obtain ⟨ts, hSame, hPerm⟩ := List.perm_comp_forall₂ (columnOrder_perm_names ds) hNames
  refine ⟨ts, hPerm, ?_⟩
  rw [← List.forall₂_eq_eq_eq, List.forall₂_map_left_iff]
  exact hSame.flip

/-! ### Places from left to right -/

namespace LayoutSettings

/-- The places of measured tables side by side. `x` is where the next one starts. -/
def columns (s : LayoutSettings α) (m : TextMetrics α) (x : α) :
    List Table → List (String × Point α)
  | [] => []
  | t :: ts => (t.name, ⟨x, s.marginY⟩) :: s.columns m (x + (m.tableWidth t + s.gap)) ts

variable {s : LayoutSettings α} {m : TextMetrics α}

theorem columns_top {x : α} {ts : List Table} :
    ∀ place ∈ s.columns m x ts, place.2.y = s.marginY := by
  induction ts generalizing x with
  | nil => simp [columns]
  | cons t ts ih => exact List.forall_mem_cons.2 ⟨rfl, ih⟩

theorem columns_first {x : α} {ts : List Table} :
    ∀ place ∈ (s.columns m x ts).head?, place.2.x = x := by
  cases ts <;> simp [columns]

theorem columns_next {x : α} {ts : List Table} : (s.columns m x ts).IsChain fun a b =>
    ∃ t ∈ ts, t.name = a.1 ∧ b.2.x = a.2.x + (m.tableWidth t + s.gap) := by
  induction ts generalizing x with
  | nil => exact .nil
  | cons t ts ih =>
      have hLater := (ih (x := x + (m.tableWidth t + s.gap))).imp fun a b h =>
        h.imp fun u => And.imp_left (List.mem_cons_of_mem t)
      cases ts with
      | nil => exact .singleton _
      | cons u ts =>
          exact List.isChain_cons_cons.2 ⟨⟨t, List.mem_cons_self, rfl, rfl⟩, hLater⟩

theorem entries_placeFrom {geometry : Geometry α} {ts : List Table}
    (hMeasured : ∀ t ∈ ts, ∃ rect, geometry (tableId t.name) = some rect ∧
      rect.width = m.tableWidth t) (placed : NameMap (Point α)) (x : α)
    (hNodup : (placed.keys ++ ts.map Table.name).Nodup) :
    (s.placeFrom geometry placed x (ts.map Table.name)).entries =
      placed.entries ++ s.columns m x ts := by
  induction ts generalizing placed x with
  | nil => exact (List.append_nil _).symm
  | cons t ts ih =>
      obtain ⟨⟨rect, hRect, hWidth⟩, hLater⟩ := List.forall_mem_cons.1 hMeasured
      have hNew : t.name ∉ placed.keys := fun hMem =>
        (List.nodup_append.1 hNodup).2.2 t.name hMem t.name List.mem_cons_self rfl
      have hKeys : (placed.insert t.name ⟨x, s.marginY⟩).keys = placed.keys ++ [t.name] := by
        rw [NameMap.keys_insert, if_neg hNew]
      simp only [List.map_cons, placeFrom, hRect]
      rw [ih hLater _ _ (by simpa [hKeys] using hNodup), NameMap.entries_insert_of_not_mem hNew,
        hWidth, List.append_assoc]
      rfl

end LayoutSettings

/-! ### Loaded canvases -/

/-- All tables have their places in the column order, their tops on one line: the first one at the
margin, and each other one behind the measured width of the one before it and a gap. -/
structure Canvas.IsSideBySide (settings : Settings α) (ds : List Table) (c : Canvas α) : Prop where
  names : c.diagram.positions.keys = columnOrder ds
  top : ∀ place ∈ c.diagram.positions.entries, place.2.y = settings.layout.marginY
  first : ∀ place ∈ c.diagram.positions.entries.head?, place.2.x = settings.layout.marginX
  next : c.diagram.positions.entries.IsChain fun a b => ∃ t ∈ ds, t.name = a.1 ∧
    b.2.x = a.2.x + (settings.metrics.tableWidth t + settings.layout.gap)

theorem Canvas.ofTables_isSideBySide (settings : Settings α) {ds : List Table}
    (h : WellNamed ds) : (Canvas.ofTables settings ds).IsSideBySide settings ds := by
  obtain ⟨ts, hPerm, hNames⟩ := exists_columns ds
  have hMeasures := Scene.ofTables_measures settings.metrics h.nodup
  have hMeasured : ∀ t ∈ ts, ∃ rect,
      (Scene.ofTables settings.metrics ds).rectOf (tableId t.name) = some rect ∧
        rect.width = settings.metrics.tableWidth t := by
    intro t ht
    have hDeclared := hPerm.mem_iff.1 ht
    obtain ⟨corner, hBox⟩ := hMeasures.boxes t hDeclared
    rw [Scene.rectOf_tableId _ (h.tables t hDeclared).name.dot_not_mem, Scene.tableRect, hBox]
    exact ⟨_, rfl, rfl⟩
  have hNodup : (ts.map Table.name).Nodup := (hPerm.map Table.name).nodup_iff.2 h.nodup
  have hPlaces : (Canvas.ofTables settings ds).diagram.positions.entries =
      settings.layout.columns settings.metrics settings.layout.marginX ts := by
    have hPlaced := LayoutSettings.entries_placeFrom (s := settings.layout) hMeasured .empty
      settings.layout.marginX hNodup
    rwa [hNames] at hPlaced
  refine ⟨(Canvas.ofTables_fits settings h).positions, ?_, ?_, ?_⟩
  · rw [hPlaces]
    exact LayoutSettings.columns_top
  · rw [hPlaces]
    exact LayoutSettings.columns_first
  · rw [hPlaces]
    exact LayoutSettings.columns_next.imp fun a b hNext =>
      hNext.imp fun t => And.imp_left hPerm.mem_iff.1

/-! ### No overlap -/

/-- The box of the first table ends a gap before that of the second one starts. -/
def Scene.LeavesGap (s : Scene ℚ) (gap : ℚ) (a b : String) : Prop :=
  ∃ left right, s.tableRect a = some left ∧ s.tableRect b = some right ∧ left.right + gap ≤ right.x

/-- No point lies inside the boxes of both tables. -/
def Scene.AreApart (s : Scene ℚ) (a b : String) : Prop :=
  ∀ left right, s.tableRect a = some left → s.tableRect b = some right →
    Disjoint left.openRegion right.openRegion

instance (s : Scene ℚ) : Std.Symm s.AreApart :=
  ⟨fun _ _ hApart right left hRight hLeft => (hApart left right hLeft hRight).symm⟩

/-- There is a gap between any two tables of the order, and no two boxes of the scene overlap. -/
structure Scene.IsSpread (s : Scene ℚ) (gap : ℚ) (order : List String) : Prop where
  gaps : order.Pairwise (s.LeavesGap gap)
  apart : ∀ a b, a ≠ b → s.AreApart a b

theorem Rect.disjoint_openRegion {left right : Rect ℚ} (h : left.right ≤ right.x) :
    Disjoint left.openRegion right.openRegion :=
  Set.disjoint_prod.2 (Or.inl (Set.Ioo_disjoint_Ioo.2 (min_le_of_left_le (le_max_of_le_right h))))

/-- Boxes with gaps between them do not overlap, whichever of two is the left one. -/
theorem Scene.isSpread_of_gaps {s : Scene ℚ} {gap : ℚ} {order : List String} (hGap : 0 ≤ gap)
    (hBoxes : s.boxes.keys ⊆ order) (hGaps : order.Pairwise (s.LeavesGap gap)) :
    s.IsSpread gap order := by
  have hApart : order.Pairwise s.AreApart := by
    refine hGaps.imp ?_
    rintro a b ⟨left, right, hLeft, hRight, hBetween⟩ left' right' hLeft' hRight'
    obtain rfl := Option.some.inj (hLeft.symm.trans hLeft')
    obtain rfl := Option.some.inj (hRight.symm.trans hRight')
    exact Rect.disjoint_openRegion (by linarith)
  have hOrdered {name : String} {rect : Rect ℚ} (hRect : s.tableRect name = some rect) :
      name ∈ order := by
    obtain ⟨box, hBox, -⟩ := Option.map_eq_some_iff.1 hRect
    exact hBoxes (List.mem_map_of_mem (NameMap.get?_eq_some_iff.1 hBox))
  refine ⟨hGaps, fun a b hNe left right hLeft hRight => ?_⟩
  exact hApart.forall (hOrdered hLeft) (hOrdered hRight) hNe left right hLeft hRight

theorem TextMetrics.minTableWidth_le (m : TextMetrics ℚ) (t : Table) :
    m.minTableWidth ≤ m.tableWidth t := by
  dsimp only [tableWidth]
  rw [Coordinate.greater_eq_max]
  exact le_max_right ..

/-- The second place is at least a gap behind the table at the first one. -/
def IsBehind (settings : Settings ℚ) (ds : List Table) (a b : String × Point ℚ) : Prop :=
  ∃ t ∈ ds, t.name = a.1 ∧
    a.2.x + settings.metrics.tableWidth t + settings.layout.gap ≤ b.2.x

section Exact

variable {settings : Settings ℚ} {ds : List Table} {c : Canvas ℚ}

theorem IsBehind.trans {p q r : String × Point ℚ} (hGap : 0 ≤ settings.layout.gap)
    (hWidth : 0 ≤ settings.metrics.minTableWidth) (hFirst : IsBehind settings ds p q)
    (hSecond : IsBehind settings ds q r) : IsBehind settings ds p r := by
  obtain ⟨t, ht, hName, hFirst⟩ := hFirst
  obtain ⟨u, -, -, hSecond⟩ := hSecond
  have hLeast := settings.metrics.minTableWidth_le u
  exact ⟨t, ht, hName, by linarith⟩

/-- What holds of neighbours holds of any two, as no table and no gap between them is negative. -/
theorem Canvas.IsSideBySide.pairwise (h : c.IsSideBySide settings ds)
    (hGap : 0 ≤ settings.layout.gap) (hWidth : 0 ≤ settings.metrics.minTableWidth) :
    c.diagram.positions.entries.Pairwise (IsBehind settings ds) := by
  have hTrans : Trans (IsBehind settings ds) (IsBehind settings ds) (IsBehind settings ds) :=
    ⟨IsBehind.trans hGap hWidth⟩
  refine (h.next.imp ?_).pairwise
  rintro p q ⟨t, ht, hName, hNext⟩
  exact ⟨t, ht, hName, by rw [hNext, add_assoc]⟩

variable (hNodup : (ds.map Table.name).Nodup) (hFits : c.Fits settings ds)
  (hCoherent : c.IsCoherent settings ds) (hPlaced : c.IsSideBySide settings ds)

include hNodup hFits hCoherent in
/-- The box of a table is at its place. -/
theorem Canvas.tableRect_of_place {place : String × Point ℚ}
    (hPlace : place ∈ c.diagram.positions.entries) :
    ∃ t ∈ ds, t.name = place.1 ∧ c.scene.tableRect place.1 = some ⟨place.2.x, place.2.y,
      settings.metrics.tableWidth t, settings.metrics.tableHeight t⟩ := by
  have hName : place.1 ∈ columnOrder ds := by
    rw [← hFits.positions]
    exact List.mem_map_of_mem hPlace
  obtain ⟨t, ht, hSame⟩ := List.mem_map.1 ((columnOrder_perm hNodup).mem_iff.1 hName)
  obtain ⟨p, hCorner, hRect⟩ := hCoherent.boxes t ht
  rw [hSame, NameMap.get?_eq_some_iff.2 hPlace, Option.some.injEq] at hCorner
  rw [hSame, ← hCorner] at hRect
  exact ⟨t, ht, hSame, hRect⟩

include hNodup hFits hCoherent hPlaced in
theorem Canvas.isSpread (hGap : 0 ≤ settings.layout.gap)
    (hWidth : 0 ≤ settings.metrics.minTableWidth) :
    c.scene.IsSpread settings.layout.gap (columnOrder ds) := by
  have hBoxes : c.scene.boxes.keys ⊆ columnOrder ds := by
    rw [hFits.measures.keys]
    exact (columnOrder_perm hNodup).symm.subset
  refine Scene.isSpread_of_gaps hGap hBoxes ?_
  rw [← hFits.positions, NameMap.keys, List.pairwise_map]
  refine (hPlaced.pairwise hGap hWidth).imp_of_mem ?_
  rintro p q hp hq ⟨t, ht, hName, hBehind⟩
  obtain ⟨t', ht', hName', hLeft⟩ := Canvas.tableRect_of_place hNodup hFits hCoherent hp
  obtain ⟨u, -, -, hRight⟩ := Canvas.tableRect_of_place hNodup hFits hCoherent hq
  obtain rfl := eq_of_name hNodup ht ht' (hName.trans hName'.symm)
  exact ⟨_, _, hLeft, hRight, hBehind⟩

end Exact

/-- Loading an accepted source places each of its tables once, in the column order, each at its
measured distance from the one before it. Without rounding, if the gap and the least width are not
negative, the gap is kept between any two tables, so no two of them overlap. -/
theorem load_places_sideBySide {text : String} {ds : List Table} (hParse : parse text = .ok ds) :
    (columnOrder ds).Nodup ∧ (columnOrder ds).Perm (ds.map Table.name) ∧
    (∀ (β : Type) [Coordinate β] (settings : Settings β), ∃ c,
      Canvas.load settings text = .ok c ∧ c.IsCoherent settings ds ∧ c.IsSideBySide settings ds) ∧
    ∀ settings : Settings ℚ, 0 ≤ settings.layout.gap → 0 ≤ settings.metrics.minTableWidth →
      ∃ c, Canvas.load settings text = .ok c ∧
        c.scene.IsSpread settings.layout.gap (columnOrder ds) := by
  have hNamed := wellNamed_of_parse hParse
  have hPerm := columnOrder_perm hNamed.nodup
  have hCoherent {β : Type} [Coordinate β] (settings : Settings β) :
      (Canvas.ofTables settings ds).IsCoherent settings ds :=
    (Canvas.ofTables_fits settings hNamed).isCoherent hNamed.nodup (Canvas.refresh_isSettled _)
  refine ⟨hPerm.nodup_iff.2 hNamed.nodup, hPerm, fun β _ settings => ?_,
    fun settings hGap hWidth => ?_⟩
  · exact ⟨_, Canvas.load_of_parse settings hParse, hCoherent settings,
      Canvas.ofTables_isSideBySide settings hNamed⟩
  · exact ⟨_, Canvas.load_of_parse settings hParse, Canvas.isSpread hNamed.nodup
      (Canvas.ofTables_fits settings hNamed) (hCoherent settings)
      (Canvas.ofTables_isSideBySide settings hNamed) hGap hWidth⟩

/-- Three tables that are placed in the opposite order, the last one because of a reference that
leads nowhere. -/
def turnedSource : String :=
  "table a \x7b\nid: int\n\x7d\ntable b \x7b\nreference_with_a_long_name -> a.id\n\x7d\n" ++
    "table c \x7b\ngone? -> nowhere.id\n\x7d\n"

def turnedTables : List Table :=
  [⟨"a", [⟨"id", false, [], [], .typed "int"⟩]⟩,
    ⟨"b", [⟨"reference_with_a_long_name", false, [], [], .reference "a" "id"⟩]⟩,
    ⟨"c", [⟨"gone", true, [], [], .reference "nowhere" "id"⟩]⟩]

/-- Without a gap the boxes touch each other and still do not overlap. -/
theorem turnedTables_sideBySide :
    let settings : Settings ℚ := { Settings.standard with layout := ⟨-10, 5, 0⟩ }
    parse turnedSource = .ok turnedTables ∧ columnOrder turnedTables = ["c", "b", "a"] ∧
      (∃ c : Canvas Float, Canvas.load .standard turnedSource = .ok c ∧
        c.IsCoherent .standard turnedTables ∧ c.IsSideBySide .standard turnedTables) ∧
      0 ≤ settings.layout.gap ∧ 0 ≤ settings.metrics.minTableWidth ∧
      ∃ c, Canvas.load settings turnedSource = .ok c ∧ c.scene.IsSpread 0 ["c", "b", "a"] ∧
        c.scene.tableRect "c" = some ⟨-10, 5, 160, 56⟩ ∧
        c.scene.tableRect "b" = some ⟨150, 5, 288, 56⟩ ∧
        c.scene.tableRect "a" = some ⟨438, 5, 160, 56⟩ := by
  intro settings
  have hParse : parse turnedSource = .ok turnedTables := by decide +kernel
  have hOrder : columnOrder turnedTables = ["c", "b", "a"] := by decide
  have hGap : 0 ≤ settings.layout.gap := le_refl 0
  have hWidth : 0 ≤ settings.metrics.minTableWidth := by decide +kernel
  obtain ⟨-, -, hRounded, hExact⟩ := load_places_sideBySide hParse
  obtain ⟨c, hLoad, hSpread⟩ := hExact settings hGap hWidth
  have hCanvas := Except.ok.inj (hLoad.symm.trans (Canvas.load_of_parse settings hParse))
  rw [hOrder] at hSpread
  refine ⟨hParse, hOrder, hRounded Float .standard, hGap, hWidth, c, hLoad, hSpread, ?_⟩
  rw [hCanvas]
  decide +kernel

end ErDiagram
