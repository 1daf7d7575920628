import ErDiagram.Proofs.ElementIds
import ErDiagram.Proofs.ExactNumbers

/-! How wide the boxes of tables are, and how rows lie in them. Without rounding a box is as wide as
its texts need and no wider, and its header and its rows fill it from top to bottom. -/

namespace ErDiagram

open Coordinate

/-! ### Widths -/

/-- A box of this width is wide enough for the name of the table and for each pair of texts in a row
of it, with the blank space around them. -/
structure TextMetrics.HasRoom (m : TextMetrics ℚ) (t : Table) (width : ℚ) : Prop where
  least : m.minTableWidth ≤ width
  name : m.textWidth t.name + 2 * m.paddingX ≤ width
  rows : ∀ a ∈ t.attributes,
    m.textWidth a.leftText + m.columnGap + m.textWidth a.rightText + 2 * m.paddingX ≤ width

namespace TextMetrics

variable {m : TextMetrics ℚ}

theorem textWidth_nonneg (h : 0 ≤ m.charWidth) (text : String) : 0 ≤ m.textWidth text :=
  mul_nonneg (Nat.cast_nonneg _) h

/-- The widest row is sought from zero on, which the name of the table reaches anyway. -/
theorem tableWidth_le_iff (h : 0 ≤ m.charWidth) {t : Table} {width : ℚ} :
    m.tableWidth t ≤ width ↔ m.HasRoom t width := by
  have hName := textWidth_nonneg h t.name
  dsimp only [tableWidth]
  rw [greater_eq_max, max_le_iff, twice_eq, ← le_sub_iff_add_le, greater_eq_max, max_le_iff,
    foldl_greater_le_iff, zero_eq]
  constructor
  · rintro ⟨⟨hHeader, -, hAll⟩, hLeast⟩
    exact ⟨hLeast, le_sub_iff_add_le.1 hHeader, fun a ha => le_sub_iff_add_le.1 (hAll a ha)⟩
  · intro hRoom
    have hHeader := le_sub_iff_add_le.2 hRoom.name
    exact ⟨⟨hHeader, hName.trans hHeader, fun a ha => le_sub_iff_add_le.2 (hRoom.rows a ha)⟩,
      hRoom.least⟩

theorem tableWidth_isLeast (h : 0 ≤ m.charWidth) (t : Table) :
    IsLeast {width | m.HasRoom t width} (m.tableWidth t) := by
  simp only [← tableWidth_le_iff h]
  exact isLeast_Ici

end TextMetrics

/-! ### Rows -/

/-- Rectangles of one height lie flush one under the other and fill a box from top to bottom. -/
structure Rect.IsFilledBy (box : Rect ℚ) (height : ℚ) (first : Rect ℚ) (others : List (Rect ℚ)) :
    Prop where
  sides : ∀ r ∈ first :: others, r.x = box.x ∧ r.width = box.width ∧ r.height = height
  top : first.y = box.y
  flush : (first :: others).IsChain fun above below => below.y = above.bottom
  bottom : ((first :: others).getLast (List.cons_ne_nil _ _)).bottom = box.bottom

/-- The line of a box with the given number. The header has the number zero. -/
def TextMetrics.line (m : TextMetrics ℚ) (box : Rect ℚ) (number : Nat) : Rect ℚ :=
  ⟨box.x, box.y + m.rowHeight * number, box.width, m.rowHeight⟩

theorem TextMetrics.lines_fill (m : TextMetrics ℚ) {box : Rect ℚ} (count : Nat)
    (hHeight : box.height = m.rowHeight * ((count + 1 : Nat) : ℚ)) :
    box.IsFilledBy m.rowHeight (m.line box 0)
      ((List.range count).map fun index => m.line box (index + 1)) := by
  -- The header and the rows are one run of lines, so one step is the same for all of them.
  have hLines : m.line box 0 :: (List.range count).map (fun index => m.line box (index + 1)) =
      (List.range (count + 1)).map (m.line box) := by
    rw [List.range_succ_eq_map, List.map_cons, List.map_map]
    rfl
  refine ⟨?_, ?_, ?_, ?_⟩
  · simp [line]
  · simp [line]
  · rw [hLines, List.isChain_map, List.isChain_range_succ]
    intro index _
    simp only [line, Rect.bottom_eq, Nat.cast_succ]
    ring
  · simp only [hLines, List.getLast_map, List.getLast_range, Nat.add_sub_cancel]
    simp only [line, Rect.bottom_eq, hHeight, Nat.cast_succ]
    ring

/-- Without rounding, the box of each table on a scene is the least one that has room for its texts,
wherever it is, and the header and the rows of the attributes in their order fill it. -/
theorem tableBoxes_fit (m : TextMetrics ℚ) (hChars : 0 ≤ m.charWidth) {ds : List Table}
    (hTables : (ds.map Table.name).Nodup)
    (hRows : ∀ t ∈ ds, (t.attributes.map Attribute.name).Nodup)
    (syncs : List (NameMap (Point ℚ))) :
    let s := syncs.foldl Scene.sync (Scene.ofTables m ds)
    ∀ t ∈ ds, ∃ box header rows,
      s.tableRect t.name = some box ∧ s.headerRect t.name = some header ∧
      List.Forall₂ (fun a row => s.rowRect t.name a.name = some row) t.attributes rows ∧
      IsLeast {width | m.HasRoom t width} box.width ∧
      box.IsFilledBy m.rowHeight header rows := by
  intro s t ht
  have hMeasures : s.Measures m ds := (Scene.ofTables_measures m hTables).foldl_sync syncs
  obtain ⟨corner, hBox⟩ := hMeasures.boxes t ht
  let box : Rect ℚ := ⟨corner.x, corner.y, m.tableWidth t, m.tableHeight t⟩
  have hTable : s.tableRect t.name = some box := by
    rw [Scene.tableRect, hBox]
    rfl
  have hHeader : s.headerRect t.name = some (m.line box 0) := by
    rw [Scene.headerRect, hTable, hMeasures.metrics]
    simp [TextMetrics.line]
  refine ⟨box, m.line box 0, _, hTable, hHeader, ?_, m.tableWidth_isLeast hChars t,
    m.lines_fill t.attributes.length rfl⟩
  refine List.forall₂_iff_get.2 ⟨by simp, fun index hIndex _ => ?_⟩
  have hAttribute := List.getElem?_eq_getElem hIndex
  rw [List.get_eq_getElem, Scene.rowRect_of_getElem? hBox (hRows t ht) hAttribute,
    hMeasures.metrics]
  simp [TextMetrics.line, box]

/-- A table without rows, and one whose texts need more than the least width. -/
def narrowAndWideTables : List Table :=
  [⟨"empty", []⟩,
    ⟨"wide", [⟨"id", false, ["PK"], [], .typed "int"⟩,
      ⟨"a_very_long_attribute_name", false, [], [], .typed "some_rather_long_type"⟩]⟩]

/-- Of two places that a table is brought to, its box is at the last one. -/
theorem narrowAndWideTables_fit :
    let m : TextMetrics ℚ := .standard
    let syncs := [NameMap.ofList [("empty", ⟨1, 2⟩), ("wide", ⟨3, 4⟩)], .ofList [("wide", ⟨-5, 6⟩)]]
    let s := syncs.foldl Scene.sync (Scene.ofTables m narrowAndWideTables)
    0 ≤ m.charWidth ∧ (narrowAndWideTables.map Table.name).Nodup ∧
      (∀ t ∈ narrowAndWideTables, (t.attributes.map Attribute.name).Nodup) ∧
      IsLeast {width | m.HasRoom narrowAndWideTables[0] width} 160 ∧
      IsLeast {width | m.HasRoom narrowAndWideTables[1] width} 424 ∧
      ∃ header first second, s.headerRect "wide" = some header ∧
        s.rowRect "wide" "id" = some first ∧
        s.rowRect "wide" "a_very_long_attribute_name" = some second ∧
        Rect.IsFilledBy ⟨-5, 6, 424, 84⟩ m.rowHeight header [first, second] := by
  intro m syncs s
  have hChars : 0 ≤ m.charWidth := by decide +kernel
  have hTables : (narrowAndWideTables.map Table.name).Nodup := by decide
  have hRows : ∀ t ∈ narrowAndWideTables, (t.attributes.map Attribute.name).Nodup := by decide
  have hFit := tableBoxes_fit m hChars hTables hRows syncs
  have hEmpty : s.tableRect "empty" = some ⟨1, 2, 160, 28⟩ := by decide +kernel
  have hWide : s.tableRect "wide" = some ⟨-5, 6, 424, 84⟩ := by decide +kernel
  obtain ⟨box, -, -, hBox, -, -, hNarrowest, -⟩ := hFit narrowAndWideTables[0] (by decide)
  obtain rfl := Option.some.inj (hEmpty.symm.trans hBox)
  obtain ⟨box, header, rows, hBox, hHeader, hRowRects, hLeast, hFilled⟩ :=
    hFit narrowAndWideTables[1] (by decide)
  obtain rfl := Option.some.inj (hWide.symm.trans hBox)
  cases hRowRects with
  | cons hFirst hOthers =>
      cases hOthers with
      | cons hSecond hNone =>
          cases hNone
          exact ⟨hChars, hTables, hRows, hNarrowest, hLeast, header, _, _, hHeader, hFirst, hSecond,
            hFilled⟩

end ErDiagram
