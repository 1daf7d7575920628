import ErDiagram.Proofs.AcceptedSchemas
import ErDiagram.Proofs.ReferenceConnectors
import ErDiagram.Proofs.XmlCharacters

/-! The characters of drawings. A name has only such as XML allows, but a type can have a few others
and the value of a note any, and a drawing shows them as they are. -/
namespace ErDiagram

open Markup Text

/-! ### Texts of a table -/

/-- The texts of an attribute that are drawn and are no names: its type and the values of its
notes. -/
def Attribute.freeTexts (a : Attribute) : List String :=
  (match a.target with
    | .typed text => [text]
    | .reference .. => []) ++ a.notes.map Note.value

/-- The free texts of all attributes. Together with its names they are all that is drawn of a
table. -/
def Table.freeTexts (t : Table) : List String := t.attributes.flatMap Attribute.freeTexts

theorem Table.exists_mem_freeTexts_iff {t : Table} {c : Char} :
    (∃ text ∈ t.freeTexts, c ∈ text.toList) ↔
      ∃ a ∈ t.attributes, ∃ text ∈ a.freeTexts, c ∈ text.toList := by
  simp only [freeTexts, List.mem_flatMap]
  tauto

def Table.HasXmlNames (t : Table) : Prop := ∀ name ∈ t.names, IsXmlText name.toList

theorem Table.IsWellFormed.hasXmlNames {t : Table} (h : t.IsWellFormed) : t.HasXmlNames :=
  fun _ hName => (h.isName hName).isXmlText

namespace Table.HasXmlNames

variable {t : Table} (h : t.HasXmlNames)
include h

theorem name : IsXmlText t.name.toList := h _ List.mem_cons_self

theorem of_attribute {a : Attribute} (ha : a ∈ t.attributes) {name : String}
    (hName : name ∈ a.name :: (a.flags ++ a.target.names)) : IsXmlText name.toList :=
  h _ (List.mem_cons_of_mem _ (List.mem_flatMap.2 ⟨a, ha, hName⟩))

theorem tableId : IsXmlText (tableId t.name).toList := by
  rw [ErDiagram.tableId, String.toList_append]
  exact isXmlText_append_iff.2 ⟨by decide, h.name⟩

end Table.HasXmlNames

theorem isXmlText_attributeId {table attr : String} (hTable : IsXmlText table.toList)
    (hAttr : IsXmlText attr.toList) : IsXmlText (attributeId table attr).toList := by
  simp only [attributeId, String.toList_append, isXmlText_append_iff]
  exact ⟨⟨⟨by decide, hTable⟩, by decide⟩, hAttr⟩

section Characters

variable {c : Char} (hc : ¬ IsXmlChar c)
include hc

theorem mem_noteText_iff (texts : List String) :
    c ∈ (" (" ++ ",".intercalate texts ++ ")").toList ↔ ∃ text ∈ texts, c ∈ text.toList := by
  have hOpen : c ∉ " (".toList := IsXmlText.not_mem (by decide) hc
  have hComma : c ∉ ",".toList := IsXmlText.not_mem (by decide) hc
  have hClose : c ∉ ")".toList := IsXmlText.not_mem (by decide) hc
  simp only [String.toList_append, String.toList_intercalate, List.mem_append, hOpen, hClose,
    mem_intercalate_iff hComma, List.mem_map, exists_exists_and_eq_and, false_or, or_false]

theorem Attribute.mem_leftText_iff (a : Attribute) :
    c ∈ a.leftText.toList ↔ ∃ name ∈ a.name :: a.flags, c ∈ name.toList := by
  rw [leftText, String.toList_append, List.mem_append, List.exists_mem_cons_iff]
  refine or_congr_right ?_
  unfold flagNote
  split
  · rename_i hEmpty
    simp [List.isEmpty_iff.1 hEmpty]
  · rw [Option.getD_some, mem_noteText_iff hc]

theorem Attribute.mem_rightText_iff {a : Attribute}
    (hTarget : ∀ name ∈ a.target.names, IsXmlText name.toList) :
    c ∈ a.rightText.toList ↔ ∃ text ∈ a.freeTexts, c ∈ text.toList := by
  have hLabel : c ∈ a.target.label.toList ↔
      ∃ text, a.target = .typed text ∧ c ∈ text.toList := by
    cases hKind : a.target with
    | typed text => simp [Target.label]
    | reference table attr =>
        rw [hKind] at hTarget
        simp only [Target.names, List.forall_mem_cons] at hTarget
        have hDot : c ≠ '.' := IsXmlChar.ne_of_not (by decide) hc
        simp [Target.label, hDot, hTarget.1.not_mem hc, hTarget.2.1.not_mem hc]
  have hNotes : c ∈ (a.valueNote.getD "").toList ↔ ∃ n ∈ a.notes, c ∈ n.value.toList := by
    unfold valueNote
    split
    · rename_i hEmpty
      simp [List.isEmpty_iff.1 hEmpty]
    · simp only [Option.getD_some, mem_noteText_iff hc, List.mem_map, exists_exists_and_eq_and]
  rw [rightText, String.toList_append, List.mem_append, hLabel, hNotes, freeTexts]
  cases a.target <;> simp

end Characters

/-- The ids and the color of a connector and its markers. -/
structure Connector.HasXmlTexts {α : Type} (line : Connector α) : Prop where
  source : IsXmlText line.source.toList
  target : IsXmlText line.target.toList
  color : IsXmlText line.color.toList
  sourceMarker : IsXmlText line.sourceMarker.color.toList
  targetMarker : IsXmlText line.targetMarker.color.toList

/-! ### Elements -/

namespace Drawing

variable {α : Type}

section Tags

variable [Written α] (hWritten : ∀ x : α, IsXmlText (written x).toList)
include hWritten

theorem isXmlTag_filled (r : Rect α) {fill : String} (hFill : IsXmlText fill.toList) :
    IsXmlTag "rect" (placed r ++ [("fill", fill)]) := by
  constructor <;> simp +decide [placed, hWritten, hFill]

theorem isXmlTag_textAt (x y : α) {k : String} (hKind : IsXmlText k.toList) :
    IsXmlTag "text" (("class", k) :: placedAt x y) := by
  constructor <;> simp +decide [placedAt, hWritten, hKind]

theorem isXmlTag_root (r : Rect α) : IsXmlTag "svg" [("xmlns", "http://www.w3.org/2000/svg"),
    ("width", written r.width), ("height", written r.height),
    ("viewBox", " ".intercalate ([r.x, r.y, r.width, r.height].map written))] := by
  have hView : IsXmlText (" ".intercalate ([r.x, r.y, r.width, r.height].map written)).toList :=
    isXmlText_intercalate (by decide) (List.forall_mem_map.2 fun x _ => hWritten x)
  refine ⟨by simp +decide, ?_⟩
  simp only [List.map_cons, List.map_nil, List.forall_mem_cons]
  exact ⟨by decide, hWritten _, hWritten _, hView, List.forall_mem_nil _⟩

end Tags

variable {c : Char} (hc : ¬ IsXmlChar c)
include hc

theorem mem_rowText_iff {attributes : List (String × String)}
    (hTag : IsXmlTag "text" (("class", "row-text") :: attributes)) (content : String)
    (note : Option String) :
    c ∈ (rowText attributes content note).write ↔ c ∈ (content ++ note.getD "").toList := by
  have hSpan : IsXmlTag "tspan" [("class", "row-note")] := ⟨by decide, by decide⟩
  rw [rowText, mem_write_element_iff hc hTag]
  cases note <;> simp [mem_write_text_iff hc, mem_write_element_iff hc hSpan]

theorem not_mem_style : c ∉ style.write := by
  have hTag : IsXmlTag "style" [] := ⟨by decide, by decide⟩
  rw [style, mem_write_element_iff hc hTag]
  rintro ⟨_, hNode, hMem⟩
  obtain rfl := List.mem_singleton.1 hNode
  rw [mem_write_text_iff hc] at hMem
  refine IsXmlText.not_mem ?_ hc hMem
  -- The pieces are short; to decide the text as a whole is slow.
  simp only [String.toList_append, isXmlText_append_iff]
  decide +kernel

theorem not_mem_definitions : c ∉ definitions.write :=
  IsXmlText.not_mem (by decide +kernel) hc

variable [Written α] (hWritten : ∀ x : α, IsXmlText (written x).toList)
include hWritten

theorem not_mem_polyline {line : Connector α} (h : line.HasXmlTexts) :
    c ∉ (polyline line).write := by
  have hPoint (p : Point α) : IsXmlText (written p.x ++ "," ++ written p.y).toList := by
    simp only [String.toList_append, isXmlText_append_iff]
    exact ⟨⟨hWritten _, by decide⟩, hWritten _⟩
  have hPoints : IsXmlText
      (" ".intercalate (line.points.map fun p => written p.x ++ "," ++ written p.y)).toList :=
    isXmlText_intercalate (by decide) (List.forall_mem_map.2 fun p _ => hPoint p)
  refine not_mem_write_empty hc ⟨by simp +decide, ?_⟩
  simp only [List.map_cons, List.map_nil, List.forall_mem_cons]
  exact ⟨h.source, h.target, h.color, hPoints, List.forall_mem_nil _⟩

theorem not_mem_markerRect {m : Marker α} (h : IsXmlText m.color.toList) :
    c ∉ (markerRect m).write :=
  not_mem_write_empty hc (isXmlTag_filled hWritten m.rect h)

theorem not_exists_mem_lines {lines : List (Connector α)} (h : ∀ line ∈ lines, line.HasXmlTexts) :
    ¬ ∃ node ∈ lines.map polyline, c ∈ node.write := by
  rintro ⟨_, hNode, hMem⟩
  obtain ⟨line, hLine, rfl⟩ := List.mem_map.1 hNode
  exact not_mem_polyline hc hWritten (h line hLine) hMem

theorem not_exists_mem_markers {lines : List (Connector α)}
    (h : ∀ line ∈ lines, line.HasXmlTexts) :
    ¬ ∃ node ∈ lines.flatMap fun line =>
      [markerRect line.sourceMarker, markerRect line.targetMarker], c ∈ node.write := by
  rintro ⟨_, hNode, hMem⟩
  obtain ⟨line, hLine, hPair⟩ := List.mem_flatMap.1 hNode
  rcases List.mem_pair.1 hPair with rfl | rfl
  · exact not_mem_markerRect hc hWritten (h line hLine).sourceMarker hMem
  · exact not_mem_markerRect hc hWritten (h line hLine).targetMarker hMem

variable [Coordinate α]

theorem mem_row_iff {m : TextMetrics α} {t : Table} (hNames : t.HasXmlNames) {a : Attribute}
    (ha : a ∈ t.attributes) (index : Nat) (r : Rect α) :
    c ∈ (row m t.name a index r).write ↔ ∃ text ∈ a.freeTexts, c ∈ text.toList := by
  have hId := isXmlText_attributeId hNames.name (hNames.of_attribute ha List.mem_cons_self)
  have hGroup : IsXmlTag "g" [("id", attributeId t.name a.name)] := by
    constructor <;> simp +decide [hId]
  have hFill : IsXmlText (if index % 2 = 0 then "#475569" else "#334155").toList := by
    split <;> decide
  have hRect := isXmlTag_filled hWritten r hFill
  have hLeft (x y : α) := isXmlTag_textAt hWritten x y (k := "row-text") (by decide)
  have hRight (x y : α) :
      IsXmlTag "text" (("class", "row-text") :: (placedAt x y ++ [("text-anchor", "end")])) := by
    constructor <;> simp +decide [placedAt, hWritten]
  -- At the left there are names only, so all that can have such a character is at the right.
  have hLeftText : c ∉ (a.name ++ a.flagNote.getD "").toList := by
    change c ∉ a.leftText.toList
    rw [Attribute.mem_leftText_iff hc]
    rintro ⟨name, hName, hMem⟩
    have hOfRow : name ∈ a.name :: (a.flags ++ a.target.names) :=
      List.mem_append_left a.target.names hName
    exact (hNames.of_attribute ha hOfRow).not_mem hc hMem
  have hTarget : ∀ name ∈ a.target.names, IsXmlText name.toList := fun name hName =>
    hNames.of_attribute ha (List.mem_cons_of_mem _ (List.mem_append_right _ hName))
  rw [row, mem_write_block_iff hc hGroup, ← Attribute.mem_rightText_iff hc hTarget]
  simp only [List.exists_mem_cons_iff, not_mem_write_empty hc hRect, mem_rowText_iff hc (hLeft _ _),
    hLeftText, mem_rowText_iff hc (hRight _ _), List.not_mem_nil, false_and, exists_false,
    false_or, or_false]
  rfl

theorem exists_mem_rows_iff {s : Scene α} {t : Table} (hNames : t.HasXmlNames)
    (hRows : ∀ a ∈ t.attributes, (s.rowRect t.name a.name).isSome) :
    (∃ node ∈ rows s t, c ∈ node.write) ↔ ∃ text ∈ t.freeTexts, c ∈ text.toList := by
  rw [Table.exists_mem_freeTexts_iff]
  constructor
  · rintro ⟨node, hNode, hMem⟩
    obtain ⟨⟨a, index⟩, hEntry, hRow⟩ := List.mem_filterMap.1 hNode
    obtain ⟨r, -, rfl⟩ := Option.map_eq_some_iff.1 hRow
    have ha : a ∈ t.attributes := List.fst_mem_of_mem_zipIdx hEntry
    exact ⟨a, ha, (mem_row_iff hc hWritten hNames ha index r).1 hMem⟩
  · rintro ⟨a, ha, hText⟩
    obtain ⟨index, hIndex⟩ := List.mem_iff_getElem?.1 ha
    obtain ⟨r, hRow⟩ := Option.isSome_iff_exists.1 (hRows a ha)
    refine ⟨row s.metrics t.name a index r, List.mem_filterMap.2 ⟨(a, index), ?_, ?_⟩,
      (mem_row_iff hc hWritten hNames ha index r).2 hText⟩
    · exact List.mem_zipIdx_iff_getElem?.2 hIndex
    · simp only [hRow, Option.map_some]

theorem exists_mem_table_iff {s : Scene α} {t : Table} (hNames : t.HasXmlNames)
    (hTable : (s.tableRect t.name).isSome)
    (hRows : ∀ a ∈ t.attributes, (s.rowRect t.name a.name).isSome) :
    (∃ node ∈ table? s t, c ∈ node.write) ↔ ∃ text ∈ t.freeTexts, c ∈ text.toList := by
  obtain ⟨box, hBox⟩ := Option.isSome_iff_exists.1 hTable
  have hGroup : IsXmlTag "g" [("id", tableId t.name)] := by
    constructor <;> simp +decide [hNames.tableId]
  have hRect : IsXmlTag "rect"
      (placed box ++ [("rx", "6"), ("fill", "#1e293b"), ("stroke", "#0f172a")]) := by
    constructor <;> simp +decide [placed, hWritten]
  have hText (x y : α) := isXmlTag_textAt hWritten x y (k := "table-name") (by decide)
  rw [← exists_mem_rows_iff hc hWritten hNames hRows]
  simp only [table?, Scene.headerRect, hBox, Option.map_some, Option.bind_eq_bind,
    Option.bind_some, Option.pure_def, Option.mem_some_iff, exists_eq_left',
    mem_write_block_iff hc hGroup, List.exists_mem_cons_iff, not_mem_write_empty hc hRect,
    mem_write_element_iff hc (hText _ _), mem_write_text_iff hc, hNames.name.not_mem hc,
    List.not_mem_nil, false_and, exists_false, false_or]

theorem exists_mem_tables_iff {ds : List Table} {s : Scene α} {m : TextMetrics α}
    (hNames : ∀ t ∈ ds, t.HasXmlNames) (hMeasures : s.Measures m ds) :
    (∃ node ∈ ds.filterMap (table? s), c ∈ node.write) ↔
      ∃ t ∈ ds, ∃ text ∈ t.freeTexts, c ∈ text.toList := by
  have hTable (t : Table) (ht : t ∈ ds) := exists_mem_table_iff hc hWritten (hNames t ht)
    (hMeasures.tableRect_isSome ht) fun a ha =>
      (hMeasures.rowRect_isSome_iff ht).2 ⟨a, ha, rfl⟩
  constructor
  · rintro ⟨node, hNode, hMem⟩
    obtain ⟨t, ht, hSome⟩ := List.mem_filterMap.1 hNode
    exact ⟨t, ht, (hTable t ht).1 ⟨node, hSome, hMem⟩⟩
  · rintro ⟨t, ht, hText⟩
    obtain ⟨node, hSome, hMem⟩ := (hTable t ht).2 hText
    exact ⟨node, List.mem_filterMap.2 ⟨t, ht, hSome⟩, hMem⟩

theorem mem_document_iff {d : Diagram α} {s : Scene α} {m : TextMetrics α}
    (hNames : ∀ t ∈ d.tables, t.HasXmlNames) (hMeasures : s.Measures m d.tables)
    (hConnectors : ∀ line ∈ d.connectors, line.HasXmlTexts) :
    c ∈ (document d s).write ↔ ∃ t ∈ d.tables, ∃ text ∈ t.freeTexts, c ∈ text.toList := by
  have hBackground (fill : String) (hFill : IsXmlText fill.toList) :=
    not_mem_write_empty hc (isXmlTag_filled hWritten (viewBox d s) hFill)
  have hLineGroup : IsXmlTag "g" [("class", "connectors"), ("stroke-linejoin", "bevel"),
      ("stroke-width", "4"), ("fill", "none")] := ⟨by decide, by decide⟩
  have hMarkerGroup : IsXmlTag "g" [("class", "markers"), ("stroke", "none")] :=
    ⟨by decide, by decide⟩
  rw [document, mem_write_block_iff hc (isXmlTag_root hWritten _),
    ← exists_mem_tables_iff hc hWritten hNames hMeasures]
  simp only [List.mem_append, or_and_right, exists_or, List.exists_mem_cons_iff, not_mem_style hc,
    not_mem_definitions hc, hBackground "#334155" (by decide),
    hBackground "url(#GridPattern)" (by decide), mem_write_block_iff hc hLineGroup,
    mem_write_block_iff hc hMarkerGroup, not_exists_mem_lines hc hWritten hConnectors,
    not_exists_mem_markers hc hWritten hConnectors, List.not_mem_nil, false_and, exists_false,
    false_or, or_false]

end Drawing

/-! ### Drawings of canvases -/

theorem Joins.hasXmlTexts {α : Type} [Coordinate α] {settings : Settings α} {ds : List Table}
    {s : Scene α} {entry : Table × Reference} {line : Connector α}
    (h : Joins settings ds s entry line) (hEntry : entry ∈ allReferences ds)
    (hNames : ∀ t ∈ ds, t.HasXmlNames)
    (hColors : ∀ color ∈ settings.routing.defaultColor :: settings.palette.colors,
      IsXmlText color.toList) : line.HasXmlTexts := by
  obtain ⟨t, r⟩ := entry
  obtain ⟨ht, hr⟩ := mem_allReferences.1 hEntry
  obtain ⟨a, ha, hSource, hTarget⟩ := mem_references_iff.1 hr
  have hOf (name : String) (hName : name ∈ a.name :: (a.flags ++ a.target.names)) :=
    (hNames t ht).of_attribute ha hName
  have hTable := hOf r.targetTable (by simp [hTarget, Target.names])
  have hAttribute := hOf r.targetAttribute (by simp [hTarget, Target.names])
  have hName : IsXmlText r.source.toList := hSource ▸ hOf a.name List.mem_cons_self
  have hColor : IsXmlText line.color.toList := by
    obtain ⟨index, u, -, -, hDefault, hPalette⟩ := h.color
    by_cases hEmpty : settings.palette.colors = []
    · rw [hDefault hEmpty]
      exact hColors _ List.mem_cons_self
    · exact hColors _ (List.mem_cons_of_mem _ (List.mem_of_getElem? (hPalette hEmpty)))
  constructor
  case source => exact h.source ▸ isXmlText_attributeId (hNames t ht).name hName
  case target => exact h.target ▸ isXmlText_attributeId hTable hAttribute
  case color => exact hColor
  case sourceMarker => exact h.markers.1 ▸ hColor
  case targetMarker => exact h.markers.2 ▸ hColor

/-- However its tables were moved, a canvas shows the characters that XML does not allow if types or
values of notes have them, and it shows no others of them. -/
theorem Canvas.Fits.mem_render_iff {α : Type} [Coordinate α] [Written α] {settings : Settings α}
    {ds : List Table} {canvas : Canvas α} (h : canvas.Fits settings ds) (hNamed : WellNamed ds)
    (hNames : ∀ t ∈ ds, t.HasXmlNames) (hWritten : ∀ x : α, IsXmlText (written x).toList)
    (hColors : ∀ color ∈ settings.routing.defaultColor :: settings.palette.colors,
      IsXmlText color.toList) {c : Char} (hc : ¬ IsXmlChar c) :
    c ∈ canvas.render.toList ↔ ∃ t ∈ ds, ∃ text ∈ t.freeTexts, c ∈ text.toList := by
  have hConnectors : ∀ line ∈ canvas.diagram.connectors, line.HasXmlTexts := by
    intro line hLine
    rw [h.connectors] at hLine
    obtain ⟨entry, hEntry, hJoins⟩ :=
      exists_left_of_mem (route_joins hNamed h.measures) hLine
    exact hJoins.hasXmlTexts (List.mem_of_mem_filter hEntry) hNames hColors
  have hBreak : c ∉ ['\n'] := IsXmlText.not_mem (by decide) hc
  have hTables := h.tables
  subst hTables
  rw [Canvas.render, ErDiagram.render, String.toList_ofList, List.mem_append, or_iff_left hBreak,
    Drawing.mem_document_iff hc hWritten hNames h.measures hConnectors]

/-! ### Characters of a source -/

namespace Token

/-- A text has no characters but those between its quotes and the three that escapes stand for. -/
theorem Quotes.mem_content {spelling content : List Char} (h : Quotes spelling content) {c : Char}
    (hc : c ∈ content) : c ∈ spelling ∨ c ∈ ['\n', '\t', '\r'] := by
  induction h with
  | nil => cases hc
  | plain _ _ _ later ih =>
      rcases List.mem_cons.1 hc with rfl | hLater
      · exact Or.inl List.mem_cons_self
      · exact (ih hLater).imp_left (List.mem_cons_of_mem _)
  | escaped hEscape later ih =>
      rcases List.mem_cons.1 hc with rfl | hLater
      · cases hEscape <;> simp
      · exact (ih hLater).imp_left fun hMem => List.mem_cons_of_mem _ (List.mem_cons_of_mem _ hMem)

theorem Spells.mem_text {behind spelling : List Char} {content : String}
    (h : Spells behind (.text content) spelling) {c : Char} (hc : c ∈ content.toList) :
    c ∈ spelling ∨ c ∈ ['\n', '\t', '\r'] := by
  cases h with
  | text hQuotes =>
      rw [String.toList_ofList] at hc
      exact (hQuotes.mem_content hc).imp_left fun hMem =>
        List.mem_cons_of_mem _ (List.mem_append_left _ hMem)
  | mark hMark => simp [punctuation] at hMark

end Token

namespace Grammar

theorem Caption.mem_content {text : String} {s : Scanned} (hScan : tokenize text = .ok s)
    {a : Caption} (ha : a.place.mark (.text a.content) ∈ s.tokens) {c : Char}
    (hc : c ∈ a.content.toList) : c ∈ text.toList ∨ c ∈ ['\n', '\t', '\r'] := by
  have hSegments := (Token.scanFrom_laid hScan).segmentsFrom (List.nil_append _).symm rfl
  obtain ⟨ahead, spelling, rest, hSource, -, -, -, hSpells⟩ :=
    hSegments.exists_spelling (List.mem_append_left _ (List.mem_map_of_mem ha)) rfl
  refine (hSpells.mem_text hc).imp_left fun hMem => ?_
  rw [hSource]
  exact List.mem_append_left _ (List.mem_append_right _ hMem)

theorem Caption.value_subset {a : Caption} {n : Note} (h : n ∈ a.notes) :
    n.value.toList ⊆ a.content.toList := by
  rw [notes] at h
  split at h
  · cases h
  · obtain ⟨segment, hSegment, rfl⟩ := List.mem_map.1 h
    have hBehind := (List.dropWhile_suffix (· ≠ '=') (l := segment)).subset
    rw [segmentNote, String.toList_ofList]
    intro c hc
    exact Text.subset_of_mem_splitOn hSegment
      (hBehind (List.mem_of_mem_tail (Text.trimChars_subset _ hc)))

/-- What is free in an attribute comes from the source, but for the controls that escapes stand
for. -/
theorem AttrTree.mem_freeTexts {text : String} {s : Scanned} (hScan : tokenize text = .ok s)
    {a : AttrTree} (ha : a.tokens <:+: s.tokens) {free : String}
    (hFree : free ∈ (a.spelled text.toList).freeTexts) {c : Char} (hc : c ∈ free.toList) :
    c ∈ text.toList ∨ c ∈ ['\n', '\t', '\r'] := by
  obtain ⟨name, target, caption⟩ := a
  rw [Attribute.freeTexts, List.mem_append] at hFree
  rcases hFree with hType | hValue
  · cases target with
    | typed marks colon type =>
        obtain rfl := List.mem_singleton.1 hType
        rw [TypeRun.text, String.toList_ofList] at hc
        exact Or.inl (Text.slice_subset _ _ _ hc)
    | reference => cases hType
  · obtain ⟨n, hn, rfl⟩ := List.mem_map.1 hValue
    cases caption with
    | none => cases hn
    | some caption =>
        refine Caption.mem_content hScan (ha.subset ?_) (Caption.value_subset hn hc)
        simp [AttrTree.tokens, captionTokens]

end Grammar

theorem mem_freeTexts_of_parse {source : String} {ds : List Table} (h : parse source = .ok ds)
    {t : Table} (ht : t ∈ ds) {text : String} (hText : text ∈ t.freeTexts) {c : Char}
    (hc : c ∈ text.toList) : c ∈ source.toList ∨ c ∈ ['\n', '\t', '\r'] := by
  obtain ⟨a, ha, hFree⟩ := List.mem_flatMap.1 hText
  obtain ⟨s, hScan⟩ := exists_tokenize_of_parse h
  obtain ⟨d, hTokens, -, rfl⟩ := Grammar.derivation_of_parse hScan h
  obtain ⟨entry, hEntry, rfl⟩ := List.mem_map.1 ht
  obtain ⟨tree, hTree, rfl⟩ := List.mem_map.1 ha
  exact Grammar.AttrTree.mem_freeTexts hScan
    (hTokens ▸ Grammar.Derivation.attr_infix hEntry hTree) hFree hc

/-! ### Drawings of sources -/

theorem mem_renderSource_iff {source : String} {ds : List Table} (h : parse source = .ok ds) :
    ∃ drawing, Canvas.renderSource (α := Float) source = .ok drawing ∧
      ∀ c, ¬ IsXmlChar c →
        (c ∈ drawing.toList ↔ ∃ t ∈ ds, ∃ text ∈ t.freeTexts, c ∈ text.toList) := by
  have hNamed := wellNamed_of_parse h
  have hLoad := Canvas.load_of_parse (.standard : Settings Float) h
  refine ⟨(Canvas.ofTables .standard ds).render, by rw [Canvas.renderSource, hLoad]; rfl, ?_⟩
  intro c hc
  exact (Canvas.ofTables_fits .standard hNamed).mem_render_iff hNamed
    (fun t ht => (isWellFormed_of_parse h ht).hasXmlNames) Decimal.isXmlText_text (by decide) hc

/-- The drawing of an accepted source is made of characters of XML if and only if its types and the
values of its notes are. Any other character in it stands in the source. -/
theorem renderSource_isXmlText (source : String) (ds : List Table) (h : parse source = .ok ds) :
    ∃ drawing, Canvas.renderSource (α := Float) source = .ok drawing ∧
      (IsXmlText drawing.toList ↔ ∀ t ∈ ds, ∀ text ∈ t.freeTexts, IsXmlText text.toList) ∧
      ∀ c ∈ drawing.toList, IsXmlChar c ∨ c ∈ source.toList := by
  obtain ⟨drawing, hDrawing, hShown⟩ := mem_renderSource_iff h
  refine ⟨drawing, hDrawing, ⟨fun hLegal t ht text hText c hc => ?_, fun hTexts c hc => ?_⟩,
    fun c hc => ?_⟩
  · by_contra hNot
    exact hNot (hLegal c ((hShown c hNot).2 ⟨t, ht, text, hText, hc⟩))
  · by_contra hNot
    obtain ⟨t, ht, text, hText, hMem⟩ := (hShown c hNot).1 hc
    exact hNot (hTexts t ht text hText c hMem)
  · refine or_iff_not_imp_left.2 fun hNot => ?_
    obtain ⟨t, ht, text, hText, hMem⟩ := (hShown c hNot).1 hc
    refine (mem_freeTexts_of_parse h ht hText hMem).resolve_right ?_
    exact IsXmlText.not_mem (by decide) hNot

/-- Controls in a comment and in the key of a note are not drawn. -/
def hiddenControls : String :=
  "table A \x7b # \u0001\n x: t \"k\u0001=v\"\n\x7d"

theorem renderSource_hiddenControls :
    let ds : List Table := [⟨"A", [⟨"x", false, [], [⟨"k\u0001", "v"⟩], .typed "t"⟩]⟩]
    parse hiddenControls = .ok ds ∧ ¬ IsXmlText hiddenControls.toList ∧
      ∃ drawing, Canvas.renderSource (α := Float) hiddenControls = .ok drawing ∧
        IsXmlText drawing.toList := by
  intro ds
  have hParse : parse hiddenControls = .ok ds := by decide +kernel
  obtain ⟨drawing, hDrawing, hLegal, -⟩ := renderSource_isXmlText hiddenControls ds hParse
  exact ⟨hParse, by decide +kernel, drawing, hDrawing, hLegal.2 (by decide +kernel)⟩

/-- A control in the value of a note. -/
def shownControl : String :=
  "table A \x7b\n x: t \"k=\u0001\"\n\x7d"

/-- A text in quotes may have any control, and a drawing shows it as it is. -/
theorem not_isXmlText_shownControl :
    parse shownControl = .ok [⟨"A", [⟨"x", false, [], [⟨"k", "\u0001"⟩], .typed "t"⟩]⟩] ∧
      ∃ drawing, Canvas.renderSource (α := Float) shownControl = .ok drawing ∧
        '\u0001' ∈ drawing.toList ∧ ¬ IsXmlText drawing.toList := by
  have hParse : parse shownControl =
      .ok [⟨"A", [⟨"x", false, [], [⟨"k", "\u0001"⟩], .typed "t"⟩]⟩] := by decide +kernel
  have hNot : ¬ IsXmlChar '\u0001' := by decide
  obtain ⟨drawing, hDrawing, hShown⟩ := mem_renderSource_iff hParse
  have hMem : '\u0001' ∈ drawing.toList := (hShown _ hNot).2 (by decide +kernel)
  exact ⟨hParse, drawing, hDrawing, hMem, fun hLegal => hNot (hLegal _ hMem)⟩

end ErDiagram
