import ErDiagram.Drawing
import ErDiagram.Proofs.Lists
import ErDiagram.Proofs.MarkupReading

/-! The tree that a drawing is read as. Its elements are those of the diagram and the scene, and the
texts of the user stand in it as they are. -/
namespace ErDiagram.Drawing

open Markup

/-! ### The expected tree -/

mutual

/-- All characters within some content. -/
def textOf : Content → List Char
  | .char c => [c]
  | .element _ _ children => textOfAll children

def textOfAll : List Content → List Char
  | [] => []
  | x :: xs => textOf x ++ textOfAll xs

end

def chars (text : String) : List Content := text.toList.map .char

/-- Elements on lines of their own. Nothing but line feeds stands between them. -/
def onLines (xs : List Content) : List Content :=
  .char '\n' :: xs.flatMap fun x => [x, .char '\n']

/-- A text with a note behind it, which has an element of its own. -/
def labelled (text : String) (note : Option String) : List Content :=
  chars text ++ note.toList.map fun n => .element "tspan" [("class", "row-note")] (chars n)

variable {α : Type} [Coordinate α] [Written α]

def IsLine (c : Connector α) (x : Content) : Prop :=
  x = .element "polyline" [("data-from", c.source), ("data-to", c.target), ("stroke", c.color),
    ("points", " ".intercalate (c.points.map fun p => written p.x ++ "," ++ written p.y))] []

def IsMarker (m : Marker α) (x : Content) : Prop :=
  x = .element "rect" (placed m.rect ++ [("fill", m.color)]) []

/-- The row of an attribute: its place, and its texts at the left and at the right. -/
def IsRow (s : Scene α) (table : String) (a : Attribute) (x : Content) : Prop :=
  ∃ (r : Rect α) (fill : String) (left right y : α), s.rowRect table a.name = some r ∧
    (fill = "#475569" ∨ fill = "#334155") ∧
    x = .element "g" [("id", attributeId table a.name)] (onLines [
      .element "rect" (placed r ++ [("fill", fill)]) [],
      .element "text" (("class", "row-text") :: placedAt left y) (labelled a.name a.flagNote),
      .element "text" (("class", "row-text") :: (placedAt right y ++ [("text-anchor", "end")]))
        (labelled a.target.label a.valueNote)]) ∧
    textOfAll (labelled a.name a.flagNote) = a.leftText.toList ∧
    textOfAll (labelled a.target.label a.valueNote) = a.rightText.toList

/-- A table: its box, its name, and a row for each attribute whose row the scene has. -/
def IsTable (s : Scene α) (t : Table) (x : Content) : Prop :=
  ∃ (box : Rect α) (left y : α) (rows : List Content), s.tableRect t.name = some box ∧
    x = .element "g" [("id", tableId t.name)] (onLines (
      .element "rect" (placed box ++
        [("rx", "6"), ("fill", "#1e293b"), ("stroke", "#0f172a")]) [] ::
      .element "text" (("class", "table-name") :: placedAt left y) (chars t.name) :: rows)) ∧
    List.Forall₂ (IsRow s t.name)
      (t.attributes.filter fun a => (s.rowRect t.name a.name).isSome) rows

/-- A drawing: what is the same in all drawings, the background, a line for each connector, the
tables that the scene has, and two markers for each connector. -/
def IsDrawing (rules pattern : List Content) (d : Diagram α) (s : Scene α) (x : Content) : Prop :=
  ∃ (view : Rect α) (lines tables markers : List Content),
    x = .element "svg" [("xmlns", "http://www.w3.org/2000/svg"), ("width", written view.width),
        ("height", written view.height),
        ("viewBox", " ".intercalate ([view.x, view.y, view.width, view.height].map written))]
      (onLines (
      [.element "style" [] rules, .element "defs" [] pattern,
        .element "rect" (placed view ++ [("fill", "#334155")]) [],
        .element "rect" (placed view ++ [("fill", "url(#GridPattern)")]) [],
        .element "g" [("class", "connectors"), ("stroke-linejoin", "bevel"),
          ("stroke-width", "4"), ("fill", "none")] (onLines lines)] ++
      tables ++
      [.element "g" [("class", "markers"), ("stroke", "none")] (onLines markers)])) ∧
    List.Forall₂ IsLine d.connectors lines ∧
    List.Forall₂ (IsTable s) (d.tables.filter fun t => (s.tableRect t.name).isSome) tables ∧
    List.Forall₂ IsMarker (d.connectors.flatMap fun c => [c.sourceMarker, c.targetMarker]) markers

/-! ### Elements on lines -/

/-- The node is written so that it can be read, and what is read is this one element. -/
structure Gives (n : Node) (x : Content) : Prop where
  plain : n.IsPlain
  contents : n.contents = [x]

theorem empty_gives {tag : String} {attributes : List (String × String)}
    (hTag : IsTag tag (attributes.map Prod.fst)) :
    Gives (.empty tag attributes) (.element tag attributes []) :=
  ⟨hTag, rfl⟩

theorem allPlain_lines {children : List Node} {xs : List Content}
    (h : List.Forall₂ Gives children xs) :
    AllPlain (children.flatMap fun child => [child, .text "\n"]) := by
  induction h with
  | nil => trivial
  | cons hHere _ ih => exact ⟨hHere.plain, trivial, ih⟩

theorem allContents_lines {children : List Node} {xs : List Content}
    (h : List.Forall₂ Gives children xs) :
    allContents (children.flatMap fun child => [child, .text "\n"]) =
      xs.flatMap fun x => [x, .char '\n'] := by
  induction h with
  | nil => rfl
  | @cons n x children xs hHere _ ih =>
      have hBreak : (Node.text "\n").contents = [.char '\n'] := rfl
      rw [List.flatMap_cons, List.flatMap_cons, ← ih]
      change n.contents ++ ((Node.text "\n").contents ++ allContents _) = _
      rw [hHere.contents, hBreak]
      rfl

theorem block_gives {tag : String} {attributes : List (String × String)} {children : List Node}
    {xs : List Content} (hTag : IsTag tag (attributes.map Prod.fst))
    (h : List.Forall₂ Gives children xs) :
    Gives (block tag attributes children) (.element tag attributes (onLines xs)) := by
  refine ⟨⟨hTag, trivial, allPlain_lines h⟩, ?_⟩
  rw [block, Node.contents, allContents, allContents_lines h]
  rfl

/-- Nodes made one by one give contents made one by one. -/
theorem forall₂_map_gives {β : Type} {f : β → Node} {P : β → Content → Prop} {bs : List β}
    (h : ∀ b ∈ bs, ∃ x, Gives (f b) x ∧ P b x) :
    ∃ xs, List.Forall₂ Gives (bs.map f) xs ∧ List.Forall₂ P bs xs := by
  apply exists_forall₂_of_exists
  rw [List.forall₂_map_right_iff]
  exact List.forall₂_same.2 h

/-- What is not drawn is skipped, and the others stay in order. -/
theorem filterMap_gives {β : Type} {f : β → Option Node} {p : β → Bool} {P : β → Content → Prop}
    {bs : List β} (hSkip : ∀ b ∈ bs, p b = false → f b = none)
    (h : ∀ b ∈ bs, p b → ∃ n x, f b = some n ∧ Gives n x ∧ P b x) :
    ∃ xs, List.Forall₂ Gives (bs.filterMap f) xs ∧ List.Forall₂ P (bs.filter p) xs := by
  apply exists_forall₂_of_exists
  apply forall₂_filter_filterMap hSkip
  intro b hb hp
  obtain ⟨n, x, hSome, hGives⟩ := h b hb hp
  exact ⟨n, hSome, x, hGives⟩

/-! ### What is drawn -/

theorem textOfAll_append (xs ys : List Content) :
    textOfAll (xs ++ ys) = textOfAll xs ++ textOfAll ys := by
  induction xs with
  | nil => rfl
  | cons x xs ih =>
      rw [List.cons_append, textOfAll, ih, textOfAll, List.append_assoc]

theorem textOfAll_chars (text : String) : textOfAll (chars text) = text.toList := by
  have hAll (cs : List Char) : textOfAll (cs.map .char) = cs := by
    induction cs with
    | nil => rfl
    | cons c cs ih => rw [List.map_cons, textOfAll, ih, textOf, List.singleton_append]
  exact hAll text.toList

theorem textOfAll_labelled (text : String) (note : Option String) :
    textOfAll (labelled text note) = (text ++ note.getD "").toList := by
  rw [labelled, textOfAll_append, textOfAll_chars, String.toList_append]
  cases note with
  | none => rfl
  | some n =>
      change text.toList ++ (textOfAll (chars n) ++ []) = text.toList ++ n.toList
      rw [textOfAll_chars, List.append_nil]

omit [Coordinate α] in
theorem polyline_gives (c : Connector α) : ∃ x, Gives (polyline c) x ∧ IsLine c x := by
  have hTag : IsTag "polyline" ["data-from", "data-to", "stroke", "points"] := by decide
  exact ⟨_, empty_gives hTag, rfl⟩

omit [Coordinate α] in
theorem markerRect_gives (m : Marker α) : ∃ x, Gives (markerRect m) x ∧ IsMarker m x := by
  have hTag : IsTag "rect" ["x", "y", "width", "height", "fill"] := by decide
  exact ⟨_, empty_gives hTag, rfl⟩

omit [Coordinate α] [Written α] in
theorem text_gives {tag : String} {attributes : List (String × String)}
    (hTag : IsTag tag (attributes.map Prod.fst)) (content : String) :
    Gives (.element tag attributes [.text content]) (.element tag attributes (chars content)) := by
  have hContents : allContents [.text content] = chars content := List.append_nil _
  refine ⟨⟨hTag, trivial, trivial⟩, ?_⟩
  rw [Node.contents, hContents]

theorem rowText_gives {attributes : List (String × String)}
    (hTag : IsTag "text" ("class" :: attributes.map Prod.fst)) (content : String)
    (note : Option String) :
    Gives (rowText attributes content note)
      (.element "text" (("class", "row-text") :: attributes) (labelled content note)) := by
  cases note with
  | none => exact ⟨⟨hTag, trivial, trivial⟩, rfl⟩
  | some n =>
      have hSpan : IsTag "tspan" ([("class", "row-note")].map Prod.fst) := by decide
      have hNote := text_gives hSpan n
      refine ⟨⟨hTag, trivial, hNote.plain, trivial⟩, ?_⟩
      rw [labelled, Option.toList_some, List.map_singleton, ← hNote.contents, ← List.append_nil
        (Node.contents _)]
      rfl

theorem row_gives {s : Scene α} {table : String} {a : Attribute} {r : Rect α}
    (hRow : s.rowRect table a.name = some r) (index : Nat) :
    ∃ x, Gives (row s.metrics table a index r) x ∧ IsRow s table a x := by
  have hGroup : IsTag "g" ["id"] := by decide
  have hRect : IsTag "rect" ["x", "y", "width", "height", "fill"] := by decide
  have hLeft (x y : α) : IsTag "text" ("class" :: (placedAt x y).map Prod.fst) := by
    change IsTag "text" ["class", "x", "y"]
    decide
  have hRight (x y : α) :
      IsTag "text" ("class" :: (placedAt x y ++ [("text-anchor", "end")]).map Prod.fst) := by
    change IsTag "text" ["class", "x", "y", "text-anchor"]
    decide
  refine ⟨_, block_gives hGroup (.cons (empty_gives hRect) (.cons (rowText_gives (hLeft _ _) _ _)
    (.cons (rowText_gives (hRight _ _) _ _) .nil))), r, _, _, _, _, hRow, ?_, rfl, ?_, ?_⟩
  · split
    · exact Or.inl rfl
    · exact Or.inr rfl
  · exact textOfAll_labelled a.name a.flagNote
  · exact textOfAll_labelled a.target.label a.valueNote

/-- The rows are numbered among all attributes, those without a row included. -/
theorem rows_gives (s : Scene α) (t : Table) :
    ∃ xs, List.Forall₂ Gives (rows s t) xs ∧ List.Forall₂ (IsRow s t.name)
      (t.attributes.filter fun a => (s.rowRect t.name a.name).isSome) xs := by
  have hSkip : ∀ entry ∈ t.attributes.zipIdx, (s.rowRect t.name entry.1.name).isSome = false →
      (s.rowRect t.name entry.1.name).map (row s.metrics t.name entry.1 entry.2) = none := by
    intro entry _ hNone
    rw [Option.map_eq_none_iff]
    simpa using hNone
  have hDraw : ∀ entry ∈ t.attributes.zipIdx, (s.rowRect t.name entry.1.name).isSome →
      ∃ n x, (s.rowRect t.name entry.1.name).map (row s.metrics t.name entry.1 entry.2) = some n ∧
        Gives n x ∧ IsRow s t.name entry.1 x := by
    intro entry _ hSome
    obtain ⟨r, hRow⟩ := Option.isSome_iff_exists.1 hSome
    obtain ⟨x, hGives, hIsRow⟩ := row_gives hRow entry.2
    exact ⟨_, x, by rw [hRow, Option.map_some], hGives, hIsRow⟩
  obtain ⟨xs, hGives, hRows⟩ := filterMap_gives hSkip hDraw
  refine ⟨xs, hGives, ?_⟩
  have hMap : t.attributes.filter (fun a => (s.rowRect t.name a.name).isSome) =
      (t.attributes.zipIdx.filter fun entry => (s.rowRect t.name entry.1.name).isSome).map
        Prod.fst := by
    have hFilter := List.filter_map (l := t.attributes.zipIdx) (f := Prod.fst)
      (p := fun a : Attribute => (s.rowRect t.name a.name).isSome)
    rw [List.zipIdx_map_fst] at hFilter
    exact hFilter
  rw [hMap, List.forall₂_map_left_iff]
  exact hRows

theorem table_gives {s : Scene α} {t : Table} (h : (s.tableRect t.name).isSome) :
    ∃ n x, table? s t = some n ∧ Gives n x ∧ IsTable s t x := by
  obtain ⟨box, hBox⟩ := Option.isSome_iff_exists.1 h
  have hHeader : s.headerRect t.name = some { box with height := s.metrics.rowHeight } := by
    rw [Scene.headerRect, hBox, Option.map_some]
  obtain ⟨xs, hRows, hAre⟩ := rows_gives s t
  have hGroup : IsTag "g" ["id"] := by decide
  have hRect : IsTag "rect" ["x", "y", "width", "height", "rx", "fill", "stroke"] := by decide
  have hText (x y : α) : IsTag "text" ((("class", "table-name") :: placedAt x y).map Prod.fst) := by
    change IsTag "text" ["class", "x", "y"]
    decide
  have hDrawn : table? s t = some (block "g" [("id", tableId t.name)]
      (.empty "rect" (placed box ++ [("rx", "6"), ("fill", "#1e293b"), ("stroke", "#0f172a")]) ::
        .element "text" (("class", "table-name") :: placedAt (box.x + s.metrics.paddingX)
          (box.y + baseline s.metrics)) [.text t.name] :: rows s t)) := by
    simp only [table?, hBox, hHeader]
    rfl
  exact ⟨_, _, hDrawn, block_gives hGroup (.cons (empty_gives hRect)
    (.cons (text_gives (hText _ _) t.name) hRows)), box, _, _, xs, hBox, rfl, hAre⟩

omit [Coordinate α] in
theorem lines_give (d : Diagram α) : ∃ xs, List.Forall₂ Gives (d.connectors.map polyline) xs ∧
    List.Forall₂ IsLine d.connectors xs :=
  forall₂_map_gives fun c _ => polyline_gives c

theorem tables_give (d : Diagram α) (s : Scene α) :
    ∃ xs, List.Forall₂ Gives (d.tables.filterMap (table? s)) xs ∧
      List.Forall₂ (IsTable s) (d.tables.filter fun t => (s.tableRect t.name).isSome) xs := by
  refine filterMap_gives (fun t _ hSkip => ?_) fun t _ hSome => table_gives hSome
  have hNone : s.tableRect t.name = none := by simpa using hSkip
  simp only [table?, hNone]
  rfl

omit [Coordinate α] in
theorem markers_give (d : Diagram α) :
    ∃ xs, List.Forall₂ Gives (d.connectors.flatMap fun c =>
        [markerRect c.sourceMarker, markerRect c.targetMarker]) xs ∧
      List.Forall₂ IsMarker
        (d.connectors.flatMap fun c => [c.sourceMarker, c.targetMarker]) xs := by
  obtain ⟨xs, hGives, hMarkers⟩ := forall₂_map_gives (fun m (_ : m ∈ d.connectors.flatMap
    fun c => [c.sourceMarker, c.targetMarker]) => markerRect_gives m)
  rw [List.map_flatMap] at hGives
  exact ⟨xs, hGives, hMarkers⟩

theorem style_gives : ∃ rules, Gives style (.element "style" [] rules) := by
  have hTag : IsTag "style" (([] : List (String × String)).map Prod.fst) := by decide
  exact ⟨_, text_gives hTag _⟩

theorem definitions_gives : ∃ pattern, Gives definitions (.element "defs" [] pattern) := by
  have hDefs : IsTag "defs" [] := by decide
  have hPattern : IsTag "pattern" ["id", "x", "y", "width", "height", "patternUnits"] := by decide
  have hRect : IsTag "rect" ["x", "y", "width", "height", "fill", "stroke"] := by decide
  exact ⟨_, ⟨hDefs, trivial, ⟨hPattern, trivial, hRect, trivial, trivial⟩, trivial, trivial⟩, rfl⟩

theorem document_gives {rules pattern : List Content}
    (hStyle : Gives style (.element "style" [] rules))
    (hDefinitions : Gives definitions (.element "defs" [] pattern)) (d : Diagram α) (s : Scene α) :
    ∃ tree, Gives (document d s) tree ∧ IsDrawing rules pattern d s tree := by
  obtain ⟨lines, hLines, hAreLines⟩ := lines_give d
  obtain ⟨tables, hTables, hAreTables⟩ := tables_give d s
  obtain ⟨markers, hMarkers, hAreMarkers⟩ := markers_give d
  have hRoot : IsTag "svg" ["xmlns", "width", "height", "viewBox"] := by decide
  have hRect : IsTag "rect" ["x", "y", "width", "height", "fill"] := by decide
  have hLineGroup : IsTag "g" ["class", "stroke-linejoin", "stroke-width", "fill"] := by decide
  have hMarkerGroup : IsTag "g" ["class", "stroke"] := by decide
  refine ⟨_, block_gives hRoot (List.rel_append (List.rel_append (.cons hStyle
    (.cons hDefinitions (.cons (empty_gives hRect) (.cons (empty_gives hRect)
      (.cons (block_gives hLineGroup hLines) .nil))))) hTables)
        (.cons (block_gives hMarkerGroup hMarkers) .nil)), viewBox d s, lines, tables, markers, rfl,
          hAreLines, hAreTables, hAreMarkers⟩

end ErDiagram.Drawing

namespace ErDiagram

open Drawing Markup

variable {α : Type} [Coordinate α] [Written α]

/-- Any drawing is read as the expected tree, whatever the texts of its tables, colors and
connectors are. The contents of its first two elements are the same in all drawings. -/
theorem readDocument_render :
    ∃ rules pattern, ∀ (d : Diagram α) (s : Scene α),
      ∃ tree, readDocument (render d s) = some tree ∧ IsDrawing rules pattern d s tree := by
  obtain ⟨rules, hStyle⟩ := style_gives
  obtain ⟨pattern, hDefinitions⟩ := definitions_gives
  refine ⟨rules, pattern, fun d s => ?_⟩
  obtain ⟨tree, hGives, hDrawing⟩ := document_gives hStyle hDefinitions d s
  refine ⟨tree, ?_, hDrawing⟩
  obtain ⟨_, _, _, _, rfl, _⟩ := hDrawing
  exact readDocument_write hGives.plain hGives.contents

end ErDiagram
