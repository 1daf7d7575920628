import ErDiagram.Proofs.SceneGeometry
import Mathlib.Data.List.Nodup

/-! The ids of all that is drawn of a schema. No two of them are the same, and the scene of the
schema finds each element under its id and nothing under any other text. -/
namespace ErDiagram

/-! ### The elements of a schema -/

/-- A table and its rows from top to bottom. -/
def Table.elements (t : Table) : List Element :=
  .table t.name :: t.attributes.map fun a => .row t.name a.name

/-- All tables in the order of declaration, each with its rows behind it. -/
def elements (ds : List Table) : List Element := ds.flatMap Table.elements

theorem mem_elements_table {ds : List Table} {name : String} :
    .table name ∈ elements ds ↔ ∃ t ∈ ds, t.name = name := by
  simp [elements, Table.elements, eq_comm]

theorem mem_elements_row {ds : List Table} {owner attr : String} :
    .row owner attr ∈ elements ds ↔
      ∃ t ∈ ds, t.name = owner ∧ ∃ a ∈ t.attributes, a.name = attr := by
  simp only [elements, List.mem_flatMap, Table.elements, List.mem_cons, reduceCtorEq, false_or,
    List.mem_map, Element.row.injEq]
  refine exists_congr fun t => and_congr_right fun _ => ?_
  constructor
  · rintro ⟨a, ha, hName, hAttr⟩
    exact ⟨hName, a, ha, hAttr⟩
  · rintro ⟨hName, a, ha, hAttr⟩
    exact ⟨a, ha, hName, hAttr⟩

theorem Table.tableName_of_mem_elements {t : Table} {e : Element} (h : e ∈ t.elements) :
    e.tableName = t.name := by
  rcases List.mem_cons.1 h with rfl | hRow
  · rfl
  · obtain ⟨a, -, rfl⟩ := List.mem_map.1 hRow
    rfl

theorem Table.elements_nodup {t : Table} (h : (t.attributes.map Attribute.name).Nodup) :
    t.elements.Nodup := by
  refine List.nodup_cons.2 ⟨by simp, ?_⟩
  have hRows := h.map (f := Element.row t.name) fun a b hSame => (Element.row.inj hSame).2
  rwa [List.map_map] at hRows

theorem elements_nodup {ds : List Table} (h : WellNamed ds) : (elements ds).Nodup := by
  refine List.nodup_flatMap.2 ⟨fun t ht => Table.elements_nodup (h.tables t ht).nodup, ?_⟩
  refine (List.pairwise_map.1 h.nodup).imp fun {t u} hNe e ht hu => hNe ?_
  rw [← Table.tableName_of_mem_elements ht, ← Table.tableName_of_mem_elements hu]

theorem dot_not_mem_tableName {ds : List Table} (h : WellNamed ds) {e : Element}
    (he : e ∈ elements ds) : '.' ∉ e.tableName.toList := by
  obtain ⟨t, ht, hMem⟩ := List.mem_flatMap.1 he
  rw [Table.tableName_of_mem_elements hMem]
  exact (h.tables t ht).name.dot_not_mem

/-- An id is read as the one element it belongs to, so different elements have different ids. -/
theorem ids_nodup {ds : List Table} (h : WellNamed ds) : ((elements ds).map Element.id).Nodup := by
  refine List.Nodup.map_on (fun e he f hf hSame => ?_) (elements_nodup h)
  have hRead := e.ofId?_id (dot_not_mem_tableName h he)
  rw [hSame, f.ofId?_id (dot_not_mem_tableName h hf)] at hRead
  exact (Option.some.inj hRead).symm

/-! ### The elements on a scene -/

/-- In a list without repetitions each entry is found where it stands. -/
theorem idxOf?_of_getElem? {names : List String} (hNodup : names.Nodup) {index : Nat}
    {name : String} (h : names[index]? = some name) : names.idxOf? name = some index := by
  obtain ⟨hBound, rfl⟩ := List.getElem?_eq_some_iff.1 h
  refine List.idxOf?_eq_some_iff.2 ⟨hBound, rfl, fun earlier hEarlier hSame => ?_⟩
  exact absurd ((List.getElem_inj hNodup).1 hSame) (Nat.ne_of_lt hEarlier)

variable {α : Type}

namespace Scene

/-- Where the box of a table is after its scene has been brought to new places again and again. -/
def cornerAfter (syncs : List (NameMap (Point α))) (corner : Point α) (table : String) : Point α :=
  syncs.foldl (fun corner corners => (corners.get? table).getD corner) corner

theorem get?_foldl_sync (s : Scene α) (syncs : List (NameMap (Point α))) (name : String) :
    (syncs.foldl sync s).boxes.get? name = (s.boxes.get? name).map fun box =>
      { box with corner := cornerAfter syncs box.corner name } := by
  induction syncs generalizing s with
  | nil => cases h : s.boxes.get? name <;> simp [cornerAfter, h]
  | cons corners syncs ih =>
      rw [List.foldl_cons, ih, get?_sync, Option.map_map]
      rfl

theorem Measures.foldl_sync [Coordinate α] {s : Scene α} {m : TextMetrics α} {ds : List Table}
    (h : s.Measures m ds) (syncs : List (NameMap (Point α))) :
    (syncs.foldl Scene.sync s).Measures m ds := by
  induction syncs generalizing s with
  | nil => exact h
  | cons corners syncs ih => exact ih (h.sync corners)

variable [Coordinate α]

/-- An element that is not of the schema has no rectangle. -/
theorem Measures.elementRect_eq_none {s : Scene α} {m : TextMetrics α} {ds : List Table}
    (h : s.Measures m ds) {e : Element} (he : e ∉ elements ds) : s.elementRect e = none := by
  cases e with
  | table name =>
      refine h.tableRect_eq_none fun t ht hName => he ?_
      exact mem_elements_table.2 ⟨t, ht, hName⟩
  | row owner attr =>
      rw [mem_elements_row] at he
      by_cases hOwner : ∃ t ∈ ds, t.name = owner
      · obtain ⟨t, ht, rfl⟩ := hOwner
        refine Option.not_isSome_iff_eq_none.1 fun hRow => he ?_
        exact ⟨t, ht, rfl, (h.rowRect_isSome_iff ht).1 hRow⟩
      · have hBox := h.tableRect_eq_none fun t ht hName => hOwner ⟨t, ht, hName⟩
        rw [tableRect, Option.map_eq_none_iff] at hBox
        simp [elementRect, rowRect, hBox]

theorem Measures.rectOf_eq_none {s : Scene α} {m : TextMetrics α} {ds : List Table}
    (h : s.Measures m ds) {id : String} (hId : id ∉ (elements ds).map Element.id) :
    s.rectOf id = none := by
  rw [s.rectOf_eq]
  cases hElement : Element.ofId? id with
  | none => rfl
  | some e =>
      refine h.elementRect_eq_none fun he => hId ?_
      exact List.mem_map.2 ⟨e, he, Element.id_of_ofId? hElement⟩

theorem rowRect_of_getElem? {s : Scene α} {t : Table} {corner : Point α} {width height : α}
    (hBox : s.boxes.get? t.name = some ⟨corner, width, height, t.attributes.map Attribute.name⟩)
    (hNodup : (t.attributes.map Attribute.name).Nodup) {index : Nat} {a : Attribute}
    (ha : t.attributes[index]? = some a) :
    s.rowRect t.name a.name = some ⟨corner.x,
      corner.y + s.metrics.rowHeight * ((index + 1 : Nat) : α), width, s.metrics.rowHeight⟩ := by
  have hIndex : (t.attributes.map Attribute.name).idxOf? a.name = some index :=
    idxOf?_of_getElem? hNodup (by rw [List.getElem?_map, ha]; rfl)
  rw [rowRect, hBox]
  simp [hIndex]

end Scene

variable [Coordinate α]

/-- The ids of all tables and rows of an accepted source are distinct. On the scene of its tables,
wherever their boxes are, the id of a table has the box of that table, the id of an attribute has
its row, and no other text has a rectangle. -/
theorem elements_found_by_id {text : String} {ds : List Table} (hParse : parse text = .ok ds) :
    ((elements ds).map Element.id).Nodup ∧
    ∀ (m : TextMetrics α) (syncs : List (NameMap (Point α))),
      let s := syncs.foldl Scene.sync (Scene.ofTables m ds)
      (∀ t ∈ ds,
        let corner := Scene.cornerAfter syncs .origin t.name
        s.rectOf (tableId t.name) =
          some ⟨corner.x, corner.y, m.tableWidth t, m.tableHeight t⟩ ∧
        ∀ index a, t.attributes[index]? = some a → s.rectOf (attributeId t.name a.name) =
          some ⟨corner.x, corner.y + m.rowHeight * ((index + 1 : Nat) : α), m.tableWidth t,
            m.rowHeight⟩) ∧
      ∀ id, id ∉ (elements ds).map Element.id → s.rectOf id = none := by
  have hNamed := wellNamed_of_parse hParse
  refine ⟨ids_nodup hNamed, fun m syncs => ?_⟩
  intro s
  have hMeasures : s.Measures m ds := (Scene.ofTables_measures m hNamed.nodup).foldl_sync syncs
  refine ⟨fun t ht => ?_, fun id hId => hMeasures.rectOf_eq_none hId⟩
  intro corner
  have hTable := hNamed.tables t ht
  have hDot := hTable.name.dot_not_mem
  have hBox : s.boxes.get? t.name = some ⟨corner, m.tableWidth t, m.tableHeight t,
      t.attributes.map Attribute.name⟩ := by
    rw [Scene.get?_foldl_sync, Scene.get?_ofTables m hNamed.nodup ht]
    rfl
  refine ⟨?_, fun index a ha => ?_⟩
  · rw [s.rectOf_tableId hDot, Scene.tableRect, hBox]
    rfl
  · rw [s.rectOf_attributeId hDot, Scene.rowRect_of_getElem? hBox hTable.nodup ha,
      hMeasures.metrics]

/-- A table, two attributes and a target that share two names. -/
def likeNamedSource : String :=
  "table a \x7b\na: int \"k=v\"\nb? -> b.a\n\x7d\ntable b \x7b\na(PK): int\n\x7d\n"

def likeNamedTables : List Table :=
  [⟨"a", [⟨"a", false, [], [⟨"k", "v"⟩], .typed "int"⟩, ⟨"b", true, [], [], .reference "b" "a"⟩]⟩,
    ⟨"b", [⟨"a", false, ["PK"], [], .typed "int"⟩]⟩]

/-- The second table is brought to a new place twice. Its box is at the last one. -/
theorem likeNamedTables_found_by_id :
    let m : TextMetrics Float := .standard
    let syncs := [NameMap.ofList [("a", ⟨1, 2⟩), ("b", ⟨3, 4⟩)], NameMap.ofList [("b", ⟨5, 6⟩)]]
    let s := syncs.foldl Scene.sync (Scene.ofTables m likeNamedTables)
    parse likeNamedSource = .ok likeNamedTables ∧
      ["table.a", "table.a.a", "table.a.b", "table.b", "table.b.a"].Nodup ∧
      s.rectOf "table.a.b" = some ⟨1, 2 + m.rowHeight * ((2 : Nat) : Float),
        m.tableWidth likeNamedTables[0], m.rowHeight⟩ ∧
      s.rectOf "table.b" = some ⟨5, 6, m.tableWidth likeNamedTables[1],
        m.tableHeight likeNamedTables[1]⟩ ∧
      s.rectOf "table.b.b" = none := by
  intro m syncs s
  have hParse : parse likeNamedSource = .ok likeNamedTables := by decide +kernel
  obtain ⟨hIds, hScene⟩ := elements_found_by_id (α := Float) hParse
  obtain ⟨hElements, hOthers⟩ := hScene m syncs
  refine ⟨hParse, hIds, ?_, ?_, ?_⟩
  · exact (hElements likeNamedTables[0] (by decide)).2 1 _ rfl
  · exact (hElements likeNamedTables[1] (by decide)).1
  · exact hOthers "table.b.b" (by decide)

end ErDiagram
