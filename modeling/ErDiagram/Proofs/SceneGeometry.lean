import ErDiagram.Proofs.AcceptedNames
import ErDiagram.Scene

/-! Where the tables and rows of a schema are on its scene. A name without a dot can be cut off an
id again, and what a scene has measured stays when its boxes move. -/
namespace ErDiagram

variable {α : Type}

theorem NameMap.mapValues_mapValues {β γ δ : Type} (f : String → β → γ) (g : String → γ → δ)
    (m : NameMap β) :
    (m.mapValues f).mapValues g = m.mapValues fun name b => g name (f name b) := by
  simp [NameMap.mapValues, Function.comp_def]

/-! ### Ids -/

/-- What can be found on a scene: the box of a table, or a row of it. -/
inductive Element where
  | table (name : String)
  | row (owner attr : String)
deriving DecidableEq, Repr

namespace Element

/-- The table that the element belongs to. -/
def tableName : Element → String
  | table name => name
  | row owner _ => owner

def id : Element → String
  | table name => tableId name
  | row owner attr => attributeId owner attr

/-- The element with the given id, cut at the first dot behind the word that begins every id. -/
def ofId? (id : String) : Option Element :=
  match "table.".toList.isPrefixOf? id.toList with
  | none => none
  | some rest =>
    match Text.splitFirst '.' rest with
    | some (owner, attr) => some (.row (String.ofList owner) (String.ofList attr))
    | none => some (.table (String.ofList rest))

/-- The name of a table has no dot, so the first dot is the one behind it. -/
theorem ofId?_id (e : Element) (hDot : '.' ∉ e.tableName.toList) : ofId? e.id = some e := by
  cases e with
  | table name =>
      have hId : "table.".toList.isPrefixOf? (tableId name).toList = some name.toList :=
        List.isPrefixOf?_eq_some_iff_append_eq.2 (by simp [tableId])
      have hSplit : Text.splitFirst '.' name.toList = none := Text.splitFirst_eq_none_iff.2 hDot
      simp only [ofId?, id, hId, hSplit, String.ofList_toList]
  | row owner attr =>
      have hId : "table.".toList.isPrefixOf? (attributeId owner attr).toList =
          some (owner.toList ++ '.' :: attr.toList) :=
        List.isPrefixOf?_eq_some_iff_append_eq.2 (by simp [attributeId])
      have hSplit : Text.splitFirst '.' (owner.toList ++ '.' :: attr.toList) =
          some (owner.toList, attr.toList) := Text.splitFirst_eq_some_iff.2 ⟨rfl, hDot⟩
      simp only [ofId?, id, hId, hSplit, String.ofList_toList]

/-- A text that is read as an element is the id of that element. -/
theorem id_of_ofId? {text : String} {e : Element} (h : ofId? text = some e) : e.id = text := by
  unfold ofId? at h
  split at h
  · cases h
  · rename_i rest hRest
    have hText := List.isPrefixOf?_eq_some_iff_append_eq.1 hRest
    apply String.toList_injective
    rw [← hText]
    split at h
    · rename_i hSplit
      cases h
      simp [id, attributeId, (Text.splitFirst_eq_some_iff.1 hSplit).1]
    · cases h
      simp [id, tableId]

end Element

namespace Scene

/-! ### Boxes at new places -/

theorem get?_sync (s : Scene α) (corners : NameMap (Point α)) (name : String) :
    (s.sync corners).boxes.get? name = (s.boxes.get? name).map fun box =>
      { box with corner := (corners.get? name).getD box.corner } :=
  NameMap.get?_mapValues _ _ _

/-- Where boxes were brought before does not count if they are all brought to new places. -/
theorem sync_sync_of_subset (s : Scene α) {earlier later : NameMap (Point α)}
    (h : earlier.keys ⊆ later.keys) : (s.sync earlier).sync later = s.sync later := by
  simp only [sync, NameMap.mapValues_mapValues]
  congr 2
  funext name box
  cases hLater : later.get? name with
  | some p => rfl
  | none =>
      have hEarlier : earlier.get? name = none :=
        NameMap.get?_eq_none_iff.2 fun hMem => NameMap.get?_eq_none_iff.1 hLater (h hMem)
      rw [hEarlier]
      rfl

/-- Boxes that are brought to their places stay there. -/
theorem sync_sync (s : Scene α) (corners : NameMap (Point α)) :
    (s.sync corners).sync corners = s.sync corners :=
  s.sync_sync_of_subset (List.Subset.refl _)

variable [Coordinate α]

/-! ### Rectangles by id -/

/-- The rectangle of an element. -/
def elementRect (s : Scene α) : Element → Option (Rect α)
  | .table name => s.tableRect name
  | .row owner attr => s.rowRect owner attr

/-- The scene finds an element by reading its id. -/
theorem rectOf_eq (s : Scene α) (id : String) :
    s.rectOf id = (Element.ofId? id).bind s.elementRect := by
  unfold rectOf Element.ofId?
  cases "table.".toList.isPrefixOf? id.toList with
  | none => rfl
  | some rest => cases hSplit : Text.splitFirst '.' rest <;> simp only [hSplit] <;> rfl

theorem rectOf_id (s : Scene α) {e : Element} (hDot : '.' ∉ e.tableName.toList) :
    s.rectOf e.id = s.elementRect e := by
  rw [rectOf_eq, e.ofId?_id hDot, Option.bind_some]

theorem rectOf_tableId (s : Scene α) {table : String} (hDot : '.' ∉ table.toList) :
    s.rectOf (tableId table) = s.tableRect table :=
  s.rectOf_id (e := .table table) hDot

theorem rectOf_attributeId (s : Scene α) {table : String} (hDot : '.' ∉ table.toList)
    (attr : String) : s.rectOf (attributeId table attr) = s.rowRect table attr :=
  s.rectOf_id (e := .row table attr) hDot

/-! ### Measured boxes -/

/-- The scene has one box for each of the tables and no others. Their sizes and rows are the
measured ones; their corners may be anywhere. -/
structure Measures (s : Scene α) (m : TextMetrics α) (ds : List Table) : Prop where
  metrics : s.metrics = m
  keys : s.boxes.keys = ds.map Table.name
  boxes : ∀ t ∈ ds, ∃ corner, s.boxes.get? t.name =
    some ⟨corner, m.tableWidth t, m.tableHeight t, t.attributes.map Attribute.name⟩

theorem entries_ofTables (m : TextMetrics α) {ds : List Table}
    (hNodup : (ds.map Table.name).Nodup) :
    (ofTables m ds).boxes.entries = ds.map fun t => (t.name, m.box t) := by
  apply NameMap.entries_ofList
  simpa [Function.comp_def] using hNodup

theorem get?_ofTables (m : TextMetrics α) {ds : List Table} (hNodup : (ds.map Table.name).Nodup)
    {t : Table} (ht : t ∈ ds) : (ofTables m ds).boxes.get? t.name = some (m.box t) := by
  rw [NameMap.get?_eq_some_iff, entries_ofTables m hNodup]
  exact List.mem_map_of_mem ht

theorem ofTables_measures (m : TextMetrics α) {ds : List Table}
    (hNodup : (ds.map Table.name).Nodup) : (ofTables m ds).Measures m ds where
  metrics := rfl
  keys := by simp [NameMap.keys, entries_ofTables m hNodup, Function.comp_def]
  boxes _ ht := ⟨.origin, get?_ofTables m hNodup ht⟩

theorem Measures.sync {s : Scene α} {m : TextMetrics α} {ds : List Table}
    (h : s.Measures m ds) (corners : NameMap (Point α)) : (s.sync corners).Measures m ds := by
  refine ⟨h.metrics, ?_, fun t ht => ?_⟩
  · rw [← h.keys]
    exact NameMap.keys_mapValues _ _
  · obtain ⟨corner, hBox⟩ := h.boxes t ht
    exact ⟨(corners.get? t.name).getD corner, by rw [get?_sync, hBox]; rfl⟩

theorem Measures.tableRect_eq_none {s : Scene α} {m : TextMetrics α} {ds : List Table}
    (h : s.Measures m ds) {name : String} (hName : ∀ t ∈ ds, t.name ≠ name) :
    s.tableRect name = none := by
  have hKey : name ∉ s.boxes.keys := by
    rw [h.keys]
    simpa using hName
  rw [tableRect, NameMap.get?_eq_none_iff.2 hKey, Option.map_none]

theorem Measures.tableRect_isSome {s : Scene α} {m : TextMetrics α} {ds : List Table}
    (h : s.Measures m ds) {t : Table} (ht : t ∈ ds) : (s.tableRect t.name).isSome := by
  obtain ⟨corner, hBox⟩ := h.boxes t ht
  rw [tableRect, hBox]
  rfl

/-- A table has a row for each of its attributes and no others. -/
theorem Measures.rowRect_isSome_iff {s : Scene α} {m : TextMetrics α} {ds : List Table}
    (h : s.Measures m ds) {t : Table} (ht : t ∈ ds) {row : String} :
    (s.rowRect t.name row).isSome ↔ ∃ a ∈ t.attributes, a.name = row := by
  obtain ⟨corner, hBox⟩ := h.boxes t ht
  rw [← List.mem_map, ← List.isSome_idxOf?, rowRect, hBox]
  cases hIndex : (t.attributes.map Attribute.name).idxOf? row <;> simp [hIndex]

end Scene

end ErDiagram
