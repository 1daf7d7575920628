import ErDiagram.Proofs.ColumnOrder

/-! Which tables keep their places. A pull moves nothing but the pulled table, so tables that are
never pulled towards another one stay in their order; and a pull that moves a table at all leaves it
left of one that was declared before it, which no later pull undoes. -/
namespace ErDiagram

/-! ### Tables that stay -/

/-- All names but that of the pulled table keep their order. -/
theorem filter_pullLeft {p : String → Bool} {name : String} (hName : p name = false)
    (order : List String) (target : String) :
    (pullLeft order name target).filter p = order.filter p := by
  have hDrop (names : List String) : (name :: names).filter p = names.filter p :=
    List.filter_cons_of_neg (by simp [hName])
  by_cases hMem : name ∈ order
  · obtain ⟨before, between, after, hOrder, hPull, -, -⟩ := pullLeft_spec hMem target
    rw [hPull, hOrder]
    simp only [List.filter_append, hDrop, List.append_assoc]
  · rw [pullLeft, List.idxOf?_eq_none_iff.2 hMem]

theorem filter_pullTable {p : String → Bool} {t : Table}
    (h : p t.name = true → t.RefersToItselfOnly) (order : List String) :
    (pullTable order t).filter p = order.filter p := by
  cases hName : p t.name with
  | true => rw [pullTable_of_itself (h hName)]
  | false =>
      rw [pullTable]
      induction t.references generalizing order with
      | nil => rfl
      | cons r references ih => rw [List.foldl_cons, ih, filter_pullLeft hName]

theorem filter_foldl_pullTable {p : String → Bool} {ts : List Table}
    (h : ∀ t ∈ ts, p t.name = true → t.RefersToItselfOnly) (order : List String) :
    (ts.foldl pullTable order).filter p = order.filter p := by
  induction ts generalizing order with
  | nil => rfl
  | cons t ts ih =>
      obtain ⟨hHere, hLater⟩ := List.forall_mem_cons.1 h
      rw [List.foldl_cons, ih hLater, filter_pullTable hHere]

instance (t : Table) : Decidable t.RefersToItselfOnly :=
  inferInstanceAs (Decidable (∀ r ∈ t.references, r.targetTable = t.name))

/-- The names of the tables that refer to no other one, in the order of declaration. -/
def stillNames (tables : List Table) : List String :=
  (tables.filter fun t => t.RefersToItselfOnly).map Table.name

theorem filter_stillNames {tables : List Table} (hNodup : (tables.map Table.name).Nodup) :
    (columnOrder tables).filter (· ∈ stillNames tables) = stillNames tables := by
  have hStill {t : Table} (ht : t ∈ tables) :
      t.name ∈ stillNames tables ↔ t.RefersToItselfOnly := by
    simp only [stillNames, List.mem_map, List.mem_filter, decide_eq_true_eq]
    constructor
    · rintro ⟨u, ⟨hu, hSelf⟩, hName⟩
      exact eq_of_name hNodup hu ht hName ▸ hSelf
    · exact fun hSelf => ⟨t, ⟨ht, hSelf⟩, rfl⟩
  rw [columnOrder_eq, orderAfter, filter_foldl_pullTable, List.filter_map]
  · refine congrArg (List.map Table.name) (List.filter_congr fun t ht => ?_)
    simp [hStill ht]
  · intro t ht hMem
    exact (hStill ht).1 (by simpa using hMem)

/-! ### Orders that stay -/

/-- Of two tables that stand once in an order, only one stands left of the other. -/
theorem StandsLeft.asymm {order : List String} (hNodup : order.Nodup) {a b : String}
    (h : StandsLeft order a b) : ¬ StandsLeft order b a := by
  intro hBack
  obtain ⟨before, after, rfl, hb⟩ := pair_sublist_iff.1 h
  obtain ⟨between, behind, rfl⟩ := List.append_of_mem hb
  obtain ⟨first, last, hSame, ha⟩ := pair_sublist_iff.1 hBack
  rw [← List.cons_append, ← List.append_assoc] at hSame hNodup
  have hUnique := List.nodup_cons.1 (List.nodup_middle.1 hNodup)
  rw [List.mem_append, not_or] at hUnique
  obtain ⟨-, -, rfl⟩ := (List.append_cons_inj_of_notMem hUnique.1.1 hUnique.1.2).1 hSame
  exact (List.nodup_append.1 hUnique.2).2.2 a (by simp) a ha rfl

/-- A table is moved only if its target stands left of it or is not there at all. -/
theorem pullLeft_of_not_standsLeft {order : List String} {name target : String}
    (hTarget : target ∈ order) (h : ¬ StandsLeft order target name) :
    pullLeft order name target = order := by
  cases hHere : order.idxOf? name with
  | none => rw [pullLeft, hHere]
  | some here =>
      obtain ⟨there, hThere⟩ := Option.isSome_iff_exists.1 (List.isSome_idxOf?.2 hTarget)
      obtain ⟨ahead, after, rfl, rfl⟩ := cut_at hHere
      simp only [pullLeft, hHere, hThere]
      refine if_neg fun hLess => h ?_
      obtain ⟨hBound, hFound, -⟩ := List.idxOf?_eq_some_iff.1 hThere
      rw [List.getElem_append_left hLess] at hFound
      have hAhead : target ∈ ahead := hFound ▸ List.getElem_mem hLess
      obtain ⟨first, last, rfl⟩ := List.append_of_mem hAhead
      exact pair_sublist_iff.2 ⟨first, last ++ name :: after, by simp, by simp⟩

/-- The first table is not moved by a pull towards one that is not declared. -/
theorem pullLeft_of_head {order : List String} {name target : String}
    (hHead : order.head? = some name)
    (hTarget : target ∉ order) : pullLeft order name target = order := by
  obtain ⟨behind, rfl⟩ := List.head?_eq_some_iff.1 hHead
  simp [pullLeft, List.idxOf?_cons, List.idxOf?_eq_none_iff.2 hTarget]

/-- A reference that does not ask for another place of its table: it leads to the table itself or to
one that is declared later, or its table is the first one and its target is not declared. -/
def Reference.Suits (tables : List Table) (s : Table) (r : Reference) : Prop :=
  r.targetTable = s.name ∨ (∃ t, DeclaredBefore tables s t ∧ t.name = r.targetTable) ∨
    ((∀ u ∈ tables, u.name ≠ r.targetTable) ∧ tables.head? = some s)

theorem standsLeft_of_declaredBefore {tables : List Table} {s t : Table}
    (h : DeclaredBefore tables s t) : StandsLeft (tables.map Table.name) s.name t.name :=
  List.Sublist.map Table.name h

theorem pullLeft_of_suits {tables : List Table} (hNodup : (tables.map Table.name).Nodup) {s : Table}
    {r : Reference} (h : r.Suits tables s) :
    pullLeft (tables.map Table.name) s.name r.targetTable = tables.map Table.name := by
  rcases h with hSelf | ⟨t, hLater, hName⟩ | ⟨hAbsent, hHead⟩
  · rw [hSelf, pullLeft_self]
  · rw [← hName]
    have hLeft := standsLeft_of_declaredBefore hLater
    exact pullLeft_of_not_standsLeft (hLeft.subset (by simp)) (hLeft.asymm hNodup)
  · apply pullLeft_of_head
    · rw [List.head?_map, hHead]
      rfl
    · simpa using hAbsent

theorem columnOrder_of_suits {tables : List Table} (hNodup : (tables.map Table.name).Nodup)
    (h : ∀ s ∈ tables, ∀ r ∈ s.references, r.Suits tables s) :
    columnOrder tables = tables.map Table.name := by
  apply List.foldlRecOn (motive := fun order => order = tables.map Table.name) tables _ rfl
  intro order hOrder s hs
  apply List.foldlRecOn (motive := fun order => order = tables.map Table.name) s.references _ hOrder
  intro order hOrder r hr
  rw [hOrder]
  exact pullLeft_of_suits hNodup (h s hs r hr)

/-! ### Orders that change -/

theorem declaredBefore_or {tables : List Table} {s t : Table} (hs : s ∈ tables) (ht : t ∈ tables)
    (hNe : t ≠ s) : DeclaredBefore tables s t ∨ DeclaredBefore tables t s := by
  obtain ⟨before, after, rfl⟩ := List.append_of_mem hs
  rcases List.mem_append.1 ht with hBefore | hAfter
  · exact Or.inr (declaredBefore_append hBefore List.mem_cons_self)
  · refine Or.inl (pair_sublist_iff.2 ⟨before, after, rfl, ?_⟩)
    exact (List.mem_cons.1 hAfter).resolve_left hNe

/-- In an order that is the declared one, a table that was declared earlier is not passed. -/
theorem not_declaredBefore_of_standsLeft {tables : List Table}
    (hNodup : (tables.map Table.name).Nodup) (hSame : columnOrder tables = tables.map Table.name)
    {s t : Table} (h : StandsLeft (columnOrder tables) s.name t.name) :
    ¬ DeclaredBefore tables t s := by
  intro hEarlier
  rw [hSame] at h
  exact h.asymm hNodup (standsLeft_of_declaredBefore hEarlier)

theorem suits_of_columnOrder {tables : List Table} (hNodup : (tables.map Table.name).Nodup)
    (hSame : columnOrder tables = tables.map Table.name) {s : Table} (hs : s ∈ tables)
    {r : Reference} (hr : r ∈ s.references) : r.Suits tables s := by
  by_cases hDeclared : ∃ t ∈ tables, t.name = r.targetTable
  · obtain ⟨t, ht, hName⟩ := hDeclared
    by_cases hNe : t = s
    · exact Or.inl (hNe ▸ hName.symm)
    · rcases declaredBefore_or hs ht hNe with hLater | hEarlier
      · exact Or.inr (Or.inl ⟨t, hLater, hName⟩)
      · have hLeft := columnOrder_reference hNodup hs ht hNe ⟨r, hr, hName.symm⟩ (Or.inl hEarlier)
        exact absurd hEarlier (not_declaredBefore_of_standsLeft hNodup hSame hLeft)
  · have hAbsent : ∀ u ∈ tables, u.name ≠ r.targetTable := fun u hu hName =>
      hDeclared ⟨u, hu, hName⟩
    refine Or.inr (Or.inr ⟨hAbsent, ?_⟩)
    obtain ⟨before, after, hTables⟩ := List.append_of_mem hs
    cases before with
    | nil => rw [hTables]; rfl
    | cons t before =>
        have hEarlier : DeclaredBefore tables t s := by
          rw [hTables]
          exact declaredBefore_append List.mem_cons_self List.mem_cons_self
        have hLeft := columnOrder_undeclared hNodup
          ⟨r, hr, fun u hu => (hAbsent u hu).symm⟩ hEarlier
        exact absurd hEarlier (not_declaredBefore_of_standsLeft hNodup hSame hLeft)

/-- Tables that refer to no other one keep their order among each other. All tables keep it exactly
if each reference leads to its own table or to one that is declared later, or leads nowhere and its
table is the first one. -/
theorem columnOrder_stable (tables : List Table) (hNodup : (tables.map Table.name).Nodup) :
    (columnOrder tables).filter (· ∈ stillNames tables) = stillNames tables ∧
      (columnOrder tables = tables.map Table.name ↔
        ∀ s ∈ tables, ∀ r ∈ s.references, r.Suits tables s) :=
  ⟨filter_stillNames hNodup, fun hSame _ hs _ hr => suits_of_columnOrder hNodup hSame hs hr,
    columnOrder_of_suits hNodup⟩

/-- Two tables that refer to no other one, one that refers to a later one, and one that refers to an
earlier one. -/
def passingTables : List Table :=
  [⟨"A", [⟨"id", false, ["PK"], [], .typed "int"⟩]⟩,
    ⟨"B", [⟨"c", false, [], [], .reference "C" "c"⟩]⟩,
    ⟨"C", [⟨"c", false, [], [], .reference "C" "c"⟩]⟩,
    ⟨"D", [⟨"b", true, [], [], .reference "B" "c"⟩]⟩]

/-- The last table passes all others, which keep their order. -/
theorem passingTables_stable :
    (passingTables.map Table.name).Nodup ∧ columnOrder passingTables = ["D", "A", "B", "C"] ∧
      (columnOrder passingTables).filter (· ∈ stillNames passingTables) = ["A", "C"] ∧
      ¬ ∀ s ∈ passingTables, ∀ r ∈ s.references, r.Suits passingTables s := by
  have hNodup : (passingTables.map Table.name).Nodup := by decide
  have hOrder : columnOrder passingTables = ["D", "A", "B", "C"] := by decide
  obtain ⟨hStill, hSame⟩ := columnOrder_stable passingTables hNodup
  refine ⟨hNodup, hOrder, hStill, fun hSuits => ?_⟩
  have hDeclared := hSame.2 hSuits
  rw [hOrder] at hDeclared
  exact absurd hDeclared (by decide)

end ErDiagram
