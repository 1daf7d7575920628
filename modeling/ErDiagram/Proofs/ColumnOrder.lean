import ErDiagram.Columns
import Mathlib.Data.List.Nodup
import Mathlib.Data.List.Perm.Basic

/-! Which tables stand left of which. Only the pulled table moves, and only to the left, so what a
table's own references have brought about lasts until the other table is pulled itself. -/
namespace ErDiagram

/-- The first table stands somewhere left of the second one. -/
def StandsLeft (order : List String) (a b : String) : Prop := [a, b].Sublist order

instance (order : List String) (a b : String) : Decidable (StandsLeft order a b) :=
  inferInstanceAs (Decidable ([a, b].Sublist order))

theorem pair_sublist_iff {α : Type} {as : List α} {a b : α} :
    [a, b].Sublist as ↔ ∃ before after, as = before ++ a :: after ∧ b ∈ after := by
  rw [List.cons_sublist_iff]
  constructor
  · rintro ⟨first, second, rfl, ha, hb⟩
    obtain ⟨before, behind, rfl⟩ := List.append_of_mem ha
    refine ⟨before, behind ++ second, by simp, ?_⟩
    exact List.mem_append_right _ (List.singleton_sublist.1 hb)
  · rintro ⟨before, after, rfl, hb⟩
    exact ⟨before ++ [a], after, by simp, by simp, List.singleton_sublist.2 hb⟩

/-! ### One pull -/

/-- What lies between two places of an order, the first of them taken out. -/
theorem cut_at {order : List String} {name : String} {here : Nat}
    (h : order.idxOf? name = some here) :
    ∃ ahead after, order = ahead ++ name :: after ∧ ahead.length = here := by
  obtain ⟨hLength, hName, -⟩ := List.idxOf?_eq_some_iff.1 h
  refine ⟨order.take here, order.drop (here + 1), ?_, List.length_take_of_le (Nat.le_of_lt hLength)⟩
  rw [← hName, ← List.drop_eq_getElem_cons hLength, List.take_append_drop]

theorem insertIdx_behind (before after : List String) (name : String) :
    (before ++ after).insertIdx before.length name = before ++ name :: after := by
  induction before with
  | nil => rfl
  | cons b before ih => rw [List.cons_append, List.length_cons, List.insertIdx_succ_cons, ih]; rfl

/-- A table that is taken out is put back further left, behind the first tables of the order. -/
theorem putBack {ahead : List String} (after : List String) (name : String) {place : Nat}
    (hPlace : place ≤ ahead.length) :
    ((ahead ++ name :: after).eraseIdx ahead.length).insertIdx place name =
      ahead.take place ++ name :: (ahead.drop place ++ after) := by
  have hErase : (ahead ++ name :: after).eraseIdx ahead.length = ahead ++ after := by
    rw [List.eraseIdx_append_of_length_le (Nat.le_refl _), Nat.sub_self, List.eraseIdx_cons_zero]
  have hInsert := insertIdx_behind (ahead.take place) (ahead.drop place ++ after) name
  rw [← List.append_assoc, List.take_append_drop, List.length_take_of_le hPlace] at hInsert
  rw [hErase, hInsert]

/-- A pulled table passes some tables that stood left of it. It then stands left of its target, or
of all tables if the target is not in the order. -/
theorem pullLeft_spec {order : List String} {name : String} (hName : name ∈ order)
    (target : String) :
    ∃ before between after, order = before ++ between ++ name :: after ∧
      pullLeft order name target = before ++ name :: (between ++ after) ∧
      (target ∉ order → before = []) ∧
      (target ∈ order → target ≠ name → target ∈ between ++ after) := by
  obtain ⟨here, hHere⟩ := Option.isSome_iff_exists.1 (List.isSome_idxOf?.2 hName)
  obtain ⟨ahead, after, hOrder, hLength⟩ := cut_at hHere
  cases hThere : order.idxOf? target with
  | none =>
      have hAbsent := List.idxOf?_eq_none_iff.1 hThere
      refine ⟨[], ahead, after, hOrder, ?_, fun _ => rfl, fun hPresent => absurd hPresent hAbsent⟩
      have hBack := putBack after name (Nat.zero_le ahead.length)
      rw [← hOrder, hLength] at hBack
      simpa only [pullLeft, hHere, hThere, List.take_zero, List.drop_zero] using hBack
  | some there =>
      have hPresent : target ∈ order := List.isSome_idxOf?.1 (by rw [hThere]; rfl)
      obtain ⟨hBound, hFound, -⟩ := List.idxOf?_eq_some_iff.1 hThere
      have hTarget : (ahead ++ name :: after)[there]? = some target := by
        rw [← hOrder, List.getElem?_eq_getElem hBound, hFound]
      by_cases hLess : there < here
      · have hPlace : there - 1 ≤ ahead.length := by omega
        have hBack := putBack after name hPlace
        rw [← hOrder, hLength] at hBack
        refine ⟨ahead.take (there - 1), ahead.drop (there - 1), after, ?_, ?_,
          fun hAbsent => absurd hPresent hAbsent, fun _ _ => ?_⟩
        · rw [List.take_append_drop, hOrder]
        · simpa only [pullLeft, hHere, hThere, if_pos hLess] using hBack
        · rw [List.getElem?_append_left (by omega)] at hTarget
          apply List.mem_append_left
          apply List.mem_of_getElem? (i := there - (there - 1))
          rw [List.getElem?_drop, ← hTarget]
          congr 1
          omega
      · refine ⟨ahead, [], after, by simpa using hOrder, ?_,
          fun hAbsent => absurd hPresent hAbsent, fun _ hNe => ?_⟩
        · simp only [pullLeft, hHere, hThere, if_neg hLess]
          exact hOrder
        · rw [List.getElem?_append_right (by omega)] at hTarget
          rcases List.mem_cons.1 (List.mem_of_getElem? hTarget) with hSame | hBehind
          · exact absurd hSame hNe
          · exact hBehind

/-- What pulls of one table do to the order: the others keep their places, and the table itself
stays left of all that it stood left of. -/
structure Pulled (name : String) (order later : List String) : Prop where
  perm : later.Perm order
  others : ∀ a b, a ≠ name → b ≠ name → (StandsLeft later a b ↔ StandsLeft order a b)
  left : ∀ b, StandsLeft order name b → StandsLeft later name b

theorem Pulled.refl (name : String) (order : List String) : Pulled name order order :=
  ⟨.refl _, fun _ _ _ _ => Iff.rfl, fun _ h => h⟩

theorem Pulled.trans {name : String} {order middle later : List String}
    (hFirst : Pulled name order middle) (hSecond : Pulled name middle later) :
    Pulled name order later where
  perm := hSecond.perm.trans hFirst.perm
  others a b ha hb := (hSecond.others a b ha hb).trans (hFirst.others a b ha hb)
  left b h := hSecond.left b (hFirst.left b h)

theorem standsLeft_filter {order : List String} {name a b : String} (ha : a ≠ name)
    (hb : b ≠ name) : StandsLeft (order.filter (· ≠ name)) a b ↔ StandsLeft order a b := by
  constructor
  · exact fun h => h.trans List.filter_sublist
  · intro h
    have hFilter := List.Sublist.filter (· ≠ name) h
    rwa [List.filter_eq_self.2 (by simp [ha, hb])] at hFilter

theorem pullLeft_pulled {order : List String} (hNodup : order.Nodup) {name : String}
    (hName : name ∈ order) (target : String) :
    Pulled name order (pullLeft order name target) := by
  obtain ⟨before, between, after, rfl, hPull, -, -⟩ := pullLeft_spec hName target
  have hUnique := List.nodup_cons.1 (List.nodup_middle.1 hNodup)
  rw [List.mem_append, not_or] at hUnique
  rw [hPull]
  refine ⟨?_, fun a b ha hb => ?_, fun b hb => ?_⟩
  · rw [List.append_assoc]
    exact List.Perm.append_left _ List.perm_middle.symm
  · have hSelf (names : List String) :
        (name :: names).filter (· ≠ name) = names.filter (· ≠ name) :=
      List.filter_cons_of_neg (by simp)
    refine (standsLeft_filter ha hb).symm.trans (Iff.trans ?_ (standsLeft_filter ha hb))
    simp only [List.filter_append, hSelf, List.append_assoc]
  · obtain ⟨ahead, behind, hSame, hBehind⟩ := pair_sublist_iff.1 hb
    obtain ⟨-, -, rfl⟩ :=
      (List.append_cons_inj_of_notMem hUnique.1.1 hUnique.1.2).1 hSame
    exact pair_sublist_iff.2 ⟨before, between ++ after, rfl, List.mem_append_right _ hBehind⟩

/-- A pull puts a table left of its target. -/
theorem pullLeft_target {order : List String} {name target : String} (hName : name ∈ order)
    (hTarget : target ∈ order) (hNe : target ≠ name) :
    StandsLeft (pullLeft order name target) name target := by
  obtain ⟨before, between, after, -, hPull, -, hBehind⟩ := pullLeft_spec hName target
  rw [hPull]
  exact pair_sublist_iff.2 ⟨before, between ++ after, rfl, hBehind hTarget hNe⟩

/-- A pull towards a table that is not there puts a table left of all others. -/
theorem pullLeft_undeclared {order : List String} {name target other : String}
    (hName : name ∈ order) (hTarget : target ∉ order) (hOther : other ∈ order)
    (hNe : other ≠ name) : StandsLeft (pullLeft order name target) name other := by
  obtain ⟨before, between, after, rfl, hPull, hFront, -⟩ := pullLeft_spec hName target
  obtain rfl := hFront hTarget
  rw [hPull]
  refine pair_sublist_iff.2 ⟨[], between ++ after, rfl, ?_⟩
  simpa [hNe] using hOther

/-- A pull towards itself leaves a table where it is. -/
theorem pullLeft_self (order : List String) (name : String) : pullLeft order name name = order := by
  unfold pullLeft
  split
  · rfl
  · rename_i hHere
    exact if_neg (Nat.lt_irrefl _)

/-! ### The pulls of one table -/

/-- The order after the table has been pulled once for each of its references. -/
def pullTable (order : List String) (t : Table) : List String :=
  t.references.foldl (fun order r => pullLeft order t.name r.targetTable) order

/-- The order when the first tables have been pulled. -/
def orderAfter (tables done : List Table) : List String :=
  done.foldl pullTable (tables.map Table.name)

theorem columnOrder_eq (tables : List Table) : columnOrder tables = orderAfter tables tables := rfl

theorem pullLeft_perm (order : List String) (name target : String) :
    (pullLeft order name target).Perm order := by
  by_cases hName : name ∈ order
  · obtain ⟨before, between, after, rfl, hPull, -, -⟩ := pullLeft_spec hName target
    rw [hPull, List.append_assoc]
    exact List.Perm.append_left _ List.perm_middle.symm
  · rw [pullLeft, List.idxOf?_eq_none_iff.2 hName]

theorem pullTable_perm (order : List String) (t : Table) : (pullTable order t).Perm order := by
  rw [pullTable]
  induction t.references generalizing order with
  | nil => exact .refl order
  | cons r references ih => exact (ih _).trans (pullLeft_perm order t.name r.targetTable)

theorem orderAfter_perm_names (tables done : List Table) :
    (orderAfter tables done).Perm (tables.map Table.name) := by
  rw [orderAfter]
  generalize tables.map Table.name = order
  induction done generalizing order with
  | nil => exact .refl order
  | cons t done ih => exact (ih _).trans (pullTable_perm order t)

/-- No name is lost or added, also where a name is declared more than once. -/
theorem columnOrder_perm_names (tables : List Table) :
    (columnOrder tables).Perm (tables.map Table.name) :=
  orderAfter_perm_names tables tables

theorem foldl_pullLeft_pulled {order : List String} (hNodup : order.Nodup) {name : String}
    (hName : name ∈ order) (references : List Reference) :
    Pulled name order (references.foldl (fun order r => pullLeft order name r.targetTable)
      order) := by
  induction references generalizing order with
  | nil => exact .refl name order
  | cons r references ih =>
      have hStep := pullLeft_pulled hNodup hName r.targetTable
      exact hStep.trans (ih (hStep.perm.nodup_iff.2 hNodup) (hStep.perm.mem_iff.2 hName))

theorem pullTable_pulled {order : List String} (hNodup : order.Nodup) {t : Table}
    (hName : t.name ∈ order) : Pulled t.name order (pullTable order t) :=
  foldl_pullLeft_pulled hNodup hName t.references

/-- What one of the pulls of a table has brought about on its right still holds after the others. -/
theorem pullTable_keeps {order : List String} (hNodup : order.Nodup) {t : Table}
    (hName : t.name ∈ order) {r : Reference} (hReference : r ∈ t.references) {other : String}
    (hPull : ∀ middle : List String, middle.Perm order →
      StandsLeft (pullLeft middle t.name r.targetTable) t.name other) :
    StandsLeft (pullTable order t) t.name other := by
  obtain ⟨first, last, hSplit⟩ := List.append_of_mem hReference
  rw [pullTable, hSplit, List.foldl_append, List.foldl_cons]
  have hFirst := foldl_pullLeft_pulled hNodup hName first
  have hStep := pullLeft_pulled (hFirst.perm.nodup_iff.2 hNodup) (hFirst.perm.mem_iff.2 hName)
    r.targetTable
  have hUpTo := hFirst.trans hStep
  exact (foldl_pullLeft_pulled (hUpTo.perm.nodup_iff.2 hNodup) (hUpTo.perm.mem_iff.2 hName)
    last).left other (hPull _ hFirst.perm)

theorem pullTable_reference {order : List String} (hNodup : order.Nodup) {t : Table}
    (hName : t.name ∈ order) {r : Reference} (hReference : r ∈ t.references)
    (hTarget : r.targetTable ∈ order) (hNe : r.targetTable ≠ t.name) :
    StandsLeft (pullTable order t) t.name r.targetTable := by
  apply pullTable_keeps hNodup hName hReference
  intro middle hPerm
  exact pullLeft_target (hPerm.mem_iff.2 hName) (hPerm.mem_iff.2 hTarget) hNe

theorem pullTable_undeclared {order : List String} (hNodup : order.Nodup) {t : Table}
    (hName : t.name ∈ order) {r : Reference} (hReference : r ∈ t.references)
    (hTarget : r.targetTable ∉ order) {other : String} (hOther : other ∈ order)
    (hNe : other ≠ t.name) : StandsLeft (pullTable order t) t.name other := by
  apply pullTable_keeps hNodup hName hReference
  intro middle hPerm
  exact pullLeft_undeclared (hPerm.mem_iff.2 hName) (mt hPerm.mem_iff.1 hTarget)
    (hPerm.mem_iff.2 hOther) hNe

/-- No reference of the table leads to another one. -/
def Table.RefersToItselfOnly (t : Table) : Prop := ∀ r ∈ t.references, r.targetTable = t.name

theorem pullTable_of_itself {t : Table} (h : t.RefersToItselfOnly) (order : List String) :
    pullTable order t = order := by
  have hAll (references : List Reference) (hSelf : ∀ r ∈ references, r.targetTable = t.name) :
      references.foldl (fun order r => pullLeft order t.name r.targetTable) order = order := by
    induction references with
    | nil => rfl
    | cons r references ih =>
        obtain ⟨hHere, hLater⟩ := List.forall_mem_cons.1 hSelf
        rw [List.foldl_cons, hHere, pullLeft_self]
        exact ih hLater
  exact hAll t.references h

/-! ### The pulls of all tables -/

theorem foldl_pullTable_perm {order : List String} (hNodup : order.Nodup) {ts : List Table}
    (hNames : ∀ t ∈ ts, t.name ∈ order) : (ts.foldl pullTable order).Perm order := by
  induction ts generalizing order with
  | nil => exact .refl order
  | cons t ts ih =>
      obtain ⟨hHere, hLater⟩ := List.forall_mem_cons.1 hNames
      have hPerm := (pullTable_pulled hNodup hHere).perm
      exact (ih (hPerm.nodup_iff.2 hNodup) fun u hu => hPerm.mem_iff.2 (hLater u hu)).trans hPerm

/-- Two tables keep their places to each other while neither is pulled towards another one. -/
theorem foldl_pullTable_standsLeft {order : List String} (hNodup : order.Nodup) {ts : List Table}
    (hNames : ∀ t ∈ ts, t.name ∈ order) {a b : String}
    (hStill : ∀ t ∈ ts, t.name = a ∨ t.name = b → t.RefersToItselfOnly) :
    StandsLeft (ts.foldl pullTable order) a b ↔ StandsLeft order a b := by
  induction ts generalizing order with
  | nil => exact Iff.rfl
  | cons t ts ih =>
      obtain ⟨hHere, hLater⟩ := List.forall_mem_cons.1 hNames
      obtain ⟨hStillHere, hStillLater⟩ := List.forall_mem_cons.1 hStill
      have hPulled := pullTable_pulled hNodup hHere
      have hNext := ih (hPulled.perm.nodup_iff.2 hNodup)
        (fun u hu => hPulled.perm.mem_iff.2 (hLater u hu)) hStillLater
      apply hNext.trans
      by_cases hPair : t.name = a ∨ t.name = b
      · rw [pullTable_of_itself (hStillHere hPair)]
      · rw [not_or] at hPair
        exact hPulled.others a b (Ne.symm hPair.1) (Ne.symm hPair.2)

/-! ### The order of a schema -/

/-- The first table is declared before the second one. -/
def DeclaredBefore (tables : List Table) (t s : Table) : Prop := [t, s].Sublist tables

instance (tables : List Table) (t s : Table) : Decidable (DeclaredBefore tables t s) :=
  inferInstanceAs (Decidable ([t, s].Sublist tables))

/-- The first table has a reference to the second one. -/
def Table.RefersTo (s t : Table) : Prop := ∃ r ∈ s.references, r.targetTable = t.name

theorem declaredBefore_append {first last : List Table} {t s : Table} (ht : t ∈ first)
    (hs : s ∈ last) : DeclaredBefore (first ++ last) t s :=
  (List.singleton_sublist.2 ht).append (List.singleton_sublist.2 hs)

section Schema

variable {tables : List Table} (hNodup : (tables.map Table.name).Nodup)
include hNodup

theorem orderAfter_perm {done : List Table} (hDone : done ⊆ tables) :
    (orderAfter tables done).Perm (tables.map Table.name) :=
  foldl_pullTable_perm hNodup fun _ ht => List.mem_map_of_mem (hDone ht)

theorem orderAfter_nodup {done : List Table} (hDone : done ⊆ tables) :
    (orderAfter tables done).Nodup :=
  (orderAfter_perm hNodup hDone).nodup_iff.2 hNodup

theorem mem_orderAfter {done : List Table} (hDone : done ⊆ tables) {t : Table} (ht : t ∈ tables) :
    t.name ∈ orderAfter tables done :=
  (orderAfter_perm hNodup hDone).mem_iff.2 (List.mem_map_of_mem ht)

/-- All declared tables stand in the order, and each of them once. -/
theorem columnOrder_perm : (columnOrder tables).Perm (tables.map Table.name) := by
  rw [columnOrder_eq]
  exact orderAfter_perm hNodup (List.Subset.refl tables)

theorem eq_of_name {s t : Table} (hs : s ∈ tables) (ht : t ∈ tables) (hName : s.name = t.name) :
    s = t :=
  List.inj_on_of_nodup_map hNodup hs ht hName

/-- While neither table is pulled towards another one, their places to each other stay. -/
theorem orderAfter_append_standsLeft {done more : List Table} (hDone : done ++ more ⊆ tables)
    {a b : String} (hStill : ∀ t ∈ more, t.name = a ∨ t.name = b → t.RefersToItselfOnly) :
    StandsLeft (orderAfter tables (done ++ more)) a b ↔
      StandsLeft (orderAfter tables done) a b := by
  have hFirst : done ⊆ tables := fun t ht => hDone (List.mem_append_left _ ht)
  rw [orderAfter, List.foldl_append]
  exact foldl_pullTable_standsLeft (orderAfter_nodup hNodup hFirst)
    (fun t ht => mem_orderAfter hNodup hFirst (hDone (List.mem_append_right _ ht))) hStill

theorem DeclaredBefore.name_ne {t s : Table} (h : DeclaredBefore tables t s) : t.name ≠ s.name := by
  have hPair := (List.Sublist.map Table.name h).nodup hNodup
  simpa using hPair

theorem name_ne_of_behind {before after : List Table} {s : Table}
    (hTables : tables = before ++ s :: after) {t u : Table} (ht : t ∈ before ∨ t = s)
    (hu : u ∈ after) : u.name ≠ t.name := by
  have hPair : DeclaredBefore tables t u := by
    rw [hTables, List.append_cons]
    exact declaredBefore_append (by simpa using ht) hu
  exact (hPair.name_ne hNodup).symm

variable {before between : List Table} {s : Table} (hDone : before ++ s :: between ⊆ tables)
include hDone

/-- What a table's own pulls bring about lasts as long as the other table is not pulled. -/
theorem orderAfter_of_pullTable (hSource : ∀ t ∈ between, t.name ≠ s.name) {other : String}
    (hOther : ∀ t ∈ between, t.name = other → t.RefersToItselfOnly)
    (hPull : StandsLeft (pullTable (orderAfter tables before) s) s.name other) :
    StandsLeft (orderAfter tables (before ++ s :: between)) s.name other := by
  rw [List.append_cons] at hDone ⊢
  rw [orderAfter_append_standsLeft hNodup hDone]
  · rw [orderAfter, List.foldl_append]
    exact hPull
  · intro t ht hName
    exact hOther t ht (hName.resolve_left (hSource t ht))

end Schema

theorem DeclaredBefore.split {tables : List Table} {t s : Table} (h : DeclaredBefore tables t s) :
    ∃ before after, tables = before ++ s :: after ∧ t ∈ before := by
  obtain ⟨ahead, behind, rfl, hs⟩ := pair_sublist_iff.1 h
  obtain ⟨between, after, rfl⟩ := List.append_of_mem hs
  exact ⟨ahead ++ t :: between, after, by simp, by simp⟩

/-- A table that refers to another one is put left of it, and stays there as long as the other one
is not pulled. -/
theorem orderAfter_reference {tables : List Table} (hNodup : (tables.map Table.name).Nodup)
    {before between after : List Table} {s t : Table}
    (hTables : tables = before ++ s :: between ++ after) (ht : t ∈ tables) (hNe : t ≠ s)
    (hRefers : s.RefersTo t) (hStill : ∀ u ∈ between, u.name = t.name → u.RefersToItselfOnly) :
    StandsLeft (orderAfter tables (before ++ s :: between)) s.name t.name := by
  have hBefore : before ⊆ tables := by
    rw [hTables, List.append_assoc]
    exact List.subset_append_left _ _
  have hDone : before ++ s :: between ⊆ tables := by
    rw [hTables]
    exact List.subset_append_left _ _
  have hs : s ∈ tables := hDone (by simp)
  obtain ⟨r, hr, hTarget⟩ := hRefers
  have hNames : r.targetTable ≠ s.name := by
    rw [hTarget]
    exact fun hName => hNe (eq_of_name hNodup ht hs hName)
  refine orderAfter_of_pullTable hNodup hDone (fun u hu => ?_) hStill ?_
  · rw [List.append_assoc, List.cons_append] at hTables
    exact name_ne_of_behind hNodup hTables (Or.inr rfl) (List.mem_append_left _ hu)
  · rw [← hTarget]
    refine pullTable_reference (orderAfter_nodup hNodup hBefore) (mem_orderAfter hNodup hBefore hs)
      hr ?_ hNames
    rw [hTarget]
    exact mem_orderAfter hNodup hBefore ht

theorem columnOrder_reference {tables : List Table} (hNodup : (tables.map Table.name).Nodup)
    {s t : Table} (hs : s ∈ tables) (ht : t ∈ tables) (hNe : t ≠ s) (hRefers : s.RefersTo t)
    (h : DeclaredBefore tables t s ∨ t.RefersToItselfOnly) :
    StandsLeft (columnOrder tables) s.name t.name := by
  rcases h with hEarlier | hSelf
  · obtain ⟨before, after, hTables, hBefore⟩ := hEarlier.split
    have hWhole : tables = before ++ s :: after ++ [] := by rw [List.append_nil, hTables]
    have hLeft := orderAfter_reference hNodup hWhole ht hNe hRefers fun u hu hName =>
      absurd hName (name_ne_of_behind hNodup hTables (Or.inl hBefore) hu)
    rw [← hTables, ← columnOrder_eq] at hLeft
    exact hLeft
  · obtain ⟨before, after, hTables⟩ := List.append_of_mem hs
    have hWhole : tables = before ++ s :: after ++ [] := by rw [List.append_nil, hTables]
    have hStill : ∀ u ∈ after, u.name = t.name → u.RefersToItselfOnly := by
      intro u hu hName
      have hMem : u ∈ tables := by
        rw [hTables]
        exact List.mem_append_right _ (List.mem_cons_of_mem _ hu)
      rw [eq_of_name hNodup hMem ht hName]
      exact hSelf
    have hLeft := orderAfter_reference hNodup hWhole ht hNe hRefers hStill
    rw [← hTables, ← columnOrder_eq] at hLeft
    exact hLeft

theorem columnOrder_undeclared {tables : List Table} (hNodup : (tables.map Table.name).Nodup)
    {s t : Table} (hRefers : ∃ r ∈ s.references, ∀ u ∈ tables, r.targetTable ≠ u.name)
    (h : DeclaredBefore tables t s) : StandsLeft (columnOrder tables) s.name t.name := by
  obtain ⟨before, after, hTables, ht⟩ := h.split
  obtain ⟨r, hr, hAbsent⟩ := hRefers
  have hBefore : before ⊆ tables := by
    rw [hTables]
    exact List.subset_append_left _ _
  have hs : s ∈ tables := by
    rw [hTables]
    simp
  have hTarget : r.targetTable ∉ orderAfter tables before := by
    rw [(orderAfter_perm hNodup hBefore).mem_iff]
    intro hMem
    obtain ⟨u, hu, hName⟩ := List.mem_map.1 hMem
    exact hAbsent u hu hName.symm
  have hPull := pullTable_undeclared (orderAfter_nodup hNodup hBefore)
    (mem_orderAfter hNodup hBefore hs) hr hTarget (mem_orderAfter hNodup hBefore (hBefore ht))
    (h.name_ne hNodup)
  have hDone : before ++ s :: after ⊆ tables := by
    rw [← hTables]
    exact List.Subset.refl _
  have hLeft := orderAfter_of_pullTable hNodup hDone
    (fun u hu => name_ne_of_behind hNodup hTables (Or.inr rfl) hu)
    (fun u hu hName => absurd hName (name_ne_of_behind hNodup hTables (Or.inl ht) hu)) hPull
  rw [← hTables, ← columnOrder_eq] at hLeft
  exact hLeft

/-- A table ends right of one it refers to only if the other one is declared later and has left its
place when it was pulled itself. -/
theorem columnOrder_violated {tables : List Table} (hNodup : (tables.map Table.name).Nodup)
    {s t : Table} (hs : s ∈ tables) (ht : t ∈ tables) (hNe : t ≠ s) (hRefers : s.RefersTo t)
    (h : ¬ StandsLeft (columnOrder tables) s.name t.name) :
    ∃ before after, tables = before ++ t :: after ∧ s ∈ before ∧
      StandsLeft (orderAfter tables before) s.name t.name ∧
      ¬ StandsLeft (orderAfter tables (before ++ [t])) s.name t.name := by
  obtain ⟨before, after, hTables⟩ := List.append_of_mem ht
  have hLater : ¬ DeclaredBefore tables t s := fun hEarlier =>
    h (columnOrder_reference hNodup hs ht hNe hRefers (Or.inl hEarlier))
  have hBefore : s ∈ before := by
    rw [hTables, List.mem_append, List.mem_cons] at hs
    rcases hs with hBefore | rfl | hAfter
    · exact hBefore
    · exact absurd rfl hNe
    · exact absurd (pair_sublist_iff.2 ⟨before, after, hTables, hAfter⟩) hLater
  refine ⟨before, after, hTables, hBefore, ?_, fun hLeft => h ?_⟩
  · obtain ⟨ahead, between, hSplit⟩ := List.append_of_mem hBefore
    have hWhole : tables = ahead ++ s :: between ++ t :: after := by rw [← hSplit, hTables]
    rw [hSplit]
    apply orderAfter_reference hNodup hWhole ht hNe hRefers
    intro u hu hName
    rw [← hSplit] at hWhole
    have hMem : u ∈ before := by
      rw [hSplit]
      exact List.mem_append_right _ (List.mem_cons_of_mem _ hu)
    have hEarlier : DeclaredBefore tables u t := by
      rw [hTables]
      exact declaredBefore_append hMem List.mem_cons_self
    exact absurd hName (hEarlier.name_ne hNodup)
  · have hAll : before ++ [t] ++ after = tables := by rw [← List.append_cons, hTables]
    have hDone : before ++ [t] ++ after ⊆ tables := by
      rw [hAll]
      exact List.Subset.refl tables
    have hStill : ∀ u ∈ after, u.name = s.name ∨ u.name = t.name → u.RefersToItselfOnly := by
      rintro u hu (hName | hName)
      · exact absurd hName (name_ne_of_behind hNodup hTables (Or.inl hBefore) hu)
      · exact absurd hName (name_ne_of_behind hNodup hTables (Or.inr rfl) hu)
    have hEnd := (orderAfter_append_standsLeft hNodup hDone hStill).2 hLeft
    rw [hAll, ← columnOrder_eq] at hEnd
    exact hEnd

/-- Every reference keeps its promise if its target is declared earlier or stays where it is, and a
table with a reference to no declared one stands left of all earlier tables. Otherwise a promise is
broken only by a later pull of the target. -/
theorem columnOrder_promises (tables : List Table) (hNodup : (tables.map Table.name).Nodup) :
    (columnOrder tables).Perm (tables.map Table.name) ∧
    (∀ s ∈ tables, ∀ t ∈ tables, t ≠ s → s.RefersTo t →
      DeclaredBefore tables t s ∨ t.RefersToItselfOnly →
        StandsLeft (columnOrder tables) s.name t.name) ∧
    (∀ s ∈ tables, (∃ r ∈ s.references, ∀ u ∈ tables, r.targetTable ≠ u.name) →
      ∀ t, DeclaredBefore tables t s → StandsLeft (columnOrder tables) s.name t.name) ∧
    ∀ s ∈ tables, ∀ t ∈ tables, t ≠ s → s.RefersTo t →
      ¬ StandsLeft (columnOrder tables) s.name t.name →
        ∃ before after, tables = before ++ t :: after ∧ s ∈ before ∧
          StandsLeft (orderAfter tables before) s.name t.name ∧
          ¬ StandsLeft (orderAfter tables (before ++ [t])) s.name t.name := by
  refine ⟨columnOrder_perm hNodup, ?_, ?_, ?_⟩
  · intro s hs t ht hNe hRefers h
    exact columnOrder_reference hNodup hs ht hNe hRefers h
  · intro s _ hRefers t h
    exact columnOrder_undeclared hNodup hRefers h
  · intro s hs t ht hNe hRefers h
    exact columnOrder_violated hNodup hs ht hNe hRefers h

/-- Two tables that refer to each other, and one that refers to a table that is not declared. -/
def mutualTables : List Table :=
  [⟨"A", [⟨"b", false, [], [], .reference "B" "a"⟩]⟩,
    ⟨"B", [⟨"a", false, [], [], .reference "A" "b"⟩]⟩,
    ⟨"C", [⟨"x", true, [], [], .reference "Nope" "x"⟩]⟩]

/-- The second pull turns the two tables round, so only the promise of the first one is broken. -/
theorem mutualTables_promises :
    StandsLeft (columnOrder mutualTables) "B" "A" ∧ StandsLeft (columnOrder mutualTables) "C" "B" ∧
      ∃ before after, mutualTables = before ++ mutualTables[1] :: after ∧
        mutualTables[0] ∈ before ∧ StandsLeft (orderAfter mutualTables before) "A" "B" ∧
        ¬ StandsLeft (orderAfter mutualTables (before ++ [mutualTables[1]])) "A" "B" := by
  obtain ⟨-, hReference, hUndeclared, hViolated⟩ := columnOrder_promises mutualTables (by decide)
  refine ⟨?_, ?_, ?_⟩
  · exact hReference mutualTables[1] (by decide) mutualTables[0] (by decide) (by decide)
      ⟨⟨"a", "A", "b"⟩, by decide, rfl⟩ (Or.inl (by decide))
  · exact hUndeclared mutualTables[2] (by decide) ⟨⟨"x", "Nope", "x"⟩, by decide, by decide⟩
      mutualTables[1] (by decide)
  · exact hViolated mutualTables[0] (by decide) mutualTables[1] (by decide) (by decide)
      ⟨⟨"b", "B", "a"⟩, by decide, rfl⟩ (by decide)

end ErDiagram
