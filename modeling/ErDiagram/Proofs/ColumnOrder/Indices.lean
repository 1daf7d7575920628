import ErDiagram.Proofs.ColumnOrder
import Mathlib.Data.List.Induction

/-! The places that a run of pulls uses. A name that is not in the order counts as standing at -1,
so places are compared as signed numbers; yet all of them that are used lie in the order as it is at
that moment, also where a name is declared more than once. -/
namespace ErDiagram

/-! ### One pull -/

/-- The first place of a name in an order, or -1 if it has none. -/
def placeOf (order : List String) (name : String) : Int :=
  match order.idxOf? name with
  | none => -1
  | some place => place

/-- Where a name is taken out of an order, and where it is put back into what is left. -/
structure Shift where
  removal : Int
  insertion : Int
deriving DecidableEq, Repr

/-- The shift that a pull makes. There is none if the table does not stand right of its target. The
new place is one before that of the target, but not before the front. -/
def shift? (order : List String) (name target : String) : Option Shift :=
  if placeOf order target < placeOf order name then
    some ⟨placeOf order name, max (placeOf order target - 1) 0⟩
  else none

namespace Shift

/-- There is an entry to take out, and the new place is among the others or behind the last one. -/
structure IsWithin (s : Shift) (order : List String) : Prop where
  removal_nonneg : 0 ≤ s.removal
  removal_lt : s.removal < order.length
  insertion_nonneg : 0 ≤ s.insertion
  insertion_le : s.insertion ≤ (order.eraseIdx s.removal.toNat).length

def apply (s : Shift) (name : String) (order : List String) : List String :=
  (order.eraseIdx s.removal.toNat).insertIdx s.insertion.toNat name

end Shift

theorem placeOf_of_not_mem {order : List String} {name : String} (h : name ∉ order) :
    placeOf order name = -1 := by
  rw [placeOf, List.idxOf?_eq_none_iff.2 h]

theorem placeOf_of_idxOf? {order : List String} {name : String} {place : Nat}
    (h : order.idxOf? name = some place) : placeOf order name = place := by
  rw [placeOf, h]

theorem neg_one_le_placeOf (order : List String) (name : String) : -1 ≤ placeOf order name := by
  unfold placeOf
  split <;> omega

/-- Only a name that is in the order stands right of another place. -/
theorem exists_place_of_shift {order : List String} {name target : String}
    (h : placeOf order target < placeOf order name) :
    ∃ place : Nat, order.idxOf? name = some place ∧ placeOf order name = place := by
  have hTarget := neg_one_le_placeOf order target
  cases hPlace : order.idxOf? name with
  | none =>
      rw [placeOf_of_not_mem (List.idxOf?_eq_none_iff.1 hPlace)] at h
      omega
  | some place => exact ⟨place, rfl, placeOf_of_idxOf? hPlace⟩

theorem pullLeft_eq_shift (order : List String) (name target : String) :
    pullLeft order name target =
      match shift? order name target with
      | none => order
      | some s => s.apply name order := by
  by_cases hLess : placeOf order target < placeOf order name
  · obtain ⟨here, hHere, hPlace⟩ := exists_place_of_shift hLess
    rw [shift?, if_pos hLess]
    simp only [pullLeft, hHere, Shift.apply, hPlace, Int.toNat_natCast]
    cases hThere : order.idxOf? target with
    | none => rw [placeOf_of_not_mem (List.idxOf?_eq_none_iff.1 hThere)]; rfl
    | some there =>
        rw [placeOf_of_idxOf? hThere, hPlace] at hLess
        have hPut : (max ((there : Int) - 1) 0).toNat = there - 1 := by omega
        simp only [placeOf_of_idxOf? hThere, hPut, if_pos (Int.ofNat_lt.1 hLess)]
  · rw [shift?, if_neg hLess]
    unfold pullLeft
    split
    · rfl
    · rename_i here hHere
      rw [placeOf_of_idxOf? hHere] at hLess
      split
      · rename_i hThere
        rw [placeOf_of_not_mem (List.idxOf?_eq_none_iff.1 hThere)] at hLess
        omega
      · rename_i there hThere
        rw [placeOf_of_idxOf? hThere] at hLess
        exact if_neg (mt Int.ofNat_lt.2 hLess)

/-- A pull takes out the table that is pulled, from a place of the order, and puts it back at a
place of what is left. -/
theorem shift?_isWithin {order : List String} {name target : String} {s : Shift}
    (h : shift? order name target = some s) :
    s.IsWithin order ∧ order[s.removal.toNat]? = some name := by
  unfold shift? at h
  split at h
  case isFalse => cases h
  case isTrue hLess =>
    cases h
    obtain ⟨here, hHere, hPlace⟩ := exists_place_of_shift hLess
    obtain ⟨hBound, hName, -⟩ := List.idxOf?_eq_some_iff.1 hHere
    have hLeft : (order.eraseIdx here).length = order.length - 1 :=
      List.length_eraseIdx_of_lt hBound
    refine ⟨⟨?_, ?_, ?_, ?_⟩, ?_⟩ <;> simp only [hPlace, Int.toNat_natCast]
    · omega
    · omega
    · omega
    · rw [hPlace] at hLess
      omega
    · rw [List.getElem?_eq_getElem hBound, hName]

/-! ### A run of pulls -/

/-- The pulls of a run: the name of the table that is pulled, and that of its target. -/
def pulls (tables : List Table) : List (String × String) :=
  tables.flatMap fun t => t.references.map fun r => (t.name, r.targetTable)

/-- The order when the first pulls have been made. -/
def orderAfterPulls (tables : List Table) (done : List (String × String)) : List String :=
  done.foldl (fun order pull => pullLeft order pull.1 pull.2) (tables.map Table.name)

theorem columnOrder_eq_orderAfterPulls (tables : List Table) :
    columnOrder tables = orderAfterPulls tables (pulls tables) := by
  simp only [columnOrder, orderAfterPulls, pulls, List.foldl_flatMap, List.foldl_map]

theorem orderAfterPulls_concat (tables : List Table) (done : List (String × String))
    (name target : String) :
    orderAfterPulls tables (done ++ [(name, target)]) =
      pullLeft (orderAfterPulls tables done) name target := by
  simp [orderAfterPulls]

theorem orderAfterPulls_perm (tables : List Table) (done : List (String × String)) :
    (orderAfterPulls tables done).Perm (tables.map Table.name) := by
  induction done using List.reverseRecOn with
  | nil => exact .refl _
  | append_singleton done pull ih =>
      rw [orderAfterPulls_concat]
      exact (pullLeft_perm _ _ _).trans ih

/-- At each moment of a run the order has every declared name as often as it is declared. The next
pull leaves it as it is or makes a shift, and then the pulled table stands at the place where it is
taken out, and both places of the shift lie in the order of that moment. -/
theorem columnOrder_shifts (tables : List Table) :
    (∀ done name target later, pulls tables = done ++ (name, target) :: later →
      let order := orderAfterPulls tables done
      let next := orderAfterPulls tables (done ++ [(name, target)])
      order.Perm (tables.map Table.name) ∧
        ((shift? order name target = none ∧ next = order) ∨
          ∃ s, shift? order name target = some s ∧ next = s.apply name order ∧
            s.IsWithin order ∧ order[s.removal.toNat]? = some name)) ∧
    columnOrder tables = orderAfterPulls tables (pulls tables) ∧
    (columnOrder tables).Perm (tables.map Table.name) := by
  refine ⟨fun done name target later _ => ?_, columnOrder_eq_orderAfterPulls tables,
    columnOrder_perm_names tables⟩
  intro order next
  have hNext : next = pullLeft order name target := orderAfterPulls_concat tables done name target
  rw [pullLeft_eq_shift] at hNext
  refine ⟨orderAfterPulls_perm tables done, ?_⟩
  cases hShift : shift? order name target with
  | none =>
      rw [hShift] at hNext
      exact Or.inl ⟨rfl, hNext⟩
  | some s =>
      rw [hShift] at hNext
      exact Or.inr ⟨s, rfl, hNext, shift?_isWithin hShift⟩

/-- A name that is declared twice, a table that refers to itself and to one that is not there, and
two tables that refer to each other. -/
def tangledTables : List Table :=
  [⟨"A", [⟨"b", false, [], [], .reference "B" "a"⟩]⟩,
    ⟨"B", [⟨"self", false, [], [], .reference "B" "a"⟩, ⟨"a", false, [], [], .reference "A" "b"⟩]⟩,
    ⟨"A", [⟨"x", true, [], [], .reference "Nope" "x"⟩]⟩]

/-- The last pull of the run is one towards a table that is not there. It takes out the first of the
two entries with the name of the pulled table. -/
theorem tangledTables_shifts :
    let done := [("A", "B"), ("B", "B"), ("B", "A")]
    let order := orderAfterPulls tangledTables done
    pulls tangledTables = done ++ [("A", "Nope")] ∧ order.Perm ["A", "B", "A"] ∧
      shift? order "A" "Nope" = some ⟨1, 0⟩ ∧ Shift.IsWithin ⟨1, 0⟩ order ∧
      order[1]? = some "A" ∧ columnOrder tangledTables = Shift.apply ⟨1, 0⟩ "A" order := by
  intro done order
  obtain ⟨hMoments, hOrder, -⟩ := columnOrder_shifts tangledTables
  have hPulls : pulls tangledTables = done ++ [("A", "Nope")] := by decide
  obtain ⟨hPerm, hNone | ⟨s, hShift, hNext, hWithin, hTaken⟩⟩ :=
    hMoments done "A" "Nope" [] hPulls
  · exact absurd hNone.1 (by decide)
  · obtain rfl : s = ⟨1, 0⟩ := Option.some.inj (hShift.symm.trans (by decide))
    rw [← hPulls, ← hOrder] at hNext
    exact ⟨hPulls, hPerm, hShift, hWithin, hTaken, hNext⟩

end ErDiagram
