import Mathlib
import ErDiagram.Geometry

/-! Coordinates without rounding. Over the rationals the lesser and the greater of two numbers are
their minimum and maximum, and a rectangle is a set of points. -/

namespace ErDiagram

/-- The rationals compute without rounding. -/
instance : Coordinate ℚ where
  decidableLT := inferInstance

namespace Coordinate

@[simp] theorem zero_eq : (zero : ℚ) = 0 := Nat.cast_zero

@[simp] theorem twice_eq (a : ℚ) : twice a = 2 * a := mul_comm a 2

@[simp] theorem lesser_eq_min (a b : ℚ) : lesser a b = min a b := by
  rw [lesser, if_pos (beq_self_eq_true b), min_def_lt]

@[simp] theorem greater_eq_max (a b : ℚ) : greater a b = max a b := by
  rw [greater, if_pos (beq_self_eq_true b), max_comm, max_def_lt]

/-! ### The least and the greatest of many -/

theorem image_mem_cons {β γ : Type} (f : β → γ) (b : β) (bs : List β) :
    f '' {c | c ∈ b :: bs} = {f b} ∪ f '' {c | c ∈ bs} := by
  ext x
  simp [eq_comm]

/-- A minimum over a list that begins with the least of some numbers is the least of these and those
of the list. -/
theorem isLeast_foldl_min {β γ : Type} [LinearOrder γ] {seen : Set γ} {least : γ}
    (h : IsLeast seen least) (f : β → γ) (bs : List β) :
    IsLeast (seen ∪ f '' {b | b ∈ bs}) (bs.foldl (fun x b => min x (f b)) least) := by
  induction bs generalizing seen least with
  | nil => simpa using h
  | cons b bs ih =>
      rw [image_mem_cons, ← Set.union_assoc]
      exact ih (h.union isLeast_singleton)

theorem isLeast_foldl_lesser {β : Type} {seen : Set ℚ} {least : ℚ} (h : IsLeast seen least)
    (f : β → ℚ) (bs : List β) :
    IsLeast (seen ∪ f '' {b | b ∈ bs}) (bs.foldl (fun x b => lesser x (f b)) least) := by
  simp only [lesser_eq_min]
  exact isLeast_foldl_min h f bs

theorem isGreatest_foldl_greater {β : Type} {seen : Set ℚ} {greatest : ℚ}
    (h : IsGreatest seen greatest) (f : β → ℚ) (bs : List β) :
    IsGreatest (seen ∪ f '' {b | b ∈ bs}) (bs.foldl (fun x b => greater x (f b)) greatest) := by
  simp only [greater_eq_max]
  exact isLeast_foldl_min (γ := ℚᵒᵈ) h f bs

theorem foldl_greater_le_iff {β : Type} (f : β → ℚ) (bs : List β) {first bound : ℚ} :
    bs.foldl (fun x b => greater x (f b)) first ≤ bound ↔
      first ≤ bound ∧ ∀ b ∈ bs, f b ≤ bound := by
  have hGreatest := isGreatest_foldl_greater (isGreatest_singleton (a := first)) f bs
  rw [isLUB_le_iff hGreatest.isLUB, upperBounds_union, upperBounds_singleton, Set.mem_inter_iff,
    Set.mem_Ici, mem_upperBounds, Set.forall_mem_image]
  rfl

end Coordinate

namespace Rect

theorem right_eq (r : Rect ℚ) : r.right = r.x + r.width := rfl

theorem bottom_eq (r : Rect ℚ) : r.bottom = r.y + r.height := rfl

/-- The rectangle between two upright and two level lines. -/
def ofEdges (left top right bottom : ℚ) : Rect ℚ := ⟨left, top, right - left, bottom - top⟩

@[simp] theorem right_ofEdges (left top right bottom : ℚ) :
    (ofEdges left top right bottom).right = right := add_sub_cancel left right

@[simp] theorem bottom_ofEdges (left top right bottom : ℚ) :
    (ofEdges left top right bottom).bottom = bottom := add_sub_cancel top bottom

/-- The points of a rectangle, its edges included. -/
def region (r : Rect ℚ) : Set (ℚ × ℚ) := Set.Icc (r.x, r.y) (r.right, r.bottom)

/-- What lies inside a rectangle, its edges excluded. -/
def openRegion (r : Rect ℚ) : Set (ℚ × ℚ) := Set.Ioo r.x r.right ×ˢ Set.Ioo r.y r.bottom

/-- The rectangle is not turned inside out. It may be flat. -/
structure IsProper (r : Rect ℚ) : Prop where
  width : 0 ≤ r.width
  height : 0 ≤ r.height

instance (r : Rect ℚ) : Decidable r.IsProper :=
  decidable_of_iff (0 ≤ r.width ∧ 0 ≤ r.height) ⟨fun h => ⟨h.1, h.2⟩, fun h => ⟨h.width, h.height⟩⟩

theorem mem_region_iff {r : Rect ℚ} {x y : ℚ} :
    (x, y) ∈ r.region ↔ (r.x ≤ x ∧ r.y ≤ y) ∧ x ≤ r.right ∧ y ≤ r.bottom := by
  rw [region, Set.mem_Icc, Prod.mk_le_mk, Prod.mk_le_mk]

theorem region_subset {r outer : Rect ℚ} (hLeft : outer.x ≤ r.x) (hTop : outer.y ≤ r.y)
    (hRight : r.right ≤ outer.right) (hBottom : r.bottom ≤ outer.bottom) :
    r.region ⊆ outer.region :=
  Set.Icc_subset_Icc (Prod.mk_le_mk.2 ⟨hLeft, hTop⟩) (Prod.mk_le_mk.2 ⟨hRight, hBottom⟩)

/-- The edges of a rectangle are within a region that it is part of. -/
theorem IsProper.region_subset_iff {r outer : Rect ℚ} (h : r.IsProper) :
    r.region ⊆ outer.region ↔
      (outer.x ≤ r.x ∧ outer.y ≤ r.y) ∧ r.right ≤ outer.right ∧ r.bottom ≤ outer.bottom := by
  have hCorners : (r.x, r.y) ≤ (r.right, r.bottom) :=
    Prod.mk_le_mk.2 ⟨le_add_of_nonneg_right h.width, le_add_of_nonneg_right h.height⟩
  rw [region, region, Set.Icc_subset_Icc_iff hCorners, Prod.mk_le_mk, Prod.mk_le_mk]

end Rect

end ErDiagram
