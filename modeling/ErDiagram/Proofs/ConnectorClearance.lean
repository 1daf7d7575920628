import ErDiagram.Connector
import ErDiagram.Proofs.Doubles

/-! Which boxes a connector keeps clear of that has to go back leftward. Its points are rounded, but
the lines between them are not: they are judged in the plane of the rationals. -/

namespace ErDiagram

open Double

/-- Where a point is, in units of the least double. An infinite coordinate stands for the first one
that is out of range. -/
def Point.place (p : Point Float) : ℚ × ℚ := (units p.x, units p.y)

namespace Rect

variable {r : Rect Float} {p q : Point Float}

/-- What lies inside a rectangle, its edges excluded. -/
def interior (r : Rect Float) : Set (ℚ × ℚ) :=
  Set.Ioo ↑(units r.x) ↑(units r.right) ×ˢ Set.Ioo ↑(units r.y) ↑(units r.bottom)

/-- The line from one point to another does not enter the rectangle. -/
def IsClearOf (r : Rect Float) (p q : Point Float) : Prop :=
  Disjoint (segment ℚ p.place q.place) r.interior

/-- The numbers from `a` to `b` are not strictly between `low` and `high`. -/
def Misses (a b low high : Int) : Prop := high ≤ low ∨ max a b ≤ low ∨ high ≤ min a b

theorem disjoint_uIcc_Ioo {a b low high : Int} :
    Disjoint (Set.uIcc (a : ℚ) b) (Set.Ioo (low : ℚ) high) ↔ Misses a b low high := by
  have hMin : ((min a b : Int) : ℚ) = min ↑a ↑b := Int.cast_min
  have hMax : ((max a b : Int) : ℚ) = max ↑a ↑b := Int.cast_max
  rw [Misses, Set.disjoint_left]
  constructor
  · intro hDisjoint
    by_contra hMeets
    push Not at hMeets
    obtain ⟨hProper, hLow, hHigh⟩ := hMeets
    rw [← Int.cast_lt (R := ℚ)] at hProper hLow hHigh
    rw [hMax] at hLow
    rw [hMin] at hHigh
    obtain ⟨c, hAbove, hBelow⟩ := exists_between hProper
    -- The number nearest to `c` of those from `a` to `b`.
    let nearest := max (min ↑a ↑b) (min c (max ↑a ↑b))
    have hMem : nearest ∈ Set.uIcc (a : ℚ) b :=
      ⟨le_max_left .., max_le min_le_max (min_le_right ..)⟩
    exact hDisjoint hMem ⟨lt_max_of_lt_right (lt_min hAbove hLow),
      max_lt hHigh (min_lt_of_left_lt hBelow)⟩
  · rintro hMisses x ⟨hFirst, hLast⟩ ⟨hAbove, hBelow⟩
    have hProper : low < high := Int.cast_lt.1 (hAbove.trans hBelow)
    have hLow : low < max a b := by
      rw [← Int.cast_lt (R := ℚ), hMax]
      exact hAbove.trans_le hLast
    have hHigh : min a b < high := by
      rw [← Int.cast_lt (R := ℚ), hMin]
      exact hFirst.trans_lt hBelow
    omega

/-- The points of a level or upright line. -/
theorem segment_place (hStraight : p.x = q.x ∨ p.y = q.y) :
    segment ℚ p.place q.place =
      Set.uIcc ↑(units p.x) ↑(units q.x) ×ˢ Set.uIcc ↑(units p.y) ↑(units q.y) := by
  rcases hStraight with hx | hy
  · rw [Point.place, Point.place, ← hx, ← Prod.image_mk_segment_right, segment_eq_uIcc,
      Set.uIcc_self, Set.singleton_prod]
  · rw [Point.place, Point.place, ← hy, ← Prod.image_mk_segment_left, segment_eq_uIcc,
      Set.uIcc_self, Set.prod_singleton]

theorem isClearOf_iff (hStraight : p.x = q.x ∨ p.y = q.y) :
    r.IsClearOf p q ↔ Misses (units p.x) (units q.x) (units r.x) (units r.right) ∨
      Misses (units p.y) (units q.y) (units r.y) (units r.bottom) := by
  rw [IsClearOf, segment_place hStraight, interior, Set.disjoint_prod, disjoint_uIcc_Ioo,
    disjoint_uIcc_Ioo]

theorem isClearOf_level {x x' y : Float} : r.IsClearOf ⟨x, y⟩ ⟨x', y⟩ ↔
    Misses (units x) (units x') (units r.x) (units r.right) ∨
      Misses (units y) (units y) (units r.y) (units r.bottom) :=
  isClearOf_iff (Or.inr rfl)

theorem isClearOf_upright {x y y' : Float} : r.IsClearOf ⟨x, y⟩ ⟨x, y'⟩ ↔
    Misses (units x) (units x) (units r.x) (units r.right) ∨
      Misses (units y) (units y') (units r.y) (units r.bottom) :=
  isClearOf_iff (Or.inl rfl)

/-- The rectangle has a positive size that is not lost by rounding. -/
structure IsSolid (r : Rect Float) : Prop where
  wide : r.x < r.right
  high : r.y < r.bottom

instance (r : Rect Float) : Decidable r.IsSolid :=
  decidable_of_iff (r.x < r.right ∧ r.y < r.bottom)
    ⟨fun h => ⟨h.1, h.2⟩, fun h => ⟨h.wide, h.high⟩⟩

/-- The point is on the upright edge at `x` of the rectangle. -/
structure HasOnEdge (r : Rect Float) (x : Float) (p : Point Float) : Prop where
  at_edge : (p.x == x) = true
  below_top : r.y ≤ p.y
  above_bottom : p.y ≤ r.bottom

instance (r : Rect Float) (x : Float) (p : Point Float) : Decidable (r.HasOnEdge x p) :=
  decidable_of_iff ((p.x == x) = true ∧ r.y ≤ p.y ∧ p.y ≤ r.bottom)
    ⟨fun h => ⟨h.1, h.2.1, h.2.2⟩, fun h => ⟨h.at_edge, h.below_top, h.above_bottom⟩⟩

theorem IsSolid.units_lt (h : r.IsSolid) :
    units r.x < units r.right ∧ units r.y < units r.bottom := by
  obtain ⟨hLeft, hRight⟩ := isNumber_of_lt h.wide
  obtain ⟨hTop, hBottom⟩ := isNumber_of_lt h.high
  exact ⟨(lt_iff hLeft hRight).1 h.wide, (lt_iff hTop hBottom).1 h.high⟩

theorem HasOnEdge.units_le {x : Float} (h : r.HasOnEdge x p) : units p.x = units x ∧
    units r.y ≤ units p.y ∧ units p.y ≤ units r.bottom := by
  obtain ⟨hPoint, hEdge⟩ := isNumber_of_beq h.at_edge
  obtain ⟨hTop, hHeight⟩ := isNumber_of_le h.below_top
  have hBottom := (isNumber_of_le h.above_bottom).2
  exact ⟨(beq_iff hPoint hEdge).1 h.at_edge, (le_iff hTop hHeight).1 h.below_top,
    (le_iff hHeight hBottom).1 h.above_bottom⟩

/-- Two rectangles have no common inner point if and only if they are side by side or one above the
other. -/
theorem disjoint_interior_iff {r' : Rect Float} (h : r.IsSolid) (h' : r'.IsSolid) :
    Disjoint r.interior r'.interior ↔
      (units r.right ≤ units r'.x ∨ units r'.right ≤ units r.x) ∨
        units r.bottom ≤ units r'.y ∨ units r'.bottom ≤ units r.y := by
  have hSize := h.units_lt
  have hSize' := h'.units_lt
  rw [interior, interior, Set.disjoint_prod, Set.Ioo_disjoint_Ioo, Set.Ioo_disjoint_Ioo]
  norm_cast
  omega

end Rect

/-! ### Doubling back -/

open Coordinate

theorem units_greater {a b : Float} (ha : IsNumber a) (hb : IsNumber b) :
    IsNumber (greater a b) ∧ units (greater a b) = max (units a) (units b) := by
  rw [greater, if_pos ((beq_iff hb hb).2 rfl)]
  split
  · rename_i hLess
    exact ⟨ha, by have := (lt_iff hb ha).1 hLess; omega⟩
  · rename_i hNotLess
    exact ⟨hb, by have := mt (lt_iff hb ha).2 hNotLess; omega⟩

/-- A connector starts on the right edge of a box and has to go back leftward to the left edge of
another one. -/
structure DoublesBack (padding : Float) (start finish : Point Float) (source target : Rect Float) :
    Prop where
  isFinite : padding.isFinite = true
  positive : 0 < padding
  source_isSolid : source.IsSolid
  target_isSolid : target.IsSolid
  apart : Disjoint source.interior target.interior
  starts : source.HasOnEdge source.right start
  finishes : target.HasOnEdge target.x finish
  back : finish.x < start.x

/-- It does so if the box of its target is further down than the one of its source. -/
theorem DoublesBack.of_above {padding : Float} {start finish : Point Float}
    {source target : Rect Float}
    (h : padding.isFinite = true ∧ 0 < padding ∧ source.IsSolid ∧ target.IsSolid ∧
      source.bottom ≤ target.y ∧ source.HasOnEdge source.right start ∧
      target.HasOnEdge target.x finish ∧ finish.x < start.x) :
    DoublesBack padding start finish source target := by
  obtain ⟨isFinite, positive, hSource, hTarget, hAbove, starts, finishes, back⟩ := h
  have apart : Disjoint source.interior target.interior :=
    (Rect.disjoint_interior_iff hSource hTarget).2 (Or.inr (Or.inl (units_le_of_le hAbove)))
  exact ⟨isFinite, positive, hSource, hTarget, apart, starts, finishes, back⟩

/-- How far down a connector goes before it turns back. -/
def wayBack (padding : Float) (source target : Rect Float) : Float :=
  greater (source.bottom + padding) (target.bottom + padding)

theorem RoutingSettings.path_of_back (s : RoutingSettings Float) {start finish : Point Float}
    (source target : Rect Float) (hBack : finish.x < start.x) :
    s.path start finish source target =
      [start, ⟨start.x + s.padding, start.y⟩,
        ⟨start.x + s.padding, wayBack s.padding source target⟩,
        ⟨finish.x - s.padding, wayBack s.padding source target⟩,
        ⟨finish.x - s.padding, finish.y⟩, finish] := by
  unfold RoutingSettings.path
  dsimp only
  rw [if_pos hBack]
  rfl

namespace DoublesBack

variable {padding : Float} {start finish : Point Float} {source target : Rect Float}
  (h : DoublesBack padding start finish source target)
include h

/-- What is known about the edges of the boxes and the turns of the path. -/
theorem units_le :
    (units source.x < units source.right ∧ units source.y < units source.bottom) ∧
    (units target.x < units target.right ∧ units target.y < units target.bottom) ∧
    ((units source.right ≤ units target.x ∨ units target.right ≤ units source.x) ∨
      units source.bottom ≤ units target.y ∨ units target.bottom ≤ units source.y) ∧
    (units start.x = units source.right ∧ units source.y ≤ units start.y ∧
      units start.y ≤ units source.bottom) ∧
    (units finish.x = units target.x ∧ units target.y ≤ units finish.y ∧
      units finish.y ≤ units target.bottom) ∧
    units finish.x < units start.x ∧
    units start.x ≤ units (start.x + padding) ∧ units (finish.x - padding) ≤ units finish.x := by
  obtain ⟨hFinish, hStart⟩ := isNumber_of_lt h.back
  exact ⟨h.source_isSolid.units_lt, h.target_isSolid.units_lt,
    (Rect.disjoint_interior_iff h.source_isSolid h.target_isSolid).1 h.apart, h.starts.units_le,
    h.finishes.units_le, (lt_iff hFinish hStart).1 h.back,
    (le_add hStart h.isFinite h.positive).2, (sub_le hFinish h.isFinite h.positive).2⟩

theorem le_wayBack : units source.bottom ≤ units (wayBack padding source target) ∧
    units target.bottom ≤ units (wayBack padding source target) := by
  obtain ⟨hSource, hSourceLess⟩ :=
    le_add (isNumber_of_lt h.source_isSolid.high).2 h.isFinite h.positive
  obtain ⟨hTarget, hTargetLess⟩ :=
    le_add (isNumber_of_lt h.target_isSolid.high).2 h.isFinite h.positive
  rw [wayBack, (units_greater hSource hTarget).2]
  omega

/-! The five lines of a path, for any way back that is not above the bottom of a box. -/

theorem clear_leaving : source.IsClearOf start ⟨start.x + padding, start.y⟩ ∧
    target.IsClearOf start ⟨start.x + padding, start.y⟩ := by
  have hUnits := h.units_le
  rw [Rect.isClearOf_level, Rect.isClearOf_level]
  unfold Rect.Misses
  omega

theorem clear_entering : source.IsClearOf ⟨finish.x - padding, finish.y⟩ finish ∧
    target.IsClearOf ⟨finish.x - padding, finish.y⟩ finish := by
  have hUnits := h.units_le
  rw [Rect.isClearOf_level, Rect.isClearOf_level]
  unfold Rect.Misses
  omega

variable {below : Float} (hSource : units source.bottom ≤ units below)
  (hTarget : units target.bottom ≤ units below)
include hSource hTarget

/-- The way down keeps a distance from the box it leaves only. -/
theorem clear_down_iff :
    source.IsClearOf ⟨start.x + padding, start.y⟩ ⟨start.x + padding, below⟩ ∧
    (target.IsClearOf ⟨start.x + padding, start.y⟩ ⟨start.x + padding, below⟩ ↔
      ¬ (start.x + padding < target.right ∧ start.y < target.bottom)) := by
  have hUnits := h.units_le
  have hStart := (le_add (isNumber_of_lt h.back).2 h.isFinite h.positive).1
  rw [Rect.isClearOf_upright, Rect.isClearOf_upright,
    lt_iff hStart (isNumber_of_lt h.target_isSolid.wide).2,
    lt_iff (isNumber_of_le h.starts.below_top).2 (isNumber_of_lt h.target_isSolid.high).2]
  unfold Rect.Misses
  omega

theorem clear_wayBack :
    source.IsClearOf ⟨start.x + padding, below⟩ ⟨finish.x - padding, below⟩ ∧
    target.IsClearOf ⟨start.x + padding, below⟩ ⟨finish.x - padding, below⟩ := by
  have hUnits := h.units_le
  rw [Rect.isClearOf_level, Rect.isClearOf_level]
  unfold Rect.Misses
  omega

/-- The way up keeps a distance from the box it comes to only. -/
theorem clear_up_iff :
    (source.IsClearOf ⟨finish.x - padding, below⟩ ⟨finish.x - padding, finish.y⟩ ↔
      ¬ (source.x < finish.x - padding ∧ finish.y < source.bottom)) ∧
    target.IsClearOf ⟨finish.x - padding, below⟩ ⟨finish.x - padding, finish.y⟩ := by
  have hUnits := h.units_le
  have hFinish := (sub_le (isNumber_of_lt h.back).1 h.isFinite h.positive).1
  rw [Rect.isClearOf_upright, Rect.isClearOf_upright,
    lt_iff (isNumber_of_lt h.source_isSolid.wide).1 hFinish,
    lt_iff (isNumber_of_le h.finishes.below_top).2 (isNumber_of_lt h.source_isSolid.high).2]
  unfold Rect.Misses
  omega

end DoublesBack

/-- A connector that doubles back cuts through a box in two cases only: on the way down through the
box of its target, which reaches further right than the turn and further down than the start, and
on the way up through the box of its source, which reaches further left than the turn and further
down than the finish. -/
theorem RoutingSettings.path_isClear_iff (s : RoutingSettings Float) {start finish : Point Float}
    {source target : Rect Float} (h : DoublesBack s.padding start finish source target) :
    ((s.path start finish source target).IsChain fun p q =>
      source.IsClearOf p q ∧ target.IsClearOf p q) ↔
      ¬ (start.x + s.padding < target.right ∧ start.y < target.bottom) ∧
      ¬ (source.x < finish.x - s.padding ∧ finish.y < source.bottom) := by
  obtain ⟨hSource, hTarget⟩ := h.le_wayBack
  obtain ⟨hDown, hDown_iff⟩ := h.clear_down_iff hSource hTarget
  obtain ⟨hUp_iff, hUp⟩ := h.clear_up_iff hSource hTarget
  rw [s.path_of_back source target h.back, ← hDown_iff, ← hUp_iff]
  simp only [List.isChain_cons_cons, List.isChain_singleton, and_true]
  constructor
  · rintro ⟨-, ⟨-, hDownTarget⟩, -, ⟨hUpSource, -⟩, -⟩
    exact ⟨hDownTarget, hUpSource⟩
  · rintro ⟨hDownTarget, hUpSource⟩
    exact ⟨h.clear_leaving, ⟨hDown, hDownTarget⟩, h.clear_wayBack hSource hTarget,
      ⟨hUpSource, hUp⟩, h.clear_entering⟩

/-- The connector of a box with one further down that begins further left passes both of them if
the lower box does not reach behind its turn. -/
theorem path_isClear_narrowBelow :
    let s : RoutingSettings Float := .standard
    let source : Rect Float := ⟨100, 0, 100, 50⟩
    let target : Rect Float := ⟨50, 100, 160, 40⟩
    DoublesBack s.padding ⟨200, 25⟩ ⟨50, 120⟩ source target ∧
    (s.path ⟨200, 25⟩ ⟨50, 120⟩ source target).IsChain fun p q =>
      source.IsClearOf p q ∧ target.IsClearOf p q := by
  intro s source target
  have hBack : DoublesBack s.padding ⟨200, 25⟩ ⟨50, 120⟩ source target :=
    .of_above (by decide +kernel)
  exact ⟨hBack, (s.path_isClear_iff hBack).2 (by decide +kernel)⟩

/-- Not every connector that doubles back keeps clear of both boxes: a wider box below its source is
cut through on the way down. -/
theorem not_forall_path_isClear :
    ¬ ∀ (s : RoutingSettings Float) (start finish : Point Float) (source target : Rect Float),
      DoublesBack s.padding start finish source target →
      (s.path start finish source target).IsChain fun p q =>
        source.IsClearOf p q ∧ target.IsClearOf p q := by
  intro hClear
  let s : RoutingSettings Float := .standard
  let source : Rect Float := ⟨100, 0, 100, 50⟩
  let target : Rect Float := ⟨50, 100, 400, 40⟩
  have hBack : DoublesBack s.padding ⟨200, 25⟩ ⟨50, 120⟩ source target :=
    .of_above (by decide +kernel)
  have hPath := hClear s ⟨200, 25⟩ ⟨50, 120⟩ source target hBack
  rw [s.path_of_back source target hBack.back] at hPath
  simp only [List.isChain_cons_cons] at hPath
  obtain ⟨-, ⟨-, hDown⟩, -⟩ := hPath
  obtain ⟨hSourceAbove, hTargetAbove⟩ := hBack.le_wayBack
  have hBeside := (hBack.clear_down_iff hSourceAbove hTargetAbove).2.1 hDown
  exact hBeside (by decide +kernel)

end ErDiagram
