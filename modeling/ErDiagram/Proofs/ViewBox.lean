import ErDiagram.Proofs.CanvasRun
import ErDiagram.Proofs.ExactNumbers

/-! What is in view of a drawing. Without rounding the bounds of a scene are the least rectangle
around its boxes, and the view box holds the origin, all boxes and all connectors with a margin. -/

namespace ErDiagram

open Coordinate

/-! ### The bounds of a scene -/

namespace Scene

/-- The rectangles of all boxes. -/
def rects {α : Type} (s : Scene α) : List (Rect α) := s.boxes.entries.map fun entry => entry.2.rect

/-- A rectangle holds all boxes, and each one that does so holds it. -/
structure IsBoundedBy (s : Scene ℚ) (bounds : Rect ℚ) : Prop where
  isProper : bounds.IsProper
  holds : ∀ r ∈ s.rects, r.region ⊆ bounds.region
  least : ∀ other : Rect ℚ, (∀ r ∈ s.rects, r.region ⊆ other.region) →
    bounds.region ⊆ other.region

variable {s : Scene ℚ} {bounds : Rect ℚ}

theorem bounds_of_nil (h : s.rects = []) : s.bounds = none := by
  rw [rects] at h
  rw [Scene.bounds, h]

theorem bounds_of_cons {first : Rect ℚ} {others : List (Rect ℚ)} (h : s.rects = first :: others) :
    s.bounds = some (.ofEdges
      (others.foldl (fun x r => lesser x r.x) first.x)
      (others.foldl (fun y r => lesser y r.y) first.y)
      (others.foldl (fun x r => greater x r.right) first.right)
      (others.foldl (fun y r => greater y r.bottom) first.bottom)) := by
  rw [rects] at h
  rw [Scene.bounds, h]
  rfl

theorem rects_eq_nil_iff : s.rects = [] ↔ s.boxes.keys = [] := by
  rw [NameMap.keys, rects, List.map_eq_nil_iff, List.map_eq_nil_iff]

theorem bounds_eq_none_iff : s.bounds = none ↔ s.boxes.keys = [] := by
  rw [← rects_eq_nil_iff]
  cases hRects : s.rects with
  | nil => simp [bounds_of_nil hRects]
  | cons first others => simp [bounds_of_cons hRects]

/-- Each edge of the bounds is an edge of a box, and no box reaches further. -/
structure HasEdges (s : Scene ℚ) (bounds : Rect ℚ) : Prop where
  left : IsLeast (Rect.x '' {r | r ∈ s.rects}) bounds.x
  top : IsLeast (Rect.y '' {r | r ∈ s.rects}) bounds.y
  right : IsGreatest (Rect.right '' {r | r ∈ s.rects}) bounds.right
  bottom : IsGreatest (Rect.bottom '' {r | r ∈ s.rects}) bounds.bottom

theorem bounds_hasEdges (h : s.bounds = some bounds) : s.HasEdges bounds := by
  cases hRects : s.rects with
  | nil =>
      rw [bounds_of_nil hRects] at h
      cases h
  | cons first others =>
      obtain rfl := Option.some.inj ((bounds_of_cons hRects).symm.trans h)
      refine ⟨?_, ?_, ?_, ?_⟩ <;> rw [hRects, image_mem_cons]
      · exact isLeast_foldl_lesser isLeast_singleton Rect.x others
      · exact isLeast_foldl_lesser isLeast_singleton Rect.y others
      · rw [Rect.right_ofEdges]
        exact isGreatest_foldl_greater isGreatest_singleton Rect.right others
      · rw [Rect.bottom_ofEdges]
        exact isGreatest_foldl_greater isGreatest_singleton Rect.bottom others

theorem HasEdges.isBoundedBy (h : s.HasEdges bounds) (hSizes : ∀ r ∈ s.rects, r.IsProper) :
    s.IsBoundedBy bounds := by
  have hWithin : ∀ r ∈ s.rects, r.region ⊆ bounds.region := fun r hr =>
    Rect.region_subset (h.left.2 (Set.mem_image_of_mem _ hr)) (h.top.2 (Set.mem_image_of_mem _ hr))
      (h.right.2 (Set.mem_image_of_mem _ hr)) (h.bottom.2 (Set.mem_image_of_mem _ hr))
  refine ⟨?_, hWithin, fun other hOther => ?_⟩
  · -- The bounds are as large as any box within them.
    obtain ⟨r, hr, -⟩ := h.left.1
    obtain ⟨⟨hLeft, hTop⟩, hRight, hBottom⟩ := (hSizes r hr).region_subset_iff.1 (hWithin r hr)
    have hWidth := (hSizes r hr).width
    have hHeight := (hSizes r hr).height
    rw [Rect.right_eq, Rect.right_eq] at hRight
    rw [Rect.bottom_eq, Rect.bottom_eq] at hBottom
    exact ⟨by linarith, by linarith⟩
  · have hEdges (r : Rect ℚ) (hr : r ∈ s.rects) := (hSizes r hr).region_subset_iff.1 (hOther r hr)
    apply Rect.region_subset
    · exact (le_isGLB_iff h.left.isGLB).2 (Set.forall_mem_image.2 fun r hr => (hEdges r hr).1.1)
    · exact (le_isGLB_iff h.top.isGLB).2 (Set.forall_mem_image.2 fun r hr => (hEdges r hr).1.2)
    · exact (isLUB_le_iff h.right.isLUB).2 (Set.forall_mem_image.2 fun r hr => (hEdges r hr).2.1)
    · exact (isLUB_le_iff h.bottom.isLUB).2 (Set.forall_mem_image.2 fun r hr => (hEdges r hr).2.2)

end Scene

/-! ### The view box -/

namespace Drawing

/-- The coordinates of the edges of all boxes and of the points of all connectors. -/
def reached (edge : Rect ℚ → ℚ) (coordinate : Point ℚ → ℚ) (d : Diagram ℚ) (s : Scene ℚ) :
    Set ℚ :=
  edge '' {r | r ∈ s.rects} ∪ coordinate '' {p | p ∈ d.connectors.flatMap Connector.points}

/-- A view starts at the origin, or at the margin before the least of the coordinates if one of them
is negative. -/
structure StartsBefore (coordinates : Set ℚ) (start : ℚ) : Prop where
  atOrigin : (∀ x ∈ coordinates, 0 ≤ x) → start = 0
  beforeLeast : (∃ x ∈ coordinates, x < 0) → IsLeast coordinates (start + margin)

/-- A view holds the origin, all boxes and all points of connectors. It has the margin on its right
and below, and on its left and above where it does not start at the origin. -/
structure ShowsAll (d : Diagram ℚ) (s : Scene ℚ) (view : Rect ℚ) : Prop where
  origin : (0, 0) ∈ view.region
  boxes : ∀ r ∈ s.rects, r.region ⊆ view.region
  points : ∀ c ∈ d.connectors, ∀ p ∈ c.points, (p.x, p.y) ∈ view.region
  right : ∀ x ∈ {0} ∪ reached Rect.right Point.x d s, x + margin ≤ view.right
  bottom : ∀ y ∈ {0} ∪ reached Rect.bottom Point.y d s, y + margin ≤ view.bottom
  left : StartsBefore (reached Rect.x Point.x d s) view.x
  top : StartsBefore (reached Rect.y Point.y d s) view.y

namespace Extent

/-- The sides of an extent are the outermost of these coordinates. -/
structure Spans (e : Extent ℚ) (lefts tops rights bottoms : Set ℚ) : Prop where
  minX : IsLeast lefts e.minX
  minY : IsLeast tops e.minY
  maxX : IsGreatest rights e.maxX
  maxY : IsGreatest bottoms e.maxY

theorem start_spans : Extent.start.Spans {0} {0} {0} {0} := by
  rw [Extent.start, zero_eq]
  exact ⟨isLeast_singleton, isLeast_singleton, isGreatest_singleton, isGreatest_singleton⟩

variable {e : Extent ℚ} {lefts tops rights bottoms : Set ℚ}

theorem Spans.addRect (h : e.Spans lefts tops rights bottoms) {s : Scene ℚ} {bounds : Rect ℚ}
    (hEdges : s.HasEdges bounds) :
    (e.addRect bounds).Spans (lefts ∪ Rect.x '' {r | r ∈ s.rects})
      (tops ∪ Rect.y '' {r | r ∈ s.rects}) (rights ∪ Rect.right '' {r | r ∈ s.rects})
      (bottoms ∪ Rect.bottom '' {r | r ∈ s.rects}) := by
  rw [Extent.addRect, lesser_eq_min, lesser_eq_min, greater_eq_max, greater_eq_max]
  exact ⟨h.minX.union hEdges.left, h.minY.union hEdges.top, h.maxX.union hEdges.right,
    h.maxY.union hEdges.bottom⟩

theorem foldl_addPoint (e : Extent ℚ) (ps : List (Point ℚ)) :
    ps.foldl Extent.addPoint e =
      ⟨ps.foldl (fun x p => lesser x p.x) e.minX,
        ps.foldl (fun y p => lesser y p.y) e.minY,
        ps.foldl (fun x p => greater x p.x) e.maxX,
        ps.foldl (fun y p => greater y p.y) e.maxY⟩ := by
  induction ps generalizing e with
  | nil => rfl
  | cons p ps ih => exact ih (e.addPoint p)

theorem Spans.addPoints (h : e.Spans lefts tops rights bottoms) (ps : List (Point ℚ)) :
    (ps.foldl Extent.addPoint e).Spans (lefts ∪ Point.x '' {p | p ∈ ps})
      (tops ∪ Point.y '' {p | p ∈ ps}) (rights ∪ Point.x '' {p | p ∈ ps})
      (bottoms ∪ Point.y '' {p | p ∈ ps}) := by
  rw [foldl_addPoint]
  exact ⟨isLeast_foldl_lesser h.minX _ ps, isLeast_foldl_lesser h.minY _ ps,
    isGreatest_foldl_greater h.maxX _ ps, isGreatest_foldl_greater h.maxY _ ps⟩

end Extent

/-- An extent reaches from the origin to all that is drawn. -/
theorem extent_spans (d : Diagram ℚ) (s : Scene ℚ) :
    (extent d s).Spans ({0} ∪ reached Rect.x Point.x d s) ({0} ∪ reached Rect.y Point.y d s)
      ({0} ∪ reached Rect.right Point.x d s) ({0} ∪ reached Rect.bottom Point.y d s) := by
  simp only [reached, ← Set.union_assoc]
  refine Extent.Spans.addPoints ?_ _
  cases hBounds : s.bounds with
  | some bounds => exact Extent.start_spans.addRect (Scene.bounds_hasEdges hBounds)
  | none =>
      have hRects := Scene.rects_eq_nil_iff.2 (Scene.bounds_eq_none_iff.1 hBounds)
      simpa [hRects] using Extent.start_spans

theorem margin_nonneg : (0 : ℚ) ≤ margin := Nat.cast_nonneg 64

/-- Where a view starts if this is the least coordinate. -/
def viewStart (least : ℚ) : ℚ := if least < zero then least - margin else zero

theorem viewStart_spec {coordinates : Set ℚ} {least : ℚ} (h : IsLeast ({0} ∪ coordinates) least) :
    StartsBefore coordinates (viewStart least) ∧ ∀ x ∈ {0} ∪ coordinates, viewStart least ≤ x := by
  have hMargin := margin_nonneg
  rw [viewStart, zero_eq]
  split
  · rename_i hNegative
    -- What is negative is not the origin.
    have hLeast : least ∈ coordinates := h.1.resolve_left (ne_of_lt hNegative)
    refine ⟨⟨fun hAll => absurd (hAll least hLeast) (not_le.2 hNegative), fun _ => ?_⟩,
      fun x hx => ?_⟩
    · rw [sub_add_cancel]
      exact ⟨hLeast, fun x hx => h.2 (Or.inr hx)⟩
    · have hBehind := h.2 hx
      linarith
  · rename_i hNotNegative
    have hStart : 0 ≤ least := not_lt.1 hNotNegative
    refine ⟨⟨fun _ => rfl, ?_⟩, fun x hx => hStart.trans (h.2 hx)⟩
    rintro ⟨x, hx, hNegative⟩
    exact absurd (hStart.trans (h.2 (Or.inr hx))) (not_le.2 hNegative)

theorem viewBox_eq (d : Diagram ℚ) (s : Scene ℚ) :
    viewBox d s = .ofEdges (viewStart (extent d s).minX) (viewStart (extent d s).minY)
      ((extent d s).maxX + margin) ((extent d s).maxY + margin) := rfl

theorem viewBox_showsAll (d : Diagram ℚ) (s : Scene ℚ) : ShowsAll d s (viewBox d s) := by
  have hSpans := extent_spans d s
  obtain ⟨hLeft, hLefts⟩ := viewStart_spec hSpans.minX
  obtain ⟨hTop, hTops⟩ := viewStart_spec hSpans.minY
  have hRights : ∀ x ∈ {0} ∪ reached Rect.right Point.x d s,
      x + margin ≤ (viewBox d s).right := by
    intro x hx
    rw [viewBox_eq, Rect.right_ofEdges]
    exact add_le_add_left (hSpans.maxX.2 hx) margin
  have hBottoms : ∀ y ∈ {0} ∪ reached Rect.bottom Point.y d s,
      y + margin ≤ (viewBox d s).bottom := by
    intro y hy
    rw [viewBox_eq, Rect.bottom_ofEdges]
    exact add_le_add_left (hSpans.maxY.2 hy) margin
  have hBefore (x : ℚ) : x ≤ x + margin := le_add_of_nonneg_right margin_nonneg
  refine ⟨?_, fun r hr => ?_, fun c hc p hp => ?_, hRights, hBottoms, hLeft, hTop⟩
  · have hOrigin {coordinates : Set ℚ} : 0 ∈ {0} ∪ coordinates := Or.inl rfl
    exact Rect.mem_region_iff.2 ⟨⟨hLefts 0 hOrigin, hTops 0 hOrigin⟩,
      (hBefore 0).trans (hRights 0 hOrigin), (hBefore 0).trans (hBottoms 0 hOrigin)⟩
  · have hBox (edge : Rect ℚ → ℚ) (coordinate : Point ℚ → ℚ) :
        edge r ∈ {0} ∪ reached edge coordinate d s := Or.inr (Or.inl ⟨r, hr, rfl⟩)
    exact Rect.region_subset (hLefts _ (hBox ..)) (hTops _ (hBox ..))
      ((hBefore _).trans (hRights _ (hBox ..))) ((hBefore _).trans (hBottoms _ (hBox ..)))
  · have hPoint (edge : Rect ℚ → ℚ) (coordinate : Point ℚ → ℚ) :
        coordinate p ∈ {0} ∪ reached edge coordinate d s :=
      Or.inr (Or.inr ⟨p, List.mem_flatMap.2 ⟨c, hc, hp⟩, rfl⟩)
    exact Rect.mem_region_iff.2 ⟨⟨hLefts _ (hPoint ..), hTops _ (hPoint ..)⟩,
      (hBefore _).trans (hRights _ (hPoint ..)), (hBefore _).trans (hBottoms _ (hPoint ..))⟩

end Drawing

/-- Without rounding, the bounds of a scene are the least rectangle around all its boxes if there
are any, and the view box of a drawing on it shows everything. -/
theorem drawing_isInView (d : Diagram ℚ) (s : Scene ℚ) (hSizes : ∀ r ∈ s.rects, r.IsProper) :
    (s.bounds = none ↔ s.boxes.keys = []) ∧
      (∀ bounds, s.bounds = some bounds → s.IsBoundedBy bounds) ∧
      Drawing.ShowsAll d s (Drawing.viewBox d s) :=
  ⟨Scene.bounds_eq_none_iff, fun _ hBounds => (Scene.bounds_hasEdges hBounds).isBoundedBy hSizes,
    Drawing.viewBox_showsAll d s⟩

/-- A table is dragged past the origin. The connector to it turns back still further left, and the
view starts at the margin before that turn. -/
theorem orders_inView_after_move :
    let c := ((Canvas.ofTables (.standard : Settings ℚ) ordersTables).applyMoves
      [⟨"user", -500, 10⟩]).1
    (∀ r ∈ c.scene.rects, r.IsProper) ∧
      c.scene.rects = [⟨64, 64, 176, 112⟩, ⟨-196, 74, 160, 56⟩] ∧
      c.scene.bounds = some ⟨-196, 64, 436, 112⟩ ∧
      c.scene.IsBoundedBy ⟨-196, 64, 436, 112⟩ ∧
      Drawing.viewBox c.diagram c.scene = ⟨-228 - 64, 0, 628, 272⟩ ∧
      Drawing.ShowsAll c.diagram c.scene ⟨-228 - 64, 0, 628, 272⟩ := by
  intro c
  have hRects : c.scene.rects = [⟨64, 64, 176, 112⟩, ⟨-196, 74, 160, 56⟩] := by decide +kernel
  have hBounds : c.scene.bounds = some ⟨-196, 64, 436, 112⟩ := by decide +kernel
  have hView : Drawing.viewBox c.diagram c.scene = ⟨-228 - 64, 0, 628, 272⟩ := by decide +kernel
  have hSizes : ∀ r ∈ c.scene.rects, r.IsProper := by
    rw [hRects]
    decide +kernel
  obtain ⟨-, hLeast, hShown⟩ := drawing_isInView c.diagram c.scene hSizes
  rw [hView] at hShown
  exact ⟨hSizes, hRects, hBounds, hLeast _ hBounds, hView, hShown⟩

end ErDiagram
