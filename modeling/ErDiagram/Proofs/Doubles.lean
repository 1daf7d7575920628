import ErDiagram.Coordinate
import ErDiagram.Proofs.Doubles.Rounding

/-! The order of doubles, and on which side of its summands a rounded sum is. -/

namespace ErDiagram.Double

open Float.Model
open Float.Model.UnpackedFloat hiding unpack pack

/-! ### Exact values -/

/-- The least number that is too large for a double. The infinities stand for it, with both
signs. -/
def range : Nat := magnitude (2 ^ 53) 971

theorem range_pos : 0 < range := magnitude_pos (by decide) _

theorem IsRounded.lt_range {m : Nat} {e : Int} (h : IsRounded m e) (he : e ≤ 971) :
    magnitude m e < range :=
  Nat.lt_of_lt_of_le h.magnitude_lt (magnitude_le (Nat.le_refl _) he)

theorem IsRounded.range_le {m : Nat} {e : Int} (h : IsRounded m e) (he : 971 < e) :
    range ≤ magnitude m e := by
  rw [range, magnitude_carry (by decide)]
  exact magnitude_le (h.isFull.resolve_right (by omega)) he

/-- The value in units of the least double. What is not a number counts as zero. -/
def unpackedUnits : UnpackedFloat → Int
  | .notANumber => 0
  | .infinity s => s.apply range
  | .zero _ => 0
  | .finite s m e _ => s.apply (magnitude m e)

/-- What the bits of a double can stand for. -/
def IsDouble : UnpackedFloat → Prop
  | .finite _ m e _ => IsRounded m e ∧ e ≤ 971
  | _ => True

theorem isDouble_unpack (x : Float.Model) : IsDouble x.unpack := by
  cases h : x.unpack with
  | finite s m e hm => exact isRounded_of_unpack h
  | _ => trivial

theorem some_lt {a b : Int} (h : a < b) : some .lt = some (compare a b) := by
  rw [compare_lt_iff_lt.2 h]

theorem some_gt {a b : Int} (h : b < a) : some .gt = some (compare a b) := by
  rw [compare_gt_iff_gt.2 h]

theorem compare_neg (a b : Int) : compare (-a) (-b) = compare b a := by
  have hAnti : StrictAnti fun n : Int => -n := fun _ _ => Int.neg_lt_neg
  simpa only [cmp_eq_compare] using hAnti.cmp_map_eq a b

theorem compare_magnitude {m m' : Nat} {e e' : Int} (h : IsRounded m e) (h' : IsRounded m' e') :
    (compare e e').then (compare m m') = compare (magnitude m e : Int) (magnitude m' e') := by
  have hLess := h.magnitude_lt_iff h'
  have hGreater := h'.magnitude_lt_iff h
  rcases lt_trichotomy e e' with he | rfl | he
  · have hMagnitude : (magnitude m e : Int) < magnitude m' e' := by omega
    rw [compare_lt_iff_lt.2 he, compare_lt_iff_lt.2 hMagnitude]
    rfl
  · rw [compare_eq_iff_eq.2 rfl]
    rcases lt_trichotomy m m' with hm | rfl | hm
    · have hMagnitude : (magnitude m e : Int) < magnitude m' e := by omega
      rw [compare_lt_iff_lt.2 hm, compare_lt_iff_lt.2 hMagnitude]
      rfl
    · rw [compare_eq_iff_eq.2 rfl, compare_eq_iff_eq.2 rfl]
      rfl
    · have hMagnitude : (magnitude m' e : Int) < magnitude m e := by omega
      rw [compare_gt_iff_gt.2 hm, compare_gt_iff_gt.2 hMagnitude]
      rfl
  · have hMagnitude : (magnitude m' e' : Int) < magnitude m e := by omega
    rw [compare_gt_iff_gt.2 he, compare_gt_iff_gt.2 hMagnitude]
    rfl

/-- Numbers compare as their values do. -/
theorem compare_eq {f g : UnpackedFloat} (hf : IsDouble f) (hg : IsDouble g)
    (hfNumber : f ≠ .notANumber) (hgNumber : g ≠ .notANumber) :
    f.compare g = some (compare (unpackedUnits f) (unpackedUnits g)) := by
  have hRange := range_pos
  cases f with
  | notANumber => exact absurd rfl hfNumber
  | infinity s =>
      cases g with
      | notANumber => exact absurd rfl hgNumber
      | infinity s' =>
          cases s <;> cases s'
          · exact (congrArg some (compare_eq_iff_eq.2 rfl)).symm
          · exact some_lt (by simp only [unpackedUnits, Sign.apply]; omega)
          · exact some_gt (by simp only [unpackedUnits, Sign.apply]; omega)
          · exact (congrArg some (compare_eq_iff_eq.2 rfl)).symm
      | zero s' =>
          cases s
          · exact some_lt (by simp only [unpackedUnits, Sign.apply]; omega)
          · exact some_gt (by simp only [unpackedUnits, Sign.apply]; omega)
      | finite s' m e hm =>
          have hLess := hg.1.lt_range hg.2
          cases s
          · exact some_lt (by cases s' <;> simp only [unpackedUnits, Sign.apply] <;> omega)
          · exact some_gt (by cases s' <;> simp only [unpackedUnits, Sign.apply] <;> omega)
  | zero s =>
      cases g with
      | notANumber => exact absurd rfl hgNumber
      | infinity s' =>
          cases s'
          · exact some_gt (by simp only [unpackedUnits, Sign.apply]; omega)
          · exact some_lt (by simp only [unpackedUnits, Sign.apply]; omega)
      | zero s' => exact (congrArg some (compare_eq_iff_eq.2 rfl)).symm
      | finite s' m e hm =>
          have hPos := magnitude_pos hm e
          cases s'
          · exact some_gt (by simp only [unpackedUnits, Sign.apply]; omega)
          · exact some_lt (by simp only [unpackedUnits, Sign.apply]; omega)
  | finite s m e hm =>
      have hPos := magnitude_pos hm e
      cases g with
      | notANumber => exact absurd rfl hgNumber
      | infinity s' =>
          have hLess := hf.1.lt_range hf.2
          cases s'
          · cases s <;> exact some_gt (by simp only [unpackedUnits, Sign.apply]; omega)
          · cases s <;> exact some_lt (by simp only [unpackedUnits, Sign.apply]; omega)
      | zero s' =>
          cases s
          · exact some_lt (by simp only [unpackedUnits, Sign.apply]; omega)
          · exact some_gt (by simp only [unpackedUnits, Sign.apply]; omega)
      | finite s' m' e' hm' =>
          have hPos' := magnitude_pos hm' e'
          have hMagnitude := compare_magnitude hf.1 hg.1
          cases s <;> cases s'
          · rw [unpackedUnits, unpackedUnits, Sign.apply, Sign.apply, compare_neg,
              ← Int.compare_swap, ← hMagnitude]
            rfl
          · exact some_lt (by simp only [unpackedUnits, Sign.apply]; omega)
          · exact some_gt (by simp only [unpackedUnits, Sign.apply]; omega)
          · exact congrArg some hMagnitude

/-! ### Rounded sums -/

/-- `f` is `n` rounded: it is beyond no double that `n` is not beyond. -/
structure IsRounding (n : Int) (f : UnpackedFloat) : Prop where
  isNumber : f ≠ .notANumber
  le_of_lt : ∀ {g}, IsDouble g → g.isFinite = true → unpackedUnits g < n →
    unpackedUnits g ≤ unpackedUnits f
  ge_of_lt : ∀ {g}, IsDouble g → g.isFinite = true → n < unpackedUnits g →
    unpackedUnits f ≤ unpackedUnits g

/-- A double is written and read back without a change. -/
theorem unpack_pack {f : UnpackedFloat} (hf : IsDouble f) (hFinite : f.isFinite = true) :
    (Float.Model.pack f).unpack = f := by
  cases f with
  | notANumber => cases hFinite
  | infinity s => cases hFinite
  | zero s => exact unpack_pack_zero s
  | finite s m e hm =>
      obtain ⟨hRounded, hRange⟩ := hf
      exact (unpack_pack_finite s hm hRounded).trans (if_neg (Int.not_lt.2 hRange))

theorem IsRounding.of_double {f : UnpackedFloat} (hf : IsDouble f) (hFinite : f.isFinite = true) :
    IsRounding (unpackedUnits f) (Float.Model.pack f).unpack := by
  rw [unpack_pack hf hFinite]
  exact {
    isNumber := fun h => by
      subst h
      cases hFinite
    le_of_lt := fun _ _ => Int.le_of_lt
    ge_of_lt := fun _ _ => Int.le_of_lt }

/-- Zero is a rounded number as well. -/
theorem exists_magnitude {g : UnpackedFloat} (hg : IsDouble g) (hFinite : g.isFinite = true) :
    ∃ (s : Sign) (m : Nat) (e : Int), IsRounded m e ∧ e ≤ 971 ∧
      unpackedUnits g = s.apply (magnitude m e) := by
  cases g with
  | notANumber => cases hFinite
  | infinity s => cases hFinite
  | zero s =>
      have hRounded : IsRounded 0 (-1074) := ⟨by decide, Int.le_refl _, Or.inr rfl⟩
      have hZero : magnitude 0 (-1074) = 0 := Nat.zero_mul _
      exact ⟨.positive, 0, -1074, hRounded, by decide, by rw [hZero]; rfl⟩
  | finite s m e hm => exact ⟨s, m, e, hg.1, hg.2, rfl⟩

/-- What is too large is read back as infinite. -/
theorem unpackedUnits_pack (s : Sign) {m : Nat} {e : Int} (hm : 0 < m) (h : IsRounded m e) :
    let f := (Float.Model.pack (.finite s m e hm)).unpack
    f ≠ .notANumber ∧ unpackedUnits f = s.apply (min (magnitude m e) range : Nat) := by
  intro f
  have hRead : f = if 971 < e then .infinity s else .finite s m e hm := unpack_pack_finite s hm h
  rw [hRead]
  split
  · rename_i hLarge
    rw [Nat.min_eq_right (h.range_le hLarge)]
    exact ⟨UnpackedFloat.noConfusion, rfl⟩
  · rename_i hSmall
    rw [Nat.min_eq_left (Nat.le_of_lt (h.lt_range (Int.not_lt.1 hSmall)))]
    exact ⟨UnpackedFloat.noConfusion, rfl⟩

theorem isRounding_round (s : Sign) {m : Nat} {e : Int} (hm : 0 < m) (he : -1074 ≤ e) :
    IsRounding (s.apply (magnitude m e))
      (Float.Model.pack (UnpackedFloat.round .binary64 s m e)).unpack := by
  obtain ⟨m', e', hm', hRounds, hRound⟩ := round_eq hm he
  obtain ⟨hNumber, hUnits⟩ := unpackedUnits_pack s hm' hRounds.isRounded
  rw [hRound s]
  have hBeside {g : UnpackedFloat} (hg : IsDouble g) (hFinite : g.isFinite = true) :
      (unpackedUnits g < s.apply (magnitude m e) →
        unpackedUnits g ≤ s.apply (min (magnitude m' e') range : Nat)) ∧
      (s.apply (magnitude m e) < unpackedUnits g →
        s.apply (min (magnitude m' e') range : Nat) ≤ unpackedUnits g) := by
    obtain ⟨s', a, b, ha, hb, hg⟩ := exists_magnitude hg hFinite
    have hRange := ha.lt_range hb
    have hLow := hRounds.le_of_lt ha
    have hHigh := hRounds.ge_of_lt ha (magnitude_pos hm e)
    rw [hg]
    cases s <;> cases s' <;> simp only [Sign.apply] <;> omega
  rw [← hUnits] at hBeside
  exact ⟨hNumber, fun hg hFinite => (hBeside hg hFinite).1,
    fun hg hFinite => (hBeside hg hFinite).2⟩

theorem isRounding_normalize (z : Sign) {m e : Int} (he : -1074 ≤ e) :
    IsRounding (m * (2 ^ (e + 1074).toNat : Nat))
      (Float.Model.pack (UnpackedFloat.normalize .binary64 m e z)).unpack := by
  rcases Int.lt_trichotomy m 0 with hm | rfl | hm
  · obtain ⟨n, rfl⟩ := Int.exists_eq_neg_ofNat hm.le
    rw [UnpackedFloat.normalize, compare_lt_iff_lt.2 hm, Int.neg_neg, Int.toNat_natCast,
      Int.neg_mul]
    exact isRounding_round .negative (by omega) he
  · rw [UnpackedFloat.normalize, compare_eq_iff_eq.2 rfl, Int.zero_mul]
    exact .of_double (f := .zero z) trivial rfl
  · obtain ⟨n, rfl⟩ := Int.eq_ofNat_of_zero_le hm.le
    rw [UnpackedFloat.normalize, compare_gt_iff_gt.2 hm, Int.toNat_natCast]
    exact isRounding_round .positive (by omega) he

theorem apply_mul (s : Sign) (n k : Int) : s.apply n * k = s.apply (n * k) := by
  cases s with
  | negative => exact Int.neg_mul ..
  | positive => rfl

/-- A finite number, its exponent brought down to a lesser one. -/
theorem apply_shiftLeft (s : Sign) {m : Nat} {e least : Int} (he : least ≤ e)
    (hLeast : -1074 ≤ least) :
    s.apply (m <<< (e - least).toNat : Nat) * (2 ^ (least + 1074).toNat : Nat) =
      s.apply (magnitude m e) := by
  have hShift : e - (e - least).toNat = least := by omega
  rw [apply_mul, ← magnitude_shiftLeft m (e - least).toNat (by omega), hShift, magnitude,
    Int.natCast_mul]

/-- Sums are rounded. -/
theorem isRounding_add {f g : UnpackedFloat} (hf : IsDouble f) (hg : IsDouble g)
    (hfFinite : f.isFinite = true) (hgFinite : g.isFinite = true) :
    IsRounding (unpackedUnits f + unpackedUnits g)
      (Float.Model.pack (UnpackedFloat.add .binary64 f g)).unpack := by
  cases f with
  | notANumber => cases hfFinite
  | infinity s => cases hfFinite
  | zero s =>
      rw [unpackedUnits, Int.zero_add]
      cases g with
      | notANumber => cases hgFinite
      | infinity s' => cases hgFinite
      | zero s' =>
          have hZero : ∃ z, UnpackedFloat.add .binary64 (.zero s) (.zero s') = .zero z := by
            cases s <;> cases s' <;> exact ⟨_, rfl⟩
          obtain ⟨z, hz⟩ := hZero
          rw [hz]
          exact .of_double (f := .zero z) trivial rfl
      | finite s' m e hm => exact .of_double hg rfl
  | finite s m e hm =>
      cases g with
      | notANumber => cases hgFinite
      | infinity s' => cases hgFinite
      | zero s' =>
          rw [unpackedUnits, unpackedUnits, Int.add_zero]
          exact .of_double hf rfl
      | finite s' m' e' hm' =>
          have hLeast : -1074 ≤ min e e' := Int.le_min.2 ⟨hf.1.le_exponent, hg.1.le_exponent⟩
          rw [unpackedUnits, unpackedUnits, ← apply_shiftLeft s (Int.min_le_left e e') hLeast,
            ← apply_shiftLeft s' (Int.min_le_right e e') hLeast, ← Int.add_mul]
          exact isRounding_normalize .positive hLeast

/-- A sum is on the same side of its first summand as it would be without rounding, or equal to
it. -/
theorem add_beside {f g : UnpackedFloat} (hf : IsDouble f) (hg : IsDouble g)
    (hNumber : f ≠ .notANumber) (hgFinite : g.isFinite = true) :
    let r := (Float.Model.pack (UnpackedFloat.add .binary64 f g)).unpack
    r ≠ .notANumber ∧ (0 < unpackedUnits g → unpackedUnits f ≤ unpackedUnits r) ∧
      (unpackedUnits g < 0 → unpackedUnits r ≤ unpackedUnits f) := by
  intro r
  by_cases hfFinite : f.isFinite = true
  · have hRounding := isRounding_add hf hg hfFinite hgFinite
    exact ⟨hRounding.isNumber, fun hPos => hRounding.le_of_lt hf hfFinite (by omega),
      fun hNeg => hRounding.ge_of_lt hf hfFinite (by omega)⟩
  · obtain ⟨s, rfl⟩ : ∃ s, f = .infinity s := by
      cases f with
      | notANumber => exact absurd rfl hNumber
      | infinity s => exact ⟨s, rfl⟩
      | _ => exact absurd rfl hfFinite
    have hSame : UnpackedFloat.add .binary64 (.infinity s) g = .infinity s := by
      cases g with
      | notANumber => cases hgFinite
      | infinity s' => cases hgFinite
      | _ => rfl
    have hr : r = .infinity s := by
      rw [← unpack_pack_infinity s, ← hSame]
      rfl
    rw [hr]
    exact ⟨hNumber, fun _ => Int.le_refl _, fun _ => Int.le_refl _⟩

theorem apply_neg (s : Sign) (n : Int) : (-s).apply n = -s.apply n := by
  cases s with
  | negative => exact (Int.neg_neg n).symm
  | positive => rfl

theorem sub_eq_add_neg (format : Format) (f g : UnpackedFloat) :
    UnpackedFloat.sub format f g = UnpackedFloat.add format f g.neg := by
  cases f with
  | notANumber => rfl
  | infinity s => cases g <;> rfl
  | zero s => cases g <;> rfl
  | finite s m e hm =>
      cases g with
      | finite s' m' e' hm' =>
          simp only [UnpackedFloat.sub, UnpackedFloat.add, UnpackedFloat.neg, apply_neg,
            Int.sub_eq_add_neg]
      | _ => rfl

theorem unpackedUnits_neg (f : UnpackedFloat) : unpackedUnits f.neg = -unpackedUnits f := by
  cases f with
  | notANumber => rfl
  | zero s => rfl
  | infinity s => exact apply_neg s _
  | finite s m e hm => exact apply_neg s _

theorem isDouble_neg {f : UnpackedFloat} (hf : IsDouble f) : IsDouble f.neg := by
  cases f with
  | finite s m e hm => exact hf
  | _ => trivial

theorem isFinite_neg (f : UnpackedFloat) : f.neg.isFinite = f.isFinite := by cases f <;> rfl

/-! ### Doubles -/

/-- The value of a double in units of the least positive one. -/
def units (x : Float) : Int := unpackedUnits x.toModel.unpack

def IsNumber (x : Float) : Prop := x.toModel.unpack ≠ .notANumber

section Order

variable {x y : Float}

theorem lt_iff_compare : x < y ↔ x.toModel.unpack.compare y.toModel.unpack = some .lt :=
  decide_eq_true_iff.trans beq_iff_eq

theorem le_iff_compare :
    x ≤ y ↔ (x.toModel.unpack.compare y.toModel.unpack).any (·.isLE) = true :=
  decide_eq_true_iff

theorem beq_iff_compare :
    (x == y) = true ↔ x.toModel.unpack.compare y.toModel.unpack = some .eq := by
  show (x.toModel.unpack.compare y.toModel.unpack == some .eq) = true ↔ _
  rw [beq_iff_eq]

theorem compare_units (hx : IsNumber x) (hy : IsNumber y) :
    x.toModel.unpack.compare y.toModel.unpack = some (compare (units x) (units y)) :=
  compare_eq (isDouble_unpack _) (isDouble_unpack _) hx hy

/-- What can be compared are numbers. -/
theorem isNumber_of_compare {o : Ordering}
    (h : x.toModel.unpack.compare y.toModel.unpack = some o) : IsNumber x ∧ IsNumber y := by
  refine ⟨fun hx => ?_, fun hy => ?_⟩
  · rw [hx] at h
    cases h
  · rw [hy] at h
    cases hx : x.toModel.unpack <;> rw [hx] at h <;> cases h

theorem lt_iff (hx : IsNumber x) (hy : IsNumber y) : x < y ↔ units x < units y := by
  rw [lt_iff_compare, compare_units hx hy, Option.some_inj, compare_lt_iff_lt]

theorem le_iff (hx : IsNumber x) (hy : IsNumber y) : x ≤ y ↔ units x ≤ units y := by
  rw [le_iff_compare, compare_units hx hy, Option.any_some, Int.isLE_compare]

theorem beq_iff (hx : IsNumber x) (hy : IsNumber y) : (x == y) = true ↔ units x = units y := by
  rw [beq_iff_compare, compare_units hx hy, Option.some_inj, compare_eq_iff_eq]

theorem isNumber_of_lt (h : x < y) : IsNumber x ∧ IsNumber y :=
  isNumber_of_compare (lt_iff_compare.1 h)

theorem isNumber_of_le (h : x ≤ y) : IsNumber x ∧ IsNumber y := by
  rw [le_iff_compare] at h
  cases hOrder : x.toModel.unpack.compare y.toModel.unpack with
  | none =>
      rw [hOrder] at h
      cases h
  | some o => exact isNumber_of_compare hOrder

theorem units_le_of_le (h : x ≤ y) : units x ≤ units y := by
  obtain ⟨hx, hy⟩ := isNumber_of_le h
  exact (le_iff hx hy).1 h

theorem isNumber_of_beq (h : (x == y) = true) : IsNumber x ∧ IsNumber y :=
  isNumber_of_compare (beq_iff_compare.1 h)

end Order

section Distance

variable {x distance : Float}

theorem units_pos (hPositive : 0 < distance) : 0 < units distance := by
  obtain ⟨hZero, hNumber⟩ := isNumber_of_lt hPositive
  exact (lt_iff hZero hNumber).1 hPositive

variable (hx : IsNumber x) (hFinite : distance.isFinite = true) (hPositive : 0 < distance)

include hx hFinite hPositive

/-- Rounding may swallow a positive distance, but not turn it around. -/
theorem le_add : IsNumber (x + distance) ∧ units x ≤ units (x + distance) := by
  obtain ⟨hNumber, hRight, -⟩ :=
    add_beside (isDouble_unpack x.toModel) (isDouble_unpack distance.toModel) hx hFinite
  exact ⟨hNumber, hRight (units_pos hPositive)⟩

/-- Rounding may swallow a positive distance, but not turn it around. -/
theorem sub_le : IsNumber (x - distance) ∧ units (x - distance) ≤ units x := by
  obtain ⟨hNumber, -, hLeft⟩ :=
    add_beside (isDouble_unpack x.toModel) (isDouble_neg (isDouble_unpack distance.toModel)) hx
      ((isFinite_neg _).trans hFinite)
  rw [← sub_eq_add_neg] at hNumber hLeft
  refine ⟨hNumber, hLeft ?_⟩
  rw [unpackedUnits_neg]
  exact Int.neg_neg_of_pos (units_pos hPositive)

end Distance

end ErDiagram.Double
