import Mathlib.Analysis.Real.Sqrt
import RobocupDrone.Library.Numerals

/-! Three-dimensional vectors with an exact squared length, and the length it stands for. -/

namespace Geometry

structure Vec3 (α : Type*) where
  x : α
  y : α
  z : α
  deriving DecidableEq, Repr

inductive Axis
  | x
  | y
  | z
  deriving DecidableEq, Repr

instance Axis.decidableForall {P : Axis → Prop} [DecidablePred P] : Decidable (∀ axis, P axis) :=
  decidable_of_iff (P .x ∧ P .y ∧ P .z)
    ⟨fun each axis => by cases axis <;> simp only [each], fun every => ⟨every _, every _, every _⟩⟩

namespace Vec3

variable {α : Type*}

instance [Zero α] : Zero (Vec3 α) := ⟨⟨0, 0, 0⟩⟩

instance [Add α] : Add (Vec3 α) := ⟨fun a b => ⟨a.x + b.x, a.y + b.y, a.z + b.z⟩⟩

instance [Sub α] : Sub (Vec3 α) := ⟨fun a b => ⟨a.x - b.x, a.y - b.y, a.z - b.z⟩⟩

instance [Mul α] : SMul α (Vec3 α) := ⟨fun c v => ⟨c * v.x, c * v.y, c * v.z⟩⟩

instance [Div α] : HDiv (Vec3 α) α (Vec3 α) := ⟨fun v c => ⟨v.x / c, v.y / c, v.z / c⟩⟩

@[simp] theorem add_z [Add α] (a b : Vec3 α) : (a + b).z = a.z + b.z := rfl

@[simp] theorem smul_z [Mul α] (c : α) (v : Vec3 α) : (c • v).z = c * v.z := rfl

@[simp] theorem zero_z [Zero α] : (0 : Vec3 α).z = 0 := rfl

def normSq [Add α] [Mul α] (v : Vec3 α) : α := v.x * v.x + v.y * v.y + v.z * v.z

def dot [Add α] [Mul α] (a b : Vec3 α) : α := a.x * b.x + a.y * b.y + a.z * b.z

def cross [Sub α] [Mul α] (a b : Vec3 α) : Vec3 α :=
  ⟨a.y * b.z - a.z * b.y, a.z * b.x - a.x * b.z, a.x * b.y - a.y * b.x⟩

theorem normSq_vertical [Ring α] (x y z w : α) :
    ((⟨x, y, z⟩ : Vec3 α) - ⟨x, y, w⟩).normSq = (z - w) * (z - w) := by
  change (x - x) * (x - x) + (y - y) * (y - y) + (z - w) * (z - w) = (z - w) * (z - w)
  simp

section Axes

def get (v : Vec3 α) : Axis → α
  | .x => v.x
  | .y => v.y
  | .z => v.z

def ofAxes (f : Axis → α) : Vec3 α := ⟨f .x, f .y, f .z⟩

@[simp] theorem get_ofAxes (f : Axis → α) (axis : Axis) : (ofAxes f).get axis = f axis := by
  cases axis <;> rfl

@[simp] theorem get_add [Add α] (a b : Vec3 α) (axis : Axis) :
    (a + b).get axis = a.get axis + b.get axis := by
  cases axis <;> rfl

@[simp] theorem get_sub [Sub α] (a b : Vec3 α) (axis : Axis) :
    (a - b).get axis = a.get axis - b.get axis := by
  cases axis <;> rfl

@[simp] theorem get_smul [Mul α] (c : α) (v : Vec3 α) (axis : Axis) :
    (c • v).get axis = c * v.get axis := by
  cases axis <;> rfl

@[simp] theorem get_div [Div α] (v : Vec3 α) (c : α) (axis : Axis) :
    (v / c).get axis = v.get axis / c := by
  cases axis <;> rfl

theorem ext_get {a b : Vec3 α} (same : ∀ axis, a.get axis = b.get axis) : a = b := by
  cases a
  cases b
  have on_x := same .x
  have on_y := same .y
  have on_z := same .z
  simp only [get] at on_x on_y on_z
  rw [on_x, on_y, on_z]

instance [Neg α] : Neg (Vec3 α) := ⟨fun v => ⟨-v.x, -v.y, -v.z⟩⟩

@[simp] theorem get_neg [Neg α] (v : Vec3 α) (axis : Axis) : (-v).get axis = -v.get axis := by
  cases axis <;> rfl

@[simp] theorem get_zero [Zero α] (axis : Axis) : (0 : Vec3 α).get axis = 0 := by
  cases axis <;> rfl

instance [AddCommGroup α] : AddCommGroup (Vec3 α) where
  add_assoc a b c := ext_get fun axis => by simp [add_assoc]
  zero_add v := ext_get fun axis => by simp
  add_zero v := ext_get fun axis => by simp
  add_comm a b := ext_get fun axis => by simp [add_comm]
  sub_eq_add_neg a b := ext_get fun axis => by simp [sub_eq_add_neg]
  neg_add_cancel v := ext_get fun axis => by simp
  nsmul := nsmulRec
  zsmul := zsmulRec

instance [Ring α] : Module α (Vec3 α) where
  one_smul v := ext_get fun axis => by simp
  mul_smul a b v := ext_get fun axis => by simp [mul_assoc]
  smul_zero a := ext_get fun axis => by simp
  smul_add a v w := ext_get fun axis => by simp [mul_add]
  add_smul a b v := ext_get fun axis => by simp [add_mul]
  zero_smul v := ext_get fun axis => by simp

def coordinate [Ring α] (axis : Axis) : Vec3 α →ₗ[α] α where
  toFun v := v.get axis
  map_add' v w := get_add v w axis
  map_smul' c v := get_smul c v axis

theorem exists_get_ne {a b : Vec3 α} (different : a ≠ b) : ∃ axis, a.get axis ≠ b.get axis := by
  by_contra none_differs
  push Not at none_differs
  exact different (ext_get none_differs)

def along [Zero α] (axis : Axis) (a : α) : Vec3 α :=
  ofAxes fun other => if other = axis then a else 0

@[simp] theorem get_along [Zero α] (axis other : Axis) (a : α) :
    (along axis a).get other = if other = axis then a else 0 :=
  get_ofAxes _ _

theorem smul_along [MulZeroClass α] (c : α) (axis : Axis) (a : α) :
    c • along axis a = along axis (c * a) := by
  apply ext_get
  intro other
  simp [mul_ite]

@[simp] theorem add_along_zero [AddZeroClass α] (v : Vec3 α) (axis : Axis) :
    v + along axis 0 = v := by
  apply ext_get
  intro other
  simp

theorem add_sub_self [AddCommGroup α] (a b : Vec3 α) : a + b - a = b := by
  apply ext_get
  intro axis
  simp

theorem normSq_along [Ring α] (axis : Axis) (a : α) : (along axis a).normSq = a * a := by
  cases axis <;> simp [along, ofAxes, normSq]

end Axes

section Dot

variable [CommRing α]

theorem dot_comm (a b : Vec3 α) : a.dot b = b.dot a := by
  simp only [dot, mul_comm]

theorem add_dot (a b n : Vec3 α) : (a + b).dot n = a.dot n + b.dot n := by
  change (a.x + b.x) * n.x + (a.y + b.y) * n.y + (a.z + b.z) * n.z = _
  rw [dot, dot]
  ring

theorem sub_dot (a b n : Vec3 α) : (a - b).dot n = a.dot n - b.dot n := by
  change (a.x - b.x) * n.x + (a.y - b.y) * n.y + (a.z - b.z) * n.z = _
  rw [dot, dot]
  ring

theorem smul_dot (c : α) (a n : Vec3 α) : (c • a).dot n = c * a.dot n := by
  change c * a.x * n.x + c * a.y * n.y + c * a.z * n.z = _
  rw [dot]
  ring

end Dot

abbrev Matrix3 (α : Type*) := Axis → Vec3 α

def mulVec [Add α] [Mul α] (m : Matrix3 α) (v : Vec3 α) : Vec3 α :=
  ofAxes fun axis => (m axis).dot v

theorem mulVec_smul [CommRing α] (m : Matrix3 α) (c : α) (v : Vec3 α) :
    mulVec m (c • v) = c • mulVec m v := by
  apply ext_get
  intro axis
  rw [mulVec, mulVec, get_ofAxes, get_smul, get_ofAxes, dot_comm, smul_dot, dot_comm]

/-- The direction of a vector, by the given square root; zero is left as it is. -/
def normalizedBy [Field α] [LinearOrder α] (sqrt : α → α) (v : Vec3 α) : Vec3 α :=
  if 0 < v.normSq then v / sqrt v.normSq else v

section ExactRoots

variable {sqrt : α → α} [CommRing α]

section

variable [LinearOrder α] [IsStrictOrderedRing α]

theorem get_mul_self_le (v : Vec3 α) (axis : Axis) : v.get axis * v.get axis ≤ v.normSq := by
  have x_part := mul_self_nonneg v.x
  have y_part := mul_self_nonneg v.y
  have z_part := mul_self_nonneg v.z
  cases axis <;> simp only [get, normSq] <;> linarith

theorem normSq_nonneg (v : Vec3 α) : 0 ≤ v.normSq :=
  le_trans (mul_self_nonneg (v.get .x)) (v.get_mul_self_le .x)

/-- A square root that is exact on every non-negative number. -/
structure IsSqrt (sqrt : α → α) : Prop where
  nonneg : ∀ {a}, 0 ≤ a → 0 ≤ sqrt a
  mul_self : ∀ {a}, 0 ≤ a → sqrt a * sqrt a = a

/-- What rounded roots still have. -/
structure IsRoundedSqrt (sqrt : α → α) : Prop where
  zero : sqrt 0 = 0
  pos : ∀ {a}, 0 < a → 0 < sqrt a

theorem IsSqrt.rounded (exact : IsSqrt sqrt) : IsRoundedSqrt sqrt where
  zero := mul_self_eq_zero.mp (exact.mul_self le_rfl)
  pos positive := by
    refine (exact.nonneg positive.le).lt_of_ne fun zero => ?_
    have whole := exact.mul_self positive.le
    rw [← zero, mul_zero] at whole
    exact positive.ne whole

def lengthBy (sqrt : α → α) (v : Vec3 α) : α := sqrt v.normSq

theorem IsSqrt.le_iff (exact : IsSqrt sqrt) {a b : α} (a_nonneg : 0 ≤ a) (b_nonneg : 0 ≤ b) :
    sqrt a ≤ b ↔ a ≤ b * b := by
  have squares := mul_self_le_mul_self_iff (exact.nonneg a_nonneg) b_nonneg
  rwa [exact.mul_self a_nonneg] at squares

theorem lengthBy_nonneg (exact : IsSqrt sqrt) (v : Vec3 α) : 0 ≤ v.lengthBy sqrt :=
  exact.nonneg v.normSq_nonneg

theorem abs_get_le_lengthBy (exact : IsSqrt sqrt) (v : Vec3 α) (axis : Axis) :
    |v.get axis| ≤ v.lengthBy sqrt := by
  apply abs_le_of_sq_le_sq _ (lengthBy_nonneg exact v)
  rw [sq, sq, lengthBy, exact.mul_self v.normSq_nonneg]
  exact v.get_mul_self_le axis

theorem lengthBy_along (exact : IsSqrt sqrt) (axis : Axis) (a : α) :
    (along axis a).lengthBy sqrt = |a| := by
  have square : (along axis a).lengthBy sqrt * (along axis a).lengthBy sqrt = |a| * |a| := by
    rw [lengthBy, exact.mul_self (normSq_nonneg _), normSq_along, abs_mul_abs_self]
  exact (mul_self_inj (lengthBy_nonneg exact _) (abs_nonneg a)).mp square

theorem lengthBy_mul_self (exact : IsSqrt sqrt) (v : Vec3 α) :
    v.lengthBy sqrt * v.lengthBy sqrt = v.normSq :=
  exact.mul_self v.normSq_nonneg

theorem lengthBy_zero (exact : IsSqrt sqrt) : (0 : Vec3 α).lengthBy sqrt = 0 := by
  have square := lengthBy_mul_self exact (0 : Vec3 α)
  have zero : (0 : Vec3 α).normSq = 0 := by
    change (0 : α) * 0 + 0 * 0 + 0 * 0 = 0
    ring
  rw [zero] at square
  exact mul_self_eq_zero.mp square

theorem lengthBy_smul (exact : IsSqrt sqrt) (c : α) (v : Vec3 α) :
    (c • v).lengthBy sqrt = |c| * v.lengthBy sqrt := by
  have square : (c • v).normSq = (c * c) * v.normSq := by
    change c * v.x * (c * v.x) + c * v.y * (c * v.y) + c * v.z * (c * v.z) = _
    rw [normSq]
    ring
  apply (mul_self_inj (lengthBy_nonneg exact _)
    (mul_nonneg (abs_nonneg c) (lengthBy_nonneg exact v))).mp
  rw [lengthBy_mul_self exact, square, mul_mul_mul_comm, abs_mul_abs_self,
    lengthBy_mul_self exact]

theorem lengthBy_le_iff (exact : IsSqrt sqrt) (v : Vec3 α) {c : α} (nonneg : 0 ≤ c) :
    v.lengthBy sqrt ≤ c ↔ v.normSq ≤ c * c :=
  exact.le_iff v.normSq_nonneg nonneg

theorem eq_zero_of_lengthBy_eq_zero (exact : IsSqrt sqrt) {v : Vec3 α}
    (zero : v.lengthBy sqrt = 0) : v = 0 := by
  have square := lengthBy_mul_self exact v
  rw [zero, mul_zero] at square
  apply ext_get
  intro axis
  rw [get_zero]
  exact mul_self_eq_zero.mp
    (le_antisymm ((v.get_mul_self_le axis).trans_eq square.symm) (mul_self_nonneg _))

theorem dot_le_lengthBy_mul (exact : IsSqrt sqrt) (a b : Vec3 α) :
    a.dot b ≤ a.lengthBy sqrt * b.lengthBy sqrt := by
  have product : (a.lengthBy sqrt * b.lengthBy sqrt) ^ 2 = a.normSq * b.normSq := by
    rw [mul_pow, sq, sq, lengthBy_mul_self exact, lengthBy_mul_self exact]
  have squares : a.dot b ^ 2 + (a.cross b).normSq = a.normSq * b.normSq := by
    simp only [dot, cross, normSq]
    ring
  have rest := (a.cross b).normSq_nonneg
  apply le_trans (le_abs_self _)
  apply abs_le_of_sq_le_sq _ (mul_nonneg (lengthBy_nonneg exact a) (lengthBy_nonneg exact b))
  linarith

theorem lengthBy_add_le (exact : IsSqrt sqrt) (a b : Vec3 α) :
    (a + b).lengthBy sqrt ≤ a.lengthBy sqrt + b.lengthBy sqrt := by
  have sum := add_nonneg (lengthBy_nonneg exact a) (lengthBy_nonneg exact b)
  have product := dot_le_lengthBy_mul exact a b
  have first := lengthBy_mul_self exact a
  have second := lengthBy_mul_self exact b
  have square : (a + b).normSq = a.normSq + 2 * a.dot b + b.normSq := by
    change (a.x + b.x) * (a.x + b.x) + (a.y + b.y) * (a.y + b.y) + (a.z + b.z) * (a.z + b.z) = _
    rw [normSq, normSq, dot]
    ring
  rw [lengthBy_le_iff exact _ sum, square]
  linarith

theorem lengthBy_le_sum (exact : IsSqrt sqrt) (v : Vec3 α) :
    v.lengthBy sqrt ≤ |v.get .x| + |v.get .y| + |v.get .z| := by
  have split : v = along .x (v.get .x) + along .y (v.get .y) + along .z (v.get .z) := by
    apply ext_get
    intro axis
    cases axis <;> simp
  have outer := lengthBy_add_le exact (along .x (v.get .x) + along .y (v.get .y))
    (along .z (v.get .z))
  have inner := lengthBy_add_le exact (along .x (v.get .x)) (along .y (v.get .y))
  rw [← split, lengthBy_along exact] at outer
  rw [lengthBy_along exact, lengthBy_along exact] at inner
  linarith

end

theorem lengthBy_sub_comm (sqrt : α → α) (a b : Vec3 α) :
    (a - b).lengthBy sqrt = (b - a).lengthBy sqrt := by
  have square : (a - b).normSq = (b - a).normSq := by
    change (a.x - b.x) * (a.x - b.x) + (a.y - b.y) * (a.y - b.y) + (a.z - b.z) * (a.z - b.z) =
      (b.x - a.x) * (b.x - a.x) + (b.y - a.y) * (b.y - a.y) + (b.z - a.z) * (b.z - a.z)
    ring
  rw [lengthBy, lengthBy, square]

end ExactRoots

section Directions

variable [Field α] [LinearOrder α] [IsStrictOrderedRing α] {sqrt : α → α}

theorem normSq_eq_zero_iff {v : Vec3 α} : v.normSq = 0 ↔ v = 0 := by
  constructor
  · intro zero
    apply ext_get
    intro axis
    have square := v.get_mul_self_le axis
    rw [zero] at square
    rw [get_zero, mul_self_eq_zero.mp (le_antisymm square (mul_self_nonneg _))]
  · intro zero
    rw [zero]
    change (0 : α) * 0 + 0 * 0 + 0 * 0 = 0
    ring

theorem normSq_pos {v : Vec3 α} (nonzero : v ≠ 0) : 0 < v.normSq :=
  lt_of_le_of_ne v.normSq_nonneg fun zero => nonzero (normSq_eq_zero_iff.mp zero.symm)

theorem lengthBy_pos (exact : IsSqrt sqrt) {v : Vec3 α} (nonzero : v ≠ 0) : 0 < v.lengthBy sqrt :=
  lt_of_le_of_ne (lengthBy_nonneg exact v) fun zero =>
    nonzero (eq_zero_of_lengthBy_eq_zero exact zero.symm)

theorem normalizedBy_eq {v : Vec3 α} (nonzero : v ≠ 0) :
    v.normalizedBy sqrt = (v.lengthBy sqrt)⁻¹ • v := by
  rw [normalizedBy, if_pos (normSq_pos nonzero)]
  apply ext_get
  intro axis
  rw [get_div, get_smul, lengthBy]
  exact div_eq_inv_mul _ _

theorem normalizedBy_zero (sqrt : α → α) : (0 : Vec3 α).normalizedBy sqrt = 0 := by
  rw [normalizedBy, normSq_eq_zero_iff.mpr rfl, if_neg (lt_irrefl 0)]

theorem normalizedBy_smul (exact : IsSqrt sqrt) {c : α} (positive : 0 < c) {v : Vec3 α}
    (nonzero : v ≠ 0) : (c • v).normalizedBy sqrt = v.normalizedBy sqrt := by
  have longer : c • v ≠ 0 := smul_ne_zero positive.ne' nonzero
  rw [normalizedBy_eq longer, normalizedBy_eq nonzero, lengthBy_smul exact, abs_of_pos positive,
    smul_smul, mul_inv_rev, mul_assoc, inv_mul_cancel₀ positive.ne', mul_one]

end Directions

theorem isSqrt_sqrt : IsSqrt Real.sqrt := ⟨fun _ => Real.sqrt_nonneg _, Real.mul_self_sqrt⟩

noncomputable def norm (v : Vec3 ℚ) : ℝ := Real.sqrt (v.normSq : ℝ)

theorem norm_nonneg (v : Vec3 ℚ) : 0 ≤ v.norm := Real.sqrt_nonneg _

theorem norm_lt_iff (v : Vec3 ℚ) {r : ℚ} (positive : 0 < r) :
    v.norm < r ↔ v.normSq < r * r := by
  have bound : (0 : ℝ) < r := by exact_mod_cast positive
  rw [norm, Real.sqrt_lt' bound, pow_two]
  exact_mod_cast Iff.rfl

end Vec3

/-- Exact on the squares of rational numbers. -/
def squareRoot (x : ℚ) : ℚ := Nat.sqrt x.num.natAbs / Nat.sqrt x.den

theorem isRoundedSqrt_squareRoot : Vec3.IsRoundedSqrt squareRoot where
  zero := by norm_num [squareRoot]
  pos {a} positive := by
    have numerator := Nat.sqrt_pos.mpr (Int.natAbs_pos.mpr (Rat.num_pos.mpr positive).ne')
    have denominator := Nat.sqrt_pos.mpr a.den_pos
    exact div_pos (Nat.cast_pos.mpr numerator) (Nat.cast_pos.mpr denominator)

end Geometry
