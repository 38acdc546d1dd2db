import Mathlib.Data.Int.Log
import Mathlib.Data.Rat.Floor
import Mathlib.Tactic.Linarith
import Mathlib.Tactic.Ring
import Mathlib.Tactic.FieldSimp
import Mathlib.Tactic.Positivity

/-! Binary floating point over the rationals. A format has a precision and a least exponent; an
operation rounds its exact result to the nearest value of the format, ties to even. There are no
infinities: the formats have no greatest exponent. -/
namespace Vpipe.Lib.Floating

structure Format where
  precision : Nat
  least : Int
  wide : 1 ≤ precision

variable (F : Format)

def Representable (x : ℚ) : Prop := ∃ m e : ℤ, |m| ≤ 2^F.precision ∧ F.least ≤ e ∧ x = m * 2^e

def roundEven (q : ℚ) : ℤ :=
  let d := q - ⌊q⌋
  if d < 1/2 then ⌊q⌋
  else if 1/2 < d then ⌊q⌋ + 1
  else if ⌊q⌋ % 2 = 0 then ⌊q⌋ else ⌊q⌋ + 1

def quantum (x : ℚ) : ℤ := max (Int.log 2 |x| + 1 - F.precision) F.least

def nearest (x : ℚ) : ℚ := roundEven (x / 2^quantum F x) * 2^quantum F x

theorem roundEvenCloses (q : ℚ) : (roundEven q = ⌊q⌋ ∧ q - ⌊q⌋ ≤ 1/2) ∨
    (roundEven q = ⌊q⌋ + 1 ∧ 1/2 ≤ q - ⌊q⌋) := by
  simp only [roundEven]
  split
  case isTrue low => exact .inl ⟨rfl,low.le⟩
  case isFalse low =>
    split
    case isTrue high => exact .inr ⟨rfl,high.le⟩
    case isFalse high =>
      split
      · exact .inl ⟨rfl,not_lt.mp high⟩
      · exact .inr ⟨rfl,not_lt.mp low⟩

theorem roundEvenNearest (q : ℚ) (t : ℤ) : |q - roundEven q| ≤ |q - t| := by
  have floor := Int.floor_le q
  have next := Int.lt_floor_add_one q
  rcases le_or_gt t ⌊q⌋ with below | above
  · have below' : (t : ℚ) ≤ ⌊q⌋ := Int.cast_le.mpr below
    rw [abs_of_nonneg (show 0 ≤ q - t by linarith)]
    rcases roundEvenCloses q with ⟨same, half⟩ | ⟨same, half⟩
    · rw [same, abs_of_nonneg (by linarith)]
      linarith
    · rw [same, Int.cast_add, Int.cast_one, abs_of_nonpos (by linarith)]
      linarith
  · have above' : (⌊q⌋ : ℚ) + 1 ≤ t := by exact_mod_cast above
    rw [abs_of_nonpos (show q - t ≤ 0 by linarith)]
    rcases roundEvenCloses q with ⟨same, half⟩ | ⟨same, half⟩
    · rw [same, abs_of_nonneg (by linarith)]
      linarith
    · rw [same, Int.cast_add, Int.cast_one, abs_of_nonpos (by linarith)]
      linarith

theorem roundEvenBound {q : ℚ} {b : ℤ} (bound : |q| ≤ b) : |roundEven q| ≤ b := by
  have floor := Int.floor_le q
  have next := Int.lt_floor_add_one q
  obtain ⟨low, high⟩ := abs_le.mp bound
  have least : -b ≤ ⌊q⌋ := Int.le_floor.mpr (by push_cast; exact low)
  have most : ⌊q⌋ ≤ b := by exact_mod_cast floor.trans high
  rw [abs_le]
  rcases roundEvenCloses q with ⟨same, _⟩ | ⟨same, half⟩
  · rw [same]
    exact ⟨least,most⟩
  · -- q is not an integer, so its floor is below the bound
    have below : (⌊q⌋ : ℚ) < b := by linarith
    have := Int.cast_lt.mp below
    rw [same]
    constructor <;> omega

theorem quantumScale (x : ℚ) : (0 : ℚ) < 2^quantum F x := zpow_pos two_pos _

theorem quantumBound (x : ℚ) : |x| ≤ 2^F.precision * 2^quantum F x := by
  have below : |x| < (2 : ℚ)^(Int.log 2 |x| + 1) := Int.lt_zpow_succ_log_self (b := 2) (by decide) |x|
  have exponent : Int.log 2 |x| + 1 ≤ F.precision + quantum F x := by
    unfold quantum
    omega
  calc |x| ≤ (2 : ℚ)^(Int.log 2 |x| + 1) := below.le
    _ ≤ (2 : ℚ)^((F.precision : ℤ) + quantum F x) := zpow_le_zpow_right₀ one_le_two exponent
    _ = 2^F.precision * 2^quantum F x := by rw [zpow_add₀ two_ne_zero, zpow_natCast]

theorem nearestRepresentable (x : ℚ) : Representable F (nearest F x) := by
  refine ⟨roundEven (x / 2^quantum F x),quantum F x,?_,le_max_right _ _,rfl⟩
  refine roundEvenBound ?_
  rw [abs_div, abs_of_pos (quantumScale F x), div_le_iff₀ (quantumScale F x)]
  push_cast
  exact quantumBound F x

theorem inPlaces (x r : ℚ) : x - r * 2^quantum F x = (x / 2^quantum F x - r) * 2^quantum F x := by
  have scale := quantumScale F x
  field_simp

theorem multipleFarther (x : ℚ) (t : ℤ) : |x - nearest F x| ≤ |x - t * 2^quantum F x| := by
  rw [nearest, inPlaces, inPlaces, abs_mul, abs_mul]
  exact mul_le_mul_of_nonneg_right (roundEvenNearest _ t) (abs_nonneg _)

theorem finerSmaller {x : ℚ} (some_ : x ≠ 0) {m e : ℤ} (significand : |m| ≤ 2^F.precision) (least : F.least ≤ e)
    (finer : e < quantum F x) :
    |(m : ℚ) * 2^e| ≤ 2^(F.precision - 1 + quantum F x) ∧ (2 : ℚ)^(F.precision - 1 + quantum F x) ≤ |x| := by
  have exponent : F.precision - 1 + quantum F x = Int.log 2 |x| := by
    unfold quantum at *
    omega
  have scale : (0 : ℚ) < 2^e := zpow_pos two_pos e
  constructor
  · calc |(m : ℚ) * 2^e| = |(m : ℚ)| * 2^e := by rw [abs_mul, abs_of_pos scale]
      _ ≤ 2^F.precision * 2^e := mul_le_mul_of_nonneg_right (by exact_mod_cast significand) scale.le
      _ = (2 : ℚ)^((F.precision : ℤ) + e) := by rw [zpow_add₀ two_ne_zero, zpow_natCast]
      _ ≤ 2^(F.precision - 1 + quantum F x) := zpow_le_zpow_right₀ one_le_two (by omega)
  · rw [exponent]
    exact Int.zpow_log_le_self (b := 2) (by decide) (abs_pos.mpr some_)

theorem nearestZero : nearest F 0 = 0 := by
  have zero : roundEven 0 = 0 := by simp [roundEven]
  rw [nearest, zero_div, zero, Int.cast_zero, zero_mul]

theorem nearestCloses (x : ℚ) {y : ℚ} (value : Representable F y) :
    |x - nearest F x| ≤ |x - y| := by
  rcases eq_or_ne x 0 with rfl | some_
  · rw [nearestZero, sub_self, abs_zero]
    exact abs_nonneg _
  obtain ⟨m, e, significand, least, rfl⟩ := value
  rcases le_or_gt (quantum F x) e with coarse | finer
  · -- m * 2^e is a multiple of the last place
    obtain ⟨d, gap⟩ := Int.eq_ofNat_of_zero_le (sub_nonneg.mpr coarse)
    have multiple : (m : ℚ) * 2^e = ((m * 2^d : ℤ) : ℚ) * 2^quantum F x := by
      rw [show e = d + quantum F x by omega, zpow_add₀ two_ne_zero, zpow_natCast]
      push_cast
      ring
    rw [multiple]
    exact multipleFarther F x _
  · obtain ⟨small, large⟩ := finerSmaller F some_ significand least finer
    obtain ⟨d, width⟩ := Nat.exists_eq_add_of_le' F.wide
    have power : (2 : ℚ)^(F.precision - 1 + quantum F x) = ((2^d : ℤ) : ℚ) * 2^quantum F x := by
      rw [width, zpow_add₀ two_ne_zero]
      push_cast
      rw [add_sub_cancel_right, zpow_natCast]
    rw [power] at small large
    obtain ⟨low, high⟩ := abs_le.mp small
    rcases le_total 0 x with positive | negative
    · rw [abs_of_nonneg positive] at large
      refine (multipleFarther F x (2^d)).trans ?_
      rw [abs_of_nonneg (by linarith), abs_of_nonneg (by linarith)]
      linarith
    · rw [abs_of_nonpos negative] at large
      refine (multipleFarther F x (-2^d)).trans ?_
      rw [Int.cast_neg, abs_of_nonpos (by linarith), abs_of_nonpos (by linarith)]
      linarith

theorem nearestExact {x : ℚ} (value : Representable F x) : nearest F x = x := by
  have close := nearestCloses F x value
  rw [sub_self, abs_zero] at close
  linarith [abs_nonpos_iff.mp close]

theorem nearestMono {x y : ℚ} (ordered : x ≤ y) : nearest F x ≤ nearest F y := by
  by_contra reversed
  rw [not_le] at reversed
  have left := nearestCloses F x (nearestRepresentable F y)
  have right := nearestCloses F y (nearestRepresentable F x)
  have middle : nearest F x + nearest F y ≤ 2 * x := by
    rw [← sq_le_sq] at left
    nlinarith
  have middle' : 2 * y ≤ nearest F x + nearest F y := by
    rw [← sq_le_sq] at right
    nlinarith
  rw [le_antisymm ordered (by linarith)] at reversed
  exact lt_irrefl _ reversed

theorem roundEvenHalf (q : ℚ) : |q - roundEven q| ≤ 1/2 := by
  have floor := Int.floor_le q
  have next := Int.lt_floor_add_one q
  rcases roundEvenCloses q with ⟨same, half⟩ | ⟨same, half⟩
  · rw [same, abs_of_nonneg (by linarith)]
    exact half
  · rw [same, Int.cast_add, Int.cast_one, abs_of_nonpos (by linarith)]
    linarith

theorem nearestError {x : ℚ} {k : ℤ} (small : |x| < 2^k) (fine : F.least ≤ k - F.precision) :
    |x - nearest F x| ≤ 1/2 * 2^(k - F.precision) := by
  rcases eq_or_ne x 0 with rfl | some_
  · rw [nearestZero, sub_self, abs_zero]
    exact mul_nonneg (by norm_num) (zpow_pos two_pos _).le
  have log : Int.log 2 |x| < k :=
    (Int.lt_zpow_iff_log_lt (b := 2) (by decide) (abs_pos.mpr some_)).mp (by exact_mod_cast small)
  have exponent : quantum F x ≤ k - F.precision := by
    unfold quantum
    omega
  rw [nearest, inPlaces, abs_mul, abs_of_pos (quantumScale F x)]
  exact mul_le_mul (roundEvenHalf _) (zpow_le_zpow_right₀ one_le_two exponent)
    (quantumScale F x).le (by norm_num)

structure Value where
  val : ℚ
  representable : Representable F val

variable {F}

namespace Value

def round (x : ℚ) : Value F := ⟨nearest F x,nearestRepresentable F x⟩

def ofNat (n : Nat) : Value F := round n
def ofInt (z : Int) : Value F := round z

instance : Add (Value F) := ⟨fun a b => round (a.val + b.val)⟩
instance : Sub (Value F) := ⟨fun a b => round (a.val - b.val)⟩
instance : Mul (Value F) := ⟨fun a b => round (a.val * b.val)⟩
instance : Div (Value F) := ⟨fun a b => round (a.val / b.val)⟩

def toNat (a : Value F) : Nat := ⌊a.val⌋₊

theorem addVal (a b : Value F) : (a + b).val = nearest F (a.val + b.val) := rfl
theorem subVal (a b : Value F) : (a - b).val = nearest F (a.val - b.val) := rfl
theorem mulVal (a b : Value F) : (a * b).val = nearest F (a.val * b.val) := rfl
theorem divVal (a b : Value F) : (a / b).val = nearest F (a.val / b.val) := rfl

theorem ofIntVal {z : Int} (small : |z| ≤ 2^F.precision) (fine : F.least ≤ 0) : (ofInt z : Value F).val = z :=
  nearestExact F ⟨z,0,small,fine,by rw [zpow_zero, mul_one]⟩

theorem ofNatVal {n : Nat} (small : n ≤ 2^F.precision) (fine : F.least ≤ 0) : (ofNat n : Value F).val = n := by
  have exact := ofIntVal (F := F) (z := n) (by rw [Nat.abs_cast]; exact_mod_cast small) fine
  exact exact

end Value

def binary64 : Format := ⟨53,-1074,by decide⟩

end Vpipe.Lib.Floating
