import Mathlib.Data.Int.DivMod
import Mathlib.Tactic.Ring

/-! Fixed-width C integers as `Nat` and `Int` values with explicit wrap-around.
Unsigned values are kept reduced by `u32`/`u64`, signed ones by `s32`; every
operation of the modelled code that can leave its type applies one of them. -/
namespace Vpipe.Lib.Word

def u32 (n : Nat) : Nat := n % 2^32
def u64 (n : Nat) : Nat := n % 2^64

def s32 (z : Int) : Int := Int.bmod z (2^32)

def toU32 (z : Int) : Nat := (z % 2^32).toNat

def clampNat (val lo hi : Nat) : Nat := min (max val lo) hi
def clampInt (val lo hi : Int) : Int := min (max val lo) hi

theorem u32Of {n : Nat} (small : n < 2^32) : u32 n = n := Nat.mod_eq_of_lt small

theorem u64Of {n : Nat} (small : n < 2^64) : u64 n = n := Nat.mod_eq_of_lt small

theorem s32Of {z : Int} (low : -2^31 ≤ z) (high : z < 2^31) : s32 z = z := by
  unfold s32
  rw [Int.bmod_eq_of_le] <;> omega

theorem s32High {n : Nat} (low : 2^31 ≤ n) (high : n < 2^32) : s32 n = n - 2^32 := by
  unfold s32
  rw [Int.bmod_def, if_neg (by omega)]
  omega

theorem toU32Of {z : Int} (low : 0 ≤ z) (high : z < 2^32) : (toU32 z : Int) = z := by
  unfold toU32
  omega

theorem clampNatBounds (val : Nat) {lo hi : Nat} (ordered : lo ≤ hi) :
    lo ≤ clampNat val lo hi ∧ clampNat val lo hi ≤ hi := by
  unfold clampNat
  omega

theorem clampIntBounds (val : Int) {lo hi : Int} (ordered : lo ≤ hi) :
    lo ≤ clampInt val lo hi ∧ clampInt val lo hi ≤ hi := by
  unfold clampInt
  omega

theorem rowBound {row height stride k : Nat} (inRow : k < stride) (inFrame : row < height) :
    row * stride + k < height * stride := by
  have := Nat.mul_le_mul_right stride inFrame
  rw [Nat.succ_mul] at this
  omega

theorem columnOf {x stride : Nat} (y : Nat) (inRow : x < stride) : (y * stride + x) % stride = x := by
  rw [Nat.add_comm, Nat.add_mul_mod_self_right, Nat.mod_eq_of_lt inRow]

theorem rowOf {x stride : Nat} (y : Nat) (inRow : x < stride) : (y * stride + x) / stride = y := by
  rw [Nat.add_comm, Nat.add_mul_div_right _ _ (by omega), Nat.div_eq_of_lt inRow, Nat.zero_add]

theorem cellUnique {x y x' y' stride : Nat} (same : y * stride + x = y' * stride + x') (inRow : x < stride)
    (inRow' : x' < stride) : x = x' ∧ y = y' :=
  ⟨by rw [← columnOf y inRow, same, columnOf y' inRow'],by rw [← rowOf y inRow, same, rowOf y' inRow']⟩

theorem rowOffset {row height stride : Nat} (inFrame : row < height) (total : height * stride < 2^32) :
    u32 (row * stride) = row * stride := by
  have := Nat.mul_le_mul_right stride (Nat.le_of_lt inFrame)
  exact u32Of (by omega)

theorem rowOffsetSigned {y : Int} {height stride : Nat} (low : 0 ≤ y) (inFrame : y < height)
    (total : height * stride < 2^32) : (toU32 (y * stride) : Int) = (y.toNat * stride : Nat) := by
  have row : y = y.toNat := by omega
  have := Nat.mul_le_mul_right stride (show y.toNat ≤ height by omega)
  have product : y * stride = (y.toNat * stride : Nat) := by
    rw [Int.natCast_mul, ← row]
  rw [product]
  exact toU32Of (by omega) (by omega)

end Vpipe.Lib.Word
