import Mathlib.Data.List.GetD
import Mathlib.Data.List.Sort
import Vpipe.Lib.Floating

/-! Percentiles of a run's latencies: percentile() of the runner, and percentile() and the median of
scripts/summarize-benchmark.py, both in doubles. `-std=c11` rules out contracted expressions, so each
operation is rounded. -/
namespace Vpipe.Percentile
open Lib.Floating

abbrev Double := Value binary64

def literal (a b : Nat) : Double := .round ((a : ℚ) / b)

def cmpU64 (x y : Nat) : Int := (if x > y then 1 else 0) - (if x < y then 1 else 0)

/- qsort of the C library, which leaves the order of equal elements open. -/
def qsort (compare : Nat → Nat → Int) (elements : List Nat) : List Nat :=
  elements.mergeSort (fun x y => compare x y ≤ 0)

def percentile (sorted : List Nat) (n : Nat) (pct : Double) : Nat :=
  if n = 0 then 0
  else if n = 1 then sorted.getD 0 0
  else
    let rank : Double := .ofNat (n - 1) * pct
    let lo := rank.toNat
    let hi := if rank.val > (Value.ofNat lo : Double).val then lo + 1 else lo
    let hi := if hi ≥ n then n - 1 else hi
    let frac := rank - .ofNat lo
    (.ofNat (sorted.getD lo 0) + (.ofNat (sorted.getD hi 0) - .ofNat (sorted.getD lo 0)) * frac : Double).toNat

namespace Script

def percentile (values : List Int) (pct : Double) : Option ℚ :=
  if values = [] then none
  else if values.length = 1 then some (values.getD 0 0)
  else
    let rank : Double := .ofInt (values.length - 1) * pct
    let lo := ⌊rank.val⌋
    let hi := ⌈rank.val⌉
    if lo = hi then some (values.getD lo.toNat 0)
    else
      let low := values.getD lo.toNat 0
      let high := values.getD hi.toNat 0
      some (.ofInt low + .ofInt (high - low) * (rank - .ofInt lo) : Double).val

def sorted (values : List Int) : List Int := values.mergeSort (fun x y => x ≤ y)

/- statistics.median after it has sorted its data; a quotient of ints is rounded once. -/
def medianOf (data : List Int) : Option ℚ :=
  let n := data.length
  if n = 0 then none
  else if n % 2 = 1 then some (data.getD (n / 2) 0)
  else some (Value.round ((data.getD (n / 2 - 1) 0 + data.getD (n / 2) 0 : Int) / 2) : Double).val

def median (values : List Int) : Option ℚ := medianOf (sorted values)

end Script

section Interpolation

variable {a b : Nat} {f g : ℚ}

theorem natVal {n : Nat} (small : n ≤ 2^53) :
    (Value.ofNat n : Double).val = n := Value.ofNatVal small (by decide)

theorem intVal {z : Int} (small : |z| ≤ 2^53) :
    (Value.ofInt z : Double).val = z := Value.ofIntVal small (by decide)

theorem nearestNat {n : Nat} (small : n ≤ 2^53) : nearest binary64 n = n := natVal small

def between (a b : Nat) (f : ℚ) : ℚ := nearest binary64 (a + nearest binary64 ((b - a) * f))

theorem betweenZero (small : a ≤ 2^53) : between a b 0 = a := by
  rw [between, mul_zero, nearestZero, add_zero, nearestNat small]

theorem betweenMono (ordered : a ≤ b) (less : f ≤ g) : between a b f ≤ between a b g := by
  have wide : (0 : ℚ) ≤ b - a := sub_nonneg.mpr (Nat.cast_le.mpr ordered)
  have product := nearestMono binary64 (mul_le_mul_of_nonneg_left less wide)
  exact nearestMono binary64 (by linarith)

theorem betweenOne (ordered : a ≤ b) (small : b ≤ 2^53) : between a b 1 = b := by
  have whole : nearest binary64 ((b : ℚ) - a) = b - a := by
    rw [← Nat.cast_sub ordered]
    exact nearestNat (by omega)
  rw [between, mul_one, whole, add_sub_cancel, nearestNat small]

theorem betweenRange (ordered : a ≤ b) (small : b ≤ 2^53) (low : 0 ≤ f) (high : f ≤ 1) :
    (a : ℚ) ≤ between a b f ∧ between a b f ≤ b := by
  constructor
  · exact (betweenZero (ordered.trans small)).symm.le.trans (betweenMono ordered low)
  · exact (betweenMono ordered high).trans (betweenOne ordered small).le

theorem betweenC (ordered : a ≤ b) (small : b ≤ 2^53) (frac : Double) :
    (.ofNat a + (.ofNat b - .ofNat a) * frac : Double).val = between a b frac.val := by
  have exact : nearest binary64 ((b : ℚ) - a) = b - a := by
    rw [← Nat.cast_sub ordered]
    exact nearestNat (by omega)
  rw [Value.addVal, Value.mulVal, Value.subVal, natVal small, natVal (ordered.trans small), exact, between]

theorem betweenPython (ordered : a ≤ b) (small : b ≤ 2^53) (frac : Double) :
    (.ofInt a + .ofInt (b - a) * frac : Double).val = between a b frac.val := by
  have exact : (Value.ofInt ((b : Int) - a) : Double).val = b - a := by
    rw [intVal (by rw [abs_le]; omega), Int.cast_sub, Int.cast_natCast, Int.cast_natCast]
  have start : (Value.ofInt (a : Int) : Double).val = a := by
    rw [intVal (by rw [abs_le]; omega), Int.cast_natCast]
  rw [Value.addVal, Value.mulVal, exact, start, between]

end Interpolation

section Ranks

variable {n : Nat} {p q : Double}

def Fraction (p : Double) : Prop := 0 ≤ p.val ∧ p.val ≤ 1

def rank (n : Nat) (p : Double) : ℚ := nearest binary64 ((n - 1 : Nat) * p.val)

def beyond (n : Nat) (p : Double) : ℚ := nearest binary64 (rank n p - ⌊rank n p⌋₊)

theorem rankMono (less : p.val ≤ q.val) : rank n p ≤ rank n q :=
  nearestMono binary64 (mul_le_mul_of_nonneg_left less (Nat.cast_nonneg _))

theorem rankRange (small : n ≤ 2^53) (fraction : Fraction p) : 0 ≤ rank n p ∧ rank n p ≤ (n - 1 : Nat) := by
  have count : (0 : ℚ) ≤ (n - 1 : Nat) := Nat.cast_nonneg _
  constructor
  · rw [← nearestZero binary64]
    exact nearestMono binary64 (mul_nonneg count fraction.1)
  · rw [← nearestNat (n := n - 1) (by omega)]
    exact nearestMono binary64 (mul_le_of_le_one_right count fraction.2)

theorem rankInside (small : n ≤ 2^53) (fraction : Fraction p) : ⌈rank n p⌉₊ ≤ n - 1 :=
  Nat.ceil_le.mpr (rankRange small fraction).2

theorem beyondRange (positive : 0 ≤ rank n p) : 0 ≤ beyond n p ∧ beyond n p ≤ 1 := by
  have below := Nat.floor_le positive
  have above := Nat.lt_floor_add_one (rank n p)
  constructor
  · rw [← nearestZero binary64]
    exact nearestMono binary64 (by linarith)
  · rw [← Nat.cast_one, ← nearestNat (n := 1) (by decide), Nat.cast_one]
    exact nearestMono binary64 (by linarith)

theorem beyondWhole (positive : 0 ≤ rank n p) (whole : ⌊rank n p⌋₊ = ⌈rank n p⌉₊) : beyond n p = 0 := by
  have below := Nat.floor_le positive
  have above := Nat.le_ceil (rank n p)
  rw [← whole] at above
  rw [beyond, sub_eq_zero.mpr (le_antisymm above below), nearestZero]

theorem ceilNext (positive : 0 ≤ rank n p) :
    (if rank n p > ⌊rank n p⌋₊ then ⌊rank n p⌋₊ + 1 else ⌊rank n p⌋₊) = ⌈rank n p⌉₊ := by
  have below := Nat.floor_le positive
  have above := Nat.lt_floor_add_one (rank n p)
  split
  case isTrue more =>
    exact ((Nat.ceil_eq_iff (Nat.succ_ne_zero _)).mpr ⟨more,by push_cast; exact above.le⟩).symm
  case isFalse exact_ =>
    have same : rank n p = ⌊rank n p⌋₊ := le_antisymm (not_lt.mp exact_) below
    rw [same, Nat.floor_natCast, Nat.ceil_natCast]

end Ranks

structure Measured (s : List Nat) : Prop where
  sorted : s.Pairwise (· ≤ ·)
  small : ∀ x ∈ s, x ≤ 2^53
  some_ : s ≠ []
  count : s.length ≤ 2^53

section Programs

variable {s : List Nat} {p q : Double}

theorem sortedGet (sorted : s.Pairwise (· ≤ ·)) {i j : Nat} (ordered : i ≤ j) (inside : j < s.length) :
    s.getD i 0 ≤ s.getD j 0 := by
  rw [List.getD_eq_getElem s 0 (by omega), List.getD_eq_getElem s 0 inside]
  exact List.Pairwise.rel_get_of_le sorted ordered

theorem getSmall (small : ∀ x ∈ s, x ≤ 2^53) (i : Nat) : s.getD i 0 ≤ 2^53 := by
  rcases Nat.lt_or_ge i s.length with inside | outside
  · rw [List.getD_eq_getElem s 0 inside]
    exact small _ (List.getElem_mem inside)
  · rw [List.getD_eq_default s 0 outside]
    exact Nat.zero_le _

def point (s : List Nat) (p : Double) : ℚ :=
  between (s.getD ⌊rank s.length p⌋₊ 0) (s.getD ⌈rank s.length p⌉₊ 0) (beyond s.length p)

theorem lengthPositive (measured : Measured s) : 0 < s.length := List.length_pos_iff.mpr measured.some_

theorem endsOrdered (measured : Measured s) (fraction : Fraction p) :
    ⌈rank s.length p⌉₊ < s.length ∧ s.getD ⌊rank s.length p⌋₊ 0 ≤ s.getD ⌈rank s.length p⌉₊ 0 := by
  have positive := lengthPositive measured
  have inside := rankInside measured.count fraction
  refine ⟨by omega,sortedGet measured.sorted (Nat.floor_le_ceil _) (by omega)⟩

theorem oneRank {p : Double} : rank 1 p = 0 := by
  rw [rank, Nat.sub_self, Nat.cast_zero, zero_mul, nearestZero]

theorem pointAlone (alone : s.length = 1) (measured : Measured s) : point s p = s.getD 0 0 := by
  have zero : beyond 1 p = 0 := beyondWhole (by rw [oneRank]) (by rw [oneRank, Nat.floor_zero, Nat.ceil_zero])
  rw [point, alone, zero, betweenZero (getSmall measured.small _), oneRank, Nat.floor_zero]

theorem percentilePoint (measured : Measured s) (fraction : Fraction p) :
    percentile s s.length p = ⌊point s p⌋₊ := by
  have positive := lengthPositive measured
  obtain ⟨inside, ordered⟩ := endsOrdered measured fraction
  rcases Nat.eq_or_lt_of_le positive with alone | several
  · rw [pointAlone alone.symm measured, Nat.floor_natCast, percentile, if_neg (by omega), if_pos alone.symm]
  have whole : (Value.ofNat (s.length - 1) * p : Double).val = rank s.length p := by
    rw [Value.mulVal, natVal (by have := measured.count; omega), rank]
  have lo : (Value.ofNat (s.length - 1) * p : Double).toNat = ⌊rank s.length p⌋₊ := by rw [Value.toNat, whole]
  have loVal : (Value.ofNat ⌊rank s.length p⌋₊ : Double).val = ⌊rank s.length p⌋₊ := by
    have := Nat.floor_le_ceil (rank s.length p)
    have := measured.count
    exact natVal (by omega)
  have frac : (Value.ofNat (s.length - 1) * p - .ofNat ⌊rank s.length p⌋₊ : Double).val =
      beyond s.length p := by
    rw [Value.subVal, whole, loVal, beyond]
  simp only [percentile, if_neg (show s.length ≠ 0 by omega), if_neg (show s.length ≠ 1 by omega),
    lo, whole, loVal]
  rw [ceilNext (rankRange measured.count fraction).1, if_neg (Nat.not_le.mpr inside), Value.toNat,
    betweenC ordered (getSmall measured.small _), frac, point]

example : percentile [10,20,40,90] 4 (literal 95 100) = 82 := by decide +kernel

theorem scriptPoint (measured : Measured s) (fraction : Fraction p) :
    Script.percentile (s.map Int.ofNat) p = some (point s p) := by
  have positive := lengthPositive measured
  have count := measured.count
  obtain ⟨inside, ordered⟩ := endsOrdered measured fraction
  have start := (rankRange measured.count fraction).1
  have entry : ∀ i, (s.map Int.ofNat).getD i 0 = (s.getD i 0 : Nat) := fun i => List.getD_map s 0 Int.ofNat
  have some_ : s.map Int.ofNat ≠ [] := by simp [measured.some_]
  rcases Nat.eq_or_lt_of_le positive with alone | several
  · rw [Script.percentile, if_neg some_, List.length_map, if_pos alone.symm, entry,
      pointAlone alone.symm measured, Int.cast_natCast]
  have whole : (Value.ofInt ((s.length : Int) - 1) * p : Double).val = rank s.length p := by
    have last : (s.length : Int) - 1 = (s.length - 1 : Nat) := by omega
    rw [Value.mulVal, last, intVal (by rw [abs_le]; omega), rank, Int.cast_natCast]
  have lo : ⌊rank s.length p⌋ = (⌊rank s.length p⌋₊ : Int) := (Int.natCast_floor_eq_floor start).symm
  have hi : ⌈rank s.length p⌉ = (⌈rank s.length p⌉₊ : Int) := (Int.natCast_ceil_eq_ceil start).symm
  have loVal : (Value.ofInt (⌊rank s.length p⌋₊ : Int) : Double).val = ⌊rank s.length p⌋₊ := by
    have := Nat.floor_le_ceil (rank s.length p)
    rw [intVal (by rw [abs_le]; omega), Int.cast_natCast]
  have frac : (Value.ofInt ((s.length : Int) - 1) * p - .ofInt (⌊rank s.length p⌋₊ : Int) : Double).val =
      beyond s.length p := by
    rw [Value.subVal, whole, loVal, beyond]
  simp only [Script.percentile, if_neg some_, List.length_map,
    if_neg (show s.length ≠ 1 by omega), whole, lo, hi, Int.toNat_natCast, entry]
  split
  case isTrue same =>
    rw [point, beyondWhole start (Int.ofNat_inj.mp same), betweenZero (getSmall measured.small _),
      Int.cast_natCast]
  case isFalse =>
    rw [betweenPython ordered (getSmall measured.small _), frac, point]

theorem pointRange (measured : Measured s) (fraction : Fraction p) :
    (s.getD ⌊rank s.length p⌋₊ 0 : ℚ) ≤ point s p ∧ point s p ≤ s.getD ⌈rank s.length p⌉₊ 0 := by
  obtain ⟨low, high⟩ := beyondRange (rankRange measured.count fraction).1
  exact betweenRange (endsOrdered measured fraction).2 (getSmall measured.small _) low high

theorem pointMono (measured : Measured s) (fraction : Fraction p) (fraction' : Fraction q)
    (less : p.val ≤ q.val) :
    point s p ≤ point s q := by
  have start := (rankRange measured.count fraction).1
  have ranks : rank s.length p ≤ rank s.length q := rankMono less
  have floors := Nat.floor_mono ranks
  have ceils := Nat.ceil_mono ranks
  obtain ⟨inside, ordered⟩ := endsOrdered measured fraction'
  have between_ := Nat.ceil_le_floor_add_one (rank s.length p)
  rcases Nat.eq_or_lt_of_le floors with same | apart
  · -- the same element below: the higher rank is further on
    have further : beyond s.length p ≤ beyond s.length q := by
      rw [beyond, beyond, same]
      exact nearestMono binary64 (by linarith)
    rcases Nat.eq_or_lt_of_le ceils with equal | whole
    · rw [point, point, same, equal]
      exact betweenMono ordered further
    · have between' := Nat.ceil_le_floor_add_one (rank s.length q)
      have floorCeil := Nat.floor_le_ceil (rank s.length p)
      rw [point, beyondWhole start (by omega), betweenZero (getSmall measured.small _), same]
      exact (pointRange measured fraction').1
  · -- everything from p's rank on is below q's
    refine (pointRange measured fraction).2.trans (le_trans ?_ (pointRange measured fraction').1)
    exact Nat.cast_le.mpr (sortedGet measured.sorted (by omega) (by
      have := Nat.floor_le_ceil (rank s.length q)
      omega))

theorem halvesExact {z : Int} (small : |z| ≤ 2^53) : nearest binary64 ((z : ℚ) / 2) = z / 2 :=
  nearestExact binary64 ⟨z,-1,small,by decide,by rw [zpow_neg_one, div_eq_mul_inv]⟩

theorem halfVal : (literal 1 2).val = 1/2 := by
  have exact := halvesExact (z := 1) (by decide)
  rw [Int.cast_one] at exact
  rw [literal, Nat.cast_one, Nat.cast_ofNat]
  exact exact

theorem halfRank (small : s.length ≤ 2^53) : rank s.length (literal 1 2) = ((s.length - 1 : Nat) : ℚ) / 2 := by
  rw [rank, halfVal, mul_one_div]
  exact halvesExact (z := (s.length - 1 : Nat)) (by rw [abs_le]; omega)

theorem betweenHalf {a b : Nat} (ordered : a ≤ b) (small : b ≤ 2^53) :
    between a b (1/2) = nearest binary64 (((a : Int) + b : Int) / 2) := by
  have exact : nearest binary64 (((b : ℚ) - a) * (1/2)) = (b - a) / 2 := by
    have whole := halvesExact (z := (b : Int) - a) (by rw [abs_le]; omega)
    push_cast at whole
    rw [mul_one_div, whole]
  rw [between, exact]
  push_cast
  congr 1
  ring

theorem medianPoint (measured : Measured s) :
    Script.medianOf (s.map Int.ofNat) = some (point s (literal 1 2)) := by
  have positive := lengthPositive measured
  have middle := halfRank measured.count
  have entry : ∀ i, (s.map Int.ofNat).getD i 0 = (s.getD i 0 : Nat) := fun i => List.getD_map s 0 Int.ofNat
  simp only [Script.medianOf, List.length_map, if_neg (show s.length ≠ 0 by omega), entry]
  split
  case isTrue odd =>
    -- the rank is the middle element
    have whole : rank s.length (literal 1 2) = (s.length / 2 : Nat) := by
      rw [middle, show s.length - 1 = 2 * (s.length / 2) by omega, Nat.cast_mul]
      push_cast
      ring
    have zero : beyond s.length (literal 1 2) = 0 :=
      beyondWhole (by rw [whole]; exact Nat.cast_nonneg _) (by rw [whole, Nat.floor_natCast, Nat.ceil_natCast])
    rw [point, zero, betweenZero (getSmall measured.small _), whole, Nat.floor_natCast, Int.cast_natCast]
  case isFalse even =>
    -- the rank is half way between the two middle elements
    obtain ⟨k, twice⟩ : ∃ k, s.length = 2 * k + 2 := ⟨s.length / 2 - 1,by omega⟩
    have broken : rank s.length (literal 1 2) = k + 1/2 := by
      rw [middle, twice, show 2 * k + 2 - 1 = 2 * k + 1 by omega]
      push_cast
      ring
    have floor : ⌊rank s.length (literal 1 2)⌋₊ = k := by
      rw [broken, Nat.floor_eq_iff (by positivity)]
      constructor <;> linarith
    have ceil : ⌈rank s.length (literal 1 2)⌉₊ = k + 1 := by
      rw [broken, Nat.ceil_eq_iff (Nat.succ_ne_zero _)]
      push_cast
      constructor <;> linarith
    have rest : beyond s.length (literal 1 2) = 1/2 := by
      have exact := halvesExact (z := 1) (by decide)
      rw [Int.cast_one] at exact
      rw [beyond, floor, broken, add_sub_cancel_left, exact]
    rw [point, floor, ceil, rest, betweenHalf (sortedGet measured.sorted (by omega) (by omega))
      (getSmall measured.small _), twice, show (2 * k + 2) / 2 = k + 1 by omega, Nat.add_sub_cancel]
    rfl

end Programs

theorem cmpU64Le (x y : Nat) : cmpU64 x y ≤ 0 ↔ x ≤ y := by
  unfold cmpU64
  split <;> split <;> omega

theorem qsortSorted (elements : List Nat) : (qsort cmpU64 elements).Pairwise (· ≤ ·) := by
  have sorted : (qsort cmpU64 elements).Pairwise (fun x y => decide (cmpU64 x y ≤ 0) = true) :=
    List.pairwise_mergeSort (by simp only [decide_eq_true_eq, cmpU64Le]; omega)
      (by simp only [Bool.or_eq_true, decide_eq_true_eq, cmpU64Le]; omega) elements
  exact sorted.imp (fun less => (cmpU64Le _ _).mp (of_decide_eq_true less))

theorem qsortPerm (elements : List Nat) : (qsort cmpU64 elements).Perm elements := List.mergeSort_perm _ _

theorem scriptSorted (elements : List Nat) :
    Script.sorted (elements.map Int.ofNat) = (qsort cmpU64 elements).map Int.ofNat := by
  have python : (Script.sorted (elements.map Int.ofNat)).Pairwise (· ≤ ·) :=
    (List.sortedLE_mergeSort (l := elements.map Int.ofNat)).pairwise
  have c : ((qsort cmpU64 elements).map Int.ofNat).Pairwise (· ≤ ·) :=
    List.pairwise_map.mpr ((qsortSorted elements).imp (fun less => Int.ofNat_le.mpr less))
  exact List.Perm.eq_of_pairwise' python c
    ((List.mergeSort_perm _ _).trans ((qsortPerm elements).map Int.ofNat).symm)

structure Quantile (a b : Nat) (elements : List Nat) (v : Nat) : Prop where
  below : a * (elements.length - 1) ≤ b * elements.countP (· ≤ v)
  above : (b - a) * (elements.length - 1) ≤ b * elements.countP (v ≤ ·)

section Quantiles

variable {s : List Nat}

theorem countBelow (sorted : s.Pairwise (· ≤ ·)) {i v : Nat} (inside : i < s.length)
    (reached : s.getD i 0 ≤ v) :
    i + 1 ≤ s.countP (· ≤ v) := by
  have all : (s.take (i + 1)).countP (· ≤ v) = i + 1 := by
    rw [List.countP_eq_length.mpr, List.length_take, Nat.min_eq_left inside]
    intro x member
    obtain ⟨j, within, rfl⟩ := List.mem_iff_getElem.mp member
    rw [List.length_take] at within
    have ordered := sortedGet sorted (i := j) (show j ≤ i by omega) inside
    rw [List.getD_eq_getElem s 0 (by omega)] at ordered
    rw [List.getElem_take]
    exact decide_eq_true (ordered.trans reached)
  exact all.symm.trans_le ((List.take_sublist _ _).countP_le)

theorem countAbove (sorted : s.Pairwise (· ≤ ·)) {i v : Nat} (reached : v ≤ s.getD i 0) :
    s.length - i ≤ s.countP (v ≤ ·) := by
  have all : (s.drop i).countP (v ≤ ·) = s.length - i := by
    rw [List.countP_eq_length.mpr, List.length_drop]
    intro x member
    obtain ⟨j, within, rfl⟩ := List.mem_iff_getElem.mp member
    rw [List.length_drop] at within
    have ordered := sortedGet sorted (i := i) (show i ≤ i + j by omega) (by omega)
    rw [List.getD_eq_getElem s 0 (show i + j < s.length by omega)] at ordered
    rw [List.getElem_drop]
    exact decide_eq_true (reached.trans ordered)
  exact all.symm.trans_le ((List.drop_sublist _ _).countP_le)

theorem literalMono {a b c d : Nat} (less : (a : ℚ) / b ≤ (c : ℚ) / d) :
    (literal a b).val ≤ (literal c d).val :=
  nearestMono binary64 less

theorem literalFraction {a b : Nat} (proper : a ≤ b) (some_ : 0 < b) : Fraction (literal a b) := by
  have positive : (0 : ℚ) < b := Nat.cast_pos.mpr some_
  constructor
  · rw [← nearestZero binary64]
    exact nearestMono binary64 (div_nonneg (Nat.cast_nonneg a) positive.le)
  · rw [← Nat.cast_one, ← nearestNat (n := 1) (by decide), Nat.cast_one]
    exact nearestMono binary64 ((div_le_one positive).mpr (Nat.cast_le.mpr proper))

theorem rankNear {a b n : Nat} (proper : a ≤ b) (some_ : 0 < b) (few : n ≤ 2^32) :
    |(n - 1 : Nat) * ((a : ℚ) / b) - rank n (literal a b)| ≤ 1 / 2^20 := by
  obtain ⟨low, high⟩ := literalFraction proper some_
  have count : (0 : ℚ) ≤ (n - 1 : Nat) := Nat.cast_nonneg _
  have bound : ((n - 1 : Nat) : ℚ) ≤ 2^32 := by exact_mod_cast (show n - 1 ≤ 2^32 by omega)
  have share : |(a : ℚ) / b| < 2^(1 : ℤ) := by
    rw [abs_of_nonneg (by positivity)]
    have := (div_le_one (Nat.cast_pos.mpr some_)).mpr (Nat.cast_le.mpr proper : (a : ℚ) ≤ b)
    linarith [show (2 : ℚ)^(1 : ℤ) = 2 from zpow_one 2]
  have rounded : |(n - 1 : Nat) * (literal a b).val| < 2^(33 : ℤ) := by
    rw [abs_of_nonneg (mul_nonneg count low)]
    have := mul_le_of_le_one_right count high
    linarith [show (2 : ℚ)^(33 : ℤ) = 2^33 from zpow_natCast 2 33]
  have first : |(a : ℚ) / b - (literal a b).val| ≤ 1/2 * 2^(1 - 53 : ℤ) :=
    nearestError binary64 share (by decide)
  have second : |(n - 1 : Nat) * (literal a b).val - rank n (literal a b)| ≤ 1/2 * 2^(33 - 53 : ℤ) :=
    nearestError binary64 rounded (by decide)
  have scaled : |(n - 1 : Nat) * ((a : ℚ) / b) - (n - 1 : Nat) * (literal a b).val| ≤
      2^32 * (1/2 * 2^(1 - 53 : ℤ)) := by
    rw [← mul_sub, abs_mul, abs_of_nonneg count]
    exact mul_le_mul bound first (abs_nonneg _) (by positivity)
  calc |(n - 1 : Nat) * ((a : ℚ) / b) - rank n (literal a b)|
      ≤ |(n - 1 : Nat) * ((a : ℚ) / b) - (n - 1 : Nat) * (literal a b).val| +
        |(n - 1 : Nat) * (literal a b).val - rank n (literal a b)| := abs_sub_le _ _ _
    _ ≤ 2^32 * (1/2 * 2^(1 - 53 : ℤ)) + 1/2 * 2^(33 - 53 : ℤ) := add_le_add scaled second
    _ = 1 / 2^20 := by norm_num

theorem percentileQuantile (measured : Measured s) {a b : Nat} (proper : a ≤ b) (some_ : 0 < b)
    (coarse : b < 2^20) (few : s.length ≤ 2^32) : Quantile a b s (percentile s s.length (literal a b)) := by
  have fraction := literalFraction proper some_
  have positive : (0 : ℚ) < b := Nat.cast_pos.mpr some_
  obtain ⟨inside, _⟩ := endsOrdered measured fraction
  obtain ⟨low, high⟩ := pointRange measured fraction
  obtain ⟨less, more⟩ := abs_le.mp (rankNear proper some_ few)
  have whole : (s.length - 1 : Nat) * ((a : ℚ) / b) * b = ((a * (s.length - 1) : Nat) : ℚ) := by
    push_cast
    field_simp
  have small : (b : ℚ) * (1 / 2^20) < 1 := by
    have : (b : ℚ) < 2^20 := by exact_mod_cast coarse
    linarith
  rw [percentilePoint measured fraction]
  constructor
  case below =>
    have next := Nat.lt_floor_add_one (rank s.length (literal a b))
    have reached : a * (s.length - 1) ≤ b * (⌊rank s.length (literal a b)⌋₊ + 1) := by
      have strict : ((a * (s.length - 1) : Nat) : ℚ) <
          (b * (⌊rank s.length (literal a b)⌋₊ + 1) + 1 : Nat) := by
        rw [← whole]
        push_cast
        nlinarith
      exact Nat.lt_succ_iff.mp (Nat.cast_lt.mp strict)
    have enough := countBelow measured.sorted (Nat.lt_of_le_of_lt (Nat.floor_le_ceil _) inside)
      (Nat.le_floor low)
    exact reached.trans (Nat.mul_le_mul_left b enough)
  case above =>
    have last := Nat.ceil_lt_add_one (rankRange measured.count fraction).1
    have reached : b * ⌈rank s.length (literal a b)⌉₊ ≤ a * (s.length - 1) + b := by
      have strict : ((b * ⌈rank s.length (literal a b)⌉₊ : Nat) : ℚ) < (a * (s.length - 1) + b + 1 : Nat) := by
        rw [Nat.cast_add, Nat.cast_add, ← whole]
        push_cast
        nlinarith
      exact Nat.lt_succ_iff.mp (Nat.cast_lt.mp strict)
    have enough := countAbove measured.sorted (Nat.floor_le_of_le high)
    refine le_trans ?_ (Nat.mul_le_mul_left b enough)
    rw [Nat.mul_sub b s.length]
    refine Nat.le_sub_of_add_le ((Nat.add_le_add_left reached _).trans (le_of_eq ?_))
    calc (b - a) * (s.length - 1) + (a * (s.length - 1) + b)
        = (b - a + a) * (s.length - 1) + b := by ring
      _ = b * (s.length - 1 + 1) := by rw [Nat.sub_add_cancel proper]; ring
      _ = b * s.length := by rw [Nat.sub_add_cancel (lengthPositive measured)]

end Quantiles

end Vpipe.Percentile
