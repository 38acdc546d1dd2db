import Vpipe.Runner

/-! The gradient check of `vpipe-vcam-dmabuf-test`, and the five loops that draw and recognise the
gradient: those of the two backends, of the benchmark tool and of this test. A frame is read byte
by byte from its first pixel on; only the pixels of its rows are visible, not what the stride adds. -/
namespace Vpipe.GradientCheck
open Vpipe.Lib.Word Vpipe.Lib.ByteMemory Vpipe.FrameSource Vpipe.Gradient

def verifyGradient (pix : Nat → UInt8) (width height stride : Nat) : Nat :=
  let offset := (pix 0).toNat
  loop height (fun y mismatches => loop width (fun x mismatches =>
    if pix (u32 (u32 (y * stride) + x)) ≠ UInt8.ofNat (u32 (x + y + offset) &&& 0xFF) then u64 (mismatches + 1)
    else mismatches) mismatches) 0

inductive Producer where
  | synthetic | vcam
  deriving DecidableEq, Repr

def Producer.fill : Producer → Plane → Nat → Nat → Nat → Nat → Mem → Mem
  | .synthetic => syntheticFillGradient
  | .vcam => vcamFillGradient

def Producer.frame (p : Producer) (dst : Plane) (width height stride offset : Nat) (m : Mem) (i : Nat) :
    UInt8 :=
  (p.fill dst width height stride offset m).get dst i

def SameVisible (width height stride : Nat) (a b : Nat → UInt8) : Prop :=
  ∀ x y, x < width → y < height → a (y * stride + x) = b (y * stride + x)

def ShowsShade (width height stride : Nat) (a : Nat → UInt8) (offset : Nat) : Prop :=
  ∀ x y, x < width → y < height → a (y * stride + x) = shade x y offset

section Shades
variable {width height stride : Nat} {a b : Nat → UInt8} {m n : Nat}

theorem shadeCorner (offset : Nat) : (shade 0 0 offset).toNat = offset % 256 := by simp [shade]

theorem fillShows (p : Producer) (row : width ≤ stride) (total : height * stride < 2^32) (dst : Plane)
    (offset : Nat) (mem : Mem) :
    ShowsShade width height stride (p.frame dst width height stride offset mem) offset := by
  intro x y inRow inFrame
  cases p with
  | synthetic => exact gradientPixels row total dst offset mem inRow inFrame
  | vcam => exact vcamGradientPixels row total dst offset mem inRow inFrame

theorem shadesSame (first : ShowsShade width height stride a m) (second : ShowsShade width height stride b n)
    (same : m % 256 = n % 256) : SameVisible width height stride a b := by
  intro x y inRow inFrame
  rw [first x y inRow inFrame, second x y inRow inFrame]
  exact shadeCongr x y same

theorem showsCorner (wide : 1 ≤ width) (tall : 1 ≤ height) (shows_ : ShowsShade width height stride a m) :
    (a 0).toNat = m % 256 := by
  have corner := shows_ 0 0 wide tall
  rw [Nat.zero_mul] at corner
  rw [corner, shadeCorner]

theorem shadesTold (wide : 1 ≤ width) (tall : 1 ≤ height) (first : ShowsShade width height stride a m)
    (second : ShowsShade width height stride b n) :
    SameVisible width height stride a b ↔ m % 256 = n % 256 := by
  refine ⟨fun same => ?_,shadesSame first second⟩
  have corner := same 0 0 wide tall
  rw [Nat.zero_mul] at corner
  rw [← showsCorner wide tall first, ← showsCorner wide tall second]
  exact congrArg UInt8.toNat corner

theorem showsOwn (wide : 1 ≤ width) (tall : 1 ≤ height) (shows_ : ShowsShade width height stride a m) :
    ShowsShade width height stride a (a 0).toNat := by
  intro x y inRow inFrame
  rw [shows_ x y inRow inFrame, showsCorner wide tall shows_]
  exact shadeCongr x y (Nat.mod_mod m 256).symm

end Shades

theorem countLoop (good : Nat → Prop) [DecidablePred good] {n start : Nat} (room : start + n < 2^64) :
    let count := loop n (fun i c => if ¬ good i then u64 (c + 1) else c) start
    start ≤ count ∧ count ≤ start + n ∧ (count = start ↔ ∀ i, i < n → good i) := by
  refine loopInvariant (fun k c => start ≤ c ∧ c ≤ start + k ∧ (c = start ↔ ∀ i, i < k → good i)) ?_ ?_
  · exact ⟨Nat.le_refl _,Nat.le_refl _,by simp⟩
  · rintro k c below ⟨low, high, same⟩
    by_cases here : good k
    · rw [if_neg (not_not.mpr here)]
      refine ⟨low,by omega,same.trans ?_⟩
      rw [Nat.forall_lt_succ_right]
      exact (and_iff_left here).symm
    · rw [if_pos here, u64Of (show c + 1 < 2^64 by omega)]
      exact ⟨by omega,by omega,by omega,fun all => absurd (all k (Nat.lt_succ_self k)) here⟩

theorem countRows (good : Nat → Nat → Prop) [∀ y, DecidablePred (good y)] {width height : Nat}
    (room : height * width < 2^64) :
    loop height (fun y c => loop width (fun x c => if ¬ good y x then u64 (c + 1) else c) c) 0 = 0 ↔
      ∀ y, y < height → ∀ x, x < width → good y x := by
  refine (loopInvariant (fun k c => c ≤ k * width ∧ (c = 0 ↔ ∀ y, y < k → ∀ x, x < width → good y x))
    (by simp) ?_).2
  rintro k c below ⟨small, same⟩
  have rows := Nat.mul_le_mul_right width below
  rw [Nat.succ_mul] at rows
  obtain ⟨low, high, kept⟩ := countLoop (good k) (show c + width < 2^64 by omega)
  refine ⟨by rw [Nat.succ_mul]; omega,?_⟩
  rw [Nat.forall_lt_succ_right, ← same]
  constructor
  · intro none_
    have zero : c = 0 := by omega
    exact ⟨zero,kept.mp (none_.trans zero.symm)⟩
  · rintro ⟨zero, row⟩
    exact (kept.mpr row).trans zero

theorem verifiedShade {width height stride : Nat} (row : width ≤ stride) (total : height * stride < 2^32)
    (pix : Nat → UInt8) :
    verifyGradient pix width height stride = 0 ↔ ShowsShade width height stride pix (pix 0).toNat := by
  have cells := Nat.mul_le_mul_left height row
  refine (countRows (fun y x => pix (u32 (u32 (y * stride) + x)) =
    UInt8.ofNat (u32 (x + y + (pix 0).toNat) &&& 0xFF)) (by omega)).trans ?_
  have index : ∀ y, y < height → ∀ x, x < width → u32 (u32 (y * stride) + x) = y * stride + x := by
    intro y inFrame x inRow
    have bound := rowBound (Nat.lt_of_lt_of_le inRow row) inFrame
    rw [rowOffset inFrame total]
    exact u32Of (by omega)
  constructor
  · intro all x y inRow inFrame
    rw [← index y inFrame x inRow, all y inFrame x inRow, shadeMasked]
  · intro shows_ y inFrame x inRow
    rw [index y inFrame x inRow, shows_ x y inRow inFrame, shadeMasked]

theorem acceptedShade (cap : Nat → UInt8) : Runner.verifyGradient cap = true ↔
    ShowsShade Runner.width Runner.height Runner.stride cap (cap 0).toNat := by
  simp only [Runner.verifyGradient, List.all_eq_true, List.mem_range, beq_iff_eq, shadeMasked]
  exact ⟨fun all x y inRow inFrame => all y inFrame x inRow,
    fun shows_ y inFrame x inRow => shows_ x y inRow inFrame⟩

theorem runnerFill (dst : Plane) (offset : Nat) (m : Mem) : Runner.fillGradient dst offset m =
    vcamFillGradient dst Runner.width Runner.height Runner.stride offset m := by
  unfold Runner.fillGradient vcamFillGradient gradientRows
  refine congrArg (fun t : Mem => t.write dst 0 (UInt8.ofNat (offset &&& 0xFF)))
    (loopCongr (fun y t inFrame => ?_))
  have small : y * Runner.stride < 2^32 := by
    unfold Runner.stride Runner.width
    unfold Runner.height at inFrame
    omega
  rw [u32Of small, u64Of (by omega)]

theorem runnerShows (dst : Plane) (offset : Nat) (m : Mem) : ShowsShade Runner.width Runner.height Runner.stride
    (fun i => (Runner.fillGradient dst offset m).get dst i) offset := by
  rw [runnerFill]
  exact fillShows .vcam (Nat.le_refl Runner.width) (by decide) dst offset m

theorem wholeFrame (a b : Nat → UInt8) :
    (List.range (Runner.height * Runner.stride)).map a = (List.range (Runner.height * Runner.stride)).map b ↔
      SameVisible Runner.width Runner.height Runner.stride a b := by
  rw [List.map_inj_left]
  constructor
  · intro same x y inRow inFrame
    exact same _ (List.mem_range.mpr (rowBound inRow inFrame))
  · intro same i member
    have cell := same (i % Runner.stride) (i / Runner.stride) (Nat.mod_lt i (by decide))
      (Nat.div_lt_of_lt_mul (by rw [Nat.mul_comm]; exact List.mem_range.mp member))
    rwa [Nat.div_add_mod'] at cell

structure Agree (width height stride : Nat) : Prop where
  same : ∀ (dst dst' : Plane) (offset : Nat) (m m' : Mem), SameVisible width height stride
    (Producer.frame .synthetic dst width height stride offset m)
    (Producer.frame .vcam dst' width height stride offset m')
  verified : ∀ (p : Producer) (dst : Plane) (offset : Nat) (m : Mem),
    verifyGradient (p.frame dst width height stride offset m) width height stride = 0
  recovered : ∀ pix : Nat → UInt8, verifyGradient pix width height stride = 0 →
    ∃ offset, offset < 2^32 ∧ ∀ (p : Producer) (dst : Plane) (m : Mem),
      SameVisible width height stride pix (p.frame dst width height stride offset m)
  told : ∀ (p q : Producer) (dst dst' : Plane) (a b : Nat) (m m' : Mem), SameVisible width height stride
    (p.frame dst width height stride a m) (q.frame dst' width height stride b m') ↔ a % 256 = b % 256

structure RunnerAgrees : Prop where
  same : ∀ (p : Producer) (dst dst' : Plane) (offset : Nat) (m m' : Mem),
    (p.fill dst Runner.width Runner.height Runner.stride offset m).slice dst (Runner.height * Runner.stride) =
      (Runner.fillGradient dst' offset m').slice dst' (Runner.height * Runner.stride)
  accepted : ∀ (cap : Nat → UInt8) (dst : Plane) (offset : Nat) (m : Mem),
    (List.range (Runner.height * Runner.stride)).map cap =
        (Runner.fillGradient dst offset m).slice dst (Runner.height * Runner.stride) →
      Runner.verifyGradient cap = true ∧ verifyGradient cap Runner.width Runner.height Runner.stride = 0
  recovered : ∀ cap : Nat → UInt8, Runner.verifyGradient cap = true → ∃ offset, offset < 2^32 ∧
    ∀ (dst : Plane) (m : Mem), (List.range (Runner.height * Runner.stride)).map cap =
      (Runner.fillGradient dst offset m).slice dst (Runner.height * Runner.stride)

theorem agreeAt {width height stride : Nat} (wide : 1 ≤ width) (tall : 1 ≤ height) (row : width ≤ stride)
    (total : stride * height < 2^32) : Agree width height stride := by
  rw [Nat.mul_comm] at total
  refine ⟨?_,?_,?_,?_⟩
  · intro dst dst' offset m m'
    exact shadesSame (fillShows .synthetic row total dst offset m)
      (fillShows .vcam row total dst' offset m') rfl
  · intro p dst offset m
    exact (verifiedShade row total _).mpr (showsOwn wide tall (fillShows p row total dst offset m))
  · intro pix none_
    refine ⟨(pix 0).toNat,Nat.lt_trans (pix 0).toNat_lt (by decide),fun p dst m => ?_⟩
    exact shadesSame ((verifiedShade row total pix).mp none_) (fillShows p row total dst (pix 0).toNat m) rfl
  · intro p q dst dst' a b m m'
    exact shadesTold wide tall (fillShows p row total dst a m) (fillShows q row total dst' b m')

theorem runnerAgrees : RunnerAgrees := by
  have wide : 1 ≤ Runner.width := by decide
  have tall : 1 ≤ Runner.height := by decide
  have row : Runner.width ≤ Runner.stride := Nat.le_refl _
  have total : Runner.height * Runner.stride < 2^32 := by decide
  refine ⟨?_,?_,?_⟩
  · intro p dst dst' offset m m'
    exact (wholeFrame _ _).mpr (shadesSame (fillShows p row total dst offset m)
      (runnerShows dst' offset m') rfl)
  · intro cap dst offset m held
    have same := (wholeFrame cap (fun i => (Runner.fillGradient dst offset m).get dst i)).mp held
    have own : ShowsShade Runner.width Runner.height Runner.stride cap (cap 0).toNat :=
      showsOwn wide tall (fun x y inRow inFrame =>
        (same x y inRow inFrame).trans (runnerShows dst offset m x y inRow inFrame))
    exact ⟨(acceptedShade cap).mpr own,(verifiedShade row total cap).mpr own⟩
  · intro cap accepted
    refine ⟨(cap 0).toNat,Nat.lt_trans (cap 0).toNat_lt (by decide),fun dst m => ?_⟩
    exact (wholeFrame _ _).mpr (shadesSame ((acceptedShade cap).mp accepted) (runnerShows dst _ m) rfl)

/-- The three loops that draw the gradient write the same pixels, and the two that recognise it
take exactly what they write. -/
theorem gradientsAgree : (∀ width height stride : Nat, 1 ≤ width → 1 ≤ height → width ≤ stride →
    stride * height < 2^32 → Agree width height stride) ∧ RunnerAgrees :=
  ⟨fun _ _ _ wide tall row total => agreeAt wide tall row total,runnerAgrees⟩

theorem wrappedGradientVerified : (1 ≤ 3 ∧ 1 ≤ 2 ∧ 3 ≤ 4 ∧ 4 * 2 < 2^32) ∧
    verifyGradient (Producer.frame .vcam ⟨0,8⟩ 3 2 4 (2^32 - 1) ⟨fun _ _ => 7,[]⟩) 3 2 4 = 0 ∧
    Producer.frame .vcam ⟨0,8⟩ 3 2 4 (2^32 - 1) ⟨fun _ _ => 7,[]⟩ 6 = 2 :=
  ⟨by decide,(gradientsAgree.1 3 2 4 (by decide) (by decide) (by decide) (by decide)).verified .vcam ⟨0,8⟩ _ _,
    by decide⟩

end Vpipe.GradientCheck
