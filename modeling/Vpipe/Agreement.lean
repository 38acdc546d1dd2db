import Vpipe.CvContract
import Vpipe.Reference

/-! The kernel's threshold against the userspace reference: the two clamps describe the same
pixels, and the frames they leave are equal. -/
namespace Vpipe.Agreement
open Vpipe.Lib.Word Vpipe.Lib.ByteMemory Vpipe.Cv Vpipe.CvContract Vpipe.Pgm Vpipe.Reference

def S32 (z : Int) : Prop := -2^31 ≤ z ∧ z < 2^31

instance (z : Int) : Decidable (S32 z) := inferInstanceAs (Decidable (_ ∧ _))

theorem axisAgrees {start extent : Int} {frame : Nat} (small : frame ≤ 4096) (first : S32 start)
    (last : S32 extent) (some_ : 0 < extent) (x : Nat) (inside : x < frame) :
    (clampInt start 0 frame ≤ x ∧ (x : Int) < clampInt start 0 frame + extent) ↔
      (firstOf start frame ≤ x ∧ x < lastOf (firstOf start frame) extent frame) := by
  obtain ⟨low, high⟩ := first
  obtain ⟨_, bound⟩ := last
  have extentIs : (toU32 extent : Int) = extent := toU32Of (by omega) (by omega)
  have firstIs : (firstOf start frame : Int) = clampInt start 0 frame := by
    unfold firstOf clampInt
    split
    · omega
    · have startIs : (toU32 start : Int) = start := toU32Of (by omega) (by omega)
      split <;> omega
  unfold lastOf
  split <;> omega

theorem roiAgrees {job : JobDesc} {src : PgmImage} (sized : WellSized src) (width : job.width = src.width)
    (height : job.height = src.height) {roi : Roi} (left : S32 roi.left) (top : S32 roi.top)
    (wide : S32 roi.width)
    (high : S32 roi.height) (x y : Nat) : (vpipeClampRoi job (some roi)).Has x y ↔
      (windowOf src roi.left roi.top roi.width roi.height).Has x y := by
  have small : job.width ≤ 4096 ∧ job.height ≤ 4096 := ⟨width ▸ sized.width.2,height ▸ sized.height.2⟩
  by_cases empty : roi.width ≤ 0 ∨ roi.height ≤ 0
  · rw [clampWhole small.1 small.2 (fun r same => Option.some.inj same ▸ empty), windowOf,
      if_pos empty, width, height]
    simp only [Roi.Has, Window.Has]
    omega
  · by_cases visible : x < job.width ∧ y < job.height
    · rw [clampHas small.1 small.2 (by omega) (by omega) visible.1 visible.2, windowOf,
        if_neg empty, width, height, axisAgrees sized.width.2 left wide (by omega) x (by omega),
        axisAgrees sized.height.2 top high (by omega) y (by omega)]
      simp only [Window.Has, and_assoc]
    · -- Neither side has a pixel outside the frame.
      obtain ⟨_, _, _, _, right, bottom⟩ := clampInside small.1 small.2 (some roi)
      obtain ⟨inRight, inBottom⟩ := windowInside src roi.left roi.top roi.width roi.height
      refine ⟨fun has => absurd ?_ visible,fun has => absurd ?_ visible⟩
      · obtain ⟨_, inRow, _, inFrame⟩ := has
        omega
      · obtain ⟨_, inRow, _, inFrame⟩ := has
        omega

def packed (src : PgmImage) (srcBlock dstBlock : Nat) : JobDesc :=
  ⟨⟨srcBlock,src.size⟩,⟨dstBlock,src.size⟩,src.width,src.height,src.width,src.width⟩

theorem packedShaped {src : PgmImage} (sized : WellSized src) (srcBlock dstBlock : Nat) :
    Shaped (packed src srcBlock dstBlock) := by
  have width := sized.width.2
  have height := sized.height.2
  have total : src.height * src.width < 2^32 := by
    calc src.height * src.width ≤ 4096 * 4096 := Nat.mul_le_mul height width
      _ < 2^32 := by decide
  exact ⟨width,height,Nat.le_refl _,Nat.le_refl _,total,total⟩

/-- The frame the kernel leaves is the reference's, byte for byte, and the ROI it reports is the
set of pixels the reference rewrites. -/
theorem frameMatchesReference {src : PgmImage} (sized : WellSized src) (threshold : UInt8) {roi : Roi}
    (left : S32 roi.left) (top : S32 roi.top) (wide : S32 roi.width) (high : S32 roi.height)
    {srcBlock dstBlock : Nat} (apart : srcBlock ≠ dstBlock) {m : Mem}
    (loaded : m.slice ⟨srcBlock,src.size⟩ src.size = src.pixels) :
    ∃ result m' dst,
      vpipeCvProcess (packed src srcBlock dstBlock) algoThreshold threshold.toNat (some roi) m =
        .ok (result,m') ∧
      vpipeThresholdReference src threshold roi.left roi.top roi.width roi.height = some dst ∧
      m'.slice ⟨dstBlock,src.size⟩ src.size = dst.pixels ∧
      ∀ x y, result.roi.Has x y ↔ (windowOf src roi.left roi.top roi.width roi.height).Has x y := by
  have shaped := packedShaped sized srcBlock dstBlock
  have same : ∀ x y, (vpipeClampRoi (packed src srcBlock dstBlock) (some roi)).Has x y ↔
      (windowOf src roi.left roi.top roi.width roi.height).Has x y :=
    roiAgrees sized rfl rfl left top wide high
  obtain ⟨dst, made⟩ : ∃ dst, vpipeThresholdReference src threshold roi.left roi.top roi.width roi.height =
      some dst :=
    ⟨_,rfl⟩
  obtain ⟨_, _, _, length, pixels⟩ := referencePixels sized made
  refine ⟨_,_,dst,runsThreshold _ _ _ _,made,?_,same⟩
  refine pixelsExt ((sliceLength _ _ _).trans sized.size) (length.trans sized.size) ?_
  intro x y inRow inFrame
  have cell : y * src.width + x < src.size := sized.pixels ▸ pixelInside sized inRow inFrame
  have held : src.pixels[y * src.width + x]? = some (source (packed src srcBlock dstBlock) m x y) := by
    rw [← loaded, sliceAt m _ cell]
    rfl
  have painted := thresholdPixels shaped (.inl apart) threshold.toNat
    (clampInside shaped.width shaped.height (some roi)) m inRow inFrame
  rw [sliceAt _ _ cell, pixels x y inRow inFrame]
  refine (congrArg some painted).trans ?_
  by_cases has : (vpipeClampRoi (packed src srcBlock dstBlock) (some roi)).Has x y
  · rw [if_pos has, if_pos ((same x y).mp has), referenceAt, List.getD_eq_getElem?_getD, held]
    rfl
  · rw [if_neg has, if_neg (fun window => has ((same x y).mpr window)), held]
    rfl

def twoPixels : PgmImage := ⟨2,1,2,[10,200]⟩

theorem twoPixelsMatch : (S32 (-(2^31)) ∧ S32 (2^31 - 1)) ∧ ∃ result m' dst,
    vpipeCvProcess (packed twoPixels 0 1) algoThreshold (100 : UInt8).toNat (some ⟨-(2^31),0,2^31 - 1,1⟩)
      ⟨fun _ i => if i = 0 then 10 else 200,[]⟩ = .ok (result,m') ∧
    vpipeThresholdReference twoPixels 100 (-(2^31)) 0 (2^31 - 1) 1 = some dst ∧
    m'.slice ⟨1,2⟩ 2 = dst.pixels ∧
    ∀ x y, result.roi.Has x y ↔ (windowOf twoPixels (-(2^31)) 0 (2^31 - 1) 1).Has x y :=
  ⟨by decide,@frameMatchesReference twoPixels ⟨by decide,by decide,by decide,by decide⟩ 100
    ⟨-(2^31),0,2^31 - 1,1⟩
    (by decide) (by decide) (by decide) (by decide) 0 1 (by decide) ⟨fun _ i => if i = 0 then 10 else 200,[]⟩
    (by decide)⟩

end Vpipe.Agreement
