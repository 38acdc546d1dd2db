import Vpipe.Lib.ByteMemory
import Vpipe.Uapi

/-! The image work of `vpipe-cv.c`: ROI clamp, row copy and threshold over a job's
source and destination planes. `row * stride` is formed in u32, as in the source; the
pixel column is added to the row pointer. -/
namespace Vpipe.Cv
open Vpipe.Lib.Word Vpipe.Lib.ByteMemory

structure Roi where
  left : Int := 0
  top : Int := 0
  width : Int := 0
  height : Int := 0
  deriving DecidableEq, Repr

structure JobDesc where
  src : Plane
  dst : Plane
  width : Nat
  height : Nat
  srcStride : Nat
  dstStride : Nat
  deriving DecidableEq, Repr

structure CvResult where
  algoStatus : Nat
  value0 : Nat
  value1 : Nat
  roi : Roi
  deriving DecidableEq, Repr

def vpipeClampRoi (job : JobDesc) (roi : Option Roi) : Roi :=
  let fw := s32 job.width
  let fh := s32 job.height
  match roi with
  | none => ⟨0,0,fw,fh⟩
  | some roi =>
    if roi.width ≤ 0 ∨ roi.height ≤ 0 then ⟨0,0,fw,fh⟩
    else
      let left := clampInt roi.left 0 fw
      let top := clampInt roi.top 0 fh
      -- The sums are s64 and cannot wrap; the clamped values are stored as s32.
      let right := s32 (clampInt (left + roi.width) left fw)
      let bottom := s32 (clampInt (top + roi.height) top fh)
      ⟨left,top,s32 (right - left),s32 (bottom - top)⟩

def vpipeCopyFrame (job : JobDesc) (m : Mem) : Mem :=
  loop job.height (fun row m =>
    m.copy job.dst (u32 (row * job.dstStride)) job.src (u32 (row * job.srcStride)) job.width) m

structure Threshold where
  mem : Mem
  white : Nat
  black : Nat

def thresholdPixel (threshold : Nat) (pixel : UInt8) : UInt8 :=
  if pixel.toNat > threshold then 255 else 0

def thresholdAt (job : JobDesc) (threshold : Nat) (y x : Int) (t : Threshold) : Threshold :=
  let source := toU32 (y * job.srcStride) + x
  let target := toU32 (y * job.dstStride) + x
  let pixel := thresholdPixel threshold (t.mem.get job.src source)
  let mem := (t.mem.touch job.src source).write job.dst target pixel
  if pixel ≠ 0 then ⟨mem,t.white + 1,t.black⟩ else ⟨mem,t.white,t.black + 1⟩

/- The number of rounds of for (y = start; y < start + extent; y++) on s32. -/
def rounds (start extent : Int) : Nat := (s32 (start + extent) - start).toNat

def thresholdRow (job : JobDesc) (threshold : Nat) (roi : Roi) (y : Int) (t : Threshold) : Threshold :=
  loop (rounds roi.left roi.width) (fun k t => thresholdAt job threshold y (roi.left + k) t) t

def vpipeThresholdFrame (job : JobDesc) (threshold : Nat) (roi : Roi) (m : Mem) : Threshold :=
  loop (rounds roi.top roi.height) (fun k t => thresholdRow job threshold roi (roi.top + k) t)
    ⟨vpipeCopyFrame job m,0,0⟩

def vpipeCvProcess (job : JobDesc) (algoId threshold : Nat) (roi : Option Roi) (m : Mem) :
    Except Errno (CvResult × Mem) :=
  let clamped := vpipeClampRoi job roi
  if algoId = algoNone then .ok (⟨0,0,0,clamped⟩,vpipeCopyFrame job m)
  else if algoId = algoThreshold then
    let t := vpipeThresholdFrame job threshold clamped m
    .ok (⟨0,t.white,t.black,clamped⟩,t.mem)
  else .error .einval

structure Shaped (job : JobDesc) : Prop where
  width : job.width ≤ 4096
  height : job.height ≤ 4096
  srcRow : job.width ≤ job.srcStride
  dstRow : job.width ≤ job.dstStride
  srcTotal : job.height * job.srcStride < 2^32
  dstTotal : job.height * job.dstStride < 2^32

structure Fits (job : JobDesc) : Prop extends Shaped job where
  src : job.height * job.srcStride ≤ job.src.size
  dst : job.height * job.dstStride ≤ job.dst.size

structure Inside (roi : Roi) (width height : Nat) : Prop where
  left : 0 ≤ roi.left
  top : 0 ≤ roi.top
  wide : 0 ≤ roi.width
  high : 0 ≤ roi.height
  right : roi.left + roi.width ≤ width
  bottom : roi.top + roi.height ≤ height

theorem clampAxis (start extent frame : Int) (low : 0 ≤ frame) (high : frame < 2^31) :
    let first := clampInt start 0 frame
    let last := s32 (clampInt (first + extent) first frame)
    0 ≤ first ∧ s32 (last - first) = clampInt (first + extent) first frame - first ∧
      0 ≤ s32 (last - first) ∧ first + s32 (last - first) ≤ frame := by
  intro first last
  have startBounds : 0 ≤ first ∧ first ≤ frame := clampIntBounds start low
  have endBounds := clampIntBounds (first + extent) startBounds.2
  have lastIs : last = clampInt (first + extent) first frame := s32Of (by omega) (by omega)
  have span : s32 (last - first) = last - first := s32Of (by omega) (by omega)
  rw [span, lastIs]
  omega

theorem clampInside {job : JobDesc} (width : job.width ≤ 4096) (height : job.height ≤ 4096)
    (roi : Option Roi) : Inside (vpipeClampRoi job roi) job.width job.height := by
  have fw : s32 job.width = job.width := s32Of (by omega) (by omega)
  have fh : s32 job.height = job.height := s32Of (by omega) (by omega)
  cases roi with
  | none => constructor <;> simp [vpipeClampRoi, fw, fh]
  | some roi =>
    unfold vpipeClampRoi
    simp only [fw, fh]
    split
    · constructor <;> simp
    · obtain ⟨left, _, wide, right⟩ := clampAxis roi.left roi.width job.width (by omega) (by omega)
      obtain ⟨top, _, high, bottom⟩ := clampAxis roi.top roi.height job.height (by omega) (by omega)
      exact ⟨left,top,wide,high,right,bottom⟩

theorem roundsOf {start extent : Int} (low : 0 ≤ start) (high : start + extent < 2^31)
    (some : 0 ≤ extent) : (rounds start extent : Int) = extent := by
  unfold rounds
  rw [s32Of (by omega) high]
  omega

theorem copyFrameWithin {job : JobDesc} (fits : Fits job) (m : Mem) :
    Within Access.InBounds m (vpipeCopyFrame job m) := by
  refine withinLoop (fun row t inFrame => withinCopy ?_ ?_)
  · intro k inRow
    have bound := rowBound (Nat.lt_of_lt_of_le inRow fits.srcRow) inFrame
    have := fits.src
    rw [rowOffset inFrame fits.srcTotal]
    constructor <;> simp only <;> omega
  · intro k inRow
    have bound := rowBound (Nat.lt_of_lt_of_le inRow fits.dstRow) inFrame
    have := fits.dst
    rw [rowOffset inFrame fits.dstTotal]
    constructor <;> simp only <;> omega

theorem thresholdAtMem (job : JobDesc) (threshold : Nat) (y x : Int) (t : Threshold) :
    (thresholdAt job threshold y x t).mem =
      (t.mem.touch job.src (toU32 (y * job.srcStride) + x)).write job.dst
        (toU32 (y * job.dstStride) + x)
        (thresholdPixel threshold (t.mem.get job.src (toU32 (y * job.srcStride) + x))) := by
  unfold thresholdAt
  simp only
  split <;> rfl

theorem thresholdAtWithin {job : JobDesc} (fits : Fits job) (threshold : Nat) {y x : Int}
    (top : 0 ≤ y) (bottom : y < job.height) (left : 0 ≤ x) (right : x < job.width) (t : Threshold) :
    Within Access.InBounds t.mem (thresholdAt job threshold y x t).mem := by
  rw [thresholdAtMem, rowOffsetSigned top bottom fits.srcTotal, rowOffsetSigned top bottom fits.dstTotal]
  have source : y.toNat * job.srcStride + x.toNat < job.height * job.srcStride :=
    rowBound (Nat.lt_of_lt_of_le (by omega) fits.srcRow) (by omega)
  have target : y.toNat * job.dstStride + x.toNat < job.height * job.dstStride :=
    rowBound (Nat.lt_of_lt_of_le (by omega) fits.dstRow) (by omega)
  have := fits.src
  have := fits.dst
  refine withinTrans (withinTouch _ ?_) (withinWrite _ _ ?_)
  · constructor <;> simp only <;> omega
  · constructor <;> simp only <;> omega

theorem thresholdFrameWithin {job : JobDesc} (fits : Fits job) (threshold : Nat) {roi : Roi}
    (inside : Inside roi job.width job.height) (m : Mem) :
    Within Access.InBounds m (vpipeThresholdFrame job threshold roi m).mem := by
  obtain ⟨left, top, wide, high, right, bottom⟩ := inside
  have width := fits.width
  have height := fits.height
  have rows := roundsOf top (by omega) high
  have columns := roundsOf left (by omega) wide
  refine loopInvariant (fun _ (t : Threshold) => Within Access.InBounds m t.mem) (copyFrameWithin fits m) ?_
  intro j t inRows so
  refine withinTrans so (loopInvariant (fun _ (u : Threshold) => Within Access.InBounds t.mem u.mem)
    (withinRefl _) ?_)
  intro k u inColumns done
  exact withinTrans done
    (thresholdAtWithin fits threshold (by omega) (by omega) (by omega) (by omega) u)

theorem cvProcessWithin {job : JobDesc} (fits : Fits job) {algoId threshold : Nat} {roi : Option Roi}
    {m m' : Mem} {result : CvResult} (done : vpipeCvProcess job algoId threshold roi m = .ok (result,m')) :
    Within Access.InBounds m m' := by
  unfold vpipeCvProcess at done
  simp only at done
  split at done
  · cases done
    exact copyFrameWithin fits m
  · split at done
    · cases done
      exact thresholdFrameWithin fits threshold (clampInside fits.width fits.height roi) m
    · contradiction

def Roi.Has (roi : Roi) (x y : Nat) : Prop :=
  roi.left ≤ x ∧ (x : Int) < roi.left + roi.width ∧ roi.top ≤ y ∧ (y : Int) < roi.top + roi.height

instance (roi : Roi) (x y : Nat) : Decidable (roi.Has x y) := by unfold Roi.Has; infer_instance

theorem clampHas {job : JobDesc} (width : job.width ≤ 4096) (height : job.height ≤ 4096) {roi : Roi}
    (wide : 0 < roi.width) (high : 0 < roi.height) {x y : Nat} (inRow : x < job.width)
    (inFrame : y < job.height) :
    (vpipeClampRoi job (some roi)).Has x y ↔
      (clampInt roi.left 0 job.width ≤ x ∧ (x : Int) < clampInt roi.left 0 job.width + roi.width) ∧
      (clampInt roi.top 0 job.height ≤ y ∧ (y : Int) < clampInt roi.top 0 job.height + roi.height) := by
  have fw : s32 job.width = job.width := s32Of (by omega) (by omega)
  have fh : s32 job.height = job.height := s32Of (by omega) (by omega)
  unfold vpipeClampRoi
  simp only [fw, fh]
  rw [if_neg (by omega)]
  obtain ⟨_, columns, _, _⟩ := clampAxis roi.left roi.width job.width (by omega) (by omega)
  obtain ⟨_, rows, _, _⟩ := clampAxis roi.top roi.height job.height (by omega) (by omega)
  simp only [Roi.Has, columns, rows]
  unfold clampInt
  omega

end Vpipe.Cv
