import Vpipe.Lib.Checked
import Vpipe.Runs

/-! The format ioctls over whole runs, and the index arithmetic of the loops that walk over frames
of the format they leave. Of a `v4l2_pix_format` the fields the driver writes are kept. -/
namespace Vpipe.Formats
open Vpipe.Lib.Word Vpipe.Lib.ByteMemory Vpipe.Lib.Checked Vpipe.Lib.Transition
open Vpipe.Cv Vpipe.FrameSource Vpipe.M2m Vpipe.Moves Vpipe.Discipline Vpipe.Runs

inductive Request where
  | event (e : Event)
  | tryFmt (t : QType) (pix : PixFormat)
  | gFmt (t : QType)
  deriving DecidableEq, Repr

def request (s : Sys) : Request → Sys
  | .event e => s.step e
  | .tryFmt _ _ => s
  | .gFmt _ => s

def accepted (s : Sys) : Request → Option PixFormat
  | .event (.sFmt t pix) => match vpipeSFmt s.c t pix with
    | .ok (answer,_) => some answer
    | .error _ => none
  | _ => none

def lastAccepted (pix : PixFormat) (s : Sys) : List Request → PixFormat
  | [] => pix
  | r :: rest => lastAccepted ((accepted s r).getD pix) (request s r) rest

def checkedCopyFrame (srcSize dstSize : Nat) (job : JobDesc) (m : Mem) : Option Mem :=
  tryLoop job.height (fun row m => do
    let target ← rowStart dstSize row job.dstStride
    let source ← rowStart srcSize row job.srcStride
    tryCopy dstSize srcSize job.dst target job.src source job.width m) m

def checkedThresholdAt (srcSize dstSize : Nat) (job : JobDesc) (threshold srcRow dstRow : Nat) (x : Int)
    (t : Threshold) : Option Threshold := do
  let source ← index srcSize (srcRow + x)
  let target ← index dstSize (dstRow + x)
  let pixel := thresholdPixel threshold (t.mem.get job.src source)
  let mem := (t.mem.touch job.src source).write job.dst target pixel
  some (if pixel ≠ 0 then ⟨mem,t.white + 1,t.black⟩ else ⟨mem,t.white,t.black + 1⟩)

def checkedThresholdRow (srcSize dstSize : Nat) (job : JobDesc) (threshold : Nat) (roi : Roi) (y : Int)
    (t : Threshold) : Option Threshold := do
  let dstRow ← rowStart dstSize y job.dstStride
  let srcRow ← rowStart srcSize y job.srcStride
  let right ← exactS32 (roi.left + roi.width)
  tryLoop (right - roi.left).toNat (fun k t =>
    checkedThresholdAt srcSize dstSize job threshold srcRow dstRow (roi.left + k) t) t

def checkedThresholdFrame (srcSize dstSize : Nat) (job : JobDesc) (threshold : Nat) (roi : Roi) (m : Mem) :
    Option Threshold := do
  let copied ← checkedCopyFrame srcSize dstSize job m
  let bottom ← exactS32 (roi.top + roi.height)
  tryLoop (bottom - roi.top).toNat (fun k t =>
    checkedThresholdRow srcSize dstSize job threshold roi (roi.top + k) t) ⟨copied,0,0⟩

def checkedGradientRows (size : Nat) (dst : Plane) (width height stride offset : Nat) (m : Mem) : Option Mem :=
  tryLoop height (fun y m => do
    let row ← rowStart size y stride
    tryLoop width (fun x m => do
      let i ← index size (row + x)
      some (m.write dst i (UInt8.ofNat (u32 (x + y + offset) &&& 0xFF)))) m) m

def checkedSyntheticFill (size : Nat) (dst : Plane) (width height stride offset : Nat) (m : Mem) : Option Mem :=
  checkedGradientRows size dst width height stride offset m

def checkedVcamFill (size : Nat) (dst : Plane) (width height stride offset : Nat) (m : Mem) : Option Mem := do
  let m ← checkedGradientRows size dst width height stride offset m
  let first ← index size 0
  some (m.write dst first (UInt8.ofNat (offset &&& 0xFF)))

structure RowsFit (job : JobDesc) (srcSize dstSize : Nat) : Prop where
  wide : 1 ≤ job.width
  shaped : Shaped job
  src : job.height * job.srcStride ≤ srcSize
  dst : job.height * job.dstStride ≤ dstSize
  srcSmall : srcSize < 2^32
  dstSmall : dstSize < 2^32

section Loops
variable {job : JobDesc} {srcSize dstSize : Nat}

theorem copyFrameExact (fit : RowsFit job srcSize dstSize) (m : Mem) :
    checkedCopyFrame srcSize dstSize job m = some (vpipeCopyFrame job m) := by
  obtain ⟨wide, ⟨_, tall, srcRow, dstRow, srcTotal, dstTotal⟩, src, dst, srcSmall, dstSmall⟩ := fit
  refine tryLoopSome (fun row t inFrame => ?_)
  have lastSource := rowBound (show job.width - 1 < job.srcStride by omega) inFrame
  have lastTarget := rowBound (show job.width - 1 < job.dstStride by omega) inFrame
  have source := rowStartOf (z := row) rfl inFrame (by omega) (by omega) src srcSmall
  have target := rowStartOf (z := row) rfl inFrame (by omega) (by omega) dst dstSmall
  simp only [source, target, Option.bind_eq_bind, Option.bind_some]
  rw [rowOffset inFrame srcTotal, rowOffset inFrame dstTotal]
  exact tryCopyOf _ _ t (by omega) (by omega)

theorem thresholdAtExact (fit : RowsFit job srcSize dstSize) (threshold : Nat) {y x : Int}
    (top : 0 ≤ y) (bottom : y < job.height) (left : 0 ≤ x) (right : x < job.width) (t : Threshold) :
    checkedThresholdAt srcSize dstSize job threshold (y.toNat * job.srcStride) (y.toNat * job.dstStride) x t =
      some (thresholdAt job threshold y x t) := by
  obtain ⟨_, ⟨_, _, srcRow, dstRow, srcTotal, dstTotal⟩, src, dst, _, _⟩ := fit
  have source : y.toNat * job.srcStride + x.toNat < job.height * job.srcStride :=
    rowBound (Nat.lt_of_lt_of_le (by omega) srcRow) (by omega)
  have target : y.toNat * job.dstStride + x.toNat < job.height * job.dstStride :=
    rowBound (Nat.lt_of_lt_of_le (by omega) dstRow) (by omega)
  unfold checkedThresholdAt thresholdAt
  rw [rowOffsetSigned top bottom srcTotal, rowOffsetSigned top bottom dstTotal,
    indexOf (i := (y.toNat * job.srcStride : Nat) + x) (by omega) (by omega),
    indexOf (i := (y.toNat * job.dstStride : Nat) + x) (by omega) (by omega)]
  rfl

theorem thresholdRowExact (fit : RowsFit job srcSize dstSize) (threshold : Nat) {roi : Roi}
    (inside : Inside roi job.width job.height) {y : Int} (top : 0 ≤ y) (bottom : y < job.height)
    (t : Threshold) :
    checkedThresholdRow srcSize dstSize job threshold roi y t = some (thresholdRow job threshold roi y t) := by
  have shaped := fit.shaped
  have width := shaped.width
  have wide := fit.wide
  have srcLine := shaped.srcRow
  have dstLine := shaped.dstRow
  have height := shaped.height
  have right := inside.right
  have left := inside.left
  have extent := inside.wide
  have row : y = y.toNat := by omega
  have source := rowStartOf row (show y.toNat < job.height by omega) (by omega) (by omega) fit.src fit.srcSmall
  have target := rowStartOf row (show y.toNat < job.height by omega) (by omega) (by omega) fit.dst fit.dstSmall
  have end_ := exactS32Of (z := roi.left + roi.width) (by omega) (by omega)
  have sum := s32Of (z := roi.left + roi.width) (by omega) (by omega)
  simp only [checkedThresholdRow, source, target, end_, Option.bind_eq_bind, Option.bind_some]
  unfold thresholdRow rounds
  rw [sum]
  refine tryLoopSome (fun k u below => ?_)
  exact thresholdAtExact fit threshold top bottom (by omega) (by omega) u

theorem thresholdFrameExact (fit : RowsFit job srcSize dstSize) (threshold : Nat) {roi : Roi}
    (inside : Inside roi job.width job.height) (m : Mem) :
    checkedThresholdFrame srcSize dstSize job threshold roi m =
      some (vpipeThresholdFrame job threshold roi m) := by
  have height := fit.shaped.height
  have bottom := inside.bottom
  have top := inside.top
  have extent := inside.high
  have end_ := exactS32Of (z := roi.top + roi.height) (by omega) (by omega)
  have sum := s32Of (z := roi.top + roi.height) (by omega) (by omega)
  simp only [checkedThresholdFrame, copyFrameExact fit m, end_, Option.bind_eq_bind, Option.bind_some]
  unfold vpipeThresholdFrame rounds
  rw [sum]
  refine tryLoopSome (fun k t below => ?_)
  exact thresholdRowExact fit threshold inside (by omega) (by omega) t

theorem gradientRowsExact {size width height stride : Nat} (wide : 1 ≤ width) (row : width ≤ stride)
    (total : height * stride ≤ size) (small : size < 2^32) (tall : height < 2^32) (dst : Plane) (offset : Nat)
    (m : Mem) : checkedGradientRows size dst width height stride offset m =
      some (gradientRows dst width height stride offset m) := by
  refine tryLoopSome (fun y t inFrame => ?_)
  have start := rowStartOf (z := y) rfl inFrame (by omega) tall total small
  simp only [start, Option.bind_eq_bind, Option.bind_some]
  rw [rowOffset inFrame (by omega)]
  refine tryLoopSome (fun x u inRow => ?_)
  have bound := rowBound (Nat.lt_of_lt_of_le inRow row) inFrame
  rw [indexOf (by omega) (by omega)]
  rfl

end Loops

theorem tryFmtAgain (pix : PixFormat) : vpipeTryFmt (vpipeTryFmt pix) = vpipeTryFmt pix := by
  have same (n : Nat) : clampNat (clampNat n 1 4096) 1 4096 = clampNat n 1 4096 := by
    unfold clampNat
    omega
  simp only [vpipeTryFmt, vpipeFillPixFormat, same]

structure Holds (last : PixFormat) (s : Sys) : Prop where
  output : s.c.outQ = qDataOf last
  capture : s.c.capQ = qDataOf last
  fixed : vpipeTryFmt last = last

theorem holdsAnswer {last : PixFormat} {s : Sys} (holds : Holds last s) (t : QType) :
    vpipeGFmt s.c t = last := by
  cases t with
  | output => rw [vpipeGFmt, Ctx.qData, holds.output]; exact holds.fixed
  | capture => rw [vpipeGFmt, Ctx.qData, holds.capture]; exact holds.fixed

theorem acceptedSource {s : Sys} {r : Request} {answer : PixFormat} (some_ : accepted s r = some answer) :
    ∃ t pix, r = .event (.sFmt t pix) ∧ s.c.busy t = false ∧ answer = vpipeTryFmt pix := by
  unfold accepted at some_
  split at some_
  · rename_i t pix
    refine ⟨t,pix,rfl,?_⟩
    rw [sFmtResult] at some_
    cases busy : s.c.busy t with
    | true => simp [busy] at some_
    | false => exact ⟨rfl,by simpa [busy, eq_comm] using some_⟩
  · contradiction

theorem formatsKept {s : Sys} {r : Request} (none_ : accepted s r = none) :
    (request s r).c.outQ = s.c.outQ ∧ (request s r).c.capQ = s.c.capQ := by
  cases r with
  | event e =>
    rw [request, stepMoves]
    refine runMember (fun s' : Sys => s'.c.outQ = s.c.outQ ∧ s'.c.capQ = s.c.capQ)
      (fun s' l member so => ?_) ⟨rfl,rfl⟩
    have other : ∀ d, l ≠ .format d := by
      rintro d rfl
      obtain ⟨t, pix, rfl, busy⟩ := formatOrigin member
      simp [accepted, sFmtResult, busy] at none_
    obtain ⟨output, capture⟩ := (moveConfig s' l).2.1 other
    exact ⟨output.trans so.1,capture.trans so.2⟩
  | tryFmt _ _ => exact ⟨rfl,rfl⟩
  | gFmt _ => exact ⟨rfl,rfl⟩

theorem holdsRequest {last : PixFormat} {s : Sys} (holds : Holds last s) (r : Request) :
    Holds ((accepted s r).getD last) (request s r) := by
  cases answer : accepted s r with
  | none =>
    obtain ⟨output, capture⟩ := formatsKept answer
    exact ⟨output.trans holds.output,capture.trans holds.capture,holds.fixed⟩
  | some pix' =>
    obtain ⟨t, pix, rfl, busy, rfl⟩ := acceptedSource answer
    simp only [request, Sys.step, sFmtResult, busy]
    exact ⟨rfl,rfl,tryFmtAgain pix⟩

theorem holdsRun {last : PixFormat} {s : Sys} (holds : Holds last s) (requests : List Request) :
    Holds (lastAccepted last s requests) (run request s requests) := by
  induction requests generalizing last s with
  | nil => exact holds
  | cons r rest ih => exact ih (holdsRequest holds r)

theorem saneRequest (s : Sys) (r : Request) (sane : Sane s) : Sane (request s r) := by
  cases r with
  | event e => exact saneStep sane e
  | tryFmt _ _ => exact sane
  | gFmt _ => exact sane

structure Coherent (last : PixFormat) (s : Sys) : Prop where
  same : s.c.outQ = s.c.capQ
  geometry : ∀ t, Geometry (s.c.qData t)
  exact_ : ∀ t, (s.c.qData t).width * (s.c.qData t).height < 2^32
  answer : ∀ t, vpipeGFmt s.c t = last
  refused : ∀ t pix e, vpipeSFmt s.c t pix = .error e → request s (.event (.sFmt t pix)) = s
  again : ∀ pix, vpipeTryFmt (vpipeTryFmt pix) = vpipeTryFmt pix

structure Unwrapped (s : Sys) : Prop where
  copy : ∀ (src dst : Plane) (m : Mem),
    checkedCopyFrame s.c.outQ.sizeimage s.c.capQ.sizeimage (jobOf s src dst) m =
      some (vpipeCopyFrame (jobOf s src dst) m)
  threshold : ∀ (src dst : Plane) (threshold : Nat) (roi : Option Roi) (m : Mem),
    checkedThresholdFrame s.c.outQ.sizeimage s.c.capQ.sizeimage (jobOf s src dst) threshold
        (vpipeClampRoi (jobOf s src dst) roi) m =
      some (vpipeThresholdFrame (jobOf s src dst) threshold (vpipeClampRoi (jobOf s src dst) roi) m)
  synthetic : ∀ (dst : Plane) (offset : Nat) (m : Mem),
    checkedSyntheticFill s.c.outQ.sizeimage dst s.c.outQ.width s.c.outQ.height s.c.outQ.bytesperline offset m =
      some (syntheticFillGradient dst s.c.outQ.width s.c.outQ.height s.c.outQ.bytesperline offset m)
  vcam : ∀ (dst : Plane) (offset : Nat) (m : Mem),
    checkedVcamFill s.c.outQ.sizeimage dst s.c.outQ.width s.c.outQ.height s.c.outQ.bytesperline offset m =
      some (vcamFillGradient dst s.c.outQ.width s.c.outQ.height s.c.outQ.bytesperline offset m)

theorem coherentOf {last : PixFormat} {s : Sys} (base : Base s) (holds : Holds last s) : Coherent last s := by
  have both : ∀ t, s.c.qData t = s.c.outQ := by
    intro t
    cases t with
    | output => rfl
    | capture => exact base.mirrored
  refine ⟨base.mirrored.symm,?_,?_,holdsAnswer holds,?_,tryFmtAgain⟩
  · intro t
    rw [both]
    exact base.geometry
  · intro t
    rw [both, ← base.geometry.image]
    exact (geometryTotal base.geometry).2
  · intro t pix e refused
    simp only [request, Sys.step, refused]

theorem jobRows {s : Sys} (base : Base s) (src dst : Plane) :
    RowsFit (jobOf s src dst) s.c.outQ.sizeimage s.c.capQ.sizeimage := by
  obtain ⟨total, small⟩ := geometryTotal base.geometry
  have line := base.geometry.line
  have width := base.geometry.width
  have height := base.geometry.height
  have mirrored := base.mirrored
  refine ⟨width.1,?_,?_,?_,small,?_⟩
  · constructor <;> simp only [jobOf, mirrored] <;> omega
  all_goals simp only [jobOf, mirrored]; omega

theorem unwrappedOf {s : Sys} (base : Base s) : Unwrapped s := by
  obtain ⟨total, small⟩ := geometryTotal base.geometry
  have wide := base.geometry.width
  have tall := base.geometry.height
  have line := base.geometry.line
  have rows (dst : Plane) (offset : Nat) (m : Mem) := gradientRowsExact wide.1
    (Nat.le_of_eq line.symm) (Nat.le_of_eq total) small (show s.c.outQ.height < 2^32 by omega) dst offset m
  refine ⟨?_,?_,rows,?_⟩
  · intro src dst m
    exact copyFrameExact (jobRows base src dst) m
  · intro src dst threshold roi m
    have fit := jobRows base src dst
    exact thresholdFrameExact fit threshold (clampInside fit.shaped.width fit.shaped.height roi) m
  · intro dst offset m
    have first := rowBound (show 0 < s.c.outQ.bytesperline by omega) tall.1
    simp only [checkedVcamFill, rows, Option.bind_eq_bind, Option.bind_some]
    rw [indexOf (by omega) (by omega)]
    rfl

/-- After any requests both queues hold one grey format whose image size is exact, G_FMT answers
what the last accepted S_FMT answered, and the loops over such frames form no index that wraps or
leaves the image. -/
theorem formatsCoherent {k : Kernel} {ident : Nat} {env : OpenEnv} {s : Sys}
    (opened : vpipeOpen k ident env = .ok s) (requests : List Request) :
    Coherent (lastAccepted (vpipeFillPixFormat defaultWidth defaultHeight) s requests)
      (run request s requests) ∧
    Unwrapped (run request s requests) := by
  have start : Holds (vpipeFillPixFormat defaultWidth defaultHeight) s := by
    obtain ⟨src, m, _, rfl⟩ := openCases opened
    exact ⟨by rfl,by rfl,tryFmtAgain ⟨defaultWidth,defaultHeight,0,0,0,0,0,0,0,0⟩⟩
  have sane := runAlways saneRequest (openSane opened).1 requests
  exact ⟨coherentOf sane.toBase (holdsRun start requests),unwrappedOf sane.toBase⟩

def formatRequests : List Request :=
  [.event (.sFmt .output {width := 2^32 - 1, height := 0}),.event (.reqbufs .output 2 .mmap 0 2),
    .event (.sFmt .output {width := 7, height := 7}),.tryFmt .capture {width := 9, height := 9},
    .event (.sFmt .capture {width := 3, height := 2}),.gFmt .output]

theorem mirroredFormatAnswered :
    vpipeGFmt (run request (openedOn (Kernel.boot (fun n => n + 1) {}) 0) formatRequests).c .output =
      vpipeFillPixFormat 3 2 :=
  (formatsCoherent (openSucceeds (Kernel.boot (fun n => n + 1) {}) 0) formatRequests).1.answer .output

end Vpipe.Formats
