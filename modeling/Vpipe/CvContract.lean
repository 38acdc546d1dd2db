import Mathlib.Data.Finset.Prod
import Mathlib.Order.Interval.Finset.Nat
import Vpipe.Cv

/-! What `vpipe_cv_process` leaves behind: the pixels, the rest of the memory, the counters and
the ROI it reports. The threshold loops visit every pixel of the ROI once and read it before they
write it, so the source and the destination may also be one buffer. -/
namespace Vpipe.CvContract
open Vpipe.Lib.Word Vpipe.Lib.ByteMemory Vpipe.Cv

def source (job : JobDesc) (m : Mem) (x y : Nat) : UInt8 := m.bytes job.src.block (y * job.srcStride + x : Nat)

def target (job : JobDesc) (m : Mem) (x y : Nat) : UInt8 := m.bytes job.dst.block (y * job.dstStride + x : Nat)

def Visible (job : JobDesc) (i : Int) : Prop :=
  ∃ x y, x < job.width ∧ y < job.height ∧ i = (y * job.dstStride + x : Nat)

def Compatible (job : JobDesc) : Prop :=
  job.src.block ≠ job.dst.block ∨ (job.src.block = job.dst.block ∧ job.srcStride = job.dstStride)

structure Copied (job : JobDesc) (m m' : Mem) : Prop where
  other : ∀ c i, c ≠ job.dst.block ∨ ¬ Visible job i → m'.bytes c i = m.bytes c i
  target : ∀ x y, x < job.width → y < job.height → target job m' x y = source job m x y
  source : ∀ x y, x < job.width → y < job.height → source job m' x y = source job m x y

structure Painted (job : JobDesc) (threshold : Nat) (m : Mem) (done : Finset (Nat × Nat)) (t : Threshold) :
    Prop where
  other : ∀ c i, c ≠ job.dst.block ∨ ¬ Visible job i → t.mem.bytes c i = m.bytes c i
  target : ∀ x y, x < job.width → y < job.height → target job t.mem x y =
    if (x,y) ∈ done then thresholdPixel threshold (source job m x y) else source job m x y
  source : ∀ x y, x < job.width → y < job.height → (x,y) ∉ done → source job t.mem x y = source job m x y
  white : t.white = (done.filter (fun p => threshold < (CvContract.source job m p.1 p.2).toNat)).card
  black : t.black = (done.filter (fun p => ¬ threshold < (CvContract.source job m p.1 p.2).toNat)).card

def columns (roi : Roi) : Finset Nat := Finset.Ico roi.left.toNat (roi.left + roi.width).toNat
def rows (roi : Roi) : Finset Nat := Finset.Ico roi.top.toNat (roi.top + roi.height).toNat

theorem memArea {roi : Roi} {width height : Nat} (inside : Inside roi width height) (p : Nat × Nat) :
    p ∈ columns roi ×ˢ rows roi ↔ roi.Has p.1 p.2 := by
  obtain ⟨left, top, wide, high, _, _⟩ := inside
  simp only [Finset.mem_product, columns, rows, Finset.mem_Ico, Roi.Has]
  omega

theorem cardArea {roi : Roi} {width height : Nat} (inside : Inside roi width height) :
    ((columns roi ×ˢ rows roi).card : Int) = roi.width * roi.height := by
  obtain ⟨left, top, wide, high, _, _⟩ := inside
  have wideIs : (((roi.left + roi.width).toNat - roi.left.toNat : Nat) : Int) = roi.width := by omega
  have highIs : (((roi.top + roi.height).toNat - roi.top.toNat : Nat) : Int) = roi.height := by omega
  rw [Finset.card_product, columns, rows, Nat.card_Ico, Nat.card_Ico, Int.natCast_mul, wideIs, highIs]

theorem paintedStart {job : JobDesc} {threshold : Nat} {m m' : Mem} (copied : Copied job m m') :
    Painted job threshold m ∅ ⟨m',0,0⟩ :=
  ⟨copied.other,fun x y inRow inFrame => by simpa using copied.target x y inRow inFrame,
    fun x y inRow inFrame _ => copied.source x y inRow inFrame,rfl,rfl⟩

section Frame
variable {job : JobDesc} (shaped : Shaped job)
include shaped

theorem copyRows (apart : job.src.block ≠ job.dst.block) (m : Mem) : Copied job m (vpipeCopyFrame job m) := by
  -- After n rows the first n rows of the destination hold those of the source.
  have rows : (∀ c i, c ≠ job.dst.block ∨ ¬ Visible job i → (vpipeCopyFrame job m).bytes c i = m.bytes c i) ∧
      ∀ x y, x < job.width → y < job.height → target job (vpipeCopyFrame job m) x y = source job m x y := by
    refine loopInvariant (fun n (t : Mem) =>
      (∀ c i, c ≠ job.dst.block ∨ ¬ Visible job i → t.bytes c i = m.bytes c i) ∧
      ∀ x y, x < job.width → y < n → target job t x y = source job m x y) ⟨fun _ _ _ => rfl,by omega⟩ ?_
    rintro row t inFrame ⟨other, before⟩
    rw [rowOffset inFrame shaped.srcTotal, rowOffset inFrame shaped.dstTotal]
    have step := writesCopy apart (row * job.dstStride : Nat) (row * job.srcStride : Nat) job.width t
    refine ⟨?_,?_⟩
    · intro c i outside
      rw [step.other c i (outside.imp_right ?_), other c i outside]
      rintro hidden ⟨low, high⟩
      exact hidden ⟨(i - (row * job.dstStride : Nat)).toNat,row,by omega,inFrame,by omega⟩
    · intro x y inRow upTo
      have inLine := Nat.lt_of_lt_of_le inRow shaped.dstRow
      by_cases last : y = row
      · subst last
        have read : t.bytes job.src.block = m.bytes job.src.block := funext (fun i => other _ i (.inl apart))
        unfold target source
        rw [step.inside _ (by omega), read]
        congr 1
        omega
      · rw [← before x y inRow (by omega)]
        refine step.other _ _ (.inr ?_)
        rintro ⟨low, high⟩
        have cell : y * job.dstStride + x =
            row * job.dstStride + (y * job.dstStride + x - row * job.dstStride) := by omega
        exact last (cellUnique cell inLine (Nat.lt_of_lt_of_le (by omega) shaped.dstRow)).2
  refine ⟨rows.1,rows.2,fun x y _ _ => ?_⟩
  exact rows.1 _ _ (.inl apart)

theorem copyCopied (compatible : Compatible job) (m : Mem) : Copied job m (vpipeCopyFrame job m) := by
  rcases compatible with apart | ⟨block, stride⟩
  · exact copyRows shaped apart m
  · have same : (vpipeCopyFrame job m).bytes = m.bytes := by
      refine loopInvariant (fun _ (t : Mem) => t.bytes = m.bytes) rfl ?_
      intro row t _ kept
      rw [stride, copySelf block, kept]
    constructor
    · intro c i _
      rw [same]
    · intro x y _ _
      unfold target source
      rw [same, block, stride]
    · intro x y _ _
      unfold source
      rw [same]

theorem thresholdAtCell (threshold : Nat) {x y : Nat} (inFrame : y < job.height) (t : Threshold) :
    (∀ c i, (thresholdAt job threshold y x t).mem.bytes c i =
      if c = job.dst.block ∧ i = (y * job.dstStride + x : Nat)
      then thresholdPixel threshold (source job t.mem x y) else t.mem.bytes c i) ∧
    (thresholdAt job threshold y x t).white =
      t.white + (if threshold < (source job t.mem x y).toNat then 1 else 0) ∧
    (thresholdAt job threshold y x t).black =
      t.black + (if ¬ threshold < (source job t.mem x y).toNat then 1 else 0) := by
  have read := rowOffsetSigned (show (0 : Int) ≤ y by omega) (by omega : (y : Int) < job.height) shaped.srcTotal
  have write := rowOffsetSigned (show (0 : Int) ≤ y by omega) (by omega : (y : Int) < job.height)
    shaped.dstTotal
  simp only [thresholdAt, read, write, Int.toNat_natCast, ← Int.natCast_add]
  have bright (p : UInt8) : thresholdPixel threshold p ≠ 0 ↔ threshold < p.toNat := by
    unfold thresholdPixel
    split <;> simp_all
  rw [show t.mem.get job.src (y * job.srcStride + x : Nat) = source job t.mem x y from rfl]
  simp only [bright]
  split
  · exact ⟨fun _ _ => rfl,rfl,rfl⟩
  · exact ⟨fun _ _ => rfl,rfl,rfl⟩

theorem paintedAt (compatible : Compatible job) {threshold : Nat} {m : Mem} {done : Finset (Nat × Nat)}
    {t : Threshold} (painted : Painted job threshold m done t) {x y : Nat} (inRow : x < job.width)
    (inFrame : y < job.height) (fresh : (x,y) ∉ done) :
    Painted job threshold m (insert (x,y) done) (thresholdAt job threshold y x t) := by
  obtain ⟨bytes, white, black⟩ := thresholdAtCell shaped threshold (x := x) inFrame t
  rw [painted.source x y inRow inFrame fresh] at bytes white black
  constructor
  · intro c i outside
    rw [bytes, ← painted.other c i outside]
    refine if_neg ?_
    rintro ⟨here, rfl⟩
    exact outside.elim (fun differ => differ here) (fun hidden => hidden ⟨x,y,inRow,inFrame,rfl⟩)
  · intro x' y' inRow' inFrame'
    have old := painted.target x' y' inRow' inFrame'
    unfold target at old ⊢
    rw [bytes]
    by_cases here : (x',y') = (x,y)
    · obtain ⟨rfl, rfl⟩ := Prod.mk.inj here
      simp
    · have apart : ¬ (job.dst.block = job.dst.block ∧
          ((y' * job.dstStride + x' : Nat) : Int) = (y * job.dstStride + x : Nat)) := by
        rintro ⟨_, same⟩
        obtain ⟨rfl, rfl⟩ := cellUnique (Int.ofNat.inj same) (Nat.lt_of_lt_of_le inRow' shaped.dstRow)
          (Nat.lt_of_lt_of_le inRow shaped.dstRow)
        exact here rfl
      rw [if_neg apart, old]
      simp only [Finset.mem_insert, here, false_or]
  · intro x' y' inRow' inFrame' still
    obtain ⟨here, unvisited⟩ := not_or.mp (fun h => still (Finset.mem_insert.mpr h))
    have old := painted.source x' y' inRow' inFrame' unvisited
    unfold source at old ⊢
    rw [bytes, ← old]
    refine if_neg ?_
    rintro ⟨block, same⟩
    -- Only one buffer read and written with one stride is left, where another pixel is elsewhere.
    obtain ⟨_, stride⟩ := compatible.resolve_left (fun apart => apart block)
    rw [← stride] at same
    obtain ⟨rfl, rfl⟩ := cellUnique (Int.ofNat.inj same) (Nat.lt_of_lt_of_le inRow' shaped.srcRow)
      (Nat.lt_of_lt_of_le inRow shaped.srcRow)
    exact here rfl
  · rw [white, painted.white, Finset.filter_insert]
    split
    · rw [Finset.card_insert_of_notMem (fun h => fresh (Finset.mem_filter.mp h).1)]
    · rfl
  · rw [black, painted.black, Finset.filter_insert]
    split
    · rw [Finset.card_insert_of_notMem (fun h => fresh (Finset.mem_filter.mp h).1)]
    · rfl

theorem paintedRow (compatible : Compatible job) {threshold : Nat} {m : Mem} {done : Finset (Nat × Nat)}
    {t : Threshold} (painted : Painted job threshold m done t) {roi : Roi}
    (inside : Inside roi job.width job.height) {y : Nat} (inFrame : y < job.height)
    (fresh : ∀ x, (x,y) ∉ done) :
    Painted job threshold m (done ∪ (columns roi ×ˢ {y})) (thresholdRow job threshold roi y t) := by
  obtain ⟨left, _, wide, _, right, _⟩ := inside
  have width := shaped.width
  have count := roundsOf left (by omega) wide
  have ends : (roi.left + roi.width).toNat = roi.left.toNat + rounds roi.left roi.width := by omega
  rw [columns, ends]
  -- The row is visited from the left.
  refine loopInvariant (fun k t =>
    Painted job threshold m (done ∪ (Finset.Ico roi.left.toNat (roi.left.toNat + k) ×ˢ {y})) t) ?_ ?_
  · simpa using painted
  · intro k t inColumns so
    have column : roi.left + (k : Int) = (roi.left.toNat + k : Nat) := by omega
    have grown : done ∪ (Finset.Ico roi.left.toNat (roi.left.toNat + (k + 1)) ×ˢ {y}) =
        insert (roi.left.toNat + k,y) (done ∪ (Finset.Ico roi.left.toNat (roi.left.toNat + k) ×ˢ {y})) := by
      rw [← Nat.add_assoc, Nat.Ico_succ_right_eq_insert_Ico (by omega), Finset.insert_eq, Finset.union_product,
        Finset.singleton_product_singleton, Finset.insert_eq, Finset.union_left_comm]
    rw [column, grown]
    refine paintedAt shaped compatible so (by omega) inFrame ?_
    simp [fresh]

theorem paintedFrame (compatible : Compatible job) (threshold : Nat) {roi : Roi}
    (inside : Inside roi job.width job.height) (m : Mem) :
    Painted job threshold m (columns roi ×ˢ rows roi) (vpipeThresholdFrame job threshold roi m) := by
  have height := shaped.height
  have count := roundsOf inside.top (by have := inside.bottom; omega) inside.high
  have ends : (roi.top + roi.height).toNat = roi.top.toNat + rounds roi.top roi.height := by
    have := inside.top
    omega
  rw [rows, ends]
  refine loopInvariant (fun k t => Painted job threshold m
    (columns roi ×ˢ Finset.Ico roi.top.toNat (roi.top.toNat + k)) t) ?_ ?_
  · simpa using paintedStart (copyCopied shaped compatible m)
  · intro k t inRows so
    have top := inside.top
    have bottom := inside.bottom
    have row : roi.top + (k : Int) = (roi.top.toNat + k : Nat) := by omega
    have grown : columns roi ×ˢ Finset.Ico roi.top.toNat (roi.top.toNat + (k + 1)) =
        (columns roi ×ˢ Finset.Ico roi.top.toNat (roi.top.toNat + k)) ∪
          (columns roi ×ˢ {roi.top.toNat + k}) := by
      rw [← Finset.product_union, ← Nat.add_assoc, Nat.Ico_succ_right_eq_insert_Ico (by omega),
        Finset.insert_eq, Finset.union_comm]
    rw [row, grown]
    exact paintedRow shaped compatible so inside (by omega) (by simp)

theorem thresholdPixels (compatible : Compatible job) (threshold : Nat) {roi : Roi}
    (inside : Inside roi job.width job.height) (m : Mem) {x y : Nat} (inRow : x < job.width)
    (inFrame : y < job.height) :
    (vpipeThresholdFrame job threshold roi m).mem.bytes job.dst.block (y * job.dstStride + x : Nat) =
      if roi.Has x y then thresholdPixel threshold (m.bytes job.src.block (y * job.srcStride + x : Nat))
      else m.bytes job.src.block (y * job.srcStride + x : Nat) := by
  refine ((paintedFrame shaped compatible threshold inside m).target x y inRow inFrame).trans ?_
  exact if_congr (memArea inside (x,y)) rfl rfl

theorem thresholdWhite (compatible : Compatible job) (threshold : Nat) {roi : Roi}
    (inside : Inside roi job.width job.height) (m : Mem) :
    (vpipeThresholdFrame job threshold roi m).white =
      ((Finset.range job.width ×ˢ Finset.range job.height).filter (fun p => roi.Has p.1 p.2 ∧
        target job (vpipeThresholdFrame job threshold roi m).mem p.1 p.2 = 255)).card := by
  rw [(paintedFrame shaped compatible threshold inside m).white]
  congr 1
  ext p
  rw [Finset.mem_filter, Finset.mem_filter, memArea inside, Finset.mem_product, Finset.mem_range,
    Finset.mem_range]
  have bright : thresholdPixel threshold (source job m p.1 p.2) = 255 ↔
      threshold < (source job m p.1 p.2).toNat := by
    unfold thresholdPixel
    split <;> simp_all
  constructor
  · rintro ⟨has, white⟩
    obtain ⟨_, right, _, bottom⟩ := id has
    have inRow : p.1 < job.width := by have := inside.right; omega
    have inFrame : p.2 < job.height := by have := inside.bottom; omega
    refine ⟨⟨inRow,inFrame⟩,has,?_⟩
    rw [target, thresholdPixels shaped compatible threshold inside m inRow inFrame, if_pos has]
    exact bright.mpr white
  · rintro ⟨⟨inRow, inFrame⟩, has, white⟩
    rw [target, thresholdPixels shaped compatible threshold inside m inRow inFrame, if_pos has] at white
    exact ⟨has,bright.mp white⟩

theorem thresholdTotal (compatible : Compatible job) (threshold : Nat) {roi : Roi}
    (inside : Inside roi job.width job.height) (m : Mem) :
    (((vpipeThresholdFrame job threshold roi m).white + (vpipeThresholdFrame job threshold roi
      m).black : Nat) : Int) = roi.width * roi.height := by
  have painted := paintedFrame shaped compatible threshold inside m
  rw [painted.white, painted.black, Finset.card_filter_add_card_filter_not, cardArea inside]

end Frame

theorem clampWhole {job : JobDesc} (width : job.width ≤ 4096) (height : job.height ≤ 4096) {roi : Option Roi}
    (empty : ∀ r, roi = some r → r.width ≤ 0 ∨ r.height ≤ 0) :
    vpipeClampRoi job roi = ⟨0,0,job.width,job.height⟩ := by
  have fw : s32 job.width = job.width := s32Of (by omega) (by omega)
  have fh : s32 job.height = job.height := s32Of (by omega) (by omega)
  cases roi with
  | none => simp only [vpipeClampRoi, fw, fh]
  | some r => simp only [vpipeClampRoi, fw, fh, if_pos (empty r rfl)]

theorem clampCut {job : JobDesc} (width : job.width ≤ 4096) (height : job.height ≤ 4096) {r : Roi}
    (wide : 0 < r.width) (high : 0 < r.height) (left : 0 ≤ r.left) (top : 0 ≤ r.top) (x y : Nat) :
    (vpipeClampRoi job (some r)).Has x y ↔ r.Has x y ∧ x < job.width ∧ y < job.height := by
  by_cases visible : x < job.width ∧ y < job.height
  · rw [clampHas width height wide high visible.1 visible.2]
    unfold clampInt Roi.Has
    omega
  · have inside := clampInside width height (some r)
    obtain ⟨_, _, _, _, right, bottom⟩ := inside
    refine ⟨fun has => absurd ?_ visible,fun has => absurd has.2 visible⟩
    obtain ⟨_, inRow, _, inFrame⟩ := has
    omega

def memoryAfter (m : Mem) : Except Errno (CvResult × Mem) → Mem
  | .ok (_,m') => m'
  | .error _ => m

structure Contract (job : JobDesc) (algoId threshold : Nat) (roi : Option Roi) (m : Mem) (result : CvResult)
    (m' : Mem) : Prop where
  inside : Inside result.roi job.width job.height
  whole : (∀ r, roi = some r → r.width ≤ 0 ∨ r.height ≤ 0) → result.roi = ⟨0,0,job.width,job.height⟩
  cut : ∀ r, roi = some r → 0 < r.width → 0 < r.height → 0 ≤ r.left → 0 ≤ r.top →
    ∀ x y, result.roi.Has x y ↔ r.Has x y ∧ x < job.width ∧ y < job.height
  thresholded : algoId = algoThreshold → ∀ x y, x < job.width → y < job.height → target job m' x y =
    if result.roi.Has x y then (if threshold < (source job m x y).toNat then 255 else 0) else source job m x y
  copied : algoId = algoNone → ∀ x y, x < job.width → y < job.height → target job m' x y = source job m x y
  padding : ∀ i, ¬ Visible job i → m'.bytes job.dst.block i = m.bytes job.dst.block i
  elsewhere : ∀ block, block ≠ job.dst.block → m'.bytes block = m.bytes block
  white : algoId = algoThreshold → result.value0 =
    ((Finset.range job.width ×ˢ Finset.range job.height).filter (fun p => result.roi.Has p.1 p.2 ∧
      target job m' p.1 p.2 = 255)).card
  total : algoId = algoThreshold → ((result.value0 + result.value1 : Nat) : Int) =
    result.roi.width * result.roi.height
  uncounted : algoId = algoNone → result.value0 = 0 ∧ result.value1 = 0

theorem runsNone (job : JobDesc) (threshold : Nat) (roi : Option Roi) (m : Mem) :
    vpipeCvProcess job algoNone threshold roi m = .ok (⟨0,0,0,vpipeClampRoi job roi⟩,vpipeCopyFrame job m) :=
      rfl

theorem runsThreshold (job : JobDesc) (threshold : Nat) (roi : Option Roi) (m : Mem) :
    vpipeCvProcess job algoThreshold threshold roi m =
      let t := vpipeThresholdFrame job threshold (vpipeClampRoi job roi) m
      .ok (⟨0,t.white,t.black,vpipeClampRoi job roi⟩,t.mem) := rfl

section Buffers
variable {job : JobDesc} (shaped : Shaped job) (apart : job.src.block ≠ job.dst.block)
include shaped apart

theorem noneContract (threshold : Nat) (roi : Option Roi) (m : Mem) :
    Contract job algoNone threshold roi m ⟨0,0,0,vpipeClampRoi job roi⟩ (vpipeCopyFrame job m) := by
  have copied := copyCopied shaped (.inl apart) m
  constructor
  case inside => exact clampInside shaped.width shaped.height roi
  case whole => exact clampWhole shaped.width shaped.height
  case cut =>
    rintro r rfl wide high left top
    exact clampCut shaped.width shaped.height wide high left top
  case copied => exact fun _ => copied.target
  case padding => exact fun i hidden => copied.other _ i (.inr hidden)
  case elsewhere => exact fun block differ => funext (fun i => copied.other block i (.inl differ))
  case uncounted => exact fun _ => ⟨rfl,rfl⟩
  all_goals
    intro other
    contradiction

theorem thresholdContract (threshold : Nat) (roi : Option Roi) (m : Mem) :
    let t := vpipeThresholdFrame job threshold (vpipeClampRoi job roi) m
    Contract job algoThreshold threshold roi m ⟨0,t.white,t.black,vpipeClampRoi job roi⟩ t.mem := by
  have inside := clampInside shaped.width shaped.height roi
  have painted := paintedFrame shaped (.inl apart) threshold inside m
  constructor
  case inside => exact inside
  case whole => exact clampWhole shaped.width shaped.height
  case cut =>
    rintro r rfl wide high left top
    exact clampCut shaped.width shaped.height wide high left top
  case thresholded =>
    exact fun _ x y inRow inFrame => thresholdPixels shaped (.inl apart) threshold inside m inRow inFrame
  case padding => exact fun i hidden => painted.other _ i (.inr hidden)
  case elsewhere => exact fun block differ => funext (fun i => painted.other block i (.inl differ))
  case white => exact fun _ => thresholdWhite shaped (.inl apart) threshold inside m
  case total => exact fun _ => thresholdTotal shaped (.inl apart) threshold inside m
  all_goals
    intro other
    contradiction

end Buffers

/-- A job over two buffers: the two algorithms succeed and meet the contract, any other one is
refused and changes nothing. -/
theorem cvProcessContract {job : JobDesc} (shaped : Shaped job) (apart : job.src.block ≠ job.dst.block)
    (algoId threshold : Nat) (roi : Option Roi) (m : Mem) :
    (algoId = algoNone ∨ algoId = algoThreshold → ∃ result m',
      vpipeCvProcess job algoId threshold roi m = .ok (result,m') ∧
      Contract job algoId threshold roi m result m') ∧
    (algoId ≠ algoNone → algoId ≠ algoThreshold →
      vpipeCvProcess job algoId threshold roi m = .error .einval ∧
      memoryAfter m (vpipeCvProcess job algoId threshold roi m) = m) := by
  refine ⟨?_,?_⟩
  · rintro (rfl | rfl)
    · exact ⟨_,_,runsNone job threshold roi m,noneContract shaped apart threshold roi m⟩
    · exact ⟨_,_,runsThreshold job threshold roi m,thresholdContract shaped apart threshold roi m⟩
  · intro notNone notThreshold
    have refused : vpipeCvProcess job algoId threshold roi m = .error .einval := by
      simp only [vpipeCvProcess, if_neg notNone, if_neg notThreshold]
    exact ⟨refused,by rw [refused]; rfl⟩

def paddedJob : JobDesc := ⟨⟨0,6⟩,⟨1,8⟩,2,2,3,4⟩

theorem paddedShape : Shaped paddedJob := by constructor <;> decide

theorem paddedContract : paddedJob.src.block ≠ paddedJob.dst.block ∧ ∃ result m',
    vpipeCvProcess paddedJob algoThreshold 100 (some ⟨1,-3,7,1⟩)
      ⟨fun b i => if b = 0 then UInt8.ofInt (40 * i) else 9,[]⟩ =
      .ok (result,m') ∧ Contract paddedJob algoThreshold 100 (some ⟨1,-3,7,1⟩)
        ⟨fun b i => if b = 0 then UInt8.ofInt (40 * i) else 9,[]⟩ result m' :=
  ⟨by decide,(cvProcessContract paddedShape (by decide) algoThreshold 100 (some ⟨1,-3,7,1⟩) _).1 (.inr rfl)⟩

/-- One buffer on both sides: the same pixels, ROI and counts as with a destination of its own. -/
theorem inPlaceMatches {job : JobDesc} (shaped : Shaped job)
    (apart : job.src.block ≠ job.dst.block) {algoId : Nat} (known : algoId = algoNone ∨ algoId = algoThreshold)
    (threshold : Nat) (roi : Option Roi) (m : Mem) : ∃ result outOfPlace inPlace,
      vpipeCvProcess job algoId threshold roi m = .ok (result,outOfPlace) ∧
      vpipeCvProcess {job with dst := job.src, dstStride := job.srcStride} algoId threshold roi m =
        .ok (result,inPlace) ∧
      ∀ x y, x < job.width → y < job.height → source job inPlace x y = target job outOfPlace x y := by
  let shared : JobDesc := {job with dst := job.src, dstStride := job.srcStride}
  have sharedShape : Shaped shared :=
    ⟨shaped.width,shaped.height,shaped.srcRow,shaped.srcRow,shaped.srcTotal,shaped.srcTotal⟩
  have sharedBuffer : Compatible shared := .inr ⟨rfl,rfl⟩
  rcases known with rfl | rfl
  · refine ⟨_,_,_,runsNone job threshold roi m,runsNone shared threshold roi m,?_⟩
    intro x y inRow inFrame
    exact ((copyCopied sharedShape sharedBuffer m).target x y inRow inFrame).trans
      ((copyCopied shaped (.inl apart) m).target x y inRow inFrame).symm
  · have inside := clampInside shaped.width shaped.height roi
    have out := paintedFrame shaped (.inl apart) threshold inside m
    have own := paintedFrame sharedShape sharedBuffer threshold inside m
    have white := own.white.trans out.white.symm
    have black := own.black.trans out.black.symm
    refine ⟨_,_,(vpipeThresholdFrame shared threshold (vpipeClampRoi job roi) m).mem,
      runsThreshold job threshold roi m,?_,?_⟩
    · rw [← white, ← black]
      exact runsThreshold shared threshold roi m
    · intro x y inRow inFrame
      exact (own.target x y inRow inFrame).trans (out.target x y inRow inFrame).symm

theorem paddedInPlace : paddedJob.src.block ≠ paddedJob.dst.block ∧ ∃ result outOfPlace inPlace,
    vpipeCvProcess paddedJob algoThreshold 100 none ⟨fun _ i => UInt8.ofInt (40 * i),[]⟩ =
      .ok (result,outOfPlace) ∧
    vpipeCvProcess {paddedJob with dst := paddedJob.src, dstStride := paddedJob.srcStride}
      algoThreshold 100 none ⟨fun _ i => UInt8.ofInt (40 * i),[]⟩ = .ok (result,inPlace) ∧
    ∀ x y, x < paddedJob.width → y < paddedJob.height → source paddedJob inPlace x y =
      target paddedJob outOfPlace x y :=
  ⟨by decide,inPlaceMatches paddedShape (by decide) (.inr rfl) 100 none _⟩

end Vpipe.CvContract
