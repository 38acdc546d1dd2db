import Vpipe.FrameSource

/-! What the two in-kernel backends draw: a gradient that moves by one with every frame
delivered, and the counters that decide which frames are delivered. -/
namespace Vpipe.Gradient
open Vpipe.Lib.Word Vpipe.Lib.ByteMemory Vpipe.FrameSource

def shade (x y offset : Nat) : UInt8 := UInt8.ofNat ((x + y + offset) % 256)

def Shows (m : Mem) (dst : Plane) (desc : FrameDesc) (offset : Nat) : Prop :=
  ∀ x y, x < desc.width → y < desc.height → m.bytes dst.block (y * desc.stride + x : Nat) = shade x y offset

theorem shadeCongr (x y : Nat) {a b : Nat} (same : a % 256 = b % 256) : shade x y a = shade x y b := by
  unfold shade
  congr 1
  omega

theorem shadeMasked (x y offset : Nat) : UInt8.ofNat (u32 (x + y + offset) &&& 0xFF) = shade x y offset := by
  unfold shade u32
  rw [show 0xFF = 2^8 - 1 from rfl, Nat.and_two_pow_sub_one_eq_mod]
  congr 1
  omega

section Fill
variable {width height stride : Nat} (row : width ≤ stride)
include row

theorem gradientPixels (total : height * stride < 2^32) (dst : Plane) (offset : Nat) (m : Mem) {x y : Nat}
    (inRow : x < width) (inFrame : y < height) :
    (gradientRows dst width height stride offset m).bytes dst.block (y * stride + x : Nat) =
      shade x y offset := by
  have cells : Writes dst.block
      (fun i => ∃ y, y < height ∧ ∃ x, x < width ∧ i = (y * stride + x : Nat))
      (fun i => shade (i.toNat % stride) (i.toNat / stride) offset)
      m (gradientRows dst width height stride offset m) := by
    refine writesLoop _ (fun y t inFrame _ => writesLoop _ (fun x u inRow _ => ?_))
    have inLine := Nat.lt_of_lt_of_le inRow row
    rw [rowOffset inFrame total, shadeMasked]
    refine writesCongr (writesWrite u dst _ _) (fun i => by rw [← Int.natCast_add]) ?_
    rintro i rfl
    rw [Int.toNat_natCast, columnOf y inLine, rowOf y inLine]
  have inLine := Nat.lt_of_lt_of_le inRow row
  rw [cells.inside _ ⟨y,inFrame,x,inRow,rfl⟩, Int.toNat_natCast, columnOf y inLine, rowOf y inLine]

theorem vcamGradientPixels (total : height * stride < 2^32) (dst : Plane) (offset : Nat) (m : Mem) {x y : Nat}
    (inRow : x < width) (inFrame : y < height) :
    (vcamFillGradient dst width height stride offset m).bytes dst.block (y * stride + x : Nat) =
      shade x y offset := by
  have painted := gradientPixels row total dst offset m inRow inFrame
  unfold vcamFillGradient Mem.write
  simp only
  split
  · rename_i first
    have origin : y * stride = 0 ∧ x = 0 := by omega
    have top : y = 0 := (Nat.mul_eq_zero.mp origin.1).resolve_right (by omega)
    rw [origin.2, top, shade, Nat.zero_add, show 0xFF = 2^8 - 1 from rfl, Nat.and_two_pow_sub_one_eq_mod]
  · exact painted

end Fill

structure Counters where
  produced : Nat
  offset : Nat
  every : Nat
  deriving DecidableEq, Repr

def counters? (src : Source) : Option Counters :=
  match src.backend, src.priv with
  | .synthetic, .synthetic p => some ⟨p.framesProduced,p.patternOffset,p.dropEveryN⟩
  | .vcamDerived, .vcam p => some ⟨p.framesProduced,p.patternOffset,p.dropEveryN⟩
  | _, _ => none

def drops (backend : Backend) (c : Counters) : Bool :=
  c.every ≠ 0 ∧ (if backend = .synthetic then u32 (c.produced + 1) else c.produced) % c.every = 0

def counted (backend : Backend) (c : Counters) : Counters :=
  ⟨u32 (c.produced + 1),if drops backend c then c.offset else u32 (c.offset + 1),c.every⟩

structure Call where
  machine : Machine
  vaddr : Option Plane
  desc : FrameDesc
  row : desc.width ≤ desc.stride
  total : desc.height * desc.stride < 2^32

def Call.run (c : Call) (src : Source) : NextFrame := vpipeSourceNextFrame c.machine src c.vaddr c.desc

def Call.op (c : Call) (src : Source) : NextFrame :=
  nextFrameOp (c.machine.note (.call .nextFrame src.ident)) src c.vaddr
    {width := c.desc.width, height := c.desc.height, stride := c.desc.stride}

theorem runOp (c : Call) (src : Source) : (c.run src).ret = (c.op src).ret ∧
    ((c.op src).ret ≠ none → (c.run src).src = (c.op src).src) ∧
    ((c.op src).ret = none → (c.run src).src = {(c.op src).src with seq := u32 ((c.op src).src.seq + 1)} ∧
      (c.run src).desc.flags = (c.op src).desc.flags ∧ (c.run src).machine.mem = (c.op src).machine.mem ∧
      (c.run src).machine.fbs = (c.op src).machine.fbs) := by
  unfold Call.run vpipeSourceNextFrame
  simp only
  rw [show nextFrameOp (c.machine.note (.call .nextFrame src.ident)) src c.vaddr
    {width := c.desc.width, height := c.desc.height, stride := c.desc.stride} = c.op src from rfl]
  cases answer : (c.op src).ret with
  | some e => exact ⟨rfl,fun _ => rfl,fun no => by contradiction⟩
  | none =>
    refine ⟨rfl,fun no => absurd rfl no,fun _ => ⟨rfl,rfl,?_⟩⟩
    simp only
    split <;> exact ⟨rfl,rfl⟩

structure Given (call : Call) (src : Source) (c : Counters) : Prop where
  counters : counters? (call.op src).src = some (counted src.backend c)
  flags : (call.op src).desc.flags = if drops src.backend c then frameFlagDropped else 0
  shows : drops src.backend c = false → ∃ dst, call.vaddr = some dst ∧
    Shows (call.op src).machine.mem dst call.desc c.offset

theorem vcamDrawShows (m : Machine) {desc : FrameDesc} (p : VcamPriv) (dst : Plane)
    (row : desc.width ≤ desc.stride) (total : desc.height * desc.stride < 2^32) :
    Shows (vcamDraw m desc p dst) dst desc p.patternOffset := by
  intro x y inRow inFrame
  let fb := fbPlane m p.fb
  let filled := vcamFillGradient fb desc.width desc.height desc.stride p.patternOffset m.mem
  have painted : filled.bytes fb.block (y * desc.stride + x : Nat) = shade x y p.patternOffset :=
    vcamGradientPixels row total fb p.patternOffset m.mem inRow inFrame
  have inside := rowBound (Nat.lt_of_lt_of_le inRow row) inFrame
  unfold vcamDraw
  simp only
  split
  · -- The framebuffer is copied whole into a plane of its own.
    rename_i apart
    have copied := writesCopy (fun same => apart same.symm) 0 0 (desc.stride * desc.height) filled
    rw [Nat.mul_comm desc.height] at inside
    rw [copied.inside _ ⟨by omega,by omega⟩, ← painted]
    congr 1
    omega
  · rename_i same
    rw [Decidable.not_not.mp same]
    exact painted

theorem nextGiven {m : Machine} {src : Source} {vaddr : Option Plane} {desc : FrameDesc} {r : NextFrame}
    (next : Next m src vaddr desc r) (given : r.ret = none) (blank : desc.flags = 0)
    (row : desc.width ≤ desc.stride) (total : desc.height * desc.stride < 2^32) {c : Counters}
    (counters : counters? src = some c) :
    counters? r.src = some (counted src.backend c) ∧
    r.desc.flags = (if drops src.backend c then frameFlagDropped else 0) ∧
    (drops src.backend c = false → ∃ dst, vaddr = some dst ∧ Shows r.machine.mem dst desc c.offset) := by
  cases next with
  | fixture backend => simp [counters?, backend] at counters
  | synthetic backend next =>
    cases next with
    | refused _ => contradiction
    | dropped priv _ drop =>
      obtain rfl : _ = c := by simpa [counters?, backend, priv] using counters
      simp [counters?, counted, drops, backend, drop, blank]
    | @drawn p dst priv mapped keep =>
      obtain rfl : _ = c := by simpa [counters?, backend, priv] using counters
      refine ⟨by simp [counters?, counted, drops, backend, keep],
        by simp [drops, backend, keep, blank],fun _ => ?_⟩
      exact ⟨dst,mapped,fun x y inRow inFrame => gradientPixels row total dst p.patternOffset
        m.mem inRow inFrame⟩
  | vcam backend next =>
    cases next with
    | refused _ => contradiction
    | dropped priv _ drop =>
      obtain rfl : _ = c := by simpa [counters?, backend, priv] using counters
      simp [counters?, counted, drops, backend, drop, blank]
    | @drawn p dst priv mapped keep shape room =>
      obtain rfl : _ = c := by simpa [counters?, backend, priv] using counters
      refine ⟨by simp [counters?, counted, drops, backend, keep],?_,fun _ => ?_⟩
      · simp [drops, backend, keep, blank, dated]
      · exact ⟨dst,mapped,vcamDrawShows m p dst row total⟩

theorem givenCounts {call : Call} {src : Source} {c : Counters} (counters : counters? src = some c)
    (given : (call.run src).ret = none) :
    counters? (call.run src).src = some (counted src.backend c) ∧ (call.run src).src.backend = src.backend ∧
    ((call.run src).desc.flags &&& frameFlagDropped ≠ 0 ↔ drops src.backend c = true) ∧
    (drops src.backend c = false → ∃ dst, call.vaddr = some dst ∧
      Shows (call.run src).machine.mem dst call.desc c.offset) := by
  obtain ⟨ret, _, answer⟩ := runOp call src
  have opGiven := ret.symm.trans given
  obtain ⟨after, flags, mem, _⟩ := answer opGiven
  obtain ⟨counts, flagged, shows_⟩ :=
    nextGiven (nextSource _ src call.vaddr _) opGiven rfl call.row call.total counters
  have done : Given call src c := ⟨counts,flagged,shows_⟩
  refine ⟨?_,(nextFrameSource _ _ _ _).2,?_,?_⟩
  · rw [after]
    exact done.counters
  · rw [flags, done.flags]
    cases drops src.backend c <;> decide
  · rw [mem]
    exact done.shows

theorem opRefused {m : Machine} {src : Source} {vaddr : Option Plane} {desc : FrameDesc} :
    (nextFrameOp m src vaddr desc).ret ≠ none → (nextFrameOp m src vaddr desc).src = src := by
  have source := nextSource m src vaddr desc
  generalize nextFrameOp m src vaddr desc = r at source ⊢
  intro refused
  cases source with
  | fixture _ => rfl
  | synthetic _ next => cases next <;> trivial
  | vcam _ next => cases next <;> trivial

theorem refusedKeeps {call : Call} {src : Source} (refused : (call.run src).ret ≠ none) :
    (call.run src).src = src := by
  obtain ⟨ret, refusal, _⟩ := runOp call src
  rw [ret] at refused
  rw [refusal refused]
  exact opRefused refused

theorem gradientElsewhere (dst : Plane) (width height stride offset : Nat) (m : Mem) {block : Nat}
    (differ : block ≠ dst.block) : (vcamFillGradient dst width height stride offset m).bytes block =
      m.bytes block := by
  have write : ∀ (t : Mem) i v, t.bytes block = m.bytes block → (t.write dst i v).bytes block =
      m.bytes block := by
    intro t i v so
    funext j
    simp [Mem.write, differ, so]
  have rows : (gradientRows dst width height stride offset m).bytes block = m.bytes block :=
    loopInvariant (fun _ (t : Mem) => t.bytes block = m.bytes block) rfl (fun _ t _ so =>
      loopInvariant (fun _ (t : Mem) => t.bytes block = m.bytes block) so (fun _ u _ so => write u _ _ so))
  exact write _ _ _ rows

theorem vcamDrawElsewhere (m : Machine) (desc : FrameDesc) {p : VcamPriv} {dst : Plane} {block : Nat}
    (notFb : block ≠ p.fb) (notDst : block ≠ dst.block) :
    (vcamDraw m desc p dst).bytes block = m.mem.bytes block := by
  have kept := gradientElsewhere (fbPlane m p.fb) desc.width desc.height desc.stride p.patternOffset m.mem notFb
  unfold vcamDraw
  simp only
  split
  · rename_i apart
    rw [writesBlock (writesCopy (Ne.symm apart) 0 0 _ _) notDst, kept]
  · exact kept

structure Drawn (m : Machine) (v : VcamPriv) (dst : Plane) (desc : FrameDesc) (r : NextFrame) : Prop where
  backend : r.src.backend = .vcamDerived
  priv : ∃ v', r.src.priv = .vcam v' ∧ v'.fb = v.fb ∧ v'.dropEveryN = 0 ∧
    v'.patternOffset = u32 (v.patternOffset + 1)
  flags : r.desc.flags = 0
  shows : Shows r.machine.mem dst desc v.patternOffset
  elsewhere : ∀ block, block ≠ v.fb → block ≠ dst.block → r.machine.mem.bytes block = m.mem.bytes block
  fbs : r.machine.fbs = m.fbs

theorem vcamDraws {m : Machine} {src : Source} {v : VcamPriv} (dst : Plane) (desc : FrameDesc)
    (backend : src.backend = .vcamDerived) (priv : src.priv = .vcam v) (never : v.dropEveryN = 0)
    (row : desc.width ≤ desc.stride) (total : desc.height * desc.stride < 2^32)
    (shape : desc.width ≠ 0 ∧ desc.height ≠ 0 ∧ desc.stride ≠ 0)
    (room : desc.stride * desc.height ≤ (m.fbs v.fb).size) :
    Drawn m v dst desc (vpipeSourceNextFrame m src (some dst) desc) := by
  let call : Call := ⟨m,some dst,desc,row,total⟩
  have answers : Answers m src (desc.stride * desc.height) := by simpa [Answers, backend, priv] using room
  have given : (call.run src).ret = none := nextFrameAnswers dst answers shape
  obtain ⟨ret, _, answer⟩ := runOp call src
  have opGiven := ret.symm.trans given
  obtain ⟨after, flags, mem, fbs⟩ := answer opGiven
  have next : Next _ src (some dst) _ (call.op src) := nextSource _ _ _ _
  change Drawn m v dst desc (call.run src)
  generalize call.op src = r at next opGiven after flags mem fbs
  cases next with
  | fixture other => simp [backend] at other
  | synthetic other _ => simp [backend] at other
  | vcam _ next =>
    cases next with
    | refused _ => contradiction
    | dropped held _ drop =>
      obtain rfl : v = _ := by simpa [priv] using held
      exact absurd never drop.1
    | drawn held mapped _ _ _ =>
      obtain rfl : v = _ := by simpa [priv] using held
      cases mapped
      refine ⟨?_,?_,flags,?_,?_,fbs⟩
      · rw [after]
        exact backend
      · exact ⟨_,congrArg Source.priv after,rfl,never,rfl⟩
      · rw [mem]
        exact vcamDrawShows _ v dst row total
      · intro block notFb notDst
        rw [mem]
        exact vcamDrawElsewhere _ _ notFb notDst

end Vpipe.Gradient
