import Vpipe.Lib.ByteMemory
import Vpipe.Pgm

/-! The userspace reference: `vpipe_threshold_reference` of `vpipe-common.c` and the tool
`vpipe-cv-ref` around it. -/
namespace Vpipe.Reference
open Vpipe.Lib.Word Vpipe.Lib.ByteMemory Vpipe.Pgm

structure Window where
  left : Nat
  top : Nat
  right : Nat
  bottom : Nat
  deriving DecidableEq, Repr

def Window.Has (w : Window) (x y : Nat) : Prop := w.left ≤ x ∧ x < w.right ∧ w.top ≤ y ∧ y < w.bottom

instance (w : Window) (x y : Nat) : Decidable (w.Has x y) := by unfold Window.Has; infer_instance

def firstOf (start : Int) (frame : Nat) : Nat :=
  if start < 0 then 0 else if toU32 start > frame then frame else toU32 start

def lastOf (first : Nat) (extent : Int) (frame : Nat) : Nat :=
  if toU32 extent > frame - first then frame else first + toU32 extent

def windowOf (src : PgmImage) (roiLeft roiTop roiWidth roiHeight : Int) : Window :=
  if roiWidth ≤ 0 ∨ roiHeight ≤ 0 then ⟨0,0,src.width,src.height⟩
  else
    let left := firstOf roiLeft src.width
    let top := firstOf roiTop src.height
    ⟨left,top,lastOf left roiWidth src.width,lastOf top roiHeight src.height⟩

def referenceAt (src : PgmImage) (threshold : UInt8) (idx : Nat) : UInt8 :=
  if src.pixels.getD idx 0 > threshold then 255 else 0

def vpipeThresholdReference (src : PgmImage) (threshold : UInt8)
    (roiLeft roiTop roiWidth roiHeight : Int) (malloc : Bool := true) : Option PgmImage :=
  if !malloc then none
  else
    let w := windowOf src roiLeft roiTop roiWidth roiHeight
    let pixels := loop (w.bottom - w.top) (fun j px => loop (w.right - w.left) (fun i px =>
      let idx := (w.top + j) * src.width + (w.left + i)
      px.set idx (referenceAt src threshold idx)) px) (src.pixels.take src.size)
    some ⟨src.width,src.height,src.size,pixels⟩

def cvRef (input : List UInt8) (threshold : Nat) : Option (List UInt8) := do
  let src ← vpipeReadPgm input
  let dst ← vpipeThresholdReference src (UInt8.ofNat threshold) 0 0 (s32 src.width) (s32 src.height)
  some (vpipeWritePgm dst.pixels dst.width dst.height)

theorem cvRefWrites {input : List UInt8} {threshold : Nat} {src dst : PgmImage}
    (accepted : vpipeReadPgm input = some src)
    (made : vpipeThresholdReference src (UInt8.ofNat threshold) 0 0 (s32 src.width)
      (s32 src.height) = some dst) :
    cvRef input threshold = some (vpipeWritePgm dst.pixels dst.width dst.height) :=
  Option.bind_eq_some_iff.mpr ⟨src,accepted,Option.bind_eq_some_iff.mpr ⟨dst,made,rfl⟩⟩

theorem windowInside (src : PgmImage) (roiLeft roiTop roiWidth roiHeight : Int) :
    (windowOf src roiLeft roiTop roiWidth roiHeight).right ≤ src.width ∧
    (windowOf src roiLeft roiTop roiWidth roiHeight).bottom ≤ src.height := by
  have start : ∀ z frame, firstOf z frame ≤ frame := fun z frame => by
    unfold firstOf
    split
    · omega
    · split <;> omega
  have last : ∀ first z frame, first ≤ frame → lastOf first z frame ≤ frame := fun first z frame low => by
    unfold lastOf
    split <;> omega
  unfold windowOf
  split
  · exact ⟨Nat.le_refl _,Nat.le_refl _⟩
  · exact ⟨last _ _ _ (start _ _),last _ _ _ (start _ _)⟩

theorem referencePixels {src dst : PgmImage} {threshold : UInt8} {roiLeft roiTop roiWidth roiHeight : Int}
    {malloc : Bool} (sized : WellSized src)
    (made : vpipeThresholdReference src threshold roiLeft roiTop roiWidth roiHeight malloc = some dst) :
    dst.width = src.width ∧ dst.height = src.height ∧ dst.size = src.size ∧ dst.pixels.length = src.size ∧
    ∀ x y, x < src.width → y < src.height → dst.pixels[y * src.width + x]? =
      if (windowOf src roiLeft roiTop roiWidth roiHeight).Has x y
      then some (referenceAt src threshold (y * src.width + x)) else src.pixels[y * src.width + x]? := by
  obtain ⟨inRight, inBottom⟩ := windowInside src roiLeft roiTop roiWidth roiHeight
  simp only [vpipeThresholdReference] at made
  generalize windowOf src roiLeft roiTop roiWidth roiHeight = w at *
  split at made
  · contradiction
  · cases made
    rw [List.take_of_length_le (Nat.le_of_eq sized.pixels)]
    have filled : Fills (fun i => ∃ j, j < w.bottom - w.top ∧ ∃ k, k < w.right - w.left ∧
        i = (w.top + j) * src.width + (w.left + k)) (referenceAt src threshold) src.pixels
        (loop (w.bottom - w.top) (fun j px => loop (w.right - w.left) (fun i px =>
          px.set ((w.top + j) * src.width + (w.left + i))
            (referenceAt src threshold ((w.top + j) * src.width + (w.left + i)))) px) src.pixels) :=
      fillsLoop _ (fun j t _ => fillsLoop _ (fun k u _ => fillsSet u _ _))
    refine ⟨rfl,rfl,rfl,(fillsLength filled).trans sized.pixels,?_⟩
    intro x y inRow inFrame
    split
    · rename_i has
      obtain ⟨left, right, top, bottom⟩ := has
      have visited : ∃ j, j < w.bottom - w.top ∧ ∃ k, k < w.right - w.left ∧
          y * src.width + x = (w.top + j) * src.width + (w.left + k) := by
        refine ⟨y - w.top,by omega,x - w.left,by omega,?_⟩
        rw [show w.top + (y - w.top) = y by omega, show w.left + (x - w.left) = x by omega]
      rw [(filled _).1 visited, List.getElem?_eq_getElem (pixelInside sized inRow inFrame), Option.map_some]
    · rename_i misses
      refine (filled _).2 ?_
      rintro ⟨j, inRows, k, inColumns, same⟩
      obtain ⟨column, row⟩ := cellUnique same inRow (by omega)
      exact misses ⟨by omega,by omega,by omega,by omega⟩

end Vpipe.Reference
