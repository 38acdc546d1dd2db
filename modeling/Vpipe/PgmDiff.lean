import Vpipe.Feed
import Vpipe.PgmFormat

/-! `vpipe-pgm-diff`, and `validate-tinycv.sh`, which compares what the device and the reference make
of a fixture. -/
namespace Vpipe.PgmDiff
open Vpipe.Lib.Word Vpipe.Pgm Vpipe.PgmFormat Vpipe.M2m Vpipe.Reference Vpipe.Feed
open Vpipe.Cv (thresholdPixel)

def pixelDelta (l r : UInt8) : UInt8 :=
  let delta : Int := (l.toNat : Int) - r.toNat
  let delta := if delta < 0 then -delta else delta
  UInt8.ofNat delta.toNat

def vpipeWriteDiffPgm (lhs rhs : PgmImage) (malloc : Bool := true) : Option (List UInt8) :=
  if lhs.width ≠ rhs.width ∨ lhs.height ≠ rhs.height then none
  else if !malloc then none
  else
    let pixels := (List.range lhs.size).map (fun i => pixelDelta (lhs.pixels.getD i 0) (rhs.pixels.getD i 0))
    some (vpipeWritePgm pixels lhs.width lhs.height)

def pgmDiff (lhs rhs : List UInt8) : Option (List UInt8) := do
  let lhs ← vpipeReadPgm lhs
  let rhs ← vpipeReadPgm rhs
  vpipeWriteDiffPgm lhs rhs

/- The files of one round of validate-tinycv.sh; `set -e` ends it where a command fails. -/
structure Round where
  reference : Option (List UInt8) := none
  kernel : Option (List UInt8) := none
  diff : Option (List UInt8) := none
  deriving DecidableEq

def validate (k : Kernel) (ident cpu : Nat) (fixture : List UInt8) : Round :=
  match cvRef fixture 127 with
  | none => {}
  | some reference =>
    match fixtureFeed k ident cpu fixture with
    | none => {reference := reference}
    | some kernel =>
      -- cmp
      if reference ≠ kernel then {reference := reference, kernel := kernel}
      else {reference := reference, kernel := kernel, diff := pgmDiff reference kernel}

theorem pixelDeltaNat (l r : UInt8) : (pixelDelta l r).toNat = ((l.toNat : Int) - r.toNat).natAbs := by
  have left := l.toNat_lt
  have right := r.toNat_lt
  unfold pixelDelta
  simp only [UInt8.toNat_ofNat']
  split <;> omega

theorem pixelDeltaZero (l r : UInt8) : pixelDelta l r = 0 ↔ l = r := by
  rw [← UInt8.toNat_inj, ← UInt8.toNat_inj (a := l), pixelDeltaNat]
  show _ = 0 ↔ _
  omega

theorem pixelDeltaComm (l r : UInt8) : pixelDelta l r = pixelDelta r l := by
  rw [← UInt8.toNat_inj, pixelDeltaNat, pixelDeltaNat]
  omega

def delta (lhs rhs : PgmImage) : PgmImage :=
  {lhs with pixels := (List.range lhs.size).map (fun i => pixelDelta (lhs.pixels.getD i 0)
    (rhs.pixels.getD i 0))}

section Images

variable {lhs rhs : PgmImage}

theorem pixelFound {img : PgmImage} (sized : WellSized img) {x y : Nat} (inRow : x < img.width)
    (inFrame : y < img.height) : img.pixels[y * img.width + x]? = some (img.pixel x y) := by
  have inside := pixelInside sized inRow inFrame
  rw [PgmImage.pixel, List.getD_eq_getElem?_getD, List.getElem?_eq_getElem inside, Option.getD_some]

theorem deltaSized (sized : WellSized lhs) : WellSized (delta lhs rhs) :=
  ⟨sized.width,sized.height,sized.size,by simp only [delta, List.length_map, List.length_range]⟩

theorem deltaPixel (sized : WellSized lhs) (width : lhs.width = rhs.width) {x y : Nat} (inRow : x < lhs.width)
    (inFrame : y < lhs.height) : (delta lhs rhs).pixel x y = pixelDelta (lhs.pixel x y) (rhs.pixel x y) := by
  have inside : y * lhs.width + x < lhs.size := sized.pixels ▸ pixelInside sized inRow inFrame
  have found : (delta lhs rhs).pixels[y * lhs.width + x]? =
      some (pixelDelta (lhs.pixels.getD (y * lhs.width + x) 0) (rhs.pixels.getD (y * lhs.width + x) 0)) := by
    simp only [delta, List.getElem?_map, List.getElem?_range inside, Option.map_some]
  show (delta lhs rhs).pixels.getD (y * lhs.width + x) 0 = _
  rw [List.getD_eq_getElem?_getD, found, Option.getD_some, PgmImage.pixel, PgmImage.pixel, ← width]

theorem deltaComm (sized : WellSized lhs) (sized' : WellSized rhs) (width : lhs.width = rhs.width)
    (height : lhs.height = rhs.height) : delta lhs rhs = delta rhs lhs := by
  have size : lhs.size = rhs.size := by rw [sized.size, sized'.size, width, height]
  simp only [delta, PgmImage.mk.injEq]
  refine ⟨width,height,size,?_⟩
  rw [size]
  exact List.map_congr_left (fun i _ => pixelDeltaComm _ _)

theorem diffWrites (width : lhs.width = rhs.width) (height : lhs.height = rhs.height) :
    vpipeWriteDiffPgm lhs rhs =
      some (vpipeWritePgm (delta lhs rhs).pixels (delta lhs rhs).width (delta lhs rhs).height) := by
  simp [vpipeWriteDiffPgm, width, height, delta]

theorem writtenDiff (sized : WellSized lhs) (sized' : WellSized rhs) (width : lhs.width = rhs.width)
    (height : lhs.height = rhs.height) :
    pgmDiff (vpipeWritePgm lhs.pixels lhs.width lhs.height) (vpipeWritePgm rhs.pixels rhs.width rhs.height) =
      some (vpipeWritePgm (delta lhs rhs).pixels (delta lhs rhs).width (delta lhs rhs).height) :=
  Option.bind_eq_some_iff.mpr ⟨_,sizedReadBack sized,
    Option.bind_eq_some_iff.mpr ⟨_,sizedReadBack sized',diffWrites width height⟩⟩

theorem deltaBlack (sized : WellSized lhs) (sized' : WellSized rhs) (width : lhs.width = rhs.width)
    (height : lhs.height = rhs.height) :
    (∀ x y, x < lhs.width → y < lhs.height → (delta lhs rhs).pixel x y = 0) ↔ lhs = rhs := by
  have size : lhs.size = rhs.size := by rw [sized.size, sized'.size, width, height]
  constructor
  · intro black
    have pixels : lhs.pixels = rhs.pixels := by
      refine pixelsExt (sized.pixels.trans sized.size)
        (by rw [width, height]; exact sized'.pixels.trans sized'.size) ?_
      intro x y inRow inFrame
      have same := black x y inRow inFrame
      rw [deltaPixel sized width inRow inFrame, pixelDeltaZero] at same
      rw [pixelFound sized inRow inFrame, same, width]
      exact (pixelFound sized' (width ▸ inRow) (height ▸ inFrame)).symm
    cases lhs
    cases rhs
    simp_all
  · rintro rfl x y inRow inFrame
    rw [deltaPixel sized rfl inRow inFrame, pixelDeltaZero]

end Images

/-- vpipe-pgm-diff takes two files of one size, in either order, and writes a file that is read back
as the distances of their pixels; it is black only for two files of one picture. -/
theorem diffShows {l r : List UInt8} {lhs rhs : PgmImage} (accepted : vpipeReadPgm l = some lhs)
    (accepted' : vpipeReadPgm r = some rhs) :
    ((pgmDiff l r).isSome ↔ lhs.width = rhs.width ∧ lhs.height = rhs.height) ∧ pgmDiff l r = pgmDiff r l ∧
    ∀ file, pgmDiff l r = some file → ∃ diff, vpipeReadPgm file = some diff ∧ diff.width = lhs.width ∧
      diff.height = lhs.height ∧ (∀ x y, x < lhs.width → y < lhs.height →
        (diff.pixel x y).toNat = (((lhs.pixel x y).toNat : Int) - (rhs.pixel x y).toNat).natAbs) ∧
      ((∀ x y, x < lhs.width → y < lhs.height → diff.pixel x y = 0) ↔ lhs = rhs) := by
  have sized := readWellSized accepted
  have sized' := readWellSized accepted'
  have run : pgmDiff l r = vpipeWriteDiffPgm lhs rhs := by simp only [pgmDiff, accepted, accepted']; rfl
  have back : pgmDiff r l = vpipeWriteDiffPgm rhs lhs := by simp only [pgmDiff, accepted, accepted']; rfl
  rw [run, back]
  by_cases same : lhs.width = rhs.width ∧ lhs.height = rhs.height
  · obtain ⟨width, height⟩ := same
    rw [diffWrites width height, diffWrites width.symm height.symm, deltaComm sized sized' width height]
    refine ⟨by simp [width, height],rfl,?_⟩
    rintro file ⟨rfl⟩
    rw [← deltaComm sized sized' width height]
    refine ⟨delta lhs rhs,sizedReadBack (deltaSized sized),rfl,rfl,?_,deltaBlack sized sized' width height⟩
    intro x y inRow inFrame
    rw [deltaPixel sized width inRow inFrame, pixelDeltaNat]
  · have refused : vpipeWriteDiffPgm lhs rhs = none := if_pos (by omega)
    have refused' : vpipeWriteDiffPgm rhs lhs = none := if_pos (by omega)
    rw [refused, refused']
    exact ⟨by simp [same],rfl,by simp⟩

def halvesFile : List UInt8 := pgmHeader 16 12 ++ (List.replicate 96 30 ++ List.replicate 96 200)
def greyFile : List UInt8 := pgmHeader 16 12 ++ List.replicate 192 90

theorem halvesDiff : (pgmDiff halvesFile greyFile).isSome ∧ pgmDiff halvesFile greyFile =
    pgmDiff greyFile halvesFile ∧
    ∀ file, pgmDiff halvesFile greyFile = some file → ∃ diff, vpipeReadPgm file = some diff ∧ diff.width = 16 ∧
      diff.height = 12 ∧ (diff.pixel 15 5).toNat = 60 ∧ (diff.pixel 0 6).toNat = 110 := by
  have halves : vpipeReadPgm halvesFile = some ⟨16,12,192,List.replicate 96 30 ++ List.replicate 96 200⟩ := by
    decide +kernel
  have flat : vpipeReadPgm greyFile = some ⟨16,12,192,List.replicate 192 90⟩ := by decide +kernel
  obtain ⟨writes, either, shows⟩ := diffShows halves flat
  refine ⟨writes.mpr ⟨rfl,rfl⟩,either,fun file made => ?_⟩
  obtain ⟨diff, read, width, height, pixels, _⟩ := shows file made
  refine ⟨diff,read,width,height,?_,?_⟩
  · rw [pixels 15 5 (by decide) (by decide)]
    decide +kernel
  · rw [pixels 0 6 (by decide) (by decide)]
    decide +kernel

end Vpipe.PgmDiff
