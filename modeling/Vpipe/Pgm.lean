import Mathlib.Data.Nat.Digits.Defs
import Vpipe.Lib.Word

/-! Reader and writer of binary PGM files from `vpipe-common.c`, over the bytes of a file. A
stream is the list of bytes not yet read; the numerals are read as glibc reads `%u` on a 64-bit
system. -/
namespace Vpipe.Pgm
open Vpipe.Lib.Word

structure PgmImage where
  width : Nat
  height : Nat
  size : Nat
  pixels : List UInt8
  deriving DecidableEq, Repr

def newline : UInt8 := 0x0a
def hash : UInt8 := 0x23

def isspace (c : UInt8) : Bool := c = 0x20 || (0x09 ≤ c && c ≤ 0x0d)

def isdigit (c : UInt8) : Bool := 0x30 ≤ c && c ≤ 0x39

/- The byte fgetc returned last, none for EOF, and the rest of the stream. Inside a comment the
loop runs on to the newline, which is itself white space. -/
def skipFrom (comment : Bool) : List UInt8 → Option UInt8 × List UInt8
  | [] => (none,[])
  | c :: rest =>
    if comment then skipFrom (c ≠ newline) rest
    else if c = hash then skipFrom true rest
    else if isspace c then skipFrom false rest
    else (some c,rest)

def vpipeSkipSpace (stream : List UInt8) : Option UInt8 × List UInt8 := skipFrom false stream

def ungetc : Option UInt8 × List UInt8 → List UInt8
  | (none,rest) => rest
  | (some c,rest) => c :: rest

def digitsValue (digits : List UInt8) : Nat := digits.foldl (fun n d => 10 * n + (d.toNat - 0x30)) 0

/- strtoul saturates, and negates after the conversion. -/
def strtoul (negative : Bool) (digits : List UInt8) : Nat :=
  if 2^64 ≤ digitsValue digits then 2^64 - 1
  else if negative then u64 (2^64 - digitsValue digits) else digitsValue digits

def takeSign : List UInt8 → Bool × List UInt8
  | [] => (false,[])
  | c :: rest => if c = 0x2d then (true,rest) else if c = 0x2b then (false,rest) else (false,c :: rest)

def scanU (stream : List UInt8) : Option (Nat × List UInt8) :=
  let (negative,stream) := takeSign (stream.dropWhile isspace)
  let digits := stream.takeWhile isdigit
  if digits.isEmpty then none else some (u32 (strtoul negative digits),stream.dropWhile isdigit)

def pgmMaxDim : Nat := 4096

def magic : List UInt8 → Option (List UInt8)
  | 0x50 :: 0x35 :: rest => some rest
  | _ => none

def vpipeReadPgm (file : List UInt8) (malloc : Bool := true) : Option PgmImage := do
  let stream ← magic file
  let (width,stream) ← scanU (ungetc (vpipeSkipSpace stream))
  let (height,stream) ← scanU stream
  if width = 0 ∨ height = 0 ∨ width > pgmMaxDim ∨ height > pgmMaxDim then none
  else do
    let (maxval,stream) ← scanU (ungetc (vpipeSkipSpace stream))
    if maxval ≠ 255 then none
    else
      -- fgetc takes the byte after the numeral, whatever it is.
      let stream := stream.tail
      let size := width * height
      if !malloc then none
      else if stream.length < size then none
      else some ⟨width,height,size,stream.take size⟩

def decimal (n : Nat) : List UInt8 :=
  if n = 0 then [0x30] else (Nat.digits 10 n).reverse.map (fun d => UInt8.ofNat (0x30 + d))

def pgmHeader (width height : Nat) : List UInt8 :=
  [0x50,0x35,newline] ++ decimal width ++ [0x20] ++ decimal height ++ [newline,0x32,0x35,0x35,newline]

def vpipeWritePgm (data : List UInt8) (width height : Nat) : List UInt8 :=
  pgmHeader width height ++ data.take (width * height)

structure WellSized (img : PgmImage) : Prop where
  width : 1 ≤ img.width ∧ img.width ≤ 4096
  height : 1 ≤ img.height ∧ img.height ≤ 4096
  size : img.size = img.width * img.height
  pixels : img.pixels.length = img.size

theorem pixelInside {img : PgmImage} (sized : WellSized img) {x y : Nat} (inRow : x < img.width)
    (inFrame : y < img.height) : y * img.width + x < img.pixels.length := by
  rw [sized.pixels, sized.size, Nat.mul_comm img.width]
  exact rowBound inRow inFrame

def PgmImage.pixel (img : PgmImage) (x y : Nat) : UInt8 := img.pixels.getD (y * img.width + x) 0

theorem pixelsExt {width height : Nat} {a b : List UInt8} (first : a.length = width * height)
    (second : b.length = width * height)
    (same : ∀ x y, x < width → y < height → a[y * width + x]? = b[y * width + x]?) : a = b := by
  refine List.ext_getElem? (fun i => ?_)
  by_cases inside : i < width * height
  · have some_ : 0 < width := Nat.pos_of_mul_pos_right (Nat.lt_of_le_of_lt (Nat.zero_le i) inside)
    have cell : i / width * width + i % width = i := by rw [Nat.mul_comm]; exact Nat.div_add_mod i width
    have row : i / width < height := Nat.div_lt_of_lt_mul inside
    rw [← cell]
    exact same _ _ (Nat.mod_lt i some_) row
  · rw [List.getElem?_eq_none (by omega), List.getElem?_eq_none (by omega)]

theorem readWellSized {file : List UInt8} {malloc : Bool} {img : PgmImage}
    (accepted : vpipeReadPgm file malloc = some img) : WellSized img := by
  simp only [vpipeReadPgm, Option.bind_eq_bind, Option.bind_eq_some_iff] at accepted
  obtain ⟨_, _, ⟨width, _⟩, _, ⟨height, _⟩, _, dims⟩ := accepted
  split at dims
  · contradiction
  · rename_i inRange
    simp only [pgmMaxDim, Option.bind_eq_some_iff] at dims inRange
    obtain ⟨⟨maxval, rest⟩, _, body⟩ := dims
    simp only at body
    split at body
    · contradiction
    · split at body
      · contradiction
      · split at body
        · contradiction
        · rename_i enough
          cases body
          constructor <;> simp only [List.length_take] <;> omega

theorem writeInjective {width height : Nat} {a b : List UInt8} (first : a.length = width * height)
    (second : b.length = width * height) :
    vpipeWritePgm a width height = vpipeWritePgm b width height ↔ a = b := by
  unfold vpipeWritePgm
  rw [List.append_cancel_left_eq, List.take_of_length_le (Nat.le_of_eq first),
    List.take_of_length_le (Nat.le_of_eq second)]

end Vpipe.Pgm
