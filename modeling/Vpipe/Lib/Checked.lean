import Vpipe.Lib.ByteMemory
import Vpipe.Lib.Word

/-! Code with its arithmetic checked: every operation gives the exact value, or nothing where that
value leaves its type or the object it indexes. A checked run that comes to an end is one in which
nothing wrapped and every index was inside. -/
namespace Vpipe.Lib.Checked
open Vpipe.Lib.Word Vpipe.Lib.ByteMemory

def exactU32 (z : Int) : Option Nat := if 0 ≤ z ∧ z < 2^32 then some z.toNat else none

def exactS32 (z : Int) : Option Int := if -2^31 ≤ z ∧ z < 2^31 then some z else none

def index (size : Nat) (i : Int) : Option Int := if 0 ≤ i ∧ i < size then some i else none

def rowStart (size : Nat) (row : Int) (stride : Nat) : Option Nat := do
  let row ← exactU32 row
  let start ← exactU32 (row * stride)
  let _ ← index size start
  some start

section Loops
variable {σ : Type}

def tryLoop : Nat → (Nat → σ → Option σ) → σ → Option σ
  | 0, _, s => some s
  | n+1, body, s => do
    let s ← tryLoop n body s
    body n s

theorem tryLoopSome {n : Nat} {tried : Nat → σ → Option σ} {body : Nat → σ → σ} {s : σ}
    (each : ∀ i t, i < n → tried i t = some (body i t)) : tryLoop n tried s = some (loop n body s) := by
  induction n with
  | zero => rfl
  | succ n ih =>
    rw [tryLoop, ih (fun i t below => each i t (by omega)), Option.bind_eq_bind, Option.bind_some,
      each n _ (Nat.lt_succ_self n), loop]

end Loops

def tryCopy (dstSize srcSize : Nat) (dst : Plane) (d : Int) (src : Plane) (s : Int) (n : Nat) (m : Mem) :
    Option Mem :=
  tryLoop n (fun k m => do
    let source ← index srcSize (s + k)
    let target ← index dstSize (d + k)
    some ((m.touch src source).write dst target (m.get src source))) m

theorem exactU32Of {z : Int} {n : Nat} (same : z = n) (small : n < 2^32) : exactU32 z = some n := by
  unfold exactU32
  rw [if_pos (by omega)]
  congr 1
  omega

theorem exactS32Of {z : Int} (low : -2^31 ≤ z) (high : z < 2^31) : exactS32 z = some z := if_pos ⟨low,high⟩

theorem indexOf {size : Nat} {i : Int} (low : 0 ≤ i) (high : i < size) : index size i = some i :=
  if_pos ⟨low,high⟩

theorem rowStartOf {size row stride height : Nat} {z : Int} (same : z = row) (inFrame : row < height)
    (line : 1 ≤ stride) (tall : height < 2^32) (total : height * stride ≤ size) (small : size < 2^32) :
    rowStart size z stride = some (row * stride) := by
  have bound := rowBound (show 0 < stride from line) inFrame
  unfold rowStart
  rw [exactU32Of same (by omega), Option.bind_eq_bind, Option.bind_some,
    exactU32Of (Int.natCast_mul row stride).symm (by omega), Option.bind_eq_bind, Option.bind_some,
    indexOf (by omega) (by omega)]
  rfl

example : rowStart 16 4096 (2^20) = none := by decide

theorem tryCopyOf {dstSize srcSize d s n : Nat} (dst src : Plane) (m : Mem) (target : d + n ≤ dstSize)
    (source : s + n ≤ srcSize) : tryCopy dstSize srcSize dst d src s n m = some (m.copy dst d src s n) := by
  refine tryLoopSome (fun k t below => ?_)
  rw [indexOf (by omega) (by omega), Option.bind_eq_bind, Option.bind_some, indexOf (by omega) (by omega)]
  rfl

end Vpipe.Lib.Checked
