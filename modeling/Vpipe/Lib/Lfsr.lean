import Mathlib.Logic.Function.Iterate

/-! A shift register with linear feedback: it moves down one place and takes in the polynomial
when a set bit leaves it. A step is linear in exclusive or, so several steps split into those of
the low bits and a plain shift of the rest; with the top bit of the polynomial set a step loses
nothing, so symbols shifted in within one width of the register can be told apart. -/
namespace Vpipe.Lib.Lfsr

variable {w : Nat} (p : BitVec w)

def shift (c : BitVec w) : BitVec w := if c.getLsbD 0 then p ^^^ (c >>> 1) else c >>> 1

theorem shiftXor (a b : BitVec w) : shift p (a ^^^ b) = shift p a ^^^ shift p b := by
  unfold shift
  rw [BitVec.getLsbD_xor, BitVec.ushiftRight_xor_distrib]
  cases a.getLsbD 0 <;> cases b.getLsbD 0
  · simp
  · simp only [Bool.false_bne, if_true, Bool.false_eq_true, if_false]
    ac_rfl
  · simp only [Bool.bne_false, if_true, Bool.false_eq_true, if_false]
    ac_rfl
  · -- Both bits are set: the polynomial enters twice and cancels.
    simp only [bne_self_eq_false, Bool.false_eq_true, if_false, if_true]
    rw [BitVec.xor_comm p, BitVec.xor_assoc, ← BitVec.xor_assoc p, BitVec.xor_self, BitVec.zero_xor]

theorem shiftsXor (n : Nat) (a b : BitVec w) :
    (shift p)^[n] (a ^^^ b) = (shift p)^[n] a ^^^ (shift p)^[n] b := by
  induction n generalizing a b with
  | zero => rfl
  | succ n ih => rw [Function.iterate_succ_apply, shiftXor, ih]; rfl

theorem shiftsClear {n : Nat} {c : BitVec w} (clear : ∀ i, i < n → c.getLsbD i = false) :
    (shift p)^[n] c = c >>> n := by
  induction n with
  | zero => simp
  | succ n ih =>
    have low : (c >>> n).getLsbD 0 = false := by simpa using clear n (Nat.lt_succ_self n)
    rw [Function.iterate_succ_apply', ih (fun i below => clear i (by omega))]
    simp only [shift, low, Bool.false_eq_true, if_false, BitVec.shiftRight_add]

theorem shiftsSplit (n : Nat) (c : BitVec w) {low : BitVec w} (same : ∀ i, i < n → low.getLsbD i = c.getLsbD i)
    (rest : low >>> n = 0#w) : (shift p)^[n] c = (shift p)^[n] low ^^^ (c >>> n) := by
  have clear : ∀ i, i < n → (low ^^^ c).getLsbD i = false := by
    intro i below
    rw [BitVec.getLsbD_xor, same i below, Bool.xor_self]
  have whole : c = low ^^^ (low ^^^ c) := by
    rw [← BitVec.xor_assoc, BitVec.xor_self, BitVec.zero_xor]
  calc (shift p)^[n] c = (shift p)^[n] (low ^^^ (low ^^^ c)) := by rw [← whole]
    _ = (shift p)^[n] low ^^^ ((low ^^^ c) >>> n) := by rw [shiftsXor, shiftsClear p clear]
    _ = (shift p)^[n] low ^^^ (c >>> n) := by rw [BitVec.ushiftRight_xor_distrib, rest, BitVec.zero_xor]

section Injective
variable {p}
variable (top : p.getMsbD 0 = true)
include top

theorem shiftZero {c : BitVec w} (gone : shift p c = 0#w) : c = 0#w := by
  unfold shift at gone
  split at gone
  · -- The polynomial entered, and nothing else can clear its top bit.
    have same : p = c >>> 1 := BitVec.xor_eq_zero_iff.mp gone
    rw [same, BitVec.getMsbD_ushiftRight] at top
    simp at top
  · rename_i low
    apply BitVec.eq_of_getLsbD_eq
    intro i inside
    cases i with
    | zero => simpa using low
    | succ i =>
      have moved : (c >>> 1).getLsbD i = false := by rw [gone, BitVec.getLsbD_zero]
      rw [BitVec.getLsbD_ushiftRight, Nat.add_comm] at moved
      rw [moved, BitVec.getLsbD_zero]

theorem shiftInjective : Function.Injective (shift p) := by
  intro a b same
  apply BitVec.xor_eq_zero_iff.mp
  apply shiftZero top
  rw [shiftXor, same, BitVec.xor_self]

end Injective

def absorb (n : Nat) (c b : BitVec w) : BitVec w := (shift p)^[n] (c ^^^ b)

def Narrow (n : Nat) (b : BitVec w) : Prop := ∀ i, n ≤ i → b.getLsbD i = false

def packed (n : Nat) : List (BitVec w) → BitVec w
  | [] => 0#w
  | b :: rest => b ^^^ (packed n rest <<< n)

theorem packedNarrow {n : Nat} {symbols : List (BitVec w)} (narrow : ∀ b ∈ symbols, Narrow n b) :
    Narrow (n * symbols.length) (packed n symbols) := by
  induction symbols with
  | nil =>
    intro i _
    exact BitVec.getLsbD_zero
  | cons b rest ih =>
    obtain ⟨narrowHead, narrowRest⟩ := List.forall_mem_cons.mp narrow
    intro i high
    rw [List.length_cons, Nat.mul_succ] at high
    have first := narrowHead i (by omega)
    have later := ih narrowRest (i - n) (by omega)
    simp only [packed, BitVec.getLsbD_xor, BitVec.getLsbD_shiftLeft, first, later, Bool.and_false,
      Bool.false_bne]

theorem packedBack {n : Nat} {symbols : List (BitVec w)} (narrow : ∀ b ∈ symbols, Narrow n b)
    (fits : n * symbols.length + n ≤ w) : (packed n symbols <<< n) >>> n = packed n symbols := by
  apply BitVec.eq_of_getLsbD_eq
  intro i inside
  rw [BitVec.getLsbD_ushiftRight, BitVec.getLsbD_shiftLeft]
  by_cases high : n * symbols.length ≤ i
  · rw [packedNarrow narrow i high, Nat.add_sub_cancel_left, packedNarrow narrow i high, Bool.and_false]
  · have room : n + i < w := by omega
    simp [room]

theorem packedInjective {n : Nat} {a b : List (BitVec w)} (same : a.length = b.length)
    (narrowA : ∀ c ∈ a, Narrow n c) (narrowB : ∀ c ∈ b, Narrow n c) (fits : n * a.length ≤ w)
    (equal : packed n a = packed n b) : a = b := by
  induction a generalizing b with
  | nil => exact (List.length_eq_zero_iff.mp same.symm).symm
  | cons x xs ih =>
    cases b with
    | nil => simp at same
    | cons y ys =>
      rw [List.length_cons, Nat.mul_succ] at fits
      have lengths : xs.length = ys.length := Nat.succ.inj same
      obtain ⟨firstA, restA⟩ := List.forall_mem_cons.mp narrowA
      obtain ⟨firstB, restB⟩ := List.forall_mem_cons.mp narrowB
      simp only [packed] at equal
      have head : x = y := by
        apply BitVec.eq_of_getLsbD_eq
        intro i _
        by_cases high : n ≤ i
        · rw [firstA i high, firstB i high]
        · have bits := congrArg (BitVec.getLsbD · i) equal
          simpa [BitVec.getLsbD_shiftLeft, Nat.not_le.mp high] using bits
      have tail : packed n xs <<< n = packed n ys <<< n := by
        rw [head] at equal
        exact (BitVec.xor_right_inj _).mp equal
      have down := congrArg (fun c : BitVec w => c >>> n) tail
      rw [packedBack restA fits, packedBack restB (lengths ▸ fits)] at down
      rw [head, ih lengths restA restB (by omega) down]

theorem absorbPacked {n : Nat} {symbols : List (BitVec w)} (narrow : ∀ b ∈ symbols, Narrow n b)
    (fits : n * symbols.length ≤ w) (c : BitVec w) :
    symbols.foldl (absorb p n) c = (shift p)^[n * symbols.length] (c ^^^ packed n symbols) := by
  induction symbols generalizing c with
  | nil => simp [packed]
  | cons b rest ih =>
    rw [List.length_cons, Nat.mul_succ] at fits
    have later := (List.forall_mem_cons.mp narrow).2
    have low : ∀ i, i < n → (packed n rest <<< n).getLsbD i = false := by
      intro i below
      rw [BitVec.getLsbD_shiftLeft]
      simp [below]
    have moved : (shift p)^[n] (packed n rest <<< n) = packed n rest := by
      rw [shiftsClear p low, packedBack later fits]
    calc (b :: rest).foldl (absorb p n) c
        = (shift p)^[n * rest.length] (absorb p n c b ^^^ packed n rest) := by
          rw [List.foldl_cons, ih later (by omega)]
      _ = (shift p)^[n * rest.length] ((shift p)^[n] (c ^^^ b ^^^ (packed n rest <<< n))) := by
          rw [shiftsXor p n (c ^^^ b), moved]
          rfl
      _ = (shift p)^[n * (rest.length + 1)] (c ^^^ packed n (b :: rest)) := by
          rw [← Function.iterate_add_apply, Nat.mul_succ, packed, BitVec.xor_assoc]

theorem windowSplit {α : Type} {a b : List α} {first k : Nat}
    (window : ∀ i, a[i]? ≠ b[i]? → first ≤ i ∧ i < first + k) :
    a.take first = b.take first ∧ a.drop (first + k) = b.drop (first + k) := by
  have outside : ∀ i, ¬ (first ≤ i ∧ i < first + k) → a[i]? = b[i]? := by
    intro i out
    by_contra differ
    exact out (window i differ)
  constructor
  · refine List.ext_getElem? (fun i => ?_)
    rw [List.getElem?_take, List.getElem?_take]
    split
    · exact outside i (by omega)
    · rfl
  · refine List.ext_getElem? (fun i => ?_)
    rw [List.getElem?_drop, List.getElem?_drop]
    exact outside _ (by omega)

theorem windowParts {α : Type} (a : List α) (first k : Nat) :
    a.take first ++ (a.drop first).take k ++ a.drop (first + k) = a := by
  rw [List.append_assoc, ← List.drop_drop, List.take_append_drop, List.take_append_drop]

section Windows
variable {p} (top : p.getMsbD 0 = true)
include top

theorem absorbInjective {n : Nat} {a b : List (BitVec w)} (same : a.length = b.length)
    (narrowA : ∀ s ∈ a, Narrow n s) (narrowB : ∀ s ∈ b, Narrow n s) (fits : n * a.length ≤ w) {c : BitVec w}
    (equal : a.foldl (absorb p n) c = b.foldl (absorb p n) c) : a = b := by
  rw [absorbPacked p narrowA fits, absorbPacked p narrowB (same ▸ fits), same] at equal
  have words := (BitVec.xor_right_inj _).mp ((shiftInjective top).iterate _ equal)
  exact packedInjective same narrowA narrowB fits words

theorem absorbState (n : Nat) (symbols : List (BitVec w)) {c d : BitVec w}
    (equal : symbols.foldl (absorb p n) c = symbols.foldl (absorb p n) d) : c = d := by
  induction symbols generalizing c d with
  | nil => exact equal
  | cons s rest ih => exact (BitVec.xor_left_inj _).mp ((shiftInjective top).iterate n (ih equal))

theorem windowDetected {n : Nat} {a b : List (BitVec w)} (narrowA : ∀ s ∈ a, Narrow n s)
    (narrowB : ∀ s ∈ b, Narrow n s) (same : a.length = b.length) (differ : a ≠ b) {first k : Nat}
    (fits : n * k ≤ w) (window : ∀ i, a[i]? ≠ b[i]? → first ≤ i ∧ i < first + k) (c : BitVec w) :
    a.foldl (absorb p n) c ≠ b.foldl (absorb p n) c := by
  obtain ⟨before, after⟩ := windowSplit window
  intro equal
  rw [← windowParts a first k, ← windowParts b first k, before, after] at equal
  simp only [List.foldl_append] at equal
  have lengths : ((a.drop first).take k).length = ((b.drop first).take k).length := by
    simp only [List.length_take, List.length_drop, same]
  have short : n * ((a.drop first).take k).length ≤ w :=
    Nat.le_trans (Nat.mul_le_mul_left n (List.length_take_le _ _)) fits
  have inside := absorbInjective top lengths
    (fun s member => narrowA s (List.mem_of_mem_drop (List.mem_of_mem_take member)))
    (fun s member => narrowB s (List.mem_of_mem_drop (List.mem_of_mem_take member))) short
    (absorbState top n _ equal)
  apply differ
  rw [← windowParts a first k, ← windowParts b first k, before, after, inside]

end Windows

end Vpipe.Lib.Lfsr
