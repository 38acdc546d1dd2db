import Vpipe.Percentile
import Vpipe.UserptrRun

/-! `summarize-benchmark.py phase_userptr` on the CSV of `vpipe-capture-userptr`: the page faults that
pinning costs. -/
namespace Vpipe.UserptrFaults
open Vpipe.Lib.AddressSpace Vpipe.Lib.Floating Vpipe.Percentile Vpipe.Userptr Vpipe.UserptrRun

namespace Script

def mean (values : List Int) : ℚ :=
  let quotient := (values.sum : ℚ) / values.length
  if quotient.den = 1 then quotient else (Value.round quotient : Double).val

end Script

structure Summary where
  frames : Nat
  medianNs : ℚ
  p95Ns : ℚ
  p99Ns : ℚ
  warmupRowsSkipped : Nat
  minorFaultsPerQbufMean : ℚ
  minorFaultsPerQbufP95 : ℚ
  minorFaultsPerQbufMax : Int

/- summarize_phase_userptr on the rows of the file; SystemExit without a row. -/
def summarizePhaseUserptr (rows : List CsvRow) : Option Summary := do
  let latencies := rows.map (fun row => (row.dequeueNs : Int) - row.enqueueNs)
  let warmupRows := (rows.map CsvRow.bufferIndex).dedup.length
  let steadyFaults := (rows.drop warmupRows).map CsvRow.minorFaultsDelta
  let median ← Percentile.Script.median latencies
  let p95 ← Percentile.Script.percentile (Percentile.Script.sorted latencies) (literal 95 100)
  let p99 ← Percentile.Script.percentile (Percentile.Script.sorted latencies) (literal 99 100)
  let faultsP95 ← (if steadyFaults = [] then some 0
    else Percentile.Script.percentile (Percentile.Script.sorted steadyFaults) (literal 95 100) : Option ℚ)
  some {
    frames := rows.length
    medianNs := median
    p95Ns := p95
    p99Ns := p99
    warmupRowsSkipped := min warmupRows rows.length
    minorFaultsPerQbufMean := if steadyFaults = [] then 0 else Script.mean steadyFaults
    minorFaultsPerQbufP95 := faultsP95
    minorFaultsPerQbufMax := steadyFaults.max?.getD 0}

section Summaries

theorem percentileSome {values : List Int} (some_ : values ≠ []) (p : Double) :
    ∃ q, Percentile.Script.percentile (Percentile.Script.sorted values) p = some q := by
  have still : Percentile.Script.sorted values ≠ [] := by
    intro none_
    have perm : (Percentile.Script.sorted values).Perm values := List.mergeSort_perm _ _
    exact some_ (List.nil_perm.mp (none_ ▸ perm))
  simp only [Percentile.Script.percentile, if_neg still]
  split
  · exact ⟨_,rfl⟩
  · split <;> exact ⟨_,rfl⟩

theorem medianSome {values : List Int} (some_ : values ≠ []) :
    ∃ q, Percentile.Script.median values = some q := by
  have perm : (Percentile.Script.sorted values).Perm values := List.mergeSort_perm _ _
  have positive : (Percentile.Script.sorted values).length ≠ 0 := by
    rw [perm.length_eq]
    exact fun none_ => some_ (List.length_eq_zero_iff.mp none_)
  simp only [Percentile.Script.median, Percentile.Script.medianOf, if_neg positive]
  split <;> exact ⟨_,rfl⟩

variable {n c : Nat}

theorem percentileSame (some_ : 0 < n) (count : n ≤ 2^53) (small : c ≤ 2^53) {p : Double}
    (fraction : Fraction p) :
    Percentile.Script.percentile (Percentile.Script.sorted (List.replicate n (c : Int))) p = some (c : ℚ) := by
  have measured : Measured (List.replicate n c) :=
    ⟨List.pairwise_replicate.mpr (.inr (Nat.le_refl c)),
      fun x member => (List.eq_of_mem_replicate member).le.trans small,
      fun none_ => by rw [List.replicate_eq_nil_iff] at none_; omega,by rw [List.length_replicate]; exact count⟩
  have ints : List.replicate n (c : Int) = (List.replicate n c).map Int.ofNat := List.map_replicate.symm
  have order : qsort cmpU64 (List.replicate n c) = List.replicate n c := List.perm_replicate.mp (qsortPerm _)
  have entry : ∀ i, i < n → (List.replicate n c).getD i 0 = c := fun i inside => by
    rw [List.getD_eq_getElem _ 0 (by rw [List.length_replicate]; exact inside), List.getElem_replicate]
  obtain ⟨inside, _⟩ := endsOrdered measured fraction
  have low := Nat.floor_le_ceil (rank (List.replicate n c).length p)
  have range := pointRange measured fraction
  rw [List.length_replicate] at inside low range
  rw [entry _ inside, entry _ (low.trans_lt inside)] at range
  rw [ints, scriptSorted, order, scriptPoint measured fraction, le_antisymm range.2 range.1]

theorem meanSame (some_ : 0 < n) : Script.mean (List.replicate n (c : Int)) = c := by
  have quotient : ((List.replicate n (c : Int)).sum : ℚ) / (List.replicate n (c : Int)).length = c := by
    have positive : (n : ℚ) ≠ 0 := Nat.cast_ne_zero.mpr some_.ne'
    rw [List.sum_replicate, List.length_replicate, nsmul_eq_mul]
    push_cast
    exact mul_div_cancel_left₀ _ positive
  simp only [Script.mean, quotient, Rat.den_natCast, if_true]

variable {rows : List CsvRow}

theorem turnWarm (turn : ∀ i row, rows[i]? = some row → row.bufferIndex = i % bufferCount) :
    (indices rows).dedup.length = min bufferCount rows.length := by
  have each : ∀ i, i ∈ (indices rows).dedup ↔ i ∈ List.range (min bufferCount rows.length) := by
    intro i
    rw [List.mem_dedup, List.mem_range, Nat.lt_min]
    constructor
    · intro member
      obtain ⟨row, there, rfl⟩ := List.mem_map.mp member
      obtain ⟨k, found⟩ := List.mem_iff_getElem?.mp there
      have inside := (List.getElem?_eq_some_iff.mp found).1
      rw [turn k row found]
      exact ⟨Nat.mod_lt k (by decide),(Nat.mod_le k bufferCount).trans_lt inside⟩
    · rintro ⟨small, few⟩
      have found := List.getElem?_eq_getElem few
      have named := turn i _ found
      rw [Nat.mod_eq_of_lt small] at named
      exact List.mem_map.mpr ⟨_,List.mem_of_getElem? found,named⟩
  rw [((List.perm_ext_iff_of_nodup (List.nodup_dedup _) List.nodup_range).mpr each).length_eq,
    List.length_range]

theorem turnCharged {price : Int} (turn : ∀ i row, rows[i]? = some row → row.bufferIndex = i % bufferCount)
    (charged : Charged rows price) :
    (rows.drop bufferCount).map CsvRow.minorFaultsDelta = List.replicate (rows.length - bufferCount) price := by
  refine List.eq_replicate_iff.mpr ⟨by rw [List.length_map, List.length_drop],fun delta member => ?_⟩
  obtain ⟨row, there, rfl⟩ := List.mem_map.mp member
  obtain ⟨k, found⟩ := List.mem_iff_getElem?.mp there
  rw [List.getElem?_drop] at found
  have inside := (List.getElem?_eq_some_iff.mp found).1
  have earlier := List.getElem?_eq_getElem (show k < rows.length by omega)
  have seen : row.bufferIndex ∈ indices (rows.take (bufferCount + k)) := by
    have taken : (rows.take (bufferCount + k))[k]? = some rows[k] := by
      rw [List.getElem?_take_of_lt (Nat.lt_add_of_pos_left (by decide)), earlier]
    refine List.mem_map.mpr ⟨rows[k],List.mem_of_getElem? taken,?_⟩
    rw [turn k _ earlier, turn (bufferCount + k) row found, Nat.add_mod_left]
  rw [charged (bufferCount + k) row found, if_pos seen]

def steady (frames price : Nat) : Nat := if bufferCount < frames then price else 0

theorem summarySteady {price : Nat} (turn : ∀ i row, rows[i]? = some row → row.bufferIndex = i % bufferCount)
    (some_ : rows ≠ []) (charged : Charged rows price) (small : price ≤ 2^53) (count : rows.length ≤ 2^53) :
    ∃ summary, summarizePhaseUserptr rows = some summary ∧
      summary.warmupRowsSkipped = min bufferCount rows.length ∧
      summary.minorFaultsPerQbufMean = steady rows.length price ∧
      summary.minorFaultsPerQbufP95 = steady rows.length price ∧
      summary.minorFaultsPerQbufMax = steady rows.length price := by
  have timed : rows.map (fun row => (row.dequeueNs : Int) - row.enqueueNs) ≠ [] := by
    rw [ne_eq, List.map_eq_nil_iff]
    exact some_
  obtain ⟨median, medianIs⟩ := medianSome timed
  obtain ⟨p95, p95Is⟩ := percentileSome timed (literal 95 100)
  obtain ⟨p99, p99Is⟩ := percentileSome timed (literal 99 100)
  have warm := turnWarm turn
  unfold indices at warm
  unfold steady
  rcases Nat.lt_or_ge bufferCount rows.length with several | few
  · have rest : 0 < rows.length - bufferCount := by omega
    have more : List.replicate (rows.length - bufferCount) (price : Int) ≠ [] := by
      rw [ne_eq, List.replicate_eq_nil_iff]
      omega
    have fraction : Fraction (literal 95 100) := literalFraction (by decide) (by decide)
    have faults := percentileSame rest (by omega) small fraction
    rw [Nat.min_eq_left several.le] at warm
    simp only [summarizePhaseUserptr, warm, turnCharged turn charged, medianIs, p95Is, p99Is,
      if_neg more, faults, meanSame rest, List.max?_replicate, if_neg rest.ne', if_pos several]
    exact ⟨_,rfl,rfl,rfl,rfl,rfl⟩
  · have none_ : (rows.drop (min bufferCount rows.length)).map CsvRow.minorFaultsDelta = [] := by
      rw [Nat.min_eq_right few, List.drop_length, List.map_nil]
    simp only [summarizePhaseUserptr, warm, none_, medianIs, p95Is, p99Is, if_true, if_neg (Nat.not_lt.mpr few)]
    exact ⟨_,rfl,Nat.min_eq_left (Nat.min_le_right _ _),Nat.cast_zero.symm,Nat.cast_zero.symm,rfl⟩

end Summaries

def frameCost (env : Env) (cost : Nat → Nat) : Nat := cost (pages env * pageSizeOf env)

def roomyEnv : Env where
  sizeimage := 640 * 480
  sizeimageRange := by decide
  place := fun _ regions _ => some (regions.foldr (fun x top => max (x.start + x.length) top) 0)
  camera := fun n => some ⟨0,0,0,n,640 * 480⟩
  clock := fun n => 1000 * n
  pinFaults := fun _ old region => if old = some region then 0 else region.length / 4096

theorem aboveAll (regions : List Region) : ∀ x ∈ regions,
    x.start + x.length ≤ regions.foldr (fun x top => max (x.start + x.length) top) 0 := by
  induction regions with
  | nil => exact fun x member => absurd member List.not_mem_nil
  | cons y ys ih =>
    intro x member
    rcases List.mem_cons.mp member with rfl | old
    · exact Nat.le_max_left _ _
    · exact (ih x old).trans (Nat.le_max_right _ _)

theorem roomySucceeds : Succeeds roomyEnv where
  opened := rfl
  formatted := rfl
  sizeimage := by decide
  page := ⟨12,by decide,rfl⟩
  fits := by decide +kernel
  place := fun _ space _ positive => ⟨_,rfl,positive,fun x member => .inr (aboveAll space.regions x member)⟩
  requested := ⟨bufferCount,rfl,Nat.le_refl _⟩
  csv := rfl
  queued := fun _ => rfl
  streamed := rfl
  camera := fun _ => ⟨_,rfl⟩

def resetConfig : Config := ⟨9,true,by decide⟩

def nothingMapped : Space := ⟨[],.nil,fun _ member => nomatch member⟩

theorem roomyCounted : Counted roomyEnv (fun length => length / 4096) where
  rusage := fun _ => rfl
  quiet := fun _ => rfl
  cached := fun _ _ => if_pos rfl
  pinned := fun _ _ _ differ => if_neg differ

end Vpipe.UserptrFaults
