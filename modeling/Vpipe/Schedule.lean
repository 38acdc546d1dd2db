import Mathlib.Algebra.Order.Ring.Nat
import Mathlib.Data.List.Induction
import Mathlib.Data.Nat.Init
import Vpipe.Gradient

/-! The drop schedule of a session: which of the frames a started backend gives are dropped, and
which patterns the others show. -/
namespace Vpipe.Schedule
open Vpipe.Lib.Word Vpipe.Lib.ByteMemory Vpipe.FrameSource Vpipe.Gradient

structure Served where
  call : Call
  result : NextFrame

def session : Source → List Call → List Served
  | _, [] => []
  | src, call :: rest =>
    match (call.run src).ret with
    | none => ⟨call,call.run src⟩ :: session (call.run src).src rest
    | some _ => session (call.run src).src rest

def Served.dropped (s : Served) : Bool := s.result.desc.flags &&& frameFlagDropped ≠ 0

def Served.Shows (s : Served) (offset : Nat) : Prop :=
  ∃ dst, s.call.vaddr = some dst ∧ Gradient.Shows s.result.machine.mem dst s.call.desc offset

structure Scheduled (every : Nat) (frames : List Served) : Prop where
  dropped : ∀ i s, frames[i]? = some s → (s.dropped = true ↔ every ∣ i + 1)
  count : frames.countP Served.dropped = frames.length / every
  pattern : ∀ i (s : Served), frames[i]? = some s → s.dropped = false →
    s.Shows ((frames.take i).countP (fun s => !s.dropped))

def dropEvery (params : Params) : Backend → Nat
  | .fixture => 0
  | .synthetic => params.syntheticDropEvery
  | .vcamDerived => params.vcamDropEvery

theorem startedCounters {m m' : Machine} {src src' : Source} {sizeimage : Nat} {env : StartEnv}
    (started : vpipeSourceStart m src sizeimage env = (none,src',m')) (kernel : src.backend ≠ .fixture) :
    counters? src' = some ⟨0,0,dropEvery m.params src.backend⟩ ∧ src'.backend = src.backend := by
  obtain ⟨ident, backend, priv, seq⟩ := src
  cases backend with
  | fixture => exact absurd rfl kernel
  | synthetic =>
    simp only [vpipeSourceStart, syntheticStart] at started
    split at started
    · cases started
    · cases started
      exact ⟨rfl,rfl⟩
  | vcamDerived =>
    simp only [vpipeSourceStart, vcamStart] at started
    split at started
    · cases started
    · split at started
      · cases started
      · simp only [vcamFbAlloc] at started
        cases fb : env.fb <;> cases vaddr : env.vaddr <;> simp only [fb, vaddr] at started <;> cases started
        exact ⟨rfl,rfl⟩

theorem sessionFrames {src : Source} {c : Counters} (counters : counters? src = some c) (calls : List Call) :
    ∀ i s, (session src calls)[i]? = some s →
      s.dropped = drops src.backend ((counted src.backend)^[i] c) ∧
      (s.dropped = false → s.Shows ((counted src.backend)^[i] c).offset) := by
  induction calls generalizing src c with
  | nil => simp [session]
  | cons call rest ih =>
    intro i s found
    unfold session at found
    split at found
    · rename_i given
      obtain ⟨after, backend, flags, shows_⟩ := givenCounts counters given
      cases i with
      | zero =>
        simp only [List.getElem?_cons_zero, Option.some.injEq] at found
        subst found
        have same : Served.dropped ⟨call,call.run src⟩ = drops src.backend c := by
          rw [Bool.eq_iff_iff, ← flags]
          simp [Served.dropped]
        refine ⟨same,fun kept => shows_ (same ▸ kept)⟩
      | succ i =>
        have later := ih after i s found
        rw [backend] at later
        exact later
    · rename_i refused
      have kept : (call.run src).src = src := refusedKeeps (by rw [refused]; simp)
      rw [kept] at found
      exact ih counters i s found

theorem syntheticDrops {every i offset : Nat} (positive : 1 ≤ every) (short : i + 1 < 2^32) :
    drops .synthetic ⟨i,offset,every⟩ = true ↔ every ∣ i + 1 := by
  simp only [drops, if_true, u32Of short, decide_eq_true_eq, Nat.dvd_iff_mod_eq_zero]
  omega

theorem syntheticCounters {every : Nat} (positive : 1 ≤ every) {i : Nat} (short : i < 2^32) :
    (counted .synthetic)^[i] ⟨0,0,every⟩ = ⟨i,i - i / every,every⟩ := by
  induction i with
  | zero => simp
  | succ i ih =>
    have below := Nat.div_le_self i every
    rw [Function.iterate_succ_apply', ih (by omega), counted, u32Of short, Nat.succ_div]
    simp only [syntheticDrops positive short, Counters.mk.injEq, true_and, and_true]
    generalize i / every = q at *
    split
    · omega
    · rw [u32Of (by omega)]
      omega

theorem vcamCounters (every : Nat) {i : Nat} (short : i < 2^32) :
    ((counted .vcamDerived)^[i] ⟨0,0,every⟩).produced = i ∧
    ((counted .vcamDerived)^[i] ⟨0,0,every⟩).every = every := by
  induction i with
  | zero => exact ⟨rfl,rfl⟩
  | succ i ih =>
    obtain ⟨produced, same⟩ := ih (by omega)
    rw [Function.iterate_succ_apply', counted, produced, same]
    exact ⟨u32Of short,rfl⟩

theorem countMultiples {α : Type} {p : α → Bool} {n : Nat} {xs : List α}
    (each : ∀ i a, xs[i]? = some a → (p a = true ↔ n ∣ i + 1)) : xs.countP p = xs.length / n := by
  induction xs using List.reverseRecOn with
  | nil => simp
  | append_singleton xs a ih =>
    have last : p a = true ↔ n ∣ xs.length + 1 := each xs.length a (by simp)
    have before := ih (fun i b found => each i b (List.getElem?_append_left
      (List.getElem?_eq_some_iff.mp found).1 ▸ found))
    rw [List.countP_append, before, List.countP_singleton, List.length_append,
      List.length_singleton, Nat.succ_div]
    simp only [last]

theorem syntheticScheduled {every : Nat} (positive : 1 ≤ every) {src : Source}
    (counters : counters? src = some ⟨0,0,every⟩) (backend : src.backend = .synthetic) {calls : List Call}
    (short : (session src calls).length < 2^32) : Scheduled every (session src calls) := by
  have frames := sessionFrames counters calls
  rw [backend] at frames
  have dropped : ∀ i (s : Served), (session src calls)[i]? = some s → (s.dropped = true ↔ every ∣ i + 1) := by
    intro i s found
    have inside := (List.getElem?_eq_some_iff.mp found).1
    rw [(frames i s found).1, syntheticCounters positive (by omega)]
    exact syntheticDrops positive (by omega)
  refine ⟨dropped,countMultiples dropped,?_⟩
  intro i s found kept
  have inside := (List.getElem?_eq_some_iff.mp found).1
  have length : ((session src calls).take i).length = i := by
    rw [List.length_take, Nat.min_eq_left (Nat.le_of_lt inside)]
  have before : ((session src calls).take i).countP Served.dropped = i / every := by
    refine (countMultiples ?_).trans (by rw [length])
    intro j t here
    rw [List.getElem?_take] at here
    split at here
    · exact dropped j t here
    · contradiction
  have delivered : ((session src calls).take i).countP (fun s => !s.dropped) = i - i / every := by
    have total := List.length_eq_countP_add_countP Served.dropped (l := (session src calls).take i)
    rw [before, length] at total
    simp only [Bool.not_eq_true, Bool.decide_eq_false] at total
    omega
  have shows_ := (frames i s found).2 kept
  rw [syntheticCounters positive (by omega)] at shows_
  rw [delivered]
  exact shows_

/- The first frame of a vcam session is dropped, so the schedule starts one frame early. -/
theorem vcamDropped {every : Nat} (positive : 1 ≤ every) {src : Source}
    (counters : counters? src = some ⟨0,0,every⟩) (backend : src.backend = .vcamDerived) {calls : List Call}
    (short : (session src calls).length < 2^32) {i : Nat} {s : Served}
    (found : (session src calls)[i]? = some s) :
    s.dropped = true ↔ every ∣ i := by
  have inside := (List.getElem?_eq_some_iff.mp found).1
  obtain ⟨produced, same⟩ := vcamCounters every (show i < 2^32 by omega)
  rw [(sessionFrames counters calls i s found).1, backend]
  simp only [drops, produced, same, reduceCtorEq, if_false, decide_eq_true_eq, Nat.dvd_iff_mod_eq_zero]
  omega

theorem vcamScheduled {every : Nat} (positive : 1 ≤ every) {src : Source}
    (counters : counters? src = some ⟨0,0,every⟩) (backend : src.backend = .vcamDerived) {calls : List Call}
    (short : (session src calls).length < 2^32) :
    Scheduled every (session src calls) ↔ every = 1 ∨ session src calls = [] := by
  have drops_ := fun i s => vcamDropped positive counters backend short (i := i) (s := s)
  constructor
  · intro scheduled
    cases frames : session src calls with
    | nil => exact .inr rfl
    | cons s rest =>
      have found : (session src calls)[0]? = some s := by rw [frames]; rfl
      have first := (scheduled.dropped 0 s found).mp ((drops_ 0 s found).mpr (Nat.dvd_zero _))
      exact .inl (Nat.dvd_one.mp first)
  · rintro (rfl | none_)
    · have all : ∀ i (s : Served), (session src calls)[i]? = some s → (s.dropped = true ↔ 1 ∣ i + 1) :=
        fun i s found => (drops_ i s found).trans ⟨fun _ => Nat.one_dvd _,fun _ => Nat.one_dvd _⟩
      refine ⟨all,countMultiples all,fun i s found kept => ?_⟩
      rw [(all i s found).mpr (Nat.one_dvd _)] at kept
      contradiction
    · rw [none_]
      constructor <;> simp

/-- A backend of the kernel started with its drop parameter at N keeps the documented schedule,
every N-th frame dropped and no pattern skipped or repeated, exactly when it is the synthetic one,
N is 1, or no frame is asked for. -/
theorem scheduleKept {m m' : Machine} {src src' : Source} {sizeimage : Nat} {env : StartEnv}
    (started : vpipeSourceStart m src sizeimage env = (none,src',m')) (kernel : src.backend ≠ .fixture)
    (positive : 1 ≤ dropEvery m.params src.backend) (calls : List Call)
    (short : (session src' calls).length < 2^32) :
    Scheduled (dropEvery m.params src.backend) (session src' calls) ↔
      src.backend = .synthetic ∨ dropEvery m.params src.backend = 1 ∨ session src' calls = [] := by
  obtain ⟨counters, same⟩ := startedCounters started kernel
  cases backend : src.backend with
  | fixture => exact absurd backend kernel
  | synthetic =>
    rw [backend] at counters positive same
    exact ⟨fun _ => .inl rfl,fun _ => syntheticScheduled positive counters same short⟩
  | vcamDerived =>
    rw [backend] at counters positive same
    rw [vcamScheduled positive counters same short]
    simp

def halving : Machine :=
  ⟨fun n => n,0,0,⟨fun _ _ => 0,[]⟩,{syntheticDropEvery := 2, vcamDropEvery := 2},fun _ => ⟨0,0⟩,[],[]⟩

def onePixel (m : Machine) : Call :=
  ⟨m,some ⟨9,1⟩,{width := 1, height := 1, stride := 1},by decide,by decide⟩

theorem syntheticHalved :
    let started := vpipeSourceStart halving ⟨0,.synthetic,.null,0⟩ 1 {}
    (session started.2.1 [onePixel started.2.2,onePixel started.2.2]).length = 2 ∧
    Scheduled 2 (session started.2.1 [onePixel started.2.2,onePixel started.2.2]) := by
  refine ⟨by decide,?_⟩
  exact (scheduleKept (show vpipeSourceStart halving ⟨0,.synthetic,.null,0⟩ 1 {} = (none,_,_) from rfl)
    (by decide) (by decide) _ (by decide)).mpr (.inl rfl)

theorem vcamDropsFirst :
    let started := vpipeSourceStart halving ⟨0,.vcamDerived,.null,0⟩ 1 {}
    started.1 = none ∧ (session started.2.1 [onePixel started.2.2]).map Served.dropped = [true] ∧
    ¬ Scheduled 2 (session started.2.1 [onePixel started.2.2]) := by
  refine ⟨by decide,by decide,?_⟩
  intro scheduled
  have first := (scheduled.dropped 0 _ rfl).mp (by decide)
  exact absurd first (by decide)

end Vpipe.Schedule
