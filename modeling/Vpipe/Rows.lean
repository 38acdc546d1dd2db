import Vpipe.Publication

/-! The metadata rows of a context against the frames it dequeues. The user tools pair them
by order alone. -/
namespace Vpipe.Rows
open Vpipe.Lib.Word Vpipe.Lib.ByteMemory Vpipe.Lib.BufferQueue Vpipe.Lib.Transition
open Vpipe.Cv Vpipe.FrameSource Vpipe.MetaRing Vpipe.M2m Vpipe.Moves Vpipe.Discipline Vpipe.Runs
open Vpipe.Frames Vpipe.Publication

def rowOf (p : Publication) : Nat × Nat := (p.buffer,u32 p.entry.seq)

def frameOf (r : Returned) : Nat × Nat := (r.buffer,r.sequence)

def good (k : Kernel) : List Returned := k.returned.filter (fun r => !r.error)

def numbers (s : Sys) : List Nat := s.k.published.map (fun p => p.entry.seq) ++
    (outbox s).map (fun w => w.2.seq)

structure InStep (s : Sys) : Prop where
  slots : Slots (s.queue .capture)
  matched : s.k.published.map rowOf = (good s.k).map frameOf
  increasing : (numbers s).Pairwise (· < ·)
  counted : ∀ n ∈ numbers s, 0 < n ∧ n ≤ s.k.sequence
  sequence : s.k.sequence = s.k.frames.length

theorem inStepLive {s : Sys} (inStep : InStep s) : Live s := by
  intro w member
  have positive := (inStep.counted w.2.seq (List.mem_append_right _ (List.mem_map_of_mem member))).1
  omega

def MoveDrained (s : Sys) (l : Move) : Prop := (∃ id, l = .release .capture id) → outbox s = []

theorem inStepSame {s s' : Sys} (inStep : InStep s) (slots : Slots (s'.queue .capture))
    (matched : s'.k.published.map rowOf = (good s'.k).map frameOf) (list : numbers s' = numbers s)
    (sequence : s'.k.sequence = s.k.sequence) (frames : s'.k.frames = s.k.frames) : InStep s' := by
  refine ⟨slots,matched,?_,?_,?_⟩
  · rw [list]
    exact inStep.increasing
  · rw [list, sequence]
    exact inStep.counted
  · rw [sequence, frames]
    exact inStep.sequence

theorem inStepMove {s : Sys} {l : Move} (steady : Steady s) (allowed : Allowed s l) (drained : MoveDrained s l)
    (small : (move s l).k.frames.length < 2^64) (inStep : InStep s) : InStep (move s l) := by
  obtain ⟨effect, slots⟩ := effectMove steady allowed inStep.slots (inStepLive inStep)
  cases effect with
  | quiet books same =>
    refine inStepSame inStep slots ?_ ?_ books.sequence books.frames
    · rw [good, books.published, books.returned]
      exact inStep.matched
    · rw [numbers, books.published, same, numbers]
  | refused r error _ kernel same =>
    refine inStepSame inStep slots ?_ ?_ (by rw [kernel]) (by rw [kernel])
    · rw [kernel, good, List.filter_append]
      simpa [error, good] using inStep.matched
    · rw [numbers, kernel, same, numbers]
  | cancelled id e made full _ _ =>
    rw [drained ⟨id,made⟩] at full
    simp at full
  | dequeued id e rest r _ full kernel result _ left =>
    -- The number moves from the head of the waiting ones to the end of the published ones.
    refine inStepSame inStep slots ?_ ?_ (by rw [kernel]; rfl) (by rw [kernel]; rfl)
    · obtain ⟨fine, buffer, number⟩ := result
      rw [kernel, good, List.filter_append]
      simpa [publishPending, good, fine, rowOf, frameOf, buffer, number] using inStep.matched
    · rw [numbers, numbers, kernel, full, left]
      simp [publishPending]
  | processed f cpu _ frames sequence number _ _ published returned _ _ left =>
    have next : (move s l).k.sequence = s.k.sequence + 1 := by
      rw [frames, List.length_append, ← inStep.sequence] at small
      rw [sequence]
      exact u64Of small
    have list : numbers (move s l) = numbers s ++ [s.k.sequence + 1] := by
      simp only [numbers, published, left, List.map_append, List.map_cons, List.map_nil, number, next,
        List.append_assoc]
    refine ⟨slots,?_,?_,?_,?_⟩
    · rw [good, published, returned]; exact inStep.matched
    · rw [list, List.pairwise_append]
      refine ⟨inStep.increasing,List.pairwise_singleton _ _,?_⟩
      intro n member m last
      have below := (inStep.counted n member).2
      rw [List.mem_singleton.mp last]
      omega
    · intro n member
      rw [list, List.mem_append, List.mem_singleton] at member
      rw [next]
      rcases member with old | rfl
      · have before := inStep.counted n old
        omega
      · omega
    · rw [next, frames, List.length_append, ← inStep.sequence]
      rfl

def Drained (s : Sys) (e : Event) : Prop := e = .streamoff .capture → outbox s = []

instance (s : Sys) (e : Event) : Decidable (Drained s e) := inferInstanceAs (Decidable (_ → _))

structure Bare (s : Sys) : Prop where
  steady : Steady s
  slots : Slots (s.queue .capture)
  none_ : outbox s = []

theorem bareMove {s : Sys} {l : Move} (bare : Bare s) (ok : Allowed s l ∧ ∀ cpu, l ≠ .deviceRun cpu) :
    Bare (move s l) := by
  obtain ⟨steady, slots, none_⟩ := bare
  have live : Live s := by simp [Live, none_]
  obtain ⟨effect, slots'⟩ := effectMove steady ok.1 slots live
  refine ⟨steadyMove steady ok.1,slots',?_⟩
  cases effect with
  | quiet _ same => exact same.trans none_
  | refused _ _ _ _ same => exact same.trans none_
  | cancelled _ _ _ full _ _ => simp [none_] at full
  | dequeued _ _ _ _ _ full _ _ _ _ => simp [none_] at full
  | processed _ cpu made _ _ _ _ _ _ _ _ _ _ => exact absurd made (ok.2 cpu)

theorem drainedMeets {s : Sys} {e : Event} (sane : Sane s) (slots : Slots (s.queue .capture))
    (drained : Drained s e) : Meets move MoveDrained s (moves s e) := by
  by_cases gives : ∃ l ∈ moves s e, ∃ id, l = .release .capture id
  · obtain ⟨_, member, id, rfl⟩ := gives
    have cancels : outbox s = [] ∧ ∀ l ∈ moves s e, ∀ s' : Sys, ∀ cpu, l ≠ .deviceRun cpu := by
      rcases cancelOrigin (t := .capture) (by simp [Cancels]) member with rfl | ⟨stopped, _, _, _, _, rfl⟩
      · refine ⟨drained rfl,?_⟩
        rintro l inside _ cpu rfl
        cases jobOrigin inside
      · refine ⟨by simp [outbox, waiting, (sane.sound .capture).quiet stopped],?_⟩
        rintro l inside _ cpu rfl
        cases jobOrigin inside
    exact meetsWeaken (fun _ _ => bareMove) (fun _ _ bare _ _ => bare.none_) ⟨sane.toSteady,slots,cancels.1⟩
      (meetsAnd (stepAllowed sane.toBase sane.rest e) (meetsMember cancels.2 s))
  · exact meetsMember (fun l member s' here => absurd ⟨l,member,here⟩ gives) s

/-- In a run that never stops the CAPTURE queue over a processed frame, the rows published are,
one for one and in order, the frames dequeued without error, and their numbers increase. -/
theorem rowsMatchFrames {clock : Nat → Nat} {params : Params} {ident : Nat} {env : OpenEnv} {s : Sys}
    {events : List Event} (opened : vpipeOpen (Kernel.boot clock params) ident env = .ok s)
    (drained : Meets Sys.step Drained s events) (small : (run Sys.step s events).k.frames.length < 2^64) :
    (run Sys.step s events).k.published.map rowOf = (good (run Sys.step s events).k).map frameOf ∧
    ((run Sys.step s events).k.published.map (fun p => p.entry.seq)).Pairwise (· < ·) := by
  have sane := (openSane opened).1
  have start : InStep s := by
    obtain ⟨src, m, _, rfl⟩ := openCases opened
    exact ⟨⟨by simp [Sys.queue, Queue.empty],by simp [Sys.queue, Queue.empty]⟩,rfl,
      by simp [numbers, outbox, waiting, Sys.queue, Queue.empty, Kernel.boot],
      by simp [numbers, outbox, waiting, Sys.queue, Queue.empty, Kernel.boot],rfl⟩
  have keeps : ∀ s l, Steady s → Allowed s l → MoveDrained s l ∧ (move s l).k.frames.length < 2^64 →
      InStep s → InStep (move s l) :=
    fun s l steady allowed ok so => inStepMove steady allowed ok.1 ok.2 so
  have lifts : ∀ s e, Sane s → InStep s → Drained s e ∧ (s.step e).k.frames.length < 2^64 →
      Meets move (fun s l => MoveDrained s l ∧ (move s l).k.frames.length < 2^64) s (moves s e) := by
    intro s e sane so ok
    have short := ok.2
    rw [stepMoves] at short
    exact meetsAnd (drainedMeets sane so.slots ok.1) (meetsBounded framesGrow short)
  have final := (runKeeps keeps lifts sane start (meetsAnd drained (meetsBounded framesGrowStep small))).2
  exact ⟨final.matched,(List.pairwise_append.mp final.increasing).1⟩

def twoFrames (first second : Nat) : List Event :=
  [.sFmt .output {width := 1, height := 1},.reqbufs .output 2 .mmap 0 2,.reqbufs .capture 2 .mmap 0 2,
    .qbuf .output 0 0 none,.qbuf .output 1 0 none,.qbuf .capture first 0 none,.qbuf .capture second 0 none,
    .streamon .output {},.streamon .capture {},.deviceRun 0,.deviceRun 0]

theorem dequeuedRowsMatch :
    let s := run Sys.step (openedOn (Kernel.boot (fun n => n + 1) {}) 0)
      (twoFrames 1 0 ++ [.dqbuf .capture,.dqbuf .capture,.streamoff .capture])
    s.k.published.map rowOf = (good s.k).map frameOf ∧
    (s.k.published.map (fun p => p.entry.seq)).Pairwise (· < ·) :=
  rowsMatchFrames (openSucceeds _ 0) (by decide) (by decide)

/- STREAMOFF publishes rows of frames userspace never gets, by buffer index. -/
theorem streamoffRowsUnmatched :
    let s := run Sys.step (openedOn (Kernel.boot (fun n => n + 1) {}) 0)
      (twoFrames 1 0 ++ [.streamoff .capture])
    good s.k = [] ∧ s.k.published.map (fun p => p.entry.seq) = [2,1] := by
  decide

end Vpipe.Rows
