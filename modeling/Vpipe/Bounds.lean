import Vpipe.Runs

/-! Byte accesses over whole runs. The size check of a buffer is made when it is prepared, the
geometry is read when it is used; in between S_FMT may only move the format to sizes that the
prepared buffers still hold. -/
namespace Vpipe.Bounds
open Vpipe.Lib.Word Vpipe.Lib.ByteMemory Vpipe.Lib.BufferQueue Vpipe.Lib.Transition
open Vpipe.Cv Vpipe.FrameSource Vpipe.MetaRing Vpipe.M2m Vpipe.Moves Vpipe.Discipline Vpipe.Runs

def Holds (size : Nat) (q : Queue VpipeBuffer) : Prop :=
  ∀ id ∈ q.ids, (q.buf id).prepared = true → size ≤ (q.buf id).plane.size

instance (size : Nat) (q : Queue VpipeBuffer) : Decidable (Holds size q) :=
  inferInstanceAs (Decidable (∀ id ∈ q.ids, _))

/- No accepted S_FMT outgrows a prepared buffer of either queue, and no STREAMON(OUTPUT) fails
to start its source with buffers waiting. -/
def Careful (s : Sys) : Event → Prop
  | .sFmt t pix => s.c.busy t = false → ∀ t', Holds (vpipeTryFmt pix).sizeimage (s.queue t')
  | .streamon .output env => (s.queue .output).streaming = false →
    startFails s.c.src.backend s.c.outQ.sizeimage env = true → (s.queue .output).queued = []
  | _ => True

instance (s : Sys) (e : Event) : Decidable (Careful s e) := by unfold Careful; split <;> infer_instance

section Operations
variable {q : Queue VpipeBuffer} {size id : Nat}

theorem allocateHolds (holds : Holds size q) {b : Buf VpipeBuffer} (blank : b.prepared = false) :
    Holds size (q.allocate id b) := by
  unfold Holds at *
  simp only [Queue.allocate]
  grind

theorem prepareHolds (holds : Holds size q) {plane : Plane} (large : size ≤ plane.size) (mapped : Bool)
    (f : VpipeBuffer → VpipeBuffer) : Holds size (q.prepare id plane mapped f) := by
  unfold Holds at *
  simp only [Queue.prepare, Queue.modify]
  grind

theorem dataHolds (holds : Holds size q) (f : VpipeBuffer → VpipeBuffer) : Holds size (q.setData id f) := by
  unfold Holds at *
  simp only [Queue.setData, Queue.modify]
  grind

theorem enqueueHolds (holds : Holds size q) (f : VpipeBuffer → VpipeBuffer) : Holds size (q.enqueue id f) := by
  unfold Holds at *
  simp only [Queue.enqueue, Queue.modify]
  grind

theorem handOverHolds (holds : Holds size q) (f : VpipeBuffer → VpipeBuffer) :
    Holds size (q.handOver id f) := by
  unfold Holds at *
  simp only [Queue.handOver, Queue.modify]
  grind

theorem revertHolds (holds : Holds size q) : Holds size q.revert := by
  unfold Holds at *
  simp only [Queue.revert]
  grind

theorem completeHolds (holds : Holds size q) (ok : Bool) : Holds size (q.take.complete id ok) := by
  unfold Holds at *
  unfold Queue.complete
  split <;> simp only [Queue.take, Queue.modify] at * <;> grind

theorem releaseHolds (holds : Holds size q) (k : Kernel) (t : QType) :
    Holds size (Queue.release (vpipeBufFinish t) (k,q) id).2 := by
  unfold Holds at *
  simp only [Queue.release]
  grind

end Operations

def MoveCareful (s : Sys) (l : Move) : Prop :=
  MoveClean s l ∧ ∀ d, l = .format d → ∀ t, Holds d.sizeimage (s.queue t)

theorem holdsMove {s : Sys} {l : Move} (base : Base s) (allowed : Allowed s l) {t : QType}
    (holds : Holds s.c.outQ.sizeimage (s.queue t)) :
    Holds s.c.outQ.sizeimage ((move s l).queue t) := by
  generalize queue : (move s l).queue t = q
  have mirrored : (s.c.qData t).sizeimage = s.c.outQ.sizeimage := by
    cases t with
    | output => rfl
    | capture => exact congrArg QData.sizeimage base.mirrored
  cases changedMove base allowed queue with
  | same => exact holds
  | allocate _ => exact allocateHolds holds rfl
  | prepare _ _ _ large => exact prepareHolds holds (mirrored ▸ large) _ _
  | enqueue _ _ _ _ => exact enqueueHolds holds _
  | handOver _ _ _ => exact handOverHolds holds _
  | started _ => exact holds
  | reverted _ _ => exact revertHolds holds
  | completed _ _ _ _ => exact completeHolds (dataHolds holds _) _
  | released _ _ _ => exact releaseHolds holds s.k t
  | cancelled _ _ => exact holds
  | freed _ => simp [Holds, Queue.free]
  | reset _ _ => exact holds

theorem moveLog {s : Sys} {l : Move} (allowed : Allowed s l) (hands : ¬ HandsOver .output l)
    (runs : ∀ cpu, l ≠ .deviceRun cpu) : (move s l).k.machine.mem.log = s.k.machine.mem.log := by
  have finish : ∀ t id, (releaseOne t s id).k.machine.mem.log = s.k.machine.mem.log :=
    fun t id => congrArg Mem.log (releaseMem t s id)
  cases l with
  | backend id =>
    rcases setBackendCases s id with same | ⟨_, _, src, m, created, made⟩
    · rw [move, same]
    · rw [move, made]
      exact (silentTrans (createSilent created) (destroySilent m s.c.src)).log
  | exportSrc exported fd => exact (exportSilent s.k.machine s.c.src exported fd).log
  | stop => exact (stopSilent s.k.machine s.c.src).log
  | handOver t id =>
    cases t with
    | capture => rfl
    | output => exact absurd ⟨id,rfl⟩ hands
  | start t env =>
    rw [move, (finishStartRest t _).1]
    cases t with
    | capture => rfl
    | output => exact (startSilent s.k.machine s.c.src s.c.outQ.sizeimage env).log
  | release t id => exact finish t id
  | dequeue t =>
    obtain ⟨id, rest, _, made⟩ := dequeueMove allowed.1 allowed.2
    rw [made]
    cases t <;> exact finish _ id
  | deviceRun cpu => exact absurd rfl (runs cpu)
  | _ => rfl

structure Fitting (s : Sys) : Prop where
  output : Exact (s.queue .output)
  holds : ∀ t, Holds s.c.outQ.sizeimage (s.queue t)

theorem readyHolds {s : Sys} (steady : Steady s) (fitting : Fitting s) {t : QType} {id : Nat}
    (ready : id ∈ (s.queue t).ready) : s.c.outQ.sizeimage ≤ ((s.queue t).buf id).plane.size := by
  have exact_ : Exact (s.queue t) := by
    cases t with
    | output => exact fitting.output
    | capture => exact steady.capture
  obtain ⟨inside, active⟩ := exact_.ready id ready
  exact fitting.holds t id inside ((steady.sound t).wf.prepared id inside (by rw [active]; simp))

theorem handOverWithin {s : Sys} (steady : Steady s) (fitting : Fitting s) {id : Nat}
    (queued : id ∈ (s.queue .output).queued) :
    Within Access.InBounds s.k.machine.mem (vpipeBufQueue .output s id).k.machine.mem := by
  have wf := (steady.sound .output).wf
  obtain ⟨inside, state⟩ := (wf.queued id).mp queued
  have large := fitting.holds .output id inside (wf.prepared id inside state)
  obtain ⟨total, small⟩ := geometryTotal steady.geometry
  refine nextFrameWithin (m := s.k.machine.ktimeGetNs.2) ?_ ?_ ?_
  · exact Nat.le_of_eq steady.geometry.line.symm
  · exact total ▸ small
  · intro dst mapped
    unfold vaddr at mapped
    split at mapped
    · cases mapped
      exact total ▸ large
    · contradiction

theorem vaddrPlane {b : Buf VpipeBuffer} {p : Plane} (mapped : vaddr b = some p) : b.plane = p := by
  unfold vaddr at mapped
  split at mapped
  · exact Option.some.inj mapped
  · contradiction

theorem deviceRunWithin {s : Sys} (steady : Steady s) (fitting : Fitting s) {cpu : Nat}
    (go : schedulable s = true) :
    Within Access.InBounds s.k.machine.mem (vpipeDeviceRun s cpu).k.machine.mem := by
  obtain ⟨src, dst, ⟨_, _, srcReady, dstReady⟩, failed | ⟨job, result, mem, processed, made⟩⟩ :=
    deviceRunCases s cpu go
  · rw [failed]
    exact withinRefl _
  · have source := readyHolds steady fitting (show src ∈ (s.queue .output).ready by simp [srcReady])
    have target := readyHolds steady fitting (show dst ∈ (s.queue .capture).ready by simp [dstReady])
    rw [vaddrPlane processed.source] at source
    rw [vaddrPlane processed.target] at target
    obtain ⟨total, small⟩ := geometryTotal steady.geometry
    have line := steady.geometry.line
    have width := steady.geometry.width.2
    have height := steady.geometry.height.2
    have mirrored := steady.mirrored
    have fits : Fits job := by
      rw [processed.made]
      refine ⟨⟨?_,?_,?_,?_,?_,?_⟩,?_,?_⟩ <;> simp only [jobOf, mirrored, line] at * <;> omega
    rw [made]
    refine withinTrans (cvProcessWithin fits processed.done) (withinScan ?_)
    intro k below
    have inside : k < s.c.capQ.sizeimage := below
    rw [mirrored] at inside
    constructor <;> simp only <;> omega

theorem fittingMove {s : Sys} {l : Move} (steady : Steady s) (allowed : Allowed s l) (careful : MoveCareful s l)
    (fitting : Fitting s) : Fitting (move s l) := by
  refine ⟨outputExactMove steady allowed careful.1 fitting.output,?_⟩
  intro t
  by_cases other : ∀ d, l ≠ .format d
  · rw [((moveConfig s l).2.1 other).1]
    exact holdsMove steady.toBase allowed (fitting.holds t)
  · obtain ⟨d, made⟩ := not_forall.mp other
    obtain rfl := not_not.mp made
    exact careful.2 d rfl t

theorem withinMove {s : Sys} {l : Move} (steady : Steady s) (allowed : Allowed s l) (fitting : Fitting s) :
    Within Access.InBounds s.k.machine.mem (move s l).k.machine.mem := by
  by_cases hands : HandsOver .output l
  · obtain ⟨id, rfl⟩ := hands
    exact handOverWithin steady fitting allowed.1
  · rcases jobOrNot l with ⟨cpu, rfl⟩ | runs
    · exact deviceRunWithin steady fitting allowed
    · exact ⟨[],moveLog allowed hands runs,by simp⟩

theorem carefulMeets {s : Sys} {e : Event} (careful : Careful s e) : Meets move MoveCareful s (moves s e) := by
  have clean : StartClean s e := by
    rintro env rfl
    exact careful
  refine meetsAnd (cleanMeets clean) ?_
  cases e with
  | sFmt t pix =>
    simp only [moves, sFmtResult]
    cases busy : s.c.busy t with
    | true => trivial
    | false =>
      refine ⟨?_,trivial⟩
      rintro d same t'
      cases same
      exact careful busy t'
  | _ =>
    refine meetsMember (fun l member s' d same => ?_) s
    obtain ⟨_, _, made, _⟩ := formatOrigin (same ▸ member)
    cases made

/-- In a run whose every step is careful, device_run and the backends touch only bytes inside
the planes they use, and the buffers of the ready queues are allocated. -/
theorem accessesInBounds {k : Kernel} {ident : Nat} {env : OpenEnv} {s : Sys} {events : List Event}
    (opened : vpipeOpen k ident env = .ok s) (careful : Meets Sys.step Careful s events) :
    Within Access.InBounds k.machine.mem (run Sys.step s events).k.machine.mem ∧
    ∀ t, ∀ id ∈ ((run Sys.step s events).queue t).ready, id ∈ ((run Sys.step s events).queue t).ids := by
  obtain ⟨sane, output⟩ := openSane opened
  have start : Fitting s ∧ Within Access.InBounds k.machine.mem s.k.machine.mem := by
    obtain ⟨src, m, created, rfl⟩ := openCases opened
    exact ⟨⟨output,fun _ => by simp [Holds, Sys.queue, Queue.empty]⟩,[],(createSilent created).log,by simp⟩
  have keeps : ∀ s l, Steady s → Allowed s l → MoveCareful s l →
      Fitting s ∧ Within Access.InBounds k.machine.mem s.k.machine.mem →
      Fitting (move s l) ∧ Within Access.InBounds k.machine.mem (move s l).k.machine.mem :=
    fun s l steady allowed careful so => ⟨fittingMove steady allowed careful so.1,
      withinTrans so.2 (withinMove steady allowed so.1)⟩
  obtain ⟨sane, fitting, within⟩ := runKeeps keeps (fun s e _ _ ok => carefulMeets ok) sane start careful
  refine ⟨within,?_⟩
  rintro (_ | _) id ready
  · exact (fitting.output.ready id ready).1
  · exact (sane.capture.ready id ready).1

def smallRun : List Event :=
  [.sFmt .output {width := 2, height := 2},.reqbufs .output 2 .mmap 0 2,.reqbufs .capture 2 .mmap 0 2,
    .qbuf .output 0 0 none,.qbuf .capture 0 0 none,.streamon .output {},.streamon .capture {},.deviceRun 0]

theorem smallRunInBounds :
    Within Access.InBounds (Kernel.boot (fun n => n + 1) {}).machine.mem
      (run Sys.step (openedOn (Kernel.boot (fun n => n + 1) {}) 0) smallRun).k.machine.mem ∧
    ∀ t, ∀ id ∈ ((run Sys.step (openedOn (Kernel.boot (fun n => n + 1) {}) 0) smallRun).queue t).ready,
      id ∈ ((run Sys.step (openedOn (Kernel.boot (fun n => n + 1) {}) 0) smallRun).queue t).ids :=
  accessesInBounds (openSucceeds _ 0) (by decide)

def outgrownRun : List Event :=
  [.sFmt .output {width := 1, height := 1},.reqbufs .output 2 .mmap 0 2,.prepareBuf .output 0 none,
    .sFmt .capture {width := 2, height := 2},.reqbufs .capture 2 .mmap 0 2,.qbuf .output 0 0 none,
    .qbuf .capture 0 0 none,.streamon .output {},.streamon .capture {},.deviceRun 0]

theorem outgrownRunOutOfBounds : ∃ a ∈
    (run Sys.step (openedOn (Kernel.boot (fun n => n + 1) {}) 0) outgrownRun).k.machine.mem.log,
    ¬ a.InBounds := by
  decide

end Vpipe.Bounds
