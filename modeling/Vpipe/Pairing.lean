import Vpipe.Runs

/-! device_run as two steps between which ioctls run: it holds no lock from the peek at the
heads of the ready queues to their removal. `running` is the framework's mark on the context;
STREAMOFF aborts a running job, and vpipe_job_abort reports it finished at once, whether or not
device_run has returned. `finished` records, for each second step, the buffers that were peeked
and those that were removed. -/
namespace Vpipe.Pairing
open Vpipe.Lib.Word Vpipe.Lib.ByteMemory Vpipe.Lib.BufferQueue Vpipe.Lib.Transition
open Vpipe.Cv Vpipe.FrameSource Vpipe.MetaRing Vpipe.M2m Vpipe.Moves Vpipe.Discipline Vpipe.Runs

structure Finished where
  peeked : Nat × Nat
  removed : Option (Nat × Nat)
  deriving DecidableEq, Repr

structure Fine where
  s : Sys
  running : Bool
  inflight : List Job
  finished : List Finished

def Fine.start (s : Sys) : Fine := ⟨s,false,[],[]⟩

inductive FineEvent where
  | ioctl (e : Event)
  | peek
  | finish (i cpu : Nat)
  deriving DecidableEq, Repr

def heads (s : Sys) : Option (Nat × Nat) :=
  match (s.queue .output).ready, (s.queue .capture).ready with
  | src :: _, dst :: _ => some (src,dst)
  | _, _ => none

def Fine.ioctl (f : Fine) : Event → Fine
  | .deviceRun _ => f
  | .streamoff t =>
    -- v4l2_m2m_cancel_job: job_abort, then a wait that vpipe_job_abort has already ended
    {f with s := f.s.step (.streamoff t), running := false}
  | e => {f with s := f.s.step e}

def Fine.step (f : Fine) : FineEvent → Fine
  | .ioctl e => f.ioctl e
  | .peek =>
    if f.running = false ∧ schedulable f.s = true then
      match deviceRunPeek f.s with
      | some (j,s) => {f with s := s, running := true, inflight := f.inflight ++ [j]}
      | none => f
    else f
  | .finish i cpu => match f.inflight[i]? with
    | none => f
    | some j =>
      { s := (deviceRunFinish f.s j cpu).getD f.s
        running := false
        inflight := f.inflight.eraseIdx i
        finished := f.finished ++ [⟨(j.source,j.target),heads f.s⟩] }

/- No STREAMOFF while a device_run is between its two steps, and no STREAMON(OUTPUT) that
fails to start its source with buffers waiting. -/
def Calm (f : Fine) : FineEvent → Prop
  | .ioctl (.streamoff _) => f.inflight.isEmpty
  | .ioctl (.streamon .output env) =>
    (f.s.queue .output).streaming = false → startFails f.s.c.src.backend f.s.c.outQ.sizeimage env = true →
      (f.s.queue .output).queued = []
  | _ => True

instance (f : Fine) (e : FineEvent) : Decidable (Calm f e) := by unfold Calm; split <;> infer_instance

theorem headsOf {s : Sys} {src dst : Nat} (at_ : Heads s src dst) : heads s = some (src,dst) := by
  obtain ⟨_, _, output, capture⟩ := at_
  simp [heads, output, capture]

theorem undisturbedJob (f : Fine) (cpu : Nat) (idle : f.running = false) (none_ : f.inflight = [])
    (go : schedulable f.s = true) : ∃ src dst, Heads f.s src dst ∧
    run Fine.step f [.peek,.finish 0 cpu] =
      ⟨f.s.step (.deviceRun cpu),false,[],f.finished ++ [⟨(src,dst),some (src,dst)⟩]⟩ := by
  obtain ⟨_, _, at_, _⟩ := deviceRunCases f.s cpu go
  obtain ⟨⟨j, s'⟩, peeked⟩ := peekSome at_
  obtain ⟨now, work⟩ := peekCases peeked
  have still : Heads s' j.source j.target := by
    rcases work with ⟨rfl, _⟩ | ⟨_, _, _, _, _, rfl⟩
    · exact now
    · exact now
  obtain ⟨s'', finished⟩ := finishSome still j cpu
  refine ⟨j.source,j.target,now,?_⟩
  simp [Fine.step, idle, go, peeked, none_, finished, headsOf still, Sys.step, vpipeDeviceRun]

def Disturbs (l : Move) : Prop :=
  (∃ t id, l = .abort t id) ∨ (∃ cpu, l = .deviceRun cpu) ∨ (∃ t, l = .resetReady t) ∨ ∃ t, l = .cancelled t

theorem readyMove {s : Sys} {l : Move} (base : Base s) (allowed : Allowed s l)
    (gentle : ¬ Disturbs l) (t : QType) :
    (∃ more, ((move s l).queue t).ready = (s.queue t).ready ++ more) ∧
    ((s.queue t).streaming = true → ((move s l).queue t).streaming = true) := by
  generalize queue : (move s l).queue t = q
  cases changedMove base allowed queue with
  | @handOver id _ _ _ => exact ⟨⟨[id],rfl⟩,fun streaming => streaming⟩
  | started _ => exact ⟨⟨[],by simp⟩,fun _ => rfl⟩
  | completed made _ _ _ =>
    rcases made with ⟨made, _⟩ | ⟨cpu, made⟩
    · exact absurd (.inl ⟨t,_,made⟩) gentle
    · exact absurd (.inr (.inl ⟨cpu,made⟩)) gentle
  | cancelled made _ => exact absurd (.inr (.inr (.inr ⟨t,made⟩))) gentle
  | reset made _ => exact absurd (.inr (.inr (.inl ⟨t,made⟩))) gentle
  | _ => exact ⟨⟨[],by simp [Queue.allocate, Queue.prepare, Queue.enqueue, Queue.modify, Queue.revert,
      Queue.release, Queue.free]⟩,fun streaming => streaming⟩

theorem gentleMoves {s : Sys} {e : Event} (streaming : ∀ t, (s.queue t).streaming = true)
    (stays : ∀ t, e ≠ .streamoff t) (idle : ∀ cpu, e ≠ .deviceRun cpu) : ∀ l ∈ moves s e, ¬ Disturbs l := by
  intro l member disturbs
  have belongs := movesBelong member
  cases e with
  | reqbufs t count memory slack granted => simp [moves, streaming t] at member
  | streamoff t => exact stays t rfl
  | deviceRun cpu => exact idle cpu rfl
  | _ =>
    rcases disturbs with ⟨t, id, rfl⟩ | ⟨cpu, rfl⟩ | ⟨t, rfl⟩ | ⟨t, rfl⟩ <;>
      simp [Belongs, Allocates] at belongs

theorem headsStep {s : Sys} {e : Event} {src dst : Nat} (sane : Sane s)
    (streaming : ∀ t, (s.queue t).streaming = true) (stays : ∀ t, e ≠ .streamoff t)
    (idle : ∀ cpu, e ≠ .deviceRun cpu) (at_ : Heads s src dst) :
    Heads (s.step e) src dst ∧ ∀ t, ((s.step e).queue t).streaming = true := by
  have keeps : ∀ s l, Steady s → Allowed s l → ¬ Disturbs l →
      (Heads s src dst ∧ ∀ t, (s.queue t).streaming = true) →
      Heads (move s l) src dst ∧ ∀ t, ((move s l).queue t).streaming = true := by
    rintro s l steady allowed gentle ⟨⟨srcRest, dstRest, output, capture⟩, streaming⟩
    obtain ⟨srcMore, grownSrc⟩ := (readyMove steady.toBase allowed gentle .output).1
    obtain ⟨dstMore, grownDst⟩ := (readyMove steady.toBase allowed gentle .capture).1
    refine ⟨⟨srcRest ++ srcMore,dstRest ++ dstMore,?_,?_⟩,?_⟩
    · rw [grownSrc, output, List.cons_append]
    · rw [grownDst, capture, List.cons_append]
    · exact fun t => (readyMove steady.toBase allowed gentle t).2 (streaming t)
  exact stepKeeps keeps sane ⟨at_,streaming⟩
    (meetsMember (fun l member _ => gentleMoves streaming stays idle l member) s)

structure Paired (f : Fine) : Prop where
  sane : Sane f.s
  output : Exact (f.s.queue .output)
  jobs : (f.running = false ∧ f.inflight = []) ∨
    ∃ j, f.running = true ∧ f.inflight = [j] ∧ Heads f.s j.source j.target ∧
      ∀ t, (f.s.queue t).streaming = true
  finished : ∀ p ∈ f.finished, p.removed = some p.peeked

theorem outputExactStep {s : Sys} {e : Event} (sane : Sane s) (clean : StartClean s e)
    (exact_ : Exact (s.queue .output)) : Exact ((s.step e).queue .output) :=
  stepKeeps (fun _ _ steady allowed ok so => outputExactMove steady allowed ok so) sane exact_
    (cleanMeets clean)

theorem ioctlOther {f : Fine} {e : Event} (stays : ∀ t, e ≠ .streamoff t) (idle : ∀ cpu, e ≠ .deviceRun cpu) :
    f.ioctl e = {f with s := f.s.step e} := by
  cases e with
  | streamoff t => exact absurd rfl (stays t)
  | deviceRun cpu => exact absurd rfl (idle cpu)
  | _ => rfl

theorem ioctlPaired {f : Fine} {e : Event} (paired : Paired f) (calm : Calm f (.ioctl e)) :
    Paired (f.ioctl e) := by
  have clean : StartClean f.s e := by
    rintro env rfl
    exact calm
  have sane := saneStep paired.sane e
  have output := outputExactStep paired.sane clean paired.output
  by_cases off : ∃ t, e = .streamoff t
  · obtain ⟨t, rfl⟩ := off
    have none_ : f.inflight = [] := List.isEmpty_iff.mp calm
    exact ⟨sane,output,.inl ⟨rfl,none_⟩,paired.finished⟩
  · by_cases job : ∃ cpu, e = .deviceRun cpu
    · obtain ⟨cpu, rfl⟩ := job
      exact paired
    · have stays : ∀ t, e ≠ .streamoff t := fun t same => off ⟨t,same⟩
      have idle : ∀ cpu, e ≠ .deviceRun cpu := fun cpu same => job ⟨cpu,same⟩
      rw [ioctlOther stays idle]
      refine ⟨sane,output,?_,paired.finished⟩
      rcases paired.jobs with none_ | ⟨j, running, one, at_, streaming⟩
      · exact .inl none_
      · obtain ⟨still, on⟩ := headsStep paired.sane streaming stays idle at_
        exact .inr ⟨j,running,one,still,on⟩

theorem peekKeeps {s s' : Sys} {j : Job} (peeked : deviceRunPeek s = some (j,s')) :
    s'.c = s.c ∧ s'.k.machine.next = s.k.machine.next := by
  obtain ⟨_, ⟨rfl, _⟩ | ⟨_, _, _, _, _, rfl⟩⟩ := peekCases peeked
  · exact ⟨rfl,rfl⟩
  · exact ⟨rfl,rfl⟩

theorem peekSane {s s' : Sys} {j : Job} (peeked : deviceRunPeek s = some (j,s')) (sane : Sane s) : Sane s' := by
  obtain ⟨context, next⟩ := peekKeeps peeked
  obtain ⟨⟨⟨sound, geometry, mirrored⟩, capture⟩, rest⟩ := sane
  unfold AtRest at rest
  simp only [Sys.queue, ← context, ← next] at sound geometry mirrored capture rest
  exact ⟨⟨⟨sound,geometry,mirrored⟩,capture⟩,rest⟩

theorem peekPaired {f : Fine} {j : Job} {s : Sys} (paired : Paired f) (idle : f.running = false)
    (go : schedulable f.s = true) (peeked : deviceRunPeek f.s = some (j,s)) :
    Paired {f with s := s, running := true, inflight := f.inflight ++ [j]} := by
  obtain ⟨context, _⟩ := peekKeeps peeked
  have queue : ∀ t, s.queue t = f.s.queue t := fun t => congrArg (fun c => c.queues t) context
  have none_ : f.inflight = [] := by
    rcases paired.jobs with ⟨_, none_⟩ | ⟨_, running, _⟩
    · exact none_
    · simp [idle] at running
  have streaming : ∀ t, (s.queue t).streaming = true := by
    simp only [schedulable, Bool.and_eq_true] at go
    rintro (_ | _) <;> rw [queue]
    · exact go.1.1.1
    · exact go.1.1.2
  have still : Heads s j.source j.target := by
    unfold Heads
    rw [queue, queue]
    exact (peekCases peeked).1
  refine ⟨peekSane peeked paired.sane,?_,.inr ⟨j,rfl,by simp [none_],still,streaming⟩,paired.finished⟩
  exact (queue .output).symm ▸ paired.output

theorem completesSane {s s' : Sys} {src dst : Nat} {ok : Bool} {g : VpipeBuffer → VpipeBuffer} (sane : Sane s)
    (streaming : ∀ t, (s.queue t).streaming = true) (done : Completes s s' src dst ok g) : Sane s' := by
  obtain ⟨⟨srcRest, dstRest, srcReady, dstReady⟩, output, capture, _, context, next⟩ := done
  have source := sane.sound .output
  have target := sane.sound .capture
  refine ⟨⟨⟨?_,?_,?_⟩,?_⟩,?_⟩
  · rintro (_ | _)
    · rw [output, next]
      exact completeSound source srcReady ok (streaming .output)
    · rw [capture, next]
      exact completeSound ⟨setDataWellFormed target.wf g,target.quiet,target.fresh⟩ dstReady ok
        (streaming .capture)
  · rw [context]; exact sane.geometry
  · rw [context]; exact sane.mirrored
  · rw [capture]
    exact completeExact (setDataExact sane.capture g) dstReady ok
  · rintro (_ | _) stopped
    · rw [output, completeStreaming, streaming] at stopped
      contradiction
    · rw [capture, completeStreaming] at stopped
      exact absurd (stopped.symm.trans (streaming .capture)) (by simp)

theorem finishPaired {f : Fine} {i cpu : Nat} (paired : Paired f) : Paired (f.step (.finish i cpu)) := by
  simp only [Fine.step]
  split
  · exact paired
  · rename_i j found
    rcases paired.jobs with ⟨_, none_⟩ | ⟨j', _, one, at_, streaming⟩
    · simp [none_] at found
    · -- The only job in flight is the one that finishes.
      rw [one] at found
      obtain ⟨rfl, rfl⟩ : i = 0 ∧ j' = j := by
        cases i <;> simp at found
        exact ⟨rfl,found⟩
      obtain ⟨s', finished⟩ := finishSome at_ j' cpu
      obtain ⟨src, dst, ok, g, done⟩ := finishCompletes finished
      obtain ⟨_, _, srcReady, _⟩ := done.heads
      rw [finished]
      refine ⟨completesSane paired.sane streaming done,?_,.inl ⟨rfl,by simp [one]⟩,?_⟩
      · rw [Option.getD_some, done.output]
        exact completeExact paired.output srcReady ok
      · intro p member
        rcases List.mem_append.mp member with old | new
        · exact paired.finished p old
        · obtain rfl := List.mem_singleton.mp new
          exact headsOf at_

theorem pairedStep {f : Fine} {e : FineEvent} (paired : Paired f) (calm : Calm f e) : Paired (f.step e) := by
  cases e with
  | ioctl e => exact ioctlPaired paired calm
  | finish i cpu => exact finishPaired paired
  | peek =>
    simp only [Fine.step]
    split
    · rename_i go
      split
      · rename_i peeked
        exact peekPaired paired go.1 go.2 peeked
      · exact paired
    · exact paired

/-- In a run whose every step is calm, each second step removes the buffers its first step
peeked, the buffers of a job in flight stay at the heads of the ready queues, and every buffer
handed to the driver has been completed once or is ready. -/
theorem pairingStable {k : Kernel} {ident : Nat} {env : OpenEnv} {s : Sys} {events : List FineEvent}
    (opened : vpipeOpen k ident env = .ok s) (calm : Meets Fine.step Calm (Fine.start s) events) :
    let f := run Fine.step (Fine.start s) events
    (∀ p ∈ f.finished, p.removed = some p.peeked) ∧
    (∀ j ∈ f.inflight, heads f.s = some (j.source,j.target)) ∧
    ∀ t, (f.s.queue t).handed.Perm ((f.s.queue t).completed ++ (f.s.queue t).ready) ∧
      (f.s.queue t).ready.Nodup := by
  obtain ⟨sane, output⟩ := openSane opened
  have start : Paired (Fine.start s) := ⟨sane,output,.inl ⟨rfl,rfl⟩,by simp [Fine.start]⟩
  have paired := runInvariant (fun _ _ so ok => pairedStep so ok) start calm
  refine ⟨paired.finished,?_,?_⟩
  · intro j member
    rcases paired.jobs with ⟨_, none_⟩ | ⟨j', _, one, at_, _⟩
    · simp [none_] at member
    · rw [one] at member
      obtain rfl := List.mem_singleton.mp member
      exact headsOf at_
  · rintro (_ | _)
    · exact ⟨paired.output.balance,paired.output.distinct⟩
    · exact ⟨paired.sane.capture.balance,paired.sane.capture.distinct⟩

def readyPair : List FineEvent :=
  [.ioctl (.sFmt .output {width := 1, height := 1}),.ioctl (.reqbufs .output 2 .mmap 0 2),
    .ioctl (.reqbufs .capture 2 .mmap 0 2),.ioctl (.qbuf .output 0 0 none),.ioctl (.qbuf .capture 0 0 none),
    .ioctl (.streamon .output {}),.ioctl (.streamon .capture {})]

def bootedFine : Fine := Fine.start (openedOn (Kernel.boot (fun n => n + 1) {}) 0)

theorem queuedBetweenStable :
    let f := run Fine.step bootedFine (readyPair ++ [.peek,.ioctl (.qbuf .output 1 0 none),.finish 0 0])
    (∀ p ∈ f.finished, p.removed = some p.peeked) ∧
    (∀ j ∈ f.inflight, heads f.s = some (j.source,j.target)) ∧
    ∀ t, (f.s.queue t).handed.Perm ((f.s.queue t).completed ++ (f.s.queue t).ready) ∧
      (f.s.queue t).ready.Nodup :=
  pairingStable (openSucceeds _ 0) (by decide)

theorem streamoffBetweenUnpaired :
    ∃ p ∈ (run Fine.step bootedFine (readyPair ++ [.peek,.ioctl (.streamoff .output),.finish 0 0])).finished,
      p.removed ≠ some p.peeked := by
  decide

end Vpipe.Pairing
