import Vpipe.Publication
import Vpipe.Teardown

/-! Where a frame comes from. buf_queue asks the source of the context for a frame and does not
look at the answer, so what the metadata says of the source is right only if the source could
answer then: it had been started, and its framebuffer holds an image of the current format. -/
namespace Vpipe.Provenance
open Vpipe.Lib.Word Vpipe.Lib.ByteMemory Vpipe.Lib.BufferQueue Vpipe.Lib.Transition
open Vpipe.Cv Vpipe.FrameSource Vpipe.MetaRing Vpipe.M2m Vpipe.Moves Vpipe.Discipline Vpipe.Runs
open Vpipe.Frames Vpipe.Publication Vpipe.Teardown

def Started (src : Source) : Prop :=
  match src.backend, src.priv with
  | .fixture, _ => True
  | .synthetic, .synthetic _ => True
  | .vcamDerived, .vcam _ => True
  | _, _ => False

def Running (s : Sys) : Prop := (s.queue .output).streaming = true → Started s.c.src

theorem startStarted {m : Machine} {src : Source} {sizeimage : Nat} {env : StartEnv}
    (fine : (vpipeSourceStart m src sizeimage env).1 = none) :
    Started (vpipeSourceStart m src sizeimage env).2.1 := by
  obtain ⟨ident, backend, priv, seq⟩ := src
  cases backend with
  | fixture => trivial
  | synthetic =>
    simp only [vpipeSourceStart, syntheticStart] at fine ⊢
    split at fine
    · contradiction
    · simp_all [Started]
  | vcamDerived =>
    simp only [vpipeSourceStart, vcamStart] at fine ⊢
    split at fine
    · contradiction
    · split at fine
      · contradiction
      · split at fine
        · contradiction
        · simp_all [Started]

theorem nextFrameStarted {m : Machine} {src : Source} {vaddr : Option Plane} {desc : FrameDesc}
    (started : Started src) : Started (vpipeSourceNextFrame m src vaddr desc).src := by
  obtain ⟨_, priv, fits⟩ := nextFrameTrace m src vaddr desc
  have same := (nextFrameSource m src vaddr desc).2
  generalize (vpipeSourceNextFrame m src vaddr desc).src = src' at priv fits same
  obtain ⟨ident, backend, p, seq⟩ := src
  obtain ⟨ident', backend', p', seq'⟩ := src'
  obtain rfl : backend' = backend := same
  cases backend' with
  | fixture => trivial
  | _ => cases p <;> cases p' <;> simp_all [Started, Matches, Priv.ident?]

theorem streamingBefore {s : Sys} {l : Move} (base : Base s) (allowed : Allowed s l)
    (other : ∀ env, l ≠ .start .output env) (streaming : ((move s l).queue .output).streaming = true) :
    (s.queue .output).streaming = true := by
  generalize queue : (move s l).queue .output = q at streaming
  cases changedMove base allowed queue with
  | started made => exact absurd made (other _)
  | completed _ _ on _ => exact on
  | cancelled _ _ => simp at streaming
  | _ => exact streaming

theorem runningMove {s : Sys} {l : Move} (steady : Steady s) (allowed : Allowed s l) (goes : l ≠ .stop)
    (running : Running s) : Running (move s l) := by
  intro streaming
  by_cases starts : ∃ env, l = .start .output env
  · obtain ⟨env, rfl⟩ := starts
    rcases startCases s .output env with ⟨fine, _⟩ | ⟨_, _, made⟩
    · rw [(startOutput s env).2]
      exact startStarted fine
    · have off : (s.queue .output).streaming = false := allowed
      rw [made] at streaming
      simp [Queue.revert, off] at streaming
  · have on := streamingBefore steady.toBase allowed (fun env same => starts ⟨env,same⟩) streaming
    cases l with
    | backend id =>
      rcases setBackendCases s id with same | ⟨off, _⟩
      · rw [move, same]; exact running on
      · simp [off] at on
    | exportSrc exported fd => exact running on
    | stop => exact absurd rfl goes
    | handOver t id =>
      cases t with
      | capture => exact running on
      | output => exact nextFrameStarted (running on)
    | start t env =>
      cases t with
      | capture => exact running on
      | output => exact absurd ⟨env,rfl⟩ starts
    | _ =>
      rw [(sourceUntouched allowed rfl).2]
      exact running on

theorem stopFree {s : Sys} {e : Event} (off : e ≠ .streamoff .output) : ∀ l ∈ moves s e, l ≠ .stop := by
  rintro _ member rfl
  rcases cancelOrigin (.inl ⟨rfl,rfl⟩) member with same | ⟨stopped, count, memory, slack, granted, rfl⟩
  · exact off same
  · simp only [moves, stopped, Bool.false_eq_true, if_false] at member
    rw [List.mem_append, List.mem_cons] at member
    rcases member with cancel | free | allocate
    · simp [cancelMoves, stopped] at cancel
    · contradiction
    · split at allocate
      · simp at allocate
      · obtain ⟨_, _, _, made⟩ := allocateBelongs allocate
        contradiction

theorem runningStep {s : Sys} {e : Event} (sane : Sane s) (running : Running s) : Running (s.step e) := by
  by_cases off : e = .streamoff .output
  · subst off
    intro streaming
    simp [Sys.step, vidiocStreamoff, Sys.cancel, Queue.cancel, Queue.resetReady] at streaming
  · exact stepKeeps (fun s l steady allowed goes so => runningMove steady allowed goes so) sane running
      (meetsMember (fun l member _ => stopFree off l member) s)

structure From (src : Source) (d : VpipeBuffer) : Prop where
  call : d.handover = some ⟨src.ident,src.backend,none⟩
  backend : d.srcDesc.backendId = src.backend.id
  stamp : d.srcDesc.sourceTimestampNs ≠ 0

structure Proven (f : Frame) : Prop where
  call : f.used.handover = some ⟨f.src.ident,f.src.backend,none⟩
  backend : f.entry.sourceBackend = f.src.backend.id
  stamp : f.entry.sourceTimestampNs ≠ 0

def imageBytes (s : Sys) : Nat := s.c.outQ.bytesperline * s.c.outQ.height

theorem stampedFrom {s : Sys} {id : Nat} (base : Base s) (ticks : ∀ n, s.k.machine.clock n ≠ 0)
    (mapped : ((s.queue .output).buf id).mapped = true) (answers : Answers s.k.machine s.c.src (imageBytes s))
    (d : VpipeBuffer) : From s.c.src (stamped s id d) := by
  obtain ⟨⟨width, _⟩, ⟨height, _⟩, line, _, _⟩ := base.geometry
  have plane : vaddr ((s.queue .output).buf id) = some ((s.queue .output).buf id).plane := by
    simp [vaddr, mapped]
  have given : (sourceCall s id).ret = none := by
    rw [sourceCall, plane]
    exact nextFrameAnswers _ answers ⟨by simp only; omega,by simp only; omega,by simp only; omega⟩
  obtain ⟨backend, stamp⟩ := nextFrameStamps (m := s.k.machine.ktimeGetNs.2) ticks given
  exact ⟨by simp [stamped, given],backend,stamp⟩

theorem provenNew {s : Sys} {f : Frame} (new : NewFrame s f)
    (answered : ∀ id ∈ (s.queue .output).ready, ((s.queue .output).buf id).mapped = true →
      From s.c.src ((s.queue .output).buf id).data) : Proven f := by
  obtain ⟨rest, ready⟩ := new.source
  have used := answered f.source (by simp [ready]) new.mapped
  rw [← new.used, ← new.src] at used
  exact ⟨used.call,new.backend.trans used.backend,by rw [new.stamp]; exact used.stamp⟩

theorem sourceNamed {s : Sys} {l : Move} (allowed : Allowed s l) (other : ∀ id, l ≠ .backend id) :
    (move s l).c.src.ident = s.c.src.ident ∧ (move s l).c.src.backend = s.c.src.backend := by
  cases l with
  | backend id => exact absurd rfl (other id)
  | exportSrc exported fd => exact ⟨rfl,rfl⟩
  | stop => exact stopSource s.k.machine s.c.src
  | handOver t id => exact handOverBackend t s id
  | start t env =>
    cases t with
    | capture => exact ⟨rfl,rfl⟩
    | output =>
      rw [(startOutput s env).2]
      exact startSource _ _ _ env
  | _ => rw [(sourceUntouched allowed rfl).2]; exact ⟨rfl,rfl⟩

def Answered (src : Source) (q : Queue VpipeBuffer) : Prop :=
  ∀ id ∈ q.ready, (q.buf id).mapped = true → From src (q.buf id).data

/- STREAMON(OUTPUT) with buffers waiting is issued for the FIXTURE backend only, for the other
two are not started yet; and while the VCAM backend streams, OUTPUT buffers are queued only for
images its framebuffer holds. -/
def Supplied (s : Sys) : Event → Prop
  | .streamon .output _ => (s.queue .output).streaming = false → (s.queue .output).queued ≠ [] →
      s.c.src.backend = .fixture
  | .qbuf .output _ _ _ => match s.c.src.priv with
    | .vcam p => imageBytes s ≤ (s.k.machine.fbs p.fb).size
    | _ => True
  | _ => True

instance (s : Sys) (e : Event) : Decidable (Supplied s e) := match e with
  | .streamon .output _ => by dsimp only [Supplied]; infer_instance
  | .qbuf .output _ _ _ => by dsimp only [Supplied]; split <;> infer_instance
  | .streamon .capture _ | .qbuf .capture _ _ _ | .sFmt _ _ | .sCtrl _ _ | .setBackend _ _
  | .exportSrcDmabuf _ _ | .reqbufs _ _ _ _ _ | .createBufs _ _ _ _ _ _ | .prepareBuf _ _ _ | .dqbuf _
  | .streamoff _ | .deviceRun _ | .store _ _ | .setParams _ => isTrue trivial

def MoveAnswers (s : Sys) (l : Move) : Prop :=
  ∀ id, l = .handOver .output id → Answers s.k.machine s.c.src (imageBytes s)

def MoveSwitches (s : Sys) (l : Move) : Prop :=
  ∀ id, l = .backend id → (s.queue .output).streaming = false → (s.queue .output).ready = []

def MoveSupplied (s : Sys) (l : Move) : Prop := MoveClean s l ∧ MoveAnswers s l ∧ MoveSwitches s l

theorem fromSame {src src' : Source} {d : VpipeBuffer} (ident : src'.ident = src.ident)
    (backend : src'.backend = src.backend) (given : From src d) : From src' d :=
  ⟨by rw [ident, backend]; exact given.call,by rw [backend]; exact given.backend,given.stamp⟩

theorem answeredMove {s : Sys} {l : Move} (steady : Steady s) (allowed : Allowed s l)
    (supplied : MoveSupplied s l) (output : Exact (s.queue .output)) (ticks : ∀ n, s.k.machine.clock n ≠ 0)
    (answered : Answered s.c.src (s.queue .output)) : Answered (move s l).c.src ((move s l).queue .output) := by
  by_cases switch : ∃ id, l = .backend id
  · obtain ⟨id, rfl⟩ := switch
    rcases setBackendCases s id with same | ⟨off, _⟩
    · rw [move, same]; exact answered
    · rw [queueUntouched s rfl]
      simp [Answered, supplied.2.2 id rfl off]
  · obtain ⟨ident, backend⟩ := sourceNamed allowed (fun id same => switch ⟨id,same⟩)
    intro id member mapped
    have owned : id ∈ (s.queue .output).ready → ((s.queue .output).buf id).state ≠ .dequeued := by
      intro before
      rw [(output.ready id before).2]
      simp
    cases listedMove steady.toBase allowed member with
    | handed made same data =>
      rw [data]
      exact fromSame ident backend
        (stampedFrom steady.toBase ticks (same ▸ mapped) (supplied.2.1 id made) _)
    | kept before same data =>
      rw [data]
      exact fromSame ident backend (answered id before (same ▸ mapped))
    | prepared _ before state _ => exact absurd state (owned before)
    | enqueued _ before state => exact absurd state (owned before)

structure Sourced (s : Sys) : Prop where
  output : Exact (s.queue .output)
  ticks : ∀ n, s.k.machine.clock n ≠ 0
  answered : Answered s.c.src (s.queue .output)
  frames : ∀ f ∈ s.k.frames, Proven f
  genuine : Genuine s

theorem sourcedMove {s : Sys} {l : Move} (steady : Steady s) (allowed : Allowed s l)
    (supplied : MoveSupplied s l) (sourced : Sourced s) : Sourced (move s l) where
  output := outputExactMove steady allowed supplied.1 sourced.output
  ticks := by
    rw [(moveGrows s allowed).clock]
    exact sourced.ticks
  answered := answeredMove steady allowed supplied sourced.output sourced.ticks sourced.answered
  frames := framesMove allowed (fun _ _ _ new => provenNew new sourced.answered) sourced.frames
  genuine := genuineMove steady.toBase allowed sourced.genuine

theorem answersFixture {m : Machine} {src : Source} (fixture : src.backend = .fixture) (bytes : Nat) :
    Answers m src bytes := by
  simp [Answers, fixture]

theorem handOversAnswer (ids : List Nat) {s : Sys} (fixture : s.c.src.backend = .fixture) :
    Meets move MoveAnswers s (ids.map (.handOver .output)) := by
  induction ids generalizing s with
  | nil => trivial
  | cons id rest ih =>
    exact ⟨fun _ _ => answersFixture fixture _,ih ((handOverBackend .output s id).2.trans fixture)⟩

theorem answersRunning {s : Sys} {index flags : Nat} {att : Option Attachment} (running : Started s.c.src)
    (supplied : Supplied s (.qbuf .output index flags att)) : Answers s.k.machine s.c.src (imageBytes s) := by
  simp only [Supplied] at supplied
  generalize imageBytes s = bytes at supplied ⊢
  generalize s.c.src = src at running supplied ⊢
  obtain ⟨ident, backend, priv, seq⟩ := src
  cases backend <;> cases priv <;> simp_all [Started, Answers]

theorem suppliedMeets {s : Sys} {e : Event} (sane : Sane s) (running : Running s)
    (output : Exact (s.queue .output)) (supplied : Supplied s e) : Meets move MoveSupplied s (moves s e) := by
  have clean : StartClean s e := by
    rintro env rfl stopped fails
    by_contra some_
    rw [supplied stopped some_] at fails
    simp [startFails] at fails
  have answers : Meets move MoveAnswers s (moves s e) := by
    refine handOverMeets (fun s' l none_ id same => absurd ⟨id,same⟩ none_) ?_ ?_
    · rintro env rfl stopped
      by_cases some_ : (s.queue .output).queued = []
      · rw [some_]; trivial
      · exact handOversAnswer _ (supplied stopped some_)
    · rintro s' id ⟨index, flags, att, rfl⟩ at_ _ _
      have given := answersRunning (running at_.before) supplied
      rw [imageBytes, at_.kernel, at_.context]
      exact given
  have switch : Meets move MoveSwitches s (moves s e) := by
    by_cases set_ : ∃ id allocated, e = .setBackend id allocated
    · obtain ⟨id, allocated, rfl⟩ := set_
      have here : (s.queue .output).streaming = false → (s.queue .output).ready = [] :=
        fun off => readyEmpty output (fun id _ => sane.rest .output off id)
      simp only [moves]
      split
      · exact ⟨fun _ _ => here,trivial⟩
      · trivial
    · refine meetsMember (fun l member _ id same => ?_) s
      exact absurd ⟨id,backendOrigin (same ▸ member)⟩ set_
  exact meetsAnd (cleanMeets clean) (meetsAnd answers switch)

/-- In a run whose every OUTPUT buffer is handed over to a source that can answer, every entry
published names the backend that was the source of the context at buf_queue and still was when
the frame was made, whose next_frame succeeded for the buffer, and carries a source time. -/
theorem publishedProvenance {clock : Nat → Nat} {params : Params} {ident : Nat} {env : OpenEnv} {s : Sys}
    {events : List Event} (ticks : ∀ n, clock n ≠ 0)
    (opened : vpipeOpen (Kernel.boot clock params) ident env = .ok s)
    (supplied : Meets Sys.step Supplied s events) :
    ∀ p ∈ (run Sys.step s events).k.published, ∃ f ∈ (run Sys.step s events).k.frames, RowFor f p ∧
      f.used.handover = some ⟨f.src.ident,f.src.backend,none⟩ ∧ p.entry.sourceBackend = f.src.backend.id ∧
      p.entry.sourceTimestampNs ≠ 0 := by
  obtain ⟨sane, output⟩ := openSane opened
  have start : Running s ∧ Sourced s := by
    obtain ⟨src, m, created, rfl⟩ := openCases opened
    refine ⟨fun streaming => ?_,output,?_,?_,by simp [Kernel.boot],?_,by simp [Kernel.boot]⟩
    · simp [Sys.queue, Queue.empty] at streaming
    · rw [(createSilent created).clock]; exact ticks
    · simp [Answered, Sys.queue, Queue.empty]
    · simp [Sys.queue, Queue.empty]
  have keeps : ∀ s e, Sane s ∧ Running s ∧ Sourced s → Supplied s e →
      Sane (s.step e) ∧ Running (s.step e) ∧ Sourced (s.step e) :=
    fun s e so ok => ⟨saneStep so.1 e,runningStep so.1 so.2.1,
      stepKeeps (fun _ _ => sourcedMove) so.1 so.2.2 (suppliedMeets so.1 so.2.1 so.2.2.output ok)⟩
  have final := (runInvariant keeps ⟨sane,start⟩ supplied).2.2
  intro p member
  obtain ⟨f, frame, row⟩ := final.genuine.rows p member
  have proven := final.frames f frame
  refine ⟨f,frame,row,proven.call,?_,?_⟩
  · rw [row.2]; exact proven.backend
  · rw [row.2]; exact proven.stamp

def syntheticFrame (order : List Event) : List Event :=
  [.setBackend 2 true,.sFmt .output {width := 1, height := 1},.reqbufs .output 2 .mmap 0 2,
    .reqbufs .capture 2 .mmap 0 2,.qbuf .capture 0 0 none,.streamon .capture {}] ++ order ++
    [.deviceRun 0,.dqbuf .capture]

theorem queuedAfterStart :
    let s := run Sys.step (openedOn (Kernel.boot (fun n => n + 1) {}) 0)
      (syntheticFrame [.streamon .output {},.qbuf .output 0 0 none])
    s.k.published.map (fun p => p.entry.sourceBackend) = [2] ∧
    ∀ p ∈ s.k.published, ∃ f ∈ s.k.frames, RowFor f p ∧
      f.used.handover = some ⟨f.src.ident,f.src.backend,none⟩ ∧ p.entry.sourceBackend = f.src.backend.id ∧
      p.entry.sourceTimestampNs ≠ 0 :=
  ⟨by decide,publishedProvenance (by simp) (openSucceeds _ 0) (by decide)⟩

/- Queued before STREAMON: next_frame fails, and the row names no backend and no time. -/
theorem queuedBeforeStart :
    let s := run Sys.step (openedOn (Kernel.boot (fun n => n + 1) {}) 0)
      (syntheticFrame [.qbuf .output 0 0 none,.streamon .output {}])
    s.c.src.backend = .synthetic ∧ s.k.published.map (fun p => p.entry.sourceBackend) = [0] ∧
    s.k.published.map (fun p => p.entry.sourceTimestampNs) = [0] ∧
    s.k.frames.map (fun f => f.used.handover.map Handover.ret) = [some (some .einval)] := by
  decide

end Vpipe.Provenance
