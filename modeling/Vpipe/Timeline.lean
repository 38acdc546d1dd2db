import Vpipe.Publication
import Vpipe.Teardown

/-! The four times of a metadata row. buf_queue reads the clock before it asks the source for a
frame, and the source puts its own time on the frame after that: a second reading, or for the
VCAM backend the simulated due time of the frame. The other three times are read in the order
the row lists them. -/
namespace Vpipe.Timeline
open Vpipe.Lib.Word Vpipe.Lib.ByteMemory Vpipe.Lib.BufferQueue Vpipe.Lib.Transition
open Vpipe.Cv Vpipe.FrameSource Vpipe.MetaRing Vpipe.M2m Vpipe.Moves Vpipe.Discipline Vpipe.Runs
open Vpipe.Frames Vpipe.Publication Vpipe.Teardown

def now (s : Sys) : Nat := s.k.machine.clock s.k.machine.tick

theorem nowMove {s : Sys} {l : Move} (allowed : Allowed s l) (clock : Monotone s.k.machine.clock) :
    now s ≤ now (move s l) := by
  have grows := moveGrows s allowed
  rw [now, now, grows.clock]
  exact clock grows.tick

inductive Times (s : Sys) (l : Move) (id : Nat) (d : VpipeBuffer) : Prop where
  | kept (queued : d.qbufNs = ((s.queue .output).buf id).data.qbufNs)
      (source : d.srcDesc = ((s.queue .output).buf id).data.srcDesc)
  | handed (made : l = .handOver .output id) (data : d = stamped s id ((s.queue .output).buf id).data)
  | blank (queued : d.qbufNs = 0) (source : d.srcDesc = {})

theorem timesMove {s : Sys} {l : Move} (base : Base s) (allowed : Allowed s l) (id : Nat) :
    Times s l id (((move s l).queue .output).buf id).data := by
  generalize queue : (move s l).queue .output = q
  cases changedMove base allowed queue with
  | allocate _ =>
    by_cases same : id = s.k.machine.next
    · subst same
      exact .blank (by simp [Queue.allocate, newBuffer]) (by simp [Queue.allocate, newBuffer])
    · exact .kept (by simp [Queue.allocate, same]) (by simp [Queue.allocate, same])
  | @prepare other _ _ _ _ _ _ =>
    by_cases same : id = other
    · subst same
      exact .kept (by simp [Queue.prepare, Queue.modify]) (by simp [Queue.prepare, Queue.modify])
    · exact .kept (by simp [Queue.prepare, Queue.modify, same]) (by simp [Queue.prepare, Queue.modify, same])
  | @enqueue other _ _ _ _ _ =>
    by_cases same : id = other
    · subst same
      exact .kept (by simp [Queue.enqueue, Queue.modify]) (by simp [Queue.enqueue, Queue.modify])
    · exact .kept (by simp [Queue.enqueue, Queue.modify, same]) (by simp [Queue.enqueue, Queue.modify, same])
  | @handOver other made _ _ =>
    by_cases same : id = other
    · subst same
      exact .handed made (by simp [Queue.handOver, Queue.modify, handed])
    · exact .kept (by simp [Queue.handOver, Queue.modify, same]) (by simp [Queue.handOver, Queue.modify, same])
  | reverted _ _ =>
    refine .kept ?_ ?_ <;> simp only [Queue.revert] <;> split <;> rfl
  | @completed other rest f ok _ _ _ same =>
    have none_ : f = fun d => d := funext (same (.inr rfl))
    subst none_
    rw [setDataNone]
    have data : (((s.queue .output).take.complete other ok).buf id).data = ((s.queue .output).buf id).data := by
      unfold Queue.complete
      by_cases here : id = other
      · subst here; split <;> simp [Queue.take, Queue.modify]
      · split <;> simp [Queue.take, Queue.modify, here]
    exact .kept (by rw [data]) (by rw [data])
  | @released other _ _ _ =>
    by_cases same : id = other
    · subst same
      exact .kept (by simp [Queue.release, vpipeBufFinish]) (by simp [Queue.release, vpipeBufFinish])
    · exact .kept (by simp [Queue.release, same]) (by simp [Queue.release, same])
  | _ => exact .kept rfl rfl

structure Timed (s : Sys) : Prop where
  clock : Monotone s.k.machine.clock
  buffers : ∀ id, ((s.queue .output).buf id).data.qbufNs ≤ now s
  frames : ∀ f ∈ s.k.frames, f.entry.qbufTimestampNs ≤ f.entry.captureDoneNs
  past : ∀ f ∈ s.k.frames, f.entry.captureDoneNs ≤ now s
  genuine : Genuine s
  rows : ∀ p ∈ s.k.published, p.entry.captureDoneNs ≤ p.entry.dqbufTimestampNs

theorem timedMove {s : Sys} {l : Move} (steady : Steady s) (allowed : Allowed s l) (timed : Timed s) :
    Timed (move s l) := by
  have later := nowMove allowed timed.clock
  refine ⟨?_,?_,?_,?_,genuineMove steady.toBase allowed timed.genuine,?_⟩
  · rw [(moveGrows s allowed).clock]
    exact timed.clock
  · intro id
    cases timesMove steady.toBase allowed id with
    | kept queued _ =>
      rw [queued]
      exact Nat.le_trans (timed.buffers id) later
    | handed _ data =>
      rw [data]
      exact later
    | blank queued _ =>
      rw [queued]
      exact Nat.zero_le _
  · refine framesMove allowed (fun cpu f _ new => ?_) timed.frames
    rw [new.queued, new.used, new.captured]
    exact timed.buffers f.source
  · refine framesMove allowed (fun cpu f _ new => ?_) (fun f old => Nat.le_trans (timed.past f old) later)
    rw [new.captured]
    exact later
  · intro p member
    rcases publishedMove steady.toBase allowed p member with old | ⟨inside, full, entry⟩
    · exact timed.rows p old
    · obtain ⟨f, frame, _, pending⟩ := timed.genuine.held p.buffer inside full
      rw [entry, ← pending]
      exact timed.past f frame

theorem timedStep {s : Sys} {e : Event} (sane : Sane s) (timed : Timed s) : Timed (s.step e) :=
  stepKeeps (fun _ _ steady allowed (_ : True) so => timedMove steady allowed so) sane timed
    (meetsMember (fun _ _ _ => trivial) s)

def dueTime (p : VcamPriv) : Nat := u64 (p.baseTsNs + p.framesProduced * p.frameIntervalNs)

def Still (m : Machine) (n : Nat) : Prop := m.clock (m.tick + n + 1) ≤ m.clock (m.tick + n)

instance (m : Machine) (n : Nat) : Decidable (Still m n) := by unfold Still; infer_instance

/- A frame asked for now is not due later than now. A due time of zero counts as no time, and
the clock is read instead. -/
def InTime (m : Machine) (src : Source) : Prop :=
  match src.backend, src.priv with
  | .fixture, _ => Still m 0
  | .synthetic, .synthetic _ => Still m 0
  | .vcamDerived, .vcam p => dueTime p ≤ m.clock m.tick ∧ (dueTime p = 0 → Still m 0)
  | _, _ => True

instance (m : Machine) (src : Source) : Decidable (InTime m src) := by unfold InTime; split <;> infer_instance

theorem opInTime {m : Machine} {src : Source} (vaddr : Option Plane) (desc : FrameDesc) (inTime : InTime m src)
    (blank : desc.sourceTimestampNs = 0) :
    (nextFrameOp m.ktimeGetNs.2 src vaddr desc).desc.sourceTimestampNs ≤ m.clock m.tick ∧
    ((nextFrameOp m.ktimeGetNs.2 src vaddr desc).ret = none →
      (nextFrameOp m.ktimeGetNs.2 src vaddr desc).desc.sourceTimestampNs = 0 →
      (nextFrameOp m.ktimeGetNs.2 src vaddr desc).machine.clock
        (nextFrameOp m.ktimeGetNs.2 src vaddr desc).machine.tick ≤ m.clock m.tick) := by
  have none_ : desc.sourceTimestampNs ≤ m.clock m.tick := by simp [blank]
  have source := nextSource m.ktimeGetNs.2 src vaddr desc
  generalize nextFrameOp m.ktimeGetNs.2 src vaddr desc = r at source ⊢
  unfold InTime at inTime
  cases source with
  | fixture backend =>
    simp only [backend] at inTime
    exact ⟨none_,fun _ _ => inTime⟩
  | synthetic backend next =>
    cases next with
    | refused _ => exact ⟨none_,by simp⟩
    | dropped priv _ _ =>
      simp only [backend, priv] at inTime
      exact ⟨none_,fun _ _ => inTime⟩
    | drawn priv _ _ =>
      simp only [backend, priv] at inTime
      exact ⟨none_,fun _ _ => inTime⟩
  | vcam backend next =>
    cases next with
    | refused _ => exact ⟨none_,by simp⟩
    | dropped priv _ _ =>
      simp only [backend, priv] at inTime
      exact ⟨inTime.1,fun _ => inTime.2⟩
    | drawn priv _ _ _ _ =>
      simp only [backend, priv] at inTime
      exact ⟨inTime.1,fun _ => inTime.2⟩

theorem sourceInTime {m : Machine} {src : Source} {vaddr : Option Plane} {desc : FrameDesc}
    (inTime : InTime m src) :
    (vpipeSourceNextFrame m.ktimeGetNs.2 src vaddr desc).desc.sourceTimestampNs ≤ m.clock m.tick := by
  have noted : InTime (m.note (.call .nextFrame src.ident)) src := inTime
  obtain ⟨stamp, fallback⟩ := opInTime vaddr
    {width := desc.width, height := desc.height, stride := desc.stride} noted rfl
  unfold vpipeSourceNextFrame
  simp only
  split
  · exact stamp
  · rename_i given
    simp only
    split
    · rename_i unset
      exact fallback given unset
    · exact stamp

structure Prompt (s : Sys) : Prop where
  buffers : ∀ id, ((s.queue .output).buf id).data.srcDesc.sourceTimestampNs ≤
    ((s.queue .output).buf id).data.qbufNs
  frames : ∀ f ∈ s.k.frames, f.entry.sourceTimestampNs ≤ f.entry.qbufTimestampNs

def MovePrompt (s : Sys) (l : Move) : Prop := ∀ id, l = .handOver .output id → InTime s.k.machine s.c.src

theorem promptMove {s : Sys} {l : Move} (steady : Steady s) (allowed : Allowed s l) (inTime : MovePrompt s l)
    (prompt : Prompt s) : Prompt (move s l) := by
  constructor
  · intro id
    cases timesMove steady.toBase allowed id with
    | kept queued source =>
      rw [queued, source]
      exact prompt.buffers id
    | handed made data =>
      rw [data]
      exact sourceInTime (inTime id made)
    | blank _ source =>
      rw [source]
      exact Nat.zero_le _
  · refine framesMove allowed (fun cpu f _ new => ?_) prompt.frames
    rw [new.stamp, new.queued, new.used]
    exact prompt.buffers f.source

def Punctual (s : Sys) : Event → Prop
  | .qbuf .output _ _ _ => (s.queue .output).streaming = true → InTime s.k.machine s.c.src
  | .streamon .output _ => (s.queue .output).streaming = false → s.c.src.backend = .fixture →
      ∀ i < (s.queue .output).queued.length, Still s.k.machine (2 * i)
  | _ => True

instance (s : Sys) (e : Event) : Decidable (Punctual s e) := match e with
  | .streamon .output _ => by dsimp only [Punctual]; infer_instance
  | .qbuf .output _ _ _ => by dsimp only [Punctual]; infer_instance
  | .streamon .capture _ | .qbuf .capture _ _ _ | .sFmt _ _ | .sCtrl _ _ | .setBackend _ _
  | .exportSrcDmabuf _ _ | .reqbufs _ _ _ _ _ | .createBufs _ _ _ _ _ _ | .prepareBuf _ _ _ | .dqbuf _
  | .streamoff _ | .deviceRun _ | .store _ _ | .setParams _ => isTrue trivial

theorem fixtureTicks {s : Sys} (fixture : s.c.src.backend = .fixture) (id : Nat) :
    (vpipeBufQueue .output s id).k.machine.clock = s.k.machine.clock ∧
    (vpipeBufQueue .output s id).k.machine.tick = s.k.machine.tick + 2 := by
  rw [bufQueueOutput]
  simp [Sys.setQueue, sourceCall, vpipeSourceNextFrame, nextFrameOp, fixture, fixtureNextFrame,
    Machine.ktimeGetNs, Machine.note]

theorem fixturePrompt (ids : List Nat) {s : Sys} (fixture : s.c.src.backend = .fixture)
    (still : ∀ i < ids.length, Still s.k.machine (2 * i)) :
    Meets move MovePrompt s (ids.map (.handOver .output)) := by
  induction ids generalizing s with
  | nil => trivial
  | cons id rest ih =>
    have first : InTime s.k.machine s.c.src := by
      rw [InTime, fixture]
      exact still 0 (Nat.succ_pos _)
    refine ⟨fun _ _ => first,ih ((handOverBackend .output s id).2.trans fixture) ?_⟩
    intro i small
    obtain ⟨clock, tick⟩ := fixtureTicks fixture id
    have next := still (i + 1) (Nat.succ_lt_succ small)
    rw [Still] at next ⊢
    rw [move, clock, tick]
    exact (show s.k.machine.tick + 2 + 2 * i = s.k.machine.tick + 2 * (i + 1) by omega) ▸ next

theorem idlePrompt (ids : List Nat) {s : Sys} (other : s.c.src.backend ≠ .fixture)
    (idle : s.c.src.priv = .null) :
    Meets move MovePrompt s (ids.map (.handOver .output)) := by
  induction ids generalizing s with
  | nil => trivial
  | cons id rest ih =>
    have first : InTime s.k.machine s.c.src := by
      rw [InTime, idle]
      cases backend : s.c.src.backend <;> simp_all
    have backend := (handOverBackend .output s id).2
    have priv := (nextFrameTrace s.k.machine.ktimeGetNs.2 s.c.src (vaddr ((s.queue .output).buf id))
      {((s.queue .output).buf id).data.srcDesc with
        width := s.c.outQ.width, height := s.c.outQ.height, stride := s.c.outQ.bytesperline}).2.1
    refine ⟨fun _ _ => first,ih (by rw [move, backend]; exact other) ?_⟩
    exact privNull.mp (priv.trans (privNull.mpr idle))

theorem punctualMeets {s : Sys} {e : Event} (kept : Kept s) (punctual : Punctual s e) :
    Meets move MovePrompt s (moves s e) := by
  refine handOverMeets (fun s' l none_ id same => absurd ⟨id,same⟩ none_) ?_ ?_
  · rintro env rfl stopped
    by_cases fixture : s.c.src.backend = .fixture
    · exact fixturePrompt _ fixture (punctual stopped fixture)
    · exact idlePrompt _ fixture (kept.idle stopped)
  · rintro s' id ⟨index, flags, att, rfl⟩ at_ _ _
    rw [at_.kernel, at_.context]
    exact punctual at_.before

/-- In a run whose OUTPUT buffers are all handed over in time, every row published has its four
times in order. -/
theorem publishedOrdered {clock : Nat → Nat} {params : Params} {ident : Nat} {env : OpenEnv} {s : Sys}
    {events : List Event} (monotone : Monotone clock)
    (opened : vpipeOpen (Kernel.boot clock params) ident env = .ok s)
    (punctual : Meets Sys.step Punctual s events) :
    ∀ p ∈ (run Sys.step s events).k.published, p.entry.sourceTimestampNs ≤ p.entry.qbufTimestampNs ∧
      p.entry.qbufTimestampNs ≤ p.entry.captureDoneNs ∧ p.entry.captureDoneNs ≤ p.entry.dqbufTimestampNs := by
  have kept := openKept opened rfl
  have start : Timed s ∧ Prompt s := by
    obtain ⟨src, m, created, rfl⟩ := openCases opened
    refine ⟨⟨?_,?_,by simp [Kernel.boot],by simp [Kernel.boot],⟨?_,by simp [Kernel.boot]⟩,
      by simp [Kernel.boot]⟩,?_,by simp [Kernel.boot]⟩
    · rw [(createSilent created).clock]; exact monotone
    · simp [Sys.queue, Queue.empty, blankBuf]
    · simp [Sys.queue, Queue.empty]
    · simp [Sys.queue, Queue.empty, blankBuf]
  have keeps : ∀ s e, Sane s ∧ Kept s ∧ Timed s ∧ Prompt s → Punctual s e →
      Sane (s.step e) ∧ Kept (s.step e) ∧ Timed (s.step e) ∧ Prompt (s.step e) := by
    intro s e so ok
    obtain ⟨sane, kept, timed, prompt⟩ := so
    exact ⟨saneStep sane e,keptStep sane kept,timedStep sane timed,
      stepKeeps (fun _ _ => promptMove) sane prompt (punctualMeets kept ok)⟩
  obtain ⟨_, _, timed, prompt⟩ := runInvariant keeps ⟨(openSane opened).1,kept,start⟩ punctual
  intro p member
  obtain ⟨f, frame, row⟩ := timed.genuine.rows p member
  refine ⟨?_,?_,timed.rows p member⟩
  · rw [row.2]; exact prompt.frames f frame
  · rw [row.2]; exact timed.frames f frame

def oneByOne (backend frames : Nat) : List Event :=
  [.setBackend backend true,.sFmt .output ⟨1,1,0,0,0,0,0,0,0,0⟩,.reqbufs .output 2 .mmap 0 2,
    .reqbufs .capture 2 .mmap 0 2,.streamon .capture {},.streamon .output {}] ++
  (List.replicate frames [.qbuf .output 0 0 none,.qbuf .capture 0 0 none,.deviceRun 0,.dqbuf .capture,
    .dqbuf .output]).flatten

theorem fastFramesOrdered :
    let s := run Sys.step (openedOn (Kernel.boot (fun n => n + 1) {vcamFps := 1000000000}) 0) (oneByOne 3 2)
    s.k.published.length = 2 ∧
    ∀ p ∈ s.k.published, p.entry.sourceTimestampNs ≤ p.entry.qbufTimestampNs ∧
      p.entry.qbufTimestampNs ≤ p.entry.captureDoneNs ∧ p.entry.captureDoneNs ≤ p.entry.dqbufTimestampNs := by
  refine ⟨by decide,publishedOrdered ?_ (openSucceeds _ 0) (by decide)⟩
  exact fun _ _ later => Nat.add_le_add_right later 1

/- The FIXTURE backend's time is read after the buffer's, and at 30 frames a second the second
frame of the VCAM backend is due 33 ms after the first, whenever it was asked for. -/
theorem sourceTimesLate :
    let times := fun p : Publication => (p.entry.sourceTimestampNs,p.entry.qbufTimestampNs,
      p.entry.captureDoneNs, p.entry.dqbufTimestampNs)
    let fixture := run Sys.step (openedOn (Kernel.boot (fun n => n + 1) {}) 0) (oneByOne 1 1)
    let vcam := run Sys.step (openedOn (Kernel.boot (fun n => n + 1) {}) 0) (oneByOne 3 2)
    fixture.k.published.map times = [(2,1,3,4)] ∧
    vcam.k.published.map times = [(1,2,3,4),(33333334,5,6,7)] := by
  decide

end Vpipe.Timeline
