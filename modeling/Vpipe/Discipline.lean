import Vpipe.Moves

/-! Where each move may happen, and what holds of both queues and the formats in every state
of every run. -/
namespace Vpipe.Discipline
open Vpipe.Lib.Word Vpipe.Lib.ByteMemory Vpipe.Lib.BufferQueue Vpipe.Lib.Transition
open Vpipe.Cv Vpipe.FrameSource Vpipe.MetaRing Vpipe.M2m Vpipe.Moves

structure Geometry (d : QData) : Prop where
  width : 1 ≤ d.width ∧ d.width ≤ 4096
  height : 1 ≤ d.height ∧ d.height ≤ 4096
  line : d.bytesperline = d.width
  image : d.sizeimage = d.width * d.height
  grey : d.pixelformat = pixFmtGrey

theorem filledGeometry (width height : Nat) : Geometry (qDataOf (vpipeFillPixFormat width height)) := by
  have w : 1 ≤ clampNat width 1 4096 ∧ _ := clampNatBounds width (by decide)
  have h : 1 ≤ clampNat height 1 4096 ∧ _ := clampNatBounds height (by decide)
  refine ⟨w,h,rfl,u32Of ?_,rfl⟩
  calc clampNat width 1 4096 * clampNat height 1 4096 ≤ 4096 * 4096 := Nat.mul_le_mul w.2 h.2
    _ < 2^32 := by decide

theorem geometryTotal {d : QData} (geometry : Geometry d) : d.height * d.bytesperline = d.sizeimage ∧
    d.sizeimage < 2^32 := by
  rw [geometry.line, geometry.image]
  refine ⟨Nat.mul_comm _ _,?_⟩
  calc d.width * d.height ≤ 4096 * 4096 := Nat.mul_le_mul geometry.width.2 geometry.height.2
    _ < 2^32 := by decide

structure Sound (q : Queue VpipeBuffer) (next : Nat) : Prop where
  wf : WellFormed q
  quiet : q.streaming = false → q.done = []
  fresh : ∀ id, id ∈ q.ids ∨ id ∈ q.ready → id < next

structure Base (s : Sys) : Prop where
  sound : ∀ t, Sound (s.queue t) s.k.machine.next
  geometry : Geometry s.c.outQ
  mirrored : s.c.capQ = s.c.outQ

def AtRest (s : Sys) : Prop :=
  ∀ t, (s.queue t).streaming = false → ∀ id, ((s.queue t).buf id).state ≠ .active

def Allowed (s : Sys) : Move → Prop
  | .format d => Geometry d ∧ ∃ t, (s.queue t).ids = []
  | .stop => (s.queue .output).streaming = true
  | .prepare t id a payload => id ∈ (s.queue t).ids ∧ ((s.queue t).buf id).state = .dequeued ∧
      ((s.queue t).buf id).prepared = false ∧ (s.c.qData t).sizeimage ≤ a.plane.size ∧
      payload = (s.c.qData t).sizeimage
  | .enqueue t id _ => id ∈ (s.queue t).ids ∧ ((s.queue t).buf id).state = .dequeued ∧
      ((s.queue t).buf id).prepared = true
  | .handOver t id => id ∈ (s.queue t).queued ∧ ((s.queue t).buf id).state = .queued ∧
      ((s.queue t).streaming = true → ((s.queue t).buf id).data.qbufControls = s.c.controls)
  | .start t _ => (s.queue t).streaming = false
  | .abort t id => (s.queue t).streaming = true ∧ (s.queue t).ready.head? = some id
  | .release t id => id ∈ (s.queue t).ids ∧ ((s.queue t).buf id).state ≠ .active
  | .cancelled t => ∀ id ∈ (s.queue t).ids, ((s.queue t).buf id).state = .dequeued
  | .free t => (s.queue t).streaming = false ∧
      ∀ id ∈ (s.queue t).ids, ((s.queue t).buf id).state = .dequeued
  | .resetReady t => (s.queue t).streaming = false ∧
      ∀ id ∈ (s.queue t).ids, ((s.queue t).buf id).state = .dequeued
  | .dequeue t => (s.queue t).streaming = true ∧ (s.queue t).done ≠ []
  | .deviceRun _ => schedulable s = true
  | _ => True

theorem releaseGrows (t : QType) (s : Sys) (id : Nat) :
    Grows s.k.machine (releaseOne t s id).k.machine := by
  rcases releaseKernel t s id with ⟨_, same⟩ | ⟨_, published⟩
  · rw [same]; exact ⟨rfl,Nat.le_refl _,Nat.le_refl _⟩
  · rw [published]; exact ⟨rfl,Nat.le_refl _,Nat.le_succ _⟩

theorem bufQueueGrows (t : QType) (s : Sys) (id : Nat) :
    Grows s.k.machine (vpipeBufQueue t s id).k.machine := by
  cases t with
  | capture => exact ⟨rfl,Nat.le_refl _,Nat.le_refl _⟩
  | output =>
    have op := nextFrameGrows s.k.machine.ktimeGetNs.2 s.c.src (vaddr ((s.queue .output).buf id))
      {((s.queue .output).buf id).data.srcDesc with
        width := s.c.outQ.width, height := s.c.outQ.height, stride := s.c.outQ.bytesperline}
    exact ⟨op.clock,op.next,Nat.le_of_succ_le op.tick⟩

theorem startGrows (t : QType) (s : Sys) (env : StartEnv) :
    Grows s.k.machine (finishStart t (vpipeStartStreaming s t env)).k.machine := by
  rw [(finishStartRest t _).1]
  cases t with
  | capture => exact ⟨rfl,Nat.le_refl _,Nat.le_refl _⟩
  | output => exact (startSilent s.k.machine s.c.src s.c.outQ.sizeimage env).toGrows

theorem moveGrows (s : Sys) {l : Move} (allowed : Allowed s l) : Grows s.k.machine (move s l).k.machine := by
  cases l with
  | backend id =>
    rcases setBackendCases s id with same | ⟨_, _, src, m, created, made⟩
    · rw [move, same]; exact ⟨rfl,Nat.le_refl _,Nat.le_refl _⟩
    · rw [move, made]
      exact (silentTrans (createSilent created) (destroySilent m s.c.src)).toGrows
  | exportSrc exported fd => exact (exportSilent s.k.machine s.c.src exported fd).toGrows
  | stop => exact (stopSilent s.k.machine s.c.src).toGrows
  | allocate t memory size slack => exact ⟨rfl,Nat.le_succ _,Nat.le_refl _⟩
  | handOver t id => exact bufQueueGrows t s id
  | start t env => exact startGrows t s env
  | release t id => exact releaseGrows t s id
  | dequeue t =>
    rcases dqbufCases s t with same | ⟨id, rest, _, _, made⟩
    · rw [move, same]; exact ⟨rfl,Nat.le_refl _,Nat.le_refl _⟩
    · rw [move, made]
      cases t <;> exact releaseGrows _ s id
  | deviceRun cpu =>
    obtain ⟨src, dst, heads, failed | ⟨job, result, mem, _, made⟩⟩ := deviceRunCases s cpu allowed
    · rw [move, failed]; exact ⟨rfl,Nat.le_refl _,Nat.le_refl _⟩
    · rw [move, made]; exact ⟨rfl,Nat.le_refl _,Nat.le_succ _⟩
  | _ => exact ⟨rfl,Nat.le_refl _,Nat.le_refl _⟩

inductive Changed (s : Sys) (l : Move) (t : QType) : Queue VpipeBuffer → Prop where
  | same : Changed s l t (s.queue t)
  | allocate {memory : Memory} {size slack : Nat} (made : l = .allocate t memory size slack) :
      Changed s l t ((s.queue t).allocate s.k.machine.next
        (newBuffer s.k.machine.next (s.queue t).ids.length memory size slack))
  | prepare {id payload : Nat} {a : Attachment} (made : l = .prepare t id a payload)
      (inside : id ∈ (s.queue t).ids) (state : ((s.queue t).buf id).state = .dequeued)
        (large : (s.c.qData t).sizeimage ≤ a.plane.size) :
      Changed s l t ((s.queue t).prepare id a.plane a.mapped (fun d => {d with payload := payload}))
  | enqueue {id flags : Nat} (made : l = .enqueue t id flags) (inside : id ∈ (s.queue t).ids)
      (state : ((s.queue t).buf id).state = .dequeued) (prepared : ((s.queue t).buf id).prepared = true) :
      Changed s l t ((s.queue t).enqueue id (fun d => {d with flags := flags, qbufControls := s.c.controls}))
  | handOver {id : Nat} (made : l = .handOver t id) (queued : id ∈ (s.queue t).queued)
      (state : ((s.queue t).buf id).state = .queued) : Changed s l t ((s.queue t).handOver id (handed t s id))
  | started {env : StartEnv} (made : l = .start t env) : Changed s l t {s.queue t with streaming := true}
  | reverted {env : StartEnv} (made : l = .start t env) (failed : (vpipeStartStreaming s t env).1 ≠ none) :
      Changed s l t (s.queue t).revert
  | completed {id : Nat} {rest : List Nat} {f : VpipeBuffer → VpipeBuffer} {ok : Bool}
      (made : l = .abort t id ∧ ok = false ∨ ∃ cpu, l = .deviceRun cpu) (head : (s.queue t).ready = id :: rest)
      (streaming : (s.queue t).streaming = true) (same : ok = false ∨ t = .output → ∀ d, f d = d) :
      Changed s l t (((s.queue t).setData id f).take.complete id ok)
  | released {id : Nat} (made : l = .release t id ∨ l = .dequeue t) (inside : id ∈ (s.queue t).ids)
      (state : ((s.queue t).buf id).state ≠ .active) :
      Changed s l t (Queue.release (vpipeBufFinish t) (s.k,s.queue t) id).2
  | cancelled (made : l = .cancelled t)
      (back : ∀ id ∈ (s.queue t).ids, ((s.queue t).buf id).state = .dequeued) :
        Changed s l t {s.queue t with streaming := false, queued := [], done := []}
  | freed (back : ∀ id ∈ (s.queue t).ids, ((s.queue t).buf id).state = .dequeued) :
      Changed s l t (s.queue t).free
  | reset (made : l = .resetReady t) (back : ∀ id ∈ (s.queue t).ids, ((s.queue t).buf id).state = .dequeued) :
      Changed s l t (s.queue t).resetReady

theorem changedMove {s : Sys} {l : Move} {t : QType} {q : Queue VpipeBuffer} (base : Base s)
    (allowed : Allowed s l) (queue : (move s l).queue t = q) : Changed s l t q := by
  subst queue
  cases touched : l.touches t with
  | false =>
    rw [queueUntouched s touched]
    exact .same
  | true =>
    cases l <;> simp only [Move.touches, decide_eq_true_eq, Bool.false_eq_true] at touched <;> try subst touched
    case allocate t memory size slack =>
      simp only [move, Sys.allocate, queueSet]
      exact .allocate rfl
    case prepare t id a payload =>
      rw [move, queueSet]
      exact .prepare rfl allowed.1 allowed.2.1 allowed.2.2.2.1
    case enqueue t id flags =>
      rw [move, queueSet]
      exact .enqueue rfl allowed.1 allowed.2.1 allowed.2.2
    case handOver t id =>
      rw [move, bufQueueSame]
      exact .handOver rfl allowed.1 allowed.2.1
    case start t env =>
      rcases startCases s t env with ⟨_, made⟩ | ⟨_, failed, made⟩
      · rw [made]; exact .started rfl
      · rw [made]; exact .reverted rfl failed
    case abort t id =>
      obtain ⟨rest, head⟩ := List.head?_eq_some_iff.mp allowed.2
      rw [move, queueSet, ← setDataNone (s.queue t) id]
      exact .completed (.inl ⟨rfl,rfl⟩) head allowed.1 (fun _ _ => rfl)
    case release t id =>
      rw [move, releaseOne, queueSet]
      exact .released (.inl rfl) allowed.1 allowed.2
    case cancelled t =>
      rw [move, queueSet]
      exact .cancelled rfl allowed
    case free t =>
      rw [move, queueSet]
      exact .freed allowed.2
    case resetReady t =>
      rw [move, queueSet]
      exact .reset rfl allowed.2
    case dequeue t =>
      obtain ⟨id, rest, done, made⟩ := dequeueQueue allowed.1 allowed.2
      obtain ⟨inside, finished⟩ := ((base.sound t).wf.done id).mp (by simp [done])
      rw [made]
      exact .released (.inr rfl) inside (fun active => by rw [active] at finished; simp at finished)
    case deviceRun cpu =>
      have streaming := allowed
      simp only [Allowed, schedulable, Bool.and_eq_true] at streaming
      obtain ⟨src, dst, ok, f, ⟨⟨srcRest, dstRest, srcReady, dstReady⟩, output, capture, failed, _, _⟩⟩ :=
        deviceRunCompletes s cpu allowed
      cases t with
      | output =>
        rw [move, output, ← setDataNone (s.queue .output) src]
        exact .completed (.inr ⟨cpu,rfl⟩) srcReady streaming.1.1.1 (fun _ _ => rfl)
      | capture =>
        rw [move, capture]
        exact .completed (.inr ⟨cpu,rfl⟩) dstReady streaming.1.1.2
          (fun or_ => failed (or_.resolve_right (by simp)))

theorem completeIds (q : Queue VpipeBuffer) (id : Nat) (ok : Bool) : (q.take.complete id ok).ids = q.ids := by
  unfold Queue.complete
  split <;> rfl

theorem completeStreaming (q : Queue VpipeBuffer) (id : Nat) (ok : Bool) :
    (q.take.complete id ok).streaming = q.streaming := by
  unfold Queue.complete
  split <;> rfl

theorem soundLater {q : Queue VpipeBuffer} {next next' : Nat} (sound : Sound q next) (later : next ≤ next') :
    Sound q next' :=
  ⟨sound.wf,sound.quiet,fun id member => Nat.lt_of_lt_of_le (sound.fresh id member) later⟩

theorem freshOut {q : Queue VpipeBuffer} {next : Nat} (sound : Sound q next) : next ∉ q.ids :=
  fun member => Nat.lt_irrefl _ (sound.fresh _ (.inl member))

theorem allocateSound {q : Queue VpipeBuffer} {next : Nat} (sound : Sound q next) {b : Buf VpipeBuffer}
    (state : b.state = .dequeued) : Sound (q.allocate next b) (next + 1) := by
  refine ⟨allocateWellFormed sound.wf (freshOut sound) state,sound.quiet,?_⟩
  intro id member
  simp only [Queue.allocate, List.mem_append, List.mem_singleton] at member
  rcases member with (inside | rfl) | ready
  · exact Nat.lt_succ_of_lt (sound.fresh id (.inl inside))
  · exact Nat.lt_succ_self _
  · exact Nat.lt_succ_of_lt (sound.fresh id (.inr ready))

theorem handOverSound {q : Queue VpipeBuffer} {next id : Nat} (sound : Sound q next)
    (f : VpipeBuffer → VpipeBuffer) (queued : id ∈ q.queued) (state : (q.buf id).state = .queued) :
    Sound (q.handOver id f) next := by
  have pending : id ∉ q.done := by
    rw [sound.wf.done id, state]
    simp
  refine ⟨handOverWellFormed sound.wf f queued pending,sound.quiet,?_⟩
  intro other member
  simp only [Queue.handOver, Queue.modify, List.mem_append, List.mem_singleton] at member
  rcases member with old | old | rfl
  · exact sound.fresh other (.inl old)
  · exact sound.fresh other (.inr old)
  · exact sound.fresh other (.inl ((sound.wf.queued other).mp queued).1)

theorem completeSound {q : Queue VpipeBuffer} {next id : Nat} (sound : Sound q next) {rest : List Nat}
    (head : q.ready = id :: rest) (ok : Bool) (streaming : q.streaming = true) :
    Sound (q.take.complete id ok) next := by
  refine ⟨completeWellFormed sound.wf head ok,?_,?_⟩
  · intro stopped
    rw [completeStreaming, streaming] at stopped
    contradiction
  · intro other member
    rw [completeReady head ok, completeIds] at member
    refine sound.fresh other (member.imp_right (fun later => ?_))
    rw [head]
    exact List.mem_cons_of_mem _ later

theorem releaseSound {q : Queue VpipeBuffer} {next id : Nat} (sound : Sound q next) (k : Kernel) (t : QType) :
    Sound (Queue.release (vpipeBufFinish t) (k,q) id).2 next := by
  refine ⟨releaseWellFormed sound.wf,?_,sound.fresh⟩
  intro stopped
  have none_ : q.done = [] := sound.quiet stopped
  simp [Queue.release, none_]

theorem soundMove {s : Sys} {l : Move} (base : Base s) (allowed : Allowed s l) (t : QType) :
    Sound ((move s l).queue t) (move s l).k.machine.next := by
  have later := (moveGrows s allowed).next
  have sound := base.sound t
  generalize queue : (move s l).queue t = q
  cases changedMove base allowed queue with
  | same => exact soundLater sound later
  | allocate made => subst made; exact allocateSound sound rfl
  | prepare _ _ _ _ => exact soundLater ⟨prepareWellFormed sound.wf _ _ _,sound.quiet,sound.fresh⟩ later
  | enqueue _ inside state prepared =>
    exact soundLater ⟨enqueueWellFormed sound.wf _ inside state prepared,sound.quiet,sound.fresh⟩ later
  | handOver _ queued state => exact soundLater (handOverSound sound _ queued state) later
  | started _ =>
    obtain ⟨distinct, queuedDistinct, doneDistinct, queued, done, active, prepared⟩ := sound.wf
    exact soundLater ⟨⟨distinct,queuedDistinct,doneDistinct,queued,done,active,prepared⟩,
      by simp,sound.fresh⟩ later
  | reverted _ _ => exact soundLater ⟨revertWellFormed sound.wf,sound.quiet,sound.fresh⟩ later
  | completed _ head streaming _ =>
    exact soundLater (completeSound ⟨setDataWellFormed sound.wf _,sound.quiet,sound.fresh⟩ head _ streaming)
      later
  | released _ _ _ => exact soundLater (releaseSound sound s.k t) later
  | cancelled _ back => exact soundLater ⟨clearWellFormed sound.wf back,fun _ => rfl,sound.fresh⟩ later
  | freed back =>
    exact soundLater ⟨freeWellFormed sound.wf back,sound.quiet,fun id member =>
      sound.fresh id (.inr (by simpa [Queue.free] using member))⟩ later
  | reset _ back =>
    exact soundLater ⟨resetReadyWellFormed sound.wf back,sound.quiet,fun id member =>
      sound.fresh id (.inl (by simpa [Queue.resetReady] using member))⟩ later

theorem baseMove {s : Sys} {l : Move} (base : Base s) (allowed : Allowed s l) : Base (move s l) := by
  have formats : Geometry (move s l).c.outQ ∧ (move s l).c.capQ = (move s l).c.outQ := by
    by_cases other : ∀ d, l ≠ .format d
    · obtain ⟨outQ, capQ⟩ := (moveConfig s l).2.1 other
      rw [outQ, capQ]
      exact ⟨base.geometry,base.mirrored⟩
    · obtain ⟨d, made⟩ := not_forall.mp other
      obtain rfl := not_not.mp made
      exact ⟨allowed.1,rfl⟩
  exact ⟨soundMove base allowed,formats.1,formats.2⟩

theorem exactMove {s : Sys} {l : Move} (base : Base s) (allowed : Allowed s l) (t : QType)
    (starts : ∀ env, l = .start t env → (vpipeStartStreaming s t env).1 ≠ none → (s.queue t).queued = [])
    (exact_ : Exact (s.queue t)) : Exact ((move s l).queue t) := by
  have wf := (base.sound t).wf
  generalize queue : (move s l).queue t = q
  cases changedMove base allowed queue with
  | same => exact exact_
  | allocate _ => exact allocateExact exact_ (freshOut (base.sound t))
  | prepare _ _ _ _ => exact prepareExact exact_ _ _ _
  | enqueue _ _ state _ => exact enqueueExact exact_ _ state
  | handOver _ queued state =>
    exact handOverExact exact_ _ ((wf.queued _).mp queued).1 (by rw [state]; simp)
  | started _ => exact ⟨exact_.distinct,exact_.ready,exact_.balance⟩
  | @reverted env made failed =>
    -- Nothing was handed over, so nothing is taken back.
    have none_ := starts env made failed
    have idle : ∀ id, ((s.queue t).buf id).state ≠ .active := fun id active => by
      have queued := (wf.queued id).mpr ⟨(wf.active id active).1,by rw [active]; simp⟩
      simp [none_] at queued
    have same : (s.queue t).revert = s.queue t := by
      simp only [Queue.revert, idle, if_false]
    rw [same]
    exact exact_
  | completed _ head _ _ => exact completeExact (setDataExact exact_ _) head _
  | released _ _ state => exact releaseExact exact_ (fun ready => state (exact_.ready _ ready).2)
  | cancelled _ _ => exact ⟨exact_.distinct,exact_.ready,exact_.balance⟩
  | freed back => exact freeExact exact_ (readyEmpty exact_ (fun id inside => by rw [back id inside]; simp))
  | reset _ back =>
    exact resetReadyExact exact_ (readyEmpty exact_ (fun id inside => by rw [back id inside]; simp))

/- How an OUTPUT buffer the driver lists after a move came to be as it is: handed over by the
move, left alone, or prepared or queued by userspace, which had it. -/
inductive Listed (s : Sys) (l : Move) (q : Queue VpipeBuffer) (id : Nat) : Prop where
  | handed (made : l = .handOver .output id) (mapped : (q.buf id).mapped = ((s.queue .output).buf id).mapped)
      (data : (q.buf id).data = stamped s id ((s.queue .output).buf id).data)
  | kept (before : id ∈ (s.queue .output).ready)
      (mapped : (q.buf id).mapped = ((s.queue .output).buf id).mapped)
        (data : (q.buf id).data = ((s.queue .output).buf id).data)
  | prepared (payload : Nat) (before : id ∈ (s.queue .output).ready)
      (state : ((s.queue .output).buf id).state = .dequeued)
      (data : (q.buf id).data = {((s.queue .output).buf id).data with payload := payload})
  | enqueued {flags : Nat} (made : l = .enqueue .output id flags) (before : id ∈ (s.queue .output).ready)
      (state : ((s.queue .output).buf id).state = .dequeued)

theorem listedMove {s : Sys} {l : Move} (base : Base s) (allowed : Allowed s l) {id : Nat}
    (member : id ∈ ((move s l).queue .output).ready) : Listed s l ((move s l).queue .output) id := by
  generalize queue : (move s l).queue .output = q at member
  cases changedMove base allowed queue with
  | allocate _ =>
    have old : id ≠ s.k.machine.next := Nat.ne_of_lt ((base.sound .output).fresh id (.inr member))
    exact .kept member (by simp [Queue.allocate, old]) (by simp [Queue.allocate, old])
  | @prepare other payload _ _ _ state _ =>
    by_cases same : id = other
    · subst same
      exact .prepared payload member state (by simp only [Queue.prepare, Queue.modify, Function.update_self])
    · exact .kept member (by simp [Queue.prepare, Queue.modify, same])
        (by simp [Queue.prepare, Queue.modify, same])
  | @enqueue other _ made _ state _ =>
    by_cases same : id = other
    · subst same
      exact .enqueued made member state
    · exact .kept member (by simp [Queue.enqueue, Queue.modify, same])
        (by simp [Queue.enqueue, Queue.modify, same])
  | @handOver new made _ _ =>
    by_cases same : id = new
    · subst same
      exact .handed made (by simp [Queue.handOver, Queue.modify])
        (by simp [Queue.handOver, Queue.modify, handed])
    · have before : id ∈ (s.queue .output).ready := by
        simpa [Queue.handOver, Queue.modify, same] using member
      exact .kept before (by simp [Queue.handOver, Queue.modify, same])
        (by simp [Queue.handOver, Queue.modify, same])
  | reverted _ _ =>
    refine .kept member ?_ ?_ <;> simp only [Queue.revert] <;> split <;> rfl
  | @completed done rest f ok _ head _ same =>
    have none_ : f = fun d => d := funext (same (.inr rfl))
    subst none_
    rw [setDataNone] at member ⊢
    have before : id ∈ (s.queue .output).ready := by
      rw [completeReady head] at member
      rw [head]
      exact List.mem_cons_of_mem _ member
    refine .kept before ?_ ?_ <;> unfold Queue.complete <;> by_cases here : id = done
    · subst here; split <;> simp [Queue.take, Queue.modify]
    · split <;> simp [Queue.take, Queue.modify, here]
    · subst here; split <;> simp [Queue.take, Queue.modify]
    · split <;> simp [Queue.take, Queue.modify, here]
  | @released back _ _ _ =>
    by_cases same : id = back
    · subst same
      exact .kept member (by simp [Queue.release]) (by simp [Queue.release, vpipeBufFinish])
    · exact .kept member (by simp [Queue.release, same]) (by simp [Queue.release, same])
  | reset _ _ => simp [Queue.resetReady] at member
  | _ => exact .kept member rfl rfl

end Vpipe.Discipline
