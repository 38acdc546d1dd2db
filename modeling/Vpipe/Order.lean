import Vpipe.Frames

/-! The order in which buffers go through the device. As long as no queue is stopped over buffers
the driver has, every job succeeds and the two ready queues run in step: the n-th frame is made from
the n-th OUTPUT buffer and the n-th CAPTURE buffer the driver was given. -/
namespace Vpipe.Order
open Vpipe.Lib.Word Vpipe.Lib.ByteMemory Vpipe.Lib.BufferQueue Vpipe.Lib.Transition
open Vpipe.Cv Vpipe.FrameSource Vpipe.MetaRing Vpipe.M2m Vpipe.Moves Vpipe.Discipline Vpipe.Runs
open Vpipe.Frames

def Known (algoId : Nat) : Prop := algoId = algoNone ∨ algoId = algoThreshold

theorem knownProcesses {algoId : Nat} (known : Known algoId) (job : JobDesc) (threshold : Nat)
    (roi : Option Roi) (m : Mem) : ∃ result m', vpipeCvProcess job algoId threshold roi m =
      .ok (result,m') := by
  rcases known with rfl | rfl
  · exact ⟨_,_,rfl⟩
  · exact ⟨_,_,rfl⟩

theorem sCtrlAlgo {c c' : Controls} {id : Nat} {val : Int} (set : vpipeSCtrl c id val = .ok c') :
    id = cidAlgo ∧ c'.algoId = toU32 val ∨ c'.algoId = c.algoId := by
  unfold vpipeSCtrl at set
  by_cases algo : id = cidAlgo
  · subst algo
    rw [if_neg (by decide), if_pos rfl] at set
    cases set
    exact .inl ⟨rfl,rfl⟩
  · rw [if_neg algo] at set
    refine .inr ?_
    split at set
    · cases set; rfl
    split at set
    · cases set; rfl
    split at set
    · cases set; rfl
    split at set
    · cases set; rfl
    split at set
    · cases set; rfl
    split at set
    · cases set; rfl
    · contradiction

theorem controlKnown {c c' : Controls} {id : Nat} {val : Int} (known : Known c.algoId)
    (set : vidiocSCtrl c id val = .ok c') : Known c'.algoId := by
  by_cases algo : id = cidAlgo
  · subst algo
    have found : ctrlConfigs.find? (fun cfg => cfg.id == cidAlgo) = some vpipeCtrlAlgo := rfl
    simp only [vidiocSCtrl, found, vpipeCtrlAlgo] at set
    split at set
    · contradiction
    · rename_i range
      rcases sCtrlAlgo set with ⟨_, value⟩ | same
      · have cases_ : val = 0 ∨ val = 1 := by
          simp only [algoNone, algoThreshold] at range
          omega
        rw [value]
        rcases cases_ with rfl | rfl
        · exact .inl rfl
        · exact .inr rfl
      · rw [same]; exact known
  · unfold vidiocSCtrl at set
    have other : ∀ val', vpipeSCtrl c id val' = .ok c' → Known c'.algoId := by
      intro val' set
      rcases sCtrlAlgo set with ⟨same, _⟩ | same
      · exact absurd same algo
      · rw [same]; exact known
    split at set
    · contradiction
    · split at set
      · exact other _ set
      · split at set
        · contradiction
        · exact other _ set

def InOrder (q : Queue VpipeBuffer) : Prop := q.handed = q.completed ++ q.ready

def Mapped (q : Queue VpipeBuffer) : Prop :=
  ∀ id ∈ q.ids, (q.buf id).prepared = true ∨ (q.buf id).memory = .mmap → (q.buf id).mapped = true

structure Ordered (s : Sys) : Prop where
  exact_ : Exact (s.queue .output)
  fifo : ∀ t, InOrder (s.queue t)
  mapped : ∀ t, Mapped (s.queue t)
  sources : (s.queue .output).completed = s.k.frames.map Frame.source
  targets : (s.queue .capture).completed = s.k.frames.map Frame.target
  control : Known s.c.controls.algoId
  known : ∀ id ∈ (s.queue .output).ready, Known ((s.queue .output).buf id).data.algoId
  dequeues : (s.k.returned.map Returned.buffer ++ (s.queue .capture).done).Sublist (s.k.frames.map Frame.target)

def MoveGentle (s : Sys) : Move → Prop
  | .abort _ _ => False
  | .prepare t id a _ => a.mapped = true ∨
      ((s.queue t).buf id).memory = .mmap ∧ a.mapped = ((s.queue t).buf id).mapped
  | .controls c => Known c.algoId
  | _ => True

def MoveSmooth (s : Sys) (l : Move) : Prop := MoveClean s l ∧ MoveGentle s l

theorem orderedExact {s : Sys} (steady : Steady s) (ordered : Ordered s) (t : QType) : Exact (s.queue t) := by
  cases t with
  | output => exact ordered.exact_
  | capture => exact steady.capture

theorem completedSame {s : Sys} {l : Move} (base : Base s) (allowed : Allowed s l) (smooth : MoveSmooth s l)
    (job : ∀ cpu, l ≠ .deviceRun cpu) (t : QType) : ((move s l).queue t).completed = (s.queue t).completed := by
  generalize queue : (move s l).queue t = q
  cases changedMove base allowed queue with
  | completed made _ _ _ =>
    rcases made with ⟨rfl, _⟩ | ⟨cpu, made⟩
    · exact smooth.2.elim
    · exact absurd made (job cpu)
  | _ => rfl

theorem inOrderSame {s : Sys} {l : Move} (base : Base s) (allowed : Allowed s l) (smooth : MoveSmooth s l)
    (job : ∀ cpu, l ≠ .deviceRun cpu) {t : QType} (exact_ : Exact (s.queue t)) (fifo : InOrder (s.queue t)) :
    InOrder ((move s l).queue t) := by
  generalize queue : (move s l).queue t = q
  cases changedMove base allowed queue with
  | handOver _ _ _ =>
    simp only [InOrder, Queue.handOver, Queue.modify] at fifo ⊢
    rw [fifo, List.append_assoc]
  | completed made _ _ _ =>
    rcases made with ⟨rfl, _⟩ | ⟨cpu, made⟩
    · exact smooth.2.elim
    · exact absurd made (job cpu)
  | reset _ back =>
    have empty := readyEmpty exact_ (fun id inside => by rw [back id inside]; simp)
    simpa [InOrder, Queue.resetReady, empty] using fifo
  | _ => exact fifo

theorem mappedMove {s : Sys} {l : Move} (base : Base s) (allowed : Allowed s l)
    (smooth : MoveSmooth s l) {t : QType} (mapped : Mapped (s.queue t)) : Mapped ((move s l).queue t) := by
  have fresh := (base.sound t).fresh
  generalize queue : (move s l).queue t = q
  unfold Mapped at mapped ⊢
  cases changedMove base allowed queue with
  | allocate _ => simp only [Queue.allocate, newBuffer]; grind
  | prepare made _ _ _ =>
    subst made
    have gentle := smooth.2
    simp only [Queue.prepare, Queue.modify]
    grind [MoveGentle]
  | enqueue _ _ _ _ => simp only [Queue.enqueue, Queue.modify]; grind
  | handOver _ _ _ => simp only [Queue.handOver, Queue.modify]; grind
  | reverted _ _ => simp only [Queue.revert]; grind
  | completed _ _ _ _ =>
    unfold Queue.complete
    split <;> simp only [Queue.take, Queue.setData, Queue.modify] <;> grind
  | released _ _ _ => simp only [Queue.release]; grind
  | freed _ => simp [Queue.free]
  | _ => exact mapped

theorem knownMove {s : Sys} {l : Move} (base : Base s) (allowed : Allowed s l)
    (exact_ : Exact (s.queue .output)) (control : Known s.c.controls.algoId)
    (known : ∀ id ∈ (s.queue .output).ready, Known ((s.queue .output).buf id).data.algoId) :
    ∀ id ∈ ((move s l).queue .output).ready, Known (((move s l).queue .output).buf id).data.algoId := by
  intro id member
  have listed := listedMove base allowed member
  generalize (move s l).queue .output = q at listed
  cases listed with
  | handed _ _ data => rw [data]; exact control
  | kept before _ data => rw [data]; exact known id before
  | prepared _ before _ data => rw [data]; exact known id before
  | enqueued _ before state => simp [(exact_.ready id before).2] at state

theorem dequeuesSame {s : Sys} {l : Move} (base : Base s) (allowed : Allowed s l) (smooth : MoveSmooth s l)
    (job : ∀ cpu, l ≠ .deviceRun cpu) :
    ((move s l).k.returned.map Returned.buffer ++ ((move s l).queue .capture).done).Sublist
      (s.k.returned.map Returned.buffer ++ (s.queue .capture).done) := by
  by_cases takes : l = .dequeue .capture
  · subst takes
    obtain ⟨id, rest, done, made⟩ := dequeueMove allowed.1 allowed.2
    have kept : (releaseOne .capture s id).k.returned = s.k.returned := by
      rcases releaseKernel .capture s id with ⟨_, kernel⟩ | ⟨_, kernel⟩
      · rw [kernel]
      · rw [kernel]; rfl
    have left : ((releaseOne .capture s id).queue .capture).done = rest := by
      rw [releaseOne, queueSet]
      simp [Queue.release, done]
    have queue : (move s (.dequeue .capture)).queue .capture = (releaseOne .capture s id).queue .capture := by
      rw [made]
      rfl
    have returned : (move s (.dequeue .capture)).k.returned.map Returned.buffer =
        s.k.returned.map Returned.buffer ++ [id] := by
      simp [made, noteReturned, kept]
    rw [queue, returned, left, done]
    simp
  · have returned : (move s l).k.returned = s.k.returned := by
      cases l with
      | release t id =>
        rcases releaseKernel t s id with ⟨_, kernel⟩ | ⟨_, kernel⟩
        · rw [move, kernel]
        · rw [move, kernel]; rfl
      | dequeue t =>
        cases t with
        | capture => exact absurd rfl takes
        | output =>
          obtain ⟨id, rest, _, made⟩ := dequeueMove allowed.1 allowed.2
          rw [made]
          rcases releaseKernel .output s id with ⟨_, kernel⟩ | ⟨publishes, _⟩
          · simp only [noteReturned, kernel]
          · exact absurd publishes.1 (by decide)
      | deviceRun cpu => exact absurd rfl (job cpu)
      | _ => exact (quietKernel s (by simp) (by simp) (by simp)).returned
    rw [returned]
    refine List.Sublist.append (List.Sublist.refl _) ?_
    generalize queue : (move s l).queue .capture = q
    cases changedMove base allowed queue with
    | completed made _ _ _ =>
      rcases made with ⟨rfl, _⟩ | ⟨cpu, made⟩
      · exact smooth.2.elim
      · exact absurd made (job cpu)
    | released _ _ _ => exact List.erase_sublist
    | cancelled _ _ => exact List.nil_sublist _
    | _ => exact List.Sublist.refl _

theorem readyMapped {q : Queue VpipeBuffer} (wf : WellFormed q) (exact_ : Exact q)
    (mapped : Mapped q) {id : Nat} (ready : id ∈ q.ready) : vaddr (q.buf id) = some (q.buf id).plane := by
  obtain ⟨inside, active⟩ := exact_.ready id ready
  have prepared := wf.prepared id inside (by rw [active]; simp)
  simp [vaddr, mapped id inside (.inl prepared)]

theorem completeBooks {q : Queue VpipeBuffer} {id : Nat} (ok : Bool) (running : (q.buf id).state = .active) :
    (q.take.complete id ok).handed = q.handed ∧ (q.take.complete id ok).ready = q.ready.tail ∧
      (q.take.complete id ok).completed = q.completed ++ [id] ∧ (q.take.complete id ok).done =
        q.done ++ [id] := by
  have taken : (q.take.buf id).state = .active := running
  rw [Queue.complete, if_pos taken]
  exact ⟨rfl,rfl,rfl,rfl⟩

theorem jobInOrder {s : Sys} (steady : Steady s) (ordered : Ordered s) (cpu : Nat) (go : schedulable s = true) :
    ∃ f src dst, (move s (.deviceRun cpu)).k.frames = s.k.frames ++ [f] ∧ f.source = src ∧ f.target = dst ∧
      ∀ t, ((move s (.deviceRun cpu)).queue t).handed = (s.queue t).handed ∧
        (s.queue t).ready = (match t with | .output => src | .capture => dst) ::
          ((move s (.deviceRun cpu)).queue t).ready ∧
        ((move s (.deviceRun cpu)).queue t).completed =
          (s.queue t).completed ++ [match t with | .output => src | .capture => dst] ∧
        ((move s (.deviceRun cpu)).queue t).done =
          (s.queue t).done ++ [match t with | .output => src | .capture => dst] := by
  obtain ⟨src, dst, heads, _⟩ := deviceRunCases s cpu go
  obtain ⟨srcRest, dstRest, output, capture⟩ := heads
  have srcPlane : vaddr ((s.queue .output).buf src) = some ((s.queue .output).buf src).plane :=
    readyMapped (steady.sound .output).wf ordered.exact_ (ordered.mapped .output) (by simp [output])
  have dstPlane : vaddr ((s.queue .capture).buf dst) = some ((s.queue .capture).buf dst).plane :=
    readyMapped (steady.sound .capture).wf steady.capture (ordered.mapped .capture) (by simp [capture])
  obtain ⟨result, mem, done⟩ := knownProcesses (ordered.known src (by simp [output]))
    (jobOf s ((s.queue .output).buf src).plane ((s.queue .capture).buf dst).plane)
    ((s.queue .output).buf src).data.threshold (some ((s.queue .output).buf src).data.roi) s.k.machine.mem
  have made := deviceRunProcessed cpu go ⟨srcRest,dstRest,output,capture⟩ ⟨srcPlane,dstPlane,rfl,done⟩
  refine ⟨_,src,dst,by rw [move, made]; rfl,rfl,rfl,fun t => ?_⟩
  obtain ⟨kept, f, filled⟩ := fillResultQueues (s.setMachine {s.k.machine with mem := mem})
    ⟨src,dst,.processed _ result s.k.machine.mem⟩ _ result s.k.machine.mem src dst cpu
  rw [move, made]
  cases t with
  | output =>
    obtain ⟨handed, ready, completed, finished⟩ :=
      completeBooks true (ordered.exact_.ready src (by simp [output])).2
    exact ⟨(congrArg (fun q => (q.take.complete src true).handed) kept).trans handed,
      output.trans (congrArg (src :: ·) ((congrArg (fun q => (q.take.complete src true).ready) kept).trans
        (ready.trans (by rw [output]; rfl))).symm),
      (congrArg (fun q => (q.take.complete src true).completed) kept).trans completed,
      (congrArg (fun q => (q.take.complete src true).done) kept).trans finished⟩
  | capture =>
    have running : (((s.queue .capture).setData dst f).buf dst).state = .active := by
      simpa [Queue.setData, Queue.modify] using (steady.capture.ready dst (by simp [capture])).2
    obtain ⟨handed, ready, completed, finished⟩ := completeBooks true running
    exact ⟨(congrArg (fun q => (q.take.complete dst true).handed) filled).trans handed,
      capture.trans (congrArg (dst :: ·) ((congrArg (fun q => (q.take.complete dst true).ready) filled).trans
        (ready.trans (by simp [Queue.setData, Queue.modify, capture]))).symm),
      (congrArg (fun q => (q.take.complete dst true).completed) filled).trans completed,
      (congrArg (fun q => (q.take.complete dst true).done) filled).trans finished⟩

theorem orderedMove {s : Sys} {l : Move} (steady : Steady s) (allowed : Allowed s l) (smooth : MoveSmooth s l)
    (ordered : Ordered s) : Ordered (move s l) := by
  have base := steady.toBase
  have control : Known (move s l).c.controls.algoId := by
    by_cases sets : ∃ c, l = .controls c
    · obtain ⟨c, rfl⟩ := sets
      exact smooth.2
    · rw [(moveConfig s l).2.2 (fun c same => sets ⟨c,same⟩)]
      exact ordered.control
  have exact_ := outputExactMove steady allowed smooth.1 ordered.exact_
  have mapped := fun t => mappedMove base allowed smooth (ordered.mapped t)
  have known := knownMove base allowed ordered.exact_ ordered.control ordered.known
  rcases jobOrNot l with ⟨cpu, rfl⟩ | job
  · obtain ⟨f, src, dst, frames, rfl, rfl, queues⟩ := jobInOrder steady ordered cpu allowed
    have returned : (move s (.deviceRun cpu)).k.returned = s.k.returned := by
      obtain ⟨_, _, _, failed | ⟨_, _, _, _, made⟩⟩ := deviceRunCases s cpu allowed
      · rw [move, failed]; rfl
      · rw [move, made]; rfl
    refine ⟨exact_,fun t => ?_,mapped,?_,?_,control,known,?_⟩
    · obtain ⟨handed, ready, completed, _⟩ := queues t
      rw [InOrder, handed, completed, ordered.fifo t, ready]
      simp
    · rw [(queues .output).2.2.1, frames, ordered.sources]
      simp
    · rw [(queues .capture).2.2.1, frames, ordered.targets]
      simp
    · rw [returned, (queues .capture).2.2.2, frames, List.map_append, ← List.append_assoc]
      exact ordered.dequeues.append (List.Sublist.refl _)
  · have frames := framesSame s job
    refine ⟨exact_,fun t => ?_,mapped,?_,?_,control,known,?_⟩
    · exact inOrderSame base allowed smooth job (orderedExact steady ordered t) (ordered.fifo t)
    · rw [completedSame base allowed smooth job, frames, ordered.sources]
    · rw [completedSame base allowed smooth job, frames, ordered.targets]
    · rw [frames]
      exact (dequeuesSame base allowed smooth job).trans ordered.dequeues

def mappedAttachment : Option Attachment → Prop
  | none => True
  | some a => a.mapped = true

instance (att : Option Attachment) : Decidable (mappedAttachment att) := match att with
  | none => isTrue trivial
  | some a => inferInstanceAs (Decidable (a.mapped = true))

/- A start that fails finds no buffer queued, a queue is stopped only when the driver has none of
its buffers, and the DMA-BUFs given can be mapped. -/
def Smooth (s : Sys) : Event → Prop
  | .streamon .output env => (s.queue .output).streaming = false →
      startFails s.c.src.backend s.c.outQ.sizeimage env = true → (s.queue .output).queued = []
  | .streamoff t => (s.queue t).ready = []
  | .prepareBuf _ _ att => mappedAttachment att
  | .qbuf _ _ _ att => mappedAttachment att
  | _ => True

instance (s : Sys) (e : Event) : Decidable (Smooth s e) := match e with
  | .streamon .output _ | .streamoff _ | .prepareBuf _ _ _ | .qbuf _ _ _ _ => by
    dsimp only [Smooth]; infer_instance
  | .streamon .capture _ | .sFmt _ _ | .sCtrl _ _ | .setBackend _ _ | .exportSrcDmabuf _ _
  | .reqbufs _ _ _ _ _ | .createBufs _ _ _ _ _ _ | .dqbuf _ | .deviceRun _ | .store _ _ | .setParams _ =>
    isTrue trivial

theorem smoothClean {s : Sys} {e : Event} (smooth : Smooth s e) : StartClean s e := by
  rintro env rfl
  exact smooth

theorem prepareGentle {s : Sys} {t : QType} {id : Nat} {att : Option Attachment} {ms : List Move}
    (good : mappedAttachment att) (made : prepareMoves s t id att = some ms) : Meets move MoveGentle s ms := by
  obtain ⟨a, payload, rfl, ⟨mmap, rfl⟩ | ⟨_, rfl⟩⟩ := prepareAttaches made
  · exact ⟨.inr ⟨mmap,rfl⟩,trivial⟩
  · exact ⟨.inl good,trivial⟩

theorem gentleOthers {s : Sys} {e : Event} (quiet : ∀ l ∈ moves s e, (∀ t id, l ≠ .abort t id) ∧
    (∀ t id a payload, l ≠ .prepare t id a payload) ∧ ∀ c, l ≠ .controls c) : Meets move MoveGentle s
      (moves s e) := by
  refine meetsMember (fun l member s' => ?_) s
  obtain ⟨abort, prepare, controls⟩ := quiet l member
  cases l with
  | abort t id => exact absurd rfl (abort t id)
  | prepare t id a payload => exact absurd rfl (prepare t id a payload)
  | controls c => exact absurd rfl (controls c)
  | _ => trivial

theorem abortOrigin {s : Sys} {e : Event} {t : QType} {id : Nat} (member : .abort t id ∈ moves s e) :
    e = .streamoff t ∧ id ∈ (s.queue t).ready := by
  rcases cancelOrigin (t := t) (by simp [Cancels]) member with rfl | ⟨stopped, _, _, _, _, rfl⟩
  · refine ⟨rfl,?_⟩
    have taken : (s.queue t).streaming = true ∧ id ∈ (s.queue t).ready := by
      cases t <;> simpa [moves, cancelMoves, stopMoves] using member
    exact taken.2
  · have allocated : ∀ {memory : Memory} {wanted size slack granted : Nat},
        .abort t id ∉ allocateMoves t memory wanted size slack granted := by
      intro memory wanted size slack granted here
      obtain ⟨_, _, _, made⟩ := allocateBelongs here
      cases made
    simp only [moves, stopped, cancelMoves, Bool.false_eq_true, if_false, List.nil_append, List.mem_append,
      List.mem_map, List.mem_cons, List.not_mem_nil, or_false, reduceCtorEq, and_false, exists_false,
        false_or] at member
    split at member
    · simp at member
    · exact absurd member allocated

theorem gentleMeets {s : Sys} {e : Event} (smooth : Smooth s e) (ordered : Ordered s) :
    Meets move MoveGentle s (moves s e) := by
  cases e with
  | sCtrl id val =>
    simp only [moves]
    cases set : vidiocSCtrl s.c.controls id val with
    | error _ => trivial
    | ok c => exact ⟨controlKnown ordered.control set,trivial⟩
  | prepareBuf t index att =>
    simp only [moves]
    split
    · trivial
    · split
      · trivial
      · cases made : prepareMoves s t _ att with
        | none => trivial
        | some ms => exact prepareGentle smooth made
  | qbuf t index flags att =>
    rcases qbufShape s t index flags att with none_ | ⟨id, before, _, _, made, first⟩
    · rw [none_]; trivial
    · rw [made, meetsAppend]
      refine ⟨?_,meetsMember (fun l member s' => ?_) _⟩
      · rcases first with ⟨rfl, _⟩ | ⟨prepares, _⟩
        · trivial
        · exact prepareGentle smooth prepares
      · rcases enqueueBelongs member with rfl | rfl <;> trivial
  | _ =>
    refine gentleOthers (fun l member => ⟨?_,?_,?_⟩)
    · rintro t id rfl
      obtain ⟨same, waits⟩ := abortOrigin member
      first
        | contradiction
        | (obtain rfl := Event.streamoff.inj same
           have none_ : (s.queue _).ready = [] := smooth
           simp [none_] at waits)
    · rintro t id a payload rfl
      have belongs := movesBelong member
      simp [Belongs, Cancels, Allocates] at belongs
    · rintro c rfl
      have belongs := movesBelong member
      simp [Belongs, Cancels, Allocates] at belongs

/-- In a run that is smooth the n-th frame is made from the n-th OUTPUT and the n-th CAPTURE buffer
handed to the driver, no job fails, and userspace gets the CAPTURE buffers back in that order. -/
theorem framesInOrder {clock : Nat → Nat} {params : Params} {ident : Nat} {env : OpenEnv} {s : Sys}
    {events : List Event} (opened : vpipeOpen (Kernel.boot clock params) ident env = .ok s)
    (smooth : Meets Sys.step Smooth s events) :
    ((run Sys.step s events).queue .output).handed = (run Sys.step s events).k.frames.map Frame.source ++
      ((run Sys.step s events).queue .output).ready ∧
    ((run Sys.step s events).queue .capture).handed = (run Sys.step s events).k.frames.map Frame.target ++
      ((run Sys.step s events).queue .capture).ready ∧
    ((run Sys.step s events).k.returned.map Returned.buffer).Sublist
      ((run Sys.step s events).k.frames.map Frame.target) := by
  obtain ⟨sane, output⟩ := openSane opened
  have start : Ordered s := by
    obtain ⟨src, m, _, rfl⟩ := openCases opened
    exact ⟨output,fun _ => rfl,fun _ => by simp [Mapped, Sys.queue, Queue.empty],rfl,rfl,.inl rfl,
      by simp [Sys.queue, Queue.empty],List.Sublist.refl _⟩
  have final := (runKeeps (fun s l steady allowed smooth so => orderedMove steady allowed smooth so)
    (fun s e _ so ok => meetsAnd (cleanMeets (smoothClean ok)) (gentleMeets ok so)) sane start smooth).2
  refine ⟨?_,?_,(List.sublist_append_left _ _).trans final.dequeues⟩
  · rw [← final.sources]
    exact final.fifo .output
  · rw [← final.targets]
    exact final.fifo .capture

def crossed : List Event :=
  [.sFmt .output {width := 1, height := 1},.reqbufs .output 2 .mmap 0 2,.reqbufs .capture 2 .mmap 0 2,
    .qbuf .output 1 0 none,.qbuf .output 0 0 none,.qbuf .capture 0 0 none,.qbuf .capture 1 0 none,
    .streamon .capture {},.streamon .output {},.deviceRun 0,.deviceRun 0,.dqbuf .capture,.dqbuf .output,
    .qbuf .output 1 0 none,.streamoff .capture]

theorem crossedInOrder :
    let t := run Sys.step (openedOn (Kernel.boot (fun n => n + 1) {}) 0) crossed
    (t.queue .output).handed = t.k.frames.map Frame.source ++ (t.queue .output).ready ∧
    (t.queue .capture).handed = t.k.frames.map Frame.target ++ (t.queue .capture).ready ∧
    (t.k.returned.map Returned.buffer).Sublist (t.k.frames.map Frame.target) :=
  framesInOrder (openSucceeds _ 0) (by decide)

end Vpipe.Order
