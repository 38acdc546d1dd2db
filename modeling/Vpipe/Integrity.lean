import Vpipe.Bounds
import Vpipe.Framebuffer
import Vpipe.Gradient
import Vpipe.Publication
import Vpipe.Teardown

/-! What userspace gets with a CAPTURE buffer against what the metadata device reports of it. The
bytes of a completed MMAP buffer stay as device_run left them until the buffer is dequeued, as
long as nobody else is given that memory. -/
namespace Vpipe.Integrity
open Vpipe.Lib.Word Vpipe.Lib.ByteMemory Vpipe.Lib.BufferQueue Vpipe.Lib.Transition
open Vpipe.Cv Vpipe.FrameSource Vpipe.MetaRing Vpipe.M2m Vpipe.Moves Vpipe.Discipline Vpipe.Runs
open Vpipe.Frames Vpipe.Publication Vpipe.Bounds Vpipe.Gradient
open Vpipe.Framebuffer (fbOf)
open Vpipe.Teardown (sourceUntouched)

theorem copyElsewhere (m : Mem) (dst src : Plane) (d i : Int) (n : Nat) {block : Nat}
    (differ : block ≠ dst.block) :
    (m.copy dst d src i n).bytes block = m.bytes block :=
  loopInvariant (fun _ (t : Mem) => t.bytes block = m.bytes block) rfl (fun _ _ _ so => by
    funext j
    simp [Mem.write, Mem.touch, differ, so])

theorem cvElsewhere {job : JobDesc} {algoId threshold : Nat} {roi : Option Roi} {m m' : Mem} {result : CvResult}
    (done : vpipeCvProcess job algoId threshold roi m = .ok (result,m')) {block : Nat}
    (differ : block ≠ job.dst.block) :
    m'.bytes block = m.bytes block := by
  have copied : (vpipeCopyFrame job m).bytes block = m.bytes block :=
    loopInvariant (fun _ (t : Mem) => t.bytes block = m.bytes block) rfl
      (fun _ t _ so => (copyElsewhere t _ _ _ _ _ differ).trans so)
  unfold vpipeCvProcess at done
  simp only at done
  split at done
  · cases done
    exact copied
  · split at done
    · cases done
      refine loopInvariant (fun _ (t : Threshold) => t.mem.bytes block = m.bytes block) copied
        (fun _ t _ so => ?_)
      refine loopInvariant (fun _ (t : Threshold) => t.mem.bytes block = m.bytes block) so (fun _ u _ so => ?_)
      rw [thresholdAtMem, ← so]
      funext j
      simp [Mem.write, Mem.touch, differ]
    · contradiction

theorem rowsElsewhere (dst : Plane) (width height stride offset : Nat) (m : Mem) {block : Nat}
    (differ : block ≠ dst.block) : (gradientRows dst width height stride offset m).bytes block =
      m.bytes block :=
  loopInvariant (fun _ (t : Mem) => t.bytes block = m.bytes block) rfl (fun _ _ _ so =>
    loopInvariant (fun _ (t : Mem) => t.bytes block = m.bytes block) so (fun _ _ _ so => by
      funext j
      simp [Mem.write, differ, so]))

theorem nextFrameElsewhere (m : Machine) (src : Source) (vaddr : Option Plane) (desc : FrameDesc) {block : Nat}
    (plane : ∀ dst, vaddr = some dst → block ≠ dst.block) (fb : fbOf src ≠ some block) :
    (vpipeSourceNextFrame m src vaddr desc).machine.mem.bytes block = m.mem.bytes block := by
  have drawn : ∀ (m : Machine) desc, (nextFrameOp m src vaddr desc).machine.mem.bytes block =
      m.mem.bytes block := by
    intro m desc
    have next := nextSource m src vaddr desc
    generalize nextFrameOp m src vaddr desc = r at next
    cases next with
    | fixture _ => rfl
    | synthetic _ next =>
      cases next with
      | refused _ => rfl
      | dropped _ _ _ => rfl
      | drawn _ mapped _ => exact rowsElsewhere _ _ _ _ _ _ (plane _ mapped)
    | vcam _ next =>
      cases next with
      | refused _ => rfl
      | dropped _ _ _ => rfl
      | drawn priv mapped _ _ _ =>
        exact vcamDrawElsewhere m desc (fun same => fb (by simp [fbOf, priv, same])) (plane _ mapped)
  unfold vpipeSourceNextFrame
  simp only
  split
  · exact drawn _ _
  · split <;> exact drawn _ _

theorem fbPutMem (m : Machine) (fb : Nat) : (vcamFbPut m fb).mem = m.mem := by
  simp only [vcamFbPut]
  split <;> rfl

theorem stopMem (m : Machine) (src : Source) : (vpipeSourceStop m src).2.mem = m.mem := by
  simp only [vpipeSourceStop, stopOp, syntheticStop, vcamStop]
  split
  · rfl
  · split <;> rfl
  · split
    · exact fbPutMem _ _
    · rfl

theorem exportMem (m : Machine) (src : Source) (exported : Bool) (fd : Option Nat) :
    (vpipeSourceExportDmabuf m src exported fd).2.mem = m.mem := by
  simp only [vpipeSourceExportDmabuf, vcamExportDmabuf]
  split
  · split
    · split
      · exact fbPutMem _ _
      · split
        · exact fbPutMem _ _
        · rfl
    · rfl
  · rfl

theorem startElsewhere (m : Machine) (src : Source) (sizeimage : Nat) (env : StartEnv) {block : Nat}
    (old : block < m.next) : (vpipeSourceStart m src sizeimage env).2.2.mem.bytes block =
      m.mem.bytes block := by
  unfold vpipeSourceStart
  simp only
  split
  · rfl
  · simp only [syntheticStart]
    split <;> rfl
  · simp only [vcamStart, vcamFbAlloc]
    split
    · rfl
    split
    · rfl
    cases env.fb with
    | false => rfl
    | true =>
      cases env.vaddr with
      | false => rfl
      | true => exact Function.update_of_ne (Nat.ne_of_lt (Nat.lt_succ_of_lt old)) _ _

theorem moveBytes {s : Sys} {l : Move} (allowed : Allowed s l) {block : Nat} (old : block < s.k.machine.next)
    (stored : ∀ bytes, l ≠ .store block bytes)
    (drawn : ∀ id, l = .handOver .output id → block ≠ ((s.queue .output).buf id).plane.block ∧
      fbOf s.c.src ≠ some block)
    (job : ∀ cpu id rest, l = .deviceRun cpu → (s.queue .capture).ready = id :: rest →
      block ≠ ((s.queue .capture).buf id).plane.block) :
    (move s l).k.machine.mem.bytes block = s.k.machine.mem.bytes block := by
  cases l with
  | backend id =>
    rcases setBackendCases s id with same | ⟨_, _, src, m, created, made⟩
    · rw [move, same]
    · rw [move, made]
      obtain ⟨_, rfl, rfl⟩ := createIs created
      exact congrArg (fun m : Mem => m.bytes block) (stopMem _ _)
  | exportSrc exported fd => exact congrArg (fun m : Mem => m.bytes block) (exportMem _ _ _ _)
  | stop => exact congrArg (fun m : Mem => m.bytes block) (stopMem _ _)
  | store b bytes =>
    exact Function.update_of_ne (fun same => stored bytes (by rw [same])) _ _
  | allocate t memory size slack => exact Function.update_of_ne (Nat.ne_of_lt old) _ _
  | handOver t id =>
    cases t with
    | capture => rfl
    | output =>
      obtain ⟨plane, fb⟩ := drawn id rfl
      exact nextFrameElsewhere _ _ _ _ (fun dst mapped => vaddrPlane mapped ▸ plane) fb
  | start t env =>
    rw [move, (finishStartRest t _).1]
    cases t with
    | capture => rfl
    | output => exact startElsewhere _ _ _ _ old
  | release t id => rw [move, releaseMem]
  | dequeue t =>
    obtain ⟨id, rest, _, made⟩ := dequeueMove allowed.1 allowed.2
    rw [made]
    cases t <;> exact congrArg (fun m : Mem => m.bytes block) (releaseMem _ s id)
  | deviceRun cpu =>
    obtain ⟨src, dst, ⟨_, rest, _, ready⟩, failed | ⟨work, result, mem, processed, made⟩⟩ :=
      deviceRunCases s cpu allowed
    · rw [move, failed]
      rfl
    · rw [move, made]
      have apart : block ≠ work.dst.block := vaddrPlane processed.target ▸ job cpu dst rest rfl ready
      exact (congrFun (scanBytes mem work.dst s.c.capQ.sizeimage) block).trans
        (cvElsewhere processed.done apart)
  | _ => rfl

theorem changedPlanes {s : Sys} {l : Move} {t : QType} {q : Queue VpipeBuffer} (changed : Changed s l t q) :
    (∃ memory size slack, l = .allocate t memory size slack ∧ q = (s.queue t).allocate s.k.machine.next
      (newBuffer s.k.machine.next (s.queue t).ids.length memory size slack)) ∨
    (∃ id a payload, l = .prepare t id a payload ∧ id ∈ (s.queue t).ids ∧
      q = (s.queue t).prepare id a.plane a.mapped (fun d => {d with payload := payload})) ∨
    ((q.ids = (s.queue t).ids ∨ q.ids = []) ∧ ∀ id, (q.buf id).plane = ((s.queue t).buf id).plane ∧
      (q.buf id).memory = ((s.queue t).buf id).memory ∧ (q.buf id).index = ((s.queue t).buf id).index) := by
  cases changed with
  | same => exact .inr (.inr ⟨.inl rfl,fun _ => ⟨rfl,rfl,rfl⟩⟩)
  | allocate made => exact .inl ⟨_,_,_,made,rfl⟩
  | prepare made inside _ _ => exact .inr (.inl ⟨_,_,_,made,inside,rfl⟩)
  | enqueue _ _ _ _ =>
    refine .inr (.inr ⟨.inl rfl,fun id => ?_⟩)
    simp only [Queue.enqueue, Queue.modify, Function.update_apply]
    split <;> simp_all
  | handOver _ _ _ =>
    refine .inr (.inr ⟨.inl rfl,fun id => ?_⟩)
    simp only [Queue.handOver, Queue.modify, Function.update_apply]
    split <;> simp_all
  | started _ => exact .inr (.inr ⟨.inl rfl,fun _ => ⟨rfl,rfl,rfl⟩⟩)
  | reverted _ _ =>
    refine .inr (.inr ⟨.inl rfl,fun id => ?_⟩)
    simp only [Queue.revert]
    split <;> exact ⟨rfl,rfl,rfl⟩
  | completed _ _ _ _ =>
    refine .inr (.inr ⟨.inl (completeIds _ _ _),fun id => ?_⟩)
    unfold Queue.complete
    split <;> simp only [Queue.take, Queue.setData, Queue.modify, Function.update_apply] <;>
      split <;> simp_all
  | released _ _ _ =>
    refine .inr (.inr ⟨.inl rfl,fun id => ?_⟩)
    simp only [Queue.release, Function.update_apply]
    split <;> simp_all
  | cancelled _ _ => exact .inr (.inr ⟨.inl rfl,fun _ => ⟨rfl,rfl,rfl⟩⟩)
  | freed _ => exact .inr (.inr ⟨.inr rfl,fun _ => ⟨rfl,rfl,rfl⟩⟩)
  | reset _ _ => exact .inr (.inr ⟨.inl rfl,fun _ => ⟨rfl,rfl,rfl⟩⟩)

theorem nextFrameFb (m : Machine) (src : Source) (vaddr : Option Plane) (desc : FrameDesc) :
    fbOf (vpipeSourceNextFrame m src vaddr desc).src = fbOf src := by
  have kept : ∀ (m : Machine) desc, fbOf (nextFrameOp m src vaddr desc).src = fbOf src := by
    intro m desc
    have next := nextSource m src vaddr desc
    generalize nextFrameOp m src vaddr desc = r at next
    cases next with
    | fixture _ => rfl
    | synthetic _ next =>
      cases next with
      | refused _ => rfl
      | dropped priv _ _ => simp [fbOf, priv]
      | drawn priv _ _ => simp [fbOf, priv]
    | vcam _ next =>
      cases next with
      | refused _ => rfl
      | dropped priv _ _ => simp [fbOf, priv]
      | drawn priv _ _ _ _ => simp [fbOf, priv]
  unfold vpipeSourceNextFrame
  simp only
  split
  · exact kept _ _
  · exact kept _ _

theorem startFb (m : Machine) (src : Source) (sizeimage : Nat) (env : StartEnv) {fb : Nat}
    (holds : fbOf (vpipeSourceStart m src sizeimage env).2.1 = some fb) :
    fbOf src = some fb ∨ m.next ≤ fb ∧ fb < (vpipeSourceStart m src sizeimage env).2.2.next := by
  unfold vpipeSourceStart at holds ⊢
  split at holds
  · exact .inl holds
  · unfold syntheticStart at holds
    split at holds
    · exact .inl holds
    · simp [fbOf] at holds
  · have starts := Framebuffer.startCases (m.note (.call .start src.ident)) src sizeimage env
    simp only
    generalize vcamStart (m.note (.call .start src.ident)) src sizeimage env = r at starts holds
    obtain ⟨ret, src', m'⟩ := r
    cases starts with
    | failed _ _ _ => exact .inl holds
    | started _ above below _ =>
      obtain rfl : _ = fb := by simpa [fbOf] using holds
      exact .inr ⟨above,below⟩

theorem stopFb (m : Machine) (src : Source) {fb : Nat} (holds : fbOf (vpipeSourceStop m src).1 = some fb) :
    fbOf src = some fb := by
  simp only [vpipeSourceStop, stopOp, syntheticStop, vcamStop] at holds
  split at holds
  · exact holds
  · split at holds <;> simp [fbOf] at holds
  · split at holds
    · simp [fbOf] at holds
    · exact holds

theorem fbMove {s : Sys} {l : Move} (allowed : Allowed s l) {fb : Nat}
    (holds : fbOf (move s l).c.src = some fb) :
    fbOf s.c.src = some fb ∨
      (∃ env, l = .start .output env) ∧ s.k.machine.next ≤ fb ∧ fb < (move s l).k.machine.next := by
  cases l with
  | backend id =>
    rcases setBackendCases s id with same | ⟨_, _, src, m, created, made⟩
    · rw [move, same] at holds
      exact .inl holds
    · rw [move, made] at holds
      obtain ⟨_, rfl, rfl⟩ := createIs created
      simp [fbOf] at holds
  | exportSrc exported fd => exact .inl holds
  | stop => exact .inl (stopFb _ _ holds)
  | handOver t id =>
    cases t with
    | capture => exact .inl holds
    | output => exact .inl ((nextFrameFb _ _ _ _).symm.trans holds)
  | start t env =>
    rw [move, (finishStartRest t _).2] at holds
    cases t with
    | capture => exact .inl holds
    | output =>
      rcases startFb _ _ _ _ holds with before | fresh
      · exact .inl before
      · refine .inr ⟨⟨env,rfl⟩,fresh.1,?_⟩
        rw [(startOutput s env).1]
        exact fresh.2
  | _ => exact .inl ((sourceUntouched allowed rfl).2 ▸ holds)

structure Apart (s : Sys) : Prop where
  own : ∀ id ∈ (s.queue .capture).ids, ((s.queue .capture).buf id).memory = .mmap →
    ((s.queue .capture).buf id).plane.block = id
  capture : ∀ id ∈ (s.queue .capture).ids, ∀ other ∈ (s.queue .capture).ids, other ≠ id →
    ((s.queue .capture).buf id).plane.block ≠ other
  output : ∀ id ∈ (s.queue .output).ids, ((s.queue .output).buf id).plane.block ∉ (s.queue .capture).ids
  known : ∀ t, ∀ id ∈ (s.queue t).ids, ((s.queue t).buf id).plane.block < s.k.machine.next
  fb : ∀ fb, fbOf s.c.src = some fb → fb ∉ (s.queue .capture).ids ∧ fb < s.k.machine.next
  indexed : ∀ i id, (s.queue .capture).ids[i]? = some id → ((s.queue .capture).buf id).index = i

/- Userspace stores to no completed CAPTURE buffer, and the DMA-BUFs it gives are other memory than
the CAPTURE buffers'. -/
def MovePolite (s : Sys) : Move → Prop
  | .store block _ => block ∉ (s.queue .capture).done
  | .prepare t id a _ => ((s.queue t).buf id).memory = .mmap ∧ a.plane = ((s.queue t).buf id).plane ∨
      a.plane.block < s.k.machine.next ∧ a.plane.block ∉ (s.queue .capture).ids ∧
        ((s.queue t).buf id).memory = .dmabuf
  | _ => True

structure Still (q q' : Queue VpipeBuffer) : Prop where
  ids : q'.ids = q.ids ∨ q'.ids = []
  plane : ∀ id, (q'.buf id).plane = (q.buf id).plane
  memory : ∀ id, (q'.buf id).memory = (q.buf id).memory
  index : ∀ id, (q'.buf id).index = (q.buf id).index

theorem stillInside {q q' : Queue VpipeBuffer} (still : Still q q') {id : Nat} (inside : id ∈ q'.ids) :
    id ∈ q.ids := by
  rcases still.ids with same | none_
  · exact same ▸ inside
  · simp [none_] at inside

theorem apartStill {s s' : Sys} (apart : Apart s) (still : ∀ t, Still (s.queue t) (s'.queue t))
    (later : s.k.machine.next ≤ s'.k.machine.next)
    (fb : ∀ fb, fbOf s'.c.src = some fb → fb ∉ (s.queue .capture).ids ∧ fb < s'.k.machine.next) : Apart s' where
  own id inside mmap := by
    rw [(still .capture).plane]
    exact apart.own id (stillInside (still _) inside) ((still .capture).memory id ▸ mmap)
  capture id inside other there differ := by
    rw [(still .capture).plane]
    exact apart.capture id (stillInside (still _) inside) other (stillInside (still _) there) differ
  output id inside := by
    rw [(still .output).plane]
    exact fun there => apart.output id (stillInside (still _) inside) (stillInside (still _) there)
  known t id inside := by
    rw [(still t).plane]
    exact Nat.lt_of_lt_of_le (apart.known t id (stillInside (still t) inside)) later
  fb x holds := ⟨fun there => (fb x holds).1 (stillInside (still _) there),(fb x holds).2⟩
  indexed i id found := by
    rw [(still .capture).index]
    rcases (still .capture).ids with same | none_
    · exact apart.indexed i id (same ▸ found)
    · simp [none_] at found

theorem apartAllocate {s : Sys} (base : Base s) (apart : Apart s) (t : QType) (memory : Memory)
    (size slack : Nat) :
    Apart (move s (.allocate t memory size slack)) := by
  obtain ⟨own, capture, output, known, fb, indexed⟩ := apart
  have fresh : ∀ t, ∀ id ∈ (s.queue t).ids, id < s.k.machine.next := fun t id inside =>
    (base.sound t).fresh id (.inl inside)
  have block : (newBuffer s.k.machine.next (s.queue t).ids.length memory size slack).plane.block =
      s.k.machine.next := by
    cases memory <;> rfl
  have next : (move s (.allocate t memory size slack)).k.machine.next = s.k.machine.next + 1 := rfl
  have src : (move s (.allocate t memory size slack)).c.src = s.c.src := rfl
  have same : (move s (.allocate t memory size slack)).queue t = (s.queue t).allocate s.k.machine.next
      (newBuffer s.k.machine.next (s.queue t).ids.length memory size slack) := queueSet _ _ _
  cases t with
  | output =>
    have other : (move s (.allocate .output memory size slack)).queue .capture = s.queue .capture :=
      queueSetOther _ (by decide) _
    constructor
    case own =>
      rw [other]
      exact own
    case capture =>
      rw [other]
      exact capture
    case output =>
      rw [other, same]
      simp only [Queue.allocate, List.mem_append, List.mem_singleton, Function.update_apply]
      grind
    case known =>
      intro t
      cases t with
      | output =>
        rw [same, next]
        simp only [Queue.allocate, List.mem_append, List.mem_singleton, Function.update_apply]
        grind
      | capture =>
        rw [other, next]
        grind
    case fb =>
      rw [other, next, src]
      grind
    case indexed =>
      rw [other]
      exact indexed
  | capture =>
    have other : (move s (.allocate .capture memory size slack)).queue .output = s.queue .output :=
      queueSetOther _ (by decide) _
    constructor
    case own =>
      rw [same]
      simp only [Queue.allocate, List.mem_append, List.mem_singleton, Function.update_apply]
      grind
    case capture =>
      rw [same]
      simp only [Queue.allocate, List.mem_append, List.mem_singleton, Function.update_apply]
      grind
    case output =>
      rw [other, same]
      simp only [Queue.allocate, List.mem_append, List.mem_singleton]
      grind
    case known =>
      intro t
      cases t with
      | output =>
        rw [other, next]
        grind
      | capture =>
        rw [same, next]
        simp only [Queue.allocate, List.mem_append, List.mem_singleton, Function.update_apply]
        grind
    case fb =>
      rw [same, next, src]
      simp only [Queue.allocate, List.mem_append, List.mem_singleton]
      grind
    case indexed =>
      rw [same]
      intro i id found
      simp only [Queue.allocate, List.getElem?_append] at found
      simp only [Queue.allocate, Function.update_apply]
      split at found
      · have inside := List.mem_of_getElem? found
        rw [if_neg (Nat.ne_of_lt (fresh .capture id inside))]
        exact indexed i id found
      · obtain ⟨place, rfl⟩ : i - (s.queue .capture).ids.length = 0 ∧ s.k.machine.next = id := by
          simpa [List.getElem?_singleton] using found
        rw [if_pos rfl]
        simp only [newBuffer]
        omega

theorem apartPrepare {s : Sys} (apart : Apart s) {t : QType} {id payload : Nat} {a : Attachment}
    (polite : MovePolite s (.prepare t id a payload)) (inside : id ∈ (s.queue t).ids) :
    Apart (move s (.prepare t id a payload)) := by
  obtain ⟨own, capture, output, known, fb, indexed⟩ := apart
  have next : (move s (.prepare t id a payload)).k.machine.next = s.k.machine.next := rfl
  have src : (move s (.prepare t id a payload)).c.src = s.c.src := rfl
  have same : (move s (.prepare t id a payload)).queue t = (s.queue t).prepare id a.plane a.mapped
      (fun d => {d with payload := payload}) := queueSet _ _ _
  cases t with
  | output =>
    have other : (move s (.prepare .output id a payload)).queue .capture = s.queue .capture :=
      queueSetOther _ (by decide) _
    constructor
    case own =>
      rw [other]
      exact own
    case capture =>
      rw [other]
      exact capture
    case output =>
      rw [other, same]
      simp only [Queue.prepare, Queue.modify, Function.update_apply]
      grind [MovePolite]
    case known =>
      intro t
      cases t with
      | output =>
        rw [same, next]
        simp only [Queue.prepare, Queue.modify, Function.update_apply]
        grind [MovePolite]
      | capture =>
        rw [other, next]
        exact known .capture
    case fb =>
      rw [other, next, src]
      exact fb
    case indexed =>
      rw [other]
      exact indexed
  | capture =>
    have other : (move s (.prepare .capture id a payload)).queue .output = s.queue .output :=
      queueSetOther _ (by decide) _
    constructor
    case own =>
      rw [same]
      simp only [Queue.prepare, Queue.modify, Function.update_apply]
      grind [MovePolite]
    case capture =>
      rw [same]
      simp only [Queue.prepare, Queue.modify, Function.update_apply]
      grind [MovePolite]
    case output =>
      rw [other, same]
      exact output
    case known =>
      intro t
      cases t with
      | output =>
        rw [other, next]
        exact known .output
      | capture =>
        rw [same, next]
        simp only [Queue.prepare, Queue.modify, Function.update_apply]
        grind [MovePolite]
    case fb =>
      rw [same, next, src]
      exact fb
    case indexed =>
      rw [same]
      simp only [Queue.prepare, Queue.modify, Function.update_apply]
      grind

theorem apartMove {s : Sys} {l : Move} (base : Base s) (allowed : Allowed s l) (polite : MovePolite s l)
    (apart : Apart s) : Apart (move s l) := by
  by_cases allocates : ∃ t memory size slack, l = .allocate t memory size slack
  · obtain ⟨t, memory, size, slack, rfl⟩ := allocates
    exact apartAllocate base apart t memory size slack
  by_cases prepares : ∃ t id a payload, l = .prepare t id a payload
  · obtain ⟨t, id, a, payload, rfl⟩ := prepares
    exact apartPrepare apart polite allowed.1
  have still : ∀ t, Still (s.queue t) ((move s l).queue t) := by
    intro t
    rcases changedPlanes (changedMove base allowed (t := t) rfl) with
      ⟨memory, size, slack, made, _⟩ | ⟨id, a, payload, made, _⟩ | ⟨ids, kept⟩
    · exact absurd ⟨t,memory,size,slack,made⟩ allocates
    · exact absurd ⟨t,id,a,payload,made⟩ prepares
    · exact ⟨ids,fun id => (kept id).1,fun id => (kept id).2.1,fun id => (kept id).2.2⟩
  have later := (moveGrows s allowed).next
  refine apartStill apart still later (fun fb holds => ?_)
  rcases fbMove allowed holds with before | ⟨_, above, below⟩
  · exact ⟨(apart.fb fb before).1,Nat.lt_of_lt_of_le (apart.fb fb before).2 later⟩
  · refine ⟨fun there => ?_,below⟩
    have := (base.sound .capture).fresh fb (.inl there)
    omega

structure Told (b : Buf VpipeBuffer) (m : Mem) : Prop where
  index : b.data.metaPending.bufferIndex = b.index
  numbered : b.data.metaPending.seq ≠ 0
  length : b.data.metaPending.bytesused = b.data.payload
  stamp : b.data.metaPending.captureDoneNs = b.data.timestamp
  crc : b.memory = .mmap → b.data.metaPending.crc32 = Crc.frameCrc (m.slice b.plane b.data.payload)

theorem doneMove {s : Sys} {l : Move} (steady : Steady s) (allowed : Allowed s l) {id : Nat}
    (member : id ∈ ((move s l).queue .capture).done)
    (state : (((move s l).queue .capture).buf id).state = .done) :
    (id ∈ (s.queue .capture).done ∧ ((move s l).queue .capture).buf id = (s.queue .capture).buf id) ∨
      ∃ cpu rest, l = .deviceRun cpu ∧ (s.queue .capture).ready = id :: rest := by
  have wf := (steady.sound .capture).wf
  have idle : ∀ {other}, other ∈ (s.queue .capture).done → ((s.queue .capture).buf other).state ≠ .dequeued ∧
      ((s.queue .capture).buf other).state ≠ .queued := by
    intro other inside
    have := ((wf.done other).mp inside).2
    constructor <;> intro same <;> simp [same] at this
  generalize queue : (move s l).queue .capture = q at member state
  cases changedMove steady.toBase allowed queue with
  | allocate _ =>
    have old : id ≠ s.k.machine.next := Nat.ne_of_lt
      ((steady.sound .capture).fresh id (.inl (wf.doneInside member)))
    exact .inl ⟨member,by simp [Queue.allocate, old]⟩
  | @prepare other _ _ _ _ back _ =>
    have differ : id ≠ other := fun same => (idle member).1 (same ▸ back)
    exact .inl ⟨member,by simp [Queue.prepare, Queue.modify, differ]⟩
  | @enqueue other _ _ _ back _ =>
    have differ : id ≠ other := fun same => (idle member).1 (same ▸ back)
    exact .inl ⟨member,by simp [Queue.enqueue, Queue.modify, differ]⟩
  | @handOver other _ _ waits =>
    have differ : id ≠ other := fun same => (idle member).2 (same ▸ waits)
    exact .inl ⟨member,by simp [Queue.handOver, Queue.modify, differ]⟩
  | reverted _ _ =>
    have still : ((s.queue .capture).buf id).state ≠ .active := (wf.doneIdle member).1
    exact .inl ⟨member,by simp [Queue.revert, still]⟩
  | @completed other rest f ok made head _ same =>
    by_cases here : id = other
    · subst here
      rcases made with ⟨_, rfl⟩ | ⟨cpu, rfl⟩
      · have running := (steady.capture.ready id (by simp [head])).2
        simp [Queue.complete, Queue.take, Queue.setData, Queue.modify, running] at state
      · exact .inr ⟨cpu,rest,rfl,head⟩
    · refine .inl ⟨?_,?_⟩
      · unfold Queue.complete at member
        split at member <;> simpa [Queue.take, Queue.setData, Queue.modify, here] using member
      · unfold Queue.complete
        split <;> simp [Queue.take, Queue.setData, Queue.modify, here]
  | @released other _ _ _ =>
    have differ : id ≠ other := (wf.doneDistinct.mem_erase_iff.mp member).1
    exact .inl ⟨List.mem_of_mem_erase member,by simp [Queue.release, differ]⟩
  | cancelled _ _ => simp at member
  | _ => exact .inl ⟨member,rfl⟩

theorem toldNew {s : Sys} {cpu id : Nat} {rest : List Nat} (steady : Steady s) (go : schedulable s = true)
    (ready : (s.queue .capture).ready = id :: rest) (counted : s.k.sequence = s.k.frames.length)
    (small : (move s (.deviceRun cpu)).k.frames.length < 2^64)
    (state : (((move s (.deviceRun cpu)).queue .capture).buf id).state = .done) :
    Told (((move s (.deviceRun cpu)).queue .capture).buf id) (move s (.deviceRun cpu)).k.machine.mem := by
  have running := (steady.capture.ready id (by simp [ready])).2
  obtain ⟨src, dst, ⟨_, _, _, ready'⟩, failed | ⟨job, result, mem, processed, made⟩⟩ := deviceRunCases s cpu go
  · obtain rfl : id = dst := by
      rw [ready] at ready'
      exact (List.cons.inj ready').1
    have error : (((move s (.deviceRun cpu)).queue .capture).buf id).state = .error := by
      rw [move, failed]
      simp [Sys.completeHeads, Sys.queue, Queue.complete, Queue.take, Queue.modify, show
        ((s.c.queues .capture).buf id).state = .active from running]
    simp [error] at state
  · obtain rfl : id = dst := by
      rw [ready] at ready'
      exact (List.cons.inj ready').1
    have filled : ∃ f : VpipeBuffer → VpipeBuffer,
        (move s (.deviceRun cpu)).queue .capture = ((s.queue .capture).setData id f).take.complete id true ∧
        ∀ d, (f d).metaPending.bufferIndex = ((s.queue .capture).buf id).index ∧
          (f d).metaPending.seq = u64 (s.k.sequence + 1) ∧ (f d).metaPending.bytesused = (f d).payload ∧
          (f d).metaPending.captureDoneNs = (f d).timestamp ∧
          (f d).metaPending.crc32 = Crc.frameCrc (mem.slice job.dst (f d).payload) := by
      rw [move, made]
      exact ⟨_,congrArg (fun q => q.take.complete id true) (queueSet _ _ _),fun _ => ⟨rfl,rfl,rfl,rfl,rfl⟩⟩
    obtain ⟨f, queue, fields⟩ := filled
    obtain ⟨index, number, length, stamp, crc⟩ := fields ((s.queue .capture).buf id).data
    have bytes : (move s (.deviceRun cpu)).k.machine.mem.bytes = mem.bytes := by
      rw [move, made]
      exact scanBytes mem job.dst s.c.capQ.sizeimage
    have buf : ((move s (.deviceRun cpu)).queue .capture).buf id =
        {(s.queue .capture).buf id with state := .done, data := f ((s.queue .capture).buf id).data} := by
      rw [queue]
      simp [Queue.complete, Queue.take, Queue.setData, Queue.modify, running]
    rw [buf]
    refine ⟨index,?_,length,stamp,fun _ => ?_⟩
    · have frames : (move s (.deviceRun cpu)).k.frames.length = s.k.frames.length + 1 := by
        rw [move, made]
        exact List.length_append
      rw [number, u64Of (by omega)]
      exact Nat.succ_ne_zero _
    · rw [crc, vaddrPlane processed.target]
      exact congrArg _ (sliceSame (by rw [bytes]) _).symm

structure Reporting (s : Sys) : Prop where
  apart : Apart s
  slots : Slots (s.queue .capture)
  counted : s.k.sequence = s.k.frames.length
  told : ∀ id ∈ (s.queue .capture).done, ((s.queue .capture).buf id).state = .done →
    Told ((s.queue .capture).buf id) s.k.machine.mem

theorem toldSame {b : Buf VpipeBuffer} {m m' : Mem} (told : Told b m)
    (same : b.memory = .mmap → m'.bytes b.plane.block = m.bytes b.plane.block) : Told b m' :=
  ⟨told.index,told.numbered,told.length,told.stamp,fun mmap => (told.crc mmap).trans
    (congrArg _ (sliceSame (same mmap) _).symm)⟩

theorem reportingLive {s : Sys} (reporting : Reporting s) : Live s := by
  rintro ⟨id, e⟩ member
  obtain ⟨done, state, rfl⟩ := waitingMember.mp member
  exact (reporting.told id done state).numbered

theorem countedMove {s s' : Sys} {l : Move} (effect : Effect s l s') (small : s'.k.frames.length < 2^64)
    (counted : s.k.sequence = s.k.frames.length) : s'.k.sequence = s'.k.frames.length := by
  cases effect with
  | quiet books _ => rw [books.sequence, books.frames, counted]
  | refused _ _ _ kernel _ => rw [kernel]; exact counted
  | cancelled _ _ _ _ kernel _ => rw [kernel]; exact counted
  | dequeued _ _ _ _ _ _ kernel _ _ _ => rw [kernel]; exact counted
  | processed f cpu _ frames sequence _ _ _ _ _ _ _ _ =>
    rw [frames, List.length_append, List.length_singleton] at small ⊢
    rw [sequence, counted]
    exact u64Of small

theorem reportingMove {s : Sys} {l : Move} (steady : Steady s) (allowed : Allowed s l) (polite : MovePolite s l)
    (small : (move s l).k.frames.length < 2^64) (reporting : Reporting s) : Reporting (move s l) := by
  obtain ⟨effect, slots⟩ := effectMove steady allowed reporting.slots (reportingLive reporting)
  obtain ⟨apart, _, counted, told⟩ := reporting
  have wf := (steady.sound .capture).wf
  refine ⟨apartMove steady.toBase allowed polite apart,slots,countedMove effect small counted,
    fun id member state => ?_⟩
  rcases doneMove steady allowed member state with ⟨before, same⟩ | ⟨cpu, rest, rfl, ready⟩
  · rw [same] at state ⊢
    have inside := wf.doneInside before
    refine toldSame (told id before state) (fun mmap => ?_)
    have block := apart.own id inside mmap
    rw [block]
    refine moveBytes allowed (block ▸ apart.known .capture id inside) ?_ ?_ ?_
    · rintro bytes rfl
      exact polite before
    · rintro other rfl
      have there := ((steady.sound .output).wf.queued other).mp allowed.1
      exact ⟨fun same => apart.output other there.1 (same ▸ inside),fun fb => (apart.fb id fb).1 inside⟩
    · rintro cpu dst rest rfl ready
      obtain ⟨there, running⟩ := steady.capture.ready dst (by simp [ready])
      have differ : id ≠ dst := fun here => by
        rw [here, running] at state
        contradiction
      exact (apart.capture dst there id inside differ).symm
  · exact toldNew steady allowed ready counted small state

def Polite (s : Sys) : Event → Prop
  | .store block _ => block ∉ (s.queue .capture).done
  | .prepareBuf _ _ (some a) => a.plane.block < s.k.machine.next ∧ a.plane.block ∉ (s.queue .capture).ids
  | .qbuf _ _ _ (some a) => a.plane.block < s.k.machine.next ∧ a.plane.block ∉ (s.queue .capture).ids
  | _ => True

instance (s : Sys) (e : Event) : Decidable (Polite s e) := match e with
  | .store _ _ | .prepareBuf _ _ (some _) | .qbuf _ _ _ (some _) => by dsimp only [Polite]; infer_instance
  | .prepareBuf _ _ none | .qbuf _ _ _ none | .streamon _ _ | .sFmt _ _ | .sCtrl _ _ | .setBackend _ _
  | .exportSrcDmabuf _ _ | .reqbufs _ _ _ _ _ | .createBufs _ _ _ _ _ _ | .dqbuf _
  | .streamoff _ | .deviceRun _ | .setParams _ => isTrue trivial

theorem preparePolite {s : Sys} {t : QType} {id : Nat} {att : Option Attachment} {ms : List Move}
    (named : ∀ a, att = some a → a.plane.block < s.k.machine.next ∧ a.plane.block ∉ (s.queue .capture).ids)
    (made : prepareMoves s t id att = some ms) : Meets move MovePolite s ms := by
  obtain ⟨a, payload, rfl, ⟨mmap, rfl⟩ | ⟨dmabuf, rfl⟩⟩ := prepareAttaches made
  · exact ⟨.inl ⟨mmap,rfl⟩,trivial⟩
  · obtain ⟨below, outside⟩ := named a rfl
    exact ⟨.inr ⟨below,outside,dmabuf⟩,trivial⟩

theorem politeMeets {s : Sys} {e : Event} (polite : Polite s e) : Meets move MovePolite s (moves s e) := by
  have others : (∀ block bytes, e ≠ .store block bytes) → (∀ t index att, e ≠ .prepareBuf t index att) →
      (∀ t index flags att, e ≠ .qbuf t index flags att) → Meets move MovePolite s (moves s e) := by
    intro store prepare qbuf
    refine meetsMember (fun l member s' => ?_) s
    have belongs := movesBelong member
    cases e with
    | store block bytes => exact absurd rfl (store block bytes)
    | prepareBuf t index att => exact absurd rfl (prepare t index att)
    | qbuf t index flags att => exact absurd rfl (qbuf t index flags att)
    | _ =>
      cases l with
      | store _ _ => simp [Belongs, Cancels, Allocates] at belongs
      | prepare _ _ _ _ => simp [Belongs, Cancels, Allocates] at belongs
      | _ => trivial
  cases e with
  | store block bytes => exact ⟨polite,trivial⟩
  | prepareBuf t index att =>
    simp only [moves]
    split
    · trivial
    · split
      · trivial
      · cases made : prepareMoves s t _ att with
        | none => trivial
        | some ms => exact preparePolite (by rintro a rfl; exact polite) made
  | qbuf t index flags att =>
    rcases qbufShape s t index flags att with none_ | ⟨id, before, _, _, made, first⟩
    · rw [none_]; trivial
    · rw [made, meetsAppend]
      refine ⟨?_,meetsMember (fun l member s' => ?_) _⟩
      · rcases first with ⟨rfl, _⟩ | ⟨prepares, _⟩
        · trivial
        · exact preparePolite (by rintro a rfl; exact polite) prepares
      · rcases enqueueBelongs member with rfl | rfl <;> trivial
  | _ => exact others (by simp) (by simp) (by simp)

theorem reportingRun {clock : Nat → Nat} {params : Params} {ident : Nat} {env : OpenEnv} {s : Sys}
    {events : List Event} (opened : vpipeOpen (Kernel.boot clock params) ident env = .ok s)
    (polite : Meets Sys.step Polite s events)
    (small : (run Sys.step s events).k.frames.length < 2^64) :
    Sane (run Sys.step s events) ∧ Reporting (run Sys.step s events) := by
  have sane := (openSane opened).1
  have start : Reporting s := by
    obtain ⟨src, m, created, rfl⟩ := openCases opened
    have none_ : fbOf src = none := by
      cases created
      rfl
    refine ⟨⟨?_,?_,?_,?_,?_,?_⟩,⟨?_,?_⟩,rfl,?_⟩ <;> simp [Sys.queue, Queue.empty, none_]
  have keeps : ∀ s l, Steady s → Allowed s l → MovePolite s l ∧ (move s l).k.frames.length < 2^64 →
      Reporting s → Reporting (move s l) :=
    fun s l steady allowed ok so => reportingMove steady allowed ok.1 ok.2 so
  have lifts : ∀ s e, Sane s → Reporting s → Polite s e ∧ (s.step e).k.frames.length < 2^64 →
      Meets move (fun s l => MovePolite s l ∧ (move s l).k.frames.length < 2^64) s (moves s e) := by
    intro s e _ _ ok
    have short := ok.2
    rw [stepMoves] at short
    exact meetsAnd (politeMeets ok.1) (meetsBounded framesGrow short)
  exact runKeeps keeps lifts sane start (meetsAnd polite (meetsBounded framesGrowStep small))

structure Reports (e : MetaEntry) (r : Returned) : Prop where
  sequence : r.sequence = u32 e.seq
  index : e.bufferIndex = r.index
  length : e.bytesused = r.bytesused
  stamp : e.captureDoneNs = r.timestamp

theorem dqbufReleases {s s' : Sys} {t : QType} (dequeued : vidiocDqbuf s t = .ok s') :
    ∃ id rest, (s.queue t).done = id :: rest ∧ s' = {releaseOne t s id with
      k := noteReturned t id ((s.queue t).buf id) (releaseOne t s id).k} := by
  unfold vidiocDqbuf at dequeued
  simp only at dequeued
  split at dequeued
  · contradiction
  · split at dequeued
    · contradiction
    · rename_i id rest done
      cases dequeued
      exact ⟨id,rest,done,rfl⟩

end Vpipe.Integrity
