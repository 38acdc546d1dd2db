import Vpipe.Frames

/-! What becomes of the metadata entry of a processed frame. device_run leaves it in the
CAPTURE buffer, buf_finish publishes it and marks the slot empty again. `waiting` lists the
entries held by completed buffers, in completion order. -/
namespace Vpipe.Publication
open Vpipe.Lib.Word Vpipe.Lib.ByteMemory Vpipe.Lib.BufferQueue Vpipe.Lib.Transition
open Vpipe.Cv Vpipe.FrameSource Vpipe.MetaRing Vpipe.M2m Vpipe.Moves Vpipe.Discipline Vpipe.Runs
open Vpipe.Frames

def held (q : Queue VpipeBuffer) (id : Nat) : Option (Nat × MetaEntry) :=
  if (q.buf id).state = .done then some (id,(q.buf id).data.metaPending) else none

def waiting (q : Queue VpipeBuffer) : List (Nat × MetaEntry) := q.done.filterMap (held q)

structure Slots (q : Queue VpipeBuffer) : Prop where
  empty : ∀ id ∈ q.ids, (q.buf id).state ≠ .done → (q.buf id).data.metaPending.seq = 0
  numbered : ∀ id ∈ q.ids, (q.buf id).state = .done →
    (q.buf id).data.sequence = u32 (q.buf id).data.metaPending.seq

def KeepsEntry (f : VpipeBuffer → VpipeBuffer) : Prop :=
  ∀ d, (f d).metaPending = d.metaPending ∧ (f d).sequence = d.sequence

structure Quiet (q q' : Queue VpipeBuffer) : Prop where
  slots : Slots q'
  same : waiting q' = waiting q

section Queue
variable {q q' : Queue VpipeBuffer} {id : Nat}

theorem waitingMember {e : MetaEntry} : (id,e) ∈ waiting q ↔
    id ∈ q.done ∧ (q.buf id).state = .done ∧ (q.buf id).data.metaPending = e := by
  simp only [waiting, List.mem_filterMap, held]
  constructor
  · rintro ⟨other, member, made⟩
    split at made
    · simp only [Option.some.injEq, Prod.mk.injEq] at made
      obtain ⟨rfl, rfl⟩ := made
      exact ⟨member,by assumption,rfl⟩
    · contradiction
  · rintro ⟨member, state, rfl⟩
    exact ⟨id,member,by simp [state]⟩

theorem waitingSame (done : q'.done = q.done) (same : ∀ id ∈ q.done, held q' id = held q id) :
    waiting q' = waiting q := by
  rw [waiting, done]
  exact List.filterMap_congr same

theorem allocateQuiet (wf : WellFormed q) (slots : Slots q) (fresh : id ∉ q.ids) {b : Buf VpipeBuffer}
    (state : b.state = .dequeued) (empty : b.data.metaPending.seq = 0) : Quiet q (q.allocate id b) := by
  obtain ⟨empty, numbered⟩ := slots
  have done := wf.done
  refine ⟨⟨?_,?_⟩,waitingSame rfl ?_⟩ <;> simp only [Queue.allocate, held] <;> grind

theorem prepareQuiet (wf : WellFormed q) (slots : Slots q) (state : (q.buf id).state = .dequeued)
    (plane : Plane) (mapped : Bool) {f : VpipeBuffer → VpipeBuffer} (kept : KeepsEntry f) :
    Quiet q (q.prepare id plane mapped f) := by
  obtain ⟨empty, numbered⟩ := slots
  have done := wf.done
  have kept := kept (q.buf id).data
  refine ⟨⟨?_,?_⟩,waitingSame rfl ?_⟩ <;> simp only [Queue.prepare, Queue.modify, held] <;> grind

theorem enqueueQuiet (wf : WellFormed q) (slots : Slots q) (state : (q.buf id).state = .dequeued)
    {f : VpipeBuffer → VpipeBuffer} (kept : KeepsEntry f) : Quiet q (q.enqueue id f) := by
  obtain ⟨empty, numbered⟩ := slots
  have done := wf.done
  have kept := kept (q.buf id).data
  refine ⟨⟨?_,?_⟩,waitingSame rfl ?_⟩ <;> simp only [Queue.enqueue, Queue.modify, held] <;> grind

theorem handOverQuiet (wf : WellFormed q) (slots : Slots q) (state : (q.buf id).state = .queued)
    {f : VpipeBuffer → VpipeBuffer} (kept : KeepsEntry f) : Quiet q (q.handOver id f) := by
  obtain ⟨empty, numbered⟩ := slots
  have done := wf.done
  have kept := kept (q.buf id).data
  refine ⟨⟨?_,?_⟩,waitingSame rfl ?_⟩ <;> simp only [Queue.handOver, Queue.modify, held] <;> grind

theorem revertQuiet (wf : WellFormed q) (slots : Slots q) : Quiet q q.revert := by
  obtain ⟨empty, numbered⟩ := slots
  have done := wf.done
  refine ⟨⟨?_,?_⟩,waitingSame rfl ?_⟩ <;> simp only [Queue.revert, held] <;> grind

theorem waitingAppend (q : Queue VpipeBuffer) (id : Nat) (done : q'.done = q.done ++ [id])
    (same : ∀ id ∈ q.done, held q' id = held q id) :
    waiting q' = waiting q ++ (held q' id).toList := by
  rw [waiting, done, List.filterMap_append, List.filterMap_congr same]
  cases found : held q' id <;> simp [waiting, found]

theorem failQuiet (wf : WellFormed q) (slots : Slots q) : Quiet q (q.take.complete id false) := by
  obtain ⟨empty, numbered⟩ := slots
  have done := wf.done
  unfold Queue.complete
  split
  case isTrue running =>
    have running : (q.buf id).state = .active := running
    refine ⟨⟨?_,?_⟩,(waitingAppend q id rfl ?_).trans ?_⟩
    · simp only [Queue.take, Queue.modify]; grind
    · simp only [Queue.take, Queue.modify]; grind
    · simp only [held, Queue.take, Queue.modify]; grind
    · simp [held, Queue.take, Queue.modify]
  case isFalse other => exact ⟨⟨empty,numbered⟩,rfl⟩

theorem fillWaiting (wf : WellFormed q) (slots : Slots q) (running : (q.buf id).state = .active)
    {f : VpipeBuffer → VpipeBuffer} (number : ∀ d, (f d).sequence = u32 (f d).metaPending.seq) :
    Slots ((q.setData id f).take.complete id true) ∧
    waiting ((q.setData id f).take.complete id true) = waiting q ++ [(id,(f (q.buf id).data).metaPending)] := by
  obtain ⟨empty, numbered⟩ := slots
  have done := wf.done
  have active : ((q.setData id f).take.buf id).state = .active := by
    simpa [Queue.setData, Queue.modify, Queue.take] using running
  rw [Queue.complete, if_pos active]
  refine ⟨⟨?_,?_⟩,(waitingAppend q id rfl ?_).trans ?_⟩
  · simp only [Queue.setData, Queue.take, Queue.modify]; grind
  · simp only [Queue.setData, Queue.take, Queue.modify]; grind
  · simp only [held, Queue.setData, Queue.take, Queue.modify]; grind
  · simp [held, Queue.setData, Queue.take, Queue.modify]

theorem releaseSlots (slots : Slots q) (k : Kernel)
    (live : (q.buf id).state = .done → (q.buf id).prepared = true) :
    Slots (Queue.release (vpipeBufFinish .capture) (k,q) id).2 := by
  obtain ⟨empty, numbered⟩ := slots
  refine ⟨?_,?_⟩ <;> simp only [Queue.release, vpipeBufFinish] <;> grind

theorem releaseWaiting (wf : WellFormed q) (k : Kernel) :
    waiting (Queue.release (vpipeBufFinish .capture) (k,q) id).2 = (waiting q).filter (fun w => w.1 ≠ id) := by
  have others : ∀ other ∈ q.done.erase id, held (Queue.release (vpipeBufFinish .capture) (k,q) id).2 other =
      held q other := by
    intro other member
    have differ : other ≠ id := (wf.doneDistinct.mem_erase_iff.mp member).1
    simp [held, Queue.release, differ]
  have list : (Queue.release (vpipeBufFinish .capture) (k,q) id).2.done = q.done.erase id := rfl
  rw [waiting, list, List.filterMap_congr others, wf.doneDistinct.erase_eq_filter, waiting,
    List.filterMap_filter, List.filter_filterMap]
  refine List.filterMap_congr (fun other _ => ?_)
  simp only [held]
  by_cases same : other = id <;> by_cases done : (q.buf other).state = .done <;>
    simp [same, done, Option.filter] <;> grind

end Queue

def outbox (s : Sys) : List (Nat × MetaEntry) := waiting (s.queue .capture)

inductive Effect (s : Sys) (l : Move) (s' : Sys) : Prop where
  | quiet (books : SameBooks s.k s'.k) (same : outbox s' = outbox s)
  -- DQBUF returns a buffer completed in error.
  | refused (r : Returned) (error : r.error = true) (made : l = .dequeue .capture)
      (kernel : s'.k = {s.k with returned := s.k.returned ++ [r]}) (same : outbox s' = outbox s)
  -- A processed buffer is given back by a cancelled queue.
  | cancelled (id : Nat) (e : MetaEntry) (made : l = .release .capture id) (full : (id,e) ∈ outbox s)
      (kernel : s'.k = publishPending s.k id e)
      (left : outbox s' = (outbox s).filter (fun w => w.1 ≠ id))
  -- DQBUF returns a processed buffer.
  | dequeued (id : Nat) (e : MetaEntry) (rest : List (Nat × MetaEntry)) (r : Returned)
      (made : l = .dequeue .capture) (full : outbox s = (id,e) :: rest)
      (kernel : s'.k = {publishPending s.k id e with returned := s.k.returned ++ [r]})
      (result : r.error = false ∧ r.buffer = id ∧ r.sequence = u32 e.seq)
      (left : outbox s' = (outbox s).filter (fun w => w.1 ≠ id)) (next : outbox s' = rest)
  | processed (f : Frame) (cpu : Nat) (made : l = .deviceRun cpu) (frames : s'.k.frames = s.k.frames ++ [f])
      (sequence : s'.k.sequence = u64 (s.k.sequence + 1)) (number : f.entry.seq = s'.k.sequence)
      (open_ : f.entry.dqbufTimestampNs = 0) (metaDev : s'.k.metaDev = s.k.metaDev)
      (published : s'.k.published = s.k.published) (returned : s'.k.returned = s.k.returned)
      (inside : f.target ∈ (s.queue .capture).ids) (empty : ∀ e, (f.target,e) ∉ outbox s)
      (left : outbox s' = outbox s ++ [(f.target,f.entry)])

theorem captureQuiet {s : Sys} {l : Move} (base : Base s) (allowed : Allowed s l)
    (slots : Slots (s.queue .capture)) (release : ∀ id, l ≠ .release .capture id)
    (dequeue : l ≠ .dequeue .capture)
    (job : ∀ cpu, l ≠ .deviceRun cpu) : Quiet (s.queue .capture) ((move s l).queue .capture) := by
  have wf := (base.sound .capture).wf
  generalize queue : (move s l).queue .capture = q
  cases changedMove base allowed queue with
  | same => exact ⟨slots,rfl⟩
  | allocate _ => exact allocateQuiet wf slots (freshOut (base.sound .capture)) rfl rfl
  | prepare _ _ state _ => exact prepareQuiet wf slots state _ _ (fun _ => ⟨rfl,rfl⟩)
  | enqueue _ _ state _ => exact enqueueQuiet wf slots state (fun _ => ⟨rfl,rfl⟩)
  | handOver _ _ state => exact handOverQuiet wf slots state (fun _ => ⟨rfl,rfl⟩)
  | started _ => exact ⟨⟨slots.empty,slots.numbered⟩,rfl⟩
  | reverted _ _ => exact revertQuiet wf slots
  | completed made _ _ failed =>
    rcases made with ⟨_, rfl⟩ | ⟨cpu, made⟩
    · have none_ := funext (failed (.inl rfl))
      subst none_
      rw [setDataNone]
      exact failQuiet wf slots
    · exact absurd made (job cpu)
  | released made _ _ =>
    rcases made with made | made
    · exact absurd made (release _)
    · exact absurd made dequeue
  | cancelled _ back =>
    -- Every buffer is back with userspace, so none was waiting.
    have none_ : (s.queue .capture).done = [] := by
      refine List.eq_nil_iff_forall_not_mem.mpr (fun id member => ?_)
      obtain ⟨inside, state⟩ := (wf.done id).mp member
      rw [back id inside] at state
      simp at state
    refine ⟨⟨slots.empty,slots.numbered⟩,?_⟩
    simp [waiting, none_]
  | freed _ => exact ⟨⟨by simp [Queue.free],by simp [Queue.free]⟩,rfl⟩
  | reset _ _ => exact ⟨⟨slots.empty,slots.numbered⟩,rfl⟩

def Live (s : Sys) : Prop := ∀ w ∈ outbox s, w.2.seq ≠ 0

section Release
variable {s : Sys} {id : Nat} (base : Base s) (slots : Slots (s.queue .capture)) (live : Live s)
include base slots live

theorem publishesIff (inside : id ∈ (s.queue .capture).ids) :
    Publishes s .capture id ↔ ((s.queue .capture).buf id).state = .done := by
  have wf := (base.sound .capture).wf
  constructor
  · rintro ⟨_, _, full⟩
    by_contra other
    exact full (slots.empty id inside other)
  · intro done
    have member := (wf.done id).mpr ⟨inside,.inl done⟩
    exact ⟨rfl,wf.prepared id inside (by simp [done]),live _ (waitingMember.mpr ⟨member,done,rfl⟩)⟩

theorem releaseCases (inside : id ∈ (s.queue .capture).ids) :
    (((s.queue .capture).buf id).state ≠ .done ∧ (releaseOne .capture s id).k = s.k ∧
      outbox (releaseOne .capture s id) = outbox s) ∨
    ∃ e, ((s.queue .capture).buf id).state = .done ∧ ((s.queue .capture).buf id).data.metaPending = e ∧
      (id,e) ∈ outbox s ∧ (releaseOne .capture s id).k = publishPending s.k id e ∧
      outbox (releaseOne .capture s id) = (outbox s).filter (fun w => w.1 ≠ id) := by
  have wf := (base.sound .capture).wf
  have left : outbox (releaseOne .capture s id) = (outbox s).filter (fun w => w.1 ≠ id) := by
    rw [outbox, releaseOne, queueSet]
    exact releaseWaiting wf s.k
  rcases releaseKernel .capture s id with ⟨none_, kernel⟩ | ⟨some_, kernel⟩
  · rw [publishesIff base slots live inside] at none_
    refine .inl ⟨none_,kernel,left.trans (List.filter_eq_self.mpr ?_)⟩
    rintro ⟨other, e⟩ member
    obtain ⟨_, done, _⟩ := waitingMember.mp member
    exact decide_eq_true (fun same : other = id => none_ (same ▸ done))
  · have done := (publishesIff base slots live inside).mp some_
    exact .inr ⟨_,done,rfl,waitingMember.mpr ⟨(wf.done id).mpr ⟨inside,.inl done⟩,done,rfl⟩,kernel,left⟩

omit live in
theorem releaseOneSlots (inside : id ∈ (s.queue .capture).ids) :
    Slots ((releaseOne .capture s id).queue .capture) := by
  rw [releaseOne, queueSet]
  exact releaseSlots slots s.k (fun done => (base.sound .capture).wf.prepared id inside (by simp [done]))

theorem dequeueEffect (allowed : Allowed s (.dequeue .capture)) :
    Effect s (.dequeue .capture) (move s (.dequeue .capture)) ∧
      Slots ((move s (.dequeue .capture)).queue .capture) := by
  have wf := (base.sound .capture).wf
  obtain ⟨id, rest, done, made⟩ := dequeueMove allowed.1 allowed.2
  obtain ⟨inside, finished⟩ := (wf.done id).mp (by simp [done])
  rw [made]
  refine ⟨?_,releaseOneSlots base slots inside⟩
  rcases releaseCases base slots live inside with ⟨state, kernel, same⟩ |
    ⟨e, state, pending, full, kernel, left⟩
  · refine .refused _ ?_ rfl (by rw [noteReturned, kernel]) same
    simpa using finished.resolve_left state
  · have head : outbox s = (id,e) :: rest.filterMap (held (s.queue .capture)) := by
      simp [outbox, waiting, done, held, state, pending]
    have apart : id ∉ rest := (List.nodup_cons.mp (done ▸ wf.doneDistinct)).1
    refine .dequeued id e _ _ rfl head (by rw [noteReturned, kernel]; rfl) ⟨by simp [state],rfl,?_⟩
      left (left.trans ?_)
    · rw [← pending]
      exact slots.numbered id inside state
    · rw [head, List.filter_cons_of_neg (by simp)]
      refine List.filter_eq_self.mpr ?_
      intro w member
      obtain ⟨other, later, holds⟩ := List.mem_filterMap.mp member
      have name : w.1 = other := by
        simp only [held] at holds
        split at holds
        · rw [← Option.some.inj holds]
        · contradiction
      exact decide_eq_true (fun same => apart (same ▸ name ▸ later))

end Release

structure Fills (s s' : Sys) (dst : Nat) (fr : Frame) (f : VpipeBuffer → VpipeBuffer) : Prop where
  frames : s'.k.frames = s.k.frames ++ [fr]
  target : fr.target = dst
  sequence : s'.k.sequence = u64 (s.k.sequence + 1)
  number : fr.entry.seq = s'.k.sequence
  open_ : fr.entry.dqbufTimestampNs = 0
  metaDev : s'.k.metaDev = s.k.metaDev
  published : s'.k.published = s.k.published
  returned : s'.k.returned = s.k.returned
  capture : s'.queue .capture = ((s.queue .capture).setData dst f).take.complete dst true
  pending : ∀ d, (f d).metaPending = fr.entry
  numbered : ∀ d, (f d).sequence = u32 (f d).metaPending.seq

theorem jobFills {s : Sys} (cpu : Nat) (go : schedulable s = true) :
    ∃ dst rest, (s.queue .capture).ready = dst :: rest ∧
      ((move s (.deviceRun cpu)).k = s.k ∧
        (move s (.deviceRun cpu)).queue .capture = (s.queue .capture).take.complete dst false ∨
      ∃ fr f, Fills s (move s (.deviceRun cpu)) dst fr f) := by
  obtain ⟨src, dst, ⟨_, rest, _, ready⟩, failed | ⟨job, result, mem, _, made⟩⟩ := deviceRunCases s cpu go
  · refine ⟨dst,rest,ready,.inl ?_⟩
    rw [move, failed]
    exact ⟨rfl,rfl⟩
  · refine ⟨dst,rest,ready,.inr ?_⟩
    rw [move, made]
    exact ⟨_,_,rfl,rfl,rfl,rfl,rfl,rfl,rfl,rfl,congrArg (fun q => q.take.complete dst true) (queueSet _ _ _),
      fun _ => rfl,fun _ => rfl⟩

theorem jobEffect {s : Sys} {cpu : Nat} (steady : Steady s) (slots : Slots (s.queue .capture))
    (go : schedulable s = true) :
    Effect s (.deviceRun cpu) (move s (.deviceRun cpu)) ∧ Slots ((move s (.deviceRun cpu)).queue .capture) := by
  have wf := (steady.sound .capture).wf
  obtain ⟨dst, rest, ready, ⟨kernel, capture⟩ | ⟨fr, f, fills⟩⟩ := jobFills cpu go
  · have quiet : Quiet (s.queue .capture) ((s.queue .capture).take.complete dst false) := failQuiet wf slots
    rw [← capture] at quiet
    exact ⟨.quiet (by rw [kernel]; exact ⟨rfl,rfl,rfl,rfl,rfl⟩) quiet.same,quiet.slots⟩
  · obtain ⟨inside, running⟩ := steady.capture.ready dst (by simp [ready])
    obtain ⟨full, left⟩ := fillWaiting wf slots running fills.numbered
    rw [← fills.capture] at full left
    rw [fills.pending, ← fills.target] at left
    refine ⟨.processed fr cpu rfl fills.frames fills.sequence fills.number fills.open_ fills.metaDev
      fills.published fills.returned (fills.target ▸ inside) (fun e member => ?_) left,full⟩
    obtain ⟨_, done, _⟩ := waitingMember.mp member
    rw [fills.target, running] at done
    contradiction

theorem effectMove {s : Sys} {l : Move} (steady : Steady s) (allowed : Allowed s l)
    (slots : Slots (s.queue .capture)) (live : Live s) :
    Effect s l (move s l) ∧ Slots ((move s l).queue .capture) := by
  have quiet : (∀ id, l ≠ .release .capture id) → l ≠ .dequeue .capture → (∀ cpu, l ≠ .deviceRun cpu) →
      SameBooks s.k (move s l).k → Effect s l (move s l) ∧ Slots ((move s l).queue .capture) := by
    intro release dequeue job books
    have calm := captureQuiet steady.toBase allowed slots release dequeue job
    exact ⟨.quiet books calm.same,calm.slots⟩
  cases l with
  | release t id =>
    cases t with
    | output =>
      refine quiet (by simp) (by simp) (by simp) ?_
      rcases releaseKernel .output s id with ⟨_, kernel⟩ | ⟨publishes, _⟩
      · rw [move, kernel]; exact ⟨rfl,rfl,rfl,rfl,rfl⟩
      · exact absurd publishes.1 (by decide)
    | capture =>
      refine ⟨?_,releaseOneSlots steady.toBase slots allowed.1⟩
      rcases releaseCases steady.toBase slots live allowed.1 with ⟨_, kernel, same⟩ |
        ⟨e, _, _, full, kernel, left⟩
      · exact .quiet (by rw [move, kernel]; exact ⟨rfl,rfl,rfl,rfl,rfl⟩) same
      · exact .cancelled id e rfl full kernel left
  | dequeue t =>
    cases t with
    | output =>
      refine quiet (by simp) (by simp) (by simp) ?_
      obtain ⟨id, rest, _, made⟩ := dequeueMove allowed.1 allowed.2
      rw [made]
      rcases releaseKernel .output s id with ⟨_, kernel⟩ | ⟨publishes, _⟩
      · simp only [noteReturned, kernel]; exact ⟨rfl,rfl,rfl,rfl,rfl⟩
      · exact absurd publishes.1 (by decide)
    | capture => exact dequeueEffect steady.toBase slots live allowed
  | deviceRun cpu => exact jobEffect steady slots allowed
  | _ =>
    exact quiet (by simp) (by simp) (by simp) (quietKernel s (by simp) (by simp) (by simp))

def RowFor (f : Frame) (p : Publication) : Prop :=
  p.buffer = f.target ∧ p.entry = {f.entry with dqbufTimestampNs := p.entry.dqbufTimestampNs}

structure Genuine (s : Sys) : Prop where
  held : ∀ id ∈ (s.queue .capture).ids, ((s.queue .capture).buf id).data.metaPending.seq ≠ 0 →
    ∃ f ∈ s.k.frames, f.target = id ∧ f.entry = ((s.queue .capture).buf id).data.metaPending
  rows : ∀ p ∈ s.k.published, ∃ f ∈ s.k.frames, RowFor f p

def Issued (q : Queue VpipeBuffer) (p : Publication) : Prop :=
  p.buffer ∈ q.ids ∧ (q.buf p.buffer).data.metaPending.seq ≠ 0 ∧
    p.entry = {(q.buf p.buffer).data.metaPending with dqbufTimestampNs := p.entry.dqbufTimestampNs}

theorem publishedMove {s : Sys} {l : Move} (base : Base s) (allowed : Allowed s l) :
    ∀ p ∈ (move s l).k.published, p ∈ s.k.published ∨
      (p.buffer ∈ (s.queue .capture).ids ∧ ((s.queue .capture).buf p.buffer).data.metaPending.seq ≠ 0 ∧
        p.entry = {((s.queue .capture).buf p.buffer).data.metaPending with
          dqbufTimestampNs := s.k.machine.clock s.k.machine.tick}) := by
  have released : ∀ t id, id ∈ (s.queue t).ids → ∀ p ∈ (releaseOne t s id).k.published, p ∈ s.k.published ∨
      (p.buffer ∈ (s.queue .capture).ids ∧ ((s.queue .capture).buf p.buffer).data.metaPending.seq ≠ 0 ∧
        p.entry = {((s.queue .capture).buf p.buffer).data.metaPending with
          dqbufTimestampNs := s.k.machine.clock s.k.machine.tick}) := by
    intro t id inside p member
    rcases releaseKernel t s id with ⟨_, kernel⟩ | ⟨⟨rfl, _, full⟩, kernel⟩
    · exact .inl (kernel ▸ member)
    · rw [kernel, publishPending, List.mem_append, List.mem_singleton] at member
      rcases member with old | rfl
      · exact .inl old
      · exact .inr ⟨inside,full,rfl⟩
  intro p member
  cases l with
  | release t id => exact released t id allowed.1 p member
  | dequeue t =>
    obtain ⟨id, rest, done, made⟩ := dequeueMove allowed.1 allowed.2
    have inside : id ∈ (s.queue t).ids := (base.sound t).wf.doneInside (by simp [done])
    rw [made] at member
    cases t <;> exact released _ id inside p member
  | deviceRun cpu =>
    obtain ⟨_, _, _, failed | ⟨_, _, _, _, made⟩⟩ := deviceRunCases s cpu allowed
    · rw [move, failed] at member; exact .inl member
    · rw [move, made] at member; exact .inl member
  | _ =>
    rw [(quietKernel s (by simp) (by simp) (by simp)).published] at member
    exact .inl member

theorem rowsMove {s : Sys} {l : Move} (base : Base s) (allowed : Allowed s l) :
    ∀ p ∈ (move s l).k.published, p ∈ s.k.published ∨ Issued (s.queue .capture) p := by
  intro p member
  rcases publishedMove base allowed p member with old | ⟨inside, full, entry⟩
  · exact .inl old
  · exact .inr ⟨inside,full,by rw [entry]⟩

theorem pendingMove {s : Sys} {l : Move} (base : Base s) (allowed : Allowed s l)
    (job : ∀ cpu, l ≠ .deviceRun cpu) :
    ∀ id ∈ ((move s l).queue .capture).ids, (((move s l).queue .capture).buf id).data.metaPending.seq ≠ 0 →
      id ∈ (s.queue .capture).ids ∧
      (((move s l).queue .capture).buf id).data.metaPending = ((s.queue .capture).buf id).data.metaPending := by
  generalize queue : (move s l).queue .capture = q
  cases changedMove base allowed queue with
  | same => exact fun id inside _ => ⟨inside,rfl⟩
  | allocate _ => simp only [Queue.allocate, newBuffer]; grind
  | prepare _ _ _ _ => simp only [Queue.prepare, Queue.modify]; grind
  | enqueue _ _ _ _ => simp only [Queue.enqueue, Queue.modify]; grind
  | handOver _ _ _ => simp only [Queue.handOver, Queue.modify, handed]; grind
  | started _ => exact fun id inside _ => ⟨inside,rfl⟩
  | reverted _ _ => simp only [Queue.revert]; grind
  | @completed done rest f ok made _ _ same =>
    rcases made with ⟨_, rfl⟩ | ⟨cpu, made⟩
    · have none_ : f = fun d => d := funext (same (.inl rfl))
      subst none_
      rw [setDataNone]
      unfold Queue.complete
      split <;> simp only [Queue.take, Queue.modify] <;> grind
    · exact absurd made (job cpu)
  | released _ _ _ => simp only [Queue.release, vpipeBufFinish]; grind
  | cancelled _ _ => exact fun id inside _ => ⟨inside,rfl⟩
  | freed _ => simp [Queue.free]
  | reset _ _ => exact fun id inside _ => ⟨inside,rfl⟩

theorem pendingJob {s : Sys} {cpu : Nat} (go : schedulable s = true) :
    ∀ id ∈ ((move s (.deviceRun cpu)).queue .capture).ids, id ∈ (s.queue .capture).ids ∧
      ((((move s (.deviceRun cpu)).queue .capture).buf id).data.metaPending =
        ((s.queue .capture).buf id).data.metaPending ∨
      ∃ f ∈ (move s (.deviceRun cpu)).k.frames, f.target = id ∧
        f.entry = (((move s (.deviceRun cpu)).queue .capture).buf id).data.metaPending) := by
  have plain : ∀ (q : Queue VpipeBuffer) id ok other, other ∈ (q.take.complete id ok).ids →
      other ∈ q.ids ∧ ((q.take.complete id ok).buf other).data = (q.buf other).data := by
    intro q id ok other inside
    unfold Queue.complete at inside ⊢
    by_cases same : other = id
    · subst same; split at inside <;> simp_all [Queue.take, Queue.modify]
    · split at inside <;> simp_all [Queue.take, Queue.modify]
  obtain ⟨dst, rest, _, ⟨_, capture⟩ | ⟨fr, f, fills⟩⟩ := jobFills cpu go
  · rw [capture]
    intro id inside
    obtain ⟨old, data⟩ := plain (s.queue .capture) dst false id inside
    exact ⟨old,.inl (congrArg VpipeBuffer.metaPending data)⟩
  · intro id inside
    rw [fills.capture] at inside ⊢
    obtain ⟨old, data⟩ := plain ((s.queue .capture).setData dst f) dst true id inside
    refine ⟨old,?_⟩
    rw [data, fills.frames]
    by_cases same : id = dst
    · subst same
      refine .inr ⟨fr,by simp,fills.target,?_⟩
      simp only [Queue.setData, Queue.modify, Function.update_self]
      exact (fills.pending _).symm
    · exact .inl (by simp [Queue.setData, Queue.modify, same])

theorem genuineMove {s : Sys} {l : Move} (base : Base s) (allowed : Allowed s l) (genuine : Genuine s) :
    Genuine (move s l) := by
  have old : ∀ id ∈ (s.queue .capture).ids, ((s.queue .capture).buf id).data.metaPending.seq ≠ 0 →
      ∃ f ∈ (move s l).k.frames, f.target = id ∧ f.entry = ((s.queue .capture).buf id).data.metaPending := by
    intro id inside full
    obtain ⟨f, member, rest⟩ := genuine.held id inside full
    exact ⟨f,framesStay s l member,rest⟩
  refine ⟨?_,?_⟩
  · intro id inside full
    rcases jobOrNot l with ⟨cpu, rfl⟩ | job
    · obtain ⟨before, same | new⟩ := pendingJob allowed id inside
      · rw [same] at full ⊢
        exact old id before full
      · exact new
    · obtain ⟨before, same⟩ := pendingMove base allowed job id inside full
      rw [same] at full ⊢
      exact old id before full
  · intro p member
    rcases rowsMove base allowed p member with before | ⟨inside, full, entry⟩
    · obtain ⟨f, frame, row⟩ := genuine.rows p before
      exact ⟨f,framesStay s l frame,row⟩
    · obtain ⟨f, frame, target, same⟩ := old p.buffer inside full
      exact ⟨f,frame,target.symm,by rw [same]; exact entry⟩

end Vpipe.Publication
