import Mathlib.Data.List.Nodup
import Mathlib.Data.List.Perm.Basic
import Mathlib.Logic.Function.Basic
import Vpipe.Lib.ByteMemory
import Vpipe.Lib.Transition

/-! A streaming buffer queue as videobuf2 and the mem2mem framework keep it, over any
driver-private data. A buffer is named by an identity that is never used again; its
index is its place in the queue. `queued` is the framework's list of buffers given up by
userspace, `ready` the driver's FIFO of buffers handed to it, `done` the completed ones
waiting to be dequeued. `handed` and `completed` record the driver calls ever made. -/
namespace Vpipe.Lib.BufferQueue
open ByteMemory Transition

inductive BufState where
  | dequeued | queued | active | done | error
  deriving DecidableEq, Repr

inductive Memory where
  | mmap | dmabuf
  deriving DecidableEq, Repr

structure Buf (β : Type) where
  index : Nat
  memory : Memory
  minLength : Nat
  plane : Plane
  mapped : Bool
  state : BufState
  prepared : Bool
  data : β

structure Queue (β : Type) where
  streaming : Bool
  ids : List Nat
  buf : Nat → Buf β
  queued : List Nat
  ready : List Nat
  done : List Nat
  handed : List Nat
  completed : List Nat

variable {β κ : Type}

def Queue.empty (blank : Buf β) : Queue β := ⟨false,[],fun _ => blank,[],[],[],[],[]⟩

def Queue.modify (q : Queue β) (id : Nat) (f : Buf β → Buf β) : Queue β :=
  {q with buf := Function.update q.buf id (f (q.buf id))}

def Queue.allocate (q : Queue β) (id : Nat) (b : Buf β) : Queue β :=
  {q with ids := q.ids ++ [id], buf := Function.update q.buf id b}

def Queue.prepare (q : Queue β) (id : Nat) (plane : Plane) (mapped : Bool) (f : β → β) : Queue β :=
  q.modify id (fun b => {b with plane := plane, mapped := mapped, prepared := true, data := f b.data})

def Queue.enqueue (q : Queue β) (id : Nat) (f : β → β) : Queue β :=
  {q.modify id (fun b => {b with state := .queued, data := f b.data}) with queued := q.queued ++ [id]}

def Queue.handOver (q : Queue β) (id : Nat) (f : β → β) : Queue β :=
  {q.modify id (fun b => {b with state := .active, data := f b.data}) with
    ready := q.ready ++ [id], handed := q.handed ++ [id]}

def Queue.setData (q : Queue β) (id : Nat) (f : β → β) : Queue β :=
  q.modify id (fun b => {b with data := f b.data})

def Queue.take (q : Queue β) : Queue β := {q with ready := q.ready.tail}

/- vb2_buffer_done, which ignores a buffer that is not active -/
def Queue.complete (q : Queue β) (id : Nat) (ok : Bool) : Queue β :=
  if (q.buf id).state = .active then
    {q.modify id (fun b => {b with state := if ok then .done else .error}) with
      done := q.done ++ [id], completed := q.completed ++ [id]}
  else {q with completed := q.completed ++ [id]}

def Queue.drain (q : Queue β) : Queue β := run (fun q id => q.take.complete id false) q q.ready

def Queue.revert (q : Queue β) : Queue β :=
  {q with buf := fun id =>
    if (q.buf id).state = .active then {q.buf id with state := .queued} else q.buf id}

def Queue.release (finish : κ → Nat → β → κ × β) (r : κ × Queue β) (id : Nat) : κ × Queue β :=
  let b := r.2.buf id
  let f := if b.prepared then finish r.1 id b.data else (r.1,b.data)
  (f.1,{r.2 with
    buf := Function.update r.2.buf id {b with state := .dequeued, prepared := false, data := f.2}
    queued := r.2.queued.erase id
    done := r.2.done.erase id})

/- __vb2_queue_cancel after stop_streaming: every buffer, in index order. -/
def Queue.cancel (finish : κ → Nat → β → κ × β) (k : κ) (q : Queue β) : κ × Queue β :=
  let r := run (Queue.release finish) (k,q) q.ids
  (r.1,{r.2 with streaming := false, queued := [], done := []})

def Queue.free (q : Queue β) : Queue β := {q with ids := []}

def Queue.resetReady (q : Queue β) : Queue β := {q with ready := []}

structure WellFormed (q : Queue β) : Prop where
  distinct : q.ids.Nodup
  queuedDistinct : q.queued.Nodup
  doneDistinct : q.done.Nodup
  queued : ∀ id, id ∈ q.queued ↔ id ∈ q.ids ∧ (q.buf id).state ≠ .dequeued
  done : ∀ id, id ∈ q.done ↔ id ∈ q.ids ∧ ((q.buf id).state = .done ∨ (q.buf id).state = .error)
  active : ∀ id, (q.buf id).state = .active → id ∈ q.ids ∧ id ∈ q.ready
  prepared : ∀ id ∈ q.ids, (q.buf id).state ≠ .dequeued → (q.buf id).prepared = true

structure Exact (q : Queue β) : Prop where
  distinct : q.ready.Nodup
  ready : ∀ id ∈ q.ready, id ∈ q.ids ∧ (q.buf id).state = .active
  balance : q.handed.Perm (q.completed ++ q.ready)

section Operations
variable {q : Queue β} {id : Nat}

theorem WellFormed.doneInside (wf : WellFormed q) (member : id ∈ q.done) : id ∈ q.ids :=
  ((wf.done id).mp member).1

theorem WellFormed.doneIdle (wf : WellFormed q) (member : id ∈ q.done) :
    (q.buf id).state ≠ .active ∧ (q.buf id).state ≠ .dequeued := by
  rcases ((wf.done id).mp member).2 with state | state <;> simp [state]

theorem allocateWellFormed (wf : WellFormed q) {b : Buf β} (fresh : id ∉ q.ids)
    (state : b.state = .dequeued) : WellFormed (q.allocate id b) := by
  obtain ⟨distinct, queuedDistinct, doneDistinct, queued, done, active, prepared⟩ := wf
  constructor <;> simp only [Queue.allocate] <;> grind

theorem allocateExact (exact_ : Exact q) {b : Buf β} (fresh : id ∉ q.ids) : Exact (q.allocate id b) := by
  obtain ⟨distinct, ready, balance⟩ := exact_
  constructor <;> simp only [Queue.allocate] <;> grind

theorem prepareWellFormed (wf : WellFormed q) (plane : Plane) (mapped : Bool) (f : β → β) :
    WellFormed (q.prepare id plane mapped f) := by
  obtain ⟨distinct, queuedDistinct, doneDistinct, queued, done, active, prepared⟩ := wf
  constructor <;> simp only [Queue.prepare, Queue.modify] <;> grind

theorem prepareExact (exact_ : Exact q) (plane : Plane) (mapped : Bool) (f : β → β) :
    Exact (q.prepare id plane mapped f) := by
  obtain ⟨distinct, ready, balance⟩ := exact_
  constructor <;> simp only [Queue.prepare, Queue.modify] <;> grind

theorem enqueueWellFormed (wf : WellFormed q) (f : β → β) (member : id ∈ q.ids)
    (state : (q.buf id).state = .dequeued) (ready : (q.buf id).prepared = true) :
    WellFormed (q.enqueue id f) := by
  obtain ⟨distinct, queuedDistinct, doneDistinct, queued, done, active, prepared⟩ := wf
  constructor <;> simp only [Queue.enqueue, Queue.modify] <;> grind

theorem enqueueExact (exact_ : Exact q) (f : β → β) (state : (q.buf id).state = .dequeued) :
    Exact (q.enqueue id f) := by
  obtain ⟨distinct, ready, balance⟩ := exact_
  constructor <;> simp only [Queue.enqueue, Queue.modify] <;> grind

theorem handOverWellFormed (wf : WellFormed q) (f : β → β) (member : id ∈ q.queued)
    (pending : id ∉ q.done) : WellFormed (q.handOver id f) := by
  obtain ⟨distinct, queuedDistinct, doneDistinct, queued, done, active, prepared⟩ := wf
  constructor <;> simp only [Queue.handOver, Queue.modify] <;> grind

theorem handOverExact (exact_ : Exact q) (f : β → β) (member : id ∈ q.ids)
    (state : (q.buf id).state ≠ .active) : Exact (q.handOver id f) := by
  obtain ⟨distinct, ready, balance⟩ := exact_
  constructor <;> simp only [Queue.handOver, Queue.modify]
  · grind
  · grind
  · rw [← List.append_assoc]
    exact balance.append_right [id]

theorem setDataNone (q : Queue β) (id : Nat) : q.setData id (fun d => d) = q := by
  simp [Queue.setData, Queue.modify]

theorem setDataWellFormed (wf : WellFormed q) (f : β → β) : WellFormed (q.setData id f) := by
  obtain ⟨distinct, queuedDistinct, doneDistinct, queued, done, active, prepared⟩ := wf
  constructor <;> simp only [Queue.setData, Queue.modify] <;> grind

theorem setDataExact (exact_ : Exact q) (f : β → β) : Exact (q.setData id f) := by
  obtain ⟨distinct, ready, balance⟩ := exact_
  constructor <;> simp only [Queue.setData, Queue.modify] <;> grind

theorem completeWellFormed (wf : WellFormed q) {rest : List Nat} (head : q.ready = id :: rest)
    (ok : Bool) : WellFormed (q.take.complete id ok) := by
  obtain ⟨distinct, queuedDistinct, doneDistinct, queued, done, active, prepared⟩ := wf
  unfold Queue.complete
  split
  case isTrue running =>
    have running : (q.buf id).state = .active := running
    constructor <;> simp only [Queue.take, Queue.modify] <;> cases ok <;> grind
  case isFalse other =>
    have other : (q.buf id).state ≠ .active := other
    constructor <;> simp only [Queue.take] <;> grind

theorem completeExact (exact_ : Exact q) {rest : List Nat} (head : q.ready = id :: rest) (ok : Bool) :
    Exact (q.take.complete id ok) := by
  obtain ⟨distinct, ready, balance⟩ := exact_
  have running : (q.take.buf id).state = .active := (ready id (by simp [head])).2
  rw [Queue.complete, if_pos running]
  constructor <;> simp only [Queue.take, Queue.modify, head, List.tail_cons]
  · grind
  · grind
  · rw [List.append_assoc, List.singleton_append, ← head]
    exact balance

theorem completeReady {rest : List Nat} (head : q.ready = id :: rest) (ok : Bool) :
    (q.take.complete id ok).ready = rest := by
  unfold Queue.complete
  split <;> simp [Queue.take, Queue.modify, head]

theorem drainRule (inv : Queue β → Prop)
    (each : ∀ q id rest, q.ready = id :: rest → inv q → inv (q.take.complete id false))
    (start : inv q) : inv q.drain ∧ q.drain.ready = [] := by
  suffices all : ∀ ids (q : Queue β), q.ready = ids → inv q →
      inv (run (fun q id => q.take.complete id false) q ids) ∧
      (run (fun q id => q.take.complete id false) q ids).ready = [] from all q.ready q rfl start
  intro ids
  induction ids with
  | nil => exact fun q none so => ⟨so,none⟩
  | cons id rest ih =>
    intro q head so
    exact ih _ (completeReady head false) (each q id rest head so)

theorem drainIds (q : Queue β) : q.drain.ids = q.ids := by
  have each : ∀ (q' : Queue β) id rest, q'.ready = id :: rest → q'.ids = q.ids →
      (q'.take.complete id false).ids = q.ids := by
    intro q' id rest _ same
    unfold Queue.complete
    split <;> exact same
  exact (drainRule (fun q' => q'.ids = q.ids) each rfl).1

theorem revertWellFormed (wf : WellFormed q) : WellFormed q.revert := by
  obtain ⟨distinct, queuedDistinct, doneDistinct, queued, done, active, prepared⟩ := wf
  constructor <;> simp only [Queue.revert] <;> grind

theorem releaseWellFormed {finish : κ → Nat → β → κ × β} {k : κ} (wf : WellFormed q) :
    WellFormed (Queue.release finish (k,q) id).2 := by
  obtain ⟨distinct, queuedDistinct, doneDistinct, queued, done, active, prepared⟩ := wf
  constructor <;> simp only [Queue.release] <;> grind

theorem releaseExact {finish : κ → Nat → β → κ × β} {k : κ} (exact_ : Exact q) (idle : id ∉ q.ready) :
    Exact (Queue.release finish (k,q) id).2 := by
  obtain ⟨distinct, ready, balance⟩ := exact_
  constructor <;> simp only [Queue.release] <;> grind

end Operations

section Back
variable {q : Queue β}

theorem clearWellFormed (wf : WellFormed q) (back : ∀ id ∈ q.ids, (q.buf id).state = .dequeued) :
    WellFormed {q with streaming := false, queued := [], done := []} := by
  obtain ⟨distinct, queuedDistinct, doneDistinct, queued, done, active, prepared⟩ := wf
  constructor <;> simp only <;> grind

theorem freeWellFormed (wf : WellFormed q) (back : ∀ id ∈ q.ids, (q.buf id).state = .dequeued) :
    WellFormed q.free := by
  obtain ⟨distinct, queuedDistinct, doneDistinct, queued, done, active, prepared⟩ := wf
  constructor <;> simp only [Queue.free] <;> grind

theorem resetReadyWellFormed (wf : WellFormed q) (back : ∀ id ∈ q.ids, (q.buf id).state = .dequeued) :
    WellFormed q.resetReady := by
  obtain ⟨distinct, queuedDistinct, doneDistinct, queued, done, active, prepared⟩ := wf
  constructor <;> simp only [Queue.resetReady] <;> grind

theorem readyEmpty (exact_ : Exact q) (back : ∀ id ∈ q.ids, (q.buf id).state ≠ .active) : q.ready = [] := by
  by_contra some_
  obtain ⟨id, rest, head⟩ := List.exists_cons_of_ne_nil some_
  obtain ⟨inside, active⟩ := exact_.ready id (by simp [head])
  exact back id inside active

theorem freeExact (exact_ : Exact q) (empty : q.ready = []) : Exact q.free :=
  ⟨exact_.distinct,by simp [Queue.free, empty],exact_.balance⟩

theorem resetReadyExact (exact_ : Exact q) (empty : q.ready = []) : Exact q.resetReady :=
  ⟨List.nodup_nil,by simp [Queue.resetReady],by simpa [Queue.resetReady, empty] using exact_.balance⟩

end Back

structure Rewritten (q q' : Queue β) (id : Nat) (b : Buf β) (ready done : List Nat) : Prop where
  ids : q'.ids = q.ids
  streaming : q'.streaming = q.streaming
  buf : q'.buf = Function.update q.buf id b
  ready : q'.ready = ready
  done : q'.done = done

theorem rewrittenOther {q q' : Queue β} {id other : Nat} {b : Buf β} {ready done : List Nat}
    (rewritten : Rewritten q q' id b ready done) (differ : other ≠ id) : q'.buf other = q.buf other := by
  rw [rewritten.buf]
  exact Function.update_of_ne differ _ _

theorem rewrittenSelf {q q' : Queue β} {id : Nat} {b : Buf β} {ready done : List Nat}
    (rewritten : Rewritten q q' id b ready done) : q'.buf id = b := by
  rw [rewritten.buf]
  exact Function.update_self _ _ _

section Rewritten
variable (q : Queue β) (id : Nat)

theorem submitRewrites (plane : Plane) (mapped : Bool) (f g h : β → β) :
    Rewritten q (((q.prepare id plane mapped f).enqueue id g).handOver id h) id
      {q.buf id with
        plane := plane, mapped := mapped, prepared := true, state := .active
        data := h (g (f (q.buf id).data))} (q.ready ++ [id]) q.done := by
  constructor <;> simp [Queue.prepare, Queue.enqueue, Queue.handOver, Queue.modify]

theorem enqueueRewrites (plane : Plane) (mapped : Bool) (f g : β → β) :
    Rewritten q ((q.prepare id plane mapped f).enqueue id g) id
      {q.buf id with
        plane := plane, mapped := mapped, prepared := true, state := .queued
        data := g (f (q.buf id).data)} q.ready q.done := by
  constructor <;> simp [Queue.prepare, Queue.enqueue, Queue.modify]

theorem handOverRewrites (f : β → β) :
    Rewritten q (q.handOver id f) id {q.buf id with state := .active, data := f (q.buf id).data}
      (q.ready ++ [id]) q.done := by
  constructor <;> simp [Queue.handOver, Queue.modify]

theorem completeRewrites (active : (q.buf id).state = .active) (f : β → β) :
    Rewritten q ((q.setData id f).take.complete id true) id
      {q.buf id with state := .done, data := f (q.buf id).data} q.ready.tail (q.done ++ [id]) := by
  have still : ((q.setData id f).take.buf id).state = .active := by
    simpa [Queue.setData, Queue.take, Queue.modify] using active
  rw [Queue.complete, if_pos still]
  constructor <;> simp [Queue.setData, Queue.take, Queue.modify]

theorem releaseRewrites (finish : κ → Nat → β → κ × β) (k : κ) (prepared : (q.buf id).prepared = true) :
    Rewritten q (Queue.release finish (k,q) id).2 id
      {q.buf id with state := .dequeued, prepared := false, data := (finish k id (q.buf id).data).2} q.ready
      (q.done.erase id) := by
  constructor <;> simp [Queue.release, prepared]

end Rewritten

end Vpipe.Lib.BufferQueue
