import Vpipe.M2m

/-! Every ioctl and job of the device as a sequence of small moves, each one queue operation
or one call of the source. What holds over runs is proved move by move. -/
namespace Vpipe.Moves
open Vpipe.Lib.Word Vpipe.Lib.ByteMemory Vpipe.Lib.BufferQueue Vpipe.Lib.Transition
open Vpipe.Cv Vpipe.FrameSource Vpipe.MetaRing Vpipe.M2m

inductive Move where
  | format (d : QData)
  | controls (c : Controls)
  | backend (id : Nat)
  | exportSrc (exported : Bool) (fd : Option Nat)
  | stop
  | store (block : Nat) (bytes : List UInt8)
  | params (p : Params)
  | allocate (t : QType) (memory : Memory) (size slack : Nat)
  | prepare (t : QType) (id : Nat) (a : Attachment) (payload : Nat)
  | enqueue (t : QType) (id flags : Nat)
  | handOver (t : QType) (id : Nat)
  | start (t : QType) (env : StartEnv)
  | abort (t : QType) (id : Nat)
  | release (t : QType) (id : Nat)
  | cancelled (t : QType)
  | free (t : QType)
  | resetReady (t : QType)
  | dequeue (t : QType)
  | deviceRun (cpu : Nat)

def finishStart (t : QType) : Option Errno × Sys → Sys
  | (none,s) => s.setQueue t {s.queue t with streaming := true}
  | (some _,s) => s.setQueue t (s.queue t).revert

def releaseOne (t : QType) (s : Sys) (id : Nat) : Sys :=
  let r := Queue.release (vpipeBufFinish t) (s.k,s.queue t) id
  ({s with k := r.1} : Sys).setQueue t r.2

def move (s : Sys) : Move → Sys
  | .format d => {s with c := {s.c with outQ := d, capQ := d}}
  | .controls c => {s with c := {s.c with controls := c}}
  | .backend id => settle s (vpipeSetBackend s id true)
  | .exportSrc exported fd => (vpipeExportSrcDmabuf s exported fd).2
  | .stop =>
    let r := vpipeSourceStop s.k.machine s.c.src
    {k := {s.k with machine := r.2}, c := {s.c with src := r.1}}
  | .store block bytes => s.step (.store block bytes)
  | .params p => s.step (.setParams p)
  | .allocate t memory size slack => s.allocate memory size slack t
  | .prepare t id a payload =>
    s.setQueue t ((s.queue t).prepare id a.plane a.mapped (fun d => {d with payload := payload}))
  | .enqueue t id flags => s.setQueue t ((s.queue t).enqueue id
    (fun d => {d with flags := flags, qbufControls := s.c.controls}))
  | .handOver t id => vpipeBufQueue t s id
  | .start t env => finishStart t (vpipeStartStreaming s t env)
  | .abort t id => s.setQueue t ((s.queue t).take.complete id false)
  | .release t id => releaseOne t s id
  | .cancelled t => s.setQueue t {s.queue t with streaming := false, queued := [], done := []}
  | .free t => s.setQueue t (s.queue t).free
  | .resetReady t => s.setQueue t (s.queue t).resetReady
  | .dequeue t => settle s (vidiocDqbuf s t)
  | .deviceRun cpu => vpipeDeviceRun s cpu

def stopMoves : QType → List Move
  | .output => [.stop]
  | .capture => []

def cancelMoves (s : Sys) (t : QType) : List Move :=
  (if (s.queue t).streaming then stopMoves t ++ (s.queue t).ready.map (.abort t) else []) ++
    (s.queue t).ids.map (.release t) ++ [.cancelled t]

def allocateMoves (t : QType) (memory : Memory) (wanted size slack granted : Nat) : List Move :=
  if min wanted granted < 2 then [] else List.replicate (min wanted granted) (.allocate t memory size slack)

def atLeastTwo (n : Nat) : Nat := if n < 2 then 2 else n

def prepareMoves (s : Sys) (t : QType) (id : Nat) (att : Option Attachment) : Option (List Move) :=
  match attach ((s.queue t).buf id) att with
  | .error _ => none
  | .ok a => match vpipeBufPrepare (s.c.qData t) a.plane with
    | .error _ => none
    | .ok payload => some [.prepare t id a payload]

def enqueueMoves (s : Sys) (t : QType) (id flags : Nat) : List Move :=
  .enqueue t id flags :: if (s.queue t).streaming then [.handOver t id] else []

def moves (s : Sys) : Event → List Move
  | .sFmt t pix => match vpipeSFmt s.c t pix with
    | .ok (_,c) => [.format c.outQ]
    | .error _ => []
  | .sCtrl id val => match vidiocSCtrl s.c.controls id val with
    | .ok controls => [.controls controls]
    | .error _ => []
  | .setBackend id allocated => if allocated then [.backend id] else []
  | .exportSrcDmabuf exported fd => [.exportSrc exported fd]
  | .reqbufs t count memory slack granted =>
    if (s.queue t).streaming then []
    else cancelMoves s t ++ .free t :: (if count = 0 then []
      else allocateMoves t memory (atLeastTwo count) (s.c.qData t).sizeimage slack granted)
  | .createBufs t count memory size slack granted =>
    if count = 0 ∨ size < (s.c.qData t).sizeimage then []
    else allocateMoves t memory (atLeastTwo count) size slack granted
  | .prepareBuf t index att => match (s.queue t).ids[index]? with
    | none => []
    | some id =>
      if ((s.queue t).buf id).state ≠ .dequeued ∨ ((s.queue t).buf id).prepared = true then []
      else (prepareMoves s t id att).getD []
  | .qbuf t index flags att => match (s.queue t).ids[index]? with
    | none => []
    | some id =>
      if ((s.queue t).buf id).state ≠ .dequeued then []
      else if ((s.queue t).buf id).prepared then enqueueMoves s t id flags
      else match prepareMoves s t id att with
        | none => []
        | some first => first ++ enqueueMoves s t id flags
  | .dqbuf t => if (s.queue t).streaming ∧ (s.queue t).done ≠ [] then [.dequeue t] else []
  | .streamon t env =>
    if (s.queue t).streaming ∨ (s.queue t).ids = [] then []
    else (s.queue t).queued.map (.handOver t) ++ [.start t env]
  | .streamoff t => cancelMoves s t ++ [.resetReady t]
  | .deviceRun cpu => if schedulable s then [.deviceRun cpu] else []
  | .store block bytes => [.store block bytes]
  | .setParams p => [.params p]

@[simp] theorem queueSet (s : Sys) (t : QType) (q : Queue VpipeBuffer) : (s.setQueue t q).queue t = q := by
  simp [Sys.setQueue, Sys.queue]

theorem queueSetOther (s : Sys) {t t' : QType} (differ : t' ≠ t) (q : Queue VpipeBuffer) :
    (s.setQueue t q).queue t' = s.queue t' := by
  simp [Sys.setQueue, Sys.queue, differ]

@[simp] theorem setSet (s : Sys) (t : QType) (q q' : Queue VpipeBuffer) :
    (s.setQueue t q).setQueue t q' = s.setQueue t q' := by
  simp [Sys.setQueue]

@[simp] theorem setSame (s : Sys) (t : QType) : s.setQueue t (s.queue t) = s := by
  simp [Sys.setQueue, Sys.queue]

theorem drainMoves (s : Sys) (t : QType) :
    run move s ((s.queue t).ready.map (.abort t)) = vpipeReturnAllBuffers s t := by
  suffices all : ∀ ids (s : Sys), run move s (ids.map (.abort t)) =
      s.setQueue t (run (fun q id => q.take.complete id false) (s.queue t) ids) from all _ s
  intro ids
  induction ids with
  | nil => intro s; simp
  | cons id rest ih => intro s; simp [ih, move]

theorem stopStreamingMoves (s : Sys) (t : QType) :
    run move s (stopMoves t ++ (s.queue t).ready.map (.abort t)) = vpipeStopStreaming s t := by
  cases t with
  | capture => exact drainMoves s .capture
  | output => exact drainMoves (move s .stop) .output

theorem releaseMoves (s : Sys) (t : QType) (ids : List Nat) :
    let r := run (Queue.release (vpipeBufFinish t)) (s.k,s.queue t) ids
    run move s (ids.map (.release t)) = ({s with k := r.1} : Sys).setQueue t r.2 := by
  induction ids generalizing s with
  | nil => simp [Sys.queue, Sys.setQueue]
  | cons id rest ih =>
    have next := ih (releaseOne t s id)
    simp only [releaseOne, queueSet] at next
    simp only [List.map_cons, runCons, move, releaseOne]
    exact next.trans (by simp [Sys.setQueue])

theorem stopStreamingIds (s : Sys) (t : QType) : ((vpipeStopStreaming s t).queue t).ids = (s.queue t).ids := by
  cases t with
  | capture => simp [vpipeStopStreaming, vpipeReturnAllBuffers, drainIds]
  | output => exact (congrArg Queue.ids (queueSet _ _ _)).trans (drainIds (s.queue .output))

theorem cancelledMoves (s : Sys) (t : QType) : run move s (cancelMoves s t) = s.cancel t := by
  unfold cancelMoves Sys.cancel
  simp only
  split
  case isTrue streaming =>
    rw [runAppend, runAppend, stopStreamingMoves, ← stopStreamingIds s t, releaseMoves]
    simp [move, Queue.cancel, stopStreamingIds]
  case isFalse stopped =>
    rw [List.nil_append, runAppend, releaseMoves]
    simp [move, Queue.cancel]

theorem allocatedMoves (s : Sys) (t : QType) (memory : Memory) (wanted size slack granted : Nat) :
    run move s (allocateMoves t memory wanted size slack granted) =
      (s.allocateAll t wanted memory size slack granted).2 := by
  unfold allocateMoves Sys.allocateAll
  simp only
  split
  · rfl
  · generalize min wanted granted = count
    simp only
    clear * -
    induction count with
    | zero => rfl
    | succ n ih => rw [List.replicate_succ', runAppend, ih]; rfl

theorem preparedMoves (s : Sys) (t : QType) (id : Nat) (att : Option Attachment) :
    (prepareMoves s t id att = none ∧ ∃ e, s.bufPrepare t id att = .error e) ∨
    ∃ ms, prepareMoves s t id att = some ms ∧ s.bufPrepare t id att = .ok (run move s ms) := by
  unfold prepareMoves Sys.bufPrepare
  cases attach ((s.queue t).buf id) att with
  | error e => exact .inl ⟨rfl,e,rfl⟩
  | ok a =>
    simp only [bind, Except.bind]
    cases vpipeBufPrepare (s.c.qData t) a.plane with
    | error e => exact .inl ⟨rfl,e,rfl⟩
    | ok payload => exact .inr ⟨_,rfl,rfl⟩

theorem enqueuedMoves (s s' : Sys) (t : QType) (id flags : Nat)
    (same : (s'.queue t).streaming = (s.queue t).streaming) :
    run move s' (enqueueMoves s t id flags) = s'.enqueue t id flags := by
  have kept : ∀ f, ((s'.queue t).enqueue id f).streaming = (s.queue t).streaming := fun _ => same
  unfold enqueueMoves Sys.enqueue
  simp only [queueSet, kept]
  split <;> rfl

theorem prepareIs {s : Sys} {t : QType} {id : Nat} {att : Option Attachment} {ms : List Move}
    (made : prepareMoves s t id att = some ms) : ∃ a, (s.c.qData t).sizeimage ≤ a.plane.size ∧
      ms = [.prepare t id a (s.c.qData t).sizeimage] := by
  unfold prepareMoves at made
  split at made
  · contradiction
  · rename_i a _
    unfold vpipeBufPrepare at made
    by_cases small : a.plane.size < (s.c.qData t).sizeimage
    · simp [small] at made
    · simp only [small, if_false, Option.some.injEq] at made
      exact ⟨a,Nat.not_lt.mp small,made.symm⟩

theorem prepareStreaming {s : Sys} {t : QType} {id : Nat} {att : Option Attachment} {ms : List Move}
    (made : prepareMoves s t id att = some ms) :
    ((run move s ms).queue t).streaming = (s.queue t).streaming := by
  obtain ⟨a, _, rfl⟩ := prepareIs made
  simp [move, Queue.prepare, Queue.modify]

theorem prepareAttaches {s : Sys} {t : QType} {id : Nat} {att : Option Attachment} {ms : List Move}
    (made : prepareMoves s t id att = some ms) : ∃ a payload, ms = [.prepare t id a payload] ∧
      (((s.queue t).buf id).memory = .mmap ∧ a = ⟨((s.queue t).buf id).plane,((s.queue t).buf id).mapped⟩ ∨
        ((s.queue t).buf id).memory = .dmabuf ∧ att = some a) := by
  unfold prepareMoves at made
  split at made
  · contradiction
  · rename_i a attached
    split at made
    · contradiction
    · rename_i payload _
      refine ⟨a,payload,(Option.some.inj made).symm,?_⟩
      unfold attach at attached
      split at attached
      · rename_i mmap
        exact .inl ⟨mmap,(Except.ok.inj attached).symm⟩
      · contradiction
      · rename_i given dmabuf
        split at attached
        · contradiction
        · exact .inr ⟨dmabuf,congrArg some (Except.ok.inj attached)⟩

theorem qbufMoves (s : Sys) (t : QType) (index flags : Nat) (att : Option Attachment) :
    s.step (.qbuf t index flags att) = run move s (moves s (.qbuf t index flags att)) := by
  simp only [Sys.step, moves, vidiocQbuf]
  cases (s.queue t).ids[index]? with
  | none => rfl
  | some id =>
    simp only
    split
    · rfl
    · split
      · exact (enqueuedMoves s s t id flags rfl).symm
      · rcases preparedMoves s t id att with ⟨none_, e, failed⟩ | ⟨ms, some_, made⟩
        · rw [none_, failed]; rfl
        · rw [some_, made, runAppend, enqueuedMoves s _ t id flags (prepareStreaming some_)]; rfl

theorem cancelQData (s : Sys) (t t' : QType) : (s.cancel t).c.qData t' = s.c.qData t' := by
  unfold Sys.cancel
  simp only
  split
  · cases t <;> cases t' <;> rfl
  · cases t' <;> rfl

theorem reqbufsMoves (s : Sys) (t : QType) (count : Nat) (memory : Memory) (slack granted : Nat) :
    s.step (.reqbufs t count memory slack granted) =
      run move s (moves s (.reqbufs t count memory slack granted)) := by
  simp only [Sys.step, moves, vidiocReqbufs]
  split
  · rfl
  · have data : ((s.cancel t).setQueue t ((s.cancel t).queue t).free).c.qData t = s.c.qData t :=
      cancelQData s t t
    rw [runAppend, cancelledMoves, runCons]
    simp only [vpipeQueueSetup, data]
    split
    · rfl
    · exact (allocatedMoves _ _ _ _ _ _ _).symm

theorem sFmtResult (c : Ctx) (t : QType) (pix : PixFormat) :
    vpipeSFmt c t pix = if c.busy t then .error .ebusy else
      .ok (vpipeTryFmt pix,{c with outQ := qDataOf (vpipeTryFmt pix), capQ := qDataOf (vpipeTryFmt pix)}) := by
  unfold vpipeSFmt
  cases t <;> rfl

theorem stepMoves (s : Sys) (e : Event) : s.step e = run move s (moves s e) := by
  cases e with
  | sFmt t pix =>
    simp only [Sys.step, moves, sFmtResult]
    cases s.c.busy t <;> rfl
  | sCtrl id val =>
    simp only [Sys.step, moves]
    cases vidiocSCtrl s.c.controls id val <;> rfl
  | setBackend id allocated =>
    cases allocated with
    | true => rfl
    | false =>
      simp only [Sys.step, moves, vpipeSetBackend, vpipeSourceCreate]
      split
      · rfl
      · cases Backend.ofId id <;> rfl
  | exportSrcDmabuf exported fd => rfl
  | reqbufs t count memory slack granted => exact reqbufsMoves s t count memory slack granted
  | createBufs t count memory size slack granted =>
    simp only [Sys.step, moves, vidiocCreateBufs, vpipeQueueSetup]
    by_cases none_ : count = 0
    · simp [none_]
    · by_cases small : size < (s.c.qData t).sizeimage
      · simp [none_, small]
      · simp only [none_, small, if_false, or_self]
        exact (allocatedMoves _ _ _ _ _ _ _).symm
  | prepareBuf t index att =>
    simp only [Sys.step, moves, vidiocPrepareBuf]
    cases (s.queue t).ids[index]? with
    | none => rfl
    | some id =>
      simp only
      split
      · rfl
      · rcases preparedMoves s t id att with ⟨none_, e, failed⟩ | ⟨ms, some_, made⟩
        · rw [none_, failed]; rfl
        · rw [some_, made]; rfl
  | qbuf t index flags att => exact qbufMoves s t index flags att
  | dqbuf t =>
    simp only [Sys.step, moves]
    split
    · rfl
    · rename_i idle
      simp only [vidiocDqbuf]
      cases stream : (s.queue t).streaming with
      | false => rfl
      | true =>
        have empty : (s.queue t).done = [] := by
          by_contra some_
          exact idle ⟨stream,some_⟩
        rw [empty]
        rfl
  | streamon t env =>
    simp only [Sys.step, moves, vidiocStreamon]
    by_cases stream : (s.queue t).streaming = true
    · simp [stream]
    · by_cases none_ : (s.queue t).ids = []
      · simp [stream, none_]
      · have handed : run move s ((s.queue t).queued.map (.handOver t)) =
            run (vpipeBufQueue t) s (s.queue t).queued := List.foldl_map
        simp only [stream, none_, List.isEmpty_iff, or_self, if_false, Bool.false_eq_true, runAppend, handed]
        simp only [runCons, runNil, move, finishStart]
        split <;> simp_all
  | streamoff t => simp only [moves, runAppend, cancelledMoves]; rfl
  | deviceRun cpu =>
    simp only [Sys.step, moves]
    split
    · rfl
    · rename_i idle
      exact if_neg idle
  | store block bytes => rfl
  | setParams p => rfl

def sourceDropped (s : Sys) : Sys :=
  let r := vpipeSourceDestroy s.k.machine s.c.src
  {k := {s.k with machine := r.2}, c := {s.c with src := r.1}}

def drop (s : Sys) (t : QType) : Sys := (s.cancel t).setQueue t ((s.cancel t).queue t).free

theorem releaseDrops (s : Sys) : vpipeRelease s = drop (drop (sourceDropped s) .capture) .output := rfl

theorem droppedMoves (s : Sys) (t : QType) : run move s (cancelMoves s t ++ [.free t]) = drop s t := by
  rw [runAppend, cancelledMoves]
  rfl

def Cancels (t : QType) (l : Move) : Prop :=
  (t = .output ∧ l = .stop) ∨ (∃ id, l = .abort t id) ∨ (∃ id, l = .release t id) ∨ l = .cancelled t

def Allocates (t : QType) (l : Move) : Prop := ∃ memory size slack, l = .allocate t memory size slack

def Belongs (l : Move) : Event → Prop
  | .sFmt _ _ => ∃ d, l = .format d
  | .sCtrl _ _ => ∃ c, l = .controls c
  | .setBackend id _ => l = .backend id
  | .exportSrcDmabuf exported fd => l = .exportSrc exported fd
  | .reqbufs t _ _ _ _ => Cancels t l ∨ l = .free t ∨ Allocates t l
  | .createBufs t _ _ _ _ _ => Allocates t l
  | .prepareBuf t _ _ => ∃ id a payload, l = .prepare t id a payload
  | .qbuf t _ flags _ => (∃ id a payload, l = .prepare t id a payload) ∨
      (∃ id, l = .enqueue t id flags) ∨ ∃ id, l = .handOver t id
  | .dqbuf t => l = .dequeue t
  | .streamon t env => (∃ id, l = .handOver t id) ∨ l = .start t env
  | .streamoff t => Cancels t l ∨ l = .resetReady t
  | .deviceRun cpu => l = .deviceRun cpu
  | .store block bytes => l = .store block bytes
  | .setParams p => l = .params p

theorem cancelBelongs {s : Sys} {t : QType} {l : Move} (member : l ∈ cancelMoves s t) : Cancels t l := by
  unfold cancelMoves at member
  simp only [List.mem_append, List.mem_map, List.mem_singleton] at member
  rcases member with (first | ⟨id, _, rfl⟩) | rfl
  · split at first
    · rcases List.mem_append.mp first with stop | abort
      · cases t with
        | output => exact .inl ⟨rfl,by simpa [stopMoves] using stop⟩
        | capture => simp [stopMoves] at stop
      · obtain ⟨id, _, rfl⟩ := List.mem_map.mp abort
        exact .inr (.inl ⟨id,rfl⟩)
    · simp at first
  · exact .inr (.inr (.inl ⟨id,rfl⟩))
  · exact .inr (.inr (.inr rfl))

theorem allocateBelongs {t : QType} {memory : Memory} {wanted size slack granted : Nat} {l : Move}
    (member : l ∈ allocateMoves t memory wanted size slack granted) : Allocates t l := by
  unfold allocateMoves at member
  split at member
  · simp at member
  · exact ⟨_,_,_,(List.mem_replicate.mp member).2⟩

theorem enqueueBelongs {s : Sys} {t : QType} {id flags : Nat} {l : Move}
    (member : l ∈ enqueueMoves s t id flags) : l = .enqueue t id flags ∨ l = .handOver t id := by
  unfold enqueueMoves at member
  split at member
  · simpa using member
  · simp at member
    exact .inl member

theorem qbufShape (s : Sys) (t : QType) (index flags : Nat) (att : Option Attachment) :
    moves s (.qbuf t index flags att) = [] ∨ ∃ id before, id ∈ (s.queue t).ids ∧
      ((s.queue t).buf id).state = .dequeued ∧
      moves s (.qbuf t index flags att) = before ++ enqueueMoves s t id flags ∧
      (before = [] ∧ ((s.queue t).buf id).prepared = true ∨
        prepareMoves s t id att = some before ∧ ((s.queue t).buf id).prepared = false) := by
  simp only [moves]
  cases found : (s.queue t).ids[index]? with
  | none => exact .inl rfl
  | some id =>
    have inside := List.mem_of_getElem? found
    simp only
    split
    · exact .inl rfl
    · rename_i state
      split
      · rename_i ready
        exact .inr ⟨id,[],inside,not_not.mp state,rfl,.inl ⟨rfl,ready⟩⟩
      · rename_i fresh
        cases made : prepareMoves s t id att with
        | none => exact .inl rfl
        | some ms => exact .inr ⟨id,ms,inside,not_not.mp state,rfl,.inr ⟨made,by simpa using fresh⟩⟩

theorem movesBelong {s : Sys} {e : Event} {l : Move} (member : l ∈ moves s e) : Belongs l e := by
  cases e with
  | sFmt t pix =>
    simp only [moves] at member
    split at member <;> simp at member
    exact ⟨_,member⟩
  | sCtrl id val =>
    simp only [moves] at member
    split at member <;> simp at member
    exact ⟨_,member⟩
  | setBackend id allocated =>
    simp only [moves] at member
    split at member <;> simp at member
    exact member
  | reqbufs t count memory slack granted =>
    simp only [moves] at member
    split at member
    · simp at member
    · rcases List.mem_append.mp member with cancel | later
      · exact .inl (cancelBelongs cancel)
      · rcases List.mem_cons.mp later with free | allocate
        · exact .inr (.inl free)
        · split at allocate
          · simp at allocate
          · exact .inr (.inr (allocateBelongs allocate))
  | createBufs t count memory size slack granted =>
    simp only [moves] at member
    split at member
    · simp at member
    · exact allocateBelongs member
  | prepareBuf t index att =>
    simp only [moves] at member
    split at member
    · simp at member
    · split at member
      · simp at member
      · rename_i id _ _
        cases made : prepareMoves s t id att with
        | none => simp [made] at member
        | some ms =>
          obtain ⟨a, _, rfl⟩ := prepareIs made
          simp [made] at member
          exact ⟨_,_,_,member⟩
  | qbuf t index flags att =>
    rcases qbufShape s t index flags att with none_ | ⟨id, before, _, _, made, first⟩
    · simp [none_] at member
    · rw [made] at member
      rcases List.mem_append.mp member with early | late
      · rcases first with ⟨rfl, _⟩ | ⟨made, _⟩
        · simp at early
        · obtain ⟨a, _, rfl⟩ := prepareIs made
          exact .inl ⟨_,_,_,by simpa using early⟩
      · exact .inr ((enqueueBelongs late).imp (fun same => ⟨id,same⟩) (fun same => ⟨id,same⟩))
  | dqbuf t =>
    simp only [moves] at member
    split at member <;> simp at member
    exact member
  | streamon t env =>
    simp only [moves] at member
    split at member
    · simp at member
    · rcases List.mem_append.mp member with hand | start
      · obtain ⟨id, _, rfl⟩ := List.mem_map.mp hand
        exact .inl ⟨id,rfl⟩
      · exact .inr (by simpa using start)
  | streamoff t =>
    rcases List.mem_append.mp member with cancel | later
    · exact .inl (cancelBelongs cancel)
    · exact .inr (by simpa using later)
  | deviceRun cpu =>
    simp only [moves] at member
    split at member <;> simp at member
    exact member
  | _ => simpa [moves, Belongs] using member

theorem jobOrNot (l : Move) : (∃ cpu, l = .deviceRun cpu) ∨ ∀ cpu, l ≠ .deviceRun cpu := by
  cases l <;> simp

section Origins
variable {s : Sys} {e : Event} {t : QType} {id : Nat}

theorem jobOrigin {cpu : Nat} (member : .deviceRun cpu ∈ moves s e) : e = .deviceRun cpu := by
  have belongs := movesBelong member
  cases e with
  | deviceRun cpu' => simpa [Belongs] using belongs.symm
  | _ => simp [Belongs, Cancels, Allocates] at belongs

theorem formatOrigin {d : QData} (member : .format d ∈ moves s e) :
    ∃ t pix, e = .sFmt t pix ∧ s.c.busy t = false := by
  have belongs := movesBelong member
  cases e with
  | sFmt t pix =>
    refine ⟨t,pix,rfl,?_⟩
    simp only [moves, vpipeSFmt] at member
    cases busy : s.c.busy t with
    | true => simp [busy] at member
    | false => rfl
  | _ => simp [Belongs, Cancels, Allocates] at belongs

theorem startOrigin {env : StartEnv} (member : .start t env ∈ moves s e) : e = .streamon t env := by
  have belongs := movesBelong member
  cases e with
  | streamon t' env' => simpa [Belongs, eq_comm] using belongs
  | _ => simp [Belongs, Cancels, Allocates] at belongs

theorem backendOrigin (member : .backend id ∈ moves s e) : ∃ allocated, e = .setBackend id allocated := by
  have belongs := movesBelong member
  cases e with
  | setBackend id' allocated => exact ⟨allocated,by simpa [Belongs, eq_comm] using belongs⟩
  | _ => simp [Belongs, Cancels, Allocates] at belongs

theorem enqueueOrigin {flags : Nat} (member : .enqueue t id flags ∈ moves s e) :
    ∃ index att, e = .qbuf t index flags att := by
  have belongs := movesBelong member
  cases e with
  | qbuf t' index flags' att => exact ⟨index,att,by simpa [Belongs, eq_comm] using belongs⟩
  | _ => simp [Belongs, Cancels, Allocates] at belongs

theorem handOverOrigin (member : .handOver t id ∈ moves s e) :
    (∃ env, e = .streamon t env) ∨ ∃ index flags att, e = .qbuf t index flags att := by
  have belongs := movesBelong member
  cases e with
  | streamon t' env => exact .inl ⟨env,by simpa [Belongs, eq_comm] using belongs⟩
  | qbuf t' index flags att => exact .inr ⟨index,flags,att,by simpa [Belongs, eq_comm] using belongs⟩
  | _ => simp [Belongs, Cancels, Allocates] at belongs

theorem dequeueOrigin (member : .dequeue t ∈ moves s e) : e = .dqbuf t ∧ (s.queue t).streaming = true := by
  have belongs := movesBelong member
  cases e with
  | dqbuf t' =>
    obtain rfl : t = t' := by simpa [Belongs] using belongs
    refine ⟨rfl,?_⟩
    by_contra stopped
    simp [moves, stopped] at member
  | _ => simp [Belongs, Cancels, Allocates] at belongs

theorem cancelsUnique {t t' : QType} {l : Move} (one : Cancels t l) (other : Cancels t' l) : t = t' := by
  rcases one with ⟨rfl, rfl⟩ | ⟨id, rfl⟩ | ⟨id, rfl⟩ | rfl <;> simpa [Cancels, eq_comm] using other

theorem cancelOrigin {l : Move} (cancels : Cancels t l) (member : l ∈ moves s e) : e = .streamoff t ∨
    (s.queue t).streaming = false ∧ ∃ count memory slack granted,
      e = .reqbufs t count memory slack granted := by
  have belongs := movesBelong member
  cases e with
  | streamoff t' =>
    rcases belongs with same | rfl
    · exact .inl (by rw [cancelsUnique cancels same])
    · simp [Cancels] at cancels
  | reqbufs t' count memory slack granted =>
    rcases belongs with same | rfl | ⟨_, _, _, rfl⟩
    · obtain rfl := cancelsUnique cancels same
      refine .inr ⟨?_,count,memory,slack,granted,rfl⟩
      by_contra streaming
      simp [moves, streaming] at member
    · simp [Cancels] at cancels
    · simp [Cancels] at cancels
  | _ => rcases cancels with ⟨_, rfl⟩ | ⟨_, rfl⟩ | ⟨_, rfl⟩ | rfl <;> simp [Belongs, Allocates] at belongs

end Origins

def Move.touches (t : QType) : Move → Bool
  | .allocate t' _ _ _ => t' = t
  | .prepare t' _ _ _ => t' = t
  | .enqueue t' _ _ => t' = t
  | .handOver t' _ => t' = t
  | .start t' _ => t' = t
  | .abort t' _ => t' = t
  | .release t' _ => t' = t
  | .cancelled t' => t' = t
  | .free t' => t' = t
  | .resetReady t' => t' = t
  | .dequeue t' => t' = t
  | .deviceRun _ => true
  | _ => false

def sourceCall (s : Sys) (id : Nat) : NextFrame :=
  let b := (s.queue .output).buf id
  vpipeSourceNextFrame s.k.machine.ktimeGetNs.2 s.c.src (vaddr b) {b.data.srcDesc with
    width := s.c.outQ.width, height := s.c.outQ.height, stride := s.c.outQ.bytesperline}

def stamped (s : Sys) (id : Nat) (d : VpipeBuffer) : VpipeBuffer :=
  {d with
    srcSequence := s.c.controls.srcSequence, algoId := s.c.controls.algoId
    threshold := s.c.controls.threshold, roi := s.c.controls.roi
    qbufNs := s.k.machine.ktimeGetNs.1, srcDesc := (sourceCall s id).desc
    handover := some ⟨s.c.src.ident,s.c.src.backend,(sourceCall s id).ret⟩}

theorem bufQueueOutput (s : Sys) (id : Nat) : vpipeBufQueue .output s id =
    (⟨{s.k with machine := (sourceCall s id).machine},{s.c with src := (sourceCall s id).src}⟩ : Sys).setQueue
      .output ((s.queue .output).handOver id (stamped s id)) := rfl

def enqueuedAt (s : Sys) (t : QType) (id : Nat) (a : Attachment) : Sys :=
  s.setQueue t (((s.queue t).prepare id a.plane a.mapped
    (fun d => {d with payload := (s.c.qData t).sizeimage})).enqueue id
      (fun d => {d with flags := 0, qbufControls := s.c.controls}))

theorem qbufAccepts {s : Sys} {t : QType} {index id : Nat} {att : Option Attachment} {a : Attachment}
    (found : (s.queue t).ids[index]? = some id) (state : ((s.queue t).buf id).state = .dequeued)
    (bare : ((s.queue t).buf id).prepared = false) (attached : attach ((s.queue t).buf id) att = .ok a)
    (large : (s.c.qData t).sizeimage ≤ a.plane.size) :
    vidiocQbuf s t index 0 att = .ok (if (s.queue t).streaming then vpipeBufQueue t (enqueuedAt s t id a) id
      else enqueuedAt s t id a) := by
  have prepared : s.bufPrepare t id att = .ok (s.setQueue t
      ((s.queue t).prepare id a.plane a.mapped (fun d => {d with payload := (s.c.qData t).sizeimage}))) := by
    simp only [Sys.bufPrepare, attached, vpipeBufPrepare, if_neg (Nat.not_lt.mpr large), bind, Except.bind]
  simp only [vidiocQbuf, found, state, bare, prepared, bind, Except.bind, ne_eq, not_true_eq_false, if_false,
    Bool.false_eq_true, Sys.enqueue, queueSet, setSet]
  rfl

def handed (t : QType) (s : Sys) (id : Nat) : VpipeBuffer → VpipeBuffer := match t with
  | .capture => fun d => d
  | .output => stamped s id

theorem bufQueueSame (t : QType) (s : Sys) (id : Nat) :
    (vpipeBufQueue t s id).queue t = (s.queue t).handOver id (handed t s id) := by
  cases t with
  | capture => exact queueSet _ _ _
  | output => rw [bufQueueOutput, queueSet]; rfl

theorem bufQueueOther {t t' : QType} (differ : t' ≠ t) (s : Sys) (id : Nat) :
    (vpipeBufQueue t s id).queue t' = s.queue t' := by
  cases t with
  | capture => exact queueSetOther s differ _
  | output => exact queueSetOther _ differ _

def publishPending (k : Kernel) (id : Nat) (pending : MetaEntry) : Kernel :=
  let e := {pending with dqbufTimestampNs := k.machine.ktimeGetNs.1}
  {k with
    machine := k.machine.ktimeGetNs.2
    metaDev := vpipeMetaPublish k.metaDev e
    published := k.published ++ [⟨id,e⟩]}

def Publishes (s : Sys) (t : QType) (id : Nat) : Prop :=
  t = .capture ∧ ((s.queue t).buf id).prepared = true ∧ ((s.queue t).buf id).data.metaPending.seq ≠ 0

theorem releaseKernel (t : QType) (s : Sys) (id : Nat) :
    (¬ Publishes s t id ∧ (releaseOne t s id).k = s.k) ∨
    (Publishes s t id ∧ (releaseOne t s id).k =
      publishPending s.k id ((s.queue t).buf id).data.metaPending) := by
  simp only [releaseOne, Sys.setQueue, Queue.release]
  cases prepared : ((s.queue t).buf id).prepared with
  | false => exact .inl ⟨fun publishes => by simp [Publishes, prepared] at publishes,rfl⟩
  | true =>
    cases t with
    | output => exact .inl ⟨fun publishes => by simp [Publishes] at publishes,rfl⟩
    | capture =>
      simp only [vpipeBufFinish, if_true]
      split
      · rename_i none_
        exact .inl ⟨fun publishes => publishes.2.2 none_,rfl⟩
      · rename_i some_
        exact .inr ⟨⟨rfl,prepared,some_⟩,rfl⟩

theorem releaseMem (t : QType) (s : Sys) (id : Nat) : (releaseOne t s id).k.machine.mem = s.k.machine.mem := by
  rcases releaseKernel t s id with ⟨_, same⟩ | ⟨_, published⟩
  · rw [same]
  · rw [published]; rfl

theorem startStreamingQueue (s : Sys) (t t' : QType) (env : StartEnv) :
    (vpipeStartStreaming s t env).2.queue t' = s.queue t' := by
  cases t <;> rfl

theorem finishStartRest (t : QType) (r : Option Errno × Sys) :
    (finishStart t r).k = r.2.k ∧ (finishStart t r).c = {r.2.c with queues := (finishStart t r).c.queues} := by
  rcases r with ⟨ret, s⟩
  cases ret <;> exact ⟨rfl,rfl⟩

theorem startOutput (s : Sys) (env : StartEnv) :
    (move s (.start .output env)).k.machine =
    (vpipeSourceStart s.k.machine s.c.src s.c.outQ.sizeimage env).2.2 ∧
    (move s (.start .output env)).c.src =
    (vpipeSourceStart s.k.machine s.c.src s.c.outQ.sizeimage env).2.1 := by
  obtain ⟨kernel, context⟩ := finishStartRest .output (vpipeStartStreaming s .output env)
  exact ⟨congrArg Kernel.machine kernel,congrArg Ctx.src context⟩

theorem finishStartOther {t t' : QType} (differ : t' ≠ t) (r : Option Errno × Sys) :
    (finishStart t r).queue t' = r.2.queue t' := by
  rcases r with ⟨ret, s⟩
  cases ret <;> exact queueSetOther s differ _

theorem startCases (s : Sys) (t : QType) (env : StartEnv) :
    ((vpipeStartStreaming s t env).1 = none ∧
      (move s (.start t env)).queue t = {s.queue t with streaming := true}) ∨
    (t = .output ∧ (vpipeStartStreaming s t env).1 ≠ none ∧
      (move s (.start t env)).queue t = (s.queue t).revert) := by
  have same := startStreamingQueue s t t env
  simp only [move]
  cases ret : (vpipeStartStreaming s t env).1 with
  | none =>
    have result : vpipeStartStreaming s t env = (none,(vpipeStartStreaming s t env).2) := by rw [← ret]
    refine .inl ⟨rfl,?_⟩
    rw [result, finishStart, queueSet, same]
  | some e =>
    have result : vpipeStartStreaming s t env = (some e,(vpipeStartStreaming s t env).2) := by rw [← ret]
    refine .inr ⟨?_,by simp,?_⟩
    · cases t with
      | output => rfl
      | capture => simp [vpipeStartStreaming] at ret
    · rw [result, finishStart, queueSet, same]

theorem dqbufCases (s : Sys) (t : QType) :
    settle s (vidiocDqbuf s t) = s ∨ ∃ id rest, (s.queue t).streaming = true ∧ (s.queue t).done = id :: rest ∧
      settle s (vidiocDqbuf s t) = {releaseOne t s id with
        k := noteReturned t id ((s.queue t).buf id) (releaseOne t s id).k} := by
  unfold vidiocDqbuf
  simp only
  cases stream : (s.queue t).streaming with
  | false => exact .inl rfl
  | true =>
    cases done : (s.queue t).done with
    | nil => exact .inl rfl
    | cons id rest => exact .inr ⟨id,rest,rfl,rfl,rfl⟩

theorem dequeueMove {s : Sys} {t : QType} (streaming : (s.queue t).streaming = true)
    (some_ : (s.queue t).done ≠ []) : ∃ id rest, (s.queue t).done = id :: rest ∧
      move s (.dequeue t) = {releaseOne t s id with
        k := noteReturned t id ((s.queue t).buf id) (releaseOne t s id).k} := by
  obtain ⟨id, rest, done⟩ := List.exists_cons_of_ne_nil some_
  refine ⟨id,rest,done,?_⟩
  simp only [move, vidiocDqbuf, streaming, done]
  rfl

theorem dequeueQueue {s : Sys} {t : QType} (streaming : (s.queue t).streaming = true)
    (some_ : (s.queue t).done ≠ []) : ∃ id rest, (s.queue t).done = id :: rest ∧
      (move s (.dequeue t)).queue t = (Queue.release (vpipeBufFinish t) (s.k,s.queue t) id).2 := by
  obtain ⟨id, rest, done, made⟩ := dequeueMove streaming some_
  exact ⟨id,rest,done,by rw [made]; exact queueSet _ _ _⟩

def Heads (s : Sys) (src dst : Nat) : Prop :=
  ∃ srcRest dstRest, (s.queue .output).ready = src :: srcRest ∧ (s.queue .capture).ready = dst :: dstRest

structure Processed (s : Sys) (src dst : Nat) (job : JobDesc) (result : CvResult) (mem : Mem) : Prop where
  source : vaddr ((s.queue .output).buf src) = some job.src
  target : vaddr ((s.queue .capture).buf dst) = some job.dst
  made : job = jobOf s job.src job.dst
  done : vpipeCvProcess job ((s.queue .output).buf src).data.algoId
    ((s.queue .output).buf src).data.threshold (some ((s.queue .output).buf src).data.roi)
    s.k.machine.mem = .ok (result,mem)

theorem peekCases {s s' : Sys} {j : Job} (peeked : deviceRunPeek s = some (j,s')) :
    Heads s j.source j.target ∧
    ((s' = s ∧ (j.outcome = .unmapped ∨ j.outcome = .failed)) ∨
    ∃ job result mem, Processed s j.source j.target job result mem ∧
      j.outcome = .processed job result s.k.machine.mem ∧
      s' = s.setMachine {s.k.machine with mem := mem}) := by
  unfold deviceRunPeek at peeked
  split at peeked
  case h_2 => contradiction
  case h_1 src srcRest dst dstRest output capture =>
    simp only at peeked
    split at peeked
    case h_2 =>
      cases peeked
      exact ⟨⟨_,_,output,capture⟩,.inl ⟨rfl,.inl rfl⟩⟩
    case h_1 srcPlane dstPlane source target =>
      split at peeked
      · cases peeked
        exact ⟨⟨_,_,output,capture⟩,.inl ⟨rfl,.inr rfl⟩⟩
      · rename_i result mem done
        cases peeked
        exact ⟨⟨_,_,output,capture⟩,.inr ⟨jobOf s srcPlane dstPlane,result,mem,
          ⟨source,target,rfl,done⟩,rfl,rfl⟩⟩

theorem finishCases {s s' : Sys} {j : Job} {cpu : Nat} (finished : deviceRunFinish s j cpu = some s') :
    ∃ src dst, Heads s src dst ∧
    ((j.outcome = .unmapped ∨ j.outcome = .failed) ∧ s' = s.completeHeads src dst false ∨
    ∃ job result before, j.outcome = .processed job result before ∧
      s' = (s.fillResult j job result before src dst cpu).completeHeads src dst true) := by
  unfold deviceRunFinish at finished
  split at finished
  case h_2 => contradiction
  case h_1 src srcRest dst dstRest output capture =>
    refine ⟨src,dst,⟨_,_,output,capture⟩,?_⟩
    split at finished <;> cases finished <;> rename_i outcome
    · exact .inl ⟨.inl outcome,rfl⟩
    · exact .inl ⟨.inr outcome,rfl⟩
    · exact .inr ⟨_,_,_,outcome,rfl⟩

theorem peekSome {s : Sys} {src dst : Nat} (heads : Heads s src dst) : ∃ r, deviceRunPeek s = some r := by
  obtain ⟨_, _, output, capture⟩ := heads
  unfold deviceRunPeek
  rw [output, capture]
  simp only
  split
  · split <;> exact ⟨_,rfl⟩
  · exact ⟨_,rfl⟩

theorem finishSome {s : Sys} {src dst : Nat} (heads : Heads s src dst) (j : Job) (cpu : Nat) :
    ∃ s', deviceRunFinish s j cpu = some s' := by
  obtain ⟨_, _, output, capture⟩ := heads
  unfold deviceRunFinish
  rw [output, capture]
  simp only
  split <;> exact ⟨_,rfl⟩

theorem headsUnique {s : Sys} {src dst src' dst' : Nat} (one : Heads s src dst) (two : Heads s src' dst') :
    src' = src ∧ dst' = dst := by
  obtain ⟨_, _, output, capture⟩ := one
  obtain ⟨_, _, output', capture'⟩ := two
  rw [output] at output'
  rw [capture] at capture'
  injection output' with src _
  injection capture' with dst _
  exact ⟨src.symm,dst.symm⟩

theorem deviceRunCases (s : Sys) (cpu : Nat) (go : schedulable s = true) :
    ∃ src dst, Heads s src dst ∧ (vpipeDeviceRun s cpu = s.completeHeads src dst false ∨
      ∃ job result mem, Processed s src dst job result mem ∧
        vpipeDeviceRun s cpu = ((s.setMachine {s.k.machine with mem := mem}).fillResult
          ⟨src,dst,.processed job result s.k.machine.mem⟩ job result s.k.machine.mem src dst cpu).completeHeads
            src dst true) := by
  have heads : ∃ src dst, Heads s src dst := by
    have both := go
    simp only [schedulable, Bool.and_eq_true, Bool.not_eq_true', List.isEmpty_eq_false_iff] at both
    obtain ⟨src, srcRest, output⟩ := List.exists_cons_of_ne_nil both.1.2
    obtain ⟨dst, dstRest, capture⟩ := List.exists_cons_of_ne_nil both.2
    exact ⟨src,dst,srcRest,dstRest,output,capture⟩
  obtain ⟨src, dst, at_⟩ := heads
  obtain ⟨⟨j, s'⟩, peeked⟩ := peekSome at_
  obtain ⟨now, work⟩ := peekCases peeked
  have still : Heads s' j.source j.target := by
    rcases work with ⟨rfl, _⟩ | ⟨job, result, mem, _, _, rfl⟩
    · exact now
    · exact now
  obtain ⟨s'', finished⟩ := finishSome still j cpu
  have result : vpipeDeviceRun s cpu = s'' := by
    simp [vpipeDeviceRun, go, peeked, finished]
  obtain ⟨src', dst', there, end_⟩ := finishCases finished
  obtain ⟨rfl, rfl⟩ := headsUnique still there
  refine ⟨j.source,j.target,now,?_⟩
  rw [result]
  rcases work with ⟨rfl, failed⟩ | ⟨job, cv, mem, processed, outcome, rfl⟩
  · rcases end_ with ⟨_, made⟩ | ⟨job, cv, before, outcome, _⟩
    · exact .inl made
    · rcases failed with failed | failed <;> simp [failed] at outcome
  · rcases end_ with ⟨failed, _⟩ | ⟨job', cv', before, outcome', made⟩
    · rcases failed with failed | failed <;> simp [failed] at outcome
    · rw [outcome] at outcome'
      cases outcome'
      refine .inr ⟨job,cv,mem,processed,?_⟩
      have same : j = ⟨j.source,j.target,.processed job cv s.k.machine.mem⟩ := by
        rw [← outcome]
      rw [made]
      rw [← same]

theorem deviceRunProcessed {s : Sys} {src dst : Nat} {job : JobDesc} {result : CvResult} {mem : Mem} (cpu : Nat)
    (go : schedulable s = true) (heads : Heads s src dst) (processed : Processed s src dst job result mem) :
    vpipeDeviceRun s cpu = ((s.setMachine {s.k.machine with mem := mem}).fillResult
      ⟨src,dst,.processed job result s.k.machine.mem⟩ job result s.k.machine.mem src dst cpu).completeHeads
        src dst true := by
  obtain ⟨srcRest, dstRest, output, capture⟩ := heads
  have still : ∀ m t, (s.setMachine m).queue t = s.queue t := fun _ _ => rfl
  have done := processed.done
  rw [processed.made] at done
  simp only [vpipeDeviceRun, go, if_true, deviceRunPeek, output, capture, processed.source,
    processed.target, done, deviceRunFinish, still, Option.getD_some]
  rw [← processed.made]

theorem fillResultQueues (s : Sys) (j : Job) (job : JobDesc) (result : CvResult) (before : Mem)
    (src dst cpu : Nat) :
    (s.fillResult j job result before src dst cpu).queue .output = s.queue .output ∧
    ∃ f, (s.fillResult j job result before src dst cpu).queue .capture = (s.queue .capture).setData dst f :=
  ⟨queueSetOther _ (by decide) _,_,queueSet _ _ _⟩

structure Completes (s s' : Sys) (src dst : Nat) (ok : Bool) (f : VpipeBuffer → VpipeBuffer) : Prop where
  heads : Heads s src dst
  output : s'.queue .output = (s.queue .output).take.complete src ok
  capture : s'.queue .capture = ((s.queue .capture).setData dst f).take.complete dst ok
  failed : ok = false → ∀ d, f d = d
  context : s'.c = {s.c with queues := s'.c.queues}
  next : s'.k.machine.next = s.k.machine.next

theorem finishCompletes {s s' : Sys} {j : Job} {cpu : Nat} (finished : deviceRunFinish s j cpu = some s') :
    ∃ src dst ok f, Completes s s' src dst ok f := by
  obtain ⟨src, dst, heads, ⟨_, rfl⟩ | ⟨job, result, before, _, rfl⟩⟩ := finishCases finished
  · exact ⟨src,dst,false,fun d => d,heads,rfl,by rw [setDataNone]; rfl,fun _ _ => rfl,rfl,rfl⟩
  · obtain ⟨output, f, capture⟩ := fillResultQueues s j job result before src dst cpu
    exact ⟨src,dst,true,f,heads,congrArg (fun q => q.take.complete src true) output,
      congrArg (fun q => q.take.complete dst true) capture,by simp,rfl,rfl⟩

theorem deviceRunCompletes (s : Sys) (cpu : Nat) (go : schedulable s = true) :
    ∃ src dst ok f, Completes s (vpipeDeviceRun s cpu) src dst ok f := by
  obtain ⟨src, dst, heads, failed | ⟨job, result, mem, _, made⟩⟩ := deviceRunCases s cpu go
  · rw [failed]
    exact ⟨src,dst,false,fun d => d,heads,rfl,by rw [setDataNone]; rfl,fun _ _ => rfl,rfl,rfl⟩
  · obtain ⟨output, f, capture⟩ := fillResultQueues (s.setMachine {s.k.machine with mem := mem})
      ⟨src,dst,.processed job result s.k.machine.mem⟩ job result s.k.machine.mem src dst cpu
    rw [made]
    exact ⟨src,dst,true,f,heads,congrArg (fun q => q.take.complete src true) output,
      congrArg (fun q => q.take.complete dst true) capture,by simp,rfl,rfl⟩

theorem setBackendCases (s : Sys) (id : Nat) :
    settle s (vpipeSetBackend s id true) = s ∨
    ((s.queue .output).streaming = false ∧ (s.queue .capture).streaming = false ∧
      ∃ src m, vpipeSourceCreate s.k.machine id true = .ok (src,m) ∧
        settle s (vpipeSetBackend s id true) =
          ⟨{s.k with machine := (vpipeSourceDestroy m s.c.src).2},{s.c with src := src}⟩) := by
  unfold vpipeSetBackend
  split
  · exact .inl rfl
  · rename_i stopped
    simp only [Bool.or_eq_true, not_or, Bool.not_eq_true] at stopped
    cases created : vpipeSourceCreate s.k.machine id true with
    | error e => exact .inl rfl
    | ok r => exact .inr ⟨stopped.1,stopped.2,r.1,r.2,rfl,rfl⟩

theorem queueUntouched (s : Sys) {l : Move} {t : QType} (untouched : l.touches t = false) :
    (move s l).queue t = s.queue t := by
  cases l <;> simp only [Move.touches, decide_eq_false_iff_not, Bool.true_eq_false] at untouched
  case backend id =>
    rcases setBackendCases s id with same | ⟨_, _, src, m, _, made⟩
    · exact congrArg (fun s => s.queue t) same
    · exact congrArg (fun s => s.queue t) made
  case handOver t' id => exact bufQueueOther (fun same => untouched same.symm) s id
  case start t' env =>
    exact (finishStartOther (fun same => untouched same.symm) _).trans (startStreamingQueue s t' t env)
  case dequeue t' =>
    rcases dqbufCases s t' with same | ⟨id, rest, _, _, made⟩
    · exact congrArg (fun s => s.queue t) same
    · simp only [move, made]
      exact queueSetOther _ (fun same => untouched same.symm) _
  all_goals first
    | rfl
    | exact queueSetOther _ (fun same => untouched same.symm) _

theorem cancelOther (s : Sys) {t t' : QType} (differ : t' ≠ t) : (s.cancel t).queue t' = s.queue t' := by
  rw [← cancelledMoves]
  refine runMember (fun s' : Sys => s'.queue t' = s.queue t') (fun s' l member so => ?_) rfl
  rw [← so]
  refine queueUntouched s' ?_
  rcases cancelBelongs member with ⟨rfl, rfl⟩ | ⟨id, rfl⟩ | ⟨id, rfl⟩ | rfl <;>
    simp [Move.touches, Ne.symm differ]

theorem dropOther (s : Sys) {t t' : QType} (differ : t' ≠ t) : (drop s t).queue t' = s.queue t' := by
  rw [drop, queueSetOther _ differ, cancelOther s differ]

theorem dropEmpty (s : Sys) (t : QType) : ((drop s t).queue t).done = [] := by
  simp [drop, Sys.cancel, Queue.cancel, Queue.free]

theorem startStreamingConfig (s : Sys) (t : QType) (env : StartEnv) (r : Option Errno × Sys)
    (started : vpipeStartStreaming s t env = r) :
    (finishStart t r).c.ident = s.c.ident ∧ (finishStart t r).c.outQ = s.c.outQ ∧
    (finishStart t r).c.capQ = s.c.capQ ∧ (finishStart t r).c.controls = s.c.controls := by
  subst started
  rw [(finishStartRest t _).2]
  cases t <;> exact ⟨rfl,rfl,rfl,rfl⟩

theorem moveConfig (s : Sys) (l : Move) : (move s l).c.ident = s.c.ident ∧
    ((∀ d, l ≠ .format d) → (move s l).c.outQ = s.c.outQ ∧ (move s l).c.capQ = s.c.capQ) ∧
    ((∀ c, l ≠ .controls c) → (move s l).c.controls = s.c.controls) := by
  cases l with
  | format d => exact ⟨rfl,fun other => absurd rfl (other d),fun _ => rfl⟩
  | controls c => exact ⟨rfl,fun _ => ⟨rfl,rfl⟩,fun other => absurd rfl (other c)⟩
  | backend id =>
    rcases setBackendCases s id with same | ⟨_, _, src, m, _, made⟩
    · rw [move, same]; exact ⟨rfl,fun _ => ⟨rfl,rfl⟩,fun _ => rfl⟩
    · rw [move, made]; exact ⟨rfl,fun _ => ⟨rfl,rfl⟩,fun _ => rfl⟩
  | handOver t id => cases t <;> exact ⟨rfl,fun _ => ⟨rfl,rfl⟩,fun _ => rfl⟩
  | start t env =>
    obtain ⟨ident, outQ, capQ, controls⟩ := startStreamingConfig s t env _ rfl
    exact ⟨ident,fun _ => ⟨outQ,capQ⟩,fun _ => controls⟩
  | dequeue t =>
    rcases dqbufCases s t with same | ⟨id, rest, _, _, made⟩
    · rw [move, same]; exact ⟨rfl,fun _ => ⟨rfl,rfl⟩,fun _ => rfl⟩
    · rw [move, made]; exact ⟨rfl,fun _ => ⟨rfl,rfl⟩,fun _ => rfl⟩
  | deviceRun cpu =>
    cases go : schedulable s with
    | false => simp [move, vpipeDeviceRun, go]
    | true =>
      obtain ⟨_, _, _, _, done⟩ := deviceRunCompletes s cpu go
      rw [move, done.context]
      exact ⟨rfl,fun _ => ⟨rfl,rfl⟩,fun _ => rfl⟩
  | _ => exact ⟨rfl,fun _ => ⟨rfl,rfl⟩,fun _ => rfl⟩

end Vpipe.Moves
