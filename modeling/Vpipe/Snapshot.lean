import Vpipe.Frames

/-! The controls a frame is made with. buf_queue takes the snapshot of the controls, and
buf_queue follows QBUF at once only on a streaming queue. -/
namespace Vpipe.Snapshot
open Vpipe.Lib.Word Vpipe.Lib.ByteMemory Vpipe.Lib.BufferQueue Vpipe.Lib.Transition
open Vpipe.Cv Vpipe.FrameSource Vpipe.MetaRing Vpipe.M2m Vpipe.Moves Vpipe.Discipline Vpipe.Runs
open Vpipe.Frames

def snapshot (d : VpipeBuffer) : Controls := ⟨d.srcSequence,d.algoId,d.threshold,d.roi⟩

def Fixed (d : VpipeBuffer) : Prop := snapshot d = d.qbufControls

def Settled (q : Queue VpipeBuffer) : Prop := ∀ id ∈ q.ready, Fixed (q.buf id).data

def Loyal (q : Queue VpipeBuffer) : Prop := ∀ id ∈ q.ready, id ∈ q.ids → (q.buf id).state ≠ .dequeued

structure AsQueued (f : Frame) : Prop where
  srcSequence : f.entry.srcV4l2Sequence = f.used.qbufControls.srcSequence
  algo : f.entry.algoId = f.used.qbufControls.algoId
  image : ∃ result, vpipeCvProcess f.job f.used.qbufControls.algoId f.used.qbufControls.threshold
    (some f.used.qbufControls.roi) f.before = .ok (result,f.after) ∧
    ⟨f.entry.roiLeft,f.entry.roiTop,f.entry.roiWidth,f.entry.roiHeight⟩ = result.roi

theorem asQueuedNew {s : Sys} {f : Frame} (new : NewFrame s f) (settled : Settled (s.queue .output)) :
    AsQueued f := by
  obtain ⟨rest, ready⟩ := new.source
  have fixed : Fixed f.used := new.used ▸ settled f.source (by simp [ready])
  refine ⟨?_,?_,?_⟩
  · rw [← fixed]; exact new.srcSequence
  · rw [← fixed]; exact new.algo
  · rw [← fixed]; exact new.image

theorem settledSame {q q' : Queue VpipeBuffer} (settled : Settled q) (ready : ∀ id ∈ q'.ready, id ∈ q.ready)
    (kept : ∀ id ∈ q.ready, snapshot (q'.buf id).data = snapshot (q.buf id).data ∧
      (q'.buf id).data.qbufControls = (q.buf id).data.qbufControls) : Settled q' := by
  intro id member
  obtain ⟨fields, controls⟩ := kept id (ready id member)
  rw [Fixed, fields, controls]
  exact settled id (ready id member)

theorem settledMove {s : Sys} {l : Move} (base : Base s) (allowed : Allowed s l)
    (other : ∀ id flags, l ≠ .enqueue .output id flags)
    (current : ∀ id, l = .handOver .output id → ((s.queue .output).buf id).data.qbufControls = s.c.controls)
    (settled : Settled (s.queue .output)) : Settled ((move s l).queue .output) := by
  intro id member
  cases listedMove base allowed member with
  | handed made _ data =>
    rw [Fixed, data]
    exact (current id made).symm
  | kept before _ data => rw [data]; exact settled id before
  | prepared _ before _ data => rw [data]; exact settled id before
  | enqueued made _ _ => exact absurd made (other id _)

theorem enqueueSettled {s s' : Sys} {id flags : Nat} (settled : Settled (s'.queue .output))
    (waits : (s.queue .output).streaming = false → id ∉ (s'.queue .output).ready) :
    Settled ((run move s' (enqueueMoves s .output id flags)).queue .output) := by
  obtain ⟨next, made⟩ : ∃ next, next = move s' (.enqueue .output id flags) := ⟨_,rfl⟩
  have list : (next.queue .output).ready = (s'.queue .output).ready := by
    simp [made, move, Queue.enqueue, Queue.modify]
  have mine : ((next.queue .output).buf id).data.qbufControls = next.c.controls := by
    simp [made, move, Queue.enqueue, Queue.modify]
    rfl
  have others : ∀ other ∈ (s'.queue .output).ready, other ≠ id →
      Fixed ((next.queue .output).buf other).data := by
    intro other member differ
    simpa [made, move, Queue.enqueue, Queue.modify, differ] using settled other member
  rw [enqueueMoves, runCons, ← made]
  intro other member
  cases stream : (s.queue .output).streaming with
  | false =>
    simp only [stream, Bool.false_eq_true, if_false, runNil, list] at member ⊢
    exact others other member (fun same => waits stream (same ▸ member))
  | true =>
    simp only [stream, if_true, runCons, runNil] at member ⊢
    rw [move, bufQueueSame] at member ⊢
    by_cases same : other = id
    · subst same
      simp only [Queue.handOver, Queue.modify, Function.update_self]
      exact mine.symm
    · simp only [Queue.handOver, Queue.modify, List.mem_append, List.mem_singleton, same, or_false,
        list] at member
      simpa [Queue.handOver, Queue.modify, same] using others other member same

theorem qbufSettled {s : Sys} (settled : Settled (s.queue .output))
    (loyal : (s.queue .output).streaming = false → Loyal (s.queue .output)) (index flags : Nat)
    (att : Option Attachment) : Settled ((s.step (.qbuf .output index flags att)).queue .output) := by
  rw [stepMoves]
  rcases qbufShape s .output index flags att with none_ | ⟨id, before, inside, state, made, first⟩
  · rw [none_]; exact settled
  · have prepared : Settled ((run move s before).queue .output) ∧
        ((run move s before).queue .output).ready = (s.queue .output).ready := by
      rcases first with ⟨rfl, _⟩ | ⟨prepares, _⟩
      · exact ⟨settled,rfl⟩
      · obtain ⟨a, _, rfl⟩ := prepareIs prepares
        simp only [runCons, runNil, move, queueSet]
        refine ⟨settledSame settled (fun _ member => member) (fun other _ => ?_),rfl⟩
        by_cases same : other = id
        · subst same; simp [Queue.prepare, Queue.modify, snapshot]
        · simp [Queue.prepare, Queue.modify, same]
    rw [made, runAppend]
    exact enqueueSettled prepared.1 (fun stopped member => loyal stopped id (prepared.2 ▸ member) inside state)

def Current (s : Sys) : Event → Prop
  | .streamon .output _ => (s.queue .output).streaming = false → ∀ id ∈ (s.queue .output).queued,
      ((s.queue .output).buf id).data.qbufControls = s.c.controls
  | _ => True

instance (s : Sys) (e : Event) : Decidable (Current s e) := match e with
  | .streamon .output _ => by dsimp only [Current]; infer_instance
  | .streamon .capture _ | .sFmt _ _ | .sCtrl _ _ | .setBackend _ _ | .exportSrcDmabuf _ _
  | .reqbufs _ _ _ _ _ | .createBufs _ _ _ _ _ _ | .prepareBuf _ _ _ | .qbuf _ _ _ _ | .dqbuf _
  | .streamoff _ | .deviceRun _ | .store _ _ | .setParams _ => isTrue trivial

def MoveCurrent (s : Sys) (l : Move) : Prop :=
  ∀ id, l = .handOver .output id → ((s.queue .output).buf id).data.qbufControls = s.c.controls

theorem handOversCurrent (ids : List Nat) {s : Sys}
    (now : ∀ id, id ∈ ids → ((s.queue .output).buf id).data.qbufControls = s.c.controls) :
    Meets move MoveCurrent s (ids.map (.handOver .output)) := by
  induction ids generalizing s with
  | nil => trivial
  | cons id rest ih =>
    refine ⟨fun other same => ?_,ih (fun other member => ?_)⟩
    · cases same
      exact now id (by simp)
    · have before := now other (List.mem_cons_of_mem _ member)
      have controls : (vpipeBufQueue .output s id).c.controls = s.c.controls := rfl
      rw [move, bufQueueSame, controls]
      by_cases same : other = id
      · subst same; simpa [Queue.handOver, Queue.modify, handed, stamped] using before
      · simpa [Queue.handOver, Queue.modify, same] using before

theorem otherSettled {s : Sys} {e : Event} (sane : Sane s) (settled : Settled (s.queue .output))
    (other : ∀ index flags att, e ≠ .qbuf .output index flags att) (current : Current s e) :
    Settled ((s.step e).queue .output) := by
  have keeps : ∀ s l, Steady s → Allowed s l → (∀ id flags, l ≠ .enqueue .output id flags) ∧ MoveCurrent s l →
      Settled (s.queue .output) → Settled ((move s l).queue .output) :=
    fun s l steady allowed ok so => settledMove steady.toBase allowed ok.1 ok.2 so
  have hands : Meets move MoveCurrent s (moves s e) := by
    refine handOverMeets (fun s' l none_ id same => absurd ⟨id,same⟩ none_) ?_ ?_
    · rintro env rfl stopped
      exact handOversCurrent _ (current stopped)
    · rintro s' id ⟨index, flags, att, same⟩
      exact absurd same (other index flags att)
  refine stepKeeps keeps sane settled (meetsAnd (meetsMember (fun l member _ id flags same => ?_) s) hands)
  obtain ⟨index, att, made⟩ := enqueueOrigin (same ▸ member)
  exact other index flags att made

theorem loyalMove {s : Sys} {l : Move} (base : Base s) (allowed : Allowed s l)
    (release : ∀ id, l ≠ .release .output id) (dequeue : l ≠ .dequeue .output)
    (loyal : Loyal (s.queue .output)) :
    Loyal ((move s l).queue .output) := by
  have fresh := (base.sound .output).fresh
  unfold Loyal at *
  generalize queue : (move s l).queue .output = q
  cases changedMove base allowed queue with
  | same => exact loyal
  | allocate _ => simp only [Queue.allocate]; grind
  | prepare _ _ _ _ => simp only [Queue.prepare, Queue.modify]; grind
  | enqueue _ _ _ _ => simp only [Queue.enqueue, Queue.modify]; grind
  | handOver _ _ _ => simp only [Queue.handOver, Queue.modify]; grind
  | started _ => exact loyal
  | reverted _ _ => simp only [Queue.revert]; grind
  | @completed done rest f ok _ head _ _ =>
    unfold Queue.complete
    split <;> simp only [Queue.setData, Queue.take, Queue.modify, head, List.tail_cons] <;> cases ok <;> grind
  | released made _ _ =>
    rcases made with made | made
    · exact absurd made (release _)
    · exact absurd made dequeue
  | cancelled _ _ => exact loyal
  | freed _ => simp [Queue.free]
  | reset _ _ => simp [Queue.resetReady]

theorem streamingStays {s : Sys} {e : Event} (sane : Sane s) (streaming : (s.queue .output).streaming = true)
    (stays : e ≠ .streamoff .output) : ((s.step e).queue .output).streaming = true := by
  have keeps : ∀ s l, Steady s → Allowed s l → l ≠ .cancelled .output →
      (s.queue .output).streaming = true → ((move s l).queue .output).streaming = true := by
    intro s l steady allowed goes so
    generalize queue : (move s l).queue .output = q
    cases changedMove steady.toBase allowed queue with
    | started _ => rfl
    | completed _ _ _ _ => rw [completeStreaming]; exact so
    | cancelled made _ => exact absurd made goes
    | _ => exact so
  refine stepKeeps keeps sane streaming (meetsMember (fun l member _ same => ?_) s)
  subst same
  rcases cancelOrigin (t := .output) (by simp [Cancels]) member with off | ⟨stopped, _⟩
  · exact stays off
  · simp [streaming] at stopped

theorem reqbufsLoyal {s : Sys} (sane : Sane s) (stopped : (s.queue .output).streaming = false) (count : Nat)
    (memory : Memory) (slack granted : Nat) :
    Loyal ((s.step (.reqbufs .output count memory slack granted)).queue .output) := by
  have meets := stepAllowed sane.toBase sane.rest (.reqbufs .output count memory slack granted)
  have keeps : ∀ s l, Base s ∧ Loyal (s.queue .output) → Allowed s l ∧ Allocates .output l →
      Base (move s l) ∧ Loyal ((move s l).queue .output) := by
    rintro s l ⟨base, loyal⟩ ⟨allowed, _, _, _, rfl⟩
    exact ⟨baseMove base allowed,loyalMove base allowed (by simp) (by simp) loyal⟩
  rw [stepMoves]
  simp only [moves, stopped, Bool.false_eq_true, if_false] at meets ⊢
  rw [meetsAppend] at meets
  obtain ⟨cancel, free, rest⟩ := meets
  rw [runAppend, runCons]
  -- Once the buffers are freed the driver's list names none of them.
  refine (runInvariant keeps ⟨baseMove (runBase sane.toBase cancel) free,?_⟩
    (meetsAnd rest (meetsMember (fun l member _ => ?_) _))).2
  · simp [move, Queue.free, Loyal]
  · split at member
    · simp at member
    · exact allocateBelongs member

theorem loyalStep {s : Sys} (sane : Sane s)
    (loyal : (s.queue .output).streaming = false → Loyal (s.queue .output)) (e : Event)
    (stops : ((s.step e).queue .output).streaming = false) : Loyal ((s.step e).queue .output) := by
  by_cases off : e = .streamoff .output
  · subst off
    simp [Sys.step, vidiocStreamoff, Queue.resetReady, Loyal]
  · cases stopped : (s.queue .output).streaming with
    | true =>
      rw [streamingStays sane stopped off] at stops
      contradiction
    | false =>
      have keeps : ∀ s l, Steady s → Allowed s l → (∀ id, l ≠ .release .output id) ∧ l ≠ .dequeue .output →
          Loyal (s.queue .output) → Loyal ((move s l).queue .output) :=
        fun s l steady allowed ok so => loyalMove steady.toBase allowed ok.1 ok.2 so
      by_cases req : ∃ count memory slack granted, e = .reqbufs .output count memory slack granted
      · obtain ⟨count, memory, slack, granted, rfl⟩ := req
        exact reqbufsLoyal sane stopped count memory slack granted
      · refine stepKeeps keeps sane (loyal stopped) (meetsMember (fun l member _ => ⟨?_,?_⟩) s)
        · rintro id rfl
          rcases cancelOrigin (t := .output) (by simp [Cancels]) member with same | ⟨_, same⟩
          · exact off same
          · exact req same
        · rintro rfl
          have streaming := (dequeueOrigin member).2
          simp [stopped] at streaming

structure Faithful (s : Sys) : Prop where
  settled : Settled (s.queue .output)
  loyal : (s.queue .output).streaming = false → Loyal (s.queue .output)
  frames : ∀ f ∈ s.k.frames, AsQueued f

theorem faithfulStep {s : Sys} {e : Event} (sane : Sane s) (faithful : Faithful s) (current : Current s e) :
    Faithful (s.step e) := by
  refine ⟨?_,loyalStep sane faithful.loyal e,?_⟩
  · by_cases q : ∃ index flags att, e = .qbuf .output index flags att
    · obtain ⟨index, flags, att, rfl⟩ := q
      exact qbufSettled faithful.settled faithful.loyal index flags att
    · exact otherSettled sane faithful.settled (fun index flags att same => q ⟨index,flags,att,same⟩) current
  · by_cases job : ∃ cpu, e = .deviceRun cpu
    · obtain ⟨cpu, rfl⟩ := job
      rw [stepMoves]
      simp only [moves]
      split
      · rename_i go
        exact framesMove (show Allowed s (.deviceRun cpu) from go)
          (fun _ _ _ new => asQueuedNew new faithful.settled) faithful.frames
      · exact faithful.frames
    · have keeps : ∀ s l, Steady s → Allowed s l → (∀ cpu, l ≠ .deviceRun cpu) →
          (∀ f ∈ s.k.frames, AsQueued f) → ∀ f ∈ (move s l).k.frames, AsQueued f :=
        fun s l _ _ other all => by rw [framesSame s other]; exact all
      refine stepKeeps keeps sane faithful.frames (meetsMember (fun l member _ cpu same => ?_) s)
      exact job ⟨cpu,jobOrigin (same ▸ member)⟩

/-- In a run where no control has changed between the QBUF of an OUTPUT buffer and the STREAMON
that hands it over, every frame is made with the controls in force at its QBUF. -/
theorem controlsFixedAtQbuf {clock : Nat → Nat} {params : Params} {ident : Nat} {env : OpenEnv} {s : Sys}
    {events : List Event} (opened : vpipeOpen (Kernel.boot clock params) ident env = .ok s)
    (current : Meets Sys.step Current s events) : ∀ f ∈ (run Sys.step s events).k.frames, AsQueued f := by
  have start : Faithful s := by
    obtain ⟨src, m, _, rfl⟩ := openCases opened
    exact ⟨by simp [Settled, Sys.queue, Queue.empty],fun _ => by simp [Loyal, Sys.queue, Queue.empty],
      by simp [Kernel.boot]⟩
  have keeps : ∀ s e, Sane s ∧ Faithful s → Current s e → Sane (s.step e) ∧ Faithful (s.step e) :=
    fun s e so now => ⟨saneStep so.1 e,faithfulStep so.1 so.2 now⟩
  exact (runInvariant keeps ⟨(openSane opened).1,start⟩ current).2.frames

def sequenceSeven (rest : List Event) : List Event :=
  [.sFmt .output {width := 1, height := 1},.reqbufs .output 2 .mmap 0 2,.reqbufs .capture 2 .mmap 0 2,
    .qbuf .capture 0 0 none,.streamon .capture {},.sCtrl cidSrcSequence 7] ++ rest

theorem changedAfterHandOver :
    let s := run Sys.step (openedOn (Kernel.boot (fun n => n + 1) {}) 0) (sequenceSeven
      [.streamon .output {},.qbuf .output 0 0 none,.sCtrl cidSrcSequence 9,.deviceRun 0])
    s.k.frames.map (fun f => f.entry.srcV4l2Sequence) = [7] ∧ ∀ f ∈ s.k.frames, AsQueued f :=
  ⟨by decide,controlsFixedAtQbuf (openSucceeds _ 0) (by decide)⟩

/- S_CTRL between QBUF and STREAMON: the frame carries the later value. -/
theorem changedBeforeStreamon :
    ∃ f ∈ (run Sys.step (openedOn (Kernel.boot (fun n => n + 1) {}) 0) (sequenceSeven
      [.qbuf .output 0 0 none,.sCtrl cidSrcSequence 9,.streamon .output {},.deviceRun 0])).k.frames,
      f.used.qbufControls.srcSequence = 7 ∧ f.entry.srcV4l2Sequence = 9 ∧ ¬ AsQueued f := by
  have values : ∃ f ∈ (run Sys.step (openedOn (Kernel.boot (fun n => n + 1) {}) 0) (sequenceSeven
      [.qbuf .output 0 0 none,.sCtrl cidSrcSequence 9,.streamon .output {},.deviceRun 0])).k.frames,
      f.used.qbufControls.srcSequence = 7 ∧ f.entry.srcV4l2Sequence = 9 := by
    decide
  obtain ⟨f, member, queued, carried⟩ := values
  refine ⟨f,member,queued,carried,fun same => ?_⟩
  have equal := same.srcSequence
  rw [queued, carried] at equal
  contradiction

end Vpipe.Snapshot
