import Vpipe.Runs

/-! A STREAMON(OUTPUT) whose source does not start. buf_queue has put every queued buffer on the
driver's ready list before start_streaming is called, and vb2 takes them back without the driver
knowing; whatever the list held then is met again by the next STREAMON. -/
namespace Vpipe.Restart
open Vpipe.Lib.Word Vpipe.Lib.ByteMemory Vpipe.Lib.BufferQueue Vpipe.Lib.Transition
open Vpipe.Cv Vpipe.FrameSource Vpipe.MetaRing Vpipe.M2m Vpipe.Moves Vpipe.Discipline Vpipe.Runs

structure Handed (s s' : Sys) (t : QType) (ids : List Nat) : Prop where
  ready : (s'.queue t).ready = (s.queue t).ready ++ ids
  queued : (s'.queue t).queued = (s.queue t).queued
  streaming : (s'.queue t).streaming = (s.queue t).streaming
  backend : s'.c.src.backend = s.c.src.backend
  format : s'.c.outQ = s.c.outQ

theorem handsOver (t : QType) (ids : List Nat) (s : Sys) : Handed s (run (vpipeBufQueue t) s ids) t ids := by
  induction ids generalizing s with
  | nil => exact ⟨(List.append_nil _).symm,rfl,rfl,rfl,rfl⟩
  | cons id rest ih =>
    obtain ⟨ready, queued, streaming, backend, format⟩ := ih (vpipeBufQueue t s id)
    rw [bufQueueSame] at ready queued streaming
    refine ⟨?_,queued,streaming,backend.trans (handOverBackend t s id).2,format.trans ?_⟩
    · exact ready.trans (List.append_assoc _ _ _)
    · cases t <;> rfl

inductive Streamon (s : Sys) (env : StartEnv) : Option Errno → Queue VpipeBuffer → Prop where
  | started {s'} (handed : Handed s s' .output (s.queue .output).queued)
      (fine : startFails s.c.src.backend s.c.outQ.sizeimage env = false) :
      Streamon s env none {s'.queue .output with streaming := true}
  | failed {s' e} (handed : Handed s s' .output (s.queue .output).queued)
      (fails : startFails s.c.src.backend s.c.outQ.sizeimage env = true) :
      Streamon s env (some e) (s'.queue .output).revert

theorem streamonCases {s : Sys} (stopped : (s.queue .output).streaming = false)
    (some_ : (s.queue .output).ids ≠ []) (env : StartEnv) :
    Streamon s env (vidiocStreamon s .output env).1 ((vidiocStreamon s .output env).2.queue .output) := by
  have handed := handsOver .output (s.queue .output).queued s
  simp only [vidiocStreamon, stopped, List.isEmpty_iff, some_, Bool.false_eq_true, if_false]
  generalize run (vpipeBufQueue .output) s (s.queue .output).queued = s' at handed ⊢
  have same := startStreamingQueue s' .output .output env
  have ret : (vpipeStartStreaming s' .output env).1 ≠ none ↔
      startFails s.c.src.backend s.c.outQ.sizeimage env = true := by
    rw [← handed.backend, ← handed.format]
    exact startFailed s'.k.machine s'.c.src s'.c.outQ.sizeimage env
  split <;> rename_i made
  · rw [made] at same ret
    rw [queueSet, show _ = s'.queue .output from same]
    exact .started handed (by simpa using ret)
  · rw [made] at same ret
    rw [queueSet, show _ = s'.queue .output from same]
    exact .failed handed (by simpa using ret)

theorem streamonReady {s : Sys} (stopped : (s.queue .output).streaming = false)
    (some_ : (s.queue .output).ids ≠ []) (env : StartEnv) :
    ((vidiocStreamon s .output env).2.queue .output).ready =
      (s.queue .output).ready ++ (s.queue .output).queued := by
  have after := streamonCases stopped some_ env
  generalize (vidiocStreamon s .output env).2.queue .output = q at after ⊢
  generalize (vidiocStreamon s .output env).1 = ret at after
  cases after with
  | started handed _ => exact handed.ready
  | failed handed _ => exact handed.ready

theorem streamonFailed {s : Sys} (stopped : (s.queue .output).streaming = false)
    (some_ : (s.queue .output).ids ≠ []) {env : StartEnv}
    (fails : startFails s.c.src.backend s.c.outQ.sizeimage env = true) :
    ((vidiocStreamon s .output env).2.queue .output).streaming = false ∧
    ((vidiocStreamon s .output env).2.queue .output).queued = (s.queue .output).queued ∧
    ∀ id, (((vidiocStreamon s .output env).2.queue .output).buf id).state ≠ .active := by
  have after := streamonCases stopped some_ env
  generalize (vidiocStreamon s .output env).2.queue .output = q at after ⊢
  generalize (vidiocStreamon s .output env).1 = ret at after
  cases after with
  | started _ fine => exact absurd (fine.symm.trans fails) (by decide)
  | failed handed _ =>
    refine ⟨handed.streaming.trans stopped,handed.queued,fun id => ?_⟩
    simp only [Queue.revert]
    split
    · simp
    · assumption

def Quiet (s : Sys) : Prop := (s.queue .output).streaming = false ∧ (s.queue .output).ready = []

def Gentle (l : Move) : Prop := (∀ id, l ≠ .handOver .output id) ∧ ∀ env, l ≠ .start .output env

theorem quietMove (s : Sys) (l : Move) (steady : Steady s) (allowed : Allowed s l) (gentle : Gentle l)
    (quiet : Quiet s) : Quiet (move s l) := by
  obtain ⟨stopped, empty⟩ := quiet
  unfold Quiet
  generalize queue : (move s l).queue .output = q
  cases changedMove steady.toBase allowed queue with
  | handOver made => exact absurd made (gentle.1 _)
  | started made => exact absurd made (gentle.2 _)
  | reverted made => exact absurd made (gentle.2 _)
  | completed _ head => simp [empty] at head
  | cancelled => exact ⟨rfl,empty⟩
  | reset => exact ⟨stopped,rfl⟩
  | _ => exact ⟨stopped,empty⟩

theorem gentleMeets {s : Sys} {e : Event} (other : ∀ env, e ≠ .streamon .output env) (quiet : Quiet s) :
    Meets move (fun _ l => Gentle l) s (moves s e) := by
  -- Only a streaming queue hands a buffer over at QBUF.
  have hands : Meets move (fun _ l => ∀ id, l ≠ .handOver .output id) s (moves s e) := by
    refine handOverMeets (fun _ l no id same => no ⟨id,same⟩) (fun env same => absurd same (other env)) ?_
    intro s' id _ at_
    exact absurd (quiet.1.symm.trans at_.before) (by decide)
  have starts : Meets move (fun _ l => ∀ env, l ≠ .start .output env) s (moves s e) :=
    meetsMember (fun l member _ env same => other env (startOrigin (same ▸ member))) s
  exact meetsAnd hands starts

theorem quietRun {s : Sys} (sane : Sane s) (quiet : Quiet s) {between : List Event}
    (others : ∀ e ∈ between, ∀ env, e ≠ .streamon .output env) :
    Sane (run Sys.step s between) ∧ Quiet (run Sys.step s between) :=
  runKeeps quietMove (fun _ _ _ quiet other => gentleMeets other quiet) sane quiet
    (meetsMember (fun e member _ => others e member) s)

def failedStart (s : Sys) (env : StartEnv) : Sys := (vidiocStreamon s .output env).2

structure LeavesNothing (s : Sys) (env : StartEnv) : Prop where
  ready : ((failedStart s env).queue .output).ready = []
  owned : ∀ id, (((failedStart s env).queue .output).buf id).state ≠ .active
  queued : ((failedStart s env).queue .output).queued = (s.queue .output).queued
  waiting : ∀ id ∈ (s.queue .output).queued, (((failedStart s env).queue .output).buf id).state = .queued
  between : ∀ events : List Event, (∀ e ∈ events, ∀ env', e ≠ .streamon .output env') →
    ((run Sys.step (failedStart s env) events).queue .output).ready = []
  again : ∀ events : List Event, (∀ e ∈ events, ∀ env', e ≠ .streamon .output env') →
    let t := run Sys.step (failedStart s env) events
    ∀ env', (vidiocStreamon t .output env').1 = none → ∀ id ∈ (t.queue .output).queued,
      ((vidiocStreamon t .output env').2.queue .output).ready.count id = 1

/-- In every state a context can reach, a STREAMON(OUTPUT) whose source fails to start leaves
nothing behind exactly when nothing was queued and the ready list was empty. -/
theorem failedStartLeaves {k : Kernel} {ident : Nat} {openEnv : OpenEnv} {opened : Sys}
    (open_ : vpipeOpen k ident openEnv = .ok opened) (events : List Event)
    (stopped : ((run Sys.step opened events).queue .output).streaming = false)
    (some_ : ((run Sys.step opened events).queue .output).ids ≠ []) {env : StartEnv}
    (fails : startFails (run Sys.step opened events).c.src.backend
      (run Sys.step opened events).c.outQ.sizeimage env = true) :
    LeavesNothing (run Sys.step opened events) env ↔
      ((run Sys.step opened events).queue .output).queued = [] ∧
      ((run Sys.step opened events).queue .output).ready = [] := by
  have sane : Sane (run Sys.step opened events) :=
    runAlways (fun s e (so : Sane s) => saneStep so e) (openSane open_).1 events
  generalize run Sys.step opened events = s at *
  have list := streamonReady stopped some_ env
  obtain ⟨off, queued, owned⟩ := streamonFailed stopped some_ fails
  constructor
  · intro leaves
    have empty := list.symm.trans leaves.ready
    exact (List.append_eq_nil_iff.mp empty).symm
  · rintro ⟨none_, empty⟩
    have ready : ((failedStart s env).queue .output).ready = [] := by
      rw [failedStart, list, none_, empty]
      rfl
    have after : Sane (failedStart s env) := saneStep sane (.streamon .output env)
    have quiet : Quiet (failedStart s env) := ⟨off,ready⟩
    refine ⟨ready,owned,queued,by simp [none_],?_,?_⟩
    · intro events others
      exact (quietRun after quiet others).2.2
    · intro events others t env' started id waiting
      obtain ⟨later, still⟩ := quietRun after quiet others
      have wf := (later.sound .output).wf
      have member := (wf.queued id).mp waiting
      rw [streamonReady still.1 (List.ne_nil_of_mem member.1), still.2, List.nil_append]
      exact List.count_eq_one_of_mem wf.queuedDistinct waiting

def synthetic (queued : List Event) : List Event :=
  [.setBackend 2 true,.sFmt .output ⟨1,1,0,0,0,0,0,0,0,0⟩,.reqbufs .output 2 .mmap 0 2] ++ queued

theorem emptyStartLeaves :
    let s := run Sys.step (openedOn (Kernel.boot (fun n => n + 1) {}) 0) (synthetic [])
    ((s.queue .output).queued = [] ∧ (s.queue .output).ready = []) ∧ LeavesNothing s {priv := false} := by
  refine ⟨by decide,?_⟩
  exact (failedStartLeaves (openSucceeds _ 0) (synthetic []) (by decide) (by decide)
    (show startFails _ _ {priv := false} = true by decide)).mpr (by decide)

/- With one buffer queued the failed start leaves it on the ready list. SET_BACKEND finds it there,
and after the next STREAMON it is listed twice. -/
theorem failedStartDuplicates :
    let s := run Sys.step (openedOn (Kernel.boot (fun n => n + 1) {}) 0) (synthetic [.qbuf .output 0 0 none])
    let t := (failedStart s {priv := false}).step (.setBackend 1 true)
    (s.queue .output).queued = [2] ∧ (vidiocStreamon s .output {priv := false}).1 = some .enomem ∧
    ((failedStart s {priv := false}).queue .output).ready = [2] ∧ t.c.src.backend = .fixture ∧
    (t.queue .output).ready = [2] ∧ ((t.queue .output).buf 2).data.handover.map Handover.backend =
      some .synthetic ∧
    (vidiocStreamon t .output {}).1 = none ∧ ((vidiocStreamon t .output {}).2.queue .output).ready = [2,2] ∧
    ¬ LeavesNothing s {priv := false} := by
  refine ⟨by decide,by decide,by decide,by decide,by decide,by decide,by decide,by decide,?_⟩
  intro leaves
  exact absurd leaves.ready (by decide)

end Vpipe.Restart
