import Vpipe.Lib.Lifetime
import Vpipe.Runs

/-! The life of the source of a context, from open to release: which sources and private
structures exist, and that the operations of a source are called only while it exists. The
trace of the machine is read as a trace of two kinds of resources. -/
namespace Vpipe.Teardown
open Vpipe.Lib.ByteMemory Vpipe.Lib.BufferQueue Vpipe.Lib.Transition Vpipe.Lib.Lifetime
open Vpipe.FrameSource Vpipe.M2m Vpipe.Moves Vpipe.Discipline Vpipe.Runs

inductive Resource where
  | source (ident : Nat)
  | priv (ident : Nat)
  deriving DecidableEq, Repr

def Resource.name : Resource → Nat
  | .source ident => ident
  | .priv ident => ident

def lifeOf : SourceEvent → LifeEvent Resource
  | .create i => .acquire (.source i)
  | .destroy i => .release (.source i)
  | .call _ i => .use (.source i)
  | .allocPriv p => .acquire (.priv p)
  | .freePriv p => .release (.priv p)

def life (m : Machine) : List (LifeEvent Resource) := m.trace.map lifeOf

def heldBy (src : Source) : Resource → Prop
  | .source i => i = src.ident
  | .priv p => src.priv.ident? = some p

def Matches (src : Source) : Prop :=
  match src.backend, src.priv with
  | _, .null => True
  | .synthetic, .synthetic _ => True
  | .vcamDerived, .vcam _ => True
  | _, _ => False

theorem putTrace (m : Machine) (fb : Nat) : (vcamFbPut m fb).trace = m.trace := by
  unfold vcamFbPut
  simp only
  split <;> rfl

theorem stopTrace (m : Machine) {src : Source} (fits : Matches src) :
    (src.priv = .null ∧ (vpipeSourceStop m src).1 = src ∧
      life (vpipeSourceStop m src).2 = .use (.source src.ident) :: life m) ∨
    ∃ p, src.priv.ident? = some p ∧ (vpipeSourceStop m src).1 = {src with priv := .null} ∧
      life (vpipeSourceStop m src).2 = .release (.priv p) :: .use (.source src.ident) :: life m := by
  obtain ⟨ident, backend, priv, seq⟩ := src
  cases backend <;> cases priv <;> simp only [Matches] at fits
  case synthetic.synthetic p => exact .inr ⟨p.ident,rfl,rfl,rfl⟩
  case vcamDerived.vcam p =>
    refine .inr ⟨p.ident,rfl,rfl,?_⟩
    simp [vpipeSourceStop, stopOp, vcamStop, Machine.freePriv, Machine.note, life, putTrace, lifeOf]
  all_goals exact .inl ⟨rfl,rfl,rfl⟩

theorem destroyIdle (m : Machine) {src : Source} (fits : Matches src) (idle : src.priv = .null) :
    life (vpipeSourceDestroy m src).2 =
      .release (.source src.ident) :: .use (.source src.ident) :: life m := by
  rcases stopTrace m fits with ⟨_, same, trace⟩ | ⟨p, held, _, _⟩
  · simp only [vpipeSourceDestroy, same, life, Machine.note, List.map_cons] at trace ⊢
    rw [trace]
    rfl
  · simp [idle, Priv.ident?] at held

theorem nextFrameOpTrace (m : Machine) (src : Source) (vaddr : Option Plane) (desc : FrameDesc) :
    (nextFrameOp m src vaddr desc).machine.trace = m.trace ∧
    (nextFrameOp m src vaddr desc).src.priv.ident? = src.priv.ident? ∧
    (Matches src → Matches (nextFrameOp m src vaddr desc).src) := by
  have source := nextSource m src vaddr desc
  generalize nextFrameOp m src vaddr desc = r at source ⊢
  cases source with
  | fixture _ => exact ⟨rfl,rfl,fun fits => fits⟩
  | synthetic backend next =>
    cases next with
    | refused _ => exact ⟨rfl,rfl,fun fits => fits⟩
    | dropped priv _ _ => exact ⟨rfl,by rw [priv]; rfl,by simp [Matches, backend]⟩
    | drawn priv _ _ => exact ⟨rfl,by rw [priv]; rfl,by simp [Matches, backend]⟩
  | vcam backend next =>
    cases next with
    | refused _ => exact ⟨rfl,rfl,fun fits => fits⟩
    | dropped priv _ _ => exact ⟨rfl,by rw [priv]; rfl,by simp [Matches, backend]⟩
    | drawn priv _ _ _ _ => exact ⟨rfl,by rw [priv]; rfl,by simp [Matches, backend]⟩

theorem nextFrameTrace (m : Machine) (src : Source) (vaddr : Option Plane) (desc : FrameDesc) :
    life (vpipeSourceNextFrame m src vaddr desc).machine = .use (.source src.ident) :: life m ∧
    (vpipeSourceNextFrame m src vaddr desc).src.priv.ident? = src.priv.ident? ∧
    (Matches src → Matches (vpipeSourceNextFrame m src vaddr desc).src) := by
  obtain ⟨trace, priv, fits⟩ := nextFrameOpTrace (m.note (.call .nextFrame src.ident)) src vaddr
    {width := desc.width, height := desc.height, stride := desc.stride}
  have used := congrArg (List.map lifeOf) trace
  unfold vpipeSourceNextFrame
  simp only
  split
  · exact ⟨used,priv,fits⟩
  · refine ⟨?_,priv,fits⟩
    split <;> exact used

theorem exportTrace (m : Machine) (src : Source) (exported : Bool) (fd : Option Nat) :
    life (vpipeSourceExportDmabuf m src exported fd).2 = .use (.source src.ident) :: life m := by
  unfold vpipeSourceExportDmabuf
  simp only
  split
  · simp only [vcamExportDmabuf]
    split
    · split
      · exact congrArg (List.map lifeOf) (putTrace _ _)
      · split
        · exact congrArg (List.map lifeOf) (putTrace _ _)
        · rfl
    · rfl
  · rfl

theorem startTrace (m : Machine) {src : Source} (sizeimage : Nat) (env : StartEnv) (idle : src.priv = .null) :
    let r := vpipeSourceStart m src sizeimage env
    (r.2.1 = src ∧ life r.2.2 = .use (.source src.ident) :: life m) ∨
    (r.2.1 = src ∧ life r.2.2 =
      .release (.priv m.next) :: .acquire (.priv m.next) :: .use (.source src.ident) :: life m ∧
      m.next < r.2.2.next) ∨
    (r.1 = none ∧ r.2.1.ident = src.ident ∧ r.2.1.priv.ident? = some m.next ∧ Matches r.2.1 ∧
      life r.2.2 = .acquire (.priv m.next) :: .use (.source src.ident) :: life m ∧ m.next < r.2.2.next) := by
  obtain ⟨ident, backend, priv, seq⟩ := src
  cases backend with
  | fixture => exact .inl ⟨rfl,rfl⟩
  | synthetic =>
    simp only [vpipeSourceStart, syntheticStart]
    split
    · exact .inl ⟨rfl,rfl⟩
    · exact .inr (.inr ⟨rfl,rfl,rfl,trivial,rfl,Nat.lt_succ_self _⟩)
  | vcamDerived =>
    simp only [vpipeSourceStart, vcamStart]
    split
    · exact .inl ⟨rfl,rfl⟩
    · split
      · exact .inl ⟨rfl,rfl⟩
      · cases fb : env.fb <;> cases vaddr : env.vaddr <;>
          simp only [vcamFbAlloc, fb, vaddr, Bool.not_false, Bool.not_true, if_true, if_false,
            Bool.false_eq_true]
        case true.true =>
          exact .inr (.inr ⟨trivial,trivial,rfl,trivial,rfl,Nat.lt_succ_of_lt (Nat.lt_succ_self _)⟩)
        all_goals exact .inr (.inl ⟨trivial,rfl,Nat.lt_succ_self _⟩)

structure Kept (s : Sys) : Prop where
  owns : Owns (heldBy s.c.src) (life s.k.machine)
  fresh : ∀ r, .acquire r ∈ life s.k.machine → r.name < s.k.machine.next
  fits : Matches s.c.src
  idle : (s.queue .output).streaming = false → s.c.src.priv = .null

def Move.calls : Move → Bool
  | .backend _ => true
  | .exportSrc _ _ => true
  | .stop => true
  | .handOver .output _ => true
  | .start .output _ => true
  | _ => false

theorem releaseTrace (t : QType) (s : Sys) (id : Nat) :
    (releaseOne t s id).k.machine.trace = s.k.machine.trace := by
  rcases releaseKernel t s id with ⟨_, same⟩ | ⟨_, published⟩
  · rw [same]
  · rw [published]; rfl

theorem sourceUntouched {s : Sys} {l : Move} (allowed : Allowed s l) (quiet : Move.calls l = false) :
    (move s l).k.machine.trace = s.k.machine.trace ∧ (move s l).c.src = s.c.src := by
  cases l with
  | backend id => contradiction
  | exportSrc exported fd => contradiction
  | stop => contradiction
  | handOver t id =>
    cases t with
    | output => contradiction
    | capture => exact ⟨rfl,rfl⟩
  | start t env =>
    cases t with
    | output => contradiction
    | capture => exact ⟨rfl,rfl⟩
  | release t id => exact ⟨releaseTrace t s id,rfl⟩
  | dequeue t =>
    obtain ⟨id, rest, _, made⟩ := dequeueMove allowed.1 allowed.2
    rw [made]
    cases t <;> exact ⟨releaseTrace _ s id,rfl⟩
  | deviceRun cpu =>
    obtain ⟨src, dst, _, failed | ⟨job, result, mem, _, made⟩⟩ := deviceRunCases s cpu allowed
    · rw [move, failed]; exact ⟨rfl,rfl⟩
    · rw [move, made]; exact ⟨rfl,rfl⟩
  | _ => exact ⟨rfl,rfl⟩

def Stopped (s : Sys) (l : Move) : Prop := l = .cancelled .output → s.c.src.priv = .null

theorem idleMove {s : Sys} {l : Move} (base : Base s) (allowed : Allowed s l) (stopped : Stopped s l)
    (idle : (s.queue .output).streaming = false → s.c.src.priv = .null) :
    ((move s l).queue .output).streaming = false → s.c.src.priv = .null := by
  generalize queue : (move s l).queue .output = q
  intro off
  cases changedMove base allowed queue with
  | completed _ _ streaming _ =>
    rw [completeStreaming] at off
    exact absurd (off.symm.trans streaming) (by simp)
  | started _ => simp at off
  | cancelled made _ => exact stopped made
  | _ => exact idle off

theorem privNull {p : Priv} : p.ident? = none ↔ p = .null := by
  cases p <;> simp [Priv.ident?]

theorem freshCall {m m' : Machine} (fresh : ∀ r, .acquire r ∈ life m → r.name < m.next)
    (later : m.next ≤ m'.next) (taken : ∀ r, .acquire r ∈ life m' → .acquire r ∈ life m ∨
      (r.name = m.next ∧ m.next < m'.next)) :
    ∀ r, .acquire r ∈ life m' → r.name < m'.next := by
  intro r acquired
  rcases taken r acquired with old | ⟨new, grown⟩
  · exact Nat.lt_of_lt_of_le (fresh r old) later
  · rw [new]; exact grown

theorem nextFresh {s : Sys} (kept : Kept s) {r : Resource} (name : r.name = s.k.machine.next) :
    .acquire r ∉ life s.k.machine := fun acquired => Nat.lt_irrefl _ (name ▸ kept.fresh r acquired)

section Calls
variable {s s' : Sys} (kept : Kept s) (later : s.k.machine.next ≤ s'.k.machine.next) (fits : Matches s'.c.src)
  (ident : s'.c.src.ident = s.c.src.ident)
  (idle : (s'.queue .output).streaming = false → s'.c.src.priv = .null)
include kept later fits ident idle

theorem keptCalled (priv : s'.c.src.priv.ident? = s.c.src.priv.ident?)
    (trace : life s'.k.machine = .use (.source s.c.src.ident) :: life s.k.machine) : Kept s' := by
  have here : heldBy s.c.src (.source s.c.src.ident) := rfl
  refine ⟨?_,freshCall kept.fresh later (fun r acquired => .inl (by simpa [trace] using acquired)),fits,idle⟩
  rw [trace]
  refine ownsCongr (ownsUse kept.owns here) (fun r => ?_)
  cases r with
  | source i => simp only [heldBy, ident]
  | priv p => simp only [heldBy, priv]

theorem keptFreed {p : Nat} (held : s.c.src.priv.ident? = some p) (gone : s'.c.src.priv.ident? = none)
    (trace : life s'.k.machine = .release (.priv p) :: .use (.source s.c.src.ident) :: life s.k.machine) :
    Kept s' := by
  have here : heldBy s.c.src (.source s.c.src.ident) := rfl
  refine ⟨?_,freshCall kept.fresh later (fun r acquired => .inl (by simpa [trace] using acquired)),fits,idle⟩
  rw [trace]
  refine ownsCongr (ownsRelease (ownsUse kept.owns here) held) (fun r => ?_)
  cases r with
  | source i => simp [heldBy, ident]
  | priv q => simp [heldBy, held, gone, eq_comm]

theorem keptStarted (before : s.c.src.priv.ident? = none) (after : s'.c.src.priv.ident? = some s.k.machine.next)
    (grown : s.k.machine.next < s'.k.machine.next)
    (trace : life s'.k.machine =
      .acquire (.priv s.k.machine.next) :: .use (.source s.c.src.ident) :: life s.k.machine) : Kept s' := by
  have here : heldBy s.c.src (.source s.c.src.ident) := rfl
  refine ⟨?_,freshCall kept.fresh later ?_,fits,idle⟩
  · rw [trace]
    refine ownsCongr (ownsAcquire (ownsUse kept.owns here) (by simpa using nextFresh kept rfl)) (fun r => ?_)
    cases r with
    | source i => simp [heldBy, ident]
    | priv q => simp [heldBy, before, after, eq_comm]
  · intro r acquired
    simp only [trace, List.mem_cons, LifeEvent.acquire.injEq, reduceCtorEq, false_or] at acquired
    rcases acquired with rfl | old
    · exact .inr ⟨rfl,grown⟩
    · exact .inl old

theorem keptFailed (before : s.c.src.priv.ident? = none) (after : s'.c.src.priv.ident? = none)
    (grown : s.k.machine.next < s'.k.machine.next)
    (trace : life s'.k.machine = .release (.priv s.k.machine.next) :: .acquire (.priv s.k.machine.next) ::
      .use (.source s.c.src.ident) :: life s.k.machine) : Kept s' := by
  have here : heldBy s.c.src (.source s.c.src.ident) := rfl
  refine ⟨?_,freshCall kept.fresh later ?_,fits,idle⟩
  · rw [trace]
    refine ownsCongr (ownsRelease (ownsAcquire (ownsUse kept.owns here) (by simpa using nextFresh kept rfl))
      (.inl rfl)) (fun r => ?_)
    cases r with
    | source i => simp [heldBy, ident]
    | priv q => simp [heldBy, before, after]
  · intro r acquired
    simp only [trace, List.mem_cons, LifeEvent.acquire.injEq, reduceCtorEq, false_or] at acquired
    rcases acquired with rfl | old
    · exact .inr ⟨rfl,grown⟩
    · exact .inl old

end Calls

theorem backendKept {s : Sys} (kept : Kept s) (id : Nat) : Kept (move s (.backend id)) := by
  rcases setBackendCases s id with same | ⟨stopped, _, src, m, created, made⟩
  · rw [move, same]; exact kept
  · obtain ⟨backend, rfl, rfl⟩ := createIs created
    rw [move, made]
    have idle := kept.idle stopped
    have here : heldBy s.c.src (.source s.c.src.ident) := rfl
    have older : s.c.src.ident ≠ s.k.machine.next := Nat.ne_of_lt
      (kept.fresh (.source s.c.src.ident) ((kept.owns.live (.source s.c.src.ident)).mpr rfl).1)
    have trace : life (vpipeSourceDestroy {s.k.machine with
        next := s.k.machine.next + 1, trace := .create s.k.machine.next :: s.k.machine.trace} s.c.src).2 =
        .release (.source s.c.src.ident) :: .use (.source s.c.src.ident) ::
          .acquire (.source s.k.machine.next) :: life s.k.machine := destroyIdle _ kept.fits idle
    have next := (destroySilent {s.k.machine with
        next := s.k.machine.next + 1, trace := .create s.k.machine.next :: s.k.machine.trace} s.c.src).next
    refine ⟨?_,freshCall kept.fresh (Nat.le_of_lt next) ?_,?_,fun _ => rfl⟩
    · rw [trace]
      refine ownsCongr (ownsRelease (ownsUse (ownsAcquire kept.owns (nextFresh kept rfl)) (.inr here))
        (.inr here)) (fun r => ?_)
      cases r with
      | source i => simp [heldBy]; omega
      | priv q => simp [heldBy, idle]
    · intro r acquired
      simp only [trace, List.mem_cons, LifeEvent.acquire.injEq, reduceCtorEq, false_or] at acquired
      rcases acquired with rfl | old
      · exact .inr ⟨rfl,next⟩
      · exact .inl old
    · cases backend <;> trivial

theorem stopKept {s : Sys} (kept : Kept s) (streaming : (s.queue .output).streaming = true) :
    Kept (move s .stop) := by
  have off : ((move s .stop).queue .output).streaming = false → (move s .stop).c.src.priv = .null :=
    fun stopped => absurd (stopped.symm.trans streaming) (by simp)
  have later : s.k.machine.next ≤ (move s .stop).k.machine.next := (stopSilent s.k.machine s.c.src).next
  rcases stopTrace s.k.machine kept.fits with ⟨none_, same, trace⟩ | ⟨p, held, freed, trace⟩
  · have src : (move s .stop).c.src = s.c.src := same
    exact keptCalled kept later (src ▸ kept.fits) (by rw [src]) off (by rw [src]) trace
  · have src : (move s .stop).c.src = {s.c.src with priv := .null} := freed
    have fits : Matches {s.c.src with priv := .null} := by simp [Matches]
    exact keptFreed kept later (src ▸ fits) (by rw [src]) off held (by rw [src]; rfl) trace

theorem handOverKept {s : Sys} (kept : Kept s) (id : Nat) : Kept (move s (.handOver .output id)) := by
  obtain ⟨trace, priv, fits⟩ := nextFrameTrace s.k.machine.ktimeGetNs.2 s.c.src
    (vaddr ((s.queue .output).buf id)) {((s.queue .output).buf id).data.srcDesc with
      width := s.c.outQ.width, height := s.c.outQ.height, stride := s.c.outQ.bytesperline}
  refine keptCalled kept (bufQueueGrows .output s id).next (fits kept.fits) (handOverBackend .output s id).1 ?_
    priv trace
  intro off
  have before : (s.queue .output).streaming = false := by
    have queue := bufQueueSame .output s id
    rw [move, queue] at off
    exact off
  exact privNull.mp (priv.trans (privNull.mpr (kept.idle before)))

theorem startKept {s : Sys} (kept : Kept s) (off : (s.queue .output).streaming = false) (env : StartEnv) :
    Kept (move s (.start .output env)) := by
  have idle := kept.idle off
  have none_ := privNull.mpr idle
  have later := (startGrows .output s env).next
  obtain ⟨machine, src⟩ := startOutput s env
  have result := startTrace s.k.machine s.c.outQ.sizeimage env idle
  simp only [← machine, ← src] at result
  rcases result with ⟨same, trace⟩ | ⟨same, trace, grown⟩ | ⟨ok, ident, priv, fits, trace, grown⟩
  · exact keptCalled kept later (same ▸ kept.fits) (by rw [same]) (fun _ => same ▸ idle) (by rw [same]) trace
  · exact keptFailed kept later (same ▸ kept.fits) (by rw [same]) (fun _ => same ▸ idle) none_
      (by rw [same, none_]) grown trace
  · refine keptStarted kept later fits ident ?_ none_ priv grown trace
    intro stopped
    rcases startCases s .output env with ⟨_, queue⟩ | ⟨_, failed, _⟩
    · simp [queue] at stopped
    · exact absurd ok failed

theorem keptMove {s : Sys} {l : Move} (steady : Steady s) (allowed : Allowed s l) (stopped : Stopped s l)
    (kept : Kept s) : Kept (move s l) := by
  have later := (moveGrows s allowed).next
  cases quiet : Move.calls l with
  | false =>
    obtain ⟨trace, src⟩ := sourceUntouched allowed quiet
    have same : life (move s l).k.machine = life s.k.machine := congrArg (List.map lifeOf) trace
    refine ⟨?_,?_,?_,?_⟩
    · rw [same, src]; exact kept.owns
    · exact freshCall kept.fresh later (fun r acquired => .inl (same ▸ acquired))
    · rw [src]; exact kept.fits
    · rw [src]; exact idleMove steady.toBase allowed stopped kept.idle
  | true =>
    cases l <;> simp only [Move.calls, Bool.false_eq_true] at quiet
    case backend id => exact backendKept kept id
    case stop => exact stopKept kept allowed
    case exportSrc exported fd =>
      exact keptCalled kept later kept.fits rfl kept.idle rfl (exportTrace s.k.machine s.c.src exported fd)
    case handOver t id =>
      cases t with
      | capture => contradiction
      | output => exact handOverKept kept id
    case start t env =>
      cases t with
      | capture => contradiction
      | output => exact startKept kept allowed env

theorem stopNull {s : Sys} (kept : Kept s) : (move s .stop).c.src.priv = .null := by
  rcases stopTrace s.k.machine kept.fits with ⟨none_, same, _⟩ | ⟨_, _, freed, _⟩
  · exact (congrArg Source.priv same).trans none_
  · exact congrArg Source.priv freed

theorem mapKeepsNull {s : Sys} {make : Nat → Move} (quiet : ∀ (s : Sys) id, (move s (make id)).c.src = s.c.src)
    (ids : List Nat) (null : s.c.src.priv = .null) : (run move s (ids.map make)).c.src.priv = .null := by
  refine runMember (fun s' : Sys => s'.c.src.priv = .null) (fun s' l member so => ?_) null
  obtain ⟨id, _, rfl⟩ := List.mem_map.mp member
  rw [quiet]
  exact so

theorem cancelStopped {s : Sys} (kept : Kept s) (t : QType) : Meets move Stopped s (cancelMoves s t) := by
  rw [cancelMoves, meetsAppend]
  refine ⟨meetsMember (fun l member s' made => ?_) s,?_,trivial⟩
  · subst made
    exfalso
    simp only [List.mem_append, List.mem_map, reduceCtorEq, and_false, exists_false, or_false] at member
    split at member
    · cases t <;> simp [stopMoves] at member
    · simp at member
  · intro made
    cases made
    rw [runAppend]
    refine mapKeepsNull (fun _ _ => rfl) _ ?_
    split
    · exact mapKeepsNull (s := move s .stop) (fun _ _ => rfl) _ (stopNull kept)
    · rename_i off
      exact kept.idle (by simpa using off)

theorem stoppedMeets {s : Sys} {e : Event} (kept : Kept s) : Meets move Stopped s (moves s e) := by
  cases e with
  | reqbufs t count memory slack granted =>
    simp only [moves]
    split
    · trivial
    · rw [meetsAppend]
      refine ⟨cancelStopped kept t,by simp [Stopped],meetsMember (fun l member s' made => ?_) _⟩
      split at member
      · simp at member
      · obtain ⟨memory, size, slack, rfl⟩ := allocateBelongs member
        cases made
  | streamoff t =>
    simp only [moves]
    rw [meetsAppend]
    exact ⟨cancelStopped kept t,by simp [Stopped],trivial⟩
  | _ =>
    refine meetsMember (fun l member s' made => ?_) s
    subst made
    have belongs := movesBelong member
    simp [Belongs, Allocates] at belongs

theorem keptStep {s : Sys} {e : Event} (sane : Sane s) (kept : Kept s) : Kept (s.step e) :=
  stepKeeps (fun _ _ steady allowed stopped so => keptMove steady allowed stopped so) sane kept
    (stoppedMeets kept)

theorem cancelTrace {s : Sys} {t : QType} (quiet : t = .capture ∨ (s.queue t).streaming = false) :
    (s.cancel t).k.machine.trace = s.k.machine.trace := by
  rw [← cancelledMoves]
  refine runMember (fun s' : Sys => s'.k.machine.trace = s.k.machine.trace) (fun s' l member so => ?_) rfl
  rcases cancelBelongs member with ⟨rfl, rfl⟩ | ⟨id, rfl⟩ | ⟨id, rfl⟩ | rfl
  · have off : (s.queue .output).streaming = false := quiet.resolve_left (by decide)
    simp [cancelMoves, off] at member
  · exact so
  · exact (releaseTrace t s' id).trans so
  · exact so

theorem releaseLife {s : Sys} (kept : Kept s) (off : (s.queue .output).streaming = false) :
    life (vpipeRelease s).k.machine =
      .release (.source s.c.src.ident) :: .use (.source s.c.src.ident) :: life s.k.machine := by
  refine Eq.trans (congrArg (List.map lifeOf) ?_) (destroyIdle s.k.machine kept.fits (kept.idle off))
  have off2 : ((drop (sourceDropped s) .capture).queue .output).streaming = false := by
    rw [dropOther _ (by decide)]
    exact off
  calc (vpipeRelease s).k.machine.trace
      = (drop (drop (sourceDropped s) .capture) .output).k.machine.trace := by rw [releaseDrops]
    _ = (drop (sourceDropped s) .capture).k.machine.trace := cancelTrace (.inr off2)
    _ = (sourceDropped s).k.machine.trace := cancelTrace (.inl rfl)
    _ = (vpipeSourceDestroy s.k.machine s.c.src).2.trace := rfl

inductive File where
  | opened (s : Sys)
  | closed (left : Sys)

def File.sys : File → Sys
  | .opened s => s
  | .closed left => left

inductive FileEvent where
  | ioctl (e : Event)
  | release
  deriving DecidableEq, Repr

def File.step : File → FileEvent → File
  | .opened s, .ioctl e => .opened (s.step e)
  | .opened s, .release => .closed (vpipeRelease s)
  | .closed left, _ => .closed left

def Orderly : File → FileEvent → Prop
  | .opened s, .release => (s.queue .output).streaming = false
  | _, _ => True

instance (f : File) (e : FileEvent) : Decidable (Orderly f e) := by unfold Orderly; split <;> infer_instance

def Accounted : File → Prop
  | .opened s => Sane s ∧ Kept s
  | .closed left => Owns (fun _ => False) (life left.k.machine)

theorem accountedStep {f : File} {e : FileEvent} (so : Accounted f) (orderly : Orderly f e) :
    Accounted (f.step e) := by
  cases f with
  | closed left => exact so
  | opened s =>
    obtain ⟨sane, kept⟩ := so
    cases e with
    | ioctl e => exact ⟨saneStep sane e,keptStep sane kept⟩
    | release =>
      have here : heldBy s.c.src (.source s.c.src.ident) := rfl
      simp only [File.step, Accounted]
      rw [releaseLife kept orderly]
      refine ownsCongr (ownsRelease (ownsUse kept.owns here) here) (fun r => ?_)
      cases r with
      | source i => simp [heldBy]
      | priv p => simp [heldBy, kept.idle orderly, Priv.ident?]

theorem openKept {k : Kernel} {ident : Nat} {env : OpenEnv} {s : Sys} (opened : vpipeOpen k ident env = .ok s)
    (unused : k.machine.trace = []) : Kept s := by
  obtain ⟨src, m, created, rfl⟩ := openCases opened
  obtain ⟨backend, rfl, rfl⟩ := createIs created
  have empty : Owns (fun _ => False) (life k.machine) :=
    ⟨by simp [life, unused, InOrder],fun r => by simp [life, unused, Live]⟩
  have trace : life {k.machine with
      next := k.machine.next + 1, trace := .create k.machine.next :: k.machine.trace} =
      .acquire (.source k.machine.next) :: life k.machine := rfl
  refine ⟨?_,?_,by cases backend <;> trivial,fun _ => rfl⟩
  · rw [trace]
    refine ownsCongr (ownsAcquire empty (by simp [life, unused])) (fun r => ?_)
    cases r with
    | source i => simp [heldBy]
    | priv p => simp [heldBy, Priv.ident?]
  · intro r acquired
    rw [trace] at acquired
    obtain rfl : r = .source k.machine.next := by simpa [life, unused] using acquired
    exact Nat.lt_succ_self _

/-- In a run that does not close the file while OUTPUT is streaming, every operation is called
on a source that exists, and once the file is closed every source created has been destroyed
exactly once and every private structure allocated has been freed exactly once. -/
theorem sourceLifetimes {k : Kernel} {ident : Nat} {env : OpenEnv} {s : Sys} {events : List FileEvent}
    (opened : vpipeOpen k ident env = .ok s) (unused : k.machine.trace = [])
    (orderly : Meets File.step Orderly (.opened s) events) :
    let f := run File.step (.opened s) events
    InOrder (life f.sys.k.machine) ∧
    (∀ left, f = .closed left → ∀ r, .acquire r ∈ life left.k.machine →
      (life left.k.machine).count (.release r) = 1) := by
  intro f
  have start : Accounted (.opened s) := ⟨(openSane opened).1,openKept opened unused⟩
  have so : Accounted f := runInvariant (fun _ _ so ok => accountedStep so ok) start orderly
  generalize f = f at so
  cases f with
  | opened s => exact ⟨so.2.owns.sound,fun left same => nomatch same⟩
  | closed left =>
    refine ⟨so.sound,fun left' same => ?_⟩
    cases same
    exact ownsNothing so (fun _ no => no)

def streamingSynthetic : List FileEvent :=
  [.ioctl (.setBackend 2 true),.ioctl (.reqbufs .output 2 .mmap 0 2),.ioctl (.streamon .output {})]

def bootedFile : File := .opened (openedOn (Kernel.boot (fun n => n + 1) {}) 0)

theorem stoppedFileAccounted :
    let f := run File.step bootedFile (streamingSynthetic ++ [.ioctl (.streamoff .output),.release])
    InOrder (life f.sys.k.machine) ∧
    (∀ left, f = .closed left → ∀ r, .acquire r ∈ life left.k.machine →
      (life left.k.machine).count (.release r) = 1) :=
  sourceLifetimes (openSucceeds _ 0) rfl (by decide)

/- vpipe_release while OUTPUT is streaming: synthetic_stop is called on the freed source. -/
theorem streamingReleaseUnsound :
    ¬ InOrder (life (run File.step bootedFile (streamingSynthetic ++ [.release])).sys.k.machine) := by
  decide

end Vpipe.Teardown
