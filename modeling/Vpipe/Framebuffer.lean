import Vpipe.FrameSource
import Vpipe.Lib.RefCount
import Vpipe.Lib.Transition

/-! The framebuffers of the vcam backend and the DMA-BUFs exported from them. A source is started
and stopped over and over, and exports of an old session may outlive it. -/
namespace Vpipe.Framebuffer
open Vpipe.Lib.ByteMemory Vpipe.Lib.Lifetime Vpipe.Lib.RefCount Vpipe.Lib.Transition Vpipe.FrameSource

/- `live` has the framebuffer of every DMA-BUF that is still open; `trace` records, newest first,
when framebuffers are allocated, used and released. -/
structure Exports where
  machine : Machine
  src : Source
  live : List Nat
  trace : List (LifeEvent Nat)

inductive Event where
  | start (sizeimage : Nat) (env : StartEnv)
  | stop
  | exportDmabuf (exported : Bool) (fd : Option Nat)
  | close (index : Nat)
  | nextFrame (vaddr : Option Plane) (desc : FrameDesc)
  | callback (index : Nat)

def fbOf (src : Source) : Option Nat :=
  match src.priv with
  | .vcam p => some p.fb
  | _ => none

def vcamDmabufRelease (m : Machine) (fb : Nat) : Machine := vcamFbPut m fb

def releases (m m' : Machine) : List (LifeEvent Nat) :=
  (m'.fbReleased.take (m'.fbReleased.length - m.fbReleased.length)).map .release

def Exports.moved (s : Exports) (m : Machine) (events : List (LifeEvent Nat)) : Exports :=
  {s with machine := m, trace := releases s.machine m ++ (events ++ s.trace)}

def used (src : Source) : List (LifeEvent Nat) := (fbOf src).toList.map .use

/- The last reference to a DMA-BUF is dropped by `close`; `callback` is any of its other
operations (map, mmap, vmap), which work on the framebuffer it carries. -/
def step (s : Exports) : Event → Exports
  | .start sizeimage env =>
    match vcamStart s.machine s.src sizeimage env with
    | (none,src,m) => {s.moved m ((fbOf src).toList.map .acquire) with src := src}
    | (some _,src,m) => {s.moved m [] with src := src}
  | .stop =>
    let (src,m) := vcamStop s.machine s.src
    {s.moved m [] with src := src}
  | .exportDmabuf exported fd =>
    match vcamExportDmabuf s.machine s.src exported fd with
    | (.ok _,m) => {s.moved m (used s.src) with live := (fbOf s.src).toList ++ s.live}
    | (.error _,m) => s.moved m (used s.src)
  | .close index =>
    match s.live[index]? with
    | none => s
    | some fb => {s.moved (vcamDmabufRelease s.machine fb) [] with live := s.live.eraseIdx index}
  | .nextFrame vaddr desc =>
    let r := vcamNextFrame s.machine s.src vaddr desc
    {s.moved r.machine (used s.src) with src := r.src}
  | .callback index =>
    match s.live[index]? with
    | none => s
    | some fb => s.moved s.machine [.use fb]

def holders (s : Exports) (fb : Nat) : Nat := (fbOf s.src).toList.count fb + s.live.count fb

def Alternates (s : Exports) : Event → Prop
  | .start _ _ => s.src.priv = .null
  | _ => True

structure Tracked (s : Exports) : Prop where
  counts : Counts (fun fb => (s.machine.fbs fb).refcount) (holders s) s.trace
  fresh : ∀ fb, .acquire fb ∈ s.trace → fb < s.machine.next

theorem putRefs (m : Machine) (fb : Nat) : (fun x => ((vcamFbPut m fb).fbs x).refcount) =
    Function.update (fun x => (m.fbs x).refcount) fb ((m.fbs fb).refcount - 1) := by
  have fbs : (vcamFbPut m fb).fbs = Function.update m.fbs fb
      {m.fbs fb with refcount := (m.fbs fb).refcount - 1} := by
    unfold vcamFbPut
    simp only
    split <;> rfl
  funext x
  rw [fbs, Function.update_apply, Function.update_apply]
  split <;> rfl

theorem putNext (m : Machine) (fb : Nat) : (vcamFbPut m fb).next = m.next := by
  unfold vcamFbPut
  simp only
  split <;> rfl

theorem putReleases (m : Machine) (fb : Nat) : releases m (vcamFbPut m fb) =
    if (m.fbs fb).refcount - 1 = 0 then [.release fb] else [] := by
  unfold vcamFbPut
  simp only
  split <;> simp [releases]

theorem getRefs (m : Machine) (fb : Nat) : (fun x => ((vcamFbGet m fb).fbs x).refcount) =
    Function.update (fun x => (m.fbs x).refcount) fb ((m.fbs fb).refcount + 1) := by
  funext x
  simp only [vcamFbGet, Function.update_apply]
  split <;> rfl

theorem releasesNone {m m' : Machine} (same : m'.fbReleased = m.fbReleased) : releases m m' = [] := by
  simp [releases, same]

theorem trackedPut {s s' : Exports} (tracked : Tracked s) {fb : Nat} (held : 0 < holders s fb)
    (fbs : s'.machine.fbs = (vcamFbPut s.machine fb).fbs) (next : s'.machine.next = s.machine.next)
    (trace : s'.trace = releases s.machine (vcamFbPut s.machine fb) ++ s.trace)
    (dropped : holders s' = Function.update (holders s) fb (holders s fb - 1)) : Tracked s' := by
  constructor
  · rw [fbs, putRefs, trace, putReleases, dropped]
    exact countsPut tracked.counts held
  · intro x acquired
    rw [trace, putReleases] at acquired
    rw [next]
    refine tracked.fresh x ?_
    split at acquired
    · simpa using acquired
    · exact acquired

theorem ownHeld {s : Exports} {p : VcamPriv} (priv : s.src.priv = .vcam p) : 0 < holders s p.fb := by
  simp [holders, fbOf, priv]

theorem liveHeld {s : Exports} {fb index : Nat} (found : s.live[index]? = some fb) : 0 < holders s fb := by
  have := List.count_pos_iff.mpr (List.mem_of_getElem? found)
  unfold holders
  omega

theorem trackedUse {s : Exports} (tracked : Tracked s) {fb : Nat} (held : 0 < holders s fb) :
    Tracked {s with trace := .use fb :: s.trace} :=
  ⟨countsUse tracked.counts held,fun x acquired => tracked.fresh x (by simpa using acquired)⟩

theorem trackedSame {s s' : Exports} (tracked : Tracked s) (fbs : s'.machine.fbs = s.machine.fbs)
    (next : s.machine.next ≤ s'.machine.next) (trace : s'.trace = s.trace) (same : holders s' = holders s) :
    Tracked s' := by
  constructor
  · rw [fbs, trace, same]
    exact tracked.counts
  · intro fb acquired
    rw [trace] at acquired
    exact Nat.lt_of_lt_of_le (tracked.fresh fb acquired) next

inductive Starts (m : Machine) (src : Source) : Option Errno → Source → Machine → Prop where
  | failed {e m'} (fbs : m'.fbs = m.fbs) (next : m.next ≤ m'.next) (released : m'.fbReleased = m.fbReleased) :
      Starts m src (some e) src m'
  | started {p m'} {size : Nat} (fbs : m'.fbs = Function.update m.fbs p.fb ⟨1,size⟩) (above : m.next ≤ p.fb)
      (below : p.fb < m'.next) (released : m'.fbReleased = m.fbReleased) :
      Starts m src none {src with priv := .vcam p} m'

theorem startCases (m : Machine) (src : Source) (sizeimage : Nat) (env : StartEnv) :
    Starts m src (vcamStart m src sizeimage env).1 (vcamStart m src sizeimage env).2.1
      (vcamStart m src sizeimage env).2.2 := by
  unfold vcamStart
  split
  · exact .failed rfl (Nat.le_refl _) rfl
  · split
    · exact .failed rfl (Nat.le_refl _) rfl
    · simp only [vcamFbAlloc]
      cases fb : env.fb with
      | false => exact .failed rfl (Nat.le_succ _) rfl
      | true =>
        cases vaddr : env.vaddr with
        | false => exact .failed rfl (Nat.le_succ _) rfl
        | true => exact .started rfl (Nat.le_succ _) (Nat.lt_succ_self _) rfl

theorem trackedStart {s : Exports} (tracked : Tracked s) (stopped : s.src.priv = .null) (sizeimage : Nat)
    (env : StartEnv) : Tracked (step s (.start sizeimage env)) := by
  have answer := startCases s.machine s.src sizeimage env
  simp only [step]
  generalize vcamStart s.machine s.src sizeimage env = r at answer ⊢
  obtain ⟨ret, src, m⟩ := r
  cases answer with
  | failed fbs next released =>
    exact trackedSame tracked fbs next (by simp [Exports.moved, releasesNone released]) rfl
  | @started p m' size fbs above below released =>
    have unknown : .acquire p.fb ∉ s.trace := fun acquired => by
      have := tracked.fresh p.fb acquired
      omega
    have unheld : s.live.count p.fb = 0 := by
      by_contra held
      exact unknown (heldAcquired tracked.counts (by unfold holders; omega))
    have trace : releases s.machine m ++ ([.acquire p.fb] ++ s.trace) = .acquire p.fb :: s.trace := by
      rw [releasesNone released]
      rfl
    constructor
    · have refs : (fun fb => (m.fbs fb).refcount) =
          Function.update (fun fb => (s.machine.fbs fb).refcount) p.fb 1 := by
        funext x
        rw [fbs, Function.update_apply, Function.update_apply]
        split <;> rfl
      refine countsCongr (trace ▸ countsAcquire tracked.counts unknown)
        (fun x _ => congrFun refs x) (fun x => ?_)
      by_cases same : x = p.fb
      · subst same
        simp [holders, fbOf, Exports.moved, unheld]
      · simp [holders, fbOf, Exports.moved, stopped, same, Ne.symm same]
    · intro x acquired
      have acquired : .acquire x ∈ releases s.machine m ++ ([.acquire p.fb] ++ s.trace) := acquired
      rw [trace] at acquired
      show x < m.next
      rcases List.mem_cons.mp acquired with same | before
      · cases same
        exact below
      · exact Nat.lt_trans (Nat.lt_of_lt_of_le (tracked.fresh x before) above) below

theorem trackedStop {s : Exports} (tracked : Tracked s) : Tracked (step s .stop) := by
  cases priv : s.src.priv with
  | vcam p =>
    refine trackedPut tracked (ownHeld priv) ?_ ?_ ?_ ?_
    all_goals simp only [step, vcamStop, priv, Exports.moved]
    · rfl
    · exact putNext s.machine p.fb
    · rfl
    · funext x
      by_cases same : x = p.fb
      · subst same
        simp [holders, fbOf, priv]
      · simp [holders, fbOf, priv, same, Ne.symm same]
  | null =>
    refine trackedSame tracked ?_ ?_ ?_ ?_
    all_goals simp [step, vcamStop, priv, Exports.moved, releases]
  | synthetic p =>
    refine trackedSame tracked ?_ ?_ ?_ ?_
    all_goals simp [step, vcamStop, priv, Exports.moved, releases]

theorem trackedClose {s : Exports} (tracked : Tracked s) (index : Nat) : Tracked (step s (.close index)) := by
  simp only [step]
  split
  · exact tracked
  · rename_i fb found
    refine trackedPut tracked (liveHeld found) rfl (putNext s.machine fb) rfl ?_
    obtain ⟨inside, same⟩ := List.getElem?_eq_some_iff.mp found
    funext x
    have count : (s.live.eraseIdx index).count x = (s.live.erase fb).count x := by
      rw [← same]
      exact (List.erase_getElem inside).symm.count_eq x
    by_cases here : x = fb
    · subst here
      have present := List.count_pos_iff.mpr (List.mem_of_getElem? found)
      simp only [holders, Exports.moved, Function.update_self, count, List.count_erase_self]
      omega
    · simp only [holders, Exports.moved, Function.update_of_ne here, count, List.count_erase_of_ne here]

theorem trackedCallback {s : Exports} (tracked : Tracked s) (index : Nat) :
    Tracked (step s (.callback index)) := by
  simp only [step]
  split
  · exact tracked
  · rename_i fb found
    exact trackedSame (trackedUse tracked (liveHeld found)) rfl (Nat.le_refl _)
      (by simp [Exports.moved, releases]) rfl

theorem trackedUsed {s : Exports} (tracked : Tracked s) : Tracked {s with trace := used s.src ++ s.trace} := by
  cases own : fbOf s.src with
  | none => exact trackedSame tracked rfl (Nat.le_refl _) (by simp [used, own]) rfl
  | some fb =>
    have held : 0 < holders s fb := by simp [holders, own]
    exact trackedSame (trackedUse tracked held) rfl (Nat.le_refl _) (by simp [used, own]) rfl

theorem nextKeeps (m : Machine) (src : Source) (vaddr : Option Plane) (desc : FrameDesc) :
    fbOf (vcamNextFrame m src vaddr desc).src = fbOf src ∧
      (vcamNextFrame m src vaddr desc).machine.fbs = m.fbs ∧
    (vcamNextFrame m src vaddr desc).machine.next = m.next ∧
    (vcamNextFrame m src vaddr desc).machine.fbReleased = m.fbReleased := by
  have source := vcamSource m src vaddr desc
  generalize vcamNextFrame m src vaddr desc = r at source ⊢
  cases source with
  | refused _ => exact ⟨rfl,rfl,rfl,rfl⟩
  | dropped priv _ _ => exact ⟨by simp [fbOf, priv],rfl,rfl,rfl⟩
  | drawn priv _ _ _ _ => exact ⟨by simp [fbOf, priv],rfl,rfl,rfl⟩

theorem trackedNext {s : Exports} (tracked : Tracked s) (vaddr : Option Plane) (desc : FrameDesc) :
    Tracked (step s (.nextFrame vaddr desc)) := by
  obtain ⟨own, fbs, next, released⟩ := nextKeeps s.machine s.src vaddr desc
  refine trackedSame (trackedUsed tracked) fbs (Nat.le_of_eq next.symm) ?_ ?_
  · simp [step, Exports.moved, releasesNone released]
  · funext fb
    simp [step, holders, Exports.moved, own]

theorem trackedGet {s : Exports} (tracked : Tracked s) {p : VcamPriv} (priv : s.src.priv = .vcam p) :
    Tracked {s with
      machine := vcamFbGet s.machine p.fb, live := p.fb :: s.live, trace := used s.src ++ s.trace} := by
  have before := trackedUsed tracked
  have held : 0 < holders s p.fb := ownHeld priv
  constructor
  · refine countsCongr (countsGet before.counts held)
      (fun x _ => congrFun (getRefs s.machine p.fb) x) (fun x => ?_)
    by_cases same : x = p.fb
    · subst same
      simp [holders]
      omega
    · simp [holders, same, Ne.symm same]
  · exact before.fresh

theorem trackedExport {s : Exports} (tracked : Tracked s) (exported : Bool) (fd : Option Nat) :
    Tracked (step s (.exportDmabuf exported fd)) := by
  cases priv : s.src.priv with
  | vcam p =>
    have shared := trackedGet tracked priv
    -- Both error exits drop the reference just taken.
    have returned : Tracked (s.moved (vcamFbPut (vcamFbGet s.machine p.fb) p.fb) (used s.src)) := by
      have held : 0 < holders {s with
          machine := vcamFbGet s.machine p.fb, live := p.fb :: s.live, trace := used s.src ++
            s.trace} p.fb := by
        simp [holders]
      refine trackedPut shared held rfl (putNext _ _) rfl ?_
      funext x
      by_cases same : x = p.fb
      · subst same
        simp [holders, Exports.moved]
      · simp [holders, Exports.moved, same, Ne.symm same]
    cases exported with
    | false => simpa [step, vcamExportDmabuf, priv] using returned
    | true =>
      cases fd with
      | none => simpa [step, vcamExportDmabuf, priv] using returned
      | some fd =>
        refine trackedSame shared ?_ ?_ ?_ ?_
        all_goals simp only [step, vcamExportDmabuf, priv, Bool.not_true, Bool.false_eq_true, if_false, fbOf]
        · rfl
        · exact Nat.le_refl _
        · exact congrArg (· ++ (used s.src ++ s.trace)) (releasesNone rfl)
        · rfl
  | null =>
    refine trackedSame (trackedUsed tracked) ?_ ?_ ?_ ?_
    all_goals simp [step, vcamExportDmabuf, priv, Exports.moved, releases]
  | synthetic p =>
    refine trackedSame (trackedUsed tracked) ?_ ?_ ?_ ?_
    all_goals simp [step, vcamExportDmabuf, priv, Exports.moved, releases]

theorem trackedStep (s : Exports) (e : Event) (tracked : Tracked s) (alternates : Alternates s e) :
    Tracked (step s e) := by
  cases e with
  | start sizeimage env => exact trackedStart tracked alternates sizeimage env
  | stop => exact trackedStop tracked
  | exportDmabuf exported fd => exact trackedExport tracked exported fd
  | close index => exact trackedClose tracked index
  | nextFrame vaddr desc => exact trackedNext tracked vaddr desc
  | callback index => exact trackedCallback tracked index

def releasedOf : LifeEvent Nat → Option Nat
  | .release fb => some fb
  | _ => none

def Told (start : List Nat) (s : Exports) : Prop :=
  s.machine.fbReleased = s.trace.filterMap releasedOf ++ start

theorem movedTold {start : List Nat} {s : Exports} {m : Machine} {events : List (LifeEvent Nat)}
    (told : Told start s) (grown : ∃ added, m.fbReleased = added ++ s.machine.fbReleased)
    (quiet : events.filterMap releasedOf = []) :
    Told start (s.moved m events) := by
  obtain ⟨added, released⟩ := grown
  have fresh : releases s.machine m = added.map .release := by
    simp [releases, released]
  have names : (added.map LifeEvent.release).filterMap releasedOf = added := by
    rw [List.filterMap_map]
    exact List.filterMap_some
  unfold Told
  simp only [Exports.moved, fresh, List.filterMap_append, names, quiet, List.nil_append]
  rw [released, told, List.append_assoc]

theorem putGrows (m : Machine) (fb : Nat) : ∃ added, (vcamFbPut m fb).fbReleased = added ++ m.fbReleased := by
  unfold vcamFbPut
  simp only
  split
  · exact ⟨[fb],rfl⟩
  · exact ⟨[],rfl⟩

theorem exportGrows (m : Machine) (src : Source) (exported : Bool) (fd : Option Nat) :
    ∃ added, (vcamExportDmabuf m src exported fd).2.fbReleased = added ++ m.fbReleased := by
  unfold vcamExportDmabuf
  split
  · rename_i p _
    simp only
    split
    · exact putGrows (vcamFbGet m p.fb) p.fb
    · split
      · exact putGrows (vcamFbGet m p.fb) p.fb
      · exact ⟨[],rfl⟩
  · exact ⟨[],rfl⟩

theorem usedQuiet (src : Source) : (used src).filterMap releasedOf = [] := by
  unfold used
  cases fbOf src <;> rfl

theorem toldStep (start : List Nat) (s : Exports) (e : Event) (told : Told start s) :
    Told start (step s e) := by
  cases e with
  | start sizeimage env =>
    have answer := startCases s.machine s.src sizeimage env
    simp only [step]
    generalize vcamStart s.machine s.src sizeimage env = r at answer ⊢
    obtain ⟨ret, src, m⟩ := r
    cases answer with
    | failed fbs next released => exact movedTold told ⟨[],released⟩ rfl
    | started fbs above below released => exact movedTold told ⟨[],released⟩ rfl
  | stop =>
    simp only [step, vcamStop]
    split
    · exact movedTold told (putGrows s.machine _) rfl
    · exact movedTold told ⟨[],rfl⟩ rfl
  | exportDmabuf exported fd =>
    have grown := exportGrows s.machine s.src exported fd
    simp only [step]
    split <;> rename_i answer
    · rw [answer] at grown
      exact movedTold told grown (usedQuiet s.src)
    · rw [answer] at grown
      exact movedTold told grown (usedQuiet s.src)
  | close index =>
    simp only [step]
    split
    · exact told
    · exact movedTold told (putGrows s.machine _) rfl
  | nextFrame vaddr desc =>
    exact movedTold told ⟨[],(nextKeeps s.machine s.src vaddr desc).2.2.2⟩ (usedQuiet s.src)
  | callback index =>
    simp only [step]
    split
    · exact told
    · exact movedTold told ⟨[],rfl⟩ rfl

/-- From an idle source, through any interleaving of sessions, exports and closes: a framebuffer's
count is the number of its holders, it is released once as soon as it has none, and nothing uses
it before its allocation or after its release. -/
theorem framebufferLife {m : Machine} {src : Source} (idle : src.priv = .null) {events : List Event}
    (alternate : Meets step Alternates ⟨m,src,[],[]⟩ events) :
    let s := run step ⟨m,src,[],[]⟩ events
    (∀ fb, .acquire fb ∈ s.trace → (s.machine.fbs fb).refcount = holders s fb ∧
      s.trace.count (.release fb) = if holders s fb = 0 then 1 else 0) ∧
    (∀ fb newer older, s.trace = newer ++ .use fb :: older → .acquire fb ∈ older ∧ .release fb ∉ older) ∧
    s.machine.fbReleased = s.trace.filterMap releasedOf ++ m.fbReleased := by
  intro s
  have start : Tracked ⟨m,src,[],[]⟩ := ⟨countsStart (fun fb => by simp [holders, fbOf, idle]),by simp⟩
  have tracked : Tracked s := runInvariant trackedStep start alternate
  have first : Told m.fbReleased ⟨m,src,[],[]⟩ := rfl
  have told : Told m.fbReleased s := runAlways (toldStep m.fbReleased) first events
  refine ⟨?_,?_,told⟩
  · intro fb acquired
    refine ⟨tracked.counts.refs fb acquired,?_⟩
    have once := releasedOnce tracked.counts.owns.sound fb
    have live := tracked.counts.owns.live fb
    split
    · rename_i none_
      have released : .release fb ∈ s.trace := by
        by_contra missing
        have := live.mp ⟨acquired,missing⟩
        omega
      have := List.count_pos_iff.mpr released
      omega
    · rename_i some_
      exact List.count_eq_zero_of_not_mem (live.mpr (by omega)).2
  · intro fb newer older split_
    have sound : InOrder (newer ++ .use fb :: older) := split_ ▸ tracked.counts.owns.sound
    exact (inOrderOlder sound).1

def bench : Machine := ⟨fun n => n,0,0,⟨fun _ _ => 0,[]⟩,{},fun _ => ⟨0,0⟩,[],[]⟩

def idleSource : Source := ⟨0,.vcamDerived,.null,0⟩

def overlapping : List Event :=
  [.start 1 {},.exportDmabuf true (some 3),.exportDmabuf true none,.stop,.start 1 {},.callback 0,.close 0]

theorem overlappingLife : Meets step Alternates ⟨bench,idleSource,[],[]⟩ overlapping ∧
    let s := run step ⟨bench,idleSource,[],[]⟩ overlapping
    (∀ fb, .acquire fb ∈ s.trace → (s.machine.fbs fb).refcount = holders s fb ∧
      s.trace.count (.release fb) = if holders s fb = 0 then 1 else 0) ∧
    (∀ fb newer older, s.trace = newer ++ .use fb :: older → .acquire fb ∈ older ∧ .release fb ∉ older) ∧
    s.machine.fbReleased = s.trace.filterMap releasedOf ++ bench.fbReleased := by
  have alternate : Meets step Alternates ⟨bench,idleSource,[],[]⟩ overlapping :=
    ⟨rfl,trivial,trivial,trivial,rfl,trivial,trivial,trivial⟩
  exact ⟨alternate,framebufferLife rfl alternate⟩

-- The first framebuffer goes when its export is closed, the second is still the source's.
example : (run step ⟨bench,idleSource,[],[]⟩ overlapping).machine.fbReleased = [1] := by decide

end Vpipe.Framebuffer
