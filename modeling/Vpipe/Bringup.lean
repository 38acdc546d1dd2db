import Vpipe.Exchange
import Vpipe.Lib.Outcome
import Vpipe.Restart

/-! From open to streaming: what the tools share, and the calls by which one brings a new context to
the state in which it can send its first image. -/
namespace Vpipe.Bringup
open Vpipe.Lib.Word Vpipe.Lib.ByteMemory Vpipe.Lib.BufferQueue Vpipe.Lib.Transition Vpipe.Lib.Outcome
open Vpipe.Cv Vpipe.FrameSource Vpipe.M2m Vpipe.Moves Vpipe.Discipline Vpipe.Runs Vpipe.Tools Vpipe.Lockstep
open Vpipe.Exchange
open Vpipe.Stream (Placed Started placedRewritten)

def orFail {α : Type} : Option α → Except Stop α
  | some a => .ok a
  | none => .error .failed

def check (passed : Bool) : Except Stop Unit := if passed then .ok () else .error .failed

theorem orFailThen {α β : Type} {o : Option α} {a : α} {next : α → Except Stop β} {post : β → Prop}
    (some_ : o = some a) (then_ : Returns (next a) post) : Returns (orFail o >>= next) post :=
  returnsThen (by rw [some_]; rfl) then_

theorem checkThen {β : Type} {passed : Bool} {next : Unit → Except Stop β} {post : β → Prop}
    (so : passed = true) (then_ : Returns (next ()) post) : Returns (check passed >>= next) post :=
  returnsThen (by rw [check, if_pos so]) then_

theorem mappedPlane {p : Bench} {s : Sys} (serving : Serving p s) {index dst : Nat}
    (found : p.cap[index]? = some dst) :
    (mappings s .capture).getD index ⟨0,0⟩ = ((s.queue .capture).buf dst).plane := by
  rw [mappings, List.getD_eq_getElem?_getD, List.getElem?_map, serving.capPlaced.names, found]
  rfl

theorem mappedImage {p : Bench} {s : Sys} (serving : Serving p s) {index dst : Nat}
    (found : p.cap[index]? = some dst) (n : Nat) :
    s.k.machine.mem.slice ((mappings s .capture).getD index ⟨0,0⟩) n = s.k.machine.mem.slice ⟨dst,n⟩ n := by
  obtain ⟨block, _, _⟩ := serving.capPlaced.plane rfl dst (List.mem_of_getElem? found)
  simp only [mappedPlane serving found, Mem.slice, Mem.get, block]

theorem thresholdKnown : Order.Known algoThreshold := .inr rfl

theorem algoSet {algoId : Nat} (known : Order.Known algoId) (c : Controls) :
    vidiocSCtrl c cidAlgo (s32 algoId) = .ok {c with algoId := algoId} := by
  rcases known with rfl | rfl <;> rfl

theorem thresholdSet {threshold : Nat} (range : threshold ≤ 255) (c : Controls) :
    vidiocSCtrl c cidThreshold (s32 threshold) = .ok {c with threshold := threshold} := by
  have value : toU32 (clampInt (s32 threshold) 0 255) = threshold := by
    rw [s32Of (by omega) (by omega)]
    unfold toU32 clampInt
    omega
  have set : vidiocSCtrl c cidThreshold (s32 threshold) =
    .ok {c with threshold := toU32 (clampInt (s32 threshold) 0 255)} := rfl
  rw [set, value]

structure Kept (s s' : Sys) : Prop where
  format : s'.c.outQ = s.c.outQ
  controls : s'.c.controls = s.c.controls
  src : s'.c.src = s.c.src
  params : s'.k.machine.params = s.k.machine.params
  sequence : s'.k.sequence = s.k.sequence
  published : s'.k.published = s.k.published
  frames : s'.k.frames = s.k.frames
  metaDev : s'.k.metaDev = s.k.metaDev

theorem keptTrans {s s' s'' : Sys} (first : Kept s s') (second : Kept s' s'') : Kept s s'' where
  format := second.format.trans first.format
  controls := second.controls.trans first.controls
  src := second.src.trans first.src
  params := second.params.trans first.params
  sequence := second.sequence.trans first.sequence
  published := second.published.trans first.published
  frames := second.frames.trans first.frames
  metaDev := second.metaDev.trans first.metaDev

theorem keptQueue (s : Sys) (t : QType) (q : Queue VpipeBuffer) :
    Kept s (s.setQueue t q) := ⟨rfl,rfl,rfl,rfl,rfl,rfl,rfl,rfl⟩

structure Fit (k : Kernel) (backend : Backend) (format : QData) (controls : Controls) (s : Sys) : Prop where
  sane : Sane s
  output : Exact (s.queue .output)
  format : s.c.outQ = format
  controls : s.c.controls = controls
  source : s.c.src.backend = backend
  params : s.k.machine.params = k.machine.params
  sequence : s.k.sequence = k.sequence
  published : s.k.published = k.published
  frames : s.k.frames = k.frames
  metaDev : s.k.metaDev = k.metaDev

section Fit
variable {k : Kernel} {backend : Backend} {format : QData} {controls : Controls} {s : Sys}

theorem fitStep (fit : Fit k backend format controls s) {e : Event} (clean : StartClean s e)
    (kept : Kept s (s.step e)) :
    Fit k backend format controls (s.step e) where
  sane := saneStep fit.sane e
  output := Pairing.outputExactStep fit.sane clean fit.output
  format := kept.format.trans fit.format
  controls := kept.controls.trans fit.controls
  source := by rw [kept.src]; exact fit.source
  params := kept.params.trans fit.params
  sequence := kept.sequence.trans fit.sequence
  published := kept.published.trans fit.published
  frames := kept.frames.trans fit.frames
  metaDev := kept.metaDev.trans fit.metaDev

theorem openFits (k : Kernel) (ident : Nat) : Fit k .fixture defaultQData {} (openedOn k ident) := by
  obtain ⟨sane, exact_⟩ := openSane (openSucceeds k ident)
  exact ⟨sane,exact_,rfl,rfl,rfl,rfl,rfl,rfl,rfl,rfl⟩

theorem backendFits (fit : Fit k .fixture format controls s)
    (idle : ∀ t, (s.queue t).streaming = false) :
    ∃ s', (vpipeSetBackend s Backend.vcamDerived.id true).toOption = some s' ∧
      Fit k .vcamDerived format controls s' ∧
      s'.c.queues = s.c.queues := by
  have sane := saneStep fit.sane (.setBackend Backend.vcamDerived.id true)
  have exact_ := Pairing.outputExactStep (e := .setBackend Backend.vcamDerived.id true) fit.sane
    (by simp [StartClean]) fit.output
  have made : vpipeSetBackend s Backend.vcamDerived.id true = .ok
      ⟨{s.k with machine := (vpipeSourceDestroy {s.k.machine with
          next := s.k.machine.next + 1, trace := .create s.k.machine.next :: s.k.machine.trace} s.c.src).2},
        {s.c with src := ⟨s.k.machine.next,.vcamDerived,.null,0⟩}⟩ := by
    simp only [vpipeSetBackend, idle, Bool.or_false, Bool.false_eq_true, if_false]
    rfl
  rw [Sys.step, made, settle] at sane exact_
  refine ⟨_,by rw [made]; rfl,⟨sane,exact_,fit.format,fit.controls,rfl,?_,fit.sequence,fit.published,fit.frames,
    fit.metaDev⟩,rfl⟩
  simp only [vpipeSourceDestroy, vpipeSourceStop, stopOp, fit.source]
  exact fit.params

theorem formatFits (fit : Fit k backend format controls s) {width height : Nat}
    (wide : 1 ≤ width ∧ width ≤ 4096) (high : 1 ≤ height ∧ height ≤ 4096) {t : QType}
    (idle : s.c.busy t = false) :
    ∃ s', vpipeSetFormat s t width height pixFmtGrey = some s' ∧ Fit k backend (grey width height) controls s' ∧
      s'.c.queues = s.c.queues ∧ s'.k = s.k := by
  refine ⟨_,formatSet wide high idle,?_,rfl,rfl⟩
  have geometry : Geometry (grey width height) := ⟨wide,high,rfl,rfl,rfl⟩
  exact {fit with sane := ⟨⟨⟨fit.sane.sound,geometry,rfl⟩,fit.sane.capture⟩,fit.sane.rest⟩, format := rfl}

theorem formatsFit (fit : Fit k backend format controls s) (empty : ∀ t, s.queue t = Queue.empty blankBuf)
    {width height : Nat} (wide : 1 ≤ width ∧ width ≤ 4096) (high : 1 ≤ height ∧ height ≤ 4096) :
    ∃ s1 s2, vpipeSetFormat s .output width height pixFmtGrey = some s1 ∧
      vpipeSetFormat s1 .capture width height pixFmtGrey = some s2 ∧
      Fit k backend (grey width height) controls s2 ∧ ∀ t, s2.queue t = Queue.empty blankBuf := by
  have queues : ∀ t, s.c.queues t = Queue.empty blankBuf := empty
  obtain ⟨s1, made1, fit1, queues1, _⟩ :=
    formatFits fit wide high (t := .output) (by rw [Ctx.busy, queues]; rfl)
  obtain ⟨s2, made2, fit2, queues2, _⟩ :=
    formatFits fit1 wide high (t := .capture) (by rw [Ctx.busy, queues1, queues]; rfl)
  exact ⟨s1,s2,made1,made2,fit2,fun t => by rw [Sys.queue, queues2, queues1, queues]⟩

theorem vcamFormatsFit (k : Kernel) (ident : Nat) {width height : Nat} (wide : 1 ≤ width ∧ width ≤ 4096)
    (high : 1 ≤ height ∧ height ≤ 4096) :
    ∃ s1 s2 s3, (vpipeSetBackend (openedOn k ident) Backend.vcamDerived.id true).toOption = some s1 ∧
      vpipeSetFormat s1 .output width height pixFmtGrey = some s2 ∧
      vpipeSetFormat s2 .capture width height pixFmtGrey = some s3 ∧
      Fit k .vcamDerived (grey width height) {} s3 ∧ ∀ t, s3.queue t = Queue.empty blankBuf := by
  obtain ⟨s1, made1, fit1, queues1⟩ := backendFits (openFits k ident) (fun _ => rfl)
  obtain ⟨s2, s3, made2, made3, fit3, empty⟩ :=
    formatsFit fit1 (fun t => by rw [Sys.queue, queues1]; rfl) wide high
  exact ⟨s1,s2,s3,made1,made2,made3,fit3,empty⟩

theorem controlFits (fit : Fit k backend format controls s) {id : Nat} {value : Int} {set : Controls}
    (accepted : vidiocSCtrl controls id value = .ok set) :
    ∃ s', setControl s id value = some s' ∧ Fit k backend format set s' ∧ s'.c.queues = s.c.queues ∧
      s'.k = s.k := by
  refine ⟨{s with c := {s.c with controls := set}},by simp only [setControl, fit.controls, accepted],?_,rfl,rfl⟩
  have base := fit.sane.toBase
  exact {fit with
    sane := ⟨⟨⟨base.sound,base.geometry,base.mirrored⟩,fit.sane.capture⟩,fit.sane.rest⟩, controls := rfl}

theorem allocationFits (fit : Fit k backend format controls s) (len : Nat) :
    Fit k backend format controls (dmaHeapAlloc s len).2 := by
  have base := fit.sane.toBase
  have sound := fun t => soundLater (base.sound t) (Nat.le_succ s.k.machine.next)
  exact {fit with sane := ⟨⟨⟨sound,base.geometry,base.mirrored⟩,fit.sane.capture⟩,fit.sane.rest⟩}

structure Unused (q : Queue VpipeBuffer) : Prop where
  stopped : q.streaming = false
  ready : q.ready = []
  queued : q.queued = []

theorem releaseBare {κ : Type} (finish : κ → Nat → VpipeBuffer → κ × VpipeBuffer) (k : κ)
    {q : Queue VpipeBuffer} {id : Nat} (prepared : (q.buf id).prepared = false)
    (state : (q.buf id).state = .dequeued)
    (queued : q.queued = []) (done : q.done = []) : Queue.release finish (k,q) id = (k,q) := by
  have same : {q.buf id with state := .dequeued, prepared := false} = q.buf id := by
    rw [← state, ← prepared]
  have empty : {q with queued := [], done := []} = q := by
    cases q
    simp_all
  simp only [Queue.release, prepared, Bool.false_eq_true, if_false, queued, done, List.erase_nil]
  rw [same, Function.update_eq_self, empty]

theorem cancelUnused (sane : Sane s) {t : QType} (unused : Unused (s.queue t))
    (bare : ∀ id ∈ (s.queue t).ids, ((s.queue t).buf id).state = .dequeued →
      ((s.queue t).buf id).prepared = false) :
    s.cancel t = s := by
  have stopped := unused.stopped
  have queued := unused.queued
  have done := (sane.sound t).quiet unused.stopped
  have back : ∀ id ∈ (s.queue t).ids, ((s.queue t).buf id).state = .dequeued := by
    intro id inside
    by_contra other
    have member := ((sane.sound t).wf.queued id).mpr ⟨inside,other⟩
    rw [queued] at member
    contradiction
  have released : ∀ ids, (∀ id ∈ ids, id ∈ (s.queue t).ids) →
      run (Queue.release (vpipeBufFinish t)) (s.k,s.queue t) ids = (s.k,s.queue t) := by
    intro ids inside
    induction ids with
    | nil => rfl
    | cons id rest ih =>
      have first := inside id List.mem_cons_self
      rw [runCons, releaseBare _ _ (bare id first (back id first)) (back id first) queued done]
      exact ih (fun other member => inside other (List.mem_cons_of_mem _ member))
  have cancelled : Queue.cancel (vpipeBufFinish t) s.k (s.queue t) = (s.k,s.queue t) := by
    have empty : {s.queue t with streaming := false, queued := [], done := []} = s.queue t := by
      generalize s.queue t = q at stopped queued done
      cases q
      simp_all
    simp only [Queue.cancel, released _ (fun _ inside => inside), empty]
  simp only [Sys.cancel, stopped, Bool.false_eq_true, if_false, cancelled]
  exact setSame s t

theorem allocatePlaced {q : Queue VpipeBuffer} {ids : List Nat} {memory : Memory} {size : Nat}
    (slack : Nat) {id : Nat} (placed : Placed q ids memory size) (fresh : id ∉ ids) :
    Placed (q.allocate id (newBuffer id q.ids.length memory size slack)) (ids ++ [id]) memory size := by
  have old : ∀ other ∈ ids, (q.allocate id (newBuffer id q.ids.length memory size slack)).buf other =
      q.buf other :=
    fun other inside => Function.update_of_ne (fun same : other = id => fresh (same ▸ inside)) _ _
  have new : (q.allocate id (newBuffer id q.ids.length memory size slack)).buf id =
      newBuffer id q.ids.length memory size slack := Function.update_self _ _ _
  have each : ∀ (holds : Nat → Buf VpipeBuffer → Prop), (∀ other ∈ ids, holds other (q.buf other)) →
      holds id (newBuffer id q.ids.length memory size slack) → ∀ other ∈ ids ++ [id],
      holds other ((q.allocate id (newBuffer id q.ids.length memory size slack)).buf other) := by
    intro holds before here other member
    rcases List.mem_append.mp member with inside | last
    · rw [old other inside]
      exact before other inside
    · rw [List.mem_singleton.mp last, new]
      exact here
  refine ⟨congrArg (· ++ [id]) placed.names,?_,?_,?_,?_⟩
  · intro i other found
    rcases Nat.lt_or_ge i ids.length with before | after
    · rw [List.getElem?_append_left before] at found
      rw [old other (List.mem_of_getElem? found)]
      exact placed.index i other found
    · rw [List.getElem?_append_right after] at found
      obtain ⟨within, value⟩ := List.getElem?_eq_some_iff.mp found
      simp only [List.length_singleton, List.getElem_singleton] at within value
      rw [← value, new]
      simp only [newBuffer, placed.names]
      omega
  · exact each (fun _ b => b.memory = memory ∧ b.minLength = size) placed.kind ⟨rfl,rfl⟩
  · intro kind
    subst kind
    exact each (fun id b => b.plane.block = id ∧ size ≤ b.plane.size ∧ b.mapped = true) (placed.plane rfl)
      ⟨rfl,Nat.le_add_right _ _,rfl⟩
  · exact each (fun _ b => b.state = .dequeued → b.prepared = false) placed.bare (fun _ => rfl)

structure Allocated (t : QType) (memory : Memory) (s s' : Sys) (n : Nat) : Prop where
  placed : Placed (s'.queue t) (List.range' s.k.machine.next n) memory (s.c.qData t).sizeimage
  unused : Unused (s'.queue t)
  other : ∀ t', t' ≠ t → s'.queue t' = s.queue t'
  kept : Kept s s'
  next : s'.k.machine.next = s.k.machine.next + n
  blank : ∀ id ∈ List.range' s.k.machine.next n, s'.k.machine.mem.bytes id = fun _ => 0
  bytes : ∀ block, block < s.k.machine.next → s'.k.machine.mem.bytes block = s.k.machine.mem.bytes block

theorem allocates {t : QType} (memory : Memory) (slack n : Nat) (unused : Unused (s.queue t))
    (none_ : (s.queue t).ids = []) :
    Allocated t memory s (loop n (fun _ u => u.allocate memory (s.c.qData t).sizeimage slack t) s) n := by
  refine loopInvariant (fun n s' => Allocated t memory s s' n) ?_ ?_
  · refine ⟨⟨none_,?_,?_,?_,?_⟩,unused,fun _ _ => rfl,⟨rfl,rfl,rfl,rfl,rfl,rfl,rfl,rfl⟩,rfl,?_,
      fun _ _ => rfl⟩ <;> simp
  · intro i u _ so
    have queue : (u.allocate memory (s.c.qData t).sizeimage slack t).queue t =
        (u.queue t).allocate u.k.machine.next (newBuffer u.k.machine.next (u.queue t).ids.length memory
          (s.c.qData t).sizeimage slack) := queueSet _ _ _
    have fresh : s.k.machine.next + i ∉ List.range' s.k.machine.next i := by simp [List.mem_range'_1]
    have bytes : (u.allocate memory (s.c.qData t).sizeimage slack t).k.machine.mem.bytes =
      Function.update u.k.machine.mem.bytes (s.k.machine.next + i) (fun _ => 0) := by rw [← so.next]; rfl
    refine ⟨?_,?_,?_,keptTrans so.kept ⟨rfl,rfl,rfl,rfl,rfl,rfl,rfl,rfl⟩,?_,?_,?_⟩
    · rw [queue, List.range'_concat, Nat.one_mul, so.next]
      exact allocatePlaced slack so.placed fresh
    · rw [queue]
      exact ⟨so.unused.stopped,so.unused.ready,so.unused.queued⟩
    · intro t' differ
      exact (queueSetOther _ differ _).trans (so.other t' differ)
    · rw [← Nat.add_assoc, ← so.next]
      rfl
    · intro id member
      rw [bytes]
      rw [List.range'_concat, Nat.one_mul, List.mem_append, List.mem_singleton] at member
      rcases member with old | rfl
      · rw [Function.update_of_ne (by rintro rfl; exact fresh old)]
        exact so.blank id old
      · exact Function.update_self _ _ _
    · intro block before
      rw [bytes, Function.update_of_ne (by omega)]
      exact so.bytes block before

theorem reqbufsGrants (fit : Fit k backend format controls s) {t : QType} (unused : Unused (s.queue t))
    (bare : ∀ id ∈ (s.queue t).ids, ((s.queue t).buf id).state = .dequeued →
      ((s.queue t).buf id).prepared = false)
    (memory : Memory) {count n : Nat} (granted slack : Nat) (some_ : count ≠ 0)
    (agreed : min (if count < 2 then 2 else count) granted = n) (two : 2 ≤ n) :
    ∃ s', succeeded (vidiocReqbufs s t count memory slack granted) = some s' ∧
      Fit k backend format controls s' ∧
      Allocated t memory s s' n := by
  have cancelled := cancelUnused fit.sane unused bare
  have size : (s.setQueue t (s.queue t).free).c.qData t = s.c.qData t := by cases t <;> rfl
  have made : vidiocReqbufs s t count memory slack granted = (none,loop n (fun _ u =>
      u.allocate memory (s.c.qData t).sizeimage slack t) (s.setQueue t (s.queue t).free)) := by
    simp only [vidiocReqbufs, unused.stopped, Bool.false_eq_true, if_false, cancelled, vpipeQueueSetup, size,
      if_neg some_, Sys.allocateAll, agreed, if_neg (Nat.not_lt.mpr two)]
  have freed : (s.setQueue t (s.queue t).free).queue t = (s.queue t).free := queueSet _ _ _
  have allocated := allocates (s := s.setQueue t (s.queue t).free) (t := t) memory slack n
    (by rw [freed]; exact ⟨unused.stopped,unused.ready,unused.queued⟩) (by rw [freed]; rfl)
  rw [size] at allocated
  generalize loop n _ _ = s' at made allocated
  obtain rfl : s.step (.reqbufs t count memory slack granted) = s' := congrArg Prod.snd made
  have kept := keptTrans (keptQueue s t _) allocated.kept
  refine ⟨_,by rw [made]; rfl,fitStep fit (by simp [StartClean]) kept,
    {allocated with placed := ?_, other := ?_, kept}⟩
  · exact size ▸ allocated.placed
  · intro t' differ
    exact (allocated.other t' differ).trans (queueSetOther s differ _)

theorem reqbufsFits (fit : Fit k backend format controls s) {t : QType} (unused : Unused (s.queue t))
    (bare : ∀ id ∈ (s.queue t).ids, ((s.queue t).buf id).state = .dequeued →
      ((s.queue t).buf id).prepared = false)
    (memory : Memory) {count granted : Nat} (slack : Nat) (two : 2 ≤ count) (enough : count ≤ granted) :
    ∃ s', succeeded (vidiocReqbufs s t count memory slack granted) = some s' ∧
      Fit k backend format controls s' ∧
      Allocated t memory s s' count :=
  reqbufsGrants fit unused bare memory granted slack (by omega)
    (by rw [if_neg (Nat.not_lt.mpr two)]; exact Nat.min_eq_left enough) two

theorem reqbufsFirst (fit : Fit k backend format controls s) {t : QType}
    (empty : s.queue t = Queue.empty blankBuf) (memory : Memory) {count granted : Nat} (slack : Nat)
    (two : 2 ≤ count) (enough : count ≤ granted) :
    ∃ s', succeeded (vidiocReqbufs s t count memory slack granted) = some s' ∧
      Fit k backend format controls s' ∧ Allocated t memory s s' count :=
  reqbufsFits fit (by rw [empty]; exact ⟨rfl,rfl,rfl⟩) (by simp [empty, Queue.empty]) memory slack two enough

structure Lined (format : QData) (s : Sys) (ids : List Nat) (n : Nat) : Prop where
  placed : Placed (s.queue .capture) ids .mmap format.sizeimage
  stopped : (s.queue .capture).streaming = false
  ready : (s.queue .capture).ready = []
  queued : (s.queue .capture).queued = ids.take n

theorem allocatedLined (fit : Fit k backend format controls s) {s' u : Sys} {n : Nat}
    (capture : Allocated .capture .mmap s s' n) (same : u.queue .capture = s'.queue .capture) :
    Lined format u (List.range' s.k.machine.next n) 0 := by
  have placed := capture.placed
  rw [Ctx.qData, fit.sane.mirrored, fit.format] at placed
  refine ⟨?_,?_,?_,?_⟩ <;> rw [same]
  · exact placed
  · exact capture.unused.stopped
  · exact capture.unused.ready
  · exact capture.unused.queued

theorem linedNext (fit : Fit k backend format controls s) {ids : List Nat} {n id : Nat}
    (lined : Lined format s ids n) (found : ids[n]? = some id) :
    ((s.queue .capture).buf id).state = .dequeued := by
  have wf := (fit.sane.sound .capture).wf
  by_contra taken
  have inside : id ∈ (s.queue .capture).ids := lined.placed.names.symm ▸ List.mem_of_getElem? found
  have member := (wf.queued id).mpr ⟨inside,taken⟩
  rw [lined.queued] at member
  obtain ⟨i, at_⟩ := List.mem_iff_getElem?.mp member
  rw [List.getElem?_take] at at_
  split at at_
  · rename_i before
    obtain ⟨within, _⟩ := List.getElem?_eq_some_iff.mp at_
    have := (List.getElem?_inj within (lined.placed.names ▸ wf.distinct)).mp (at_.trans found.symm)
    omega
  · contradiction

theorem captureQueued (fit : Fit k backend format controls s) {ids : List Nat} {n : Nat}
    (lined : Lined format s ids n) (within : n < ids.length) :
    ∃ s', vidiocQbuf s .capture n 0 none = .ok s' ∧ Fit k backend format controls s' ∧
      Lined format s' ids (n + 1) ∧ s'.queue .output = s.queue .output ∧ s'.k = s.k := by
  have found : ids[n]? = some ids[n] := List.getElem?_eq_getElem within
  generalize ids[n] = id at found
  have inside := List.mem_of_getElem? found
  have state := linedNext fit lined found
  obtain ⟨_, large, _⟩ := lined.placed.plane rfl id inside
  have attached : attach ((s.queue .capture).buf id) none =
      .ok ⟨((s.queue .capture).buf id).plane,((s.queue .capture).buf id).mapped⟩ := by
    simp only [attach, (lined.placed.kind id inside).1]
  have capFormat : s.c.capQ = format := fit.sane.mirrored.trans fit.format
  have accepted := qbufAccepts (lined.placed.names.symm ▸ found) state
    (lined.placed.bare id inside state) attached (by simp only [Ctx.qData, capFormat]; exact large)
  rw [if_neg (by simp [lined.stopped])] at accepted
  have queue : (enqueuedAt s .capture id
    ⟨((s.queue .capture).buf id).plane,((s.queue .capture).buf id).mapped⟩).queue .capture = _ := queueSet _ _ _
  have rewritten := enqueueRewrites (s.queue .capture) id ((s.queue .capture).buf id).plane
    ((s.queue .capture).buf id).mapped (fun d => {d with payload := (s.c.qData .capture).sizeimage})
    (fun d => {d with flags := 0, qbufControls := s.c.controls})
  rw [← queue] at rewritten
  have step : s.step (.qbuf .capture n 0 none) = _ := congrArg (settle s) accepted
  have fit' : Fit k backend format controls (s.step (.qbuf .capture n 0 none)) := by
    refine fitStep fit (by simp [StartClean]) ?_
    rw [step]
    exact keptQueue _ _ _
  rw [step, settle] at fit'
  refine ⟨_,accepted,fit',⟨?_,?_,?_,?_⟩,queueSetOther _ (by decide) _,rfl⟩
  · exact placedRewritten lined.placed rewritten ⟨rfl,rfl,rfl,fun _ => ⟨rfl,rfl⟩,by simp⟩
  · exact rewritten.streaming.trans lined.stopped
  · exact rewritten.ready.trans lined.ready
  · rw [queue, List.take_add_one, found]
    exact congrArg (· ++ [id]) lined.queued

theorem captureLined (fit : Fit k backend format controls s) {ids : List Nat}
    (lined : Lined format s ids 0) {n : Nat} (within : n ≤ ids.length) :
    ∃ s', queueCapture n s = some s' ∧ Fit k backend format controls s' ∧ Lined format s' ids n ∧
      s'.queue .output = s.queue .output ∧ s'.k = s.k := by
  induction n with
  | zero => exact ⟨s,rfl,fit,lined,rfl,rfl⟩
  | succ n ih =>
    obtain ⟨s', made, fit', lined', output, kernel⟩ := ih (by omega)
    obtain ⟨s'', queued, fit'', lined'', output', kernel'⟩ := captureQueued fit' lined' (by omega)
    refine ⟨s'',?_,fit'',lined'',output'.trans output,kernel'.trans kernel⟩
    simp only [queueCapture, made, queued, bind, Option.bind]
    rfl

structure Handing (format : QData) (s : Sys) (ids : List Nat) (s' : Sys) : Prop where
  kept : Kept s s'
  kernel : s'.k = s.k
  output : s'.queue .output = s.queue .output
  placed : Placed (s'.queue .capture) ids .mmap format.sizeimage

theorem handingRun {ids : List Nat} (placed : Placed (s.queue .capture) ids .mmap format.sizeimage)
    (queued : List Nat) : Handing format s ids (run (vpipeBufQueue .capture) s queued) := by
  refine runAlways (fun u id (so : Handing format s ids u) => ?_) ⟨⟨rfl,rfl,rfl,rfl,rfl,rfl,rfl,rfl⟩,
    rfl,rfl,placed⟩ queued
  refine ⟨keptTrans so.kept (keptQueue _ _ _),so.kernel,(bufQueueOther (by decide) u id).trans so.output,?_⟩
  rw [bufQueueSame]
  exact placedRewritten so.placed (handOverRewrites _ id _) ⟨rfl,rfl,rfl,fun _ => ⟨rfl,rfl⟩,by simp⟩

structure Open (format : QData) (s : Sys) (ids : List Nat) : Prop where
  placed : Placed (s.queue .capture) ids .mmap format.sizeimage
  started : Started (s.queue .capture)
  ready : (s.queue .capture).ready = ids
  done : (s.queue .capture).done = []

theorem captureStreams (fit : Fit k backend format controls s) {ids : List Nat}
    (lined : Lined format s ids ids.length) (some_ : ids ≠ []) :
    ∃ s', succeeded (vidiocStreamon s .capture {}) = some s' ∧ Fit k backend format controls s' ∧
      Open format s' ids ∧ s'.queue .output = s.queue .output ∧ s'.k = s.k := by
  have queued : (s.queue .capture).queued = ids := lined.queued.trans List.take_length
  have handing := handingRun lined.placed ids
  have handed := Restart.handsOver .capture ids s
  have made : vidiocStreamon s .capture {} = (none,(run (vpipeBufQueue .capture) s ids).setQueue .capture
      {(run (vpipeBufQueue .capture) s ids).queue .capture with streaming := true}) := by
    simp only [vidiocStreamon, lined.stopped, lined.placed.names, queued, List.isEmpty_iff, some_,
      Bool.false_eq_true, if_false]
    rfl
  generalize run (vpipeBufQueue .capture) s ids = u at handing handed made
  have fit' : Fit k backend format controls (s.step (.streamon .capture {})) := by
    refine fitStep fit (by simp [StartClean]) ?_
    rw [Sys.step, made]
    exact keptTrans handing.kept (keptQueue _ _ _)
  rw [Sys.step, made] at fit'
  have queue : (u.setQueue .capture {u.queue .capture with streaming := true}).queue .capture =
    {u.queue .capture with streaming := true} := queueSet _ _ _
  have ready : ((u.setQueue .capture {u.queue .capture with streaming := true}).queue .capture).ready =
      ids := by
    rw [queue]
    exact handed.ready.trans (by rw [lined.ready, List.nil_append])
  have names : ((u.setQueue .capture {u.queue .capture with streaming := true}).queue .capture).ids = ids := by
    rw [queue]
    exact handing.placed.names
  have active := fun id (inside : id ∈ ids) => (fit'.sane.capture.ready id (ready.symm ▸ inside)).2
  refine ⟨_,by rw [made]; rfl,fit',⟨?_,⟨?_,?_⟩,ready,?_⟩,(queueSetOther u (by decide) _).trans handing.output,
    handing.kernel⟩
  · rw [queue]
    exact {handing.placed with}
  · rw [queue]
  · intro id inside
    rw [active id (names ▸ inside)]
    simp
  · rw [List.eq_nil_iff_forall_not_mem]
    intro id member
    have wf := (fit'.sane.sound .capture).wf
    exact (wf.doneIdle member).1 (active id (names ▸ wf.doneInside member))

structure Streamed (k : Kernel) (controls : Controls) (src : Source) (m : Machine) (s : Sys) : Prop where
  controls : s.c.controls = controls
  source : s.c.src = src
  machine : s.k.machine = m
  sequence : s.k.sequence = k.sequence
  published : s.k.published = k.published
  frames : s.k.frames = k.frames
  metaDev : s.k.metaDev = k.metaDev

theorem outputStreams (fit : Fit k backend format controls s) {out cap : List Nat} {memory : Memory}
    (placed : Placed (s.queue .output) out memory format.sizeimage) (some_ : out ≠ [])
    (unused : Unused (s.queue .output))
    (ready : Open format s cap) {env : StartEnv} {src : Source} {m : Machine}
    (starts : vpipeSourceStart s.k.machine s.c.src s.c.outQ.sizeimage env = (none,src,m)) :
    ∃ s', succeeded (vidiocStreamon s .output env) = some s' ∧ Serving ⟨format,memory,out,cap⟩ s' ∧
      boardOf s' = ⟨[],[],cap,[]⟩ ∧ Streamed k controls src m s' := by
  have nothing : run (vpipeBufQueue .output) s (s.queue .output).queued = s := by rw [unused.queued]; rfl
  let u : Sys := {k := {s.k with machine := m}, c := {s.c with src := src}}
  have made : vidiocStreamon s .output env =
      (none,u.setQueue .output {s.queue .output with streaming := true}) := by
    have names : (s.queue .output).ids ≠ [] := placed.names.symm ▸ some_
    simp only [vidiocStreamon, unused.stopped, List.isEmpty_iff, names, nothing, vpipeStartStreaming, starts,
      Bool.false_eq_true, if_false]
    rfl
  have sane : Sane (s.step (.streamon .output env)) := saneStep fit.sane (.streamon .output env)
  have exact_ : Exact ((s.step (.streamon .output env)).queue .output) :=
    Pairing.outputExactStep (e := .streamon .output env) fit.sane (fun _ _ _ _ => unused.queued) fit.output
  rw [Sys.step, made] at sane exact_
  have outQueue : (u.setQueue .output {s.queue .output with streaming := true}).queue .output =
      _ := queueSet _ _ _
  have capQueue : (u.setQueue .output {s.queue .output with streaming := true}).queue .capture =
      s.queue .capture :=
    queueSetOther _ (by decide) _
  have back : ∀ id ∈ out, ((s.queue .output).buf id).state = .dequeued := by
    intro id inside
    by_contra other
    have member := ((fit.sane.sound .output).wf.queued id).mpr ⟨placed.names.symm ▸ inside,other⟩
    rw [unused.queued] at member
    contradiction
  refine ⟨_,by rw [made]; rfl,⟨sane,exact_,fit.format,?_,?_,?_⟩,?_,
    ⟨fit.controls,rfl,rfl,fit.sequence,fit.published,fit.frames,fit.metaDev⟩⟩
  · intro t
    cases t with
    | output =>
      rw [outQueue]
      refine ⟨rfl,fun id inside => ?_⟩
      simp only
      rw [back id (placed.names ▸ inside)]
      simp
    | capture =>
      rw [capQueue]
      exact ready.started
  · rw [outQueue]
    exact {placed with}
  · rw [capQueue]
    exact ready.placed
  · have noDone := (fit.sane.sound .output).quiet unused.stopped
    rw [boardOf, outQueue, capQueue, ready.ready, ready.done]
    simp only [unused.ready, noDone]

theorem fixtureStarts (fit : Fit k .fixture format controls s) :
    vpipeSourceStart s.k.machine s.c.src s.c.outQ.sizeimage {} =
      (none,s.c.src,s.k.machine.note (.call .start s.c.src.ident)) := by
  simp only [vpipeSourceStart, fit.source]

end Fit

theorem vcamStarts (m : Machine) {src : Source} (sizeimage : Nat) (backend : src.backend = .vcamDerived)
    (some_ : sizeimage ≠ 0) : ∃ v m', vpipeSourceStart m src sizeimage {} =
    (none,{src with priv := .vcam v},m') ∧
      v.fb = m.next + 1 ∧ v.dropEveryN = m.params.vcamDropEvery ∧ v.framesProduced = 0 ∧ v.patternOffset = 0 ∧
      sizeimage ≤ (m'.fbs v.fb).size ∧ m'.mem.bytes = Function.update m.mem.bytes v.fb (fun _ => 0) := by
  simp only [vpipeSourceStart, backend, vcamStart, if_neg some_]
  refine ⟨_,_,rfl,rfl,rfl,rfl,rfl,?_,rfl⟩
  have whole : sizeimage ≤ pageAlign sizeimage := by unfold pageAlign; omega
  have size : ∀ fbs : Nat → VcamFb, (Function.update fbs (m.next + 1) ⟨1,pageAlign sizeimage⟩
      (m.next + 1)).size =
    pageAlign sizeimage := fun fbs => by rw [Function.update_self]
  exact Nat.le_trans whole (Nat.le_of_eq (size _).symm)

end Vpipe.Bringup
