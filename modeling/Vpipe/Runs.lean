import Vpipe.Discipline

/-! Whole runs of one context: each event makes only allowed moves, so what the moves keep
holds in every state reached. -/
namespace Vpipe.Runs
open Vpipe.Lib.Word Vpipe.Lib.ByteMemory Vpipe.Lib.BufferQueue Vpipe.Lib.Transition
open Vpipe.Cv Vpipe.FrameSource Vpipe.MetaRing Vpipe.M2m Vpipe.Moves Vpipe.Discipline

def Inactive (t : QType) (s : Sys) : Prop := ∀ id, ((s.queue t).buf id).state ≠ .active

def Back (t : QType) (s : Sys) : Prop :=
  (s.queue t).streaming = false ∧ ∀ id ∈ (s.queue t).ids, ((s.queue t).buf id).state = .dequeued

theorem runBase {s : Sys} {ls : List Move} (base : Base s) (meets : Meets move Allowed s ls) :
    Base (run move s ls) :=
  runInvariant (fun _ _ so allowed => baseMove so allowed) base meets

theorem abortsAllowed {t : QType} (ids : List Nat) {s : Sys} (streaming : (s.queue t).streaming = true)
    (ready : (s.queue t).ready = ids) : Meets move Allowed s (ids.map (.abort t)) ∧
      ((run move s (ids.map (.abort t))).queue t).ready = [] := by
  induction ids generalizing s with
  | nil => exact ⟨trivial,ready⟩
  | cons id rest ih =>
    have queue : (move s (.abort t id)).queue t = (s.queue t).take.complete id false := queueSet _ _ _
    have stream : ((move s (.abort t id)).queue t).streaming = true := by
      rw [queue]
      unfold Queue.complete
      split <;> exact streaming
    have left : ((move s (.abort t id)).queue t).ready = rest := by
      rw [queue]
      exact completeReady ready false
    obtain ⟨meets, empty⟩ := ih stream left
    exact ⟨⟨⟨streaming,by rw [ready]; rfl⟩,meets⟩,empty⟩

theorem inactiveEmpty {t : QType} {s : Sys} (base : Base s) (empty : (s.queue t).ready = []) :
    Inactive t s := by
  intro id active
  have member := ((base.sound t).wf.active id active).2
  simp [empty] at member

theorem releaseState (t : QType) (s : Sys) (id other : Nat) :
    ((releaseOne t s id).queue t).ids = (s.queue t).ids ∧
    (((releaseOne t s id).queue t).buf other).state =
      if other = id then .dequeued else ((s.queue t).buf other).state := by
  rw [releaseOne, queueSet]
  refine ⟨rfl,?_⟩
  by_cases same : other = id
  · subst same; simp [Queue.release]
  · simp [Queue.release, same]

theorem releasesAllowed {t : QType} (l : List Nat) {s : Sys} (idle : Inactive t s)
    (inside : ∀ id ∈ l, id ∈ (s.queue t).ids) : Meets move Allowed s (l.map (.release t)) := by
  induction l generalizing s with
  | nil => trivial
  | cons id rest ih =>
    refine ⟨⟨inside id (by simp),idle id⟩,ih (s := releaseOne t s id) ?_ ?_⟩
    · intro other
      rw [(releaseState t s id other).2]
      split
      · simp
      · exact idle other
    · intro other member
      rw [(releaseState t s id other).1]
      exact inside other (List.mem_cons_of_mem _ member)

theorem releasedBack (t : QType) (s : Sys) (l : List Nat) :
    ((run move s (l.map (.release t))).queue t).ids = (s.queue t).ids ∧
    ∀ id ∈ l, (((run move s (l.map (.release t))).queue t).buf id).state = .dequeued := by
  have same : run move s (l.map (.release t)) = run (releaseOne t) s l := List.foldl_map
  rw [same]
  constructor
  · exact runAlways (fun s' id so => (releaseState t s' id id).1.trans so) rfl l
  · refine runEach (fun id (s' : Sys) => ((s'.queue t).buf id).state = .dequeued) ?_ ?_ s l
    · intro s' id
      simp [(releaseState t s' id id).2]
    · intro s' id other so
      rw [(releaseState t s' other id).2]
      split
      · rfl
      · exact so

theorem stopAllowed {s : Sys} {t : QType} (base : Base s) (streaming : (s.queue t).streaming = true) :
    Meets move Allowed s (stopMoves t ++ (s.queue t).ready.map (.abort t)) ∧
      Inactive t (run move s (stopMoves t ++ (s.queue t).ready.map (.abort t))) := by
  have meets : Meets move Allowed s (stopMoves t ++ (s.queue t).ready.map (.abort t)) ∧
      ((run move s (stopMoves t ++ (s.queue t).ready.map (.abort t))).queue t).ready = [] := by
    cases t with
    | capture => exact abortsAllowed _ streaming rfl
    | output =>
      obtain ⟨aborts, empty⟩ := abortsAllowed _ (s := move s .stop) (t := .output) streaming rfl
      exact ⟨⟨streaming,aborts⟩,empty⟩
  exact ⟨meets.1,inactiveEmpty (runBase base meets.1) meets.2⟩

theorem backOf {t : QType} {s : Sys} (idle : Inactive t s) :
    Meets move Allowed s ((s.queue t).ids.map (.release t) ++ [.cancelled t]) ∧
      Back t (run move s ((s.queue t).ids.map (.release t) ++ [.cancelled t])) := by
  obtain ⟨ids, back⟩ := releasedBack t s (s.queue t).ids
  have all : Allowed (run move s ((s.queue t).ids.map (.release t))) (.cancelled t) := by
    intro id member
    exact back id (ids ▸ member)
  rw [meetsAppend, runAppend]
  refine ⟨⟨releasesAllowed _ idle (fun _ member => member),all,trivial⟩,?_,?_⟩
  · simp [move]
  · intro id member
    simp only [runCons, runNil, move, queueSet] at member ⊢
    exact all id member

theorem cancelAllowed {s : Sys} {t : QType} (base : Base s)
    (rest : (s.queue t).streaming = false → Inactive t s) :
    Meets move Allowed s (cancelMoves s t) ∧ Back t (run move s (cancelMoves s t)) := by
  unfold cancelMoves
  rw [List.append_assoc]
  split
  case isTrue streaming =>
    obtain ⟨meets, idle⟩ := stopAllowed base streaming
    have ids : ((run move s (stopMoves t ++ (s.queue t).ready.map (.abort t))).queue t).ids =
        (s.queue t).ids := by
      rw [stopStreamingMoves]
      exact stopStreamingIds s t
    obtain ⟨released, back⟩ := backOf idle
    rw [ids] at released back
    refine ⟨(meetsAppend _ _ _ _ _).mpr ⟨meets,released⟩,?_⟩
    rw [runAppend move s (_ ++ _)]
    exact back
  case isFalse stopped =>
    exact backOf (rest (by simpa using stopped))

theorem allocatesAllowed (s : Sys) (t : QType) (memory : Memory) (wanted size slack granted : Nat) :
    Meets move Allowed s (allocateMoves t memory wanted size slack granted) := by
  unfold allocateMoves
  split
  · trivial
  · generalize min wanted granted = count
    induction count generalizing s with
    | zero => trivial
    | succ n ih => exact ⟨trivial,ih _⟩

theorem prepareAllowed {s : Sys} {t : QType} {id : Nat} {att : Option Attachment} {ms : List Move}
    (made : prepareMoves s t id att = some ms) (inside : id ∈ (s.queue t).ids)
    (state : ((s.queue t).buf id).state = .dequeued) (fresh : ((s.queue t).buf id).prepared = false) :
    Meets move Allowed s ms ∧ ((run move s ms).queue t).ids = (s.queue t).ids ∧
      (((run move s ms).queue t).buf id).state = .dequeued ∧
      (((run move s ms).queue t).buf id).prepared = true ∧ (run move s ms).c.controls = s.c.controls := by
  obtain ⟨a, large, rfl⟩ := prepareIs made
  refine ⟨⟨⟨inside,state,fresh,large,rfl⟩,trivial⟩,?_⟩
  simp [move, Queue.prepare, Queue.modify, state]
  rfl

theorem enqueueAllowed {s s' : Sys} {t : QType} {id flags : Nat} (inside : id ∈ (s'.queue t).ids)
    (state : ((s'.queue t).buf id).state = .dequeued) (ready : ((s'.queue t).buf id).prepared = true) :
    Meets move Allowed s' (enqueueMoves s t id flags) := by
  refine ⟨⟨inside,state,ready⟩,?_⟩
  split
  · refine ⟨⟨?_,?_,?_⟩,trivial⟩
    · simp [move, Queue.enqueue, Queue.modify]
    · simp [move, Queue.enqueue, Queue.modify]
    · intro _
      simp [move, Queue.enqueue, Queue.modify]
      rfl
  · trivial

theorem handOversAllowed {t : QType} (l : List Nat) {s : Sys} (stopped : (s.queue t).streaming = false)
    (distinct : l.Nodup) (waiting : ∀ id ∈ l, id ∈ (s.queue t).queued ∧ ((s.queue t).buf id).state = .queued) :
    Meets move Allowed s (l.map (.handOver t)) ∧
      ((run move s (l.map (.handOver t))).queue t).streaming = false := by
  induction l generalizing s with
  | nil => exact ⟨trivial,stopped⟩
  | cons id rest ih =>
    obtain ⟨absent, distinct⟩ := List.nodup_cons.mp distinct
    have made := bufQueueSame t s id
    have stream : ((move s (.handOver t id)).queue t).streaming = false := by
      rw [move, made]; exact stopped
    have later : ∀ other ∈ rest, other ∈ ((move s (.handOver t id)).queue t).queued ∧
        (((move s (.handOver t id)).queue t).buf other).state = .queued := by
      intro other member
      have differ : other ≠ id := fun same => absent (same ▸ member)
      rw [move, made]
      simpa [Queue.handOver, Queue.modify, differ] using waiting other (List.mem_cons_of_mem _ member)
    obtain ⟨meets, still⟩ := ih stream distinct later
    obtain ⟨queued, state⟩ := waiting id (by simp)
    exact ⟨⟨⟨queued,state,fun streaming => by simp [stopped] at streaming⟩,meets⟩,still⟩

theorem waitingQueued {s : Sys} {t : QType} (base : Base s) (rest : AtRest s)
    (stopped : (s.queue t).streaming = false) {id : Nat} (member : id ∈ (s.queue t).queued) :
    ((s.queue t).buf id).state = .queued := by
  have sound := base.sound t
  have here := (sound.wf.queued id).mp member
  have done : ¬ (((s.queue t).buf id).state = .done ∨ ((s.queue t).buf id).state = .error) :=
    fun completed => by
    have finished := (sound.wf.done id).mpr ⟨here.1,completed⟩
    simp [sound.quiet stopped] at finished
  have active := rest t stopped id
  cases state : ((s.queue t).buf id).state <;> simp_all

theorem stepAllowed {s : Sys} (base : Base s) (rest : AtRest s) (e : Event) :
    Meets move Allowed s (moves s e) := by
  cases e with
  | sFmt t pix =>
    simp only [moves, sFmtResult]
    cases busy : s.c.busy t with
    | true => trivial
    | false => exact ⟨⟨filledGeometry _ _,t,by simpa [Ctx.busy, Sys.queue] using busy⟩,trivial⟩
  | sCtrl id val =>
    simp only [moves]
    split <;> simp [Meets, Allowed]
  | setBackend id allocated =>
    simp only [moves]
    split <;> simp [Meets, Allowed]
  | reqbufs t count memory slack granted =>
    simp only [moves]
    split
    · trivial
    · obtain ⟨meets, back⟩ := cancelAllowed base (fun stopped => rest t stopped)
      rw [meetsAppend]
      refine ⟨meets,back,?_⟩
      split
      · trivial
      · exact allocatesAllowed _ _ _ _ _ _ _
  | createBufs t count memory size slack granted =>
    simp only [moves]
    split
    · trivial
    · exact allocatesAllowed _ _ _ _ _ _ _
  | prepareBuf t index att =>
    simp only [moves]
    cases found : (s.queue t).ids[index]? with
    | none => trivial
    | some id =>
      have inside := List.mem_of_getElem? found
      simp only
      split
      · trivial
      · rename_i fine
        simp only [not_or, not_not, Bool.not_eq_true] at fine
        cases made : prepareMoves s t id att with
        | none => trivial
        | some ms => exact (prepareAllowed made inside fine.1 fine.2).1
  | qbuf t index flags att =>
    rcases qbufShape s t index flags att with none_ | ⟨id, before, inside, state, made, first⟩
    · rw [none_]; trivial
    · rw [made]
      rcases first with ⟨rfl, ready⟩ | ⟨prepares, fresh⟩
      · exact enqueueAllowed inside state ready
      · obtain ⟨meets, ids, back, ready, _⟩ := prepareAllowed prepares inside state fresh
        rw [meetsAppend]
        exact ⟨meets,enqueueAllowed (ids ▸ inside) back ready⟩
  | dqbuf t =>
    simp only [moves]
    split
    · rename_i some_
      exact ⟨some_,trivial⟩
    · trivial
  | streamon t env =>
    simp only [moves]
    split
    · trivial
    · rename_i idle
      simp only [not_or, Bool.not_eq_true] at idle
      obtain ⟨meets, stopped⟩ := handOversAllowed _ idle.1 (base.sound t).wf.queuedDistinct
        (fun id member => ⟨member,waitingQueued base rest idle.1 member⟩)
      rw [meetsAppend]
      exact ⟨meets,stopped,trivial⟩
  | streamoff t =>
    obtain ⟨meets, back⟩ := cancelAllowed base (fun stopped => rest t stopped)
    simp only [moves]
    rw [meetsAppend]
    exact ⟨meets,back,trivial⟩
  | deviceRun cpu =>
    simp only [moves]
    split
    · rename_i go
      exact ⟨go,trivial⟩
    · trivial
  | _ => exact ⟨trivial,trivial⟩

structure AtQbuf (s s' : Sys) (t : QType) (id : Nat) : Prop where
  before : (s.queue t).streaming = true
  kernel : s'.k = s.k
  context : s'.c = {s.c with queues := s'.c.queues}
  streaming : (s'.queue t).streaming = true
  allowed : Allowed s' (.handOver t id)

theorem enqueueAt {s s' : Sys} {t : QType} {id flags : Nat} (before : (s.queue t).streaming = true)
    (kernel : s'.k = s.k)
    (context : s'.c = {s.c with queues := s'.c.queues})
    (streaming : (s'.queue t).streaming = true) :
    AtQbuf s (move s' (.enqueue t id flags)) t id := by
  refine ⟨before,kernel,?_,?_,?_,?_,?_⟩
  · simp only [move, Sys.setQueue]
    rw [context]
  · simpa [move, Queue.enqueue, Queue.modify] using streaming
  · simp [move, Queue.enqueue, Queue.modify]
  · simp [move, Queue.enqueue, Queue.modify]
  · intro _
    simp [move, Queue.enqueue, Queue.modify]
    rfl

def HandsOver (t : QType) (l : Move) : Prop := ∃ id, l = .handOver t id

theorem handOverMeets {s : Sys} {e : Event} {t : QType} {ok : Sys → Move → Prop}
    (others : ∀ s' l, ¬ HandsOver t l → ok s' l)
    (streamon : ∀ env, e = .streamon t env → (s.queue t).streaming = false →
      Meets move ok s ((s.queue t).queued.map (.handOver t)))
    (qbuf : ∀ s' id, (∃ index flags att, e = .qbuf t index flags att) → AtQbuf s s' t id →
      ok s' (.handOver t id)) : Meets move ok s (moves s e) := by
  by_cases on : ∃ env, e = .streamon t env
  · obtain ⟨env, rfl⟩ := on
    simp only [moves]
    split
    · trivial
    · rename_i idle
      simp only [not_or, Bool.not_eq_true] at idle
      rw [meetsAppend]
      exact ⟨streamon env rfl idle.1,others _ _ (by simp [HandsOver]),trivial⟩
  · by_cases q : ∃ index flags att, e = .qbuf t index flags att
    · have enqueue : ∀ s' id flags, s'.k = s.k → s'.c = {s.c with queues := s'.c.queues} →
          (s'.queue t).streaming = (s.queue t).streaming → Meets move ok s' (enqueueMoves s t id flags) := by
        intro s' id flags kernel context same
        refine ⟨others _ _ (by simp [HandsOver]),?_⟩
        split
        · rename_i streaming
          exact ⟨qbuf _ id q (enqueueAt streaming kernel context (same.trans streaming)),trivial⟩
        · trivial
      obtain ⟨index, flags, att, rfl⟩ := q
      rcases qbufShape s t index flags att with none_ | ⟨id, before, _, _, made, first⟩
      · rw [none_]; trivial
      · rw [made]
        rcases first with ⟨rfl, _⟩ | ⟨prepares, _⟩
        · exact enqueue s id flags rfl rfl rfl
        · have stream := prepareStreaming prepares
          obtain ⟨a, _, rfl⟩ := prepareIs prepares
          rw [meetsAppend]
          exact ⟨⟨others _ _ (by simp [HandsOver]),trivial⟩,enqueue _ id flags rfl rfl stream⟩
    · refine meetsMember (fun l member s' => others s' l ?_) s
      rintro ⟨id, rfl⟩
      exact (handOverOrigin member).elim on q

def Rests (t : QType) (s : Sys) : Prop := (s.queue t).streaming = false → Inactive t s

theorem startRests (s : Sys) (t : QType) (env : StartEnv) : Rests t (move s (.start t env)) := by
  intro stopped id
  rcases startCases s t env with ⟨_, made⟩ | ⟨_, _, made⟩
  · simp [made] at stopped
  · rw [made]
    simp only [Queue.revert]
    split
    · simp
    · assumption

theorem restMove {s : Sys} {l : Move} {t : QType} (base : Base s) (allowed : Allowed s l)
    (handsOver : HandsOver t l → (s.queue t).streaming = true) (rests : Rests t s) : Rests t (move s l) := by
  intro stopped
  generalize queue : (move s l).queue t = q at stopped
  intro id
  rw [queue]
  cases changedMove base allowed queue with
  | same => exact rests stopped id
  | allocate _ =>
    by_cases same : id = s.k.machine.next
    · subst same; simp [Queue.allocate, newBuffer]
    · simpa [Queue.allocate, same] using rests stopped id
  | @prepare other _ _ _ _ _ _ =>
    have before := rests stopped id
    by_cases same : id = other
    · subst same; simpa [Queue.prepare, Queue.modify] using before
    · simpa [Queue.prepare, Queue.modify, same] using before
  | @enqueue other _ _ _ _ _ =>
    by_cases same : id = other
    · subst same; simp [Queue.enqueue, Queue.modify]
    · simpa [Queue.enqueue, Queue.modify, same] using rests stopped id
  | handOver made _ _ =>
    have streaming := handsOver ⟨_,made⟩
    simp [Queue.handOver, Queue.modify, streaming] at stopped
  | started _ => simp at stopped
  | reverted _ _ =>
    simp only [Queue.revert]
    split
    · simp
    · assumption
  | completed _ _ streaming _ =>
    rw [completeStreaming] at stopped
    simp [Queue.setData, Queue.modify, streaming] at stopped
  | @released other _ _ _ =>
    by_cases same : id = other
    · subst same; simp [Queue.release]
    · simpa [Queue.release, same] using rests stopped id
  | cancelled _ back =>
    intro active
    have inside := ((base.sound t).wf.active id active).1
    rw [show ((s.queue t).buf id).state = .dequeued from back id inside] at active
    contradiction
  | freed _ => exact rests stopped id
  | reset _ _ => exact rests stopped id

theorem atRestStep {s : Sys} (base : Base s) (rest : AtRest s) (e : Event) : AtRest (s.step e) := by
  intro t
  rw [stepMoves]
  by_cases on : ∃ env, e = .streamon t env
  · obtain ⟨env, rfl⟩ := on
    simp only [moves]
    split
    · exact rest t
    · rw [runAppend]
      exact startRests _ t env
  · have meets : Meets move (fun s l => HandsOver t l → (s.queue t).streaming = true) s (moves s e) :=
      handOverMeets (fun _ _ none_ hands => absurd hands none_)
        (fun env same => absurd ⟨env,same⟩ on) (fun s' id _ at_ _ => at_.streaming)
    have keeps : ∀ s l, Base s ∧ Rests t s → Allowed s l ∧ (HandsOver t l → (s.queue t).streaming = true) →
        Base (move s l) ∧ Rests t (move s l) :=
      fun s l so ok => ⟨baseMove so.1 ok.1,restMove so.1 ok.1 ok.2 so.2⟩
    exact (runInvariant keeps ⟨base,rest t⟩ (meetsAnd (stepAllowed base rest e) meets)).2

structure Steady (s : Sys) : Prop extends Base s where
  capture : Exact (s.queue .capture)

theorem steadyMove {s : Sys} {l : Move} (steady : Steady s) (allowed : Allowed s l) : Steady (move s l) :=
  ⟨baseMove steady.toBase allowed,
    exactMove steady.toBase allowed .capture (fun _ _ failed => absurd rfl failed) steady.capture⟩

structure Sane (s : Sys) : Prop extends Steady s where
  rest : AtRest s

theorem saneStep {s : Sys} (sane : Sane s) (e : Event) : Sane (s.step e) := by
  have meets := stepAllowed sane.toBase sane.rest e
  refine ⟨?_,atRestStep sane.toBase sane.rest e⟩
  rw [stepMoves]
  exact runInvariant (fun _ _ so allowed => steadyMove so allowed) sane.toSteady meets

theorem stepKeeps {inv : Sys → Prop} {ok : Sys → Move → Prop}
    (keeps : ∀ s l, Steady s → Allowed s l → ok s l → inv s → inv (move s l))
    {s : Sys} {e : Event} (sane : Sane s) (so : inv s) (meets : Meets move ok s (moves s e)) :
    inv (s.step e) := by
  have both : ∀ s l, Steady s ∧ inv s → Allowed s l ∧ ok s l → Steady (move s l) ∧ inv (move s l) :=
    fun s l so ok => ⟨steadyMove so.1 ok.1,keeps s l so.1 ok.1 ok.2 so.2⟩
  rw [stepMoves]
  exact (runInvariant both ⟨sane.toSteady,so⟩ (meetsAnd (stepAllowed sane.toBase sane.rest e) meets)).2

theorem runKeeps {inv : Sys → Prop} {ok : Sys → Move → Prop} {cond : Sys → Event → Prop}
    (keeps : ∀ s l, Steady s → Allowed s l → ok s l → inv s → inv (move s l))
    (lifts : ∀ s e, Sane s → inv s → cond s e → Meets move ok s (moves s e))
    {s : Sys} {events : List Event} (sane : Sane s) (so : inv s) (meets : Meets Sys.step cond s events) :
    Sane (run Sys.step s events) ∧ inv (run Sys.step s events) := by
  have both : ∀ s e, Sane s ∧ inv s → cond s e → Sane (s.step e) ∧ inv (s.step e) :=
    fun s e so ok => ⟨saneStep so.1 e,stepKeeps keeps so.1 so.2 (lifts s e so.1 so.2 ok)⟩
  exact runInvariant both ⟨sane,so⟩ meets

def StartClean (s : Sys) (e : Event) : Prop :=
  ∀ env, e = .streamon .output env → (s.queue .output).streaming = false →
    startFails s.c.src.backend s.c.outQ.sizeimage env = true → (s.queue .output).queued = []

def MoveClean (s : Sys) (l : Move) : Prop :=
  ∀ env, l = .start .output env → startFails s.c.src.backend s.c.outQ.sizeimage env = true →
    (s.queue .output).queued = []

theorem handOverBackend (t : QType) (s : Sys) (id : Nat) :
    (vpipeBufQueue t s id).c.src.ident = s.c.src.ident ∧
    (vpipeBufQueue t s id).c.src.backend = s.c.src.backend := by
  cases t with
  | capture => exact ⟨rfl,rfl⟩
  | output => exact nextFrameSource _ _ _ _

theorem cleanMeets {s : Sys} {e : Event} (clean : StartClean s e) : Meets move MoveClean s (moves s e) := by
  by_cases on : ∃ env, e = .streamon .output env
  · obtain ⟨env, rfl⟩ := on
    simp only [moves]
    split
    · trivial
    · rename_i idle
      simp only [not_or, Bool.not_eq_true] at idle
      rw [meetsAppend]
      refine ⟨meetsMember (fun l member s' env same => ?_) s,?_,trivial⟩
      · obtain ⟨id, _, rfl⟩ := List.mem_map.mp member
        cases same
      · intro env' same fails
        cases same
        have handed : run move s ((s.queue .output).queued.map (.handOver .output)) =
            run (vpipeBufQueue .output) s (s.queue .output).queued := List.foldl_map
        have kept : ∀ s' : Sys, s'.c.src.backend = s.c.src.backend ∧ s'.c.outQ = s.c.outQ → ∀ id,
            (vpipeBufQueue .output s' id).c.src.backend = s.c.src.backend ∧
            (vpipeBufQueue .output s' id).c.outQ = s.c.outQ :=
          fun s' so id => ⟨(handOverBackend .output s' id).2.trans so.1,so.2⟩
        have same := runAlways (fun s' id so => kept s' so id) ⟨rfl,rfl⟩ (s.queue .output).queued
        rw [handed, same.1, same.2] at fails
        have none_ := clean env rfl idle.1 fails
        rw [none_]
        exact none_
  · refine meetsMember (fun l member s' env same => ?_) s
    exact absurd ⟨env,startOrigin (same ▸ member)⟩ on

theorem outputExactMove {s : Sys} {l : Move} (steady : Steady s) (allowed : Allowed s l) (clean : MoveClean s l)
    (exact_ : Exact (s.queue .output)) : Exact ((move s l).queue .output) :=
  exactMove steady.toBase allowed .output
    (fun env same failed => clean env same ((startFailed _ _ _ _).mp failed)) exact_

theorem openCases {k : Kernel} {ident : Nat} {env : OpenEnv} {s : Sys}
    (opened : vpipeOpen k ident env = .ok s) :
    ∃ src m, vpipeSourceCreate k.machine Backend.fixture.id true = .ok (src,m) ∧
      s = ⟨{k with machine := m},⟨ident,defaultQData,defaultQData,{},src,fun _ => Queue.empty blankBuf⟩⟩ := by
  unfold vpipeOpen at opened
  split at opened
  · contradiction
  · split at opened
    · contradiction
    · contradiction
    · split at opened
      · contradiction
      · rename_i src m created
        cases opened
        cases source : env.source with
        | false => rw [source] at created; simp [vpipeSourceCreate, Backend.ofId, Backend.id] at created
        | true => rw [source] at created; exact ⟨src,m,created,rfl⟩

def openedOn (k : Kernel) (ident : Nat) : Sys where
  k := {k with machine := {k.machine with
    next := k.machine.next + 1, trace := .create k.machine.next :: k.machine.trace}}
  c := ⟨ident,defaultQData,defaultQData,{},⟨k.machine.next,.fixture,.null,0⟩,fun _ => Queue.empty blankBuf⟩

theorem openSucceeds (k : Kernel) (ident : Nat) : vpipeOpen k ident {} = .ok (openedOn k ident) := rfl

theorem emptyExact : Exact (Queue.empty blankBuf) := ⟨List.nodup_nil,by simp [Queue.empty],List.Perm.nil⟩

theorem openSane {k : Kernel} {ident : Nat} {env : OpenEnv} {s : Sys} (opened : vpipeOpen k ident env = .ok s) :
    Sane s ∧ Exact (s.queue .output) := by
  obtain ⟨src, m, _, rfl⟩ := openCases opened
  have sound : ∀ next, Sound (Queue.empty blankBuf) next := fun next =>
    ⟨⟨List.nodup_nil,List.nodup_nil,List.nodup_nil,by simp [Queue.empty],by simp [Queue.empty],
      by simp [Queue.empty, blankBuf],by simp [Queue.empty]⟩,fun _ => rfl,by simp [Queue.empty]⟩
  have geometry : Geometry defaultQData := ⟨by decide,by decide,rfl,rfl,rfl⟩
  exact ⟨⟨⟨⟨fun _ => sound _,geometry,rfl⟩,emptyExact⟩,fun _ _ _ => by simp [Sys.queue, Queue.empty, blankBuf]⟩,
    emptyExact⟩

end Vpipe.Runs
