import Vpipe.MetaReaders

/-! The contract of the metadata readers: any number of open files, one read at a time
on each, every copy_to_user succeeding, in any interleaving with publications. -/
namespace Vpipe.MetaContract
open Vpipe.Lib Vpipe.Lib.Transition Vpipe.MetaRing Vpipe.MetaReaders

def Disciplined (s : System) : Event → Prop
  | .publish e => e.overrun = false
  | .open _ => True
  | .lock f _ => ∀ o ∈ s.files f, o.pending = []
  | .finish _ _ copyOk => copyOk = true

instance (s : System) (event : Event) : Decidable (Disciplined s event) := by
  unfold Disciplined
  split <;> infer_instance

structure Step (next : Nat) (c : Copy) : Prop where
  order : next ≤ c.tag
  flagged : c.entry.overrun = true ↔ ∃ i, next ≤ i ∧ i < c.tag
  lost : c.entry.overrun = true → ∀ i, next ≤ i → (i < c.tag ↔ i + ringSize < c.head)

def Steps : Nat → List Copy → Prop
  | _, [] => True
  | next, c :: rest => Step next c ∧ Steps (c.tag + 1) rest

theorem stepsAppend (next : Nat) (cs : List Copy) (c : Copy) :
    Steps next (cs ++ [c]) ↔ Steps next cs ∧ Step (nextAfter next cs) c := by
  induction cs generalizing next with
  | nil => simp [Steps, nextAfter]
  | cons d rest ih => simp [Steps, nextAfter, ih, and_assoc]

theorem stepsAbove {next : Nat} {cs : List Copy} (steps : Steps next cs) :
    ∀ c ∈ cs, next ≤ c.tag := by
  induction cs generalizing next with
  | nil => simp
  | cons d rest ih =>
    intro c member
    rcases List.mem_cons.mp member with same | later
    · subst same; exact steps.1.order
    · have := steps.1.order
      have := ih steps.2 c later
      omega

theorem stepsIncreasing {next : Nat} {cs : List Copy} (steps : Steps next cs) :
    cs.Pairwise (fun a b => a.tag < b.tag) := by
  induction cs generalizing next with
  | nil => exact .nil
  | cons d rest ih =>
    refine List.pairwise_cons.mpr ⟨?_,ih steps.2⟩
    intro c later
    have := stepsAbove steps.2 c later
    omega

def Undelivered (s : System) (o : OpenFile) (i : Nat) : Prop := o.next ≤ i ∧ i < s.history.length

structure Contract (s : System) (o : OpenFile) : Prop where
  genuine : ∀ c ∈ o.delivered, Genuine s.history c
  increasing : o.delivered.Pairwise (fun a b => a.tag < b.tag)
  steps : Steps o.opened o.delivered
  again : o.pending = [] → ∀ count signal copyOk, sizeofMetaEntry ≤ count →
    (vpipeMetaRead s.dev o.file count true signal copyOk = some (.error .eagain,o.file) ↔
      ¬ ∃ i, Undelivered s o i)
  poll : vpipeMetaPoll s.dev o.file &&& epollin = 0 ↔ ¬ ∃ i, Undelivered s o i

structure Kept (s : System) (o : OpenFile) : Prop where
  bound : o.next ≤ s.history.length
  idle : o.pending = [] → o.file.tail = o.next
  single : ∀ p ∈ o.pending, o.pending = [p]
  busy : ∀ p ∈ o.pending, o.file.tail = p.2.cursor ∧ p.2.tag = p.2.cursor ∧
    p.2.cursor < s.history.length ∧ Step o.next p.2 ∧ Genuine s.history p.2
  genuine : ∀ c ∈ o.delivered, Genuine s.history c
  steps : Steps o.opened o.delivered

structure Safe (s : System) : Prop where
  ledger : Ledger s
  clear : ∀ e ∈ s.history, e.overrun = false
  files : ∀ f o, s.files f = some o → Kept s o

theorem keptBehind {s : System} (ledger : Ledger s) {o : OpenFile} (kept : Kept s o) :
    o.file.tail ≤ s.dev.head := by
  rw [ledger.head]
  cases pending : o.pending with
  | nil => rw [kept.idle pending]; exact kept.bound
  | cons p rest =>
    obtain ⟨stands, _, below, _⟩ := kept.busy p (by simp [pending])
    omega

theorem keptTail {s : System} {o : OpenFile} (kept : Kept s o) :
    o.file.tail = s.history.length ↔ ¬ ∃ i, Undelivered s o i := by
  have bound := kept.bound
  cases pending : o.pending with
  | nil =>
    rw [kept.idle pending]
    constructor
    · rintro same ⟨i, low, high⟩
      omega
    · intro none
      by_contra short
      exact none ⟨o.next,Nat.le_refl _,by omega⟩
  | cons p rest =>
    obtain ⟨stands, tag, below, step, _⟩ := kept.busy p (by simp [pending])
    have order := step.order
    constructor
    · intro same
      omega
    · intro none
      exact absurd ⟨p.2.cursor,by omega,below⟩ none

theorem keptContract {s : System} (ledger : Ledger s) {o : OpenFile} (kept : Kept s o) :
    Contract s o where
  genuine := kept.genuine
  increasing := stepsIncreasing kept.steps
  steps := kept.steps
  again _ count signal copyOk room := by
    rw [← keptTail kept, ← ledger.head]
    exact readAgain ledger.alive room signal copyOk
  poll := by
    rw [← keptTail kept, ← ledger.head]
    exact pollReadable ledger.alive

theorem keptPublish {s : System} {o : OpenFile} (kept : Kept s o) (e : MetaEntry) :
    Kept (s.step (.publish e)) o where
  bound := by
    have := kept.bound
    simp only [System.step, List.length_append, List.length_singleton]
    omega
  idle := kept.idle
  single := kept.single
  busy p member := by
    obtain ⟨stands, tag, below, step, genuine⟩ := kept.busy p member
    refine ⟨stands,tag,?_,step,genuineGrows genuine e⟩
    simp only [System.step, List.length_append, List.length_singleton]
    omega
  genuine c member := genuineGrows (kept.genuine c member) e
  steps := kept.steps

theorem keptLock {s : System} (safe : Safe s) {o : OpenFile} (kept : Kept s o) (r : Nat)
    (free : o.pending = []) : Kept s (o.lock s.dev s.tags r) := by
  have stands := kept.idle free
  rcases lockCases safe.ledger o r (keptBehind safe.ledger kept) with same | ⟨_, empty⟩ |
    ⟨below, c, tag, head, cursor, genuine, lapped, fresh, taken⟩
  · rw [same]; exact kept
  · rw [empty]
    have same := deliveredSilent o (show Result.again.copy? = none from rfl)
    have next := nextSilent o (show Result.again.copy? = none from rfl)
    exact ⟨next ▸ kept.bound,next ▸ kept.idle,kept.single,next ▸ kept.busy,
      by rw [same]; exact kept.genuine,by rw [same]; exact kept.steps⟩
  · rw [taken]
    have top := safe.ledger.head
    have bottom : oldest s.dev = s.dev.head - ringSize := rfl
    have size : 0 < ringSize := by decide
    -- An unflagged copy is the plain published entry, whose overrun bit is clear.
    have flagged : c.entry.overrun = true ↔ o.next < c.tag := by
      constructor
      · intro set
        by_contra near
        obtain ⟨e, found, plain⟩ := fresh (by omega)
        have clear := safe.clear e (List.mem_of_getElem? found)
        rw [plain] at set
        exact absurd (clear.symm.trans set) (by decide)
      · intro skipped
        exact lapped (by omega)
    have step : Step o.next c := by
      refine ⟨by omega,?_,?_⟩
      · rw [flagged]
        exact ⟨fun h => ⟨o.next,Nat.le_refl _,h⟩,fun ⟨i, low, high⟩ => by omega⟩
      · intro set i low
        have := flagged.mp set
        omega
    refine ⟨kept.bound,by simp [free],by simp [free],?_,kept.genuine,kept.steps⟩
    intro p member
    have eq : p = (r,c) := by simpa [free] using member
    subst eq
    exact ⟨rfl,tag,by change c.cursor < s.history.length; omega,step,genuine⟩

theorem keptFinish {s : System} {o : OpenFile} (kept : Kept s o) (r : Nat) :
    Kept s (o.finish r true) := by
  rcases finishCases o r true with same | ⟨c, found, member, finished⟩
  · rw [same]; exact kept
  rw [finished, if_pos rfl]
  obtain ⟨stands, tag, below, step, genuine⟩ := kept.busy _ member
  have emptied : o.pending.filter (fun q => q.1 != r) = [] := by
    rw [kept.single _ member]
    simp
  have delivered := deliveredGiven o c
  have next := nextGiven o c
  refine ⟨?_,?_,?_,?_,?_,?_⟩
  · change OpenFile.next {o with results := o.results ++ [.delivered c]} ≤ s.history.length
    simp only at *
    omega
  · intro _
    change o.file.tail + 1 = OpenFile.next {o with results := o.results ++ [.delivered c]}
    simp only at *
    omega
  · simp [emptied]
  · simp [emptied]
  · change ∀ d ∈ OpenFile.delivered {o with results := o.results ++ [.delivered c]}, Genuine s.history d
    rw [delivered]
    intro d inside
    rcases List.mem_append.mp inside with old | new
    · exact kept.genuine d old
    · have eq : d = c := by simpa using new
      subst eq
      exact genuine
  · change Steps o.opened (OpenFile.delivered {o with results := o.results ++ [.delivered c]})
    rw [delivered]
    exact (stepsAppend _ _ _).mpr ⟨kept.steps,step⟩

theorem safeInit : Safe System.init := ⟨ledgerInit,by simp [System.init],by simp [System.init]⟩

theorem keptStill {s t : System} (history : t.history = s.history) {o : OpenFile} (kept : Kept s o) :
    Kept t o :=
  ⟨history ▸ kept.bound,kept.idle,kept.single,history ▸ kept.busy,history ▸ kept.genuine,kept.steps⟩

theorem stepHistory (s : System) (event : Event) :
    (s.step event).history = match event with
      | .publish e => s.history ++ [e]
      | _ => s.history := by
  cases event with
  | «open» f =>
    simp only [System.step]
    split <;> rfl
  | _ => rfl

theorem safeStep (s : System) (event : Event) (safe : Safe s) (disciplined : Disciplined s event) :
    Safe (s.step event) := by
  have history := stepHistory s event
  refine ⟨ledgerStep safe.ledger event,?_,?_⟩
  · intro e member
    rw [history] at member
    cases event with
    | publish x =>
      rcases List.mem_append.mp member with old | new
      · exact safe.clear e old
      · have eq : e = x := by simpa using new
        subst eq
        exact disciplined
    | _ => exact safe.clear e member
  · intro f o found
    rcases stepFileCases found with same | ⟨rfl, rfl⟩ | ⟨before, r, rfl, was, rfl⟩ |
      ⟨before, r, copyOk, rfl, was, rfl⟩
    · have kept := safe.files f o same
      cases event with
      | publish e => exact keptPublish kept e
      | _ => exact keptStill history kept
    · refine keptStill (s := s) history ⟨?_,fun _ => safe.ledger.head,?_,?_,?_,trivial⟩
      · exact Nat.le_refl _
      all_goals simp [OpenFile.delivered]
    · exact keptStill (s := s) history (keptLock safe (safe.files f before was) r (disciplined before was))
    · cases disciplined
      exact keptStill (s := s) history (keptFinish (safe.files f before was) r)

def concerns (f : Nat) : Event → Bool
  | .publish _ => true
  | .open g => g == f
  | .lock g _ => g == f
  | .finish g _ _ => g == f

structure Agree (f : Nat) (s t : System) : Prop where
  dev : s.dev = t.dev
  history : s.history = t.history
  tags : s.tags = t.tags
  file : s.files f = t.files f

theorem agreeConcerned {f : Nat} {s t : System} (agree : Agree f s t) {event : Event}
    (concerned : concerns f event = true) : Agree f (s.step event) (t.step event) := by
  obtain ⟨dev, history, tags, file⟩ := agree
  cases event with
  | publish e =>
    exact ⟨by simp [System.step, dev],by simp [System.step, history],
      by simp [System.step, dev, history, tags],file⟩
  | «open» g =>
    have same : g = f := by simpa [concerns] using concerned
    subst same
    simp only [System.step, file, dev, history]
    split
    · exact ⟨rfl,rfl,tags,by simp⟩
    · exact ⟨dev,history,tags,file⟩
  | lock g r =>
    have same : g = f := by simpa [concerns] using concerned
    subst same
    exact ⟨dev,history,tags,by simp [System.step, file, dev, tags]⟩
  | finish g r copyOk =>
    have same : g = f := by simpa [concerns] using concerned
    subst same
    exact ⟨dev,history,tags,by simp [System.step, file]⟩

theorem agreeOther {f : Nat} {s t : System} (agree : Agree f s t) {event : Event}
    (other : concerns f event = false) : Agree f (s.step event) t := by
  obtain ⟨dev, history, tags, file⟩ := agree
  cases event with
  | publish e => simp [concerns] at other
  | «open» g =>
    have differ : f ≠ g := fun same => by simp [concerns, same] at other
    simp only [System.step]
    split
    · exact ⟨dev,history,tags,by simpa [Function.update_of_ne differ] using file⟩
    · exact ⟨dev,history,tags,file⟩
  | lock g r =>
    have differ : f ≠ g := fun same => by simp [concerns, same] at other
    exact ⟨dev,history,tags,by simpa [System.step, Function.update_of_ne differ] using file⟩
  | finish g r copyOk =>
    have differ : f ≠ g := fun same => by simp [concerns, same] at other
    exact ⟨dev,history,tags,by simpa [System.step, Function.update_of_ne differ] using file⟩

theorem runAgree {f : Nat} {s t : System} (agree : Agree f s t) (events : List Event) :
    Agree f (run System.step s events) (run System.step t (events.filter (concerns f))) := by
  induction events generalizing s t with
  | nil => exact agree
  | cons event rest ih =>
    by_cases concerned : concerns f event = true
    · rw [List.filter_cons_of_pos concerned]
      exact ih (agreeConcerned agree concerned)
    · rw [List.filter_cons_of_neg concerned]
      exact ih (agreeOther agree (by simpa using concerned))

/-- The reader contract. Every file open at the end of a disciplined run satisfies
`Contract`; its cursor and results are those of the run without the other readers; and
the statistics count the publications and what a reader that was there from the start
and has not read yet can no longer receive. -/
theorem readersContract (events : List Event)
    (disciplined : Meets System.step Disciplined System.init events) :
    let s := run System.step System.init events
    (∀ f o, s.files f = some o → Contract s o) ∧
    (∀ f, let alone := run System.step System.init (events.filter (concerns f))
      alone.files f = s.files f ∧ alone.dev = s.dev) ∧
    (vpipeMetaGetStats s.dev).published = s.history.length ∧
    (vpipeMetaGetStats s.dev).dropped = s.history.length - ringSize ∧
    (∀ f o, s.files f = some o → o.opened = 0 → o.delivered = [] → o.pending = [] →
      s.history ≠ [] → ∃ e, vpipeMetaReadLocked s.dev o.file =
        (.entry e,⟨(vpipeMetaGetStats s.dev).dropped⟩)) := by
  intro s
  have safe : Safe s := runInvariant safeStep safeInit disciplined
  refine ⟨fun f o found => keptContract safe.ledger (safe.files f o found),?_,
    safe.ledger.published,safe.ledger.dropped,?_⟩
  · intro f
    have agree := runAgree (f := f) ⟨rfl,rfl,rfl,rfl⟩ events (s := System.init) (t := System.init)
    exact ⟨agree.file.symm,agree.dev.symm⟩
  · intro f o found start none idle some
    have stands : o.file.tail = 0 := by
      rw [(safe.files f o found).idle idle]
      simp [OpenFile.next, none, start, nextAfter]
    have top := safe.ledger.head
    have lost := safe.ledger.dropped
    have any : s.history.length ≠ 0 := by simpa using some
    rw [lockedEntry safe.ledger.alive (by omega)]
    simp only [vpipeMetaGetStats, oldest, lost, top, stands]
    split
    · exact ⟨_,rfl⟩
    · rename_i near
      refine ⟨_,congrArg (Prod.mk _) ?_⟩
      cases file : o.file with
      | mk tail =>
        rw [file] at stands
        simp only at stands
        simp only [MetaFile.mk.injEq]
        omega

def twoReaders : List Event :=
  [.open 0,.publish {seq := 1},.open 1,.lock 0 0,.publish {seq := 2},.finish 0 0 true,
    .lock 1 0,.publish {seq := 3},.lock 0 1,.finish 1 0 true,.finish 0 1 true]

theorem twoReadersContract :
    ∃ o, (run System.step System.init twoReaders).files 0 = some o ∧
      o.delivered.map Copy.tag = [0,1] ∧ Contract (run System.step System.init twoReaders) o :=
  ⟨_,rfl,rfl,(readersContract twoReaders (by decide)).1 0 _ rfl⟩

end Vpipe.MetaContract
