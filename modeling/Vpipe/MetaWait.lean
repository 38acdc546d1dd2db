import Vpipe.Lib.WaitQueue
import Vpipe.MetaReaders

/-! Blocking reads of the metadata device. A read waits on `g_meta.wait` until the module is
leaving or the head has passed its cursor, and then takes its locked section and returns as in
`MetaReaders`. A publisher changes the ring under the lock and wakes the queue after it has
dropped the lock, and so does `vpipe_meta_exit`: `coming` counts those in between. Every thread
takes its own atomic steps; `returns` records what its calls answered. -/
namespace Vpipe.MetaWait
open Vpipe.Lib Vpipe.Lib.Transition Vpipe.Lib.WaitQueue Vpipe.MetaRing Vpipe.MetaReaders

/- Where a thread is in vpipe_meta_read on a file; `waited` tells a read that has waited from one
on a file with O_NONBLOCK. -/
inductive Call where
  | idle
  | waiting (f : Nat)
  | locking (f : Nat) (waited : Bool)
  | copying (f : Nat) (waited : Bool)
  deriving DecidableEq, Repr

inductive Answer where
  | einval
  | erestartsys
  | result (r : Result)
  deriving DecidableEq, Repr

structure Return where
  thread : Nat
  file : Nat
  waited : Bool
  answer : Answer
  deriving DecidableEq, Repr

structure World where
  sys : System
  tasks : Nat → Task
  calls : Nat → Call
  coming : Nat
  returns : List Return

def World.init : World := ⟨System.init,fun _ => {},fun _ => .idle,0,[]⟩

inductive Event where
  | publish (e : MetaEntry)
  | exit
  | wake
  | open (f : Nat)
  | read (r f count : Nat) (nonblock : Bool)
  | step (r : Nat) (copyOk : Bool)
  | signal (r : Nat)
  deriving DecidableEq, Repr

def World.readable (w : World) (f : Nat) : Bool :=
  match w.sys.files f with
  | none => false
  | some o => MetaRing.readable w.sys.dev o.file

def World.leave (w : World) (r f : Nat) (waited : Bool) (a : Answer) : World :=
  {w with
    calls := Function.update w.calls r .idle
    tasks := Function.update w.tasks r {}
    returns := w.returns ++ [⟨r,f,waited,a⟩]}

def lastResult (o : Option OpenFile) : Answer :=
  match o.bind (fun o => o.results.getLast?) with
  | none => .einval
  | some result => .result result

def World.advance (w : World) (r : Nat) (copyOk : Bool) : World :=
  match w.calls r with
  | .idle => w
  | .waiting f =>
    let t := (w.tasks r).step (w.readable f)
    let w := {w with tasks := Function.update w.tasks r t}
    match t.place with
    | .passed => {w with calls := Function.update w.calls r (.locking f true)}
    | .restart => w.leave r f true .erestartsys
    | _ => w
  | .locking f waited =>
    let w := {w with sys := w.sys.step (.lock f r)}
    if ∃ o ∈ w.sys.files f, (o.find r).isSome then
      {w with calls := Function.update w.calls r (.copying f waited)}
    else w.leave r f waited (lastResult (w.sys.files f))
  | .copying f waited =>
    let w := {w with sys := w.sys.step (.finish f r copyOk)}
    w.leave r f waited (lastResult (w.sys.files f))

def World.step (w : World) : Event → World
  | .publish e => {w with sys := w.sys.step (.publish e), coming := w.coming + 1}
  | .exit => {w with sys := {w.sys with dev := vpipeMetaExit w.sys.dev}, coming := w.coming + 1}
  | .wake => {w with
      tasks := if w.coming = 0 then w.tasks else fun r => (w.tasks r).wake
      coming := w.coming - 1}
  | .open f => {w with sys := w.sys.step (.open f)}
  | .read r f count nonblock =>
    if w.calls r ≠ .idle ∨ w.sys.files f = none then w
    else if count < sizeofMetaEntry then w.leave r f (!nonblock) .einval
    else if nonblock then {w with calls := Function.update w.calls r (.locking f false)}
    else {w with
      calls := Function.update w.calls r (.waiting f)
      tasks := Function.update w.tasks r (w.tasks r).enter}
  | .step r copyOk => w.advance r copyOk
  | .signal r => {w with tasks := Function.update w.tasks r (w.tasks r).deliver}

def Due (s : System) (f : Nat) : Prop :=
  ∃ o, s.files f = some o ∧ (s.dev.dying = true ∨ o.file.tail < s.dev.head)

theorem dueReadable {w : World} {f : Nat} (due : Due w.sys f) : w.readable f = true := by
  obtain ⟨o, found, reason⟩ := due
  simp only [World.readable, found, MetaRing.readable, Bool.or_eq_true, bne_iff_ne]
  exact reason.imp_right (fun below => by omega)

theorem lockShape {o : OpenFile} {r : Nat} (free : (o.find r).isSome = false) (dev : MetaDev)
    (tags : Fin ringSize → Nat) :
    (dev.dying = true ∧ o.lock dev tags r = {o with results := o.results ++ [.eof]}) ∨
    (dev.dying = false ∧ o.file.tail = dev.head ∧
      o.lock dev tags r = {o with results := o.results ++ [.again]}) ∨
    (dev.dying = false ∧ o.file.tail ≠ dev.head ∧ ∃ c : Copy, c.cursor = max o.file.tail (oldest dev) ∧
      o.lock dev tags r = {o with file := ⟨c.cursor⟩, pending := o.pending ++ [(r,c)]}) := by
  unfold OpenFile.lock
  rw [if_neg (by simp [free])]
  cases alive : dev.dying with
  | true => exact .inl ⟨rfl,by simp [vpipeMetaReadLocked, alive]⟩
  | false =>
    refine .inr ?_
    by_cases same : o.file.tail = dev.head
    · exact .inl ⟨rfl,same,by simp [vpipeMetaReadLocked, alive, same]⟩
    · refine .inr ⟨rfl,same,?_⟩
      rw [lockedEntry alive same]
      by_cases behind : o.file.tail < oldest dev
      · rw [if_pos behind]
        exact ⟨⟨_,_,oldest dev,dev.head⟩,by simp only; omega,rfl⟩
      · rw [if_neg behind]
        exact ⟨⟨_,_,o.file.tail,dev.head⟩,by simp only; omega,rfl⟩

theorem lockTail (o : OpenFile) (dev : MetaDev) (tags : Fin ringSize → Nat) (r : Nat) :
    o.file.tail ≤ (o.lock dev tags r).file.tail := by
  cases free : (o.find r).isSome with
  | true => simp [OpenFile.lock, free]
  | false =>
    rcases lockShape free dev tags with ⟨_, made⟩ | ⟨_, _, made⟩ | ⟨_, _, c, cursor, made⟩
    · rw [made]
    · rw [made]
    · rw [made, cursor]
      exact Nat.le_max_left _ _

theorem finishTail (o : OpenFile) (r : Nat) (copyOk : Bool) : o.file.tail ≤ (o.finish r copyOk).file.tail := by
  rcases finishCases o r copyOk with same | ⟨c, _, _, finished⟩
  · rw [same]
  · rw [finished]
    split
    · exact Nat.le_succ _
    · exact Nat.le_refl _

theorem dueBefore {s : System} {event : MetaReaders.Event} {f : Nat} (opened : s.files f ≠ none)
    (quiet : ∀ e, event ≠ .publish e) (due : Due (s.step event) f) : Due s f := by
  obtain ⟨o, found, reason⟩ := due
  have dev : (s.step event).dev = s.dev := by
    rw [stepDev]
    cases event with
    | publish e => exact absurd rfl (quiet e)
    | _ => rfl
  rw [dev] at reason
  rcases stepFileCases found with same | ⟨rfl, _⟩ | ⟨before, r, rfl, was, rfl⟩ |
    ⟨before, r, copyOk, rfl, was, rfl⟩
  · exact ⟨o,same,reason⟩
  · rw [System.step, if_neg opened] at found
    exact ⟨o,found,reason⟩
  · exact ⟨before,was,reason.imp_right (Nat.lt_of_le_of_lt (lockTail _ _ _ _))⟩
  · exact ⟨before,was,reason.imp_right (Nat.lt_of_le_of_lt (finishTail _ _ _))⟩

structure Orderly (w : World) : Prop where
  opened : ∀ r f, w.calls r = .waiting f → w.sys.files f ≠ none
  waiting : ∀ r f, w.calls r = .waiting f → (w.tasks r).Waiting
  watched : ∀ r f, w.calls r = .waiting f → Watched (Due w.sys f) w.coming (w.tasks r)

theorem orderlyInit : Orderly World.init := by
  constructor <;> simp [World.init]

theorem openStays {s : System} {f : Nat} (event : MetaReaders.Event) (opened : s.files f ≠ none) :
    (s.step event).files f ≠ none := by
  cases event with
  | publish e => exact opened
  | «open» g =>
    simp only [System.step]
    split
    · simp only [Function.update_apply]
      split <;> simp_all
    · exact opened
  | lock g r =>
    simp only [System.step, Function.update_apply]
    split <;> simp_all
  | finish g r copyOk =>
    simp only [System.step, Function.update_apply]
    split <;> simp_all

theorem orderlySystem {w : World} (orderly : Orderly w) (event : MetaReaders.Event) {coming : Nat}
    (more : w.coming ≤ coming) (announced : ∀ e, event = .publish e → 0 < coming) :
    Orderly {w with sys := w.sys.step event, coming := coming} where
  opened r f call := openStays event (orderly.opened r f call)
  waiting := orderly.waiting
  watched r f call := by
    refine watchedChange (orderly.watched r f call) more (fun due => ?_)
    by_cases published : ∃ e, event = .publish e
    · obtain ⟨e, rfl⟩ := published
      exact .inr (announced e rfl)
    · exact .inl (dueBefore (orderly.opened r f call) (fun e same => published ⟨e,same⟩) due)

theorem orderlyThread {w : World} (orderly : Orderly w) (r : Nat) (call : Call) (t : Task)
    (enters : ∀ f, call = .waiting f → w.sys.files f ≠ none ∧ t.Waiting ∧ Watched (Due w.sys f) w.coming t)
    (returns : List Return) :
    Orderly {w with
      calls := Function.update w.calls r call, tasks := Function.update w.tasks r t, returns := returns} := by
  constructor
  · intro r' f waits
    by_cases same : r' = r
    · subst same
      exact (enters f (by simpa using waits)).1
    · exact orderly.opened r' f (by simpa [Function.update_of_ne same] using waits)
  · intro r' f waits
    by_cases same : r' = r
    · subst same
      simpa using (enters f (by simpa using waits)).2.1
    · simpa [Function.update_of_ne same] using
        orderly.waiting r' f (by simpa [Function.update_of_ne same] using waits)
  · intro r' f waits
    by_cases same : r' = r
    · subst same
      simpa using (enters f (by simpa using waits)).2.2
    · simpa [Function.update_of_ne same] using
        orderly.watched r' f (by simpa [Function.update_of_ne same] using waits)

theorem orderlyLeave {w : World} (orderly : Orderly w) (r f : Nat) (waited : Bool) (a : Answer) :
    Orderly (w.leave r f waited a) := orderlyThread orderly r .idle {} (by simp) _

theorem orderlyCall {w : World} (orderly : Orderly w) (r : Nat) {call : Call}
    (elsewhere : ∀ f, call ≠ .waiting f) :
    Orderly {w with calls := Function.update w.calls r call} := by
  have moved := orderlyThread orderly r call (w.tasks r)
    (fun f waits => absurd waits (elsewhere f)) w.returns
  simpa using moved

theorem orderlyTask {w : World} (orderly : Orderly w) {r : Nat} {t : Task}
    (watched : ∀ f, w.calls r = .waiting f → t.Waiting ∧ Watched (Due w.sys f) w.coming t) :
    Orderly {w with tasks := Function.update w.tasks r t} := by
  have moved := orderlyThread orderly r (w.calls r) t
    (fun f waits => ⟨orderly.opened r f waits,watched f waits⟩) w.returns
  simpa using moved

theorem orderlyAdvance {w : World} (orderly : Orderly w) (r : Nat) (copyOk : Bool) :
    Orderly (w.advance r copyOk) := by
  unfold World.advance
  cases call : w.calls r with
  | idle => exact orderly
  | waiting f =>
    simp only
    split
    · exact orderlyThread orderly r (.locking f true) _ (by simp) w.returns
    · simpa [World.leave] using orderlyLeave orderly r f true .erestartsys
    · rename_i unpassed uninterrupted
      refine orderlyTask orderly (fun g waits => ?_)
      obtain rfl : f = g := by simpa [call] using waits
      refine ⟨?_,watchedStep dueReadable (orderly.watched r f call)⟩
      rcases stepPlace (orderly.waiting r f call) (w.readable f) with waits | ⟨passed, _⟩ | restarts
      · exact waits
      · exact absurd passed unpassed
      · exact absurd restarts uninterrupted
  | locking f waited =>
    have stepped := orderlySystem orderly (.lock f r) (Nat.le_refl _) (by simp)
    simp only
    split
    · exact orderlyCall stepped r (by simp)
    · exact orderlyLeave stepped r f waited _
  | copying f waited =>
    have stepped := orderlySystem orderly (.finish f r copyOk) (Nat.le_refl _) (by simp)
    exact orderlyLeave stepped r f waited _

theorem orderlyStep (w : World) (event : Event) (orderly : Orderly w) : Orderly (w.step event) := by
  cases event with
  | publish e => exact orderlySystem orderly (.publish e) (Nat.le_succ _) (by simp)
  | exit =>
    refine ⟨orderly.opened,orderly.waiting,fun r f call => ?_⟩
    exact watchedChange (orderly.watched r f call) (Nat.le_succ _) (fun _ => .inr (Nat.succ_pos _))
  | wake =>
    simp only [World.step]
    by_cases none_ : w.coming = 0
    · rw [if_pos none_]
      exact ⟨orderly.opened,orderly.waiting,fun r f call =>
        watchedChange (orderly.watched r f call) (by omega) .inl⟩
    · rw [if_neg none_]
      exact ⟨orderly.opened,fun r f call => placeWaiting (wakeKeeps _).1 (orderly.waiting r f call),
        fun r f call =>
        watchedWake (orderly.watched r f call)⟩
  | «open» f => exact orderlySystem orderly (.open f) (Nat.le_refl _) (by simp)
  | read r f count nonblock =>
    simp only [World.step]
    split
    · exact orderly
    · rename_i ready
      simp only [ne_eq, not_or, not_not] at ready
      split
      · exact orderlyLeave orderly r f _ _
      · split
        · exact orderlyCall orderly r (by simp)
        · refine orderlyThread orderly r (.waiting f) _ (fun g waits => ?_) w.returns
          obtain rfl : f = g := by simpa using waits
          exact ⟨ready.2,enterWaiting _,watchedEnter _⟩
  | step r copyOk => exact orderlyAdvance orderly r copyOk
  | signal r =>
    exact orderlyTask orderly (fun f call => ⟨placeWaiting rfl (orderly.waiting r f call),watchedDeliver _⟩)

def Call.on : Call → Option Nat
  | .idle => none
  | .waiting f => some f
  | .locking f _ => some f
  | .copying f _ => some f

def Return.Fine (r f : Nat) (a : Return) : Prop :=
  a.thread = r → a.file = f → a.waited = true → a.answer ≠ .result .again

structure Private (r f : Nat) (w : World) : Prop where
  others : ∀ r', r' ≠ r → (w.calls r').on ≠ some f
  opened : (w.calls r).on = some f → w.sys.files f ≠ none
  behind : ∀ o, w.sys.files f = some o → o.file.tail ≤ w.sys.dev.head
  free : ∀ o, w.sys.files f = some o → (∀ b, w.calls r ≠ .copying f b) → o.pending = []
  copying : ∀ o b, w.sys.files f = some o → w.calls r = .copying f b →
    o.file.tail < w.sys.dev.head ∧ ∃ c, o.pending = [(r,c)]
  due : w.calls r = .locking f true → Due w.sys f
  answers : ∀ a ∈ w.returns, a.Fine r f

theorem privateInit (r f : Nat) : Private r f World.init := by
  constructor <;> simp [World.init, System.init, Call.on]

theorem dueLater {s s' : System} {f : Nat} (files : s'.files f = s.files f) (head : s.dev.head ≤ s'.dev.head)
    (dying : s.dev.dying = true → s'.dev.dying = true) (due : Due s f) : Due s' f := by
  obtain ⟨o, found, reason⟩ := due
  exact ⟨o,files.trans found,reason.imp dying (fun below => Nat.lt_of_lt_of_le below head)⟩

theorem dueSame {s s' : System} {f : Nat} (files : s'.files f = s.files f) (dev : s'.dev = s.dev)
    (due : Due s f) : Due s' f := dueLater files (by rw [dev]) (by simp [dev]) due

theorem privateKept {r f : Nat} {w w' : World} (own : Private r f w) (files : w'.sys.files f = w.sys.files f)
    (head : w.sys.dev.head ≤ w'.sys.dev.head) (dying : w.sys.dev.dying = true → w'.sys.dev.dying = true)
    (others : ∀ r', r' ≠ r → (w'.calls r').on = some f → (w.calls r').on = some f)
    (call : w'.calls r = w.calls r ∨ ((∀ b, w.calls r ≠ .copying f b) ∧ (∀ b, w'.calls r ≠ .copying f b) ∧
      ((w'.calls r).on = some f → w.sys.files f ≠ none) ∧ (w'.calls r = .locking f true → Due w.sys f)))
    (answers : ∀ a ∈ w'.returns, a.Fine r f) : Private r f w' where
  others r' differ on := own.others r' differ (others r' differ on)
  opened on := by
    rw [files]
    rcases call with same | ⟨_, _, opened, _⟩
    · exact own.opened (same ▸ on)
    · exact opened on
  behind o found := Nat.le_trans (own.behind o (files ▸ found)) head
  free o found idle := by
    rcases call with same | ⟨before, _⟩
    · exact own.free o (files ▸ found) (same ▸ idle)
    · exact own.free o (files ▸ found) before
  copying o b found copies := by
    rcases call with same | ⟨_, after, _⟩
    · obtain ⟨below, held⟩ := own.copying o b (files ▸ found) (same ▸ copies)
      exact ⟨Nat.lt_of_lt_of_le below head,held⟩
    · exact absurd copies (after b)
  due locks := by
    refine dueLater files head dying ?_
    rcases call with same | ⟨_, _, _, due⟩
    · exact own.due (same ▸ locks)
    · exact due locks
  answers := answers

def Alone (r f : Nat) (event : Event) : Prop := ∀ r' count nonblock, event = .read r' f count nonblock → r' = r

theorem filesElsewhere (s : System) {f g : Nat} (differ : f ≠ g) (r : Nat) (copyOk : Bool) :
    (s.step (.lock g r)).files f = s.files f ∧ (s.step (.finish g r copyOk)).files f = s.files f :=
  ⟨Function.update_of_ne differ _ _,Function.update_of_ne differ _ _⟩

theorem updateOn {calls : Nat → Call} {r r' f : Nat} {call : Call} (away : call.on ≠ some f)
    (on : ((Function.update calls r call) r').on = some f) : (calls r').on = some f := by
  by_cases same : r' = r
  · subst same
    exact absurd (by simpa using on) away
  · simpa [Function.update_of_ne same] using on

theorem privateMove {r f : Nat} {w : World} (own : Private r f w) {r' : Nat} {call : Call}
    (away : call.on ≠ some f) (started : r' = r → ∀ b, w.calls r ≠ .copying f b) {sys : System}
    (files : sys.files f = w.sys.files f)
    (dev : sys.dev = w.sys.dev) (tasks : Nat → Task) {returns : List Return}
    (answers : ∀ a ∈ returns, a.Fine r f) :
    Private r f {w with
      sys := sys, calls := Function.update w.calls r' call, tasks := tasks, returns := returns} := by
  refine privateKept own files (by rw [dev]) (by simp [dev]) (fun _ _ on => updateOn away on) ?_ answers
  by_cases same : r' = r
  · subst same
    refine .inr ⟨started rfl,fun b copies => ?_,fun on => ?_,fun locks => ?_⟩
    · simp only [Function.update_self] at copies
      exact away (by simp [copies, Call.on])
    · exact absurd (by simpa using on) away
    · simp only [Function.update_self] at locks
      exact absurd (by simp [locks, Call.on]) away
  · exact .inl (Function.update_of_ne (Ne.symm same) _ _)

def putFile (s : System) (f : Nat) (o : OpenFile) :
    System := {s with files := Function.update s.files f (some o)}

theorem advanceLocking {r f : Nat} {w : World} {waited : Bool} (own : Private r f w)
    (call : w.calls r = .locking f waited) (copyOk : Bool) :
    ∃ o, w.sys.files f = some o ∧ o.pending = [] ∧
      ((w.sys.dev.dying = true ∧ w.advance r copyOk =
        {w with sys := putFile w.sys f {o with results := o.results ++ [Result.eof]}}.leave r f waited
    (.result .eof)) ∨
      (w.sys.dev.dying = false ∧ o.file.tail = w.sys.dev.head ∧ w.advance r copyOk =
        {w with sys := putFile w.sys f {o with results := o.results ++ [Result.again]}}.leave r f waited
          (.result .again)) ∨
      (∃ c : Copy, c.cursor < w.sys.dev.head ∧ w.sys.dev.dying = false ∧ w.advance r copyOk =
        {w with
          sys := putFile w.sys f {o with file := ⟨c.cursor⟩, pending := [(r,c)]}
          calls := Function.update w.calls r (.copying f waited)})) := by
  obtain ⟨o, found⟩ := Option.ne_none_iff_exists'.mp (own.opened (by simp [call, Call.on]))
  have free := own.free o found (by simp [call])
  have unheld : (o.find r).isSome = false := by simp [OpenFile.find, free]
  have stepped : w.sys.step (.lock f r) = putFile w.sys f (o.lock w.sys.dev w.sys.tags r) := by
    simp [System.step, putFile, found]
  refine ⟨o,found,free,?_⟩
  unfold World.advance
  rw [call]
  simp only [stepped]
  rcases lockShape unheld w.sys.dev w.sys.tags with ⟨dying, made⟩ | ⟨alive, same, made⟩ |
    ⟨alive, differ, c, cursor, made⟩
  · refine .inl ⟨dying,?_⟩
    rw [made]
    simp [putFile, OpenFile.find, free, lastResult]
  · refine .inr (.inl ⟨alive,same,?_⟩)
    rw [made]
    simp [putFile, OpenFile.find, free, lastResult]
  · have size : 0 < ringSize := by decide
    have below := own.behind o found
    refine .inr (.inr ⟨c,by rw [cursor, oldest]; omega,alive,?_⟩)
    rw [made]
    simp [putFile, OpenFile.find, free]

theorem advanceCopying {r f : Nat} {w : World} {waited : Bool} (own : Private r f w)
    (call : w.calls r = .copying f waited) (copyOk : Bool) :
    ∃ o c, w.sys.files f = some o ∧ o.file.tail < w.sys.dev.head ∧ w.advance r copyOk =
      {w with
        sys := putFile w.sys f
          {o with
            file := if copyOk then advance o.file else o.file
            pending := []
            results := o.results ++ [if copyOk then Result.delivered c else Result.efault]}}.leave r f waited
        (.result (if copyOk then .delivered c else .efault)) := by
  obtain ⟨o, found⟩ := Option.ne_none_iff_exists'.mp (own.opened (by simp [call, Call.on]))
  obtain ⟨below, c, held⟩ := own.copying o waited found call
  refine ⟨o,c,found,below,?_⟩
  unfold World.advance
  rw [call]
  cases copyOk <;> simp [System.step, putFile, found, OpenFile.finish, OpenFile.find, held, lastResult]

theorem privateOwn {r f : Nat} {w : World} (own : Private r f w) (o : OpenFile) (call : Call)
    (tasks : Nat → Task) (returns : List Return) (behind : o.file.tail ≤ w.sys.dev.head)
    (shape : (call = .idle ∧ o.pending = []) ∨
      (∃ b, call = .copying f b) ∧ o.file.tail < w.sys.dev.head ∧ ∃ c, o.pending = [(r,c)])
    (answers : ∀ a ∈ returns, a.Fine r f) :
    Private r f {w with
      sys := putFile w.sys f o, calls := Function.update w.calls r call, tasks := tasks,
        returns := returns} where
  others r' differ := by simpa [Function.update_of_ne differ] using own.others r' differ
  opened _ := by simp [putFile]
  behind o' found := by
    obtain rfl : o = o' := by simpa [putFile] using found
    exact behind
  free o' found idle := by
    obtain rfl : o = o' := by simpa [putFile] using found
    rcases shape with ⟨_, none_⟩ | ⟨⟨b, copies⟩, _⟩
    · exact none_
    · exact absurd (by simp [copies]) (idle b)
  copying o' b found copies := by
    obtain rfl : o = o' := by simpa [putFile] using found
    rcases shape with ⟨rfl, _⟩ | ⟨_, held⟩
    · simp at copies
    · exact held
  due locks := by
    rcases shape with ⟨rfl, _⟩ | ⟨⟨b, rfl⟩, _⟩ <;> simp at locks
  answers := answers

theorem fineReturned {r f : Nat} {w : World} (own : Private r f w) {x : Return} (fine : x.Fine r f) :
    ∀ a ∈ w.returns ++ [x], a.Fine r f := by
  intro a member
  rcases List.mem_append.mp member with old | new
  · exact own.answers a old
  · rw [List.mem_singleton] at new
    exact new ▸ fine

theorem privateAdvance {r f : Nat} {w : World} (orderly : Orderly w) (own : Private r f w) (r' : Nat)
    (copyOk : Bool) :
    Private r f (w.advance r' copyOk) := by
  -- Another thread is elsewhere, and so is the thread itself when it reads another file.
  have mine : ∀ {g}, (w.calls r').on = some g → g = f → r' = r := fun on same =>
    Decidable.byContradiction (fun differ => own.others r' differ (same ▸ on))
  cases call : w.calls r' with
  | idle => simpa [World.advance, call] using own
  | waiting g =>
    have started : r' = r → ∀ b, w.calls r ≠ .copying f b := fun same b => by simp [← same, call]
    simp only [World.advance, call]
    split
    · rename_i passed
      by_cases same : g = f
      · obtain rfl := mine (by simp [call, Call.on]) same
        subst same
        refine privateKept own rfl (Nat.le_refl _) id (fun r' differ => ?_) (.inr ⟨started rfl,by simp,?_,?_⟩)
          own.answers
        · simp [Function.update_of_ne differ]
        · exact fun _ => own.opened (by simp [call, Call.on])
        · intro _
          obtain ⟨o, found⟩ := Option.ne_none_iff_exists'.mp (own.opened (by simp [call, Call.on]))
          have behind := own.behind o found
          rcases stepPlace (orderly.waiting r' g call) (w.readable g) with waits | ⟨_, seen⟩ | restarts
          · exact absurd passed (waitingPlace waits).1
          · simp only [World.readable, found, MetaRing.readable, Bool.or_eq_true, bne_iff_ne] at seen
            exact ⟨o,found,seen.imp_right (fun differ => by omega)⟩
          · simp [passed] at restarts
      · exact privateMove own (by simpa [Call.on] using same) started rfl rfl _ own.answers
    · exact privateMove own (by simp [Call.on]) started rfl rfl _ (fineReturned own (by simp [Return.Fine]))
    · exact privateKept own rfl (Nat.le_refl _) id (fun _ _ => id) (.inl rfl) own.answers
  | locking g waited =>
    by_cases same : g = f
    · obtain rfl := mine (by simp [call, Call.on]) same
      subst same
      obtain ⟨o, found, free, ⟨_, made⟩ | ⟨alive, empty, made⟩ | ⟨c, below, _, made⟩⟩ :=
        advanceLocking own call copyOk
      · rw [made]
        exact privateOwn own _ .idle _ _ (own.behind o found) (.inl ⟨rfl,free⟩)
          (fineReturned own (by simp [Return.Fine]))
      · rw [made]
        refine privateOwn own _ .idle _ _ (own.behind o found) (.inl ⟨rfl,free⟩) (fineReturned own ?_)
        -- A read that has waited found something, and nobody else moves the cursor.
        rintro - - rfl
        obtain ⟨o', found', dying | below⟩ := own.due call
        · simp [alive] at dying
        · obtain rfl : o = o' := by simpa [found] using found'
          omega
      · rw [made]
        exact privateOwn own _ (.copying g waited) _ _ (Nat.le_of_lt below) (.inr ⟨⟨waited,rfl⟩,below,c,rfl⟩)
          own.answers
    · have files := (filesElsewhere w.sys (Ne.symm same) r' copyOk).1
      have started : r' = r → ∀ b, w.calls r ≠ .copying f b := fun own b => by simp [← own, call]
      simp only [World.advance, call]
      split
      · exact privateMove own (by simpa [Call.on] using same) started files (stepDev _ _) _ own.answers
      · exact privateMove own (by simp [Call.on]) started files (stepDev _ _) _
          (fineReturned own (fun _ file => absurd file same))
  | copying g waited =>
    by_cases same : g = f
    · obtain rfl := mine (by simp [call, Call.on]) same
      subst same
      obtain ⟨o, c, found, below, made⟩ := advanceCopying own call copyOk
      rw [made]
      refine privateOwn own _ .idle _ _ ?_ (.inl ⟨rfl,rfl⟩) (fineReturned own ?_)
      · cases copyOk
        · exact Nat.le_of_lt below
        · exact below
      · cases copyOk <;> simp [Return.Fine]
    · have files := (filesElsewhere w.sys (Ne.symm same) r' copyOk).2
      simp only [World.advance, call]
      exact privateMove own (by simp [Call.on]) (fun own b => by simp [← own, call, same]) files (stepDev _ _) _
        (fineReturned own (fun _ file => absurd file same))

theorem privateStep {r f : Nat} {w : World} (orderly : Orderly w) (own : Private r f w) (event : Event)
    (alone : Alone r f event) : Private r f (w.step event) := by
  cases event with
  | publish e => exact privateKept own rfl (Nat.le_succ _) id (fun _ _ => id) (.inl rfl) own.answers
  | exit => exact privateKept own rfl (Nat.le_refl _) (fun _ => rfl) (fun _ _ => id) (.inl rfl) own.answers
  | wake => exact privateKept own rfl (Nat.le_refl _) id (fun _ _ => id) (.inl rfl) own.answers
  | signal r' => exact privateKept own rfl (Nat.le_refl _) id (fun _ _ => id) (.inl rfl) own.answers
  | step r' copyOk => exact privateAdvance orderly own r' copyOk
  | «open» g =>
    by_cases fresh : w.sys.files g = none ∧ g = f
    · obtain ⟨closed, rfl⟩ := fresh
      have away : (w.calls r).on ≠ some g := fun on => own.opened on closed
      have opened : w.step (.open g) =
          {w with sys := putFile w.sys g ⟨vpipeMetaOpen w.sys.dev,w.sys.history.length,[],[]⟩} := by
        simp [World.step, System.step, closed, putFile]
      rw [opened]
      refine ⟨own.others,by simp [putFile],?_,?_,?_,?_,own.answers⟩
      · intro o found
        obtain rfl := by simpa [putFile] using found
        exact Nat.le_refl _
      · intro o found _
        obtain rfl := by simpa [putFile] using found
        rfl
      · intro o b _ copies
        exact absurd (congrArg Call.on copies) away
      · intro locks
        exact absurd (congrArg Call.on locks) away
    · have files : (w.sys.step (.open g)).files f = w.sys.files f := by
        simp only [System.step]
        split
        · rename_i closed
          exact Function.update_of_ne (fun same => fresh ⟨closed,same.symm⟩) _ _
        · rfl
      have dev := stepDev w.sys (.open g)
      refine privateKept own files ?_ ?_ (fun _ _ => id) (.inl rfl) own.answers
      · exact stepHead w.sys (.open g)
      · simp [World.step, dev]
  | read r' g count nonblock =>
    simp only [World.step]
    split
    · exact own
    rename_i ready
    simp only [ne_eq, not_or, not_not] at ready
    have started : r' = r → ∀ b, w.calls r ≠ .copying f b := fun same b => by simp [← same, ready.1]
    split
    · exact privateMove own (by simp [Call.on]) started rfl rfl _ (fineReturned own (by simp [Return.Fine]))
    by_cases same : g = f
    · subst same
      obtain rfl := alone r' count nonblock rfl
      split
      all_goals
        refine privateKept own rfl (Nat.le_refl _) id (fun r' differ => ?_)
          (.inr ⟨started rfl,by simp,fun _ => ready.2,by simp⟩) own.answers
        simp [Function.update_of_ne differ]
    · split
      all_goals
        exact privateMove own (by simpa [Call.on] using same) started rfl rfl _ own.answers

def World.left (w : World) (r : Nat) : Nat :=
  match w.calls r with
  | .idle => 0
  | .waiting _ => (w.tasks r).distance + 2
  | .locking _ _ => 2
  | .copying _ _ => 1

structure Going (r f : Nat) (gone : Prop) (w : World) : Prop where
  call : w.calls r = .waiting f ∨ w.calls r = .locking f true ∨ w.calls r = .copying f true
  awake : w.calls r = .waiting f → ¬ (w.tasks r).Asleep
  due : Due w.sys f
  gone : gone → w.sys.dev.dying = true ∧ w.calls r ≠ .copying f true

def Return.Answers (r f : Nat) (gone : Prop) (a : Return) : Prop :=
  a.thread = r ∧ a.file = f ∧ ∃ result, a.answer = .result result ∧ result ≠ .again ∧ (gone → result = .eof)

theorem leftPositive {r f : Nat} {gone : Prop} {w : World} (going : Going r f gone w) : 0 < w.left r := by
  rcases going.call with call | call | call <;> simp [World.left, call]

theorem goingKept {r f : Nat} {gone : Prop} {w w' : World} (going : Going r f gone w)
    (calls : w'.calls r = w.calls r) (place : (w'.tasks r).place = (w.tasks r).place)
    (awake : ¬ (w.tasks r).Asleep → ¬ (w'.tasks r).Asleep) (due : Due w.sys f → Due w'.sys f)
    (dying : w.sys.dev.dying = true → w'.sys.dev.dying = true) : Going r f gone w' ∧ w'.left r = w.left r := by
  refine ⟨⟨by rw [calls]; exact going.call,?_,due going.due,?_⟩,?_⟩
  · exact fun call => awake (going.awake (calls ▸ call))
  · exact fun so => ⟨dying (going.gone so).1,calls ▸ (going.gone so).2⟩
  · simp only [World.left, calls, Task.distance, place]

theorem advanceElsewhere {r f : Nat} {w : World} (own : Private r f w) {r' : Nat} (differ : r' ≠ r)
    (copyOk : Bool) :
    (w.advance r' copyOk).calls r = w.calls r ∧ (w.advance r' copyOk).tasks r = w.tasks r ∧
      (w.advance r' copyOk).sys.dev = w.sys.dev ∧ (w.advance r' copyOk).sys.files f = w.sys.files f := by
  have away := own.others r' differ
  have other : r ≠ r' := Ne.symm differ
  unfold World.advance
  cases call : w.calls r' with
  | idle => simp
  | waiting g =>
    simp only
    split <;> simp [World.leave, Function.update_of_ne other]
  | locking g waited =>
    have files := (filesElsewhere w.sys (f := f) (g := g)
      (fun same => away (by simp [call, Call.on, same])) r' copyOk).1
    simp only
    split <;> simp [World.leave, Function.update_of_ne other, files, stepDev]
  | copying g waited =>
    have files := (filesElsewhere w.sys (f := f) (g := g)
      (fun same => away (by simp [call, Call.on, same])) r' copyOk).2
    simp [World.leave, Function.update_of_ne other, files, stepDev]

theorem goingOther {r f : Nat} {gone : Prop} {w : World} (own : Private r f w) (going : Going r f gone w)
    (event : Event) (other : ∀ copyOk, event ≠ .step r copyOk) :
    Going r f gone (w.step event) ∧ (w.step event).left r = w.left r := by
  cases event with
  | publish e =>
    have later : Due w.sys f → Due (w.sys.step (.publish e)) f := dueLater rfl (Nat.le_succ _) id
    exact goingKept going rfl rfl id later id
  | exit => exact goingKept going rfl rfl id (dueLater rfl (Nat.le_refl _) (fun _ => rfl)) (fun _ => rfl)
  | wake =>
    refine goingKept going rfl ?_ ?_ id id
    · simp only [World.step]
      split
      · rfl
      · exact (wakeKeeps _).1
    · simp only [World.step]
      split
      · exact id
      · exact (wakeKeeps _).2
  | «open» g =>
    obtain ⟨o, found, _⟩ := going.due
    have files : (w.sys.step (.open g)).files f = w.sys.files f := by
      simp only [System.step]
      split
      · rename_i closed
        exact Function.update_of_ne (fun same => by simp [← same, found] at closed) _ _
      · rfl
    have dev := stepDev w.sys (.open g)
    exact goingKept going rfl rfl id (dueSame files dev) (by simp [World.step, dev])
  | read r' g count nonblock =>
    simp only [World.step]
    split
    · exact ⟨going,rfl⟩
    rename_i ready
    have differ : r ≠ r' := by
      rintro rfl
      rcases going.call with call | call | call <;> simp [call] at ready
    split
    · exact goingKept going (Function.update_of_ne differ _ _)
        (by simp [World.leave, Function.update_of_ne differ])
        (by simp [World.leave, Function.update_of_ne differ]) id id
    split
    · exact goingKept going (Function.update_of_ne differ _ _) rfl id id id
    · exact goingKept going (Function.update_of_ne differ _ _) (by simp [Function.update_of_ne differ])
        (by simp [Function.update_of_ne differ]) id id
  | step r' copyOk =>
    have differ : r' ≠ r := fun same => other copyOk (by rw [same])
    obtain ⟨calls, tasks, dev, files⟩ := advanceElsewhere own differ copyOk
    exact goingKept going calls (by simp [World.step, tasks]) (by simp [World.step, tasks])
      (dueSame files dev) (by simp [World.step, dev])
  | signal r' =>
    by_cases same : r' = r
    · subst same
      exact goingKept going rfl (by simp [World.step, (deliverKeeps _).1])
        (fun _ => by simpa [World.step] using (deliverKeeps _).2) id id
    · exact goingKept going rfl (by simp [World.step, Function.update_of_ne (Ne.symm same)])
        (by simp [World.step, Function.update_of_ne (Ne.symm same)]) id id

theorem goingOwn {r f : Nat} {gone : Prop} {w : World} (own : Private r f w) (orderly : Orderly w)
    (going : Going r f gone w) (copyOk : Bool) :
    (Going r f gone (w.advance r copyOk) ∧ (w.advance r copyOk).left r + 1 = w.left r) ∨
      ∃ a, (w.advance r copyOk).returns = w.returns ++ [a] ∧ a.Answers r f gone := by
  rcases going.call with call | call | call
  · refine .inl ?_
    have readable := dueReadable going.due
    obtain ⟨closer, passes, awake, kept⟩ := stepCloser (orderly.waiting r f call) (going.awake call)
    have due := going.due
    simp only [World.advance, call, readable]
    split
    · rename_i passed
      refine ⟨⟨by simp,by simp,due,fun so => ⟨(going.gone so).1,by simp⟩⟩,?_⟩
      simp [World.left, call, passes.mp passed]
    · exact absurd ‹_› kept
    · rename_i unpassed _
      refine ⟨⟨.inl call,fun _ => by simpa using awake,due,fun so => ⟨(going.gone so).1,by simp [call]⟩⟩,?_⟩
      simp only [World.left, call, Function.update_self]
      omega
  · obtain ⟨o, found, free, ⟨dying, made⟩ | ⟨alive, empty, made⟩ | ⟨c, below, alive, made⟩⟩ :=
      advanceLocking own call copyOk
    · exact .inr ⟨_,by rw [made]; rfl,rfl,rfl,.eof,rfl,by simp,fun _ => rfl⟩
    · have fine := own.due call
      obtain ⟨o', found', dying | below⟩ := fine
      · simp [alive] at dying
      · obtain rfl : o = o' := by simpa [found] using found'
        omega
    · refine .inl ?_
      rw [made]
      refine ⟨⟨by simp,by simp,⟨_,Function.update_self _ _ _,.inr below⟩,fun so => ?_⟩,
        by simp [World.left, call]⟩
      simp [(going.gone so).1] at alive
  · obtain ⟨o, c, found, below, made⟩ := advanceCopying own call copyOk
    refine .inr ⟨_,by rw [made]; rfl,rfl,rfl,_,rfl,?_,fun so => absurd call (going.gone so).2⟩
    cases copyOk <;> simp

theorem returnsGrow (w : World) (event : Event) : w.returns <+: (w.step event).returns := by
  cases event with
  | read r f count nonblock =>
    simp only [World.step]
    split
    · exact List.prefix_refl _
    split
    · exact List.prefix_append _ _
    split <;> exact List.prefix_refl _
  | step r copyOk =>
    simp only [World.step, World.advance]
    split
    · exact List.prefix_refl _
    · split <;> simp [World.leave]
    · split <;> simp [World.leave]
    · simp [World.leave]
  | _ => exact List.prefix_refl _

def Event.steps (r : Nat) : Event → Bool
  | .step r' _ => r' == r
  | _ => false

theorem goingReturns {r f : Nat} {gone : Prop} {later : List Event}
    (alone : ∀ e ∈ later, Alone r f e) {w : World} (orderly : Orderly w) (own : Private r f w)
    (going : Going r f gone w)
    (enough : w.left r ≤ later.countP (Event.steps r)) :
    ∃ more, (run World.step w later).returns = w.returns ++ more ∧ ∃ a ∈ more, a.Answers r f gone := by
  induction later generalizing w with
  | nil =>
    have := leftPositive going
    simp at enough
    omega
  | cons e rest ih =>
    have orderly' := orderlyStep w e orderly
    have own' := privateStep orderly own e (alone e (by simp))
    have tail : ∀ x ∈ rest, Alone r f x := fun x member => alone x (List.mem_cons_of_mem _ member)
    obtain ⟨new, grown⟩ := returnsGrow w e
    by_cases mine : ∃ copyOk, e = .step r copyOk
    · obtain ⟨copyOk, rfl⟩ := mine
      rcases goingOwn own orderly going copyOk with ⟨going', closer⟩ | ⟨a, added, answers⟩
      · obtain ⟨more, made, a, member, answers⟩ := ih tail orderly' own' going' (by
          have counted : Event.steps r (.step r copyOk) = true := beq_self_eq_true r
          rw [List.countP_cons_of_pos counted] at enough
          simp only [World.step]
          omega)
        refine ⟨new ++ more,?_,a,List.mem_append_right _ member,answers⟩
        rw [runCons, made, ← grown, List.append_assoc]
      · obtain ⟨more, made⟩ := runMember (fun w' => (w.step (.step r copyOk)).returns <+: w'.returns)
          (fun w' event _ before => before.trans (returnsGrow w' event)) (List.prefix_refl _)
        refine ⟨[a] ++ more,?_,a,by simp,answers⟩
        rw [runCons, ← made, World.step, added, List.append_assoc]
    · have other : ∀ copyOk, e ≠ .step r copyOk := fun copyOk same => mine ⟨copyOk,same⟩
      obtain ⟨going', same⟩ := goingOther own going e other
      obtain ⟨more, made, a, member, answers⟩ := ih tail orderly' own' going' (by
        have uncounted : ¬ e.steps r = true := by
          intro counted
          cases e with
          | step r' copyOk => exact other copyOk (by rw [beq_iff_eq.mp counted])
          | _ => simp [Event.steps] at counted
        rw [same]
        rwa [List.countP_cons_of_neg uncounted] at enough)
      refine ⟨new ++ more,?_,a,List.mem_append_right _ member,answers⟩
      rw [runCons, made, ← grown, List.append_assoc]

/-- A thread that sleeps in a read although there is something for it to return, on a file that any
number of threads may share, is about to be woken, and the wake-up reaches it. -/
theorem sleepingReadersAwaited (events : List Event) (r f : Nat)
    (waits : (run World.step World.init events).calls r = .waiting f)
    (due : Due (run World.step World.init events).sys f)
    (asleep : ((run World.step World.init events).tasks r).Asleep) :
    0 < (run World.step World.init events).coming ∧
      ¬ (((run World.step World.init events).step .wake).tasks r).Asleep := by
  have orderly := runAlways orderlyStep orderlyInit events
  have watched := orderly.watched r f waits
  have coming := asleepAwaited watched asleep due
  refine ⟨coming,?_⟩
  simp only [World.step, if_neg (Nat.pos_iff_ne_zero.mp coming)]
  simp [Task.wake, watched.listed asleep.2.1, asleep.2.1, Task.Asleep]

def sleeper : List Event :=
  [.open 0,.read 7 0 sizeofMetaEntry false,.step 7 true,.step 7 true,.step 7 true,.publish {seq := 1}]

theorem sleeperAwaited : 0 < (run World.step World.init sleeper).coming ∧
    ¬ (((run World.step World.init sleeper).step .wake).tasks 7).Asleep :=
  sleepingReadersAwaited sleeper 7 0 rfl ⟨_,rfl,.inr (by decide)⟩ (by decide)

/-- A thread that is the only one to read its file never gets EAGAIN from a read that waits. Once
there is something to return and the wake-ups that were due have been made, five steps of its own
end the read, whatever else happens in between: with an entry or a fault, or with the end of file
when the module has left. -/
theorem blockingReadsReturn (r f : Nat) (events later : List Event)
    (alone : ∀ e ∈ events ++ later, Alone r f e) :
    (∀ a ∈ (run World.step World.init events).returns, a.thread = r → a.file = f → a.waited = true →
      a.answer ≠ .result .again) ∧
    ((run World.step World.init events).calls r = .waiting f → Due (run World.step World.init events).sys f →
      (run World.step World.init events).coming = 0 → 5 ≤ later.countP (Event.steps r) →
      ∃ more, (run World.step World.init (events ++ later)).returns =
          (run World.step World.init events).returns ++ more ∧
        ∃ a ∈ more, a.Answers r f ((run World.step World.init events).sys.dev.dying = true)) := by
  obtain ⟨orderly, own⟩ := runMember (fun w => Orderly w ∧ Private r f w)
    (fun w e member ⟨orderly, own⟩ =>
      ⟨orderlyStep w e orderly,privateStep orderly own e (alone e (List.mem_append_left _ member))⟩)
    ⟨orderlyInit,privateInit r f⟩
  refine ⟨own.answers,fun waits due quiet enough => ?_⟩
  have awake : ¬ ((run World.step World.init events).tasks r).Asleep := fun asleep => by
    have := asleepAwaited (orderly.watched r f waits) asleep due
    omega
  have short := distanceBound ((run World.step World.init events).tasks r)
  rw [runAppend]
  refine goingReturns (fun e member => alone e (List.mem_append_right _ member)) orderly own
    ⟨.inl waits,fun _ => awake,due,fun gone => ⟨gone,by simp [waits]⟩⟩ ?_
  simp only [World.left, waits]
  omega

theorem sleeperReturns : ∃ more, (run World.step World.init ((sleeper ++ [.wake]) ++
      [.step 7 true,.signal 7,.step 7 true,.step 7 true,.publish {seq := 2},
        .step 7 true,.step 7 true])).returns =
        (run World.step World.init (sleeper ++ [.wake])).returns ++ more ∧
      ∃ a ∈ more, a.Answers 7 0 ((run World.step World.init (sleeper ++ [.wake])).sys.dev.dying = true) :=
  (blockingReadsReturn 7 0 (sleeper ++ [.wake]) _ (by simp [sleeper, Alone])).2 rfl ⟨_,rfl,.inr (by decide)⟩ rfl
    (by decide)

end Vpipe.MetaWait
