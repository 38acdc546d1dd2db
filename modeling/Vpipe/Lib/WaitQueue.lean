import Mathlib.Data.List.Basic

/-! Waiting for a condition on a wait queue, as wait_event_interruptible and
wake_up_interruptible do it: the waiter goes on the list before it looks at the condition again,
and whoever makes the condition true wakes the list afterwards. The steps of a task are atomic
and every processor sees the same memory. -/
namespace Vpipe.Lib.WaitQueue

/- Where a task is in wait_event_interruptible; `look` is the second look at the condition, with
what prepare_to_wait_event answered. -/
inductive Place where
  | out
  | first
  | prepare
  | look (interrupted : Bool)
  | schedule
  | passed
  | restart
  deriving DecidableEq, Repr

/- `listed` is the entry on the wait queue, `sleepable` the state TASK_INTERRUPTIBLE. -/
structure Task where
  place : Place := .out
  listed : Bool := false
  sleepable : Bool := false
  signal : Bool := false
  deriving DecidableEq, Repr

def Task.enter (t : Task) : Task := {t with place := .first, listed := false, sleepable := false}

def Task.step (t : Task) (cond : Bool) : Task :=
  match t.place with
  | .first => if cond then {t with place := .passed} else {t with place := .prepare}
  | .prepare =>
    if t.signal then {t with place := .look true, listed := false}
    else {t with place := .look false, listed := true, sleepable := true}
  | .look interrupted =>
    -- finish_wait
    if cond then {t with place := .passed, listed := false, sleepable := false}
    else if interrupted then {t with place := .restart}
    else {t with place := .schedule}
  | .schedule =>
    if t.sleepable && !t.signal then t else {t with place := .prepare, sleepable := false}
  | _ => t

def Task.wake (t : Task) : Task :=
  if t.listed && t.sleepable then {t with listed := false, sleepable := false} else t

def Task.deliver (t : Task) : Task := {t with signal := true, sleepable := false}

def Task.Asleep (t : Task) : Prop := t.place = .schedule ∧ t.sleepable = true ∧ t.signal = false

instance (t : Task) : Decidable t.Asleep := inferInstanceAs (Decidable (_ ∧ _))

structure Watched (reason : Prop) (coming : Nat) (t : Task) : Prop where
  upright : t.place = .first ∨ t.place = .prepare → t.sleepable = false
  listed : t.sleepable = true → t.listed = true
  awaited : t.place = .schedule → t.sleepable = true → reason → 0 < coming

section Watched
variable {reason reason' : Prop} {coming coming' : Nat} {t : Task}

theorem watchedEnter (t : Task) : Watched reason coming t.enter := by
  constructor <;> simp [Task.enter]

theorem watchedStep {cond : Bool} (seen : reason → cond = true) (watched : Watched reason coming t) :
    Watched reason coming (t.step cond) := by
  obtain ⟨upright, listed, awaited⟩ := watched
  unfold Task.step
  split
  · rename_i place
    have up := upright (.inl place)
    split <;> constructor <;> simp [up]
  · rename_i place
    have up := upright (.inr place)
    split <;> constructor <;> simp [up]
  · split
    · constructor <;> simp
    · rename_i unseen
      -- The condition was false after the task had gone on the list, so there is no reason yet.
      have idle : ¬ reason := fun so => unseen (seen so)
      split
      · exact ⟨by simp,listed,by simp⟩
      · exact ⟨by simp,listed,fun _ _ so => absurd so idle⟩
  · split
    · exact ⟨upright,listed,awaited⟩
    · constructor <;> simp
  · exact ⟨upright,listed,awaited⟩

theorem watchedWake (watched : Watched reason coming t) : Watched reason coming' t.wake := by
  obtain ⟨upright, listed, awaited⟩ := watched
  unfold Task.wake
  cases sleepable : t.sleepable with
  | false => constructor <;> simp [sleepable]
  | true => constructor <;> simp [listed sleepable]

theorem watchedDeliver (t : Task) : Watched reason coming t.deliver := by
  constructor <;> simp [Task.deliver]

theorem watchedChange (watched : Watched reason coming t) (more : coming ≤ coming')
    (announced : reason' → reason ∨ 0 < coming') : Watched reason' coming' t where
  upright := watched.upright
  listed := watched.listed
  awaited place sleepable so := by
    rcases announced so with old | now
    · exact Nat.lt_of_lt_of_le (watched.awaited place sleepable old) more
    · exact now

theorem asleepAwaited (watched : Watched reason coming t) (asleep : t.Asleep) (so : reason) : 0 < coming :=
  watched.awaited asleep.1 asleep.2.1 so

end Watched

def Task.distance (t : Task) : Nat :=
  match t.place with
  | .first => 1
  | .prepare => 2
  | .look _ => 1
  | .schedule => 3
  | _ => 0

def Task.Waiting (t : Task) : Prop := 0 < t.distance

theorem distanceBound (t : Task) : t.distance ≤ 3 := by
  unfold Task.distance
  split <;> omega

theorem stepCloser {t : Task} (waiting : t.Waiting) (awake : ¬ t.Asleep) :
    (t.step true).distance + 1 = t.distance ∧ ((t.step true).place = .passed ↔ t.distance = 1) ∧
      ¬ (t.step true).Asleep ∧ (t.step true).place ≠ .restart := by
  cases place : t.place with
  | first => simp [Task.step, Task.distance, Task.Asleep, place]
  | prepare => cases signal : t.signal <;> simp [Task.step, Task.distance, Task.Asleep, place, signal]
  | look interrupted => simp [Task.step, Task.distance, Task.Asleep, place]
  | schedule =>
    have stirs : (t.sleepable && !t.signal) = false := by
      cases sleepable : t.sleepable <;> cases signal : t.signal <;>
        simp_all [Task.Asleep]
    simp [Task.step, Task.distance, Task.Asleep, place, stirs]
  | out => simp [Task.Waiting, Task.distance, place] at waiting
  | passed => simp [Task.Waiting, Task.distance, place] at waiting
  | restart => simp [Task.Waiting, Task.distance, place] at waiting

theorem enterWaiting (t : Task) : t.enter.Waiting := by
  simp [Task.Waiting, Task.distance, Task.enter]

theorem stepPlace {t : Task} (waiting : t.Waiting) (cond : Bool) :
    (t.step cond).Waiting ∨ ((t.step cond).place = .passed ∧ cond = true) ∨ (t.step cond).place = .restart := by
  unfold Task.step
  split
  · split
    · rename_i seen
      exact .inr (.inl ⟨rfl,seen⟩)
    · exact .inl (by simp [Task.Waiting, Task.distance])
  · exact .inl (by split <;> simp [Task.Waiting, Task.distance])
  · split
    · rename_i seen
      exact .inr (.inl ⟨rfl,seen⟩)
    · split
      · exact .inr (.inr rfl)
      · exact .inl (by simp [Task.Waiting, Task.distance])
  · split
    · exact .inl waiting
    · exact .inl (by simp [Task.Waiting, Task.distance])
  · exact .inl waiting

theorem waitingPlace {t : Task} (waiting : t.Waiting) : t.place ≠ .passed ∧ t.place ≠ .restart := by
  constructor <;> intro place <;> simp [Task.Waiting, Task.distance, place] at waiting

theorem placeWaiting {t t' : Task} (same : t'.place = t.place) (waiting : t.Waiting) : t'.Waiting := by
  unfold Task.Waiting Task.distance at *
  rw [same]
  exact waiting

theorem wakeKeeps (t : Task) : t.wake.place = t.place ∧ (¬ t.Asleep → ¬ t.wake.Asleep) := by
  unfold Task.wake
  split
  · exact ⟨rfl,fun _ => by simp [Task.Asleep]⟩
  · exact ⟨rfl,id⟩

theorem deliverKeeps (t : Task) : t.deliver.place = t.place ∧ ¬ t.deliver.Asleep :=
  ⟨rfl,by simp [Task.Asleep, Task.deliver]⟩

end Vpipe.Lib.WaitQueue
