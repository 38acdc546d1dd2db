import Mathlib.Logic.Function.Basic
import Vpipe.Lib.Lifetime

/-! Reference counting: a resource is acquired with one holder, shared and put back by its
holders, and released by the put that finds no other. -/
namespace Vpipe.Lib.RefCount
open Vpipe.Lib.Lifetime

variable {ρ : Type}

structure Counts (count holders : ρ → Nat) (trace : List (LifeEvent ρ)) : Prop where
  refs : ∀ r, .acquire r ∈ trace → count r = holders r
  owns : Owns (fun r => 0 < holders r) trace

variable {count holders : ρ → Nat} {trace : List (LifeEvent ρ)} {r : ρ}

theorem countsStart (none_ : ∀ r, holders r = 0) : Counts count holders [] :=
  ⟨by simp,trivial,fun r => by simp [Live, none_ r]⟩

theorem heldAcquired (counts : Counts count holders trace) (held : 0 < holders r) : .acquire r ∈ trace :=
  ((counts.owns.live r).mpr held).1

theorem countsCongr (counts : Counts count holders trace) {count' holders' : ρ → Nat}
    (refs : ∀ r, .acquire r ∈ trace → count' r = count r) (same : ∀ r, holders' r = holders r) :
    Counts count' holders' trace :=
  ⟨fun r acquired => (refs r acquired).trans ((counts.refs r acquired).trans (same r).symm),
    ownsCongr counts.owns (fun r => by rw [same r])⟩

theorem countsUse (counts : Counts count holders trace) (held : 0 < holders r) :
    Counts count holders (.use r :: trace) :=
  ⟨fun x acquired => counts.refs x (by simpa using acquired),ownsUse counts.owns held⟩

variable [DecidableEq ρ]

theorem countsAcquire (counts : Counts count holders trace) (fresh : .acquire r ∉ trace) :
    Counts (Function.update count r 1) (Function.update holders r 1) (.acquire r :: trace) := by
  refine ⟨fun x acquired => ?_,ownsCongr (ownsAcquire counts.owns fresh) (fun x => ?_)⟩
  · by_cases same : x = r
    · subst same
      simp
    · simpa [same] using counts.refs x (by simpa [same] using acquired)
  · by_cases same : x = r
    · simp [same]
    · simp [same]

theorem countsGet (counts : Counts count holders trace) (held : 0 < holders r) :
    Counts (Function.update count r (count r + 1)) (Function.update holders r (holders r + 1)) trace := by
  refine ⟨fun x acquired => ?_,ownsCongr counts.owns (fun x => ?_)⟩
  · by_cases same : x = r
    · subst same
      simp [counts.refs x acquired]
    · simpa [same] using counts.refs x acquired
  · by_cases same : x = r
    · subst same
      simp [held]
    · simp [same]

theorem countsPut (counts : Counts count holders trace) (held : 0 < holders r) :
    Counts (Function.update count r (count r - 1)) (Function.update holders r (holders r - 1))
      ((if count r - 1 = 0 then [.release r] else []) ++ trace) := by
  have here : count r = holders r := counts.refs r (heldAcquired counts held)
  have refs : ∀ x, .acquire x ∈ trace →
      Function.update count r (count r - 1) x = Function.update holders r (holders r - 1) x := by
    intro x acquired
    by_cases same : x = r
    · subst same
      simp [here]
    · simpa [same] using counts.refs x acquired
  split
  · rename_i last
    refine ⟨fun x acquired => refs x (by simpa using acquired),
      ownsCongr (ownsRelease counts.owns held) (fun x => ?_)⟩
    by_cases same : x = r
    · subst same
      simp
      omega
    · simp [same]
  · rename_i shared
    refine ⟨refs,ownsCongr counts.owns (fun x => ?_)⟩
    by_cases same : x = r
    · subst same
      simp
      omega
    · simp [same]

end Vpipe.Lib.RefCount
