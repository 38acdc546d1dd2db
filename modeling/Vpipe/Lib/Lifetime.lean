import Mathlib.Data.List.Count

/-! Lifetimes of resources along a trace of events, newest first: a resource is acquired, used
and released, each under a name that is acquired once. -/
namespace Vpipe.Lib.Lifetime

inductive LifeEvent (ρ : Type) where
  | acquire (r : ρ)
  | use (r : ρ)
  | release (r : ρ)
  deriving DecidableEq, Repr

variable {ρ : Type}

def Live (trace : List (LifeEvent ρ)) (r : ρ) : Prop := .acquire r ∈ trace ∧ .release r ∉ trace

def InOrder : List (LifeEvent ρ) → Prop
  | [] => True
  | .acquire r :: older => .acquire r ∉ older ∧ InOrder older
  | .use r :: older => Live older r ∧ InOrder older
  | .release r :: older => Live older r ∧ InOrder older

instance liveDecidable [DecidableEq ρ] (trace : List (LifeEvent ρ)) (r : ρ) : Decidable (Live trace r) :=
  inferInstanceAs (Decidable (_ ∧ _))

instance inOrderDecidable [DecidableEq ρ] : (trace : List (LifeEvent ρ)) → Decidable (InOrder trace)
  | [] => isTrue trivial
  | .acquire r :: older =>
    have := inOrderDecidable older
    inferInstanceAs (Decidable (LifeEvent.acquire r ∉ older ∧ InOrder older))
  | .use r :: older =>
    have := inOrderDecidable older
    inferInstanceAs (Decidable (Live older r ∧ InOrder older))
  | .release r :: older =>
    have := inOrderDecidable older
    inferInstanceAs (Decidable (Live older r ∧ InOrder older))

theorem inOrderOlder {newer older : List (LifeEvent ρ)} (sound : InOrder (newer ++ older)) : InOrder older := by
  induction newer with
  | nil => exact sound
  | cons e newer ih =>
    cases e with
    | acquire r => exact ih sound.2
    | use r => exact ih sound.2
    | release r => exact ih sound.2

structure Owns (held : ρ → Prop) (trace : List (LifeEvent ρ)) : Prop where
  sound : InOrder trace
  live : ∀ r, Live trace r ↔ held r

section Owns
variable {held held' : ρ → Prop} {trace : List (LifeEvent ρ)} {r : ρ}

theorem ownsCongr (owns : Owns held trace) (same : ∀ r, held r ↔ held' r) : Owns held' trace :=
  ⟨owns.sound,fun r => (owns.live r).trans (same r)⟩

theorem releasedAcquired (sound : InOrder trace) (released : .release r ∈ trace) : .acquire r ∈ trace := by
  induction trace with
  | nil => simp at released
  | cons e older ih =>
    cases e with
    | acquire x => exact List.mem_cons_of_mem _ (ih sound.2 (by simpa using released))
    | use x => exact List.mem_cons_of_mem _ (ih sound.2 (by simpa using released))
    | release x =>
      rcases List.mem_cons.mp released with same | before
      · cases same
        exact List.mem_cons_of_mem _ sound.1.1
      · exact List.mem_cons_of_mem _ (ih sound.2 before)

theorem ownsUse (owns : Owns held trace) (here : held r) : Owns held (.use r :: trace) :=
  ⟨⟨(owns.live r).mpr here,owns.sound⟩,fun x => by simpa [Live] using owns.live x⟩

theorem ownsAcquire (owns : Owns held trace) (fresh : .acquire r ∉ trace) :
    Owns (fun x => x = r ∨ held x) (.acquire r :: trace) := by
  have unreleased : .release r ∉ trace := fun released => fresh (releasedAcquired owns.sound released)
  refine ⟨⟨fresh,owns.sound⟩,fun x => ?_⟩
  by_cases same : x = r
  · subst same
    simpa [Live] using unreleased
  · simpa [Live, same] using owns.live x

theorem ownsRelease (owns : Owns held trace) (here : held r) :
    Owns (fun x => x ≠ r ∧ held x) (.release r :: trace) := by
  refine ⟨⟨(owns.live r).mpr here,owns.sound⟩,fun x => ?_⟩
  rw [← owns.live x]
  by_cases same : x = r
  · subst same
    simp [Live]
  · simp [Live, same]

theorem releasedOnce [DecidableEq ρ] (sound : InOrder trace) (r : ρ) : trace.count (.release r) ≤ 1 := by
  induction trace with
  | nil => simp
  | cons e older ih =>
    cases e with
    | acquire x => simpa [List.count_cons] using ih sound.2
    | use x => simpa [List.count_cons] using ih sound.2
    | release x =>
      by_cases same : x = r
      · subst same
        simp [List.count_eq_zero_of_not_mem sound.1.2]
      · simpa [List.count_cons, same] using ih sound.2

theorem ownsNothing [DecidableEq ρ] (owns : Owns held trace) (none_ : ∀ r, ¬ held r) :
    ∀ r, .acquire r ∈ trace → trace.count (.release r) = 1 := by
  intro r acquired
  have released : .release r ∈ trace := by
    by_contra missing
    exact none_ r ((owns.live r).mp ⟨acquired,missing⟩)
  exact Nat.le_antisymm (releasedOnce owns.sound r) (List.count_pos_iff.mpr released)

end Owns

end Vpipe.Lib.Lifetime
