import Mathlib.Data.List.Basic

/-! Runs of a deterministic transition function over a list of events, and runs
whose every step meets a condition on the state before it. -/
namespace Vpipe.Lib.Transition

variable {σ ε : Type}

def run (step : σ → ε → σ) (s : σ) (events : List ε) : σ := events.foldl step s

def Meets (step : σ → ε → σ) (ok : σ → ε → Prop) : σ → List ε → Prop
  | _, [] => True
  | s, e :: rest => ok s e ∧ Meets step ok (step s e) rest

instance meetsDecidable (step : σ → ε → σ) (ok : σ → ε → Prop) [∀ s e, Decidable (ok s e)] :
    (s : σ) → (events : List ε) → Decidable (Meets step ok s events)
  | _, [] => isTrue trivial
  | s, e :: rest =>
    have := meetsDecidable step ok (step s e) rest
    inferInstanceAs (Decidable (ok s e ∧ Meets step ok (step s e) rest))

@[simp] theorem runNil (step : σ → ε → σ) (s : σ) : run step s [] = s := rfl

@[simp] theorem runCons (step : σ → ε → σ) (s : σ) (e : ε) (rest : List ε) :
    run step s (e :: rest) = run step (step s e) rest := rfl

theorem runAppend (step : σ → ε → σ) (s : σ) (xs ys : List ε) :
    run step s (xs ++ ys) = run step (run step s xs) ys := List.foldl_append

theorem meetsAppend (step : σ → ε → σ) (ok : σ → ε → Prop) (s : σ) (xs ys : List ε) :
    Meets step ok s (xs ++ ys) ↔ Meets step ok s xs ∧ Meets step ok (run step s xs) ys := by
  induction xs generalizing s with
  | nil => simp [Meets]
  | cons e rest ih => simp [Meets, ih, and_assoc]

theorem meetsAnd {step : σ → ε → σ} {p q : σ → ε → Prop} {s : σ} {events : List ε}
    (one : Meets step p s events) (two : Meets step q s events) :
    Meets step (fun s e => p s e ∧ q s e) s events := by
  induction events generalizing s with
  | nil => trivial
  | cons e rest ih => exact ⟨⟨one.1,two.1⟩,ih one.2 two.2⟩

theorem meetsMember {step : σ → ε → σ} {ok : σ → ε → Prop} {events : List ε}
    (each : ∀ e ∈ events, ∀ s, ok s e) (s : σ) : Meets step ok s events := by
  induction events generalizing s with
  | nil => trivial
  | cons e rest ih =>
    exact ⟨each e (by simp) s,ih (fun x later => each x (List.mem_cons_of_mem _ later)) _⟩

theorem runInvariant {step : σ → ε → σ} {ok : σ → ε → Prop} {inv : σ → Prop}
    (keeps : ∀ s e, inv s → ok s e → inv (step s e)) {s : σ} (start : inv s)
    {events : List ε} (meets : Meets step ok s events) : inv (run step s events) := by
  induction events generalizing s with
  | nil => exact start
  | cons e rest ih => exact ih (keeps s e start meets.1) meets.2

theorem runAlways {step : σ → ε → σ} {inv : σ → Prop} (keeps : ∀ s e, inv s → inv (step s e))
    {s : σ} (start : inv s) (events : List ε) : inv (run step s events) := by
  induction events generalizing s with
  | nil => exact start
  | cons e rest ih => exact ih (keeps s e start)

theorem runMember (inv : σ → Prop) {step : σ → ε → σ} {events : List ε}
    (keeps : ∀ s, ∀ e ∈ events, inv s → inv (step s e)) {s : σ} (start : inv s) :
    inv (run step s events) := by
  induction events generalizing s with
  | nil => exact start
  | cons e rest ih =>
    exact ih (fun s x later => keeps s x (List.mem_cons_of_mem _ later)) (keeps s e (by simp) start)

theorem runEach (made : ε → σ → Prop) {step : σ → ε → σ} (makes : ∀ s e, made e (step s e))
    (keeps : ∀ s e other, made e s → made e (step s other)) (s : σ) (events : List ε) :
    ∀ e ∈ events, made e (run step s events) := by
  induction events generalizing s with
  | nil => simp
  | cons e rest ih =>
    intro x member
    rcases List.mem_cons.mp member with rfl | later
    · exact runAlways (fun s other so => keeps s x other so) (makes s x) rest
    · exact ih (step s e) x later

theorem meetsBounded {step : σ → ε → σ} {size : σ → Nat} {bound : Nat} (grows : ∀ s e, size s ≤ size (step s e))
    {s : σ} {events : List ε} (small : size (run step s events) < bound) :
    Meets step (fun s e => size (step s e) < bound) s events := by
  induction events generalizing s with
  | nil => trivial
  | cons e rest ih =>
    have keeps : ∀ s' e', size (step s e) ≤ size s' → size (step s e) ≤ size (step s' e') :=
      fun s' e' so => Nat.le_trans so (grows s' e')
    have later := runAlways keeps (Nat.le_refl _) rest
    exact ⟨Nat.lt_of_le_of_lt later small,ih small⟩

theorem meetsWeaken {step : σ → ε → σ} {ok other : σ → ε → Prop} {inv : σ → Prop}
    (keeps : ∀ s e, inv s → ok s e → inv (step s e))
    (weaker : ∀ s e, inv s → ok s e → other s e) {s : σ} (start : inv s) {events : List ε}
    (meets : Meets step ok s events) : Meets step other s events := by
  induction events generalizing s with
  | nil => trivial
  | cons e rest ih =>
    exact ⟨weaker s e start meets.1, ih (keeps s e start meets.1) meets.2⟩

end Vpipe.Lib.Transition
