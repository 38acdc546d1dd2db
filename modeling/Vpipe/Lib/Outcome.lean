import Mathlib.Data.List.Basic

/-! Total correctness of a computation that may fail: it returns, and what it returns meets the
postcondition. Partial correctness: what it returns, if it does, meets it. -/
namespace Vpipe.Lib.Outcome

variable {ε α β : Type}

def Returns (x : Except ε α) (post : α → Prop) : Prop := ∃ a, x = .ok a ∧ post a

theorem returnsOk {a : α} {post : α → Prop} (so : post a) : Returns (.ok a : Except ε α) post := ⟨a,rfl,so⟩

theorem returnsBind {x : Except ε α} {next : α → Except ε β} {mid : α → Prop} {post : β → Prop}
    (first : Returns x mid) (then_ : ∀ a, mid a → Returns (next a) post) : Returns (x >>= next) post := by
  obtain ⟨a, made, so⟩ := first
  rw [made]
  exact then_ a so

theorem returnsThen {x : Except ε α} {a : α} {next : α → Except ε β} {post : β → Prop} (made : x = .ok a)
    (then_ : Returns (next a) post) : Returns (x >>= next) post := by
  rw [made]
  exact then_

def Ensures (x : Except ε α) (post : α → Prop) : Prop := ∀ a, x = .ok a → post a

theorem ensuresOk {a : α} {post : α → Prop} (so : post a) : Ensures (.ok a : Except ε α) post := by
  rintro _ ⟨rfl⟩
  exact so

theorem ensuresError {e : ε} {post : α → Prop} : Ensures (.error e : Except ε α) post := by
  intro a made
  contradiction

theorem ensuresBind {x : Except ε α} {next : α → Except ε β} {mid : α → Prop} {post : β → Prop}
    (first : Ensures x mid) (then_ : ∀ a, mid a → Ensures (next a) post) : Ensures (x >>= next) post := by
  intro b made
  cases x with
  | error e => contradiction
  | ok a => exact then_ a (first a rfl) b made

theorem ensuresAny {x : Except ε α} {next : α → Except ε β} {post : β → Prop}
    (then_ : ∀ a, Ensures (next a) post) : Ensures (x >>= next) post :=
  ensuresBind (fun _ _ => trivial) (fun a _ => then_ a)

theorem ensuresImp {x : Except ε α} {mid post : α → Prop} (so : Ensures x mid) (weaker : ∀ a, mid a → post a) :
    Ensures x post := fun a made => weaker a (so a made)

def Ends (x : Except ε α) (fails : ε → Prop) (post : α → Prop) : Prop :=
  match x with
  | .ok a => post a
  | .error e => fails e

theorem endsBind {x : Except ε α} {next : α → Except ε β} {fails : ε → Prop} {mid : α → Prop} {post : β → Prop}
    (first : Ends x fails mid) (then_ : ∀ a, mid a → Ends (next a) fails post) :
    Ends (x >>= next) fails post := by
  cases x with
  | error e => exact first
  | ok a => exact then_ a first

theorem endsImp {x : Except ε α} {fails : ε → Prop} {mid post : α → Prop} (ends : Ends x fails mid)
    (weaker : ∀ a, mid a → post a) : Ends x fails post := by
  cases x with
  | error e => exact ends
  | ok a => exact weaker a ends

end Vpipe.Lib.Outcome
