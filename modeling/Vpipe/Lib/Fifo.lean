import Mathlib.Data.List.Basic

/-! A FIFO of consecutively numbered items: of each element of the list a fact about its number
is known. -/
namespace Vpipe.Lib.Fifo

variable {α : Type} {holds : Nat → α → Prop}

def Numbered (holds : Nat → α → Prop) : Nat → List α → Prop
  | _, [] => True
  | n, a :: rest => holds n a ∧ Numbered holds (n + 1) rest

theorem numberedAppend {n : Nat} {l : List α} {a : α} (numbered : Numbered holds n l)
    (last : holds (n + l.length) a) : Numbered holds n (l ++ [a]) := by
  induction l generalizing n with
  | nil => exact ⟨last,trivial⟩
  | cons b rest ih =>
    refine ⟨numbered.1,ih numbered.2 ?_⟩
    rwa [Nat.add_assoc, Nat.add_comm 1]

theorem numberedWeaken {holds' : Nat → α → Prop} {n : Nat} {l : List α}
    (each : ∀ a ∈ l, ∀ i, holds i a → holds' i a) (numbered : Numbered holds n l) : Numbered holds' n l := by
  induction l generalizing n with
  | nil => trivial
  | cons a rest ih =>
    exact ⟨each a (by simp) n numbered.1,ih (fun b later => each b (List.mem_cons_of_mem _ later)) numbered.2⟩

theorem prefixGet {l l' : List α} {i : Nat} {a : α} (grown : l <+: l') (found : l[i]? = some a) :
    l'[i]? = some a := by
  obtain ⟨within, value⟩ := List.getElem?_eq_some_iff.mp found
  exact (List.prefix_iff_getElem?.mp grown _ within).trans (congrArg some value)

end Vpipe.Lib.Fifo
