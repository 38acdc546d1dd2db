import Mathlib.Algebra.GroupWithZero.Nat
import Mathlib.Data.List.Basic

/-! A ring of `N` slots written in order: slot `i % N` is rewritten by the i-th
value. `Holds` says that the slots still carry the last `N` values of a history. -/
namespace Vpipe.Lib.Ring

variable {α : Type} {N : Nat} [NeZero N]

def place (N : Nat) [NeZero N] (i : Nat) : Fin N := Fin.ofNat N i

def Holds (slots : Fin N → α) (history : List α) : Prop :=
  ∀ i x, history[i]? = some x → history.length ≤ i + N → slots (place N i) = x

theorem placeDistinct {i j : Nat} (below : i < j) (near : j < i + N) : place N i ≠ place N j := by
  intro same
  have mods : i % N = j % N := congrArg Fin.val same
  have := Nat.sub_mod_eq_zero_of_mod_eq mods.symm
  have divides := Nat.dvd_of_mod_eq_zero this
  have bound := Nat.le_of_dvd (by omega) divides
  omega

theorem holdsEmpty (slots : Fin N → α) : Holds slots [] := by
  intro i x found
  simp at found

theorem holdsPush {slots : Fin N → α} {history : List α} (holds : Holds slots history) (x : α) :
    Holds (Function.update slots (place N history.length) x) (history ++ [x]) := by
  intro i y found near
  rw [List.length_append, List.length_singleton] at near
  rcases Nat.lt_trichotomy i history.length with old | new | beyond
  · rw [List.getElem?_append_left old] at found
    rw [Function.update_of_ne (placeDistinct old (by omega))]
    exact holds i y found (by omega)
  · subst i
    have same : x = y := by simpa using found
    simp [same]
  · rw [List.getElem?_append_right (by omega)] at found
    have := (List.getElem?_eq_some_iff.mp found).1
    simp at this
    omega

end Vpipe.Lib.Ring
