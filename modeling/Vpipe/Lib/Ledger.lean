import Mathlib.Data.List.Nodup

/-! A ledger of items that are produced into a slot and later delivered from it. A slot holds
one item at a time; nothing is produced into a full slot. -/
namespace Vpipe.Lib.Ledger

structure Books (κ ε : Type) where
  produced : List (κ × ε)
  delivered : List (κ × ε)
  slot : κ → ε → Prop

variable {κ ε : Type}

inductive Step (l l' : Books κ ε) : Prop where
  | quiet (produced : l'.produced = l.produced) (delivered : l'.delivered = l.delivered)
      (slot : ∀ k e, l'.slot k e ↔ l.slot k e)
  | produce (k : κ) (e : ε) (empty : ∀ x, ¬ l.slot k x) (new : (k,e) ∉ l.produced)
      (produced : l'.produced = l.produced ++ [(k,e)]) (delivered : l'.delivered = l.delivered)
      (slot : ∀ k' x, l'.slot k' x ↔ l.slot k' x ∨ (k' = k ∧ x = e))
  | deliver (k : κ) (e : ε) (held : l.slot k e) (produced : l'.produced = l.produced)
      (delivered : l'.delivered = l.delivered ++ [(k,e)])
      (slot : ∀ k' x, l'.slot k' x ↔ l.slot k' x ∧ k' ≠ k)

structure Balanced (l : Books κ ε) : Prop where
  once : l.delivered.Nodup
  genuine : ∀ x ∈ l.delivered, x ∈ l.produced
  held : ∀ k e, l.slot k e → (k,e) ∈ l.produced ∧ (k,e) ∉ l.delivered
  single : ∀ k e e', l.slot k e → l.slot k e' → e = e'
  covered : ∀ k e, (k,e) ∈ l.produced → (k,e) ∈ l.delivered ∨ l.slot k e
  -- What a slot held before was delivered before the slot was used again.
  order : l.produced.Pairwise (fun x y => x.1 = y.1 → x ∈ l.delivered)

theorem balancedEmpty : Balanced (⟨[],[],fun _ _ => False⟩ : Books κ ε) :=
  ⟨List.nodup_nil,by simp,fun _ _ no => no.elim,fun _ _ _ no => no.elim,by simp,List.Pairwise.nil⟩

section Step
variable {l l' : Books κ ε} (balanced : Balanced l)
include balanced

theorem quietBalanced (produced : l'.produced = l.produced) (delivered : l'.delivered = l.delivered)
    (slot : ∀ k e, l'.slot k e ↔ l.slot k e) : Balanced l' := by
  obtain ⟨once, genuine, held, single, covered, order⟩ := balanced
  constructor <;> simp only [produced, delivered, slot] <;> assumption

theorem produceBalanced {k : κ} {e : ε} (empty : ∀ x, ¬ l.slot k x) (new : (k,e) ∉ l.produced)
    (produced : l'.produced = l.produced ++ [(k,e)]) (delivered : l'.delivered = l.delivered)
    (slot : ∀ k' x, l'.slot k' x ↔ l.slot k' x ∨ (k' = k ∧ x = e)) : Balanced l' := by
  refine ⟨?_,?_,?_,?_,?_,?_⟩
  · rw [delivered]; exact balanced.once
  · intro x member
    rw [delivered] at member
    rw [produced]
    exact List.mem_append_left _ (balanced.genuine x member)
  · intro k' x full
    rw [produced, delivered]
    rcases (slot k' x).mp full with old | ⟨rfl, rfl⟩
    · exact ⟨List.mem_append_left _ (balanced.held k' x old).1,(balanced.held k' x old).2⟩
    · exact ⟨by simp,fun before => new (balanced.genuine _ before)⟩
  · intro k' x y one two
    rcases (slot k' x).mp one with old | ⟨rfl, rfl⟩ <;> rcases (slot k' y).mp two with old' | ⟨same, rfl⟩
    · exact balanced.single k' x y old old'
    · exact absurd (same ▸ old) (empty x)
    · exact absurd old' (empty y)
    · rfl
  · intro k' x member
    rw [produced] at member
    rw [delivered]
    rcases List.mem_append.mp member with old | last
    · exact (balanced.covered k' x old).imp_right (fun full => (slot k' x).mpr (.inl full))
    · obtain ⟨rfl, rfl⟩ := Prod.mk.inj (List.mem_singleton.mp last)
      exact .inr ((slot _ _).mpr (.inr ⟨rfl,rfl⟩))
  · rw [produced, delivered, List.pairwise_append]
    refine ⟨balanced.order,List.pairwise_singleton _ _,?_⟩
    rintro ⟨k', x⟩ old y last same
    obtain rfl := List.mem_singleton.mp last
    obtain rfl : k' = k := same
    exact (balanced.covered k' x old).resolve_right (empty x)

theorem deliverBalanced {k : κ} {e : ε} (held : l.slot k e) (produced : l'.produced = l.produced)
    (delivered : l'.delivered = l.delivered ++ [(k,e)]) (slot : ∀ k' x, l'.slot k' x ↔ l.slot k' x ∧ k' ≠ k) :
    Balanced l' := by
  refine ⟨?_,?_,?_,?_,?_,?_⟩
  · rw [delivered, ← List.concat_eq_append]
    exact balanced.once.concat (balanced.held k e held).2
  · intro x member
    rw [delivered] at member
    rw [produced]
    rcases List.mem_append.mp member with old | last
    · exact balanced.genuine x old
    · rw [List.mem_singleton.mp last]
      exact (balanced.held k e held).1
  · intro k' x full
    obtain ⟨old, differ⟩ := (slot k' x).mp full
    rw [produced, delivered]
    refine ⟨(balanced.held k' x old).1,fun member => ?_⟩
    rcases List.mem_append.mp member with before | last
    · exact (balanced.held k' x old).2 before
    · exact differ (Prod.mk.inj (List.mem_singleton.mp last)).1
  · intro k' x y one two
    exact balanced.single k' x y ((slot k' x).mp one).1 ((slot k' y).mp two).1
  · intro k' x member
    rw [produced] at member
    rw [delivered]
    rcases balanced.covered k' x member with before | full
    · exact .inl (List.mem_append_left _ before)
    · by_cases same : k' = k
      · subst same
        rw [balanced.single k' x e full held]
        exact .inl (by simp)
      · exact .inr ((slot k' x).mpr ⟨full,same⟩)
  · rw [produced]
    refine balanced.order.imp (fun old same => ?_)
    rw [delivered]
    exact List.mem_append_left _ (old same)

theorem balancedStep (step : Step l l') : Balanced l' := by
  cases step with
  | quiet produced delivered slot => exact quietBalanced balanced produced delivered slot
  | produce k e empty new produced delivered slot =>
    exact produceBalanced balanced empty new produced delivered slot
  | deliver k e held produced delivered slot => exact deliverBalanced balanced held produced delivered slot

end Step

end Vpipe.Lib.Ledger
