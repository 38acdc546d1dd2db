import Mathlib.Data.List.Nodup
import Mathlib.Data.List.Perm.Basic

/-! An address space: regions of memory that do not overlap. A region is mapped where nothing is
mapped yet and unmapped as a whole. -/
namespace Vpipe.Lib.AddressSpace

structure Region where
  start : Nat
  length : Nat
  deriving DecidableEq, Repr

def Apart (a b : Region) : Prop := a.start + a.length ≤ b.start ∨ b.start + b.length ≤ a.start

instance (a b : Region) : Decidable (Apart a b) := by unfold Apart; infer_instance

structure Space where
  regions : List Region
  apart : regions.Pairwise Apart
  solid : ∀ r ∈ regions, 0 < r.length

namespace Space

variable {s : Space} {r x : Region}

def Free (s : Space) (r : Region) : Prop := 0 < r.length ∧ ∀ x ∈ s.regions, Apart r x

instance (s : Space) (r : Region) : Decidable (s.Free r) := by unfold Free; infer_instance

def map (s : Space) (r : Region) (free : s.Free r) : Space where
  regions := r :: s.regions
  apart := List.pairwise_cons.mpr ⟨free.2,s.apart⟩
  solid := fun x member => by
    rcases List.mem_cons.mp member with rfl | old
    · exact free.1
    · exact s.solid x old

def unmap (s : Space) (r : Region) : Space where
  regions := s.regions.erase r
  apart := s.apart.sublist List.erase_sublist
  solid := fun x member => s.solid x (List.mem_of_mem_erase member)

theorem freeStart (free : s.Free r) (mapped : x ∈ s.regions) : r.start ≠ x.start := by
  have positive := free.1
  have solid := s.solid x mapped
  have apart := free.2 x mapped
  unfold Apart at apart
  omega

theorem regionsNodup (s : Space) : s.regions.Nodup := by
  have strict : s.regions.Pairwise (fun a b => Apart a b ∧ 0 < a.length) :=
    s.apart.imp_of_mem (fun first _ apart => ⟨apart,s.solid _ first⟩)
  refine strict.imp (fun ⟨apart, positive⟩ => ?_)
  rintro rfl
  unfold Apart at apart
  omega

end Space

end Vpipe.Lib.AddressSpace
