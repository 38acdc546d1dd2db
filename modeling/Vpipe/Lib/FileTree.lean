import Mathlib.Data.List.Basic
import Mathlib.Logic.Function.Basic

/-! A tree of directories and other files without links. A location lists names from the inside
out, so that its tail is its parent. A path is walked step by step from a directory; every step
leaves a directory that must be there. -/
namespace Vpipe.Lib.FileTree

inductive Node (β : Type) where
  | dir
  | file (content : β)
  deriving DecidableEq, Repr

inductive Step (ν : Type) where
  | here | up
  | name (n : ν)
  deriving DecidableEq, Repr

/- `missing` and `notDir` are met on the way; `refused` stands for every other reason. -/
inductive Failure where
  | missing | notDir | taken
  | refused (code : Nat)
  deriving DecidableEq, Repr

abbrev Location (ν : Type) : Type := List ν

structure Tree (ν β : Type) where
  node : Location ν → Option (Node β)
  root : node [] = some .dir
  parents : ∀ n at_, node (n :: at_) ≠ none → node at_ = some .dir

section Walks
variable {ν β : Type}

def step (at_ : Location ν) : Step ν → Location ν
  | .here => at_
  | .up => at_.tail
  | .name n => n :: at_

def place (start : Location ν) (steps : List (Step ν)) : Location ν := steps.foldl step start

def Tree.walk (fs : Tree ν β) (at_ : Location ν) : List (Step ν) → Except Failure (Location ν)
  | [] => .ok at_
  | s :: rest => match fs.node at_ with
    | some .dir => fs.walk (step at_ s) rest
    | some (.file _) => .error .notDir
    | none => .error .missing

def Tree.stat (fs : Tree ν β) (start : Location ν) (steps : List (Step ν)) : Option (Node β) :=
  match fs.walk start steps with
  | .ok at_ => fs.node at_
  | .error _ => none

theorem walkPlace {fs : Tree ν β} {start at_ : Location ν} {steps : List (Step ν)}
    (walked : fs.walk start steps = .ok at_) : at_ = place start steps := by
  induction steps generalizing start with
  | nil => exact (Except.ok.inj walked).symm
  | cons s rest ih =>
    simp only [Tree.walk] at walked
    split at walked
    · exact ih walked
    · contradiction
    · contradiction

theorem walkFailure {fs : Tree ν β} {start : Location ν} {steps : List (Step ν)} {e : Failure}
    (failed : fs.walk start steps = .error e) : e ≠ .taken := by
  induction steps generalizing start with
  | nil => contradiction
  | cons s rest ih =>
    simp only [Tree.walk] at failed
    split at failed
    · exact ih failed
    · cases failed
      simp
    · cases failed
      simp

theorem statSource {fs : Tree ν β} {start : Location ν} {steps : List (Step ν)}
    (there : fs.stat start steps ≠ none) : fs.stat start steps = fs.node (place start steps) := by
  unfold Tree.stat at there ⊢
  split at there
  · rename_i at_ walked
    rw [← walkPlace walked]
  · contradiction

def Tree.Reachable (fs : Tree ν β) (at_ : Location ν) : Prop :=
  fs.node at_ ≠ none ∨ ∃ n parent, at_ = n :: parent ∧ fs.node parent = some .dir

theorem stepReachable {fs : Tree ν β} {at_ : Location ν} (there : fs.node at_ = some .dir) (s : Step ν) :
    fs.Reachable (step at_ s) := by
  cases s with
  | here => exact .inl (by simp [step, there])
  | name n => exact .inr ⟨n,at_,rfl,there⟩
  | up =>
    cases at_ with
    | nil => exact .inl (by simp [step, there])
    | cons n parent => exact .inl (by simp [step, fs.parents n parent (by simp [there])])

theorem walkReachable {fs : Tree ν β} {start at_ : Location ν} {steps : List (Step ν)}
    (walked : fs.walk start steps = .ok at_) (from_ : fs.Reachable start) : fs.Reachable at_ := by
  induction steps generalizing start with
  | nil => exact Except.ok.inj walked ▸ from_
  | cons s rest ih =>
    simp only [Tree.walk] at walked
    split at walked
    · rename_i there
      exact ih walked (stepReachable there s)
    · contradiction
    · contradiction

end Walks

section Growth
variable {ν β : Type}

def Grows (fresh : Location ν → Prop) (fs fs' : Tree ν β) : Prop :=
  ∀ l, fs'.node l = fs.node l ∨ fs.node l = none ∧ fs'.node l = some .dir ∧ fresh l

theorem growsRefl (fresh : Location ν → Prop) (fs : Tree ν β) : Grows fresh fs fs := fun _ => .inl rfl

theorem growsMono {fresh wider : Location ν → Prop} {fs fs' : Tree ν β} (more : ∀ l, fresh l → wider l)
    (grows : Grows fresh fs fs') : Grows wider fs fs' :=
  fun l => (grows l).imp_right (fun made => ⟨made.1,made.2.1,more l made.2.2⟩)

theorem growsTrans {fresh : Location ν → Prop} {fs fs' fs'' : Tree ν β} (first : Grows fresh fs fs')
    (second : Grows fresh fs' fs'') : Grows fresh fs fs'' := by
  intro l
  rcases second l with same | ⟨free, made, at_⟩
  · rw [same]
    exact first l
  · rcases first l with same | ⟨_, there, _⟩
    · exact .inr ⟨same ▸ free,made,at_⟩
    · rw [there] at free
      contradiction

section Grown
variable {fresh : Location ν → Prop} {fs fs' : Tree ν β} (grows : Grows fresh fs fs')
include grows

theorem grownNode {l : Location ν} {n : Node β} (there : fs.node l = some n) : fs'.node l = some n := by
  rcases grows l with same | ⟨free, _, _⟩
  · rw [same, there]
  · rw [free] at there
    contradiction

theorem grownFile (l : Location ν) (content : β) :
    fs'.node l = some (.file content) ↔ fs.node l = some (.file content) := by
  refine ⟨fun there => ?_,grownNode grows⟩
  rcases grows l with same | ⟨_, made, _⟩
  · rwa [← same]
  · rw [made] at there
    cases there

theorem grownWalk {start at_ : Location ν} {steps : List (Step ν)} (walked : fs.walk start steps = .ok at_) :
    fs'.walk start steps = .ok at_ := by
  induction steps generalizing start with
  | nil => exact walked
  | cons s rest ih =>
    simp only [Tree.walk] at walked ⊢
    split at walked
    · rename_i there
      rw [grownNode grows there]
      exact ih walked
    · contradiction
    · contradiction

theorem grownStat {start : Location ν} {steps : List (Step ν)} {n : Node β}
    (there : fs.stat start steps = some n) : fs'.stat start steps = some n := by
  unfold Tree.stat at *
  split at there
  · rename_i at_ walked
    rw [grownWalk grows walked]
    exact grownNode grows there
  · contradiction

end Grown

end Growth

section Outcomes
variable {ν β : Type} [DecidableEq ν] {fs : Tree ν β} {start : Location ν} {steps : List (Step ν)}
variable {r : Option Failure × Tree ν β}

inductive Mkdir (fs : Tree ν β) (start : Location ν) (steps : List (Step ν)) :
    Option Failure × Tree ν β → Prop where
  | failed {e : Failure} (other : e ≠ .taken) : Mkdir fs start steps (some e,fs)
  | taken (there : fs.stat start steps ≠ none) : Mkdir fs start steps (some .taken,fs)
  | made {fs' : Tree ν β} (walked : fs.walk start steps = .ok (place start steps))
      (free : fs.node (place start steps) = none)
      (node : fs'.node = Function.update fs.node (place start steps) (some .dir)) :
        Mkdir fs start steps (none,fs')

theorem mkdirGrows (source : Mkdir fs start steps r) : Grows (fun l => l = place start steps) fs r.2 := by
  cases source with
  | failed _ => exact growsRefl _ fs
  | taken _ => exact growsRefl _ fs
  | made _ free node =>
    intro l
    by_cases same : l = place start steps
    · subst same
      exact .inr ⟨free,by simp [node],rfl⟩
    · exact .inl (by simp [node, same])

theorem mkdirPassed (source : Mkdir fs start steps r) (passed : r.1 = none ∨ r.1 = some .taken) :
    r.2.stat start steps ≠ none := by
  cases source with
  | failed other => simp [other] at passed
  | taken there => exact there
  | made walked free node =>
    have grows := mkdirGrows (.made walked free node)
    simp [Tree.stat, grownWalk grows walked, node]

end Outcomes

section Changes
variable {ν β : Type} [DecidableEq ν] [DecidableEq β]

def Tree.put (fs : Tree ν β) (made : Node β) : Location ν → Tree ν β
  | [] => fs
  | n :: at_ =>
    if fine : fs.node at_ = some .dir ∧ fs.node (n :: at_) = none then
      { node := Function.update fs.node (n :: at_) (some made)
        root := by simp [fs.root]
        parents := fun m l there => by
          by_cases same : m :: l = n :: at_
          · obtain ⟨rfl, rfl⟩ := List.cons.inj same
            simp [fine.1]
          · rw [Function.update_of_ne same] at there
            rw [Function.update_of_ne]
            · exact fs.parents m l there
            · rintro rfl
              simp [fs.parents m (n :: at_) there] at fine }
    else fs

def Tree.mkdir (fs : Tree ν β) (start : Location ν) (steps : List (Step ν)) (refusal : Option Nat) :
    Option Failure × Tree ν β :=
  match fs.walk start steps with
  | .error e => (some e,fs)
  | .ok at_ => match fs.node at_, refusal with
    | some _, _ => (some .taken,fs)
    | none, some code => (some (.refused code),fs)
    | none, none => (none,fs.put .dir at_)

theorem putNode {fs : Tree ν β} {made : Node β} {at_ : Location ν} (can : fs.Reachable at_)
    (free : fs.node at_ = none) : (fs.put made at_).node = Function.update fs.node at_ (some made) := by
  obtain ⟨n, parent, rfl, there⟩ := can.resolve_left (not_not.mpr free)
  simp only [Tree.put]
  rw [dif_pos ⟨there,free⟩]

variable (fs : Tree ν β) (start : Location ν) (steps : List (Step ν)) (refusal : Option Nat)

theorem mkdirSource (there : fs.node start = some .dir) :
    Mkdir fs start steps (fs.mkdir start steps refusal) := by
  unfold Tree.mkdir
  split
  · rename_i e failed
    exact .failed (walkFailure failed)
  · rename_i at_ walked
    obtain rfl := walkPlace walked
    have can := walkReachable walked (.inl (by simp [there]))
    split
    · rename_i n here
      exact .taken (by simp [Tree.stat, walked, here])
    · exact .failed (by simp)
    · rename_i free
      exact .made walked free (putNode can free)

theorem mkdirTaken (there : fs.stat start steps ≠ none) : fs.mkdir start steps refusal = (some .taken,fs) := by
  unfold Tree.stat at there
  unfold Tree.mkdir
  split at there
  · rename_i at_ walked
    obtain ⟨n, here⟩ := Option.ne_none_iff_exists'.mp there
    simp only [walked, here]
  · contradiction

end Changes

end Vpipe.Lib.FileTree
