import Vpipe.Lib.FileTree

/-! `vpipe_ensure_parent_dir` of the tools: the copy of the path that is cut at each slash in turn,
and what the calls of `mkdir` on the pieces leave in the file system. Bytes of a path are kept as
they are; a C string is read up to its first NUL. -/
namespace Vpipe.ParentDir
open Vpipe.Lib.FileTree

def slash : UInt8 := 0x2f
def dot : UInt8 := 0x2e

structure CString where
  bytes : List UInt8
  plain : 0 ∉ bytes
  deriving DecidableEq, Repr

abbrev Name : Type := List UInt8

structure World where
  tree : Tree Name (List UInt8)
  cwd : Location Name
  there : tree.node cwd = some .dir

def split (s : List UInt8) : List (List UInt8) :=
  match s with
  | [] => [[]]
  | b :: rest =>
    if b = slash then [] :: split rest
    else match split rest with
      | [] => [[b]]
      | head :: tail => (b :: head) :: tail

def component (n : Name) : Step Name :=
  if n = [dot] then .here else if n = [dot,dot] then .up else .name n

def steps (s : List UInt8) : List (Step Name) := ((split s).filter (fun n => n ≠ [])).map component

def World.start (w : World) (s : List UInt8) : Location Name := if s.head? = some slash then [] else w.cwd

def World.place (w : World) (s : List UInt8) : Location Name := Lib.FileTree.place (w.start s) (steps s)

def World.stat (w : World) (s : List UInt8) : Option (Node (List UInt8)) := w.tree.stat (w.start s) (steps s)

theorem World.startThere (w : World) (s : List UInt8) : w.tree.node (w.start s) = some .dir := by
  unfold World.start
  split
  · exact w.tree.root
  · exact w.there

def World.mkdir (w : World) (s : List UInt8) (refusal : Option Nat) : Option Failure × World :=
  if s = [] then (some .missing,w)
  else
    let r := w.tree.mkdir (w.start s) (steps s) refusal
    have made := mkdirSource w.tree (w.start s) (steps s) refusal (w.startThere s)
    (r.1,⟨r.2,w.cwd,grownNode (mkdirGrows made) w.there⟩)

def cstr (buf : List UInt8) : List UInt8 := buf.takeWhile (fun b => b ≠ 0)

def strrchr (c : UInt8) : List UInt8 → Option Nat
  | [] => none
  | b :: rest => match strrchr c rest with
    | some i => some (i + 1)
    | none => if b = c then some 0 else none

def World.passes (w : World) (s : List UInt8) (refusal : Option Nat) : Bool × World :=
  let r := w.mkdir s refusal
  (r.1 = none || r.1 = some .taken,r.2)

/- Whether strdup finds memory, and what the call of mkdir with the path cut at an offset is
refused with. -/
structure Env where
  strdup : Bool := true
  refusal : Nat → Option Nat := fun _ => none

/- for (p = copy + 1; *p; p++), with the bytes the allocation has from p on counted down. -/
def cutLoop (env : Env) : Nat → Nat → List UInt8 → World → Option (List UInt8) × World
  | 0, _, copy, w => (some copy,w)
  | left+1, p, copy, w =>
    let c := copy.getD p 0
    if c = 0 then (some copy,w)
    else if c ≠ slash then cutLoop env left (p + 1) copy w
    else
      let copy := copy.set p 0
      match w.passes (cstr copy) (env.refusal p) with
      | (false,w) => (none,w)
      | (true,w) => cutLoop env left (p + 1) (copy.set p slash) w

def vpipeEnsureParentDir (w : World) (path : CString) (env : Env) : Int × World :=
  if !env.strdup then (-1,w)
  else
    let copy := path.bytes ++ [0]
    match strrchr slash (cstr copy) with
    | none => (0,w)
    | some i =>
      let copy := copy.set i 0
      if copy.getD 0 0 = 0 then (0,w)
      else match cutLoop env (copy.length - 1) 1 copy w with
        | (none,w) => (-1,w)
        | (some copy,w) => match w.passes (cstr copy) (env.refusal i) with
          | (false,w) => (-1,w)
          | (true,w) => (0,w)

def makeCuts (env : Env) (w : World) (done : List UInt8) : List UInt8 → Bool × World
  | [] => (true,w)
  | c :: todo =>
    if c ≠ slash then makeCuts env w (done ++ [c]) todo
    else match w.passes done (env.refusal done.length) with
      | (false,w) => (false,w)
      | (true,w) => makeCuts env w (done ++ [c]) todo

def makeDirs (env : Env) (w : World) (part : List UInt8) : Bool × World :=
  match makeCuts env w (part.take 1) (part.drop 1) with
  | (false,w) => (false,w)
  | (true,w) => w.passes part (env.refusal part.length)

theorem getAt (a l : List UInt8) (b : UInt8) : (a ++ b :: l).getD a.length 0 = b := by simp

theorem setAt (a l : List UInt8) (b c : UInt8) : (a ++ b :: l).set a.length c = a ++ c :: l := by simp

theorem cstrCut {a : List UInt8} (plain : 0 ∉ a) (l : List UInt8) : cstr (a ++ 0 :: l) = a := by
  unfold cstr
  rw [List.takeWhile_append_of_pos]
  · simp
  · intro b member
    have nonzero : b ≠ 0 := fun zero => plain (zero ▸ member)
    simpa using nonzero

theorem cutLoopMakes (env : Env) (rest done : List UInt8) {todo : List UInt8} (plain : 0 ∉ done)
    (plain' : 0 ∉ todo) {left : Nat} (enough : todo.length < left) (w : World) :
    cutLoop env left done.length (done ++ (todo ++ 0 :: rest)) w =
      match makeCuts env w done todo with
      | (false,w) => (none,w)
      | (true,w) => (some (done ++ (todo ++ 0 :: rest)),w) := by
  induction todo generalizing done left w with
  | nil =>
    obtain ⟨n, rfl⟩ := Nat.exists_eq_add_one_of_ne_zero (Nat.ne_zero_of_lt enough)
    simp [cutLoop, makeCuts]
  | cons c todo ih =>
    obtain ⟨n, rfl⟩ := Nat.exists_eq_add_one_of_ne_zero (Nat.ne_zero_of_lt enough)
    obtain ⟨nonzero, later⟩ : c ≠ 0 ∧ 0 ∉ todo := by simpa [eq_comm] using plain'
    have next : 0 ∉ done ++ [c] := by simp [plain, Ne.symm nonzero]
    have follow := fun w' => ih (done ++ [c]) next later (show todo.length < n by simpa using enough) w'
    simp only [List.length_append, List.length_cons, List.length_nil, Nat.zero_add, List.append_assoc,
      List.cons_append, List.nil_append] at follow
    simp only [cutLoop, makeCuts, List.cons_append, getAt, if_neg nonzero, setAt, cstrCut plain]
    by_cases separator : c = slash
    · subst separator
      simp only [ne_eq, not_true_eq_false, if_false]
      cases w.passes done (env.refusal done.length) with
      | mk passed w' =>
        cases passed with
        | false => rfl
        | true => exact follow w'
    · simp only [ne_eq, separator, not_false_eq_true, if_true]
      exact follow w

theorem strrchrNone {c : UInt8} {s : List UInt8} : strrchr c s = none ↔ c ∉ s := by
  induction s with
  | nil => simp [strrchr]
  | cons b rest ih =>
    simp only [strrchr]
    split
    · rename_i i found
      simp [found] at ih
      simp [ih]
    · rename_i none_
      simp [none_] at ih
      by_cases here : b = c
      · simp [here]
      · simp [here, ih, Ne.symm here]

theorem strrchrLast {c : UInt8} (a : List UInt8) {l : List UInt8} (last : c ∉ l) :
    strrchr c (a ++ c :: l) = some a.length := by
  induction a with
  | nil => simp [strrchr, strrchrNone.mpr last]
  | cons b rest ih => simp [strrchr, ih]

def Parent (path : CString) (part : List UInt8) : Prop :=
  ∃ file, path.bytes = part ++ slash :: file ∧ slash ∉ file

theorem parentExists {path : CString} (member : slash ∈ path.bytes) : ∃ part, Parent path part := by
  obtain ⟨file, part, bytes, first⟩ := List.eq_append_cons_of_mem (List.mem_reverse.mpr member)
  refine ⟨part.reverse,file.reverse,?_,by simpa using first⟩
  rw [← List.reverse_reverse path.bytes, bytes]
  simp

theorem parentUnique {path : CString} {part part' : List UInt8} (one : Parent path part)
    (two : Parent path part') : part = part' := by
  obtain ⟨file, bytes, last⟩ := one
  obtain ⟨file', bytes', last'⟩ := two
  have length : part.length = part'.length := by
    have found := strrchrLast part last
    rw [← bytes, bytes', strrchrLast part' last'] at found
    exact (Option.some.inj found).symm
  exact List.append_inj_left (bytes.symm.trans bytes') length

section Calls
variable {path : CString} {env : Env}

theorem ensureGiven {w w' : World} (done : vpipeEnsureParentDir w path env = (0,w')) : env.strdup = true := by
  cases given : env.strdup with
  | true => rfl
  | false => simp [vpipeEnsureParentDir, given] at done

theorem ensureNone (none_ : slash ∉ path.bytes) (given : env.strdup = true) (w : World) :
    vpipeEnsureParentDir w path env = (0,w) := by
  have whole : cstr (path.bytes ++ [0]) = path.bytes := cstrCut path.plain []
  simp [vpipeEnsureParentDir, given, whole, strrchrNone.mpr none_]

theorem ensureMakes {part : List UInt8} (parent : Parent path part) (given : env.strdup = true) (w : World) :
    vpipeEnsureParentDir w path env =
      if part = [] then (0,w)
      else match makeDirs env w part with
        | (false,w) => (-1,w)
        | (true,w) => (0,w) := by
  obtain ⟨file, bytes, last⟩ := parent
  have plain : 0 ∉ part := fun member => path.plain (bytes ▸ List.mem_append_left _ member)
  have whole : cstr (path.bytes ++ [0]) = path.bytes := cstrCut path.plain []
  have found : strrchr slash path.bytes = some part.length := bytes ▸ strrchrLast part last
  have cut : (path.bytes ++ [0]).set part.length 0 = part ++ 0 :: (file ++ [0]) := by
    rw [bytes, List.append_assoc]
    exact setAt part (file ++ [0]) slash 0
  simp only [vpipeEnsureParentDir, given, whole, found, cut]
  cases part with
  | nil => simp
  | cons c rest =>
    obtain ⟨nonzero, later⟩ : c ≠ 0 ∧ 0 ∉ rest := by simpa [eq_comm] using plain
    have loop := cutLoopMakes env (file ++ [0]) [c] (by simpa using Ne.symm nonzero) later
      (show rest.length < (c :: (rest ++ 0 :: (file ++ [0]))).length - 1 by simp) w
    have held : cstr (c :: (rest ++ 0 :: (file ++ [0]))) = c :: rest := cstrCut plain (file ++ [0])
    simp only [List.cons_append, List.nil_append, List.length_singleton] at loop
    simp only [List.cons_append, List.getD_cons_zero, if_neg nonzero, makeDirs, List.take_succ_cons,
      List.take_zero, List.drop_succ_cons, List.drop_zero, Bool.not_true, reduceCtorEq, if_false,
        Bool.false_eq_true, loop]
    cases makeCuts env w [c] rest with
    | mk passed w' =>
      cases passed with
      | false => rfl
      | true => simp only [held]

end Calls

def Cut (part pre : List UInt8) : Prop := pre ≠ [] ∧ (pre = part ∨ ∃ rest, part = pre ++ slash :: rest)

def Added (w : World) (part : List UInt8) (l : Location Name) : Prop := ∃ pre, Cut part pre ∧ l = w.place pre

structure Later (part : List UInt8) (w w' : World) : Prop where
  cwd : w'.cwd = w.cwd
  grows : Grows (Added w part) w.tree w'.tree

section Worlds
variable {part : List UInt8} {w w' w'' : World}

theorem startSame (same : w'.cwd = w.cwd) (s : List UInt8) : w'.start s = w.start s := by
  rw [World.start, World.start, same]

theorem laterRefl (part : List UInt8) (w : World) : Later part w w := ⟨rfl,growsRefl _ _⟩

theorem laterTrans (first : Later part w w') (second : Later part w' w'') : Later part w w'' := by
  refine ⟨second.cwd.trans first.cwd,growsTrans first.grows (growsMono ?_ second.grows)⟩
  rintro l ⟨pre, cut, rfl⟩
  exact ⟨pre,cut,by rw [World.place, World.place, startSame first.cwd]⟩

theorem laterThere (later : Later part w w') {s : List UInt8} (there : w.stat s ≠ none) : w'.stat s ≠ none := by
  obtain ⟨n, here⟩ := Option.ne_none_iff_exists'.mp there
  rw [World.stat, startSame later.cwd, grownStat later.grows here]
  simp

theorem passesLater {s : List UInt8} (cut : Cut part s) (refusal : Option Nat) :
    Later part w (w.passes s refusal).2 ∧
    ((w.passes s refusal).1 = true → (w.passes s refusal).2.stat s ≠ none) := by
  have source := mkdirSource w.tree (w.start s) (steps s) refusal (w.startThere s)
  simp only [World.passes, World.mkdir, if_neg cut.1]
  refine ⟨⟨rfl,growsMono ?_ (mkdirGrows source)⟩,fun passed => mkdirPassed source (by simpa using passed)⟩
  rintro l rfl
  exact ⟨s,cut,rfl⟩

theorem passesAgain {s : List UInt8} (there : w.stat s ≠ none) (some_ : s ≠ []) (refusal : Option Nat) :
    w.passes s refusal = (true,w) := by
  simp only [World.passes, World.mkdir, if_neg some_, mkdirTaken w.tree _ _ refusal there]
  rfl

theorem makeCutsLater (env : Env) {done : List UInt8} (todo : List UInt8) (some_ : done ≠ []) (w : World) :
    Later (done ++ todo) w (makeCuts env w done todo).2 := by
  induction todo generalizing done w with
  | nil => exact laterRefl _ w
  | cons c todo ih =>
    have follow := fun w' => ih (show done ++ [c] ≠ [] by simp) w'
    simp only [List.append_assoc, List.cons_append, List.nil_append] at follow
    simp only [makeCuts]
    split
    · exact follow w
    · rename_i separator
      have cut : Cut (done ++ c :: todo) done := ⟨some_,.inr ⟨todo,by rw [not_not.mp separator]⟩⟩
      obtain ⟨later, _⟩ := passesLater (w := w) cut (env.refusal done.length)
      split
      · rename_i made
        rw [made] at later
        exact later
      · rename_i made
        rw [made] at later
        exact laterTrans later (follow _)

theorem makeCutsAgain {env : Env} (env' : Env) {done todo : List UInt8} (some_ : done ≠ []) {w w' : World}
    (passed : (makeCuts env w done todo).1 = true) (later : Later part (makeCuts env w done todo).2 w') :
    makeCuts env' w' done todo = (true,w') := by
  induction todo generalizing done w with
  | nil => rfl
  | cons c todo ih =>
    simp only [makeCuts] at passed later ⊢
    split
    · rename_i plain
      rw [if_pos plain] at passed later
      exact ih (by simp) passed later
    · rename_i separator
      rw [if_neg separator] at passed later
      obtain ⟨_, there⟩ := passesLater (w := w) ⟨some_,.inl rfl⟩ (env.refusal done.length)
      split at passed
      · contradiction
      · rename_i w₁ made
        rw [made] at there later
        have held := laterThere later (laterThere (makeCutsLater env todo (by simp) w₁) (there rfl))
        rw [passesAgain held some_]
        exact ih (by simp) passed later

theorem makeDirsLater (env : Env) (some_ : part ≠ []) (w : World) : Later part w (makeDirs env w part).2 := by
  have cuts := makeCutsLater env (part.drop 1) (show part.take 1 ≠ [] by simpa using some_) w
  rw [List.take_append_drop] at cuts
  unfold makeDirs
  split
  · rename_i w₁ made
    rw [made] at cuts
    exact cuts
  · rename_i w₁ made
    rw [made] at cuts
    exact laterTrans cuts (passesLater ⟨some_,.inl rfl⟩ _).1

theorem makeDirsPassed {env : Env} (passed : (makeDirs env w part).1 = true) :
    ∃ w₁, makeCuts env w (part.take 1) (part.drop 1) = (true,w₁) ∧
      makeDirs env w part = w₁.passes part (env.refusal part.length) := by
  unfold makeDirs at *
  split at passed
  · contradiction
  · rename_i w₁ made
    exact ⟨w₁,made,rfl⟩

theorem makeDirsMade {env : Env} (some_ : part ≠ []) (passed : (makeDirs env w part).1 = true) :
    ((makeDirs env w part).2.stat part = some .dir ↔
      ∀ content, w.tree.node (w.place part) ≠ some (.file content)) ∧
    ∀ env', makeDirs env' (makeDirs env w part).2 part = (true,(makeDirs env w part).2) := by
  have later := makeDirsLater env some_ w
  obtain ⟨w₁, cuts, made⟩ := makeDirsPassed passed
  obtain ⟨last, there⟩ := passesLater (w := w₁) ⟨some_,.inl rfl⟩ (env.refusal part.length)
  rw [made] at passed later ⊢
  have held := there passed
  generalize (w₁.passes part (env.refusal part.length)).2 = w' at *
  constructor
  · have found : w'.stat part = w'.tree.node (w.place part) := by
      rw [World.place, ← startSame later.cwd]
      exact statSource held
    have same := fun content => grownFile later.grows (w.place part) content
    simp only [ne_eq, ← same]
    rw [found] at held ⊢
    obtain ⟨n, here⟩ := Option.ne_none_iff_exists'.mp held
    rw [here]
    cases n <;> simp
  · intro env'
    have again : makeCuts env' w' (part.take 1) (part.drop 1) = (true,w') :=
      makeCutsAgain env' (by simpa using some_) (by rw [cuts]) (by rw [cuts]; exact last)
    simp only [makeDirs, again, passesAgain held some_]

end Worlds

def MayAdd (w : World) (path : CString) (l : Location Name) : Prop :=
  ∃ part, Parent path part ∧ Added w part l

theorem ensureGrows (w : World) (path : CString) (env : Env) :
    (vpipeEnsureParentDir w path env).2.cwd = w.cwd ∧
    Grows (MayAdd w path) w.tree (vpipeEnsureParentDir w path env).2.tree := by
  have same : (w.cwd = w.cwd) ∧ Grows (MayAdd w path) w.tree w.tree := ⟨rfl,growsRefl _ _⟩
  cases given : env.strdup with
  | false => simpa [vpipeEnsureParentDir, given] using same
  | true =>
    by_cases member : slash ∈ path.bytes
    · obtain ⟨part, parent⟩ := parentExists member
      rw [ensureMakes parent given]
      split
      · exact same
      · rename_i some_
        have later := makeDirsLater env some_ w
        have grows := growsMono (fun l added => (⟨part,parent,added⟩ : MayAdd w path l)) later.grows
        split <;> rename_i w₁ made <;> rw [made] at later grows <;> exact ⟨later.cwd,grows⟩
    · rw [ensureNone member given]
      exact same

/-- When the function reports success, the part of the path before its last slash names a
directory exactly if no other file was there before; whatever was there is unchanged, what came
are directories named by path prefixes of that part, and a second call finds nothing to do. -/
theorem parentEnsured {w w' : World} {path : CString} {env : Env}
    (done : vpipeEnsureParentDir w path env = (0,w')) :
    (∀ part, Parent path part → part ≠ [] → (w'.stat part = some .dir ↔
      ∀ content, w.tree.node (w.place part) ≠ some (.file content))) ∧
    (w'.cwd = w.cwd ∧ Grows (MayAdd w path) w.tree w'.tree) ∧
    ∀ env', env'.strdup = true → vpipeEnsureParentDir w' path env' = (0,w') := by
  have given : env.strdup = true := ensureGiven done
  have grows := ensureGrows w path env
  rw [done] at grows
  by_cases member : slash ∈ path.bytes
  · obtain ⟨part, parent⟩ := parentExists member
    rw [ensureMakes parent given] at done
    by_cases some_ : part = []
    · rw [if_pos some_] at done
      cases done
      refine ⟨fun part' parent' other => ?_,grows,fun env' given' => ?_⟩
      · exact absurd ((parentUnique parent' parent).trans some_) other
      · rw [ensureMakes parent given', if_pos some_]
    · rw [if_neg some_] at done
      split at done
      · cases done
      · rename_i w₁ made
        cases done
        obtain ⟨dir, again⟩ := makeDirsMade some_ (show (makeDirs env w part).1 = true by rw [made])
        rw [made] at dir again
        refine ⟨fun part' parent' _ => ?_,grows,fun env' given' => ?_⟩
        · rw [parentUnique parent' parent]
          exact dir
        · rw [ensureMakes parent given', if_neg some_, again env']
  · rw [ensureNone member given] at done
    cases done
    refine ⟨fun part parent _ => ?_,grows,fun env' given' => ensureNone member given' w⟩
    obtain ⟨file, bytes, _⟩ := parent
    exact absurd (by simp [bytes]) member

def bareWorld : World where
  tree := ⟨fun l => if l = [] then some .dir else none,rfl,fun _ _ there => absurd rfl there⟩
  cwd := []
  there := rfl

def nestedPath : CString := ⟨[0x78,0x2f,0x2f,0x79,0x2f,0x2e,0x2e,0x2f,0x7a],by decide⟩
def shortPath : CString := ⟨[0x61,0x2f,0x62],by decide⟩

theorem nestedParentEnsured : (vpipeEnsureParentDir bareWorld nestedPath {}).1 = 0 ∧
    (vpipeEnsureParentDir bareWorld nestedPath {}).2.stat [0x78,0x2f,0x2f,0x79,0x2f,0x2e,0x2e] = some .dir := by
  have done : (vpipeEnsureParentDir bareWorld nestedPath {}).1 = 0 := by decide
  have free : bareWorld.tree.node (bareWorld.place [0x78,0x2f,0x2f,0x79,0x2f,0x2e,0x2e]) = none := by decide
  refine ⟨done,((parentEnsured (Prod.ext done rfl)).1 _ ⟨[0x7a],by decide,by decide⟩ (by decide)).mpr ?_⟩
  simp [free]

def occupiedWorld : World where
  tree := bareWorld.tree.put (.file []) [[0x61]]
  cwd := []
  there := by decide

/- mkdir fails with EEXIST on the file, which counts as success. -/
theorem occupiedParentAccepted : (vpipeEnsureParentDir occupiedWorld shortPath {}).1 = 0 ∧
    Parent shortPath [0x61] ∧ (vpipeEnsureParentDir occupiedWorld shortPath {}).2.stat [0x61] =
      some (.file []) :=
  ⟨by decide,⟨[0x62],by decide,by decide⟩,by decide⟩

end Vpipe.ParentDir
