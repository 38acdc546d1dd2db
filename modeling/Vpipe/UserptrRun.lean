import Vpipe.Userptr

/-! The frames `vpipe-capture-userptr` takes, and its end: what one round does to the buffers, the
memory and the counts of faults, and from it what the whole run leaves. -/
namespace Vpipe.UserptrRun
open Vpipe.Lib.AddressSpace Vpipe.Lib.Outcome Vpipe.Userptr

section Frames

variable {env : Env} {cfg : Config} {start : Space} {length : Nat}

theorem dqbufEnds (env : Env) {r : Locals} (kept : Kept start r) (some_ : r.dev.held ≠ []) :
    Ends (dqbuf env r) (Left env start) (fun out => ∃ index region answer,
      index ∈ r.dev.held ∧ index < bufferCount ∧ r.dev.userptrs index = some region ∧
        r.buffers index = some region ∧
      env.camera r.dqbufs = some answer ∧ r.dev.held[answer.pick % r.dev.held.length]? = some index ∧
      out = (index,some region,answer,{r with
        dqbufs := r.dqbufs + 1, dev := {r.dev with held := r.dev.held.erase index}})) := by
  unfold dqbuf
  simp only
  cases answered : env.camera r.dqbufs with
  | none =>
    refine ⟨keptOf kept rfl,fun succeeds => ?_⟩
    obtain ⟨answer, found⟩ := succeeds.camera r.dqbufs
    rw [answered] at found
    contradiction
  | some answer =>
    have inside : answer.pick % r.dev.held.length < r.dev.held.length :=
      Nat.mod_lt _ (List.length_pos_iff.mpr some_)
    have found := List.getElem?_eq_getElem inside
    have member := List.mem_of_getElem? found
    obtain ⟨small, region, pin, at_⟩ := kept.slots _ member
    simp only [found, pin]
    exact ⟨_,region,answer,member,small,pin,at_,rfl,found,rfl⟩

theorem replaceEnds (positive : Succeeds env → 0 < length) {r : Locals} (kept : Kept start r) {index : Nat}
    {old : Region} (inside : index < bufferCount) (out : index ∉ r.dev.held)
    (found : r.buffers index = some old) :
    Ends (replaceBuffer env length index r) (Left env start) (fun r' => ∃ region space unmaps, region ≠ old ∧
      region.length = length ∧ Kept start r' ∧ r' = {r with
        mmaps := r.mmaps + 1, space := space, unmaps := unmaps
        buffers := Function.update r.buffers index (some region)}) := by
  have mapped := keptSub kept inside found
  simp only [replaceBuffer, found, Option.getD_some]
  rcases mmapEnds env length r with ⟨region, free, size, made⟩ | ⟨made, failed⟩
  · have fresh := Space.freeStart free mapped
    have still : old ∈ (r.space.map region free).regions := List.mem_cons_of_mem _ mapped
    have idle : r.dev.held.any (fun i => r.dev.userptrs i = some old) = false := by
      rw [List.any_eq_false]
      intro i member pin
      obtain ⟨small, p, pin', at_⟩ := kept.slots i member
      rw [pin', decide_eq_true_eq, Option.some.injEq] at pin
      exact out (buffersApart kept inside small found (pin ▸ at_) ▸ member)
    simp only [made, fresh, if_false, munmap, still, decide_true]
    refine ⟨region,_,_,fun same => fresh (same ▸ rfl),size,?_,rfl⟩
    constructor
    case regions =>
      have before := mappedSplit r.buffers inside
      rw [found] at before
      have after := mappedSplit (Function.update r.buffers index (some region)) inside
      rw [Function.update_self, otherUpdate] at after
      have grown := (kept.regions.trans (before.append_right _)).cons region
      have shrunk := grown.erase old
      have differ : region ≠ old := fun same => fresh (same ▸ rfl)
      have rest : ((region :: old :: (otherBuffers r.buffers index ++ start.regions)).erase old) =
          region :: (otherBuffers r.buffers index ++ start.regions) := by
        rw [List.erase_cons_tail (by simpa using differ), List.erase_cons_head]
      rw [Option.toList_some, List.singleton_append, List.cons_append, rest] at shrunk
      exact shrunk.trans (after.append_right _).symm
    case slots =>
      intro i member
      obtain ⟨small, p, pin, at_⟩ := kept.slots i member
      have differ : i ≠ index := fun same => out (same ▸ member)
      exact ⟨small,p,pin,(Function.update_of_ne differ _ _).trans at_⟩
    case distinct => exact kept.distinct
    case log =>
      intro u member
      rcases List.mem_append.mp member with before | last
      · exact kept.log u before
      · rw [List.mem_singleton.mp last, idle, Bool.and_false]
        exact ⟨rfl,rfl⟩
    case streaming => exact kept.streaming
    case opened => exact kept.opened
  · rw [made]
    exact ⟨keptOf kept rfl,failed positive⟩

/- getrusage answers; between its readings around a QBUF the process takes no faults but those of that
QBUF, and these are none for the memory the driver has pinned for the buffer and, for other memory, a
number that its length determines. -/
structure Counted (env : Env) (cost : Nat → Nat) : Prop where
  rusage : ∀ n, env.rusage n = true
  quiet : ∀ n, env.faults (2 * n + 1) = 0
  cached : ∀ n region, env.pinFaults n (some region) region = 0
  pinned : ∀ n old region, old ≠ some region → env.pinFaults n old region = cost region.length

def price (cfg : Config) (fresh : Nat) : Nat := if cfg.reset then fresh else 0

def Fifo (env : Env) : Prop := ∀ n answer, env.camera n = some answer → answer.pick = 0

def indices (rows : List CsvRow) : List Nat := rows.map CsvRow.bufferIndex

def QueuedAt (env : Env) (rows : List CsvRow) (index time : Nat) : Prop :=
  (index ∉ indices rows ∧ time = env.clock index) ∨
  ∃ j row, rows[j]? = some row ∧ row.bufferIndex = index ∧ index ∉ indices (rows.drop (j + 1)) ∧
    time = env.clock (bufferCount + 2 * j + 1)

structure Transit (env : Env) (before : List CsvRow) (row : CsvRow) : Prop where
  frame : row.frame = before.length
  index : row.bufferIndex < bufferCount
  enqueue : QueuedAt env before row.bufferIndex row.enqueueNs
  dequeue : row.dequeueNs = env.clock (bufferCount + 2 * before.length)
  answer : ∃ answer, env.camera before.length = some answer ∧
    (row.sec,row.usec,row.sequence,row.bytesused) = (answer.sec,answer.usec,answer.sequence,answer.bytesused)

def Charged (rows : List CsvRow) (price : Int) : Prop :=
  ∀ i row, rows[i]? = some row →
    row.minorFaultsDelta = if row.bufferIndex ∈ indices (rows.take i) then price else 0

structure Going (env : Env) (cfg : Config) (start : Space) (length n : Nat) (r : Locals) : Prop where
  kept : Kept start r
  full : r.dev.held.Perm (List.range bufferCount)
  some_ : ∀ i, i < bufferCount → ∃ region, r.buffers i = some region ∧ region.length = length
  rows : r.rows.length = n
  renewed : r.renewed = bufferCount + if cfg.reset then n else 0
  dqbufs : r.dqbufs = n
  readings : r.readings = bufferCount + 2 * n
  usages : r.usages = 2 * n
  queuedAt : ∀ i, i < bufferCount → QueuedAt env r.rows i (r.queuedAt i)
  each : ∀ i row, r.rows[i]? = some row → Transit env (r.rows.take i) row
  minflt : ∀ cost, Counted env cost → ∀ i, i < bufferCount →
    r.qbufMinflt i = if i ∈ indices r.rows then (price cfg (cost length) : Int) else 0
  charged : ∀ cost, Counted env cost → Charged r.rows (price cfg (cost length))
  fifo : Fifo env → r.dev.held = (List.range bufferCount).map (fun j => (n + j) % bufferCount) ∧
    ∀ i row, r.rows[i]? = some row → row.bufferIndex = i % bufferCount

theorem resetEnds (positive : Succeeds env → 0 < length) {r : Locals} (kept : Kept start r) {index : Nat}
    {old : Region} (inside : index < bufferCount) (out : index ∉ r.dev.held)
    (found : r.buffers index = some old)
    (size : old.length = length) :
    Ends (resetBuffer env cfg length index r) (Left env start) (fun r' =>
      ∃ region mmaps space unmaps, region.length = length ∧ (old = region ↔ cfg.reset = false) ∧ Kept start r' ∧
        r' = {r with
          mmaps := mmaps, space := space, unmaps := unmaps
          buffers := Function.update r.buffers index (some region)}) := by
  unfold resetBuffer
  cases cfg.reset with
  | true =>
    refine endsImp (replaceEnds positive kept inside out found) ?_
    rintro r' ⟨region, space, unmaps, differ, size', kept', made⟩
    exact ⟨region,_,space,unmaps,size',by simp [Ne.symm differ],kept',made⟩
  | false =>
    have same : Function.update r.buffers index (some old) = r.buffers := by
      rw [← found, Function.update_eq_self]
    exact ⟨old,r.mmaps,r.space,r.unmaps,size,by simp,kept,by rw [same]⟩

theorem rowsSnoc (P : List CsvRow → Nat → CsvRow → Prop) {rows : List CsvRow}
    (each : ∀ i row, rows[i]? = some row → P (rows.take i) i row) {row : CsvRow}
    (last : P rows rows.length row) :
    ∀ i other, (rows ++ [row])[i]? = some other → P ((rows ++ [row]).take i) i other := by
  intro i other found
  rcases Nat.lt_or_ge i rows.length with old | new
  · rw [List.take_append_of_le_length (Nat.le_of_lt old)]
    exact each i other (List.getElem?_append_left old ▸ found)
  · rw [List.getElem?_append_right new] at found
    obtain ⟨inside, same⟩ := List.getElem?_eq_some_iff.mp found
    rw [List.length_singleton] at inside
    have end_ : i = rows.length := by omega
    have this_ : row = other := by simpa using same
    rw [end_, List.take_left, ← this_]
    exact last

theorem indicesSnoc {rows : List CsvRow} {row : CsvRow} {i : Nat} :
    i ∈ indices (rows ++ [row]) ↔ i ∈ indices rows ∨ i = row.bufferIndex := by
  rw [indices, List.map_append, List.mem_append, List.map_singleton, List.mem_singleton, indices]

theorem queuedAtOther {rows : List CsvRow} {row : CsvRow} {index time : Nat}
    (queued : QueuedAt env rows index time) (differ : index ≠ row.bufferIndex) :
    QueuedAt env (rows ++ [row]) index time := by
  have absent : ∀ others, index ∉ indices others → index ∉ indices (others ++ [row]) :=
    fun others out there => (indicesSnoc.mp there).elim out differ
  rcases queued with ⟨out, at_⟩ | ⟨j, other, found, named, out, at_⟩
  · exact .inl ⟨absent rows out,at_⟩
  · have inside := (List.getElem?_eq_some_iff.mp found).1
    refine .inr ⟨j,other,?_,named,?_,at_⟩
    · rw [List.getElem?_append_left inside, found]
    · rw [List.drop_append_of_le_length inside]
      exact absent _ out

theorem queuedAtThis {rows : List CsvRow} {row : CsvRow} :
    QueuedAt env (rows ++ [row]) row.bufferIndex (env.clock (bufferCount + 2 * rows.length + 1)) := by
  refine .inr ⟨rows.length,row,List.getElem?_concat_length,rfl,?_,rfl⟩
  have none_ : (rows ++ [row]).drop (rows.length + 1) = [] := List.drop_eq_nil_of_le (by simp)
  rw [none_]
  exact List.not_mem_nil

theorem turnHead (n : Nat) : (List.range bufferCount).map (fun j => (n + j) % bufferCount) =
    n % bufferCount :: (List.range (bufferCount - 1)).map (fun j => (n + 1 + j) % bufferCount) := rfl

theorem turnLast (n : Nat) : (List.range bufferCount).map (fun j => (n + 1 + j) % bufferCount) =
    (List.range (bufferCount - 1)).map (fun j => (n + 1 + j) % bufferCount) ++ [n % bufferCount] := by
  have around : (n + 1 + (bufferCount - 1)) % bufferCount = n % bufferCount := Nat.add_mod_right n bufferCount
  rw [← around]
  rfl

structure Passed (env : Env) (cfg : Config) (start : Space) (length n : Nat) (r : Locals) (row : CsvRow)
    (r' : Locals) : Prop where
  kept : Kept start r'
  held : r'.dev.held = r.dev.held.erase row.bufferIndex ++ [row.bufferIndex]
  buffers : ∃ region, region.length = length ∧
    r'.buffers = Function.update r.buffers row.bufferIndex (some region)
  rows : r'.rows = r.rows ++ [row]
  dqbufs : r'.dqbufs = r.dqbufs + 1
  readings : r'.readings = r.readings + 2
  usages : r'.usages = r.usages + 2
  renewed : r'.renewed = r.renewed + if cfg.reset then 1 else 0
  queuedAt : r'.queuedAt = Function.update r.queuedAt row.bufferIndex (env.clock (r.readings + 1))
  minflt : ∀ cost, Counted env cost → r.usages = 2 * n →
    r'.qbufMinflt = Function.update r.qbufMinflt row.bufferIndex (price cfg (cost length))

theorem pinFaultsPrice {cost : Nat → Nat} (counted : Counted env cost) {old region : Region}
    (size : region.length = length) (same : old = region ↔ cfg.reset = false) (n : Nat) :
    env.pinFaults n (some old) region = price cfg (cost length) := by
  unfold price
  cases reset : cfg.reset with
  | true =>
    have differ : some old ≠ some region := by
      rw [ne_eq, Option.some.injEq, same, reset]
      exact Bool.noConfusion
    rw [counted.pinned n _ _ differ, size]
    rfl
  | false =>
    rw [same.mpr reset, counted.cached]
    rfl

structure Requeued (env : Env) (cfg : Config) (start : Space) (length : Nat) (r : Locals) (index : Nat)
    (r' : Locals) : Prop where
  kept : Kept start r'
  held : r'.dev.held = r.dev.held ++ [index]
  buffers : r'.buffers = r.buffers
  rows : r'.rows = r.rows
  dqbufs : r'.dqbufs = r.dqbufs
  readings : r'.readings = r.readings + 1
  usages : r'.usages = r.usages + 2
  renewed : r'.renewed = r.renewed + if cfg.reset then 1 else 0
  queuedAt : r'.queuedAt = Function.update r.queuedAt index (env.clock r.readings)
  minflt : ∀ cost, Counted env cost → ∀ n, r.usages = 2 * n →
    r'.qbufMinflt = Function.update r.qbufMinflt index (price cfg (cost length))

theorem countedDelta {cost : Nat → Nat} (counted : Counted env cost) {before pages usages n : Nat}
    (even : usages = 2 * n) :
    (if (if env.rusage usages then (before : Int) else -1) < 0 ∨
        (if env.rusage (usages + 1) then ((before + pages + env.faults (usages + 1) : Nat) : Int) else -1) < 0
      then -1
      else (if env.rusage (usages + 1) then ((before + pages + env.faults (usages + 1) : Nat) : Int) else -1) -
        (if env.rusage usages then (before : Int) else -1)) = (pages : Int) := by
  rw [counted.rusage, counted.rusage, even, counted.quiet]
  simp only [if_true, Nat.add_zero]
  split <;> omega

theorem requeueEnds {r : Locals} (kept : Kept start r) {index : Nat} {old region : Region}
    (inside : index < bufferCount) (out : index ∉ r.dev.held) (found : r.buffers index = some region)
    (pin : r.dev.userptrs index = some old) (size : region.length = length)
    (same : old = region ↔ cfg.reset = false) :
    Ends (requeueBuffer env index r) (Left env start) (Requeued env cfg start length r index) := by
  have noted : Kept start (minorFaultsNow env r).2 := keptOf kept rfl
  rw [requeueBuffer]
  refine endsBind (queueEnds noted inside out found) ?_
  rintro r' ⟨kept', made⟩
  subst made
  constructor
  case kept => exact keptOf kept' rfl
  case renewed =>
    have still : r.dev.userptrs index = some region ↔ cfg.reset = false := by rw [pin, Option.some.injEq, same]
    show r.renewed + (if r.dev.userptrs index = some region then 0 else 1) = _
    simp only [still]
    cases cfg.reset <;> rfl
  case minflt =>
    intro cost counted n even
    have faults := pinFaultsPrice counted size same r.qbufs
    rw [← pin] at faults
    exact congrArg (Function.update r.qbufMinflt index) ((countedDelta counted even).trans (congrArg _ faults))
  all_goals rfl

def dequeued (r : Locals) (row : CsvRow) : Locals := {r with
  dqbufs := r.dqbufs + 1, dev := {r.dev with held := r.dev.held.erase row.bufferIndex}
  readings := r.readings + 1, rows := r.rows ++ [row]}

theorem keptDequeued {r : Locals} (kept : Kept start r) (row : CsvRow) : Kept start (dequeued r row) where
  regions := kept.regions
  slots := fun i member => kept.slots i (List.mem_of_mem_erase member)
  distinct := kept.distinct.erase row.bufferIndex
  log := kept.log
  streaming := kept.streaming
  opened := kept.opened

def rowOf (env : Env) (r : Locals) (n index : Nat) (answer : Answer) : CsvRow :=
  ⟨n,index,r.queuedAt index,env.clock r.readings,answer.sec,answer.usec,answer.sequence,answer.bytesused,
    r.qbufMinflt index⟩

theorem passes (positive : Succeeds env → 0 < length) {r : Locals} {n : Nat} (kept : Kept start r)
    (some_ : r.dev.held ≠ [])
    (sizes : ∀ i region, i < bufferCount → r.buffers i = some region → region.length = length) :
    Ends (frameRound env cfg length n r) (Left env start) (fun r' => ∃ index answer, index ∈ r.dev.held ∧
      index < bufferCount ∧ env.camera r.dqbufs = some answer ∧
      r.dev.held[answer.pick % r.dev.held.length]? = some index ∧
      Passed env cfg start length n r (rowOf env r n index answer) r') := by
  rw [frameRound]
  refine endsBind (dqbufEnds env kept some_) ?_
  rintro _ ⟨index, old, answer, member, inside, pin, found, answered, picked, rfl⟩
  simp only [ge_iff_le, Nat.not_le.mpr inside, if_false, found, ne_eq, not_true_eq_false,
    Tools.vpipeNowMonotonicNs]
  have out : index ∉ r.dev.held.erase index := kept.distinct.not_mem_erase
  -- the buffer is out of the driver's hands until the QBUF: its region may be exchanged
  have kept1 := keptDequeued kept (rowOf env r n index answer)
  refine endsBind (resetEnds positive kept1 inside out found (sizes index old inside found)) ?_
  rintro _ ⟨region, mmaps, space, unmaps, size, same, kept2, rfl⟩
  have pinned : (dequeued r (rowOf env r n index answer)).dev.userptrs index = some old := pin
  refine endsImp (requeueEnds kept2 inside out (Function.update_self _ _ _) pinned size same) ?_
  intro r' requeued
  refine ⟨index,answer,member,inside,answered,picked,?_⟩
  exact ⟨requeued.kept,requeued.held,⟨region,size,requeued.buffers⟩,requeued.rows,requeued.dqbufs,
    requeued.readings,requeued.usages,requeued.renewed,requeued.queuedAt,fun cost counted even =>
      requeued.minflt cost counted n even⟩

theorem turnPasses {r : Locals} {n index pick : Nat}
    (turn : r.dev.held = (List.range bufferCount).map (fun j => (n + j) % bufferCount)) (first : pick = 0)
    (picked : r.dev.held[pick % r.dev.held.length]? = some index) :
    index = n % bufferCount ∧
      r.dev.held.erase index ++ [index] = (List.range bufferCount).map
        (fun j => (n + 1 + j) % bufferCount) := by
  rw [first, Nat.zero_mod, turn, turnHead, List.getElem?_cons_zero, Option.some.injEq] at picked
  refine ⟨picked.symm,?_⟩
  rw [turn, turnHead, picked, List.erase_cons_head, turnLast, picked]

theorem passedGoing {r r' : Locals} {n index : Nat} {answer : Answer} (going : Going env cfg start length n r)
    (member : index ∈ r.dev.held) (inside : index < bufferCount) (answered : env.camera r.dqbufs = some answer)
    (picked : r.dev.held[answer.pick % r.dev.held.length]? = some index)
    (passed : Passed env cfg start length n r (rowOf env r n index answer) r') :
    Going env cfg start length (n + 1) r' := by
  obtain ⟨region, size, buffers⟩ := passed.buffers
  constructor
  case kept => exact passed.kept
  case full =>
    rw [passed.held]
    exact (List.perm_append_comm.trans (List.perm_cons_erase member).symm).trans going.full
  case some_ =>
    intro i small
    rw [buffers]
    rcases eq_or_ne i index with rfl | differ
    · exact ⟨region,Function.update_self _ _ _,size⟩
    · obtain ⟨p, found, same⟩ := going.some_ i small
      exact ⟨p,(Function.update_of_ne differ _ _).trans found,same⟩
  case rows => rw [passed.rows, List.length_append, going.rows, List.length_singleton]
  case renewed =>
    rw [passed.renewed, going.renewed, Nat.add_assoc]
    cases cfg.reset <;> rfl
  case dqbufs => rw [passed.dqbufs, going.dqbufs]
  case readings =>
    rw [passed.readings, going.readings]
    omega
  case usages =>
    rw [passed.usages, going.usages]
    omega
  case queuedAt =>
    intro i small
    have named : (rowOf env r n index answer).bufferIndex = index := rfl
    rw [passed.queuedAt, passed.rows, named]
    rcases eq_or_ne i index with rfl | differ
    · have now : r.readings + 1 = bufferCount + 2 * r.rows.length + 1 := by rw [going.readings, going.rows]
      rw [now, Function.update_self]
      exact queuedAtThis
    · rw [Function.update_of_ne differ]
      exact queuedAtOther (going.queuedAt i small) differ
  case each =>
    rw [passed.rows]
    refine rowsSnoc (fun before _ row => Transit env before row) going.each
      ⟨going.rows.symm,inside,going.queuedAt index inside,?_,answer,?_,rfl⟩
    · exact congrArg env.clock (by rw [going.readings, going.rows])
    · rw [going.rows, ← going.dqbufs]
      exact answered
  case minflt =>
    intro cost counted i small
    rw [passed.minflt cost counted going.usages, passed.rows]
    rcases eq_or_ne i index with rfl | differ
    · have there : i ∈ indices (r.rows ++ [rowOf env r n i answer]) := indicesSnoc.mpr (.inr rfl)
      rw [if_pos there]
      exact Function.update_self _ _ _
    · refine (Function.update_of_ne differ _ _).trans
        ((going.minflt cost counted i small).trans (if_congr ?_ rfl rfl))
      exact ⟨fun old => indicesSnoc.mpr (.inl old),fun there => (indicesSnoc.mp there).resolve_right differ⟩
  case charged =>
    intro cost counted
    rw [passed.rows]
    exact rowsSnoc (fun before _ row => row.minorFaultsDelta =
      if row.bufferIndex ∈ indices before then (price cfg (cost length) : Int) else 0)
        (going.charged cost counted)
      (going.minflt cost counted index inside)
  case fifo =>
    intro fifo
    obtain ⟨turn, named⟩ := going.fifo fifo
    obtain ⟨this_, next⟩ := turnPasses turn (fifo _ _ answered) picked
    rw [passed.held, passed.rows]
    exact ⟨next,rowsSnoc (fun _ i row => row.bufferIndex = i % bufferCount) named (going.rows ▸ this_)⟩

theorem roundEnds (positive : Succeeds env → 0 < length) {r : Locals} {n : Nat}
    (going : Going env cfg start length n r) :
    Ends (frameRound env cfg length n r) (Left env start) (Going env cfg start length (n + 1)) := by
  have some_ : r.dev.held ≠ [] := by
    intro none_
    have full := going.full.length_eq
    rw [none_] at full
    contradiction
  have sizes : ∀ i region, i < bufferCount → r.buffers i = some region → region.length = length := by
    intro i region small found
    obtain ⟨p, there, size⟩ := going.some_ i small
    rw [found, Option.some.injEq] at there
    exact there ▸ size
  refine endsImp (passes positive going.kept some_ sizes) ?_
  rintro r' ⟨index, answer, member, inside, answered, picked, passed⟩
  exact passedGoing going member inside answered picked passed

theorem loopEnds (positive : Succeeds env → 0 < length) {r : Locals} (going : Going env cfg start length 0 r)
    (n : Nat) :
    Ends (frameLoop env cfg length n r) (Left env start) (Going env cfg start length n) := by
  induction n with
  | zero => exact going
  | succ n ih =>
    rw [frameLoop]
    exact endsBind ih (fun r' going' => roundEnds positive going')

end Frames

section Main

variable {env : Env} {cfg : Config} {start : Space}

def bufferLength (env : Env) : Nat := alignedLen env.sizeimage (pageSizeOf env)

theorem alignedLenPages {s k : Nat} (small : s < 2^32) (page : k < 32) :
    alignedLen s (2^k) = (s + 2^k - 1) / 2^k * 2^k := by
  have positive := Nat.two_pow_pos k
  have bound : 2^k < 2^32 := Nat.pow_lt_pow_right (by decide) page
  have below : s + 2^k - 1 < 2^64 := by omega
  rw [alignedLen, ← Nat.shiftRight_eq_div_pow, ← Nat.shiftLeft_eq]
  refine Nat.eq_of_testBit_eq (fun i => ?_)
  have mask : 2^64 - 2^k = 2^64 - ((2^k - 1) + 1) := by omega
  rw [Nat.testBit_and, mask, Nat.testBit_two_pow_sub_succ (by omega), Nat.testBit_two_pow_sub_one,
    Nat.testBit_shiftLeft, Nat.testBit_shiftRight]
  rcases Nat.lt_or_ge i 64 with inside | outside
  · rcases Nat.lt_or_ge i k with low | high
    · simp [low, Nat.not_le.mpr low]
    · simp [inside, high, Nat.not_lt.mpr high]
  · have zero : (s + 2^k - 1).testBit i = false :=
      Nat.testBit_lt_two_pow (Nat.lt_of_lt_of_le below (Nat.pow_le_pow_right (by decide) outside))
    have high : k ≤ i := by omega
    simp [zero, high]

def pages (env : Env) : Nat := (env.sizeimage + pageSizeOf env - 1) / pageSizeOf env

theorem lengthPages (succeeds : Succeeds env) :
    bufferLength env = pages env * pageSizeOf env ∧ 0 < pageSizeOf env ∧ 0 < pages env := by
  obtain ⟨k, small, page⟩ := succeeds.page
  have positive : 0 < pageSizeOf env := page ▸ Nat.two_pow_pos k
  refine ⟨?_,positive,Nat.div_pos ?_ positive⟩
  · rw [bufferLength, pages, page]
    exact alignedLenPages env.sizeimageRange small
  · have some_ := succeeds.sizeimage
    omega

theorem lengthPositive (succeeds : Succeeds env) : 0 < bufferLength env := by
  obtain ⟨whole, page, some_⟩ := lengthPages succeeds
  rw [whole]
  exact Nat.mul_pos some_ page

theorem checkEnds {r : Locals} (kept : Kept start r) {ok : Bool} (holds : Succeeds env → ok = true) :
    Ends (check ok r) (Left env start) (fun _ => True) := by
  cases ok with
  | true => trivial
  | false => exact ⟨kept,fun succeeds => Bool.noConfusion (holds succeeds)⟩

theorem linedGoing {length : Nat} {r : Locals} (lined : Lined env start length bufferCount r) :
    Going env cfg start length 0 {r with streaming := true, dev := {r.dev with streaming := true}} := by
  have kept := lined.kept
  constructor
  case kept => exact ⟨kept.regions,kept.slots,kept.distinct,kept.log,rfl,fun _ => lined.fd⟩
  case full => exact .of_eq lined.held
  case some_ => exact lined.some_
  case rows => exact congrArg List.length lined.rows
  case renewed =>
    refine lined.renewed.trans ?_
    cases cfg.reset <;> rfl
  case dqbufs => exact lined.dqbufs
  case readings => exact lined.readings
  case usages => exact lined.usages
  case queuedAt =>
    intro i small
    refine .inl ⟨?_,lined.queuedAt i small⟩
    rw [show indices r.rows = [] from congrArg indices lined.rows]
    exact List.not_mem_nil
  case each =>
    intro i row found
    rw [show r.rows = [] from lined.rows] at found
    contradiction
  case minflt =>
    intro _ _ i _
    have none_ : i ∉ indices r.rows := by
      rw [lined.rows]
      exact List.not_mem_nil
    exact (lined.minflt i).trans (if_neg none_).symm
  case charged =>
    intro _ _ i row found
    rw [show r.rows = [] from lined.rows] at found
    contradiction
  case fifo =>
    intro _
    refine ⟨lined.held,fun i row found => ?_⟩
    rw [show r.rows = [] from lined.rows] at found
    contradiction

theorem bodyEnds (env : Env) (cfg : Config) (start : Space) :
    Ends (body env cfg start) (Left env start) (Going env cfg start (bufferLength env) cfg.frames) := by
  have fresh (fd : Bool) : Kept start {space := start, fd := fd} :=
    ⟨.refl _,fun i member => absurd member List.not_mem_nil,List.nodup_nil,
      fun u member => absurd member List.not_mem_nil,rfl,fun on => Bool.noConfusion on⟩
  have opened : Mapping start (bufferLength env) 0 {space := start, fd := true} :=
    ⟨fresh true,rfl,rfl,rfl,rfl,rfl,rfl,rfl,rfl,fun _ => rfl,fun i below => absurd below (Nat.not_lt_zero i),
      fun _ _ => rfl⟩
  rw [body]
  refine endsBind (checkEnds (fresh false) Succeeds.opened) (fun _ _ => ?_)
  refine endsBind (checkEnds (fresh true) Succeeds.formatted) (fun _ _ => ?_)
  refine endsBind (checkEnds (fresh true) (fun succeeds => decide_eq_true succeeds.sizeimage)) (fun _ _ => ?_)
  refine endsBind (checkEnds (fresh true) (fun succeeds => decide_eq_true succeeds.fits)) (fun _ _ => ?_)
  refine endsBind (mapEnds lengthPositive opened (Nat.le_refl _)) (fun r mapping => ?_)
  refine endsBind (checkEnds mapping.kept (fun succeeds => ?_)) (fun _ _ => ?_)
  · obtain ⟨count, requested, enough⟩ := succeeds.requested
    rw [requested]
    exact decide_eq_true enough
  refine endsBind (checkEnds mapping.kept Succeeds.csv) (fun _ _ => ?_)
  refine endsBind (lineEnds mapping (Nat.le_refl _)) (fun r' lined => ?_)
  refine endsBind (checkEnds lined.kept Succeeds.streamed) (fun _ _ => ?_)
  exact loopEnds lengthPositive (linedGoing lined) cfg.frames

structure Unmapping (start : Space) (r : Locals) (n : Nat) (r' : Locals) : Prop where
  regions : r'.space.regions.Perm (((List.range bufferCount).drop n).filterMap r.buffers ++ start.regions)
  buffers : r'.buffers = r.buffers
  rows : r'.rows = r.rows
  renewed : r'.renewed = r.renewed
  idle : r'.dev.streaming = false
  log : ∀ u ∈ r'.unmaps, u.mapped = true ∧ u.busy = false

theorem unmaps {r : Locals} (regions : r.space.regions.Perm (mappedBuffers r.buffers ++ start.regions))
    (log : ∀ u ∈ r.unmaps, u.mapped = true ∧ u.busy = false) (idle : r.dev.streaming = false) {n : Nat}
    (within : n ≤ bufferCount) : Unmapping start r n (unmapBuffers n r) := by
  induction n with
  | zero => exact ⟨regions,rfl,rfl,rfl,idle,log⟩
  | succ n ih =>
    have before := ih (by omega)
    have inside : n < (List.range bufferCount).length := by
      rw [List.length_range]
      omega
    have regions := before.regions
    rw [List.drop_eq_getElem_cons inside, List.getElem_range] at regions
    rw [unmapBuffers]
    simp only [before.buffers]
    cases found : r.buffers n with
    | none =>
      rw [List.filterMap_cons_none found] at regions
      exact {before with regions := regions}
    | some p =>
      rw [List.filterMap_cons_some found, List.cons_append] at regions
      have mapped : p ∈ (unmapBuffers n r).space.regions := regions.mem_iff.mpr List.mem_cons_self
      refine ⟨?_,before.buffers,before.rows,before.renewed,before.idle,?_⟩
      · have shrunk := regions.erase p
        rw [List.erase_cons_head] at shrunk
        exact shrunk
      · intro u member
        rcases List.mem_append.mp member with old | last
        · exact before.log u old
        · rw [List.mem_singleton.mp last, before.idle, Bool.false_and]
          exact ⟨decide_eq_true mapped,rfl⟩

theorem cleanupReturns {r : Locals} (kept : Kept start r) :
    (cleanup r).space.regions.Perm start.regions ∧ (cleanup r).rows = r.rows ∧ (cleanup r).renewed = r.renewed ∧
      ∀ u ∈ (cleanup r).unmaps, u.mapped = true ∧ u.busy = false := by
  have all : ((List.range bufferCount).drop bufferCount).filterMap r.buffers ++ start.regions = start.regions :=
    rfl
  unfold cleanup
  split
  case isTrue =>
    have done := unmaps (r := {r with dev := {r.dev with held := [], streaming := false}})
      kept.regions kept.log rfl (Nat.le_refl _)
    exact ⟨all ▸ done.regions,done.rows,done.renewed,done.log⟩
  case isFalse on =>
    have idle : r.dev.streaming = false := by
      rw [kept.streaming, ← Bool.not_eq_true]
      exact fun streaming => on ⟨kept.opened streaming,streaming⟩
    have done := unmaps kept.regions kept.log idle (Nat.le_refl _)
    exact ⟨all ▸ done.regions,done.rows,done.renewed,done.log⟩

end Main

end Vpipe.UserptrRun
