import Vpipe.Lib.AddressSpace
import Vpipe.Lib.Outcome
import Vpipe.Lib.Word
import Vpipe.Tools

/-! `vpipe-capture-userptr`: capturing into anonymous memory of the tool, over the address space of
the process and a capture queue that remembers the address last queued for each buffer. What pinning
that memory costs is the environment's. The model of `main`, then what its calls and its setup keep. -/
namespace Vpipe.Userptr
open Vpipe.Lib.AddressSpace Vpipe.Lib.Outcome
open Vpipe.Tools (vpipeNowMonotonicNs)

def bufferCount : Nat := 4

structure Config where
  frames : Nat
  reset : Bool
  framesRange : 1 ≤ frames ∧ frames < 2^32

structure Answer where
  pick : Nat
  sec : Int
  usec : Int
  sequence : Nat
  bytesused : Nat

/- The outcomes of the calls, the n-th of a kind. `place` is where the kernel would map a region,
given those there are; sysconf fails with a page size of 0. `pinFaults` are the page faults a QBUF
takes, from the memory last queued for its buffer and the memory it names. -/
structure Env where
  opened : Bool := true
  formatted : Bool := true
  sizeimage : Nat
  sizeimageRange : sizeimage < 2^32
  pageSize : Nat := 4096
  place : Nat → List Region → Nat → Option Nat
  requested : Option Nat := some bufferCount
  csv : Bool := true
  queued : Nat → Bool := fun _ => true
  streamed : Bool := true
  camera : Nat → Option Answer
  clock : Nat → Nat
  rusage : Nat → Bool := fun _ => true
  faults : Nat → Nat := fun _ => 0
  pinFaults : Nat → Option Region → Region → Nat

structure CsvRow where
  frame : Nat
  bufferIndex : Nat
  enqueueNs : Nat
  dequeueNs : Nat
  sec : Int
  usec : Int
  sequence : Nat
  bytesused : Nat
  minorFaultsDelta : Int

structure Device where
  held : List Nat := []
  userptrs : Nat → Option Region := fun _ => none
  streaming : Bool := false

structure Unmap where
  region : Region
  mapped : Bool
  busy : Bool

/- `buffers` stands for both arrays, buffers and lengths; `renewed` counts the QBUFs that name other
memory than the last one of their buffer. -/
structure Locals where
  space : Space
  dev : Device := {}
  fd : Bool := false
  buffers : Nat → Option Region := fun _ => none
  queuedAt : Nat → Nat := fun _ => 0
  qbufMinflt : Nat → Int := fun _ => 0
  streaming : Bool := false
  rows : List CsvRow := []
  mmaps : Nat := 0
  qbufs : Nat := 0
  dqbufs : Nat := 0
  readings : Nat := 0
  usages : Nat := 0
  minflt : Nat := 0
  renewed : Nat := 0
  unmaps : List Unmap := []

inductive Stop where
  | cleanup (r : Locals)
  | blocked

def pageSizeOf (env : Env) : Nat := if env.pageSize = 0 then 4096 else env.pageSize

def mmap (env : Env) (length : Nat) (r : Locals) : Option Region × Locals :=
  let r' := {r with mmaps := r.mmaps + 1}
  match env.place r.mmaps r.space.regions length with
  | none => (none,r')
  | some start =>
    if free : r.space.Free ⟨start,length⟩ then
      (some ⟨start,length⟩,{r' with space := r.space.map ⟨start,length⟩ free})
    else (none,r')

def munmap (region : Region) (r : Locals) : Bool × Locals :=
  let mapped : Bool := region ∈ r.space.regions
  let busy := r.dev.streaming && r.dev.held.any (fun i => r.dev.userptrs i = some region)
  (mapped,{r with space := r.space.unmap region, unmaps := r.unmaps ++ [⟨region,mapped,busy⟩]})

def minorFaultsNow (env : Env) (r : Locals) : Int × Locals :=
  let minflt := r.minflt + env.faults r.usages
  (if env.rusage r.usages then minflt else -1,{r with usages := r.usages + 1, minflt := minflt})

def afterQbuf (env : Env) (index : Nat) (region : Region) (r : Locals) : Locals := {r with
  qbufs := r.qbufs + 1
  dev := {r.dev with
    held := r.dev.held ++ [index], userptrs := Function.update r.dev.userptrs index (some region)}
  minflt := r.minflt + env.pinFaults r.qbufs (r.dev.userptrs index) region
  renewed := r.renewed + if r.dev.userptrs index = some region then 0 else 1}

def qbuf (env : Env) (index : Nat) (region : Region) (r : Locals) : Except Stop Locals :=
  if env.queued r.qbufs = false ∨ index ∈ r.dev.held ∨ region ∉ r.space.regions then
    .error (.cleanup {r with qbufs := r.qbufs + 1})
  else .ok (afterQbuf env index region r)

def dqbuf (env : Env) (r : Locals) : Except Stop (Nat × Option Region × Answer × Locals) :=
  let r' := {r with dqbufs := r.dqbufs + 1}
  match env.camera r.dqbufs with
  | none => .error (.cleanup r')
  | some answer =>
    match r.dev.held[answer.pick % r.dev.held.length]? with
    | none => .error .blocked
    | some index =>
      .ok (index,r.dev.userptrs index,answer,{r' with dev := {r.dev with held := r.dev.held.erase index}})

def check (ok : Bool) (r : Locals) : Except Stop Unit := if ok then .ok () else .error (.cleanup r)

def alignedLen (sizeimage pageSize : Nat) : Nat := (sizeimage + pageSize - 1) &&& (2^64 - pageSize)

def mapBuffers (env : Env) (length : Nat) : Nat → Locals → Except Stop Locals
  | 0, r => .ok r
  | n+1, r => do
    let r ← mapBuffers env length n r
    match mmap env length r with
    | (none,r) => .error (.cleanup r)
    | (some p,r) => .ok {r with buffers := Function.update r.buffers n (some p)}

def queueBuffer (env : Env) (index : Nat) (r : Locals) : Except Stop Locals :=
  let (now,readings) := vpipeNowMonotonicNs env.clock r.readings
  let r := {r with readings := readings, queuedAt := Function.update r.queuedAt index now}
  qbuf env index ((r.buffers index).getD ⟨0,0⟩) r

def queueBuffers (env : Env) : Nat → Locals → Except Stop Locals
  | 0, r => .ok r
  | n+1, r => do
    let r ← queueBuffers env n r
    let r ← queueBuffer env n r
    .ok {r with qbufMinflt := Function.update r.qbufMinflt n 0}

def replaceBuffer (env : Env) (length index : Nat) (r : Locals) : Except Stop Locals :=
  let old := (r.buffers index).getD ⟨0,0⟩
  match mmap env length r with
  | (none,r) => .error (.cleanup r)
  | (some fresh,r) =>
    if fresh.start = old.start then .error (.cleanup (munmap fresh r).2)
    else
      let r := {r with buffers := Function.update r.buffers index (some fresh)}
      match munmap old r with
      | (false,r) => .error (.cleanup r)
      | (true,r) => .ok r

def resetBuffer (env : Env) (cfg : Config) (length index : Nat) (r : Locals) : Except Stop Locals :=
  if cfg.reset then replaceBuffer env length index r else .ok r

def requeueBuffer (env : Env) (index : Nat) (r : Locals) : Except Stop Locals := do
  let (before,r) := minorFaultsNow env r
  let r ← queueBuffer env index r
  let (after,r) := minorFaultsNow env r
  .ok {r with
    qbufMinflt := Function.update r.qbufMinflt index (if before < 0 ∨ after < 0 then -1 else after - before)}

def frameRound (env : Env) (cfg : Config) (length i : Nat) (r : Locals) : Except Stop Locals := do
  let (index,userptr,answer,r) ← dqbuf env r
  if index ≥ bufferCount then .error (.cleanup r)
  else if userptr.map Region.start ≠ (r.buffers index).map Region.start then .error (.cleanup r)
  else do
    let (dqNs,readings) := vpipeNowMonotonicNs env.clock r.readings
    let row : CsvRow := ⟨i,index,r.queuedAt index,dqNs,answer.sec,answer.usec,answer.sequence,answer.bytesused,
      r.qbufMinflt index⟩
    let r := {r with readings := readings, rows := r.rows ++ [row]}
    let r ← resetBuffer env cfg length index r
    requeueBuffer env index r

def frameLoop (env : Env) (cfg : Config) (length : Nat) : Nat → Locals → Except Stop Locals
  | 0, r => .ok r
  | n+1, r => do
    let r ← frameLoop env cfg length n r
    frameRound env cfg length n r

def body (env : Env) (cfg : Config) (space : Space) : Except Stop Locals := do
  let r : Locals := {space := space}
  check env.opened r
  let r := {r with fd := true}
  check env.formatted r
  check (env.sizeimage ≠ 0) r
  let length := alignedLen env.sizeimage (pageSizeOf env)
  check (length ≤ 2^32 - 1) r
  let r ← mapBuffers env length bufferCount r
  check (match env.requested with
    | none => false
    | some count => count ≥ bufferCount) r
  check env.csv r
  let r ← queueBuffers env bufferCount r
  check env.streamed r
  let r := {r with streaming := true, dev := {r.dev with streaming := true}}
  frameLoop env cfg length cfg.frames r

def unmapBuffers : Nat → Locals → Locals
  | 0, r => r
  | n+1, r =>
    let r := unmapBuffers n r
    match r.buffers n with
    | none => r
    | some p => (munmap p r).2

def cleanup (r : Locals) : Locals :=
  let r := if r.fd ∧ r.streaming then {r with dev := {r.dev with held := [], streaming := false}} else r
  let r := unmapBuffers bufferCount r
  {r with dev := {}}

def captureUserptr (env : Env) (cfg : Config) (space : Space) : Option (Nat × Locals) :=
  match body env cfg space with
  | .ok r => some (0,cleanup r)
  | .error (.cleanup r) => some (1,cleanup r)
  | .error .blocked => none

structure Succeeds (env : Env) : Prop where
  opened : env.opened = true
  formatted : env.formatted = true
  sizeimage : env.sizeimage ≠ 0
  page : ∃ k, k < 32 ∧ pageSizeOf env = 2^k
  fits : alignedLen env.sizeimage (pageSizeOf env) ≤ 2^32 - 1
  place : ∀ n (space : Space) length, 0 < length → ∃ start, env.place n space.regions length = some start ∧
    space.Free ⟨start,length⟩
  requested : ∃ count, env.requested = some count ∧ bufferCount ≤ count
  csv : env.csv = true
  queued : ∀ n, env.queued n = true
  streamed : env.streamed = true
  camera : ∀ n, ∃ answer, env.camera n = some answer

def mappedBuffers (buffers : Nat → Option Region) : List Region := (List.range bufferCount).filterMap buffers

def otherBuffers (buffers : Nat → Option Region) (n : Nat) : List Region :=
  ((List.range bufferCount).erase n).filterMap buffers

structure Kept (start : Space) (r : Locals) : Prop where
  regions : r.space.regions.Perm (mappedBuffers r.buffers ++ start.regions)
  slots : ∀ i ∈ r.dev.held, i < bufferCount ∧ ∃ region, r.dev.userptrs i = some region ∧
    r.buffers i = some region
  distinct : r.dev.held.Nodup
  log : ∀ u ∈ r.unmaps, u.mapped = true ∧ u.busy = false
  streaming : r.dev.streaming = r.streaming
  opened : r.streaming = true → r.fd = true

def Left (env : Env) (start : Space) : Stop → Prop
  | .cleanup r => Kept start r ∧ ¬ Succeeds env
  | .blocked => False

section Buffers

variable {buffers : Nat → Option Region} {n : Nat}

theorem mappedSplit (buffers : Nat → Option Region) (inside : n < bufferCount) :
    (mappedBuffers buffers).Perm ((buffers n).toList ++ otherBuffers buffers n) := by
  have split := (List.perm_cons_erase (List.mem_range.mpr inside)).filterMap buffers
  rw [List.filterMap_cons] at split
  unfold mappedBuffers otherBuffers
  cases found : buffers n with
  | none => simpa only [found, Option.toList_none, List.nil_append] using split
  | some p => simpa only [found, Option.toList_some, List.singleton_append] using split

theorem otherUpdate (p : Option Region) :
    otherBuffers (Function.update buffers n p) n = otherBuffers buffers n := by
  refine List.filterMap_congr (fun i member => ?_)
  have differ : i ≠ n := fun same => (List.Nodup.not_mem_erase List.nodup_range) (same ▸ member)
  rw [Function.update_of_ne differ]

end Buffers

section Calls

variable {env : Env} {start : Space} {r : Locals}

def holdings (r : Locals) : Space × Device × Bool × (Nat → Option Region) × Bool × List Unmap :=
  (r.space,r.dev,r.fd,r.buffers,r.streaming,r.unmaps)

theorem keptOf (kept : Kept start r) {r' : Locals} (same : holdings r' = holdings r) : Kept start r' := by
  simp only [holdings, Prod.mk.injEq] at same
  obtain ⟨space, dev, fd, buffers, streaming, unmaps⟩ := same
  constructor
  case regions => rw [space, buffers]; exact kept.regions
  case slots => rw [dev, buffers]; exact kept.slots
  case distinct => rw [dev]; exact kept.distinct
  case log => rw [unmaps]; exact kept.log
  case streaming => rw [dev, streaming]; exact kept.streaming
  case opened => rw [fd, streaming]; exact kept.opened

theorem keptSub (kept : Kept start r) {i : Nat} {p : Region} (inside : i < bufferCount)
    (found : r.buffers i = some p) : p ∈ r.space.regions := by
  refine kept.regions.mem_iff.mpr (List.mem_append_left _ ?_)
  exact List.mem_filterMap.mpr ⟨i,List.mem_range.mpr inside,found⟩

theorem buffersApart (kept : Kept start r) {i j : Nat} {p : Region} (inside : i < bufferCount)
    (inside' : j < bufferCount) (found : r.buffers i = some p) (found' : r.buffers j = some p) : i = j := by
  by_contra differ
  have unique : (mappedBuffers r.buffers).Nodup :=
    (List.nodup_append.mp (kept.regions.nodup_iff.mp (Space.regionsNodup r.space))).1
  rw [(mappedSplit r.buffers inside).nodup_iff, found] at unique
  have member : p ∈ otherBuffers r.buffers i := by
    refine List.mem_filterMap.mpr ⟨j,?_,found'⟩
    exact (List.mem_erase_of_ne (Ne.symm differ)).mpr (List.mem_range.mpr inside')
  exact (List.nodup_cons.mp unique).1 member

theorem mmapEnds (env : Env) (length : Nat) (r : Locals) :
    (∃ (region : Region) (free : r.space.Free region), region.length = length ∧
      mmap env length r = (some region,{r with mmaps := r.mmaps + 1, space := r.space.map region free})) ∨
    (mmap env length r = (none,{r with mmaps := r.mmaps + 1}) ∧
      ((Succeeds env → 0 < length) → ¬ Succeeds env)) := by
  unfold mmap
  cases placed : env.place r.mmaps r.space.regions length with
  | none =>
    refine .inr ⟨rfl,fun positive succeeds => ?_⟩
    obtain ⟨start, some_, _⟩ := succeeds.place r.mmaps r.space length (positive succeeds)
    rw [placed] at some_
    contradiction
  | some start =>
    simp only
    split
    case isTrue free => exact .inl ⟨⟨start,length⟩,free,rfl,rfl⟩
    case isFalse taken =>
      refine .inr ⟨rfl,fun positive succeeds => taken ?_⟩
      obtain ⟨start', some_, free⟩ := succeeds.place r.mmaps r.space length (positive succeeds)
      rw [placed, Option.some.injEq] at some_
      exact some_ ▸ free

theorem keptMap (kept : Kept start r) {n : Nat} (inside : n < bufferCount) (none_ : r.buffers n = none)
    {region : Region} (free : r.space.Free region) : Kept start {r with
      mmaps := r.mmaps + 1, space := r.space.map region free
      buffers := Function.update r.buffers n (some region)} := by
  constructor
  case regions =>
    have before := mappedSplit r.buffers inside
    rw [none_] at before
    have after := mappedSplit (Function.update r.buffers n (some region)) inside
    rw [Function.update_self, otherUpdate] at after
    show (region :: r.space.regions).Perm (mappedBuffers _ ++ start.regions)
    exact ((kept.regions.trans (before.append_right _)).cons region).trans (after.append_right _).symm
  case slots =>
    intro i member
    obtain ⟨small, p, pin, found⟩ := kept.slots i member
    have differ : i ≠ n := by
      rintro rfl
      rw [none_] at found
      contradiction
    exact ⟨small,p,pin,(Function.update_of_ne differ _ _).trans found⟩
  case distinct => exact kept.distinct
  case log => exact kept.log
  case streaming => exact kept.streaming
  case opened => exact kept.opened

theorem qbufMade {index : Nat} {region : Region} (queued : env.queued r.qbufs = true) (out : index ∉ r.dev.held)
    (mapped : region ∈ r.space.regions) : qbuf env index region r = .ok (afterQbuf env index region r) := by
  have made : ¬ (env.queued r.qbufs = false ∨ index ∈ r.dev.held ∨ region ∉ r.space.regions) := by
    rw [queued]
    rintro (refused | held | unmapped)
    · contradiction
    · exact out held
    · exact unmapped mapped
  rw [qbuf, if_neg made]

theorem keptQbuf (kept : Kept start r) {index : Nat} {region : Region} (inside : index < bufferCount)
    (out : index ∉ r.dev.held) (found : r.buffers index = some region) :
    Kept start (afterQbuf env index region r) := by
  have distinct : (r.dev.held ++ [index]).Nodup :=
    List.nodup_append.mpr ⟨kept.distinct,List.nodup_singleton _,by
      rintro a member b last rfl
      exact out (List.mem_singleton.mp last ▸ member)⟩
  refine ⟨kept.regions,?_,distinct,kept.log,kept.streaming,kept.opened⟩
  intro i member
  rcases List.mem_append.mp member with old | new
  · obtain ⟨small, p, pin, at_⟩ := kept.slots i old
    have differ : i ≠ index := fun same => out (same ▸ old)
    exact ⟨small,p,(Function.update_of_ne differ _ _).trans pin,at_⟩
  · rw [List.mem_singleton.mp new]
    exact ⟨inside,region,Function.update_self _ _ _,found⟩

theorem queueEnds (kept : Kept start r) {index : Nat} {region : Region} (inside : index < bufferCount)
    (out : index ∉ r.dev.held) (found : r.buffers index = some region) :
    Ends (queueBuffer env index r) (Left env start) (fun r' => Kept start r' ∧
      r' = afterQbuf env index region {r with
        readings := r.readings + 1, queuedAt := Function.update r.queuedAt index (env.clock r.readings)}) := by
  have noted : Kept start {r with
      readings := r.readings + 1, queuedAt := Function.update r.queuedAt index (env.clock r.readings)} :=
    keptOf kept rfl
  simp only [queueBuffer, vpipeNowMonotonicNs, found, Option.getD_some]
  cases queued : env.queued r.qbufs with
  | true =>
    have made := qbufMade (r := {r with
      readings := r.readings + 1, queuedAt := Function.update r.queuedAt index (env.clock r.readings)})
      queued out (keptSub kept inside found)
    rw [made]
    exact ⟨keptQbuf noted inside out found,rfl⟩
  | false =>
    simp only [qbuf, queued, true_or, if_true]
    refine ⟨keptOf kept rfl,fun succeeds => ?_⟩
    rw [succeeds.queued] at queued
    contradiction

end Calls

section SetUp

variable {env : Env} {start : Space} {length : Nat}

structure Mapping (start : Space) (length n : Nat) (r : Locals) : Prop where
  kept : Kept start r
  dev : r.dev = {}
  fd : r.fd = true
  idle : r.streaming = false
  rows : r.rows = []
  dqbufs : r.dqbufs = 0
  readings : r.readings = 0
  usages : r.usages = 0
  renewed : r.renewed = 0
  minflt : ∀ i, r.qbufMinflt i = 0
  some_ : ∀ i, i < n → ∃ region, r.buffers i = some region ∧ region.length = length
  none_ : ∀ i, n ≤ i → r.buffers i = none

theorem mapEnds (positive : Succeeds env → 0 < length) {r : Locals}
    (opened : Mapping start length 0 r) {n : Nat} (within : n ≤ bufferCount) :
    Ends (mapBuffers env length n r) (Left env start) (Mapping start length n) := by
  induction n with
  | zero => exact opened
  | succ n ih =>
    rw [mapBuffers]
    refine endsBind (ih (by omega)) (fun r' mapping => ?_)
    have inside : n < bufferCount := by omega
    rcases mmapEnds env length r' with ⟨region, free, size, made⟩ | ⟨made, failed⟩
    · rw [made]
      refine {mapping with
        kept := keptMap mapping.kept inside (mapping.none_ n (Nat.le_refl n)) free
        some_ := fun i below => ?_
        none_ := fun i above => ?_}
      · rcases Nat.lt_succ_iff_lt_or_eq.mp below with old | rfl
        · obtain ⟨p, found, same⟩ := mapping.some_ i old
          exact ⟨p,(Function.update_of_ne (by omega) _ _).trans found,same⟩
        · exact ⟨region,Function.update_self _ _ _,size⟩
      · exact (Function.update_of_ne (by omega) _ _).trans (mapping.none_ i (by omega))
    · rw [made]
      have kept := mapping.kept
      exact ⟨keptOf kept rfl,failed positive⟩

structure Lined (env : Env) (start : Space) (length n : Nat) (r : Locals) : Prop where
  kept : Kept start r
  held : r.dev.held = List.range n
  userptrs : ∀ i, n ≤ i → r.dev.userptrs i = none
  renewed : r.renewed = n
  some_ : ∀ i, i < bufferCount → ∃ region, r.buffers i = some region ∧ region.length = length
  fd : r.fd = true
  idle : r.streaming = false
  rows : r.rows = []
  dqbufs : r.dqbufs = 0
  readings : r.readings = n
  usages : r.usages = 0
  minflt : ∀ i, r.qbufMinflt i = 0
  queuedAt : ∀ i, i < n → r.queuedAt i = env.clock i

theorem lineEnds {r : Locals} (mapping : Mapping start length bufferCount r) {n : Nat}
    (within : n ≤ bufferCount) :
    Ends (queueBuffers env n r) (Left env start) (Lined env start length n) := by
  induction n with
  | zero =>
    refine ⟨mapping.kept,by rw [mapping.dev]; rfl,fun i _ => by rw [mapping.dev],mapping.renewed,mapping.some_,
      mapping.fd,mapping.idle,mapping.rows,mapping.dqbufs,mapping.readings,mapping.usages,mapping.minflt,
      fun i below => absurd below (Nat.not_lt_zero i)⟩
  | succ n ih =>
    rw [queueBuffers]
    refine endsBind (ih (by omega)) (fun r' lined => ?_)
    have inside : n < bufferCount := by omega
    obtain ⟨region, found, size⟩ := lined.some_ n inside
    have out : n ∉ r'.dev.held := by
      rw [lined.held, List.mem_range]
      omega
    refine endsBind (queueEnds lined.kept inside out found) ?_
    rintro r'' ⟨kept, made⟩
    have miss : r'.dev.userptrs n ≠ some region := by
      rw [lined.userptrs n (Nat.le_refl n)]
      exact (Option.some_ne_none region).symm
    simp only [afterQbuf, if_neg miss] at made
    subst made
    constructor
    case kept => exact keptOf kept rfl
    case held => exact (congrArg (· ++ [n]) lined.held).trans List.range_succ.symm
    case userptrs =>
      intro i above
      exact (Function.update_of_ne (by omega) _ _).trans (lined.userptrs i (by omega))
    case renewed => exact congrArg (· + 1) lined.renewed
    case some_ => exact lined.some_
    case fd => exact lined.fd
    case idle => exact lined.idle
    case rows => exact lined.rows
    case dqbufs => exact lined.dqbufs
    case readings => exact congrArg (· + 1) lined.readings
    case usages => exact lined.usages
    case minflt =>
      intro i
      show Function.update r'.qbufMinflt n 0 i = 0
      rcases eq_or_ne i n with rfl | differ
      · exact Function.update_self _ _ _
      · rw [Function.update_of_ne differ, lined.minflt]
    case queuedAt =>
      intro i below
      show Function.update r'.queuedAt n (env.clock r'.readings) i = env.clock i
      rcases Nat.lt_succ_iff_lt_or_eq.mp below with old | rfl
      · rw [Function.update_of_ne (Nat.ne_of_lt old), lined.queuedAt i old]
      · rw [Function.update_self, lined.readings]

end SetUp

end Vpipe.Userptr
