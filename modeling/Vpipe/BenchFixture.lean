import Vpipe.Bringup
import Vpipe.PgmFormat

/-! The tool `vpipe-bench-fixture`, which sends one PGM image through the device again and again, from
two buffers of a DMA heap in turn, and may write the first frame as a PGM file. What it writes is
compared with `vpipe-cv-ref`. The cleanup, after which no row is written, is left out; `captured`
is bookkeeping that no modelled function reads. -/
namespace Vpipe.BenchFixture
open Vpipe.Lib.Word Vpipe.Lib.ByteMemory Vpipe.Lib.BufferQueue Vpipe.Lib.Transition Vpipe.Lib.Outcome
open Vpipe.Cv Vpipe.M2m Vpipe.Runs Vpipe.Tools Vpipe.Pgm Vpipe.Reference Vpipe.Lockstep
  Vpipe.Exchange Vpipe.Bringup
open Vpipe.Stream (Placed)

def bufferCount : Nat := 2

structure Config where
  algoId : Nat
  frames : Nat
  threshold : Nat
  outPath : Bool
  algoKnown : algoId = algoNone ∨ algoId = algoThreshold
  framesRange : 1 ≤ frames ∧ frames < 2^32
  thresholdRange : threshold ≤ 255

structure Env where
  opened : OpenEnv := {}
  outGranted : Nat := bufferCount
  capGranted : Nat := bufferCount
  capSlack : Nat := 0
  capMapped : Bool := true
  heap : Nat → Bool := fun _ => true
  heapMapped : Nat → Bool := fun _ => true
  csv : Bool := true
  start : FrameSource.StartEnv := {}
  written : Bool := true
  clock : Nat → Nat
  around : Surroundings

structure CsvRow where
  frame : Nat
  outputIndex : Nat
  enqueueMonotonicNs : Nat
  dequeueMonotonicNs : Nat
  vpipeSequence : Nat
  bytesused : Nat
  algo : Nat
  deriving DecidableEq, Repr

structure Locals where
  c : Client
  outputBufs : List Plane
  rows : List CsvRow := []
  readings : Nat := 0
  captured : List (List UInt8) := []
  out : Option (List UInt8) := none

def fillOutput (env : Env) (src : PgmImage) (len : Nat) : Nat → Sys → Except Stop (List Plane × Sys)
  | 0, s => .ok ([],s)
  | n+1, s => do
    let (bufs,s) ← fillOutput env src len n s
    check (env.heap n)
    let (plane,s) := dmaHeapAlloc s len
    check (env.heapMapped n)
    .ok (bufs ++ [plane],s.step (.store plane.block (src.pixels.take src.size)))

def setUp (env : Env) (cfg : Config) (src : PgmImage) (k : Kernel) (ident : Nat) : Except Stop Locals := do
  let s ← orFail (vpipeOpen k ident env.opened).toOption
  let s ← orFail (vpipeSetFormat s .output src.width src.height pixFmtGrey)
  let s ← orFail (vpipeSetFormat s .capture src.width src.height pixFmtGrey)
  let outSizeimage := vpipeGetSizeimage s .output
  check (outSizeimage ≠ 0)
  check (¬ src.size > outSizeimage)
  let s ← orFail (succeeded (vidiocReqbufs s .output bufferCount .dmabuf 0 env.outGranted))
  let s ← orFail (vpipeRequestMmapBuffers s .capture bufferCount env.capSlack env.capGranted env.capMapped)
  let (bufs,s) ← fillOutput env src outSizeimage bufferCount s
  let s ← orFail (setControl s cidAlgo (s32 cfg.algoId))
  let s ← orFail (setControl s cidThreshold (s32 cfg.threshold))
  check env.csv
  let s ← orFail (queueCapture bufferCount s)
  let s ← orFail (succeeded (vidiocStreamon s .capture {}))
  let s ← orFail (succeeded (vidiocStreamon s .output env.start))
  .ok ⟨{s := s},bufs,[],0,[],none⟩

def writeFirst (env : Env) (cfg : Config) (src : PgmImage) (i : Nat) (addr : Plane) (m : Mem) (r : Locals) :
    Except Stop Locals :=
  if cfg.outPath ∧ i = 0 then do
    check env.written
    .ok {r with out := some (vpipeWritePgm (m.slice addr addr.size) src.width src.height)}
  else .ok r

def frameRound (env : Env) (cfg : Config) (src : PgmImage) (i : Nat) (r : Locals) : Except Stop Locals := do
  let index := i % bufferCount
  let (enqueueNs,readings) := vpipeNowMonotonicNs env.clock r.readings
  let c ← r.c.qbuf env.around .output index (some ⟨r.outputBufs.getD index ⟨0,0⟩,true⟩)
  let (capDq,c) ← c.dqbuf env.around .capture
  let (dequeueNs,readings) := vpipeNowMonotonicNs env.clock readings
  check (capDq.index < bufferCount)
  let (_,c) ← c.dqbuf env.around .output
  let addr := (mappings c.s .capture).getD capDq.index ⟨0,0⟩
  let r ← writeFirst env cfg src i addr c.s.k.machine.mem {r with readings := readings}
  let r : Locals := {r with
    rows := r.rows ++ [⟨i,index,enqueueNs,dequeueNs,capDq.sequence,capDq.bytesused,cfg.algoId⟩]
    captured := r.captured ++ [c.s.k.machine.mem.slice addr capDq.bytesused]}
  let c ← c.qbuf env.around .capture capDq.index none
  .ok {r with c := c}

def frameLoop (env : Env) (cfg : Config) (src : PgmImage) : Nat → Locals → Except Stop Locals
  | 0, r => .ok r
  | n+1, r => do
    let r ← frameLoop env cfg src n r
    frameRound env cfg src n r

def benchFixture (env : Env) (cfg : Config) (k : Kernel) (ident : Nat) (fixture : List UInt8) :
    Except Stop Locals := do
  let src ← orFail (vpipeReadPgm fixture)
  let r ← setUp env cfg src k ident
  frameLoop env cfg src cfg.frames r

structure Honest (env : Env) : Prop where
  opened : env.opened = {}
  outGranted : bufferCount ≤ env.outGranted
  capGranted : bufferCount ≤ env.capGranted
  capMapped : env.capMapped = true
  heap : ∀ i, i < bufferCount → env.heap i = true
  heapMapped : ∀ i, i < bufferCount → env.heapMapped i = true
  csv : env.csv = true
  start : env.start = {}
  written : env.written = true

def frameImage (cfg : Config) (src : PgmImage) : List UInt8 :=
  processedImage src.width cfg.algoId cfg.threshold ⟨0,0,defaultWidth,defaultHeight⟩ src.pixels

structure Reported (env : Env) (cfg : Config) (src : PgmImage) (k : Kernel) (n : Nat) (r : Locals) : Prop where
  rows : r.rows = (List.range n).map (fun i => ⟨i,i % bufferCount,env.clock (2 * i),env.clock (2 * i + 1),
    u32 (k.sequence + i + 1),src.width * src.height,cfg.algoId⟩)
  captured : r.captured = List.replicate n (frameImage cfg src)
  published : ∃ told : List Publication, r.c.s.k.published = k.published ++ told ∧
    told.map (fun x => (x.entry.seq,x.entry.algoId,x.entry.crc32)) =
      (List.range n).map (fun i => (k.sequence + i + 1,cfg.algoId,Crc.frameCrc (frameImage cfg src)))
  out : r.out = if cfg.outPath ∧ 0 < n then
    some (vpipeWritePgm (frameImage cfg src) src.width src.height) else none

structure Rig (src : PgmImage) (p : Bench) (r : Locals) : Prop where
  format : p.format = grey src.width src.height
  memory : p.memory = .dmabuf
  out : p.out.length = bufferCount
  cap : p.cap.length = bufferCount
  distinct : p.cap.Nodup
  bufs : r.outputBufs.length = bufferCount
  size : ∀ plane ∈ r.outputBufs, plane.size = src.width * src.height
  apart : ∀ plane ∈ r.outputBufs, plane.block ∉ p.cap
  filled : ∀ plane ∈ r.outputBufs, r.c.s.k.machine.mem.slice plane (src.width * src.height) = src.pixels

structure Going (env : Env) (cfg : Config) (src : PgmImage) (k : Kernel) (p : Bench) (n : Nat) (r : Locals) :
    Prop where
  rig : Rig src p r
  serving : Serving p r.c.s
  source : r.c.s.c.src.backend = .fixture
  board : ∃ order, boardOf r.c.s = ⟨[],[],order,[]⟩ ∧ order.Perm p.cap
  foreign : r.c.foreign = []
  controls : r.c.s.c.controls = {algoId := cfg.algoId, threshold := cfg.threshold}
  sequence : r.c.s.k.sequence = k.sequence + n
  readings : r.readings = 2 * n
  reported : Reported env cfg src k n r

section Round
variable {env : Env} {cfg : Config} {src : PgmImage} {k : Kernel} {p : Bench} {n : Nat} {r : Locals}

theorem offered (going : Going env cfg src k p n r) (i : Nat) :
    ∃ id plane, r.outputBufs.getD (i % bufferCount) ⟨0,0⟩ = plane ∧ plane ∈ r.outputBufs ∧
      Offer p r.c (i % bufferCount) id (some ⟨plane,true⟩) ⟨plane,true⟩ := by
  have rig := going.rig
  have below : i % bufferCount < bufferCount := Nat.mod_lt _ (by decide)
  obtain ⟨id, found⟩ : ∃ id, p.out[i % bufferCount]? = some id :=
    ⟨_,List.getElem?_eq_getElem (rig.out.symm ▸ below)⟩
  obtain ⟨plane, at_⟩ : ∃ plane, r.outputBufs[i % bufferCount]? = some plane :=
    ⟨_,List.getElem?_eq_getElem (rig.bufs.symm ▸ below)⟩
  have member := List.mem_of_getElem? at_
  have size : p.format.sizeimage = plane.size := by rw [rig.format, rig.size plane member]; rfl
  obtain ⟨kind, length⟩ := going.serving.outPlaced.kind id (List.mem_of_getElem? found)
  refine ⟨id,plane,by rw [List.getD_eq_getElem?_getD, at_]; rfl,member,found,?_,rfl,Nat.le_of_eq size,?_,
    rig.apart plane member,?_⟩
  · have dmabuf : ((r.c.s.queue .output).buf id).memory = .dmabuf := kind.trans rig.memory
    simp only [attach, dmabuf, length, if_neg (Nat.not_lt.mpr (Nat.le_of_eq size))]
  · rw [going.foreign]
    simp
  · rw [going.controls]
    exact cfg.algoKnown

theorem firstWritten (honest : Honest env) (i : Nat) (addr : Plane) (m : Mem) (r : Locals) :
    writeFirst env cfg src i addr m r = .ok {r with out := (if cfg.outPath ∧ i = 0 then
      some (vpipeWritePgm (m.slice addr addr.size) src.width src.height) else r.out)} := by
  unfold writeFirst
  split
  · simp only [check, honest.written, if_true, bind, Except.bind]
  · rfl

theorem bufferWritten (rig : Rig src p r) {s : Sys} (serving : Serving p s) {index dst : Nat}
    (found : p.cap[index]? = some dst) {image : List UInt8}
    (shown : s.k.machine.mem.slice ⟨dst,src.width * src.height⟩ (src.width * src.height) = image) :
    vpipeWritePgm (s.k.machine.mem.slice ((mappings s .capture).getD index ⟨0,0⟩)
      ((mappings s .capture).getD index ⟨0,0⟩).size) src.width src.height =
        vpipeWritePgm image src.width src.height := by
  obtain ⟨block, large, _⟩ := serving.capPlaced.plane rfl dst (List.mem_of_getElem? found)
  rw [rig.format] at large
  have fits : src.width * src.height ≤ ((s.queue .capture).buf dst).plane.size := large
  rw [← shown, vpipeWritePgm, vpipeWritePgm, mappedPlane serving found]
  simp only [Mem.slice, Mem.get, block, List.map_take.symm, List.take_range, Nat.min_eq_left fits, Nat.min_self]

theorem reportedNext (buffer : Nat) (reported : Reported env cfg src k n r) {r' : Locals} {e : MetaEntry}
    (rows : r'.rows = r.rows ++ [⟨n,n % bufferCount,env.clock (2 * n),env.clock (2 * n + 1),
      u32 (k.sequence + n + 1),src.width * src.height,cfg.algoId⟩])
    (captured : r'.captured = r.captured ++ [frameImage cfg src])
    (published : r'.c.s.k.published = r.c.s.k.published ++ [⟨buffer,e⟩])
    (entry : (e.seq,e.algoId,e.crc32) = (k.sequence + n + 1,cfg.algoId,Crc.frameCrc (frameImage cfg src)))
    (out : r'.out = if cfg.outPath ∧ n = 0 then some (vpipeWritePgm (frameImage cfg src) src.width src.height)
      else r.out) : Reported env cfg src k (n + 1) r' := by
  obtain ⟨told, before, entries⟩ := reported.published
  constructor
  case rows => rw [rows, reported.rows, List.range_succ, List.map_append, List.map_singleton]
  case captured => rw [captured, reported.captured, List.replicate_succ']
  case published =>
    refine ⟨told ++ [⟨buffer,e⟩],by rw [published, before, List.append_assoc],?_⟩
    rw [List.map_append, entries, List.range_succ, List.map_append, List.map_singleton,
      List.map_singleton, entry]
  case out =>
    rw [out, reported.out]
    rcases Nat.eq_zero_or_pos n with rfl | later
    · simp
    · simp [later, Nat.ne_of_gt later]

theorem roundKeeps (honest : Honest env) (room : k.sequence + cfg.frames < 2^64)
    (going : Going env cfg src k p n r) (more : n < cfg.frames) :
    Returns (frameRound env cfg src n r) (Going env cfg src k p (n + 1)) := by
  have rig := going.rig
  obtain ⟨order, board, all⟩ := going.board
  obtain ⟨dst, rest, rfl⟩ : ∃ dst rest, order = dst :: rest := by
    refine List.exists_cons_of_length_pos ?_
    rw [all.length_eq, rig.cap]
    decide
  obtain ⟨id, plane, turn, member, offer⟩ := offered going n
  have size : p.format.sizeimage = src.width * src.height := by rw [rig.format]; rfl
  obtain ⟨c1, dq, c2, used, c3, queued, taken, freed, still, exchanged⟩ :=
    fixtureExchanges env.around going.serving going.source board offer
    (by rw [going.controls]; exact properDefault)
    (by rw [going.sequence]; omega) (by rw [going.foreign]; simp)
  have spare : dst ∉ rest := (List.nodup_cons.mp (all.nodup_iff.mpr rig.distinct)).1
  obtain ⟨c4, returned, serving4, board4, foreign4, steadied⟩ :=
    clientReturns env.around exchanged.serving exchanged.board exchanged.index spare
  have below : dq.index < bufferCount := by
    obtain ⟨within, _⟩ := List.getElem?_eq_some_iff.mp exchanged.index
    exact rig.cap ▸ within
  have image : c3.s.k.machine.mem.slice ⟨dst,src.width * src.height⟩ (src.width * src.height) =
      frameImage cfg src := by
    have made := exchanged.image
    rw [size, rig.filled plane member, rig.format, going.controls] at made
    exact made
  rw [← turn] at queued
  refine returnsThen queued (returnsThen taken (checkThen (by simp [below]) (returnsThen freed
    (returnsThen (firstWritten honest n _ _ _) (returnsThen returned (returnsOk ?_))))))
  have kept : ∀ block, block ≠ dst → c4.s.k.machine.mem.bytes block = r.c.s.k.machine.mem.bytes block := by
    intro block differ
    rw [steadied.bytes block (by rw [exchanged.foreign, going.foreign]; simp),
      exchanged.bytes block (by rw [going.foreign]; simp) differ]
  have dstIn : dst ∈ p.cap := List.mem_of_getElem? exchanged.index
  have sequence4 : c4.s.k.sequence = k.sequence + (n + 1) := by
    rw [steadied.sequence, exchanged.count, going.sequence]
    rfl
  rw [bufferWritten rig exchanged.serving exchanged.index image]
  constructor
  case rig =>
    refine {rig with filled := fun other inside => ?_}
    rw [← rig.filled other inside]
    exact sliceSame (kept _ (fun same => rig.apart other inside (same ▸ dstIn))) _
  case serving => exact serving4
  case source => exact (congrArg FrameSource.Source.backend steadied.src).trans still
  case board => exact ⟨rest ++ [dst],board4,(List.perm_append_singleton dst rest).trans all⟩
  case foreign => exact foreign4.trans (exchanged.foreign.trans going.foreign)
  case controls => exact steadied.controls.trans (exchanged.controls.trans going.controls)
  case sequence => exact sequence4
  case readings =>
    show r.readings + 1 + 1 = _
    rw [going.readings]
    rfl
  case reported =>
    obtain ⟨e, published, seq, _, _, algoId, crc⟩ := exchanged.published
    refine reportedNext dst (e := e) going.reported ?_ ?_ ?_ ?_ rfl
    · refine congrArg (fun row => r.rows ++ [row]) ?_
      rw [exchanged.sequence, exchanged.bytesused, size, going.sequence]
      show CsvRow.mk n _ (env.clock r.readings) (env.clock (r.readings + 1)) _ _ _ = _
      rw [going.readings]
    · refine congrArg (fun image => r.captured ++ [image]) ?_
      rw [exchanged.bytesused, size, mappedImage exchanged.serving exchanged.index]
      exact image
    · show c4.s.k.published = _
      rw [steadied.published, published]
    · rw [size, image] at crc
      rw [seq, going.sequence, algoId, going.controls, crc]

structure Stocked (k : Kernel) (src : PgmImage) (s : Sys) (bufs : List Plane) (s' : Sys) : Prop where
  fit : Fit k .fixture (grey src.width src.height) {} s'
  queues : s'.c.queues = s.c.queues
  next : s'.k.machine.next = s.k.machine.next + bufs.length
  blocks : ∀ plane ∈ bufs, s.k.machine.next ≤ plane.block ∧ plane.block < s'.k.machine.next
  size : ∀ plane ∈ bufs, plane.size = src.width * src.height
  filled : ∀ plane ∈ bufs, s'.k.machine.mem.slice plane (src.width * src.height) = src.pixels

theorem copied (sized : WellSized src) (m : Mem) (block : Nat) :
    ((m.clear block).store block (src.pixels.take src.size)).slice ⟨block,src.width * src.height⟩
      (src.width * src.height) = src.pixels ∧
    ∀ other, other ≠ block → ((m.clear block).store block (src.pixels.take src.size)).bytes other =
      m.bytes other := by
  have whole : src.pixels.length = src.width * src.height := sized.pixels.trans sized.size
  rw [List.take_of_length_le (Nat.le_of_eq sized.pixels)]
  constructor
  · apply List.ext_getElem?
    intro i
    rcases Nat.lt_or_ge i (src.width * src.height) with inside | outside
    · rw [sliceAt _ _ inside, storeBytes _ _ _ _ (whole ▸ inside), List.getD_eq_getElem?_getD,
        List.getElem?_eq_getElem (whole ▸ inside)]
      rfl
    · rw [List.getElem?_eq_none (by rw [sliceLength]; exact outside), List.getElem?_eq_none (whole ▸ outside)]
  · intro other differ
    funext i
    simp [Mem.store, Mem.clear, differ]

theorem outputFilled (honest : Honest env) (sized : WellSized src) {s : Sys}
    (fit : Fit k .fixture (grey src.width src.height) {} s) {n : Nat} (within : n ≤ bufferCount) :
    ∃ bufs s', fillOutput env src (src.width * src.height) n s = .ok (bufs,s') ∧ bufs.length = n ∧
      Stocked k src s bufs s' := by
  induction n with
  | zero => exact ⟨[],s,rfl,rfl,fit,rfl,rfl,by simp,by simp,by simp⟩
  | succ n ih =>
    obtain ⟨bufs, u, made, count, stocked⟩ := ih (by omega)
    obtain ⟨here, elsewhere⟩ := copied sized u.k.machine.mem u.k.machine.next
    let plane : Plane := ⟨u.k.machine.next,src.width * src.height⟩
    refine ⟨bufs ++ [plane],(dmaHeapAlloc u (src.width * src.height)).2.step
      (.store plane.block (src.pixels.take src.size)),?_,by simp [count],?_⟩
    · simp only [fillOutput, made, check, honest.heap n (by omega),
        honest.heapMapped n (by omega), if_true, bind, Except.bind]
      rfl
    · have cases_ : ∀ {P : Plane → Prop}, (∀ plane ∈ bufs, P plane) → P plane →
          ∀ other ∈ bufs ++ [plane], P other := by
        intro P old new other member
        rcases List.mem_append.mp member with before | last
        · exact old other before
        · rw [List.mem_singleton.mp last]
          exact new
      constructor
      case fit =>
        exact fitStep (allocationFits stocked.fit _) (by simp [StartClean]) ⟨rfl,rfl,rfl,rfl,rfl,rfl,rfl,rfl⟩
      case queues => exact stocked.queues
      case next =>
        show u.k.machine.next + 1 = _
        rw [stocked.next, List.length_append, List.length_singleton, Nat.add_assoc]
      case blocks =>
        have later : s.k.machine.next ≤ u.k.machine.next := stocked.next ▸ Nat.le_add_right _ _
        refine cases_ (fun other member => ?_) ⟨later,Nat.lt_succ_self _⟩
        exact ⟨(stocked.blocks other member).1,Nat.lt_succ_of_lt (stocked.blocks other member).2⟩
      case size => exact cases_ stocked.size rfl
      case filled =>
        refine cases_ (fun other member => ?_) here
        exact (sliceSame (elsewhere _ (Nat.ne_of_lt (stocked.blocks other member).2)) _).trans
          (stocked.filled other member)

theorem setUpGoes (honest : Honest env) (sized : WellSized src) (ident : Nat) :
    Returns (setUp env cfg src k ident) (fun r => ∃ p, Going env cfg src k p 0 r) := by
  have wide := sized.width
  have high := sized.height
  have opened : (vpipeOpen k ident env.opened).toOption = some (openedOn k ident) := by rw [honest.opened]; rfl
  obtain ⟨s1, s2, format1, format2, fit2, blank⟩ := formatsFit (openFits k ident) (fun _ => rfl) wide high
  have size2 : vpipeGetSizeimage s2 .output = src.width * src.height := by
    rw [vpipeGetSizeimage, vpipeGFmt, Ctx.qData, fit2.format]
    exact congrArg QData.sizeimage (Tools.filledGrey wide high)
  have positive : 0 < src.width * src.height := Nat.mul_pos wide.1 high.1
  obtain ⟨s3, made3, fit3, output⟩ := reqbufsFirst fit2 (blank .output) .dmabuf 0 (by decide) honest.outGranted
  have capture3 : s3.queue .capture = Queue.empty blankBuf :=
    (output.other .capture (by decide)).trans (blank .capture)
  obtain ⟨s4, made4, fit4, capture⟩ :=
    reqbufsFirst fit3 capture3 .mmap env.capSlack (by decide) honest.capGranted
  obtain ⟨bufs, s5, made5, count, stocked⟩ := outputFilled honest sized fit4 (Nat.le_refl bufferCount)
  obtain ⟨s6, made6, fit6, queues6, kernel6⟩ := controlFits stocked.fit (algoSet cfg.algoKnown _)
  obtain ⟨s7, made7, fit7, queues7, kernel7⟩ := controlFits fit6 (thresholdSet cfg.thresholdRange _)
  have queue7 : ∀ t, s7.queue t = s4.queue t := fun t => by
    simp only [Sys.queue, queues7, queues6, stocked.queues]
  obtain ⟨s8, made8, fit8, lined8, output8, kernel8⟩ :=
    captureLined fit7 (allocatedLined fit3 capture (queue7 .capture)) (Nat.le_refl _)
  rw [List.length_range'] at made8
  obtain ⟨s9, made9, fit9, open9, output9, kernel9⟩ := captureStreams fit8 lined8 (by simp [bufferCount])
  have output4 : s9.queue .output = s3.queue .output := by
    rw [output9, output8, queue7, capture.other .output (by decide)]
  have outPlaced : Placed (s9.queue .output) (List.range' s2.k.machine.next bufferCount) .dmabuf
      (grey src.width src.height).sizeimage := by
    have placed := output.placed
    rw [Ctx.qData, fit2.format] at placed
    rw [output4]
    exact placed
  obtain ⟨s10, made10, serving, board, streamed⟩ := outputStreams fit9 outPlaced
    (by simp [bufferCount]) (by rw [output4]; exact output.unused) open9 (fixtureStarts fit9)
  refine orFailThen opened (orFailThen format1 (orFailThen format2 ?_))
  rw [size2]
  refine checkThen (by simp [Nat.ne_of_gt positive])
    (checkThen (by simp [sized.size]) (orFailThen made3 (orFailThen
    (by simp only [vpipeRequestMmapBuffers, made4, honest.capMapped, if_true, bind, Option.bind])
      (returnsThen made5
    (orFailThen made6 (orFailThen made7 (checkThen honest.csv (orFailThen made8 (orFailThen made9 (orFailThen
    (by rw [honest.start]; exact made10) (returnsOk ⟨⟨grey src.width src.height,.dmabuf,
      List.range' s2.k.machine.next bufferCount,List.range' s3.k.machine.next bufferCount⟩,?_⟩)))))))))))
  constructor
  case rig =>
    refine ⟨rfl,rfl,List.length_range' ..,List.length_range' ..,List.nodup_range' ..,count,stocked.size,?_,?_⟩
    · intro plane member inside
      have later := (stocked.blocks plane member).1
      rw [capture.next] at later
      rw [List.mem_range'_1] at inside
      omega
    · intro plane member
      show s10.k.machine.mem.slice plane _ = _
      rw [streamed.machine, kernel9, kernel8, kernel7, kernel6]
      exact stocked.filled plane member
  case serving => exact serving
  case source => exact (congrArg FrameSource.Source.backend streamed.source).trans fit9.source
  case board => exact ⟨_,board,List.Perm.refl _⟩
  case foreign => rfl
  case controls => exact streamed.controls
  case sequence => exact streamed.sequence
  case readings => rfl
  case reported => exact ⟨rfl,rfl,⟨[],by rw [streamed.published, List.append_nil],rfl⟩,by simp⟩

theorem loopKeeps (honest : Honest env) (room : k.sequence + cfg.frames < 2^64)
    (going : Going env cfg src k p 0 r) {n : Nat} (within : n ≤ cfg.frames) :
    Returns (frameLoop env cfg src n r) (Going env cfg src k p n) := by
  induction n with
  | zero => exact returnsOk going
  | succ n ih => exact returnsBind (ih (by omega)) (fun _ so => roundKeeps honest room so (by omega))

end Round

theorem smallFixture (cfg : Config) {src : PgmImage} (sized : WellSized src) (narrow : src.width ≤ defaultWidth)
    (low : src.height ≤ defaultHeight) :
    frameImage cfg src = src.pixels.map (processedPixel cfg.algoId cfg.threshold) :=
  wholeProcessed cfg.algoId cfg.threshold narrow low (sized.pixels.trans sized.size)

def eagerJobs : Env where
  clock := fun n => 10 * n
  around := ⟨fun n => if n % 3 = 1 then [.job 0,.job 1] else [],fun n => n⟩

def darkThreshold : Config where
  algoId := algoThreshold
  frames := 8
  threshold := 80
  outPath := true
  algoKnown := thresholdKnown
  framesRange := by decide
  thresholdRange := by decide

def ramp : PgmImage := ⟨16,12,192,(List.range 192).map UInt8.ofNat⟩

def rampFile : List UInt8 := vpipeWritePgm ramp.pixels ramp.width ramp.height

end Vpipe.BenchFixture
