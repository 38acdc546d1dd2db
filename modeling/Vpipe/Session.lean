import Vpipe.Accounting
import Vpipe.Bringup

/-! A whole run of `run_one` with the VCAM backend: the set-up brings the device into the stream
that the loops are proved over. -/
namespace Vpipe.Session
open Vpipe.Lib.Word Vpipe.Lib.ByteMemory Vpipe.Lib.BufferQueue Vpipe.Lib.Transition Vpipe.Lib.Outcome
open Vpipe.FrameSource Vpipe.MetaRing Vpipe.M2m Vpipe.Moves Vpipe.Discipline Vpipe.Runs Vpipe.Tools Vpipe.Stream
open Vpipe.Pipeline Vpipe.Runner Vpipe.Accounting
open Vpipe.Bringup (Fit Unused Allocated Lined Open Streamed)

section Start
variable {k : Kernel} {s : Sys} {controls : Controls}

theorem streamStarts (fit : Fit k .vcamDerived (grey width height) controls s)
    (algo : controls.algoId = algoNone) (never : k.machine.params.vcamDropEvery = 0)
    (alive : k.metaDev.dying = false) {out cap : List Nat} {memory : Memory}
    {limit : Nat} (room : k.sequence + limit < 2^64)
    (placed : Placed (s.queue .output) out memory (grey width height).sizeimage) (some_ : out ≠ [])
    (unused : Unused (s.queue .output)) (ready : Open (grey width height) s cap) (apart : (out ++ cap).Nodup) :
    ∃ p s', succeeded (vidiocStreamon s .output {}) = some s' ∧ Flow p s' ⟨0,0,0,0,0⟩ ∧
      p.format = grey width height ∧ p.memory = memory ∧ p.out = out ∧ p.cap = cap ∧ p.limit = limit ∧
      p.head = k.metaDev.head ∧ p.frames = k.frames.length := by
  obtain ⟨v, m, starts, fb, drops, _, offset, size, _⟩ := Bringup.vcamStarts s.k.machine
    s.c.outQ.sizeimage fit.source (by rw [fit.format]; decide)
  obtain ⟨s', made, serving, board, streamed⟩ := Bringup.outputStreams fit placed some_ unused ready starts
  have below : ∀ id ∈ out ++ cap, id < s.k.machine.next := by
    intro id member
    rcases List.mem_append.mp member with inside | inside
    · exact (fit.sane.sound .output).fresh id (.inl (placed.names.symm ▸ inside))
    · exact (fit.sane.sound .capture).fresh id (.inl (ready.placed.names.symm ▸ inside))
  let p : Plan :=
    { format := grey width height, memory := memory, out := out, cap := cap, fb := v.fb, seq := k.sequence
      head := k.metaDev.head, frames := k.frames.length, limit := limit
      apart := List.nodup_cons.mpr ⟨fun member => by have := below _ member; omega,apart⟩
      room := room }
  have outReady : (s'.queue .output).ready = [] := congrArg Lockstep.Board.outReady board
  have outDone : (s'.queue .output).done = [] := congrArg Lockstep.Board.outDone board
  have capReady : (s'.queue .capture).ready = cap := congrArg Lockstep.Board.capReady board
  have capDone : (s'.queue .capture).done = [] := congrArg Lockstep.Board.capDone board
  refine ⟨p,s',made,?_,rfl,rfl,rfl,rfl,rfl,rfl,rfl⟩
  constructor
  case toFixed =>
    constructor
    case format => exact serving.format
    case algo => rw [streamed.controls]; exact algo
    case fb =>
      rw [fit.format] at size
      rw [streamed.machine]
      exact size
    case alive => rw [streamed.metaDev]; exact alive
    case started => exact serving.started
    case outPlaced => exact serving.outPlaced
    case capPlaced => exact serving.capPlaced
  case sane => exact serving.sane
  case output => exact serving.output
  case limit => exact Nat.zero_le _
  case draws =>
    rw [streamed.source]
    exact ⟨fit.source,v,rfl,rfl,by rw [drops, fit.params, never],offset⟩
  case sequence => exact streamed.sequence
  case frames => exact congrArg List.length streamed.frames
  case head => exact congrArg MetaDev.head streamed.metaDev
  case inbound => exact ⟨by rw [outReady]; trivial,by rw [outReady]; rfl,by rw [outDone]; rfl⟩
  case outbound => exact ⟨by rw [capDone]; trivial,by rw [capDone]; rfl,by rw [capDone, capReady]; rfl⟩

theorem exportFlow {p : Plan} {n : Tally} (flow : Flow p s n) (fd : Nat) : ∃ s',
    exportSource s true (some fd) = some ((fd,p.fb),s') ∧ Flow p s' n := by
  obtain ⟨v, priv, fb, _⟩ := flow.draws.priv
  let m := vcamFbGet (s.k.machine.note (.call .exportDmabuf s.c.src.ident)) v.fb
  have made : vpipeExportSrcDmabuf s true (some fd) = (.ok fd,s.setMachine m) := by
    simp only [vpipeExportSrcDmabuf, vpipeSourceExportDmabuf, flow.draws.backend, vcamExportDmabuf, priv]
    rfl
  have sane := saneStep flow.sane (.exportSrcDmabuf true (some fd))
  have exact_ := Pairing.outputExactStep (e := .exportSrcDmabuf true (some fd)) flow.sane (by simp [StartClean])
    flow.output
  rw [Sys.step, made] at sane exact_
  refine ⟨s.setMachine m,?_,{flow with sane := sane, output := exact_, fb := ?_}⟩
  · simp only [exportSource, made, framebuffer, priv, fb]
  · have got : m.fbs v.fb = {s.k.machine.fbs v.fb with refcount := (s.k.machine.fbs v.fb).refcount + 1} :=
      Function.update_self _ _ _
    have size : (m.fbs p.fb).size = (s.k.machine.fbs p.fb).size := by rw [← fb, got]
    exact Nat.le_trans flow.fb (Nat.le_of_eq size.symm)

end Start

theorem cleanupThen {α β : Type} {st : RunStats} {o : Option α} {a : α} {next : α → Except Stopped β}
    {post : β → Prop} (some_ : o = some a) (then_ : Returns (next a) post) :
    Returns (orCleanup st o >>= next) post :=
  returnsThen (by rw [some_]; rfl) then_

structure Succeeds (env : Env) (cfg : Config) (buffer : BufferKind) (depth : Nat) : Prop where
  lat : env.lat = true
  opened : env.opened = {}
  backend : env.backend = true
  outGranted : 2 ≤ env.outGranted ∧ depth ≤ env.outGranted
  outMapped : buffer = .mmap → env.outMapped = true
  capGranted : cfg.queueDepth ≤ env.capGranted
  capMapped : env.capMapped = true
  csv : env.csv = true
  metaOpened : env.metaOpened = true
  start : env.start = {}
  exported : buffer = .dmabuf → env.exported = true ∧ ∃ fd, env.fd = some fd

section SetUp
variable {env : Env} {cfg : Config} {buffer : BufferKind} {depth : Nat} {k : Kernel} {s : Sys}
    {controls : Controls}

theorem outputRequested (succeeds : Succeeds env cfg buffer depth) (shallow : depth ≤ cfg.queueDepth)
    (single : buffer = .dmabuf → depth = 1) (fit : Fit k .vcamDerived (grey width height) controls s)
    (empty : s.queue .output = Queue.empty blankBuf) : ∃ s' n, requestOutput env cfg buffer s = some s' ∧
      Fit k .vcamDerived (grey width height) controls s' ∧ Allocated .output buffer s s' n ∧ 2 ≤ n ∧
        depth ≤ n := by
  have range := cfg.depthRange
  have granted := succeeds.outGranted
  have unused : Unused (s.queue .output) := by rw [empty]; exact ⟨rfl,rfl,rfl⟩
  have none_ : (s.queue .output).ids = [] := by rw [empty]; rfl
  cases buffer with
  | dmabuf =>
    have one := single rfl
    have agreed : min (if 1 < 2 then 2 else 1) env.outGranted = 2 := by
      rw [if_pos (by decide)]
      omega
    obtain ⟨s', made, fit', allocated⟩ :=
      Bringup.reqbufsGrants fit unused (by simp [none_]) .dmabuf env.outGranted
      env.outSlack (by decide) agreed (by decide)
    exact ⟨s',2,made,fit',allocated,by decide,by omega⟩
  | mmap =>
    have agreed : min (if cfg.queueDepth < 2 then 2 else cfg.queueDepth) env.outGranted =
        min cfg.queueDepth env.outGranted := by rw [if_neg (by omega)]
    obtain ⟨s', made, fit', allocated⟩ :=
      Bringup.reqbufsGrants fit unused (by simp [none_]) .mmap env.outGranted
      env.outSlack (by omega) agreed (by omega)
    refine ⟨s',_,?_,fit',allocated,by omega,by omega⟩
    simp only [requestOutput, vpipeRequestMmapBuffers, made, succeeds.outMapped rfl]
    rfl

theorem captureRequested (succeeds : Succeeds env cfg buffer depth)
    (fit : Fit k .vcamDerived (grey width height) controls s)
    (empty : s.queue .capture = Queue.empty blankBuf) :
    ∃ s', vpipeRequestMmapBuffers s .capture cfg.queueDepth env.capSlack env.capGranted env.capMapped =
      some s' ∧
      Fit k .vcamDerived (grey width height) controls s' ∧ Allocated .capture .mmap s s' cfg.queueDepth := by
  obtain ⟨s', made, fit', allocated⟩ :=
    Bringup.reqbufsFirst fit empty .mmap env.capSlack cfg.depthRange.1 succeeds.capGranted
  refine ⟨s',?_,fit',allocated⟩
  simp only [vpipeRequestMmapBuffers, made, succeeds.capMapped]
  rfl

structure Buffered (cfg : Config) (buffer : BufferKind) (depth : Nat) (k : Kernel) (s : Sys)
    (out cap : List Nat) : Prop where
  fit : Fit k .vcamDerived (grey width height) {} s
  placed : Placed (s.queue .output) out buffer (grey width height).sizeimage
  unused : Unused (s.queue .output)
  lined : Lined (grey width height) s cap 0
  enough : 2 ≤ out.length ∧ depth ≤ out.length
  length : cap.length = cfg.queueDepth
  apart : (out ++ cap).Nodup

theorem buffersFit (succeeds : Succeeds env cfg buffer depth) (shallow : depth ≤ cfg.queueDepth)
    (single : buffer = .dmabuf → depth = 1) (fit : Fit k .vcamDerived (grey width height) {} s)
    (empty : ∀ t, s.queue t = Queue.empty blankBuf) :
    ∃ s₁ s₂ s₃ out cap, requestOutput env cfg buffer s = some s₁ ∧
      vpipeRequestMmapBuffers s₁ .capture cfg.queueDepth env.capSlack env.capGranted env.capMapped = some s₂ ∧
      setControl s₂ cidAlgo algoNone = some s₃ ∧ s₃.queue .capture = s₂.queue .capture ∧
      Buffered cfg buffer depth k s₃ out cap := by
  obtain ⟨s₁, outCount, outMade, fit₁, output, two, enough⟩ :=
    outputRequested succeeds shallow single fit (empty .output)
  obtain ⟨s₂, capMade, fit₂, capture⟩ := captureRequested succeeds fit₁
    ((output.other .capture (by decide)).trans (empty .capture))
  obtain ⟨s₃, algoMade, fit₃, queues₃, _⟩ := Bringup.controlFits fit₂ (Bringup.algoSet (.inl rfl) _)
  have queues : ∀ t, s₃.queue t = s₂.queue t := fun t => by simp only [Sys.queue, queues₃]
  have outQueue : s₃.queue .output = s₁.queue .output :=
    (queues .output).trans (capture.other .output (by decide))
  have outPlaced := output.placed
  rw [Ctx.qData, fit.format] at outPlaced
  refine ⟨s₁,s₂,s₃,_,List.range' s₁.k.machine.next cfg.queueDepth,outMade,capMade,algoMade,queues .capture,fit₃,
    outQueue ▸ outPlaced,outQueue ▸ output.unused,Bringup.allocatedLined fit₁ capture (queues .capture),?_,
    List.length_range',?_⟩
  · rw [List.length_range']
    exact ⟨two,enough⟩
  · rw [output.next, List.range'_append_1]
    exact List.nodup_range'

theorem sourceExported (succeeds : Succeeds env cfg buffer depth) {p : Plan} {n : Tally} (flow : Flow p s n)
    (memory : p.memory = buffer) (st : RunStats) :
    Returns (sourceDescriptor env buffer st s) (fun a => ∃ srcFd s', a = (srcFd,s') ∧ Flow p s' n ∧
      (p.memory = .dmabuf → ∃ fd, srcFd = some (fd,p.fb))) := by
  cases buffer with
  | mmap => exact returnsOk ⟨none,s,rfl,flow,by rw [memory]; intro; contradiction⟩
  | dmabuf =>
    obtain ⟨exported, fd, given⟩ := succeeds.exported rfl
    obtain ⟨s', made, flow'⟩ := exportFlow flow fd
    refine ⟨_,?_,some (fd,p.fb),s',rfl,flow',fun _ => ⟨fd,rfl⟩⟩
    simp only [sourceDescriptor, exported, given, made]
    rfl

theorem mappingBlock {s : Sys} {t : QType} {ids : List Nat} {size : Nat}
    (placed : Placed (s.queue t) ids .mmap size) {i id : Nat} (found : ids[i]? = some id) :
    ((mappings s t).getD i ⟨0,0⟩).block = id := by
  rw [mappings, placed.names, List.getD_eq_getElem?_getD, List.getElem?_map, found]
  exact (placed.plane rfl id (List.mem_of_getElem? found)).1

theorem depthBounds (cfg : Config) (buffer : BufferKind) (outInflight : Nat) :
    (1 ≤ outDepth cfg buffer outInflight ∧ outDepth cfg buffer outInflight ≤ cfg.queueDepth) ∧
      (buffer = .dmabuf → outDepth cfg buffer outInflight = 1) := by
  have range := cfg.depthRange
  constructor
  · cases buffer <;> simp only [outDepth] <;> repeat' split
    all_goals omega
  · rintro rfl
    simp only [outDepth]
    rw [if_neg (show ¬ 1 > cfg.queueDepth by omega)]
    rfl

theorem setUpFills {outInflight : Nat} (succeeds : Succeeds env cfg buffer (outDepth cfg buffer outInflight))
    (source : cfg.source = .vcam) (never : k.machine.params.vcamDropEvery = 0)
    (alive : k.metaDev.dying = false) (room : k.sequence + cfg.frames < 2^64) (ident : Nat)
    {statics : Crc.Statics}
    (sound : statics.Sound) :
    Returns (setUp env cfg buffer outInflight k ident statics) (fun r => ∃ p,
      Planned cfg buffer (outDepth cfg buffer outInflight) p ∧ p.frames = k.frames.length ∧
      Filling cfg (outDepth cfg buffer outInflight) p r ∧ r.submitted = 0) := by
  obtain ⟨⟨positive, shallow⟩, single⟩ := depthBounds cfg buffer outInflight
  obtain ⟨s₁, s₂, s₃, backend, outFormat, capFormat, fit₃, empty⟩ :=
    Bringup.vcamFormatsFit k ident (show 1 ≤ width ∧ width ≤ 4096 by decide)
      (show 1 ≤ height ∧ height ≤ 4096 by decide)
  obtain ⟨s₄, s₅, s₆, out, cap, outMade, capMade, algoMade, capSame, buffered⟩ :=
    buffersFit succeeds shallow single fit₃ empty
  have range := cfg.depthRange
  obtain ⟨s₇, queued, fit₇, lined₇, output₇, _⟩ :=
    Bringup.captureLined buffered.fit buffered.lined (Nat.le_refl _)
  obtain ⟨s₈, capStarted, fit₈, open₈, output₈, _⟩ := Bringup.captureStreams fit₇ lined₇
    (List.ne_nil_of_length_pos (by rw [buffered.length]; omega))
  have outQueue : s₈.queue .output = s₆.queue .output := output₈.trans output₇
  obtain ⟨p, s₉, outStarted, flow, format, memory, outIds, capIds, limit, head, frames⟩ :=
    streamStarts fit₈ rfl never alive room (outQueue ▸ buffered.placed)
    (List.ne_nil_of_length_pos (Nat.lt_of_lt_of_le (by decide) buffered.enough.1)) (outQueue ▸ buffered.unused)
    open₈ buffered.apart
  have size : vpipeGetSizeimage s₃ .output = (grey width height).sizeimage := by
    simp only [vpipeGetSizeimage, vpipeGFmt, Ctx.qData, fit₃.format]
    decide
  rw [buffered.length] at queued
  unfold setUp
  simp only [source, succeeds.lat, succeeds.opened, succeeds.backend, succeeds.csv, succeeds.metaOpened,
    succeeds.start, if_true]
  refine cleanupThen rfl ?_
  refine cleanupThen (congrArg Except.toOption (openSucceeds k ident)) ?_
  refine cleanupThen backend ?_
  refine cleanupThen outFormat ?_
  refine cleanupThen capFormat ?_
  refine cleanupThen (if_neg (by rw [size]; decide)) ?_
  refine cleanupThen outMade ?_
  refine cleanupThen capMade ?_
  refine cleanupThen algoMade ?_
  refine cleanupThen rfl ?_
  refine cleanupThen queued ?_
  refine cleanupThen capStarted ?_
  refine cleanupThen outStarted ?_
  refine returnsBind (sourceExported succeeds flow memory _) ?_
  rintro _ ⟨srcFd, s₁₀, rfl, flow', shared⟩
  have cursor : vpipeMetaOpen s₆.k.metaDev = ⟨p.head⟩ := by rw [vpipeMetaOpen, buffered.fit.metaDev, head]
  have flows : Flows p s₁₀ ⟨0,0,0,0,0⟩ := ⟨0,Nat.le_refl _,flow'⟩
  refine returnsOk ⟨p,?_,frames,⟨⟨?_,shared,?_,flows,?_,sound,rfl,?_,?_⟩,Nat.zero_le _,rfl,rfl,?_⟩,rfl⟩
  · refine ⟨source,memory,format,limit,capIds ▸ buffered.length,?_,⟨positive,shallow⟩,single⟩
    rw [outIds]
    exact buffered.enough.2
  · intro i id found
    exact mappingBlock (capSame ▸ buffered.lined.placed) (capIds ▸ found)
  · simp only
    rw [size, format]
  · simp only [cursor]
    rfl
  · exact Lib.Ring.holdsEmpty _
  · exact ⟨rfl,rfl,by simp,rfl,rfl⟩
  · intro i id _ found
    exact outputIdle flows rfl (List.mem_of_getElem? found)

end SetUp

structure AllAccounted (cfg : Config) (depth first : Nat) (r : Locals) : Prop where
  submitted : r.submitted = cfg.frames
  completed : r.completed = cfg.frames
  csumChecked : r.stats.csumChecked = cfg.frames
  csumPass : r.stats.csumPass = cfg.frames
  verifyChecked : r.stats.verifyChecked = if cfg.verifyPattern then cfg.frames else 0
  verifyPass : r.stats.verifyPass = r.stats.verifyChecked
  stamps : r.stamps.length = cfg.frames
  rounds : r.rounds.length = cfg.frames
  each : ∀ n round, r.rounds[n]? = some round → Accounted cfg depth first r.s.k.frames r.stamps n round

/-- Alone on a device that drops nothing, with every call succeeding and jobs run in queue order at
any time, run_one accounts for every frame, in either transport and at any depth. `earlier` is what
the process has checksummed before; the module's frame number does not wrap within the run. -/
theorem runnerAccounts (env : Env) (cfg : Config) (buffer : BufferKind) (outInflight : Nat)
    (k : Kernel) (ident : Nat) (earlier : List (List UInt8))
    (succeeds : Succeeds env cfg buffer (outDepth cfg buffer outInflight))
    (source : cfg.source = .vcam) (never : k.machine.params.vcamDropEvery = 0) (alive : k.metaDev.dying = false)
    (room : k.sequence + cfg.frames < 2^64) :
    ∃ r, runLoops env cfg buffer outInflight k ident (Crc.checksummed earlier) = .ok r ∧
      AllAccounted cfg (outDepth cfg buffer outInflight) k.frames.length r ∧
      runOne env cfg buffer outInflight k ident (Crc.checksummed earlier) = some {r.stats with ok := true} := by
  have whole : Returns (runLoops env cfg buffer outInflight k ident (Crc.checksummed earlier))
      (AllAccounted cfg (outDepth cfg buffer outInflight) k.frames.length) := by
    refine returnsBind (setUpFills succeeds source never alive room ident (Crc.checksummedSound earlier)) ?_
    rintro r ⟨p, planned, frames, filling, none_⟩
    obtain ⟨r', made, tied, completed⟩ := loopsAccount planned env filling none_
    have submitted : r'.submitted = cfg.frames := by
      rw [tied.submitted, completed]
      omega
    refine ⟨r',made,submitted,completed,?_,?_,?_,tied.stats.verifyPass,tied.stamps.trans submitted,?_,?_⟩
    · rw [tied.stats.csumChecked, completed]
    · rw [tied.stats.csumPass, completed]
    · rw [tied.stats.verifyChecked, completed]
    · rw [tied.rounds, completed]
    · rw [← frames]
      exact tied.each
  obtain ⟨r, made, accounted⟩ := whole
  exact ⟨r,made,accounted,by simp only [runOne, made]⟩

def shortConfig : Config where
  frames := 3
  fps := 30
  queueDepth := 2
  source := .vcam
  verifyPattern := true
  framesRange := by decide
  fpsRange := by decide
  depthRange := by decide

def lazyEnv : Env where
  outGranted := 2
  capGranted := 2
  clock := fun n => 1000 * n
  jobs := fun _ => []
  waits := fun _ => 0

theorem lazySucceeds (buffer : BufferKind) {depth : Nat} (small : depth ≤ 2) :
    Succeeds lazyEnv shortConfig buffer depth :=
  ⟨rfl,rfl,rfl,⟨by decide,small⟩,fun _ => rfl,by decide,rfl,rfl,rfl,rfl,fun _ => ⟨rfl,0,rfl⟩⟩

theorem threeFramesAccounted :
    Succeeds lazyEnv shortConfig .mmap 2 ∧
    (∃ r, runLoops lazyEnv shortConfig .mmap 2 (Kernel.boot (fun n => n) {}) 0 (Crc.checksummed []) = .ok r ∧
      AllAccounted shortConfig 2 0 r) ∧
    ∃ r, runLoops lazyEnv shortConfig .dmabuf 2 (Kernel.boot (fun n => n) {}) 0 (Crc.checksummed []) = .ok r ∧
      AllAccounted shortConfig 1 0 r := by
  refine ⟨lazySucceeds .mmap (by decide),?_,?_⟩
  · obtain ⟨r, made, accounted, _⟩ := runnerAccounts lazyEnv shortConfig .mmap 2
      (Kernel.boot (fun n => n) {}) 0 [] (lazySucceeds .mmap (by decide)) rfl rfl rfl (by decide)
    exact ⟨r,made,accounted⟩
  · obtain ⟨r, made, accounted, _⟩ := runnerAccounts lazyEnv shortConfig .dmabuf 2
      (Kernel.boot (fun n => n) {}) 0 [] (lazySucceeds .dmabuf (by decide)) rfl rfl rfl (by decide)
    exact ⟨r,made,accounted⟩

end Vpipe.Session
