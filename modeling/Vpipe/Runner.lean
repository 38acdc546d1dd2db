import Vpipe.Gradient
import Vpipe.Tools

/-! The benchmark tool `vpipe-vcam-runner`: `run_one`, which keeps a number of OUTPUT frames in
flight, dequeues each CAPTURE frame, reads its metadata row and checks both. The tool and the job
scheduler interleave: `jobs n` lists the processors on which a job is run at the n-th place where
the tool leaves room for it, and a DQBUF that finds nothing done waits for one job more. What
run_one computes after its main loop is in `Latency`; the cleanup is left out. `stamps` and `rounds`
are bookkeeping. -/
namespace Vpipe.Runner
open Vpipe.Lib.Word Vpipe.Lib.ByteMemory Vpipe.Lib.BufferQueue Vpipe.Lib.Transition
open Vpipe.FrameSource Vpipe.MetaRing Vpipe.M2m Vpipe.Tools

def width : Nat := 640
def height : Nat := 480
def stride : Nat := width
def maxQueueDepth : Nat := 32
def uintMax : Nat := 2^32 - 1

inductive SourceKind where
  | fixture | vcam
  deriving DecidableEq, Repr

abbrev BufferKind := Memory

structure Config where
  frames : Nat
  fps : Nat
  queueDepth : Nat
  source : SourceKind
  verifyPattern : Bool
  framesRange : 1 ≤ frames ∧ frames ≤ uintMax
  fpsRange : fps ≤ 1000
  depthRange : 2 ≤ queueDepth ∧ queueDepth ≤ maxQueueDepth

structure RunStats where
  ok : Bool := false
  buffer : BufferKind
  source : SourceKind
  frames : Nat
  fps : Nat
  queueDepth : Nat
  outInflight : Nat
  metaAvailable : Bool := false
  occMax : Nat := 0
  dropped : Nat := 0
  csumChecked : Nat := 0
  csumPass : Nat := 0
  verifyChecked : Nat := 0
  verifyPass : Nat := 0
  deriving DecidableEq, Repr

structure Pacer where
  nextNs : Nat := 0
  intervalNs : Nat := 0
  deriving DecidableEq, Repr

structure CsvRow where
  frame : Nat
  bufferType : Nat
  usQbufNs : Nat
  usDqbufNs : Nat
  usLatencyNs : Nat
  metaSeq : Nat
  sourceTsNs : Nat
  qbufTsNs : Nat
  captureDoneNs : Nat
  dqbufTsNs : Nat
  queueDepth : Nat
  cpuId : Nat
  crc32Kernel : Nat
  crc32User : Nat
  dropped : Bool
  flags : Nat
  deriving DecidableEq, Repr

/- What one iteration of the main loop saw: the frames in flight at its top, the slot it read,
the memory of the buffer it dequeued, its bytes, their checksum and the row read for it; and the
OUTPUT index it submitted next, with the state of the buffer of that index before. -/
structure Round where
  inflight : Nat
  slot : Nat
  buffer : Nat
  image : List UInt8
  crcUser : Nat
  entry : Option MetaEntry
  requeued : Option (Nat × Option BufState)

structure Env where
  lat : Bool := true
  opened : OpenEnv := {}
  backend : Bool := true
  outGranted : Nat
  outSlack : Nat := 0
  outMapped : Bool := true
  capGranted : Nat
  capSlack : Nat := 0
  capMapped : Bool := true
  csv : Bool := true
  metaOpened : Bool := true
  start : StartEnv := {}
  exported : Bool := true
  fd : Option Nat := some 0
  clock : Nat → Nat
  jobs : Nat → List Nat
  waits : Nat → Nat

def Env.surroundings (env : Env) : Surroundings := ⟨fun n => (env.jobs n).map .job,env.waits⟩

/- The local variables of run_one, with the device and the statics of the process. A descriptor
of an exported DMA-BUF carries the framebuffer it stands for. -/
structure Locals extends Client where
  outBufs : List Plane
  capBufs : List Plane
  outSizeimage : Nat
  metaFd : Option MetaFile
  srcFd : Option (Nat × Nat) := none
  statics : Crc.Statics
  stats : RunStats
  qbufRing : Nat → Nat := fun _ => 0
  lat : List Nat := []
  pacer : Pacer := {}
  submitted : Nat := 0
  completed : Nat := 0
  csv : List CsvRow := []
  readings : Nat := 0
  stamps : List Nat := []
  rounds : List Round := []

abbrev Stopped := Stop × RunStats

def orCleanup {α : Type} (st : RunStats) : Option α → Except Stopped α
  | some a => .ok a
  | none => .error (.failed,st)

def fillGradient (dst : Plane) (offset : Nat) (m : Mem) : Mem :=
  (loop height (fun y m => loop width (fun x m =>
    m.write dst (u64 (y * stride) + x) (UInt8.ofNat (u32 (x + y + offset) &&& 0xFF))) m) m).write dst 0
    (UInt8.ofNat (offset &&& 0xFF))

def verifyGradient (cap : Nat → UInt8) : Bool :=
  let offset := (cap 0).toNat
  (List.range height).all (fun y => (List.range width).all (fun x =>
    cap (y * stride + x) == UInt8.ofNat (u32 (x + y + offset) &&& 0xFF)))

def yield (env : Env) (r : Locals) : Locals := {r with toClient := r.toClient.pass env.surroundings}

def pace (env : Env) (r : Locals) : Locals :=
  if r.pacer.intervalNs = 0 then r
  else
    let (next,readings) :=
      if r.pacer.nextNs = 0 then vpipeNowMonotonicNs env.clock r.readings else (r.pacer.nextNs,r.readings)
    {r with pacer := {r.pacer with nextNs := u64 (next + r.pacer.intervalNs)}, readings := readings}

def dqbuf (env : Env) (t : QType) (r : Locals) : Except Stopped (V4l2Buffer × Locals) :=
  match r.toClient.dqbuf env.surroundings t with
  | .error stop => .error (stop,r.stats)
  | .ok (buf,c) => .ok (buf,{r with toClient := c})

def qbuf (env : Env) (t : QType) (index : Nat) (att : Option Attachment) (r : Locals) :
    Except Stopped Locals :=
  match r.toClient.qbuf env.surroundings t index att with
  | .error stop => .error (stop,r.stats)
  | .ok c => .ok {r with toClient := c}

def readMeta (env : Env) (r : Locals) : Except Stopped (Option MetaEntry × Locals) :=
  match r.metaFd with
  | none => .ok (none,r)
  | some file =>
    let r := yield env r
    match vpipeMetaRead r.s.k.metaDev file sizeofMetaEntry false false true with
    | none => .error (.blocked,r.stats)
    | some (.entry e,file) => .ok (some e,{r with metaFd := some file})
    | some (_,file) => .ok (none,{r with metaFd := some file})

def submitOutput (env : Env) (cfg : Config) (buffer : BufferKind) (frameNo mmapIndex : Nat) (r : Locals) :
    Except Stopped Locals :=
  let r := pace env r
  let (now,readings) := vpipeNowMonotonicNs env.clock r.readings
  let r := {r with
    readings := readings
    qbufRing := Function.update r.qbufRing (frameNo % cfg.queueDepth) now
    stamps := r.stamps ++ [now]}
  match buffer with
  -- queue_output_dmabuf
  | .dmabuf => qbuf env .output 0 (r.srcFd.map (fun fd => ⟨⟨fd.2,r.outSizeimage⟩,true⟩)) r
  | .mmap =>
    let r := match cfg.source with
      | .fixture =>
        let m := r.s.k.machine
        {r with s := r.s.setMachine {m with mem := fillGradient (r.outBufs.getD mmapIndex ⟨0,0⟩) frameNo m.mem}}
      | .vcam => r
    qbuf env .output mmapIndex none r

def outDepth (cfg : Config) (buffer : BufferKind) (outInflight : Nat) : Nat :=
  let depth := match buffer with
    | .dmabuf => 1
    | .mmap => outInflight
  let depth := if depth > cfg.queueDepth then cfg.queueDepth else depth
  if depth < 1 then 1 else depth

def backendId : SourceKind → Nat
  | .vcam => Backend.vcamDerived.id
  | .fixture => Backend.fixture.id

def requestOutput (env : Env) (cfg : Config) (buffer : BufferKind) (s : Sys) : Option Sys :=
  match buffer with
  | .dmabuf => succeeded (vidiocReqbufs s .output 1 .dmabuf env.outSlack env.outGranted)
  | .mmap => vpipeRequestMmapBuffers s .output cfg.queueDepth env.outSlack env.outGranted env.outMapped

def framebuffer (s : Sys) : Option Nat :=
  match s.c.src.priv with
  | .vcam p => some p.fb
  | _ => none

def exportSource (s : Sys) (exported : Bool) (fd : Option Nat) : Option ((Nat × Nat) × Sys) :=
  match vpipeExportSrcDmabuf s exported fd, framebuffer s with
  | (.ok fd,s), some fb => some ((fd,fb),s)
  | _, _ => none

def sourceDescriptor (env : Env) (buffer : BufferKind) (st : RunStats) (s : Sys) :
    Except Stopped (Option (Nat × Nat) × Sys) :=
  match buffer with
  | .mmap => .ok (none,s)
  | .dmabuf => orCleanup st ((exportSource s env.exported env.fd).map (fun found => (some found.1,found.2)))

/- Up to the fill loop. Nothing streams before STREAMON, so no job can run. -/
def setUp (env : Env) (cfg : Config) (buffer : BufferKind) (outInflight : Nat) (k : Kernel) (ident : Nat)
    (statics : Crc.Statics) : Except Stopped Locals := do
  let st : RunStats :=
    { buffer := buffer, source := cfg.source, frames := cfg.frames, fps := cfg.fps, queueDepth := cfg.queueDepth
      outInflight := outDepth cfg buffer outInflight }
  let _ ← orCleanup st (if env.lat then some () else none)
  let s ← orCleanup st (vpipeOpen k ident env.opened).toOption
  let s ← orCleanup st (vpipeSetBackend s (backendId cfg.source) env.backend).toOption
  let s ← orCleanup st (vpipeSetFormat s .output width height pixFmtGrey)
  let s ← orCleanup st (vpipeSetFormat s .capture width height pixFmtGrey)
  let outSizeimage := vpipeGetSizeimage s .output
  let _ ← orCleanup st (if outSizeimage = 0 then none else some ())
  let s ← orCleanup st (requestOutput env cfg buffer s)
  let s ← orCleanup st (vpipeRequestMmapBuffers s .capture cfg.queueDepth env.capSlack
    env.capGranted env.capMapped)
  let outBufs := match buffer with
    | .dmabuf => []
    | .mmap => mappings s .output
  let capBufs := mappings s .capture
  let s ← orCleanup st (setControl s cidAlgo algoNone)
  let _ ← orCleanup st (if env.csv then some () else none)
  let metaFd := if env.metaOpened then some (vpipeMetaOpen s.k.metaDev) else none
  let st := {st with metaAvailable := metaFd.isSome}
  let s ← orCleanup st (queueCapture cfg.queueDepth s)
  let s ← orCleanup st (succeeded (vidiocStreamon s .capture {}))
  let s ← orCleanup st (succeeded (vidiocStreamon s .output env.start))
  let (srcFd,s) ← sourceDescriptor env buffer st s
  .ok { s := s, outBufs := outBufs, capBufs := capBufs, outSizeimage := outSizeimage, metaFd := metaFd
        srcFd := srcFd, statics := statics, stats := st
        pacer := {intervalNs := if cfg.fps ≠ 0 then 1000000000 / cfg.fps else 0} }

def fillLoop (env : Env) (cfg : Config) (buffer : BufferKind) (depth : Nat) :
    Nat → Locals → Except Stopped Locals
  | 0, r => .ok r
  | rounds+1, r =>
    if r.submitted < cfg.frames ∧ r.submitted < depth then do
      let r ← submitOutput env cfg buffer r.submitted r.submitted r
      fillLoop env cfg buffer depth rounds {r with submitted := r.submitted + 1}
    else .ok r

def accounted (cfg : Config) (st : RunStats) (entry : Option MetaEntry) (crcUser : Nat) (pattern : Bool) :
    Bool × RunStats :=
  let dropped := match entry with
    | none => false
    | some m => m.flags &&& metaFDropped ≠ 0
  let st := match entry with
    | none => st
    | some m =>
      let st := if dropped then {st with dropped := st.dropped + 1} else st
      let st := {st with csumChecked := st.csumChecked + 1}
      if crcUser = m.crc32 then {st with csumPass := st.csumPass + 1} else st
  let st :=
    if cfg.verifyPattern ∧ cfg.source = .vcam ∧ dropped = false then
      let st := {st with verifyChecked := st.verifyChecked + 1}
      if pattern then {st with verifyPass := st.verifyPass + 1} else st
    else st
  (dropped,st)

def csvRow (frame slot tDq latency : Nat) (entry : Option MetaEntry) (crcUser : Nat) (dropped : Bool) :
    CsvRow :=
  let m := entry.getD {}
  ⟨frame,m.bufferType,slot,tDq,latency,m.seq,m.sourceTimestampNs,m.qbufTimestampNs,m.captureDoneNs,
    m.dqbufTimestampNs,m.queueDepth,m.cpuId,m.crc32,crcUser,dropped,m.flags⟩

def stateAt (s : Sys) (t : QType) (index : Nat) : Option BufState :=
  ((s.queue t).ids[index]?).map (fun id => ((s.queue t).buf id).state)

def submittedIndex (buffer : BufferKind) (mmapIndex : Nat) : Nat :=
  match buffer with
  | .dmabuf => 0
  | .mmap => mmapIndex

def account (env : Env) (cfg : Config) (inflight tDq : Nat) (capDq : V4l2Buffer) (r : Locals) :
    Except Stopped (Round × Locals) := do
  let addr := r.capBufs.getD capDq.index ⟨0,0⟩
  let r := yield env r
  let image := r.s.k.machine.mem.slice addr capDq.bytesused
  let (crcUser,statics) := Crc.vpipeCrc32 image r.statics
  let (entry,r) ← readMeta env {r with statics := statics}
  let slot := r.qbufRing (r.completed % cfg.queueDepth)
  let latency := u64 (tDq + 2^64 - slot)
  let r := yield env r
  let pattern := verifyGradient (fun i => r.s.k.machine.mem.get addr i)
  let (dropped,st) := accounted cfg r.stats entry crcUser pattern
  .ok (⟨inflight,slot,addr.block,image,crcUser,entry,none⟩,{r with
    lat := r.lat ++ [latency], stats := st
    csv := r.csv ++ [csvRow r.completed slot tDq latency entry crcUser dropped]
    completed := r.completed + 1})

def refill (env : Env) (cfg : Config) (buffer : BufferKind) (round : Round) (outIndex : Nat) (r : Locals) :
    Except Stopped Locals :=
  if r.submitted < cfg.frames then do
    let index := submittedIndex buffer outIndex
    let state := stateAt r.s .output index
    let r ← submitOutput env cfg buffer r.submitted outIndex r
    .ok {r with
      submitted := r.submitted + 1
      rounds := r.rounds ++ [{round with requeued := some (index,state)}]}
  else .ok {r with rounds := r.rounds ++ [round]}

def mainRound (env : Env) (cfg : Config) (buffer : BufferKind) (r : Locals) : Except Stopped Locals := do
  let inflight := u32 (r.submitted + 2^32 - r.completed)
  let r := {r with stats := {r.stats with occMax := max r.stats.occMax inflight}}
  let (capDq,r) ← dqbuf env .capture r
  let (tDq,readings) := vpipeNowMonotonicNs env.clock r.readings
  if capDq.index ≥ cfg.queueDepth then .error (.failed,r.stats)
  else do
    let (round,r) ← account env cfg inflight tDq capDq {r with readings := readings}
    let r ← qbuf env .capture capDq.index none r
    let (outDq,r) ← dqbuf env .output r
    refill env cfg buffer round outDq.index r

def mainLoop (env : Env) (cfg : Config) (buffer : BufferKind) : Nat → Locals → Except Stopped Locals
  | 0, r => .ok r
  | rounds+1, r =>
    if r.completed < cfg.frames then do
      let r ← mainRound env cfg buffer r
      mainLoop env cfg buffer rounds r
    else .ok r

def runLoops (env : Env) (cfg : Config) (buffer : BufferKind) (outInflight : Nat) (k : Kernel) (ident : Nat)
    (statics : Crc.Statics) : Except Stopped Locals := do
  let depth := outDepth cfg buffer outInflight
  let r ← setUp env cfg buffer outInflight k ident statics
  let r ← fillLoop env cfg buffer depth depth r
  mainLoop env cfg buffer cfg.frames r

def runOne (env : Env) (cfg : Config) (buffer : BufferKind) (outInflight : Nat) (k : Kernel) (ident : Nat)
    (statics : Crc.Statics) : Option RunStats :=
  match runLoops env cfg buffer outInflight k ident statics with
  | .ok r => some {r.stats with ok := true}
  | .error (.failed,st) => some st
  | .error (.blocked,_) => none

end Vpipe.Runner
