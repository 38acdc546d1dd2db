import Vpipe.Crc
import Vpipe.Cv
import Vpipe.FrameSource
import Vpipe.Lib.BufferQueue
import Vpipe.MetaRing

/-! The mem2mem device of `vpipe-m2m.c` between videobuf2 and the frame sources: formats,
controls, the buffer callbacks, `device_run` and the ioctls that reach them. Ioctls run under
the device mutex and are one step each; an ioctl that fails may still have changed the state,
so the handlers return the error code and the state. The framework's limits on the number and
the memory type of buffers are left out. `frames`, `published` and `returned` of the kernel and
`qbufControls` and `handover` of a buffer are bookkeeping that no modelled function reads. -/
namespace Vpipe.M2m
open Vpipe.Lib.Word Vpipe.Lib.ByteMemory Vpipe.Lib.BufferQueue Vpipe.Lib.Transition
open Vpipe.Cv Vpipe.FrameSource Vpipe.MetaRing

def defaultWidth : Nat := 640
def defaultHeight : Nat := 480
def defaultThreshold : Nat := 127

inductive QType where
  | output | capture
  deriving DecidableEq, Repr

instance (p : QType → Prop) [DecidablePred p] : Decidable (∀ t, p t) :=
  decidable_of_iff (p .output ∧ p .capture) ⟨fun both t => match t with
    | .output => both.1
    | .capture => both.2,fun all => ⟨all .output,all .capture⟩⟩

structure QData where
  width : Nat
  height : Nat
  bytesperline : Nat
  sizeimage : Nat
  pixelformat : Nat
  deriving DecidableEq, Repr

structure PixFormat where
  width : Nat
  height : Nat
  pixelformat : Nat := 0
  field : Nat := 0
  bytesperline : Nat := 0
  sizeimage : Nat := 0
  colorspace : Nat := 0
  ycbcrEnc : Nat := 0
  quantization : Nat := 0
  xferFunc : Nat := 0
  deriving DecidableEq, Repr

structure Controls where
  srcSequence : Nat := 0
  algoId : Nat := algoNone
  threshold : Nat := defaultThreshold
  roi : Roi := ⟨0,0,defaultWidth,defaultHeight⟩
  deriving DecidableEq, Repr

structure Handover where
  source : Nat
  backend : Backend
  ret : Option Errno
  deriving DecidableEq, Repr

structure VpipeBuffer where
  payload : Nat := 0
  timestamp : Nat := 0
  field : Nat := 0
  flags : Nat := 0
  sequence : Nat := 0
  srcSequence : Nat := 0
  algoId : Nat := 0
  threshold : Nat := 0
  roi : Roi := {}
  srcDesc : FrameDesc := {}
  qbufNs : Nat := 0
  metaPending : MetaEntry := {}
  qbufControls : Controls := {}
  handover : Option Handover := none
  deriving DecidableEq, Repr

/- A successful device_run: the buffers, the job, the source buffer as it was used, the
source of the context, and memory before and after. -/
structure Frame where
  owner : Nat
  source : Nat
  target : Nat
  job : JobDesc
  used : VpipeBuffer
  src : Source
  before : Mem
  after : Mem
  entry : MetaEntry

structure Publication where
  buffer : Nat
  entry : MetaEntry
  deriving DecidableEq, Repr

structure Returned where
  buffer : Nat
  index : Nat
  error : Bool
  bytesused : Nat
  timestamp : Nat
  sequence : Nat
  deriving DecidableEq, Repr

structure Kernel where
  machine : Machine
  sequence : Nat
  metaDev : MetaDev
  frames : List Frame
  published : List Publication
  returned : List Returned

def Kernel.boot (clock : Nat → Nat) (params : Params) : Kernel where
  machine := ⟨clock,0,0,⟨fun _ _ => 0,[]⟩,params,fun _ => ⟨0,0⟩,[],[]⟩
  sequence := 0
  metaDev := MetaDev.init
  frames := []
  published := []
  returned := []

structure Ctx where
  ident : Nat
  outQ : QData
  capQ : QData
  controls : Controls
  src : Source
  queues : QType → Queue VpipeBuffer

structure Sys where
  k : Kernel
  c : Ctx

def Sys.queue (s : Sys) (t : QType) : Queue VpipeBuffer := s.c.queues t

def Sys.setQueue (s : Sys) (t : QType) (q : Queue VpipeBuffer) : Sys :=
  {s with c := {s.c with queues := Function.update s.c.queues t q}}

def Sys.setMachine (s : Sys) (m : Machine) : Sys := {s with k := {s.k with machine := m}}

def Ctx.qData (c : Ctx) : QType → QData
  | .output => c.outQ
  | .capture => c.capQ

def fieldNone : Nat := 1
def colorspaceSrgb : Nat := 8
def ycbcrEncDefault : Nat := 0
def quantizationFullRange : Nat := 1
def xferFuncDefault : Nat := 0

def vpipeFillPixFormat (width height : Nat) : PixFormat :=
  let width := clampNat width 1 4096
  let height := clampNat height 1 4096
  { width := width
    height := height
    pixelformat := pixFmtGrey
    field := fieldNone
    bytesperline := width
    sizeimage := u32 (width * height)
    colorspace := colorspaceSrgb
    ycbcrEnc := ycbcrEncDefault
    quantization := quantizationFullRange
    xferFunc := xferFuncDefault }

def vpipeGFmt (c : Ctx) (t : QType) : PixFormat :=
  vpipeFillPixFormat (c.qData t).width (c.qData t).height

def vpipeTryFmt (pix : PixFormat) : PixFormat := vpipeFillPixFormat pix.width pix.height

def Ctx.busy (c : Ctx) (t : QType) : Bool := !(c.queues t).ids.isEmpty

def qDataOf (pix : PixFormat) : QData :=
  ⟨pix.width,pix.height,pix.bytesperline,pix.sizeimage,pix.pixelformat⟩

def vpipeSFmt (c : Ctx) (t : QType) (pix : PixFormat) : Except Errno (PixFormat × Ctx) :=
  if c.busy t then .error .ebusy
  else
    let pix := vpipeTryFmt pix
    match t with
    | .output =>
      let c := {c with outQ := qDataOf pix}
      .ok (pix,{c with capQ := c.outQ})
    | .capture =>
      let c := {c with capQ := qDataOf pix}
      .ok (pix,{c with outQ := c.capQ})

inductive CtrlType where
  | integer | menu
  deriving DecidableEq, Repr

structure CtrlConfig where
  id : Nat
  type : CtrlType
  min : Int
  max : Int
  deriving DecidableEq, Repr

def vpipeCtrlSrcSequence : CtrlConfig := ⟨cidSrcSequence,.integer,0,2^31 - 1⟩
def vpipeCtrlAlgo : CtrlConfig := ⟨cidAlgo,.menu,algoNone,algoThreshold⟩
def vpipeCtrlRoiLeft : CtrlConfig := ⟨cidRoiLeft,.integer,0,4096⟩
def vpipeCtrlRoiTop : CtrlConfig := ⟨cidRoiTop,.integer,0,4096⟩
def vpipeCtrlRoiWidth : CtrlConfig := ⟨cidRoiWidth,.integer,0,4096⟩
def vpipeCtrlRoiHeight : CtrlConfig := ⟨cidRoiHeight,.integer,0,4096⟩
def vpipeCtrlThreshold : CtrlConfig := ⟨cidThreshold,.integer,0,255⟩

def ctrlConfigs : List CtrlConfig :=
  [vpipeCtrlSrcSequence,vpipeCtrlAlgo,vpipeCtrlRoiLeft,vpipeCtrlRoiTop,vpipeCtrlRoiWidth,
    vpipeCtrlRoiHeight,vpipeCtrlThreshold]

def vpipeSCtrl (c : Controls) (id : Nat) (val : Int) : Except Errno Controls :=
  if id = cidSrcSequence then .ok {c with srcSequence := toU32 val}
  else if id = cidAlgo then .ok {c with algoId := toU32 val}
  else if id = cidRoiLeft then .ok {c with roi := {c.roi with left := val}}
  else if id = cidRoiTop then .ok {c with roi := {c.roi with top := val}}
  else if id = cidRoiWidth then .ok {c with roi := {c.roi with width := val}}
  else if id = cidRoiHeight then .ok {c with roi := {c.roi with height := val}}
  else if id = cidThreshold then .ok {c with threshold := toU32 val}
  else .error .einval

/- VIDIOC_S_CTRL: the framework rounds an integer into its range and refuses a menu item
outside it before it calls the driver. -/
def vidiocSCtrl (c : Controls) (id : Nat) (val : Int) : Except Errno Controls :=
  match ctrlConfigs.find? (fun cfg => cfg.id == id) with
  | none => .error .einval
  | some cfg => match cfg.type with
    | .integer => vpipeSCtrl c id (clampInt val cfg.min cfg.max)
    | .menu => if val < cfg.min ∨ val > cfg.max then .error .erange else vpipeSCtrl c id val

def vpipeQueueSetup (q : QData) (planes : Option Nat) (nbufs : Nat) : Except Errno (Nat × Nat) :=
  let nbufs' := if nbufs < 2 then 2 else nbufs
  match planes with
  | some size => if size < q.sizeimage then .error .einval else .ok (nbufs',size)
  | none => .ok (nbufs',q.sizeimage)

def vpipeBufPrepare (q : QData) (plane : Plane) : Except Errno Nat :=
  if plane.size < q.sizeimage then .error .einval else .ok q.sizeimage

def vaddr (b : Buf VpipeBuffer) : Option Plane := if b.mapped then some b.plane else none

def vpipeBufQueue (t : QType) (s : Sys) (id : Nat) : Sys :=
  match t with
  | .capture => s.setQueue .capture ((s.queue .capture).handOver id (fun d => d))
  | .output =>
    let b := (s.queue .output).buf id
    let c := s.c.controls
    let desc := {b.data.srcDesc with
      width := s.c.outQ.width, height := s.c.outQ.height, stride := s.c.outQ.bytesperline}
    let (now,m) := s.k.machine.ktimeGetNs
    let r := vpipeSourceNextFrame m s.c.src (vaddr b) desc
    let q := (s.queue .output).handOver id (fun d => {d with
      srcSequence := c.srcSequence, algoId := c.algoId, threshold := c.threshold, roi := c.roi
      qbufNs := now, srcDesc := r.desc
      handover := some ⟨s.c.src.ident,s.c.src.backend,r.ret⟩})
    {k := {s.k with machine := r.machine}
     c := {s.c with src := r.src, queues := Function.update s.c.queues .output q}}

def vpipeStartStreaming (s : Sys) (t : QType) (env : StartEnv) : Option Errno × Sys :=
  match t with
  | .capture => (none,s)
  | .output =>
    let (ret,src,m) := vpipeSourceStart s.k.machine s.c.src s.c.outQ.sizeimage env
    (ret,{k := {s.k with machine := m}, c := {s.c with src := src}})

def vpipeReturnAllBuffers (s : Sys) (t : QType) : Sys := s.setQueue t (s.queue t).drain

def vpipeStopStreaming (s : Sys) (t : QType) : Sys :=
  match t with
  | .capture => vpipeReturnAllBuffers s .capture
  | .output =>
    let (src,m) := vpipeSourceStop s.k.machine s.c.src
    vpipeReturnAllBuffers {k := {s.k with machine := m}, c := {s.c with src := src}} .output

def vpipeBufFinish (t : QType) (k : Kernel) (id : Nat) (d : VpipeBuffer) : Kernel × VpipeBuffer :=
  match t with
  | .output => (k,d)
  | .capture =>
    if d.metaPending.seq = 0 then (k,d)
    else
      let (now,m) := k.machine.ktimeGetNs
      let e := {d.metaPending with dqbufTimestampNs := now}
      ({k with
          machine := m
          metaDev := vpipeMetaPublish k.metaDev e
          published := k.published ++ [⟨id,e⟩]},
        {d with metaPending := {e with seq := 0}})

def Sys.cancel (s : Sys) (t : QType) : Sys :=
  let s := if (s.queue t).streaming then vpipeStopStreaming s t else s
  let (k,q) := (s.queue t).cancel (vpipeBufFinish t) s.k
  ({s with k := k} : Sys).setQueue t q

def newBuffer (id index : Nat) (memory : Memory) (size slack : Nat) : Buf VpipeBuffer where
  index := index
  memory := memory
  minLength := size
  plane := match memory with | .mmap => ⟨id,size + slack⟩ | .dmabuf => ⟨id,0⟩
  mapped := memory = .mmap
  state := .dequeued
  prepared := false
  data := {}

def Sys.allocate (memory : Memory) (size slack : Nat) (t : QType) (s : Sys) : Sys :=
  let m := s.k.machine
  let q := s.queue t
  (s.setMachine {m with next := m.next + 1, mem := m.mem.clear m.next}).setQueue t
    (q.allocate m.next (newBuffer m.next q.ids.length memory size slack))

/- The driver is asked again when the allocator `granted` fewer buffers than wanted; it
insists on two. -/
def Sys.allocateAll (s : Sys) (t : QType) (wanted : Nat) (memory : Memory) (size slack granted : Nat) :
    Option Errno × Sys :=
  let count := min wanted granted
  if count < 2 then (some .enomem,s)
  else (none,loop count (fun _ s => s.allocate memory size slack t) s)

def vidiocReqbufs (s : Sys) (t : QType) (count : Nat) (memory : Memory) (slack granted : Nat) :
    Option Errno × Sys :=
  if (s.queue t).streaming then (some .ebusy,s)
  else
    let s := s.cancel t
    let s := s.setQueue t (s.queue t).free
    if count = 0 then (none,s)
    else match vpipeQueueSetup (s.c.qData t) none count with
      | .error e => (some e,s)
      | .ok (wanted,size) => s.allocateAll t wanted memory size slack granted

def vidiocCreateBufs (s : Sys) (t : QType) (count : Nat) (memory : Memory) (size slack granted : Nat) :
    Option Errno × Sys :=
  if count = 0 then (none,s)
  else match vpipeQueueSetup (s.c.qData t) (some size) count with
    | .error e => (some e,s)
    | .ok (wanted,size) => s.allocateAll t wanted memory size slack granted

structure Attachment where
  plane : Plane
  mapped : Bool := true
  deriving DecidableEq, Repr

def attach (b : Buf VpipeBuffer) (att : Option Attachment) : Except Errno Attachment :=
  match b.memory, att with
  | .mmap, _ => .ok ⟨b.plane,b.mapped⟩
  | .dmabuf, none => .error .einval
  | .dmabuf, some a => if a.plane.size < b.minLength then .error .einval else .ok a

def Sys.bufPrepare (s : Sys) (t : QType) (id : Nat) (att : Option Attachment) : Except Errno Sys := do
  let a ← attach ((s.queue t).buf id) att
  let payload ← vpipeBufPrepare (s.c.qData t) a.plane
  .ok (s.setQueue t ((s.queue t).prepare id a.plane a.mapped (fun d => {d with payload := payload})))

def vidiocPrepareBuf (s : Sys) (t : QType) (index : Nat) (att : Option Attachment) : Except Errno Sys :=
  match (s.queue t).ids[index]? with
  | none => .error .einval
  | some id =>
    let b := (s.queue t).buf id
    if b.state ≠ .dequeued ∨ b.prepared = true then .error .einval
    else s.bufPrepare t id att

def Sys.enqueue (s : Sys) (t : QType) (id flags : Nat) : Sys :=
  let s := s.setQueue t ((s.queue t).enqueue id
    (fun d => {d with flags := flags, qbufControls := s.c.controls}))
  if (s.queue t).streaming then vpipeBufQueue t s id else s

def vidiocQbuf (s : Sys) (t : QType) (index flags : Nat) (att : Option Attachment) : Except Errno Sys :=
  match (s.queue t).ids[index]? with
  | none => .error .einval
  | some id =>
    let b := (s.queue t).buf id
    if b.state ≠ .dequeued then .error .einval
    else if b.prepared then .ok (s.enqueue t id flags)
    else do
      let s ← s.bufPrepare t id att
      .ok (s.enqueue t id flags)

def noteReturned (t : QType) (id : Nat) (b : Buf VpipeBuffer) (k : Kernel) : Kernel :=
  match t with
  | .output => k
  | .capture => {k with returned := k.returned ++
      [⟨id,b.index,b.state = .error,b.data.payload,b.data.timestamp,b.data.sequence⟩]}

def vidiocDqbuf (s : Sys) (t : QType) : Except Errno Sys :=
  let q := s.queue t
  if !q.streaming then .error .einval
  else match q.done with
    | [] => .error .eagain
    | id :: _ =>
      let r := Queue.release (vpipeBufFinish t) (s.k,q) id
      .ok (({s with k := noteReturned t id (q.buf id) r.1} : Sys).setQueue t r.2)

def vidiocStreamon (s : Sys) (t : QType) (env : StartEnv) : Option Errno × Sys :=
  let q := s.queue t
  if q.streaming then (none,s)
  else if q.ids.isEmpty then (some .einval,s)
  else
    let s := run (vpipeBufQueue t) s q.queued
    match vpipeStartStreaming s t env with
    | (none,s) => (none,s.setQueue t {s.queue t with streaming := true})
    | (some e,s) => (some e,s.setQueue t (s.queue t).revert)

def vidiocStreamoff (s : Sys) (t : QType) : Sys :=
  let s := s.cancel t
  s.setQueue t (s.queue t).resetReady

inductive Outcome where
  | unmapped
  | failed
  | processed (job : JobDesc) (result : CvResult) (before : Mem)

structure Job where
  source : Nat
  target : Nat
  outcome : Outcome

def jobOf (s : Sys) (src dst : Plane) : JobDesc :=
  ⟨src,dst,s.c.outQ.width,s.c.outQ.height,s.c.outQ.bytesperline,s.c.capQ.bytesperline⟩

def deviceRunPeek (s : Sys) : Option (Job × Sys) :=
  match (s.queue .output).ready, (s.queue .capture).ready with
  | src :: _, dst :: _ =>
    let srcBuf := (s.queue .output).buf src
    let dstBuf := (s.queue .capture).buf dst
    match vaddr srcBuf, vaddr dstBuf with
    | some srcPlane, some dstPlane =>
      let job := jobOf s srcPlane dstPlane
      let before := s.k.machine.mem
      match vpipeCvProcess job srcBuf.data.algoId srcBuf.data.threshold (some srcBuf.data.roi) before with
      | .error _ => some (⟨src,dst,.failed⟩,s)
      | .ok (result,mem) =>
        some (⟨src,dst,.processed job result before⟩,s.setMachine {s.k.machine with mem := mem})
    | _, _ => some (⟨src,dst,.unmapped⟩,s)
  | _, _ => none

def bufFlagTimecode : Nat := 0x100

def buildMeta (s : Sys) (job : JobDesc) (result : CvResult) (used : VpipeBuffer) (memory : Memory)
    (seq bufferIndex now queueDepth cpu : Nat) : MetaEntry :=
  { version := metaVersion
    entrySize := sizeofMetaEntry
    flags := if used.srcDesc.flags &&& frameFlagDropped ≠ 0 then metaFDropped else 0
    seq := seq
    srcV4l2Sequence := used.srcSequence
    bufferIndex := bufferIndex
    sourceTimestampNs := used.srcDesc.sourceTimestampNs
    qbufTimestampNs := used.qbufNs
    captureDoneNs := now
    dqbufTimestampNs := 0
    bytesused := s.c.capQ.sizeimage
    crc32 := Crc.frameCrc (s.k.machine.mem.slice job.dst s.c.capQ.sizeimage)
    algoId := used.algoId
    algoStatus := result.algoStatus
    roiLeft := result.roi.left
    roiTop := result.roi.top
    roiWidth := result.roi.width
    roiHeight := result.roi.height
    algoValue0 := result.value0
    algoValue1 := result.value1
    sourceBackend := used.srcDesc.backendId
    bufferType := match memory with | .mmap => 1 | .dmabuf => 4
    queueDepth := queueDepth
    cpuId := cpu }

def Sys.completeHeads (s : Sys) (src dst : Nat) (ok : Bool) : Sys :=
  {s with c := {s.c with queues := fun
    | .output => ((s.queue .output).take).complete src ok
    | .capture => ((s.queue .capture).take).complete dst ok}}

def Sys.fillResult (s : Sys) (j : Job) (job : JobDesc) (result : CvResult) (before : Mem)
    (src dst cpu : Nat) : Sys :=
  let seq := u64 (s.k.sequence + 1)
  let (now,m) := s.k.machine.ktimeGetNs
  let used := ((s.queue .output).buf j.source).data
  let removed := (s.queue .output).buf src
  let target := (s.queue .capture).buf dst
  let e := buildMeta s job result used removed.memory seq target.index now
    ((s.queue .output).ready.length - 1) cpu
  let m := {m with mem := m.mem.scan job.dst s.c.capQ.sizeimage}
  let frame : Frame := ⟨s.c.ident,j.source,dst,job,used,s.c.src,before,s.k.machine.mem,e⟩
  let q := (s.queue .capture).setData dst (fun d => {d with
    payload := s.c.capQ.sizeimage, field := fieldNone, timestamp := now
    flags := removed.data.flags &&& bufFlagTimecode, sequence := u32 seq, metaPending := e})
  ({s with k := {s.k with machine := m, sequence := seq, frames := s.k.frames ++ [frame]}} : Sys).setQueue
    .capture q

/- The second part removes whatever is at the heads then; an empty ready queue is a NULL
buffer that v4l2_m2m_buf_done dereferences. -/
def deviceRunFinish (s : Sys) (j : Job) (cpu : Nat) : Option Sys :=
  match (s.queue .output).ready, (s.queue .capture).ready with
  | src :: _, dst :: _ =>
    match j.outcome with
    | .unmapped => some (s.completeHeads src dst false)
    | .failed => some (s.completeHeads src dst false)
    | .processed job result before =>
      some ((s.fillResult j job result before src dst cpu).completeHeads src dst true)
  | _, _ => none

/- The scheduler starts a job only when both queues stream and both have a ready buffer. -/
def schedulable (s : Sys) : Bool :=
  (s.queue .output).streaming && (s.queue .capture).streaming &&
    !(s.queue .output).ready.isEmpty && !(s.queue .capture).ready.isEmpty

def vpipeDeviceRun (s : Sys) (cpu : Nat) : Sys :=
  if schedulable s then
    match deviceRunPeek s with
    | none => s
    | some (j,s') => (deviceRunFinish s' j cpu).getD s'
  else s

def defaultQData : QData :=
  ⟨defaultWidth,defaultHeight,defaultWidth,defaultWidth * defaultHeight,pixFmtGrey⟩

def blankBuf : Buf VpipeBuffer := ⟨0,.mmap,0,⟨0,0⟩,false,.dequeued,false,{}⟩

structure OpenEnv where
  ctx : Bool := true
  handler : Option Errno := none
  m2mCtx : Option Errno := none
  source : Bool := true
  deriving DecidableEq, Repr

def vpipeOpen (k : Kernel) (ident : Nat) (env : OpenEnv) : Except Errno Sys :=
  if !env.ctx then .error .enomem
  else match env.handler, env.m2mCtx with
    | some e, _ => .error e
    | none, some e => .error e
    | none, none => match vpipeSourceCreate k.machine Backend.fixture.id env.source with
      | .error e => .error e
      | .ok (src,m) => .ok
        { k := {k with machine := m}
          c := ⟨ident,defaultQData,defaultQData,{},src,fun _ => Queue.empty blankBuf⟩ }

def vpipeRelease (s : Sys) : Sys :=
  let (src,m) := vpipeSourceDestroy s.k.machine s.c.src
  let s : Sys := {k := {s.k with machine := m}, c := {s.c with src := src}}
  let s := s.cancel .capture
  let s := s.setQueue .capture (s.queue .capture).free
  let s := s.cancel .output
  s.setQueue .output (s.queue .output).free

def vpipeSetBackend (s : Sys) (id : Nat) (allocated : Bool) : Except Errno Sys :=
  if (s.queue .output).streaming || (s.queue .capture).streaming then .error .ebusy
  else match vpipeSourceCreate s.k.machine id allocated with
    | .error e => .error e
    | .ok (src,m) => .ok
      { k := {s.k with machine := (vpipeSourceDestroy m s.c.src).2}
        c := {s.c with src := src} }

def vpipeExportSrcDmabuf (s : Sys) (exported : Bool) (fd : Option Nat) : Except Errno Nat × Sys :=
  let (ret,m) := vpipeSourceExportDmabuf s.k.machine s.c.src exported fd
  (ret,s.setMachine m)

inductive Event where
  | sFmt (t : QType) (pix : PixFormat)
  | sCtrl (id : Nat) (val : Int)
  | setBackend (id : Nat) (allocated : Bool)
  | exportSrcDmabuf (exported : Bool) (fd : Option Nat)
  | reqbufs (t : QType) (count : Nat) (memory : Memory) (slack granted : Nat)
  | createBufs (t : QType) (count : Nat) (memory : Memory) (size slack granted : Nat)
  | prepareBuf (t : QType) (index : Nat) (att : Option Attachment)
  | qbuf (t : QType) (index flags : Nat) (att : Option Attachment)
  | dqbuf (t : QType)
  | streamon (t : QType) (env : StartEnv)
  | streamoff (t : QType)
  | deviceRun (cpu : Nat)
  -- Userspace stores through a mapping, or writes a module parameter.
  | store (block : Nat) (bytes : List UInt8)
  | setParams (p : Params)
  deriving DecidableEq, Repr

def settle (s : Sys) : Except Errno Sys → Sys
  | .ok s' => s'
  | .error _ => s

def Sys.step (s : Sys) : Event → Sys
  | .sFmt t pix => match vpipeSFmt s.c t pix with
    | .ok (_,c) => {s with c := c}
    | .error _ => s
  | .sCtrl id val => match vidiocSCtrl s.c.controls id val with
    | .ok controls => {s with c := {s.c with controls := controls}}
    | .error _ => s
  | .setBackend id allocated => settle s (vpipeSetBackend s id allocated)
  | .exportSrcDmabuf exported fd => (vpipeExportSrcDmabuf s exported fd).2
  | .reqbufs t count memory slack granted => (vidiocReqbufs s t count memory slack granted).2
  | .createBufs t count memory size slack granted =>
    (vidiocCreateBufs s t count memory size slack granted).2
  | .prepareBuf t index att => settle s (vidiocPrepareBuf s t index att)
  | .qbuf t index flags att => settle s (vidiocQbuf s t index flags att)
  | .dqbuf t => settle s (vidiocDqbuf s t)
  | .streamon t env => (vidiocStreamon s t env).2
  | .streamoff t => vidiocStreamoff s t
  | .deviceRun cpu => vpipeDeviceRun s cpu
  | .store block bytes => s.setMachine {s.k.machine with mem := s.k.machine.mem.store block bytes}
  | .setParams p => s.setMachine {s.k.machine with params := p}

end Vpipe.M2m
