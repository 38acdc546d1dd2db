import Vpipe.Bringup

/-! The tool `vpipe-capture-m2m`, which sends the frames of a camera (the vivid test driver) through
the device, either zero-copy by DMA-BUF or by a copy into the OUTPUT buffers. The camera writes the
buffers that are queued to it at any time; which buffer it fills next, and the outcomes of the calls
on it, are the environment's. The cleanup, after which no row is written, is left out; `images` and
`captured` are bookkeeping that no modelled function reads. -/
namespace Vpipe.Relay
open Vpipe.Lib.Word Vpipe.Lib.ByteMemory Vpipe.Lib.BufferQueue Vpipe.Lib.Transition Vpipe.Lib.Outcome
open Vpipe.Cv Vpipe.M2m Vpipe.Runs Vpipe.Tools Vpipe.Lockstep Vpipe.Exchange Vpipe.Bringup
open Vpipe.Stream (Placed)

def bufferCount : Nat := 4
def width : Nat := 640
def height : Nat := 480

inductive TransportMode where
  | dmabuf | mmap
  deriving DecidableEq, Repr

def TransportMode.memory : TransportMode → Memory
  | .dmabuf => .dmabuf
  | .mmap => .mmap

structure Config where
  transport : TransportMode
  algoId : Nat
  frames : Nat
  threshold : Nat
  algoKnown : algoId = algoNone ∨ algoId = algoThreshold
  framesRange : 1 ≤ frames ∧ frames < 2^32
  thresholdRange : threshold ≤ 255

/- What DQBUF on the camera answers: the place of the buffer among those queued to it, and the two
fields the tool reads. -/
structure CameraFrame where
  pick : Nat
  bytesused : Nat
  sequence : Nat
  sequenceRange : sequence < 2^32

structure Camera where
  opened : Bool := true
  formatted : Bool := true
  sizeimage : Nat := width * height
  requested : Bool := true
  length : Nat := width * height
  exported : Nat → Bool := fun _ => true
  queued : Nat → Bool := fun _ => true
  streamed : Bool := true
  frame : Nat → Option CameraFrame
  requeued : Nat → Bool := fun _ => true

structure Env where
  camera : Camera
  opened : OpenEnv := {}
  capGranted : Nat := bufferCount
  capSlack : Nat := 0
  capMapped : Bool := true
  outGranted : Nat := bufferCount
  outSlack : Nat := 0
  outMapped : Bool := true
  csv : Bool := true
  start : FrameSource.StartEnv := {}
  clock : Nat → Nat
  around : Surroundings

structure CsvRow where
  frame : Nat
  transport : TransportMode
  algo : Nat
  vividSequence : Nat
  vpipeSequence : Nat
  vividDqMonotonicNs : Nat
  vpipeDqMonotonicNs : Nat
  vpipeBytesused : Nat
  deriving DecidableEq, Repr

structure Locals where
  c : Client
  vividBufs : List Plane
  vpipeOutBufs : List Plane
  queued : List Nat
  rows : List CsvRow := []
  readings : Nat := 0
  images : List (List UInt8) := []
  captured : List (List UInt8) := []

def held (bufs : List Plane) (queued : List Nat) : List Nat := queued.map (fun i => (bufs.getD i ⟨0,0⟩).block)

def Locals.setQueued (r : Locals) (queued : List Nat) : Locals :=
  {r with c := {r.c with foreign := held r.vividBufs queued}, queued := queued}

def requestVivid (length : Nat) (s : Sys) : List Plane × Sys :=
  loop bufferCount (fun _ r =>
    let (plane,s) := dmaHeapAlloc r.2 length
    (r.1 ++ [plane],s)) ([],s)

def Locals.grab (r : Locals) (index : Nat) : Locals :=
  {r.setQueued (r.queued.erase index) with
    images := r.images ++ [r.c.s.k.machine.mem.slice (r.vividBufs.getD index ⟨0,0⟩) (width * height)]}

def dqbufVivid (env : Env) (i : Nat) (r : Locals) : Except Stop (V4l2Buffer × Locals) := do
  let r := {r with c := r.c.pass env.around}
  let f ← orFail (env.camera.frame i)
  let index ← orFail (r.queued[f.pick % r.queued.length]?)
  .ok (⟨index,f.bytesused,f.sequence⟩,r.grab index)

def qbufVivid (env : Env) (i index : Nat) (r : Locals) : Except Stop Locals := do
  let r := {r with c := r.c.pass env.around}
  check (env.camera.requeued i)
  .ok (r.setQueued (r.queued ++ [index]))

def requestOutput (env : Env) (transport : TransportMode) (s : Sys) : Option (List Plane × Sys) := do
  let s ← succeeded (vidiocReqbufs s .output bufferCount transport.memory env.outSlack env.outGranted)
  match transport with
  | .dmabuf => some ([],s)
  | .mmap => do
    let s ← vpipeRequestMmapBuffers s .output bufferCount env.outSlack env.outGranted env.outMapped
    some (mappings s .output,s)

def queueInitial (env : Env) (transport : TransportMode) : Nat → Sys → Except Stop Sys
  | 0, s => .ok s
  | n+1, s => do
    let s ← queueInitial env transport n s
    check (transport = .mmap ∨ env.camera.exported n)
    check (env.camera.queued n)
    orFail (vidiocQbuf s .capture n 0 none).toOption

/- Up to the frame loop. Nothing reads memory before it, so nothing that happens meanwhile shows. -/
def setUp (env : Env) (cfg : Config) (k : Kernel) (ident : Nat) : Except Stop Locals := do
  check env.camera.opened
  let s ← orFail (vpipeOpen k ident env.opened).toOption
  check env.camera.formatted
  let s ← orFail (vpipeSetFormat s .output width height pixFmtGrey)
  let s ← orFail (vpipeSetFormat s .capture width height pixFmtGrey)
  check (env.camera.sizeimage ≠ 0 ∧ vpipeGetSizeimage s .output ≠ 0)
  check env.camera.requested
  let (vividBufs,s) := requestVivid env.camera.length s
  let s ← orFail (vpipeRequestMmapBuffers s .capture bufferCount env.capSlack env.capGranted env.capMapped)
  let (outBufs,s) ← orFail (requestOutput env cfg.transport s)
  check env.csv
  let s ← queueInitial env cfg.transport bufferCount s
  check env.camera.streamed
  let s ← orFail (succeeded (vidiocStreamon s .capture {}))
  let s ← orFail (succeeded (vidiocStreamon s .output env.start))
  let queued := List.range bufferCount
  .ok ⟨{s := s, foreign := held vividBufs queued},vividBufs,outBufs,queued,[],0,[],[]⟩

def setCtrl (id : Nat) (value : Int) (r : Locals) : Except Stop Locals := do
  let s ← orFail (setControl r.c.s id value)
  .ok {r with c := {r.c with s := s}}

def transfer (cfg : Config) (vividDq : V4l2Buffer) (r : Locals) : Option Attachment × Locals :=
  let vivid := r.vividBufs.getD vividDq.index ⟨0,0⟩
  match cfg.transport with
  | .dmabuf => (some ⟨vivid,true⟩,r)
  | .mmap =>
    let out := r.vpipeOutBufs.getD vividDq.index ⟨0,0⟩
    let copyLen := vividDq.bytesused
    let copyLen := if copyLen > vivid.size then vivid.size else copyLen
    let copyLen := if copyLen > out.size then out.size else copyLen
    let copied := r.c.s.k.machine.mem.slice vivid copyLen
    (none,{r with c := {r.c with s := r.c.s.step (.store out.block copied)}})

def send (env : Env) (cfg : Config) (i vividNs : Nat) (vividDq : V4l2Buffer)
    (att : Option Attachment) (r : Locals) :
    Except Stop Locals := do
  let c ← r.c.qbuf env.around .output vividDq.index att
  let (vpipeDq,c) ← c.dqbuf env.around .capture
  let (vpipeNs,readings) := vpipeNowMonotonicNs env.clock r.readings
  let (_,c) ← c.dqbuf env.around .output
  let image := c.s.k.machine.mem.slice ((mappings c.s .capture).getD vpipeDq.index ⟨0,0⟩) vpipeDq.bytesused
  let r : Locals := {r with
    rows := r.rows ++ [⟨i,cfg.transport,cfg.algoId,vividDq.sequence,vpipeDq.sequence,vividNs,vpipeNs,
      vpipeDq.bytesused⟩]
    captured := r.captured ++ [image], readings := readings}
  let c ← c.qbuf env.around .capture vpipeDq.index none
  qbufVivid env i vividDq.index {r with c := c}

def frameRound (env : Env) (cfg : Config) (i : Nat) (r : Locals) : Except Stop Locals := do
  let (vividDq,r) ← dqbufVivid env i r
  let (vividNs,readings) := vpipeNowMonotonicNs env.clock r.readings
  check (vividDq.index < bufferCount)
  let r ← setCtrl cidSrcSequence (s32 vividDq.sequence) {r with readings := readings}
  let r ← setCtrl cidAlgo (s32 cfg.algoId) r
  let r ← setCtrl cidThreshold (s32 cfg.threshold) r
  let (att,r) := transfer cfg vividDq r
  send env cfg i vividNs vividDq att r

def frameLoop (env : Env) (cfg : Config) : Nat → Locals → Except Stop Locals
  | 0, r => .ok r
  | n+1, r => do
    let r ← frameLoop env cfg n r
    frameRound env cfg n r

def captureM2m (env : Env) (cfg : Config) (k : Kernel) (ident : Nat) : Except Stop Locals := do
  let r ← setUp env cfg k ident
  frameLoop env cfg cfg.frames r

structure Honest (env : Env) (cfg : Config) : Prop where
  cameraOpened : env.camera.opened = true
  formatted : env.camera.formatted = true
  sizeimage : env.camera.sizeimage ≠ 0
  requested : env.camera.requested = true
  length : width * height ≤ env.camera.length
  exported : ∀ i, i < bufferCount → cfg.transport = .mmap ∨ env.camera.exported i = true
  queued : ∀ i, i < bufferCount → env.camera.queued i = true
  streamed : env.camera.streamed = true
  frames : ∀ i, i < cfg.frames → ∃ f, env.camera.frame i = some f ∧ width * height ≤ f.bytesused
  requeued : ∀ i, i < cfg.frames → env.camera.requeued i = true
  opened : env.opened = {}
  capGranted : bufferCount ≤ env.capGranted
  capMapped : env.capMapped = true
  outGranted : bufferCount ≤ env.outGranted
  outMapped : env.outMapped = true
  csv : env.csv = true
  start : env.start = {}

structure Matches (cfg : Config) (first i : Nat) (f : CameraFrame) (row : CsvRow) (image : List UInt8)
    (e : MetaEntry) : Prop where
  frame : row.frame = i
  vivid : row.vividSequence = f.sequence
  vpipe : row.vpipeSequence = u32 e.seq
  bytesused : row.vpipeBytesused = width * height ∧ e.bytesused = width * height
  seq : e.seq = first + i + 1
  source : e.srcV4l2Sequence = if f.sequence < 2^31 then f.sequence else 0
  algo : e.algoId = cfg.algoId
  crc : e.crc32 = Crc.frameCrc image

structure Recorded (env : Env) (cfg : Config) (k : Kernel) (n : Nat) (r : Locals) : Prop where
  rows : r.rows.length = n
  images : r.images.length = n
  published : r.c.s.k.published.length = k.published.length + n
  captured : r.captured = r.images.map (List.map (processedPixel cfg.algoId cfg.threshold))
  each : ∀ i, i < n → ∃ f row image buffer e, env.camera.frame i = some f ∧ r.rows[i]? = some row ∧
    r.captured[i]? = some image ∧ r.c.s.k.published[k.published.length + i]? = some ⟨buffer,e⟩ ∧
    Matches cfg k.sequence i f row image e

structure Rig (cfg : Config) (p : Bench) (r : Locals) : Prop where
  format : p.format = grey width height
  memory : p.memory = cfg.transport.memory
  out : p.out.length = bufferCount
  cap : p.cap.length = bufferCount
  vivid : r.vividBufs.length = bufferCount
  large : ∀ plane ∈ r.vividBufs, width * height ≤ plane.size
  apart : (r.vividBufs.map Plane.block ++ (p.out ++ p.cap)).Nodup
  copies : cfg.transport = .mmap → ∀ (i id : Nat), p.out[i]? = some id →
    ∃ size, r.vpipeOutBufs[i]? = some (⟨id,size⟩ : Plane) ∧ width * height ≤ size

structure Going (env : Env) (cfg : Config) (k : Kernel) (p : Bench) (n : Nat) (r : Locals) : Prop where
  rig : Rig cfg p r
  serving : Serving p r.c.s
  source : r.c.s.c.src.backend = .fixture
  board : ∃ order, boardOf r.c.s = ⟨[],[],order,[]⟩ ∧ order.Perm p.cap
  queued : r.queued.Perm (List.range bufferCount)
  foreign : r.c.foreign = held r.vividBufs r.queued
  roi : r.c.s.c.controls.roi = ⟨0,0,defaultWidth,defaultHeight⟩
  sequence : r.c.s.k.sequence = k.sequence + n
  recorded : Recorded env cfg k n r

theorem heldBlocks {bufs : List Plane} {queued : List Nat}
    (within : ∀ i ∈ queued, i < bufs.length) {block : Nat} (member : block ∈ held bufs queued) :
    block ∈ bufs.map Plane.block := by
  obtain ⟨i, inside, rfl⟩ := List.mem_map.mp member
  have below := within i inside
  rw [List.getD_eq_getElem?_getD, List.getElem?_eq_getElem below]
  exact List.mem_map_of_mem (List.getElem_mem below)

theorem heldErased {bufs : List Plane} {queued : List Nat} (distinct : (bufs.map Plane.block).Nodup)
    (within : ∀ i ∈ queued, i < bufs.length) (once : queued.Nodup) {index : Nat}
    (inside : index < bufs.length) :
    (bufs.getD index ⟨0,0⟩).block ∉ held bufs (queued.erase index) := by
  intro member
  obtain ⟨i, left, same⟩ := List.mem_map.mp member
  obtain ⟨differ, still⟩ := (List.Nodup.mem_erase_iff once).mp left
  have below := within i still
  rw [List.getD_eq_getElem?_getD, List.getElem?_eq_getElem below, List.getD_eq_getElem?_getD,
    List.getElem?_eq_getElem inside] at same
  have place : (bufs.map Plane.block)[i]? = (bufs.map Plane.block)[index]? := by
    simp only [List.getElem?_map, List.getElem?_eq_getElem below, List.getElem?_eq_getElem inside]
    exact congrArg some same
  exact differ ((List.getElem?_inj (by simpa using below) distinct).mp place)

theorem sequenceSet (c : Controls) {sequence : Nat} (range : sequence < 2^32) :
    vidiocSCtrl c cidSrcSequence (s32 sequence) =
      .ok {c with srcSequence := if sequence < 2^31 then sequence else 0} := by
  have value : toU32 (clampInt (s32 sequence) 0 (2^31 - 1)) = if sequence < 2^31 then sequence else 0 := by
    split
    · rw [s32Of (by omega) (by omega)]
      unfold toU32 clampInt
      omega
    · rw [s32High (by omega) range]
      unfold toU32 clampInt
      omega
  rw [← value]
  rfl

section Round
variable {env : Env} {cfg : Config} {k : Kernel} {p : Bench} {n : Nat} {r : Locals}

theorem queuedWithin {queued : List Nat} (all : queued.Perm (List.range bufferCount)) :
    queued.length = bufferCount ∧ queued.Nodup ∧ ∀ i ∈ queued, i < bufferCount :=
  ⟨all.length_eq.trans (List.length_range ..),all.nodup_iff.mpr List.nodup_range,
    fun _ member => List.mem_range.mp (all.mem_iff.mp member)⟩

structure Grabbed (cfg : Config) (p : Bench) (r : Locals) (index : Nat) (r' : Locals) : Prop where
  rig : Rig cfg p r'
  serving : Serving p r'.c.s
  source : r'.c.s.c.src.backend = .fixture
  board : boardOf r'.c.s = boardOf r.c.s
  chosen : index ∈ r.queued
  queued : r'.queued = r.queued.erase index
  foreign : r'.c.foreign = held r'.vividBufs r'.queued
  roi : r'.c.s.c.controls.roi = r.c.s.c.controls.roi
  sequence : r'.c.s.k.sequence = r.c.s.k.sequence
  published : r'.c.s.k.published = r.c.s.k.published
  rows : r'.rows = r.rows
  captured : r'.captured = r.captured
  images : r'.images = r.images ++
    [r'.c.s.k.machine.mem.slice (r'.vividBufs.getD index ⟨0,0⟩) (width * height)]

theorem grabs (honest : Honest env cfg) (going : Going env cfg k p n r) (more : n < cfg.frames) :
    ∃ f index r', env.camera.frame n = some f ∧ width * height ≤ f.bytesused ∧
      dqbufVivid env n r = .ok (⟨index,f.bytesused,f.sequence⟩,r') ∧ Grabbed cfg p r index r' := by
  obtain ⟨f, answered, whole⟩ := honest.frames n more
  obtain ⟨order, board, _⟩ := going.board
  obtain ⟨serving, stirred⟩ := idlePasses env.around going.serving (by rw [board])
  obtain ⟨sequence, published, _⟩ := stirredKernel stirred
  obtain ⟨count, _, _⟩ := queuedWithin going.queued
  have place : f.pick % r.queued.length < r.queued.length := Nat.mod_lt _ (by rw [count]; decide)
  have found : r.queued[f.pick % r.queued.length]? = some r.queued[f.pick % r.queued.length] :=
    List.getElem?_eq_getElem place
  generalize r.queued[f.pick % r.queued.length] = index at found
  refine ⟨f,index,({r with c := r.c.pass env.around} : Locals).grab index,answered,whole,?_,?_⟩
  · simp only [dqbufVivid, answered, orFail, bind, Except.bind, found]
  · refine ⟨{going.rig with},serving,?_,stirredBoard stirred,List.mem_of_getElem? found,rfl,rfl,?_,sequence,
      published,rfl,rfl,rfl⟩
    · exact (congrArg (fun c => c.src.backend) (stirredContext stirred)).trans going.source
    · exact congrArg (fun c => c.controls.roi) (stirredContext stirred)

def Locals.control (r : Locals) (controls : Controls) : Locals :=
  {r with c := {r.c with s := {r.c.s with c := {r.c.s.c with controls := controls}}}}

theorem controlSet {id : Nat} {value : Int} {set : Controls} (r : Locals)
    (accepted : vidiocSCtrl r.c.s.c.controls id value = .ok set) :
    setCtrl id value r = .ok (r.control set) := by
  simp only [setCtrl, setControl, accepted, orFail, bind, Except.bind]
  rfl

theorem grabbedControl {index : Nat} {r' : Locals} (grabbed : Grabbed cfg p r index r') {set : Controls}
    (roi : set.roi = r'.c.s.c.controls.roi) : Grabbed cfg p r index (r'.control set) :=
  {grabbed with
    rig := {grabbed.rig with}, serving := servingControls grabbed.serving _, roi := roi.trans grabbed.roi}

theorem copiedImage {m : Mem} {vivid out : Plane} (apart : vivid.block ≠ out.block) {len size : Nat}
    (enough : size ≤ len) :
    (m.store out.block (m.slice vivid len)).slice out size = m.slice vivid size ∧
    (m.store out.block (m.slice vivid len)).slice vivid size = m.slice vivid size := by
  constructor
  · apply List.ext_getElem?
    intro i
    rcases Nat.lt_or_ge i size with inside | outside
    · rw [sliceAt _ _ inside, sliceAt _ _ inside, storeBytes _ _ _ _ (by rw [sliceLength]; omega),
        List.getD_eq_getElem?_getD, sliceAt _ _ (by omega)]
      rfl
    · rw [List.getElem?_eq_none (by rw [sliceLength]; exact outside),
        List.getElem?_eq_none (by rw [sliceLength]; exact outside)]
  · refine sliceSame ?_ _
    funext i
    simp [Mem.store, apart]

theorem transfers (all : r.queued.Perm (List.range bufferCount)) {index : Nat} {r' : Locals}
    (grabbed : Grabbed cfg p r index r') {bytesused : Nat} (sequence : Nat) (whole : width * height ≤ bytesused)
    (known : Order.Known r'.c.s.c.controls.algoId) :
    ∃ id a att r'', transfer cfg ⟨index,bytesused,sequence⟩ r' = (att,r'') ∧ Offer p r''.c index id att a ∧
      Grabbed cfg p r index r'' ∧
      r''.c.s.c.controls = r'.c.s.c.controls ∧
      r''.c.s.k.machine.mem.slice a.plane (width * height) =
        r''.c.s.k.machine.mem.slice (r''.vividBufs.getD index ⟨0,0⟩) (width * height) := by
  obtain ⟨_, once, within⟩ := queuedWithin all
  have rig := grabbed.rig
  have below : index < bufferCount := within index grabbed.chosen
  have inside : index < r'.vividBufs.length := rig.vivid.symm ▸ below
  have size : p.format.sizeimage = width * height := by rw [rig.format]; rfl
  obtain ⟨id, found⟩ : ∃ id, p.out[index]? = some id := ⟨_,List.getElem?_eq_getElem (rig.out.symm ▸ below)⟩
  have outside : id ∈ p.out := List.mem_of_getElem? found
  obtain ⟨kind, length⟩ := grabbed.serving.outPlaced.kind id outside
  obtain ⟨vividDistinct, vpipeDistinct, across⟩ := List.nodup_append.mp rig.apart
  have vividIn : (r'.vividBufs.getD index ⟨0,0⟩).block ∈ r'.vividBufs.map Plane.block := by
    rw [List.getD_eq_getElem?_getD, List.getElem?_eq_getElem inside]
    exact List.mem_map_of_mem (List.getElem_mem inside)
  have large : width * height ≤ (r'.vividBufs.getD index ⟨0,0⟩).size := by
    rw [List.getD_eq_getElem?_getD, List.getElem?_eq_getElem inside]
    exact rig.large _ (List.getElem_mem inside)
  have queuedWithin' : ∀ i ∈ r.queued, i < r'.vividBufs.length := fun i member =>
    rig.vivid.symm ▸ within i member
  have free : (r'.vividBufs.getD index ⟨0,0⟩).block ∉ r'.c.foreign := by
    rw [grabbed.foreign, grabbed.queued]
    exact heldErased vividDistinct queuedWithin' once inside
  cases mode : cfg.transport with
  | dmabuf =>
    refine ⟨id,⟨r'.vividBufs.getD index ⟨0,0⟩,true⟩,some ⟨r'.vividBufs.getD index ⟨0,0⟩,true⟩,r',
      by simp only [transfer, mode],?_,grabbed,rfl,rfl⟩
    refine ⟨found,?_,rfl,size ▸ large,free,fun member => ?_,known⟩
    · have dmabuf : ((r'.c.s.queue .output).buf id).memory = .dmabuf :=
        kind.trans (by rw [rig.memory, mode]; rfl)
      simp only [attach, dmabuf, length, size, if_neg (Nat.not_lt.mpr large)]
    · exact across _ vividIn _ (List.mem_append_right _ member) rfl
  | mmap =>
    obtain ⟨outSize, copies, outLarge⟩ := rig.copies mode index id found
    have mmap : p.memory = .mmap := by rw [rig.memory, mode]; rfl
    obtain ⟨block, planeLarge, mapped⟩ := grabbed.serving.outPlaced.plane mmap id outside
    have differ : (r'.vividBufs.getD index ⟨0,0⟩).block ≠ id :=
      across _ vividIn id (List.mem_append_left _ outside)
    have out : r'.vpipeOutBufs.getD index ⟨0,0⟩ = ⟨id,outSize⟩ := by
      rw [List.getD_eq_getElem?_getD, copies]; rfl
    obtain ⟨len, enough, made⟩ : ∃ len, width * height ≤ len ∧ transfer cfg ⟨index,bytesused,sequence⟩ r' =
        (none,{r' with c := {r'.c with s := r'.c.s.step (.store id
          (r'.c.s.k.machine.mem.slice (r'.vividBufs.getD index ⟨0,0⟩) len))}}) := by
      simp only [transfer, mode, out]
      refine ⟨_,?_,rfl⟩
      split <;> split <;> assumption
    obtain ⟨copied, same⟩ := copiedImage (m := r'.c.s.k.machine.mem)
      (show _ ≠ (⟨id,outSize⟩ : Plane).block from differ) enough
    have serving := servingStore grabbed.serving id
      (r'.c.s.k.machine.mem.slice (r'.vividBufs.getD index ⟨0,0⟩) len)
    refine ⟨id,⟨((r'.c.s.queue .output).buf id).plane,((r'.c.s.queue .output).buf id).mapped⟩,_,_,made,
      ⟨found,?_,mapped,planeLarge,?_,?_,known⟩,
      {grabbed with rig := {rig with}, serving := serving, images := ?_},rfl,?_⟩
    · have memory : ((r'.c.s.queue .output).buf id).memory = .mmap := kind.trans mmap
      show attach ((r'.c.s.queue .output).buf id) none = _
      simp only [attach, memory]
    · show ((r'.c.s.queue .output).buf id).plane.block ∉ r'.c.foreign
      rw [block, grabbed.foreign, grabbed.queued]
      intro member
      have vivid := heldBlocks (fun i left => queuedWithin' i (List.mem_of_mem_erase left)) member
      exact across id vivid id (List.mem_append_left _ outside) rfl
    · show ((r'.c.s.queue .output).buf id).plane.block ∉ p.cap
      rw [block]
      exact fun member => (List.nodup_append.mp vpipeDistinct).2.2 id outside id member rfl
    · rw [grabbed.images]
      exact congrArg (fun image => r.images ++ [image]) same.symm
    · have plane : ∀ m : Mem, m.slice ((r'.c.s.queue .output).buf id).plane (width * height) =
          m.slice ⟨id,outSize⟩ (width * height) := fun m => by simp only [Mem.slice, Mem.get, block]
      exact (plane _).trans (copied.trans same.symm)

theorem recordedNext (recorded : Recorded env cfg k n r) {f : CameraFrame}
    (answered : env.camera.frame n = some f) {row : CsvRow} {raw image : List UInt8} {buffer : Nat}
    {e : MetaEntry} {r' : Locals}
    (rows : r'.rows = r.rows ++ [row]) (images : r'.images = r.images ++ [raw])
    (captured : r'.captured = r.captured ++ [image])
    (shown : image = raw.map (processedPixel cfg.algoId cfg.threshold))
    (published : r'.c.s.k.published = r.c.s.k.published ++ [⟨buffer,e⟩])
    (matched : Matches cfg k.sequence n f row image e) : Recorded env cfg k (n + 1) r' := by
  have captures : r.captured.length = n := by rw [recorded.captured, List.length_map, recorded.images]
  refine ⟨?_,?_,?_,?_,fun i below => ?_⟩
  · rw [rows, List.length_append, recorded.rows]
    rfl
  · rw [images, List.length_append, recorded.images]
    rfl
  · rw [published, List.length_append, recorded.published]
    rfl
  · rw [captured, images, recorded.captured, shown, List.map_append]
    rfl
  · rw [rows, captured, published]
    rcases Nat.lt_succ_iff_lt_or_eq.mp below with before | rfl
    · obtain ⟨f', row', image', buffer', e', answered', atRow, atImage, atRows, matched'⟩ :=
        recorded.each i before
      refine ⟨f',row',image',buffer',e',answered',?_,?_,?_,matched'⟩
      · rw [List.getElem?_append_left (by rw [recorded.rows]; exact before)]
        exact atRow
      · rw [List.getElem?_append_left (by rw [captures]; exact before)]
        exact atImage
      · rw [List.getElem?_append_left (by rw [recorded.published]; omega)]
        exact atRows
    · refine ⟨f,row,image,buffer,e,answered,?_,?_,?_,matched⟩
      · rw [← recorded.rows]
        exact List.getElem?_concat_length
      · rw [← captures]
        exact List.getElem?_concat_length
      · rw [← recorded.published]
        exact List.getElem?_concat_length

theorem givesBack (honest : Honest env cfg) (more : n < cfg.frames) {c : Client} {order : List Nat}
    (serving : Serving p c.s) (board : boardOf c.s = ⟨[],[],order,[]⟩) (index : Nat) (r : Locals) :
    qbufVivid env n index {r with c := c} =
      .ok (({r with c := c.pass env.around} : Locals).setQueued (r.queued ++ [index])) ∧
    Serving p (c.pass env.around).s ∧ boardOf (c.pass env.around).s = ⟨[],[],order,[]⟩ ∧
    (c.pass env.around).s.c.controls = c.s.c.controls ∧ (c.pass env.around).s.c.src = c.s.c.src ∧
    (c.pass env.around).s.k.sequence = c.s.k.sequence ∧
    (c.pass env.around).s.k.published = c.s.k.published := by
  obtain ⟨serving', stirred⟩ := idlePasses env.around serving (by rw [board])
  obtain ⟨sequence, published, _⟩ := stirredKernel stirred
  refine ⟨?_,serving',(stirredBoard stirred).trans board,by rw [stirredContext stirred],
    by rw [stirredContext stirred],sequence,published⟩
  simp only [qbufVivid, check, honest.requeued n more, if_true, bind, Except.bind]

theorem sends (honest : Honest env cfg) (room : k.sequence + cfg.frames < 2^64) (going : Going env cfg k p n r)
    (more : n < cfg.frames) {f : CameraFrame} (answered : env.camera.frame n = some f) {index id : Nat}
    {att : Option Attachment} {a : Attachment} {out : Locals} (grabbed : Grabbed cfg p r index out)
    (offer : Offer p out.c index id att a) (vividNs : Nat)
    (source : out.c.s.c.controls.srcSequence = if f.sequence < 2^31 then f.sequence else 0)
    (algo : out.c.s.c.controls.algoId = cfg.algoId) (threshold : out.c.s.c.controls.threshold = cfg.threshold)
    (image : out.c.s.k.machine.mem.slice a.plane (width * height) =
      out.c.s.k.machine.mem.slice (out.vividBufs.getD index ⟨0,0⟩) (width * height)) :
    Returns (send env cfg n vividNs ⟨index,f.bytesused,f.sequence⟩ att out) (Going env cfg k p (n + 1)) := by
  obtain ⟨order, board, all⟩ := going.board
  have rig := grabbed.rig
  obtain ⟨_, once, within⟩ := queuedWithin going.queued
  obtain ⟨dst, rest, rfl⟩ : ∃ dst rest, order = dst :: rest := by
    refine List.exists_cons_of_length_pos ?_
    rw [all.length_eq, rig.cap]
    decide
  have size : p.format.sizeimage = width * height := by rw [rig.format]; rfl
  have roi : out.c.s.c.controls.roi = ⟨0,0,defaultWidth,defaultHeight⟩ := grabbed.roi.trans going.roi
  have sequence : out.c.s.k.sequence = k.sequence + n := grabbed.sequence.trans going.sequence
  have own : ∀ id ∈ p.cap, id ∉ out.c.foreign := by
    intro id inside member
    rw [grabbed.foreign, grabbed.queued] at member
    have vivid := heldBlocks (fun i left => rig.vivid.symm ▸ within i (List.mem_of_mem_erase left)) member
    exact (List.nodup_append.mp rig.apart).2.2 id vivid id (List.mem_append_right _ inside) rfl
  obtain ⟨c1, dq, c2, used, c3, queued, taken, freed, still, exchanged⟩ :=
    fixtureExchanges env.around grabbed.serving
    grabbed.source (grabbed.board.trans board) offer (by rw [roi]; exact properDefault)
    (by rw [sequence]; omega) own
  have spare : dst ∉ rest := by
    have distinct := all.nodup_iff.mpr (List.nodup_append.mp (List.nodup_append.mp rig.apart).2.1).2.1
    exact (List.nodup_cons.mp distinct).1
  obtain ⟨c4, returned, serving4, board4, foreign4, steadied⟩ :=
    clientReturns env.around exchanged.serving exchanged.board exchanged.index spare
  refine returnsThen queued (returnsThen taken (returnsThen freed (returnsThen returned ?_)))
  obtain ⟨back, serving5, board5, controls5, source5, sequence5, published5⟩ :=
    givesBack honest more serving4 board4 index _
  refine ⟨_,back,?_⟩
  obtain ⟨e, published, seq, srcSequence, bytes, algoId, crc⟩ := exchanged.published
  have shot : c3.s.k.machine.mem.slice ((mappings c3.s .capture).getD dq.index ⟨0,0⟩) dq.bytesused =
      (out.c.s.k.machine.mem.slice (out.vividBufs.getD index ⟨0,0⟩) (width * height)).map
        (processedPixel cfg.algoId cfg.threshold) := by
    rw [exchanged.bytesused, mappedImage exchanged.serving exchanged.index, exchanged.image, algo,
      threshold, roi, size, rig.format, image]
    exact wholeProcessed cfg.algoId cfg.threshold (by decide) (by decide) (sliceLength _ _ _)
  constructor
  case rig => exact {rig with}
  case serving => exact serving5
  case source => exact (congrArg FrameSource.Source.backend (source5.trans steadied.src)).trans still
  case board => exact ⟨rest ++ [dst],board5,(List.perm_append_singleton dst rest).trans all⟩
  case queued =>
    show (out.queued ++ [index]).Perm _
    rw [grabbed.queued]
    exact (List.perm_append_singleton _ _).trans ((List.perm_cons_erase grabbed.chosen).symm.trans going.queued)
  case foreign => rfl
  case roi =>
    show (c4.pass env.around).s.c.controls.roi = _
    rw [controls5, steadied.controls, exchanged.controls]
    exact roi
  case sequence =>
    show (c4.pass env.around).s.k.sequence = _
    rw [sequence5, steadied.sequence, exchanged.count, sequence]
    rfl
  case recorded =>
    have rows : (c4.pass env.around).s.k.published = r.c.s.k.published ++ [⟨dst,e⟩] := by
      rw [published5, steadied.published, published, grabbed.published]
    refine recordedNext going.recorded answered (congrArg (· ++ _) grabbed.rows) grabbed.images
      (congrArg (· ++ _) grabbed.captured) shot rows ⟨rfl,rfl,?_,⟨?_,?_⟩,?_,?_,?_,?_⟩
    · rw [exchanged.sequence, seq]
    · exact exchanged.bytesused.trans size
    · exact bytes.trans size
    · rw [seq, sequence]
    · exact srcSequence.trans source
    · exact algoId.trans algo
    · rw [crc, exchanged.bytesused, mappedImage exchanged.serving exchanged.index]

theorem roundKeeps (honest : Honest env cfg) (room : k.sequence + cfg.frames < 2^64)
    (going : Going env cfg k p n r) (more : n < cfg.frames) :
    Returns (frameRound env cfg n r) (Going env cfg k p (n + 1)) := by
  obtain ⟨f, index, r1, answered, whole, grab, grabbed⟩ := grabs honest going more
  let r2 : Locals := {r1 with readings := r1.readings + 1}
  let r3 := r2.control {r2.c.s.c.controls with srcSequence := if f.sequence < 2^31 then f.sequence else 0}
  let r4 := r3.control {r3.c.s.c.controls with algoId := cfg.algoId}
  let r5 := r4.control {r4.c.s.c.controls with threshold := cfg.threshold}
  have grabbed2 : Grabbed cfg p r index r2 := {grabbed with rig := {grabbed.rig with}}
  have grabbed5 : Grabbed cfg p r index r5 :=
    grabbedControl (grabbedControl (grabbedControl grabbed2 rfl) rfl) rfl
  obtain ⟨id, a, att, out, moved, offer, grabbed6, controls, image⟩ :=
    transfers going.queued grabbed5 f.sequence whole cfg.algoKnown
  have below : index < bufferCount := (queuedWithin going.queued).2.2 index grabbed.chosen
  refine returnsThen grab (returnsThen (a := ()) ?_ (returnsThen (controlSet r2 (sequenceSet _ f.sequenceRange))
    (returnsThen (controlSet r3 (algoSet cfg.algoKnown _))
      (returnsThen (controlSet r4 (thresholdSet cfg.thresholdRange _)) ?_))))
  · simp only [check, below, decide_true, if_true]
  · rw [moved]
    exact sends honest room going more answered grabbed6 offer _ (congrArg Controls.srcSequence controls)
      (congrArg Controls.algoId controls) (congrArg Controls.threshold controls) image

structure Requested (k : Kernel) (s : Sys) (length : Nat) (planes : List Plane) (s' : Sys) : Prop where
  fit : Fit k .fixture (grey width height) {} s'
  queues : s'.c.queues = s.c.queues
  next : s'.k.machine.next = s.k.machine.next + planes.length
  blocks : planes.map Plane.block = List.range' s.k.machine.next planes.length
  sizes : ∀ plane ∈ planes, plane.size = length

theorem vividRequested {s : Sys} (fit : Fit k .fixture (grey width height) {} s) (length : Nat) :
    ∃ planes s', requestVivid length s = (planes,s') ∧ planes.length = bufferCount ∧
      Requested k s length planes s' := by
  refine ⟨(requestVivid length s).1,(requestVivid length s).2,rfl,?_⟩
  refine loopInvariant (fun n (x : List Plane × Sys) => x.1.length = n ∧ Requested k s length x.1 x.2) ?_ ?_
  · exact ⟨rfl,fit,rfl,rfl,rfl,by simp⟩
  · rintro i ⟨planes, u⟩ _ ⟨count, so⟩
    have next : u.k.machine.next = s.k.machine.next + planes.length := so.next
    refine ⟨by simp [count],allocationFits so.fit length,so.queues,?_,?_,?_⟩
    · show u.k.machine.next + 1 = _
      rw [next, List.length_append, List.length_singleton, Nat.add_assoc]
    · rw [List.map_append, so.blocks, List.length_append, List.length_singleton, List.range'_concat,
        Nat.one_mul, ← next]
      rfl
    · intro plane member
      rcases List.mem_append.mp member with old | new
      · exact so.sizes plane old
      · rw [List.mem_singleton.mp new]
        rfl

theorem initialQueued (honest : Honest env cfg) {s : Sys} (fit : Fit k .fixture (grey width height) {} s)
    {ids : List Nat} (lined : Lined (grey width height) s ids 0) (count : ids.length = bufferCount) {n : Nat}
    (within : n ≤ bufferCount) :
    ∃ s', queueInitial env cfg.transport n s = .ok s' ∧ Fit k .fixture (grey width height) {} s' ∧
      Lined (grey width height) s' ids n ∧ s'.queue .output = s.queue .output ∧ s'.k = s.k := by
  induction n with
  | zero => exact ⟨s,rfl,fit,lined,rfl,rfl⟩
  | succ n ih =>
    obtain ⟨s', made, fit', lined', output, kernel⟩ := ih (by omega)
    obtain ⟨s'', queued, fit'', lined'', output', kernel'⟩ := captureQueued fit' lined' (by omega)
    have exported := honest.exported n (by omega)
    refine ⟨s'',?_,fit'',lined'',output'.trans output,kernel'.trans kernel⟩
    simp only [queueInitial, made, check, exported, honest.queued n (by omega), queued, orFail,
      bind, Except.bind, decide_true, if_true]
    rfl

structure Supplied (cfg : Config) (k : Kernel) (s : Sys) (bufs : List Plane) (s' : Sys) (out : List Nat) :
    Prop where
  fit : Fit k .fixture (grey width height) {} s'
  placed : Placed (s'.queue .output) out cfg.transport.memory (width * height)
  unused : Unused (s'.queue .output)
  capture : s'.queue .capture = s.queue .capture
  fresh : ∃ first, s.k.machine.next ≤ first ∧ out = List.range' first bufferCount
  copies : cfg.transport = .mmap → ∀ (i id : Nat), out[i]? = some id →
    ∃ size, bufs[i]? = some (⟨id,size⟩ : Plane) ∧ width * height ≤ size

theorem mappedBuffers {s : Sys} {out : List Nat} (placed : Placed (s.queue .output) out .mmap (width * height))
    {i id : Nat} (found : out[i]? = some id) :
    ∃ size, (mappings s .output)[i]? = some (⟨id,size⟩ : Plane) ∧ width * height ≤ size := by
  obtain ⟨block, large, _⟩ := placed.plane rfl id (List.mem_of_getElem? found)
  refine ⟨((s.queue .output).buf id).plane.size,?_,large⟩
  rw [mappings, List.getElem?_map, placed.names, found, Option.map_some]
  exact congrArg (fun block => some (⟨block,((s.queue .output).buf id).plane.size⟩ : Plane)) block

theorem outputSupplied (honest : Honest env cfg) {s : Sys} (fit : Fit k .fixture (grey width height) {} s)
    (unused : Unused (s.queue .output)) (none_ : (s.queue .output).ids = []) :
    ∃ bufs s' out, requestOutput env cfg.transport s = some (bufs,s') ∧ Supplied cfg k s bufs s' out := by
  obtain ⟨s1, made, fit1, allocated⟩ :=
    reqbufsFits fit unused (by simp [none_]) cfg.transport.memory env.outSlack (by decide) honest.outGranted
  have size : (s.c.qData .output).sizeimage = width * height := by rw [Ctx.qData, fit.format]; rfl
  have placed := allocated.placed
  rw [size] at placed
  cases mode : cfg.transport with
  | dmabuf =>
    rw [mode] at made placed
    refine ⟨[],s1,List.range' s.k.machine.next bufferCount,
      by simp only [requestOutput, made, bind, Option.bind],
      fit1,by rw [mode]; exact placed,allocated.unused,allocated.other .capture (by decide),
      ⟨_,Nat.le_refl _,rfl⟩,fun other => ?_⟩
    rw [mode] at other
    contradiction
  | mmap =>
    rw [mode] at made placed
    -- vpipe_request_mmap_buffers gives up the buffers just made and takes new ones.
    obtain ⟨s2, made2, fit2, allocated2⟩ := reqbufsFits fit1 allocated.unused
      (fun id inside => placed.bare id (placed.names ▸ inside)) .mmap env.outSlack (by decide) honest.outGranted
    have size1 : (s1.c.qData .output).sizeimage = width * height := by rw [Ctx.qData, fit1.format]; rfl
    have placed2 := allocated2.placed
    rw [size1] at placed2
    refine ⟨mappings s2 .output,s2,List.range' s1.k.machine.next bufferCount,?_,fit2,
      by rw [mode]; exact placed2,
      allocated2.unused,(allocated2.other .capture (by decide)).trans (allocated.other .capture (by decide)),
      ⟨_,by rw [allocated.next]; exact Nat.le_add_right _ _,rfl⟩,fun _ i id found =>
        mappedBuffers placed2 found⟩
    simp only [requestOutput, vpipeRequestMmapBuffers, TransportMode.memory] at made ⊢
    simp only [made, made2, honest.outMapped, if_true, bind, Option.bind]

theorem setUpGoes (honest : Honest env cfg) (ident : Nat) :
    Returns (setUp env cfg k ident) (fun r => ∃ p, Going env cfg k p 0 r) := by
  have wide : 1 ≤ width ∧ width ≤ 4096 := by decide
  have high : 1 ≤ height ∧ height ≤ 4096 := by decide
  have opened : (vpipeOpen k ident env.opened).toOption = some (openedOn k ident) := by rw [honest.opened]; rfl
  obtain ⟨s1, s2, format1, format2, fit2, blank⟩ := formatsFit (openFits k ident) (fun _ => rfl) wide high
  have size2 : vpipeGetSizeimage s2 .output ≠ 0 := by
    rw [vpipeGetSizeimage, vpipeGFmt, Ctx.qData, fit2.format]
    exact (congrArg QData.sizeimage (Tools.filledGrey wide high)).trans_ne (by decide)
  obtain ⟨planes, s3, vivid, count3, requested⟩ := vividRequested fit2 env.camera.length
  have blank3 : ∀ t, s3.queue t = Queue.empty blankBuf := fun t => by
    rw [Sys.queue, requested.queues]
    exact blank t
  obtain ⟨s4, made4, fit4, capture⟩ :=
    reqbufsFirst requested.fit (blank3 .capture) .mmap env.capSlack (by decide) honest.capGranted
  have output4 : s4.queue .output = Queue.empty blankBuf :=
    (capture.other .output (by decide)).trans (blank3 .output)
  obtain ⟨bufs, s5, out, made5, supplied⟩ :=
    outputSupplied honest fit4 (by rw [output4]; exact ⟨rfl,rfl,rfl⟩) (by rw [output4]; rfl)
  have lined := allocatedLined requested.fit capture supplied.capture
  obtain ⟨s6, made6, fit6, lined6, output6, kernel6⟩ :=
    initialQueued honest supplied.fit lined (List.length_range' ..) (Nat.le_refl bufferCount)
  obtain ⟨s7, made7, fit7, open7, output7, kernel7⟩ := captureStreams fit6
    (by rw [List.length_range']; exact lined6) (by simp [bufferCount])
  have outPlaced : Placed (s7.queue .output) out cfg.transport.memory (grey width height).sizeimage := by
    rw [output7, output6]
    exact supplied.placed
  obtain ⟨first, later, outIds⟩ := supplied.fresh
  obtain ⟨s8, made8, serving, board, streamed⟩ := outputStreams fit7 outPlaced
    (by rw [outIds]; simp [bufferCount]) (by rw [output7, output6]; exact supplied.unused) open7
      (fixtureStarts fit7)
  refine checkThen honest.cameraOpened (orFailThen opened (checkThen honest.formatted (orFailThen format1
    (orFailThen format2 (checkThen (by simp [honest.sizeimage, size2]) (checkThen honest.requested ?_))))))
  rw [vivid]
  refine orFailThen
    (by simp only [vpipeRequestMmapBuffers, made4, honest.capMapped, if_true, bind, Option.bind])
    (orFailThen made5 (checkThen honest.csv (returnsThen made6 (checkThen honest.streamed (orFailThen made7
      (orFailThen (by rw [honest.start]; exact made8)
        (returnsOk ⟨⟨grey width height,cfg.transport.memory,out,List.range' s3.k.machine.next bufferCount⟩,
          ?_⟩)))))))
  have apart : (planes.map Plane.block ++ (out ++ List.range' s3.k.machine.next bufferCount)).Nodup := by
    rw [requested.blocks, outIds, count3]
    have next3 : s3.k.machine.next = s2.k.machine.next + bufferCount := requested.next.trans (by rw [count3])
    have next4 : s4.k.machine.next = s3.k.machine.next + bufferCount := capture.next
    simp only [List.nodup_append, List.mem_append, List.mem_range'_1]
    refine ⟨List.nodup_range' ..,⟨List.nodup_range' ..,List.nodup_range' ..,fun a inA b inB => ?_⟩,
      fun a inA b inB => ?_⟩ <;> omega
  constructor
  case rig =>
    refine ⟨rfl,rfl,by rw [outIds]; exact List.length_range' ..,List.length_range' ..,count3,?_,apart,
      supplied.copies⟩
    intro plane member
    rw [requested.sizes plane member]
    exact honest.length
  case serving => exact serving
  case source => exact (congrArg FrameSource.Source.backend streamed.source).trans fit7.source
  case board => exact ⟨_,board,List.Perm.refl _⟩
  case queued => exact List.Perm.refl _
  case foreign => rfl
  case roi => exact congrArg Controls.roi streamed.controls
  case sequence => exact streamed.sequence
  case recorded =>
    exact ⟨rfl,rfl,by rw [streamed.published]; rfl,rfl,fun i none_ => absurd none_ (Nat.not_lt_zero i)⟩

theorem loopKeeps (honest : Honest env cfg) (room : k.sequence + cfg.frames < 2^64)
    (going : Going env cfg k p 0 r) {n : Nat} (within : n ≤ cfg.frames) :
    Returns (frameLoop env cfg n r) (Going env cfg k p n) := by
  induction n with
  | zero => exact returnsOk going
  | succ n ih => exact returnsBind (ih (by omega)) (fun _ so => roundKeeps honest room so (by omega))

end Round

/-- Whatever happens between the calls, the relay ends with one row for each frame of the camera:
each image in a CAPTURE buffer is the camera's image processed, whole and of one frame, on either
transport, and the row and the metadata published for it carry its sequence numbers. -/
theorem relayFaithful (env : Env) (cfg : Config) (k : Kernel) (ident : Nat) (honest : Honest env cfg)
    (room : k.sequence + cfg.frames < 2^64) :
    ∃ r, captureM2m env cfg k ident = .ok r ∧ Recorded env cfg k cfg.frames r := by
  obtain ⟨r, ended, p, going⟩ := returnsBind (setUpGoes honest ident) (fun r ⟨p, going⟩ =>
    let ⟨r', made, so⟩ := loopKeeps honest room going (Nat.le_refl cfg.frames)
    (⟨r',made,p,so⟩ : Returns (frameLoop env cfg cfg.frames r) (fun r => ∃ p, Going env cfg k p cfg.frames r)))
  exact ⟨r,ended,going.recorded⟩

def restlessEnv : Env where
  camera := {frame := fun i => some ⟨3 * i + 1,width * height,(5 * i + 2^31 - 7) % 2^32,
    Nat.mod_lt _ (by decide)⟩}
  clock := fun n => 1000 * n
  around := ⟨fun n => [.draw (n % 4 + 1) [7,200,90],.job 0,.draw (n % 3 + 1) [255]],fun _ => 1⟩

def copyConfig : Config := ⟨.mmap,algoThreshold,5,100,thresholdKnown,by decide,by decide⟩

theorem restlessHonest : Honest restlessEnv copyConfig where
  cameraOpened := rfl
  formatted := rfl
  sizeimage := by decide
  requested := rfl
  length := Nat.le_refl _
  exported := fun _ _ => .inl rfl
  queued := fun _ _ => rfl
  streamed := rfl
  frames := fun _ _ => ⟨_,rfl,Nat.le_refl _⟩
  requeued := fun _ _ => rfl
  opened := rfl
  capGranted := Nat.le_refl _
  capMapped := rfl
  outGranted := Nat.le_refl _
  outMapped := rfl
  csv := rfl
  start := rfl

theorem restlessRelayed : Honest restlessEnv copyConfig ∧ ∃ r,
    captureM2m restlessEnv copyConfig (Kernel.boot (fun n => n) {}) 0 = .ok r ∧
      Recorded restlessEnv copyConfig (Kernel.boot (fun n => n) {}) 5 r :=
  ⟨restlessHonest,relayFaithful restlessEnv copyConfig (Kernel.boot (fun n => n) {}) 0
    restlessHonest (by decide)⟩

end Vpipe.Relay
