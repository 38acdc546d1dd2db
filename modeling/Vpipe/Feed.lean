import Vpipe.CvContract
import Vpipe.Reference
import Vpipe.Runs
import Vpipe.Tools

/-! The tool `vpipe-fixture-feed`, which sends one PGM image through the device, against
`vpipe-cv-ref`. -/
namespace Vpipe.Feed
open Vpipe.Lib.Word Vpipe.Lib.ByteMemory Vpipe.Lib.BufferQueue Vpipe.Lib.Transition
open Vpipe.Cv Vpipe.FrameSource Vpipe.M2m Vpipe.Moves Vpipe.Discipline Vpipe.Runs Vpipe.Pgm
  Vpipe.Reference Vpipe.Tools

def bufferCount : Nat := 2

def captureData (s : Sys) (index : Nat) : Option (List UInt8) :=
  ((s.queue .capture).ids[index]?).map (fun id =>
    let plane := ((s.queue .capture).buf id).plane
    s.k.machine.mem.slice plane plane.size)

/- main: the file written, or none when it exits with an error. The job runs on `cpu` while
DQBUF waits. -/
def fixtureFeed (k : Kernel) (ident cpu : Nat) (fixture : List UInt8) : Option (List UInt8) := do
  let src ← vpipeReadPgm fixture
  let s ← (vpipeOpen k ident {}).toOption
  let s ← vpipeSetFormat s .output src.width src.height pixFmtGrey
  let s ← vpipeSetFormat s .capture src.width src.height pixFmtGrey
  let outSizeimage := vpipeGetSizeimage s .output
  if outSizeimage = 0 then none
  else if src.size > outSizeimage then none
  else do
    let s ← succeeded (vidiocReqbufs s .output bufferCount .dmabuf 0 bufferCount)
    let s ← succeeded (vidiocReqbufs s .capture bufferCount .mmap 0 bufferCount)
    let (dmabuf,s) := dmaHeapAlloc s outSizeimage
    let s := s.step (.store dmabuf.block (src.pixels.take src.size))
    let s ← setControl s cidAlgo algoThreshold
    let s ← setControl s cidThreshold 127
    let s ← (vidiocQbuf s .capture 0 0 none).toOption
    let s ← (vidiocQbuf s .output 0 0 (some ⟨dmabuf,true⟩)).toOption
    let s ← succeeded (vidiocStreamon s .capture {})
    let s ← succeeded (vidiocStreamon s .output {})
    let s := vpipeDeviceRun s cpu
    let s ← (vidiocDqbuf s .capture).toOption
    let capDq ← s.k.returned.getLast?
    let data ← captureData s capDq.index
    some (vpipeWritePgm data src.width src.height)

def twoBuffers (first : Nat) (memory : Memory) (size : Nat) : Queue VpipeBuffer :=
  ((Queue.empty blankBuf).allocate first (newBuffer first 0 memory size 0)).allocate (first + 1)
    (newBuffer (first + 1) 1 memory size 0)

theorem reqbufsAllocates {s : Sys} {t : QType} (memory : Memory) (slack : Nat) {count granted n : Nat}
    (some_ : count ≠ 0) (empty : s.queue t = Queue.empty blankBuf)
    (agreed : min (if count < 2 then 2 else count) granted = n)
    (two : 2 ≤ n) : vidiocReqbufs s t count memory slack granted =
      (none,loop n (fun _ u => u.allocate memory (s.c.qData t).sizeimage slack t) s) := by
  have stopped : (Queue.empty blankBuf).streaming = false := rfl
  have same : s.setQueue t (Queue.empty blankBuf) = s := by rw [← empty, setSame]
  have cancelled : s.cancel t = s := by
    simp only [Sys.cancel, empty, stopped, Bool.false_eq_true, if_false]
    exact same
  have freed : s.setQueue t (Queue.empty blankBuf).free = s := same
  simp only [vidiocReqbufs, empty, stopped, Bool.false_eq_true, if_false, cancelled, freed,
    vpipeQueueSetup, some_, Sys.allocateAll, agreed, if_neg (Nat.not_lt.mpr two)]

theorem reqbufsFresh {s : Sys} {t : QType} (memory : Memory) (empty : s.queue t = Queue.empty blankBuf) :
    succeeded (vidiocReqbufs s t bufferCount memory 0 bufferCount) =
      some ((s.setMachine {s.k.machine with
          next := s.k.machine.next + 2
          mem := (s.k.machine.mem.clear s.k.machine.next).clear (s.k.machine.next + 1)}).setQueue t
        (twoBuffers s.k.machine.next memory (s.c.qData t).sizeimage)) := by
  have blank : s.c.queues t = Queue.empty blankBuf := empty
  rw [reqbufsAllocates memory 0 (n := 2) (by decide) empty rfl (by decide)]
  simp [loop, Sys.allocate, succeeded, Sys.setMachine, Sys.setQueue, Sys.queue, blank, twoBuffers,
    Queue.allocate, Queue.empty]

structure Holding (q : Queue VpipeBuffer) (id : Nat) (plane : Plane) : Prop where
  ids : q.ids = [id,id + 1]
  done : q.done = []
  index : (q.buf id).index = 0
  plane : (q.buf id).plane = plane
  mapped : (q.buf id).mapped = true
  prepared : (q.buf id).prepared = true

structure Waiting (q : Queue VpipeBuffer) (id : Nat) (plane : Plane) : Prop extends Holding q id plane where
  stopped : q.streaming = false
  queued : q.queued = [id]
  ready : q.ready = []

structure Streaming (q : Queue VpipeBuffer) (id : Nat) (plane : Plane) : Prop extends Holding q id plane where
  streaming : q.streaming = true
  ready : q.ready = [id]
  active : (q.buf id).state = .active

theorem handOverStreaming {q : Queue VpipeBuffer} {id : Nat} {plane : Plane} (waiting : Waiting q id plane)
    (f : VpipeBuffer → VpipeBuffer) : Streaming {q.handOver id f with streaming := true} id plane := by
  obtain ⟨⟨ids, done, index, place, mapped, prepared⟩, stopped, queued, ready⟩ := waiting
  constructor
  · constructor <;> simp [Queue.handOver, Queue.modify, ids, done, index, place, mapped, prepared]
  all_goals simp [Queue.handOver, Queue.modify, ready]

theorem firstBuffer (first : Nat) (memory : Memory) (size : Nat) :
    (twoBuffers first memory size).buf first = newBuffer first 0 memory size 0 := by
  simp [twoBuffers, Queue.allocate]

theorem qbufFresh {s : Sys} {t : QType} {first size : Nat} {memory : Memory} (att : Option Attachment)
    (plane : Plane) (queue : s.queue t = twoBuffers first memory size) (data : (s.c.qData t).sizeimage = size)
    (attached : attach (newBuffer first 0 memory size 0) att = .ok ⟨plane,true⟩) (large : size ≤ plane.size) :
    ∃ q, Waiting q first plane ∧ (vidiocQbuf s t 0 0 att).toOption = some (s.setQueue t q) := by
  have ids : (s.queue t).ids = [first,first + 1] := by rw [queue]; rfl
  have buf : (s.queue t).buf first = newBuffer first 0 memory size 0 := by rw [queue, firstBuffer]
  have found : (s.queue t).ids[0]? = some first := by rw [ids]; rfl
  have stopped : (s.queue t).streaming = false := by rw [queue]; rfl
  have queued : (s.queue t).queued = [] := by rw [queue]; rfl
  have ready : (s.queue t).ready = [] := by rw [queue]; rfl
  have done : (s.queue t).done = [] := by rw [queue]; rfl
  have accepted := qbufAccepts found (by rw [buf]; rfl) (by rw [buf]; rfl) (buf ▸ attached) (data ▸ large)
  rw [if_neg (by simp [stopped])] at accepted
  refine ⟨_,?_,congrArg Except.toOption accepted⟩
  constructor
  · constructor <;> simp [Queue.enqueue, Queue.prepare, Queue.modify, ids, done, buf, newBuffer]
  all_goals simp [Queue.enqueue, Queue.prepare, Queue.modify, stopped, queued, ready]

theorem streamonCapture {s : Sys} {id : Nat} {plane : Plane} (waiting : Waiting (s.queue .capture) id plane) :
    ∃ q, Streaming q id plane ∧ succeeded (vidiocStreamon s .capture {}) = some (s.setQueue .capture q) := by
  refine ⟨{(s.queue .capture).handOver id (fun d => d) with streaming := true},handOverStreaming waiting _,?_⟩
  simp [vidiocStreamon, waiting.stopped, waiting.ids, waiting.queued, vpipeBufQueue,
    vpipeStartStreaming, succeeded]

theorem fixtureCall {s : Sys} (id : Nat) (fixture : s.c.src.backend = .fixture) :
    (sourceCall s id).machine.mem = s.k.machine.mem ∧ (sourceCall s id).src.backend = .fixture := by
  simp [sourceCall, vpipeSourceNextFrame, nextFrameOp, fixture, fixtureNextFrame,
    Machine.ktimeGetNs, Machine.note]

theorem fixtureStart {s : Sys} (env : StartEnv) (fixture : s.c.src.backend = .fixture) :
    vpipeStartStreaming s .output env =
      (none,s.setMachine (s.k.machine.note (.call .start s.c.src.ident))) := by
  simp only [vpipeStartStreaming, vpipeSourceStart, fixture]
  rfl

theorem streamonOutput {s : Sys} {id : Nat} {plane : Plane} (waiting : Waiting (s.queue .output) id plane)
    (fixture : s.c.src.backend = .fixture) :
    ∃ s', succeeded (vidiocStreamon s .output {}) = some s' ∧ Streaming (s'.queue .output) id plane ∧
      s'.queue .capture = s.queue .capture ∧ s'.c.outQ = s.c.outQ ∧ s'.c.capQ = s.c.capQ ∧
      s'.k.machine.mem = s.k.machine.mem ∧ ∃ d, ((s'.queue .output).buf id).data = stamped s id d := by
  obtain ⟨mem, backend⟩ := fixtureCall id fixture
  have started := fixtureStart (s := vpipeBufQueue .output s id) {} backend
  have queue : ((vpipeBufQueue .output s id).queue .output) = (s.queue .output).handOver id (stamped s id) :=
    queueSet _ _ _
  refine ⟨((vpipeBufQueue .output s id).setMachine
    ((vpipeBufQueue .output s id).k.machine.note
      (.call .start (vpipeBufQueue .output s id).c.src.ident))).setQueue .output
        {(s.queue .output).handOver id (stamped s id) with streaming := true},?_,?_,?_,rfl,rfl,mem,?_⟩
  · simp only [vidiocStreamon, waiting.stopped, waiting.ids, waiting.queued, runCons, runNil,
      started, succeeded, Bool.false_eq_true, if_false, List.isEmpty_cons]
    rw [← queue]
    rfl
  · rw [queueSet]
    exact handOverStreaming waiting _
  · exact (queueSetOther _ (by decide) _).trans (bufQueueOther (by decide) s id)
  · rw [queueSet]
    exact ⟨((s.queue .output).buf id).data,by simp [Queue.handOver, Queue.modify]⟩

def jobFor (s : Sys) (src dst : Plane) (d : VpipeBuffer) : Threshold :=
  vpipeThresholdFrame (jobOf s src dst) d.threshold (vpipeClampRoi (jobOf s src dst) (some d.roi))
    s.k.machine.mem

theorem jobRuns {s : Sys} {src dst : Nat} (cpu : Nat) {srcPlane dstPlane : Plane}
    (output : Streaming (s.queue .output) src srcPlane) (capture : Streaming (s.queue .capture) dst dstPlane)
    (algo : ((s.queue .output).buf src).data.algoId = algoThreshold) :
    ∃ f, (vpipeDeviceRun s cpu).queue .capture = ((s.queue .capture).setData dst f).take.complete dst true ∧
      (vpipeDeviceRun s cpu).k.machine.mem.bytes =
        (jobFor s srcPlane dstPlane ((s.queue .output).buf src).data).mem.bytes := by
  have go : schedulable s = true := by
    simp [schedulable, output.streaming, output.ready, capture.streaming, capture.ready]
  have source : vaddr ((s.queue .output).buf src) = some srcPlane := by
    rw [vaddr, if_pos output.mapped, output.plane]
  have target : vaddr ((s.queue .capture).buf dst) = some dstPlane := by
    rw [vaddr, if_pos capture.mapped, capture.plane]
  have processed : Processed s src dst (jobOf s srcPlane dstPlane)
      ⟨0,(jobFor s srcPlane dstPlane ((s.queue .output).buf src).data).white,
        (jobFor s srcPlane dstPlane ((s.queue .output).buf src).data).black,
        vpipeClampRoi (jobOf s srcPlane dstPlane) (some ((s.queue .output).buf src).data.roi)⟩
      (jobFor s srcPlane dstPlane ((s.queue .output).buf src).data).mem :=
    ⟨source,target,rfl,by rw [algo]; exact CvContract.runsThreshold _ _ _ _⟩
  rw [deviceRunProcessed cpu go ⟨[],[],output.ready,capture.ready⟩ processed]
  exact ⟨_,congrArg (fun q => q.take.complete dst true) (queueSet _ _ _),scanBytes _ _ _⟩

theorem jobDequeued {s : Sys} {src dst : Nat} (cpu : Nat) {srcPlane dstPlane : Plane}
    (output : Streaming (s.queue .output) src srcPlane) (capture : Streaming (s.queue .capture) dst dstPlane)
    (algo : ((s.queue .output).buf src).data.algoId = algoThreshold) :
    ∃ s', (vidiocDqbuf (vpipeDeviceRun s cpu) .capture).toOption = some s' ∧
      (∃ r, s'.k.returned.getLast? = some r ∧ r.index = 0) ∧
      captureData s' 0 = some ((jobFor s srcPlane dstPlane ((s.queue .output).buf src).data).mem.slice
        dstPlane dstPlane.size) := by
  obtain ⟨f, queue, bytes⟩ := jobRuns cpu output capture algo
  generalize vpipeDeviceRun s cpu = s1 at queue bytes
  have active : (((s.queue .capture).setData dst f).take.buf dst).state = .active := by
    simpa [Queue.take, Queue.setData, Queue.modify] using capture.active
  rw [Queue.complete, if_pos active] at queue
  have streaming : (s1.queue .capture).streaming = true := by rw [queue]; exact capture.streaming
  have done : (s1.queue .capture).done = [dst] := by
    rw [queue]; simp [Queue.take, Queue.setData, Queue.modify, capture.done]
  have ids : (s1.queue .capture).ids = [dst,dst + 1] := by rw [queue]; exact capture.ids
  have index : ((s1.queue .capture).buf dst).index = 0 := by
    rw [queue]; simpa [Queue.take, Queue.setData, Queue.modify] using capture.index
  have plane : ((s1.queue .capture).buf dst).plane = dstPlane := by
    rw [queue]; simpa [Queue.take, Queue.setData, Queue.modify] using capture.plane
  refine ⟨{releaseOne .capture s1 dst with
    k := noteReturned .capture dst ((s1.queue .capture).buf dst) (releaseOne .capture s1 dst).k},?_,?_,?_⟩
  · simp only [vidiocDqbuf, streaming, done]
    rfl
  · simpa [noteReturned] using index
  · have released : (releaseOne .capture s1 dst).queue .capture =
        (Queue.release (vpipeBufFinish .capture) (s1.k,s1.queue .capture) dst).2 := queueSet _ _ _
    have data : ((releaseOne .capture s1 dst).queue .capture).ids[0]? = some dst ∧
        (((releaseOne .capture s1 dst).queue .capture).buf dst).plane = dstPlane := by
      rw [released]
      simp [Queue.release, ids, plane]
    have bytes := (congrArg Mem.bytes (releaseMem .capture s1 dst)).trans bytes
    have found : captureData {releaseOne .capture s1 dst with
        k := noteReturned .capture dst ((s1.queue .capture).buf dst) (releaseOne .capture s1 dst).k} 0 =
        captureData (releaseOne .capture s1 dst) 0 := rfl
    rw [found, captureData, data.1, Option.map_some, data.2]
    simp only [Mem.slice, Mem.get, bytes]

structure Config (s : Sys) (d : QData) (controls : Controls) : Prop where
  outQ : s.c.outQ = d
  capQ : s.c.capQ = d
  controls : s.c.controls = controls
  fixture : s.c.src.backend = .fixture

def feedControls : Controls := {algoId := algoThreshold, threshold := 127}

theorem feedPrepared (k : Kernel) (ident : Nat) {img : PgmImage} (sized : WellSized img) :
    ∃ s1 s2 s3 s4 s5 : Sys, vpipeSetFormat (openedOn k ident) .output img.width img.height pixFmtGrey =
      some s1 ∧
      vpipeSetFormat s1 .capture img.width img.height pixFmtGrey = some s1 ∧
      vpipeGetSizeimage s1 .output = img.size ∧
      succeeded (vidiocReqbufs s1 .output bufferCount .dmabuf 0 bufferCount) = some s2 ∧
      succeeded (vidiocReqbufs s2 .capture bufferCount .mmap 0 bufferCount) = some s3 ∧
      setControl ((dmaHeapAlloc s3 img.size).2.step (.store (dmaHeapAlloc s3 img.size).1.block
        (img.pixels.take img.size))) cidAlgo algoThreshold = some s4 ∧
      setControl s4 cidThreshold 127 = some s5 ∧ Config s5 (grey img.width img.height) feedControls ∧
      ∃ first, s5.queue .output = twoBuffers first .dmabuf img.size ∧
        s5.queue .capture = twoBuffers (first + 2) .mmap img.size ∧
        (dmaHeapAlloc s3 img.size).1 = ⟨first + 4,img.size⟩ ∧
        ∀ i, i < img.size → s5.k.machine.mem.bytes (first + 4) i = img.pixels.getD i 0 := by
  have size : vpipeGetSizeimage {openedOn k ident with c := {(openedOn k ident).c with
      outQ := grey img.width img.height, capQ := grey img.width img.height}} .output = img.size := by
    rw [sized.size]
    exact congrArg QData.sizeimage (filledGrey sized.width sized.height)
  refine ⟨_,_,_,_,_,formatSet sized.width sized.height rfl,formatSet sized.width sized.height rfl,size,
    reqbufsFresh .dmabuf rfl,reqbufsFresh .mmap rfl,rfl,rfl,⟨rfl,rfl,rfl,rfl⟩,k.machine.next + 1,?_,?_,rfl,?_⟩
  · rw [sized.size]; rfl
  · rw [sized.size]; rfl
  · intro i inside
    have taken : img.pixels.take img.size = img.pixels := List.take_of_length_le (Nat.le_of_eq sized.pixels)
    refine (storeBytes _ _ (img.pixels.take img.size) i ?_).trans ?_
    · rw [taken, sized.pixels]; exact inside
    · rw [taken]

theorem feedStarted {s : Sys} {img : PgmImage} (sized : WellSized img)
    (config : Config s (grey img.width img.height) feedControls) {first : Nat}
    (output : s.queue .output = twoBuffers first .dmabuf img.size)
    (capture : s.queue .capture = twoBuffers (first + 2) .mmap img.size) :
    ∃ s1 s2 s3 s4 : Sys, (vidiocQbuf s .capture 0 0 none).toOption = some s1 ∧
      (vidiocQbuf s1 .output 0 0 (some ⟨⟨first + 4,img.size⟩,true⟩)).toOption = some s2 ∧
      succeeded (vidiocStreamon s2 .capture {}) = some s3 ∧ succeeded (vidiocStreamon s3 .output {}) = some s4 ∧
      Streaming (s4.queue .output) first ⟨first + 4,img.size⟩ ∧
      Streaming (s4.queue .capture) (first + 2) ⟨first + 2,img.size⟩ ∧
      s4.c.outQ = grey img.width img.height ∧ s4.c.capQ = grey img.width img.height ∧
      s4.k.machine.mem = s.k.machine.mem ∧
      ((s4.queue .output).buf first).data.algoId = algoThreshold ∧
      ((s4.queue .output).buf first).data.threshold = 127 ∧
      ((s4.queue .output).buf first).data.roi = ⟨0,0,defaultWidth,defaultHeight⟩ := by
  have apart : QType.output ≠ .capture := by decide
  obtain ⟨cq, capWaiting, capQueued⟩ := qbufFresh none ⟨first + 2,img.size⟩ capture
    (by rw [Ctx.qData, config.capQ, sized.size]; rfl) rfl (Nat.le_refl _)
  obtain ⟨oq, outWaiting, outQueued⟩ := qbufFresh (s := s.setQueue .capture cq) (t := .output)
    (some ⟨⟨first + 4,img.size⟩,true⟩) ⟨first + 4,img.size⟩ ((queueSetOther s apart cq).trans output)
    (by rw [sized.size]; exact congrArg QData.sizeimage config.outQ) (by simp [attach, newBuffer])
      (Nat.le_refl _)
  have capQueue : ((s.setQueue .capture cq).setQueue .output oq).queue .capture = cq := by
    rw [queueSetOther _ apart.symm, queueSet]
  obtain ⟨cq', capStreaming, capStarted⟩ := streamonCapture (capQueue.symm ▸ capWaiting)
  obtain ⟨s4, outStarted, outStreaming, capSame, outQ, capQ, mem, d, data⟩ := streamonOutput
    (s := ((s.setQueue .capture cq).setQueue .output oq).setQueue .capture cq')
    (by rw [queueSetOther _ apart, queueSet]; exact outWaiting) config.fixture
  refine ⟨_,_,_,s4,capQueued,outQueued,capStarted,outStarted,outStreaming,?_,outQ.trans config.outQ,
    capQ.trans config.capQ,mem,?_⟩
  · rw [capSame, queueSet]
    exact capStreaming
  · rw [data]
    have controls : (((s.setQueue .capture cq).setQueue .output oq).setQueue .capture cq').c.controls =
        feedControls := config.controls
    simp only [stamped, controls]
    exact ⟨rfl,rfl,rfl⟩

def fedPixel (img : PgmImage) (x y : Nat) : UInt8 :=
  if x < defaultWidth ∧ y < defaultHeight then thresholdPixel 127 (img.pixel x y) else img.pixel x y

theorem jobPixel {s : Sys} {img : PgmImage} (sized : WellSized img) {src dst : Nat} (apart : src ≠ dst)
    (outQ : s.c.outQ = grey img.width img.height) (capQ : s.c.capQ = grey img.width img.height)
    (pixels : ∀ i, i < img.size → s.k.machine.mem.bytes src i = img.pixels.getD i 0) {d : VpipeBuffer}
    (threshold : d.threshold = 127) (roi : d.roi = ⟨0,0,defaultWidth,defaultHeight⟩) {x y : Nat}
    (inRow : x < img.width) (inFrame : y < img.height) :
    (jobFor s ⟨src,img.size⟩ ⟨dst,img.size⟩ d).mem.bytes dst (y * img.width + x : Nat) = fedPixel img x y := by
  have width := sized.width
  have height := sized.height
  have total : img.height * img.width = img.size := by rw [sized.size, Nat.mul_comm]
  have small : img.size < 2^32 := by
    rw [sized.size]
    calc img.width * img.height ≤ 4096 * 4096 := Nat.mul_le_mul width.2 height.2
      _ < 2^32 := by decide
  have job : jobOf s ⟨src,img.size⟩ ⟨dst,img.size⟩ =
      ⟨⟨src,img.size⟩,⟨dst,img.size⟩,img.width,img.height,img.width,img.width⟩ := by
    simp only [jobOf, outQ, capQ, grey]
  have fits : Fits ⟨⟨src,img.size⟩,⟨dst,img.size⟩,img.width,img.height,img.width,img.width⟩ := by
    refine ⟨⟨?_,?_,?_,?_,?_,?_⟩,?_,?_⟩ <;> simp only <;> omega
  have inside : y * img.width + x < img.size := sized.pixels ▸ pixelInside sized inRow inFrame
  unfold jobFor
  rw [job, threshold, roi]
  have pixel := CvContract.thresholdPixels fits.toShaped (.inl apart) 127 (clampInside fits.width fits.height
    (some ⟨0,0,defaultWidth,defaultHeight⟩)) s.k.machine.mem inRow inFrame
  have has : (vpipeClampRoi ⟨⟨src,img.size⟩,⟨dst,img.size⟩,img.width,img.height,img.width,img.width⟩
      (some ⟨0,0,defaultWidth,defaultHeight⟩)).Has x y ↔ x < defaultWidth ∧ y < defaultHeight := by
    have start : ∀ n : Nat, clampInt 0 0 n = 0 := fun n => by unfold clampInt; omega
    rw [clampHas fits.width fits.height (by decide) (by decide) inRow inFrame]
    simp only [start]
    omega
  rw [pixel, pixels _ inside]
  exact if_congr has rfl rfl

theorem feedPixels (k : Kernel) (ident cpu : Nat) {fixture : List UInt8} {img : PgmImage}
    (accepted : vpipeReadPgm fixture = some img) : ∃ data, data.length = img.width * img.height ∧
      fixtureFeed k ident cpu fixture = some (vpipeWritePgm data img.width img.height) ∧
      ∀ x y, x < img.width → y < img.height → data[y * img.width + x]? = some (fedPixel img x y) := by
  have sized := readWellSized accepted
  obtain ⟨s1, s2, s3, s4, s5, format1, format2, sizeimage, outBuffers, capBuffers, setAlgo,
      setThreshold, config,
    first, outQueue, capQueue, dmabuf, pixels⟩ := feedPrepared k ident sized
  obtain ⟨s6, s7, s8, s9, capQueued, outQueued, capStarted, outStarted, output, capture, outQ, capQ, mem, algo,
    threshold, roi⟩ := feedStarted sized config outQueue capQueue
  obtain ⟨s10, dequeued, ⟨r, returned, index⟩, data⟩ := jobDequeued cpu output capture algo
  have some_ : img.size ≠ 0 := by
    rw [sized.size]
    exact Nat.ne_of_gt (Nat.mul_pos sized.width.1 sized.height.1)
  rw [dmabuf] at setAlgo
  have opened : (vpipeOpen k ident {}).toOption = some (openedOn k ident) := rfl
  refine ⟨(jobFor s9 ⟨first + 4,img.size⟩ ⟨first + 2,img.size⟩ ((s9.queue .output).buf first).data).mem.slice
    ⟨first + 2,img.size⟩ img.size,(sliceLength _ _ _).trans sized.size,?_,?_⟩
  · refine Option.bind_eq_some_iff.mpr ⟨img,accepted,?_⟩
    refine Option.bind_eq_some_iff.mpr ⟨_,opened,?_⟩
    refine Option.bind_eq_some_iff.mpr ⟨s1,format1,?_⟩
    refine Option.bind_eq_some_iff.mpr ⟨s1,format2,?_⟩
    simp only [sizeimage, some_, if_false, gt_iff_lt, Nat.lt_irrefl]
    refine Option.bind_eq_some_iff.mpr ⟨s2,outBuffers,?_⟩
    refine Option.bind_eq_some_iff.mpr ⟨s3,capBuffers,?_⟩
    rw [dmabuf]
    refine Option.bind_eq_some_iff.mpr ⟨s4,setAlgo,?_⟩
    refine Option.bind_eq_some_iff.mpr ⟨s5,setThreshold,?_⟩
    refine Option.bind_eq_some_iff.mpr ⟨s6,capQueued,?_⟩
    refine Option.bind_eq_some_iff.mpr ⟨s7,outQueued,?_⟩
    refine Option.bind_eq_some_iff.mpr ⟨s8,capStarted,?_⟩
    refine Option.bind_eq_some_iff.mpr ⟨s9,outStarted,?_⟩
    refine Option.bind_eq_some_iff.mpr ⟨s10,dequeued,?_⟩
    refine Option.bind_eq_some_iff.mpr ⟨r,returned,?_⟩
    refine Option.bind_eq_some_iff.mpr ⟨_,?_,rfl⟩
    rw [index]
    exact data
  · intro x y inRow inFrame
    rw [sliceAt _ _ (sized.pixels ▸ pixelInside sized inRow inFrame)]
    refine congrArg some (jobPixel sized (by omega) outQ capQ ?_ threshold roi inRow inFrame)
    rw [mem]
    exact pixels

theorem wholeWindow {img : PgmImage} (sized : WellSized img) {x y : Nat} (inRow : x < img.width)
    (inFrame : y < img.height) : (windowOf img 0 0 (s32 img.width) (s32 img.height)).Has x y := by
  have width := sized.width
  have height := sized.height
  rw [s32Of (by omega) (by omega), s32Of (by omega) (by omega)]
  have wide : toU32 img.width = img.width := by unfold toU32; omega
  have high : toU32 img.height = img.height := by unfold toU32; omega
  have start : ∀ n, firstOf 0 n = 0 := fun n => by simp [firstOf, toU32]
  rw [windowOf, if_neg (by omega)]
  simp only [start, lastOf, wide, high, Nat.sub_zero, Nat.zero_add, gt_iff_lt, Nat.lt_irrefl, if_false]
  exact ⟨Nat.zero_le _,inRow,Nat.zero_le _,inFrame⟩

theorem referenceFile {input : List UInt8} {img : PgmImage} (accepted : vpipeReadPgm input = some img)
    {threshold : Nat} (range : threshold ≤ 255) : cvRef input threshold =
      some (vpipeWritePgm (img.pixels.map (thresholdPixel threshold)) img.width img.height) := by
  have sized := readWellSized accepted
  obtain ⟨dst, made⟩ : ∃ dst, vpipeThresholdReference img (UInt8.ofNat threshold) 0 0
      (s32 img.width) (s32 img.height) = some dst := ⟨_,rfl⟩
  obtain ⟨sameWidth, sameHeight, _, length, pixels⟩ := referencePixels sized made
  rw [cvRefWrites accepted made, sameWidth, sameHeight]
  have same : dst.pixels = img.pixels.map (thresholdPixel threshold) := by
    refine pixelsExt (length.trans sized.size) (by rw [List.length_map, sized.pixels, sized.size]) ?_
    intro x y inRow inFrame
    have inside := pixelInside sized inRow inFrame
    have level : (UInt8.ofNat threshold).toNat = threshold := Nat.mod_eq_of_lt (by omega)
    rw [pixels x y inRow inFrame, if_pos (wholeWindow sized inRow inFrame), List.getElem?_map,
      List.getElem?_eq_getElem inside]
    simp only [referenceAt, gt_iff_lt, UInt8.lt_iff_toNat_lt, level, thresholdPixel, List.getD_eq_getElem?_getD,
      List.getElem?_eq_getElem inside, Option.getD_some, Option.map_some]
  rw [same]

theorem refPixels {input : List UInt8} {img : PgmImage} (accepted : vpipeReadPgm input = some img) :
    ∃ data, data.length = img.width * img.height ∧
      cvRef input 127 = some (vpipeWritePgm data img.width img.height) ∧
      ∀ x y, x < img.width → y < img.height →
        data[y * img.width + x]? = some (thresholdPixel 127 (img.pixel x y)) := by
  have sized := readWellSized accepted
  refine ⟨img.pixels.map (thresholdPixel 127),?_,referenceFile accepted (by decide),?_⟩
  · rw [List.length_map, sized.pixels, sized.size]
  · intro x y inRow inFrame
    have inside := pixelInside sized inRow inFrame
    simp only [PgmImage.pixel, List.getD_eq_getElem?_getD, List.getElem?_map, List.getElem?_eq_getElem inside,
      Option.getD_some, Option.map_some]

theorem thresholdFixed (p : UInt8) : p = thresholdPixel 127 p ↔ p = 0 ∨ p = 255 := by
  unfold thresholdPixel
  split
  · rename_i bright
    refine ⟨.inr,fun ends => ends.resolve_left ?_⟩
    rintro rfl
    simp at bright
  · rename_i dark
    refine ⟨.inl,fun ends => ends.resolve_right ?_⟩
    rintro rfl
    simp at dark

/-- The device's file is the reference's exactly when every pixel outside the ROI that
vpipe_open sets is already black or white. -/
theorem kernelMatchesReference (k : Kernel) (ident cpu : Nat) {file : List UInt8} {img : PgmImage}
    (accepted : vpipeReadPgm file = some img) :
    ∃ kernelPgm referencePgm, fixtureFeed k ident cpu file = some kernelPgm ∧
      cvRef file 127 = some referencePgm ∧
      (kernelPgm = referencePgm ↔ ∀ x y, x < img.width → y < img.height →
        defaultWidth ≤ x ∨ defaultHeight ≤ y → img.pixel x y = 0 ∨ img.pixel x y = 255) := by
  obtain ⟨fed, fedLength, fedFile, fedAt⟩ := feedPixels k ident cpu accepted
  obtain ⟨made, madeLength, refFile, refAt⟩ := refPixels accepted
  refine ⟨_,_,fedFile,refFile,?_⟩
  rw [writeInjective fedLength madeLength]
  constructor
  · rintro rfl x y inRow inFrame outside
    have same := (fedAt x y inRow inFrame).symm.trans (refAt x y inRow inFrame)
    have copied : ¬ (x < defaultWidth ∧ y < defaultHeight) := by omega
    rw [fedPixel, if_neg copied, Option.some.injEq] at same
    exact (thresholdFixed _).mp same
  · intro extreme
    refine pixelsExt fedLength madeLength (fun x y inRow inFrame => ?_)
    rw [fedAt x y inRow inFrame, refAt x y inRow inFrame, Option.some.injEq, fedPixel]
    split
    · rfl
    · exact (thresholdFixed _).mpr (extreme x y inRow inFrame (by omega))

def whiteEdgeFile : List UInt8 := pgmHeader 641 1 ++ (List.replicate 640 200 ++ [255])

theorem whiteEdgeMatches : ∃ pgm, fixtureFeed (Kernel.boot (fun n => n + 1) {}) 0 0 whiteEdgeFile = some pgm ∧
    cvRef whiteEdgeFile 127 = some pgm := by
  have accepted : vpipeReadPgm whiteEdgeFile = some ⟨641,1,641,List.replicate 640 200 ++ [255]⟩ := by
    decide +kernel
  obtain ⟨kernelPgm, referencePgm, fed, made, matches_⟩ :=
    kernelMatchesReference (Kernel.boot (fun n => n + 1) {}) 0 0 accepted
  have equal : kernelPgm = referencePgm := by
    refine matches_.mpr (fun x y inRow inFrame outside => ?_)
    obtain ⟨rfl, rfl⟩ : x = 640 ∧ y = 0 := by
      simp only [defaultWidth, defaultHeight] at inRow inFrame outside
      omega
    exact .inr (by decide +kernel)
  exact ⟨kernelPgm,fed,equal ▸ made⟩

def wideFile : List UInt8 := pgmHeader 641 1 ++ (List.replicate 640 0 ++ [100])

theorem wideFileDiffers :
    fixtureFeed (Kernel.boot (fun n => n + 1) {}) 0 0 wideFile ≠ cvRef wideFile 127 := by
  have accepted : vpipeReadPgm wideFile = some ⟨641,1,641,List.replicate 640 0 ++ [100]⟩ := by decide +kernel
  obtain ⟨fed, fedLength, fedFile, fedAt⟩ := feedPixels (Kernel.boot (fun n => n + 1) {}) 0 0 accepted
  obtain ⟨made, madeLength, refFile, refAt⟩ := refPixels accepted
  rw [fedFile, refFile]
  intro same
  have equal := (writeInjective fedLength madeLength).mp (Option.some.inj same)
  have last := (fedAt 640 0 (by decide) (by decide)).symm.trans (equal ▸ refAt 640 0 (by decide) (by decide))
  revert last
  decide +kernel

end Vpipe.Feed
