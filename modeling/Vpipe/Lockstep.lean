import Vpipe.Feed
import Vpipe.Order
import Vpipe.Pipeline

/-! The device in the hands of one tool, while both queues stream, with any source. The tool sees
four lists: the buffers the driver has not used yet and the completed ones, of either queue. Each
call and each job moves one buffer on, and every call that the lists allow succeeds. -/
namespace Vpipe.Lockstep
open Vpipe.Lib.Word Vpipe.Lib.ByteMemory Vpipe.Lib.BufferQueue Vpipe.Lib.Transition
open Vpipe.Cv Vpipe.FrameSource Vpipe.MetaRing Vpipe.M2m Vpipe.Moves Vpipe.Discipline Vpipe.Runs
open Vpipe.Stream (Placed Alike Started placedRewritten startedRewritten startedDequeued)
open Vpipe.Pipeline (Submitted Dequeued qbufSubmits dqbufDequeues shapedJob)

structure Bench where
  format : QData
  memory : Memory
  out : List Nat
  cap : List Nat

structure Board where
  outReady : List Nat
  outDone : List Nat
  capReady : List Nat
  capDone : List Nat

def boardOf (s : Sys) : Board :=
  ⟨(s.queue .output).ready,(s.queue .output).done,(s.queue .capture).ready,(s.queue .capture).done⟩

structure Serving (p : Bench) (s : Sys) : Prop where
  sane : Sane s
  output : Exact (s.queue .output)
  format : s.c.outQ = p.format
  started : ∀ t, Started (s.queue t)
  outPlaced : Placed (s.queue .output) p.out p.memory p.format.sizeimage
  capPlaced : Placed (s.queue .capture) p.cap .mmap p.format.sizeimage

structure Quiet (s s' : Sys) : Prop where
  controls : s'.c.controls = s.c.controls
  src : s'.c.src = s.c.src
  mem : s'.k.machine.mem = s.k.machine.mem
  fbs : s'.k.machine.fbs = s.k.machine.fbs
  sequence : s'.k.sequence = s.k.sequence

section Calls
variable {p : Bench} {s : Sys}

theorem servingRewritten {s' : Sys} {t : QType} {id : Nat} {b : Buf VpipeBuffer} {ready done : List Nat}
    (serving : Serving p s) (sane : Sane s') (output : Exact (s'.queue .output))
    (rewritten : Rewritten (s.queue t) (s'.queue t) id b ready done) (alike : Alike ((s.queue t).buf id) b)
    (handed : b.state ≠ .queued) (other : ∀ t', t' ≠ t → s'.queue t' = s.queue t')
    (format : s'.c.outQ = s.c.outQ) :
    Serving p s' := by
  refine ⟨sane,output,format.trans serving.format,?_,?_,?_⟩
  · intro t'
    by_cases same : t' = t
    · subst same
      exact startedRewritten (serving.started _) rewritten handed
    · rw [other t' same]
      exact serving.started t'
  · cases t with
    | output => exact placedRewritten serving.outPlaced rewritten alike
    | capture => rw [other .output (by decide)]; exact serving.outPlaced
  · cases t with
    | output => rw [other .capture (by decide)]; exact serving.capPlaced
    | capture => exact placedRewritten serving.capPlaced rewritten alike

theorem servingControls (serving : Serving p s) (controls : Controls) :
    Serving p {s with c := {s.c with controls := controls}} := by
  have base := serving.sane.toBase
  exact {serving with sane :=
    ⟨⟨⟨base.sound,base.geometry,base.mirrored⟩,serving.sane.capture⟩,serving.sane.rest⟩}

theorem servingStore (serving : Serving p s) (block : Nat) (bytes : List UInt8) :
    Serving p (s.step (.store block bytes)) :=
  {serving with sane := saneStep serving.sane (.store block bytes)}

structure Loaded (s s' : Sys) (id : Nat) (a : Attachment) : Prop where
  plane : ((s'.queue .output).buf id).plane = a.plane
  mapped : ((s'.queue .output).buf id).mapped = a.mapped
  algo : ((s'.queue .output).buf id).data.algoId = s.c.controls.algoId
  threshold : ((s'.queue .output).buf id).data.threshold = s.c.controls.threshold
  roi : ((s'.queue .output).buf id).data.roi = s.c.controls.roi
  sequence : ((s'.queue .output).buf id).data.srcSequence = s.c.controls.srcSequence
  controls : s'.c.controls = s.c.controls
  src : s'.c.src = (sourceCall (enqueuedAt s .output id a) id).src
  machine : s'.k.machine = (sourceCall (enqueuedAt s .output id a) id).machine
  count : s'.k.sequence = s.k.sequence
  published : s'.k.published = s.k.published

theorem loads (serving : Serving p s) {index id : Nat} (found : p.out[index]? = some id)
    (spare : id ∉ (s.queue .output).ready ∧ id ∉ (s.queue .output).done) {att : Option Attachment}
    {a : Attachment}
    (attached : attach ((s.queue .output).buf id) att = .ok a) (large : p.format.sizeimage ≤ a.plane.size) :
    ∃ s', vidiocQbuf s .output index 0 att = .ok s' ∧ Serving p s' ∧
      boardOf s' = {boardOf s with outReady := (boardOf s).outReady ++ [id]} ∧ Loaded s s' id a := by
  have inside : id ∈ (s.queue .output).ids := serving.outPlaced.names ▸ List.mem_of_getElem? found
  have state := startedDequeued (serving.sane.sound .output).wf (serving.started .output) inside spare.1 spare.2
  obtain ⟨accepted, submitted⟩ := qbufSubmits serving.sane serving.output (serving.started _).1
    (serving.outPlaced.names ▸ found) state
      (serving.outPlaced.bare id (List.mem_of_getElem? found) state) attached
    (by simp only [Ctx.qData, serving.format]; exact large)
  obtain ⟨d, data, rewritten⟩ := submitted.queue
  have alike : ((s.queue .output).buf id).memory = .mmap →
      a.plane = ((s.queue .output).buf id).plane ∧ a.mapped = ((s.queue .output).buf id).mapped := by
    intro kind
    simp only [attach, kind] at attached
    cases attached
    exact ⟨rfl,rfl⟩
  refine ⟨_,accepted,servingRewritten serving submitted.sane submitted.output rewritten
    ⟨rfl,rfl,rfl,alike,by simp⟩ (by simp) submitted.other submitted.format,?_,?_⟩
  · simp only [boardOf, rewritten.ready, rewritten.done, submitted.other .capture (by decide)]
  · constructor
    case controls => exact submitted.controls
    case src => rfl
    case machine => rfl
    case count => exact submitted.sequence
    case published => rfl
    all_goals rw [rewrittenSelf rewritten]
    all_goals
      try rw [data]
      rfl

theorem fixtureLoaded {s' : Sys} {id : Nat} {a : Attachment} (fixture : s.c.src.backend = .fixture)
    (loaded : Loaded s s' id a) : s'.k.machine.mem = s.k.machine.mem ∧ s'.c.src.backend = .fixture := by
  rw [loaded.machine, loaded.src]
  exact Feed.fixtureCall (s := enqueuedAt s .output id a) id fixture

theorem returns (serving : Serving p s) {index id : Nat} (found : p.cap[index]? = some id)
    (spare : id ∉ (s.queue .capture).ready ∧ id ∉ (s.queue .capture).done) :
    ∃ s', vidiocQbuf s .capture index 0 none = .ok s' ∧ Serving p s' ∧
      boardOf s' = {boardOf s with capReady := (boardOf s).capReady ++ [id]} ∧ Quiet s s' ∧
      s'.k.published = s.k.published := by
  have member : id ∈ p.cap := List.mem_of_getElem? found
  have inside : id ∈ (s.queue .capture).ids := serving.capPlaced.names ▸ member
  have state := startedDequeued (serving.sane.sound .capture).wf (serving.started .capture) inside
    spare.1 spare.2
  obtain ⟨_, large, _⟩ := serving.capPlaced.plane rfl id member
  have attached : attach ((s.queue .capture).buf id) none =
      .ok ⟨((s.queue .capture).buf id).plane,((s.queue .capture).buf id).mapped⟩ := by
    simp only [attach, (serving.capPlaced.kind id member).1]
  have format : s.c.capQ = p.format := serving.sane.mirrored.trans serving.format
  obtain ⟨accepted, submitted⟩ := qbufSubmits serving.sane serving.output (serving.started _).1
    (serving.capPlaced.names ▸ found) state
    (serving.capPlaced.bare id member state) attached (by simp only [Ctx.qData, format]; exact large)
  obtain ⟨d, _, rewritten⟩ := submitted.queue
  refine ⟨_,accepted,servingRewritten serving submitted.sane submitted.output rewritten
    ⟨rfl,rfl,rfl,fun _ => ⟨rfl,rfl⟩,by simp⟩ (by simp) submitted.other submitted.format,?_,
    ⟨submitted.controls,rfl,rfl,rfl,submitted.sequence⟩,rfl⟩
  simp only [boardOf, rewritten.ready, rewritten.done, submitted.other .output (by decide)]

theorem dequeuedServing {t : QType} {s' : Sys} {id : Nat} {rest : List Nat} (serving : Serving p s)
    (dequeued : Dequeued t s s' id rest) : Serving p s' ∧ Quiet s s' := by
  obtain ⟨d, rewritten⟩ := dequeued.queue
  refine ⟨servingRewritten serving dequeued.sane dequeued.output rewritten
    ⟨rfl,rfl,rfl,fun _ => ⟨rfl,rfl⟩,fun _ => rfl⟩
    (by simp) dequeued.other (by rw [dequeued.context]),by
      rw [dequeued.context],by rw [dequeued.context],dequeued.mem,
    dequeued.fbs,dequeued.sequence⟩

theorem frees (serving : Serving p s) {id : Nat} {rest : List Nat} (done : (boardOf s).outDone = id :: rest) :
    ∃ s', vidiocDqbuf s .output = .ok s' ∧ Serving p s' ∧
      boardOf s' = {boardOf s with outDone := rest} ∧ Quiet s s' ∧
      s'.k.published = s.k.published := by
  obtain ⟨s', made, dequeued, _, published⟩ :=
    dqbufDequeues serving.sane serving.output (serving.started .output).1 done
  obtain ⟨serving', quiet⟩ := dequeuedServing serving dequeued
  obtain ⟨d, rewritten⟩ := dequeued.queue
  refine ⟨s',made,serving',?_,quiet,?_⟩
  · simp only [boardOf, rewritten.ready, rewritten.done, dequeued.other .capture (by decide)]
  · rw [published]
    rcases releaseKernel .output s id with ⟨_, same⟩ | ⟨capture, _⟩
    · rw [same]
    · exact absurd capture.1 (by decide)

theorem takes (serving : Serving p s) {id : Nat} {rest : List Nat} (done : (boardOf s).capDone = id :: rest)
    (filled : ((s.queue .capture).buf id).data.metaPending.seq ≠ 0) :
    ∃ s', vidiocDqbuf s .capture = .ok s' ∧ Serving p s' ∧
      boardOf s' = {boardOf s with capDone := rest} ∧ Quiet s s' ∧
      s'.k.published = s.k.published ++ [⟨id,{((s.queue .capture).buf id).data.metaPending with
        dqbufTimestampNs := s.k.machine.ktimeGetNs.1}⟩] := by
  obtain ⟨s', made, dequeued, _, published⟩ :=
    dqbufDequeues serving.sane serving.output (serving.started .capture).1 done
  obtain ⟨serving', quiet⟩ := dequeuedServing serving dequeued
  obtain ⟨d, rewritten⟩ := dequeued.queue
  have wf := (serving.sane.sound .capture).wf
  obtain ⟨inside, finished⟩ := (wf.done id).mp (show id ∈ (s.queue .capture).done by
    rw [show (s.queue .capture).done = id :: rest from done]; simp)
  have prepared : ((s.queue .capture).buf id).prepared = true := by
    refine wf.prepared id inside (fun back => ?_)
    simp [back] at finished
  refine ⟨s',made,serving',?_,quiet,?_⟩
  · simp only [boardOf, rewritten.ready, rewritten.done, dequeued.other .output (by decide)]
  · rw [published]
    rcases releaseKernel .capture s id with ⟨none_, _⟩ | ⟨_, kernel⟩
    · exact absurd ⟨rfl,prepared,filled⟩ none_
    · rw [kernel]
      rfl

structure Row (s : Sys) (src : Nat) (plane : Plane) (m : Mem) (d : VpipeBuffer) : Prop where
  payload : d.payload = s.c.capQ.sizeimage
  sequence : d.sequence = u32 d.metaPending.seq
  seq : d.metaPending.seq = u64 (s.k.sequence + 1)
  source : d.metaPending.srcV4l2Sequence = ((s.queue .output).buf src).data.srcSequence
  bytesused : d.metaPending.bytesused = s.c.capQ.sizeimage
  algo : d.metaPending.algoId = ((s.queue .output).buf src).data.algoId
  crc : d.metaPending.crc32 = Crc.frameCrc (m.slice plane s.c.capQ.sizeimage)

structure Made (s s' : Sys) (src dst : Nat) (m : Mem) : Prop where
  row : Row s src ((s.queue .capture).buf dst).plane m ((s'.queue .capture).buf dst).data
  index : ((s'.queue .capture).buf dst).index = ((s.queue .capture).buf dst).index
  plane : ((s'.queue .capture).buf dst).plane = ((s.queue .capture).buf dst).plane
  controls : s'.c.controls = s.c.controls
  src : s'.c.src = s.c.src
  bytes : s'.k.machine.mem.bytes = m.bytes
  fbs : s'.k.machine.fbs = s.k.machine.fbs
  sequence : s'.k.sequence = u64 (s.k.sequence + 1)
  published : s'.k.published = s.k.published

theorem makes (serving : Serving p s) {src dst : Nat} {outRest capRest : List Nat} (cpu : Nat)
    (output : (boardOf s).outReady = src :: outRest) (capture : (boardOf s).capReady = dst :: capRest)
    (mapped : ((s.queue .output).buf src).mapped = true)
    (known : Order.Known ((s.queue .output).buf src).data.algoId) :
    ∃ result m, vpipeCvProcess (jobOf s ((s.queue .output).buf src).plane ((s.queue .capture).buf dst).plane)
        ((s.queue .output).buf src).data.algoId ((s.queue .output).buf src).data.threshold
        (some ((s.queue .output).buf src).data.roi) s.k.machine.mem = .ok (result,m) ∧
      Serving p (vpipeDeviceRun s cpu) ∧
      boardOf (vpipeDeviceRun s cpu) =
        ⟨outRest,(boardOf s).outDone ++ [src],capRest,(boardOf s).capDone ++ [dst]⟩ ∧
      Made s (vpipeDeviceRun s cpu) src dst m := by
  have outHead : (s.queue .output).ready = src :: outRest := output
  have capHead : (s.queue .capture).ready = dst :: capRest := capture
  have srcReady := serving.output.ready src (by simp [outHead])
  have dstReady := serving.sane.capture.ready dst (by simp [capHead])
  obtain ⟨_, _, dstMapped⟩ := serving.capPlaced.plane rfl dst (serving.capPlaced.names ▸ dstReady.1)
  have go : schedulable s = true := by
    simp [schedulable, (serving.started .output).1, (serving.started .capture).1, outHead, capHead]
  obtain ⟨result, m, done⟩ := Order.knownProcesses known
    (jobOf s ((s.queue .output).buf src).plane ((s.queue .capture).buf dst).plane)
    ((s.queue .output).buf src).data.threshold (some ((s.queue .output).buf src).data.roi) s.k.machine.mem
  have sane : Sane (vpipeDeviceRun s cpu) := saneStep serving.sane (.deviceRun cpu)
  have exact_ : Exact ((vpipeDeviceRun s cpu).queue .output) :=
    Pairing.outputExactStep (e := .deviceRun cpu) serving.sane (by simp [StartClean]) serving.output
  have made := deviceRunProcessed cpu go ⟨outRest,capRest,outHead,capHead⟩
    ⟨by rw [vaddr, if_pos mapped]; rfl,by rw [vaddr, if_pos dstMapped]; rfl,rfl,done⟩
  have kernel : (vpipeDeviceRun s cpu).c = {s.c with queues := (vpipeDeviceRun s cpu).c.queues} ∧
      (vpipeDeviceRun s cpu).k.machine.mem.bytes = m.bytes ∧
      (vpipeDeviceRun s cpu).k.machine.fbs = s.k.machine.fbs ∧
      (vpipeDeviceRun s cpu).k.sequence = u64 (s.k.sequence + 1) ∧
      (vpipeDeviceRun s cpu).k.published = s.k.published := by
    rw [made]
    exact ⟨rfl,scanBytes _ _ _,rfl,rfl,rfl⟩
  obtain ⟨outDone, d, payload, number, entry, capDone⟩ := Pipeline.jobRewrites srcReady.2 dstReady.2 made
  have row : Row s src ((s.queue .capture).buf dst).plane m d := by
    refine ⟨payload,?_,?_,?_,?_,?_,?_⟩ <;> rw [entry]
    · exact number
    all_goals rfl
  generalize vpipeDeviceRun s cpu = s' at *
  obtain ⟨context, bytes, fbs, sequence, published⟩ := kernel
  rw [outHead] at outDone
  rw [capHead] at capDone
  refine ⟨result,m,done,⟨sane,exact_,?_,?_,?_,?_⟩,?_,?_⟩
  · rw [context]
    exact serving.format
  · intro t
    cases t with
    | output => exact startedRewritten (serving.started .output) outDone (by simp)
    | capture => exact startedRewritten (serving.started .capture) capDone (by simp)
  · exact placedRewritten serving.outPlaced outDone ⟨rfl,rfl,rfl,fun _ => ⟨rfl,rfl⟩,by simp⟩
  · exact placedRewritten serving.capPlaced capDone ⟨rfl,rfl,rfl,fun _ => ⟨rfl,rfl⟩,by simp⟩
  · simp only [boardOf, outDone.ready, outDone.done, capDone.ready, capDone.done, List.tail_cons]
  · have self := rewrittenSelf capDone
    exact ⟨by rw [self]; exact row,by rw [self],by rw [self],by rw [context],by rw [context],bytes,fbs,
      sequence,published⟩

def processedImage (width algoId threshold : Nat) (roi : Roi) (image : List UInt8) : List UInt8 :=
  (List.range image.length).map (fun i =>
    if algoId = algoThreshold ∧ roi.Has (i % width) (i / width) then thresholdPixel threshold (image.getD i 0)
    else image.getD i 0)

def Proper (roi : Roi) : Prop := 0 < roi.width ∧ 0 < roi.height ∧ 0 ≤ roi.left ∧ 0 ≤ roi.top

theorem properDefault : Proper ⟨0,0,defaultWidth,defaultHeight⟩ := ⟨by decide,by decide,by decide,by decide⟩

theorem pixelMade {job : JobDesc} (shaped : Shaped job) (apart : job.src.block ≠ job.dst.block)
    {algoId threshold : Nat} {roi : Roi} (proper : Proper roi) (known : Order.Known algoId) {m m' : Mem}
    {result : CvResult}
    (done : vpipeCvProcess job algoId threshold (some roi) m = .ok (result,m')) :
    (∀ x y, x < job.width → y < job.height → CvContract.target job m' x y =
      if algoId = algoThreshold ∧ roi.Has x y then thresholdPixel threshold (CvContract.source job m x y)
      else CvContract.source job m x y) ∧ ∀ block, block ≠ job.dst.block → m'.bytes block = m.bytes block := by
  obtain ⟨wide, high, left, top⟩ := proper
  rcases known with rfl | rfl
  · have contract := CvContract.noneContract shaped apart threshold (some roi) m
    rw [CvContract.runsNone] at done
    cases done
    refine ⟨fun x y inRow inFrame => ?_,contract.elsewhere⟩
    rw [contract.copied rfl x y inRow inFrame, if_neg]
    rintro ⟨other, _⟩
    contradiction
  · have contract := CvContract.thresholdContract shaped apart threshold (some roi) m
    rw [CvContract.runsThreshold] at done
    cases done
    refine ⟨fun x y inRow inFrame => ?_,contract.elsewhere⟩
    have inside := contract.cut roi rfl wide high left top x y
    rw [contract.thresholded rfl x y inRow inFrame]
    simp only [inside, inRow, inFrame, and_true, true_and]
    rfl

theorem imageMade (sane : Sane s) {srcPlane dstPlane : Plane} (apart : srcPlane.block ≠ dstPlane.block)
    {algoId threshold : Nat} {roi : Roi} (proper : Proper roi) (known : Order.Known algoId) {m' : Mem}
    {result : CvResult} (done : vpipeCvProcess (jobOf s srcPlane dstPlane) algoId threshold (some roi)
      s.k.machine.mem = .ok (result,m')) :
    m'.slice dstPlane s.c.outQ.sizeimage = processedImage s.c.outQ.width algoId threshold roi
      (s.k.machine.mem.slice srcPlane s.c.outQ.sizeimage) ∧
    ∀ block, block ≠ dstPlane.block → m'.bytes block = s.k.machine.mem.bytes block := by
  obtain ⟨pixels, others⟩ := pixelMade (shapedJob sane srcPlane dstPlane) apart proper known done
  obtain ⟨⟨wide, _⟩, _, line, size, _⟩ := sane.geometry
  refine ⟨?_,others⟩
  apply List.ext_getElem?
  intro i
  rw [processedImage, List.getElem?_map, sliceLength]
  rcases Nat.lt_or_ge i s.c.outQ.sizeimage with inside | outside
  · have inRow : i % s.c.outQ.width < s.c.outQ.width := Nat.mod_lt _ wide
    have inFrame : i / s.c.outQ.width < s.c.outQ.height :=
      Nat.div_lt_of_lt_mul (by rw [size] at inside; exact inside)
    have place : i / s.c.outQ.width * s.c.outQ.width + i % s.c.outQ.width = i := Nat.div_add_mod' i _
    have pixel := pixels _ _ inRow inFrame
    simp only [CvContract.target, CvContract.source, jobOf, sane.mirrored, line, place] at pixel
    have source : (s.k.machine.mem.slice srcPlane s.c.outQ.sizeimage).getD i 0 =
        s.k.machine.mem.bytes srcPlane.block i := by
      rw [List.getD_eq_getElem?_getD, sliceAt _ _ inside]
      rfl
    rw [sliceAt _ _ inside, List.getElem?_range inside, pixel, Option.map_some, source]
  · rw [List.getElem?_eq_none (by rw [sliceLength]; exact outside),
      List.getElem?_eq_none (by simpa using outside)]
    rfl

def processedPixel (algoId threshold : Nat) (pixel : UInt8) : UInt8 :=
  if algoId = algoThreshold then thresholdPixel threshold pixel else pixel

theorem wholeProcessed (algoId threshold : Nat) {width height : Nat} (narrow : width ≤ defaultWidth)
    (low : height ≤ defaultHeight) {image : List UInt8} (size : image.length = width * height) :
    processedImage width algoId threshold ⟨0,0,defaultWidth,defaultHeight⟩ image =
      image.map (processedPixel algoId threshold) := by
  apply List.ext_getElem?
  intro i
  rw [processedImage, List.getElem?_map, List.getElem?_map]
  rcases Nat.lt_or_ge i image.length with inside | outside
  · have has : Roi.Has ⟨0,0,defaultWidth,defaultHeight⟩ (i % width) (i / width) := by
      rw [size] at inside
      have inRow : i % width < width := Nat.mod_lt _ (Nat.pos_of_mul_pos_right (Nat.zero_lt_of_lt inside))
      have inFrame : i / width < height := Nat.div_lt_of_lt_mul inside
      generalize i % width = x at inRow
      generalize i / width = y at inFrame
      simp only [Roi.Has, defaultWidth, defaultHeight] at narrow low ⊢
      omega
    rw [List.getElem?_range inside, List.getElem?_eq_getElem inside]
    simp only [Option.map_some, List.getD_eq_getElem?_getD, List.getElem?_eq_getElem inside,
      Option.getD_some, has, and_true, processedPixel]
  · rw [List.getElem?_eq_none (by simpa using outside), List.getElem?_eq_none outside]
    rfl

end Calls

end Vpipe.Lockstep
