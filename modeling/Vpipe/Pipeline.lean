import Vpipe.CvContract
import Vpipe.Pairing
import Vpipe.Stream

/-! What each call of the device does to a stream of VCAM frames: QBUF(OUTPUT) has the next gradient
drawn, a job copies it to a CAPTURE buffer and checksums it, DQBUF(CAPTURE) publishes its row. -/
namespace Vpipe.Pipeline
open Vpipe.Lib.Word Vpipe.Lib.ByteMemory Vpipe.Lib.BufferQueue Vpipe.Lib.Transition Vpipe.Lib.Fifo
open Vpipe.Cv Vpipe.FrameSource Vpipe.Gradient Vpipe.MetaRing Vpipe.M2m Vpipe.Moves Vpipe.Discipline Vpipe.Runs
open Vpipe.Stream

structure Undisturbed (s s' : Sys) : Prop where
  metaDev : s'.k.metaDev = s.k.metaDev
  output : ∀ id, ((s.queue .output).buf id).state = .dequeued →
    (s'.queue .output).buf id = (s.queue .output).buf id
  capture : ∀ id, ((s.queue .capture).buf id).state ≠ .active →
    (s'.queue .capture).buf id = (s.queue .capture).buf id
  bytes : ∀ id ∈ (s.queue .capture).ids, ((s.queue .capture).buf id).state ≠ .active →
    s'.k.machine.mem.bytes id = s.k.machine.mem.bytes id
  ids : ∀ t, (s'.queue t).ids = (s.queue t).ids
  frames : s.k.frames <+: s'.k.frames

structure Copies (s s' : Sys) (src dst : Nat) (job : JobDesc) (e : MetaEntry) : Prop where
  output : Rewritten (s.queue .output) (s'.queue .output) src {(s.queue .output).buf src with state := .done}
    (s.queue .output).ready.tail ((s.queue .output).done ++ [src])
  capture : ∃ d : VpipeBuffer, d.payload = s.c.capQ.sizeimage ∧ d.metaPending = e ∧
    Rewritten (s.queue .capture) (s'.queue .capture) dst
      {(s.queue .capture).buf dst with state := .done, data := d} (s.queue .capture).ready.tail
        ((s.queue .capture).done ++ [dst])
  context : s'.c = {s.c with queues := s'.c.queues}
  sequence : s'.k.sequence = u64 (s.k.sequence + 1)
  metaDev : s'.k.metaDev = s.k.metaDev
  frames : ∃ f, s'.k.frames = s.k.frames ++ [f] ∧ f.target = dst ∧ f.entry = e
  fbs : s'.k.machine.fbs = s.k.machine.fbs
  bytes : s'.k.machine.mem.bytes = (vpipeCopyFrame job s.k.machine.mem).bytes
  crc : e.crc32 = Crc.frameCrc ((vpipeCopyFrame job s.k.machine.mem).slice job.dst s.c.capQ.sizeimage)
  seq : e.seq = s'.k.sequence
  flags : e.flags = if ((s.queue .output).buf src).data.srcDesc.flags &&& frameFlagDropped ≠ 0 then
    metaFDropped else 0

theorem jobRewrites {s s' : Sys} {src dst : Nat} {job : JobDesc} {result : CvResult} {m : Mem} {cpu : Nat}
    (srcActive : ((s.queue .output).buf src).state = .active)
    (dstActive : ((s.queue .capture).buf dst).state = .active)
    (made : s' = ((s.setMachine {s.k.machine with mem := m}).fillResult
      ⟨src,dst,.processed job result s.k.machine.mem⟩ job result s.k.machine.mem src dst cpu).completeHeads
        src dst true) :
    Rewritten (s.queue .output) (s'.queue .output) src {(s.queue .output).buf src with state := .done}
      (s.queue .output).ready.tail ((s.queue .output).done ++ [src]) ∧
    ∃ d : VpipeBuffer, d.payload = s.c.capQ.sizeimage ∧ d.sequence = u32 (u64 (s.k.sequence + 1)) ∧
      d.metaPending = buildMeta (s.setMachine {s.k.machine with mem := m}) job result
        ((s.queue .output).buf src).data ((s.queue .output).buf src).memory (u64 (s.k.sequence + 1))
        ((s.queue .capture).buf dst).index s.k.machine.ktimeGetNs.1 ((s.queue .output).ready.length - 1) cpu ∧
      Rewritten (s.queue .capture) (s'.queue .capture) dst
        {(s.queue .capture).buf dst with state := .done, data := d} (s.queue .capture).ready.tail
        ((s.queue .capture).done ++ [dst]) := by
  rw [made]
  constructor
  · have done := completeRewrites (s.queue .output) src srcActive (fun d => d)
    rw [setDataNone] at done
    exact done
  · let fill : VpipeBuffer → VpipeBuffer := fun d => {d with
      payload := s.c.capQ.sizeimage, field := fieldNone, timestamp := s.k.machine.ktimeGetNs.1
      flags := ((s.queue .output).buf src).data.flags &&& bufFlagTimecode
      sequence := u32 (u64 (s.k.sequence + 1))
      metaPending := buildMeta (s.setMachine {s.k.machine with mem := m}) job result
        ((s.queue .output).buf src).data ((s.queue .output).buf src).memory (u64 (s.k.sequence + 1))
        ((s.queue .capture).buf dst).index s.k.machine.ktimeGetNs.1 ((s.queue .output).ready.length - 1) cpu}
    have filled : ((s.setMachine {s.k.machine with mem := m}).fillResult
        ⟨src,dst,.processed job result s.k.machine.mem⟩ job result s.k.machine.mem src dst cpu).queue .capture =
        (s.queue .capture).setData dst fill := queueSet _ _ _
    have done := completeRewrites (s.queue .capture) dst dstActive fill
    rw [← filled] at done
    exact ⟨fill ((s.queue .capture).buf dst).data,rfl,rfl,rfl,done⟩

theorem jobCopies {s : Sys} {src dst : Nat} {srcPlane dstPlane : Plane} (cpu : Nat) (go : schedulable s = true)
    (heads : Heads s src dst) (source : vaddr ((s.queue .output).buf src) = some srcPlane)
    (target : vaddr ((s.queue .capture).buf dst) = some dstPlane)
    (algo : ((s.queue .output).buf src).data.algoId = algoNone)
    (srcActive : ((s.queue .output).buf src).state = .active)
    (dstActive : ((s.queue .capture).buf dst).state = .active) :
    ∃ e, Copies s (vpipeDeviceRun s cpu) src dst (jobOf s srcPlane dstPlane) e := by
  have processed : Processed s src dst (jobOf s srcPlane dstPlane)
      ⟨0,0,0,vpipeClampRoi (jobOf s srcPlane dstPlane) (some ((s.queue .output).buf src).data.roi)⟩
        (vpipeCopyFrame (jobOf s srcPlane dstPlane) s.k.machine.mem) :=
    ⟨source,target,rfl,by rw [algo]; exact CvContract.runsNone _ _ _ _⟩
  have made := deviceRunProcessed cpu go heads processed
  obtain ⟨output, d, payload, _, entry, capture⟩ := jobRewrites srcActive dstActive made
  rw [made] at output capture ⊢
  exact ⟨_,output,⟨d,payload,entry,capture⟩,rfl,rfl,rfl,⟨_,rfl,rfl,rfl⟩,rfl,scanBytes _ _ _,rfl,rfl,rfl⟩

section Device
variable {p : Plan} {s : Sys} {n : Tally}

theorem shapedJob (sane : Sane s) (srcPlane dstPlane : Plane) : Shaped (jobOf s srcPlane dstPlane) := by
  obtain ⟨⟨_, width⟩, ⟨_, height⟩, line, _, _⟩ := sane.geometry
  have same := sane.mirrored
  obtain ⟨size, small⟩ := geometryTotal sane.geometry
  have total : s.c.outQ.height * s.c.outQ.bytesperline < 2^32 := size ▸ small
  constructor
  · exact width
  · exact height
  · exact Nat.le_of_eq line.symm
  · simp only [jobOf, same]; exact Nat.le_of_eq line.symm
  · exact total
  · simp only [jobOf, same]; exact total

theorem copiedPicture {d : QData} {srcPlane dstPlane : Plane} {m : Mem} {i : Nat}
    (shaped : Shaped ⟨srcPlane,dstPlane,d.width,d.height,d.bytesperline,d.bytesperline⟩)
    (apart : srcPlane.block ≠ dstPlane.block) (picture : Picture d m srcPlane.block i) :
    let m' := vpipeCopyFrame ⟨srcPlane,dstPlane,d.width,d.height,d.bytesperline,d.bytesperline⟩ m
    Picture d m' dstPlane.block i ∧ ∀ block, block ≠ dstPlane.block → m'.bytes block = m.bytes block := by
  have image := CvContract.copyCopied shaped (.inl apart) m
  constructor
  · intro x y inRow inFrame
    exact (image.target x y inRow inFrame).trans (picture x y inRow inFrame)
  · intro block differ
    funext k
    exact image.other block k (.inl differ)

theorem copiedFixed (fixed : Fixed p s) {s' : Sys} {src dst : Nat} {job : JobDesc} {e : MetaEntry}
    (done : Copies s s' src dst job e) : Fixed p s' := by
  obtain ⟨d, _, _, capture⟩ := done.capture
  refine ⟨(congrArg Ctx.outQ done.context).trans fixed.format,
    (congrArg (fun c => c.controls.algoId) done.context).trans fixed.algo,by rw [done.fbs]; exact fixed.fb,
    by rw [done.metaDev]; exact fixed.alive,?_,?_,?_⟩
  · intro t
    cases t with
    | output => exact startedRewritten (fixed.started .output) done.output (by simp)
    | capture => exact startedRewritten (fixed.started .capture) capture (by simp)
  · exact placedRewritten fixed.outPlaced done.output ⟨rfl,rfl,rfl,fun _ => ⟨rfl,rfl⟩,by simp⟩
  · exact placedRewritten fixed.capPlaced capture ⟨rfl,rfl,rfl,fun _ => ⟨rfl,rfl⟩,by simp⟩

theorem copiedCaptured (flow : Flow p s n) {s' : Sys} {src dst : Nat} {e : MetaEntry}
    (done : Copies s s' src dst (jobOf s ((s.queue .output).buf src).plane ((s.queue .capture).buf dst).plane)
      e)
    (srcIn : src ∈ p.out) (dstIn : dst ∈ p.cap)
    (filled : Filled p ((s.queue .output).buf src) s.k.machine.mem n.made src)
    (seq : s'.k.sequence = p.seq + (n.made + 1)) :
    ∃ d, Rewritten (s.queue .capture) (s'.queue .capture) dst
      {(s.queue .capture).buf dst with state := .done, data := d}
        (s.queue .capture).ready.tail ((s.queue .capture).done ++ [dst]) ∧
      Captured p {(s.queue .capture).buf dst with state := .done, data := d} s'.k.machine.mem
        s'.k.frames n.made dst ∧
      ∀ id, id ≠ dst → s'.k.machine.mem.bytes id = s.k.machine.mem.bytes id := by
  obtain ⟨dstBlock, _, _⟩ := flow.capPlaced.plane rfl dst dstIn
  have format : s.c.capQ = p.format := flow.sane.mirrored.trans flow.format
  have shaped := shapedJob flow.sane ((s.queue .output).buf src).plane ((s.queue .capture).buf dst).plane
  have bytes := done.bytes
  have crc := done.crc
  simp only [jobOf, flow.format, format] at shaped bytes crc
  obtain ⟨drawn, others⟩ := copiedPicture shaped
    (by rw [filled.block, dstBlock]; exact blockApart p srcIn dstIn) (filled.block ▸ filled.picture)
  rw [dstBlock] at drawn others
  rw [← bytes] at others
  obtain ⟨d, payload, pending, capture⟩ := done.capture
  obtain ⟨f, frames, target, entry⟩ := done.frames
  refine ⟨d,capture,⟨rfl,dstBlock,payload.trans (congrArg QData.sizeimage format),
    pictureSame (by rw [bytes]) drawn,?_,?_,?_,f,?_,target,entry.trans pending.symm⟩,others⟩
  · simp only [pending]
    rw [crc]
    exact congrArg Crc.frameCrc (sliceSame (by rw [bytes]) _)
  · simp only [pending]
    rw [done.seq, seq]
    rfl
  · simp only [pending]
    rw [done.flags, filled.whole]
    rfl
  · rw [frames, ← flow.frames]
    simp

theorem jobFlow (flow : Flow p s n) (go : schedulable s = true) (cpu : Nat) :
    Flow p (vpipeDeviceRun s cpu) {n with made := n.made + 1} ∧ Undisturbed s (vpipeDeviceRun s cpu) := by
  obtain ⟨src, dst, heads, _⟩ := deviceRunCases s cpu go
  obtain ⟨srcRest, dstRest, out, cap⟩ := heads
  have srcReady := flow.output.ready src (by simp [out])
  have dstReady := flow.sane.capture.ready dst (by simp [cap])
  have srcIn : src ∈ p.out := flow.outPlaced.names ▸ srcReady.1
  have dstIn : dst ∈ p.cap := flow.capPlaced.names ▸ dstReady.1
  have waiting := flow.inbound.waiting
  rw [out] at waiting
  have filled := waiting.1
  obtain ⟨_, _, dstMapped⟩ := flow.capPlaced.plane rfl dst dstIn
  obtain ⟨e, done⟩ := jobCopies cpu go ⟨srcRest,dstRest,out,cap⟩ (by rw [vaddr, if_pos filled.mapped])
    (by rw [vaddr, if_pos dstMapped]) filled.algo srcReady.2 dstReady.2
  have sane : Sane (vpipeDeviceRun s cpu) := saneStep flow.sane (.deviceRun cpu)
  have exact_ : Exact ((vpipeDeviceRun s cpu).queue .output) :=
    Pairing.outputExactStep (e := .deviceRun cpu) flow.sane (by simp [StartClean]) flow.output
  generalize vpipeDeviceRun s cpu = s' at *
  have seq : s'.k.sequence = p.seq + (n.made + 1) := by
    have room := p.room
    have limit := flow.limit
    have given := flow.inbound.given
    rw [done.sequence, flow.sequence, Nat.add_assoc]
    refine u64Of ?_
    rw [out, List.length_cons] at given
    omega
  obtain ⟨d, capture, captured, others⟩ := copiedCaptured flow done srcIn dstIn filled seq
  obtain ⟨f, frames, _, _⟩ := done.frames
  have output := done.output
  rw [out, List.tail_cons] at output
  rw [cap, List.tail_cons] at capture
  have grown : s.k.frames <+: s'.k.frames := frames ▸ List.prefix_append _ _
  have srcApart : src ∉ srcRest := by
    have distinct := flow.output.distinct
    rw [out] at distinct
    exact (List.nodup_cons.mp distinct).1
  have dstApart : ∀ id, ((s.queue .capture).buf id).state ≠ .active → id ≠ dst := by
    intro id other same
    exact other (same ▸ dstReady.2)
  have idle : ∀ id ∈ (s.queue .capture).done, ((s.queue .capture).buf id).state ≠ .active :=
    fun id member => ((flow.sane.sound .capture).wf.doneIdle member).1
  refine ⟨⟨copiedFixed flow.toFixed done,sane,exact_,flow.limit,?_,seq,?_,?_,?_,?_⟩,
    ⟨done.metaDev,?_,?_,?_,?_,grown⟩⟩
  · rw [congrArg Ctx.src done.context]
    exact flow.draws
  · rw [frames, List.length_append, List.length_singleton, flow.frames]
    rfl
  · rw [done.metaDev]
    exact flow.head
  · refine inboundMade flow.inbound out output srcApart (fun id member => others _ (blockApart p ?_ dstIn))
    exact flow.outPlaced.names ▸ (flow.output.ready id (by simp [out, member])).1
  · exact outboundMade flow.outbound cap capture (fun member => idle dst member dstReady.2)
      (fun id member => others id (dstApart id (idle id member))) grown captured
  · intro id back
    refine rewrittenOther output (fun same => ?_)
    rw [same, srcReady.2] at back
    contradiction
  · exact fun id other => rewrittenOther capture (dstApart id other)
  · exact fun id _ other => others id (dstApart id other)
  · intro t
    cases t with
    | output => exact output.ids
    | capture => exact capture.ids

theorem dqbufTakes {t : QType} {id : Nat} {rest : List Nat} (streaming : (s.queue t).streaming = true)
    (done : (s.queue t).done = id :: rest) : vidiocDqbuf s t =
      .ok {releaseOne t s id with k := noteReturned t id ((s.queue t).buf id) (releaseOne t s id).k} := by
  simp only [vidiocDqbuf, streaming, done]
  rfl

theorem releaseQueues (t : QType) (id : Nat) :
    (releaseOne t s id).queue t = (Queue.release (vpipeBufFinish t) (s.k,s.queue t) id).2 ∧
    ∀ t', t' ≠ t → (releaseOne t s id).queue t' = s.queue t' :=
  ⟨queueSet _ _ _,fun _ differ => queueSetOther _ differ _⟩

structure Dequeued (t : QType) (s s' : Sys) (id : Nat) (rest : List Nat) : Prop where
  queue : ∃ d, Rewritten (s.queue t) (s'.queue t) id
    {(s.queue t).buf id with state := .dequeued, prepared := false, data := d} (s.queue t).ready rest
  other : ∀ t', t' ≠ t → s'.queue t' = s.queue t'
  context : s'.c = {s.c with queues := s'.c.queues}
  mem : s'.k.machine.mem = s.k.machine.mem
  fbs : s'.k.machine.fbs = s.k.machine.fbs
  frames : s'.k.frames = s.k.frames
  sequence : s'.k.sequence = s.k.sequence
  sane : Sane s'
  output : Exact (s'.queue .output)

theorem dqbufDequeues (sane : Sane s) (output : Exact (s.queue .output)) {t : QType}
    (streaming : (s.queue t).streaming = true) {id : Nat} {rest : List Nat}
    (done : (s.queue t).done = id :: rest) :
    ∃ s', vidiocDqbuf s t = .ok s' ∧ Dequeued t s s' id rest ∧
      s'.k.metaDev = (releaseOne t s id).k.metaDev ∧ s'.k.published = (releaseOne t s id).k.published := by
  have made := dqbufTakes streaming done
  have wf := (sane.sound t).wf
  obtain ⟨inside, finished⟩ := (wf.done id).mp (by simp [done])
  have prepared : ((s.queue t).buf id).prepared = true := by
    refine wf.prepared id inside (fun back => ?_)
    simp [back] at finished
  have rewritten := releaseRewrites (s.queue t) id (vpipeBufFinish t) s.k prepared
  obtain ⟨queue, others⟩ := releaseQueues (s := s) t id
  rw [← queue, done, List.erase_cons_head] at rewritten
  have sane' : Sane (s.step (.dqbuf t)) := saneStep sane (.dqbuf t)
  have output' : Exact ((s.step (.dqbuf t)).queue .output) :=
    Pairing.outputExactStep (e := .dqbuf t) sane (by simp [StartClean]) output
  rw [Sys.step, made, settle] at sane' output'
  have kernel : (releaseOne t s id).k.machine.mem = s.k.machine.mem ∧
      (releaseOne t s id).k.machine.fbs = s.k.machine.fbs ∧ (releaseOne t s id).k.frames = s.k.frames ∧
      (releaseOne t s id).k.sequence = s.k.sequence := by
    rcases releaseKernel t s id with ⟨_, same⟩ | ⟨_, published⟩
    · rw [same]; exact ⟨rfl,rfl,rfl,rfl⟩
    · rw [published]; exact ⟨rfl,rfl,rfl,rfl⟩
  obtain ⟨mem, fbs, frames, sequence⟩ := kernel
  refine ⟨_,made,?_,?_,?_⟩
  · cases t with
    | output => exact ⟨⟨_,rewritten⟩,others,rfl,mem,fbs,frames,sequence,sane',output'⟩
    | capture => exact ⟨⟨_,rewritten⟩,others,rfl,mem,fbs,frames,sequence,sane',output'⟩
  · cases t <;> rfl
  · cases t <;> rfl

theorem dequeuedFixed {t : QType} {s' : Sys} {id : Nat} {rest : List Nat} (fixed : Fixed p s)
    (dequeued : Dequeued t s s' id rest) (dying : s'.k.metaDev.dying = s.k.metaDev.dying) : Fixed p s' := by
  obtain ⟨d, rewritten⟩ := dequeued.queue
  exact fixedRewritten fixed rewritten ⟨rfl,rfl,rfl,fun _ => ⟨rfl,rfl⟩,fun _ => rfl⟩ (by simp) dequeued.other
    (by rw [dequeued.context]) (by rw [dequeued.context]) dequeued.fbs dying

theorem takeFlow (flow : Flow p s n) {id : Nat} {rest : List Nat}
    (done : (s.queue .capture).done = id :: rest) :
    ∃ s', vidiocDqbuf s .capture = .ok s' ∧ Dequeued .capture s s' id rest ∧
      s'.k.metaDev = vpipeMetaPublish s.k.metaDev {((s.queue .capture).buf id).data.metaPending with
        dqbufTimestampNs := s.k.machine.ktimeGetNs.1} ∧
      Flow p s' {n with taken := n.taken + 1, spare := n.spare + 1} := by
  obtain ⟨s', made, dequeued, metaDev, _⟩ := dqbufDequeues flow.sane flow.output (flow.started _).1 done
  have captured := flow.outbound.captured
  rw [done] at captured
  have first := captured.1
  have wf := (flow.sane.sound .capture).wf
  have inside : id ∈ (s.queue .capture).ids := wf.doneInside (by simp [done])
  have published : (releaseOne .capture s id).k =
      publishPending s.k id ((s.queue .capture).buf id).data.metaPending := by
    rcases releaseKernel .capture s id with ⟨none_, _⟩ | ⟨_, kernel⟩
    · exact absurd ⟨rfl,wf.prepared id inside (by rw [first.state]; simp),by rw [first.seq]; omega⟩ none_
    · exact kernel
  rw [published] at metaDev
  have apart : id ∉ rest := by
    have distinct := wf.doneDistinct
    rw [done] at distinct
    exact (List.nodup_cons.mp distinct).1
  obtain ⟨d, rewritten⟩ := dequeued.queue
  have output := dequeued.other .output (by decide)
  refine ⟨s',made,dequeued,metaDev,dequeuedFixed flow.toFixed dequeued (by rw [metaDev]; rfl),dequeued.sane,
    dequeued.output,flow.limit,?_,dequeued.sequence.trans flow.sequence,?_,?_,?_,?_⟩
  · rw [congrArg Ctx.src dequeued.context]
    exact flow.draws
  · rw [dequeued.frames]
    exact flow.frames
  · rw [metaDev]
    exact congrArg (· + 1) flow.head
  · rw [output, dequeued.mem]
    exact flow.inbound
  · rw [dequeued.mem, dequeued.frames]
    exact outboundTaken flow.outbound done rewritten apart

theorem freeFlow (flow : Flow p s n) {id : Nat} {rest : List Nat} (done : (s.queue .output).done = id :: rest) :
    ∃ s', vidiocDqbuf s .output = .ok s' ∧ Dequeued .output s s' id rest ∧ s'.k.metaDev = s.k.metaDev ∧
      Flow p s' {n with freed := n.freed + 1} := by
  obtain ⟨s', made, dequeued, metaDev, _⟩ := dqbufDequeues flow.sane flow.output (flow.started _).1 done
  have kept : (releaseOne .output s id).k = s.k := by
    rcases releaseKernel .output s id with ⟨_, kernel⟩ | ⟨publishes, _⟩
    · exact kernel
    · exact absurd publishes.1 (by decide)
  rw [kept] at metaDev
  have idle := (flow.sane.sound .output).wf.doneIdle (by simp [done] : id ∈ (s.queue .output).done)
  have apart : id ∉ (s.queue .output).ready := fun member => idle.1 (flow.output.ready id member).2
  obtain ⟨d, rewritten⟩ := dequeued.queue
  have capture := dequeued.other .capture (by decide)
  refine ⟨s',made,dequeued,metaDev,dequeuedFixed flow.toFixed dequeued (by rw [metaDev]),dequeued.sane,
    dequeued.output,flow.limit,?_,dequeued.sequence.trans flow.sequence,?_,?_,?_,?_⟩
  · rw [congrArg Ctx.src dequeued.context]
    exact flow.draws
  · rw [dequeued.frames]
    exact flow.frames
  · rw [metaDev]
    exact flow.head
  · rw [dequeued.mem]
    exact inboundFreed flow.inbound done rewritten apart
  · rw [capture, dequeued.mem, dequeued.frames]
    exact flow.outbound

structure Submitted (t : QType) (s s' : Sys) (id : Nat) (a : Attachment) : Prop where
  queue : ∃ d, d = handed t (enqueuedAt s t id a) id (((enqueuedAt s t id a).queue t).buf id).data ∧
    Rewritten (s.queue t) (s'.queue t) id {(s.queue t).buf id with
      plane := a.plane, mapped := a.mapped, prepared := true, state := .active, data := d}
      ((s.queue t).ready ++ [id]) (s.queue t).done
  other : ∀ t', t' ≠ t → s'.queue t' = s.queue t'
  format : s'.c.outQ = s.c.outQ
  controls : s'.c.controls = s.c.controls
  frames : s'.k.frames = s.k.frames
  sequence : s'.k.sequence = s.k.sequence
  metaDev : s'.k.metaDev = s.k.metaDev
  sane : Sane s'
  output : Exact (s'.queue .output)

theorem qbufSubmits (sane : Sane s) (output : Exact (s.queue .output)) {t : QType}
    (streaming : (s.queue t).streaming = true) {index id : Nat} {att : Option Attachment} {a : Attachment}
    (found : (s.queue t).ids[index]? = some id) (state : ((s.queue t).buf id).state = .dequeued)
    (bare : ((s.queue t).buf id).prepared = false) (attached : attach ((s.queue t).buf id) att = .ok a)
    (large : (s.c.qData t).sizeimage ≤ a.plane.size) :
    vidiocQbuf s t index 0 att = .ok (vpipeBufQueue t (enqueuedAt s t id a) id) ∧
    Submitted t s (vpipeBufQueue t (enqueuedAt s t id a) id) id a := by
  have accepted := qbufAccepts found state bare attached large
  rw [if_pos streaming] at accepted
  have sane' : Sane (s.step (.qbuf t index 0 att)) := saneStep sane (.qbuf t index 0 att)
  have output' : Exact ((s.step (.qbuf t index 0 att)).queue .output) :=
    Pairing.outputExactStep (e := .qbuf t index 0 att) sane (by simp [StartClean]) output
  rw [Sys.step, accepted, settle] at sane' output'
  refine ⟨accepted,⟨⟨_,rfl,?_⟩,?_,?_,?_,?_,?_,?_,sane',output'⟩⟩
  · have queue : (enqueuedAt s t id a).queue t = _ := queueSet _ _ _
    rw [bufQueueSame, queue]
    have rewritten := submitRewrites (s.queue t) id a.plane a.mapped
      (fun d => {d with payload := (s.c.qData t).sizeimage})
      (fun d => {d with flags := 0, qbufControls := s.c.controls}) (handed t (enqueuedAt s t id a) id)
    simpa [Queue.prepare, Queue.enqueue, Queue.modify] using rewritten
  · intro t' differ
    rw [bufQueueOther differ]
    exact queueSetOther s differ _
  all_goals cases t <;> rfl

theorem returnFlow (flow : Flow p s n) {index id m : Nat} (found : p.cap[index]? = some id)
    (state : ((s.queue .capture).buf id).state = .dequeued) (spare : n.spare = m + 1) :
    ∃ s', vidiocQbuf s .capture index 0 none = .ok s' ∧ (∃ a, Submitted .capture s s' id a) ∧
      Flow p s' {n with spare := m} := by
  have inside : id ∈ p.cap := List.mem_of_getElem? found
  obtain ⟨_, large, _⟩ := flow.capPlaced.plane rfl id inside
  let a : Attachment := ⟨((s.queue .capture).buf id).plane,((s.queue .capture).buf id).mapped⟩
  have attached : attach ((s.queue .capture).buf id) none = .ok a := by
    simp only [attach, (flow.capPlaced.kind id inside).1]
    rfl
  have format : s.c.capQ = p.format := flow.sane.mirrored.trans flow.format
  obtain ⟨accepted, submitted⟩ := qbufSubmits flow.sane flow.output (flow.started _).1
    (flow.capPlaced.names ▸ found) state
    (flow.capPlaced.bare id inside state) attached (by simp only [Ctx.qData, format]; exact large)
  have source : (vpipeBufQueue .capture (enqueuedAt s .capture id a) id).c.src = s.c.src := rfl
  have machine : (vpipeBufQueue .capture (enqueuedAt s .capture id a) id).k.machine = s.k.machine := rfl
  generalize vpipeBufQueue .capture (enqueuedAt s .capture id a) id = s' at *
  obtain ⟨d, _, rewritten⟩ := submitted.queue
  have output := submitted.other .output (by decide)
  have apart : id ∉ (s.queue .capture).done :=
    fun member => ((flow.sane.sound .capture).wf.doneIdle member).2 state
  have fixed : Fixed p s' := fixedRewritten flow.toFixed rewritten
    ⟨rfl,rfl,rfl,fun _ => ⟨rfl,rfl⟩,by simp⟩ (by simp) submitted.other submitted.format submitted.controls
    (by rw [machine]) (by rw [submitted.metaDev])
  refine ⟨s',accepted,⟨_,submitted⟩,fixed,submitted.sane,submitted.output,flow.limit,?_,
    submitted.sequence.trans flow.sequence,?_,?_,?_,?_⟩
  · rw [source]
    exact flow.draws
  · rw [submitted.frames]
    exact flow.frames
  · rw [submitted.metaDev]
    exact flow.head
  · rw [output, machine]
    exact flow.inbound
  · rw [machine, submitted.frames]
    exact outboundReturned (spare ▸ flow.outbound) rewritten apart

theorem outAttached (fixed : Fixed p s) {id : Nat} (inside : id ∈ p.out) {att : Option Attachment}
    (shared : p.memory = .dmabuf → att = some ⟨⟨p.fb,p.format.sizeimage⟩,true⟩) :
    ∃ a, attach ((s.queue .output).buf id) att = .ok a ∧ a.plane.block = p.block id ∧
      p.format.sizeimage ≤ a.plane.size ∧ a.mapped = true ∧
      (p.memory = .mmap → a = ⟨((s.queue .output).buf id).plane,((s.queue .output).buf id).mapped⟩) := by
  obtain ⟨memory, length⟩ := fixed.outPlaced.kind id inside
  cases kind : p.memory with
  | mmap =>
    obtain ⟨block, large, mapped⟩ := fixed.outPlaced.plane kind id inside
    refine ⟨⟨((s.queue .output).buf id).plane,((s.queue .output).buf id).mapped⟩,?_,?_,large,
      mapped,fun _ => rfl⟩
    · simp only [attach, memory, kind]
    · simp only [Plan.block, kind, block]
  | dmabuf =>
    refine ⟨⟨⟨p.fb,p.format.sizeimage⟩,true⟩,?_,?_,Nat.le_refl _,rfl,by simp⟩
    · simp only [attach, memory, kind, shared kind, length, Nat.lt_irrefl, if_false]
    · simp only [Plan.block, kind]

structure NextDrawn (p : Plan) (s : Sys) (number id : Nat) (r : NextFrame) : Prop where
  draws : Draws p r.src (number + 1)
  flags : r.desc.flags = 0
  picture : Picture p.format r.machine.mem (p.block id) number
  elsewhere : ∀ other, other ≠ p.fb → other ≠ p.block id →
    r.machine.mem.bytes other = s.k.machine.mem.bytes other
  fbs : r.machine.fbs = s.k.machine.fbs

theorem callDraws (flow : Flow p s n) {id : Nat} {a : Attachment} (mapped : a.mapped = true)
    (block : a.plane.block = p.block id) :
    NextDrawn p s n.given id (sourceCall (enqueuedAt s .output id a) id) := by
  obtain ⟨v, priv, fb, never, offset⟩ := flow.draws.priv
  obtain ⟨⟨wide, _⟩, ⟨high, _⟩, line, _, _⟩ := flow.sane.geometry
  obtain ⟨size, small⟩ := geometryTotal flow.sane.geometry
  have drawn := vcamDraws (m := s.k.machine.ktimeGetNs.2) a.plane {((s.queue .output).buf id).data.srcDesc with
      width := s.c.outQ.width, height := s.c.outQ.height, stride := s.c.outQ.bytesperline}
    flow.draws.backend priv never (Nat.le_of_eq line.symm) (size ▸ small)
    ⟨Nat.ne_of_gt wide,Nat.ne_of_gt high,by simp only [line]; exact Nat.ne_of_gt wide⟩
    (by simp only; rw [Nat.mul_comm, size, fb, flow.format]; exact flow.fb)
  have call : sourceCall (enqueuedAt s .output id a) id = vpipeSourceNextFrame s.k.machine.ktimeGetNs.2 s.c.src
      (some a.plane) {((s.queue .output).buf id).data.srcDesc with
        width := s.c.outQ.width, height := s.c.outQ.height, stride := s.c.outQ.bytesperline} := by
    have queue : (enqueuedAt s .output id a).queue .output = _ := queueSet _ _ _
    simp only [sourceCall, queue, Queue.prepare, Queue.enqueue, Queue.modify,
      Function.update_self, vaddr, mapped, if_true]
    rfl
  rw [← call] at drawn
  refine ⟨⟨drawn.backend,?_⟩,drawn.flags,?_,fun other notFb notOwn => ?_,drawn.fbs⟩
  · obtain ⟨v', priv', fb', never', offset'⟩ := drawn.priv
    refine ⟨v',priv',fb'.trans fb,never',?_⟩
    rw [offset', offset]
    simp only [u32]
    omega
  · intro x y inRow inFrame
    have shown := drawn.shows x y
    simp only [flow.format] at shown
    rw [← block, shown inRow inFrame, offset]
    exact shadeCongr x y (by unfold u32; omega)
  · exact drawn.elsewhere other (fb ▸ notFb) (block ▸ notOwn)

section Drawn
variable {id : Nat} {r : NextFrame} (flow : Flow p s n) (drawn : NextDrawn p s n.given id r)
include flow drawn

theorem waitingKept (back : ((s.queue .output).buf id).state = .dequeued)
    (alone : p.memory = .dmabuf → n.given = n.made) : ∀ other ∈ (s.queue .output).ready,
      r.machine.mem.bytes (p.block other) = s.k.machine.mem.bytes (p.block other) := by
  intro other member
  obtain ⟨inside, active⟩ := flow.output.ready other member
  cases kind : p.memory with
  | mmap =>
    have outside : other ∈ p.out := flow.outPlaced.names ▸ inside
    have notFb : other ≠ p.fb :=
      fun same => (List.nodup_cons.mp p.apart).1 (same ▸ List.mem_append_left _ outside)
    have elsewhere := drawn.elsewhere other notFb
    simp only [Plan.block, kind] at elsewhere ⊢
    refine elsewhere (fun same => ?_)
    rw [same, back] at active
    contradiction
  | dmabuf =>
    have given := flow.inbound.given
    have nonempty := List.length_pos_of_mem member
    have := alone kind
    omega

theorem completedKept (inside : id ∈ p.out) : ∀ other ∈ (s.queue .capture).done,
    r.machine.mem.bytes other = s.k.machine.mem.bytes other := by
  intro other member
  have inCap : other ∈ p.cap := flow.capPlaced.names ▸ (flow.sane.sound .capture).wf.doneInside member
  have notFb : other ≠ p.fb :=
    fun same => (List.nodup_cons.mp p.apart).1 (same ▸ List.mem_append_right _ inCap)
  exact drawn.elsewhere other notFb (blockApart p inside inCap).symm

end Drawn

theorem giveFlow (flow : Flow p s n) {index id : Nat} (found : p.out[index]? = some id)
    (state : ((s.queue .output).buf id).state = .dequeued) {att : Option Attachment}
    (shared : p.memory = .dmabuf → att = some ⟨⟨p.fb,p.format.sizeimage⟩,true⟩)
    (alone : p.memory = .dmabuf → n.given = n.made) (more : n.given < p.limit) :
    ∃ s', vidiocQbuf s .output index 0 att = .ok s' ∧ (∃ a, Submitted .output s s' id a) ∧
      Flow p s' {n with given := n.given + 1} := by
  have inside : id ∈ p.out := List.mem_of_getElem? found
  obtain ⟨a, attached, block, large, mapped, own⟩ := outAttached flow.toFixed inside shared
  obtain ⟨accepted, submitted⟩ := qbufSubmits flow.sane flow.output (flow.started _).1
    (flow.outPlaced.names ▸ found) state
    (flow.outPlaced.bare id inside state) attached (by simp only [Ctx.qData, flow.format]; exact large)
  have drawn := callDraws flow mapped block
  have source : (vpipeBufQueue .output (enqueuedAt s .output id a) id).c.src =
    (sourceCall (enqueuedAt s .output id a) id).src := rfl
  have machine : (vpipeBufQueue .output (enqueuedAt s .output id a) id).k.machine =
    (sourceCall (enqueuedAt s .output id a) id).machine := rfl
  generalize vpipeBufQueue .output (enqueuedAt s .output id a) id = s' at *
  obtain ⟨d, data, rewritten⟩ := submitted.queue
  have stampedDesc : d.srcDesc.flags = 0 := by rw [data]; exact drawn.flags
  have stampedAlgo : d.algoId = algoNone := by rw [data]; exact flow.algo
  generalize sourceCall (enqueuedAt s .output id a) id = r at *
  have capture := submitted.other .capture (by decide)
  have fixed : Fixed p s' := by
    refine fixedRewritten flow.toFixed rewritten ⟨rfl,rfl,rfl,fun kind => ?_,by simp⟩ (by simp) submitted.other
      submitted.format submitted.controls (by rw [machine, drawn.fbs]) (by rw [submitted.metaDev])
    rw [own ((flow.outPlaced.kind id inside).1.symm.trans kind)]
    exact ⟨rfl,rfl⟩
  have idle : id ∉ (s.queue .output).ready := by
    intro member
    have active := (flow.output.ready id member).2
    rw [state] at active
    contradiction
  refine ⟨s',accepted,⟨_,submitted⟩,fixed,submitted.sane,submitted.output,more,?_,
    submitted.sequence.trans flow.sequence,?_,?_,?_,?_⟩
  · rw [source]
    exact drawn.draws
  · rw [submitted.frames]
    exact flow.frames
  · rw [submitted.metaDev]
    exact flow.head
  · rw [machine]
    exact inboundGiven flow.inbound rewritten idle (waitingKept flow drawn state alone)
      ⟨block,mapped,stampedAlgo,stampedDesc,drawn.picture⟩
  · rw [capture, submitted.frames, machine]
    exact outboundSame flow.outbound (completedKept flow drawn inside)

theorem undisturbedRefl (s : Sys) : Undisturbed s s :=
  ⟨rfl,fun _ _ => rfl,fun _ _ => rfl,fun _ _ _ => rfl,fun _ => rfl,List.prefix_refl _⟩

theorem undisturbedTrans {s' s'' : Sys} (first : Undisturbed s s') (second : Undisturbed s' s'') :
    Undisturbed s s'' := by
  refine ⟨second.metaDev.trans first.metaDev,?_,?_,?_,?_,first.frames.trans second.frames⟩
  · intro id back
    have same := first.output id back
    exact (second.output id (by rw [same]; exact back)).trans same
  · intro id other
    have same := first.capture id other
    exact (second.capture id (by rw [same]; exact other)).trans same
  · intro id inside other
    have same := first.capture id other
    exact (second.bytes id (by rw [first.ids]; exact inside) (by rw [same]; exact other)).trans
      (first.bytes id inside other)
  · exact fun t => (second.ids t).trans (first.ids t)

def Flows (p : Plan) (s : Sys) (n : Tally) : Prop := ∃ made, n.made ≤ made ∧ Flow p s {n with made := made}

structure Later (p : Plan) (s : Sys) (n : Tally) (s' : Sys) : Prop where
  undisturbed : Undisturbed s s'
  flows : Flows p s' n

theorem laterJob (s' : Sys) (cpu : Nat) (later : Later p s n s') : Later p s n (vpipeDeviceRun s' cpu) := by
  obtain ⟨undisturbed, made, more, flow⟩ := later
  cases go : schedulable s' with
  | true =>
    obtain ⟨next, same⟩ := jobFlow flow go cpu
    exact ⟨undisturbedTrans undisturbed same,made + 1,Nat.le_succ_of_le more,next⟩
  | false =>
    rw [vpipeDeviceRun, if_neg (by simp [go])]
    exact ⟨undisturbed,made,more,flow⟩

theorem jobsLater (flows : Flows p s n) (cpus : List Nat) : Later p s n (run vpipeDeviceRun s cpus) :=
  runAlways (fun s' cpu so => laterJob s' cpu so) ⟨undisturbedRefl s,flows⟩ cpus

theorem flowSchedulable (flow : Flow p s n) (waits : n.made < n.given)
    (free : n.made + n.spare < n.taken + p.cap.length) : schedulable s = true := by
  have given := flow.inbound.given
  have made := flow.outbound.made
  have room := flow.outbound.free
  have out : (s.queue .output).ready ≠ [] := by
    intro none_
    rw [none_, List.length_nil] at given
    omega
  have cap : (s.queue .capture).ready ≠ [] := by
    intro none_
    rw [none_, List.length_nil] at room
    omega
  simp [schedulable, (flow.started .output).1, (flow.started .capture).1, out, cap]

end Device

end Vpipe.Pipeline
