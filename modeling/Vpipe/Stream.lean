import Vpipe.Gradient
import Vpipe.Lib.Fifo
import Vpipe.Runs

/-! A stream of VCAM frames through the device, while both queues stream. Frames are numbered from
the start of the stream; each stage of the pipeline holds a run of consecutive numbers, and the
lemmas here say how the two queues keep them when one buffer moves on. -/
namespace Vpipe.Stream
open Vpipe.Lib.Word Vpipe.Lib.ByteMemory Vpipe.Lib.BufferQueue Vpipe.Lib.Fifo
open Vpipe.FrameSource Vpipe.Gradient Vpipe.MetaRing Vpipe.M2m Vpipe.Moves Vpipe.Discipline Vpipe.Runs

/- What stays fixed over a stream: the format, the memory type of the OUTPUT buffers, the buffers
and the framebuffer, where the counters of the module stood at its start, and how many frames it
may have. -/
structure Plan where
  format : QData
  memory : Memory
  out : List Nat
  cap : List Nat
  fb : Nat
  seq : Nat
  head : Nat
  frames : Nat
  limit : Nat
  apart : (fb :: (out ++ cap)).Nodup
  room : seq + limit < 2^64

/- The frames queued, processed, taken from CAPTURE and given back on OUTPUT so far, and the
CAPTURE buffers that are with userspace. -/
structure Tally where
  given : Nat
  made : Nat
  taken : Nat
  freed : Nat
  spare : Nat

def Plan.block (p : Plan) (id : Nat) : Nat :=
  match p.memory with
  | .mmap => id
  | .dmabuf => p.fb

theorem blockApart (p : Plan) {id other : Nat} (out : id ∈ p.out) (cap : other ∈ p.cap) :
    p.block id ≠ other := by
  obtain ⟨fresh, lists⟩ := List.nodup_cons.mp p.apart
  rw [List.nodup_append] at lists
  unfold Plan.block
  cases p.memory with
  | mmap => exact lists.2.2 id out other cap
  | dmabuf =>
    intro same
    exact fresh (List.mem_append_right _ ((show p.fb = other from same) ▸ cap))

def Picture (d : QData) (m : Mem) (block n : Nat) : Prop :=
  ∀ x y, x < d.width → y < d.height → m.bytes block (y * d.bytesperline + x : Nat) = shade x y n

theorem pictureSame {d : QData} {m m' : Mem} {block n : Nat} (same : m'.bytes block = m.bytes block)
    (picture : Picture d m block n) : Picture d m' block n := by
  intro x y inRow inFrame
  rw [same]
  exact picture x y inRow inFrame

structure Placed (q : Queue VpipeBuffer) (ids : List Nat) (memory : Memory) (size : Nat) : Prop where
  names : q.ids = ids
  index : ∀ (i id : Nat), ids[i]? = some id → (q.buf id).index = i
  kind : ∀ id ∈ ids, (q.buf id).memory = memory ∧ (q.buf id).minLength = size
  plane : memory = .mmap → ∀ id ∈ ids, (q.buf id).plane.block = id ∧ size ≤ (q.buf id).plane.size ∧
    (q.buf id).mapped = true
  bare : ∀ id ∈ ids, (q.buf id).state = .dequeued → (q.buf id).prepared = false

structure Alike (b b' : Buf VpipeBuffer) : Prop where
  index : b'.index = b.index
  memory : b'.memory = b.memory
  minLength : b'.minLength = b.minLength
  plane : b.memory = .mmap → b'.plane = b.plane ∧ b'.mapped = b.mapped
  bare : b'.state = .dequeued → b'.prepared = false

theorem placedRewritten {q q' : Queue VpipeBuffer} {ids ready done : List Nat} {memory : Memory} {size id : Nat}
    {b : Buf VpipeBuffer} (placed : Placed q ids memory size) (rewritten : Rewritten q q' id b ready done)
    (alike : Alike (q.buf id) b) : Placed q' ids memory size := by
  have cases_ : ∀ other, q'.buf other = q.buf other ∨ (other = id ∧ q'.buf other = b) := by
    intro other
    by_cases same : other = id
    · exact .inr ⟨same,same ▸ rewrittenSelf rewritten⟩
    · exact .inl (rewrittenOther rewritten same)
  refine ⟨rewritten.ids.trans placed.names,?_,?_,?_,?_⟩
  · intro i other found
    rcases cases_ other with same | ⟨rfl, here⟩
    · rw [same]; exact placed.index i other found
    · rw [here, alike.index]; exact placed.index i _ found
  · intro other inside
    rcases cases_ other with same | ⟨rfl, here⟩
    · rw [same]; exact placed.kind other inside
    · rw [here, alike.memory, alike.minLength]; exact placed.kind _ inside
  · intro mapped other inside
    rcases cases_ other with same | ⟨rfl, here⟩
    · rw [same]; exact placed.plane mapped other inside
    · obtain ⟨plane, map⟩ := alike.plane ((placed.kind _ inside).1.trans mapped)
      rw [here, plane, map]; exact placed.plane mapped _ inside
  · intro other inside
    rcases cases_ other with same | ⟨rfl, here⟩
    · rw [same]; exact placed.bare other inside
    · rw [here]; exact alike.bare

def Started (q : Queue VpipeBuffer) : Prop := q.streaming = true ∧ ∀ id ∈ q.ids, (q.buf id).state ≠ .queued

theorem startedRewritten {q q' : Queue VpipeBuffer} {ready done : List Nat} {id : Nat} {b : Buf VpipeBuffer}
    (started : Started q) (rewritten : Rewritten q q' id b ready done) (handed : b.state ≠ .queued) :
    Started q' := by
  refine ⟨rewritten.streaming.trans started.1,fun other inside => ?_⟩
  rw [rewritten.buf, Function.update_apply]
  split
  · exact handed
  · exact started.2 other (rewritten.ids ▸ inside)

theorem startedDequeued {q : Queue VpipeBuffer} (wf : WellFormed q) (started : Started q) {id : Nat}
    (inside : id ∈ q.ids) (unused : id ∉ q.ready) (pending : id ∉ q.done) : (q.buf id).state = .dequeued := by
  cases state : (q.buf id).state with
  | dequeued => rfl
  | queued => exact absurd state (started.2 id inside)
  | active => exact absurd (wf.active id state).2 unused
  | done => exact absurd ((wf.done id).mpr ⟨inside,.inl state⟩) pending
  | error => exact absurd ((wf.done id).mpr ⟨inside,.inr state⟩) pending

structure Filled (p : Plan) (b : Buf VpipeBuffer) (m : Mem) (n id : Nat) : Prop where
  block : b.plane.block = p.block id
  mapped : b.mapped = true
  algo : b.data.algoId = algoNone
  whole : b.data.srcDesc.flags = 0
  picture : Picture p.format m (p.block id) n

structure Captured (p : Plan) (b : Buf VpipeBuffer) (m : Mem) (frames : List Frame) (n id : Nat) : Prop where
  state : b.state = .done
  block : b.plane.block = id
  bytesused : b.data.payload = p.format.sizeimage
  picture : Picture p.format m id n
  crc : b.data.metaPending.crc32 = Crc.frameCrc (m.slice b.plane p.format.sizeimage)
  seq : b.data.metaPending.seq = p.seq + n + 1
  flags : b.data.metaPending.flags = 0
  frame : ∃ f, frames[p.frames + n]? = some f ∧ f.target = id ∧ f.entry = b.data.metaPending

theorem filledSame {p : Plan} {b : Buf VpipeBuffer} {m m' : Mem} {i id : Nat}
    (same : m'.bytes (p.block id) = m.bytes (p.block id)) (filled : Filled p b m i id) : Filled p b m' i id :=
  ⟨filled.block,filled.mapped,filled.algo,filled.whole,pictureSame same filled.picture⟩

theorem capturedSame {p : Plan} {b : Buf VpipeBuffer} {m m' : Mem} {frames frames' : List Frame} {i id : Nat}
    (same : m'.bytes id = m.bytes id) (grown : frames <+: frames') (captured : Captured p b m frames i id) :
    Captured p b m' frames' i id := by
  obtain ⟨f, found, rest⟩ := captured.frame
  refine ⟨captured.state,captured.block,captured.bytesused,pictureSame same captured.picture,?_,captured.seq,
    captured.flags,f,prefixGet grown found,rest⟩
  rw [captured.crc]
  exact congrArg Crc.frameCrc (sliceSame (by rw [captured.block, same]) _)

structure Draws (p : Plan) (src : Source) (n : Nat) : Prop where
  backend : src.backend = .vcamDerived
  priv : ∃ v, src.priv = .vcam v ∧ v.fb = p.fb ∧ v.dropEveryN = 0 ∧ v.patternOffset = u32 n

structure Fixed (p : Plan) (s : Sys) : Prop where
  format : s.c.outQ = p.format
  algo : s.c.controls.algoId = algoNone
  fb : p.format.sizeimage ≤ (s.k.machine.fbs p.fb).size
  alive : s.k.metaDev.dying = false
  started : ∀ t, Started (s.queue t)
  outPlaced : Placed (s.queue .output) p.out p.memory p.format.sizeimage
  capPlaced : Placed (s.queue .capture) p.cap .mmap p.format.sizeimage

structure Inbound (p : Plan) (q : Queue VpipeBuffer) (m : Mem) (given made freed : Nat) : Prop where
  waiting : Numbered (fun i id => Filled p (q.buf id) m i id) made q.ready
  given : made + q.ready.length = given
  freed : freed + q.done.length = made

structure Outbound (p : Plan) (q : Queue VpipeBuffer) (m : Mem) (frames : List Frame) (taken made spare : Nat) :
    Prop where
  captured : Numbered (fun i id => Captured p (q.buf id) m frames i id) taken q.done
  made : taken + q.done.length = made
  free : q.ready.length + q.done.length + spare = p.cap.length

structure Flow (p : Plan) (s : Sys) (n : Tally) : Prop extends Fixed p s where
  sane : Sane s
  output : Exact (s.queue .output)
  limit : n.given ≤ p.limit
  draws : Draws p s.c.src n.given
  sequence : s.k.sequence = p.seq + n.made
  frames : s.k.frames.length = p.frames + n.made
  head : s.k.metaDev.head = p.head + n.taken
  inbound : Inbound p (s.queue .output) s.k.machine.mem n.given n.made n.freed
  outbound : Outbound p (s.queue .capture) s.k.machine.mem s.k.frames n.taken n.made n.spare

section Queues
variable {p : Plan} {q q' : Queue VpipeBuffer} {m m' : Mem} {frames frames' : List Frame} {id : Nat}
  {b : Buf VpipeBuffer} {rest : List Nat} {given made freed taken spare : Nat}

theorem inboundGiven (inbound : Inbound p q m given made freed)
    (rewritten : Rewritten q q' id b (q.ready ++ [id]) q.done) (apart : id ∉ q.ready)
    (same : ∀ other ∈ q.ready, m'.bytes (p.block other) = m.bytes (p.block other))
    (filled : Filled p b m' given id) :
    Inbound p q' m' (given + 1) made freed := by
  have count := inbound.given
  refine ⟨?_,?_,?_⟩
  · rw [rewritten.ready]
    refine numberedAppend (numberedWeaken (fun other member i old => ?_) inbound.waiting) ?_
    · rw [rewrittenOther rewritten (fun here => apart (here ▸ member))]
      exact filledSame (same other member) old
    · rw [count, rewrittenSelf rewritten]
      exact filled
  · rw [rewritten.ready, List.length_append, List.length_singleton]
    omega
  · rw [rewritten.done]
    exact inbound.freed

theorem inboundMade (inbound : Inbound p q m given made freed) (first : q.ready = id :: rest)
    (rewritten : Rewritten q q' id b rest (q.done ++ [id])) (apart : id ∉ rest)
    (same : ∀ other ∈ rest, m'.bytes (p.block other) = m.bytes (p.block other)) :
    Inbound p q' m' given (made + 1) freed := by
  obtain ⟨waiting, count, done⟩ := inbound
  rw [first] at waiting
  rw [first, List.length_cons] at count
  refine ⟨?_,?_,?_⟩
  · rw [rewritten.ready]
    refine numberedWeaken (fun other member i old => ?_) waiting.2
    rw [rewrittenOther rewritten (fun here => apart (here ▸ member))]
    exact filledSame (same other member) old
  · rw [rewritten.ready]
    omega
  · rw [rewritten.done, List.length_append, List.length_singleton]
    omega

theorem inboundFreed (inbound : Inbound p q m given made freed) (first : q.done = id :: rest)
    (rewritten : Rewritten q q' id b q.ready rest) (apart : id ∉ q.ready) :
    Inbound p q' m given made (freed + 1) := by
  have done := inbound.freed
  rw [first, List.length_cons] at done
  refine ⟨?_,?_,?_⟩
  · rw [rewritten.ready]
    refine numberedWeaken (fun other member i old => ?_) inbound.waiting
    rw [rewrittenOther rewritten (fun here => apart (here ▸ member))]
    exact old
  · rw [rewritten.ready]
    exact inbound.given
  · rw [rewritten.done]
    omega

theorem outboundMade (outbound : Outbound p q m frames taken made spare) (first : q.ready = id :: rest)
    (rewritten : Rewritten q q' id b rest (q.done ++ [id])) (apart : id ∉ q.done)
    (same : ∀ other ∈ q.done, m'.bytes other = m.bytes other) (grown : frames <+: frames')
    (captured : Captured p b m' frames' made id) : Outbound p q' m' frames' taken (made + 1) spare := by
  obtain ⟨before, count, free⟩ := outbound
  rw [first, List.length_cons] at free
  refine ⟨?_,?_,?_⟩
  · rw [rewritten.done]
    refine numberedAppend (numberedWeaken (fun other member i old => ?_) before) ?_
    · rw [rewrittenOther rewritten (fun here => apart (here ▸ member))]
      exact capturedSame (same other member) grown old
    · rw [count, rewrittenSelf rewritten]
      exact captured
  · rw [rewritten.done, List.length_append, List.length_singleton]
    omega
  · rw [rewritten.ready, rewritten.done, List.length_append, List.length_singleton]
    omega

theorem outboundTaken (outbound : Outbound p q m frames taken made spare) (first : q.done = id :: rest)
    (rewritten : Rewritten q q' id b q.ready rest) (apart : id ∉ rest) :
    Outbound p q' m frames (taken + 1) made (spare + 1) := by
  obtain ⟨captured, count, free⟩ := outbound
  rw [first] at captured
  rw [first, List.length_cons] at count free
  refine ⟨?_,?_,?_⟩
  · rw [rewritten.done]
    refine numberedWeaken (fun other member i old => ?_) captured.2
    rw [rewrittenOther rewritten (fun here => apart (here ▸ member))]
    exact old
  · rw [rewritten.done]
    omega
  · rw [rewritten.ready, rewritten.done]
    omega

theorem outboundReturned (outbound : Outbound p q m frames taken made (spare + 1))
    (rewritten : Rewritten q q' id b (q.ready ++ [id]) q.done) (apart : id ∉ q.done) :
    Outbound p q' m frames taken made spare := by
  obtain ⟨captured, count, free⟩ := outbound
  refine ⟨?_,?_,?_⟩
  · rw [rewritten.done]
    refine numberedWeaken (fun other member i old => ?_) captured
    rw [rewrittenOther rewritten (fun here => apart (here ▸ member))]
    exact old
  · rw [rewritten.done]
    exact count
  · rw [rewritten.ready, rewritten.done, List.length_append, List.length_singleton]
    omega

theorem outboundSame (outbound : Outbound p q m frames taken made spare)
    (same : ∀ other ∈ q.done, m'.bytes other = m.bytes other) : Outbound p q m' frames taken made spare :=
  {outbound with captured := numberedWeaken (fun other member _ old =>
    capturedSame (same other member) (List.prefix_refl _) old) outbound.captured}

end Queues

theorem fixedRewritten {p : Plan} {s s' : Sys} {t : QType} {id : Nat} {b : Buf VpipeBuffer}
    {ready done : List Nat} (fixed : Fixed p s) (rewritten : Rewritten (s.queue t) (s'.queue t) id b ready done)
    (alike : Alike ((s.queue t).buf id) b) (handed : b.state ≠ .queued)
    (other : ∀ t', t' ≠ t → s'.queue t' = s.queue t')
    (format : s'.c.outQ = s.c.outQ) (controls : s'.c.controls = s.c.controls)
    (fbs : s'.k.machine.fbs = s.k.machine.fbs) (dying : s'.k.metaDev.dying = s.k.metaDev.dying) :
    Fixed p s' := by
  refine ⟨format.trans fixed.format,by rw [controls]; exact fixed.algo,by rw [fbs]; exact fixed.fb,
    dying.trans fixed.alive,?_,?_,?_⟩
  · intro t'
    by_cases same : t' = t
    · subst same
      exact startedRewritten (fixed.started _) rewritten handed
    · rw [other t' same]
      exact fixed.started t'
  · cases t with
    | output => exact placedRewritten fixed.outPlaced rewritten alike
    | capture => rw [other .output (by decide)]; exact fixed.outPlaced
  · cases t with
    | output => rw [other .capture (by decide)]; exact fixed.capPlaced
    | capture => exact placedRewritten fixed.capPlaced rewritten alike

end Vpipe.Stream
