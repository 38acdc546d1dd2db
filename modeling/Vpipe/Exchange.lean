import Vpipe.Lockstep

/-! A tool that sends one image at a time through the device: QBUF of the image, DQBUF of the frame
made of it, DQBUF of the image's buffer, QBUF of the frame's. Between any two calls jobs may run,
and another device may write the memory it holds. -/
namespace Vpipe.Exchange
open Vpipe.Lib.Word Vpipe.Lib.ByteMemory Vpipe.Lib.BufferQueue Vpipe.Lib.Transition
open Vpipe.Cv Vpipe.MetaRing Vpipe.M2m Vpipe.Runs Vpipe.Tools Vpipe.Lockstep

structure Stirred (foreign : List Nat) (s s' : Sys) : Prop where
  rest : s' = s.setMachine {s.k.machine with mem := s'.k.machine.mem}
  bytes : ∀ block, block ∉ foreign → s'.k.machine.mem.bytes block = s.k.machine.mem.bytes block

theorem stirredRefl (foreign : List Nat) (s : Sys) : Stirred foreign s s := ⟨rfl,fun _ _ => rfl⟩

theorem stirredTrans {foreign : List Nat} {s s' s'' : Sys} (first : Stirred foreign s s')
    (second : Stirred foreign s' s'') : Stirred foreign s s'' := by
  refine ⟨?_,fun block free => (second.bytes block free).trans (first.bytes block free)⟩
  rw [second.rest, first.rest]
  rfl

section Meanwhile
variable {p : Bench} {s : Sys} {foreign : List Nat}

theorem stirredContext {s' : Sys} (stirred : Stirred foreign s s') : s'.c = s.c := by
  rw [stirred.rest]
  rfl

theorem stirredKernel {s' : Sys} (stirred : Stirred foreign s s') : s'.k.sequence = s.k.sequence ∧
    s'.k.published = s.k.published ∧ s'.k.machine.fbs = s.k.machine.fbs := by
  rw [stirred.rest]
  exact ⟨rfl,rfl,rfl⟩

theorem stirredQueues {s' : Sys} (stirred : Stirred foreign s s') (t : QType) : s'.queue t = s.queue t := by
  rw [Sys.queue, stirredContext stirred]
  rfl

theorem stirredBoard {s' : Sys} (stirred : Stirred foreign s s') : boardOf s' = boardOf s := by
  simp only [boardOf, stirredQueues stirred]

theorem drawStirs (foreign : List Nat) (serving : Serving p s) (block : Nat) (bytes : List UInt8) :
    Serving p (happen foreign s (.draw block bytes)) ∧
      Stirred foreign s (happen foreign s (.draw block bytes)) := by
  by_cases held : block ∈ foreign
  · have drawn : happen foreign s (.draw block bytes) = s.step (.store block bytes) := if_pos held
    rw [drawn]
    refine ⟨servingStore serving block bytes,rfl,fun other free => ?_⟩
    have differ : other ≠ block := fun same => free (same ▸ held)
    funext i
    simp [Sys.step, Sys.setMachine, Mem.store, differ]
  · have nothing : happen foreign s (.draw block bytes) = s := if_neg held
    rw [nothing]
    exact ⟨serving,stirredRefl foreign s⟩

theorem idleJob (idle : (boardOf s).outReady = []) (cpu : Nat) : vpipeDeviceRun s cpu = s := by
  have empty : (s.queue .output).ready = [] := idle
  simp [vpipeDeviceRun, schedulable, empty]

theorem idlePasses (env : Surroundings) {c : Client} (serving : Serving p c.s)
    (idle : (boardOf c.s).outReady = []) :
    Serving p (c.pass env).s ∧ Stirred c.foreign c.s (c.pass env).s := by
  refine runAlways (fun u h (so : Serving p u ∧ Stirred c.foreign c.s u) => ?_) ⟨serving,stirredRefl _ _⟩
    (env.meanwhile c.places)
  obtain ⟨serving', stirred⟩ := so
  cases h with
  | job cpu =>
    have same : happen c.foreign u (.job cpu) = u := idleJob (by rw [stirredBoard stirred]; exact idle) cpu
    rw [same]
    exact ⟨serving',stirred⟩
  | draw block bytes =>
    obtain ⟨kept, more⟩ := drawStirs c.foreign serving' block bytes
    exact ⟨kept,stirredTrans stirred more⟩

structure Waiting (p : Bench) (s : Sys) (src dst : Nat) (rest : List Nat) : Prop where
  serving : Serving p s
  board : boardOf s = ⟨[src],[],dst :: rest,[]⟩
  mapped : ((s.queue .output).buf src).mapped = true
  known : Order.Known ((s.queue .output).buf src).data.algoId

theorem waitingStirred {s' : Sys} {src dst : Nat} {rest : List Nat} (waiting : Waiting p s src dst rest)
    (serving : Serving p s') (stirred : Stirred foreign s s') : Waiting p s' src dst rest := by
  have same := stirredQueues stirred
  exact ⟨serving,(stirredBoard stirred).trans waiting.board,by rw [same]; exact waiting.mapped,
    by rw [same]; exact waiting.known⟩

theorem waitingMade {src dst : Nat} {rest : List Nat} (waiting : Waiting p s src dst rest) (cpu : Nat) :
    ∃ result m, vpipeCvProcess (jobOf s ((s.queue .output).buf src).plane ((s.queue .capture).buf dst).plane)
        ((s.queue .output).buf src).data.algoId ((s.queue .output).buf src).data.threshold
        (some ((s.queue .output).buf src).data.roi) s.k.machine.mem = .ok (result,m) ∧
      Serving p (vpipeDeviceRun s cpu) ∧ boardOf (vpipeDeviceRun s cpu) = ⟨[],[src],rest,[dst]⟩ ∧
      Made s (vpipeDeviceRun s cpu) src dst m := by
  obtain ⟨result, m, done, serving, board, made⟩ :=
    makes waiting.serving cpu (congrArg Board.outReady waiting.board) (congrArg Board.capReady waiting.board)
      waiting.mapped waiting.known
  refine ⟨result,m,done,serving,?_,made⟩
  rw [board, waiting.board]
  rfl

structure Taken (p : Bench) (foreign : List Nat) (s : Sys) (src dst : Nat) (rest : List Nat)
    (u v : Sys) (cpu : Nat) : Prop where
  waiting : Waiting p v src dst rest
  stirred : Stirred foreign s v
  serving : Serving p u
  later : Stirred foreign (vpipeDeviceRun v cpu) u

inductive Phase (p : Bench) (foreign : List Nat) (s : Sys) (src dst : Nat) (rest : List Nat) (u : Sys) :
    Prop where
  | before (waiting : Waiting p u src dst rest) (stirred : Stirred foreign s u)
  | after (v : Sys) (cpu : Nat) (taken : Taken p foreign s src dst rest u v cpu)

theorem phaseJob {src dst : Nat} {rest : List Nat} {u : Sys}
    (phase : Phase p foreign s src dst rest u) (cpu : Nat) :
    ∃ v first, Taken p foreign s src dst rest (vpipeDeviceRun u cpu) v first := by
  cases phase with
  | before waiting stirred =>
    obtain ⟨_, _, _, serving, _, _⟩ := waitingMade waiting cpu
    exact ⟨u,cpu,waiting,stirred,serving,stirredRefl _ _⟩
  | after v first taken =>
    obtain ⟨_, _, _, _, board, _⟩ := waitingMade taken.waiting first
    rw [idleJob (by rw [stirredBoard taken.later, board])]
    exact ⟨v,first,taken⟩

theorem phaseHappens {src dst : Nat} {rest : List Nat} {u : Sys} (phase : Phase p foreign s src dst rest u)
    (h : Happening) : Phase p foreign s src dst rest (happen foreign u h) := by
  cases h with
  | job cpu =>
    obtain ⟨v, first, taken⟩ := phaseJob phase cpu
    exact .after v first taken
  | draw block bytes =>
    cases phase with
    | before waiting stirred =>
      obtain ⟨kept, more⟩ := drawStirs foreign waiting.serving block bytes
      exact .before (waitingStirred waiting kept more) (stirredTrans stirred more)
    | after v first taken =>
      obtain ⟨kept, more⟩ := drawStirs foreign taken.serving block bytes
      exact .after v first {taken with serving := kept, later := stirredTrans taken.later more}

theorem awaitsFrame (env : Surroundings) {c : Client} {src dst : Nat} {rest : List Nat}
    (waiting : Waiting p c.s src dst rest) : (c.await env .capture).foreign = c.foreign ∧
      ∃ v cpu, Taken p c.foreign c.s src dst rest (c.await env .capture).s v cpu := by
  have phase : Phase p c.foreign c.s src dst rest (run (happen c.foreign) c.s (env.meanwhile c.places)) :=
    runAlways (fun u h (so : Phase p c.foreign c.s src dst rest u) => phaseHappens so h)
      (.before waiting (stirredRefl _ _)) _
  by_cases nothing : ((c.pass env).s.queue .capture).done = []
  · have step : c.await env .capture = {c.pass env with
      s := vpipeDeviceRun (c.pass env).s (env.waits (c.pass env).places)} := if_pos nothing
    rw [step]
    exact ⟨rfl,phaseJob phase _⟩
  · have step : c.await env .capture = c.pass env := if_neg nothing
    rw [step]
    cases phase with
    | before still _ => exact absurd (congrArg Board.capDone still.board) nothing
    | after v cpu taken => exact ⟨rfl,v,cpu,taken⟩

end Meanwhile

structure Steadied (foreign : List Nat) (s s' : Sys) : Prop where
  controls : s'.c.controls = s.c.controls
  src : s'.c.src = s.c.src
  fbs : s'.k.machine.fbs = s.k.machine.fbs
  sequence : s'.k.sequence = s.k.sequence
  published : s'.k.published = s.k.published
  bytes : ∀ block, block ∉ foreign → s'.k.machine.mem.bytes block = s.k.machine.mem.bytes block

theorem steadiedOf {foreign : List Nat} {s u s' : Sys} (stirred : Stirred foreign s u) (quiet : Quiet u s')
    (published : s'.k.published = u.k.published) : Steadied foreign s s' := by
  obtain ⟨sequence, rows, fbs⟩ := stirredKernel stirred
  exact ⟨by rw [quiet.controls, stirredContext stirred],by rw [quiet.src, stirredContext stirred],
    quiet.fbs.trans fbs,
    quiet.sequence.trans sequence,published.trans rows,fun block free =>
      by rw [quiet.mem]; exact stirred.bytes block free⟩

section Frame
variable {p : Bench} {c : Client} {rest : List Nat}

structure Offer (p : Bench) (c : Client) (index id : Nat) (att : Option Attachment) (a : Attachment) :
    Prop where
  found : p.out[index]? = some id
  attached : attach ((c.s.queue .output).buf id) att = .ok a
  mapped : a.mapped = true
  large : p.format.sizeimage ≤ a.plane.size
  held : a.plane.block ∉ c.foreign
  apart : a.plane.block ∉ p.cap
  known : Order.Known c.s.c.controls.algoId

theorem clientLoads (env : Surroundings) (serving : Serving p c.s) {dst index id : Nat}
    (board : boardOf c.s = ⟨[],[],dst :: rest,[]⟩) {att : Option Attachment} {a : Attachment}
    (offer : Offer p c index id att a) :
    ∃ c' u, c.qbuf env .output index att = .ok c' ∧ c'.foreign = c.foreign ∧ Waiting p c'.s id dst rest ∧
      Stirred c.foreign c.s u ∧ Loaded u c'.s id a := by
  obtain ⟨serving', stirred⟩ := idlePasses env serving (by rw [board])
  have same := stirredQueues stirred
  have outReady : (c.s.queue .output).ready = [] := congrArg Board.outReady board
  have outDone : (c.s.queue .output).done = [] := congrArg Board.outDone board
  obtain ⟨s', made, served, board', loaded⟩ := loads serving' offer.found
    (by rw [same, outReady, outDone]; simp) (by rw [same]; exact offer.attached) offer.large
  refine ⟨{c.pass env with s := s'},(c.pass env).s,?_,rfl,⟨served,?_,?_,?_⟩,stirred,loaded⟩
  · simp only [Client.qbuf, made]
  · rw [board', stirredBoard stirred, board]
    rfl
  · exact loaded.mapped.trans offer.mapped
  · rw [loaded.algo, stirredContext stirred]
    exact offer.known

structure Delivered (p : Bench) (c c' : Client) (src dst : Nat) (rest : List Nat) (dq : V4l2Buffer) (v : Sys)
    (m : Mem) : Prop where
  waiting : Waiting p v src dst rest
  stirred : Stirred c.foreign c.s v
  processed : ∃ result, vpipeCvProcess
    (jobOf v ((v.queue .output).buf src).plane ((v.queue .capture).buf dst).plane)
    ((v.queue .output).buf src).data.algoId ((v.queue .output).buf src).data.threshold
    (some ((v.queue .output).buf src).data.roi) v.k.machine.mem = .ok (result,m)
  serving : Serving p c'.s
  board : boardOf c'.s = ⟨[],[src],rest,[]⟩
  foreign : c'.foreign = c.foreign
  row : ∃ d : VpipeBuffer, Row v src ((v.queue .capture).buf dst).plane m d ∧
    dq = ⟨((v.queue .capture).buf dst).index,d.payload,d.sequence⟩ ∧
    ∃ now, c'.s.k.published = c.s.k.published ++ [⟨dst,{d.metaPending with dqbufTimestampNs := now}⟩]
  controls : c'.s.c.controls = c.s.c.controls
  src : c'.s.c.src = c.s.c.src
  fbs : c'.s.k.machine.fbs = c.s.k.machine.fbs
  sequence : c'.s.k.sequence = u64 (c.s.k.sequence + 1)
  bytes : ∀ block, block ∉ c.foreign → c'.s.k.machine.mem.bytes block = m.bytes block

theorem clientTakes (env : Surroundings) {src dst : Nat} (waiting : Waiting p c.s src dst rest)
    (room : c.s.k.sequence + 1 < 2^64) :
    ∃ dq c' v m, c.dqbuf env .capture = .ok (dq,c') ∧ Delivered p c c' src dst rest dq v m := by
  obtain ⟨foreign, v, cpu, waits, stirred, served, later⟩ := awaitsFrame env waiting
  obtain ⟨result, m, processed, _, board, made⟩ := waitingMade waits cpu
  generalize vpipeDeviceRun v cpu = w at *
  have queues := stirredQueues later
  obtain ⟨sequence, published, fbs⟩ := stirredKernel stirred
  obtain ⟨sequence', published', fbs'⟩ := stirredKernel later
  have filled : (((c.await env .capture).s.queue .capture).buf dst).data.metaPending.seq ≠ 0 := by
    rw [queues, made.row.seq, sequence, u64Of room]
    omega
  have board' : boardOf (c.await env .capture).s = ⟨[],[src],rest,[dst]⟩ := (stirredBoard later).trans board
  obtain ⟨s', dequeued, serving, lists, quiet, rows⟩ := takes served (congrArg Board.capDone board') filled
  have done : ((c.await env .capture).s.queue .capture).done = [dst] := congrArg Board.capDone board'
  refine ⟨⟨((w.queue .capture).buf dst).index,((w.queue .capture).buf dst).data.payload,
    ((w.queue .capture).buf dst).data.sequence⟩,{c.await env .capture with s := s'},v,m,?_,?_⟩
  · simp only [Client.dqbuf, done, dequeued]
    rw [queues]
  rw [queues, published', made.published, published] at rows
  constructor
  case waiting => exact waits
  case stirred => exact stirred
  case processed => exact ⟨result,processed⟩
  case serving => exact serving
  case board => rw [lists, board']
  case foreign => exact foreign
  case row => exact ⟨_,made.row,by rw [made.index],_,rows⟩
  case controls => rw [quiet.controls, stirredContext later, made.controls, stirredContext stirred]
  case src => rw [quiet.src, stirredContext later, made.src, stirredContext stirred]
  case fbs => rw [quiet.fbs, fbs', made.fbs, fbs]
  case sequence => rw [quiet.sequence, sequence', made.sequence, sequence]
  case bytes =>
    intro block free
    rw [quiet.mem, later.bytes block free, made.bytes]

theorem clientFrees (env : Surroundings) (serving : Serving p c.s) {src : Nat}
    (board : boardOf c.s = ⟨[],[src],rest,[]⟩) : ∃ dq c', c.dqbuf env .output = .ok (dq,c') ∧ Serving p c'.s ∧
      boardOf c'.s = ⟨[],[],rest,[]⟩ ∧ c'.foreign = c.foreign ∧ Steadied c.foreign c.s c'.s := by
  obtain ⟨serving', stirred⟩ := idlePasses env serving (by rw [board])
  have board' : boardOf (c.pass env).s = ⟨[],[src],rest,[]⟩ := (stirredBoard stirred).trans board
  have done : ((c.pass env).s.queue .output).done = [src] := congrArg Board.outDone board'
  obtain ⟨s', dequeued, served, lists, quiet, published⟩ := frees serving' (congrArg Board.outDone board')
  have await : c.await env .output = c.pass env := if_neg (by rw [done]; simp)
  let b := ((c.pass env).s.queue .output).buf src
  refine ⟨⟨b.index,b.data.payload,b.data.sequence⟩,{c.pass env with s := s'},?_,served,?_,rfl,
    steadiedOf stirred quiet published⟩
  · simp only [Client.dqbuf, await, done, dequeued, b]
  · rw [lists, board']

theorem clientReturns (env : Surroundings) (serving : Serving p c.s) {dst index : Nat}
    (board : boardOf c.s = ⟨[],[],rest,[]⟩) (found : p.cap[index]? = some dst) (spare : dst ∉ rest) :
    ∃ c', c.qbuf env .capture index none = .ok c' ∧ Serving p c'.s ∧ boardOf c'.s = ⟨[],[],rest ++ [dst],[]⟩ ∧
      c'.foreign = c.foreign ∧ Steadied c.foreign c.s c'.s := by
  obtain ⟨serving', stirred⟩ := idlePasses env serving (by rw [board])
  have board' : boardOf (c.pass env).s = ⟨[],[],rest,[]⟩ := (stirredBoard stirred).trans board
  have ready : ((c.pass env).s.queue .capture).ready = rest := congrArg Board.capReady board'
  have done : ((c.pass env).s.queue .capture).done = [] := congrArg Board.capDone board'
  obtain ⟨s', made, served, lists, quiet, published⟩ := returns serving' found
    (by rw [ready, done]; exact ⟨spare,by simp⟩)
  refine ⟨{c.pass env with s := s'},by simp only [Client.qbuf, made],served,?_,rfl,
    steadiedOf stirred quiet published⟩
  rw [lists, board']

structure Exchanged (p : Bench) (c : Client) (m : Mem) (c' : Client) (plane : Plane) (dst : Nat)
    (rest : List Nat) (dq : V4l2Buffer) : Prop where
  serving : Serving p c'.s
  board : boardOf c'.s = ⟨[],[],rest,[]⟩
  foreign : c'.foreign = c.foreign
  index : p.cap[dq.index]? = some dst
  bytesused : dq.bytesused = p.format.sizeimage
  sequence : dq.sequence = u32 (c.s.k.sequence + 1)
  count : c'.s.k.sequence = c.s.k.sequence + 1
  controls : c'.s.c.controls = c.s.c.controls
  image : c'.s.k.machine.mem.slice ⟨dst,p.format.sizeimage⟩ p.format.sizeimage =
    processedImage p.format.width c.s.c.controls.algoId c.s.c.controls.threshold c.s.c.controls.roi
      (m.slice plane p.format.sizeimage)
  published : ∃ e : MetaEntry, c'.s.k.published = c.s.k.published ++ [⟨dst,e⟩] ∧ e.seq = c.s.k.sequence + 1 ∧
    e.srcV4l2Sequence = c.s.c.controls.srcSequence ∧ e.bytesused = p.format.sizeimage ∧
    e.algoId = c.s.c.controls.algoId ∧
    e.crc32 = Crc.frameCrc (c'.s.k.machine.mem.slice ⟨dst,p.format.sizeimage⟩ p.format.sizeimage)
  bytes : ∀ block, block ∉ c.foreign → block ≠ dst → c'.s.k.machine.mem.bytes block = m.bytes block

structure Sourced (c : Client) (id : Nat) (a : Attachment) (c1 c' : Client) : Prop where
  loaded : ∃ u, Stirred c.foreign c.s u ∧ Loaded u c1.s id a
  src : c'.s.c.src = c1.s.c.src
  fbs : c'.s.k.machine.fbs = c1.s.k.machine.fbs

theorem exchanges (env : Surroundings) (serving : Serving p c.s) {dst index id : Nat}
    (board : boardOf c.s = ⟨[],[],dst :: rest,[]⟩) {att : Option Attachment} {a : Attachment}
    (offer : Offer p c index id att a) (proper : Proper c.s.c.controls.roi) (room : c.s.k.sequence + 1 < 2^64)
    (own : ∀ id ∈ p.cap, id ∉ c.foreign) :
    ∃ c1 dq c2 used c3, c.qbuf env .output index att = .ok c1 ∧ c1.dqbuf env .capture = .ok (dq,c2) ∧
      c2.dqbuf env .output = .ok (used,c3) ∧ Sourced c id a c1 c3 ∧
      Exchanged p c c1.s.k.machine.mem c3 a.plane dst rest dq := by
  obtain ⟨c1, u, queued, foreign1, waiting, before, loaded⟩ := clientLoads env serving board offer
  obtain ⟨seqU, pubU, _⟩ := stirredKernel before
  have ctxU := stirredContext before
  have room1 : c1.s.k.sequence + 1 < 2^64 := by rw [loaded.count, seqU]; exact room
  obtain ⟨dq, c2, v, m, taken, delivered⟩ := clientTakes env waiting room1
  obtain ⟨used, c3, freed, serving3, board3, foreign3, steadied⟩ :=
    clientFrees env delivered.serving delivered.board
  refine ⟨c1,dq,c2,used,c3,queued,taken,freed,⟨⟨u,before,loaded⟩,steadied.src.trans delivered.src,
    steadied.fbs.trans delivered.fbs⟩,?_⟩
  have queuesV := stirredQueues delivered.stirred
  obtain ⟨result, processed⟩ := delivered.processed
  obtain ⟨d, row, told, now, rows⟩ := delivered.row
  have foreign2 : c2.foreign = c.foreign := delivered.foreign.trans foreign1
  have format : v.c.outQ = p.format := delivered.waiting.serving.format
  have capFormat : v.c.capQ = p.format := delivered.waiting.serving.sane.mirrored.trans format
  have dstIn : dst ∈ p.cap := by
    have ready := serving.sane.capture.ready dst
      (by rw [show (c.s.queue .capture).ready = dst :: rest from congrArg Board.capReady board]; simp)
    exact serving.capPlaced.names ▸ ready.1
  obtain ⟨place, found⟩ := List.mem_iff_getElem?.mp dstIn
  obtain ⟨dstBlock, _, _⟩ := delivered.waiting.serving.capPlaced.plane rfl dst dstIn
  have srcPlane : ((v.queue .output).buf id).plane = a.plane := by rw [queuesV]; exact loaded.plane
  have algo : ((v.queue .output).buf id).data.algoId = c.s.c.controls.algoId := by
    rw [queuesV, loaded.algo, ctxU]
  have threshold : ((v.queue .output).buf id).data.threshold = c.s.c.controls.threshold := by
    rw [queuesV, loaded.threshold, ctxU]
  have roi : ((v.queue .output).buf id).data.roi = c.s.c.controls.roi := by rw [queuesV, loaded.roi, ctxU]
  have srcSequence : ((v.queue .output).buf id).data.srcSequence = c.s.c.controls.srcSequence := by
    rw [queuesV, loaded.sequence, ctxU]
  have seqV : v.k.sequence = c.s.k.sequence := by
    rw [(stirredKernel delivered.stirred).1, loaded.count, seqU]
  -- Memory that is with no other device is the same when the job reads it.
  have memV : ∀ block, block ∉ c.foreign → v.k.machine.mem.bytes block = c1.s.k.machine.mem.bytes block :=
    fun block free => delivered.stirred.bytes block (foreign1 ▸ free)
  have memM : ∀ block, block ∉ c.foreign → c3.s.k.machine.mem.bytes block = m.bytes block := by
    intro block free
    rw [steadied.bytes block (foreign2 ▸ free), delivered.bytes block (foreign1 ▸ free)]
  rw [algo, threshold, roi, srcPlane] at processed
  obtain ⟨image, others⟩ := imageMade delivered.waiting.serving.sane
    (by rw [dstBlock]; exact fun same => offer.apart (same ▸ dstIn)) proper offer.known processed
  rw [format] at image
  rw [dstBlock] at others
  have shown : c3.s.k.machine.mem.slice ⟨dst,p.format.sizeimage⟩ p.format.sizeimage =
      m.slice ((v.queue .capture).buf dst).plane p.format.sizeimage := by
    simp only [Mem.slice, Mem.get, dstBlock, memM dst (own dst dstIn)]
  constructor
  case serving => exact serving3
  case board => exact board3
  case foreign => exact foreign3.trans foreign2
  case index =>
    rw [told]
    exact delivered.waiting.serving.capPlaced.index place dst found ▸ found
  case bytesused => rw [told, row.payload, capFormat]
  case sequence => rw [told, row.sequence, row.seq, seqV, u64Of room]
  case count => rw [steadied.sequence, delivered.sequence, loaded.count, seqU, u64Of room]
  case controls => rw [steadied.controls, delivered.controls, loaded.controls, ctxU]
  case image =>
    rw [shown, image]
    exact congrArg _ (sliceSame (memV _ offer.held) _)
  case published =>
    refine ⟨{d.metaPending with dqbufTimestampNs := now},?_,row.seq.trans (by rw [seqV, u64Of room]),
      row.source.trans srcSequence,row.bytesused.trans (by rw [capFormat]),row.algo.trans algo,
      row.crc.trans (by rw [shown, capFormat])⟩
    rw [steadied.published, rows, loaded.published, pubU]
  case bytes =>
    intro block free differ
    rw [memM block free, others block differ, memV block free]

theorem fixtureExchanges (env : Surroundings) (serving : Serving p c.s) (fixture : c.s.c.src.backend = .fixture)
    {dst index id : Nat} (board : boardOf c.s = ⟨[],[],dst :: rest,[]⟩) {att : Option Attachment}
    {a : Attachment}
    (offer : Offer p c index id att a) (proper : Proper c.s.c.controls.roi) (room : c.s.k.sequence + 1 < 2^64)
    (own : ∀ id ∈ p.cap, id ∉ c.foreign) :
    ∃ c1 dq c2 used c3, c.qbuf env .output index att = .ok c1 ∧ c1.dqbuf env .capture = .ok (dq,c2) ∧
      c2.dqbuf env .output = .ok (used,c3) ∧ c3.s.c.src.backend = .fixture ∧
      Exchanged p c c.s.k.machine.mem c3 a.plane dst rest dq := by
  obtain ⟨c1, dq, c2, used, c3, queued, taken, freed, sourced, exchanged⟩ :=
    exchanges env serving board offer proper room own
  obtain ⟨u, stirred, loaded⟩ := sourced.loaded
  obtain ⟨mem, still⟩ := fixtureLoaded (by rw [stirredContext stirred]; exact fixture) loaded
  have same : ∀ block, block ∉ c.foreign → c1.s.k.machine.mem.bytes block = c.s.k.machine.mem.bytes block := by
    intro block free
    rw [mem, stirred.bytes block free]
  refine ⟨c1,dq,c2,used,c3,queued,taken,freed,by rw [sourced.src]; exact still,
    {exchanged with image := ?_, bytes := ?_}⟩
  · rw [exchanged.image]
    exact congrArg _ (sliceSame (same _ offer.held) _)
  · intro block free differ
    rw [exchanged.bytes block free differ, same block free]

end Frame

end Vpipe.Exchange
