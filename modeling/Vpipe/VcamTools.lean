import Vpipe.Bringup
import Vpipe.Footage
import Vpipe.GradientCheck

/-! The three tools that run the VCAM source one frame at a time: `vpipe-vcam-bench`, which has every
frame copied to an OUTPUT buffer, `vpipe-vcam-dmabuf-bench`, which sends the framebuffer itself as a
DMA-BUF, and `vpipe-vcam-dmabuf-test`, which looks at the framebuffer after a number of frames. The
cleanup, after which nothing is written, is left out. -/
namespace Vpipe.VcamTools
open Vpipe.Lib.Word Vpipe.Lib.ByteMemory Vpipe.Lib.BufferQueue Vpipe.Lib.Transition Vpipe.Lib.Outcome
open Vpipe.Cv Vpipe.FrameSource Vpipe.M2m Vpipe.Runs Vpipe.Tools Vpipe.Lockstep Vpipe.Exchange
  Vpipe.Bringup Vpipe.Footage
open Vpipe.Runner (framebuffer exportSource)
open Vpipe.Stream (Placed)

def bufferCount : Nat := 4
def width : Nat := 640
def height : Nat := 480
def backendVcamDerived : Nat := 3

structure Config where
  frames : Nat
  framesRange : 1 ≤ frames ∧ frames < 2^32

structure Env where
  opened : OpenEnv := {}
  allocated : Bool := true
  outGranted : Nat := bufferCount
  outSlack : Nat := 0
  outMapped : Bool := true
  capGranted : Nat := bufferCount
  capSlack : Nat := 0
  capMapped : Bool := true
  csv : Bool := true
  start : StartEnv := {}
  exported : Bool := true
  fd : Option Nat := some 3
  mapped : Bool := true
  clock : Nat → Nat
  around : Surroundings

structure CsvRow where
  frame : Nat
  srcSequence : Nat
  enqueueMonotonicNs : Nat
  dequeueMonotonicNs : Nat
  bytesused : Nat
  crc32 : Nat
  deriving DecidableEq, Repr

structure Locals where
  c : Client
  statics : Crc.Statics
  rows : List CsvRow := []
  readings : Nat := 0

def openVcam (env : Env) (k : Kernel) (ident : Nat) : Except Stop Sys := do
  let s ← orFail (vpipeOpen k ident env.opened).toOption
  let s ← orFail (vpipeSetBackend s backendVcamDerived env.allocated).toOption
  let s ← orFail (vpipeSetFormat s .output width height pixFmtGrey)
  orFail (vpipeSetFormat s .capture width height pixFmtGrey)

def streamBoth (env : Env) (s : Sys) : Except Stop Sys := do
  let s ← orFail (queueCapture bufferCount s)
  let s ← orFail (succeeded (vidiocStreamon s .capture {}))
  orFail (succeeded (vidiocStreamon s .output env.start))

def benchRound (env : Env) (index : Nat) (att : Option Attachment) (i : Nat) (r : Locals) :
    Except Stop Locals := do
  let (enqueueNs,readings) := vpipeNowMonotonicNs env.clock r.readings
  let c ← r.c.qbuf env.around .output index att
  let (capDq,c) ← c.dqbuf env.around .capture
  let (dequeueNs,readings) := vpipeNowMonotonicNs env.clock readings
  check (capDq.index < bufferCount)
  let (_,c) ← c.dqbuf env.around .output
  let image := c.s.k.machine.mem.slice ((mappings c.s .capture).getD capDq.index ⟨0,0⟩) capDq.bytesused
  let (crc,statics) := Crc.vpipeCrc32 image r.statics
  let r : Locals := {r with
    statics := statics, readings := readings, rows := r.rows ++
      [⟨i,capDq.sequence,enqueueNs,dequeueNs,capDq.bytesused,crc⟩]}
  let c ← c.qbuf env.around .capture capDq.index none
  .ok {r with c := c}

def benchLoop (env : Env) (index : Nat → Nat) (att : Option Attachment) : Nat → Locals → Except Stop Locals
  | 0, r => .ok r
  | n+1, r => do
    let r ← benchLoop env index att n r
    benchRound env (index n) att n r

/- main of vpipe-vcam-bench up to its cleanup: the locals when it exits with 0. -/
def vcamBench (env : Env) (cfg : Config) (k : Kernel) (ident : Nat) : Except Stop Locals := do
  let s ← openVcam env k ident
  let s ← orFail (vpipeRequestMmapBuffers s .output bufferCount env.outSlack env.outGranted env.outMapped)
  let s ← orFail (vpipeRequestMmapBuffers s .capture bufferCount env.capSlack env.capGranted env.capMapped)
  let s ← orFail (setControl s cidAlgo (s32 algoNone))
  check env.csv
  let s ← streamBoth env s
  benchLoop env (fun i => i % bufferCount) none cfg.frames ⟨{s := s},{},[],0⟩

def vcamDmabufBench (env : Env) (cfg : Config) (k : Kernel) (ident : Nat) : Except Stop Locals := do
  let s ← openVcam env k ident
  let outSizeimage := vpipeGetSizeimage s .output
  check (outSizeimage ≠ 0)
  let s ← orFail (succeeded (vidiocReqbufs s .output 1 .dmabuf 0 env.outGranted))
  let s ← orFail (vpipeRequestMmapBuffers s .capture bufferCount env.capSlack env.capGranted env.capMapped)
  let s ← orFail (setControl s cidAlgo (s32 algoNone))
  check env.csv
  let s ← streamBoth env s
  let ((_,fb),s) ← orFail (exportSource s env.exported env.fd)
  benchLoop env (fun _ => 0) (some ⟨⟨fb,outSizeimage⟩,true⟩) cfg.frames ⟨{s := s},{},[],0⟩

def testRound (env : Env) (i : Nat) (c : Client) : Except Stop Client := do
  let c ← c.qbuf env.around .output (i % bufferCount) none
  let (capDq,c) ← c.dqbuf env.around .capture
  let (_,c) ← c.dqbuf env.around .output
  c.qbuf env.around .capture capDq.index none

def testLoop (env : Env) : Nat → Client → Except Stop Client
  | 0, c => .ok c
  | n+1, c => do
    let c ← testLoop env n c
    testRound env n c

structure Verdict where
  offsetLow : UInt8
  crc32 : Nat
  mismatches : Nat

def vcamDmabufTest (env : Env) (cfg : Config) (k : Kernel) (ident : Nat) : Except Stop Verdict := do
  let s ← openVcam env k ident
  let stride := (vpipeGFmt s.c .output).bytesperline
  let sizeimage := (vpipeGFmt s.c .output).sizeimage
  check (stride ≠ 0 ∧ sizeimage ≠ 0)
  let s ← orFail (vpipeRequestMmapBuffers s .output bufferCount env.outSlack env.outGranted env.outMapped)
  let s ← orFail (vpipeRequestMmapBuffers s .capture bufferCount env.capSlack env.capGranted env.capMapped)
  let s ← orFail (setControl s cidAlgo (s32 algoNone))
  let s ← streamBoth env s
  let c ← testLoop env cfg.frames {s := s}
  let ((_,fb),s) ← orFail (exportSource c.s env.exported env.fd)
  check env.mapped
  let pix := s.k.machine.mem.slice ⟨fb,sizeimage⟩ sizeimage
  let mismatches := GradientCheck.verifyGradient (fun i => pix.getD i 0) width height stride
  .ok ⟨pix.getD 0 0,(Crc.vpipeCrc32 pix {}).1,mismatches⟩

structure Honest (env : Env) : Prop where
  opened : env.opened = {}
  allocated : env.allocated = true
  outGranted : bufferCount ≤ env.outGranted
  outMapped : env.outMapped = true
  capGranted : bufferCount ≤ env.capGranted
  capMapped : env.capMapped = true
  csv : env.csv = true
  start : env.start = {}
  exported : env.exported = true
  fd : env.fd ≠ none
  mapped : env.mapped = true

section SetUp
variable {env : Env} {k : Kernel}

structure Equipped (k : Kernel) (memory : Memory) (out cap : List Nat) (s : Sys) : Prop where
  fit : Fit k .vcamDerived (grey width height) {} s
  outPlaced : Placed (s.queue .output) out memory (grey width height).sizeimage
  unused : Unused (s.queue .output)
  lined : Lined (grey width height) s cap 0
  count : cap.length = bufferCount
  some_ : out ≠ []
  distinct : (out ++ cap).Nodup
  below : ∀ id ∈ out ++ cap, id < s.k.machine.next
  blank : memory = .mmap → ∀ id ∈ out, s.k.machine.mem.bytes id = fun _ => 0

theorem blankFrame {m : Mem} {plane : Plane} (blank : m.bytes plane.block = fun _ => 0) :
    m.slice plane (grey width height).sizeimage = frameOf width height none := by
  simp only [Mem.slice, Mem.get, blank, frameOf]
  rw [List.map_const', List.length_range]
  rfl

theorem streamRolls (honest : Honest env) {memory : Memory} {out cap : List Nat} {s : Sys}
    (equipped : Equipped k memory out cap s) :
    ∃ s' fb, streamBoth env s = .ok s' ∧ Reel ⟨grey width height,memory,out,cap⟩ fb ∧
      Rolling ⟨grey width height,memory,out,cap⟩ fb k.machine.params.vcamDropEvery k.sequence 0 {s := s'} ∧
      s'.k.published = k.published := by
  have full : cap ≠ [] := by
    rw [← List.length_pos_iff, equipped.count]
    decide
  obtain ⟨s1, made1, fit1, lined1, output1, kernel1⟩ := captureLined equipped.fit equipped.lined (Nat.le_refl _)
  rw [equipped.count] at made1
  obtain ⟨s2, made2, fit2, open2, output2, kernel2⟩ := captureStreams fit1 lined1 full
  have output : s2.queue .output = s.queue .output := output2.trans output1
  have kernel : s2.k = s.k := kernel2.trans kernel1
  obtain ⟨v, m, starts, fb, drops, none_, offset, size, bytes⟩ := vcamStarts s2.k.machine
    s2.c.outQ.sizeimage fit2.source (by rw [fit2.format]; decide)
  obtain ⟨s3, made3, serving, board, streamed⟩ := outputStreams fit2
    (by rw [output]; exact equipped.outPlaced) equipped.some_
      (by rw [output]; exact equipped.unused) open2 starts
  have fresh : s2.k.machine.next + 1 ∉ out ++ cap := by
    intro member
    have := equipped.below _ member
    rw [kernel] at this
    omega
  rw [← fb] at fresh
  refine ⟨s3,v.fb,?_,⟨equipped.some_,equipped.distinct,fresh,full⟩,?_,streamed.published⟩
  · simp only [streamBoth, made1, made2, orFail, bind, Except.bind]
    rw [honest.start, made3]
  · constructor
    case serving => exact serving
    case board => exact ⟨cap,board,List.Perm.refl _⟩
    case foreign => rfl
    case algo => rw [streamed.controls]
    case roi => rw [streamed.controls]; exact properDefault
    case sequence => exact streamed.sequence
    case running =>
      rw [streamed.source, streamed.machine, ← fit2.params]
      rw [fit2.format] at size
      exact ⟨fit2.source,⟨v,rfl,rfl,drops,none_,offset⟩,size⟩
    case screen =>
      refine blankFrame ?_
      rw [streamed.machine, bytes]
      exact Function.update_self _ _ _
    case buffers =>
      intro mmap i id found
      have inside := List.mem_of_getElem? found
      refine blankFrame ?_
      rw [streamed.machine, bytes, Function.update_of_ne
        (by rintro rfl; exact fresh (List.mem_append_left _ inside)), kernel]
      exact equipped.blank mmap id inside

theorem vcamOpened (honest : Honest env) (ident : Nat) : ∃ s, openVcam env k ident = .ok s ∧
    Fit k .vcamDerived (grey width height) {} s ∧ ∀ t, s.queue t = Queue.empty blankBuf := by
  have wide : 1 ≤ width ∧ width ≤ 4096 := by decide
  have high : 1 ≤ height ∧ height ≤ 4096 := by decide
  have opened : (vpipeOpen k ident env.opened).toOption = some (openedOn k ident) := by rw [honest.opened]; rfl
  obtain ⟨s1, s2, s3, made1, made2, made3, fit3, empty⟩ := vcamFormatsFit k ident wide high
  refine ⟨s3,?_,fit3,empty⟩
  have backend : (vpipeSetBackend (openedOn k ident) backendVcamDerived true).toOption = some s1 := made1
  simp only [openVcam, opened, honest.allocated, backend, made2, made3, orFail, bind, Except.bind]

theorem sizesGiven {s : Sys} (fit : Fit k .vcamDerived (grey width height) {} s) :
    vpipeGFmt s.c .output = vpipeFillPixFormat width height := by
  rw [vpipeGFmt, Ctx.qData, fit.format]
  rfl

theorem captureEquipped (honest : Honest env) {s s1 : Sys} {memory : Memory} {n : Nat} (two : 2 ≤ n)
    (fit : Fit k .vcamDerived (grey width height) {} s) (empty : s.queue .capture = Queue.empty blankBuf)
    (fit1 : Fit k .vcamDerived (grey width height) {} s1) (output : Allocated .output memory s s1 n) :
    ∃ s2 s3 out cap, vpipeRequestMmapBuffers s1 .capture bufferCount env.capSlack env.capGranted env.capMapped =
      some s2 ∧
      setControl s2 cidAlgo (s32 algoNone) = some s3 ∧ out.length = n ∧ Equipped k memory out cap s3 := by
  have empty1 : s1.queue .capture = Queue.empty blankBuf := (output.other .capture (by decide)).trans empty
  obtain ⟨s2, made2, fit2, capture⟩ :=
    reqbufsFirst fit1 empty1 .mmap env.capSlack (by decide) honest.capGranted
  obtain ⟨s3, made3, fit3, queues3, kernel3⟩ := controlFits fit2 (algoSet (.inl rfl) _)
  have queue : ∀ t, s3.queue t = s2.queue t := fun t => by simp only [Sys.queue, queues3]
  have outQueue : s3.queue .output = s1.queue .output :=
    (queue .output).trans (capture.other .output (by decide))
  have next := capture.next
  rw [output.next] at next
  refine ⟨s2,s3,List.range' s.k.machine.next n,List.range' s1.k.machine.next bufferCount,?_,made3,
    List.length_range' ..,?_⟩
  · simp only [vpipeRequestMmapBuffers, made2, honest.capMapped, if_true, bind, Option.bind]
  · constructor
    case fit => exact fit3
    case outPlaced =>
      have placed := output.placed
      rw [Ctx.qData, fit.format] at placed
      rw [outQueue]
      exact placed
    case unused =>
      rw [outQueue]
      exact output.unused
    case lined => exact allocatedLined fit1 capture (queue .capture)
    case count => exact List.length_range' ..
    case some_ =>
      rw [← List.length_pos_iff, List.length_range']
      omega
    case distinct =>
      rw [output.next, List.nodup_append]
      refine ⟨List.nodup_range' ..,List.nodup_range' ..,fun a inA b inB => ?_⟩
      rw [List.mem_range'_1] at inA inB
      omega
    case below =>
      intro id member
      rw [kernel3, next]
      rw [List.mem_append, List.mem_range'_1, List.mem_range'_1, output.next] at member
      omega
    case blank =>
      intro _ id inside
      rw [kernel3, capture.bytes id (by rw [output.next]; rw [List.mem_range'_1] at inside; exact inside.2)]
      exact output.blank id inside

theorem exportRolls {p : Bench} {fb every first n : Nat} {c : Client} (honest : Honest env)
    (rolling : Rolling p fb every first n c) :
    ∃ fd s', exportSource c.s env.exported env.fd = some ((fd,fb),s') ∧
      Rolling p fb every first n {c with s := s'} ∧ s'.k.published = c.s.k.published := by
  obtain ⟨fd, given⟩ := Option.ne_none_iff_exists'.mp honest.fd
  obtain ⟨v, priv, fb_, rest⟩ := rolling.running.priv
  let m := vcamFbGet (c.s.k.machine.note (.call .exportDmabuf c.s.c.src.ident)) v.fb
  have made : vpipeExportSrcDmabuf c.s true (some fd) = (.ok fd,c.s.setMachine m) := by
    simp only [vpipeExportSrcDmabuf, vpipeSourceExportDmabuf, rolling.running.backend, vcamExportDmabuf, priv]
    rfl
  have serving := rolling.serving
  have sane := saneStep serving.sane (.exportSrcDmabuf true (some fd))
  have exact_ := Pairing.outputExactStep (e := .exportSrcDmabuf true (some fd)) serving.sane
    (by simp [StartClean]) serving.output
  rw [Sys.step, made] at sane exact_
  have size : p.format.sizeimage ≤ (m.fbs fb).size := by
    have got : m.fbs v.fb = {c.s.k.machine.fbs v.fb with refcount := (c.s.k.machine.fbs v.fb).refcount + 1} :=
      Function.update_self _ _ _
    rw [← fb_, got, fb_]
    exact rolling.running.size
  refine ⟨fd,c.s.setMachine m,?_,{rolling with
    serving := {serving with sane := sane, output := exact_}
    running := ⟨rolling.running.backend,⟨v,priv,fb_,rest⟩,size⟩},rfl⟩
  simp only [exportSource, honest.exported, given, made, framebuffer, priv, fb_]

end SetUp

def imageOf (every : Nat) (there : Nat → Nat → Bool) (i : Nat) : List UInt8 :=
  frameOf width height (lastDrawn every (there i) (i + 1))

structure Reported (env : Env) (k : Kernel) (there : Nat → Nat → Bool) (n : Nat) (r : Locals) : Prop where
  rows : r.rows = (List.range n).map (fun i => ⟨i,u32 (k.sequence + i + 1),env.clock (2 * i),
    env.clock (2 * i + 1),width * height,Crc.frameCrc (imageOf k.machine.params.vcamDropEvery there i)⟩)
  published : ∃ told : List Publication, r.c.s.k.published = k.published ++ told ∧
    told.map (fun x => (x.entry.seq,x.entry.crc32)) =
      (List.range n).map (fun i => (k.sequence + i + 1,
        Crc.frameCrc (imageOf k.machine.params.vcamDropEvery there i)))

structure Going (env : Env) (k : Kernel) (p : Bench) (fb n : Nat) (r : Locals) : Prop where
  rolling : Rolling p fb k.machine.params.vcamDropEvery k.sequence n r.c
  statics : r.statics.Sound
  readings : r.readings = 2 * n
  reported : Reported env k (sharing p) n r

section Bench
variable {env : Env} {k : Kernel} {p : Bench} {fb n : Nat} {r : Locals}

theorem benchKeeps (reel : Reel p fb) (format : p.format = grey width height)
    (count : p.cap.length = bufferCount) (going : Going env k p fb n r) (room : k.sequence + n + 1 < 2^64)
    (short : n + 1 < 2^32) :
    Returns (benchRound env (turn p n) (offered p fb) n r) (Going env k p fb (n + 1)) := by
  obtain ⟨c1, dq, c2, used, c3, c4, queued, taken, freed, returned, rolling, shot⟩ :=
    rolls reel env.around going.rolling room short
  obtain ⟨dst, found⟩ := shot.index
  have below : dq.index < bufferCount := count ▸ (List.getElem?_eq_some_iff.mp found).1
  have image : c3.s.k.machine.mem.slice ((mappings c3.s .capture).getD dq.index ⟨0,0⟩) dq.bytesused =
      imageOf k.machine.params.vcamDropEvery (sharing p) n := by
    rw [shot.bytesused, mappedImage shot.serving found, shot.image dst found, format]
    rfl
  obtain ⟨crc, sound⟩ := Crc.crc32Bits going.statics
    (c3.s.k.machine.mem.slice ((mappings c3.s .capture).getD dq.index ⟨0,0⟩) dq.bytesused)
  refine returnsThen queued (returnsThen taken
    (checkThen (by simp [below]) (returnsThen freed (returnsThen returned (returnsOk ⟨rolling,sound,?_,?_⟩)))))
  · show r.readings + 1 + 1 = _
    rw [going.readings]
    rfl
  · obtain ⟨told, before, entries⟩ := going.reported.published
    obtain ⟨buffer, e, published, seq, entryCrc⟩ := shot.published
    rw [format] at entryCrc
    constructor
    · rw [List.range_succ, List.map_append, ← going.reported.rows, List.map_singleton]
      refine congrArg (fun row => r.rows ++ [row]) ?_
      show CsvRow.mk n _ (env.clock r.readings) (env.clock (r.readings + 1)) _
          (Crc.vpipeCrc32 (c3.s.k.machine.mem.slice
        ((mappings c3.s .capture).getD dq.index ⟨0,0⟩) dq.bytesused) r.statics).1 = _
      rw [crc, image, going.readings, shot.sequence, shot.bytesused, format]
      rfl
    · refine ⟨told ++ [⟨buffer,e⟩],by rw [published, before, List.append_assoc],?_⟩
      rw [List.map_append, entries, List.range_succ, List.map_append, List.map_singleton,
        List.map_singleton, seq, entryCrc]
      rfl

theorem benchLoopKeeps (index : Nat → Nat) (reel : Reel p fb) (format : p.format = grey width height)
    (count : p.cap.length = bufferCount) (going : Going env k p fb 0 r) {frames : Nat}
    (room : k.sequence + frames < 2^64) (short : frames < 2^32)
    (turns : ∀ i, index i = turn p i) {n : Nat} (within : n ≤ frames) :
    Returns (benchLoop env index (offered p fb) n r) (Going env k p fb n) := by
  induction n with
  | zero => exact returnsOk going
  | succ n ih =>
    refine returnsBind (ih (by omega)) (fun _ so => ?_)
    rw [turns]
    exact benchKeeps reel format count so (by omega) (by omega)

def sameBuffer (n i : Nat) : Bool := i % bufferCount = n % bufferCount
def everyFrame (_ _ : Nat) : Bool := true

theorem copyBench (honest : Honest env) (cfg : Config) (ident : Nat) (room : k.sequence + cfg.frames < 2^64) :
    Returns (vcamBench env cfg k ident) (Reported env k sameBuffer cfg.frames) := by
  obtain ⟨s, opened, fit, empty⟩ := vcamOpened (k := k) honest ident
  obtain ⟨s1, made1, fit1, output⟩ :=
    reqbufsFirst fit (empty .output) .mmap env.outSlack (by decide) honest.outGranted
  obtain ⟨s2, s3, out, cap, made2, made3, length, equipped⟩ :=
    captureEquipped honest (by decide) fit (empty .capture) fit1 output
  obtain ⟨s4, fb, made4, reel, rolling, published⟩ := streamRolls honest equipped
  have going : Going env k ⟨grey width height,.mmap,out,cap⟩ fb 0 ⟨{s := s4},{},[],0⟩ :=
    ⟨rolling,by intro ready; contradiction,rfl,⟨rfl,⟨[],by rw [published, List.append_nil],rfl⟩⟩⟩
  obtain ⟨r, ended, last⟩ := benchLoopKeeps (fun i => i % bufferCount) reel rfl equipped.count going room
    cfg.framesRange.2 (fun i => by simp only [turn, length]) (Nat.le_refl _)
  have same : sharing ⟨grey width height,.mmap,out,cap⟩ = sameBuffer := by
    funext i j
    simp only [sharing, sameBuffer, length]
  refine returnsThen opened (orFailThen ?_ (orFailThen made2 (orFailThen made3 (checkThen honest.csv
    (returnsThen made4 ⟨r,ended,same ▸ last.reported⟩)))))
  simp only [vpipeRequestMmapBuffers, made1, honest.outMapped, if_true, bind, Option.bind]

theorem zeroCopyBench (honest : Honest env) (cfg : Config) (ident : Nat)
    (room : k.sequence + cfg.frames < 2^64) :
    Returns (vcamDmabufBench env cfg k ident) (Reported env k everyFrame cfg.frames) := by
  obtain ⟨s, opened, fit, empty⟩ := vcamOpened (k := k) honest ident
  have granted := honest.outGranted
  obtain ⟨s1, made1, fit1, output⟩ := reqbufsGrants fit (t := .output) (n := 2)
    (by rw [empty]; exact ⟨rfl,rfl,rfl⟩) (by simp [empty, Queue.empty]) .dmabuf env.outGranted 0 Nat.one_ne_zero
    (by unfold bufferCount at granted; simp only [Nat.one_lt_ofNat, if_true]; omega) (by decide)
  obtain ⟨s2, s3, out, cap, made2, made3, length, equipped⟩ :=
    captureEquipped honest (by decide) fit (empty .capture) fit1 output
  obtain ⟨s4, fb, made4, reel, rolling, published⟩ := streamRolls honest equipped
  obtain ⟨fd, s5, made5, rolling5, published5⟩ := exportRolls honest rolling
  have going : Going env k ⟨grey width height,.dmabuf,out,cap⟩ fb 0 ⟨{s := s5},{},[],0⟩ :=
    ⟨rolling5,by intro ready; contradiction,rfl,⟨rfl,⟨[],by rw [published5, published, List.append_nil],rfl⟩⟩⟩
  obtain ⟨r, ended, last⟩ := benchLoopKeeps (fun _ => 0) reel rfl equipped.count going room
    cfg.framesRange.2 (fun i => by simp only [turn]) (Nat.le_refl _)
  have same : sharing ⟨grey width height,.dmabuf,out,cap⟩ = everyFrame := by
    funext i j
    simp only [sharing, everyFrame]
  have size : vpipeGetSizeimage s .output = width * height := by
    rw [vpipeGetSizeimage, sizesGiven fit]
    rfl
  refine returnsThen opened ?_
  rw [size]
  exact checkThen (by decide) (orFailThen made1 (orFailThen made2 (orFailThen made3 (checkThen honest.csv
    (returnsThen made4 (orFailThen made5 ⟨r,ended,same ▸ last.reported⟩))))))

end Bench

def CsvRow.content (row : CsvRow) : Nat × Nat × Nat × Nat := (row.frame,row.srcSequence,row.bytesused,row.crc32)

theorem repeatedBuffer {every i : Nat} (drop : dropped every (i + bufferCount) = true) :
    imageOf every sameBuffer (i + bufferCount) = imageOf every sameBuffer i := by
  have same : sameBuffer (i + bufferCount) = sameBuffer i := by
    funext j
    simp [sameBuffer]
  have skip : ∀ n, sameBuffer i n = false ∨ dropped every n = true →
      lastDrawn every (sameBuffer i) (n + 1) = lastDrawn every (sameBuffer i) n := by
    intro n passed
    rw [lastDrawn, if_neg]
    rintro ⟨here, drawn⟩
    rcases passed with away | gone
    · rw [away] at here
      contradiction
    · exact drawn gone
  have other : ∀ d, 1 ≤ d → d < bufferCount → sameBuffer i (i + d) = false := by
    intro d positive below
    have differ : (i + d) % bufferCount ≠ i % bufferCount := by
      unfold bufferCount at below ⊢
      omega
    simp [sameBuffer, differ]
  rw [imageOf, imageOf, same]
  show frameOf width height (lastDrawn every (sameBuffer i) (i + 4 + 1)) = _
  rw [skip (i + 4) (.inr drop), skip (i + 3) (.inl (other 3 (by decide) (by decide))),
    skip (i + 2) (.inl (other 2 (by decide) (by decide))),
      skip (i + 1) (.inl (other 1 (by decide) (by decide)))]

theorem repeatedFrame {every i : Nat} (drop : dropped every (i + 1) = true) :
    imageOf every everyFrame (i + 1) = imageOf every everyFrame i := by
  rw [imageOf, imageOf, lastDrawn, if_neg (by simp [drop])]
  rfl

theorem reportedRow {env : Env} {k : Kernel} {there : Nat → Nat → Bool} {n : Nat} {r : Locals}
    (reported : Reported env k there n r) {i : Nat} (inside : i < n) :
    ∃ row, r.rows[i]? = some row ∧ row.crc32 =
      Crc.frameCrc (imageOf k.machine.params.vcamDropEvery there i) := by
  refine ⟨⟨i,u32 (k.sequence + i + 1),env.clock (2 * i),env.clock (2 * i + 1),width * height,
    Crc.frameCrc (imageOf k.machine.params.vcamDropEvery there i)⟩,?_,rfl⟩
  rw [reported.rows, List.getElem?_map, List.getElem?_range inside, Option.map_some]

def busyEnv : Env where
  clock := fun n => 5 * n
  around := ⟨fun n => if n % 4 = 1 then [.job 2] else [],fun n => n % 2⟩

theorem busyHonest : Honest busyEnv :=
  ⟨rfl,rfl,Nat.le_refl _,rfl,Nat.le_refl _,rfl,rfl,rfl,rfl,by simp [busyEnv],rfl⟩

def droppingKernel : Kernel := Kernel.boot (fun n => n + 1) {vcamDropEvery := 3}

theorem testKeeps {env : Env} {p : Bench} {fb every first n : Nat} {c : Client} (reel : Reel p fb)
    (memory : p.memory = .mmap) (count : p.out.length = bufferCount) (rolling : Rolling p fb every first n c)
    (room : first + n + 1 < 2^64) (short : n + 1 < 2^32) :
    Returns (testRound env n c) (Rolling p fb every first (n + 1)) := by
  obtain ⟨c1, dq, c2, used, c3, c4, queued, taken, freed, returned, rolling', _⟩ :=
    rolls reel env.around rolling room short
  have place : turn p n = n % bufferCount := by simp only [turn, memory, count]
  have none_ : offered p fb = none := by simp only [offered, memory]
  rw [place, none_] at queued
  exact returnsThen queued (returnsThen taken (returnsThen freed ⟨c4,returned,rolling'⟩))

theorem testLoopKeeps (env : Env) {p : Bench} {fb every first : Nat} {c : Client} (reel : Reel p fb)
    (memory : p.memory = .mmap) (count : p.out.length = bufferCount) (rolling : Rolling p fb every first 0 c)
    {frames : Nat} (room : first + frames < 2^64) (short : frames < 2^32) {n : Nat} (within : n ≤ frames) :
    Returns (testLoop env n c) (Rolling p fb every first n) := by
  induction n with
  | zero => exact returnsOk rolling
  | succ n ih =>
    exact returnsBind (ih (by omega)) (fun _ so => testKeeps reel memory count so (by omega) (by omega))

theorem verifiedFrame (shown : Option Nat) : GradientCheck.verifyGradient
    (fun i => (frameOf width height shown).getD i 0) width height width = 0 ↔ shown ≠ none := by
  rw [GradientCheck.verifiedShade (Nat.le_refl _) (by decide)]
  cases shown with
  | none =>
    refine ⟨fun shows_ => ?_,fun no => absurd rfl no⟩
    have dark : ∀ i, (frameOf width height none).getD i 0 = 0 := fun i => by
      rw [frameOf, List.getD_eq_getElem?_getD, List.getElem?_replicate]
      split <;> rfl
    have second := shows_ 1 0 (by decide) (by decide)
    simp only [dark] at second
    revert second
    decide
  | some n =>
    refine ⟨fun _ => by simp,fun _ => ?_⟩
    have shows_ : GradientCheck.ShowsShade width height width
        (fun i => (frameOf width height (some n)).getD i 0) n := by
      intro x y inRow inFrame
      have inside : y * width + x < width * height := by
        unfold width height at *
        omega
      have column : (y * width + x) % width = x := by
        unfold width at *
        omega
      have row : (y * width + x) / width = y := by
        unfold width at *
        omega
      simp only [frameOf, List.getD_eq_getElem?_getD, List.getElem?_map, List.getElem?_range inside,
        Option.map_some, Option.getD_some, column, row]
    exact GradientCheck.showsOwn (by decide) (by decide) shows_

theorem testShows {env : Env} {k : Kernel} (cfg : Config) (ident : Nat) (honest : Honest env)
    (room : k.sequence + cfg.frames < 2^64) {shown : Option Nat}
    (last : lastDrawn k.machine.params.vcamDropEvery (fun _ => true) cfg.frames = shown) :
    Returns (vcamDmabufTest env cfg k ident) (fun v =>
      v.crc32 = (Crc.vpipeCrc32 (frameOf width height shown) {}).1 ∧
      v.mismatches = GradientCheck.verifyGradient (fun i => (frameOf width height shown).getD i 0) width
        height width) := by
  obtain ⟨s, opened, fit, empty⟩ := vcamOpened (k := k) honest ident
  obtain ⟨s1, made1, fit1, output⟩ :=
    reqbufsFirst fit (empty .output) .mmap env.outSlack (by decide) honest.outGranted
  obtain ⟨s2, s3, out, cap, made2, made3, length, equipped⟩ :=
    captureEquipped honest (by decide) fit (empty .capture) fit1 output
  obtain ⟨s4, fb, made4, reel, rolling, _⟩ := streamRolls honest equipped
  obtain ⟨c, ended, rolled⟩ := testLoopKeeps env reel rfl length rolling room cfg.framesRange.2 (Nat.le_refl _)
  obtain ⟨fd, s5, made5, exported, _⟩ := exportRolls honest rolled
  have screen : s5.k.machine.mem.slice ⟨fb,width * height⟩ (width * height) = frameOf width height shown :=
    last ▸ exported.screen
  have stride : (vpipeGFmt s.c .output).bytesperline = width := by
    rw [sizesGiven fit]
    rfl
  have size : (vpipeGFmt s.c .output).sizeimage = width * height := by
    rw [sizesGiven fit]
    rfl
  refine returnsThen opened ?_
  rw [stride, size]
  refine checkThen (by decide) (orFailThen ?_
    (orFailThen made2 (orFailThen made3 (returnsThen made4
      (returnsThen ended (orFailThen made5 (checkThen honest.mapped (returnsOk ?_))))))))
  · simp only [vpipeRequestMmapBuffers, made1, honest.outMapped, if_true, bind, Option.bind]
  · rw [screen]
    exact ⟨rfl,rfl⟩

/-- The test ends with the checksum of the last pattern drawn. It passes unless nothing was drawn:
when every frame is dropped, or the only one is, as the first frame always is when frames are
dropped at all. -/
theorem testPasses (env : Env) (cfg : Config) (k : Kernel) (ident : Nat) (honest : Honest env)
    (room : k.sequence + cfg.frames < 2^64) :
    ∃ v, vcamDmabufTest env cfg k ident = .ok v ∧
      v.crc32 = Crc.frameCrc (frameOf width height
        (lastDrawn k.machine.params.vcamDropEvery (fun _ => true) cfg.frames)) ∧
      (v.mismatches = 0 ↔ k.machine.params.vcamDropEvery = 0 ∨
        (2 ≤ k.machine.params.vcamDropEvery ∧ 2 ≤ cfg.frames)) := by
  have fresh : Crc.Statics.Sound {} := by
    intro ready
    contradiction
  have drawn := drawnIff k.machine.params.vcamDropEvery cfg.frames
  generalize last : lastDrawn k.machine.params.vcamDropEvery (fun _ => true) cfg.frames = shown at drawn
  obtain ⟨v, ended, crc, mismatches⟩ := testShows cfg ident honest room last
  refine ⟨v,ended,crc.trans (Crc.crc32Bits fresh _).1,?_⟩
  rw [mismatches, verifiedFrame, drawn]
  have some_ := cfg.framesRange.1
  omega

theorem busyTestFails : Honest busyEnv ∧
    ∃ v, vcamDmabufTest busyEnv ⟨1,by decide⟩ droppingKernel 0 = .ok v ∧
      v.crc32 = Crc.frameCrc (frameOf width height (lastDrawn 3 (fun _ => true) 1)) ∧
      (v.mismatches = 0 ↔ 3 = 0 ∨ (2 ≤ 3 ∧ 2 ≤ 1)) :=
  ⟨busyHonest,testPasses busyEnv ⟨1,by decide⟩ droppingKernel 0 busyHonest (by decide)⟩

end Vpipe.VcamTools
