import Vpipe.Exchange

/-! What a VCAM source leaves in memory, frame by frame, when one tool sends its frames through the
device. A frame that `vcam_drop_every` drops is not drawn, but its buffer is sent all the same: with
whatever was drawn there last. -/
namespace Vpipe.Footage
open Vpipe.Lib.Word Vpipe.Lib.ByteMemory Vpipe.Lib.BufferQueue Vpipe.Lib.Transition
open Vpipe.Cv Vpipe.FrameSource Vpipe.Gradient Vpipe.MetaRing Vpipe.M2m Vpipe.Moves Vpipe.Discipline Vpipe.Runs
open Vpipe.Tools Vpipe.Lockstep Vpipe.Exchange
open Vpipe.Stream (Picture)

def dropped (every i : Nat) : Bool := every ≠ 0 ∧ i % every = 0

def drawnBefore (every : Nat) : Nat → Nat
  | 0 => 0
  | n+1 => if dropped every n then drawnBefore every n else drawnBefore every n + 1

def lastDrawn (every : Nat) (there : Nat → Bool) : Nat → Option Nat
  | 0 => none
  | n+1 => if there n ∧ ¬ dropped every n then some (drawnBefore every n) else lastDrawn every there n

def frameOf (width height : Nat) : Option Nat → List UInt8
  | none => List.replicate (width * height) 0
  | some n => (List.range (width * height)).map (fun i => shade (i % width) (i / width) n)

theorem drawnBound (every n : Nat) : drawnBefore every n ≤ n := by
  induction n with
  | zero => exact Nat.le_refl _
  | succ n ih =>
    rw [drawnBefore]
    split <;> omega

theorem alwaysDrawn (n : Nat) : drawnBefore 0 n = n := by
  induction n with
  | zero => rfl
  | succ n ih => rw [drawnBefore, ih]; rfl

theorem lastAlways (there : Nat → Bool) {n : Nat} (here : there n = true) :
    lastDrawn 0 there (n + 1) = some n := by
  rw [lastDrawn, alwaysDrawn]
  simp [here, dropped]

theorem drawnIff (every n : Nat) : lastDrawn every (fun _ => true) n ≠ none ↔
    (every = 0 ∧ 1 ≤ n) ∨ (2 ≤ every ∧ 2 ≤ n) := by
  induction n with
  | zero => simp [lastDrawn]
  | succ n ih =>
    rw [lastDrawn]
    split
    · rename_i drawn
      simp only [dropped, decide_eq_true_eq, not_and_or, true_and] at drawn
      refine ⟨fun _ => ?_,fun _ => by simp⟩
      rcases Nat.lt_or_ge every 2 with small | large
      · have cases_ : every = 0 ∨ every = 1 := by omega
        rcases cases_ with rfl | rfl
        · omega
        · simp [Nat.mod_one] at drawn
      · rcases Nat.eq_zero_or_pos n with rfl | later
        · simp at drawn
          omega
        · omega
    · rename_i skipped
      simp only [dropped, decide_eq_true_eq, true_and, not_not] at skipped
      rw [ih]
      obtain ⟨some_, multiple⟩ := skipped
      constructor
      · omega
      · rintro (⟨zero, _⟩ | ⟨large, _⟩)
        · contradiction
        · refine .inr ⟨large,?_⟩
          rcases Nat.lt_or_ge n every with below | above
          · rw [Nat.mod_eq_of_lt below] at multiple
            omega
          · omega

theorem framebufferShows (m : Machine) {desc : FrameDesc} (v : VcamPriv) (dst : Plane)
    (row : desc.width ≤ desc.stride) (total : desc.height * desc.stride < 2^32) {x y : Nat}
    (inRow : x < desc.width) (inFrame : y < desc.height) :
    (vcamDraw m desc v dst).bytes v.fb (y * desc.stride + x : Nat) = shade x y v.patternOffset := by
  have painted := vcamGradientPixels row total (fbPlane m v.fb) v.patternOffset m.mem inRow inFrame
  unfold vcamDraw
  simp only
  split
  · rename_i apart
    have kept := writesBlock (writesCopy (Ne.symm apart) 0 0 (desc.stride * desc.height)
      (vcamFillGradient (fbPlane m v.fb) desc.width desc.height desc.stride v.patternOffset m.mem))
      (show v.fb ≠ dst.block from Ne.symm apart)
    rw [kept]
    exact painted
  · exact painted

structure Running (fb every size n : Nat) (src : Source) (m : Machine) : Prop where
  backend : src.backend = .vcamDerived
  priv : ∃ v, src.priv = .vcam v ∧ v.fb = fb ∧ v.dropEveryN = every ∧ v.framesProduced = n ∧
    v.patternOffset = drawnBefore every n
  size : size ≤ (m.fbs fb).size

structure Drew (every n fb : Nat) (format : QData) (dst : Plane) (before after : Mem) : Prop where
  skipped : dropped every n = true → after = before
  framebuffer : dropped every n = false → Picture format after fb (drawnBefore every n)
  plane : dropped every n = false → Picture format after dst.block (drawnBefore every n)
  elsewhere : ∀ block, block ≠ fb → block ≠ dst.block → after.bytes block = before.bytes block

theorem nextRuns {fb every n : Nat} {format : QData} (geometry : Geometry format) {m : Machine} {src : Source}
    (running : Running fb every format.sizeimage n src m) (short : n + 1 < 2^32) (dst : Plane)
    {desc : FrameDesc}
    (shape : desc.width = format.width ∧ desc.height = format.height ∧ desc.stride = format.bytesperline) :
    Running fb every format.sizeimage (n + 1) (vpipeSourceNextFrame m src (some dst) desc).src
      (vpipeSourceNextFrame m src (some dst) desc).machine ∧
    Drew every n fb format dst m.mem (vpipeSourceNextFrame m src (some dst) desc).machine.mem := by
  obtain ⟨v, priv, rfl, rfl, rfl, offset⟩ := running.priv
  obtain ⟨size, small⟩ := geometryTotal geometry
  obtain ⟨⟨wide, _⟩, ⟨high, _⟩, line, _, _⟩ := geometry
  obtain ⟨width, height, stride⟩ := shape
  let call : Call := ⟨m,some dst,desc,by rw [width, stride, line],by rw [height, stride, size]; exact small⟩
  have room : desc.stride * desc.height ≤ (m.fbs v.fb).size := by
    rw [stride, height, Nat.mul_comm, size]
    exact running.size
  have answers : Answers m src (desc.stride * desc.height) := by
    simpa [Answers, running.backend, priv] using room
  have given : (call.run src).ret = none := nextFrameAnswers dst answers
    ⟨by rw [width]; exact Nat.ne_of_gt wide,by rw [height]; exact Nat.ne_of_gt high,
      by rw [stride, line]; exact Nat.ne_of_gt wide⟩
  obtain ⟨ret, _, answer⟩ := runOp call src
  have opGiven := ret.symm.trans given
  obtain ⟨after, _, mem, fbs⟩ := answer opGiven
  have next : Next _ src (some dst) _ (call.op src) := nextSource _ _ _ _
  change Running _ _ _ _ (call.run src).src (call.run src).machine ∧ Drew _ _ _ _ _ _ (call.run src).machine.mem
  rw [after, mem]
  have drawn := drawnBound v.dropEveryN v.framesProduced
  generalize call.op src = r at next opGiven fbs
  cases next with
  | fixture other => simp [running.backend] at other
  | synthetic other _ => simp [running.backend] at other
  | vcam _ next =>
    cases next with
    | refused _ => contradiction
    | dropped held _ drop =>
      obtain rfl : v = _ := by simpa [priv] using held
      have skip : dropped v.dropEveryN v.framesProduced = true := by simpa [dropped] using drop
      refine ⟨⟨running.backend,⟨_,rfl,rfl,rfl,u32Of short,?_⟩,by rw [fbs]; exact running.size⟩,
        ⟨fun _ => rfl,?_,?_,fun _ _ _ => rfl⟩⟩
      · rw [drawnBefore, if_pos skip]
        exact offset
      all_goals
        intro keep
        rw [skip] at keep
        contradiction
    | drawn held mapped keep _ _ =>
      obtain rfl : v = _ := by simpa [priv] using held
      cases mapped
      have kept : dropped v.dropEveryN v.framesProduced = false := by simpa [dropped] using keep
      refine ⟨⟨running.backend,⟨_,rfl,rfl,rfl,u32Of short,?_⟩,by rw [fbs]; exact running.size⟩,⟨?_,?_,?_,?_⟩⟩
      · rw [drawnBefore, if_neg (by rw [kept]; simp)]
        show u32 (v.patternOffset + 1) = _
        rw [offset, u32Of (by omega)]
      · intro skip
        rw [kept] at skip
        contradiction
      · intro _ x y inRow inFrame
        rw [← offset, ← stride]
        exact framebufferShows _ v dst call.row call.total (width ▸ inRow) (height ▸ inFrame)
      · intro _ x y inRow inFrame
        rw [← offset, ← stride]
        exact vcamDrawShows _ v dst call.row call.total x y (width ▸ inRow) (height ▸ inFrame)
      · intro block notFb notDst
        exact vcamDrawElsewhere _ _ notFb notDst

theorem pictureFrame {d : QData} (geometry : Geometry d) {m : Mem} {plane : Plane} {n : Nat}
    (picture : Picture d m plane.block n) : m.slice plane d.sizeimage = frameOf d.width d.height (some n) := by
  have wide := geometry.width.1
  rw [frameOf, ← geometry.image]
  apply List.ext_getElem?
  intro i
  rw [List.getElem?_map]
  rcases Nat.lt_or_ge i d.sizeimage with inside | outside
  · have inRow : i % d.width < d.width := Nat.mod_lt _ wide
    have inFrame : i / d.width < d.height :=
      Nat.div_lt_of_lt_mul (by rw [geometry.image] at inside; exact inside)
    have pixel := picture _ _ inRow inFrame
    rw [geometry.line, Nat.div_add_mod'] at pixel
    rw [sliceAt _ _ inside, List.getElem?_range inside, pixel, Option.map_some]
  · rw [List.getElem?_eq_none (by rw [sliceLength]; exact outside),
      List.getElem?_eq_none (by simpa using outside)]
    rfl

theorem unprocessed (width threshold : Nat) (roi : Roi) (image : List UInt8) :
    processedImage width algoNone threshold roi image = image := by
  apply List.ext_getElem?
  intro i
  rw [processedImage, List.getElem?_map]
  rcases Nat.lt_or_ge i image.length with inside | outside
  · rw [List.getElem?_range inside, List.getElem?_eq_getElem inside]
    simp [algoNone, algoThreshold, inside]
  · rw [List.getElem?_eq_none (by simpa using outside), List.getElem?_eq_none outside]
    rfl

def turn (p : Bench) (n : Nat) : Nat :=
  match p.memory with
  | .mmap => n % p.out.length
  | .dmabuf => 0

def offered (p : Bench) (fb : Nat) : Option Attachment :=
  match p.memory with
  | .mmap => none
  | .dmabuf => some ⟨⟨fb,p.format.sizeimage⟩,true⟩

def sharing (p : Bench) (n i : Nat) : Bool :=
  match p.memory with
  | .mmap => i % p.out.length = n % p.out.length
  | .dmabuf => true

structure Reel (p : Bench) (fb : Nat) : Prop where
  some_ : p.out ≠ []
  distinct : (p.out ++ p.cap).Nodup
  fresh : fb ∉ p.out ++ p.cap
  full : p.cap ≠ []

structure Rolling (p : Bench) (fb every first n : Nat) (c : Client) : Prop where
  serving : Serving p c.s
  board : ∃ order, boardOf c.s = ⟨[],[],order,[]⟩ ∧ order.Perm p.cap
  foreign : c.foreign = []
  algo : c.s.c.controls.algoId = algoNone
  roi : Proper c.s.c.controls.roi
  sequence : c.s.k.sequence = first + n
  running : Running fb every p.format.sizeimage n c.s.c.src c.s.k.machine
  screen : c.s.k.machine.mem.slice ⟨fb,p.format.sizeimage⟩ p.format.sizeimage =
    frameOf p.format.width p.format.height (lastDrawn every (fun _ => true) n)
  buffers : p.memory = .mmap → ∀ i id, p.out[i]? = some id →
    c.s.k.machine.mem.slice ⟨id,p.format.sizeimage⟩ p.format.sizeimage =
      frameOf p.format.width p.format.height (lastDrawn every (fun j => j % p.out.length = i) n)

section Round
variable {p : Bench} {fb every first n : Nat} {c : Client}

theorem offers (reel : Reel p fb) (rolling : Rolling p fb every first n c) :
    ∃ id a, Offer p c (turn p n) id (offered p fb) a ∧
      (p.memory = .mmap → a.plane.block = id) ∧ (p.memory = .dmabuf → a.plane.block = fb) := by
  have positive : 0 < p.out.length := List.length_pos_iff.mpr reel.some_
  have below : turn p n < p.out.length := by
    unfold turn
    split
    · exact Nat.mod_lt _ positive
    · exact positive
  obtain ⟨id, found⟩ : ∃ id, p.out[turn p n]? = some id := ⟨_,List.getElem?_eq_getElem below⟩
  have inside := List.mem_of_getElem? found
  obtain ⟨kind, length⟩ := rolling.serving.outPlaced.kind id inside
  have known : Order.Known c.s.c.controls.algoId := .inl rolling.algo
  have free : ∀ block, block ∉ c.foreign := fun block => by rw [rolling.foreign]; simp
  cases memory : p.memory with
  | mmap =>
    obtain ⟨block, large, mapped⟩ := rolling.serving.outPlaced.plane memory id inside
    refine ⟨id,⟨((c.s.queue .output).buf id).plane,((c.s.queue .output).buf id).mapped⟩,
      ⟨found,?_,mapped,large,free _,?_,known⟩,fun _ => block,fun other => by contradiction⟩
    · simp only [attach, kind.trans memory, offered, memory]
    · rw [block]
      exact fun member => (List.nodup_append.mp reel.distinct).2.2 id inside id member rfl
  | dmabuf =>
    refine ⟨id,⟨⟨fb,p.format.sizeimage⟩,true⟩,⟨found,?_,rfl,Nat.le_refl _,free _,?_,known⟩,
      fun other => by contradiction,fun _ => rfl⟩
    · simp only [attach, kind.trans memory, offered, memory, length, Nat.lt_irrefl, if_false]
    · exact fun member => reel.fresh (List.mem_append_right _ member)

theorem sourceAsked (s : Sys) (id : Nat) {a : Attachment} (mapped : a.mapped = true) :
    ∃ desc : FrameDesc, sourceCall (enqueuedAt s .output id a) id =
        vpipeSourceNextFrame s.k.machine.ktimeGetNs.2 s.c.src (some a.plane) desc ∧
      desc.width = s.c.outQ.width ∧ desc.height = s.c.outQ.height ∧ desc.stride = s.c.outQ.bytesperline := by
  refine ⟨{((s.queue .output).buf id).data.srcDesc with
    width := s.c.outQ.width, height := s.c.outQ.height, stride := s.c.outQ.bytesperline},?_,rfl,rfl,rfl⟩
  have queue : (enqueuedAt s .output id a).queue .output = _ := queueSet _ _ _
  simp only [sourceCall, queue, Queue.prepare, Queue.enqueue, Queue.modify, Function.update_self, vaddr,
    mapped, if_true]
  rfl

theorem loadedRuns {u s' : Sys} {id : Nat} {a : Attachment} (format : u.c.outQ = p.format)
    (geometry : Geometry p.format) (loaded : Loaded u s' id a) (mapped : a.mapped = true)
    (running : Running fb every p.format.sizeimage n u.c.src u.k.machine)
    (short : n + 1 < 2^32) : Running fb every p.format.sizeimage (n + 1) s'.c.src s'.k.machine ∧
      Drew every n fb p.format a.plane u.k.machine.mem s'.k.machine.mem := by
  obtain ⟨desc, asked, shape⟩ := sourceAsked u id mapped
  rw [format] at shape
  rw [loaded.src, loaded.machine, asked]
  exact nextRuns geometry (m := u.k.machine.ktimeGetNs.2) ⟨running.backend,running.priv,running.size⟩
    short a.plane shape

theorem placeShows {format : QData} (geometry : Geometry format) (there : Nat → Bool)
    (plane : Plane) {dst : Plane} {before after : Mem} (drew : Drew every n fb format dst before after)
    (shown : before.slice plane format.sizeimage = frameOf format.width format.height (lastDrawn every there n))
    (here : there n = true → dropped every n = false → Picture format after plane.block (drawnBefore every n))
    (away : there n = false → after.bytes plane.block = before.bytes plane.block) :
    after.slice plane format.sizeimage = frameOf format.width format.height
      (lastDrawn every there (n + 1)) := by
  rw [lastDrawn]
  cases skip : dropped every n with
  | true => rw [if_neg (by simp), drew.skipped skip, shown]
  | false =>
    cases goes : there n with
    | true =>
      rw [if_pos (by simp)]
      exact pictureFrame geometry (here goes skip)
    | false =>
      rw [if_neg (by simp), ← shown]
      exact sliceSame (away goes) _

structure Developed (p : Bench) (fb every n : Nat) (plane : Plane) (m : Mem) : Prop where
  screen : m.slice ⟨fb,p.format.sizeimage⟩ p.format.sizeimage =
    frameOf p.format.width p.format.height (lastDrawn every (fun _ => true) (n + 1))
  buffers : p.memory = .mmap → ∀ i id, p.out[i]? = some id →
    m.slice ⟨id,p.format.sizeimage⟩ p.format.sizeimage =
      frameOf p.format.width p.format.height (lastDrawn every (fun j => j % p.out.length = i) (n + 1))
  image : m.slice plane p.format.sizeimage =
    frameOf p.format.width p.format.height (lastDrawn every (sharing p n) (n + 1))

theorem develops (reel : Reel p fb) (rolling : Rolling p fb every first n c)
    (geometry : Geometry p.format) {id : Nat} {plane : Plane} (found : p.out[turn p n]? = some id)
    (own : p.memory = .mmap → plane.block = id)
    (shared : p.memory = .dmabuf → plane.block = fb) {before after : Mem}
    (same : ∀ block, before.bytes block = c.s.k.machine.mem.bytes block)
    (drew : Drew every n fb p.format plane before after) : Developed p fb every n plane after := by
  have view : ∀ at_ : Plane, before.slice at_ p.format.sizeimage =
      c.s.k.machine.mem.slice at_ p.format.sizeimage :=
    fun at_ => sliceSame (same _) _
  have screen := placeShows geometry (fun _ => true) ⟨fb,p.format.sizeimage⟩ drew
    ((view _).trans rolling.screen) (fun _ kept => drew.framebuffer kept) (fun no => by contradiction)
  have buffers : p.memory = .mmap → ∀ i id, p.out[i]? = some id →
      after.slice ⟨id,p.format.sizeimage⟩ p.format.sizeimage =
        frameOf p.format.width p.format.height (lastDrawn every (fun j => j % p.out.length = i) (n + 1)) := by
    intro memory i other at_
    have place : turn p n = n % p.out.length := by simp only [turn, memory]
    refine placeShows geometry _ _ drew ((view _).trans (rolling.buffers memory i other at_)) ?_ ?_
    · intro goes kept
      have here : n % p.out.length = i := by simpa using goes
      rw [place, here, at_, Option.some.injEq] at found
      show Picture p.format after other _
      rw [found, ← own memory]
      exact drew.plane kept
    · intro away
      have differ : n % p.out.length ≠ i := by simpa using away
      have inside := List.mem_of_getElem? at_
      refine drew.elsewhere other (fun same => reel.fresh (List.mem_append_left _ (same ▸ inside))) ?_
      rw [own memory]
      rintro rfl
      rw [place] at found
      have within := (List.getElem?_eq_some_iff.mp at_).1
      exact differ ((List.getElem?_inj within (List.nodup_append.mp reel.distinct).1).mp
        (at_.trans found.symm)).symm
  refine ⟨screen,buffers,?_⟩
  have elsewhere : ∀ block, plane.block = block → after.slice plane p.format.sizeimage =
      after.slice ⟨block,p.format.sizeimage⟩ p.format.sizeimage := fun block at_ => by
    simp only [Mem.slice, Mem.get, at_]
  cases memory : p.memory with
  | mmap =>
    have place : turn p n = n % p.out.length := by simp only [turn, memory]
    have there : sharing p n = fun j => decide (j % p.out.length = n % p.out.length) := by
      funext j
      simp only [sharing, memory]
    rw [place] at found
    rw [elsewhere id (own memory), buffers memory _ id found, there]
  | dmabuf =>
    have there : sharing p n = fun _ => true := by
      funext j
      simp only [sharing, memory]
    rw [elsewhere fb (shared memory), screen, there]

structure Shot (p : Bench) (every first n : Nat) (c c3 c4 : Client) (dq : V4l2Buffer) : Prop where
  index : ∃ dst, p.cap[dq.index]? = some dst
  bytesused : dq.bytesused = p.format.sizeimage
  sequence : dq.sequence = u32 (first + n + 1)
  serving : Serving p c3.s
  image : ∀ dst, p.cap[dq.index]? = some dst →
    c3.s.k.machine.mem.slice ⟨dst,p.format.sizeimage⟩ p.format.sizeimage =
      frameOf p.format.width p.format.height (lastDrawn every (sharing p n) (n + 1))
  published : ∃ buffer e, c4.s.k.published = c.s.k.published ++ [⟨buffer,e⟩] ∧ e.seq = first + n + 1 ∧
    e.crc32 = Crc.frameCrc (frameOf p.format.width p.format.height (lastDrawn every (sharing p n) (n + 1)))

theorem rolls (reel : Reel p fb) (env : Surroundings) (rolling : Rolling p fb every first n c)
    (room : first + n + 1 < 2^64) (short : n + 1 < 2^32) :
    ∃ c1 dq c2 used c3 c4, c.qbuf env .output (turn p n) (offered p fb) = .ok c1 ∧
      c1.dqbuf env .capture = .ok (dq,c2) ∧ c2.dqbuf env .output = .ok (used,c3) ∧
      c3.qbuf env .capture dq.index none = .ok c4 ∧ Rolling p fb every first (n + 1) c4 ∧
      Shot p every first n c c3 c4 dq := by
  obtain ⟨order, board, all⟩ := rolling.board
  obtain ⟨dst, rest, rfl⟩ : ∃ dst rest, order = dst :: rest := by
    refine List.exists_cons_of_length_pos ?_
    rw [all.length_eq]
    exact List.length_pos_iff.mpr reel.full
  obtain ⟨id, a, offer, own, shared⟩ := offers reel rolling
  obtain ⟨c1, dq, c2, used, c3, queued, taken, freed, sourced, exchanged⟩ :=
    exchanges env rolling.serving board offer
    rolling.roi (by rw [rolling.sequence]; exact room) (by rw [rolling.foreign]; simp)
  have capDistinct := (List.nodup_append.mp reel.distinct).2.1
  have spare : dst ∉ rest := (List.nodup_cons.mp (all.nodup_iff.mpr capDistinct)).1
  obtain ⟨c4, returned, serving4, board4, foreign4, steadied⟩ :=
    clientReturns env exchanged.serving exchanged.board exchanged.index spare
  refine ⟨c1,dq,c2,used,c3,c4,queued,taken,freed,returned,?_⟩
  obtain ⟨u, stirred, loaded⟩ := sourced.loaded
  have context := stirredContext stirred
  have geometry : Geometry p.format := rolling.serving.format ▸ rolling.serving.sane.geometry
  have ready : Running fb every p.format.sizeimage n u.c.src u.k.machine := by
    refine ⟨by rw [context]; exact rolling.running.backend,by rw [context]; exact rolling.running.priv,?_⟩
    rw [(stirredKernel stirred).2.2]
    exact rolling.running.size
  obtain ⟨running, drew⟩ := loadedRuns (by rw [context]; exact rolling.serving.format) geometry loaded
    offer.mapped ready short
  have developed := develops reel rolling geometry offer.found own shared
    (fun block => stirred.bytes block (by rw [rolling.foreign]; simp)) drew
  have dstIn : dst ∈ p.cap := List.mem_of_getElem? exchanged.index
  -- Of the memory the frames are drawn in nothing changes until the next QBUF.
  have kept : ∀ block, block ≠ dst → c4.s.k.machine.mem.slice ⟨block,p.format.sizeimage⟩ p.format.sizeimage =
      c1.s.k.machine.mem.slice ⟨block,p.format.sizeimage⟩ p.format.sizeimage := by
    intro block differ
    refine sliceSame ?_ _
    rw [steadied.bytes block (by rw [exchanged.foreign, rolling.foreign]; simp),
      exchanged.bytes block (by rw [rolling.foreign]; simp) differ]
  have image := exchanged.image
  rw [rolling.algo, unprocessed, developed.image] at image
  refine ⟨⟨serving4,⟨rest ++ [dst],board4,(List.perm_append_singleton dst rest).trans all⟩,?_,?_,
    ?_,?_,?_,?_,?_⟩,?_⟩
  · exact foreign4.trans (exchanged.foreign.trans rolling.foreign)
  · rw [steadied.controls, exchanged.controls]
    exact rolling.algo
  · rw [steadied.controls, exchanged.controls]
    exact rolling.roi
  · rw [steadied.sequence, exchanged.count, rolling.sequence]
    rfl
  · rw [steadied.src, sourced.src]
    refine ⟨running.backend,running.priv,?_⟩
    rw [steadied.fbs, sourced.fbs]
    exact running.size
  · rw [kept fb (fun same => reel.fresh (List.mem_append_right _ (same ▸ dstIn)))]
    exact developed.screen
  · intro memory i other at_
    rw [kept other (fun same => (List.nodup_append.mp reel.distinct).2.2 other
      (List.mem_of_getElem? at_) dst dstIn same)]
    exact developed.buffers memory i other at_
  · obtain ⟨e, published, seq, _, _, _, crc⟩ := exchanged.published
    refine ⟨⟨dst,exchanged.index⟩,exchanged.bytesused,?_,exchanged.serving,?_,⟨dst,e,?_,?_,?_⟩⟩
    · rw [exchanged.sequence, rolling.sequence]
    · intro other at_
      obtain rfl : other = dst := Option.some.inj (at_.symm.trans exchanged.index)
      exact image
    · rw [steadied.published, published]
    · rw [seq, rolling.sequence]
    · rw [crc, image]

end Round

end Vpipe.Footage
