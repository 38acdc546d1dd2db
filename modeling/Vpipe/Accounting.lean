import Vpipe.Lib.Outcome
import Vpipe.Pipeline
import Vpipe.GradientCheck

/-! The two loops of `run_one` over a stream of VCAM frames: what each system call of the tool
finds, whatever jobs run in between, and the invariant that ties the tool's counters, its ring of
timestamps and its metadata cursor to the stream. -/
namespace Vpipe.Accounting
open Vpipe.Lib Vpipe.Lib.Word Vpipe.Lib.ByteMemory Vpipe.Lib.BufferQueue Vpipe.Lib.Transition Vpipe.Lib.Fifo
open Vpipe.Lib.Outcome Vpipe.FrameSource Vpipe.Gradient Vpipe.MetaRing Vpipe.M2m Vpipe.Moves Vpipe.Runs
open Vpipe.Tools Vpipe.Stream Vpipe.Pipeline Vpipe.Runner

structure Taken (p : Plan) (s : Sys) (n id : Nat) (e : MetaEntry) : Prop where
  inside : id ∈ p.cap
  state : ((s.queue .capture).buf id).state = .dequeued
  picture : Picture p.format s.k.machine.mem id n
  crc : ∀ plane : Plane, plane.block = id →
    e.crc32 = Crc.frameCrc (s.k.machine.mem.slice plane p.format.sizeimage)
  flags : e.flags = 0
  frame : ∃ f, s.k.frames[p.frames + n]? = some f ∧ f.target = id ∧
    ∃ time, e = normalise {f.entry with dqbufTimestampNs := time}
  row : s.k.metaDev.ring (slot (p.head + n)) = e

section Calls
variable {env : Env} {p : Plan} {r : Locals} {n : Tally}

theorem takenLater {s s' : Sys} {i id : Nat} {e : MetaEntry} (flows : Flows p s n) (later : Later p s n s')
    (taken : Taken p s i id e) : Taken p s' i id e := by
  obtain ⟨_, _, flow⟩ := flows
  have idle : ((s.queue .capture).buf id).state ≠ .active := by rw [taken.state]; simp
  have bytes := later.undisturbed.bytes id (flow.capPlaced.names.symm ▸ taken.inside) idle
  obtain ⟨f, found, rest⟩ := taken.frame
  refine ⟨taken.inside,?_,pictureSame bytes taken.picture,?_,taken.flags,⟨f,?_,rest⟩,?_⟩
  · rw [later.undisturbed.capture id idle]
    exact taken.state
  · intro plane block
    rw [taken.crc plane block]
    exact congrArg Crc.frameCrc (sliceSame (by rw [block, bytes]) _).symm
  · exact prefixGet later.undisturbed.frames found
  · rw [later.undisturbed.metaDev]
    exact taken.row

theorem passJobs (env : Env) (c : Client) : c.pass env.surroundings =
    {c with s := run vpipeDeviceRun c.s (env.jobs c.places), places := c.places + 1} := by
  simp only [Client.pass, Env.surroundings, run, List.foldl_map]
  rfl

theorem passLater (env : Env) {c : Client} (flows : Flows p c.s n) :
    Later p c.s n (c.pass env.surroundings).s := by
  rw [passJobs]
  exact jobsLater flows _

theorem yieldLater (env : Env) (flows : Flows p r.s n) : Later p r.s n (yield env r).s := passLater env flows

theorem awaitLater (env : Env) {c : Client} {t : QType} (flows : Flows p c.s n)
    (next : ∀ s, Flows p s n → (s.queue t).done = [] → ∀ cpu, ((vpipeDeviceRun s cpu).queue t).done ≠ []) :
    ∃ s', c.await env.surroundings t = {c with s := s', places := c.places + 1} ∧ Later p c.s n s' ∧
      (s'.queue t).done ≠ [] := by
  have later := passLater env flows
  unfold Client.await
  simp only
  split
  · rename_i empty
    exact ⟨_,rfl,laterJob _ _ later,next _ later.flows empty _⟩
  · rename_i some_
    exact ⟨_,rfl,later,some_⟩

theorem captureNext (waits : n.taken < n.given) (free : n.spare < p.cap.length) (s : Sys) (flows : Flows p s n)
    (empty : (s.queue .capture).done = []) (cpu : Nat) : ((vpipeDeviceRun s cpu).queue .capture).done ≠ [] := by
  obtain ⟨made, _, flow⟩ := flows
  have none_ := flow.outbound.made
  rw [empty, List.length_nil] at none_
  simp only at none_
  have go : schedulable s = true := flowSchedulable flow (by simp only; omega) (by simp only; omega)
  intro still
  have one := (jobFlow flow go cpu).1.outbound.made
  rw [still, List.length_nil] at one
  simp only at one
  omega

theorem outputNext (some_ : n.freed < n.made) (s : Sys) (flows : Flows p s n)
    (empty : (s.queue .output).done = []) (cpu : Nat) : ((vpipeDeviceRun s cpu).queue .output).done ≠ [] := by
  obtain ⟨made, more, flow⟩ := flows
  have none_ := flow.inbound.freed
  rw [empty, List.length_nil] at none_
  simp only at none_
  omega

theorem dqbufCapture (env : Env) (flows : Flows p r.s n) (waits : n.taken < n.given)
    (free : n.spare < p.cap.length) :
    Returns (dqbuf env .capture r) (fun a => ∃ id index s' e,
      a.1.index = index ∧ a.1.bytesused = p.format.sizeimage ∧ a.2 = {r with s := s', places := r.places + 1} ∧
      p.cap[index]? = some id ∧
      Taken p s' n.taken id e ∧ r.s.k.frames <+: s'.k.frames ∧
      Flows p s' {n with made := n.taken + 1, taken := n.taken + 1, spare := n.spare + 1}) := by
  obtain ⟨s, waited, ⟨undisturbed, made, more, flow⟩, some_⟩ := awaitLater env flows (captureNext waits free)
  obtain ⟨id, rest, done⟩ := List.exists_cons_of_ne_nil some_
  obtain ⟨s', taken, dequeued, metaDev, flow'⟩ := takeFlow flow done
  have captured := flow.outbound.captured
  rw [done] at captured
  have first := captured.1
  have inside : id ∈ p.cap := flow.capPlaced.names ▸ (flow.sane.sound .capture).wf.doneInside (by simp [done])
  obtain ⟨index, found⟩ := List.mem_iff_getElem?.mp inside
  have place := flow.capPlaced.index index id found
  obtain ⟨f, frame, target, entry⟩ := first.frame
  obtain ⟨d, rewritten⟩ := dequeued.queue
  refine ⟨(⟨index,p.format.sizeimage,((s.queue .capture).buf id).data.sequence⟩,_),?_,id,index,s',_,rfl,rfl,rfl,
    found,⟨inside,?_,?_,?_,?_,⟨f,?_,target,s.k.machine.ktimeGetNs.1,rfl⟩,?_⟩,?_,made,?_,flow'⟩
  · simp only [dqbuf, Client.dqbuf, waited, done, taken, place, first.bytesused]
  · rw [rewrittenSelf rewritten]
  · exact pictureSame (by rw [dequeued.mem]) first.picture
  · intro plane block
    rw [entry, dequeued.mem]
    refine first.crc.trans (congrArg Crc.frameCrc ?_)
    simp only [Mem.slice, Mem.get, first.block, block]
  · rw [entry]
    exact first.flags
  · rw [dequeued.frames]
    exact frame
  · have head : s.k.metaDev.head = p.head + n.taken := flow.head
    rw [metaDev, entry, vpipeMetaPublish, head]
    exact Function.update_self _ _ _
  · rw [dequeued.frames]
    exact undisturbed.frames
  · have count := flow'.outbound.made
    simp only at count ⊢
    omega

theorem dqbufOutput (env : Env) (flows : Flows p r.s n) (some_ : n.freed < n.made) :
    Returns (dqbuf env .output r) (fun a => ∃ id s',
      a.2 = {r with s := s', places := r.places + 1} ∧ p.out[a.1.index]? = some id ∧
      ((s'.queue .output).buf id).state = .dequeued ∧ r.s.k.frames <+: s'.k.frames ∧
      Flows p s' {n with freed := n.freed + 1}) := by
  obtain ⟨s, waited, ⟨undisturbed, made, more, flow⟩, done⟩ := awaitLater env flows (outputNext some_)
  obtain ⟨id, rest, done⟩ := List.exists_cons_of_ne_nil done
  obtain ⟨s', freed, dequeued, _, flow'⟩ := freeFlow flow done
  have inside : id ∈ p.out := flow.outPlaced.names ▸ (flow.sane.sound .output).wf.doneInside (by simp [done])
  obtain ⟨index, found⟩ := List.mem_iff_getElem?.mp inside
  have place := flow.outPlaced.index index id found
  obtain ⟨d, rewritten⟩ := dequeued.queue
  let b := ((s.queue .output).buf id).data
  refine ⟨(⟨index,b.payload,b.sequence⟩,_),?_,id,s',rfl,found,?_,?_,made,more,flow'⟩
  · simp only [dqbuf, Client.dqbuf, waited, done, freed, place, b]
  · rw [rewrittenSelf rewritten]
  · rw [dequeued.frames]
    exact undisturbed.frames

theorem qbufCapture (env : Env) (flows : Flows p r.s n) {index id i m : Nat} {e : MetaEntry}
    (found : p.cap[index]? = some id) (taken : Taken p r.s i id e) (spare : n.spare = m + 1) :
    Returns (qbuf env .capture index none r) (fun a => ∃ s', a = {r with s := s', places := r.places + 1} ∧
      r.s.k.frames <+: s'.k.frames ∧ Flows p s' {n with spare := m}) := by
  have later := passLater env flows
  have still := takenLater flows later taken
  obtain ⟨undisturbed, made, more, flow⟩ := later
  obtain ⟨s', accepted, ⟨_, submitted⟩, flow'⟩ := returnFlow flow found still.state spare
  refine ⟨_,?_,s',rfl,?_,made,more,flow'⟩
  · simp only [qbuf, Client.qbuf, accepted]
    rfl
  · rw [submitted.frames]
    exact undisturbed.frames

theorem qbufOutput (env : Env) (flows : Flows p r.s n) {index id : Nat} {att : Option Attachment}
    (found : p.out[index]? = some id) (state : ((r.s.queue .output).buf id).state = .dequeued)
    (shared : p.memory = .dmabuf → att = some ⟨⟨p.fb,p.format.sizeimage⟩,true⟩)
    (alone : p.memory = .dmabuf → n.given = n.freed) (more : n.given < p.limit) :
    Returns (qbuf env .output index att r) (fun a => ∃ s', a = {r with s := s', places := r.places + 1} ∧
      r.s.k.frames <+: s'.k.frames ∧ Flows p s' {n with given := n.given + 1} ∧
      ∀ other, other ≠ id → ((r.s.queue .output).buf other).state = .dequeued →
        ((s'.queue .output).buf other).state = .dequeued) := by
  obtain ⟨undisturbed, made, least, flow⟩ := passLater env flows
  have kept := fun other => undisturbed.output other
  have processed : p.memory = .dmabuf → n.given = made := by
    intro kind
    have all := alone kind
    have freed := flow.inbound.freed
    have given := flow.inbound.given
    simp only at freed given
    omega
  obtain ⟨s', accepted, ⟨_, submitted⟩, flow'⟩ :=
    giveFlow flow found (by rw [kept id state]; exact state) shared processed more
  obtain ⟨d, _, rewritten⟩ := submitted.queue
  refine ⟨_,?_,s',rfl,?_,⟨made,least,flow'⟩,?_⟩
  · simp only [qbuf, Client.qbuf, accepted]
    rfl
  · rw [submitted.frames]
    exact undisturbed.frames
  · intro other differ back
    rw [rewrittenOther rewritten differ, kept other back]
    exact back

theorem readMetaTaken (env : Env) (flows : Flows p r.s n) {i id : Nat} {e : MetaEntry}
    (taken : Taken p r.s i id e) (cursor : r.metaFd = some ⟨p.head + i⟩) (last : n.taken = i + 1) :
    Returns (readMeta env r) (fun a => ∃ s',
      a = (some e,{r with s := s', places := r.places + 1, metaFd := some ⟨p.head + i + 1⟩}) ∧
      Later p r.s n s') := by
  have later := yieldLater env flows
  have still := takenLater flows later taken
  refine ⟨_,?_,_,rfl,later⟩
  obtain ⟨_, _, _, flow⟩ := later
  have head : (yield env r).s.k.metaDev.head = p.head + (i + 1) := by rw [← last]; exact flow.head
  have pending : (⟨p.head + i⟩ : MetaFile).tail ≠ (yield env r).s.k.metaDev.head := by
    rw [head]
    simp only
    omega
  have near : ¬ p.head + i < oldest (yield env r).s.k.metaDev := by
    rw [oldest, head]
    have := NeZero.pos ringSize
    omega
  have locked := lockedEntry flow.alive pending
  rw [if_neg near, still.row] at locked
  have some_ : readable (yield env r).s.k.metaDev ⟨p.head + i⟩ = true := by
    simp [readable, Ne.symm pending]
  simp only [readMeta, cursor, vpipeMetaRead, Nat.lt_irrefl, if_false, some_, locked]
  rfl

end Calls

structure Planned (cfg : Config) (buffer : BufferKind) (depth : Nat) (p : Plan) : Prop where
  source : cfg.source = .vcam
  memory : p.memory = buffer
  format : p.format = grey width height
  limit : p.limit = cfg.frames
  cap : p.cap.length = cfg.queueDepth
  out : depth ≤ p.out.length
  shallow : 1 ≤ depth ∧ depth ≤ cfg.queueDepth
  single : buffer = .dmabuf → depth = 1

instance (cfg : Config) : NeZero cfg.queueDepth := ⟨by have := cfg.depthRange; omega⟩

structure Tallied (cfg : Config) (n : Nat) (st : RunStats) : Prop where
  csumChecked : st.csumChecked = n
  csumPass : st.csumPass = n
  verifyChecked : st.verifyChecked = if cfg.verifyPattern then n else 0
  verifyPass : st.verifyPass = st.verifyChecked
  dropped : st.dropped = 0

structure Kept (cfg : Config) (p : Plan) (r : Locals) : Prop where
  maps : ∀ (i id : Nat), p.cap[i]? = some id → (r.capBufs.getD i ⟨0,0⟩).block = id
  srcFd : p.memory = .dmabuf → ∃ fd, r.srcFd = some (fd,p.fb)
  size : r.outSizeimage = p.format.sizeimage
  flows : Flows p r.s ⟨r.submitted,0,r.completed,r.completed,0⟩
  cursor : r.metaFd = some ⟨p.head + r.completed⟩
  statics : r.statics.Sound
  stamps : r.stamps.length = r.submitted
  ring : Ring.Holds (fun i : Fin cfg.queueDepth => r.qbufRing i) r.stamps
  stats : Tallied cfg r.completed r.stats

/- The n-th round: it began with frames in flight, no more than the depth; it read the timestamp
of the n-th submission; it queued an OUTPUT buffer that was not queued while there were frames
left; the bytes it saw are the n-th gradient, and the row it read is the one of the frame in that
buffer, with the checksum of those bytes. -/
structure Accounted (cfg : Config) (depth first : Nat) (frames : List Frame) (stamps : List Nat) (n : Nat)
    (round : Round) : Prop where
  inflight : 1 ≤ round.inflight ∧ round.inflight ≤ depth
  slot : stamps[n]? = some round.slot
  requeued : if n + depth < cfg.frames then ∃ index, round.requeued = some (index,some .dequeued)
    else round.requeued = none
  size : round.image.length = width * height
  pixels : ∀ x y, x < width → y < height → round.image[y * stride + x]? = some (shade x y (n % 256))
  row : ∃ f e time, frames[first + n]? = some f ∧ f.target = round.buffer ∧ round.entry = some e ∧
    e = normalise {f.entry with dqbufTimestampNs := time} ∧ e.crc32 = round.crcUser

structure Tied (cfg : Config) (depth : Nat) (p : Plan) (r : Locals) : Prop extends Kept cfg p r where
  submitted : r.submitted = min cfg.frames (r.completed + depth)
  rounds : r.rounds.length = r.completed
  each : ∀ n round, r.rounds[n]? = some round → Accounted cfg depth p.frames r.s.k.frames r.stamps n round

theorem accountedGrows {cfg : Config} {depth first n : Nat} {frames frames' : List Frame}
    {stamps stamps' : List Nat} {round : Round} (more : frames <+: frames') (later : stamps <+: stamps')
    (accounted : Accounted cfg depth first frames stamps n round) :
    Accounted cfg depth first frames' stamps' n round := by
  obtain ⟨f, e, time, found, rest⟩ := accounted.row
  exact {accounted with slot := prefixGet later accounted.slot, row := ⟨f,e,time,prefixGet more found,rest⟩}

theorem patternVerified {m : Mem} {addr : Plane} {n : Nat}
    (picture : Picture (grey width height) m addr.block n) :
    verifyGradient (fun i => m.get addr i) = true :=
  (GradientCheck.acceptedShade _).mpr (GradientCheck.showsOwn (by decide) (by decide) picture)

theorem imageShows {m : Mem} {addr : Plane} {n : Nat} (picture : Picture (grey width height) m addr.block n) :
    (m.slice addr (grey width height).sizeimage).length = width * height ∧ ∀ x y, x < width → y < height →
      (m.slice addr (grey width height).sizeimage)[y * stride + x]? = some (shade x y (n % 256)) := by
  constructor
  · simp [Mem.slice, grey]
  · intro x y inRow inFrame
    have inside : y * stride + x < width * height := by
      unfold stride width at *
      unfold height at *
      omega
    rw [shadeCongr x y (Nat.mod_mod n 256), ← picture x y inRow inFrame]
    simp only [Mem.slice, grey, List.getElem?_map, List.getElem?_range inside]
    rfl

theorem accountedTallied {cfg : Config} {st : RunStats} {e : MetaEntry} {n crcUser : Nat}
    (vcam : cfg.source = .vcam) (whole : e.flags = 0) (equal : e.crc32 = crcUser) {pattern : Bool}
    (verified : pattern = true)
    (tallied : Tallied cfg n st) : Tallied cfg (n + 1) (accounted cfg st (some e) crcUser pattern).2 := by
  subst verified
  obtain ⟨checked, pass, verified, verifyPass, dropped⟩ := tallied
  cases verify : cfg.verifyPattern <;> simp only [verify, Bool.false_eq_true, if_true, if_false] at verified
  · constructor <;> simp [accounted, whole, equal, verify, vcam, checked, pass, verified, verifyPass, dropped]
  · constructor <;> simp [accounted, whole, equal, verify, vcam, checked, pass, verified, verifyPass, dropped]

theorem paceKeeps (env : Env) (r : Locals) : ∃ pacer readings,
    pace env r = {r with pacer := pacer, readings := readings} := by
  unfold pace
  split
  · exact ⟨_,_,rfl⟩
  · simp only
    split
    · exact ⟨_,_,rfl⟩
    · exact ⟨_,_,rfl⟩

theorem ringPush {cfg : Config} {ring : Nat → Nat} {stamps : List Nat}
    (holds : Ring.Holds (fun i : Fin cfg.queueDepth => ring i) stamps) (now : Nat) :
    Ring.Holds (fun i : Fin cfg.queueDepth => Function.update ring (stamps.length % cfg.queueDepth) now i)
      (stamps ++ [now]) := by
  have pushed := Ring.holdsPush holds now
  have same : Function.update (fun i : Fin cfg.queueDepth => ring i)
      (Ring.place cfg.queueDepth stamps.length) now =
      fun i : Fin cfg.queueDepth => Function.update ring (stamps.length % cfg.queueDepth) now i := by
    funext i
    have names : i = Ring.place cfg.queueDepth stamps.length ↔ (i : Nat) = stamps.length % cfg.queueDepth :=
      Fin.ext_iff
    simp only [Function.update_apply, names]
  exact same ▸ pushed

theorem outputIdle {p : Plan} {s : Sys} {n : Tally} (flows : Flows p s n) (alone : n.given = n.freed) {id : Nat}
    (inside : id ∈ p.out) : ((s.queue .output).buf id).state = .dequeued := by
  obtain ⟨made, _, flow⟩ := flows
  have given := flow.inbound.given
  have freed := flow.inbound.freed
  simp only at given freed
  have noReady : (s.queue .output).ready = [] := List.length_eq_zero_iff.mp (by omega)
  have noDone : (s.queue .output).done = [] := List.length_eq_zero_iff.mp (by omega)
  exact startedDequeued (flow.sane.sound .output).wf (flow.started .output) (flow.outPlaced.names.symm ▸ inside)
    (by simp [noReady]) (by simp [noDone])

section Loops
variable {cfg : Config} {buffer : BufferKind} {depth : Nat} {p : Plan} (planned : Planned cfg buffer depth p)
include planned

theorem submitKeeps (env : Env) {r : Locals} (kept : Kept cfg p r) {index id : Nat}
    (found : p.out[submittedIndex buffer index]? = some id)
    (state : ((r.s.queue .output).buf id).state = .dequeued)
    (alone : buffer = .dmabuf → r.submitted = r.completed) (more : r.submitted < cfg.frames) :
    Returns (submitOutput env cfg buffer r.submitted index r) (fun a => ∃ s' pacer readings now,
      a = {r with
        s := s', places := r.places + 1, pacer := pacer, readings := readings
        qbufRing := Function.update r.qbufRing (r.submitted % cfg.queueDepth) now,
          stamps := r.stamps ++ [now]} ∧
      Kept cfg p {a with submitted := a.submitted + 1} ∧ r.s.k.frames <+: s'.k.frames ∧
      ∀ other, other ≠ id → ((r.s.queue .output).buf other).state = .dequeued →
        ((s'.queue .output).buf other).state = .dequeued) := by
  obtain ⟨pacer, readings, paced⟩ := paceKeeps env r
  let r' : Locals := {r with
    pacer := pacer, readings := readings + 1
    qbufRing := Function.update r.qbufRing (r.submitted % cfg.queueDepth) (env.clock readings)
    stamps := r.stamps ++ [env.clock readings]}
  let att : Option Attachment := match buffer with
    | .mmap => none
    | .dmabuf => r.srcFd.map (fun fd => ⟨⟨fd.2,r.outSizeimage⟩,true⟩)
  have shared : p.memory = .dmabuf → att = some ⟨⟨p.fb,p.format.sizeimage⟩,true⟩ := by
    intro kind
    obtain ⟨fd, held⟩ := kept.srcFd kind
    obtain rfl : buffer = .dmabuf := planned.memory.symm.trans kind
    simp only [att, held, kept.size, Option.map_some]
  obtain ⟨_, queued, s', rfl, grown, flows, others⟩ := qbufOutput (r := r') env kept.flows found state shared
    (fun kind => alone (planned.memory.symm.trans kind)) (planned.limit.symm ▸ more)
  refine ⟨_,?_,s',pacer,readings + 1,env.clock readings,rfl,?_,grown,others⟩
  · cases buffer with
    | mmap => simp only [submitOutput, paced, vpipeNowMonotonicNs, planned.source]; exact queued
    | dmabuf => simp only [submitOutput, paced, vpipeNowMonotonicNs]; exact queued
  · exact {kept with
      flows := flows
      stamps := by simp [kept.stamps]
      ring := by simp only; rw [← kept.stamps]; exact ringPush kept.ring _}

structure Filling (cfg : Config) (depth : Nat) (p : Plan) (r : Locals) : Prop extends Kept cfg p r where
  submitted : r.submitted ≤ min cfg.frames depth
  completed : r.completed = 0
  rounds : r.rounds = []
  unused : ∀ (i id : Nat), r.submitted ≤ i → p.out[i]? = some id →
    ((r.s.queue .output).buf id).state = .dequeued

theorem fillLoopKeeps (env : Env) {left : Nat} {r : Locals} (filling : Filling cfg depth p r)
    (enough : depth ≤ r.submitted + left) :
    Returns (fillLoop env cfg buffer depth left r) (fun r' => Filling cfg depth p r' ∧
      r'.submitted = min cfg.frames depth) := by
  induction left generalizing r with
  | zero =>
    have := filling.submitted
    exact returnsOk ⟨filling,by omega⟩
  | succ left ih =>
    rw [fillLoop]
    split
    · rename_i more
      have index : submittedIndex buffer r.submitted = r.submitted := by
        cases kind : buffer with
        | mmap => rfl
        | dmabuf =>
          have := planned.single kind
          simp only [submittedIndex]
          omega
      have bound := planned.out
      have distinct : p.out.Nodup := (List.nodup_append.mp (List.nodup_cons.mp p.apart).2).1
      have found : p.out[r.submitted]? = some p.out[r.submitted] := List.getElem?_eq_getElem (by omega)
      refine returnsBind (submitKeeps planned env filling.toKept (index.symm ▸ found)
        (filling.unused _ _ (Nat.le_refl _) found) ?_ more.1) ?_
      · intro kind
        have := planned.single kind
        rw [filling.completed]
        omega
      · rintro _ ⟨s', pacer, readings, now, rfl, kept, _, others⟩
        refine ih ⟨kept,?_,filling.completed,filling.rounds,?_⟩ ?_
        · simp only
          omega
        · intro i id later at_
          simp only at later
          refine others id (fun same => ?_) (filling.unused i id (by omega) at_)
          have again : p.out[r.submitted]? = p.out[i]? := by rw [found, at_, same]
          have := (List.getElem?_inj (i := r.submitted) (by omega) distinct).mp again
          omega
        · simp only
          omega
    · have := filling.submitted
      exact returnsOk ⟨filling,by omega⟩

theorem accountKeeps (env : Env) {r : Locals} {n : Tally} {id inflight tDq : Nat} {capDq : V4l2Buffer}
    {e : MetaEntry} (flows : Flows p r.s n) (last : n.taken = r.completed + 1)
    (taken : Taken p r.s r.completed id e)
    (used : capDq.bytesused = p.format.sizeimage) (addr : (r.capBufs.getD capDq.index ⟨0,0⟩).block = id)
    (cursor : r.metaFd = some ⟨p.head + r.completed⟩)
    (sound : r.statics.Sound) (tallied : Tallied cfg r.completed r.stats) :
    Returns (account env cfg inflight tDq capDq r) (fun a =>
      ∃ s' statics stats lat csv image crcUser, a =
        (⟨inflight,r.qbufRing (r.completed % cfg.queueDepth),(r.capBufs.getD capDq.index ⟨0,0⟩).block,image,
          crcUser,some e,none⟩,{r with
          s := s', places := r.places + 3, metaFd := some ⟨p.head + r.completed + 1⟩, statics := statics
          stats := stats, lat := lat, csv := csv, completed := r.completed + 1}) ∧
      statics.Sound ∧ Tallied cfg (r.completed + 1) stats ∧ e.crc32 = crcUser ∧
      (image.length = width * height ∧ ∀ x y, x < width → y < height →
        image[y * stride + x]? = some (shade x y (r.completed % 256))) ∧
      Flows p s' n ∧ Taken p s' r.completed id e ∧ r.s.k.frames <+: s'.k.frames) := by
  obtain ⟨s₁, yielded, later₁⟩ : ∃ s₁, yield env r = {r with s := s₁, places := r.places + 1} ∧
      Later p r.s n s₁ :=
    ⟨_,rfl,yieldLater env flows⟩
  have taken₁ := takenLater flows later₁ taken
  have picture := taken₁.picture
  rw [planned.format, ← addr] at picture
  obtain ⟨crc, sound'⟩ := Crc.crc32Bits sound
    (s₁.k.machine.mem.slice (r.capBufs.getD capDq.index ⟨0,0⟩) p.format.sizeimage)
  rw [← taken₁.crc _ addr] at crc
  unfold account
  rw [yielded, used]
  refine returnsBind (readMetaTaken env later₁.flows taken₁ cursor last) ?_
  rintro _ ⟨s₂, rfl, later₂⟩
  have taken₂ := takenLater later₁.flows later₂ taken₁
  have later₃ := passLater env (c := ⟨s₂,r.foreign,r.places + 1 + 1⟩) later₂.flows
  have taken₃ := takenLater later₂.flows later₃ taken₂
  have verified := taken₃.picture
  rw [planned.format, ← addr] at verified
  refine ⟨_,rfl,_,_,_,_,_,_,_,rfl,sound',?_,crc.symm,planned.format ▸ imageShows picture,later₃.flows,taken₃,?_⟩
  · exact accountedTallied planned.source taken.flags crc.symm (patternVerified verified) tallied
  · exact (later₁.undisturbed.frames.trans later₂.undisturbed.frames).trans later₃.undisturbed.frames

theorem requeuedFree {s : Sys} {n : Tally} (flows : Flows p s n) (alone : buffer = .dmabuf → n.given = n.freed)
    {index out : Nat} (found : p.out[index]? = some out)
    (state : ((s.queue .output).buf out).state = .dequeued) :
    ∃ id, p.out[submittedIndex buffer index]? = some id ∧ ((s.queue .output).buf id).state = .dequeued := by
  cases buffer with
  | mmap => exact ⟨out,found,state⟩
  | dmabuf =>
    have first : 0 < p.out.length := Nat.lt_of_lt_of_le planned.shallow.1 planned.out
    exact ⟨p.out[0],List.getElem?_eq_getElem first,outputIdle flows (alone rfl) (List.getElem_mem first)⟩

def Seen (cfg : Config) (depth : Nat) (p : Plan) (r : Locals) (n : Nat) (round : Round) : Prop :=
  ∀ requeued, (if n + depth < cfg.frames then ∃ index, requeued = some (index,some .dequeued)
    else requeued = none) →
    Accounted cfg depth p.frames r.s.k.frames r.stamps n {round with requeued := requeued}

theorem refillKeeps (env : Env) {r : Locals} {n outIndex out : Nat} {round : Round} (kept : Kept cfg p r)
    (completed : r.completed = n + 1) (submitted : r.submitted = min cfg.frames (n + depth))
    (rounds : r.rounds.length = n)
    (each : ∀ i round, r.rounds[i]? = some round → Accounted cfg depth p.frames r.s.k.frames r.stamps i round)
    (seen : Seen cfg depth p r n round) (plain : round.requeued = none) (found : p.out[outIndex]? = some out)
    (back : ((r.s.queue .output).buf out).state = .dequeued) :
    Returns (refill env cfg buffer round outIndex r) (fun r' => Tied cfg depth p r' ∧
      r'.completed = n + 1) := by
  have append : ∀ {frames stamps last}, r.s.k.frames <+: frames → r.stamps <+: stamps →
      Accounted cfg depth p.frames frames stamps n last → ∀ i round, (r.rounds ++ [last])[i]? = some round →
      Accounted cfg depth p.frames frames stamps i round := by
    intro frames stamps last grown later accounted i round at_
    rcases Nat.lt_trichotomy i n with old | new | beyond
    · rw [List.getElem?_append_left (by omega)] at at_
      exact accountedGrows grown later (each i round at_)
    · subst new
      rw [← rounds, List.getElem?_concat_length] at at_
      cases at_
      exact accounted
    · have := (List.getElem?_eq_some_iff.mp at_).1
      simp only [List.length_append, List.length_singleton, rounds] at this
      omega
  unfold refill
  split
  · rename_i more
    have alone : buffer = .dmabuf → r.submitted = r.completed := by
      intro kind
      have := planned.single kind
      omega
    obtain ⟨id, queued, state⟩ := requeuedFree planned kept.flows alone found back
    refine returnsBind (submitKeeps planned env kept queued state alone more) ?_
    rintro _ ⟨s', pacer, readings, now, rfl, kept', grown, _⟩
    refine returnsOk ⟨⟨{kept' with},?_,?_,?_⟩,completed⟩
    · simp only
      omega
    · simp [rounds, completed]
    · refine append grown (List.prefix_append _ _) (accountedGrows grown (List.prefix_append _ _) (seen _ ?_))
      rw [if_pos (by omega)]
      obtain ⟨_, _, flow⟩ := kept.flows
      exact ⟨_,by rw [stateAt, flow.outPlaced.names, queued, Option.map_some, state]⟩
  · refine returnsOk ⟨⟨{kept with},?_,?_,?_⟩,completed⟩
    · simp only
      omega
    · simp [rounds, completed]
    · refine append (List.prefix_refl _) (List.prefix_refl _) ?_
      have last := seen none (by rw [if_neg (by omega)])
      rw [← plain] at last
      exact last

theorem mainRoundKeeps (env : Env) {r : Locals} (tied : Tied cfg depth p r) (more : r.completed < cfg.frames) :
    Returns (mainRound env cfg buffer r) (fun r' => Tied cfg depth p r' ∧ r'.completed = r.completed + 1) := by
  have submitted := tied.submitted
  obtain ⟨positive, shallow⟩ := planned.shallow
  have range := cfg.framesRange
  have depthRange := cfg.depthRange
  have inflight : u32 (r.submitted + 2^32 - r.completed) = r.submitted - r.completed := by
    unfold u32
    unfold uintMax at range
    unfold maxQueueDepth at depthRange
    omega
  unfold mainRound
  refine returnsBind (dqbufCapture env tied.flows (by simp only; omega)
    (by simp only; rw [planned.cap]; omega)) ?_
  rintro ⟨capDq, _⟩ ⟨id, _, s₁, e, rfl, used, rfl, found, taken, grown₁, flows⟩
  have inside : capDq.index < cfg.queueDepth := by
    rw [← planned.cap]
    exact (List.getElem?_eq_some_iff.mp found).1
  simp only [vpipeNowMonotonicNs, ge_iff_le, Nat.not_le.mpr inside, if_false]
  have tallied : Tallied cfg r.completed {r.stats with
      occMax := max r.stats.occMax (u32 (r.submitted + 2^32 - r.completed))} :=
    ⟨tied.stats.csumChecked,tied.stats.csumPass,tied.stats.verifyChecked,tied.stats.verifyPass,
      tied.stats.dropped⟩
  refine returnsBind (accountKeeps planned env flows rfl taken used
    (tied.maps _ id found) tied.cursor tied.statics tallied) ?_
  rintro _ ⟨s₂, statics, stats, lat, csv, image, crcUser, rfl, sound, tallied₂, equal, shown, flows₂,
    taken₂, grown₂⟩
  refine returnsBind (qbufCapture env flows₂ found taken₂ rfl) ?_
  rintro _ ⟨s₃, rfl, grown₃, flows₃⟩
  refine returnsBind (dqbufOutput env flows₃ (by simp only; omega)) ?_
  rintro ⟨outDq, _⟩ ⟨out, s₄, rfl, outFound, back, grown₄, flows₄⟩
  obtain ⟨made, _, flow⟩ := flows₄
  have grown := ((grown₁.trans grown₂).trans grown₃).trans grown₄
  have stamped := tied.stamps
  refine refillKeeps planned env ?_ rfl submitted tied.rounds ?_ ?_ rfl outFound back
  · exact {tied.toKept with
      flows := ⟨made,Nat.zero_le _,flow⟩
      cursor := rfl
      statics := sound
      stats := tallied₂}
  · exact fun i round at_ => accountedGrows grown (List.prefix_refl _) (tied.each i round at_)
  · intro requeued condition
    obtain ⟨f, frame, target, time, row⟩ := taken₂.frame
    refine ⟨by simp only; omega,?_,condition,shown.1,shown.2,f,e,time,?_,
      target.trans (tied.maps _ id found).symm,rfl,row,equal⟩
    · have at_ : r.stamps[r.completed]? = some r.stamps[r.completed] := List.getElem?_eq_getElem (by omega)
      exact at_.trans (congrArg some (tied.ring _ _ at_ (by omega)).symm)
    · exact prefixGet (grown₃.trans grown₄) frame

theorem mainLoopKeeps (env : Env) {left : Nat} {r : Locals} (tied : Tied cfg depth p r)
    (within : r.completed ≤ cfg.frames) (enough : cfg.frames ≤ r.completed + left) :
    Returns (mainLoop env cfg buffer left r) (fun r' => Tied cfg depth p r' ∧ r'.completed = cfg.frames) := by
  induction left generalizing r with
  | zero => exact returnsOk ⟨tied,by omega⟩
  | succ left ih =>
    rw [mainLoop]
    split
    · rename_i more
      refine returnsBind (mainRoundKeeps planned env tied more) ?_
      rintro r' ⟨tied', counted⟩
      exact ih tied' (by omega) (by omega)
    · exact returnsOk ⟨tied,by omega⟩

theorem loopsAccount (env : Env) {r : Locals} (filling : Filling cfg depth p r) (none_ : r.submitted = 0) :
    Returns (fillLoop env cfg buffer depth depth r >>= mainLoop env cfg buffer cfg.frames) (fun r' =>
      Tied cfg depth p r' ∧ r'.completed = cfg.frames) := by
  refine returnsBind (fillLoopKeeps planned env filling (by omega)) ?_
  rintro r' ⟨filled, submitted⟩
  have none' := filled.completed
  refine mainLoopKeeps planned env ⟨filled.toKept,?_,?_,?_⟩ (by omega) (by omega)
  · rw [none', Nat.zero_add]
    exact submitted
  · rw [filled.rounds, none']
    rfl
  · intro i round at_
    rw [filled.rounds] at at_
    simp at at_

end Loops

end Vpipe.Accounting
