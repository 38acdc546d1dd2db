import Vpipe.Runs

/-! The record of processed frames: which moves add to it, and what it says of the buffers,
the controls and the source a frame was made from. -/
namespace Vpipe.Frames
open Vpipe.Lib.Word Vpipe.Lib.ByteMemory Vpipe.Lib.BufferQueue Vpipe.Lib.Transition
open Vpipe.Cv Vpipe.FrameSource Vpipe.MetaRing Vpipe.M2m Vpipe.Moves Vpipe.Discipline Vpipe.Runs

structure SameBooks (k k' : Kernel) : Prop where
  sequence : k'.sequence = k.sequence
  metaDev : k'.metaDev = k.metaDev
  frames : k'.frames = k.frames
  published : k'.published = k.published
  returned : k'.returned = k.returned

theorem quietKernel (s : Sys) {l : Move} (release : ∀ t id, l ≠ .release t id) (dequeue : ∀ t, l ≠ .dequeue t)
    (job : ∀ cpu, l ≠ .deviceRun cpu) : SameBooks s.k (move s l).k := by
  cases l with
  | backend id =>
    rcases setBackendCases s id with same | ⟨_, _, src, m, _, made⟩
    · rw [move, same]; exact ⟨rfl,rfl,rfl,rfl,rfl⟩
    · rw [move, made]; exact ⟨rfl,rfl,rfl,rfl,rfl⟩
  | handOver t id => cases t <;> exact ⟨rfl,rfl,rfl,rfl,rfl⟩
  | start t env =>
    rw [move, (finishStartRest t _).1]
    cases t <;> exact ⟨rfl,rfl,rfl,rfl,rfl⟩
  | release t id => exact absurd rfl (release t id)
  | dequeue t => exact absurd rfl (dequeue t)
  | deviceRun cpu => exact absurd rfl (job cpu)
  | _ => exact ⟨rfl,rfl,rfl,rfl,rfl⟩

theorem framesSame (s : Sys) {l : Move} (job : ∀ cpu, l ≠ .deviceRun cpu) :
    (move s l).k.frames = s.k.frames := by
  have released : ∀ t id, (releaseOne t s id).k.frames = s.k.frames := by
    intro t id
    rcases releaseKernel t s id with ⟨_, kernel⟩ | ⟨_, kernel⟩
    · rw [kernel]
    · rw [kernel]; rfl
  cases l with
  | release t id => exact released t id
  | dequeue t =>
    rcases dqbufCases s t with same | ⟨id, rest, _, _, made⟩
    · rw [move, same]
    · rw [move, made]
      cases t <;> exact released _ id
  | deviceRun cpu => exact absurd rfl (job cpu)
  | _ => exact (quietKernel s (by simp) (by simp) (by simp)).frames

structure NewFrame (s : Sys) (f : Frame) : Prop where
  source : ∃ rest, (s.queue .output).ready = f.source :: rest
  mapped : ((s.queue .output).buf f.source).mapped = true
  used : f.used = ((s.queue .output).buf f.source).data
  src : f.src = s.c.src
  image : ∃ result, vpipeCvProcess f.job f.used.algoId f.used.threshold (some f.used.roi) f.before =
    .ok (result,f.after) ∧ ⟨f.entry.roiLeft,f.entry.roiTop,f.entry.roiWidth,f.entry.roiHeight⟩ = result.roi
  srcSequence : f.entry.srcV4l2Sequence = f.used.srcSequence
  algo : f.entry.algoId = f.used.algoId
  backend : f.entry.sourceBackend = f.used.srcDesc.backendId
  stamp : f.entry.sourceTimestampNs = f.used.srcDesc.sourceTimestampNs
  flags : f.entry.flags = if f.used.srcDesc.flags &&& frameFlagDropped ≠ 0 then metaFDropped else 0
  queued : f.entry.qbufTimestampNs = f.used.qbufNs
  captured : f.entry.captureDoneNs = s.k.machine.clock s.k.machine.tick

theorem newFrames {s : Sys} (cpu : Nat) (go : schedulable s = true) :
    (move s (.deviceRun cpu)).k.frames = s.k.frames ∨
    ∃ f, (move s (.deviceRun cpu)).k.frames = s.k.frames ++ [f] ∧ NewFrame s f := by
  obtain ⟨src, dst, ⟨rest, _, ready, _⟩, failed | ⟨job, result, mem, processed, made⟩⟩ :=
    deviceRunCases s cpu go
  · rw [move, failed]; exact .inl rfl
  · have mapped : ((s.queue .output).buf src).mapped = true := by
      by_contra other
      have planes := processed.source
      simp [vaddr, other] at planes
    rw [move, made]
    exact .inr ⟨_,rfl,⟨rest,ready⟩,mapped,rfl,rfl,⟨result,processed.done,rfl⟩,rfl,rfl,rfl,rfl,rfl,rfl,rfl⟩

theorem framesMove {s : Sys} {l : Move} {p : Frame → Prop} (allowed : Allowed s l)
    (fresh : ∀ cpu f, l = .deviceRun cpu → NewFrame s f → p f) (all : ∀ f ∈ s.k.frames, p f) :
    ∀ f ∈ (move s l).k.frames, p f := by
  rcases jobOrNot l with ⟨cpu, rfl⟩ | job
  · rcases newFrames cpu allowed with same | ⟨f, more, new⟩
    · rw [same]; exact all
    · rw [more]
      intro g member
      rcases List.mem_append.mp member with old | last
      · exact all g old
      · rw [List.mem_singleton.mp last]
        exact fresh cpu f rfl new
  · rw [framesSame s job]; exact all

theorem framesPrefix (s : Sys) (l : Move) : s.k.frames <+: (move s l).k.frames := by
  rcases jobOrNot l with ⟨cpu, rfl⟩ | job
  · cases go : schedulable s with
    | false => simp [move, vpipeDeviceRun, go]
    | true =>
      rcases newFrames cpu go with same | ⟨g, more, _⟩
      · exact same ▸ List.prefix_refl _
      · rw [more]; exact List.prefix_append _ _
  · exact framesSame s job ▸ List.prefix_refl _

theorem framesStay (s : Sys) (l : Move) {f : Frame} (member : f ∈ s.k.frames) : f ∈ (move s l).k.frames :=
  (framesPrefix s l).subset member

theorem framesGrow (s : Sys) (l : Move) : s.k.frames.length ≤ (move s l).k.frames.length :=
  (framesPrefix s l).length_le

theorem framesGrowRun (s : Sys) (ls : List Move) : s.k.frames.length ≤ (run move s ls).k.frames.length := by
  have keeps : ∀ s' l, s.k.frames.length ≤ s'.k.frames.length →
      s.k.frames.length ≤ (move s' l).k.frames.length :=
    fun s' l so => Nat.le_trans so (framesGrow s' l)
  exact runAlways keeps (Nat.le_refl _) ls

theorem framesGrowStep (s : Sys) (e : Event) : s.k.frames.length ≤ (s.step e).k.frames.length := by
  rw [stepMoves]
  exact framesGrowRun s (moves s e)

end Vpipe.Frames
