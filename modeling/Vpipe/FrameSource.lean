import Vpipe.Lib.ByteMemory
import Vpipe.Uapi

/-! Frame sources: `vpipe-source.c` and its three backends. The machine holds what a
backend reaches outside its own structures: the clock, byte memory, framebuffers,
module parameters and a supply of fresh identities. `trace` records, newest first, when a
source is created, used and destroyed and when a private structure is allocated and freed. -/
namespace Vpipe.FrameSource
open Vpipe.Lib.Word Vpipe.Lib.ByteMemory

inductive Backend where
  | fixture | synthetic | vcamDerived
  deriving DecidableEq, Repr

def Backend.id : Backend → Nat
  | .fixture => 1
  | .synthetic => 2
  | .vcamDerived => 3

def Backend.ofId (id : Nat) : Option Backend :=
  if id = 1 then some .fixture else if id = 2 then some .synthetic
  else if id = 3 then some .vcamDerived else none

def frameFlagDropped : Nat := 1 <<< 0

structure FrameDesc where
  sourceTimestampNs : Nat := 0
  sequence : Nat := 0
  backendId : Nat := 0
  byteused : Nat := 0
  flags : Nat := 0
  width : Nat := 0
  height : Nat := 0
  stride : Nat := 0
  deriving DecidableEq, Repr

structure SyntheticPriv where
  ident : Nat
  patternOffset : Nat
  framesProduced : Nat
  dropEveryN : Nat
  deriving DecidableEq, Repr

structure VcamPriv where
  ident : Nat
  fb : Nat
  patternOffset : Nat
  framesProduced : Nat
  dropEveryN : Nat
  baseTsNs : Nat
  frameIntervalNs : Nat
  deriving DecidableEq, Repr

inductive Priv where
  | null
  | synthetic (p : SyntheticPriv)
  | vcam (p : VcamPriv)
  deriving DecidableEq, Repr

def Priv.ident? : Priv → Option Nat
  | .null => none
  | .synthetic p => some p.ident
  | .vcam p => some p.ident

structure Source where
  ident : Nat
  backend : Backend
  priv : Priv
  seq : Nat
  deriving DecidableEq, Repr

inductive Op where
  | start | stop | nextFrame | exportDmabuf
  deriving DecidableEq, Repr

inductive SourceEvent where
  | create (source : Nat)
  | destroy (source : Nat)
  | call (op : Op) (source : Nat)
  | allocPriv (priv : Nat)
  | freePriv (priv : Nat)
  deriving DecidableEq, Repr

structure Params where
  syntheticDropEvery : Nat := 0
  vcamFps : Nat := 30
  vcamDropEvery : Nat := 0
  deriving DecidableEq, Repr

structure VcamFb where
  refcount : Nat
  size : Nat
  deriving DecidableEq, Repr

structure Machine where
  clock : Nat → Nat
  tick : Nat
  next : Nat
  mem : Mem
  params : Params
  fbs : Nat → VcamFb
  fbReleased : List Nat
  trace : List SourceEvent

/- The kernel's allocations during one start: each kzalloc/vmalloc may fail. -/
structure StartEnv where
  priv : Bool := true
  fb : Bool := true
  vaddr : Bool := true
  deriving DecidableEq, Repr

def Machine.ktimeGetNs (m : Machine) : Nat × Machine := (m.clock m.tick,{m with tick := m.tick + 1})

def Machine.note (m : Machine) (e : SourceEvent) : Machine := {m with trace := e :: m.trace}

def Machine.allocPriv (m : Machine) : Nat × Machine :=
  (m.next,{m with next := m.next + 1, trace := .allocPriv m.next :: m.trace})

def Machine.freePriv (m : Machine) (p : Nat) : Machine := m.note (.freePriv p)

def pageAlign (bytes : Nat) : Nat := (bytes + 4095) / 4096 * 4096

def fbPlane (m : Machine) (fb : Nat) : Plane := ⟨fb,(m.fbs fb).size⟩

def gradientRows (dst : Plane) (width height stride offset : Nat) (m : Mem) : Mem :=
  loop height (fun y m => loop width (fun x m =>
    m.write dst (u32 (y * stride) + x) (UInt8.ofNat (u32 (x + y + offset) &&& 0xFF))) m) m

def syntheticFillGradient (dst : Plane) (width height stride offset : Nat) (m : Mem) : Mem :=
  gradientRows dst width height stride offset m

def vcamFillGradient (dst : Plane) (width height stride offset : Nat) (m : Mem) : Mem :=
  (gradientRows dst width height stride offset m).write dst 0 (UInt8.ofNat (offset &&& 0xFF))

structure NextFrame where
  ret : Option Errno
  desc : FrameDesc
  src : Source
  machine : Machine

def fixtureNextFrame (m : Machine) (src : Source) (desc : FrameDesc) : NextFrame := ⟨none,desc,src,m⟩

def syntheticStart (m : Machine) (src : Source) (env : StartEnv) : Option Errno × Source × Machine :=
  if !env.priv then (some .enomem,src,m)
  else
    let (ident,m) := m.allocPriv
    (none,{src with priv := .synthetic ⟨ident,0,0,m.params.syntheticDropEvery⟩},m)

def syntheticStop (m : Machine) (src : Source) : Source × Machine :=
  match src.priv.ident? with
  | none => ({src with priv := .null},m)
  | some p => ({src with priv := .null},m.freePriv p)

def syntheticNextFrame (m : Machine) (src : Source) (vaddr : Option Plane) (desc : FrameDesc) : NextFrame :=
  match src.priv with
  | .synthetic p =>
    if desc.width = 0 ∨ desc.height = 0 ∨ desc.stride = 0 then ⟨some .einval,desc,src,m⟩
    else match vaddr with
      | none => ⟨some .efault,desc,src,m⟩
      | some dst =>
        let p := {p with framesProduced := u32 (p.framesProduced + 1)}
        if p.dropEveryN ≠ 0 ∧ p.framesProduced % p.dropEveryN = 0 then
          ⟨none,{desc with flags := desc.flags ||| frameFlagDropped},{src with priv := .synthetic p},m⟩
        else
          let mem := syntheticFillGradient dst desc.width desc.height desc.stride p.patternOffset m.mem
          ⟨none,desc,{src with priv := .synthetic {p with patternOffset := u32 (p.patternOffset + 1)}},
            {m with mem := mem}⟩
  | _ => ⟨some .einval,desc,src,m⟩

def vcamFbAlloc (m : Machine) (bytes : Nat) (env : StartEnv) : Option Nat × Machine :=
  if !env.fb then (none,m)
  else
    let size := pageAlign bytes
    if !env.vaddr then (none,m)
    else (some m.next,{m with
      next := m.next + 1
      mem := m.mem.clear m.next
      fbs := Function.update m.fbs m.next ⟨1,size⟩})

def vcamFbGet (m : Machine) (fb : Nat) : Machine :=
  {m with fbs := Function.update m.fbs fb {m.fbs fb with refcount := (m.fbs fb).refcount + 1}}

def vcamFbPut (m : Machine) (fb : Nat) : Machine :=
  let left := (m.fbs fb).refcount - 1
  let m := {m with fbs := Function.update m.fbs fb {m.fbs fb with refcount := left}}
  if left = 0 then {m with fbReleased := fb :: m.fbReleased} else m

def nsecPerSec : Nat := 1000000000

def vcamStart (m : Machine) (src : Source) (sizeimage : Nat) (env : StartEnv) :
    Option Errno × Source × Machine :=
  if sizeimage = 0 then (some .einval,src,m)
  else if !env.priv then (some .enomem,src,m)
  else
    let (ident,m) := m.allocPriv
    match vcamFbAlloc m sizeimage env with
    | (none,m) => (some .enomem,src,m.freePriv ident)
    | (some fb,m) =>
      let (base,m) := m.ktimeGetNs
      let interval := if m.params.vcamFps ≠ 0 then nsecPerSec / m.params.vcamFps else 0
      (none,{src with priv := .vcam ⟨ident,fb,0,0,m.params.vcamDropEvery,base,interval⟩},m)

def vcamStop (m : Machine) (src : Source) : Source × Machine :=
  match src.priv with
  | .vcam p => ({src with priv := .null},(vcamFbPut m p.fb).freePriv p.ident)
  | _ => (src,m)

def vcamNextFrame (m : Machine) (src : Source) (vaddr : Option Plane) (desc : FrameDesc) : NextFrame :=
  match src.priv with
  | .vcam p =>
    if desc.width = 0 ∨ desc.height = 0 ∨ desc.stride = 0 then ⟨some .einval,desc,src,m⟩
    else
      let frameBytes := desc.stride * desc.height
      if frameBytes > (m.fbs p.fb).size then ⟨some .einval,desc,src,m⟩
      else match vaddr with
        | none => ⟨some .efault,desc,src,m⟩
        | some dst =>
          let desc := {desc with sourceTimestampNs := u64 (p.baseTsNs + p.framesProduced * p.frameIntervalNs)}
          let counted := {p with framesProduced := u32 (p.framesProduced + 1)}
          if p.dropEveryN ≠ 0 ∧ p.framesProduced % p.dropEveryN = 0 then
            ⟨none,{desc with flags := desc.flags ||| frameFlagDropped},{src with priv := .vcam counted},m⟩
          else
            let fb := fbPlane m p.fb
            let mem := vcamFillGradient fb desc.width desc.height desc.stride p.patternOffset m.mem
            let mem := if dst.block ≠ fb.block then mem.copy dst 0 fb 0 frameBytes else mem
            ⟨none,{desc with byteused := u32 frameBytes},
              {src with priv := .vcam {counted with patternOffset := u32 (p.patternOffset + 1)}},
              {m with mem := mem}⟩
  | _ => ⟨some .einval,desc,src,m⟩

/- dma_buf_export and dma_buf_fd may fail; `fd` is the descriptor the kernel would give. A
DMA-BUF that gets no descriptor is put at once, which runs vcam_dmabuf_release. -/
def vcamExportDmabuf (m : Machine) (src : Source) (exported : Bool) (fd : Option Nat) :
    Except Errno Nat × Machine :=
  match src.priv with
  | .vcam p =>
    let m := vcamFbGet m p.fb
    if !exported then (.error .enomem,vcamFbPut m p.fb)
    else match fd with
      | none => (.error .emfile,vcamFbPut m p.fb)
      | some fd => (.ok fd,m)
  | _ => (.error .einval,m)

def vpipeSourceCreate (m : Machine) (id : Nat) (allocated : Bool) : Except Errno (Source × Machine) :=
  match Backend.ofId id with
  | none => .error .einval
  | some backend =>
    if !allocated then .error .enomem
    else .ok (⟨m.next,backend,.null,0⟩,{m with next := m.next + 1, trace := .create m.next :: m.trace})

def stopOp (m : Machine) (src : Source) : Source × Machine :=
  match src.backend with
  | .fixture => (src,m)
  | .synthetic => syntheticStop m src
  | .vcamDerived => vcamStop m src

def vpipeSourceStop (m : Machine) (src : Source) : Source × Machine :=
  stopOp (m.note (.call .stop src.ident)) src

/- The structure's last contents are returned too: nothing clears a dangling pointer. -/
def vpipeSourceDestroy (m : Machine) (src : Source) : Source × Machine :=
  let (src,m) := vpipeSourceStop m src
  (src,m.note (.destroy src.ident))

def vpipeSourceStart (m : Machine) (src : Source) (sizeimage : Nat) (env : StartEnv) :
    Option Errno × Source × Machine :=
  let m := m.note (.call .start src.ident)
  match src.backend with
  | .fixture => (none,src,m)
  | .synthetic => syntheticStart m src env
  | .vcamDerived => vcamStart m src sizeimage env

def nextFrameOp (m : Machine) (src : Source) (vaddr : Option Plane) (desc : FrameDesc) : NextFrame :=
  match src.backend with
  | .fixture => fixtureNextFrame m src desc
  | .synthetic => syntheticNextFrame m src vaddr desc
  | .vcamDerived => vcamNextFrame m src vaddr desc

def vpipeSourceNextFrame (m : Machine) (src : Source) (vaddr : Option Plane) (desc : FrameDesc) : NextFrame :=
  let m := m.note (.call .nextFrame src.ident)
  let desc : FrameDesc := {width := desc.width, height := desc.height, stride := desc.stride}
  let r := nextFrameOp m src vaddr desc
  match r.ret with
  | some e => ⟨some e,r.desc,r.src,r.machine⟩
  | none =>
    let (stamp,m) :=
      if r.desc.sourceTimestampNs = 0 then r.machine.ktimeGetNs else (r.desc.sourceTimestampNs,r.machine)
    ⟨none,{r.desc with sourceTimestampNs := stamp, backendId := r.src.backend.id, sequence := r.src.seq},
      {r.src with seq := u32 (r.src.seq + 1)},m⟩

def vpipeSourceExportDmabuf (m : Machine) (src : Source) (exported : Bool) (fd : Option Nat) :
    Except Errno Nat × Machine :=
  let m := m.note (.call .exportDmabuf src.ident)
  match src.backend with
  | .vcamDerived => vcamExportDmabuf m src exported fd
  | _ => (.error .eopnotsupp,m)

section Backends
variable (m : Machine) (src : Source) (vaddr : Option Plane) (desc : FrameDesc)

inductive SyntheticNext : NextFrame → Prop where
  | refused (e : Errno) : SyntheticNext ⟨some e,desc,src,m⟩
  | dropped {p : SyntheticPriv} {dst : Plane} (priv : src.priv = .synthetic p) (mapped : vaddr = some dst)
      (drop : p.dropEveryN ≠ 0 ∧ u32 (p.framesProduced + 1) % p.dropEveryN = 0) :
      SyntheticNext ⟨none,{desc with flags := desc.flags ||| frameFlagDropped},
        {src with priv := .synthetic {p with framesProduced := u32 (p.framesProduced + 1)}},m⟩
  | drawn {p : SyntheticPriv} {dst : Plane} (priv : src.priv = .synthetic p) (mapped : vaddr = some dst)
      (keep : ¬ (p.dropEveryN ≠ 0 ∧ u32 (p.framesProduced + 1) % p.dropEveryN = 0)) :
      SyntheticNext ⟨none,desc,
        {src with priv := .synthetic {p with
          framesProduced := u32 (p.framesProduced + 1), patternOffset := u32 (p.patternOffset + 1)}},
        {m with mem := syntheticFillGradient dst desc.width desc.height desc.stride p.patternOffset m.mem}⟩

def dated (p : VcamPriv) : FrameDesc :=
  {desc with sourceTimestampNs := u64 (p.baseTsNs + p.framesProduced * p.frameIntervalNs)}

def vcamDraw (p : VcamPriv) (dst : Plane) : Mem :=
  let fb := fbPlane m p.fb
  let mem := vcamFillGradient fb desc.width desc.height desc.stride p.patternOffset m.mem
  if dst.block ≠ fb.block then mem.copy dst 0 fb 0 (desc.stride * desc.height) else mem

inductive VcamNext : NextFrame → Prop where
  | refused (e : Errno) : VcamNext ⟨some e,desc,src,m⟩
  | dropped {p : VcamPriv} {dst : Plane} (priv : src.priv = .vcam p) (mapped : vaddr = some dst)
      (drop : p.dropEveryN ≠ 0 ∧ p.framesProduced % p.dropEveryN = 0) :
      VcamNext ⟨none,{dated desc p with flags := desc.flags ||| frameFlagDropped},
        {src with priv := .vcam {p with framesProduced := u32 (p.framesProduced + 1)}},m⟩
  | drawn {p : VcamPriv} {dst : Plane} (priv : src.priv = .vcam p) (mapped : vaddr = some dst)
      (keep : ¬ (p.dropEveryN ≠ 0 ∧ p.framesProduced % p.dropEveryN = 0))
      (shape : ¬ (desc.width = 0 ∨ desc.height = 0 ∨ desc.stride = 0))
      (room : desc.stride * desc.height ≤ (m.fbs p.fb).size) :
      VcamNext ⟨none,{dated desc p with byteused := u32 (desc.stride * desc.height)},
        {src with priv := .vcam {p with
          framesProduced := u32 (p.framesProduced + 1), patternOffset := u32 (p.patternOffset + 1)}},
        {m with mem := vcamDraw m desc p dst}⟩

theorem syntheticSource : SyntheticNext m src vaddr desc (syntheticNextFrame m src vaddr desc) := by
  unfold syntheticNextFrame
  split
  · rename_i p priv
    split
    · exact .refused _
    · cases vaddr with
      | none => exact .refused _
      | some dst =>
        simp only
        split
        · rename_i drop
          exact .dropped priv rfl drop
        · rename_i keep
          exact .drawn priv rfl keep
  · exact .refused _

theorem vcamSource : VcamNext m src vaddr desc (vcamNextFrame m src vaddr desc) := by
  unfold vcamNextFrame
  split
  · rename_i p priv
    split
    · exact .refused _
    · rename_i shape
      simp only
      split
      · exact .refused _
      · rename_i room
        cases vaddr with
        | none => exact .refused _
        | some dst =>
          simp only
          split
          · rename_i drop
            exact .dropped priv rfl drop
          · rename_i keep
            exact .drawn priv rfl keep shape (Nat.not_lt.mp room)
  · exact .refused _

inductive Next : NextFrame → Prop where
  | fixture (backend : src.backend = .fixture) : Next ⟨none,desc,src,m⟩
  | synthetic {r : NextFrame} (backend : src.backend = .synthetic) (next : SyntheticNext m src vaddr desc r) :
      Next r
  | vcam {r : NextFrame} (backend : src.backend = .vcamDerived) (next : VcamNext m src vaddr desc r) : Next r

theorem nextSource : Next m src vaddr desc (nextFrameOp m src vaddr desc) := by
  unfold nextFrameOp
  split
  · rename_i backend
    exact .fixture backend
  · rename_i backend
    exact .synthetic backend (syntheticSource m src vaddr desc)
  · rename_i backend
    exact .vcam backend (vcamSource m src vaddr desc)

end Backends

structure Grows (m m' : Machine) : Prop where
  clock : m'.clock = m.clock
  next : m.next ≤ m'.next
  tick : m.tick ≤ m'.tick

structure Silent (m m' : Machine) : Prop extends Grows m m' where
  log : m'.mem.log = m.mem.log

theorem silentTrans {m m' m'' : Machine} (first : Silent m m') (second : Silent m' m'') : Silent m m'' :=
  ⟨⟨second.clock.trans first.clock,Nat.le_trans first.next second.next,Nat.le_trans first.tick second.tick⟩,
    second.log.trans first.log⟩

theorem fbPutSilent (m : Machine) (fb : Nat) : Silent m (vcamFbPut m fb) := by
  unfold vcamFbPut
  simp only
  split <;> exact ⟨⟨rfl,Nat.le_refl _,Nat.le_refl _⟩,rfl⟩

theorem stopSilent (m : Machine) (src : Source) : Silent m (vpipeSourceStop m src).2 := by
  unfold vpipeSourceStop stopOp
  have noted : Silent m (m.note (.call .stop src.ident)) := ⟨⟨rfl,Nat.le_refl _,Nat.le_refl _⟩,rfl⟩
  cases src.backend with
  | fixture => exact noted
  | synthetic =>
    simp only [syntheticStop]
    split
    · exact noted
    · exact silentTrans noted ⟨⟨rfl,Nat.le_refl _,Nat.le_refl _⟩,rfl⟩
  | vcamDerived =>
    simp only [vcamStop]
    split
    · exact silentTrans noted (silentTrans (fbPutSilent _ _) ⟨⟨rfl,Nat.le_refl _,Nat.le_refl _⟩,rfl⟩)
    · exact noted

theorem destroySilent (m : Machine) (src : Source) : Silent m (vpipeSourceDestroy m src).2 :=
  silentTrans (stopSilent m src) ⟨⟨rfl,Nat.le_refl _,Nat.le_refl _⟩,rfl⟩

theorem createIs {m m' : Machine} {id : Nat} {allocated : Bool} {src : Source}
    (created : vpipeSourceCreate m id allocated = .ok (src,m')) :
    ∃ backend, src = ⟨m.next,backend,.null,0⟩ ∧
      m' = {m with next := m.next + 1, trace := .create m.next :: m.trace} := by
  unfold vpipeSourceCreate at created
  split at created
  · contradiction
  · split at created
    · contradiction
    · cases created
      exact ⟨_,rfl,rfl⟩

theorem createSilent {m m' : Machine} {id : Nat} {allocated : Bool} {src : Source}
    (made : vpipeSourceCreate m id allocated = .ok (src,m')) : Silent m m' := by
  obtain ⟨_, _, rfl⟩ := createIs made
  exact ⟨⟨rfl,Nat.le_succ _,Nat.le_refl _⟩,rfl⟩

theorem fbAllocSilent (m : Machine) (bytes : Nat) (env : StartEnv) : Silent m (vcamFbAlloc m bytes env).2 := by
  unfold vcamFbAlloc
  split
  · exact ⟨⟨rfl,Nat.le_refl _,Nat.le_refl _⟩,rfl⟩
  · simp only
    split
    · exact ⟨⟨rfl,Nat.le_refl _,Nat.le_refl _⟩,rfl⟩
    · exact ⟨⟨rfl,Nat.le_succ _,Nat.le_refl _⟩,rfl⟩

theorem startSilent (m : Machine) (src : Source) (sizeimage : Nat) (env : StartEnv) :
    Silent m (vpipeSourceStart m src sizeimage env).2.2 := by
  unfold vpipeSourceStart
  have noted : Silent m (m.note (.call .start src.ident)) := ⟨⟨rfl,Nat.le_refl _,Nat.le_refl _⟩,rfl⟩
  cases src.backend with
  | fixture => exact noted
  | synthetic =>
    simp only [syntheticStart]
    split
    · exact noted
    · exact ⟨⟨rfl,Nat.le_succ _,Nat.le_refl _⟩,rfl⟩
  | vcamDerived =>
    simp only [vcamStart]
    split
    · exact noted
    · split
      · exact noted
      · have priv : Silent m (m.note (.call .start src.ident)).allocPriv.2 :=
          ⟨⟨rfl,Nat.le_succ _,Nat.le_refl _⟩,rfl⟩
        have fb := silentTrans priv (fbAllocSilent _ sizeimage env)
        split <;> rename_i made
        · rw [made] at fb
          exact silentTrans fb ⟨⟨rfl,Nat.le_refl _,Nat.le_refl _⟩,rfl⟩
        · rw [made] at fb
          exact silentTrans fb ⟨⟨rfl,Nat.le_refl _,Nat.le_succ _⟩,rfl⟩

theorem exportSilent (m : Machine) (src : Source) (exported : Bool) (fd : Option Nat) :
    Silent m (vpipeSourceExportDmabuf m src exported fd).2 := by
  unfold vpipeSourceExportDmabuf
  have noted : Silent m (m.note (.call .exportDmabuf src.ident)) := ⟨⟨rfl,Nat.le_refl _,Nat.le_refl _⟩,rfl⟩
  simp only
  split
  · simp only [vcamExportDmabuf]
    split
    · rename_i p _
      have got : Silent m (vcamFbGet (m.note (.call .exportDmabuf src.ident)) p.fb) :=
        ⟨⟨rfl,Nat.le_refl _,Nat.le_refl _⟩,rfl⟩
      split
      · exact silentTrans got (fbPutSilent _ _)
      · split
        · exact silentTrans got (fbPutSilent _ _)
        · exact got
    · exact noted
  · exact noted

theorem nextFrameOpGrows (m : Machine) (src : Source) (vaddr : Option Plane) (desc : FrameDesc) :
    Grows m (nextFrameOp m src vaddr desc).machine := by
  have source := nextSource m src vaddr desc
  generalize nextFrameOp m src vaddr desc = r at source ⊢
  cases source with
  | fixture _ => exact ⟨rfl,Nat.le_refl _,Nat.le_refl _⟩
  | synthetic _ next => cases next <;> exact ⟨rfl,Nat.le_refl _,Nat.le_refl _⟩
  | vcam _ next => cases next <;> exact ⟨rfl,Nat.le_refl _,Nat.le_refl _⟩

theorem nextFrameGrows (m : Machine) (src : Source) (vaddr : Option Plane) (desc : FrameDesc) :
    Grows m (vpipeSourceNextFrame m src vaddr desc).machine := by
  have op := nextFrameOpGrows (m.note (.call .nextFrame src.ident)) src vaddr
    {width := desc.width, height := desc.height, stride := desc.stride}
  unfold vpipeSourceNextFrame
  simp only
  split
  · exact ⟨op.clock,op.next,op.tick⟩
  · split
    · exact ⟨op.clock,op.next,Nat.le_succ_of_le op.tick⟩
    · exact ⟨op.clock,op.next,op.tick⟩

def startFails (backend : Backend) (sizeimage : Nat) (env : StartEnv) : Bool :=
  match backend with
  | .fixture => false
  | .synthetic => !env.priv
  | .vcamDerived => sizeimage = 0 || !env.priv || !env.fb || !env.vaddr

theorem startFailed (m : Machine) (src : Source) (sizeimage : Nat) (env : StartEnv) :
    (vpipeSourceStart m src sizeimage env).1 ≠ none ↔ startFails src.backend sizeimage env = true := by
  unfold vpipeSourceStart startFails
  cases src.backend with
  | fixture => simp
  | synthetic => cases priv : env.priv <;> simp [syntheticStart, priv]
  | vcamDerived =>
    by_cases zero : sizeimage = 0
    · simp [vcamStart, zero]
    · cases priv : env.priv <;> cases fb : env.fb <;> cases vaddr : env.vaddr <;>
        simp [vcamStart, vcamFbAlloc, zero, priv, fb, vaddr]

theorem nextFrameOpSource (m : Machine) (src : Source) (vaddr : Option Plane) (desc : FrameDesc) :
    (nextFrameOp m src vaddr desc).src.ident = src.ident ∧
    (nextFrameOp m src vaddr desc).src.backend = src.backend := by
  have source := nextSource m src vaddr desc
  generalize nextFrameOp m src vaddr desc = r at source ⊢
  cases source with
  | fixture _ => exact ⟨rfl,rfl⟩
  | synthetic _ next => cases next <;> exact ⟨rfl,rfl⟩
  | vcam _ next => cases next <;> exact ⟨rfl,rfl⟩

theorem nextFrameSource (m : Machine) (src : Source) (vaddr : Option Plane) (desc : FrameDesc) :
    (vpipeSourceNextFrame m src vaddr desc).src.ident = src.ident ∧
    (vpipeSourceNextFrame m src vaddr desc).src.backend = src.backend := by
  have op := nextFrameOpSource (m.note (.call .nextFrame src.ident)) src vaddr
    {width := desc.width, height := desc.height, stride := desc.stride}
  unfold vpipeSourceNextFrame
  simp only
  split
  · exact op
  · exact op

theorem stopSource (m : Machine) (src : Source) : (vpipeSourceStop m src).1.ident = src.ident ∧
    (vpipeSourceStop m src).1.backend = src.backend := by
  simp only [vpipeSourceStop, stopOp, syntheticStop, vcamStop]
  split
  · exact ⟨rfl,rfl⟩
  · split <;> exact ⟨rfl,rfl⟩
  · split <;> exact ⟨rfl,rfl⟩

theorem startSource (m : Machine) (src : Source) (sizeimage : Nat) (env : StartEnv) :
    (vpipeSourceStart m src sizeimage env).2.1.ident = src.ident ∧
    (vpipeSourceStart m src sizeimage env).2.1.backend = src.backend := by
  simp only [vpipeSourceStart, syntheticStart, vcamStart]
  split
  · exact ⟨rfl,rfl⟩
  · split <;> exact ⟨rfl,rfl⟩
  · split
    · exact ⟨rfl,rfl⟩
    · split
      · exact ⟨rfl,rfl⟩
      · split <;> exact ⟨rfl,rfl⟩

def Answers (m : Machine) (src : Source) (bytes : Nat) : Prop :=
  match src.backend, src.priv with
  | .fixture, _ => True
  | .synthetic, .synthetic _ => True
  | .vcamDerived, .vcam p => bytes ≤ (m.fbs p.fb).size
  | _, _ => False

theorem nextFrameOpAnswers {m : Machine} {src : Source} {desc : FrameDesc} (dst : Plane)
    (answers : Answers m src (desc.stride * desc.height))
    (shape : desc.width ≠ 0 ∧ desc.height ≠ 0 ∧ desc.stride ≠ 0) :
    (nextFrameOp m src (some dst) desc).ret = none := by
  obtain ⟨width, height, stride⟩ := shape
  obtain ⟨ident, backend, priv, seq⟩ := src
  cases backend <;> cases priv <;> simp only [Answers] at answers
  case synthetic.synthetic p =>
    simp only [nextFrameOp, syntheticNextFrame, width, height, stride, or_self, if_false]
    split <;> rfl
  case vcamDerived.vcam p =>
    simp only [nextFrameOp, vcamNextFrame, width, height, stride, or_self, if_false, Nat.not_lt.mpr answers]
    split <;> rfl
  all_goals rfl

theorem nextFrameAnswers {m : Machine} {src : Source} {desc : FrameDesc} (dst : Plane)
    (answers : Answers m src (desc.stride * desc.height))
    (shape : desc.width ≠ 0 ∧ desc.height ≠ 0 ∧ desc.stride ≠ 0) :
    (vpipeSourceNextFrame m src (some dst) desc).ret = none := by
  have op : (nextFrameOp (m.note (.call .nextFrame src.ident)) src (some dst)
      {width := desc.width, height := desc.height, stride := desc.stride}).ret = none :=
    nextFrameOpAnswers dst answers shape
  simp only [vpipeSourceNextFrame, op]

theorem nextFrameStamps {m : Machine} {src : Source} {vaddr : Option Plane} {desc : FrameDesc}
    (ticks : ∀ n, m.clock n ≠ 0) (given : (vpipeSourceNextFrame m src vaddr desc).ret = none) :
    (vpipeSourceNextFrame m src vaddr desc).desc.backendId = src.backend.id ∧
    (vpipeSourceNextFrame m src vaddr desc).desc.sourceTimestampNs ≠ 0 := by
  have clock := (nextFrameOpGrows (m.note (.call .nextFrame src.ident)) src vaddr
    {width := desc.width, height := desc.height, stride := desc.stride}).clock
  have backend := (nextFrameOpSource (m.note (.call .nextFrame src.ident)) src vaddr
    {width := desc.width, height := desc.height, stride := desc.stride}).2
  unfold vpipeSourceNextFrame at given ⊢
  simp only at given ⊢
  split at given
  · contradiction
  · refine ⟨congrArg Backend.id backend,?_⟩
    simp only
    split
    · simp only [Machine.ktimeGetNs, clock]
      exact ticks _
    · assumption

section Bounds
variable {dst : Plane} {width height stride offset : Nat} {m : Mem}

theorem gradientWithin (row : width ≤ stride) (total : height * stride < 2^32)
    (fits : height * stride ≤ dst.size) :
    Within Access.InBounds m (gradientRows dst width height stride offset m) := by
  refine withinLoop (fun y t inFrame => withinLoop (fun x u inRow => withinWrite u _ ?_))
  have bound := rowBound (Nat.lt_of_lt_of_le inRow row) inFrame
  rw [rowOffset inFrame total]
  constructor <;> simp only <;> omega

theorem vcamGradientWithin (row : width ≤ stride) (total : height * stride < 2^32)
    (fits : height * stride ≤ dst.size) (some : 0 < height * stride) :
    Within Access.InBounds m (vcamFillGradient dst width height stride offset m) := by
  refine withinTrans (gradientWithin row total fits) (withinWrite _ _ ?_)
  constructor <;> simp only <;> omega

end Bounds

theorem vcamDrawWithin {m : Machine} {desc : FrameDesc} {p : VcamPriv} {dst : Plane}
    (row : desc.width ≤ desc.stride) (total : desc.height * desc.stride < 2^32)
    (fits : desc.height * desc.stride ≤ dst.size)
    (shape : ¬ (desc.width = 0 ∨ desc.height = 0 ∨ desc.stride = 0))
    (room : desc.stride * desc.height ≤ (m.fbs p.fb).size) :
    Within Access.InBounds m.mem (vcamDraw m desc p dst) := by
  have order : desc.stride * desc.height = desc.height * desc.stride := Nat.mul_comm _ _
  have some : 0 < desc.height * desc.stride := Nat.mul_pos (by omega) (by omega)
  have fill : Within Access.InBounds m.mem (vcamFillGradient (fbPlane m p.fb) desc.width
      desc.height desc.stride p.patternOffset m.mem) :=
    vcamGradientWithin row total (by simp only [fbPlane]; omega) some
  unfold vcamDraw
  simp only
  split
  · refine withinTrans fill (withinCopy ?_ ?_)
    · intro k below
      constructor <;> simp only [fbPlane] <;> omega
    · intro k below
      constructor <;> simp only <;> omega
  · exact fill

theorem nextFrameOpWithin {m : Machine} {src : Source} {vaddr : Option Plane} {desc : FrameDesc}
    (row : desc.width ≤ desc.stride) (total : desc.height * desc.stride < 2^32)
    (fits : ∀ dst ∈ vaddr, desc.height * desc.stride ≤ dst.size) :
    Within Access.InBounds m.mem (nextFrameOp m src vaddr desc).machine.mem := by
  have source := nextSource m src vaddr desc
  generalize nextFrameOp m src vaddr desc = r at source ⊢
  cases source with
  | fixture _ => exact withinRefl _
  | synthetic _ next =>
    cases next with
    | refused _ => exact withinRefl _
    | dropped _ _ _ => exact withinRefl _
    | drawn _ mapped _ => exact gradientWithin row total (fits _ mapped)
  | vcam _ next =>
    cases next with
    | refused _ => exact withinRefl _
    | dropped _ _ _ => exact withinRefl _
    | drawn _ mapped _ shape room => exact vcamDrawWithin row total (fits _ mapped) shape room

theorem nextFrameWithin {m : Machine} {src : Source} {vaddr : Option Plane} {desc : FrameDesc}
    (row : desc.width ≤ desc.stride) (total : desc.height * desc.stride < 2^32)
    (fits : ∀ dst ∈ vaddr, desc.height * desc.stride ≤ dst.size) :
    Within Access.InBounds m.mem (vpipeSourceNextFrame m src vaddr desc).machine.mem := by
  have op : Within Access.InBounds m.mem (nextFrameOp (m.note (.call .nextFrame src.ident)) src vaddr
      {width := desc.width, height := desc.height, stride := desc.stride}).machine.mem :=
    nextFrameOpWithin row total fits
  unfold vpipeSourceNextFrame
  simp only
  split
  · exact op
  · split <;> exact op

end Vpipe.FrameSource
