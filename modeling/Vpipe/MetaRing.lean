import Vpipe.Lib.Ring
import Vpipe.Uapi

/-! The metadata miscdevice of `vpipe-meta.c`. `head`, `published`, `dropped` and the
cursors are u64 in the source and natural numbers here, which is the same for fewer than
2^64 publications and reads since the module was loaded. -/
namespace Vpipe.MetaRing
open Vpipe.Lib

def ringOrder : Nat := 8
def ringSize : Nat := 1 <<< ringOrder
def ringMask : Nat := ringSize - 1

instance : NeZero ringSize := ⟨by decide⟩

theorem maskedBelow (i : Nat) : i &&& ringMask < ringSize :=
  Nat.lt_of_le_of_lt Nat.and_le_right (by decide)

def slot (i : Nat) : Fin ringSize := ⟨i &&& ringMask,maskedBelow i⟩

theorem slotPlace (i : Nat) : slot i = Ring.place ringSize i := by
  apply Fin.ext
  change i &&& (2^8 - 1) = i % 256
  rw [Nat.and_two_pow_sub_one_eq_mod]

structure MetaDev where
  ring : Fin ringSize → MetaEntry
  head : Nat
  published : Nat
  dropped : Nat
  dying : Bool

def MetaDev.init : MetaDev := ⟨fun _ => {},0,0,0,false⟩

structure MetaFile where
  tail : Nat
  deriving DecidableEq, Repr

def normalise (e : MetaEntry) : MetaEntry :=
  {e with version := metaVersion, entrySize := sizeofMetaEntry}

def vpipeMetaPublish (dev : MetaDev) (src : MetaEntry) : MetaDev :=
  let head := dev.head
  let ring := Function.update dev.ring (slot head) (normalise src)
  {dev with
    ring := ring
    head := head + 1
    published := dev.published + 1
    dropped := if head + 1 > ringSize then head + 1 - ringSize else dev.dropped}

def vpipeMetaOpen (dev : MetaDev) : MetaFile := ⟨dev.head⟩

def readable (dev : MetaDev) (file : MetaFile) : Bool := dev.dying || dev.head != file.tail

inductive Locked where
  | dying
  | again
  | entry (e : MetaEntry)
  deriving DecidableEq, Repr

def vpipeMetaReadLocked (dev : MetaDev) (file : MetaFile) : Locked × MetaFile :=
  if dev.dying then (.dying,file)
  else if file.tail = dev.head then (.again,file)
  else
    let oldest := if dev.head > ringSize then dev.head - ringSize else 0
    if file.tail < oldest then
      let e := dev.ring (slot oldest)
      (.entry {e with flags := e.flags ||| metaFOverrun},⟨oldest⟩)
    else (.entry (dev.ring (slot file.tail)),file)

def advance (file : MetaFile) : MetaFile := ⟨file.tail + 1⟩

inductive ReadResult where
  | error (e : Errno)
  | eof
  | entry (e : MetaEntry)
  deriving DecidableEq, Repr

/- vpipe_meta_read run without interference. A blocking read with nothing to wait
for and no signal does not return: that is `none`. -/
def vpipeMetaRead (dev : MetaDev) (file : MetaFile) (count : Nat) (nonblock signal copyOk : Bool) :
    Option (ReadResult × MetaFile) :=
  if count < sizeofMetaEntry then some (.error .einval,file)
  else if !nonblock && !readable dev file then
    if signal then some (.error .erestartsys,file) else none
  else match vpipeMetaReadLocked dev file with
    | (.dying,file) => some (.eof,file)
    | (.again,file) => some (.error .eagain,file)
    | (.entry e,file) =>
      if copyOk then some (.entry e,advance file) else some (.error .efault,file)

def epollin : Nat := 0x001
def epollhup : Nat := 0x010
def epollrdnorm : Nat := 0x040

def vpipeMetaPoll (dev : MetaDev) (file : MetaFile) : Nat :=
  if dev.dying then epollhup
  else if dev.head ≠ file.tail then epollin ||| epollrdnorm
  else 0

def vpipeMetaGetStats (dev : MetaDev) : MetaStats := ⟨dev.published,dev.dropped⟩

def vpipeMetaExit (dev : MetaDev) : MetaDev := {dev with dying := true}

def oldest (dev : MetaDev) : Nat := dev.head - ringSize

theorem lockedEntry {dev : MetaDev} {file : MetaFile} (alive : dev.dying = false)
    (pending : file.tail ≠ dev.head) :
    vpipeMetaReadLocked dev file =
      if file.tail < oldest dev then
        (.entry {dev.ring (slot (oldest dev)) with
          flags := (dev.ring (slot (oldest dev))).flags ||| metaFOverrun},⟨oldest dev⟩)
      else (.entry (dev.ring (slot file.tail)),file) := by
  have bottom : (if dev.head > ringSize then dev.head - ringSize else 0) = oldest dev := by
    unfold oldest
    split <;> omega
  simp only [vpipeMetaReadLocked, alive, Bool.false_eq_true, if_false, pending, bottom]

theorem readAgain {dev : MetaDev} {file : MetaFile} (alive : dev.dying = false) {count : Nat}
    (room : sizeofMetaEntry ≤ count) (signal copyOk : Bool) :
    vpipeMetaRead dev file count true signal copyOk = some (.error .eagain,file) ↔
      file.tail = dev.head := by
  unfold vpipeMetaRead
  rw [if_neg (Nat.not_lt.mpr room)]
  simp only [Bool.not_true, Bool.false_and, Bool.false_eq_true, if_false]
  by_cases empty : file.tail = dev.head
  · simp [vpipeMetaReadLocked, alive, empty]
  · have taken : ∃ e next, vpipeMetaReadLocked dev file = (.entry e,next) := by
      rw [lockedEntry alive empty]
      split
      · exact ⟨_,_,rfl⟩
      · exact ⟨_,_,rfl⟩
    obtain ⟨e, next, taken⟩ := taken
    rw [taken]
    cases copyOk <;> simp [empty]

theorem pollReadable {dev : MetaDev} {file : MetaFile} (alive : dev.dying = false) :
    vpipeMetaPoll dev file &&& epollin = 0 ↔ file.tail = dev.head := by
  unfold vpipeMetaPoll
  by_cases same : dev.head = file.tail
  · simp [alive, same]
  · have other : file.tail ≠ dev.head := fun h => same h.symm
    simp [alive, same, other, epollin, epollrdnorm]

inductive Failure (dev : MetaDev) (file : MetaFile) (count : Nat) (copyOk : Bool) :
    Errno → MetaFile → Prop where
  | short (small : count < sizeofMetaEntry) : Failure dev file count copyOk .einval file
  | signalled (idle : file.tail = dev.head) : Failure dev file count copyOk .erestartsys file
  | again (idle : file.tail = dev.head) : Failure dev file count copyOk .eagain file
  | fault (room : sizeofMetaEntry ≤ count) (fault : copyOk = false) :
      Failure dev file count copyOk .efault ⟨max file.tail (oldest dev)⟩

theorem readFailure {dev : MetaDev} {file file' : MetaFile} {count : Nat}
    {nonblock signal copyOk : Bool} {e : Errno}
    (failed : vpipeMetaRead dev file count nonblock signal copyOk = some (.error e,file')) :
    Failure dev file count copyOk e file' := by
  unfold vpipeMetaRead at failed
  split at failed
  · rename_i small
    cases failed
    exact .short small
  · rename_i room
    split at failed
    · rename_i waiting
      split at failed
      · cases failed
        simp only [readable, Bool.and_eq_true, Bool.not_eq_true', Bool.or_eq_false_iff,
          bne_eq_false_iff_eq] at waiting
        exact .signalled waiting.2.2.symm
      · contradiction
    · by_cases alive : dev.dying = true
      · simp [vpipeMetaReadLocked, alive] at failed
      · by_cases idle : file.tail = dev.head
        · simp only [vpipeMetaReadLocked, alive, idle, Bool.false_eq_true, if_false, if_true] at failed
          cases failed
          exact .again idle
        · have caught : ∃ e, vpipeMetaReadLocked dev file = (.entry e,⟨max file.tail (oldest dev)⟩) := by
            rw [lockedEntry (Bool.not_eq_true _ ▸ alive) idle]
            split
            · rename_i behind
              rw [Nat.max_eq_right (Nat.le_of_lt behind)]
              exact ⟨_,rfl⟩
            · rename_i near
              rw [Nat.max_eq_left (Nat.not_lt.mp near)]
              exact ⟨_,rfl⟩
          obtain ⟨entry, caught⟩ := caught
          rw [caught] at failed
          cases copyOk with
          | true => simp at failed
          | false =>
            simp only [Bool.false_eq_true, if_false] at failed
            cases failed
            exact .fault (Nat.not_lt.mp room) rfl

def Forgotten (dev : MetaDev) (file file' : MetaFile) : Prop :=
  file' = file ∧ ∀ count nonblock signal copyOk,
    vpipeMetaRead dev file' count nonblock signal copyOk = vpipeMetaRead dev file count nonblock signal copyOk

/-- A failed read is forgotten unless copy_to_user faults while the reader is more than a ring
behind: the cursor has then caught up already, and the overrun is not told again. -/
theorem failedReadForgotten {dev : MetaDev} {file file' : MetaFile} {count : Nat}
    {nonblock signal copyOk : Bool} {e : Errno}
    (failed : vpipeMetaRead dev file count nonblock signal copyOk = some (.error e,file')) :
    Forgotten dev file file' ↔ count < sizeofMetaEntry ∨ copyOk = true ∨ oldest dev ≤ file.tail := by
  have behind : oldest dev ≤ dev.head := Nat.sub_le _ _
  have stays : Forgotten dev file file := ⟨rfl,fun _ _ _ _ => rfl⟩
  cases readFailure failed with
  | short small => exact ⟨fun _ => .inl small,fun _ => stays⟩
  | signalled idle => exact ⟨fun _ => .inr (.inr (by omega)),fun _ => stays⟩
  | again idle => exact ⟨fun _ => .inr (.inr (by omega)),fun _ => stays⟩
  | fault room fault =>
    constructor
    · rintro ⟨same, _⟩
      have tail := congrArg MetaFile.tail same
      simp only at tail
      exact .inr (.inr (by omega))
    · intro condition
      have near : oldest dev ≤ file.tail := by
        rcases condition with small | copied | near
        · omega
        · exact absurd (copied.symm.trans fault) (by decide)
        · exact near
      rw [Nat.max_eq_left near]
      exact stays

def wrapped : MetaDev := ⟨fun _ => normalise {},257,257,1,false⟩

theorem nearFaultForgotten :
    vpipeMetaRead wrapped ⟨1⟩ sizeofMetaEntry true false false = some (.error .efault,⟨1⟩) ∧
      Forgotten wrapped ⟨1⟩ ⟨1⟩ :=
  ⟨by decide,(failedReadForgotten (show vpipeMetaRead wrapped ⟨1⟩ sizeofMetaEntry true false false =
    some (.error .efault,⟨1⟩) by decide)).mpr (.inr (.inr (by decide)))⟩

theorem faultHidesOverrun :
    vpipeMetaRead wrapped ⟨0⟩ sizeofMetaEntry true false true =
      some (.entry {normalise {} with flags := metaFOverrun},⟨2⟩) ∧
    vpipeMetaRead wrapped ⟨0⟩ sizeofMetaEntry true false false = some (.error .efault,⟨1⟩) ∧
    vpipeMetaRead wrapped ⟨1⟩ sizeofMetaEntry true false true = some (.entry (normalise {}),⟨2⟩) ∧
    ¬ Forgotten wrapped ⟨0⟩ ⟨1⟩ := by
  refine ⟨by decide,by decide,by decide,?_⟩
  rintro ⟨same, _⟩
  contradiction

end Vpipe.MetaRing
