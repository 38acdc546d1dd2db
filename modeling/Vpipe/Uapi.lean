import Vpipe.Lib.Word

/-! The structures and constants of `vpipe.h` and of the parts of the V4L2 headers
that the module reads. A C structure initialised to zero is the default value. -/
namespace Vpipe

inductive Errno where
  | einval | ebusy | enomem | enodev | efault | eagain | erange | enotty | eopnotsupp
  | erestartsys | emfile
  deriving DecidableEq, Repr

def metaVersion : Nat := 2

def metaFOverrun : Nat := 1 <<< 0
def metaFDropped : Nat := 1 <<< 2

def algoNone : Nat := 0
def algoThreshold : Nat := 1

structure MetaEntry where
  version : Nat := 0
  entrySize : Nat := 0
  flags : Nat := 0
  seq : Nat := 0
  srcV4l2Sequence : Nat := 0
  bufferIndex : Nat := 0
  sourceTimestampNs : Nat := 0
  qbufTimestampNs : Nat := 0
  captureDoneNs : Nat := 0
  dqbufTimestampNs : Nat := 0
  bytesused : Nat := 0
  crc32 : Nat := 0
  algoId : Nat := 0
  algoStatus : Nat := 0
  roiLeft : Int := 0
  roiTop : Int := 0
  roiWidth : Int := 0
  roiHeight : Int := 0
  algoValue0 : Nat := 0
  algoValue1 : Nat := 0
  sourceBackend : Nat := 0
  bufferType : Nat := 0
  queueDepth : Nat := 0
  cpuId : Nat := 0
  deriving DecidableEq, Repr

def sizeofMetaEntry : Nat := 2 + 2 + 4 + 8 + 4 + 4 + 8 * 4 + 4 * 2 + 4 * 2 + 4 * 4 + 8 * 2 + 4 * 4

structure MetaStats where
  published : Nat
  dropped : Nat
  deriving DecidableEq, Repr

def cidBase : Nat := 0x00980900 + 0x1000
def cidSrcSequence : Nat := cidBase + 0
def cidAlgo : Nat := cidBase + 1
def cidRoiLeft : Nat := cidBase + 2
def cidRoiTop : Nat := cidBase + 3
def cidRoiWidth : Nat := cidBase + 4
def cidRoiHeight : Nat := cidBase + 5
def cidThreshold : Nat := cidBase + 6

def pixFmtGrey : Nat := 0x59455247

def MetaEntry.overrun (e : MetaEntry) : Bool := e.flags &&& metaFOverrun != 0

theorem overrunSet (e : MetaEntry) :
    MetaEntry.overrun {e with flags := e.flags ||| metaFOverrun} = true := by
  have bit : (e.flags ||| metaFOverrun) &&& metaFOverrun = 1 := by
    rw [Nat.and_or_distrib_right]
    have low := Nat.and_one_is_mod e.flags
    rcases Nat.mod_two_eq_zero_or_one e.flags with even | odd
    · simp [metaFOverrun, low, even]
    · simp [metaFOverrun, low, odd]
  simp [MetaEntry.overrun, bit]

end Vpipe
