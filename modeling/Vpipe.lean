import Vpipe.Lib.Word
import Vpipe.Lib.Transition
import Vpipe.Lib.Ring
import Vpipe.Lib.ByteMemory
import Vpipe.Lib.BufferQueue
import Vpipe.Lib.Checked
import Vpipe.Lib.Lifetime
import Vpipe.Lib.RefCount
import Vpipe.Lib.Ledger
import Vpipe.Lib.FileTree
import Vpipe.Lib.WaitQueue
import Vpipe.Lib.Floating
import Vpipe.Lib.AddressSpace
import Vpipe.Uapi
import Vpipe.Crc
import Vpipe.FrameSource
import Vpipe.Gradient
import Vpipe.Schedule
import Vpipe.Framebuffer
import Vpipe.Cv
import Vpipe.CvContract
import Vpipe.Pgm
import Vpipe.PgmFormat
import Vpipe.ParentDir
import Vpipe.Reference
import Vpipe.Agreement
import Vpipe.MetaRing
import Vpipe.MetaReaders
import Vpipe.MetaConcurrent
import Vpipe.MetaContract
import Vpipe.MetaWait
import Vpipe.M2m
import Vpipe.Moves
import Vpipe.Discipline
import Vpipe.Runs
import Vpipe.Formats
import Vpipe.Restart
import Vpipe.Bounds
import Vpipe.Pairing
import Vpipe.Feed
import Vpipe.Teardown
import Vpipe.Frames
import Vpipe.Publication
import Vpipe.Rows
import Vpipe.Device
import Vpipe.Snapshot
import Vpipe.Provenance
import Vpipe.Timeline
import Vpipe.GradientCheck
import Vpipe.Session
import Vpipe.Integrity
import Vpipe.Order
import Vpipe.BenchFixture
import Vpipe.Relay
import Vpipe.VcamTools
import Vpipe.Latency
import Vpipe.PgmDiff
import Vpipe.UserptrFaults
