import BcIo.Stream.Session
import BcIo.Mmap.Life
import BcIo.File.Constructors
import BcIo.File.Drain
import BcIo.File.InodeSetBounds
import BcIo.Walk.Selection
import BcIo.Walk.Agreement
import BcIo.Walk.Failure
import BcIo.Walk.Cancellation
import BcIo.Walk.Outstanding
import BcIo.Walk.Containment
import BcIo.Walk.Unknown
import BcIo.Stream.Progress
import BcIo.Stream.Opening
import BcIo.Stream.Transfer
import BcIo.File.Remaining
import BcIo.Mmap.Window
import BcIo.File.DirentReader
import BcIo.File.PathJoin
import BcIo.Perm.Octal
import BcIo.Perm.Resolve
import BcIo.Random
import BcIo.Walk.NamedRoot
import BcIo.Walk.Interruption
import BcIo.Walk.Handover
import BcIo.Custody.Programs
import BcIo.Walk.Liveness
import BcIo.Walk.Bytes
