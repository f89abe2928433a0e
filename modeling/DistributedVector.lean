import DistributedVector.Device.Graphics
import DistributedVector.Machine.Basic
import DistributedVector.Proofs.Aliasing
import DistributedVector.Proofs.Asynchrony
import DistributedVector.Proofs.CacheHistory
import DistributedVector.Proofs.Compatibility
import DistributedVector.Proofs.Compilable
import DistributedVector.Proofs.Cursors
import DistributedVector.Proofs.Declarations
import DistributedVector.Proofs.Dispatch
import DistributedVector.Proofs.FailedResize
import DistributedVector.Proofs.Grids
import DistributedVector.Proofs.Halving
import DistributedVector.Proofs.HostRanges
import DistributedVector.Proofs.HostTransfer
import DistributedVector.Proofs.Interruption
import DistributedVector.Proofs.KernelNames
import DistributedVector.Proofs.KernelText
import DistributedVector.Proofs.Negation
import DistributedVector.Proofs.Preserving
import DistributedVector.Proofs.Promotion
import DistributedVector.Proofs.Reading
import DistributedVector.Proofs.Rejection
import DistributedVector.Proofs.Remainder
import DistributedVector.Proofs.Scope
import DistributedVector.Proofs.Shares
import DistributedVector.Proofs.Summands
import DistributedVector.Proofs.Workgroup
import DistributedVector.Store.Combine
import DistributedVector.Store.Cursor
import DistributedVector.Store.Resize
