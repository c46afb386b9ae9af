import SyscallVector.Lib.Transition
import SyscallVector.Lib.FirstMatch
import SyscallVector.Lib.Decimal
import SyscallVector.Lib.CString
import SyscallVector.Lib.LinkedList
import SyscallVector.Lib.CellTrace
import SyscallVector.Lib.Forest
import SyscallVector.Lib.Holders
import SyscallVector.Lib.Ledger
import SyscallVector.Lib.WriteTrace
import SyscallVector.Lib.Threads
import SyscallVector.Lib.CriticalSections
import SyscallVector.Lib.Memory
import SyscallVector.Lib.Paths
import SyscallVector.Model.VectorStruct
import SyscallVector.Model.VecLoadUnload
import SyscallVector.Model.Chain
import SyscallVector.Model.VectorModules
import SyscallVector.Model.IoctlModule
import SyscallVector.Model.System
import SyscallVector.Model.UserIoctl
import SyscallVector.Model.ListingWrites
import SyscallVector.Model.Fork
import SyscallVector.Model.SysClone2
import SyscallVector.Model.OverriddenSyscalls
import SyscallVector.Model.IoctlTraces
import SyscallVector.Model.UserMemory
import SyscallVector.Model.LoggedWrites
import SyscallVector.Model.HandlerTraces
import SyscallVector.Model.Statements
import SyscallVector.Audit.Rendering
import SyscallVector.Audit.Building
import SyscallVector.Audit.Addresses
import SyscallVector.Audit.IoctlInversion
import SyscallVector.Audit.Events
import SyscallVector.Audit.Boot
import SyscallVector.Audit.VectorNames
import SyscallVector.Audit.OrderIndependence
import SyscallVector.Audit.IoctlRuns
import SyscallVector.Audit.FailedRequest
import SyscallVector.Audit.ChainIntegrity
import SyscallVector.Audit.CreatedVector
import SyscallVector.Audit.BitmapUniqueness
import SyscallVector.Audit.ExactCounts
import SyscallVector.Audit.Listing
import SyscallVector.Audit.ReferenceLedger
import SyscallVector.Audit.ModulePinning
import SyscallVector.Audit.ChainOwnership
import SyscallVector.Audit.UseAfterFree
import SyscallVector.Audit.ListingBounds
import SyscallVector.Audit.CloneAccounting
import SyscallVector.Audit.HandlerOutcomes
import SyscallVector.Audit.SyscallTable
import SyscallVector.Audit.Transparency
import SyscallVector.Audit.Refusals
import SyscallVector.Audit.SetRequest
import SyscallVector.Audit.RemoveRequest
import SyscallVector.Audit.CreateRequest
import SyscallVector.Audit.FailedCreation
import SyscallVector.Audit.CreationResult
import SyscallVector.Audit.ListHeads
import SyscallVector.Audit.NullChecks
import SyscallVector.Audit.TemporaryMemory
import SyscallVector.Audit.ShownVector
import SyscallVector.Audit.Registration
import SyscallVector.Audit.CloneById
import SyscallVector.Audit.LoggedWrite
import SyscallVector.Audit.LogBuffers
import SyscallVector.Audit.FileReferences
import SyscallVector.Audit.ProcessName
import SyscallVector.Audit.PathPolicies
import SyscallVector.Audit.NullTable
import SyscallVector.Audit.ChainLifetime
import SyscallVector.Audit.SessionEnd
import SyscallVector.Audit.Atomicity
import SyscallVector.Audit.StrayReferences
import SyscallVector.Audit.LeakedReferences
import SyscallVector.Audit.ListLock
import SyscallVector.Audit.EventsAlone
import SyscallVector.Audit.Deadlock
import SyscallVector.Audit.Serializability
