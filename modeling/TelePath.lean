import TelePath.Logic.Program
import TelePath.Logic.Execution
import TelePath.Logic.Discipline
import TelePath.Logic.Evaluation
import TelePath.Logic.ByteFormat
import TelePath.Logic.Ownership
import TelePath.Logic.Machine
import TelePath.Logic.Parking
import TelePath.Logic.Custody
import TelePath.Logic.Linearizable
import TelePath.Logic.RelyGuarantee
import TelePath.Logic.LinkedList
import TelePath.Types
import TelePath.Buffer.FrameControl
import TelePath.Buffer.FrameFields
import TelePath.Buffer.FrameWaiting
import TelePath.Buffer.FrameFreeList
import TelePath.Buffer.SharedSegment
import TelePath.Buffer.SegmentUsers
import TelePath.Buffer.SegmentOpening
import TelePath.Buffer.ObservationFormat
import TelePath.Io.UringBackend
import TelePath.Io.Engine
import TelePath.Io.EngineDelivery
import TelePath.Io.EngineWait
import TelePath.Io.PosixBackend
import TelePath.Io.BlockTransfer
import TelePath.Buffer.PageTable
import TelePath.Buffer.PageTableWords
import TelePath.Buffer.PageTableChains
import TelePath.Buffer.PageTableWriters
import TelePath.Buffer.PageTableCalls
import TelePath.Buffer.PageTableLookups
import TelePath.Buffer.PageTableMappings
import TelePath.Buffer.PageTableLinearizability
import TelePath.Buffer.State
import TelePath.Buffer.Action
import TelePath.Manager.IoEngine
import TelePath.Manager.Flush
import TelePath.Manager.Read
import TelePath.Manager.Calls
import TelePath.Manager.Background
import TelePath.System
import TelePath.Run
import TelePath.History
import TelePath.Invariant.Tokens
import TelePath.Invariant.Footprint
import TelePath.Invariant.Rules
import TelePath.Invariant.Control
import TelePath.Invariant.ControlTrades
import TelePath.Invariant.ControlSound
import TelePath.Invariant.Requests
import TelePath.Invariant.Operations
import TelePath.Invariant.View
import TelePath.Invariant.Pages
import TelePath.Invariant.Handovers
import TelePath.Invariant.Backend
import TelePath.Invariant.Snapshots
import TelePath.Invariant.Accounts
import TelePath.Schedule
import TelePath.Spec.Silent
import TelePath.Spec.Routine
import TelePath.Spec.Counting
import TelePath.Spec.IoEngine
import TelePath.Spec.Flush
import TelePath.Spec.Read
import TelePath.Spec.Calls
import TelePath.Spec.Loads
import TelePath.Spec.Background
import TelePath.Spec.Client
import TelePath.Adequacy
import TelePath.Guarantees.FrameRecord
import TelePath.Guarantees.Writeback
import TelePath.Guarantees.Residency
import TelePath.Guarantees.Handles
import TelePath.Guarantees.AsyncRequests
import TelePath.Guarantees.CandidateQueue
import TelePath.Guarantees.DirtyCount
import TelePath.Buffer.FlushScheduler
import TelePath.Buffer.FlushTasks
import TelePath.Buffer.FlushShutdown
import TelePath.Buffer.FlushFairness
import TelePath.Buffer.WrittenFiles
import TelePath.Facade.PageCache
import TelePath.Facade.ByteRanges
import TelePath.Web.ObservationReader
import TelePath.Guarantees.Conservation
import TelePath.Sync.FutexMutex
