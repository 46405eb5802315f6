import ScriptEngine.Bench.Blobs
import ScriptEngine.Bench.Caches
import ScriptEngine.Bench.Codes
import ScriptEngine.Bench.Parts
import ScriptEngine.Inspect.Value
import ScriptEngine.Proofs.SegmentChain
import ScriptEngine.Session.Isolates
import ScriptEngine.Session.Objects
import ScriptEngine.Session.Report
import ScriptEngine.Session.Threads
import ScriptEngine.Proofs.Search
import ScriptEngine.Proofs.Catching
import ScriptEngine.Proofs.FirstHandler
import ScriptEngine.Proofs.Uncatchable
import ScriptEngine.Proofs.PredictionAgrees
import ScriptEngine.Proofs.Evolution
import ScriptEngine.Proofs.ExceptionSlots
import ScriptEngine.Proofs.SlotOperations
import ScriptEngine.Proofs.TerminationRequests
import ScriptEngine.Proofs.InterruptSteps
import ScriptEngine.Proofs.Raising
import ScriptEngine.Proofs.RecordedMessages
import ScriptEngine.Proofs.Rescheduling
import ScriptEngine.Proofs.CutStacks
import ScriptEngine.Proofs.CutDispatch
import ScriptEngine.Proofs.CutWalks
import ScriptEngine.Proofs.Nesting
import ScriptEngine.Proofs.NestedScopes
import ScriptEngine.Proofs.Inlining
import ScriptEngine.Proofs.Tiers
import ScriptEngine.Proofs.BlobReferences
import ScriptEngine.Proofs.ManualBlobs
import ScriptEngine.Proofs.Piles
import ScriptEngine.Proofs.StackPlaces
import ScriptEngine.Proofs.Landings
import ScriptEngine.Proofs.InstalledHandlers
import ScriptEngine.Proofs.GuardedStacks
import ScriptEngine.Proofs.Contracts
import ScriptEngine.Proofs.Holdings
import ScriptEngine.Proofs.LifecycleCases
import ScriptEngine.Proofs.Residents
import ScriptEngine.Proofs.Hosts
import ScriptEngine.Proofs.SharedReferences
import ScriptEngine.Proofs.BlobLedger
import ScriptEngine.Proofs.BookedMemory
import ScriptEngine.Proofs.Lifetimes
import ScriptEngine.Proofs.SpaceOwners
import ScriptEngine.Proofs.NestedEntries
import ScriptEngine.Proofs.RootVisits
import ScriptEngine.Proofs.HeldReferences
import ScriptEngine.Proofs.InterruptQueues
import ScriptEngine.Proofs.Refusals
import ScriptEngine.Proofs.TraceItems
import ScriptEngine.Proofs.AwaitChains
import ScriptEngine.Proofs.TraceLimits
import ScriptEngine.Proofs.PoisonedSites
import ScriptEngine.Proofs.SkippedActivations
import ScriptEngine.Proofs.PromiseGraph
import ScriptEngine.Proofs.RejectHandlers
import ScriptEngine.Proofs.FollowedChains
import ScriptEngine.Proofs.PairedPromises
import ScriptEngine.Proofs.FrameOrigins
import ScriptEngine.Proofs.ResumptionPointers
import ScriptEngine.Proofs.CodeLookup
import ScriptEngine.Proofs.CodeHistory
import ScriptEngine.Proofs.BlobFormat
import ScriptEngine.Proofs.InstalledBuiltins
import ScriptEngine.Proofs.NestedRenderings
import ScriptEngine.Proofs.SeveralRenderings
import ScriptEngine.Proofs.ReportedMessages
import ScriptEngine.Proofs.FrameRestart
import ScriptEngine.Proofs.PublishedBlobs
import ScriptEngine.Proofs.Budgets
import ScriptEngine.Proofs.HandlerTables
import ScriptEngine.Proofs.MappedRoots
import ScriptEngine.Proofs.SegmentStates
import ScriptEngine.Proofs.OffsetTables
import ScriptEngine.Proofs.LineColumns
import ScriptEngine.Proofs.HandleHistories
import ScriptEngine.Proofs.ValueWords
import ScriptEngine.Proofs.ReferenceCounts
import ScriptEngine.Proofs.Releases
import ScriptEngine.Proofs.HalfwaySetUps
