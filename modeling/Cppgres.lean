import Cppgres.NonLocal.Code
import Cppgres.NonLocal.Scoped
import Cppgres.NonLocal.Ends
import Cppgres.NonLocal.Returns
import Cppgres.Postgres.Backend
import Cppgres.Postgres.Xact
import Cppgres.Postgres.Spi
import Cppgres.Guard
import Cppgres.Function.CurrentFunction
import Cppgres.Xact.InternalSubtransaction
import Cppgres.Xact.SubtransactionGuards
import Cppgres.Xact.SubtransactionOutcome
import Cppgres.Xact.Transaction
import Cppgres.Datum.Conversion
import Cppgres.Executor.Results
import Cppgres.Executor.SpiExecutor
import Cppgres.Executor.Query
import Cppgres.Executor.ConnectionSpecs
import Cppgres.Executor.Connections
import Cppgres.Function.SetReturning
import Cppgres.Aggregate.Support
import Cppgres.Aggregate.Parallel
import Cppgres.Layer.Syntax
import Cppgres.Layer.Held
import Cppgres.Layer.Transport
import Cppgres.Layer.Tidy
import Cppgres.Layer.ErrorTransport
import Cppgres.Layer.CallStack
import Cppgres.Labelled.Runs
import Cppgres.Regions.Store
import Cppgres.Memory.Tracking
import Cppgres.Memory.TrackingRuns
import Cppgres.Memory.Follows
import Cppgres.Memory.Varlena
import Cppgres.Memory.VarlenaReads
import Cppgres.Executor.Plans
import Cppgres.Executor.PlanLifecycle
import Cppgres.NonLocal.Catches
import Cppgres.Memory.Scopes
import Cppgres.Memory.Preserved
import Cppgres.Threading.Worker
import Cppgres.Threading.WorkerRuns
import Cppgres.Record.Tuples
import Cppgres.Record.Bounds
import Cppgres.Record.Record
import Cppgres.Record.Fields
import Cppgres.Record.Composite
import Cppgres.Datum.Arguments
import Cppgres.Executor.Marshalling
import Cppgres.Function.CatalogFunction
import Cppgres.Function.CatalogCalls
import Cppgres.Datum.Numbers
import Cppgres.Function.Invocation
import Cppgres.Datum.Nesting
import Cppgres.Node.Dispatch
import Cppgres.Node.Walker
import Cppgres.Postgres.ErrorStack
import Cppgres.Report
import Cppgres.Executor.CallerContext
import Cppgres.Memory.Expanded
import Cppgres.Memory.ExpandedValues
import Cppgres.Record.Descriptors
import Cppgres.Record.DescriptorCopies
import Cppgres.Shared.Handles
import Cppgres.Exception.Owners
import Cppgres.Exception.OwnerRuns
import Cppgres.Function.RecordSets
import Cppgres.Record.FormedRecords
import Cppgres.Bytes.LittleEndian
import Cppgres.Postgres.VarlenaHeader
import Cppgres.Record.WholeTuples
import Cppgres.Bytes.Chunks
import Cppgres.Datum.VarlenaImages
import Cppgres.Executor.Iterators
import Cppgres.Executor.RowCache
import Cppgres.Regions.Nested
import Cppgres.Memory.Constructed
import Cppgres.Shared.Titles
import Cppgres.Memory.MoveOnly
import Cppgres.NonLocal.GuardTraces
import Cppgres.Exception.ScopeGuards
import Cppgres.Threading.BackgroundWorkers
import Cppgres.Record.AttributeIndices
import Cppgres.Role.SecurityContext
import Cppgres.Memory.Allocators
import Cppgres.Node.Allocation
import Cppgres.Threading.PostedCalls
import Cppgres.Lldb.Varlenas
import Cppgres.Memory.ByReferenceArguments
import Cppgres.Abi.LayoutGate
import Cppgres.Function.CallThrough
import Cppgres.Aggregate.Convertible
import Cppgres.Trees.Linked
import Cppgres.Lldb.MemoryContexts
import Cppgres.Bytes.CStrings
import Cppgres.Labelled.Simulation
import Cppgres.Threading.WorkerSpecifications
import Cppgres.Bytes.Hexadecimal
import Cppgres.Lldb.DataLines
import Cppgres.Ieee.Narrowed
import Cppgres.Datum.SqlNumbers
import Cppgres.Function.ResultNumbers
import Cppgres.Executor.RoundTrips
import Cppgres.Record.NamedAttributes
import Cppgres.Demo.Primes
import Cppgres.Coroutines.Bodies
import Cppgres.Demo.Generator
