import KdSoftLmdb.Library.Method
import KdSoftLmdb.Library.Heap
import KdSoftLmdb.Library.Dictionary
import KdSoftLmdb.Library.Runs
import KdSoftLmdb.Interop.Native
import KdSoftLmdb.Transaction
import KdSoftLmdb.LmdbEnvironment
import KdSoftLmdb.Calls
import KdSoftLmdb.Exclusion
import KdSoftLmdb.Session
import KdSoftLmdb.Promotion
import KdSoftLmdb.Rollback
import KdSoftLmdb.Nesting
import KdSoftLmdb.Registration
import KdSoftLmdb.Shutdown
import KdSoftLmdb.Ownership
import KdSoftLmdb.Separation
import KdSoftLmdb.Threads.Alone
import KdSoftLmdb.Begins
import KdSoftLmdb.FixedMultiValueCursor
import KdSoftLmdb.Refusal
import KdSoftLmdb.Parents
import KdSoftLmdb.Storing
import KdSoftLmdb.MultiValueCursor
import KdSoftLmdb.Disposal
import KdSoftLmdb.Cursors
import KdSoftLmdb.Marshalling
import KdSoftLmdb.Commits
import KdSoftLmdb.Locking
import KdSoftLmdb.WriterCalls
import KdSoftLmdb.RivalOpens
import KdSoftLmdb.Interop.DbLibUtil
import KdSoftLmdb.Interop.Spans
import KdSoftLmdb.Enumerators
import KdSoftLmdb.Iterators
import KdSoftLmdb.ForwardMultiple
import KdSoftLmdb.Positions
import KdSoftLmdb.ValuePositions
import KdSoftLmdb.Editing
import KdSoftLmdb.Sessions
import KdSoftLmdb.Deleting
import KdSoftLmdb.StoringMultiple
import KdSoftLmdb.Reporting
import KdSoftLmdb.FailedOpens
import KdSoftLmdb.MultiValueDatabaseConfiguration
import KdSoftLmdb.Lifetimes
