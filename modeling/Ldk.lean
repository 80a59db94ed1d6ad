import Ldk.Lib.TransitionSystem
import Ldk.Lib.DrainGate
import Ldk.WaitOnAddress.Steps
import Ldk.WaitOnAddress.Barrier
import Ldk.WaitOnAddress.AlertCore
import Ldk.WaitOnAddress.Wakeup
import Ldk.Threadpool.Work
import Ldk.Threadpool.WorkBarrier
import Ldk.Threadpool.Timer
import Ldk.Threadpool.Wait
import Ldk.Threadpool.Close
import Ldk.Threadpool.Disarm
import Ldk.Threadpool.Rearm
import Ldk.Threadpool.LegacyDelete
import Ldk.TebMap.State
import Ldk.TebMap.CurrentTeb
import Ldk.Loader.FailedLoad
import Ldk.Loader.Counting
import Ldk.CriticalSection.Ownership
import Ldk.SrwLock.Exclusion
import Ldk.ConditionVariable.Correctness
import Ldk.KeyedEvent.Rendezvous
import Ldk.ThreadContext.Drain
import Ldk.WaitObject.HandleTable
import Ldk.WaitObject.Ownership
import Ldk.Except.Records
import Ldk.CurrentDirectory.RelativeOpen
import Ldk.CurrentDirectory.Sequences
import Ldk.Environment.Variable
import Ldk.FormatMessage.Images
import Ldk.FormatMessage.Results
import Ldk.Resource.Agreement
import Ldk.DosPath.RelativeName
import Ldk.DosPath.SearchPath
import Ldk.Loader.Exports
import Ldk.Loader.Addresses
import Ldk.Loader.Forwarders
import Ldk.PeImage.Relocation
import Ldk.FileApi.FilePointer
import Ldk.FileApi.Copies
import Ldk.FileApi.EndOfFile
import Ldk.FileApi.FinalPathName
import Ldk.FileApi.FindSpec
import Ldk.Loader.SearchOrder
import Ldk.LocalStorage.Values
import Ldk.FileApi.TempFileName
import Ldk.FileApi.EightBitPaths
import Ldk.Time.Cutover
import Ldk.Time.LocalTime
import Ldk.Heap.Correctness
import Ldk.Tls.Lifecycle
import Ldk.ProcessHandle.TypeSafety
import Ldk.Resource.Directory
import Ldk.UnicodeString.FindChar
import Ldk.SystemInfo.Entries
import Ldk.ThreadDescription.Texts
import Ldk.Nls.Formats
import Ldk.Nls.SortKey
import Ldk.ProcessHandle.WaitBalance
import Ldk.UtilApi.PointerEncoding
import Ldk.Nls.CodePageTables
import Ldk.Loader.DllDirectoryOrder
