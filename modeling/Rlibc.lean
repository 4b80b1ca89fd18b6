import Rlibc.Foundations.Lts
import Rlibc.Foundations.Census
import Rlibc.Wchar.Chunks
import Rlibc.Wchar.Resumption
import Rlibc.Wchar.DecodeUtf8
import Rlibc.Pthread.LifecycleSafety
import Rlibc.Pthread.LocalThreads
import Rlibc.Pthread.RwlockSafety
import Rlibc.Pthread.MutexContract
import Rlibc.Pthread.CondContract
import Rlibc.Stdlib.PutenvHistory
import Rlibc.Stdlib.StrtoContract
import Rlibc.Process.Termination
import Rlibc.Alloc.ReallocContract
import Rlibc.Time.CalendarInverse
import Rlibc.Netdb.RoundTrip
import Rlibc.Netdb.LegacyGrammar
import Rlibc.Stdio.AddressReuse
import Rlibc.Stdio.LockContract
import Rlibc.Stdio.IntegerConversion
import Rlibc.Stdio.InternalVfprintf
import Rlibc.Stdio.NewlineSoundness
import Rlibc.Glob.GlobContract
import Rlibc.Glob.SegmentRelation
import Rlibc.Glob.BracketSets
import Rlibc.Glob.LiteralSegment
import Rlibc.Time.Normalize
import Rlibc.Time.StrftimeContract
import Rlibc.Time.WeekFields
import Rlibc.Directory.ReaddirContract
import Rlibc.Pthread.NoStranding
import Rlibc.Pthread.DestructionSafety
import Rlibc.Time.CivilCount
import Rlibc.Memory.Copying
import Rlibc.Alloc.Sizing
import Rlibc.System.CpuList
import Rlibc.Netdb.NameLookups
import Rlibc.Tools.CsvRecords
import Rlibc.Tools.SnapshotRoundTrip
import Rlibc.Dlfcn.RefCounting
import Rlibc.Codestyle.FixedPoint
import Rlibc.Tools.LedgerVerdict
import Rlibc.Fenv.EnvironmentRuns
import Rlibc.Signal.SignalSets
import Rlibc.Stdio.PrintedIntegers
import Rlibc.Netdb.HeldLists
import Rlibc.Dlfcn.ErrorMessages
import Rlibc.Dlfcn.SymbolLookup
import Rlibc.Codestyle.Commands
import Rlibc.Time.Timestamps
import Rlibc.Wchar.MultibyteRuns
import Rlibc.Wchar.ReadingLoops
import Rlibc.Wchar.WritingLoops
import Rlibc.System.Sysconf
import Rlibc.Locale.Setlocale
import Rlibc.Stdlib.Atoi
