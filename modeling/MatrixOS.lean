import MatrixOS.KmallocRelease
import MatrixOS.PmmBuddies
import MatrixOS.TempTranslation
import MatrixOS.ActiveDirectory
import MatrixOS.VfsAccess
import MatrixOS.Exhaustion
import MatrixOS.SyscallEntry
import MatrixOS.InterruptAck
import MatrixOS.SequentialReads
import MatrixOS.LoaderNames
import MatrixOS.PmmCanonical
import MatrixOS.KmallocBestFit
import MatrixOS.KmallocRealloc
import MatrixOS.CreationFailure
import MatrixOS.ResidualContents
import MatrixOS.Isolation
import MatrixOS.OverwrittenDirectory
import MatrixOS.FileOffsets
import MatrixOS.ProcessSlots
import MatrixOS.PmmInvalidFree
import MatrixOS.TempUnmap
import MatrixOS.KmallocCalloc
import MatrixOS.TempBalance
import MatrixOS.MappingChecks
import MatrixOS.KmallocDoubleFree
import MatrixOS.KeyboardInterrupts
import MatrixOS.StatOpenRead
import MatrixOS.ConsoleReads
import MatrixOS.TextScreen
import MatrixOS.TextOutput
import MatrixOS.KmallocStats
import MatrixOS.FormattedOutput
import MatrixOS.PmmBitmap
import MatrixOS.IntrusiveList
import MatrixOS.StringRoutines
import MatrixOS.PmmLists
import MatrixOS.PmmLocked
import MatrixOS.SystemRuns
import MatrixOS.UserCode
import MatrixOS.SerialLine
import MatrixOS.KeyboardSetup
import MatrixOS.DescriptorTables
import MatrixOS.PmmProgress
import MatrixOS.Kmain
import MatrixOS.ModuleData
import MatrixOS.IdleLoop
import MatrixOS.StringCopies
import MatrixOS.KmallocReport
import MatrixOS.HelloProgram
import MatrixOS.HardwareCursor
import MatrixOS.SystemProcesses
