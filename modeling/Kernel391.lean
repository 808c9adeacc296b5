import Kernel391.Foundations.Stores
import Kernel391.Foundations.Runs
import Kernel391.Filesystem.Image
import Kernel391.Filesystem.Dentry
import Kernel391.Console.Screen
import Kernel391.Process.ProcessTable
import Kernel391.System.Step
import Kernel391.Process.Transitions
import Kernel391.Process.Loading
import Kernel391.Process.ProgramStart
import Kernel391.Process.Descriptors
import Kernel391.Process.Opening
import Kernel391.Process.ChunkedReading
import Kernel391.Devices.LineBuffer
import Kernel391.System.LineFrame
import Kernel391.System.LineInput
import Kernel391.Foundations.Stacks
import Kernel391.Process.Stacks
import Kernel391.Process.StackContexts
import Kernel391.Devices.VirtualClock
import Kernel391.Process.DescriptorTable
import Kernel391.Console.TextRows
import Kernel391.Process.Arguments
import Kernel391.Process.UserPointers
import Kernel391.Process.StackMoves
import Kernel391.Process.StackExits
import Kernel391.Process.ShellStart
import Kernel391.System.StackSteps
import Kernel391.System.StackRuns
import Kernel391.System.MoveEffects
import Kernel391.Process.Mapping
import Kernel391.System.Isolation
import Kernel391.System.SlotReuse
import Kernel391.System.CommandArguments
import Kernel391.Process.DirectoryListing
import Kernel391.Process.CommandParsing
import Kernel391.System.ModifierKeys
import Kernel391.System.LineEditor
import Kernel391.System.LineEcho
import Kernel391.System.SharedScreen
import Kernel391.System.BackgroundTyping
import Kernel391.Console.CursorPorts
import Kernel391.Foundations.Ghosts
import Kernel391.System.TypedCursor
import Kernel391.System.TerminalCursors
import Kernel391.System.HardwareCursor
import Kernel391.Foundations.Blocks
import Kernel391.Lib.BlockMemory
import Kernel391.Devices.TimerRate
import Kernel391.Process.DirectoryReads
import Kernel391.Foundations.Rounds
import Kernel391.System.SlotSearch
import Kernel391.System.CalmRuns
import Kernel391.System.RoundRobin
import Kernel391.Lib.Numerals
import Kernel391.Lib.Printf
import Kernel391.Foundations.X86
import Kernel391.Machine.Assembly
import Kernel391.Foundations.Forests
import Kernel391.System.ParentLinks
import Kernel391.System.DisplayOwner
import Kernel391.System.StackFrames
import Kernel391.Foundations.Handovers
import Kernel391.System.SavedContexts
import Kernel391.System.ExitStatus
import Kernel391.Console.LogicalScreen
import Kernel391.System.ScreenPages
import Kernel391.System.VideoMapping
import Kernel391.System.VirtualScreens
import Kernel391.Foundations.Programs
import Kernel391.System.ControlFlow
import Kernel391.User.Calls
import Kernel391.User.Cat
import Kernel391.User.Grep
import Kernel391.User.GrepBuffer
import Kernel391.User.GrepFiles
import Kernel391.User.GrepOutput
import Kernel391.User.Ls
import Kernel391.Devices.Pic
import Kernel391.Machine.Interrupts
import Kernel391.User.Counter
import Kernel391.User.Shell
import Kernel391.System.Sessions
import Kernel391.System.LostSlots
import Kernel391.Machine.ContextSwitch
import Kernel391.System.KernelStores
