import A64dbg.Library.ByteMemory
import A64dbg.Library.Extension
import A64dbg.Library.Patches
import A64dbg.Library.Runs
import A64dbg.Library.Parity
import A64dbg.Library.Loops
import A64dbg.Library.Narrowing
import A64dbg.Library.Fields
import A64dbg.Library.Writes
import A64dbg.Library.Pages
import A64dbg.Library.Streams
import A64dbg.Library.Numerals
import A64dbg.Library.Tables
import A64dbg.Library.Chains
import A64dbg.Library.Views
import A64dbg.Tracee
import A64dbg.Syscalls
import A64dbg.Slots
import A64dbg.Utils
import A64dbg.CmdParser
import A64dbg.Debugger
import A64dbg.SyscallStop
import A64dbg.KernelStops
import A64dbg.Watch
import A64dbg.Main
import A64dbg.Dump
import A64dbg.MemChecker
import A64dbg.MemChecking
import A64dbg.MemInput
import A64dbg.MemStreams
import A64dbg.StartUp
import A64dbg.ProcMaps
import A64dbg.RegsMap
import A64dbg.Header
import A64dbg.ScanReport
import A64dbg.ShippedPlugins
import A64dbg.PluginHooks
import A64dbg.MemPrompt
import A64dbg.Launch
import A64dbg.Verif.SoftwareFrame
import A64dbg.Verif.SavedWords
import A64dbg.Verif.Restoration
import A64dbg.Verif.Scan
import A64dbg.Verif.SyscallPhase
import A64dbg.Verif.Retarget
import A64dbg.Verif.ResumeCommands
import A64dbg.Verif.HardwareFrame
import A64dbg.Verif.HardwareHit
import A64dbg.Verif.HardwareSlots
import A64dbg.Verif.Injection
import A64dbg.Verif.FailedInjection
import A64dbg.Verif.Stub
import A64dbg.Verif.PrivatePage
import A64dbg.Verif.Arguments
import A64dbg.Verif.Dispatch
import A64dbg.Verif.StatusView
import A64dbg.Verif.EndOfInput
import A64dbg.Verif.UnknownWords
import A64dbg.Verif.Numbers
import A64dbg.Verif.FailedBreakPoint
import A64dbg.Verif.HitTable
import A64dbg.Verif.DelayedWrites
import A64dbg.Verif.StaleReads
import A64dbg.Verif.PluginNames
import A64dbg.Verif.TableBounds
import A64dbg.Verif.Target
import A64dbg.Verif.Splitting
import A64dbg.Verif.ShortReads
import A64dbg.Verif.Hexdump
import A64dbg.Verif.DumpLayout
import A64dbg.Verif.OneResume
import A64dbg.Verif.TypedWrites
import A64dbg.Verif.LiveBuffers
import A64dbg.Verif.HitCounter
import A64dbg.Verif.FirstToken
import A64dbg.Verif.MapsList
import A64dbg.Verif.MapsLine
import A64dbg.Verif.MapsAreas
import A64dbg.Verif.ScanReports
import A64dbg.Verif.PromptRuns
import A64dbg.Verif.PromptSlots
import A64dbg.Verif.PromptScripts
import A64dbg.Verif.RegsMapText
import A64dbg.Verif.PromptHeader
import A64dbg.Verif.PluginText
import A64dbg.Verif.PluginLooks
import A64dbg.Verif.InertPlugins
import A64dbg.Verif.TypedScripts
import A64dbg.Verif.TypedEnds
import A64dbg.Verif.QuitDelivers
import A64dbg.Verif.Launches
