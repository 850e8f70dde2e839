import MonitoringTools.KeyedCorrelation
import MonitoringTools.Runs
import MonitoringTools.PackedTable
import MonitoringTools.BpfHelpers
import MonitoringTools.ArgumentText
import MonitoringTools.FilesystemProbes
import MonitoringTools.NestedProbes
import MonitoringTools.IosnoopProbes
import MonitoringTools.IosnoopCorrelation
import MonitoringTools.IosnoopFilter
import MonitoringTools.BoundedText
import MonitoringTools.ArgumentFormatting
import MonitoringTools.IoslowerProbes
import MonitoringTools.IoslowerCorrelation
import MonitoringTools.VmaTracking
import MonitoringTools.FilteredOperations
import MonitoringTools.IoslowerStartup
import MonitoringTools.IoslowerOutput
import MonitoringTools.DiagEvents
import MonitoringTools.ErrorTracers
import MonitoringTools.SmbslowerProbes
import MonitoringTools.SmbslowerTracepoints
import MonitoringTools.CStrings
import MonitoringTools.HookSelection
import MonitoringTools.SmbslowerSelection
import MonitoringTools.CNumbers
import MonitoringTools.Scanning
import MonitoringTools.Kallsyms
import MonitoringTools.RequestTable
import MonitoringTools.NfsslowerProbes
import MonitoringTools.CommandLists
import MonitoringTools.SlowCommands
import MonitoringTools.RequestLatency
import MonitoringTools.LatencyThreshold
import MonitoringTools.InFlightRecords
import MonitoringTools.BinarySearch
import MonitoringTools.NfsiosnoopOptions
import MonitoringTools.SmbiosnoopOptions
import MonitoringTools.NfsslowerInterleaving
import MonitoringTools.RingPoll
import MonitoringTools.LittleEndian
import MonitoringTools.EventLayout
import MonitoringTools.RingbufShim
import MonitoringTools.Consumers
import MonitoringTools.FdPathTable
import MonitoringTools.ExitStatus
import MonitoringTools.Detach
import MonitoringTools.LinkedHeap
import MonitoringTools.DescriptorHeap
import MonitoringTools.IosnoopReports
import MonitoringTools.EventPipeline
import MonitoringTools.RecordRing
import MonitoringTools.WakeupThresholds
import MonitoringTools.WakeupBatching
import MonitoringTools.StructLayout
import MonitoringTools.FileLines
import MonitoringTools.BpfMachine
import MonitoringTools.TraceHelpers
import MonitoringTools.FentryContexts
import MonitoringTools.NfsHooks
import MonitoringTools.Linearization
import MonitoringTools.NfsslowerHistories
import MonitoringTools.DuplicateReturns
import MonitoringTools.MountOption
import MonitoringTools.RingSharing
import MonitoringTools.ToolAgreement
import MonitoringTools.AnsweredRequests
import MonitoringTools.SmbHooks
import MonitoringTools.IosnoopLines
