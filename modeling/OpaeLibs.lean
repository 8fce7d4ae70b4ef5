import OpaeLibs.Lib.Runs
import OpaeLibs.Opaemem.Conservation
import OpaeLibs.Opaevfio.BufferRuns
import OpaeLibs.Opaevfio.IovaSpace
import OpaeLibs.OpaeC.TypeFields
import OpaeLibs.OpaeC.EnumerateTokens
import OpaeLibs.OpaeC.TokenRuns
import OpaeLibs.OpaeC.DispatchRuns
import OpaeLibs.OpaeC.PluginRuns
import OpaeLibs.PluginXfpga.BufferRuns
import OpaeLibs.PluginXfpga.IrqRuns
import OpaeLibs.PluginVfio.FilterSemantics
import OpaeLibs.PluginVfio.BufferIds
import OpaeLibs.PluginVfio.BufferDevices
import OpaeLibs.PluginVfio.PortView
import OpaeLibs.Libbitstream.GbsFormat
import OpaeLibs.PluginXfpga.MmioBounds
import OpaeLibs.PluginXfpga.MmioRuns
import OpaeLibs.PluginXfpga.ReconfBounds
import OpaeLibs.PluginXfpga.ReconfGuard
import OpaeLibs.PluginXfpga.EnumeratePruned
import OpaeLibs.PluginXfpga.FilterAgreement
import OpaeLibs.PluginXfpga.ObjectTree
import OpaeLibs.Ofs.FieldBits
import OpaeLibs.Ofs.Grouping
import OpaeLibs.Ofs.StatementPreservation
import OpaeLibs.Opaemem.Atomicity
import OpaeLibs.OpaeC.EnumerateFilters
import OpaeLibs.PluginXfpga.ErrorEvents
import OpaeLibs.PluginVfio.EventRuns
import OpaeLibs.PluginXfpga.AfuWalks
import OpaeLibs.PluginXfpga.BmcCache
import OpaeLibs.PluginXfpga.MetricRuns
import OpaeLibs.PluginXfpga.ObjectConfinement
import OpaeLibs.PluginXfpga.LookupBounds
import OpaeLibs.PluginXfpga.DeviceOrder
import OpaeLibs.Opaemem.DoubleFree
import OpaeLibs.OpaeC.UpdateAtomicity
import OpaeLibs.OpaeC.ParentLookup
import OpaeLibs.OpaeC.RepeatedFilter
import OpaeLibs.PluginVfio.UpdatedFields
import OpaeLibs.PluginVfio.DfhBounds
import OpaeLibs.PluginVfio.OpenPair
import OpaeLibs.Opaevfio.IovaDiscover
import OpaeLibs.Opaevfio.SparseInfo
import OpaeLibs.PluginVfio.PreparedSizes
import OpaeLibs.Opaevfio.VfToken
import OpaeLibs.OpaeC.CfgBuffer
import OpaeLibs.Libbitstream.Symlinks
import OpaeLibs.Libbitstream.MetadataV1
import OpaeLibs.Libbitstream.LoadBounds
import OpaeLibs.PluginXfpga.InterfaceIds
import OpaeLibs.PluginXfpga.GbsDecoding
import OpaeLibs.PluginXfpga.ObjectReads
import OpaeLibs.PluginXfpga.VectorSlots
import OpaeLibs.PluginXfpga.SysfsReads
import OpaeLibs.PluginXfpga.MetricNames
import OpaeLibs.PluginXfpga.MetricResults
import OpaeLibs.PluginXfpga.ErrorPaths
import OpaeLibs.PluginXfpga.ErrorNumbers
import OpaeLibs.PluginXfpga.GlobSafety
import OpaeLibs.PluginXfpga.ObjectWords
import OpaeLibs.PluginXfpga.CloneRuns
import OpaeLibs.PluginXfpga.ObjectOwners
import OpaeLibs.OpaeC.LockDepth
import OpaeLibs.Opaeuio.Regions
import OpaeLibs.PluginXfpga.AvmmCommands
import OpaeLibs.PluginXfpga.IopllWrites
import OpaeLibs.PluginXfpga.BmcTripped
import OpaeLibs.PluginXfpga.ThresholdSlots
import OpaeLibs.PluginXfpga.Max10Labels
import OpaeLibs.PluginXfpga.UmsgRuns
import OpaeLibs.PluginXfpga.SysfsPieces
import OpaeLibs.Lib.HexTexts
import OpaeLibs.PluginXfpga.GuidTexts
import OpaeLibs.PluginXfpga.SbdfLinks
import OpaeLibs.Lib.Doubles
import OpaeLibs.Ofs.Timespecs
import OpaeLibs.Ofs.Waits
import OpaeLibs.PluginXfpga.EintrCalls
import OpaeLibs.Opaemem.Links
import OpaeLibs.PluginXfpga.DaemonEvents
import OpaeLibs.PluginXfpga.UserClockRuns
