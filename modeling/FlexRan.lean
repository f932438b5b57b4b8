import FlexRan.Network.Release
import FlexRan.Network.Announcement
import FlexRan.Network.Loopback
import FlexRan.Network.Echo
import FlexRan.Rib.ConfigMerge
import FlexRan.Rib.Formation
import FlexRan.Rib.HelloOrder
import FlexRan.Rib.Indices
import FlexRan.Rib.Registry
import FlexRan.Rib.UeHistory
import FlexRan.App.StatsRequests
import FlexRan.App.Northbound
import FlexRan.App.SliceAdmission
import FlexRan.App.CellAccess
import FlexRan.App.RecorderFile
import FlexRan.App.Recorder
import FlexRan.App.Applications
import FlexRan.App.Identifiers
import FlexRan.App.CellCheck
import FlexRan.App.RbgLoop
import FlexRan.App.UeSlices
import FlexRan.App.CellRestart
import FlexRan.App.ImsiLists
import FlexRan.Rib.ConfigPolling
import FlexRan.Rib.StatsSections
import FlexRan.Network.HeaderDecoding
import FlexRan.App.SliceRemoval
import FlexRan.App.SliceCommands
import FlexRan.App.ListLookup
import FlexRan.App.MalformedFiles
import FlexRan.App.DumpEquality
import FlexRan.App.RecorderJson
import FlexRan.App.StatsJson
import FlexRan.App.Recordings
import FlexRan.App.RibManagement
import FlexRan.App.ExportLedger
import FlexRan.App.BulkRequests
import FlexRan.Core.ParseBd
import FlexRan.North.Server
import FlexRan.North.Statistics
import FlexRan.Lib.Station
import FlexRan.Network.Reading
import FlexRan.Network.Latency
import FlexRan.Network.Registration
