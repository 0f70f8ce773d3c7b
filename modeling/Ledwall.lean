import Ledwall.Library.Chunking
import Ledwall.Library.Runs
import Ledwall.Library.Outcomes
import Ledwall.Library.Packets
import Ledwall.Library.Streams
import Ledwall.Wire.Protocol
import Ledwall.Wire.Frames
import Ledwall.Receiver.Hub75Driver
import Ledwall.Receiver.BitmapReceiver
import Ledwall.Receiver.PixelWrites
import Ledwall.Receiver.ArrivalMask
import Ledwall.Receiver.Presenting
import Ledwall.Receiver.Packets
import Ledwall.Receiver.Calls
import Ledwall.Receiver.Colours
import Ledwall.Receiver.PaletteBanks
import Ledwall.Receiver.DmaEvidence
import Ledwall.Receiver.FrameReception
import Ledwall.Receiver.Assembly
import Ledwall.Receiver.Simulation
import Ledwall.Receiver.RoundTrip
import Ledwall.Receiver.ShownColours
import Ledwall.Receiver.Showing
import Ledwall.Gateware.Hub75UdpDma
import Ledwall.Gateware.PayloadTrace
import Ledwall.Gateware.PixelAddresses
import Ledwall.Gateware.Framing
import Ledwall.Gateware.WholeFrames
import Ledwall.Gateware.PayloadWrites
import Ledwall.Gateware.Agreement
import Ledwall.Gateware.SameColours
import Ledwall.Gateware.SmolEth
import Ledwall.Gateware.GatePackets
import Ledwall.Gateware.EthFrames
import Ledwall.Gateware.PixelVerdict
import Ledwall.Gateware.PixelFilter
import Ledwall.Gateware.HardwareBranch
import Ledwall.Gateware.HardwareDelivery
import Ledwall.Gateware.DmaReads
import Ledwall.Gateware.DmaSnapshots
import Ledwall.Gateware.RamToBufferReader
import Ledwall.Gateware.Icn1065PixelSource
import Ledwall.Gateware.LiveBank
import Ledwall.Values.HttpRequest
import Ledwall.Values.ValueTable
import Ledwall.Values.ValuePush
import Ledwall.Values.RequestDelivery
import Ledwall.Values.PushRoundTrip
import Ledwall.Gateware.RowFetch
import Ledwall.Gateware.RowModule
import Ledwall.Gateware.RowReturns
import Ledwall.Gateware.RowBuffers
import Ledwall.Gateware.RowRun
import Ledwall.Gateware.ScanGeometry
import Ledwall.Gateware.ShownRow
import Ledwall.Receiver.Rejections
import Ledwall.Receiver.Capacity
import Ledwall.Values.TableRuns
import Ledwall.Receiver.PendingPalette
import Ledwall.Library.Callees
import Ledwall.Receiver.Judging
import Ledwall.Receiver.Tallies
import Ledwall.Receiver.Receipts
import Ledwall.Receiver.Coverage
import Ledwall.Receiver.Verdicts
import Ledwall.Receiver.Watchdog
import Ledwall.Network.FastPath
import Ledwall.Layout.LayoutConfig
import Ledwall.Layout.OutputStage
import Ledwall.Layout.TestScreen
import Ledwall.Library.Overlays
import Ledwall.Layout.ApplyLayout
import Ledwall.Layout.Histories
import Ledwall.Flash.BitstreamLoader
import Ledwall.Library.Effects
import Ledwall.Server.Schedules
import Ledwall.Flash.WriteGuard
import Ledwall.Flash.SectorWrites
import Ledwall.Flash.HealthyWrites
import Ledwall.Flash.Polls
import Ledwall.Flash.Transfer
import Ledwall.Flash.LossyTransfer
import Ledwall.Gateware.PipelinedArbiter
import Ledwall.Gateware.SharedPort
import Ledwall.Server.CardPalettes
import Ledwall.Server.WallPlayer
import Ledwall.Server.LinkTable
import Ledwall.Server.Reconciled
import Ledwall.Layout.LayoutText
import Ledwall.Layout.LayoutSettings
import Ledwall.Server.BootConfig
import Ledwall.Server.BootMeaning
import Ledwall.Panels.PanelDocument
import Ledwall.Panels.PanelCompiler
import Ledwall.Panels.PanelMeaning
import Ledwall.Flash.RefusedStart
import Ledwall.Flash.JobRuns
import Ledwall.Flash.SavedImages
import Ledwall.Library.Tables
import Ledwall.Server.FleetCalls
import Ledwall.Server.FleetIntegrity
import Ledwall.Library.Caches
import Ledwall.Server.Renderer
import Ledwall.Library.Fairness
import Ledwall.Flash.FairLoads
import Ledwall.Server.BitstreamPush
import Ledwall.Values.JsonDocument
import Ledwall.Values.StoredMembers
import Ledwall.Values.SharedTable
import Ledwall.Server.ProgramFeeds
import Ledwall.Server.FeedHistory
import Ledwall.Library.Listings
import Ledwall.Library.TextLines
import Ledwall.Server.ShowFiles
import Ledwall.Server.ShowHeaders
import Ledwall.Server.ShowRoundTrip
import Ledwall.Layout.Geometry
import Ledwall.Layout.Spellings
import Ledwall.Panels.RotatedSprites
import Ledwall.Panels.FixedAdvance
import Ledwall.Receiver.WordReads
import Ledwall.Gateware.StickyGrant
import Ledwall.Network.Clock
import Ledwall.Gateware.BurstBranch
import Ledwall.Gateware.FrameController
import Ledwall.Gateware.BitPlanes
import Ledwall.Gateware.PlaneOrder
import Ledwall.Gateware.RefreshProgress
import Ledwall.Gateware.GroupFetch
import Ledwall.Gateware.LineFill
import Ledwall.Gateware.FetchPlan
import Ledwall.Gateware.IssueOrder
import Ledwall.Library.Tilings
import Ledwall.Server.WallLayout
import Ledwall.Library.Rounding
import Ledwall.Library.Traversals
import Ledwall.Server.LiveData
import Ledwall.Server.RowsLayer
import Ledwall.Server.Sparkline
import Ledwall.Library.Rounds
import Ledwall.Server.FitModes
import Ledwall.Server.ShufflePlayer
import Ledwall.Server.VideoFrames
import Ledwall.Library.Polling
import Ledwall.Server.Rollout
import Ledwall.Server.BindingTokens
import Ledwall.Server.TextBindings
import Ledwall.Server.FixedBindings
import Ledwall.Gateware.Icn1065Output
import Ledwall.Gateware.ShiftClock
import Ledwall.Gateware.RowChain
import Ledwall.Library.Floats
import Ledwall.Server.DrawnBoxes
import Ledwall.Server.RenderPace
import Ledwall.Gateware.WordsToPixels
import Ledwall.Library.Relations
import Ledwall.Network.DhcpFallback
import Ledwall.Panels.CachedMessages
import Ledwall.Panels.ScrollingText
import Ledwall.Panels.ProgramTicks
import Ledwall.Panels.ProgramRuns
import Ledwall.Server.CardSamples
import Ledwall.Server.WallsMigration
import Ledwall.Network.ConfigExchange
import Ledwall.Network.ReceiveFilters
import Ledwall.Server.ApiTokens
import Ledwall.Server.BootFiles
import Ledwall.Server.PushIsolation
import Ledwall.Flash.AtomicWriters
import Ledwall.Gateware.LineBuffer
import Ledwall.Gateware.FramePins
