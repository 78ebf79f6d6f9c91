import DebugAdapter.CommandLine.Address
import DebugAdapter.CommandLine.Basic
import DebugAdapter.CommandLine.Help
import DebugAdapter.CommandLine.Options
import DebugAdapter.CommandLine.Reader
import DebugAdapter.CommandLine.Run
import DebugAdapter.Config.Basic
import DebugAdapter.Config.Toml
import DebugAdapter.Convention
import DebugAdapter.Engine.Basic
import DebugAdapter.Engine.Error
import DebugAdapter.Engine.Event
import DebugAdapter.Engine.Session
import DebugAdapter.Engine.TypedData
import DebugAdapter.Gateway.Basic
import DebugAdapter.Gateway.Breakpoint
import DebugAdapter.Gateway.Command
import DebugAdapter.Gateway.Event
import DebugAdapter.Gateway.Execution
import DebugAdapter.Gateway.Inspection
import DebugAdapter.Gateway.Settle
import DebugAdapter.Gateway.Stops
import DebugAdapter.Gateway.Worker
import DebugAdapter.Json.Basic
import DebugAdapter.Json.Number
import DebugAdapter.Json.Printer
import DebugAdapter.Json.Reader
import DebugAdapter.Json.Token
import DebugAdapter.Log.Console
import DebugAdapter.Log.Filter
import DebugAdapter.Log.Level
import DebugAdapter.Log.Switch
import DebugAdapter.Main
import DebugAdapter.Memory.Basic
import DebugAdapter.Memory.TypeNames
import DebugAdapter.NamedValue
import DebugAdapter.Path.Basic
import DebugAdapter.Path.Uri
import DebugAdapter.Protocol.ErrorMessage
import DebugAdapter.Protocol.Framing
import DebugAdapter.Protocol.Message
import DebugAdapter.Protocol.Request
import DebugAdapter.Scripted.Engine
import DebugAdapter.Scripted.Gateway
import DebugAdapter.Scripted.Record
import DebugAdapter.Scripted.Script
import DebugAdapter.Scripted.Session
import DebugAdapter.Scripted.World
import DebugAdapter.SearchPath
import DebugAdapter.Session.Basic
import DebugAdapter.Session.Forward
import DebugAdapter.Session.Handle
import DebugAdapter.Session.Host
import DebugAdapter.Session.Lockstep
import DebugAdapter.Session.Program
import DebugAdapter.Session.Serve
import DebugAdapter.Session.Start
import DebugAdapter.Session.System
import DebugAdapter.SourceMap
import DebugAdapter.Store.Basic
import DebugAdapter.Store.Entity
import DebugAdapter.Store.Table
import DebugAdapter.Text.Blank
import DebugAdapter.Text.Decimal
import DebugAdapter.Text.Double
import DebugAdapter.Text.Duration
import DebugAdapter.Text.Hex
import DebugAdapter.Text.Search
import DebugAdapter.Text.Template
import DebugAdapter.Text.Utf8
import DebugAdapter.Text.Word
import DebugAdapter.Toml.Basic
import DebugAdapter.Toml.Reader
import DebugAdapter.Toml.Scalar
import DebugAdapter.Visualizer.Basic
import DebugAdapter.Visualizer.Enum
import DebugAdapter.Visualizer.Registry
import DebugAdapter.Visualizer.Sequence
import DebugAdapter.Visualizer.Structural
import DebugAdapter.Visualizer.Text
import DebugAdapter.Width
import DebugAdapter.Proofs.BareSessions
import DebugAdapter.Proofs.BreakpointLedger
import DebugAdapter.Proofs.BreakpointReplies
import DebugAdapter.Proofs.BreakpointRequests
import DebugAdapter.Proofs.BreakpointResponses
import DebugAdapter.Proofs.BreakpointRuns
import DebugAdapter.Proofs.BreakpointTable
import DebugAdapter.Proofs.CanonicalPaths
import DebugAdapter.Proofs.CommandFrame
import DebugAdapter.Proofs.CommandsWhileHeld
import DebugAdapter.Proofs.DebuggeeStart
import DebugAdapter.Proofs.DefinitionLines
import DebugAdapter.Proofs.Disconnecting
import DebugAdapter.Proofs.DistantVariables
import DebugAdapter.Proofs.EngineAnswers
import DebugAdapter.Proofs.EngineJournal
import DebugAdapter.Proofs.ExecutionStatus
import DebugAdapter.Proofs.ExpandableValues
import DebugAdapter.Proofs.FailedStart
import DebugAdapter.Proofs.FailureWording
import DebugAdapter.Proofs.FallbackExpansion
import DebugAdapter.Proofs.FramingRoundTrip
import DebugAdapter.Proofs.GatewayLifecycle
import DebugAdapter.Proofs.HeaderBlocks
import DebugAdapter.Proofs.HeldDebuggee
import DebugAdapter.Proofs.HeldSessions
import DebugAdapter.Proofs.HolderChains
import DebugAdapter.Proofs.InspectionFrame
import DebugAdapter.Proofs.KnownThreads
import DebugAdapter.Proofs.ListedElements
import DebugAdapter.Proofs.ListedEntities
import DebugAdapter.Proofs.ListedVariants
import DebugAdapter.Proofs.LockstepOrder
import DebugAdapter.Proofs.LookingUp
import DebugAdapter.Proofs.LostInterrupts
import DebugAdapter.Proofs.PrefixRules
import DebugAdapter.Proofs.PublishedExits
import DebugAdapter.Proofs.PublishedStops
import DebugAdapter.Proofs.RefusedResume
import DebugAdapter.Proofs.RepeatedInspection
import DebugAdapter.Proofs.RequestAnswers
import DebugAdapter.Proofs.ScriptedBreakpoints
import DebugAdapter.Proofs.ScriptedDebuggee
import DebugAdapter.Proofs.ScriptedStatus
import DebugAdapter.Proofs.ScriptedSteady
import DebugAdapter.Proofs.SessionEnd
import DebugAdapter.Proofs.SessionProtocol
import DebugAdapter.Proofs.SessionWire
import DebugAdapter.Proofs.SettingsOrder
import DebugAdapter.Proofs.SourceRoundTrip
import DebugAdapter.Proofs.StackPages
import DebugAdapter.Proofs.StaleHandles
import DebugAdapter.Proofs.StateAgreement
import DebugAdapter.Proofs.SteadyDecoding
import DebugAdapter.Proofs.SteadyEngine
import DebugAdapter.Proofs.SteadyRendering
import DebugAdapter.Proofs.StopFreshness
import DebugAdapter.Proofs.StopReports
import DebugAdapter.Proofs.StoreConsistency
import DebugAdapter.Proofs.StoreFilling
import DebugAdapter.Proofs.StoreGrowth
import DebugAdapter.Proofs.StorePruning
import DebugAdapter.Proofs.StoreRemoval
import DebugAdapter.Proofs.StoreRuns
import DebugAdapter.Proofs.StoreViews
import DebugAdapter.Proofs.StringRendering
import DebugAdapter.Proofs.TicketReplies
import DebugAdapter.Proofs.TypeNameLookups
import DebugAdapter.Proofs.UriGrammar
import DebugAdapter.Proofs.UriOffsets
import DebugAdapter.Proofs.UriRoundTrip
import DebugAdapter.Proofs.Utf8Exact
import DebugAdapter.Proofs.VariableListings
import DebugAdapter.Proofs.WaitReports
