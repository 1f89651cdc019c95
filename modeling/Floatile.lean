import Floatile.Lib.Text
import Floatile.Lib.SortedMap
import Floatile.Core.Json
import Floatile.Core.Capability
import Floatile.Core.Manifest
import Floatile.Core.Distribution
import Floatile.Lib.Checked
import Floatile.Core.Authority
import Floatile.Services.Authorize
import Floatile.Shell.ManifestGrants
import Floatile.Lib.Version
import Floatile.Shell.SilentChange
import Floatile.Lib.Channel
import Floatile.Lib.Transition
import Floatile.Runtime.State
import Floatile.Runtime.ActorLoop
import Floatile.Store.Trust
import Floatile.Store.Watermark
import Floatile.Core.Operation
import Floatile.Services.Operation
import Floatile.Lib.Pool
import Floatile.Services.OperationStep
import Floatile.Services.Completion
import Floatile.Runtime.Relay
import Floatile.Runtime.Delivery
import Floatile.Shell.Supervisor
import Floatile.Shell.StopSafety
import Floatile.Core.Connection
import Floatile.Lib.Trace
import Floatile.Services.Local
import Floatile.Services.Http
import Floatile.Services.Broker
import Floatile.Services.Mediation
import Floatile.Core.Signature
import Floatile.Cli.Install
import Floatile.Lib.Register
import Floatile.Cli.Recovery
import Floatile.Cli.CrashSafety
import Floatile.UiSchema.Ir
import Floatile.UiSchema.Registry
import Floatile.UiSchema.Validate
import Floatile.Sdk.Mirror
import Floatile.Sdk.DocumentJson
import Floatile.Sdk.DocumentText
import Floatile.Store.Connection
import Floatile.Cli.Instance
import Floatile.Cli.Discipline
import Floatile.UiSchema.Expansion
import Floatile.UiSchema.Drift
import Floatile.Lib.Decimal
import Floatile.Renderer.Markup
import Floatile.Renderer.Render
import Floatile.Renderer.Tree
import Floatile.Lib.Literal
import Floatile.Renderer.Slots
import Floatile.Renderer.Leaves
import Floatile.Renderer.Sound
import Floatile.Renderer.Size
import Floatile.Renderer.Branches
import Floatile.Renderer.Names
import Floatile.Renderer.Typed
import Floatile.Shell.Projection
import Floatile.Runtime.Timer
import Floatile.Runtime.TimerSlots
import Floatile.Services.HttpHost
import Floatile.Services.CallFrame
import Floatile.Services.Confinement
import Floatile.Services.RateBudget
import Floatile.Runtime.HostAdapter
import Floatile.Runtime.AuditPair
import Floatile.Runtime.AuditSecrecy
import Floatile.Cli.Installer
import Floatile.Cli.RoundTrip
import Floatile.Cli.Stock
import Floatile.Cli.Publishers
import Floatile.Cli.Confirmation
import Floatile.Shell.Observed
import Floatile.Store.Records
import Floatile.Store.Database
import Floatile.Store.Identity
import Floatile.Lib.Prefix
import Floatile.Services.Transport
import Floatile.Services.PublicAddress
import Floatile.Services.HttpCache
import Floatile.Services.HttpSession
import Floatile.Services.CacheBound
import Floatile.UiSchema.StateDepth
import Floatile.UiSchema.Meets
import Floatile.UiSchema.Placement
import Floatile.UiSchema.DocumentSound
import Floatile.Renderer.Demands
import Floatile.Renderer.Agreement
import Floatile.Lib.Origin
import Floatile.UiSchema.MergePatch
import Floatile.Lib.Weight
import Floatile.Services.StorageAccount
import Floatile.Core.ContentDigest
import Floatile.Core.SignatureOrder
import Floatile.Cli.Accepted
import Floatile.Cli.Budget
import Floatile.Cli.EntryPaths
import Floatile.Shell.PluginManager
import Floatile.Cli.Catalog
import Floatile.Shell.Runnable
import Floatile.Sdk.DerivedState
import Floatile.Shell.SnapshotPlan
import Floatile.Store.Rollback
import Floatile.Store.LayoutStore
import Floatile.Lib.Span
import Floatile.Core.Layout
import Floatile.Shell.WindowLayout
import Floatile.Shell.ConfigForm
import Floatile.Shell.NetworkOrigins
import Floatile.Shell.LayoutRuns
import Floatile.Renderer.Injection
import Floatile.Renderer.Controls
import Floatile.Shell.EventBridge
import Floatile.Shell.EventFlow
import Floatile.Shell.ModeControl
import Floatile.Shell.ControlPanel
import Floatile.Shell.HttpsComposition
import Floatile.Cli.Project
import Floatile.Cli.ProjectMigration
