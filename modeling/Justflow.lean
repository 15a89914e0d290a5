import Justflow.Library.Base64
import Justflow.Library.Fields
import Justflow.Library.Json
import Justflow.Library.JsonSize
import Justflow.Library.Base64Text
import Justflow.Library.Programs
import Justflow.Library.Digraph
import Justflow.Library.Cycles
import Justflow.Library.Decimals
import Justflow.Library.Decoded
import Justflow.Library.Doubles
import Justflow.Library.Lookups
import Justflow.Library.Dumps
import Justflow.Library.Enumerations
import Justflow.Library.Processes
import Justflow.Library.Interference
import Justflow.Library.JsonText
import Justflow.Library.Layout
import Justflow.Library.JsonPrinting
import Justflow.Library.Learning
import Justflow.Library.Tables
import Justflow.Library.Memoization
import Justflow.Library.Moments
import Justflow.Library.MustFlow
import Justflow.Library.Objects
import Justflow.Library.Outlines
import Justflow.Library.Paging
import Justflow.Library.Patterns
import Justflow.Library.Queues
import Justflow.Library.Raising
import Justflow.Library.Reordering
import Justflow.Library.Scans
import Justflow.Library.Shadows
import Justflow.Library.SoloRuns
import Justflow.Library.Subvalues
import Justflow.Library.Sweeps
import Justflow.Library.TaskPools
import Justflow.Library.Versions
import Justflow.Library.Worklists
import Justflow.Config.Grammar
import Justflow.Config.Models
import Justflow.Engine.Audit
import Justflow.Engine.Continuation
import Justflow.Engine.Errors
import Justflow.Engine.Data
import Justflow.Engine.References
import Justflow.Engine.Evaluator
import Justflow.Engine.Runner
import Justflow.Engine.Analysis
import Justflow.Config.Validation
import Justflow.Config.AcceptedFlow
import Justflow.Config.Composition
import Justflow.Config.Identity
import Justflow.Config.ReferencePaths
import Justflow.Config.Schedules
import Justflow.Activation.Record
import Justflow.Activation.Schedules
import Justflow.Activation.Planning
import Justflow.Activation.Dump
import Justflow.Activation.ControlPlane
import Justflow.Activation.Controller
import Justflow.Activation.Moves
import Justflow.Activation.Acting
import Justflow.Activation.Phases
import Justflow.Activation.Runs
import Justflow.Activation.Lease
import Justflow.Activation.Bounds
import Justflow.Engine.Execution
import Justflow.Engine.Visit
import Justflow.Engine.Walk
import Justflow.Engine.Readable
import Justflow.Engine.Outcomes
import Justflow.Engine.Ordinary
import Justflow.Engine.Failures
import Justflow.Engine.FailureRecords
import Justflow.Engine.AuditCapture
import Justflow.Engine.Archival
import Justflow.Engine.Edges
import Justflow.Engine.Entries
import Justflow.Engine.Availability
import Justflow.Engine.Dataflow
import Justflow.Engine.Episodes
import Justflow.Engine.AuditOrder
import Justflow.Engine.CacheKeys
import Justflow.Engine.Confinement
import Justflow.Engine.Contracts
import Justflow.Engine.CycleSearch
import Justflow.Engine.Pending
import Justflow.Engine.Signals
import Justflow.Runtime.Scope
import Justflow.Engine.Relay
import Justflow.Engine.Deduplication
import Justflow.Engine.Delivery
import Justflow.Engine.FanOut
import Justflow.Engine.Isolation
import Justflow.Engine.Outputs
import Justflow.Engine.Termination
import Justflow.Engine.LatestOutputs
import Justflow.Engine.Serialization
import Justflow.Engine.PayloadProtection
import Justflow.Engine.Roots
import Justflow.Engine.SchemaPaths
import Justflow.Engine.SchemaWalk
import Justflow.Engine.TriggerData
import Justflow.Activation.Pointer
import Justflow.Activation.Stores
import Justflow.Activation.StoreAgreement
import Justflow.Configuration.Documents
import Justflow.Configuration.Sqlite
import Justflow.Configuration.Cloud
import Justflow.Configuration.Aws
import Justflow.Configuration.Revisions
import Justflow.Configuration.Transactions
import Justflow.Configuration.Agreement
import Justflow.Configuration.Policy
import Justflow.Configuration.Aliases
import Justflow.Configuration.Operations
import Justflow.Configuration.Backends
import Justflow.Configuration.Dangling
import Justflow.Configuration.DocumentBounds
import Justflow.Configuration.ReadBack
import Justflow.Configuration.CloudSources
import Justflow.Configuration.Identities
import Justflow.Configuration.Publications
import Justflow.Configuration.PublicationRuns
import Justflow.Configuration.Retention
import Justflow.Configuration.RevisionDiff
import Justflow.Definitions.Manifest
import Justflow.Definitions.Catalog
import Justflow.Definitions.CatalogStore
import Justflow.Resources.LoadOrder
import Justflow.Definitions.ManifestBuilds
import Justflow.Definitions.ManifestTrees
import Justflow.Definitions.CatalogPublications
import Justflow.Definitions.LocalCatalog
import Justflow.Definitions.CatalogRaces
import Justflow.Definitions.Migration
import Justflow.Starts.Records
import Justflow.Starts.Starter
import Justflow.Starts.StartMemo
import Justflow.Definitions.Preparation
import Justflow.Definitions.Retirement
import Justflow.Definitions.S3Catalog
import Justflow.Definitions.S3CatalogRuns
import Justflow.Runtime.Backfill
import Justflow.Runtime.Control
import Justflow.Runtime.Reconciler
import Justflow.Runtime.Replanning
import Justflow.Runtime.Convergence
import Justflow.Runtime.Cursors
import Justflow.Runtime.OperationsQuery
import Justflow.Runtime.Ownership
import Justflow.Starts.Dispatch
import Justflow.Starts.Failed
import Justflow.Starts.Service
import Justflow.Starts.Operations
import Justflow.Starts.Arbitration
import Justflow.Starts.ClockSkew
import Justflow.Starts.Conduct
import Justflow.Starts.Incarnations
import Justflow.Starts.Ingress
import Justflow.Starts.Listing
import Justflow.Starts.Winner
