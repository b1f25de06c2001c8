import VerifyRun.Lib.Calls
import VerifyRun.Value
import VerifyRun.Errors
import VerifyRun.Canon
import VerifyRun.Load
import VerifyRun.RoundTrip
import VerifyRun.Dynamic
import VerifyRun.Pattern
import VerifyRun.Instant
import VerifyRun.Schema
import VerifyRun.Schemas
import VerifyRun.Rulebook
import VerifyRun.Snapshot
import VerifyRun.Lib.Sha256
import VerifyRun.RulebookLaws
import VerifyRun.SnapshotLaws
import VerifyRun.Decisions
import VerifyRun.Equality
import VerifyRun.Lib.Wildcard
import VerifyRun.Glob
import VerifyRun.Lib.Numeral
import VerifyRun.Ordering
import VerifyRun.Lib.Gregorian
import VerifyRun.Calendar
import VerifyRun.Preparation
import VerifyRun.SettledDecisions
import VerifyRun.Authorization
import VerifyRun.AuthorizationLaws
import VerifyRun.LoaderFailures
import VerifyRun.Receipt
import VerifyRun.TamperEvidence
import VerifyRun.Registry
import VerifyRun.YamlValues
import VerifyRun.ReceiptLaws
import VerifyRun.ChildLedger
import VerifyRun.ChildRecords
import VerifyRun.ChildLedgerLaws
import VerifyRun.BudgetSafety
import VerifyRun.Lib.Journal
import VerifyRun.CommonCapacity
import VerifyRun.Evidence
import VerifyRun.ManagedCapacity
import VerifyRun.ManagedLaws
import VerifyRun.ServiceLaws
import VerifyRun.CommonLaws
import VerifyRun.Publications
import VerifyRun.ServiceTests
import VerifyRun.Lib.Chain
import VerifyRun.TaskSuccession
import VerifyRun.Lib.Exclusive
import VerifyRun.Custody
import VerifyRun.Runner
import VerifyRun.Dispatch
import VerifyRun.Lib.Session
import VerifyRun.Surroundings
import VerifyRun.Acquisition
import VerifyRun.Execution
import VerifyRun.Workflow
import VerifyRun.Freeze
import VerifyRun.Timeline
import VerifyRun.Course
import VerifyRun.ManagedCopy
import VerifyRun.YamlTrees
import VerifyRun.Lib.Regular
import VerifyRun.PatternLanguage
import VerifyRun.Resolvers
import VerifyRun.Lib.FirstMet
import VerifyRun.HoldReasons
import VerifyRun.SourceIds
import VerifyRun.Consultation
import VerifyRun.Presentation
import VerifyRun.StringLiterals
import VerifyRun.SchemaRegistry
import VerifyRun.PatternAnchors
import VerifyRun.SchemaWalk
import VerifyRun.SchemaEnforcement
import VerifyRun.Lib.FirstFailure
import VerifyRun.SchemaMeaning
import VerifyRun.SchemaOrder
import VerifyRun.Lib.Lines
import VerifyRun.SessionPipe
import VerifyRun.Lib.Directories
import VerifyRun.ManifestTargets
import VerifyRun.Lib.Links
import VerifyRun.EvidencePaths
import VerifyRun.TextSize
import VerifyRun.PoolMarkers
import VerifyRun.Lib.Staging
import VerifyRun.IndexSlots
import VerifyRun.Unrecorded
import VerifyRun.NestingBound
import VerifyRun.SourceTokens
import VerifyRun.WideStart
import VerifyRun.Lib.SelfSize
import VerifyRun.Retention
import VerifyRun.RetainedEvidence
import VerifyRun.Lib.Capture
import VerifyRun.OutputCapture
import VerifyRun.Lib.Raises
import VerifyRun.TestSoundness
import VerifyRun.ServiceRoots
import VerifyRun.ManagedRequests
import VerifyRun.EpochPaths
