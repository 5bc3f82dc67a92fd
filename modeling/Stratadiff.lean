import Stratadiff.Lib.Alignment
import Stratadiff.Lib.BackWalk
import Stratadiff.Lib.Base64
import Stratadiff.Lib.Base64Url
import Stratadiff.Lib.Buckets
import Stratadiff.Lib.Descent
import Stratadiff.Lib.Document
import Stratadiff.Lib.EditScript
import Stratadiff.Lib.Escape
import Stratadiff.Lib.Fallible
import Stratadiff.Lib.Grid
import Stratadiff.Lib.Instant
import Stratadiff.Lib.Json
import Stratadiff.Lib.JsonMap
import Stratadiff.Lib.JsonSize
import Stratadiff.Lib.Keyed
import Stratadiff.Lib.Optima
import Stratadiff.Lib.Metered
import Stratadiff.Lib.Newest
import Stratadiff.Lib.OrderedMap
import Stratadiff.Lib.Preorder
import Stratadiff.Lib.Program
import Stratadiff.Lib.Session
import Stratadiff.Lib.SelfDelimiting
import Stratadiff.Lib.Spelling
import Stratadiff.Lib.Stateful
import Stratadiff.Lib.Table
import Stratadiff.Lib.Transaction
import Stratadiff.Lib.Utf16
import Stratadiff.Lib.Wildcard
import Stratadiff.Core.Patch
import Stratadiff.Core.Model
import Stratadiff.Core.Syntax
import Stratadiff.Core.Hash
import Stratadiff.Core.Build
import Stratadiff.Core.Universal
import Stratadiff.Core.Collect
import Stratadiff.Core.Report
import Stratadiff.Core.Decode
import Stratadiff.Git.Change
import Stratadiff.Git.Repository
import Stratadiff.Verifier.Limits
import Stratadiff.Verifier.Patch
import Stratadiff.Verifier.Preflight
import Stratadiff.Verifier.Report
import Stratadiff.Verifier.Budget
import Stratadiff.Patch.Create
import Stratadiff.Patch.Replay
import Stratadiff.Review.Model
import Stratadiff.Review.Blobs
import Stratadiff.Review.Translate
import Stratadiff.Review.Reconstruct
import Stratadiff.Review.Analyze
import Stratadiff.Review.Lines
import Stratadiff.Review.Range
import Stratadiff.Review.Delta
import Stratadiff.Review.Annotations
import Stratadiff.Review.Resume
import Stratadiff.Review.Gate
import Stratadiff.Review.Agreement
import Stratadiff.Cache.Model
import Stratadiff.Cache.Git
import Stratadiff.Git.RawDiff
import Stratadiff.Git.Relocation
import Stratadiff.Cache.Canonical
import Stratadiff.Governor.Model
import Stratadiff.Governor.Ingest
import Stratadiff.Governor.Evidence
import Stratadiff.Governor.Store
import Stratadiff.Governor.Evaluate
import Stratadiff.Governor.Worker
import Stratadiff.Governor.System
import Stratadiff.Governor.Change
import Stratadiff.Governor.Coupling
import Stratadiff.Governor.Revocations
import Stratadiff.Governor.Events
import Stratadiff.Governor.Success
import Stratadiff.Governor.Growth
import Stratadiff.Governor.Queue
import Stratadiff.Governor.Calls
import Stratadiff.Governor.Runs
import Stratadiff.Governor.Schedule
import Stratadiff.Governor.Lifecycle
import Stratadiff.Governor.Fencing
import Stratadiff.Governor.Quarantine
import Stratadiff.Governor.Snapshot
import Stratadiff.Governor.Delivery
import Stratadiff.Governor.Tombstone
import Stratadiff.Matcher.Alignment
import Stratadiff.Matcher.Components
import Stratadiff.Matcher.Groups
import Stratadiff.Matcher.ShapeClasses
import Stratadiff.Matcher.Candidates
import Stratadiff.Matcher.StableCore
import Stratadiff.Matcher.Ordered
import Stratadiff.Verifier.Relations
import Stratadiff.Verifier.Regions
import Stratadiff.Verifier.StableCore
import Stratadiff.Verifier.Agreement
import Stratadiff.Verifier.Changes
import Stratadiff.Verifier.Structure
import Stratadiff.Value.Model
import Stratadiff.Value.Log
import Stratadiff.Value.Protocol
import Stratadiff.Value.Append
import Stratadiff.Value.Report
import Stratadiff.Ledger.Model
import Stratadiff.Ledger.Ingest
import Stratadiff.Ledger.Collection
import Stratadiff.Ledger.Confluence
import Stratadiff.Ledger.Active
import Stratadiff.Ledger.Reconcile
import Stratadiff.Ledger.Frame
import Stratadiff.Ledger.Redelivery
import Stratadiff.Coverage.Ownership
import Stratadiff.Coverage.Resolve
import Stratadiff.Coverage.Model
import Stratadiff.Coverage.Sound
import Stratadiff.Doctor.Filter
import Stratadiff.Doctor.Workflow
import Stratadiff.Inbox.Decision
import Stratadiff.Inbox.Checkpoint
import Stratadiff.Inbox.Event
import Stratadiff.Inbox.Client
import Stratadiff.Inbox.Collect
import Stratadiff.Inbox.Token
import Stratadiff.Inbox.Reading
import Stratadiff.Inbox.Budget
import Stratadiff.Inbox.Announce
import Stratadiff.Inbox.Deliverable
import Stratadiff.Inbox.Run
import Stratadiff.Web.VisibleText
