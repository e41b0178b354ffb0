import ContentSync.Binary.Format
import ContentSync.Binary.Shortest
import ContentSync.Content.AllyCode
import ContentSync.Content.Failure
import ContentSync.Content.Segment
import ContentSync.Content.Target
import ContentSync.Content.Version
import ContentSync.Diff.Changes
import ContentSync.Diff.Compare
import ContentSync.Diff.Equality
import ContentSync.Diff.SortedSet
import ContentSync.Engine.Checking
import ContentSync.Engine.Clockwork
import ContentSync.Engine.Fetching
import ContentSync.Engine.Lookup
import ContentSync.Engine.Orchestrator
import ContentSync.Engine.Program
import ContentSync.Engine.Retry
import ContentSync.Engine.Stage
import ContentSync.Engine.Writing
import ContentSync.Epoch.Phase
import ContentSync.Epoch.Record
import ContentSync.Epoch.Report
import ContentSync.Http.Client
import ContentSync.Http.Message
import ContentSync.Http.RequestTarget
import ContentSync.Json.Basic
import ContentSync.Json.Decode
import ContentSync.Json.Number
import ContentSync.Json.Printer
import ContentSync.Json.Written
import ContentSync.Logs.Filter
import ContentSync.Logs.Pattern
import ContentSync.Logs.Pattern.Brackets
import ContentSync.Logs.Pattern.Symbol
import ContentSync.Logs.Prune
import ContentSync.Main
import ContentSync.Notice.Dispatcher
import ContentSync.Notice.Embed
import ContentSync.Notice.Event
import ContentSync.Notice.Webhook
import ContentSync.Proofs.Content.Keys
import ContentSync.Proofs.Diff.Equality
import ContentSync.Proofs.Diff.Exact
import ContentSync.Proofs.Diff.Grouping
import ContentSync.Proofs.Diff.Index
import ContentSync.Proofs.Diff.Mirror
import ContentSync.Proofs.Diff.Order
import ContentSync.Proofs.Diff.Parts
import ContentSync.Proofs.Diff.Transitive
import ContentSync.Proofs.Engine.Account
import ContentSync.Proofs.Engine.Agreement
import ContentSync.Proofs.Engine.Asked
import ContentSync.Proofs.Engine.Baselines
import ContentSync.Proofs.Engine.Budget
import ContentSync.Proofs.Engine.Buffer
import ContentSync.Proofs.Engine.Calls
import ContentSync.Proofs.Engine.Cancellation
import ContentSync.Proofs.Engine.CheckOutcome
import ContentSync.Proofs.Engine.CheckingPath
import ContentSync.Proofs.Engine.Classification
import ContentSync.Proofs.Engine.Closing
import ContentSync.Proofs.Engine.CommitSafety
import ContentSync.Proofs.Engine.CommittedCached
import ContentSync.Proofs.Engine.Concurrency
import ContentSync.Proofs.Engine.Determined
import ContentSync.Proofs.Engine.Display
import ContentSync.Proofs.Engine.Effects
import ContentSync.Proofs.Engine.Entries
import ContentSync.Proofs.Engine.Fairness
import ContentSync.Proofs.Engine.Fate
import ContentSync.Proofs.Engine.Footprint
import ContentSync.Proofs.Engine.Fulfilment
import ContentSync.Proofs.Engine.Heedless
import ContentSync.Proofs.Engine.Idempotence
import ContentSync.Proofs.Engine.Isolation
import ContentSync.Proofs.Engine.Itemization
import ContentSync.Proofs.Engine.Length
import ContentSync.Proofs.Engine.Limits
import ContentSync.Proofs.Engine.LookupPath
import ContentSync.Proofs.Engine.Namespaces
import ContentSync.Proofs.Engine.Notification
import ContentSync.Proofs.Engine.OnTheClock
import ContentSync.Proofs.Engine.Overlap
import ContentSync.Proofs.Engine.Passage
import ContentSync.Proofs.Engine.Path
import ContentSync.Proofs.Engine.Phases
import ContentSync.Proofs.Engine.Pool
import ContentSync.Proofs.Engine.Progress
import ContentSync.Proofs.Engine.ReadThrough
import ContentSync.Proofs.Engine.Recovery
import ContentSync.Proofs.Engine.ReportPath
import ContentSync.Proofs.Engine.Reporting
import ContentSync.Proofs.Engine.Restoration
import ContentSync.Proofs.Engine.RetryLoop
import ContentSync.Proofs.Engine.RetryPath
import ContentSync.Proofs.Engine.RetryTiming
import ContentSync.Proofs.Engine.Run
import ContentSync.Proofs.Engine.Solo
import ContentSync.Proofs.Engine.Success
import ContentSync.Proofs.Engine.Summary
import ContentSync.Proofs.Engine.Termination
import ContentSync.Proofs.Engine.Thorough
import ContentSync.Proofs.Engine.Traffic
import ContentSync.Proofs.Engine.Turns
import ContentSync.Proofs.Engine.Upshot
import ContentSync.Proofs.Engine.Versions
import ContentSync.Proofs.Engine.Waiting
import ContentSync.Proofs.Engine.World
import ContentSync.Proofs.Engine.WritingPath
import ContentSync.Proofs.Epoch.Collected
import ContentSync.Proofs.Http.Endpoints
import ContentSync.Proofs.Json.ReadBack
import ContentSync.Proofs.Json.Spelling
import ContentSync.Proofs.Logs.Prune
import ContentSync.Proofs.Notice.Delivery
import ContentSync.Proofs.Notice.Mentions
import ContentSync.Proofs.Notice.Message
import ContentSync.Proofs.Notice.Posting
import ContentSync.Proofs.Rehearsal.Admission
import ContentSync.Proofs.Rehearsal.Display
import ContentSync.Proofs.Rehearsal.Stores
import ContentSync.Proofs.Settings.Backoff
import ContentSync.Proofs.Settings.CacheAddress
import ContentSync.Proofs.Settings.EmptyTexts
import ContentSync.Proofs.Settings.Layers
import ContentSync.Proofs.Store.FileSystem
import ContentSync.Proofs.Store.MemoryCache
import ContentSync.Proofs.Store.RemoteCache
import ContentSync.Proofs.Store.TimedMap
import ContentSync.Proofs.Store.VersionFile
import ContentSync.Proofs.Text.Bytes
import ContentSync.Proofs.Text.Escapes
import ContentSync.Proofs.Time.Dates
import ContentSync.Proofs.Url.Domain
import ContentSync.Proofs.Url.Host
import ContentSync.Proofs.Url.Join
import ContentSync.Proofs.Url.Names
import ContentSync.Proofs.Url.Slash
import ContentSync.Proofs.Url.Web
import ContentSync.Rehearsal.Backstage
import ContentSync.Rehearsal.Play
import ContentSync.Rehearsal.Rounds
import ContentSync.Rehearsal.Step
import ContentSync.Schedule.Cron
import ContentSync.Server.Router
import ContentSync.Server.State
import ContentSync.Service.Client
import ContentSync.Settings.CommandLine
import ContentSync.Settings.Endpoints
import ContentSync.Settings.Invalid
import ContentSync.Settings.Layer
import ContentSync.Settings.Policy
import ContentSync.Settings.Retry
import ContentSync.Settings.Server
import ContentSync.Settings.Setting
import ContentSync.Store.FileSystem
import ContentSync.Store.KeyValue
import ContentSync.Store.MemoryCache
import ContentSync.Store.VersionFile
import ContentSync.Store.WrittenPath
import ContentSync.Text.Blank
import ContentSync.Text.CodePoints
import ContentSync.Text.Composition
import ContentSync.Text.Letter
import ContentSync.Text.Lossy
import ContentSync.Text.Mark
import ContentSync.Text.Parts
import ContentSync.Text.Percent
import ContentSync.Time.Duration
import ContentSync.Time.Timestamp
import ContentSync.Url.Basic
import ContentSync.Url.Domain
import ContentSync.Url.Domain.Direction
import ContentSync.Url.Domain.Joining
import ContentSync.Url.Domain.Spelling
import ContentSync.Url.Escape
import ContentSync.Url.Host
import ContentSync.Url.Parse
import ContentSync.Url.Punycode
