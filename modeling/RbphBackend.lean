import RbphBackend.Accounts.Runs
import RbphBackend.Auth.RateLimit
import RbphBackend.Backend.Console
import RbphBackend.Backend.Expiring
import RbphBackend.Backend.KeyValue
import RbphBackend.Backend.Listing
import RbphBackend.Backend.Versions
import RbphBackend.Caching.Listed
import RbphBackend.Cluster.Membership
import RbphBackend.Concurrency.Alone
import RbphBackend.Concurrency.Deferred
import RbphBackend.Concurrency.Discipline
import RbphBackend.Concurrency.Draft
import RbphBackend.Concurrency.Guards
import RbphBackend.Concurrency.Journal
import RbphBackend.Concurrency.Program
import RbphBackend.Concurrency.ReadCommitted
import RbphBackend.Concurrency.RelyGuarantee
import RbphBackend.Concurrency.Solo
import RbphBackend.Concurrency.Trace
import RbphBackend.Concurrency.Transaction
import RbphBackend.Concurrency.Within
import RbphBackend.Concurrency.Work
import RbphBackend.Currency.Balance
import RbphBackend.Currency.Charge
import RbphBackend.Currency.Events
import RbphBackend.Currency.Operations
import RbphBackend.Currency.Reconfigure
import RbphBackend.Currency.Touches
import RbphBackend.Currency.Transactions
import RbphBackend.Database.Schema
import RbphBackend.EventLog.Admin
import RbphBackend.EventLog.Tickets
import RbphBackend.Expr.Ast
import RbphBackend.Expr.Cache
import RbphBackend.Expr.Compiler
import RbphBackend.Expr.Grammar
import RbphBackend.Expr.HintDisplay
import RbphBackend.Expr.Monotone
import RbphBackend.Frontend.Cache
import RbphBackend.Frontend.Config
import RbphBackend.Frontend.Frames
import RbphBackend.Frontend.Manifest
import RbphBackend.Frontend.Preview
import RbphBackend.Frontend.Publish
import RbphBackend.Frontend.Tables
import RbphBackend.Frontend.Upload
import RbphBackend.Games.Groups
import RbphBackend.Games.Merge
import RbphBackend.Gate.Builders
import RbphBackend.Gate.Eligible
import RbphBackend.Gate.Meaning
import RbphBackend.Helpdesk.OpenBlock
import RbphBackend.Helpdesk.Runs
import RbphBackend.Hints.Edits
import RbphBackend.Hints.Validation
import RbphBackend.Leaderboard.Announced
import RbphBackend.Leaderboard.Consistent
import RbphBackend.Leaderboard.Frozen
import RbphBackend.Leaderboard.Locking
import RbphBackend.Leaderboard.Marks
import RbphBackend.Leaderboard.Pages
import RbphBackend.Leaderboard.Refresh
import RbphBackend.Leaderboard.Rounds
import RbphBackend.Notifications.Inbox
import RbphBackend.Numeric.Base64
import RbphBackend.Numeric.Calendar
import RbphBackend.Paging.Chain
import RbphBackend.Paging.Feed
import RbphBackend.Paging.Merge
import RbphBackend.Paging.Offset
import RbphBackend.Paging.Page
import RbphBackend.Paths.Components
import RbphBackend.Paths.Moves
import RbphBackend.Paths.Naming
import RbphBackend.Paths.PercentEncoding
import RbphBackend.Play.Actions
import RbphBackend.Play.CalmCalls
import RbphBackend.Play.Cooldowns
import RbphBackend.Play.CurrencyUpdate
import RbphBackend.Play.DeedStatements
import RbphBackend.Play.Disband
import RbphBackend.Play.HintViews
import RbphBackend.Play.Judgement
import RbphBackend.Play.Penalties
import RbphBackend.Play.Runs
import RbphBackend.Play.Transactions
import RbphBackend.Release.Cursor
import RbphBackend.Release.Features
import RbphBackend.Release.Notified
import RbphBackend.Release.PuzzleUpdate
import RbphBackend.Sessions.Registry
import RbphBackend.Settings.Reconcile
import RbphBackend.Storage.Compensation
import RbphBackend.Storage.DatabaseCache
import RbphBackend.Storage.FolderPlans
import RbphBackend.Storage.Groups
import RbphBackend.Storage.LocalStorage
import RbphBackend.Storage.Patches
import RbphBackend.Storage.Renames
import RbphBackend.Storage.Summary
import RbphBackend.Storage.UniquePaths
import RbphBackend.Storage.Unpacking
import RbphBackend.Sync.Hub
import RbphBackend.Sync.Leases
import RbphBackend.Sync.Listed
import RbphBackend.Sync.Outage
import RbphBackend.Teams.Listing
import RbphBackend.Teams.Manning
import RbphBackend.Teams.Moves
import RbphBackend.Teams.Patches
import RbphBackend.Threads.Anonymity
import RbphBackend.Threads.History
import RbphBackend.Tickets.Purchase
import RbphBackend.Uploads.Listings
import RbphBackend.Uploads.Parts
import RbphBackend.Uploads.Session
