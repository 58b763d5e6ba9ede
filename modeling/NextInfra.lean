import NextInfra.Lib.KeyedTable
import NextInfra.Lib.TableWrites
import NextInfra.Lib.Separated
import NextInfra.Lib.RetryQueue
import NextInfra.Lib.Runs
import NextInfra.Lib.KeyRuns
import NextInfra.Lib.Traces
import NextInfra.Lib.Calendar
import NextInfra.Lib.Frames
import NextInfra.Lib.Reads
import NextInfra.Lib.Transaction
import NextInfra.Lib.Keyset
import NextInfra.Core.Ids
import NextInfra.Core.Json
import NextInfra.Core.Model
import NextInfra.Core.Text
import NextInfra.Core.LocalRelation
import NextInfra.Store.Tables
import NextInfra.Store.Write
import NextInfra.Store.Commit
import NextInfra.Store.Purge
import NextInfra.Store.LocalCommits
import NextInfra.Store.Revision
import NextInfra.Store.Authors
import NextInfra.Connector.Observation
import NextInfra.Normalizer.Scan
import NextInfra.Normalizer.Normalize
import NextInfra.Sync.Identity
import NextInfra.Sync.Project
import NextInfra.Sync.Plan
import NextInfra.Sync.Engine
import NextInfra.Sync.StorePlan
import NextInfra.Sync.Accept
import NextInfra.Sync.System
import NextInfra.Sync.Absence
import NextInfra.Sync.Completeness
import NextInfra.Sync.Finality
import NextInfra.Sync.LiveEdges
import NextInfra.Sync.LastCommitted
import NextInfra.Sync.Collisions
import NextInfra.Sync.Resync
import NextInfra.Sync.Exact
import NextInfra.Sync.Queue
import NextInfra.Runtime.Scheduler
import NextInfra.Runtime.Emissions
import NextInfra.Desktop.Driver
import NextInfra.Desktop.Starvation
import NextInfra.Desktop.SingleFlight
import NextInfra.Desktop.Normalizers
import NextInfra.Desktop.Sync
import NextInfra.Desktop.RunEnds
import NextInfra.Desktop.SyncSteps
import NextInfra.Desktop.Commands
import NextInfra.Desktop.PurgeRace
import NextInfra.Desktop.QueryContext
import NextInfra.Binding.Service
import NextInfra.Binding.Invariant
import NextInfra.Binding.RelationIds
import NextInfra.Binding.Projection
import NextInfra.Binding.History
import NextInfra.Binding.Conflicts
import NextInfra.Binding.Projected
import NextInfra.Inference.Engine
import NextInfra.Inference.Outputs
import NextInfra.Inference.Quiet
import NextInfra.Inference.History
import NextInfra.Inference.CandidateSet
import NextInfra.Purge.Closure
import NextInfra.Query.Sql
import NextInfra.Query.Projection
import NextInfra.Query.Paging
import NextInfra.Lib.LayeredSearch
import NextInfra.Query.Source
import NextInfra.Query.Freshness
import NextInfra.Query.Search
import NextInfra.Query.CivilDays
import NextInfra.Query.Instants
import NextInfra.Query.Timeline
import NextInfra.Query.Topology
import NextInfra.Ssh.Config
import NextInfra.Ssh.Probes
import NextInfra.Ssh.Mapper
import NextInfra.Ssh.Connector
import NextInfra.Ssh.Coverage
import NextInfra.Ssh.Filesystems
import NextInfra.Ssh.Strict
import NextInfra.Cloudflare.Coverage
import NextInfra.Dokploy.Pages
import NextInfra.Dokploy.Coverage
import NextInfra.Cloud.Honesty
import NextInfra.Cloud.Requests
import NextInfra.Cloud.Envelopes
import NextInfra.Normalizer.Accept
import NextInfra.Normalizer.OrderFree
import NextInfra.Normalizer.Projection
import NextInfra.Normalizer.Secrets
import NextInfra.GitHub.Outcome
import NextInfra.GitHub.Links
import NextInfra.GitHub.Pagination
import NextInfra.Host.Lifecycle
import NextInfra.Host.Marker
import NextInfra.Host.StateDirectory
import NextInfra.Host.MarkerCalls
import NextInfra.Host.UserQuit
import NextInfra.Rpc.Message
import NextInfra.Rpc.Framed
import NextInfra.Rpc.Handshake
import NextInfra.Rpc.Client
import NextInfra.Rpc.Server
import NextInfra.Bridge.Availability
import NextInfra.Cloud.Panics
import NextInfra.Connector.Naming
import NextInfra.Supabase.Managed
import NextInfra.Cloud.Identity
import NextInfra.Supabase.SelfHosted
import NextInfra.Supabase.Tables
import NextInfra.Lib.StableSort
import NextInfra.Cloudflare.Fits
import NextInfra.Cloudflare.HashOrder
import NextInfra.Cloudflare.Isolation
import NextInfra.Lib.Base64
import NextInfra.Lib.FormUrlencoded
import NextInfra.Aliyun.Signing
import NextInfra.Lib.ParentChains
import NextInfra.Lib.InsertionMap
import NextInfra.Lib.GrownTrees
import NextInfra.Desktop.InventoryTree
import NextInfra.Lib.Shelves
import NextInfra.Desktop.TopologyLayout
import NextInfra.GitHub.Committed
import NextInfra.GitHub.Lists
import NextInfra.GitHub.Cache
import NextInfra.Lib.Programs
import NextInfra.Rpc.Endpoint
import NextInfra.Rpc.Leftovers
import NextInfra.Store.Migrations
