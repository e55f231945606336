import StorageCluster.Access
import StorageCluster.Address
import StorageCluster.Controller.Core
import StorageCluster.Controller.Creation
import StorageCluster.Controller.Cycle
import StorageCluster.Controller.Event
import StorageCluster.Controller.Loop
import StorageCluster.Controller.Peers
import StorageCluster.Controller.Placement
import StorageCluster.Controller.Primary
import StorageCluster.Controller.Push
import StorageCluster.Controller.Reconcile
import StorageCluster.Controller.Replicas
import StorageCluster.Controller.State
import StorageCluster.Fault
import StorageCluster.Filter
import StorageCluster.Flags
import StorageCluster.Format.Basic
import StorageCluster.Format.Node
import StorageCluster.Format.Report
import StorageCluster.Format.Resource
import StorageCluster.Graph
import StorageCluster.Layer
import StorageCluster.Metrics
import StorageCluster.Name
import StorageCluster.Node
import StorageCluster.Proofs.Controller.Announcements
import StorageCluster.Proofs.Controller.Atomicity
import StorageCluster.Proofs.Controller.Claims
import StorageCluster.Proofs.Controller.Convoys
import StorageCluster.Proofs.Controller.Counting
import StorageCluster.Proofs.Controller.Cycles
import StorageCluster.Proofs.Controller.Deficit
import StorageCluster.Proofs.Controller.Exits
import StorageCluster.Proofs.Controller.Growth
import StorageCluster.Proofs.Controller.Lacking
import StorageCluster.Proofs.Controller.Moves
import StorageCluster.Proofs.Controller.Operations
import StorageCluster.Proofs.Controller.Overcommit
import StorageCluster.Proofs.Controller.Planning
import StorageCluster.Proofs.Controller.Policy
import StorageCluster.Proofs.Controller.Preference
import StorageCluster.Proofs.Controller.Primacy
import StorageCluster.Proofs.Controller.Pushes
import StorageCluster.Proofs.Controller.Queue
import StorageCluster.Proofs.Controller.Ranking
import StorageCluster.Proofs.Controller.Recovery
import StorageCluster.Proofs.Controller.Remaining
import StorageCluster.Proofs.Controller.Responses
import StorageCluster.Proofs.Controller.Selection
import StorageCluster.Proofs.Controller.Source
import StorageCluster.Proofs.Controller.Spread
import StorageCluster.Proofs.Controller.Tombstones
import StorageCluster.Proofs.Controller.Tracking
import StorageCluster.Proofs.Controller.Upkeep
import StorageCluster.Proofs.Controller.Viability
import StorageCluster.Proofs.Controller.Vigilance
import StorageCluster.Proofs.Erasure
import StorageCluster.Proofs.Flags
import StorageCluster.Proofs.Format
import StorageCluster.Proofs.Name
import StorageCluster.Proofs.Satellite.Answers
import StorageCluster.Proofs.Satellite.Batches
import StorageCluster.Proofs.Satellite.Caches
import StorageCluster.Proofs.Satellite.Calls
import StorageCluster.Proofs.Satellite.Capacity
import StorageCluster.Proofs.Satellite.Chain
import StorageCluster.Proofs.Satellite.Cleanup
import StorageCluster.Proofs.Satellite.Deletion
import StorageCluster.Proofs.Satellite.Delivery
import StorageCluster.Proofs.Satellite.Encryption
import StorageCluster.Proofs.Satellite.Expansion
import StorageCluster.Proofs.Satellite.Forest
import StorageCluster.Proofs.Satellite.Isolation
import StorageCluster.Proofs.Satellite.Lasting
import StorageCluster.Proofs.Satellite.Layout
import StorageCluster.Proofs.Satellite.Memory
import StorageCluster.Proofs.Satellite.Minors
import StorageCluster.Proofs.Satellite.Orderly
import StorageCluster.Proofs.Satellite.Phases
import StorageCluster.Proofs.Satellite.Readiness
import StorageCluster.Proofs.Satellite.Recording
import StorageCluster.Proofs.Satellite.Redelivery
import StorageCluster.Proofs.Satellite.Retention
import StorageCluster.Proofs.Satellite.Roots
import StorageCluster.Proofs.Satellite.Settlement
import StorageCluster.Proofs.Satellite.Succession
import StorageCluster.Proofs.Satellite.Turns
import StorageCluster.Proofs.Satellite.Unlocking
import StorageCluster.Proofs.Satellite.Volumes
import StorageCluster.Proofs.Satellite.Work
import StorageCluster.Proofs.SortedMap
import StorageCluster.Proofs.Spelling
import StorageCluster.Proofs.Store.Amendments
import StorageCluster.Proofs.Store.Contents
import StorageCluster.Proofs.Store.Engines
import StorageCluster.Proofs.Store.Holdings
import StorageCluster.Proofs.Store.Image
import StorageCluster.Proofs.Store.Intake
import StorageCluster.Proofs.Store.Integrity
import StorageCluster.Proofs.Store.Keys
import StorageCluster.Proofs.Store.Loading
import StorageCluster.Proofs.Store.Paths
import StorageCluster.Proofs.Store.Restoring
import StorageCluster.Proofs.Store.Rows
import StorageCluster.Proofs.Store.Scans
import StorageCluster.Proofs.Text.Json
import StorageCluster.Proofs.Text.Numeral
import StorageCluster.Proofs.Uuid
import StorageCluster.Proofs.WellFiled
import StorageCluster.Props
import StorageCluster.Resource
import StorageCluster.ReturnCode
import StorageCluster.Satellite.Arena
import StorageCluster.Satellite.Devices
import StorageCluster.Satellite.Dispatch
import StorageCluster.Satellite.Drbd
import StorageCluster.Satellite.Expansion
import StorageCluster.Satellite.Handler
import StorageCluster.Satellite.Luks
import StorageCluster.Satellite.Rehearsal
import StorageCluster.Satellite.Service
import StorageCluster.Satellite.Stack
import StorageCluster.Satellite.Storage
import StorageCluster.Scenario.Blueprint
import StorageCluster.Scenario.Cluster
import StorageCluster.Scenario.Expression
import StorageCluster.Scenario.Expression.CharSet
import StorageCluster.Scenario.Expression.CharSet.Bytes
import StorageCluster.Scenario.Expression.CharSet.Digits
import StorageCluster.Scenario.Expression.Reach
import StorageCluster.Scenario.Expression.Reader
import StorageCluster.Scenario.Expression.Size
import StorageCluster.Scenario.Field
import StorageCluster.Scenario.Overview
import StorageCluster.Scenario.Satellite
import StorageCluster.Scenario.Session
import StorageCluster.Settings
import StorageCluster.SortedMap
import StorageCluster.Store.Engine
import StorageCluster.Store.KeyValue
import StorageCluster.Store.Load
import StorageCluster.Store.Memory
import StorageCluster.Store.Record
import StorageCluster.Store.Table
import StorageCluster.Text.Blank
import StorageCluster.Text.Duration
import StorageCluster.Text.Flow
import StorageCluster.Text.Flow.Cursor
import StorageCluster.Text.Json
import StorageCluster.Text.Json.Decode
import StorageCluster.Text.Json.Magnitude
import StorageCluster.Text.Json.Reader
import StorageCluster.Text.Numeral
import StorageCluster.Uuid
