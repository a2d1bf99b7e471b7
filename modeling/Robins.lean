import Robins.Lib.Hex
import Robins.Lib.Utf8
import Robins.Lib.Base64
import Robins.Basic
import Robins.Lib.EventMachine
import Robins.Lib.Unwinding
import Robins.Lib.OrderedTable
import Robins.Lib.LittleEndian
import Robins.Lib.ProtoWire
import Robins.Lib.Scale
import Robins.Crypto.Message
import Robins.Crypto.Cipher
import Robins.Bridge.Entries
import Robins.Bridge.RoundTrip
import Robins.Cps.Sealing
import Robins.Cps.Readers
import Robins.Cps.Transaction
import Robins.Bridge.Sessions
import Robins.Bridge.Relay
import Robins.Lib.Conveyor
import Robins.Lib.Chunks
import Robins.Lib.Bisection
import Robins.Lib.FaultyTransaction
import Robins.Lib.SlidingWindow
import Robins.Lib.ParentChain
import Robins.Lib.WaitingRoom
import Robins.Lib.Presence
import Robins.Lib.Grouping
import Robins.Protocol.Envelope
import Robins.Protocol.SignatureBinding
import Robins.Protocol.Codec
import Robins.Protocol.WireCodec
import Robins.Protocol.WireSize
import Robins.BatchStore.Model
import Robins.BatchStore.Redb
import Robins.BatchStore.Transaction
import Robins.BatchStore.Contents
import Robins.BatchStore.Format
import Robins.Batcher.Config
import Robins.Batcher.Pack
import Robins.Batcher.Step
import Robins.Batcher.Gateway
import Robins.Batcher.Conservation
import Robins.Batcher.Deadline
import Robins.Batcher.Sessions
import Robins.Batcher.Budget
import Robins.Batcher.Fewest
import Robins.Batcher.Draining
import Robins.Batcher.Worker
import Robins.Auth.Policy
import Robins.Pipeline.Model
import Robins.Pipeline.Authorize
import Robins.Pipeline.Stage
import Robins.Pipeline.StageRuns
import Robins.Pipeline.Dedup
import Robins.Pipeline.Suppression
import Robins.Pipeline.Run
import Robins.Pipeline.Tracking
import Robins.Pipeline.Acceptance
import Robins.Pipeline.DiskFirst
import Robins.Pipeline.Replay
import Robins.Pipeline.Order
import Robins.Meshtastic.Frame
import Robins.Meshtastic.Grammar
import Robins.Meshtastic.Reassembly
import Robins.Meshtastic.Accounting
import Robins.Meshtastic.Verdict
import Robins.Meshtastic.Gathering
import Robins.Meshtastic.Soundness
import Robins.Meshtastic.RoundTrip
import Robins.Meshtastic.Isolation
import Robins.Meshtastic.Lifetimes
import Robins.Meshtastic.Session
import Robins.Meshtastic.Bookkeeping
import Robins.Sensor.Submit
import Robins.Sensor.Confirmation
import Robins.Anchor.Model
import Robins.Anchor.Worker
import Robins.Anchor.Shelf
import Robins.Anchor.Delivery
import Robins.Anchor.Shutdown
import Robins.Anchor.Submittable
import Robins.Lib.BoundedCache
import Robins.Auth.Cps
import Robins.Auth.Subtree
import Robins.Auth.CpsCache
import Robins.Chain.Registry
import Robins.Light.Node
import Robins.Chain.Callers
import Robins.Chain.Shared
import Robins.Auth.CpsReader
import Robins.Auth.WrongChain
import Robins.Pipeline.CpsPipeline
import Robins.P2p.Peers
import Robins.Anchor.Target
import Robins.Cps.Permit
import Robins.Lib.Trim
import Robins.Protocol.Keys
import Robins.Cli.Format
import Robins.Protocol.SensorMessage
import Robins.Protocol.SensorCodec
import Robins.Cli.Message
import Robins.Cli.Compact
import Robins.Lib.Timespec
import Robins.Gateway.Config
import Robins.Gateway.Clock
import Robins.Lib.CappedGrowth
import Robins.Anchor.Backoff
import Robins.Gateway.Backoff
import Robins.Lib.BoundedQueue
import Robins.Edge.App
import Robins.Edge.Store
import Robins.Edge.Ingress
import Robins.Edge.Delivery
import Robins.Meshtastic.Adapter
import Robins.Lib.RoseTree
import Robins.Cps.Tree
import Robins.Lib.Outline
import Robins.Cps.Render
import Robins.Lib.Semaphore
import Robins.Light.Server
import Robins.Cps.Assignment
import Robins.Auth.Whitelist
import Robins.Pipeline.Local
