import Akroasis.Bytes
import Akroasis.Table
import Akroasis.Directory
import Akroasis.HashChain
import Akroasis.CounterMode
import Akroasis.Machine
import Akroasis.TamperLog.Paths
import Akroasis.TamperLog.Entry
import Akroasis.TamperLog.Seal
import Akroasis.TamperLog.Verify
import Akroasis.TamperLog.Segments
import Akroasis.TamperLog.History
import Akroasis.TamperLog.Writer
import Akroasis.TamperLog.Steps
import Akroasis.TamperLog.Runs
import Akroasis.TamperLog.AppendCrash
import Akroasis.TamperLog.RotateCrash
import Akroasis.TamperLog.Deletion
import Akroasis.TamperLog.Domains
import Akroasis.TamperLog.Binding
import Akroasis.Mesh.Proto
import Akroasis.Mesh.Crypto
import Akroasis.Mesh.Keystream
import Akroasis.Mesh.Delivery
import Akroasis.Mesh.Outbound
import Akroasis.Mesh.StoreForward
import Akroasis.Mesh.Router
import Akroasis.Mesh.Holding
import Akroasis.Mesh.Records
import Akroasis.Mesh.System
import Akroasis.Mesh.Accounting
import Akroasis.Mesh.Finality
import Akroasis.Mesh.Flush
import Akroasis.Mesh.Conservation
import Akroasis.Mesh.Lifetime
import Akroasis.Scanner
import Akroasis.Mesh.Framing
import Akroasis.Results
import Akroasis.Effects.Caller
import Akroasis.Effects.Receipt
import Akroasis.Effects.States
import Akroasis.Effects.Agreement
import Akroasis.Effects.Ledger
import Akroasis.Effects.Gate
import Akroasis.Aead
import Akroasis.Kryphos.Entry
import Akroasis.Kryphos.Operations
import Akroasis.Kryphos.System
import Akroasis.Kryphos.Lifecycle
import Akroasis.Kryphos.Audit
import Akroasis.Kryphos.Authenticity
import Akroasis.Kryphos.Identity
import Akroasis.Memory
import Akroasis.Driver
import Akroasis.Kryphos.Creation
import Akroasis.Radio.Plan
import Akroasis.Radio.Codec
import Akroasis.Radio.Protocol
import Akroasis.Radio.Device
import Akroasis.Radio.Transfer
import Akroasis.Radio.Programming
import Akroasis.Text
import Akroasis.Radio.Wire
import Akroasis.Radio.Decode
import Akroasis.Radio.Slots
import Akroasis.Radio.RoundTrip
import Akroasis.Radio.Reencode
import Akroasis.Semaino.Grid
import Akroasis.Semaino.Convergence
import Akroasis.Radio.LateLine
import Akroasis.Csv
import Akroasis.Chirp.Fields
import Akroasis.Chirp.Syntonia
import Akroasis.Chirp.RoundTrip
import Akroasis.Chirp.CommandLine
import Akroasis.Chirp.Formulas
import Akroasis.Chirp.Agreement
import Akroasis.Chirp.Backup
import Akroasis.TamperLog.Provenance
import Akroasis.BufWriter
import Akroasis.TamperLog.Buffered
import Akroasis.Mesh.Bridge
import Akroasis.Mesh.GatewayHealth
import Akroasis.Mesh.Snapshot
import Akroasis.Mesh.Failover
import Akroasis.Graph
import Akroasis.Mesh.Topology
import Akroasis.Rounding
import Akroasis.Mesh.NodeDb
import Akroasis.Mesh.Processor
import Akroasis.Mesh.Collector
import Akroasis.Mesh.Age
import Akroasis.Semaino.Alert
import Akroasis.Semaino.Pipeline
import Akroasis.TamperLog.Recovery
import Akroasis.TamperLog.Rotation
import Akroasis.Search
import Akroasis.StableQueue
import Akroasis.Mesh.Tickets
import Akroasis.Mesh.Forwarding
import Akroasis.Mesh.Calls
import Akroasis.Mesh.Handouts
import Akroasis.Mesh.Merge
import Akroasis.Mesh.Flood
import Akroasis.Mesh.Partition
import Akroasis.Mesh.Restore
import Akroasis.Moments
import Akroasis.Stoicheion.Baseline
import Akroasis.Kryphos.Contents
import Akroasis.Effects.Recovery
import Akroasis.Semaino.Aggregation
