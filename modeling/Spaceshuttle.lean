import Spaceshuttle.Lib.Machine
import Spaceshuttle.Lib.ByteStream
import Spaceshuttle.Lib.Table
import Spaceshuttle.Lib.Memo
import Spaceshuttle.Lib.Fallible
import Spaceshuttle.Lib.Sweep
import Spaceshuttle.Lib.Mirror
import Spaceshuttle.Lib.Scan
import Spaceshuttle.Lib.Tiles
import Spaceshuttle.Lib.Registry
import Spaceshuttle.Lib.Segment
import Spaceshuttle.Cluster.BlockStore
import Spaceshuttle.Cluster.MuxWire
import Spaceshuttle.Cluster.MuxServer
import Spaceshuttle.Cluster.MuxClient
import Spaceshuttle.Cluster.MuxSync
import Spaceshuttle.Cluster.MuxRefinement
import Spaceshuttle.Cluster.MuxBatch
import Spaceshuttle.Cluster.MuxReconnect
import Spaceshuttle.Cluster.MuxIntegrity
import Spaceshuttle.Raid.Block
import Spaceshuttle.Raid.Controller
import Spaceshuttle.Raid.Transitions
import Spaceshuttle.Raid.Accounting
import Spaceshuttle.Raid.Durability
import Spaceshuttle.Raid.Placement
import Spaceshuttle.Raid.Production
import Spaceshuttle.Raid.Plain
import Spaceshuttle.Raid.Eviction
import Spaceshuttle.Raid.Restores
import Spaceshuttle.Raid.FaultPath
import Spaceshuttle.Raid.BatchReads
import Spaceshuttle.Llm.Manifest
import Spaceshuttle.Llm.Tiling
import Spaceshuttle.Llm.Mapper
import Spaceshuttle.Llm.Transitions
import Spaceshuttle.Llm.Eviction
import Spaceshuttle.Llm.Budget
import Spaceshuttle.Llm.Coverage
import Spaceshuttle.Llm.Conservation
import Spaceshuttle.Llm.Agreement
import Spaceshuttle.Bifurcation.Envelope
import Spaceshuttle.Bifurcation.Engine
import Spaceshuttle.Bifurcation.Coherence
import Spaceshuttle.Bifurcation.Openers
import Spaceshuttle.Bifurcation.BatchOpen
import Spaceshuttle.Bifurcation.Cache
import Spaceshuttle.Bifurcation.Session
import Spaceshuttle.Bifurcation.SessionKeys
import Spaceshuttle.Bifurcation.Migration
import Spaceshuttle.Bifurcation.Handoff
import Spaceshuttle.Kernel.Watchdog
import Spaceshuttle.Kernel.Bus
import Spaceshuttle.Kernel.Snaft
import Spaceshuttle.Kernel.Voorproever
import Spaceshuttle.Kernel.Archivaris
import Spaceshuttle.Kernel.Handler
import Spaceshuttle.Kernel.Liveness
import Spaceshuttle.Kernel.Replay
import Spaceshuttle.Kernel.Pipeline
import Spaceshuttle.Kernel.Refusals
import Spaceshuttle.Kernel.Vault
import Spaceshuttle.Lib.Text
import Spaceshuttle.Kernel.PortIntent
import Spaceshuttle.Kernel.PortMux
import Spaceshuttle.Kernel.Inspection
import Spaceshuttle.Lib.Cursor
import Spaceshuttle.Lib.Utf8
import Spaceshuttle.Kernel.ClientHello
import Spaceshuttle.Kernel.IntentSafety
import Spaceshuttle.Kernel.IntentRouting
import Spaceshuttle.Lib.ClassicBpf
import Spaceshuttle.Kernel.Seccomp
import Spaceshuttle.Android.Session
import Spaceshuttle.Android.Restart
import Spaceshuttle.Cluster.Handlers
import Spaceshuttle.Cluster.SharedStore
import Spaceshuttle.Cluster.StoreOrder
import Spaceshuttle.Cluster.StoreAccesses
import Spaceshuttle.Cluster.QuicBatch
import Spaceshuttle.Cluster.BatchBuffers
import Spaceshuttle.Cluster.FetchAgreement
import Spaceshuttle.Overlay.Resolver
import Spaceshuttle.Overlay.Mux
import Spaceshuttle.Overlay.Migration
import Spaceshuttle.Overlay.Establish
import Spaceshuttle.Mmu.Arena
import Spaceshuttle.Mmu.Restore
import Spaceshuttle.Mmu.Fallback
import Spaceshuttle.Upip.Pager
import Spaceshuttle.Upip.Tokens
import Spaceshuttle.Upip.Bulk
import Spaceshuttle.Upip.Totals
import Spaceshuttle.Upip.Assembly
import Spaceshuttle.Upip.RoundTrip
import Spaceshuttle.Upip.AllOrNothing
import Spaceshuttle.Upip.Limit
import Spaceshuttle.Upip.Continuation
import Spaceshuttle.Upip.Splitting
import Spaceshuttle.Lib.Window
import Spaceshuttle.Xdp.Liquidator
import Spaceshuttle.Xdp.Accounting
import Spaceshuttle.Xdp.Exploits
import Spaceshuttle.Lib.LittleEndian
import Spaceshuttle.Recovery.Snapshot
import Spaceshuttle.Recovery.Header
import Spaceshuttle.Lib.Selection
import Spaceshuttle.Recovery.Engine
import Spaceshuttle.Recovery.Fallback
import Spaceshuttle.Recovery.Shadowing
import Spaceshuttle.Recovery.Health
import Spaceshuttle.Recovery.GitStore
import Spaceshuttle.Lib.WordArithmetic
import Spaceshuttle.Kernel.Zandbak
import Spaceshuttle.Kernel.Verdicts
import Spaceshuttle.Kernel.Gaps
import Spaceshuttle.Lib.History
import Spaceshuttle.Kernel.Triggers
import Spaceshuttle.Cluster.TransportClient
import Spaceshuttle.Lib.ShortReads
import Spaceshuttle.Dgx.Load
import Spaceshuttle.Lib.Filling
import Spaceshuttle.Cluster.PayloadReads
import Spaceshuttle.Lib.Separated
import Spaceshuttle.Android.Mint
import Spaceshuttle.Lib.Exchange
import Spaceshuttle.Lib.Linearization
import Spaceshuttle.Cluster.QuicCalls
import Spaceshuttle.Cluster.TransportCalls
import Spaceshuttle.Cluster.Linearizable
import Spaceshuttle.Overlay.Intents
import Spaceshuttle.Lib.Threads
import Spaceshuttle.Kernel.Concurrent
import Spaceshuttle.Kernel.Interleaved
import Spaceshuttle.Kernel.Overlaps
import Spaceshuttle.Kernel.Uninterrupted
import Spaceshuttle.Upip.Tampering
import Spaceshuttle.Kernel.AirlockVmm
