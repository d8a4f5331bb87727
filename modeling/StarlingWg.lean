import StarlingWg.Orchestrate.Agreement
import StarlingWg.Orchestrate.Upgrade
import StarlingWg.Orchestrate.Ownership
import StarlingWg.Orchestrate.Delivery
import StarlingWg.Orchestrate.SharedTUN
import StarlingWg.NativeFlow.Overlap
import StarlingWg.Device.StagingOrder
import StarlingWg.Noise.Indices
import StarlingWg.Noise.Transcripts
import StarlingWg.Orchestrate.Freshness
import StarlingWg.Orchestrate.Startup
import StarlingWg.XKernel.Dualmoded
import StarlingWg.XShared.Isolation
import StarlingWg.Control.Binding
import StarlingWg.Orchestrate.Events
import StarlingWg.Persist.Atomicity
import StarlingWg.XKernel.Refinement
import StarlingWg.Tun.VirtioRead
import StarlingWg.Device.Tunnel
import StarlingWg.Device.Snapshots
import StarlingWg.Device.SendBuffers
import StarlingWg.Conn.StdNetBind
import StarlingWg.Device.Initiations
import StarlingWg.Uapi.Sections
import StarlingWg.Uapi.Socket
import StarlingWg.NativeFlow.Decision
import StarlingWg.Control.Bounds
import StarlingWg.NativeFlow.Cleanup
import StarlingWg.Device.Cookies
import StarlingWg.Ratelimiter.Bucket
import StarlingWg.Ratelimiter.Collector
