import DrmCxx.Errc
import DrmCxx.Lib.Best
import DrmCxx.Lib.Binding
import DrmCxx.Lib.Bipartite
import DrmCxx.Lib.Custody
import DrmCxx.Lib.Greedy
import DrmCxx.Lib.Indices
import DrmCxx.Lib.Holdings
import DrmCxx.Lib.Neon
import DrmCxx.Lib.NodeMap
import DrmCxx.Lib.Owners
import DrmCxx.Lib.Recency
import DrmCxx.Lib.Resampling
import DrmCxx.Lib.Checked
import DrmCxx.Lib.Bytes
import DrmCxx.Lib.ByteView
import DrmCxx.Lib.SortedSearch
import DrmCxx.Lib.BreadthFirst
import DrmCxx.Lib.Run
import DrmCxx.Lib.SlidingWindow
import DrmCxx.Lib.SlotMap
import DrmCxx.Lib.StableSort
import DrmCxx.Lib.Sweep
import DrmCxx.Lib.Table
import DrmCxx.Lib.Transversal
import DrmCxx.Lib.WriteLog
import DrmCxx.Modeset.AtomicRequest
import DrmCxx.Planes.Layer
import DrmCxx.Planes.PlaneRegistry
import DrmCxx.Planes.ZposOrder
import DrmCxx.Planes.Matching
import DrmCxx.Planes.LayerGroups
import DrmCxx.Planes.Allocator.State
import DrmCxx.Planes.Allocator.Stack
import DrmCxx.Planes.Allocator.Writes
import DrmCxx.Planes.Allocator.Search
import DrmCxx.Planes.Allocator.Apply
import DrmCxx.Scene.RingPresenter
import DrmCxx.Scene.ExternalDmaBufRing
import DrmCxx.Scene.ExternalDmaBufPool
import DrmCxx.Scene.Detail.DrmFiles
import DrmCxx.Scene.Detail.DmaBufSlot
import DrmCxx.Scene.ExternalDmaBufSource
import DrmCxx.Scene.InFlight
import DrmCxx.Scene.V4l2CameraSource
import DrmCxx.Scene.V4l2DecoderSource
import DrmCxx.Scene.V4l2PlaneLayout
import DrmCxx.Scene.GstAppsinkSource
import DrmCxx.Scene.SceneObjects
import DrmCxx.Scene.SourceMirror
import DrmCxx.Scene.Canvas.Blend
import DrmCxx.Scene.Canvas.RowKernels
import DrmCxx.Scene.Canvas.BlendAccess
import DrmCxx.Scene.Canvas.CompositeCanvas
import DrmCxx.Scene.Lowering
import DrmCxx.Scene.Canvas.Compose
import DrmCxx.Scene.FrameBuild
import DrmCxx.Scene.SceneSet
import DrmCxx.Scene.SetLayers
import DrmCxx.Scene.OutputSignaling
import DrmCxx.Scene.SceneState
import DrmCxx.Scene.SceneLifecycle
import DrmCxx.Scene.Placement
import DrmCxx.Scene.Arming
import DrmCxx.Scene.CanvasPlane
import DrmCxx.Scene.SceneBuild
import DrmCxx.Scene.SceneEdits
import DrmCxx.Scene.LayerHandles
import DrmCxx.Present.BufferRing
import DrmCxx.Present.DumbRingSource
import DrmCxx.Present.VkScanoutProducer
import DrmCxx.Planes.PlaneClip
import DrmCxx.Cursor.Renderer
import DrmCxx.Cursor.Blit
import DrmCxx.Cursor.Theme
import DrmCxx.Session.Seat
import DrmCxx.Display.CrtcColorPipeline
import DrmCxx.Input.KeyRepeater
import DrmCxx.Verification.Ring.Equations
import DrmCxx.Verification.Ring.Trace
import DrmCxx.Verification.Ring.Retirement
import DrmCxx.Verification.Ring.Display
import DrmCxx.Verification.Ring.DamageCarry
import DrmCxx.Verification.Pool.Eviction
import DrmCxx.Verification.Pool.Liveness
import DrmCxx.Verification.Scene.Lifetime
import DrmCxx.Verification.Scene.Lowering
import DrmCxx.Verification.Mirror.Trace
import DrmCxx.Verification.Mirror.Equations
import DrmCxx.Verification.Mirror.SharedFrame
import DrmCxx.Verification.Mirror.Accounting
import DrmCxx.Verification.Canvas.Clipping
import DrmCxx.Verification.Canvas.Flush
import DrmCxx.Verification.Canvas.Sampling
import DrmCxx.Verification.Canvas.FastPaths
import DrmCxx.Verification.Canvas.ConvertRow
import DrmCxx.Verification.Canvas.Bounds
import DrmCxx.Verification.Canvas.ClipCommutes
import DrmCxx.Verification.Canvas.RectangleCuts
import DrmCxx.Verification.Planes.Matching
import DrmCxx.Verification.Planes.MatchingLayers
import DrmCxx.Verification.Planes.MatchingAugment
import DrmCxx.Verification.Planes.MaximumMatching
import DrmCxx.Verification.Planes.Search
import DrmCxx.Verification.Planes.Groups
import DrmCxx.Verification.Planes.Stacking
import DrmCxx.Verification.Planes.PlaneOrder
import DrmCxx.Verification.Planes.Legality
import DrmCxx.Verification.Planes.Proven
import DrmCxx.Verification.Planes.Apply
import DrmCxx.Verification.Planes.Snapshots
import DrmCxx.Verification.Planes.Trace
import DrmCxx.Verification.Planes.PrioritySurvivors
import DrmCxx.Verification.Planes.PlaneOrderOptimal
import DrmCxx.Verification.Planes.ZposNumbering
import DrmCxx.Verification.Planes.CanvasBounds
import DrmCxx.Verification.Planes.CanvasSlot
import DrmCxx.Verification.Planes.Flags
import DrmCxx.Verification.Planes.Reuse
import DrmCxx.Verification.Planes.Minimization
import DrmCxx.Verification.Planes.OnePlane
import DrmCxx.Verification.Planes.Outcome
import DrmCxx.Verification.Planes.BlendLimit
import DrmCxx.Verification.Planes.FirstBuffer
import DrmCxx.Verification.Planes.GroupComponents
import DrmCxx.Verification.Canvas.Compose
import DrmCxx.Verification.Scene.FrameBuild
import DrmCxx.Verification.Scene.SceneSet
import DrmCxx.Verification.Scene.SetLayers
import DrmCxx.Verification.Planes.DirtyFlags
import DrmCxx.Verification.Scene.Memory
import DrmCxx.Verification.Scene.Requests
import DrmCxx.Verification.Scene.Kept
import DrmCxx.Verification.Scene.Signals
import DrmCxx.Verification.Scene.SignalRecovery
import DrmCxx.Verification.Scene.HdrBlobs
import DrmCxx.Verification.Scene.Rebind
import DrmCxx.Verification.Scene.SceneRun
import DrmCxx.Verification.Scene.SettledPlacement
import DrmCxx.Verification.Scene.Composition
import DrmCxx.Verification.Scene.Report
import DrmCxx.Verification.Scene.StreamPins
import DrmCxx.Verification.Scene.LayerHandles
import DrmCxx.Verification.Scene.GstFrames
import DrmCxx.Verification.Scene.ZposTies
import DrmCxx.Verification.Scene.Objects
import DrmCxx.Verification.Scene.ClaimedPlanes
import DrmCxx.Verification.Present.BufferAge
import DrmCxx.Verification.Present.SlotAccounting
import DrmCxx.Verification.Present.Damage
import DrmCxx.Verification.V4l2.CameraBuffers
import DrmCxx.Verification.V4l2.DecoderSlots
import DrmCxx.Verification.V4l2.PlaneLayout
import DrmCxx.Verification.Present.SlotChoice
import DrmCxx.Verification.Present.ScanoutSlots
import DrmCxx.Verification.Cursor.PlaneState
import DrmCxx.Verification.Planes.PlaneClip
import DrmCxx.Verification.Cursor.BlitPixels
import DrmCxx.Verification.Cursor.TipPosition
import DrmCxx.Verification.Cursor.ThemeOrder
import DrmCxx.Verification.Session.SeatDevices
import DrmCxx.Verification.Display.ColorBlobs
import DrmCxx.Verification.Display.ColorPipelines
import DrmCxx.Verification.Input.KeyRepeat
import DrmCxx.Csd.Damage
import DrmCxx.Csd.CompositePresenter
import DrmCxx.Csd.FramebufferPresenter
import DrmCxx.Csd.OverlayReservation
import DrmCxx.Csd.ShadowCache
import DrmCxx.Csd.BoxBlur
import DrmCxx.Fmt.FormatMod
import DrmCxx.Verification.Csd.Damage
import DrmCxx.Verification.Csd.Painting
import DrmCxx.Verification.Csd.Composition
import DrmCxx.Verification.Csd.FramebufferRun
import DrmCxx.Verification.Csd.ExactDamage
import DrmCxx.Verification.Csd.Reservations
import DrmCxx.Verification.Csd.ShadowRender
import DrmCxx.Verification.Csd.ShadowCache
import DrmCxx.Verification.Csd.BoxBlur
import DrmCxx.Verification.Fmt.FormatTables
import DrmCxx.Modeset.PageFlip
import DrmCxx.Verification.Modeset.Watchers
import DrmCxx.Verification.Modeset.Registrations
import DrmCxx.Verification.Modeset.Dispatch
import DrmCxx.Core.PropertyStore
import DrmCxx.Csd.PlanePresenter
import DrmCxx.Csd.ProbePresenter
import DrmCxx.Verification.Csd.PlanePresenter
import DrmCxx.Verification.Csd.PresentedFrames
import DrmCxx.Verification.DmaBuf.Files
import DrmCxx.Verification.DmaBuf.Slots
import DrmCxx.Verification.DmaBuf.Sources
import DrmCxx.Verification.DmaBuf.Trace
import DrmCxx.Verification.DmaBuf.Holders
import DrmCxx.Verification.DmaBuf.AppCalls
import DrmCxx.Verification.DmaBuf.SourceCalls
import DrmCxx.Verification.DmaBuf.Process
