import DrmCxx.Errc
import DrmCxx.Scene.ExternalDmaBufRing
import Mathlib.Data.PNat.Notation
import Mathlib.Logic.Function.Basic

/-!
# The GStreamer appsink source

`GstAppsinkSource::acquire` where the samples hold dma-bufs: the newest sample is imported to a
framebuffer, through a cache that is keyed on the descriptor of its first plane.
-/

namespace DrmCxx.Scene

/-- What `gst_video_info_from_caps` reads of caps. -/
structure GstVideoInfo where
  format : ℕ
  width : ℕ
  height : ℕ
  /-- `gst_video_dma_drm_fourcc_from_format` of the format. -/
  drmFourcc : Option ℕ
  deriving DecidableEq, Repr

/-- The memory a framebuffer scans out: dma-bufs, and the offsets of the planes in them. -/
abbrev MemoryId := ℕ

structure GstSample where
  /-- `none` where the caps are missing or do not parse. -/
  videoInfo : Option GstVideoInfo
  memory : MemoryId
  /-- The dma-buf descriptor of the first plane, or why there is none. -/
  keyFd : Except Errc ℕ
  /-- What the kernel answers to an import of the planes. -/
  imported : Except Errc FbId

/-- A framebuffer, with the sample it was made for. -/
structure Framebuffer where
  memory : MemoryId
  madeFor : ℕ
  deriving DecidableEq, Repr

/-- The framebuffers of the device. -/
abbrev Framebuffers := FbId → Option Framebuffer

namespace Framebuffers

/-- `drmModeAddFB2` with its imports: an error, or an id that is not in use. -/
def add (fbs : Framebuffers) (sample : GstSample) : Except Errc FbId :=
  match sample.imported with
  | .error e => .error e
  | .ok fbId => if fbId = 0 ∨ (fbs fbId).isSome then .error .invalidArgument else .ok fbId

/-- `drmModeRmFB` of each. -/
def remove (fbs : Framebuffers) (gone : List FbId) : Framebuffers :=
  fun fbId => if fbId ∈ gone then none else fbs fbId

end Framebuffers

structure CachedFb where
  dmabufFd : ℕ
  fbId : FbId
  deriving DecidableEq, Repr

structure GstAppsinkSource where
  /-- `create` refuses a cache of size 0. -/
  fbCacheSize : ℕ+
  /-- The sample whose reference is held. -/
  currentSample : Option ℕ := none
  currentFbId : FbId := 0
  /-- `video_info`, once the format is resolved. -/
  videoInfo : Option GstVideoInfo := none
  /-- Least recently used first. -/
  fbCache : List CachedFb := []
  pendingError : Option Errc := none

/-- What an `acquire` did. -/
structure GstAcquired where
  source : GstAppsinkSource
  fbs : Framebuffers
  /-- The samples it unreferenced. -/
  unrefd : List ℕ := []
  result : Except Errc FbId

namespace GstAppsinkSource

/-- `std::errc::protocol_error`. -/
def protocolError : Errc := .other 71

/-- `teardown_drm_state`. -/
def teardownDrmState (s : GstAppsinkSource) (fbs : Framebuffers) :
    GstAppsinkSource × Framebuffers :=
  ({ s with fbCache := [], currentFbId := 0 }, fbs.remove (s.fbCache.map (·.fbId)))

/-- `resolve_format_from_caps`. -/
def resolveFormatFromCaps (s : GstAppsinkSource) (sample : GstSample) :
    GstAppsinkSource × Option Errc :=
  match sample.videoInfo with
  | none => (s, some protocolError)
  | some info =>
    if info.drmFourcc.isNone then (s, some .notSupported)
    else ({ s with videoInfo := some info }, none)

/-- `caps_match_cached`, for the cached `info`. -/
def capsMatchCached (info : GstVideoInfo) (sample : GstSample) : Bool :=
  match sample.videoInfo with
  | none => false
  | some new => new.format = info.format ∧ new.width = info.width ∧ new.height = info.height

/-- The format is resolved, and the sample is not of it. -/
def capsChanged (s : GstAppsinkSource) (sample : GstSample) : Bool :=
  s.videoInfo.any fun info => !capsMatchCached info sample

/-- The caps part of `acquire`. -/
def latchCaps (s : GstAppsinkSource) (fbs : Framebuffers) (sample : GstSample) :
    (GstAppsinkSource × Framebuffers) × Option Errc :=
  if s.capsChanged sample then
    let (s, fbs) := s.teardownDrmState fbs
    let (s, e) := { s with videoInfo := none }.resolveFormatFromCaps sample
    ((s, fbs), e)
  else if s.videoInfo.isSome then ((s, fbs), none)
  else
    let (s, e) := s.resolveFormatFromCaps sample
    ((s, fbs), e)

/-- `import_dmabuf_sample`, of the `number`-th sample. -/
def importDmabufSample (s : GstAppsinkSource) (fbs : Framebuffers) (number : ℕ)
    (sample : GstSample) : (GstAppsinkSource × Framebuffers) × Option Errc :=
  match sample.keyFd with
  | .error e => ((s, fbs), some e)
  | .ok keyFd =>
    match s.fbCache.find? (·.dmabufFd = keyFd) with
    | some entry =>
      (({ s with
          fbCache := s.fbCache.eraseP (·.dmabufFd = keyFd) ++ [entry]
          currentFbId := entry.fbId }, fbs), none)
    | none =>
      match fbs.add sample with
      | .error e => ((s, fbs), some e)
      | .ok fbId =>
        -- room is made for the new entry
        let excess := s.fbCache.length + 1 - s.fbCacheSize
        (({ s with
            fbCache := s.fbCache.drop excess ++ [⟨keyFd, fbId⟩]
            currentFbId := fbId },
          Framebuffers.remove (Function.update fbs fbId (some ⟨sample.memory, number⟩))
            ((s.fbCache.take excess).map (·.fbId))), none)

/-- `acquire`, where `gst_app_sink_try_pull_sample` gives `pulled`, the `number`-th sample. -/
def acquire (s : GstAppsinkSource) (fbs : Framebuffers) (number : ℕ) (pulled : Option GstSample) :
    GstAcquired :=
  match s.pendingError, pulled with
  | some e, _ => { source := s, fbs, result := .error e }
  | none, none =>
    { source := s, fbs
      result := if s.currentFbId = 0 then .error .resourceUnavailableTryAgain
        else .ok s.currentFbId }
  | none, some sample =>
    match s.latchCaps fbs sample with
    | ((s, fbs), some e) =>
      { source := { s with pendingError := some e }, fbs, unrefd := [number], result := .error e }
    | ((s, fbs), none) =>
      match s.importDmabufSample fbs number sample with
      | ((s, fbs), some e) => { source := s, fbs, unrefd := [number], result := .error e }
      | ((s, fbs), none) =>
        -- the one held until now goes back to the pipeline
        { source := { s with currentSample := some number }, fbs
          unrefd := s.currentSample.toList, result := .ok s.currentFbId }

end GstAppsinkSource

end DrmCxx.Scene
