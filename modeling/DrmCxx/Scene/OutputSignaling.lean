import DrmCxx.Errc
import DrmCxx.Lib.Table
import DrmCxx.Modeset.AtomicRequest

/-!
# Output signalling

What a frame declares on its connector and its CRTC: the colour space and the HDR metadata derived
from the layers, the variable refresh toggle and the output transfer function, each written against
the value written last.
-/

namespace DrmCxx.Scene

open Lib Modeset
open Planes (CrtcId)

/-! ### Derivation -/

inductive ColorPrimaries
  | bt709
  | bt2020
  | dciP3
  | adobeRgb
  deriving DecidableEq, Repr

inductive TransferFunction
  | traditionalGammaSdr
  | traditionalGammaHdr
  | smpteSt2084Pq
  | bt2100Hlg
  deriving DecidableEq, Repr

/-- The `Colorspace` entries a frame can ask for. -/
inductive Colorspace
  | default
  | bt2020Rgb
  | dciP3RgbD65
  | opRgb
  deriving DecidableEq, Repr

/-- Chromaticity coordinates, in the blob's steps of 0.00002. -/
structure Chromaticity where
  x : UInt16
  y : UInt16
  deriving DecidableEq, Repr

structure ColorimetryInfo where
  red : Chromaticity
  green : Chromaticity
  blue : Chromaticity
  white : Chromaticity
  deriving DecidableEq, Repr

structure HdrSourceMetadata where
  eotf : TransferFunction
  displayPrimaries : ColorimetryInfo
  maxDisplayMasteringLuminance : UInt16 := 0
  minDisplayMasteringLuminance : UInt16 := 0
  maxContentLightLevel : UInt16 := 0
  maxFrameAverageLightLevel : UInt16 := 0
  deriving DecidableEq, Repr

/-- The colour a layer declares of its content. -/
structure ContentColor where
  colorPrimaries : Option ColorPrimaries := none
  sourceEotf : Option TransferFunction := none
  deriving DecidableEq, Repr

/-- `ConnectorCapabilities`, as far as signalling reads it. -/
structure ConnectorCapabilities where
  hasColorspace : Bool := false
  colorspaceValue : Colorspace → Option UInt64 := fun _ => none
  hasHdrOutputMetadata : Bool := false
  hasMaxBpc : Bool := false
  maxBpcMax : Option UInt64 := none

def ConnectorCapabilities.canSignalHdr (caps : ConnectorCapabilities) : Bool :=
  caps.hasHdrOutputMetadata && caps.hasMaxBpc && caps.maxBpcMax.any (10 ≤ ·)

def gamutRank : ColorPrimaries → ℕ
  | .bt709 => 0
  | .adobeRgb => 1
  | .dciP3 => 2
  | .bt2020 => 3

/-- One layer's turn: the first of the widest wins. -/
def widerGamut (winner : Option ColorPrimaries) (l : ContentColor) : Option ColorPrimaries :=
  match l.colorPrimaries, winner with
  | none, _ => winner
  | some cp, none => some cp
  | some cp, some w => if gamutRank cp > gamutRank w then some cp else winner

def widestGamut (layers : List ContentColor) : Option ColorPrimaries := layers.foldl widerGamut none

def colorPrimariesToColorspace : ColorPrimaries → Colorspace
  | .bt709 => .default
  | .bt2020 => .bt2020Rgb
  | .dciP3 => .dciP3RgbD65
  | .adobeRgb => .opRgb

def d65 : Chromaticity := ⟨15635, 16450⟩

def colorPrimariesToColorimetry : ColorPrimaries → ColorimetryInfo
  | .bt709 => ⟨⟨32000, 16500⟩, ⟨15000, 30000⟩, ⟨7500, 3000⟩, d65⟩
  | .bt2020 => ⟨⟨35400, 14600⟩, ⟨8500, 39850⟩, ⟨6550, 2300⟩, d65⟩
  | .dciP3 => ⟨⟨34000, 16000⟩, ⟨13250, 34500⟩, ⟨7500, 3000⟩, d65⟩
  | .adobeRgb => ⟨⟨32000, 16500⟩, ⟨10500, 35500⟩, ⟨7500, 3000⟩, d65⟩

def isHdr : TransferFunction → Bool
  | .smpteSt2084Pq | .bt2100Hlg => true
  | _ => false

/-- One layer's turn in the scan for an HDR transfer: PQ wins over HLG. -/
def hdrTransfer (found : Option TransferFunction) (l : ContentColor) : Option TransferFunction :=
  match l.sourceEotf with
  | some tf => if isHdr tf && (found.isNone || tf = .smpteSt2084Pq) then some tf else found
  | none => found

structure OutputSignalling where
  colorspace : Option Colorspace
  hdrMetadata : Option HdrSourceMetadata
  hdrDowngraded : Bool
  deriving DecidableEq, Repr

def deriveOutputSignaling (layers : List ContentColor) (caps : ConnectorCapabilities) :
    OutputSignalling :=
  let widest := widestGamut layers
  let wanted := (layers.foldl hdrTransfer none).map fun eotf =>
    ({ eotf, displayPrimaries := colorPrimariesToColorimetry (widest.getD .bt2020) } :
      HdrSourceMetadata)
  let downgraded := wanted.isSome && !caps.canSignalHdr
  { colorspace := widest.map colorPrimariesToColorspace
    hdrMetadata := if downgraded then none else wanted
    hdrDowngraded := downgraded }

/-! ### HDR blobs -/

def TransferFunction.byte : TransferFunction → UInt8
  | .traditionalGammaSdr => 0
  | .traditionalGammaHdr => 1
  | .smpteSt2084Pq => 2
  | .bt2100Hlg => 3

/-- Little-endian. -/
def bytesOf (v : UInt16) : List UInt8 := [v.toUInt8, (v >>> 8).toUInt8]

/-- `serialize_hdr_metadata`: `struct hdr_output_metadata`, padded to a multiple of four bytes. -/
def serializeHdrMetadata (src : HdrSourceMetadata) : List UInt8 :=
  let p := src.displayPrimaries
  let words := [p.green.x, p.green.y, p.blue.x, p.blue.y, p.red.x, p.red.y, p.white.x, p.white.y,
    src.maxDisplayMasteringLuminance, src.minDisplayMasteringLuminance,
    src.maxContentLightLevel, src.maxFrameAverageLightLevel]
  [0, 0, 0, 0, src.eotf.byte, 0] ++ words.flatMap bytesOf ++ [0, 0]

def fnv1a64 (bytes : List UInt8) : UInt64 :=
  bytes.foldl (fun h b => (h ^^^ b.toUInt64) * 0x100000001B3) 0xCBF29CE484222325

def hdrMetadataHash (src : HdrSourceMetadata) : UInt64 := fnv1a64 (serializeHdrMetadata src)

abbrev BlobId := UInt32

structure HdrEntry where
  blob : BlobId
  hash : UInt64
  deriving DecidableEq, Repr

structure HdrMetadataCache where
  active : Table CrtcId HdrEntry := Table.empty
  /-- Blobs the connector may still show, destroyed once a commit is accepted. -/
  pendingDestruction : List BlobId := []

namespace HdrMetadataCache

variable (c : HdrMetadataCache)

/-- The blob the cache holds for the CRTC moves to the queue. -/
def evict (crtc : CrtcId) : List BlobId :=
  c.pendingDestruction ++ ((c.active.find? crtc).map (·.blob)).toList

/-- `set`: the blob that carries the metadata, made when the content changed. -/
def set (create : HdrSourceMetadata → Except Errc BlobId) (crtc : CrtcId)
    (src : Option HdrSourceMetadata) : Except Errc (HdrMetadataCache × BlobId) :=
  match src with
  | none => .ok (⟨c.active.erase crtc, c.evict crtc⟩, 0)
  | some md =>
    match c.active.find? crtc with
    | some e =>
      if e.hash = hdrMetadataHash md then .ok (c, e.blob)
      else (create md).map fun blob =>
        (⟨c.active.insertOrAssign crtc ⟨blob, hdrMetadataHash md⟩, c.evict crtc⟩, blob)
    | none => (create md).map fun blob =>
        (⟨c.active.insertOrAssign crtc ⟨blob, hdrMetadataHash md⟩, c.pendingDestruction⟩, blob)

def acknowledgeCommitted : HdrMetadataCache := { c with pendingDestruction := [] }

/-- The blobs went with the device. -/
def clearForSessionLoss : HdrMetadataCache := ⟨Table.empty, []⟩

/-- Every blob is destroyed at once. -/
def flush : HdrMetadataCache := ⟨Table.empty, []⟩

end HdrMetadataCache

/-! ### The properties of an output -/

inductive OutputTransferFunction
  | default
  | identity
  | srgb
  | bt709
  | pq
  | gamma22
  | gamma24
  | gamma26
  deriving DecidableEq, Repr

/-- What the property store and the connector probe know of one CRTC and connector. -/
structure OutputProperties where
  crtcId : CrtcId
  connectorId : ObjectId
  caps : ConnectorCapabilities := {}
  hasHdrOutputMetadata : Bool := false
  hasColorspace : Bool := false
  hasVrrEnabled : Bool := false
  hasRegammaTf : Bool := false
  /-- `resolve_regamma_enum`. -/
  regammaValue : OutputTransferFunction → Option UInt64 := fun _ => none

/-- What the caller asked for; all of it outlives the output it was asked on. -/
structure OutputRequests where
  desiredHdr : Option HdrSourceMetadata := none
  hdrUserSet : Bool := false
  desiredVrr : Bool := false
  vrrUserSet : Bool := false
  desiredRegammaTf : OutputTransferFunction := .default
  regammaTfUserSet : Bool := false
  deriving DecidableEq, Repr

/-- What the scene wrote last, as far as it remembers. -/
structure OutputState where
  hdrCache : HdrMetadataCache := {}
  /-- A `set_output_metadata` since the last accepted commit. -/
  hdrDirtyPending : Bool := false
  lastWrittenHdrBlobId : BlobId := 0
  lastWrittenVrr : Int32 := -1
  lastWrittenRegamma : Int32 := -1
  lastWrittenColorspaceValue : Option UInt64 := none

/-- What one writer leaves: its writes, and whether they ask for a modeset. -/
structure Injected where
  state : OutputState
  writes : AtomicRequest := []
  needsModeset : Bool := false

/-- The two inputs of a frame's signalling that change from frame to frame. -/
structure SignalingFrame where
  layers : List ContentColor
  createBlob : HdrSourceMetadata → Except Errc BlobId

namespace OutputState

variable (s : OutputState) (o : OutputProperties) (r : OutputRequests)

/-- The entry asked for, else `Default`. -/
def colorspaceEntry (o : OutputProperties) (cs : Colorspace) : Option UInt64 :=
  (o.caps.colorspaceValue cs).or (o.caps.colorspaceValue .default)

def injectOutputColorspace (desired : Option Colorspace) : Injected :=
  match desired.bind (colorspaceEntry o) with
  | some value =>
    if !o.caps.hasColorspace || s.lastWrittenColorspaceValue = some value || !o.hasColorspace then
      ⟨s, [], false⟩
    else
      { state := { s with lastWrittenColorspaceValue := some value }
        writes := [((o.connectorId, .output .colorspace), value)]
        needsModeset := true }
  | none => ⟨s, [], false⟩

/-- Without metadata the blob 0 is written once, to clear what was written before. -/
def injectHdrOutputMetadata (createBlob : HdrSourceMetadata → Except Errc BlobId)
    (effective : Option HdrSourceMetadata) : Except Errc Injected :=
  if (!r.hdrUserSet && effective.isNone && s.lastWrittenHdrBlobId = 0) ||
      !o.hasHdrOutputMetadata then
    .ok ⟨s, [], false⟩
  else
    (s.hdrCache.set createBlob o.crtcId effective).map fun (cache, blob) =>
      { state := { s with hdrCache := cache, lastWrittenHdrBlobId := blob }
        writes := [((o.connectorId, .output .hdrOutputMetadata), blob.toUInt64)]
        needsModeset := blob ≠ s.lastWrittenHdrBlobId }

def injectVrrEnabled : Injected :=
  if !r.vrrUserSet || !o.hasVrrEnabled then ⟨s, [], false⟩
  else
    let value : UInt64 := if r.desiredVrr then 1 else 0
    { state := { s with lastWrittenVrr := value.toUInt32.toInt32 }
      writes := [((o.crtcId, .output .vrrEnabled), value)]
      needsModeset := value.toUInt32.toInt32 ≠ s.lastWrittenVrr }

def injectOutputRegammaTf : Injected :=
  if !r.regammaTfUserSet || !o.hasRegammaTf then ⟨s, [], false⟩
  else
    match o.regammaValue r.desiredRegammaTf with
    | none => ⟨s, [], false⟩
    | some value =>
      { state := { s with lastWrittenRegamma := value.toUInt32.toInt32 }
        writes := [((o.crtcId, .output .amdCrtcRegammaTf), value)]
        needsModeset := value.toUInt32.toInt32 ≠ s.lastWrittenRegamma }

/-- `effective_hdr`: the caller's metadata overrides the derived. -/
def effectiveHdr (r : OutputRequests) (derived : OutputSignalling) : Option HdrSourceMetadata :=
  if r.hdrUserSet then r.desiredHdr else derived.hdrMetadata

/-- How signalling a frame ends: a blob that cannot be made fails the build, with what was
remembered until then. -/
structure Signaled where
  state : OutputState
  writes : AtomicRequest := []
  needsModeset : Bool := false
  error : Option Errc := none

/-- The four writers of `build_frame_into`, in order. -/
def signal (f : SignalingFrame) : Signaled :=
  let derived := deriveOutputSignaling f.layers o.caps
  let cs := s.injectOutputColorspace o derived.colorspace
  match cs.state.injectHdrOutputMetadata o r f.createBlob (effectiveHdr r derived) with
  | .error e => ⟨cs.state, cs.writes, cs.needsModeset, some e⟩
  | .ok hdr =>
    let vrr := hdr.state.injectVrrEnabled o r
    let regamma := vrr.state.injectOutputRegammaTf o r
    { state := regamma.state
      writes := cs.writes ++ hdr.writes ++ vrr.writes ++ regamma.writes
      needsModeset := cs.needsModeset || hdr.needsModeset || vrr.needsModeset ||
        regamma.needsModeset }

/-- `finalize_frame` of an accepted real commit. -/
def committed : OutputState :=
  { s with hdrCache := s.hdrCache.acknowledgeCommitted, hdrDirtyPending := false }

/-- `on_session_resumed`, as far as it concerns the signals. -/
def sessionResumed : OutputState :=
  { s with
    hdrCache := .clearForSessionLoss
    lastWrittenHdrBlobId := 0
    lastWrittenColorspaceValue := none }

/-- `set_output_metadata`. -/
def setOutputMetadata (src : Option HdrSourceMetadata) : OutputRequests × OutputState :=
  ({ r with desiredHdr := src, hdrUserSet := true }, { s with hdrDirtyPending := true })

end OutputState

end DrmCxx.Scene
