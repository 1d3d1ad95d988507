import DrmCxx.Errc
import DrmCxx.Lib.Indices
import DrmCxx.Scene.Canvas.Blend
import Mathlib.Logic.Function.Basic

/-!
# DRM planes of a V4L2 buffer

`derive_drm_plane_layout`: the pitches and offsets with which a capture buffer is imported. One
V4L2 plane may hold all the planes of a YUV frame, one after the other.
-/

namespace DrmCxx.Scene

/-! ### Formats -/

def drmFormatP010 : UInt32 := fourccCode 'P' '0' '1' '0'

def drmFormatP012 : UInt32 := fourccCode 'P' '0' '1' '2'

def drmFormatP016 : UInt32 := fourccCode 'P' '0' '1' '6'

def drmFormatNv16 : UInt32 := fourccCode 'N' 'V' '1' '6'

def drmFormatNv61 : UInt32 := fourccCode 'N' 'V' '6' '1'

def drmFormatNv24 : UInt32 := fourccCode 'N' 'V' '2' '4'

def drmFormatNv42 : UInt32 := fourccCode 'N' 'V' '4' '2'

def drmFormatYuv420 : UInt32 := fourccCode 'Y' 'U' '1' '2'

def drmFormatYvu420 : UInt32 := fourccCode 'Y' 'V' '1' '2'

def drmFormatYuv422 : UInt32 := fourccCode 'Y' 'U' '1' '6'

def drmFormatYvu422 : UInt32 := fourccCode 'Y' 'V' '1' '6'

def drmFormatYuv444 : UInt32 := fourccCode 'Y' 'U' '2' '4'

def drmFormatYvu444 : UInt32 := fourccCode 'Y' 'V' '2' '4'

def isSemiplanarYuv (drmFourcc : UInt32) : Bool :=
  drmFourcc = drmFormatNv12 || drmFourcc = drmFormatP010 || drmFourcc = drmFormatP012 ||
    drmFourcc = drmFormatP016 || drmFourcc = drmFormatNv16 || drmFourcc = drmFormatNv61 ||
    drmFourcc = drmFormatNv24 || drmFourcc = drmFormatNv42

def semiplanarChromaPitch (drmFourcc bpl : UInt32) : UInt32 :=
  if drmFourcc = drmFormatNv24 ∨ drmFourcc = drmFormatNv42 then bpl * 2 else bpl

structure ChromaSubsampling where
  hsub : UInt32
  vsub : UInt32
  deriving DecidableEq, Repr

def planarYuvSubsampling (drmFourcc : UInt32) : ChromaSubsampling :=
  if drmFourcc = drmFormatYuv420 ∨ drmFourcc = drmFormatYvu420 then ⟨2, 2⟩
  else if drmFourcc = drmFormatYuv422 ∨ drmFourcc = drmFormatYvu422 then ⟨2, 1⟩
  else if drmFourcc = drmFormatYuv444 ∨ drmFourcc = drmFormatYvu444 then ⟨1, 1⟩
  else ⟨0, 0⟩

/-! ### The echo -/

structure V4l2PixFormat where
  height : UInt32
  bytesperline : UInt32

structure V4l2PixFormatMplane where
  height : UInt32
  numPlanes : UInt8
  /-- The `bytesperline` of each plane. -/
  planeFmt : Fin 8 → UInt32

/-- A `v4l2_format`, with the two readings of its union. -/
structure V4l2Format where
  pix : V4l2PixFormat
  pixMp : V4l2PixFormatMplane

namespace V4l2Format

variable (f : V4l2Format) (isMplane : Bool)

def height : UInt32 := if isMplane then f.pixMp.height else f.pix.height

def numPlanes : UInt32 := if isMplane then f.pixMp.numPlanes.toUInt32 else 1

def planeBpl (idx : Fin 4) : UInt32 :=
  if isMplane then f.pixMp.planeFmt (idx.castLE (by decide)) else f.pix.bytesperline

end V4l2Format

/-! ### The layout -/

/-- `k_drm_max_planes`. -/
def drmMaxPlanes : UInt32 := 4

/-- `k_max_image_dim`. -/
def maxImageDim : UInt32 := 16384

/-- `k_max_bytes_per_line`. -/
def maxBytesPerLine : UInt32 := 65536

structure DrmPlaneLayout where
  numDrmPlanes : UInt32 := 0
  pitch : Fin 4 → UInt32 := fun _ => 0
  offset : Fin 4 → UInt32 := fun _ => 0
  v4l2PlaneIdx : Fin 4 → UInt8 := fun _ => 0

namespace DrmPlaneLayout

def setPlane (l : DrmPlaneLayout) (i : Fin 4) (pitch offset : UInt32) (v4l2PlaneIdx : UInt8) :
    DrmPlaneLayout :=
  { l with
    pitch := Function.update l.pitch i pitch
    offset := Function.update l.offset i offset
    v4l2PlaneIdx := Function.update l.v4l2PlaneIdx i v4l2PlaneIdx }

/-- A luma plane and one of interleaved chroma. -/
def semiplanar (l : DrmPlaneLayout) (bpl chromaPitch : UInt32) (ySize : UInt64) : DrmPlaneLayout :=
  (({ l with numDrmPlanes := 2 }).setPlane 0 bpl 0 0).setPlane 1 chromaPitch ySize.toUInt32 0

/-- A luma plane and two of chroma. -/
def planar (l : DrmPlaneLayout) (bpl : UInt32) (chromaBpl ySize vOffset : UInt64) :
    DrmPlaneLayout :=
  ((({ l with numDrmPlanes := 3 }).setPlane 0 bpl 0 0).setPlane 1 chromaBpl.toUInt32
    ySize.toUInt32 0).setPlane 2 chromaBpl.toUInt32 vOffset.toUInt32 0

end DrmPlaneLayout

/-- The loop of the default: one DRM plane for each V4L2 plane. -/
def importPlanes (capFmt : V4l2Format) (isMplane : Bool) :
    List (Fin 4) → DrmPlaneLayout → Option Errc × DrmPlaneLayout
  | [], out => (none, out)
  | i :: is, out =>
    let bpl := capFmt.planeBpl isMplane i
    if bpl = 0 ∨ maxBytesPerLine < bpl then (some .invalidArgument, out)
    else importPlanes capFmt isMplane is (out.setPlane i bpl 0 i.val.toUInt8)

/-- `derive_drm_plane_layout`, with what it leaves in `out`. -/
def deriveDrmPlaneLayout (capFmt : V4l2Format) (isMplane : Bool) (drmFourcc : UInt32)
    (out : DrmPlaneLayout) : Option Errc × DrmPlaneLayout :=
  let h := capFmt.height isMplane
  let numV4l2 := capFmt.numPlanes isMplane
  if h = 0 ∨ maxImageDim < h ∨ numV4l2 = 0 ∨ drmMaxPlanes < numV4l2 then
    (some .invalidArgument, out)
  else
    let semiplanar := isSemiplanarYuv drmFourcc
    let planar := planarYuvSubsampling drmFourcc
    if numV4l2 = 1 ∧ (semiplanar ∨ planar.hsub ≠ 0) then
      let bpl := capFmt.planeBpl isMplane 0
      if bpl = 0 ∨ maxBytesPerLine < bpl then (some .invalidArgument, out)
      else
        let ySize := bpl.toUInt64 * h.toUInt64
        if semiplanar then (none, out.semiplanar bpl (semiplanarChromaPitch drmFourcc bpl) ySize)
        else if planar.hsub = 2 ∧ bpl &&& 1 ≠ 0 then (some .invalidArgument, out)
        else
          let chromaBpl := (bpl / planar.hsub).toUInt64
          let chromaH := (h.toUInt64 + planar.vsub.toUInt64 - 1) / planar.vsub.toUInt64
          (none, out.planar bpl chromaBpl ySize (ySize + chromaBpl * chromaH))
    else
      importPlanes capFmt isMplane ((List.finRange 4).take numV4l2.toNat)
        { out with numDrmPlanes := numV4l2 }

end DrmCxx.Scene
