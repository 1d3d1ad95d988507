import DrmCxx.Lib.Indices
import DrmCxx.Scene.Canvas.Compose

/-!
# Composition targets

The two surfaces behind `CompositionTarget`: the CPU canvas with its pair of dumb buffers, and the
GLES compositor with its `gbm_surface`. What a frame paints is kept as the layers that reached a
pixel of it.
-/

namespace DrmCxx.Scene

open Lib CompositeCanvas

structure CompositeCanvasConfig where
  canvasWidth : ℕ
  canvasHeight : ℕ
  outputFourcc : UInt32
  deriving DecidableEq, Repr

/-! ### What a layer is blended from -/

/-- `DmaBufDesc`: the number of planes and the first plane's descriptor. -/
structure DmaBufDesc where
  nPlanes : ℕ
  fd : ℤ
  deriving DecidableEq, Repr

/-- A buffer mapped for reading. -/
structure ReadMapping where
  pixels : PixelSpan
  stride : UInt32

/-- The arguments of `blend` for one layer, with what EGL answers while it runs. -/
structure LayerBlend where
  handle : ℕ
  src : CompositeSrc
  dmaBuf : Option DmaBufDesc := none
  srcRect : CompositeRect
  dstRect : CompositeRect
  /-- `eglMakeCurrent`. -/
  current : Bool := true
  /-- `eglCreateImageKHR`. -/
  image : Bool := true

/-! ### The GLES compositor -/

/-- What `init_egl` finds out. -/
structure EglSupport where
  dmabufImport : Bool
  /-- The external-sampler program was built. -/
  programExt : Bool
  deriving DecidableEq, Repr

structure GlCompositor where
  fbId : UInt64 := 0
  dmabufImportSupported : Bool
  programExt : Bool
  armable : Bool := true
  frameOpen : Bool := false
  deriving DecidableEq, Repr

/-- The CPU pixels `GlCompositor::blend` can upload: all of them, or row by row from a padded
stride. -/
def CompositeCanvas.CompositeSrc.uploads (src : CompositeSrc) : Bool :=
  src.pixels.any fun p =>
    let tight := src.srcWidth.toNat * 4
    let stride := src.srcStrideBytes.toNat
    p.size ≠ 0 &&
      if stride ≠ tight then
        (List.range src.srcHeight.toNat).all fun row => row * stride + tight ≤ p.size
      else tight * src.srcHeight.toNat ≤ p.size

/-- Two opposite edges of a quad have a pixel of the canvas between them. -/
def edgesMeet (pos : Int32) (length : UInt32) (extent : ℕ) : Bool :=
  let far := i32 (pos.toInt + i32 length.toNat)
  min pos.toInt far < max pos.toInt far && min pos.toInt far < extent && 0 < max pos.toInt far

/-- The quad of `draw_source_quad` covers a pixel of the canvas. -/
def quadMeets (width height : ℕ) (dst : CompositeRect) : Bool :=
  edgesMeet dst.x dst.w width && edgesMeet dst.y dst.h height

namespace GlCompositor

def created (egl : EglSupport) : GlCompositor where
  dmabufImportSupported := egl.dmabufImport
  programExt := egl.programExt

def supportsDmaBufImport (g : GlCompositor) (fourcc : UInt32) : Bool :=
  g.dmabufImportSupported && (formatSupported fourcc || (g.programExt && fourcc = drmFormatNv12))

/-- The checks at the head of `blend`. -/
def accepts (g : GlCompositor) (b : LayerBlend) : Bool :=
  g.frameOpen && b.current &&
    (formatSupported b.src.drmFourcc || b.src.drmFourcc = drmFormatNv12) &&
    b.src.srcWidth ≠ 0 && b.src.srcHeight ≠ 0 && b.dstRect.w ≠ 0 && b.dstRect.h ≠ 0

/-- `blend` tries to import the DMA-BUF of an RGB layer. -/
def triesImport (g : GlCompositor) (b : LayerBlend) : Bool :=
  g.dmabufImportSupported && b.dmaBuf.any fun d => d.nPlanes = 1 && 0 ≤ d.fd

/-- What `blend` samples is there. -/
def samples (g : GlCompositor) (b : LayerBlend) : Bool :=
  if b.src.drmFourcc = drmFormatNv12 then
    g.programExt && b.dmaBuf.any (fun d => 2 ≤ d.nPlanes && 0 ≤ d.fd) && b.image
  else (g.triesImport b && b.image) || b.src.uploads

/-- `blend` draws the layer. -/
def draws (g : GlCompositor) (width height : ℕ) (b : LayerBlend) : Bool :=
  g.accepts b && g.samples b && quadMeets width height b.dstRect

/-- After an import that failed without CPU pixels to fall back on, imports are off. -/
def blend (g : GlCompositor) (b : LayerBlend) : GlCompositor :=
  if g.accepts b && b.src.drmFourcc ≠ drmFormatNv12 && g.triesImport b && !b.image &&
      b.src.pixels.all (·.size = 0) then
    { g with dmabufImportSupported := false }
  else g

end GlCompositor

/-! ### Targets -/

/-- The two implementations of `CompositionTarget`. -/
inductive Compositor
  | canvas (fbIds : Fin 2 → UInt64) (allocated : Bool) (backIndex : Fin 2)
  | gl (compositor : GlCompositor)

structure CompositionTarget where
  width : ℕ
  height : ℕ
  drmFourcc : UInt32
  compositor : Compositor
  /-- The layers drawn since the frame began, by handle. -/
  painted : List ℕ := []

namespace CompositionTarget

variable (t : CompositionTarget)

/-- A `CompositeCanvas` just created. -/
def ofCanvas (cfg : CompositeCanvasConfig) (fbIds : Fin 2 → UInt64) : CompositionTarget :=
  ⟨cfg.canvasWidth, cfg.canvasHeight, cfg.outputFourcc, .canvas fbIds true 1, []⟩

/-- A `GlCompositor` just created. -/
def ofGl (cfg : CompositeCanvasConfig) (egl : EglSupport) : CompositionTarget :=
  ⟨cfg.canvasWidth, cfg.canvasHeight, cfg.outputFourcc, .gl (.created egl), []⟩

def fbId : UInt64 :=
  match t.compositor with
  | .canvas fbIds _ backIndex => fbIds backIndex
  | .gl g => g.fbId

def armable : Bool :=
  match t.compositor with
  | .canvas fbIds allocated backIndex => allocated && fbIds backIndex ≠ 0
  | .gl g => g.armable

def supportsDmaBufImport (fourcc : UInt32) : Bool :=
  match t.compositor with
  | .canvas .. => false
  | .gl g => g.supportsDmaBufImport fourcc

/-- `begin_frame` and `clear`: the canvas turns to its back buffer, the compositor makes its context
current. -/
def beginFrame (current : Bool) : CompositionTarget :=
  { t with
    painted := []
    compositor := match t.compositor with
      | .canvas fbIds allocated backIndex => .canvas fbIds allocated backIndex.rev
      | .gl g => .gl { g with frameOpen := current } }

/-- `blend` reaches a pixel of the target. -/
def draws (b : LayerBlend) : Bool :=
  match t.compositor with
  | .canvas .. =>
    b.src.readable.isSome && (blendAxes t.width t.height b.src b.srcRect b.dstRect).isSome
  | .gl g => g.draws t.width t.height b

def blend (b : LayerBlend) : CompositionTarget :=
  { t with
    painted := if t.draws b then t.painted ++ [b.handle] else t.painted
    compositor := match t.compositor with
      | .gl g => .gl (g.blend b)
      | canvas => canvas }

/-- `flush`, with the framebuffer `eglSwapBuffers` and `acquire` publish. -/
def flush (swapped : Option UInt64) : CompositionTarget × Bool :=
  match t.compositor, swapped with
  | .canvas .., _ => (t, true)
  | .gl g, some fbId => ({ t with compositor := .gl { g with fbId, frameOpen := false } }, true)
  | .gl g, none => ({ t with compositor := .gl { g with frameOpen := false } }, false)

def onSessionPaused : CompositionTarget :=
  { t with
    compositor := match t.compositor with
      | .canvas _ _ backIndex => .canvas (fun _ => 0) false backIndex
      | .gl g =>
        .gl { g with fbId := 0, armable := false, frameOpen := false, programExt := false } }

/-- `on_session_resumed`, with the buffers made anew, or EGL brought up again. -/
def onSessionResumed (fbIds : Option (Fin 2 → UInt64)) (egl : Option EglSupport) :
    Option CompositionTarget :=
  match t.compositor with
  | .canvas .. => fbIds.map fun fbIds => { t with compositor := .canvas fbIds true 1 }
  | .gl _ => egl.map fun egl => { t with compositor := .gl (.created egl) }

end CompositionTarget

end DrmCxx.Scene
