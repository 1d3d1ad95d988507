import DrmCxx.Csd.CompositePresenter
import DrmCxx.Csd.PlanePresenter

/-!
# Choosing a presenter

`csd::probe_presenter`: overlays for all decorations if the CRTC has them, else a canvas on its
primary plane.
-/

namespace DrmCxx.Csd

open Core (PropertyStore ListedProperty)
open Planes (PlaneId PlaneCapabilities PlaneRegistry)
open Scene (drmFormatArgb8888)

inductive Tier
  | plane
  | composite
  | fb
  deriving DecidableEq, Repr

structure ProbeConfig where
  crtcId : UInt32 := 0
  crtcIndex : ℕ := 0
  desiredDecorations : ℕ := 0
  canvasWidth : UInt32 := 0
  canvasHeight : UInt32 := 0
  planeBaseZpos : UInt64 := 0
  deriving DecidableEq, Repr

inductive ProbedPresenter
  /-- The presenter's slots, and the reservation that holds their planes. -/
  | plane (slots : List OverlaySlot) (reservation : OverlayReservation)
  /-- The slot of the canvas plane, and the canvas's format. -/
  | composite (slot : OverlaySlot) (fourcc : UInt32)

def choosePresenterTier (reservable desired : ℕ) (hasCanvasPlane : Bool) : Option Tier :=
  if 0 < desired ∧ desired ≤ reservable then some .plane
  else if hasCanvasPlane then some .composite
  else none

variable (registry : PlaneRegistry) (traits : PlaneId → PlanePresenter.OverlayTraits)
  (listing : PlaneId → Except Errc (List ListedProperty))

/-- The primary plane of the CRTC that can show a canvas, or 0. -/
def canvasPlaneFor (crtcIndex : ℕ) : PlaneId :=
  match (registry.forCrtc crtcIndex).find? fun cap =>
      cap.type = .primary && (Scene.SceneState.canvasFormatForPlane cap).isSome with
  | some cap => cap.id
  | none => 0

/-- `CompositePresenter::create`, up to the canvas's memory; `canvas` is what its allocation
says. -/
def createComposite (canvas : Except Errc Unit) (crtcId : UInt32) (canvasPlaneId : PlaneId)
    (canvasW canvasH : UInt32) : Except Errc (OverlaySlot × UInt32) :=
  if crtcId = 0 ∨ canvasW = 0 ∨ canvasH = 0 then .error .invalidArgument
  else
    match registry.capsOf canvasPlaneId with
    | none => .error .invalidArgument
    | some caps =>
      match Scene.SceneState.canvasFormatForPlane caps with
      | none => .error .notSupported
      | some fourcc =>
        match canvas with
        | .error e => .error e
        | .ok () =>
          match PropertyStore.cacheProperties {} canvasPlaneId (listing canvasPlaneId) with
          | .error e => .error e
          | .ok props =>
            (PlanePresenter.resolveRequired props canvasPlaneId SlotProp.required
              { planeId := canvasPlaneId, crtcId }).map fun slot => (slot, fourcc)

def probePresenter (canvas : Except Errc Unit) (cfg : ProbeConfig) :
    Except Errc ProbedPresenter :=
  if cfg.crtcId = 0 ∨ cfg.desiredDecorations = 0 then .error .invalidArgument
  else
    let canvasPlane := canvasPlaneFor registry cfg.crtcIndex
    let (reservation, reserved) := (OverlayReservation.create registry).reserve cfg.crtcIndex
      drmFormatArgb8888 cfg.desiredDecorations cfg.planeBaseZpos
    -- A reservation that comes up short counts as none.
    let reserved := reserved.toOption.getD []
    match choosePresenterTier reserved.length cfg.desiredDecorations (canvasPlane ≠ 0) with
    | none => .error .notSupported
    | some .plane =>
      (PlanePresenter.create registry traits listing cfg.crtcId reserved cfg.planeBaseZpos).map
        fun slots => .plane slots reservation
    | some _ =>
      (createComposite registry listing canvas cfg.crtcId canvasPlane cfg.canvasWidth
        cfg.canvasHeight).map fun c => .composite c.1 c.2

end DrmCxx.Csd
