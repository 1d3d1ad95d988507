import DrmCxx.Verification.Cursor.BlitPixels
import DrmCxx.Verification.Planes.PlaneClip
import Mathlib.Algebra.Order.Group.Int
import Mathlib.Tactic.Linarith

/-!
# Where a cursor's tip is shown

`blit_frame` turns, shrinks and centres a frame, `buffer_hotspot` follows its hotspot in fixed
point of its own, and `stage_position` places the plane by that. The tip is drawn where the
hotspot is taken to be on each axis of at most 256 pixels. A plane that turns the buffer moves the
tip away from there.
-/

namespace DrmCxx.Cursor

open Scene (PlaneSpan clipApplies clipLeading rotate0)

/-! ### One axis -/

/-- Of the `rot` pixels of a turned frame, `hot` is the tip; the sprite has `dst` of the buffer's
`len`. -/
structure BlitAxis where
  rot : ℕ
  dst : ℕ
  len : ℕ
  hot : ℕ
  fitted : Fitted rot dst len
  hot_lt : hot < rot

namespace BlitAxis

variable (a : BlitAxis)

def step : ℕ := axisStep a.rot a.dst

def origin : ℕ := (a.len - a.dst) / 2

/-- Where the tip is taken to be. -/
def hotspot : ℕ := a.origin + a.hot * a.dst / a.rot

/-- The first and last pixel of the sprite that the tip is drawn on. -/
def first : ℕ := a.hot * 2 ^ 8 / a.step

def last : ℕ := min (a.dst - 1) ((a.hot * 2 ^ 8 + 0xff) / a.step)

/-- The tip is drawn within `tol` of `target`. -/
def Near (tol : ℕ) (target : ℤ) : Prop :=
  a.first ≤ a.last ∧ a.origin + a.first - tol ≤ target ∧ target ≤ a.origin + a.last + tol

theorem step_pos : 0 < a.step := axisStep_pos a.fitted.pos a.fitted.le_rot

theorem covers_iff {d : ℕ} :
    d < a.dst ∧ a.hot ∈ boxCells a.step d ↔ a.first ≤ d ∧ d ≤ a.last := by
  have hpos := a.fitted.pos
  have hfirst : a.first ≤ d ↔ a.hot * 2 ^ 8 < d * a.step + a.step := by
    rw [first, ← Nat.lt_succ_iff, Nat.div_lt_iff_lt_mul a.step_pos, Nat.succ_mul]
  have hlast : d ≤ (a.hot * 2 ^ 8 + 0xff) / a.step ↔ d * a.step < (a.hot + 1) * 2 ^ 8 := by
    rw [Nat.le_div_iff_mul_le a.step_pos]
    omega
  rw [mem_boxCells, last, Nat.le_min, hfirst, hlast]
  omega

theorem near_iff {tol : ℕ} {target : ℤ} :
    a.Near tol target ↔ ∃ d, (d < a.dst ∧ a.hot ∈ boxCells a.step d) ∧
      |(a.origin + d : ℕ) - target| ≤ tol := by
  simp only [covers_iff, abs_le]
  constructor
  · rintro ⟨hdrawn, hlow, hhigh⟩
    by_cases hbelow : target ≤ a.origin + a.first
    · exact ⟨a.first, ⟨le_rfl, hdrawn⟩, by omega⟩
    by_cases habove : a.origin + a.last ≤ target
    · exact ⟨a.last, ⟨hdrawn, le_rfl⟩, by omega⟩
    · exact ⟨(target - a.origin).toNat, by omega⟩
  · rintro ⟨d, ⟨hfirst, hlast⟩, hlow, hhigh⟩
    exact ⟨hfirst.trans hlast, by omega, by omega⟩

/-- The tip is never drawn before the place it is taken to be at. -/
theorem scaled_le_first : a.hot * a.dst / a.rot ≤ a.first := by
  rw [first, Nat.le_div_iff_mul_le a.step_pos]
  have hrot : 0 < a.rot := a.fitted.pos.trans_le a.fitted.le_rot
  refine Nat.le_of_mul_le_mul_right ?_ (Nat.mul_pos hrot a.fitted.pos)
  calc a.hot * a.dst / a.rot * a.step * (a.rot * a.dst)
      = (a.hot * a.dst / a.rot * a.rot) * (a.step * a.dst) := by ring
    _ ≤ (a.hot * a.dst) * (a.rot * 2 ^ 8) :=
        Nat.mul_le_mul (Nat.div_mul_le_self _ _) (Nat.div_mul_le_self _ _)
    _ = a.hot * 2 ^ 8 * (a.rot * a.dst) := by ring

theorem first_le_last_iff : a.first ≤ a.last ↔ a.first < a.dst := by
  have hpos := a.fitted.pos
  have hle : a.first ≤ (a.hot * 2 ^ 8 + 0xff) / a.step :=
    Nat.div_le_div_right (Nat.le_add_right _ _)
  rw [last, Nat.le_min]
  omega

/-- The tip is drawn, and no farther than `tol` from its place. -/
theorem near_hotspot_iff {tol : ℕ} : a.Near tol a.hotspot ↔
    a.hot * 2 ^ 8 < a.step * min (a.hot * a.dst / a.rot + (tol + 1)) a.dst := by
  have hle := a.scaled_le_first
  have hfirst : a.first < min (a.hot * a.dst / a.rot + (tol + 1)) a.dst ↔
      a.hot * 2 ^ 8 < a.step * min (a.hot * a.dst / a.rot + (tol + 1)) a.dst := by
    rw [first, Nat.div_lt_iff_lt_mul a.step_pos, Nat.mul_comm a.step]
  rw [← hfirst, Near, a.first_le_last_iff, Nat.lt_min, hotspot]
  have hlast := a.first_le_last_iff
  omega

/-- A frame that fits has every pixel in its place. -/
theorem first_of_eq (h : a.dst = a.rot) :
    a.hot * a.dst / a.rot = a.hot ∧ a.step = 2 ^ 8 ∧ a.first = a.hot ∧ a.last = a.hot := by
  have hrot : 0 < a.rot := a.fitted.pos.trans_le a.fitted.le_rot
  have hlt := a.hot_lt
  have hstep : a.step = 2 ^ 8 := by rw [step, axisStep, h, Nat.mul_div_cancel_left _ hrot]
  refine ⟨by rw [h, Nat.mul_div_cancel _ hrot], hstep, ?_, ?_⟩
  · rw [first, hstep, Nat.mul_div_cancel _ (by decide)]
  · rw [last, hstep, h]
    omega

theorem near_of_eq (h : a.dst = a.rot) : a.Near 0 a.hotspot := by
  obtain ⟨hscaled, -, hfirst, hlast⟩ := a.first_of_eq h
  rw [Near, hotspot, hscaled, hfirst, hlast]
  omega

/-- The steps of an axis of at most 256 pixels are fine enough. -/
theorem near_hotspot_of_le (h : a.dst ≤ 2 ^ 8) : a.Near 1 a.hotspot := by
  rw [near_hotspot_iff]
  obtain ⟨q, hq⟩ : ∃ q, a.hot * a.dst / a.rot = q := ⟨_, rfl⟩
  obtain ⟨m, hm⟩ : ∃ m, a.rot * 2 ^ 8 % a.dst = m := ⟨_, rfl⟩
  have hlt := a.hot_lt
  have hm_lt : m < a.dst := hm ▸ Nat.mod_lt _ a.fitted.pos
  have hstep : a.dst * a.step + m = a.rot * 2 ^ 8 := hm ▸ Nat.div_add_mod _ _
  rw [hq]
  rcases Nat.le_total (q + (1 + 1)) a.dst with hle | hle
  · rw [Nat.min_eq_left hle]
    have hhot : a.hot * a.dst < a.rot * (q + 1) := by
      rw [← hq]
      exact Nat.lt_mul_div_succ _ (Nat.zero_lt_of_lt hlt)
    have hlost : m * (q + 2) ≤ 2 ^ 8 * a.rot :=
      Nat.mul_le_mul (by omega) (hle.trans a.fitted.le_rot)
    have hscaled : (a.dst * a.step + m) * (q + 2) = a.rot * 2 ^ 8 * (q + 2) := by rw [hstep]
    refine Nat.lt_of_mul_lt_mul_right (a := a.dst) ?_
    linarith
  · rw [Nat.min_eq_right hle, Nat.mul_comm a.step]
    omega

end BlitAxis

/-! ### What a plane shows -/

/-- A place of a `w` by `h` picture, once the picture is turned. -/
def turnedPlace (w h : ℤ) : Rotation → ℤ × ℤ → ℤ × ℤ
  | .k0, p => p
  | .k90, p => (h - 1 - p.2, p.1)
  | .k180, p => (w - 1 - p.1, h - 1 - p.2)
  | .k270, p => (p.2, w - 1 - p.1)

/-- The same turn the other way round. -/
def Rotation.reversed : Rotation → Rotation
  | .k0 => .k0
  | .k90 => .k270
  | .k180 => .k180
  | .k270 => .k90

/-- A rotation as the kernel turns planes: clockwise or not. -/
def Rotation.sensed (clockwise : Bool) (rot : Rotation) : Rotation :=
  if clockwise then rot else rot.reversed

/-- The turn that the value of a plane's property stands for. -/
def planeTurn (clockwise : Bool) (mask : Option UInt64) : Rotation :=
  if mask = some Rotation.k90.toDrmMask then .sensed clockwise .k90
  else if mask = some Rotation.k180.toDrmMask then .k180
  else if mask = some Rotation.k270.toDrmMask then .sensed clockwise .k270
  else .k0

namespace CursorPlane

variable (clockwise : Bool) (p : CursorPlane)

/-- Where a place of the buffer is in the plane: the plane turns what it cuts out of the buffer. -/
def offset (place : ℤ × ℤ) : ℤ × ℤ :=
  turnedPlace ((p.x.srcLen : ℤ) / 2 ^ 16) ((p.y.srcLen : ℤ) / 2 ^ 16)
    (planeTurn clockwise p.rotation)
    (place.1 - (p.x.src : ℤ) / 2 ^ 16, place.2 - (p.y.src : ℤ) / 2 ^ 16)

/-- The lengths of what is cut out, once it is turned. -/
def turnedSource : ℕ × ℕ :=
  if Renderer.swapsDims (planeTurn clockwise p.rotation) then (p.y.srcLen, p.x.srcLen)
  else (p.x.srcLen, p.y.srcLen)

/-- The plane has the place of the buffer at `cx`, `cy`. -/
structure ShowsAt (place : ℤ × ℤ) (cx cy : ℤ) : Prop where
  unscaled : p.turnedSource clockwise = (p.x.dstLen * 2 ^ 16, p.y.dstLen * 2 ^ 16)
  x : p.x.dst + (p.offset clockwise place).1 = cx
  y : p.y.dst + (p.offset clockwise place).2 = cy
  /-- Only what is left of the screen or above it may be cut off. -/
  insideX : 0 ≤ cx → 0 ≤ (p.offset clockwise place).1 ∧ (p.offset clockwise place).1 < p.x.dstLen
  insideY : 0 ≤ cy → 0 ≤ (p.offset clockwise place).2 ∧ (p.offset clockwise place).2 < p.y.dstLen

end CursorPlane

/-- The sprite's pixel at `d` takes in the frame's pixel `src`. -/
structure DrawnFrom (f : Frame) (rot : Rotation) (width height : ℕ) (d src : ℕ × ℕ) : Prop where
  x : d.1 < (Renderer.blitSize f rot width height).1
  y : d.2 < (Renderer.blitSize f rot width height).2
  source : let turned := Renderer.turnedSize f rot
    let blit := Renderer.blitSize f rot width height
    ∃ rx ∈ boxCells (axisStep turned.1 blit.1) d.1, ∃ ry ∈ boxCells (axisStep turned.2 blit.2) d.2,
      unturned f rot rx ry = some src

/-! ### A frame and the buffer it is drawn into -/

/-- What the renderer draws: a frame with its hotspot in it, and the back buffer. -/
structure Drawing where
  renderer : Renderer
  frame : Frame
  buffer : CursorBuffer
  back : renderer.buffers renderer.backIdx = some buffer
  width_pos : 0 < buffer.width
  height_pos : 0 < buffer.height
  frame_width : 1 ≤ frame.width ∧ frame.width ≤ 512
  frame_height : 1 ≤ frame.height ∧ frame.height ≤ 512
  xhot : 0 ≤ frame.xhot ∧ frame.xhot < frame.width
  yhot : 0 ≤ frame.yhot ∧ frame.yhot < frame.height
  /-- The buffers of a plane that turns them by a quarter are square, as they are allocated. -/
  square : Renderer.turnsInHardware renderer.probe renderer.rotation →
    Renderer.swapsDims renderer.rotation → buffer.width = buffer.height

namespace Drawing

variable (d : Drawing)

/-- The turn the sprite is drawn with. -/
def rot : Rotation := d.renderer.effectiveSwRotation

def turned : ℕ × ℕ := Renderer.turnedSize d.frame d.rot

def blit : ℕ × ℕ := Renderer.blitSize d.frame d.rot d.buffer.width d.buffer.height

/-- The hot pixel, as it is stored. -/
def hotPixel : ℕ × ℕ := (d.frame.xhot.toNat, d.frame.yhot.toNat)

def downscaled : Bool := needsDownscale d.frame d.rot d.buffer.width d.buffer.height

/-- The hotspot in the turned frame. -/
def hot : ℕ × ℕ :=
  ((Renderer.turnedHotspot d.frame d.rot).1.toNat, (Renderer.turnedHotspot d.frame d.rot).2.toNat)

theorem fitted : Fitted d.turned.1 d.blit.1 d.buffer.width ∧
    Fitted d.turned.2 d.blit.2 d.buffer.height :=
  blitSize_fitted d.rot d.frame_width.1 d.frame_height.1 d.width_pos d.height_pos

theorem hot_spec : ((d.hot.1 : ℤ), (d.hot.2 : ℤ)) = Renderer.turnedHotspot d.frame d.rot ∧
    d.hot.1 < d.turned.1 ∧ d.hot.2 < d.turned.2 := by
  have hx := d.xhot
  have hy := d.yhot
  rw [hot, turned]
  cases d.rot <;>
    simp only [Renderer.turnedHotspot, Renderer.turnedSize, Renderer.swapsDims, Prod.mk.injEq] <;>
    simp <;> omega

def xAxis : BlitAxis where
  rot := d.turned.1
  dst := d.blit.1
  len := d.buffer.width
  hot := d.hot.1
  fitted := d.fitted.1
  hot_lt := d.hot_spec.2.1

def yAxis : BlitAxis where
  rot := d.turned.2
  dst := d.blit.2
  len := d.buffer.height
  hot := d.hot.2
  fitted := d.fitted.2
  hot_lt := d.hot_spec.2.2

/-! ### The plane that is staged -/

/-- The turn that the plane adds. -/
def turn (clockwise : Bool) : Rotation :=
  if Renderer.turnsInHardware d.renderer.probe d.renderer.rotation then
    .sensed clockwise d.renderer.rotation
  else .k0

def staged (x y : ℤ) : CursorPlane := (d.renderer.blitFrame d.frame).stagePosition x y

theorem hotspotOn_eq (a : BlitAxis) : Renderer.hotspotOn a.hot a.rot a.dst a.len = a.hotspot := by
  have hpos := a.fitted.pos
  rw [Renderer.hotspotOn, BlitAxis.hotspot, BlitAxis.origin]
  by_cases heq : a.dst = a.rot
  · rw [if_neg (by omega), if_pos hpos.ne', (a.first_of_eq heq).1]
    push_cast
    omega
  · rw [if_pos ⟨hpos.ne', heq⟩, if_pos hpos.ne',
      Int.tdiv_eq_ediv_of_nonneg (by positivity)]
    push_cast
    omega

/-- The buffer drawn last is the one that is staged. -/
theorem commitSize_eq : (d.renderer.blitFrame d.frame).commitSize =
    (d.buffer.width, d.buffer.height) := by
  simp only [Renderer.blitFrame, d.back]
  simp only [Renderer.commitSize, Renderer.commitIdx, Renderer.backIdx, if_true,
    Function.update_self, Option.map_some, Option.getD_some]

/-- The buffer's hotspot is the tip's place on each axis. -/
theorem bufferHotspot_eq : (d.renderer.blitFrame d.frame).bufferHotspot =
    ((d.xAxis.hotspot : ℤ), (d.yAxis.hotspot : ℤ)) := by
  have hlast : (d.renderer.blitFrame d.frame).lastFrame = some d.frame ∧
      (d.renderer.blitFrame d.frame).effectiveSwRotation = d.rot ∧
      (d.renderer.blitFrame d.frame).lastBlit = d.blit := by
    rw [Renderer.blitFrame, d.back]
    exact ⟨rfl, rfl, rfl⟩
  rw [Renderer.bufferHotspot, hlast.1]
  dsimp only
  rw [hlast.2.1, hlast.2.2, d.commitSize_eq, Renderer.hotspotIn]
  have hhot := d.hot_spec.1
  rw [← hhot]
  exact Prod.ext (hotspotOn_eq d.xAxis) (hotspotOn_eq d.yAxis)

theorem planeTurn_toDrmMask (clockwise : Bool) (rot : Rotation) :
    planeTurn clockwise (some rot.toDrmMask) = rot.sensed clockwise := by
  cases rot <;> cases clockwise <;> rfl

theorem planeTurn_staged (clockwise : Bool) :
    planeTurn clockwise d.renderer.hwRotation = d.turn clockwise := by
  rw [turn, Renderer.hwRotation, Renderer.turnsInHardware]
  cases d.renderer.probe.rotations with
  | none => rfl
  | some mask =>
    simp only [Option.map_some, Option.any_some, decide_eq_true_eq]
    split
    · exact planeTurn_toDrmMask _ _
    · exact (planeTurn_toDrmMask clockwise .k0).trans (by cases clockwise <;> rfl)

/-- What a plane that turns the buffer shows is not clipped. -/
theorem not_clipApplies {clockwise : Bool} (h : d.turn clockwise ≠ .k0) (fourcc : UInt32) :
    clipApplies (d.renderer.hwRotation.getD 0) fourcc = false := by
  have hmask : d.renderer.hwRotation = some d.renderer.rotation.toDrmMask ∧
      d.renderer.rotation ≠ .k0 := by
    rw [turn, Renderer.turnsInHardware] at h
    rw [Renderer.hwRotation]
    cases hrot : d.renderer.probe.rotations with
    | none => simp [hrot] at h
    | some mask =>
      simp only [hrot, Option.any_some, decide_eq_true_eq] at h
      split at h
      · rename_i hbit
        refine ⟨by simp only [Option.map_some, if_pos hbit], fun hk0 => h ?_⟩
        rw [hk0]
        cases clockwise <;> rfl
      · exact absurd rfl h
  rw [hmask.1, Option.getD_some, clipApplies]
  have hne := hmask.2
  cases hrot : d.renderer.rotation with
  | k0 => exact absurd hrot hne
  | k90 | k180 | k270 => rfl

/-- The staged plane is the buffer's rectangle, with `kx` columns and `ky` rows cut off that lie
off the screen. -/
theorem staged_spec (x y : ℤ) : ∃ kx ky : ℕ,
    (d.staged x y).x = ⟨x - d.xAxis.hotspot + kx, d.buffer.width - kx, kx * 2 ^ 16,
      (d.buffer.width - kx) * 2 ^ 16⟩ ∧
    (d.staged x y).y = ⟨y - d.yAxis.hotspot + ky, d.buffer.height - ky, ky * 2 ^ 16,
      (d.buffer.height - ky) * 2 ^ 16⟩ ∧
    (d.staged x y).rotation = d.renderer.hwRotation ∧
    (kx = 0 ∨ kx < d.buffer.width ∧ x - d.xAxis.hotspot + kx = 0) ∧
    (ky = 0 ∨ ky < d.buffer.height ∧ y - d.yAxis.hotspot + ky = 0) ∧
    ∀ clockwise, d.turn clockwise ≠ .k0 → kx = 0 ∧ ky = 0 := by
  have hrotation : (d.renderer.blitFrame d.frame).hwRotation = d.renderer.hwRotation := by
    rw [Renderer.blitFrame, d.back]
    rfl
  simp only [staged, Renderer.stagePosition, d.bufferHotspot_eq, d.commitSize_eq, Renderer.spansAt,
    hrotation, true_and]
  split
  · rename_i hclip
    obtain ⟨kx, hkx, hx⟩ :=
      Planes.clipLeading_unscaled (x - d.xAxis.hotspot) d.buffer.width
    obtain ⟨ky, hky, hy⟩ :=
      Planes.clipLeading_unscaled (y - d.yAxis.hotspot) d.buffer.height
    refine ⟨kx, ky, hx, hy, hkx, hky, fun clockwise hturn => ?_⟩
    rw [d.not_clipApplies hturn] at hclip
    exact absurd hclip.2 Bool.false_ne_true
  · refine ⟨0, 0, ?_, ?_, .inl rfl, .inl rfl, fun _ _ => ⟨rfl, rfl⟩⟩ <;> simp

theorem square_of_turn (clockwise : Bool)
    (h : Renderer.swapsDims (d.turn clockwise) = true) : d.buffer.width = d.buffer.height := by
  rw [turn] at h
  split at h
  · rename_i hturns
    refine d.square hturns ?_
    revert h
    cases clockwise <;> cases d.renderer.rotation <;> simp [Rotation.sensed, Rotation.reversed,
      Renderer.swapsDims]
  · cases h

/-- The turned place of a pixel is in the turned picture. -/
theorem turnedPlace_inside {w h : ℤ} {rot : Rotation} {px py : ℤ}
    (hsquare : Renderer.swapsDims rot = true → w = h) (hpx : 0 ≤ px ∧ px < w)
    (hpy : 0 ≤ py ∧ py < h) :
    (0 ≤ (turnedPlace w h rot (px, py)).1 ∧ (turnedPlace w h rot (px, py)).1 < w) ∧
      0 ≤ (turnedPlace w h rot (px, py)).2 ∧ (turnedPlace w h rot (px, py)).2 < h := by
  cases rot with
  | k0 => exact ⟨hpx, hpy⟩
  | k180 =>
    simp only [turnedPlace]
    omega
  | k90 | k270 =>
    have hwh := hsquare rfl
    simp only [turnedPlace]
    omega

/-- A place of the buffer is shown as far from the hotspot's as the plane's turn puts it. -/
theorem showsAt_place (clockwise : Bool) (x y : ℤ) {px py : ℤ} (hpx : 0 ≤ px ∧ px < d.buffer.width)
    (hpy : 0 ≤ py ∧ py < d.buffer.height) :
    (d.staged x y).ShowsAt clockwise (px, py)
      (x - d.xAxis.hotspot +
        (turnedPlace d.buffer.width d.buffer.height (d.turn clockwise) (px, py)).1)
      (y - d.yAxis.hotspot +
        (turnedPlace d.buffer.width d.buffer.height (d.turn clockwise) (px, py)).2) := by
  obtain ⟨kx, ky, hx, hy, hrotation, hkx, hky, hzero⟩ := d.staged_spec x y
  have hturn : planeTurn clockwise (d.staged x y).rotation = d.turn clockwise := by
    rw [hrotation, d.planeTurn_staged]
  have hdiv (n : ℕ) : ((n * 2 ^ 16 : ℕ) : ℤ) / 2 ^ 16 = n := by omega
  have hoffset : (d.staged x y).offset clockwise (px, py) =
      turnedPlace (d.buffer.width - kx : ℕ) (d.buffer.height - ky : ℕ) (d.turn clockwise)
        (px - kx, py - ky) := by
    rw [CursorPlane.offset, hturn, hx, hy]
    simp only [hdiv]
  have hsource : (d.staged x y).turnedSource clockwise =
      if Renderer.swapsDims (d.turn clockwise) then
        ((d.buffer.height - ky) * 2 ^ 16, (d.buffer.width - kx) * 2 ^ 16)
      else ((d.buffer.width - kx) * 2 ^ 16, (d.buffer.height - ky) * 2 ^ 16) := by
    rw [CursorPlane.turnedSource, hturn, hx, hy]
  by_cases hturned : d.turn clockwise = .k0
  · rw [hturned] at hoffset hsource ⊢
    simp only [turnedPlace] at hoffset ⊢
    refine ⟨by rw [hsource, hx, hy]; rfl, ?_, ?_, ?_, ?_⟩ <;> rw [hoffset]
    · rw [hx]
      dsimp only
      omega
    · rw [hy]
      dsimp only
      omega
    · rw [hx]
      dsimp only
      omega
    · rw [hy]
      dsimp only
      omega
  · obtain ⟨rfl, rfl⟩ := hzero clockwise hturned
    have hsquare := d.square_of_turn clockwise
    obtain ⟨hinX, hinY⟩ := turnedPlace_inside (fun h => by exact_mod_cast hsquare h) hpx hpy
    simp only [Nat.sub_zero, Nat.cast_zero, sub_zero] at hoffset hsource
    refine ⟨?_, ?_, ?_, ?_, ?_⟩
    · rw [hsource, hx, hy]
      split
      · rename_i hswaps
        rw [Nat.sub_zero, Nat.sub_zero, hsquare hswaps]
      · rfl
    · rw [hoffset, hx, Nat.cast_zero, add_zero]
    · rw [hoffset, hy, Nat.cast_zero, add_zero]
    · rw [hoffset, hx]
      exact fun _ => hinX
    · rw [hoffset, hy]
      exact fun _ => hinY

theorem showsAt_iff {clockwise : Bool} {x y cx cy px py : ℤ}
    (hpx : 0 ≤ px ∧ px < d.buffer.width) (hpy : 0 ≤ py ∧ py < d.buffer.height) :
    (d.staged x y).ShowsAt clockwise (px, py) cx cy ↔
      x - d.xAxis.hotspot +
          (turnedPlace d.buffer.width d.buffer.height (d.turn clockwise) (px, py)).1 = cx ∧
        y - d.yAxis.hotspot +
          (turnedPlace d.buffer.width d.buffer.height (d.turn clockwise) (px, py)).2 = cy := by
  have hplace := d.showsAt_place clockwise x y hpx hpy
  constructor
  · exact fun h => ⟨hplace.x.symm.trans h.x, hplace.y.symm.trans h.y⟩
  · rintro ⟨rfl, rfl⟩
    exact hplace

/-! ### The tip -/

/-- With the position `x`, `y` staged, a pixel that takes in the hot one is shown at `cx`, `cy`. -/
def TipAt (clockwise : Bool) (x y cx cy : ℤ) : Prop :=
  ∃ dx dy, DrawnFrom d.frame d.rot d.buffer.width d.buffer.height (dx, dy) d.hotPixel ∧
    (d.staged x y).ShowsAt clockwise ((d.xAxis.origin + dx : ℕ), (d.yAxis.origin + dy : ℕ)) cx cy

/-- The corner that the buffer gets at the position is one that an int holds. -/
def InReach (x y : ℤ) : Prop :=
  -2 ^ 31 ≤ x - d.xAxis.hotspot ∧ -2 ^ 31 ≤ y - d.yAxis.hotspot

/-- How far from its position the tip may be. -/
def tolerance : ℕ := if d.downscaled then 1 else 0

/-- What is asked of a frame: it is drawn in the middle of an empty buffer, one colour stays one
colour, premultiplied pixels stay so, and the tip is where it is asked to be. -/
structure Lands (clockwise : Bool) : Prop where
  draws : ∀ (img : Bitmap) (s : Surface), img.frame = d.frame → s.width = d.buffer.width →
    s.height = d.buffer.height →
      ∃ s', blitPixels img d.rot d.renderer.fourcc s = some s' ∧
        Blitted img d.rot d.renderer.fourcc s s'
  exact : d.downscaled = false → ∀ x y, d.InReach x y → d.TipAt clockwise x y x y
  near : d.downscaled = true → ∀ x y, d.InReach x y → ∃ cx cy, |cx - x| ≤ 1 ∧ |cy - y| ≤ 1 ∧
    d.TipAt clockwise x y cx cy

/-- When the tip is where it is asked to be. Where the plane adds no turn, the pixel after the tip's
place must reach the tip; where it does, the tip's place turned back must be drawn from the tip. -/
def TipKept (clockwise : Bool) : Prop :=
  match d.turn clockwise with
  | .k0 => d.downscaled = true →
      d.xAxis.hot * 2 ^ 8 <
          d.xAxis.step * min (d.xAxis.hot * d.xAxis.dst / d.xAxis.rot + 2) d.xAxis.dst ∧
        d.yAxis.hot * 2 ^ 8 <
          d.yAxis.step * min (d.yAxis.hot * d.yAxis.dst / d.yAxis.rot + 2) d.yAxis.dst
  | .k90 => d.xAxis.Near d.tolerance d.yAxis.hotspot ∧
      d.yAxis.Near d.tolerance (d.buffer.height - 1 - d.xAxis.hotspot)
  | .k180 => d.xAxis.Near d.tolerance (d.buffer.width - 1 - d.xAxis.hotspot) ∧
      d.yAxis.Near d.tolerance (d.buffer.height - 1 - d.yAxis.hotspot)
  | .k270 => d.xAxis.Near d.tolerance (d.buffer.width - 1 - d.yAxis.hotspot) ∧
      d.yAxis.Near d.tolerance d.xAxis.hotspot

theorem unturned_hot_iff {rx ry : ℕ} (hrx : rx < d.turned.1) (hry : ry < d.turned.2) :
    unturned d.frame d.rot rx ry = some d.hotPixel ↔ rx = d.hot.1 ∧ ry = d.hot.2 := by
  have hx := d.xhot
  have hy := d.yhot
  revert hrx hry
  rw [turned, hot, hotPixel]
  cases d.rot <;> intro hrx hry
  case k0 =>
    simp only [unturned, Renderer.turnedHotspot, Option.some.injEq, Prod.mk.injEq]
  case k90 =>
    have hrx : rx < d.frame.height := hrx
    have hry : ry < d.frame.width := hry
    simp only [unturned, mirror_eq hrx, Renderer.turnedHotspot, Option.map_some,
      Option.some.injEq, Prod.mk.injEq]
    omega
  case k180 =>
    have hrx : rx < d.frame.width := hrx
    have hry : ry < d.frame.height := hry
    simp only [unturned, mirror_eq hrx, mirror_eq hry, Renderer.turnedHotspot, Option.map_some,
      Option.bind_some, Option.some.injEq, Prod.mk.injEq]
    omega
  case k270 =>
    have hrx : rx < d.frame.height := hrx
    have hry : ry < d.frame.width := hry
    simp only [unturned, mirror_eq hry, Renderer.turnedHotspot, Option.map_some,
      Option.some.injEq, Prod.mk.injEq]
    omega

/-- The tip is drawn on both axes. -/
theorem drawnFrom_hot_iff {dx dy : ℕ} :
    DrawnFrom d.frame d.rot d.buffer.width d.buffer.height (dx, dy) d.hotPixel ↔
      (dx < d.xAxis.dst ∧ d.xAxis.hot ∈ boxCells d.xAxis.step dx) ∧
        (dy < d.yAxis.dst ∧ d.yAxis.hot ∈ boxCells d.yAxis.step dy) := by
  constructor
  · rintro ⟨hdx, hdy, rx, hrx, ry, hry, hsrc⟩
    have hhot := (d.unturned_hot_iff (lt_of_mem_boxCells hdx hrx) (lt_of_mem_boxCells hdy hry)).mp
      hsrc
    obtain ⟨rfl, rfl⟩ := hhot
    exact ⟨⟨hdx, hrx⟩, hdy, hry⟩
  · rintro ⟨⟨hdx, hrx⟩, hdy, hry⟩
    exact ⟨hdx, hdy, d.hot.1, hrx, d.hot.2, hry,
      (d.unturned_hot_iff d.hot_spec.2.1 d.hot_spec.2.2).mpr ⟨rfl, rfl⟩⟩

theorem draws (img : Bitmap) (s : Surface) (himg : img.frame = d.frame)
    (hw : s.width = d.buffer.width) (hh : s.height = d.buffer.height) :
    ∃ s', blitPixels img d.rot d.renderer.fourcc s = some s' ∧
      Blitted img d.rot d.renderer.fourcc s s' :=
  blitPixels_spec d.rot d.renderer.fourcc (himg ▸ d.frame_width.1) (himg ▸ d.frame_height.1)
    (hw ▸ d.width_pos) (hh ▸ d.height_pos)

/-- A sprite's pixel is in the buffer. -/
theorem origin_add_lt (a : BlitAxis) {i : ℕ} (hi : i < a.dst) :
    0 ≤ ((a.origin + i : ℕ) : ℤ) ∧ ((a.origin + i : ℕ) : ℤ) < a.len := by
  have hlen := a.fitted.le_len
  rw [BlitAxis.origin]
  omega

theorem tipAt_iff {clockwise : Bool} {x y cx cy : ℤ} :
    d.TipAt clockwise x y cx cy ↔ ∃ dx dy : ℕ,
      ((dx < d.xAxis.dst ∧ d.xAxis.hot ∈ boxCells d.xAxis.step dx) ∧
        (dy < d.yAxis.dst ∧ d.yAxis.hot ∈ boxCells d.yAxis.step dy)) ∧
      x - d.xAxis.hotspot + (turnedPlace d.buffer.width d.buffer.height (d.turn clockwise)
          ((d.xAxis.origin + dx : ℕ), (d.yAxis.origin + dy : ℕ))).1 = cx ∧
        y - d.yAxis.hotspot + (turnedPlace d.buffer.width d.buffer.height (d.turn clockwise)
          ((d.xAxis.origin + dx : ℕ), (d.yAxis.origin + dy : ℕ))).2 = cy := by
  refine exists_congr fun dx => exists_congr fun dy => ?_
  rw [d.drawnFrom_hot_iff]
  refine and_congr_right fun hdrawn => ?_
  exact d.showsAt_iff (origin_add_lt d.xAxis hdrawn.1.1) (origin_add_lt d.yAxis hdrawn.2.1)

/-- The tip is shown near its position if it is drawn near the place that the plane turns there. -/
theorem exists_tipAt_iff {clockwise : Bool} {tol : ℕ} {tx ty : ℤ} (x y : ℤ)
    (hback : ∀ px py : ℤ,
      (|(turnedPlace d.buffer.width d.buffer.height (d.turn clockwise) (px, py)).1 -
          d.xAxis.hotspot| ≤ tol ∧
        |(turnedPlace d.buffer.width d.buffer.height (d.turn clockwise) (px, py)).2 -
          d.yAxis.hotspot| ≤ tol) ↔ |px - tx| ≤ tol ∧ |py - ty| ≤ tol) :
    (∃ cx cy, |cx - x| ≤ tol ∧ |cy - y| ≤ tol ∧ d.TipAt clockwise x y cx cy) ↔
      d.xAxis.Near tol tx ∧ d.yAxis.Near tol ty := by
  rw [BlitAxis.near_iff, BlitAxis.near_iff]
  simp only [tipAt_iff]
  have hshift (a b c : ℤ) : a - b + c - a = c - b := by ring
  constructor
  · rintro ⟨_, _, hcx, hcy, dx, dy, ⟨hdx, hdy⟩, rfl, rfl⟩
    rw [hshift] at hcx hcy
    obtain ⟨htx, hty⟩ := (hback _ _).mp ⟨hcx, hcy⟩
    exact ⟨⟨dx, hdx, htx⟩, dy, hdy, hty⟩
  · rintro ⟨⟨dx, hdx, htx⟩, dy, hdy, hty⟩
    obtain ⟨hcx, hcy⟩ := (hback _ _).mpr ⟨htx, hty⟩
    refine ⟨_, _, ?_, ?_, dx, dy, ⟨hdx, hdy⟩, rfl, rfl⟩
    · rwa [hshift]
    · rwa [hshift]

theorem inReach_hotspot : d.InReach d.xAxis.hotspot d.yAxis.hotspot := by
  rw [InReach]
  omega

/-- Both cases of the tip's position in one. -/
theorem lands_iff_near {clockwise : Bool} : d.Lands clockwise ↔
    ∀ x y : ℤ, d.InReach x y → ∃ cx cy : ℤ, |cx - x| ≤ d.tolerance ∧ |cy - y| ≤ d.tolerance ∧
      d.TipAt clockwise x y cx cy := by
  rw [tolerance]
  cases hscale : d.downscaled with
  | true =>
    exact ⟨fun h => h.near hscale, fun h =>
      ⟨d.draws, fun hfits => by simp [hscale] at hfits, fun _ => h⟩⟩
  | false =>
    constructor
    · exact fun h x y hreach =>
        ⟨x, y, by rw [sub_self]; rfl, by rw [sub_self]; rfl, h.exact hscale x y hreach⟩
    · refine fun h => ⟨d.draws, fun _ x y hreach => ?_, fun htrue => by simp [hscale] at htrue⟩
      obtain ⟨cx, cy, hcx, hcy, htip⟩ := h x y hreach
      obtain rfl : cx = x := by simpa [sub_eq_zero] using hcx
      obtain rfl : cy = y := by simpa [sub_eq_zero] using hcy
      exact htip

/-- A frame that fits is drawn pixel by pixel. -/
theorem dst_eq_rot (h : d.downscaled = false) :
    d.xAxis.dst = d.xAxis.rot ∧ d.yAxis.dst = d.yAxis.rot := by
  have heq : d.blit = d.turned := blitSize_of_fits h
  exact ⟨congrArg Prod.fst heq, congrArg Prod.snd heq⟩

/-- The tip lands where it is asked to exactly when the plane's turn and the fixed point keep
it. -/
theorem lands_iff_tipKept (clockwise : Bool) : d.Lands clockwise ↔ d.TipKept clockwise := by
  have hconst {tx ty : ℤ} (h : ∀ x y : ℤ,
      (∃ cx cy, |cx - x| ≤ d.tolerance ∧ |cy - y| ≤ d.tolerance ∧ d.TipAt clockwise x y cx cy) ↔
        d.xAxis.Near d.tolerance tx ∧ d.yAxis.Near d.tolerance ty) :
      d.Lands clockwise ↔ d.xAxis.Near d.tolerance tx ∧ d.yAxis.Near d.tolerance ty := by
    rw [lands_iff_near]
    exact ⟨fun hall => (h _ _).mp (hall _ _ d.inReach_hotspot),
      fun hnear x y _ => (h x y).mpr hnear⟩
  rw [TipKept]
  cases hturn : d.turn clockwise with
  | k90 | k180 | k270 =>
    refine hconst fun x y => d.exists_tipAt_iff x y fun px py => ?_
    simp only [hturn, turnedPlace, abs_le]
    omega
  | k0 =>
    rw [hconst fun x y => d.exists_tipAt_iff x y fun px py => by rw [hturn]; exact Iff.rfl]
    rw [tolerance]
    cases hscale : d.downscaled with
    | true =>
      simp only [if_true, true_imp_iff]
      rw [BlitAxis.near_hotspot_iff, BlitAxis.near_hotspot_iff]
    | false =>
      obtain ⟨hx, hy⟩ := d.dst_eq_rot hscale
      exact ⟨fun _ h => by simp at h,
        fun _ => ⟨d.xAxis.near_of_eq hx, d.yAxis.near_of_eq hy⟩⟩

/-- A plane that turns the buffer keeps the tip of a frame that fits only in the buffer's very
middle. -/
theorem tipKept_iff_middle {clockwise : Bool} (hturn : d.turn clockwise ≠ .k0)
    (hfits : d.downscaled = false) : d.TipKept clockwise ↔
      2 * d.xAxis.hotspot + 1 = d.buffer.width ∧ 2 * d.yAxis.hotspot + 1 = d.buffer.height := by
  obtain ⟨hx, hy⟩ := d.dst_eq_rot hfits
  have htol : d.tolerance = 0 := by simp [tolerance, hfits]
  have hsquare := d.square_of_turn clockwise
  have hnear (a : BlitAxis) (h : a.dst = a.rot) (target : ℤ) :
      a.Near 0 target ↔ target = a.hotspot := by
    obtain ⟨hscaled, -, hfirst, hlast⟩ := a.first_of_eq h
    rw [BlitAxis.Near, BlitAxis.hotspot, hscaled, hfirst, hlast]
    omega
  rw [TipKept, htol]
  cases hcase : d.turn clockwise with
  | k0 => exact absurd hcase hturn
  | k180 =>
    dsimp only
    rw [hnear _ hx, hnear _ hy]
    omega
  | k90 | k270 =>
    rw [hcase] at hsquare
    have hwh := hsquare rfl
    dsimp only
    rw [hnear _ hx, hnear _ hy]
    omega

/-- Without a turn of the plane's, buffers of at most 256 pixels keep the tip. -/
theorem tipKept_of_le {clockwise : Bool} (hturn : d.turn clockwise = .k0)
    (hw : d.buffer.width ≤ 2 ^ 8) (hh : d.buffer.height ≤ 2 ^ 8) : d.TipKept clockwise := by
  rw [TipKept, hturn]
  intro _
  have hnearX := d.xAxis.near_hotspot_of_le (d.xAxis.fitted.le_len.trans hw)
  have hnearY := d.yAxis.near_hotspot_of_le (d.yAxis.fitted.le_len.trans hh)
  rw [BlitAxis.near_hotspot_iff] at hnearX hnearY
  exact ⟨hnearX, hnearY⟩

/-- A corner hotspot in a small frame, on a plane that turns by a half. -/
def halfTurned : Drawing where
  renderer :=
    { path := .atomicCursor
      fourcc := Scene.drmFormatArgb8888
      rotation := .k180
      buffers := fun _ => some { width := 64, height := 64 }
      probe := { rotations := some 5 } }
  frame := { address := 1, width := 24, height := 24, xhot := 0, yhot := 0, delay := 0 }
  buffer := { width := 64, height := 64 }
  back := rfl
  width_pos := by decide
  height_pos := by decide
  frame_width := by decide
  frame_height := by decide
  xhot := by decide
  yhot := by decide
  square _ _ := rfl

theorem not_lands_halfTurned : ¬ ∃ clockwise, halfTurned.Lands clockwise := by
  rintro ⟨clockwise, h⟩
  have hturn : halfTurned.turn clockwise = .k180 := by cases clockwise <;> rfl
  have hhot : halfTurned.xAxis.hotspot = 20 ∧ halfTurned.yAxis.hotspot = 20 := by decide
  have hsize : halfTurned.buffer.width = 64 ∧ halfTurned.buffer.height = 64 := by decide
  have hback (px py : ℤ) :
      (|(turnedPlace halfTurned.buffer.width halfTurned.buffer.height (halfTurned.turn clockwise)
            (px, py)).1 - halfTurned.xAxis.hotspot| ≤ halfTurned.tolerance ∧
        |(turnedPlace halfTurned.buffer.width halfTurned.buffer.height (halfTurned.turn clockwise)
            (px, py)).2 - halfTurned.yAxis.hotspot| ≤ halfTurned.tolerance) ↔
        |px - 43| ≤ halfTurned.tolerance ∧ |py - 43| ≤ halfTurned.tolerance := by
    rw [hturn]
    simp only [turnedPlace, abs_le]
    omega
  -- the tip is drawn at 20 and turned to 43
  obtain ⟨hnear, -⟩ := (halfTurned.exists_tipAt_iff 0 0 hback).mp
    (halfTurned.lands_iff_near.mp h 0 0 (by rw [InReach]; omega))
  have hdrawn : halfTurned.xAxis.origin = 20 ∧ halfTurned.xAxis.last = 0 ∧
      halfTurned.tolerance = 0 := by decide
  have htarget := hnear.2.2
  omega

end Drawing

end DrmCxx.Cursor
