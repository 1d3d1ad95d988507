import DrmCxx.Cursor.Blit
import DrmCxx.Lib.Checked
import Mathlib.Algebra.BigOperators.Ring.List
import Mathlib.Algebra.Order.BigOperators.Group.List
import Mathlib.Data.List.Nodup
import Mathlib.Tactic.Ring

/-!
# What a blit draws

A blit reads the frame and writes the buffer within their bounds, for every frame, rotation and
buffer. It clears the buffer around the centred sprite. A downscaled sprite keeps one colour one
colour, and premultiplied pixels premultiplied.
-/

namespace DrmCxx.Cursor

/-! ### Words and channels -/

theorem toNat_and_ff (p : UInt32) : (p &&& 0xff).toNat = p.toNat % 256 := by
  rw [UInt32.toNat_and]
  exact Nat.and_two_pow_sub_one_eq_mod p.toNat 8

theorem toNat_channel (p : UInt32) {shift : UInt32} (hshift : shift.toNat < 32) :
    (channel p shift).toNat = p.toNat / 2 ^ shift.toNat % 256 := by
  rw [channel, toNat_and_ff, UInt32.toNat_shiftRight, Nat.mod_eq_of_lt hshift,
    Nat.shiftRight_eq_div_pow]

theorem toNat_shiftLeft_byte {v : UInt32} {n : UInt32} (hn : n.toNat ≤ 24) (hv : v.toNat < 256) :
    (v <<< n).toNat = v.toNat <<< n.toNat := by
  have hlt : v.toNat * 2 ^ n.toNat < 2 ^ 32 :=
    calc v.toNat * 2 ^ n.toNat < 2 ^ 8 * 2 ^ n.toNat :=
          Nat.mul_lt_mul_of_pos_right hv (Nat.two_pow_pos _)
      _ = 2 ^ (8 + n.toNat) := (Nat.pow_add ..).symm
      _ ≤ 2 ^ 32 := Nat.pow_le_pow_right (by decide) (by omega)
  rw [UInt32.toNat_shiftLeft, Nat.mod_eq_of_lt (by omega : n.toNat < 32), Nat.shiftLeft_eq,
    Nat.mod_eq_of_lt hlt]

/-- Bytes stand side by side. -/
theorem toNat_pack {a r g b : UInt32} (ha : a.toNat < 256) (hr : r.toNat < 256)
    (hg : g.toNat < 256) (hb : b.toNat < 256) :
    (pack a r g b).toNat =
      a.toNat * 2 ^ 24 + (r.toNat * 2 ^ 16 + (g.toNat * 2 ^ 8 + b.toNat)) := by
  rw [pack, UInt32.toNat_or, UInt32.toNat_or, UInt32.toNat_or,
    toNat_shiftLeft_byte (by decide) ha, toNat_shiftLeft_byte (by decide) hr,
    toNat_shiftLeft_byte (by decide) hg, Nat.or_assoc, Nat.or_assoc]
  show a.toNat <<< 24 ||| (r.toNat <<< 16 ||| (g.toNat <<< 8 ||| b.toNat)) = _
  have h8 : g.toNat <<< 8 + b.toNat < 2 ^ 16 := by rw [Nat.shiftLeft_eq]; omega
  have h16 : r.toNat <<< 16 + (g.toNat <<< 8 + b.toNat) < 2 ^ 24 := by
    rw [Nat.shiftLeft_eq, Nat.shiftLeft_eq]
    omega
  have hor : g.toNat <<< 8 ||| b.toNat = g.toNat <<< 8 + b.toNat :=
    (Nat.shiftLeft_add_eq_or_of_lt hb _).symm
  rw [hor, ← Nat.shiftLeft_add_eq_or_of_lt h8, ← Nat.shiftLeft_add_eq_or_of_lt h16]
  simp only [Nat.shiftLeft_eq]

/-- The four channels of a word, as numbers. -/
def alpha (p : UInt32) : ℕ := (channel p 24).toNat

def red (p : UInt32) : ℕ := (channel p 16).toNat

def green (p : UInt32) : ℕ := (channel p 8).toNat

def blue (p : UInt32) : ℕ := (p &&& 0xff).toNat

theorem alpha_eq (p : UInt32) : alpha p = p.toNat / 2 ^ 24 % 256 := toNat_channel p (by decide)

theorem red_eq (p : UInt32) : red p = p.toNat / 2 ^ 16 % 256 := toNat_channel p (by decide)

theorem green_eq (p : UInt32) : green p = p.toNat / 2 ^ 8 % 256 := toNat_channel p (by decide)

theorem blue_eq (p : UInt32) : blue p = p.toNat % 256 := toNat_and_ff p

/-- A word is its channels. -/
theorem ext_channels {p q : UInt32} (ha : alpha p = alpha q) (hr : red p = red q)
    (hg : green p = green q) (hb : blue p = blue q) : p = q := by
  rw [alpha_eq, alpha_eq] at ha
  rw [red_eq, red_eq] at hr
  rw [green_eq, green_eq] at hg
  rw [blue_eq, blue_eq] at hb
  have hp := p.toNat_lt
  have hq := q.toNat_lt
  rw [← UInt32.toNat_inj]
  omega

theorem channels_pack {a r g b : UInt32} (ha : a.toNat < 256) (hr : r.toNat < 256)
    (hg : g.toNat < 256) (hb : b.toNat < 256) :
    alpha (pack a r g b) = a.toNat ∧ red (pack a r g b) = r.toNat ∧
      green (pack a r g b) = g.toNat ∧ blue (pack a r g b) = b.toNat := by
  rw [alpha_eq, red_eq, green_eq, blue_eq, toNat_pack ha hr hg hb]
  omega

/-! ### Painting -/

namespace Surface

variable {s : Surface}

/-- The word of a pixel. -/
def pixelAt (s : Surface) (x y : ℕ) : UInt32 := s.words (y * s.stride + x)

structure SameShape (s s' : Surface) : Prop where
  width : s'.width = s.width
  height : s'.height = s.height
  stride : s'.stride = s.stride

theorem SameShape.trans {s' s'' : Surface} (h : SameShape s s') (h' : SameShape s' s'') :
    SameShape s s'' :=
  ⟨h'.width.trans h.width, h'.height.trans h.height, h'.stride.trans h.stride⟩

theorem SameShape.inside {s' : Surface} (h : SameShape s s') (i : ℕ) :
    s'.inside i = s.inside i := by
  rw [Surface.inside, Surface.inside, h.width, h.height, h.stride]

/-- Writes to places that differ, each of what its own word gives. -/
theorem foldlM_put {ι : Type*} {addr : ι → ℕ} {pixel : ι → UInt32 → Option UInt32}
    {g : ι → UInt32} {l : List ι} {s : Surface} (hnodup : (l.map addr).Nodup)
    (hin : ∀ i ∈ l, s.inside (addr i)) (hpixel : ∀ i ∈ l, pixel i (s.words (addr i)) = some (g i)) :
    ∃ s', l.foldlM (fun t i => t.put (addr i) (pixel i)) s = some s' ∧ SameShape s s' ∧
      (∀ i ∈ l, s'.words (addr i) = g i) ∧
        ∀ j, (∀ i ∈ l, addr i ≠ j) → s'.words j = s.words j := by
  induction l generalizing s with
  | nil => exact ⟨s, rfl, ⟨rfl, rfl, rfl⟩, nofun, fun _ _ => rfl⟩
  | cons i l ih =>
    obtain ⟨hnew, hnodup⟩ := List.nodup_cons.mp hnodup
    have hne (k : ι) (hk : k ∈ l) : addr k ≠ addr i := fun h => hnew (h ▸ List.mem_map_of_mem hk)
    have hput : s.put (addr i) (pixel i) =
        some { s with words := Function.update s.words (addr i) (g i) } := by
      rw [put, if_pos (hin i List.mem_cons_self), hpixel i List.mem_cons_self]
      rfl
    have hshape : SameShape s { s with words := Function.update s.words (addr i) (g i) } :=
      ⟨rfl, rfl, rfl⟩
    obtain ⟨s', hs', hshape', hat, hrest⟩ := ih
      (s := { s with words := Function.update s.words (addr i) (g i) }) hnodup
      (fun k hk => (hshape.inside _).trans (hin k (List.mem_cons_of_mem _ hk)))
      (fun k hk => by
        dsimp only
        rw [Function.update_of_ne (hne k hk)]
        exact hpixel k (List.mem_cons_of_mem _ hk))
    refine ⟨s', ?_, hshape.trans hshape', ?_, ?_⟩
    · rw [List.foldlM_cons, hput]
      exact hs'
    · refine List.forall_mem_cons.mpr ⟨?_, hat⟩
      rw [hrest _ hne]
      exact Function.update_self ..
    · intro j hj
      obtain ⟨hij, hj⟩ := List.forall_mem_cons.mp hj
      rw [hrest j hj]
      exact Function.update_of_ne (Ne.symm hij) ..

theorem mem_places {w h : ℕ} {p : ℕ × ℕ} : p ∈ places w h ↔ p.1 < w ∧ p.2 < h := by
  obtain ⟨x, y⟩ := p
  simp [places, and_comm]

theorem nodup_places (w h : ℕ) : (places w h).Nodup := by
  refine List.nodup_flatMap.mpr ⟨fun y _ => ?_, ?_⟩
  · exact List.nodup_range.map fun x x' hx => (Prod.mk.inj hx).1
  · refine List.nodup_range.imp fun {y y'} hy => ?_
    rintro ⟨x, z⟩ hx hx'
    obtain ⟨_, _, hp⟩ := List.mem_map.mp hx
    obtain ⟨_, _, hp'⟩ := List.mem_map.mp hx'
    exact hy ((Prod.mk.inj hp).2.trans (Prod.mk.inj hp').2.symm)

/-- The address of a pixel gives back its place. -/
theorem addr_inj {stride x y x' y' : ℕ} (hx : x < stride) (hx' : x' < stride)
    (h : y * stride + x = y' * stride + x') : x = x' ∧ y = y' := by
  have hmod := congrArg (· % stride) h
  have hdiv := congrArg (· / stride) h
  have hpos : 0 < stride := Nat.zero_lt_of_lt hx
  simp only [Nat.mul_add_mod_self_right, Nat.mod_eq_of_lt hx, Nat.mod_eq_of_lt hx'] at hmod
  rw [Nat.add_comm, Nat.add_comm (y' * stride)] at hdiv
  simp only [Nat.add_mul_div_right _ _ hpos, Nat.div_eq_of_lt hx, Nat.div_eq_of_lt hx',
    Nat.zero_add] at hdiv
  exact ⟨hmod, hdiv⟩

theorem inside_of_lt {x y : ℕ} (hx : x < s.width) (hy : y < s.height) :
    s.inside (y * s.stride + x) = true := by
  have hlt : x < s.stride := hx.trans_le s.width_le
  have hpos : 0 < s.stride := Nat.zero_lt_of_lt hlt
  rw [inside, Bool.and_eq_true, decide_eq_true_eq, decide_eq_true_eq,
    Nat.mul_add_mod_self_right, Nat.mod_eq_of_lt hlt, Nat.add_comm,
    Nat.add_mul_div_right _ _ hpos, Nat.div_eq_of_lt hlt, Nat.zero_add]
  exact ⟨hx, hy⟩

/-- A painted rectangle holds the painted pixels, and nothing else changes. -/
theorem paint_spec (s : Surface) (x₀ y₀ w h : ℕ) (pixel : ℕ → ℕ → UInt32 → Option UInt32)
    (g : ℕ → ℕ → UInt32) (hw : x₀ + w ≤ s.width) (hh : y₀ + h ≤ s.height)
    (hpixel : ∀ x < w, ∀ y < h, pixel x y (s.pixelAt (x + x₀) (y + y₀)) = some (g x y)) :
    ∃ s', s.paint x₀ y₀ w h pixel = some s' ∧ SameShape s s' ∧
      (∀ x < w, ∀ y < h, s'.pixelAt (x + x₀) (y + y₀) = g x y) ∧
        ∀ x < s.stride, ∀ y, (∀ dx < w, ∀ dy < h, ¬ (dx + x₀ = x ∧ dy + y₀ = y)) →
          s'.pixelAt x y = s.pixelAt x y := by
  have hlt (p : ℕ × ℕ) (hp : p ∈ places w h) : p.1 + x₀ < s.width ∧ p.2 + y₀ < s.height := by
    have := mem_places.mp hp
    omega
  have hstride (p : ℕ × ℕ) (hp : p ∈ places w h) : p.1 + x₀ < s.stride :=
    (hlt p hp).1.trans_le s.width_le
  obtain ⟨s', hs', hshape, hat, hrest⟩ := foldlM_put (s := s) (l := places w h)
    (g := fun p => g p.1 p.2)
    ((nodup_places w h).map_on fun p hp q hq hpq => by
      obtain ⟨h₁, h₂⟩ := addr_inj (hstride p hp) (hstride q hq) hpq
      exact Prod.ext (Nat.add_right_cancel h₁) (Nat.add_right_cancel h₂))
    (fun p hp => inside_of_lt (hlt p hp).1 (hlt p hp).2)
    (fun p hp => hpixel p.1 (mem_places.mp hp).1 p.2 (mem_places.mp hp).2)
  refine ⟨s', hs', hshape, fun x hx y hy => ?_, fun x hx y hxy => ?_⟩
  · rw [pixelAt, hshape.stride]
    exact hat (x, y) (mem_places.mpr ⟨hx, hy⟩)
  · rw [pixelAt, pixelAt, hshape.stride]
    refine hrest _ fun p hp heq => ?_
    obtain ⟨hp₁, hp₂⟩ := mem_places.mp hp
    exact hxy p.1 hp₁ p.2 hp₂ (addr_inj (hstride p hp) hx heq)

end Surface

/-! ### The turned frame -/

variable {img : Bitmap} {rot : Rotation}

theorem mirror_eq {len i : ℕ} (h : i < len) : mirror len i = some (len - 1 - i) := if_pos h

/-- A pixel of the turned frame comes from one of the frame. -/
theorem unturned_spec {f : Frame} {rx ry : ℕ} (hx : rx < (Renderer.turnedSize f rot).1)
    (hy : ry < (Renderer.turnedSize f rot).2) :
    ∃ sx sy, unturned f rot rx ry = some (sx, sy) ∧ sx < f.width ∧ sy < f.height := by
  cases rot with
  | k0 => exact ⟨rx, ry, rfl, hx, hy⟩
  | k90 =>
    have hx : rx < f.height := hx
    have hy : ry < f.width := hy
    exact ⟨ry, f.height - 1 - rx, by rw [unturned, mirror_eq hx]; rfl, hy, by omega⟩
  | k180 =>
    have hx : rx < f.width := hx
    have hy : ry < f.height := hy
    exact ⟨f.width - 1 - rx, f.height - 1 - ry,
      by rw [unturned, mirror_eq hx, mirror_eq hy]; rfl, by omega, by omega⟩
  | k270 =>
    have hx : rx < f.height := hx
    have hy : ry < f.width := hy
    exact ⟨f.width - 1 - ry, rx, by rw [unturned, mirror_eq hy]; rfl, by omega, hx⟩

theorem sampleRotated_isSome {rx ry : ℕ} (hx : rx < (Renderer.turnedSize img.frame rot).1)
    (hy : ry < (Renderer.turnedSize img.frame rot).2) :
    ∃ p ∈ img.pixels, sampleRotated img rot rx ry = some p := by
  obtain ⟨sx, sy, hsrc, hsx, hsy⟩ := unturned_spec hx hy
  have hlt : sy * img.frame.width + sx < img.pixels.length := by
    rw [img.length_pixels, Nat.mul_comm img.frame.width]
    calc sy * img.frame.width + sx < (sy + 1) * img.frame.width := by rw [Nat.succ_mul]; omega
      _ ≤ img.frame.height * img.frame.width := Nat.mul_le_mul_right _ hsy
  refine ⟨_, List.getElem_mem hlt, ?_⟩
  rw [sampleRotated, hsrc]
  exact List.getElem?_eq_getElem hlt

/-! ### Boxes -/

theorem mem_boxCells {step d s : ℕ} :
    s ∈ boxCells step d ↔ d * step < (s + 1) * 2 ^ 8 ∧ s * 2 ^ 8 < d * step + step := by
  rw [boxCells, List.mem_range'_1]
  generalize d * step = start
  omega

theorem boxCells_ne_nil {step d : ℕ} (hstep : 0 < step) : boxCells step d ≠ [] := by
  refine List.ne_nil_of_mem (a := d * step / 2 ^ 8) (mem_boxCells.mpr ?_)
  generalize d * step = start
  omega

theorem cellWeight_pos {step d s : ℕ} (hstep : 0 < step) (hs : s ∈ boxCells step d) :
    0 < cellWeight step d s := by
  rw [mem_boxCells] at hs
  rw [cellWeight]
  generalize d * step = start at hs ⊢
  omega

theorem le_axisStep {rot dst : ℕ} (hdst : 0 < dst) (hle : dst ≤ rot) :
    2 ^ 8 ≤ axisStep rot dst := by
  rw [axisStep, Nat.le_div_iff_mul_le hdst, Nat.mul_comm]
  exact Nat.mul_le_mul_right _ hle

theorem axisStep_pos {rot dst : ℕ} (hdst : 0 < dst) (hle : dst ≤ rot) : 0 < axisStep rot dst :=
  (by decide : 0 < 2 ^ 8).trans_le (le_axisStep hdst hle)

/-- The boxes of a sprite lie on the turned frame. -/
theorem lt_of_mem_boxCells {rot dst d s : ℕ} (hd : d < dst)
    (hs : s ∈ boxCells (axisStep rot dst) d) : s < rot := by
  have hlt := (mem_boxCells.mp hs).2
  have hend : s * 2 ^ 8 < rot * 2 ^ 8 :=
    calc s * 2 ^ 8 < (d + 1) * axisStep rot dst := by rwa [Nat.succ_mul]
      _ ≤ dst * axisStep rot dst := Nat.mul_le_mul_right _ hd
      _ ≤ rot * 2 ^ 8 := Nat.mul_div_le _ _
  exact Nat.lt_of_mul_lt_mul_right hend

/-! ### Means -/

/-- What a channel sums to over weighted pixels. -/
def weighted (channel : UInt32 → ℕ) (cells : List (ℕ × UInt32)) : ℕ :=
  (cells.map fun c => c.1 * channel c.2).sum

def totalWeight (cells : List (ℕ × UInt32)) : ℕ := (cells.map Prod.fst).sum

/-- The mean of a channel, to nearest. -/
def average (channel : UInt32 → ℕ) (cells : List (ℕ × UInt32)) : ℕ :=
  (weighted channel cells + totalWeight cells / 2) / totalWeight cells

theorem average_const {channel : UInt32 → ℕ} {cells : List (ℕ × UInt32)} {k : ℕ}
    (hpos : 0 < totalWeight cells) (hk : ∀ c ∈ cells, channel c.2 = k) :
    average channel cells = k := by
  have hsum : weighted channel cells = totalWeight cells * k := by
    rw [weighted, totalWeight, ← List.sum_map_mul_right]
    exact congrArg List.sum (List.map_congr_left fun c hc => by rw [hk c hc])
  rw [average, hsum, Nat.mul_add_div hpos, Nat.div_eq_of_lt (by omega), Nat.add_zero]

theorem average_mono {channel channel' : UInt32 → ℕ} {cells : List (ℕ × UInt32)}
    (hle : ∀ c ∈ cells, channel c.2 ≤ channel' c.2) :
    average channel cells ≤ average channel' cells :=
  Nat.div_le_div_right <| Nat.add_le_add_right
    (List.sum_le_sum fun c hc => Nat.mul_le_mul_left _ (hle c hc)) _

theorem channel_le (p : UInt32) : alpha p ≤ 255 ∧ red p ≤ 255 ∧ green p ≤ 255 ∧ blue p ≤ 255 := by
  rw [alpha_eq, red_eq, green_eq, blue_eq]
  omega

def BoxSums.addAll (acc : BoxSums) (cells : List (ℕ × UInt32)) : BoxSums :=
  cells.foldl (fun acc c => BoxSums.add acc c.1 c.2) acc

theorem BoxSums.addAll_eq (acc : BoxSums) (cells : List (ℕ × UInt32)) :
    acc.addAll cells =
      { a := acc.a + weighted alpha cells
        r := acc.r + weighted red cells
        g := acc.g + weighted green cells
        b := acc.b + weighted blue cells
        w := acc.w + totalWeight cells } := by
  induction cells generalizing acc with
  | nil => rfl
  | cons c cells ih =>
    rw [addAll, List.foldl_cons, ← addAll, ih]
    simp only [BoxSums.add, weighted, totalWeight, List.map_cons, List.sum_cons, Nat.add_assoc]
    rfl

/-- No sum overflows a byte once it is divided. -/
theorem BoxSums.mean_addAll {cells : List (ℕ × UInt32)} (hpos : 0 < totalWeight cells) :
    ∃ q, (BoxSums.addAll {} cells).mean = some q ∧
      alpha q = average alpha cells ∧ red q = average red cells ∧
        green q = average green cells ∧ blue q = average blue cells := by
  have hbyte {channel : UInt32 → ℕ} (h : ∀ p, channel p ≤ 255) :
      (UInt32.ofNat (average channel cells)).toNat = average channel cells ∧
        average channel cells < 256 := by
    have hle : average channel cells ≤ 255 :=
      calc average channel cells ≤ average (fun _ => 255) cells := average_mono fun c _ => h c.2
        _ = 255 := average_const hpos fun _ _ => rfl
    refine ⟨?_, Nat.lt_succ_of_le hle⟩
    rw [UInt32.toNat_ofNat', Nat.mod_eq_of_lt (by omega)]
  obtain ⟨ha, ha'⟩ := hbyte fun p => (channel_le p).1
  obtain ⟨hr, hr'⟩ := hbyte fun p => (channel_le p).2.1
  obtain ⟨hg, hg'⟩ := hbyte fun p => (channel_le p).2.2.1
  obtain ⟨hb, hb'⟩ := hbyte fun p => (channel_le p).2.2.2
  obtain ⟨h₁, h₂, h₃, h₄⟩ := channels_pack (ha.symm ▸ ha') (hr.symm ▸ hr') (hg.symm ▸ hg')
    (hb.symm ▸ hb')
  rw [addAll_eq]
  simp only [BoxSums.mean, Nat.zero_add, if_neg hpos.ne']
  exact ⟨_, rfl, h₁.trans ha, h₂.trans hr, h₃.trans hg, h₄.trans hb⟩

/-! ### The sprite -/

/-- No colour is above the alpha. -/
structure Premultiplied (p : UInt32) : Prop where
  red : red p ≤ alpha p
  green : green p ≤ alpha p
  blue : blue p ≤ alpha p

/-- What a mixture of pixels keeps of them. -/
structure Mixes (pixels : List UInt32) (q : UInt32) : Prop where
  uniform : ∀ c, (∀ p ∈ pixels, p = c) → q = c
  premultiplied : (∀ p ∈ pixels, Premultiplied p) → Premultiplied q

theorem mixes_of_mem {pixels : List UInt32} {q : UInt32} (hq : q ∈ pixels) : Mixes pixels q :=
  ⟨fun _ h => h q hq, fun h => h q hq⟩

/-- The cells of a box, each with its weight. -/
def boxWeights (fx fy dx dy : ℕ) (pixel : ℕ → ℕ → UInt32) : List (ℕ × UInt32) :=
  (boxCells fy dy).flatMap fun sy =>
    (boxCells fx dx).map fun sx => (cellWeight fx dx sx * cellWeight fy dy sy, pixel sx sy)

variable {fx fy dx dy : ℕ} {pixel : ℕ → ℕ → UInt32}

theorem mem_boxWeights {c : ℕ × UInt32} : c ∈ boxWeights fx fy dx dy pixel ↔
    ∃ sy ∈ boxCells fy dy, ∃ sx ∈ boxCells fx dx,
      (cellWeight fx dx sx * cellWeight fy dy sy, pixel sx sy) = c := by
  simp only [boxWeights, List.mem_flatMap, List.mem_map]

/-- Every cell of a box counts. -/
theorem boxWeights_pos (hfx : 0 < fx) (hfy : 0 < fy) :
    (∀ c ∈ boxWeights fx fy dx dy pixel, 0 < c.1) ∧
      0 < totalWeight (boxWeights fx fy dx dy pixel) := by
  have hpos (c : ℕ × UInt32) (hc : c ∈ boxWeights fx fy dx dy pixel) : 0 < c.1 := by
    obtain ⟨sy, hsy, sx, hsx, rfl⟩ := mem_boxWeights.mp hc
    exact Nat.mul_pos (cellWeight_pos hfx hsx) (cellWeight_pos hfy hsy)
  refine ⟨hpos, List.sum_pos _ (List.forall_mem_map.mpr hpos) ?_⟩
  obtain ⟨sy, hsy⟩ := List.exists_mem_of_ne_nil _ (boxCells_ne_nil (d := dy) hfy)
  obtain ⟨sx, hsx⟩ := List.exists_mem_of_ne_nil _ (boxCells_ne_nil (d := dx) hfx)
  exact List.ne_nil_of_mem (List.mem_map_of_mem (mem_boxWeights.mpr ⟨sy, hsy, sx, hsx, rfl⟩))

/-- A box of readable pixels is the mean of them all. -/
theorem boxPixel_eq (hread : ∀ sx ∈ boxCells fx dx, ∀ sy ∈ boxCells fy dy,
      sampleRotated img rot sx sy = some (pixel sx sy)) :
    boxPixel img rot fx fy dx dy = (BoxSums.addAll {} (boxWeights fx fy dx dy pixel)).mean := by
  have hrow (sy : ℕ) (hsy : sy ∈ boxCells fy dy) (acc : BoxSums) :
      (boxCells fx dx).foldlM (fun acc sx => do
          let p ← sampleRotated img rot sx sy
          some (BoxSums.add acc (cellWeight fx dx sx * cellWeight fy dy sy) p)) acc =
        some (acc.addAll ((boxCells fx dx).map fun sx =>
          (cellWeight fx dx sx * cellWeight fy dy sy, pixel sx sy))) := by
    rw [BoxSums.addAll, List.foldl_map]
    exact Lib.foldlM_eq_foldl (fun sx hsx acc => by rw [hread sx hsx sy hsy]; rfl) acc
  rw [boxPixel, Lib.foldlM_eq_foldl hrow, BoxSums.addAll, boxWeights, List.foldl_flatMap]
  rfl

theorem boxPixel_mixes (hfx : 0 < fx) (hfy : 0 < fy)
    (hread : ∀ sx ∈ boxCells fx dx, ∀ sy ∈ boxCells fy dy,
      ∃ p ∈ img.pixels, sampleRotated img rot sx sy = some p) :
    ∃ q, boxPixel img rot fx fy dx dy = some q ∧ Mixes img.pixels q := by
  set pixel : ℕ → ℕ → UInt32 := fun sx sy => (sampleRotated img rot sx sy).getD 0 with hpixel
  set cells := boxWeights fx fy dx dy pixel with hcells
  have hget (sx : ℕ) (hsx : sx ∈ boxCells fx dx) (sy : ℕ) (hsy : sy ∈ boxCells fy dy) :
      sampleRotated img rot sx sy = some (pixel sx sy) ∧ pixel sx sy ∈ img.pixels := by
    obtain ⟨p, hp, hsample⟩ := hread sx hsx sy hsy
    simp only [hpixel, hsample, Option.getD_some, true_and]
    exact hp
  have hmem (c : ℕ × UInt32) (hc : c ∈ cells) : c.2 ∈ img.pixels := by
    obtain ⟨sy, hsy, sx, hsx, rfl⟩ := mem_boxWeights.mp hc
    exact (hget sx hsx sy hsy).2
  have htotal : 0 < totalWeight cells := (boxWeights_pos hfx hfy).2
  obtain ⟨q, hq, ha, hr, hg, hb⟩ := BoxSums.mean_addAll htotal
  refine ⟨q, ?_, ⟨fun c hc => ?_, fun hpre => ?_⟩⟩
  · rw [boxPixel_eq fun sx hsx sy hsy => (hget sx hsx sy hsy).1]
    exact hq
  · have hconst {channel : UInt32 → ℕ} : average channel cells = channel c :=
      average_const htotal fun p hp => by rw [hc p.2 (hmem p hp)]
    exact ext_channels (ha.trans hconst) (hr.trans hconst) (hg.trans hconst) (hb.trans hconst)
  · constructor
    · rw [hr, ha]
      exact average_mono fun c hc => (hpre c.2 (hmem c hc)).red
    · rw [hg, ha]
      exact average_mono fun c hc => (hpre c.2 (hmem c hc)).green
    · rw [hb, ha]
      exact average_mono fun c hc => (hpre c.2 (hmem c hc)).blue

/-! ### The size of the sprite -/

/-- A length that was shrunk, if need be, from `rot` to fit `len`. -/
structure Fitted (rot dst len : ℕ) : Prop where
  pos : 0 < dst
  le_rot : dst ≤ rot
  le_len : dst ≤ len

/-- One axis of `blit_frame`'s shrink. -/
theorem fitted_scaled {rot len r : ℕ} (hrot : 0 < rot) (hlen : 0 < len) (hr : r ≤ 2 ^ 16) :
    Fitted rot
      (if min ((rot * r + 2 ^ 15) / 2 ^ 16) len = 0 then 1
        else min ((rot * r + 2 ^ 15) / 2 ^ 16) len) len := by
  have hle : (rot * r + 2 ^ 15) / 2 ^ 16 ≤ rot := by
    have hmul : rot * r ≤ rot * 2 ^ 16 := Nat.mul_le_mul_left _ hr
    omega
  split
  · exact ⟨Nat.one_pos, hrot, hlen⟩
  · rename_i hne
    exact ⟨Nat.pos_of_ne_zero hne, (Nat.min_le_left _ _).trans hle, Nat.min_le_right _ _⟩

variable {f : Frame} {width height : ℕ}

theorem needsDownscale_iff : needsDownscale f rot width height = true ↔
    width < (Renderer.turnedSize f rot).1 ∨ height < (Renderer.turnedSize f rot).2 := by
  simp [needsDownscale]

theorem turnedSize_pos (rot : Rotation) (hw : 0 < f.width) (hh : 0 < f.height) :
    0 < (Renderer.turnedSize f rot).1 ∧ 0 < (Renderer.turnedSize f rot).2 := by
  rw [Renderer.turnedSize]
  split <;> exact ⟨by assumption, by assumption⟩

/-- A frame that fits keeps its size. -/
theorem blitSize_of_fits (h : needsDownscale f rot width height = false) :
    Renderer.blitSize f rot width height = Renderer.turnedSize f rot := by
  have hfits := mt needsDownscale_iff.mpr (Bool.eq_false_iff.mp h)
  rw [Renderer.blitSize]
  dsimp only
  rw [if_neg hfits]
  exact Prod.ext (by dsimp only; omega) (by dsimp only; omega)

theorem blitSize_fitted (rot : Rotation) (hfw : 0 < f.width) (hfh : 0 < f.height)
    (hw : 0 < width) (hh : 0 < height) :
    Fitted (Renderer.turnedSize f rot).1 (Renderer.blitSize f rot width height).1 width ∧
      Fitted (Renderer.turnedSize f rot).2 (Renderer.blitSize f rot width height).2 height := by
  obtain ⟨hrotW, hrotH⟩ := turnedSize_pos rot hfw hfh
  cases hscale : needsDownscale f rot width height with
  | false =>
    have hfits := mt needsDownscale_iff.mpr (Bool.eq_false_iff.mp hscale)
    rw [blitSize_of_fits hscale]
    exact ⟨⟨hrotW, le_rfl, by omega⟩, ⟨hrotH, le_rfl, by omega⟩⟩
  | true =>
    have hlarge := needsDownscale_iff.mp hscale
    -- the axis that does not fit has a ratio below one
    have hratio : min (width * 2 ^ 16 / (Renderer.turnedSize f rot).1)
        (height * 2 ^ 16 / (Renderer.turnedSize f rot).2) ≤ 2 ^ 16 := by
      rcases hlarge with h | h
      · refine (Nat.min_le_left _ _).trans (Nat.div_le_of_le_mul ?_)
        exact Nat.mul_le_mul_right _ h.le
      · refine (Nat.min_le_right _ _).trans (Nat.div_le_of_le_mul ?_)
        exact Nat.mul_le_mul_right _ h.le
    rw [Renderer.blitSize]
    dsimp only
    rw [if_pos hlarge]
    exact ⟨fitted_scaled hrotW hw hratio, fitted_scaled hrotH hh hratio⟩

/-! ### The blit -/

/-- A pixel of the sprite mixes pixels of the frame. -/
theorem spritePixel_mixes (rot : Rotation) {dx dy : ℕ} (hfw : 0 < img.frame.width)
    (hfh : 0 < img.frame.height) (hw : 0 < width) (hh : 0 < height)
    (hdx : dx < (Renderer.blitSize img.frame rot width height).1)
    (hdy : dy < (Renderer.blitSize img.frame rot width height).2) :
    ∃ q, spritePixel img rot width height dx dy = some q ∧ Mixes img.pixels q := by
  obtain ⟨hfitW, hfitH⟩ := blitSize_fitted rot hfw hfh hw hh
  cases hscale : needsDownscale img.frame rot width height with
  | true =>
    simp only [spritePixel, hscale, if_true]
    refine boxPixel_mixes (axisStep_pos hfitW.pos hfitW.le_rot)
      (axisStep_pos hfitH.pos hfitH.le_rot) fun sx hsx sy hsy => ?_
    exact sampleRotated_isSome (lt_of_mem_boxCells hdx hsx) (lt_of_mem_boxCells hdy hsy)
  | false =>
    rw [blitSize_of_fits hscale] at hdx hdy
    obtain ⟨p, hp, hsample⟩ := sampleRotated_isSome hdx hdy
    refine ⟨p, ?_, mixes_of_mem hp⟩
    simp only [spritePixel, hscale, Bool.false_eq_true, if_false]
    split
    · rename_i hrot
      rw [← hsample, hrot]
      rfl
    · exact hsample

/-- The buffer after a blit: the sprite in its middle, and nothing around it. -/
structure Blitted (img : Bitmap) (rot : Rotation) (fourcc : UInt32) (s s' : Surface) : Prop where
  shape : Surface.SameShape s s'
  sprite : let blit := Renderer.blitSize img.frame rot s.width s.height
    ∀ dx < blit.1, ∀ dy < blit.2, ∃ q, spritePixel img rot s.width s.height dx dy = some q ∧
      Mixes img.pixels q ∧ s'.pixelAt (dx + (s.width - blit.1) / 2)
        (dy + (s.height - blit.2) / 2) = fromArgb q fourcc
  clear : let blit := Renderer.blitSize img.frame rot s.width s.height
    ∀ x < s.width, ∀ y < s.height,
      (∀ dx < blit.1, ∀ dy < blit.2,
        ¬ (dx + (s.width - blit.1) / 2 = x ∧ dy + (s.height - blit.2) / 2 = y)) →
      s'.pixelAt x y = 0

theorem fromArgb_argb8888 (p : UInt32) : fromArgb p Scene.drmFormatArgb8888 = p := by
  have hne : Scene.drmFormatArgb8888 ≠ drmFormatRgba8888 ∧
      Scene.drmFormatArgb8888 ≠ Scene.drmFormatAbgr8888 ∧
      Scene.drmFormatArgb8888 ≠ drmFormatBgra8888 := by decide
  rw [fromArgb, if_neg hne.1, if_neg hne.2.1, if_neg hne.2.2]

/-- The wipe and the sprite, still in ARGB8888. -/
theorem paintSprite_spec (rot : Rotation) {s : Surface} (hfw : 0 < img.frame.width)
    (hfh : 0 < img.frame.height) (hw : 0 < s.width) (hh : 0 < s.height) :
    let blit := Renderer.blitSize img.frame rot s.width s.height
    ∃ s₁ s₂, s.paint 0 0 s.width s.height (fun _ _ _ => some 0) = some s₁ ∧
      s₁.paint ((s.width - blit.1) / 2) ((s.height - blit.2) / 2) blit.1 blit.2
        (fun dx dy _ => spritePixel img rot s₁.width s₁.height dx dy) = some s₂ ∧
      Surface.SameShape s s₁ ∧ Blitted img rot Scene.drmFormatArgb8888 s s₂ := by
  intro blit
  obtain ⟨hfitW, hfitH⟩ := blitSize_fitted rot hfw hfh hw hh
  have hx : (s.width - blit.1) / 2 + blit.1 ≤ s.width := by
    have hlen : blit.1 ≤ s.width := hfitW.le_len
    omega
  have hy : (s.height - blit.2) / 2 + blit.2 ≤ s.height := by
    have hlen : blit.2 ≤ s.height := hfitH.le_len
    omega
  obtain ⟨s₁, hs₁, hshape₁, hwiped, -⟩ := s.paint_spec 0 0 s.width s.height (fun _ _ _ => some 0)
    (fun _ _ => 0) (Nat.zero_add s.width).le (Nat.zero_add s.height).le fun _ _ _ _ => rfl
  have hsprite (dx : ℕ) (hdx : dx < blit.1) (dy : ℕ) (hdy : dy < blit.2) :
      ∃ q, spritePixel img rot s.width s.height dx dy = some q ∧ Mixes img.pixels q :=
    spritePixel_mixes rot hfw hfh hw hh hdx hdy
  obtain ⟨s₂, hs₂, hshape₂, hdrawn, hrest⟩ := s₁.paint_spec ((s.width - blit.1) / 2)
    ((s.height - blit.2) / 2) blit.1 blit.2
    (fun dx dy _ => spritePixel img rot s₁.width s₁.height dx dy)
    (fun dx dy => (spritePixel img rot s.width s.height dx dy).getD 0)
    (by rwa [hshape₁.width]) (by rwa [hshape₁.height]) fun dx hdx dy hdy => by
      obtain ⟨q, hq, -⟩ := hsprite dx hdx dy hdy
      rw [hshape₁.width, hshape₁.height, hq]
      rfl
  refine ⟨s₁, s₂, hs₁, hs₂, hshape₁, hshape₁.trans hshape₂, fun dx hdx dy hdy => ?_,
    fun x hx y hy hout => ?_⟩
  · obtain ⟨q, hq, hmix⟩ := hsprite dx hdx dy hdy
    refine ⟨q, hq, hmix, ?_⟩
    rw [hdrawn dx hdx dy hdy, hq, fromArgb_argb8888]
    rfl
  · rw [hrest x (hshape₁.stride.symm ▸ hx.trans_le s.width_le) y hout]
    exact hwiped x hx y hy

/-- A blit of any frame into any buffer is defined. -/
theorem blitPixels_spec (rot : Rotation) (fourcc : UInt32) {s : Surface} (hfw : 0 < img.frame.width)
    (hfh : 0 < img.frame.height) (hw : 0 < s.width) (hh : 0 < s.height) :
    ∃ s', blitPixels img rot fourcc s = some s' ∧ Blitted img rot fourcc s s' := by
  obtain ⟨s₁, s₂, hs₁, hs₂, hshape₁, hdrawn⟩ := paintSprite_spec rot hfw hfh hw hh
  simp only [blitPixels, hs₁, Option.bind_eq_bind, Option.bind_some, hs₂]
  by_cases hfourcc : fourcc = Scene.drmFormatArgb8888
  · exact ⟨s₂, if_neg (not_not.mpr hfourcc), hfourcc ▸ hdrawn⟩
  rw [if_pos hfourcc]
  obtain ⟨hfitW, hfitH⟩ := blitSize_fitted rot hfw hfh hw hh
  have hlenW := hfitW.le_len
  have hlenH := hfitH.le_len
  obtain ⟨s₃, hs₃, hshape₃, hordered, hrest⟩ := s₂.paint_spec
    ((s.width - (Renderer.blitSize img.frame rot s.width s.height).1) / 2)
    ((s.height - (Renderer.blitSize img.frame rot s.width s.height).2) / 2)
    (Renderer.blitSize img.frame rot s.width s.height).1
    (Renderer.blitSize img.frame rot s.width s.height).2 (fun _ _ old => some (fromArgb old fourcc))
    (fun dx dy => fromArgb ((spritePixel img rot s.width s.height dx dy).getD 0) fourcc)
    (by rw [hdrawn.shape.width]; omega) (by rw [hdrawn.shape.height]; omega) fun dx hdx dy hdy => by
      obtain ⟨q, hq, -, hat⟩ := hdrawn.sprite dx hdx dy hdy
      rw [hat, hq, fromArgb_argb8888]
      rfl
  refine ⟨s₃, hs₃, hdrawn.shape.trans hshape₃, fun dx hdx dy hdy => ?_, fun x hx y hy hout => ?_⟩
  · obtain ⟨q, hq, hmix, -⟩ := hdrawn.sprite dx hdx dy hdy
    refine ⟨q, hq, hmix, ?_⟩
    rw [hordered dx hdx dy hdy, hq]
    rfl
  · rw [hrest x (hdrawn.shape.stride.symm ▸ hx.trans_le s.width_le) y hout]
    exact hdrawn.clear x hx y hy hout

end DrmCxx.Cursor
