import DrmCxx.Present.VkScanoutProducer
import DrmCxx.Verification.Ring.Display

/-!
# The slot a Vulkan producer draws into

The rotation over the images and the pair of dumb buffers: a free slot where there is one, and what
a submission, a failed render and a release leave of the free ones.
-/

namespace DrmCxx.Present

open Scene

namespace VkScanoutProducer

/-- The slot submitted last. -/
def lastSubmitted (p : VkScanoutProducer) : ℕ :=
  match p.tier with
  | .ring => p.lastSlot
  | .copy => p.copyNext ^^^ 1

/-- A tier with the slots it is made for: at least three images, or two dumb buffers. -/
def Sized (tier : ScanoutTier) (n : ℕ) : Prop :=
  match tier with
  | .ring => 3 ≤ n
  | .copy => n = 2

instance (tier : ScanoutTier) (n : ℕ) : Decidable (Sized tier n) :=
  match tier with
  | .ring => inferInstanceAs (Decidable (3 ≤ n))
  | .copy => inferInstanceAs (Decidable (n = 2))

structure Wf (p : VkScanoutProducer) : Prop where
  sized : Sized p.tier p.free.length
  last_lt : p.lastSlot < p.free.length
  copy_lt : p.copyNext < 2

theorem xor_one_cases {i : ℕ} (h : i < 2) : i = 0 ∧ i ^^^ 1 = 1 ∨ i = 1 ∧ i ^^^ 1 = 0 := by
  have : i = 0 ∨ i = 1 := by omega
  rcases this with rfl | rfl
  · exact .inl ⟨rfl, rfl⟩
  · exact .inr ⟨rfl, rfl⟩

/-- Every slot comes up in the rotation. -/
theorem exists_rotation {n i : ℕ} (last : ℕ) (hi : i < n) :
    ∃ k < n, (last + (k + 1)) % n = i := by
  have hm : (last + 1) % n < n := Nat.mod_lt _ (by omega)
  have hadd : ∀ k, (last + (k + 1)) % n = ((last + 1) % n + k) % n := fun k => by
    rw [Nat.mod_add_mod]
    congr 1
    omega
  rcases Nat.le_total ((last + 1) % n) i with h | h
  · refine ⟨i - (last + 1) % n, by omega, ?_⟩
    rw [hadd, Nat.add_sub_cancel' h, Nat.mod_eq_of_lt hi]
  · rcases Nat.eq_or_lt_of_le h with heq | hlt
    · exact ⟨0, by omega, by rw [hadd, Nat.add_zero, Nat.mod_mod, heq]⟩
    · refine ⟨i + n - (last + 1) % n, by omega, ?_⟩
      rw [hadd, show (last + 1) % n + (i + n - (last + 1) % n) = i + n by omega,
        Nat.add_mod_right, Nat.mod_eq_of_lt hi]

/-- The slot picked is free, or no slot is free and it is the next one. -/
theorem pickSlot_cases {p : VkScanoutProducer} (hn : p.free.length ≠ 0) :
    p.free[p.pickSlot]? = some true ∨
      true ∉ p.free ∧ p.pickSlot = (p.lastSlot + 1) % p.free.length := by
  cases h : (List.range p.free.length).find?
      fun k => p.free[(p.lastSlot + (k + 1)) % p.free.length]? = some true with
  | some k =>
    left
    simp only [pickSlot, if_neg hn, h]
    simpa using List.find?_some h
  | none =>
    right
    refine ⟨fun hmem => ?_, by simp only [pickSlot, if_neg hn, h]⟩
    obtain ⟨i, hi, hfree⟩ := List.mem_iff_getElem.mp hmem
    obtain ⟨k, hk, hki⟩ := exists_rotation p.lastSlot hi
    have hno := List.find?_eq_none.mp h k (List.mem_range.mpr hk)
    rw [hki, List.getElem?_eq_getElem hi, hfree] at hno
    exact hno (by simp)

theorem copyTarget_cases {p : VkScanoutProducer} (hn : p.free.length = 2) (hc : p.copyNext < 2) :
    p.free[p.copyTarget]? = some true ∨ true ∉ p.free ∧ p.copyTarget = p.copyNext := by
  rw [copyTarget]
  split
  · rename_i h
    exact .inl h.2
  · rename_i h
    by_cases hfree : p.free[p.copyNext]? = some true
    · exact .inl hfree
    · refine .inr ⟨fun hmem => ?_, rfl⟩
      have hother : p.free[p.copyNext ^^^ 1]? ≠ some true := fun ho => h ⟨hfree, ho⟩
      obtain ⟨i, hi, hget⟩ := List.mem_iff_getElem?.mp hmem |>.imp fun i hi =>
        (⟨(List.getElem?_eq_some_iff.mp hi).1, hi⟩ : i < p.free.length ∧ p.free[i]? = some true)
      rcases xor_one_cases hc with ⟨h0, hx⟩ | ⟨h0, hx⟩ <;> rw [hx] at hother <;>
        rw [h0] at hfree <;> have : i = 0 ∨ i = 1 := by omega
      all_goals rcases this with rfl | rfl <;> contradiction

/-- What `render` falls back on is never the slot submitted last. -/
structure TargetSpec (p : VkScanoutProducer) : Prop where
  lt : p.target < p.free.length
  free : p.free[p.target]? = some true ∨ true ∉ p.free ∧ p.target ≠ p.lastSubmitted

theorem targetSpec {p : VkScanoutProducer} (h : p.Wf) : p.TargetSpec := by
  have hsized := h.sized
  have hlast := h.last_lt
  cases ht : p.tier with
  | ring =>
    rw [ht] at hsized
    have hn : 3 ≤ p.free.length := hsized
    have htarget : p.target = p.pickSlot := by simp [target, ht]
    have hsub : p.lastSubmitted = p.lastSlot := by simp [lastSubmitted, ht]
    rcases pickSlot_cases (p := p) (by omega) with hfree | ⟨hnone, hpick⟩
    · refine ⟨?_, .inl (htarget ▸ hfree)⟩
      rw [htarget]
      exact (List.getElem?_eq_some_iff.mp hfree).1
    · rw [← htarget] at hpick
      refine ⟨hpick ▸ Nat.mod_lt _ (by omega), .inr ⟨hnone, ?_⟩⟩
      rw [hpick, hsub]
      rcases Nat.lt_or_ge (p.lastSlot + 1) p.free.length with h | h
      · rw [Nat.mod_eq_of_lt h]
        omega
      · rw [show p.lastSlot + 1 = p.free.length by omega, Nat.mod_self]
        omega
  | copy =>
    rw [ht] at hsized
    have hn : p.free.length = 2 := hsized
    have htarget : p.target = p.copyTarget := by simp [target, ht]
    have hsub : p.lastSubmitted = p.copyNext ^^^ 1 := by simp [lastSubmitted, ht]
    rcases copyTarget_cases hn h.copy_lt with hfree | ⟨hnone, hpick⟩
    · refine ⟨?_, .inl (htarget ▸ hfree)⟩
      rw [htarget]
      exact (List.getElem?_eq_some_iff.mp hfree).1
    · rw [← htarget] at hpick
      refine ⟨by rw [hpick, hn]; exact h.copy_lt, .inr ⟨hnone, ?_⟩⟩
      rw [hpick, hsub]
      rcases xor_one_cases h.copy_lt with ⟨h0, hx⟩ | ⟨h0, hx⟩ <;> omega

theorem wf_create {tier : ScanoutTier} {slots : List FbId} (h : Sized tier slots.length) :
    (create tier slots).Wf where
  sized := by simpa [create] using h
  last_lt := by
    cases tier with
    | ring =>
      have : 3 ≤ slots.length := h
      simp [create]
      omega
    | copy =>
      have : slots.length = 2 := h
      simp [create, this]
  copy_lt := by simp [create]

theorem wf_submit {p : VkScanoutProducer} (h : p.Wf) {index : ℕ} (hi : index < p.free.length)
    (fence : Option SyncFence) : (p.submit index fence).Wf := by
  have hsized := h.sized
  cases ht : p.tier with
  | ring => exact ⟨by simpa [submit, ht] using h.sized, by simpa [submit, ht] using hi,
      by simpa [submit, ht] using h.copy_lt⟩
  | copy =>
    have hn : p.free.length = 2 := by
      rw [ht] at hsized
      exact hsized
    refine ⟨by simpa [submit, ht] using h.sized, by simpa [submit, ht] using h.last_lt, ?_⟩
    simp only [submit, ht]
    rcases xor_one_cases (i := index) (by omega) with ⟨-, hx⟩ | ⟨-, hx⟩ <;> omega

theorem lastSubmitted_submit {p : VkScanoutProducer} {index : ℕ} (h : p.Wf)
    (hi : index < p.free.length) (fence : Option SyncFence) :
    (p.submit index fence).lastSubmitted = index := by
  have hsized := h.sized
  cases ht : p.tier with
  | ring => simp [submit, lastSubmitted, ht]
  | copy =>
    have hn : p.free.length = 2 := by
      rw [ht] at hsized
      exact hsized
    simp only [submit, lastSubmitted, ht]
    rcases xor_one_cases (i := index) (by omega) with ⟨rfl, hx⟩ | ⟨rfl, hx⟩ <;> simp

theorem abandon_of_ring {p : VkScanoutProducer} (h : p.tier = .ring) (index : ℕ) :
    p.abandon index = { p with free := p.free.set index false, lastSlot := index } := by
  simp [abandon, h]

theorem wf_abandon {p : VkScanoutProducer} (h : p.Wf) {index : ℕ} (hi : index < p.free.length) :
    (p.abandon index).Wf := by
  cases ht : p.tier with
  | ring =>
    rw [abandon_of_ring ht]
    exact ⟨by simpa using h.sized, by simpa using hi, h.copy_lt⟩
  | copy => simpa [abandon, ht] using h

/-- What a submission leaves of the rest. -/
theorem submit_spec {p : VkScanoutProducer} {index : ℕ} (hi : index < p.ring.slots.length)
    (fence : Option SyncFence) :
    (p.submit index fence).free = p.free.set index false ∧
      ∃ f, (p.submit index fence).ring =
        { p.ring with presenter := p.ring.presenter.submit index f [] } := by
  have hring : ∀ f, p.ring.submit index f [] =
      { p.ring with presenter := p.ring.presenter.submit index f [] } := fun f =>
    if_neg (Nat.not_le.mpr hi)
  cases ht : p.tier with
  | ring => exact ⟨by simp [submit, ht], fence, by simp [submit, ht, hring]⟩
  | copy => exact ⟨by simp [submit, ht], none, by simp [submit, ht, hring]⟩

/-- The producer once the slot of an entry is free, with the entries `rest` left. -/
def released (p : VkScanoutProducer) (rest : List Outstanding) (key : SlotKey) :
    VkScanoutProducer :=
  onRelease { p with ring := Display.withOutstanding p.ring rest } key

@[simp] theorem released_free (p : VkScanoutProducer) (rest : List Outstanding) (key : SlotKey) :
    (p.released rest key).free = p.free.set key true := rfl

@[simp] theorem released_tier (p : VkScanoutProducer) (rest : List Outstanding) (key : SlotKey) :
    (p.released rest key).tier = p.tier := rfl

@[simp] theorem released_lastSlot (p : VkScanoutProducer) (rest : List Outstanding)
    (key : SlotKey) : (p.released rest key).lastSlot = p.lastSlot := rfl

@[simp] theorem released_ring (p : VkScanoutProducer) (rest : List Outstanding) (key : SlotKey) :
    (p.released rest key).ring = Display.withOutstanding p.ring rest := rfl

end VkScanoutProducer

end DrmCxx.Present
