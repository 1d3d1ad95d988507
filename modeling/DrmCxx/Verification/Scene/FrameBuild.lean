import DrmCxx.Scene.FrameBuild
import DrmCxx.Verification.Scene.Lifetime

/-!
# What a failed frame gives back

Every exit of a build either releases what the build acquired, hands it on in the returned state,
or returns with the buffers still in the scratch vector. Only the arming passes return the last
way.
-/

namespace DrmCxx.Scene

open Lib SceneTrace

/-! ### The contract -/

/-- Each buffer the call acquired is back at its source, once, and the buffers of earlier frames
are where they were. -/
structure GivesBack (before : SceneObjects) (c : FrameCall) : Prop where
  once : ∀ a ∈ c.acquired,
    (c.released.filter fun r => r.1 = a.1.buffer) = [(a.1.buffer, some a.2)]
  inFlight : c.builder.objects.inFlight = before.inFlight

/-- A placement round that demotes one more layer. -/
def NextRound (round : List LayerId → PlacementRound) (as : List AcquisitionSlot)
    (demoted demoted' : List LayerId) : Prop :=
  ∃ l, (round demoted).exit as demoted = .demote l ∧ demoted' = demoted ++ [l]

/-- The allocator places the round, and an arming pass fails. -/
def ArmingFails (round : List LayerId → PlacementRound) (as : List AcquisitionSlot)
    (demoted : List LayerId) : Prop :=
  ∃ assigned e, (round demoted).apply = .ok assigned ∧ (round demoted).arm assigned as = .error e

/-- The call holds no buffer when it places the frame, or the arming passes of each round it
reaches succeed. -/
def FrameBuilder.ArmsWhatItHolds (b : FrameBuilder) (q : BuildAnswers) : Prop :=
  b.objects.suspended = false →
    (acquireUntilError q.acquire b.nextBuffer b.objects.slots).2 = .ok () →
    b.modeset q = .ok () → b.acquisitions q ≠ [] →
    ∀ demoted, Relation.ReflTransGen (NextRound q.round ((b.acquisitions q).map (·.1)))
      b.demoted demoted → ¬ ArmingFails q.round ((b.acquisitions q).map (·.1)) demoted

/-! ### Demotion ends -/

section Rounds

variable {round : List LayerId → PlacementRound} {as : List AcquisitionSlot}
  {demoted demoted' : List LayerId}

/-- The acquired layers not demoted yet. -/
def undemoted (as : List AcquisitionSlot) (demoted : List LayerId) : List LayerId :=
  (as.map (·.sceneLayer)).filter fun l => !demoted.contains l

theorem exit_demote {r : PlacementRound} {l : LayerId} (h : r.exit as demoted = .demote l) :
    ∃ assigned, r.pickDemotion assigned as demoted = some l := by
  unfold PlacementRound.exit at h
  cases happly : r.apply with
  | error e => simp [happly] at h
  | ok assigned =>
    cases harm : r.arm assigned as with
    | error e => simp [happly, harm] at h
    | ok u =>
      cases hpick : r.pickDemotion assigned as demoted with
      | none => simp [happly, harm, hpick] at h
      | some victim =>
        cases hcanvas : r.canvasFeasible with
        | true => simp [happly, harm, hcanvas] at h
        | false =>
          obtain rfl : victim = l := by simpa [happly, harm, hcanvas, hpick] using h
          exact ⟨assigned, hpick⟩

theorem exit_arming_iff :
    (∃ e, (round demoted).exit as demoted = .failed (.arming e)) ↔
      ArmingFails round as demoted := by
  unfold ArmingFails PlacementRound.exit
  cases happly : (round demoted).apply with
  | error e => simp
  | ok assigned =>
    cases harm : (round demoted).arm assigned as with
    | error e => simp [harm]
    | ok u =>
      cases hpick : (round demoted).pickDemotion assigned as demoted <;>
        cases hcanvas : (round demoted).canvasFeasible <;> simp [harm, hpick]

/-- Each further round has one layer fewer left to demote. -/
theorem undemoted_lt (h : NextRound round as demoted demoted') :
    (undemoted as demoted').length < (undemoted as demoted).length := by
  obtain ⟨l, hexit, rfl⟩ := h
  obtain ⟨assigned, hpick⟩ := exit_demote hexit
  have hmem := List.mem_of_find?_eq_some hpick
  rw [(List.perm_insertionSort _ _).mem_iff, List.mem_filter] at hmem
  have hnot : l ∉ demoted := by simpa using (Bool.and_eq_true_iff.mp hmem.2).2
  have hsub : undemoted as (demoted ++ [l]) = (undemoted as demoted).filter (· ≠ l) := by
    simp only [undemoted, List.filter_filter]
    refine List.filter_congr fun x _ => ?_
    by_cases hx : x = l <;> simp [hx]
  rw [hsub]
  refine List.length_filter_lt_length_iff_exists.mpr ⟨l, ?_, by simp⟩
  exact List.mem_filter.mpr ⟨hmem.1, by simpa using hnot⟩

theorem placeRounds_of_demote {l : LayerId} (h : (round demoted).exit as demoted = .demote l)
    (fuel : ℕ) :
    placeRounds round as (fuel + 1) demoted = placeRounds round as fuel (demoted ++ [l]) := by
  rw [placeRounds.eq_def]
  simp [h]

theorem placeRounds_of_failed {e : PlacementError}
    (h : (round demoted).exit as demoted = .failed e) (fuel : ℕ) :
    placeRounds round as fuel demoted = (.error e, demoted) := by
  rw [placeRounds.eq_def]
  simp [h]

theorem placeRounds_of_placed (h : (round demoted).exit as demoted = .placed) (fuel : ℕ) :
    placeRounds round as fuel demoted = (.ok (), demoted) := by
  rw [placeRounds.eq_def]
  simp [h]

/-- Nothing follows a round that fails or places the frame. -/
theorem reached_last (hlast : ∀ l, (round demoted).exit as demoted ≠ .demote l) :
    (∃ demoted', Relation.ReflTransGen (NextRound round as) demoted demoted' ∧
      ArmingFails round as demoted') ↔ ArmingFails round as demoted := by
  constructor
  · rintro ⟨demoted', hreach, hfails⟩
    rcases hreach.cases_head with heq | ⟨next, ⟨l, hdemote, -⟩, -⟩
    · exact heq ▸ hfails
    · exact absurd hdemote (hlast l)
  · exact fun hfails => ⟨demoted, .refl, hfails⟩

/-- A round that demotes passed its arming passes: only the later rounds can fail in one. -/
theorem reached_demote {l : LayerId} (hdemote : (round demoted).exit as demoted = .demote l) :
    (∃ demoted', Relation.ReflTransGen (NextRound round as) demoted demoted' ∧
      ArmingFails round as demoted') ↔
      ∃ demoted', Relation.ReflTransGen (NextRound round as) (demoted ++ [l]) demoted' ∧
        ArmingFails round as demoted' := by
  constructor
  · rintro ⟨demoted', hreach, hfails⟩
    rcases hreach.cases_head with rfl | ⟨next, ⟨l', hdemote', rfl⟩, hreach⟩
    · obtain ⟨e, hexit⟩ := exit_arming_iff.mpr hfails
      rw [hdemote] at hexit
      cases hexit
    · rw [hdemote] at hdemote'
      cases hdemote'
      exact ⟨demoted', hreach, hfails⟩
  · rintro ⟨demoted', hreach, hfails⟩
    exact ⟨demoted', .head ⟨l, hdemote, rfl⟩ hreach, hfails⟩

/-- With fuel for every layer left to demote, the rounds end in an arming error exactly when a pass
of some round reached fails. -/
theorem placeRounds_arming_iff (round : List LayerId → PlacementRound) (fuel : ℕ) (hfuel :
    (undemoted as demoted).length ≤ fuel) :
    (∃ e, (placeRounds round as fuel demoted).1 = .error (.arming e)) ↔
      ∃ demoted', Relation.ReflTransGen (NextRound round as) demoted demoted' ∧
        ArmingFails round as demoted' := by
  induction fuel generalizing demoted with
  | zero =>
    have hlast : ∀ l, (round demoted).exit as demoted ≠ .demote l := by
      intro l hdemote
      have hlt := undemoted_lt ⟨l, hdemote, rfl⟩
      omega
    rw [reached_last hlast, ← exit_arming_iff]
    cases hexit : (round demoted).exit as demoted with
    | failed e => simp [placeRounds_of_failed hexit]
    | placed => simp [placeRounds_of_placed hexit]
    | demote l => exact absurd hexit (hlast l)
  | succ fuel ih =>
    cases hexit : (round demoted).exit as demoted with
    | failed e =>
      rw [reached_last (by simp [hexit]), ← exit_arming_iff, hexit]
      simp [placeRounds_of_failed hexit]
    | placed =>
      rw [reached_last (by simp [hexit]), ← exit_arming_iff, hexit]
      simp [placeRounds_of_placed hexit]
    | demote l =>
      have hlt := undemoted_lt ⟨l, hexit, rfl⟩
      rw [reached_demote hexit, placeRounds_of_demote hexit, ih (by omega)]

end Rounds

/-! ### The buffers of a build -/

/-- What was acquired before an error is what the slots before it gave. -/
theorem acquireUntilError_fst (acquire : SourceId → Except Errc Unit) (next : BufferId)
    (slots : List Slot) :
    ∃ k, (acquireUntilError acquire next slots).1 =
      SceneObjects.acquireSlots (fun s => acquire s = .ok ()) next (slots.take k) := by
  induction slots generalizing next with
  | nil => exact ⟨0, rfl⟩
  | cons slot slots ih =>
    unfold acquireUntilError
    split
    · rename_i layer halive hlayer
      split
      · rename_i hok
        obtain ⟨k, hk⟩ := ih (next + 1)
        exact ⟨k + 1, by simp [SceneObjects.acquireSlots, halive, hlayer, hok, hk]⟩
      · rename_i hagain
        obtain ⟨k, hk⟩ := ih next
        exact ⟨k + 1, by simp [SceneObjects.acquireSlots, halive, hlayer, hagain, hk]⟩
      · exact ⟨0, rfl⟩
    · rename_i hdead
      obtain ⟨k, hk⟩ := ih next
      refine ⟨k + 1, ?_⟩
      rw [List.take_succ_cons, SceneObjects.acquireSlots, hk]
      split
      · rename_i layer halive hlayer
        exact absurd hlayer (hdead layer halive)
      · rfl

theorem filter_eq_singleton {α : Type*} (f : α → ℕ) {xs : List α} (hnodup : (xs.map f).Nodup)
    {x : α} (hx : x ∈ xs) : (xs.filter fun y => f y = f x) = [x] := by
  induction xs with
  | nil => cases hx
  | cons y ys ih =>
    rw [List.map_cons, List.nodup_cons] at hnodup
    rcases List.mem_cons.mp hx with rfl | hx
    · rw [List.filter_cons_of_pos (by simp), List.filter_eq_nil_iff.mpr]
      intro y hy
      have hne : f y ≠ f x := fun h => hnodup.1 (h ▸ List.mem_map_of_mem hy)
      simpa using hne
    · have hne : f y ≠ f x := fun h => hnodup.1 (h ▸ List.mem_map_of_mem hx)
      rw [List.filter_cons_of_neg (by simpa using hne), ih hnodup.2 hx]

namespace FrameBuilder

variable {b : FrameBuilder} {q : BuildAnswers}

theorem acquisitions_nodup : ((b.acquisitions q).map (·.1.buffer)).Nodup := by
  obtain ⟨k, hk⟩ := acquireUntilError_fst q.acquire b.nextBuffer b.objects.slots
  rw [acquisitions, hk, (acquireSlots_spec _ _ _).1]
  exact List.nodup_range'

/-- The layer of a new acquisition is in the table, and the buffer came from its source. -/
theorem releaseTarget_acquisition {t : SceneTrace} (hinv : t.LifetimeInv)
    (hb : b.objects = t.scene) {a : AcquisitionSlot × SourceId} (ha : a ∈ b.acquisitions q) :
    b.objects.releaseTarget a.1 = some a.2 := by
  obtain ⟨k, hk⟩ := acquireUntilError_fst q.acquire b.nextBuffer b.objects.slots
  rw [acquisitions, hk] at ha
  obtain ⟨hretired, l, hl, hid, hsource⟩ := (acquireSlots_spec _ _ _).2 a ha
  have hmem : l ∈ t.scene.layers := by
    rw [← hb]
    refine List.mem_append_left _ ?_
    exact (List.take_sublist k _).filterMap _ |>.subset hl
  have hfind : b.objects.findLayer a.1.sceneLayer = some l := by
    rw [hb, ← hid]
    exact findLayer_of_mem hinv hmem
  simp [SceneObjects.releaseTarget, hretired, hfind, hsource]

/-- `release_all` of what a build acquired returns each buffer to its source. -/
theorem releaseAll_acquisitions {t : SceneTrace} (hinv : t.LifetimeInv)
    (hb : b.objects = t.scene) {a : AcquisitionSlot × SourceId} (ha : a ∈ b.acquisitions q) :
    ((b.objects.releaseAll ((b.acquisitions q).map (·.1))).filter fun r => r.1 = a.1.buffer) =
      [(a.1.buffer, some a.2)] := by
  have hrecords : b.objects.releaseAll ((b.acquisitions q).map (·.1)) =
      (b.acquisitions q).map fun a => (a.1.buffer, some a.2) := by
    rw [SceneObjects.releaseAll, List.map_map]
    refine List.map_congr_left fun a ha => ?_
    simp [releaseTarget_acquisition hinv hb ha]
  have hmem : (a.1.buffer, some a.2) ∈ (b.acquisitions q).map fun a => (a.1.buffer, some a.2) :=
    List.mem_map_of_mem ha
  rw [hrecords]
  refine filter_eq_singleton Prod.fst ?_ hmem
  simpa [Function.comp_def] using acquisitions_nodup

/-! ### Every exit of a build -/

/-- The build returns an arming pass's error. -/
def LeavesInScratch (b : FrameBuilder) (q : BuildAnswers) : Prop :=
  b.objects.suspended = false ∧
    (acquireUntilError q.acquire b.nextBuffer b.objects.slots).2 = .ok () ∧
    b.modeset q = .ok () ∧ ∃ e, (b.placement q).1 = .error (.arming e)

/-- How `buildFrameInto` returns. -/
inductive Exits (b : FrameBuilder) (q : BuildAnswers) : FrameCall → Prop
  | suspended : Exits b q { builder := b, result := .ok none }
  | released (demoted : List LayerId) (e : Errc) : Exits b q (b.releasing q demoted e)
  | inScratch (demoted : List LayerId) (e : Errc) (h : b.LeavesInScratch q) :
      Exits b q (b.returning q demoted e)
  | state (demoted : List LayerId) : Exits b q (b.returningState q demoted)

theorem exits_buildFrameInto (b : FrameBuilder) (q : BuildAnswers) :
    Exits b q (b.buildFrameInto q) := by
  unfold buildFrameInto
  split_ifs with hsuspended
  · exact .suspended
  cases hacquire : (acquireUntilError q.acquire b.nextBuffer b.objects.slots).2 with
  | error e => exact .released _ e
  | ok u =>
    cases hmodeset : b.modeset q with
    | error e => exact .released _ e
    | ok u =>
      rcases hplace : b.placement q with ⟨result, demoted⟩
      cases result with
      | error e =>
        cases e with
        | allocator e => exact .released demoted e
        | arming e =>
          exact .inScratch demoted e
            ⟨by simpa using hsuspended, hacquire, hmodeset, e, by rw [hplace]⟩
      | ok u =>
        cases hsignal : outputSignaling q with
        | error e => simpa [hsignal] using Exits.released demoted e
        | ok u => simpa [hsignal] using Exits.state demoted

theorem buildFrameInto_of_leaves (h : b.LeavesInScratch q) :
    ∃ demoted e, b.buildFrameInto q = b.returning q demoted e := by
  obtain ⟨hsuspended, hacquire, hmodeset, e, hplace⟩ := h
  refine ⟨(b.placement q).2, e, ?_⟩
  rw [buildFrameInto, if_neg (by simp [hsuspended]), hacquire, hmodeset]
  rw [show b.placement q = (.error (.arming e), (b.placement q).2) by rw [← hplace]]

/-- Only an arming pass that fails while buffers are held leaves them in the scratch vector. -/
theorem armsWhatItHolds_iff :
    b.ArmsWhatItHolds q ↔ (b.LeavesInScratch q → b.acquisitions q = []) := by
  have hfuel : (undemoted ((b.acquisitions q).map (·.1)) b.demoted).length ≤
      (b.acquisitions q).length := by
    refine (List.length_filter_le _ _).trans ?_
    simp
  have hrounds := placeRounds_arming_iff q.round _ hfuel
  constructor
  · rintro harms ⟨hsuspended, hacquire, hmodeset, hplace⟩
    by_contra hheld
    obtain ⟨demoted, hreach, hfails⟩ := hrounds.mp hplace
    exact harms hsuspended hacquire hmodeset hheld demoted hreach hfails
  · intro h hsuspended hacquire hmodeset hheld demoted hreach hfails
    exact hheld (h ⟨hsuspended, hacquire, hmodeset, hrounds.mpr ⟨demoted, hreach, hfails⟩⟩)

end FrameBuilder

/-! ### Frames -/

/-- A frame that is not committed gives back what it acquired exactly when its arming passes
succeed, or held nothing. -/
theorem givesBack_iff (wants : SourceId → Bool) (es : List SceneEvent)
    (scratch : List AcquisitionSlot) (demoted : List LayerId) (firstCommit : Bool)
    (nextBuffer : BufferId) (q : BuildAnswers) (testOnly : Bool) (ending : FrameEnding) :
    let b : FrameBuilder :=
      ⟨(run (SceneTrace.step wants) {} es).scene, scratch, demoted, firstCommit, nextBuffer⟩
    ((b.frame q wants testOnly ending).committed = false →
        GivesBack b.objects (b.frame q wants testOnly ending)) ↔
      b.ArmsWhatItHolds q := by
  intro b
  have hinv := lifetimeInv_run wants es
  have hreleased := fun a ha =>
    FrameBuilder.releaseAll_acquisitions (b := b) (q := q) hinv rfl (a := a) ha
  rw [FrameBuilder.armsWhatItHolds_iff]
  constructor
  · intro hgives hleaves
    obtain ⟨demoted', e, hbuild⟩ := FrameBuilder.buildFrameInto_of_leaves hleaves
    rw [FrameBuilder.frame, hbuild] at hgives
    have honce := (hgives rfl).once
    by_contra hheld
    obtain ⟨a, ha⟩ := List.exists_mem_of_ne_nil _ hheld
    have := honce a ha
    simp [FrameCall.finish, FrameBuilder.returning] at this
  · intro hheld hcommitted
    rw [FrameBuilder.frame] at hcommitted ⊢
    have hexits := FrameBuilder.exits_buildFrameInto b q
    generalize b.buildFrameInto q = c at hexits hcommitted ⊢
    cases hexits with
    | suspended => exact ⟨by simp [FrameCall.finish], rfl⟩
    | released demoted' e =>
      exact ⟨fun a ha => hreleased a ha, rfl⟩
    | inScratch demoted' e h =>
      exact ⟨by simp [FrameCall.finish, FrameBuilder.returning, hheld h], rfl⟩
    | state demoted' =>
      rcases ending with _ | ⟨_ | _, outFence⟩
      · exact ⟨fun a ha => by simpa [FrameCall.finish, FrameCall.release,
          FrameBuilder.returningState] using hreleased a ha, rfl⟩
      · exact ⟨fun a ha => by simpa [FrameCall.finish, FrameCall.release,
          FrameBuilder.returningState] using hreleased a ha, rfl⟩
      · cases testOnly with
        | true =>
          exact ⟨fun a ha => by simpa [FrameCall.finish, FrameCall.release,
            FrameBuilder.returningState] using hreleased a ha, rfl⟩
        | false => simp [FrameCall.finish, FrameBuilder.returningState] at hcommitted

/-- Every answer is good, and the frame is placed on plane 1. -/
def placedRound : PlacementRound where
  apply := .ok fun _ => some 1
  acquireFences _ _ := []
  damageClips _ _ := []
  amdPlaneColor _ _ := []
  pinnedPlane _ := none
  pinnedLayers _ _ := []
  canvasFeasible := true
  demotable _ := true
  keepPriority _ := 0
  zpos _ := 0

def goodAnswers : BuildAnswers where
  acquire _ := .ok ()
  ensureModeBlob := .ok ()
  injectModesetState := .ok ()
  round _ := placedRound
  injectOutputColorspace := .ok ()
  injectHdrOutputMetadata := .ok ()
  injectVrrEnabled := .ok ()
  injectOutputRegammaTf := .ok ()

/-- The kernel has no memory for the blob of a layer's 3D LUT. -/
def failedLut : BuildAnswers :=
  { goodAnswers with
    round := fun _ => { placedRound with amdPlaneColor := fun _ _ => [.error (.other 12)] } }

/-- The scene that added one layer. -/
def oneLayerBuilder : FrameBuilder where
  objects := (run (SceneTrace.step fun _ => false) {} [.addLayer]).scene
  scratch := []
  demoted := []
  firstCommit := false
  nextBuffer := 0

theorem not_givesBack :
    (oneLayerBuilder.frame failedLut (fun _ => false) false .destroyed).committed = false ∧
      ¬ GivesBack oneLayerBuilder.objects
        (oneLayerBuilder.frame failedLut (fun _ => false) false .destroyed) := by
  refine ⟨by decide, fun h => ?_⟩
  have honce := h.once ({ sceneLayer := 0, buffer := 0 }, 0) (by decide)
  revert honce
  decide

end DrmCxx.Scene
