import DrmCxx.Lib.Custody
import DrmCxx.Lib.Run
import DrmCxx.Scene.GstAppsinkSource
import DrmCxx.Scene.InFlight
import Mathlib.Data.List.Nodup

/-!
# The frames of a GStreamer pipeline on screen

A scene that commits a `GstAppsinkSource`. The source keeps one sample and a bounded cache, and
knows nothing of the acquisitions in flight: they keep their buffers as long as there are none
when a sample is replaced or the caps change, and no descriptor number comes back for other memory.
-/

namespace DrmCxx.Scene

open Lib

namespace GstAppsinkSource

/-! ### What an acquisition does to the cache -/

def cachedIds (s : GstAppsinkSource) : List FbId :=
  s.fbCache.map (·.fbId)

/-- The cache holds live framebuffers, each once. -/
structure Cached (s : GstAppsinkSource) (fbs : Framebuffers) : Prop where
  nodup : s.cachedIds.Nodup
  live : ∀ fbId ∈ s.cachedIds, fbId ≠ 0 ∧ (fbs fbId).isSome

/-- Neither the cache nor the kernel has a framebuffer for the sample. -/
def ImportFails (s : GstAppsinkSource) (fbs : Framebuffers) (sample : GstSample) : Prop :=
  ∀ keyFd, sample.keyFd = .ok keyFd →
    s.fbCache.find? (·.dmabufFd = keyFd) = none ∧ ∃ e, fbs.add sample = .error e

/-- A cached framebuffer under the sample's descriptor shows the sample's memory. -/
def HitsOwnMemory (s : GstAppsinkSource) (fbs : Framebuffers) (sample : GstSample) : Prop :=
  ∀ keyFd, sample.keyFd = .ok keyFd →
    ∀ entry ∈ s.fbCache.find? (·.dmabufFd = keyFd), (fbs entry.fbId).map (·.memory) =
      some sample.memory

theorem latchCaps_cases (s : GstAppsinkSource) (fbs : Framebuffers) (sample : GstSample) :
    (s.capsChanged sample = true ∧ ∃ info, (s.latchCaps fbs sample).1 =
        ({ s with fbCache := [], currentFbId := 0, videoInfo := info }, fbs.remove s.cachedIds)) ∨
      (s.capsChanged sample = false ∧ ∃ info, (s.latchCaps fbs sample).1 =
        ({ s with videoInfo := info }, fbs)) := by
  have hresolve : ∀ s : GstAppsinkSource, ∃ info,
      (s.resolveFormatFromCaps sample).1 = { s with videoInfo := info } := by
    intro s
    rw [resolveFormatFromCaps]
    cases sample.videoInfo with
    | none => exact ⟨_, rfl⟩
    | some info =>
      dsimp only
      split
      · exact ⟨_, rfl⟩
      · exact ⟨_, rfl⟩
  rw [latchCaps]
  split
  · rename_i h
    obtain ⟨info, hinfo⟩ := hresolve { (s.teardownDrmState fbs).1 with videoInfo := none }
    exact .inl ⟨h, info, Prod.ext hinfo rfl⟩
  · rename_i h
    refine .inr ⟨by simpa using h, ?_⟩
    split
    · exact ⟨_, rfl⟩
    · obtain ⟨info, hinfo⟩ := hresolve s
      exact ⟨info, Prod.ext hinfo rfl⟩

/-- An import gives an error, a cached framebuffer, or a new one. -/
theorem importDmabufSample_cases (s : GstAppsinkSource) (fbs : Framebuffers) (number : ℕ)
    (sample : GstSample) :
    (s.ImportFails fbs sample ∧ ∃ e, s.importDmabufSample fbs number sample = ((s, fbs), some e)) ∨
      (¬ s.ImportFails fbs sample ∧ ∃ keyFd, sample.keyFd = .ok keyFd ∧
        ((∃ entry, s.fbCache.find? (·.dmabufFd = keyFd) = some entry ∧
          s.importDmabufSample fbs number sample = (({ s with
            fbCache := s.fbCache.eraseP (·.dmabufFd = keyFd) ++ [entry]
            currentFbId := entry.fbId }, fbs), none)) ∨
        (s.fbCache.find? (·.dmabufFd = keyFd) = none ∧ ∃ fbId excess, fbs.add sample = .ok fbId ∧
          s.importDmabufSample fbs number sample = (({ s with
            fbCache := s.fbCache.drop excess ++ [⟨keyFd, fbId⟩]
            currentFbId := fbId },
          Framebuffers.remove (Function.update fbs fbId (some ⟨sample.memory, number⟩))
            ((s.fbCache.take excess).map (·.fbId))), none)))) := by
  cases hkey : sample.keyFd with
  | error e =>
    exact .inl ⟨fun keyFd h => by simp [hkey] at h, e, by simp [importDmabufSample, hkey]⟩
  | ok keyFd =>
    cases hfind : s.fbCache.find? (·.dmabufFd = keyFd) with
    | some entry =>
      refine .inr ⟨fun h => ?_, keyFd, rfl, .inl ⟨entry, hfind, ?_⟩⟩
      · simpa [hfind] using (h keyFd hkey).1
      · simp [importDmabufSample, hkey, hfind]
    | none =>
      cases hadd : fbs.add sample with
      | error e =>
        refine .inl ⟨fun keyFd' h => ?_, e, by simp [importDmabufSample, hkey, hfind, hadd]⟩
        obtain rfl : keyFd = keyFd' := by simpa [hkey] using h
        exact ⟨hfind, e, hadd⟩
      | ok fbId =>
        refine .inr ⟨fun h => ?_, keyFd, rfl, .inr ⟨hfind, fbId,
          s.fbCache.length + 1 - s.fbCacheSize, rfl, ?_⟩⟩
        · obtain ⟨e, he⟩ := (h keyFd hkey).2
          simp [hadd] at he
        · simp [importDmabufSample, hkey, hfind, hadd]

theorem add_ok {fbs : Framebuffers} {sample : GstSample} {fbId : FbId}
    (h : fbs.add sample = .ok fbId) : fbId ≠ 0 ∧ fbs fbId = none := by
  rw [Framebuffers.add] at h
  cases himp : sample.imported with
  | error e => simp [himp] at h
  | ok fb =>
    simp only [himp] at h
    split at h
    · cases h
    · rename_i hnew
      obtain rfl : fb = fbId := by simpa using h
      simpa [not_or] using hnew

theorem Cached.latchCaps {s : GstAppsinkSource} {fbs : Framebuffers} (h : Cached s fbs)
    (sample : GstSample) :
    Cached (s.latchCaps fbs sample).1.1 (s.latchCaps fbs sample).1.2 := by
  rcases s.latchCaps_cases fbs sample with ⟨-, info, heq⟩ | ⟨-, info, heq⟩ <;> rw [heq]
  · exact ⟨List.nodup_nil, by simp [cachedIds]⟩
  · exact ⟨h.nodup, h.live⟩

/-- What a successful import leaves: a cached framebuffer with the sample's memory, provided the
cache had one of that memory. -/
theorem Cached.import {s : GstAppsinkSource} {fbs : Framebuffers} (h : Cached s fbs)
    {sample : GstSample} (hfails : ¬ s.ImportFails fbs sample) (number : ℕ) :
    ∃ fbCache fbId fbs', s.importDmabufSample fbs number sample =
        (({ s with fbCache, currentFbId := fbId }, fbs'), none) ∧
      Cached { s with fbCache, currentFbId := fbId } fbs' ∧
      fbId ∈ fbCache.map (·.fbId) ∧
      ((fbs' fbId).map (·.memory) = some sample.memory ↔ s.HitsOwnMemory fbs sample) := by
  rcases s.importDmabufSample_cases fbs number sample with ⟨hfails', -⟩ | ⟨-, keyFd, hkey, hcases⟩
  · exact absurd hfails' hfails
  have hits : s.HitsOwnMemory fbs sample ↔
      ∀ entry ∈ s.fbCache.find? (·.dmabufFd = keyFd), (fbs entry.fbId).map (·.memory) =
        some sample.memory :=
    ⟨fun h => h keyFd hkey, fun h keyFd' hkey' => by
      obtain rfl : keyFd = keyFd' := by simpa [hkey] using hkey'
      exact h⟩
  rcases hcases with ⟨entry, hfind, heq⟩ | ⟨hnone, fbId, excess, hadd, heq⟩
  · have hmem := List.mem_of_find?_eq_some hfind
    have hperm : (s.fbCache.eraseP (·.dmabufFd = keyFd) ++ [entry]).Perm s.fbCache :=
      eraseP_append_perm hfind
    refine ⟨_, entry.fbId, fbs, heq, ⟨?_, ?_⟩, ?_, ?_⟩
    · exact (hperm.map _).nodup_iff.mpr h.nodup
    · exact fun fbId hfb => h.live fbId ((hperm.map _).mem_iff.mp hfb)
    · exact List.mem_map_of_mem (hperm.mem_iff.mpr hmem)
    · rw [hits]
      exact ⟨fun hfb e he => by
        obtain rfl := Option.some.inj (hfind.symm.trans he)
        exact hfb, fun h => h entry hfind⟩
  · obtain ⟨hzero, hfresh⟩ := add_ok hadd
    have hnew : ∀ fb ∈ s.cachedIds, fb ≠ fbId := by
      rintro fb hfb rfl
      simpa [hfresh] using (h.live fb hfb).2
    have hnodup : ((s.fbCache.take excess).map (·.fbId) ++
        (s.fbCache.drop excess).map (·.fbId)).Nodup := by
      rw [← List.map_append, List.take_append_drop]
      exact h.nodup
    have htake : ∀ fb ∈ (s.fbCache.take excess).map (·.fbId), fb ∈ s.cachedIds := fun fb hfb =>
      (List.take_sublist excess s.fbCache).map _ |>.subset hfb
    have hdrop : ∀ fb ∈ (s.fbCache.drop excess).map (·.fbId), fb ∈ s.cachedIds := fun fb hfb =>
      (List.drop_sublist excess s.fbCache).map _ |>.subset hfb
    have hshown : fbId ∉ (s.fbCache.take excess).map (·.fbId) := fun hmem =>
      hnew fbId (htake fbId hmem) rfl
    refine ⟨_, fbId, _, heq, ⟨?_, ?_⟩, by simp, ?_⟩
    · rw [cachedIds, List.map_append, List.map_singleton]
      refine (List.nodup_append.mp hnodup).2.1.append (by simp) fun fb hfb hfb' => ?_
      exact hnew fb (hdrop fb hfb) (List.mem_singleton.mp hfb')
    · intro fb hfb
      rw [cachedIds, List.map_append, List.map_singleton, List.mem_append] at hfb
      rcases hfb with hfb | hfb
      · have hkept : fb ∉ (s.fbCache.take excess).map (·.fbId) := fun hmem =>
          (List.nodup_append.mp hnodup).2.2 fb hmem fb hfb rfl
        rw [Framebuffers.remove, if_neg hkept, Function.update_of_ne (hnew fb (hdrop fb hfb))]
        exact h.live fb (hdrop fb hfb)
      · obtain rfl := List.mem_singleton.mp hfb
        exact ⟨hzero, by rw [Framebuffers.remove, if_neg hshown, Function.update_self]; rfl⟩
    · rw [hits, hnone, Framebuffers.remove, if_neg hshown, Function.update_self]
      simp

/-- `acquire` gives what it has, refuses a sample, or puts it in the place of the one before. -/
inductive AcquireCase (s : GstAppsinkSource) (fbs : Framebuffers) (number : ℕ)
    (pulled : Option GstSample) : Prop
  | quiet (result : Except Errc FbId) (hpull : s.pendingError.isSome ∨ pulled = none)
    (hresult : ∀ fbId, result = .ok fbId → fbId = s.currentFbId ∧ fbId ≠ 0)
    (heq : s.acquire fbs number pulled = { source := s, fbs, result })
  | refused {sample : GstSample} (pendingError : Option Errc) (e : Errc)
    (herror : s.pendingError = none) (hpull : pulled = some sample)
    (hwhy : s.videoInfo = none ∨ s.capsChanged sample = true ∨
      (s.latchCaps fbs sample).1.1.ImportFails (s.latchCaps fbs sample).1.2 sample)
    (heq : s.acquire fbs number pulled =
      { source := { (s.latchCaps fbs sample).1.1 with pendingError }
        fbs := (s.latchCaps fbs sample).1.2, unrefd := [number], result := .error e })
  | replaced {sample : GstSample} {fbCache : List CachedFb} {fbId : FbId} {fbs' : Framebuffers}
    (herror : s.pendingError = none) (hpull : pulled = some sample)
    (hresolved : (s.latchCaps fbs sample).1.1.videoInfo ≠ none)
    (hfails : ¬ (s.latchCaps fbs sample).1.1.ImportFails (s.latchCaps fbs sample).1.2 sample)
    (himport : (s.latchCaps fbs sample).1.1.importDmabufSample (s.latchCaps fbs sample).1.2 number
      sample = (({ (s.latchCaps fbs sample).1.1 with fbCache, currentFbId := fbId }, fbs'), none))
    (heq : s.acquire fbs number pulled =
      { source := { (s.latchCaps fbs sample).1.1 with
          fbCache, currentFbId := fbId, currentSample := some number }
        fbs := fbs', unrefd := s.currentSample.toList, result := .ok fbId })

theorem latchCaps_resolved {s : GstAppsinkSource} {fbs : Framebuffers} {sample : GstSample}
    (hinfo : s.videoInfo ≠ none) (hcaps : s.capsChanged sample = false) :
    s.latchCaps fbs sample = ((s, fbs), none) := by
  rw [latchCaps, if_neg (by simp [hcaps]), if_pos (Option.isSome_iff_ne_none.mpr hinfo)]

theorem latchCaps_videoInfo {s : GstAppsinkSource} {fbs : Framebuffers} {sample : GstSample}
    (h : (s.latchCaps fbs sample).2 = none) : (s.latchCaps fbs sample).1.1.videoInfo ≠ none := by
  have hresolve : ∀ s : GstAppsinkSource, (s.resolveFormatFromCaps sample).2 = none →
      (s.resolveFormatFromCaps sample).1.videoInfo ≠ none := by
    intro s h
    rw [resolveFormatFromCaps] at h ⊢
    cases hinfo : sample.videoInfo with
    | none => simp [hinfo] at h
    | some info =>
      simp only [hinfo] at h ⊢
      split
      · rename_i hnone
        simp [hnone] at h
      · simp
  rw [latchCaps] at h ⊢
  split
  · rename_i hcaps
    rw [if_pos hcaps] at h
    exact hresolve _ h
  · rename_i hcaps
    rw [if_neg hcaps] at h
    split
    · rename_i hsome
      simpa using Option.isSome_iff_ne_none.mp hsome
    · rename_i hsome
      rw [if_neg hsome] at h
      exact hresolve _ h

theorem latchCaps_currentSample (s : GstAppsinkSource) (fbs : Framebuffers) (sample : GstSample) :
    (s.latchCaps fbs sample).1.1.currentSample = s.currentSample := by
  rcases s.latchCaps_cases fbs sample with ⟨-, info, heq⟩ | ⟨-, info, heq⟩ <;> rw [heq]

theorem latchCaps_pendingError (s : GstAppsinkSource) (fbs : Framebuffers) (sample : GstSample) :
    (s.latchCaps fbs sample).1.1.pendingError = s.pendingError := by
  rcases s.latchCaps_cases fbs sample with ⟨-, info, heq⟩ | ⟨-, info, heq⟩ <;> rw [heq]

theorem acquireCase {s : GstAppsinkSource} {fbs : Framebuffers} (hs : Cached s fbs) (number : ℕ)
    (pulled : Option GstSample) : AcquireCase s fbs number pulled := by
  cases herror : s.pendingError with
  | some e =>
    exact .quiet (.error e) (.inl (by simp [herror])) (by simp) (by simp [acquire, herror])
  | none =>
    cases pulled with
    | none =>
      refine .quiet _ (.inr rfl) (fun fbId h => ?_) (by simp only [acquire, herror]; rfl)
      by_cases hzero : s.currentFbId = 0
      · simp [hzero] at h
      · rw [if_neg hzero] at h
        cases h
        exact ⟨rfl, hzero⟩
    | some sample =>
      cases hlatch : s.latchCaps fbs sample with
      | mk st e =>
        have hst : (s.latchCaps fbs sample).1 = st := by rw [hlatch]
        cases e with
        | some e =>
          refine .refused (some e) e herror rfl ?_
            (by simp only [acquire, herror, hlatch])
          by_contra hno
          rw [not_or, not_or, Bool.not_eq_true] at hno
          simp [latchCaps_resolved hno.1 hno.2.1] at hlatch
        | none =>
          by_cases hfails : st.1.ImportFails st.2 sample
          · rcases st.1.importDmabufSample_cases st.2 number sample with
              ⟨-, e, himport⟩ | ⟨hfails', -⟩
            · have hpending : st.1.pendingError = none := by
                rw [← hst, latchCaps_pendingError, herror]
              refine .refused none e herror rfl ?_ ?_
              · exact .inr (.inr (by rw [hst]; exact hfails))
              · simp only [acquire, herror, hlatch, himport]
                rw [← hpending]
            · exact absurd hfails hfails'
          · have hcached : Cached st.1 st.2 := hst ▸ hs.latchCaps sample
            obtain ⟨fbCache, fbId, fbs', himport, -⟩ := hcached.import hfails number
            refine .replaced herror rfl (latchCaps_videoInfo (by rw [hlatch]))
              (by rw [hst]; exact hfails) (by rw [hst]; exact himport) ?_
            have hcurrent := latchCaps_currentSample s fbs sample
            rw [hst] at hcurrent
            simp only [acquire, herror, hlatch, himport, hcurrent]

end GstAppsinkSource

/-! ### Commits over the source -/

structure GstAcquisition where
  fbId : FbId
  /-- What the id names when it is acquired. -/
  framebuffer : Option Framebuffer
  /-- The sample it is acquired for, and that sample's memory. -/
  sample : ℕ
  memory : MemoryId
  deriving DecidableEq, Repr

structure GstTrace where
  source : GstAppsinkSource
  fbs : Framebuffers := fun _ => none
  inFlight : InFlight GstAcquisition := {}
  /-- The samples offered so far. -/
  samples : List GstSample := []
  /-- The samples the pipeline has back. -/
  returned : List ℕ := []

inductive GstEvent
  /-- A commit that finds `pulled` at the appsink; what is not `flipped` was rejected, or a test. -/
  | commit (pulled : Option GstSample) (flipped : Bool)
  /-- `release_displaced`. -/
  | releaseDisplaced
  /-- `release_pending_acquisitions`. -/
  | drain

namespace GstTrace

def init (fbCacheSize : ℕ+) : GstTrace :=
  { source := { fbCacheSize } }

/-- The acquisition of a commit. -/
def acquired (t : GstTrace) (pulled : Option GstSample) : Option GstAcquisition :=
  let a := t.source.acquire t.fbs t.samples.length pulled
  match a.result with
  | .error _ => none
  | .ok fbId => a.source.currentSample.bind fun n =>
    (t.samples ++ pulled.toList)[n]?.map fun sample => ⟨fbId, a.fbs fbId, n, sample.memory⟩

/-- An error other than `EAGAIN` ends the commit. -/
def goesOn : Except Errc FbId → Bool
  | .ok _ => true
  | .error e => e = .resourceUnavailableTryAgain

def step (t : GstTrace) : GstEvent → GstTrace
  | .commit pulled flipped =>
    let a := t.source.acquire t.fbs t.samples.length pulled
    { source := a.source
      fbs := a.fbs
      inFlight := if flipped && goesOn a.result then
          t.inFlight.rotate id (t.acquired pulled).toList
        else t.inFlight
      samples := t.samples ++ pulled.toList
      returned := t.returned ++ a.unrefd }
  | .releaseDisplaced => { t with inFlight := t.inFlight.dropOldest }
  | .drain => { t with inFlight := {} }

/-- The framebuffer is the one acquired and shows the sample's memory, and the pipeline does not
have the sample back. -/
def Intact (t : GstTrace) (a : GstAcquisition) : Prop :=
  t.fbs a.fbId = a.framebuffer ∧ a.framebuffer.map (·.memory) = some a.memory ∧
    a.sample ∉ t.returned

/-- What a step acquires or finds in flight is intact after it. -/
def Sound (t : GstTrace) (e : GstEvent) : Prop :=
  ∀ a, (a ∈ t.inFlight.drained ∨ ∃ pulled flipped, e = .commit pulled flipped ∧
    a ∈ t.acquired pulled) → (t.step e).Intact a

/-- No acquisition is in flight when the caps change or a sample replaces the one before, and no
descriptor is cached for other memory. -/
def Kept (t : GstTrace) : GstEvent → Prop
  | .commit (some sample) _ => t.source.pendingError = none →
      (t.source.capsChanged sample = true → t.inFlight.drained = []) ∧
      (t.source.capsChanged sample = false → ¬ t.source.ImportFails t.fbs sample →
        t.inFlight.drained = [] ∧ t.source.HitsOwnMemory t.fbs sample)
  | _ => True

/-- What an acquisition without a new sample would give. -/
def shown (t : GstTrace) : Option GstAcquisition :=
  t.source.currentSample.bind fun n =>
    t.samples[n]?.map fun sample => ⟨t.source.currentFbId, t.fbs t.source.currentFbId, n,
      sample.memory⟩

structure Inv (t : GstTrace) : Prop where
  cached : t.source.Cached t.fbs
  unresolved : t.source.videoInfo = none → t.source.fbCache = [] ∧ t.source.currentFbId = 0
  current : t.source.currentFbId ≠ 0 →
    t.source.currentFbId ∈ t.source.cachedIds ∧ ∃ a ∈ t.shown, t.Intact a
  held : ∀ a ∈ t.inFlight.drained, t.source.currentFbId ≠ 0 ∧ a ∈ t.shown
  sample_lt : ∀ n ∈ t.source.currentSample, n < t.samples.length
  returned_lt : ∀ n ∈ t.returned, n < t.samples.length

theorem inv_init (fbCacheSize : ℕ+) : (init fbCacheSize).Inv := by
  refine ⟨⟨List.nodup_nil, ?_⟩, ?_, ?_, ?_, ?_, ?_⟩ <;>
    simp [init, GstAppsinkSource.cachedIds, InFlight.drained]

theorem mem_shown {t : GstTrace} {a : GstAcquisition} (ha : a ∈ t.shown) :
    a.fbId = t.source.currentFbId ∧ a.sample ∈ t.source.currentSample := by
  obtain ⟨n, hn, ha⟩ := Option.bind_eq_some_iff.mp ha
  obtain ⟨sample, -, rfl⟩ := Option.map_eq_some_iff.mp ha
  exact ⟨rfl, hn⟩

/-- What is shown is cached and intact. -/
theorem Inv.intact_of_shown {t : GstTrace} (h : t.Inv) (hzero : t.source.currentFbId ≠ 0)
    {a : GstAcquisition} (ha : a ∈ t.shown) : a.fbId ∈ t.source.cachedIds ∧ t.Intact a := by
  obtain ⟨hid, b, hb, hintact⟩ := h.current hzero
  obtain rfl : b = a := Option.some.inj (hb.symm.trans ha)
  exact ⟨(mem_shown ha).1 ▸ hid, hintact⟩

theorem Inv.intact {t : GstTrace} (h : t.Inv) {a : GstAcquisition} (ha : a ∈ t.inFlight.drained) :
    t.Intact a :=
  (h.intact_of_shown (h.held a ha).1 (h.held a ha).2).2

/-! ### One commit -/

/-- The source shows what it showed, under the samples offered since. -/
theorem shown_eq {t t' : GstTrace} (ht : t.Inv) {more : List GstSample}
    (hsample : t'.source.currentSample = t.source.currentSample)
    (hcurrent : t'.source.currentFbId = t.source.currentFbId) (hfbs : t'.fbs = t.fbs)
    (hsamples : t'.samples = t.samples ++ more) : t'.shown = t.shown := by
  rw [shown, shown, hsample, hcurrent, hfbs, hsamples]
  cases hn : t.source.currentSample with
  | none => rfl
  | some n => rw [Option.bind_some, Option.bind_some, List.getElem?_append_left (ht.sample_lt n hn)]

theorem mem_drained_commit {t : GstTrace} {pulled : Option GstSample} {flipped : Bool}
    {a : GstAcquisition} (ha : a ∈ (t.step (.commit pulled flipped)).inFlight.drained) :
    a ∈ t.inFlight.drained ∨ a ∈ t.acquired pulled := by
  simp only [step] at ha
  split at ha
  · simp only [InFlight.drained, InFlight.rotate, List.map_id, List.mem_append,
      Option.mem_toList] at ha ⊢
    exact ha.imp_left .inr
  · exact .inl ha

theorem sound_commit {t : GstTrace} {pulled : Option GstSample} {flipped : Bool} :
    t.Sound (.commit pulled flipped) ↔ ∀ a, a ∈ t.inFlight.drained ∨ a ∈ t.acquired pulled →
      (t.step (.commit pulled flipped)).Intact a := by
  refine forall_congr' fun a => imp_congr_left (or_congr_right ?_)
  refine ⟨?_, fun ha => ⟨pulled, flipped, rfl, ha⟩⟩
  rintro ⟨pulled', flipped', hev, ha⟩
  cases hev
  exact ha

/-- A commit without a new sample shows the same frame. -/
theorem commit_quiet {t : GstTrace} (ht : t.Inv) {pulled : Option GstSample} (flipped : Bool)
    {result : Except Errc FbId}
    (hresult : ∀ fbId, result = .ok fbId → fbId = t.source.currentFbId ∧ fbId ≠ 0)
    (heq : t.source.acquire t.fbs t.samples.length pulled =
      { source := t.source, fbs := t.fbs, result }) :
    (t.step (.commit pulled flipped)).Inv ∧ t.Sound (.commit pulled flipped) := by
  have hstep : (t.step (.commit pulled flipped)).source = t.source ∧
      (t.step (.commit pulled flipped)).fbs = t.fbs ∧
      (t.step (.commit pulled flipped)).samples = t.samples ++ pulled.toList ∧
      (t.step (.commit pulled flipped)).returned = t.returned := by
    simp [step, heq]
  obtain ⟨hsource, hfbs, hsamples, hreturned⟩ := hstep
  have hshown : (t.step (.commit pulled flipped)).shown = t.shown :=
    shown_eq ht (by rw [hsource]) (by rw [hsource]) hfbs hsamples
  have hintact : ∀ a, (t.step (.commit pulled flipped)).Intact a ↔ t.Intact a := by
    intro a
    rw [Intact, Intact, hfbs, hreturned]
  have hacquired : ∀ a ∈ t.acquired pulled, t.source.currentFbId ≠ 0 ∧ a ∈ t.shown := by
    intro a ha
    rw [acquired, heq] at ha
    cases hr : result with
    | error e => simp [hr] at ha
    | ok fbId =>
      obtain ⟨rfl, hzero⟩ := hresult fbId hr
      refine ⟨hzero, ?_⟩
      rw [← hshown, shown, hsource, hfbs, hsamples]
      simpa [hr] using ha
  have hheld : ∀ a, a ∈ t.inFlight.drained ∨ a ∈ t.acquired pulled →
      t.source.currentFbId ≠ 0 ∧ a ∈ t.shown := fun a ha => ha.elim (ht.held a) (hacquired a)
  constructor
  · constructor
    case cached => simpa only [hsource, hfbs] using ht.cached
    case unresolved => simpa only [hsource] using ht.unresolved
    case current =>
      rw [hshown, hsource]
      exact fun h => (ht.current h).imp_right fun ⟨a, ha, h⟩ => ⟨a, ha, (hintact a).mpr h⟩
    case held =>
      rw [hshown, hsource]
      exact fun a ha => hheld a (mem_drained_commit ha)
    case sample_lt =>
      rw [hsource, hsamples, List.length_append]
      exact fun n hn => Nat.lt_add_right _ (ht.sample_lt n hn)
    case returned_lt =>
      rw [hreturned, hsamples, List.length_append]
      exact fun n hn => Nat.lt_add_right _ (ht.returned_lt n hn)
  · refine sound_commit.mpr fun a ha => (hintact a).mpr ?_
    obtain ⟨hzero, hmem⟩ := hheld a ha
    exact (ht.intact_of_shown hzero hmem).2

section Refused

variable {t : GstTrace} {sample : GstSample} (flipped : Bool) {pendingError : Option Errc} {e :
    Errc}
  (heq : t.source.acquire t.fbs t.samples.length (some sample) =
    { source := { (t.source.latchCaps t.fbs sample).1.1 with pendingError }
      fbs := (t.source.latchCaps t.fbs sample).1.2
      unrefd := [t.samples.length], result := .error e })

include heq

theorem acquired_refused : t.acquired (some sample) = none := by
  simp [acquired, heq]

theorem drained_refused : ∀ a ∈ (t.step (.commit (some sample) flipped)).inFlight.drained,
    a ∈ t.inFlight.drained := fun a ha => by
  simpa [acquired_refused heq] using mem_drained_commit ha

theorem sound_refused : t.Sound (.commit (some sample) flipped) ↔
    ∀ a ∈ t.inFlight.drained, (t.step (.commit (some sample) flipped)).Intact a := by
  simp [sound_commit, acquired_refused heq]

theorem returned_refused : (t.step (.commit (some sample) flipped)).returned =
    t.returned ++ [t.samples.length] := by
  simp [step, heq]

theorem returned_lt_refused (ht : t.Inv) :
    ∀ n ∈ (t.step (.commit (some sample) flipped)).returned, n < t.samples.length + 1 := by
  intro n hn
  rw [returned_refused flipped heq] at hn
  rcases List.mem_append.mp hn with hn | hn
  · exact Nat.lt_succ_of_lt (ht.returned_lt n hn)
  · exact (List.mem_singleton.mp hn) ▸ Nat.lt_succ_self _

/-- New caps tear the cache down, under what is in flight. -/
theorem commit_torn (ht : t.Inv) (hcaps : t.source.capsChanged sample = true) :
    (t.Sound (.commit (some sample) flipped) ↔ t.inFlight.drained = []) ∧
      (t.inFlight.drained = [] → (t.step (.commit (some sample) flipped)).Inv) := by
  rcases t.source.latchCaps_cases t.fbs sample with ⟨-, info, hl⟩ | ⟨hno, -⟩
  case inr => exact absurd (hno.symm.trans hcaps) nofun
  have hsource : (t.step (.commit (some sample) flipped)).source = { t.source with
      fbCache := [], currentFbId := 0, videoInfo := info, pendingError } := by
    simp [step, heq, hl]
  have hfbs : (t.step (.commit (some sample) flipped)).fbs = t.fbs.remove t.source.cachedIds := by
    simp [step, heq, hl]
  rw [sound_refused flipped heq]
  refine ⟨⟨fun h => ?_, fun h a ha => by simp [h] at ha⟩, fun hempty => ?_⟩
  · -- what is in flight is in the cache
    refine List.eq_nil_iff_forall_not_mem.mpr fun a ha => ?_
    obtain ⟨hzero, hmem⟩ := ht.held a ha
    obtain ⟨hid, -⟩ := ht.intact_of_shown hzero hmem
    obtain ⟨hafter, hmemory, -⟩ := h a ha
    rw [hfbs, Framebuffers.remove, if_pos hid] at hafter
    simp [← hafter] at hmemory
  · constructor
    case cached => rw [hsource, hfbs]; exact ⟨List.nodup_nil, by simp [GstAppsinkSource.cachedIds]⟩
    case unresolved => rw [hsource]; exact fun _ => ⟨rfl, rfl⟩
    case current => rw [hsource]; exact fun h => absurd rfl h
    case held => exact fun a ha => by simpa [hempty] using drained_refused flipped heq a ha
    case sample_lt =>
      rw [hsource, step, List.length_append]
      exact fun n hn => Nat.lt_add_right _ (ht.sample_lt n hn)
    case returned_lt =>
      rw [step, List.length_append]
      exact returned_lt_refused flipped heq ht

/-- Under the caps it had, a source that refuses a sample shows what it showed. -/
theorem commit_unchanged (ht : t.Inv) (hcaps : t.source.capsChanged sample = false) :
    t.Sound (.commit (some sample) flipped) ∧ (t.step (.commit (some sample) flipped)).Inv := by
  rcases t.source.latchCaps_cases t.fbs sample with ⟨hno, -⟩ | ⟨-, info, hl⟩
  case inl => exact absurd (hno.symm.trans hcaps) nofun
  have hsource : (t.step (.commit (some sample) flipped)).source = { t.source with
      videoInfo := info, pendingError } := by
    simp [step, heq, hl]
  have hfbs : (t.step (.commit (some sample) flipped)).fbs = t.fbs := by
    simp [step, heq, hl]
  have hshown : (t.step (.commit (some sample) flipped)).shown = t.shown :=
    shown_eq ht (by rw [hsource]) (by rw [hsource]) hfbs rfl
  have hintact : ∀ a ∈ t.shown, t.Intact a → (t.step (.commit (some sample) flipped)).Intact a := by
    rintro a ha ⟨hfb, hmemory, hnot⟩
    refine ⟨hfbs ▸ hfb, hmemory, ?_⟩
    rw [returned_refused flipped heq, List.mem_append, List.mem_singleton, not_or]
    exact ⟨hnot, (ht.sample_lt _ (mem_shown ha).2).ne⟩
  refine ⟨(sound_refused flipped heq).mpr fun a ha => hintact a (ht.held a ha).2 (ht.intact ha), ?_⟩
  constructor
  case cached => rw [hsource, hfbs]; exact ⟨ht.cached.nodup, ht.cached.live⟩
  case unresolved =>
    rw [hsource]
    rintro hinfo
    refine ht.unresolved (by_contra fun h => ?_)
    rw [GstAppsinkSource.latchCaps_resolved h hcaps] at hl
    have hsame : t.source.videoInfo = info := congrArg (·.1.videoInfo) hl
    exact h (hsame.trans hinfo)
  case current =>
    rw [hshown, hsource]
    exact fun h => (ht.current h).imp_right fun ⟨a, ha, h⟩ => ⟨a, ha, hintact a ha h⟩
  case held =>
    rw [hshown, hsource]
    exact fun a ha => ht.held a (drained_refused flipped heq a ha)
  case sample_lt =>
    rw [hsource, step, List.length_append]
    exact fun n hn => Nat.lt_add_right _ (ht.sample_lt n hn)
  case returned_lt =>
    rw [step, List.length_append]
    exact returned_lt_refused flipped heq ht

/-- A sample that is refused changes nothing on screen, unless its caps tear the cache down. -/
theorem commit_refused (ht : t.Inv) :
    (t.Sound (.commit (some sample) flipped) ↔
        (t.source.capsChanged sample = true → t.inFlight.drained = [])) ∧
      ((t.source.capsChanged sample = true → t.inFlight.drained = []) →
        (t.step (.commit (some sample) flipped)).Inv) := by
  cases hcaps : t.source.capsChanged sample with
  | true => simpa using commit_torn flipped heq ht hcaps
  | false => simpa using commit_unchanged flipped heq ht hcaps

end Refused

/-- A sample that replaces the one before goes on screen with its own memory, if the cache has no
other under its descriptor; the one before is gone for what is in flight. -/
theorem commit_replaced {t : GstTrace} (ht : t.Inv) {sample : GstSample} (flipped : Bool)
    {fbCache : List CachedFb} {fbId : FbId} {fbs' : Framebuffers}
    (hresolved : (t.source.latchCaps t.fbs sample).1.1.videoInfo ≠ none)
    (hfails : ¬ (t.source.latchCaps t.fbs sample).1.1.ImportFails
      (t.source.latchCaps t.fbs sample).1.2 sample)
    (himport : (t.source.latchCaps t.fbs sample).1.1.importDmabufSample
      (t.source.latchCaps t.fbs sample).1.2 t.samples.length sample =
        (({ (t.source.latchCaps t.fbs sample).1.1 with fbCache, currentFbId := fbId }, fbs'), none))
    (heq : t.source.acquire t.fbs t.samples.length (some sample) =
      { source := { (t.source.latchCaps t.fbs sample).1.1 with
          fbCache, currentFbId := fbId, currentSample := some t.samples.length }
        fbs := fbs', unrefd := t.source.currentSample.toList, result := .ok fbId }) :
    (t.Sound (.commit (some sample) flipped) ↔ t.inFlight.drained = [] ∧
        (t.source.latchCaps t.fbs sample).1.1.HitsOwnMemory
          (t.source.latchCaps t.fbs sample).1.2 sample) ∧
      (t.Sound (.commit (some sample) flipped) →
        (t.step (.commit (some sample) flipped)).Inv) := by
  obtain ⟨fbCache', fbId', fbs'', himport', hcached, hmem, hits⟩ :=
    (ht.cached.latchCaps sample).import hfails t.samples.length
  obtain ⟨rfl, rfl, rfl⟩ : fbCache = fbCache' ∧ fbId = fbId' ∧ fbs' = fbs'' := by
    have h := himport.symm.trans himport'
    simp only [Prod.mk.injEq, GstAppsinkSource.mk.injEq, and_true, true_and] at h
    exact ⟨h.1.2, h.1.1, h.2⟩
  have hlookup : (t.samples ++ [sample])[t.samples.length]? = some sample := by simp
  have hacquired : t.acquired (some sample) =
      some ⟨fbId, fbs' fbId, t.samples.length, sample.memory⟩ := by
    simp [acquired, heq]
  have hsource : (t.step (.commit (some sample) flipped)).source =
      { (t.source.latchCaps t.fbs sample).1.1 with
        fbCache, currentFbId := fbId, currentSample := some t.samples.length } := by
    simp [step, heq]
  have hfbs : (t.step (.commit (some sample) flipped)).fbs = fbs' := by simp [step, heq]
  have hsamples : (t.step (.commit (some sample) flipped)).samples = t.samples ++ [sample] := rfl
  have hreturned : (t.step (.commit (some sample) flipped)).returned =
      t.returned ++ t.source.currentSample.toList := by
    simp [step, heq]
  have hlt : ∀ n ∈ t.returned ++ t.source.currentSample.toList, n < t.samples.length := by
    intro n hn
    rcases List.mem_append.mp hn with hn | hn
    · exact ht.returned_lt n hn
    · exact ht.sample_lt n (Option.mem_toList.mp hn)
  have hshown : (t.step (.commit (some sample) flipped)).shown = t.acquired (some sample) := by
    rw [hacquired, shown, hsource, hfbs, hsamples]
    simp
  have hnew : (t.step (.commit (some sample) flipped)).Intact
      ⟨fbId, fbs' fbId, t.samples.length, sample.memory⟩ ↔
      (t.source.latchCaps t.fbs sample).1.1.HitsOwnMemory
        (t.source.latchCaps t.fbs sample).1.2 sample := by
    rw [Intact, hfbs, hreturned, ← hits]
    exact ⟨fun h => h.2.1, fun h => ⟨rfl, h, fun hn => (hlt _ hn).false⟩⟩
  have hsound : t.Sound (.commit (some sample) flipped) ↔ t.inFlight.drained = [] ∧
      (t.source.latchCaps t.fbs sample).1.1.HitsOwnMemory
        (t.source.latchCaps t.fbs sample).1.2 sample := by
    rw [sound_commit]
    constructor
    · intro h
      refine ⟨List.eq_nil_iff_forall_not_mem.mpr fun a ha => ?_, ?_⟩
      · -- what is in flight is of the sample that goes back
        obtain ⟨-, -, hnot⟩ := h a (.inl ha)
        have hsample := (mem_shown (ht.held a ha).2).2
        exact hnot (by simpa [hreturned] using .inr hsample)
      · exact hnew.mp (h _ (.inr hacquired))
    · rintro ⟨hempty, hown⟩ a (ha | ha)
      · simp [hempty] at ha
      · obtain rfl := Option.some.inj (hacquired.symm.trans ha)
        exact hnew.mpr hown
  refine ⟨hsound, fun h => ?_⟩
  obtain ⟨hempty, hown⟩ := hsound.mp h
  have hzero : fbId ≠ 0 := (hcached.live fbId hmem).1
  constructor
  case cached => rw [hsource, hfbs]; exact ⟨hcached.nodup, hcached.live⟩
  case unresolved => rw [hsource]; exact fun h => absurd h hresolved
  case current =>
    rw [hshown, hacquired, hsource]
    exact fun _ => ⟨hmem, _, rfl, hnew.mpr hown⟩
  case held =>
    rw [hshown, hsource]
    intro a ha
    rcases mem_drained_commit ha with ha | ha
    · simp [hempty] at ha
    · exact ⟨hzero, ha⟩
  case sample_lt =>
    rw [hsource, hsamples, List.length_append]
    rintro n hn
    obtain rfl := Option.some.inj hn
    exact Nat.lt_succ_self _
  case returned_lt =>
    rw [hreturned, hsamples, List.length_append]
    exact fun n hn => Nat.lt_succ_of_lt (hlt n hn)

/-- What a commit makes of a sample: its acquisitions are intact exactly if the condition holds. -/
theorem commit_sample {t : GstTrace} (ht : t.Inv) (sample : GstSample) (flipped : Bool) :
    (t.Sound (.commit (some sample) flipped) ↔ t.Kept (.commit (some sample) flipped)) ∧
      (t.Sound (.commit (some sample) flipped) →
        (t.step (.commit (some sample) flipped)).Inv) := by
  cases GstAppsinkSource.acquireCase ht.cached t.samples.length (some sample) with
  | quiet result hpull hresult heq =>
    have hpending : t.source.pendingError ≠ none := by simpa [Option.isSome_iff_ne_none] using hpull
    obtain ⟨hinv, hsound⟩ := commit_quiet ht flipped hresult heq
    exact ⟨iff_of_true hsound fun h => absurd h hpending, fun _ => hinv⟩
  | @refused sample' pendingError e herror hpull hwhy heq =>
    obtain rfl := Option.some.inj hpull
    obtain ⟨hsound, hinv⟩ := commit_refused flipped heq ht
    refine ⟨hsound.trans ⟨fun h _ => ⟨h, fun hcaps hfails => ?_⟩, fun h => (h herror).1⟩,
      fun h => hinv (hsound.mp h)⟩
    -- only the first sample can be refused with the import to come
    have hinfo : t.source.videoInfo = none := by
      by_contra hinfo
      rw [GstAppsinkSource.latchCaps_resolved hinfo hcaps] at hwhy
      rcases hwhy with hwhy | hwhy | hwhy
      · exact hinfo hwhy
      · simp [hcaps] at hwhy
      · exact hfails hwhy
    obtain ⟨hcache, hcurrent⟩ := ht.unresolved hinfo
    refine ⟨List.eq_nil_iff_forall_not_mem.mpr fun a ha => (ht.held a ha).1 hcurrent, ?_⟩
    intro keyFd _ entry hentry
    simp [hcache] at hentry
  | @replaced sample' fbCache fbId fbs' herror hpull hresolved hfails himport heq =>
    obtain rfl := Option.some.inj hpull
    obtain ⟨hsound, hinv⟩ := commit_replaced ht flipped hresolved hfails himport heq
    refine ⟨hsound.trans ?_, hinv⟩
    rcases t.source.latchCaps_cases t.fbs sample with ⟨hcaps, info, hl⟩ | ⟨hcaps, info, hl⟩
    · refine ⟨fun h _ => ⟨fun _ => h.1, fun hno => by simp [hcaps] at hno⟩, fun h => ⟨?_, ?_⟩⟩
      · exact (h herror).1 hcaps
      · intro keyFd _ entry hentry
        simp [hl] at hentry
    · rw [hl] at hfails ⊢
      exact ⟨fun h _ => ⟨fun hyes => by simp [hcaps] at hyes, fun _ _ => h⟩,
        fun h => (h herror).2 hcaps hfails⟩

/-! ### Runs -/

theorem inv_of_held {t t' : GstTrace} (ht : t.Inv) (hsource : t'.source = t.source)
    (hfbs : t'.fbs = t.fbs) (hsamples : t'.samples = t.samples)
    (hreturned : t'.returned = t.returned)
    (hheld : ∀ a ∈ t'.inFlight.drained, a ∈ t.inFlight.drained) : t'.Inv := by
  have hshown : t'.shown = t.shown :=
    shown_eq ht (by rw [hsource]) (by rw [hsource]) hfbs (by rw [hsamples, List.append_nil])
  have hintact : t'.Intact = t.Intact := by
    funext a
    rw [Intact, Intact, hfbs, hreturned]
  constructor
  case cached => simpa only [hsource, hfbs] using ht.cached
  case unresolved => simpa only [hsource] using ht.unresolved
  case current => simpa only [hsource, hshown, hintact] using ht.current
  case held =>
    rw [hsource, hshown]
    exact fun a ha => ht.held a (hheld a ha)
  case sample_lt => simpa only [hsource, hsamples] using ht.sample_lt
  case returned_lt => simpa only [hreturned, hsamples] using ht.returned_lt

theorem sound_release {t t' : GstTrace} {e : GstEvent} (ht : t.Inv) (hstep : t.step e = t')
    (hcommit : ∀ pulled flipped, e ≠ .commit pulled flipped) (hfbs : t'.fbs = t.fbs)
    (hreturned : t'.returned = t.returned) : t.Sound e := by
  rintro a (ha | ⟨pulled, flipped, rfl, -⟩)
  · rw [hstep, Intact, hfbs, hreturned]
    exact ht.intact ha
  · exact absurd rfl (hcommit pulled flipped)

theorem sound_iff_kept {t : GstTrace} (ht : t.Inv) (e : GstEvent) :
    (t.Sound e ↔ t.Kept e) ∧ (t.Sound e → (t.step e).Inv) := by
  cases e with
  | commit pulled flipped =>
    cases pulled with
    | some sample => exact commit_sample ht sample flipped
    | none =>
      cases GstAppsinkSource.acquireCase ht.cached t.samples.length none with
      | quiet result hpull hresult heq =>
        obtain ⟨hinv, hsound⟩ := commit_quiet ht flipped hresult heq
        exact ⟨iff_of_true hsound trivial, fun _ => hinv⟩
      | refused pendingError e herror hpull => cases hpull
      | replaced herror hpull => cases hpull
  | releaseDisplaced =>
    refine ⟨iff_of_true (sound_release ht rfl nofun rfl rfl) trivial, fun _ => ?_⟩
    exact inv_of_held ht rfl rfl rfl rfl fun a ha => List.mem_append_right _ (by
      simpa [step, InFlight.dropOldest, InFlight.drained] using ha)
  | drain =>
    refine ⟨iff_of_true (sound_release ht rfl nofun rfl rfl) trivial, fun _ => ?_⟩
    exact inv_of_held ht rfl rfl rfl rfl fun a ha => by
      simp [step, InFlight.drained] at ha

/-- Over any run, an acquired framebuffer keeps its memory and its sample until it is released
exactly when no acquisition is in flight while the caps change or a sample is replaced, and no
descriptor comes back for other memory. -/
theorem intact_iff_kept_run (fbCacheSize : ℕ+) (es : List GstEvent) :
    Meets step Sound (init fbCacheSize) es ↔ Meets step Kept (init fbCacheSize) es :=
  meets_iff_of_kept Inv (fun _ e h => (sound_iff_kept h e).2) (fun _ e h => (sound_iff_kept h e).1)
    (inv_init fbCacheSize) es

/-- A frame of a stream in one format. -/
def frame (memory keyFd fbId : ℕ) : GstSample :=
  { videoInfo := some ⟨23, 1920, 1080, some 842094158⟩, memory, keyFd := .ok keyFd
    imported := .ok fbId }

/-- Two frames of the pipeline, one commit each. -/
def playback : List GstEvent :=
  [.commit (some (frame 1 10 41)) true, .commit (some (frame 2 11 42)) true]

/-- The first frame's buffer is back in the pipeline while it is on screen. -/
theorem returned_on_screen_playback :
    ¬ ∀ (fbCacheSize : ℕ+) (es : List GstEvent), Meets step Sound (init fbCacheSize) es := by
  intro h
  obtain ⟨-, hsecond, -⟩ := h ⟨8, by decide⟩ playback
  obtain ⟨-, -, hnot⟩ := hsecond ⟨41, some ⟨1, 0⟩, 0, 1⟩ (.inl (by decide))
  exact hnot (by decide)

end GstTrace

end DrmCxx.Scene
