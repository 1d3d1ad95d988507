import DrmCxx.Verification.Scene.SignalRecovery

/-!
# The life of HDR blobs

The blobs the metadata cache makes, over any sequence of builds, commits, metadata changes and
session losses. None is destroyed twice or lost track of, but one can be destroyed while the
connector still shows it: a build that is not committed clears the property in the cache's books
only, and the next accepted commit then neither writes it nor spares its blob.
-/

namespace DrmCxx.Scene

open Lib Modeset
open Planes (CrtcId)

namespace HdrMetadataCache

/-- The blobs the cache has to destroy some day. -/
def owned (c : HdrMetadataCache) : List BlobId :=
  c.active.values.map (·.blob) ++ c.pendingDestruction

/-- The blob the CRTC's entry has and did not have before. -/
def newBlob (crtc : CrtcId) (before after : HdrMetadataCache) : List BlobId :=
  if after.active.find? crtc = before.active.find? crtc then []
  else ((after.active.find? crtc).map (·.blob)).toList

variable {c c' : HdrMetadataCache} {create : HdrSourceMetadata → Except Errc BlobId}
  {crtc : CrtcId} {src : Option HdrSourceMetadata} {blob : BlobId}

theorem owned_perm_erase (c : HdrMetadataCache) (crtc : CrtcId) :
    c.owned.Perm ((c.active.erase crtc).values.map (·.blob) ++ c.evict crtc) := by
  have h := (c.active.values_perm_erase crtc).map (·.blob)
  refine (h.append_right c.pendingDestruction).trans ?_
  rw [evict]
  cases c.active.find? crtc with
  | none => simp
  | some e =>
    simp only [Option.toList_some, List.map_cons, Option.map_some, List.cons_append,
      ← List.append_assoc]
    exact (List.perm_append_singleton _ _).symm

/-- What `set` does to the CRTC's entry and to the blobs. -/
structure SetSpec (crtc : CrtcId) (src : Option HdrSourceMetadata)
    (create : HdrSourceMetadata → Except Errc BlobId) (c c' : HdrMetadataCache) (blob : BlobId) :
    Prop where
  owned : c'.owned.Perm (newBlob crtc c c' ++ c.owned)
  entry : (c'.active.find? crtc).elim 0 (·.blob) = blob
  cleared : src = none → blob = 0
  shown : src ≠ none → (c'.active.find? crtc).isSome
  made : ∀ b ∈ newBlob crtc c c', ∃ md, create md = .ok b
  other : ∀ j, j ≠ crtc → c'.active.find? j = c.active.find? j

theorem set_spec (h : c.set create crtc src = .ok (c', blob)) :
    SetSpec crtc src create c c' blob := by
  cases src with
  | none =>
    cases h
    have hfind : (c.active.erase crtc).find? crtc = none := by simp
    have hnew : newBlob crtc c ⟨c.active.erase crtc, c.evict crtc⟩ = [] := by
      simp [newBlob, hfind]
    refine ⟨?_, by simp, fun _ => rfl, fun h => absurd rfl h, by simp [hnew], fun j hj => ?_⟩
    · rw [hnew]
      exact (c.owned_perm_erase crtc).symm
    · simp [hj]
  | some md =>
    rw [HdrMetadataCache.set] at h
    cases hfind : c.active.find? crtc with
    | none =>
      rw [hfind] at h
      obtain ⟨b, hb, hc⟩ := exists_of_map_ok h
      cases hc
      have hnew : newBlob crtc c
          ⟨c.active.insertOrAssign crtc ⟨blob, hdrMetadataHash md⟩, c.pendingDestruction⟩ =
            [blob] := by
        simp [newBlob, hfind]
      refine ⟨?_, by simp, by simp, fun _ => by simp, ?_, fun j hj => by simp [hj]⟩
      · rw [hnew]
        have h₁ := (c.active.values_insertOrAssign_perm crtc ⟨blob, hdrMetadataHash md⟩).map
          (·.blob)
        have h₂ := c.owned_perm_erase crtc
        rw [evict, hfind] at h₂
        refine (h₁.append_right c.pendingDestruction).trans ?_
        simpa using (h₂.cons blob).symm
      · rw [hnew]
        intro b hb'
        obtain rfl := List.mem_singleton.mp hb'
        exact ⟨md, hb⟩
    | some e =>
      rw [hfind] at h
      dsimp only at h
      split at h
      · cases h
        have hnew : newBlob crtc c c = [] := by simp [newBlob]
        exact ⟨by rw [hnew]; exact .refl _, by simp [hfind], by simp,
          fun _ => by simp [hfind], by simp [hnew], fun _ _ => rfl⟩
      · rename_i hhash
        obtain ⟨b, hb, hc⟩ := exists_of_map_ok h
        cases hc
        have hnew : newBlob crtc c
            ⟨c.active.insertOrAssign crtc ⟨blob, hdrMetadataHash md⟩, c.evict crtc⟩ = [blob] := by
          have hne : (⟨blob, hdrMetadataHash md⟩ : HdrEntry) ≠ e := fun h => hhash (by rw [← h])
          simp [newBlob, hfind, hne]
        refine ⟨?_, by simp, by simp, fun _ => by simp, ?_, fun j hj => by simp [hj]⟩
        · rw [hnew]
          have h₁ := (c.active.values_insertOrAssign_perm crtc ⟨blob, hdrMetadataHash md⟩).map
            (·.blob)
          refine (h₁.append_right (c.evict crtc)).trans ?_
          simpa using ((c.owned_perm_erase crtc).cons blob).symm
        · rw [hnew]
          intro b hb'
          obtain rfl := List.mem_singleton.mp hb'
          exact ⟨md, hb⟩

end HdrMetadataCache

namespace OutputState

variable (o : OutputProperties) (r : OutputRequests)

/-! ### The HDR part of a frame's signalling -/

/-- The build leaves the property out of its request. -/
def LeavesOut (sig : OutputState) (effective : Option HdrSourceMetadata) : Prop :=
  o.hasHdrOutputMetadata = false ∨
    r.hdrUserSet = false ∧ effective = none ∧ sig.lastWrittenHdrBlobId = 0

/-- The writer fails, leaves the property out, or writes it. -/
theorem injectHdrOutputMetadata_cases (sig : OutputState)
    (create : HdrSourceMetadata → Except Errc BlobId) (effective : Option HdrSourceMetadata) :
    (¬ sig.LeavesOut o r effective ∧
      ∃ e, sig.injectHdrOutputMetadata o r create effective = .error e) ∨
    (sig.LeavesOut o r effective ∧
      sig.injectHdrOutputMetadata o r create effective = .ok ⟨sig, [], false⟩) ∨
    (¬ sig.LeavesOut o r effective ∧ o.hasHdrOutputMetadata = true ∧ ∃ cache blob,
      sig.hdrCache.set create o.crtcId effective = .ok (cache, blob) ∧
      sig.injectHdrOutputMetadata o r create effective =
        .ok { state := { sig with hdrCache := cache, lastWrittenHdrBlobId := blob }
              writes := [(o.hdrKey, blob.toUInt64)]
              needsModeset := blob ≠ sig.lastWrittenHdrBlobId }) := by
  have hout : sig.LeavesOut o r effective ↔
      ((!r.hdrUserSet && effective.isNone && sig.lastWrittenHdrBlobId = 0) ||
        !o.hasHdrOutputMetadata) = true := by
    simp only [LeavesOut, Bool.or_eq_true, Bool.and_eq_true, Bool.not_eq_true',
      Option.isNone_iff_eq_none,
      decide_eq_true_eq, and_assoc]
    exact or_comm
  rw [injectHdrOutputMetadata]
  by_cases h : sig.LeavesOut o r effective
  · exact .inr (.inl ⟨h, if_pos (hout.mp h)⟩)
  · rw [if_neg (mt hout.mpr h)]
    have hhas : o.hasHdrOutputMetadata = true := by
      by_contra hno
      exact h (.inl (Bool.eq_false_iff.mpr hno))
    cases hset : sig.hdrCache.set create o.crtcId effective with
    | error e => exact .inl ⟨h, e, rfl⟩
    | ok answer => exact .inr (.inr ⟨h, hhas, answer.1, answer.2, rfl, rfl⟩)

/-- The other writers do not touch the HDR property. -/
theorem colorspace_ne_hdrKey (sig : OutputState) (desired : Option Colorspace) :
    ∀ w ∈ (sig.injectOutputColorspace o desired).writes, w.1 ≠ o.hdrKey := by
  rw [injectOutputColorspace]
  split
  · split <;> simp [OutputProperties.hdrKey]
  · simp

theorem vrr_ne_hdrKey (sig : OutputState) :
    ∀ w ∈ (sig.injectVrrEnabled o r).writes, w.1 ≠ o.hdrKey := by
  rw [injectVrrEnabled]
  split <;> simp [OutputProperties.hdrKey]

theorem regamma_ne_hdrKey (sig : OutputState) :
    ∀ w ∈ (sig.injectOutputRegammaTf o r).writes, w.1 ≠ o.hdrKey := by
  rw [injectOutputRegammaTf]
  split
  · simp
  · split <;> simp [OutputProperties.hdrKey]

/-- The metadata a frame is to show. -/
def frameHdr (f : SignalingFrame) : Option HdrSourceMetadata :=
  effectiveHdr r (deriveOutputSignaling f.layers o.caps)

/-- How signalling a frame ends for the HDR property: it fails, leaves the property out, or writes
it. -/
theorem signal_hdr_cases (sig : OutputState) (f : SignalingFrame) :
    let x := sig.signal o r f
    (x.error ≠ none ∧ x.state.hdrCache = sig.hdrCache ∧
      x.state.lastWrittenHdrBlobId = sig.lastWrittenHdrBlobId ∧
      ¬ sig.LeavesOut o r (frameHdr o r f)) ∨
    (x.error = none ∧ x.state.hdrCache = sig.hdrCache ∧
      x.state.lastWrittenHdrBlobId = sig.lastWrittenHdrBlobId ∧
      sig.LeavesOut o r (frameHdr o r f) ∧ ∀ w ∈ x.writes, w.1 ≠ o.hdrKey) ∨
    (x.error = none ∧ ¬ sig.LeavesOut o r (frameHdr o r f) ∧ o.hasHdrOutputMetadata = true ∧
      sig.hdrCache.set f.createBlob o.crtcId (frameHdr o r f) =
        .ok (x.state.hdrCache, x.state.lastWrittenHdrBlobId) ∧
      (∀ w ∈ x.writes, w.1 = o.hdrKey → w.2 = x.state.lastWrittenHdrBlobId.toUInt64) ∧
      ∃ w ∈ x.writes, w.1 = o.hdrKey) := by
  intro x
  obtain ⟨hcache, hlast⟩ := colorspace_keeps (o := o) sig
    (deriveOutputSignaling f.layers o.caps).colorspace
  have hcs := colorspace_ne_hdrKey o sig (deriveOutputSignaling f.layers o.caps).colorspace
  have hx : x = sig.signal o r f := rfl
  rw [signal] at hx
  generalize sig.injectOutputColorspace o (deriveOutputSignaling f.layers o.caps).colorspace = cs
    at hcache hlast hcs hx
  have hout : cs.state.LeavesOut o r (frameHdr o r f) ↔ sig.LeavesOut o r (frameHdr o r f) := by
    rw [LeavesOut, LeavesOut, hlast]
  dsimp only at hx
  rw [show effectiveHdr r (deriveOutputSignaling f.layers o.caps) = frameHdr o r f from rfl] at hx
  have hvrr := vrr_ne_hdrKey o r
  have hregamma := regamma_ne_hdrKey o r
  obtain ⟨h, e, hi⟩ | ⟨h, hi⟩ | ⟨h, hhas, cache, blob, hset, hi⟩ :=
    injectHdrOutputMetadata_cases o r cs.state f.createBlob (frameHdr o r f)
  all_goals rw [hi] at hx
  · rw [hx]
    exact .inl ⟨by simp, hcache, hlast, mt hout.mpr h⟩
  · refine .inr (.inl ?_)
    rw [hx]
    refine ⟨rfl, ?_, ?_, hout.mp h, fun w hw => ?_⟩
    · rw [(regamma_keeps _).1, (vrr_keeps _).1]
      exact hcache
    · rw [(regamma_keeps _).2.1, (vrr_keeps _).2.1]
      exact hlast
    · simp only [List.append_nil, List.mem_append] at hw
      rcases hw with (hw | hw) | hw
      · exact hcs w hw
      · exact hvrr _ w hw
      · exact hregamma _ w hw
  · refine .inr (.inr ?_)
    rw [hx]
    refine ⟨rfl, mt hout.mpr h, hhas, ?_, fun w hw hkey => ?_, ?_⟩
    · rw [(regamma_keeps _).1, (vrr_keeps _).1, (regamma_keeps _).2.1, (vrr_keeps _).2.1, ← hcache]
      exact hset
    · rw [(regamma_keeps _).2.1, (vrr_keeps _).2.1]
      simp only [List.mem_append, List.mem_singleton] at hw
      rcases hw with ((hw | rfl) | hw) | hw
      · exact absurd hkey (hcs w hw)
      · rfl
      · exact absurd hkey (hvrr _ w hw)
      · exact absurd hkey (hregamma _ w hw)
    · exact ⟨_, by simp only [List.mem_append, List.mem_singleton]; exact .inl (.inl (.inr rfl)),
        rfl⟩

end OutputState

/-! ### Commits, with the blobs and the connector -/

/-- How a build ends. A test-only build and a rejected one leave the kernel as it was. -/
inductive BuildOutcome
  | accepted
  | rejected
  | testOnly
  deriving DecidableEq, Repr

inductive HdrEvent
  | build (f : SignalingFrame) (outcome : BuildOutcome)
  | setOutputMetadata (src : Option HdrSourceMetadata)
  | sessionLost

structure HdrTrace where
  requests : OutputRequests := {}
  signaling : OutputState := {}
  kernel : Kernel
  created : List BlobId := []
  destroyed : List BlobId := []
  /-- The blobs that went with a lost session. -/
  forgotten : List BlobId := []
  /-- No commit of this session has written the connector's property. -/
  foreign : Bool := true

namespace HdrTrace

variable (o : OutputProperties)

def init (kernel : Kernel) : HdrTrace := { kernel }

/-- The signalling of a frame built now. -/
def signaled (t : HdrTrace) (f : SignalingFrame) : OutputState.Signaled :=
  t.signaling.signal o t.requests f

/-- The blobs the step destroys. -/
def freed (t : HdrTrace) : HdrEvent → List BlobId
  | .build f .accepted =>
    if (t.signaled o f).error = none then (t.signaled o f).state.hdrCache.pendingDestruction else []
  | _ => []

def step (t : HdrTrace) (event : HdrEvent) : HdrTrace :=
  match event with
  | .build f outcome =>
    let x := t.signaled o f
    let t' := { t with
      signaling := x.state
      created := t.created ++
        HdrMetadataCache.newBlob o.crtcId t.signaling.hdrCache x.state.hdrCache }
    if x.error = none ∧ outcome = .accepted then
      { t' with
        signaling := x.state.committed
        kernel := t.kernel.commit x.writes
        destroyed := t.destroyed ++ t.freed o event
        foreign := t.foreign && x.writes.all (·.1 ≠ o.hdrKey) }
    else t'
  | .setOutputMetadata src =>
    let (requests, signaling) := t.signaling.setOutputMetadata t.requests src
    { t with requests, signaling }
  | .sessionLost =>
    { t with
      signaling := t.signaling.sessionResumed
      forgotten := t.forgotten ++ t.signaling.hdrCache.owned
      foreign := true }

/-- What the connector shows. -/
def connector (t : HdrTrace) : UInt64 := t.kernel o.hdrKey

/-- The kernel makes a blob under an id of its own: not 0, not that of a blob of this scene, not
one the connector refers to. -/
def MakesFresh (t : HdrTrace) : HdrEvent → Prop
  | .build f _ => ∀ md b, f.createBlob md = .ok b →
      b ≠ 0 ∧ b ∉ t.signaling.hdrCache.owned ∧ b.toUInt64 ≠ t.connector o
  | _ => True

/-- What is owed to the blobs at a step. -/
structure BlobsKept (t : HdrTrace) (e : HdrEvent) : Prop where
  /-- Every blob made is destroyed once, forgotten once, or the cache's. -/
  conserved : (t.step o e).created.Perm ((t.step o e).destroyed ++
    ((t.step o e).forgotten ++ (t.step o e).signaling.hdrCache.owned))
  one : (t.step o e).signaling.hdrCache.active.size ≤ 1
  /-- A commit leaves only the active blob. -/
  acknowledged : ∀ f, e = .build f .accepted → (t.signaled o f).error = none →
    (t.step o e).signaling.hdrCache.pendingDestruction = []
  /-- No blob goes while the connector shows it. -/
  shown : ∀ b ∈ t.freed o e, b.toUInt64 ≠ (t.step o e).connector o

/-- An accepted commit that leaves the property out finds it cleared, or as another session left
it. -/
def Kept (t : HdrTrace) : HdrEvent → Prop
  | .build f .accepted => t.requests.hdrUserSet = false →
      OutputState.frameHdr o t.requests f = none → t.signaling.lastWrittenHdrBlobId = 0 →
      t.connector o = 0 ∨ t.foreign = true
  | _ => True

structure Inv (t : HdrTrace) : Prop where
  conserved : t.created.Perm (t.destroyed ++ (t.forgotten ++ t.signaling.hdrCache.owned))
  keys : ∀ j, j ≠ o.crtcId → t.signaling.hdrCache.active.find? j = none
  entry : (t.signaling.hdrCache.active.find? o.crtcId).elim 0 (·.blob) =
    t.signaling.lastWrittenHdrBlobId
  nodup : t.signaling.hdrCache.owned.Nodup
  nonzero : (0 : BlobId) ∉ t.signaling.hdrCache.owned
  none : o.hasHdrOutputMetadata = false → t.signaling.hdrCache.owned = [] ∧ t.foreign = true
  /-- What this session wrote is the cache's. -/
  own : t.foreign = false → t.connector o = 0 ∨
    ∃ b ∈ t.signaling.hdrCache.owned, t.connector o = b.toUInt64
  other : t.foreign = true → ∀ b ∈ t.signaling.hdrCache.owned, b.toUInt64 ≠ t.connector o

/-! ### One build -/

variable {o} {t : HdrTrace} {f : SignalingFrame}

/-- What a build does to the cache, whatever becomes of it. -/
structure BuildSpec (o : OutputProperties) (t : HdrTrace) (f : SignalingFrame) : Prop where
  owned : (t.signaled o f).state.hdrCache.owned.Perm
    (HdrMetadataCache.newBlob o.crtcId t.signaling.hdrCache (t.signaled o f).state.hdrCache ++
      t.signaling.hdrCache.owned)
  keys : ∀ j, j ≠ o.crtcId → (t.signaled o f).state.hdrCache.active.find? j = none
  entry : ((t.signaled o f).state.hdrCache.active.find? o.crtcId).elim 0 (·.blob) =
    (t.signaled o f).state.lastWrittenHdrBlobId
  made : ∀ b ∈ HdrMetadataCache.newBlob o.crtcId t.signaling.hdrCache
    (t.signaled o f).state.hdrCache, ∃ md, f.createBlob md = .ok b
  none : o.hasHdrOutputMetadata = false →
    (t.signaled o f).state.hdrCache = t.signaling.hdrCache

theorem buildSpec (ht : t.Inv o) (f : SignalingFrame) : BuildSpec o t f := by
  have hsame : (t.signaled o f).state.hdrCache = t.signaling.hdrCache →
      (t.signaled o f).state.lastWrittenHdrBlobId = t.signaling.lastWrittenHdrBlobId →
      BuildSpec o t f := by
    intro hc hl
    have hnew : HdrMetadataCache.newBlob o.crtcId t.signaling.hdrCache t.signaling.hdrCache =
      [] := by
      simp [HdrMetadataCache.newBlob]
    refine ⟨?_, ?_, ?_, ?_, fun _ => hc⟩ <;> rw [hc]
    · rw [hnew]
      exact .refl _
    · exact ht.keys
    · rw [hl]
      exact ht.entry
    · simp [hnew]
  rcases t.signaling.signal_hdr_cases o t.requests f with ⟨-, hc, hl, -⟩ | ⟨-, hc, hl, -, -⟩ |
    ⟨-, -, hhas, hset, -, -⟩
  · exact hsame hc hl
  · exact hsame hc hl
  · have hspec := HdrMetadataCache.set_spec hset
    exact ⟨hspec.owned, fun j hj => (hspec.other j hj).trans (ht.keys j hj), hspec.entry,
      hspec.made, fun h => absurd hhas (by simp [h])⟩

/-- A build alone. -/
def built (o : OutputProperties) (t : HdrTrace) (f : SignalingFrame) : HdrTrace :=
  { t with
    signaling := (t.signaled o f).state
    created := t.created ++ HdrMetadataCache.newBlob o.crtcId t.signaling.hdrCache
      (t.signaled o f).state.hdrCache }

theorem newBlob_length_le (crtc : CrtcId) (c c' : HdrMetadataCache) :
    (HdrMetadataCache.newBlob crtc c c').length ≤ 1 := by
  rw [HdrMetadataCache.newBlob]
  split
  · simp
  · cases c'.active.find? crtc <;> simp

theorem inv_built (ht : t.Inv o) (outcome : BuildOutcome)
    (hfresh : t.MakesFresh o (.build f outcome)) : (t.built o f).Inv o := by
  have hb := buildSpec ht f
  have hnew : ∀ b ∈ HdrMetadataCache.newBlob o.crtcId t.signaling.hdrCache
      (t.signaled o f).state.hdrCache,
      b ≠ 0 ∧ b ∉ t.signaling.hdrCache.owned ∧ b.toUInt64 ≠ t.connector o := fun b hmem => by
    obtain ⟨md, hmd⟩ := hb.made b hmem
    exact hfresh md b hmd
  have hmem : ∀ b, b ∈ (t.signaled o f).state.hdrCache.owned ↔
      b ∈ HdrMetadataCache.newBlob o.crtcId t.signaling.hdrCache (t.signaled o f).state.hdrCache ∨
      b ∈ t.signaling.hdrCache.owned := fun b => by
    rw [hb.owned.mem_iff, List.mem_append]
  constructor
  case conserved =>
    refine (ht.conserved.append_right _).trans (List.perm_iff_count.mpr fun b => ?_)
    have := hb.owned.count_eq b
    simp only [built, List.count_append] at this ⊢
    omega
  case keys => exact hb.keys
  case entry => exact hb.entry
  case nodup =>
    refine (hb.owned.nodup_iff).mpr (List.nodup_append.mpr ⟨?_, ht.nodup, ?_⟩)
    · have hlen := newBlob_length_le o.crtcId t.signaling.hdrCache (t.signaled o f).state.hdrCache
      exact List.nodup_iff_count_le_one.mpr fun b => (List.count_le_length).trans hlen
    · rintro b hb' _ hbo rfl
      exact (hnew b hb').2.1 hbo
  case nonzero =>
    intro h0
    rcases (hmem 0).mp h0 with h | h
    · exact (hnew 0 h).1 rfl
    · exact ht.nonzero h
  case none =>
    intro hno
    simp only [built, hb.none hno]
    exact ht.none hno
  case own =>
    intro hf
    exact (ht.own hf).imp id fun ⟨b, hbo, hc⟩ => ⟨b, (hmem b).mpr (.inr hbo), hc⟩
  case other =>
    intro hf b hbo
    rcases (hmem b).mp hbo with h | h
    · exact (hnew b h).2.2
    · exact ht.other hf b h

theorem inv_init (kernel : Kernel) : (init kernel).Inv o where
  conserved := .refl _
  keys _ _ := rfl
  entry := rfl
  nodup := List.nodup_nil
  nonzero := List.not_mem_nil
  none _ := ⟨rfl, rfl⟩
  own h := nomatch h
  other _ _ hb := nomatch hb

/-- The table has the CRTC's entry only. -/
theorem Inv.size_le (ht : t.Inv o) : t.signaling.hdrCache.active.size ≤ 1 := by
  have hall : ∀ j ∈ t.signaling.hdrCache.active.entries.map Prod.fst, j = o.crtcId := by
    intro j hj
    obtain ⟨⟨j, a⟩, hm, rfl⟩ := List.mem_map.mp hj
    by_contra hne
    exact Table.find?_eq_none.mp (ht.keys j hne) a hm
  have hnd := t.signaling.hdrCache.active.nodupKeys
  rw [List.eq_replicate_of_mem hall, List.nodup_replicate] at hnd
  simpa [Table.size] using hnd

/-- The blob remembered as written last is 0 or the active one. -/
theorem Inv.last (ht : t.Inv o) : t.signaling.lastWrittenHdrBlobId = 0 ∨
    t.signaling.lastWrittenHdrBlobId ∈ t.signaling.hdrCache.active.values.map (·.blob) := by
  have hentry := ht.entry
  cases hfind : t.signaling.hdrCache.active.find? o.crtcId with
  | none =>
    rw [hfind] at hentry
    exact .inl hentry.symm
  | some e =>
    rw [hfind] at hentry
    refine .inr (List.mem_map.mpr ⟨e, Table.mem_values.mpr ⟨o.crtcId, ?_⟩, hentry⟩)
    exact Table.find?_eq_some.mp hfind

/-- Nothing written last, nothing active: all the cache owns is queued. -/
theorem Inv.owned_of_last_zero (ht : t.Inv o) (h0 : t.signaling.lastWrittenHdrBlobId = 0) :
    t.signaling.hdrCache.owned = t.signaling.hdrCache.pendingDestruction := by
  have hempty : t.signaling.hdrCache.active.values = [] := by
    refine List.eq_nil_iff_forall_not_mem.mpr fun e he => ?_
    obtain ⟨j, hj⟩ := Table.mem_values.mp he
    have hfind := Table.find?_eq_some.mpr hj
    by_cases hjc : j = o.crtcId
    · subst hjc
      have hentry := ht.entry
      rw [hfind, h0] at hentry
      refine ht.nonzero (List.mem_append_left _ (List.mem_map.mpr ⟨e, he, hentry⟩))
    · rw [ht.keys j hjc] at hfind
      cases hfind
  simp [HdrMetadataCache.owned, hempty]

theorem step_of_not_committed {e : HdrEvent} {outcome : BuildOutcome} (he : e = .build f outcome)
    (h : ¬ ((t.signaled o f).error = none ∧ outcome = .accepted)) :
    t.step o e = t.built o f ∧ t.freed o e = [] := by
  subst he
  refine ⟨if_neg h, ?_⟩
  cases outcome with
  | accepted => exact if_neg fun h' => h ⟨h', rfl⟩
  | rejected => rfl
  | testOnly => rfl

/-! ### An accepted commit -/

section Committed

variable (hx : (t.signaled o f).error = none)

include hx

theorem freed_committed : t.freed o (.build f .accepted) =
    (t.built o f).signaling.hdrCache.pendingDestruction :=
  if_pos hx

theorem step_committed : t.step o (.build f .accepted) = { t.built o f with
    signaling := (t.built o f).signaling.committed
    kernel := t.kernel.commit (t.signaled o f).writes
    destroyed := t.destroyed ++ (t.built o f).signaling.hdrCache.pendingDestruction
    foreign := t.foreign && (t.signaled o f).writes.all (·.1 ≠ o.hdrKey) } := by
  rw [step, if_pos ⟨hx, rfl⟩, freed_committed hx]
  rfl

/-- The connector shows what it did, or the blob this commit wrote. -/
theorem connector_committed (t₁ : HdrTrace) (ht₁ : t.step o (.build f .accepted) = t₁) :
    (t.signaling.LeavesOut o t.requests (OutputState.frameHdr o t.requests f) ∧
      t₁.foreign = t.foreign ∧ t₁.connector o = t.connector o) ∨
    (¬ t.signaling.LeavesOut o t.requests (OutputState.frameHdr o t.requests f) ∧
      o.hasHdrOutputMetadata = true ∧ t₁.foreign = false ∧
      t₁.connector o = (t.built o f).signaling.lastWrittenHdrBlobId.toUInt64) := by
  rw [step_committed hx] at ht₁
  subst ht₁
  rcases t.signaling.signal_hdr_cases o t.requests f with ⟨herr, -⟩ | ⟨-, -, -, hout, hw⟩ |
    ⟨-, hout, hhas, -, hw, w, hmem, hkey⟩
  · exact absurd hx herr
  · refine .inl ⟨hout, ?_, applyWrites_of_not_mem hw⟩
    have hall : (t.signaled o f).writes.all (·.1 ≠ o.hdrKey) = true :=
      List.all_eq_true.mpr fun w hw' => decide_eq_true (hw w hw')
    simp only [hall, Bool.and_true]
  · refine .inr ⟨hout, hhas, ?_, applyWrites_eq hw (.inr ⟨w, hmem, hkey⟩)⟩
    have hall : (t.signaled o f).writes.all (·.1 ≠ o.hdrKey) = false :=
      List.all_eq_false.mpr ⟨w, hmem, by simp [hkey]⟩
    simp only [hall, Bool.and_false]

theorem conserved_committed (ht : (t.built o f).Inv o) :
    let t₁ := t.step o (.build f .accepted)
    t₁.created.Perm (t₁.destroyed ++ (t₁.forgotten ++ t₁.signaling.hdrCache.owned)) := by
  rw [step_committed hx]
  refine ht.conserved.trans (List.perm_iff_count.mpr fun b => ?_)
  simp only [built, HdrMetadataCache.owned, OutputState.committed,
    HdrMetadataCache.acknowledgeCommitted, List.count_append, List.count_nil]
  omega

/-- A commit frees nothing the connector shows, unless it leaves the property out while the
connector still has a blob of this session. -/
theorem shown_iff_kept (ht : t.Inv o) (hb : (t.built o f).Inv o) :
    (∀ b ∈ t.freed o (.build f .accepted),
      b.toUInt64 ≠ (t.step o (.build f .accepted)).connector o) ↔
        t.Kept o (.build f .accepted) := by
  rw [freed_committed hx]
  rcases connector_committed hx _ rfl with ⟨hout, -, hconn⟩ | ⟨hout, hhas, -, hconn⟩
  · rw [hconn]
    rcases hout with hno | ⟨huser, hnone, hzero⟩
    · obtain ⟨hown, -⟩ := hb.none hno
      have hpending : (t.built o f).signaling.hdrCache.pendingDestruction = [] :=
        (List.append_eq_nil_iff.mp hown).2
      refine iff_of_true (fun b hbp => ?_) fun _ _ _ => .inr (ht.none hno).2
      rw [hpending] at hbp
      cases hbp
    · have hlast : (t.built o f).signaling.lastWrittenHdrBlobId = 0 := by
        rcases t.signaling.signal_hdr_cases o t.requests f with ⟨herr, -⟩ | ⟨-, -, hl, -⟩ |
          ⟨-, hno, -⟩
        · exact absurd hx herr
        · exact hl.trans hzero
        · exact absurd (.inr ⟨huser, hnone, hzero⟩) hno
      -- whatever the connector shows of this session is queued
      rw [← hb.owned_of_last_zero hlast]
      constructor
      · intro hshown _ _ _
        cases hforeign : t.foreign with
        | true => exact .inr rfl
        | false =>
          rcases hb.own hforeign with h0 | ⟨b, hbo, hc⟩
          · exact .inl h0
          · exact absurd hc.symm (hshown b hbo)
      · intro hk b hbo
        rcases hk huser hnone hzero with h0 | hforeign
        · rw [h0]
          exact OutputState.toUInt64_ne_zero fun h => hb.nonzero (h ▸ hbo)
        · exact hb.other hforeign b hbo
  · rw [hconn]
    refine iff_of_true (fun b hbp heq => ?_) fun huser hnone hzero =>
      absurd (.inr ⟨huser, hnone, hzero⟩) hout
    have hb' : b = (t.built o f).signaling.lastWrittenHdrBlobId := UInt32.toUInt64_inj.mp heq
    rcases hb.last with h0 | hactive
    · exact hb.nonzero (List.mem_append_right _ ((hb'.trans h0) ▸ hbp))
    · exact (List.nodup_append.mp hb.nodup).2.2 _ hactive b hbp hb'.symm

theorem inv_committed (ht : t.Inv o) (hb : (t.built o f).Inv o)
    (hshown : ∀ b ∈ t.freed o (.build f .accepted),
      b.toUInt64 ≠ (t.step o (.build f .accepted)).connector o) :
    (t.step o (.build f .accepted)).Inv o := by
  rw [freed_committed hx] at hshown
  have hconn := connector_committed hx _ rfl
  have hcons := conserved_committed hx hb
  have hcache : (t.step o (.build f .accepted)).signaling.hdrCache.owned =
      (t.built o f).signaling.hdrCache.active.values.map (·.blob) := by
    rw [step_committed hx]
    simp [HdrMetadataCache.owned, OutputState.committed, HdrMetadataCache.acknowledgeCommitted]
  have hsub : ∀ b ∈ (t.step o (.build f .accepted)).signaling.hdrCache.owned,
      b ∈ (t.built o f).signaling.hdrCache.owned := fun b hbo =>
    List.mem_append_left _ (hcache ▸ hbo)
  have hsig : (t.step o (.build f .accepted)).signaling = (t.built o f).signaling.committed := by
    rw [step_committed hx]
  constructor
  case conserved => exact hcons
  case keys =>
    rw [hsig]
    exact hb.keys
  case entry =>
    rw [hsig]
    exact hb.entry
  case nodup =>
    rw [hcache]
    exact (List.nodup_append.mp hb.nodup).1
  case nonzero => exact fun h => hb.nonzero (hsub 0 h)
  case none =>
    intro hno
    rcases hconn with ⟨-, hf, -⟩ | ⟨-, hhas, -⟩
    · refine ⟨?_, hf.trans (ht.none hno).2⟩
      rw [hcache]
      exact (List.append_eq_nil_iff.mp (hb.none hno).1).1
    · exact absurd hhas (by simp [hno])
  case own =>
    intro hf
    rcases hconn with ⟨-, hf', hc⟩ | ⟨-, -, -, hc⟩
    · rcases hb.own (hf'.symm.trans hf) with h0 | ⟨b, hbo, hcb⟩
      · exact .inl (hc.trans h0)
      · refine .inr ⟨b, ?_, hc.trans hcb⟩
        rw [hcache]
        refine (List.mem_append.mp hbo).resolve_right fun hbp => ?_
        exact hshown b hbp (hcb.symm.trans hc.symm)
    · rcases hb.last with h0 | hactive
      · exact .inl (by rw [hc, h0]; rfl)
      · exact .inr ⟨_, hcache ▸ hactive, hc⟩
  case other =>
    intro hf b hbo
    rcases hconn with ⟨-, hf', hc⟩ | ⟨-, -, hf', -⟩
    · rw [hc]
      exact hb.other (hf'.symm.trans hf) b (hsub b hbo)
    · exact absurd hf (by simp [hf'])

end Committed

theorem blobsKept_of_inv {e : HdrEvent} (h : (t.step o e).Inv o)
    (hack : ∀ f, e = .build f .accepted → (t.signaled o f).error = none →
      (t.step o e).signaling.hdrCache.pendingDestruction = [])
    (hshown : ∀ b ∈ t.freed o e, b.toUInt64 ≠ (t.step o e).connector o) : t.BlobsKept o e :=
  ⟨h.conserved, h.size_le, hack, hshown⟩

/-! ### Runs -/

theorem inv_sessionLost (ht : t.Inv o) : (t.step o .sessionLost).Inv o where
  conserved := by
    refine ht.conserved.trans (List.perm_iff_count.mpr fun b => ?_)
    simp [step, HdrMetadataCache.owned, OutputState.sessionResumed,
      HdrMetadataCache.clearForSessionLoss, Table.values, Table.empty, List.count_append]
  keys _ _ := rfl
  entry := rfl
  nodup := List.nodup_nil
  nonzero := List.not_mem_nil
  none _ := ⟨rfl, rfl⟩
  own h := nomatch h
  other _ _ hb := nomatch hb

theorem inv_setOutputMetadata (ht : t.Inv o) (src : Option HdrSourceMetadata) :
    (t.step o (.setOutputMetadata src)).Inv o :=
  ⟨ht.conserved, ht.keys, ht.entry, ht.nodup, ht.nonzero, ht.none, ht.own, ht.other⟩

/-- A step owes the blobs what it owes them exactly if it is kept. -/
theorem blobsKept_iff_kept (ht : t.Inv o) {e : HdrEvent} (hfresh : t.MakesFresh o e) :
    t.BlobsKept o e ↔ t.Kept o e := by
  cases e with
  | build f outcome =>
    have hb := inv_built ht outcome hfresh
    by_cases hcommit : (t.signaled o f).error = none ∧ outcome = .accepted
    · obtain ⟨hx, rfl⟩ := hcommit
      refine ⟨fun h => (shown_iff_kept hx ht hb).mp h.shown, fun h => ?_⟩
      have hshown := (shown_iff_kept hx ht hb).mpr h
      refine blobsKept_of_inv (inv_committed hx ht hb hshown) (fun _ _ _ => ?_) hshown
      rw [step_committed hx]
      rfl
    · obtain ⟨hstep, hfreed⟩ := step_of_not_committed rfl hcommit
      refine iff_of_true (blobsKept_of_inv (by rw [hstep]; exact hb) ?_ ?_) ?_
      · rintro f' he herr
        cases he
        exact absurd ⟨herr, rfl⟩ hcommit
      · rw [hfreed]
        exact fun b hbf => nomatch hbf
      · cases outcome with
        | accepted =>
          -- a build that leaves the property out does not fail
          intro huser hnone hzero
          rcases t.signaling.signal_hdr_cases o t.requests f with ⟨-, -, -, hno⟩ | ⟨hx, -⟩ |
            ⟨hx, -⟩
          · exact absurd (.inr ⟨huser, hnone, hzero⟩) hno
          · exact absurd ⟨hx, rfl⟩ hcommit
          · exact absurd ⟨hx, rfl⟩ hcommit
        | rejected => trivial
        | testOnly => trivial
  | setOutputMetadata src =>
    refine iff_of_true (blobsKept_of_inv (inv_setOutputMetadata ht src) ?_ ?_) trivial
    · exact fun _ he => nomatch he
    · exact fun _ hbf => nomatch hbf
  | sessionLost =>
    refine iff_of_true (blobsKept_of_inv (inv_sessionLost ht) ?_ ?_) trivial
    · exact fun _ he => nomatch he
    · exact fun _ hbf => nomatch hbf

theorem inv_step (ht : t.Inv o) {e : HdrEvent} (hfresh : t.MakesFresh o e)
    (h : t.BlobsKept o e) : (t.step o e).Inv o := by
  cases e with
  | build f outcome =>
    have hb := inv_built ht outcome hfresh
    by_cases hcommit : (t.signaled o f).error = none ∧ outcome = .accepted
    · obtain ⟨hx, rfl⟩ := hcommit
      exact inv_committed hx ht hb h.shown
    · rw [(step_of_not_committed rfl hcommit).1]
      exact hb
  | setOutputMetadata src => exact inv_setOutputMetadata ht src
  | sessionLost => exact inv_sessionLost ht

/-- Over the runs in which the kernel names its blobs apart, the blobs are kept exactly if every
accepted commit that leaves the property out finds it cleared, or as another session left it. -/
theorem blobsKept_iff_kept_run (o : OutputProperties) (kernel : Kernel) {es : List HdrEvent}
    (hes : Meets (step o) (MakesFresh o) (init kernel) es) :
    Meets (step o) (BlobsKept o) (init kernel) es ↔ Meets (step o) (Kept o) (init kernel) es :=
  meets_iff_of_kept_under (Inv o) (fun _ _ hf ht h => inv_step ht hf h)
    (fun _ _ hf ht => blobsKept_iff_kept ht hf) (inv_init kernel) hes

/-- A connector that can show HDR. -/
def hdrOutput : OutputProperties :=
  { crtcId := 1
    connectorId := 2
    caps := { hasHdrOutputMetadata := true, hasMaxBpc := true, maxBpcMax := some 12 }
    hasHdrOutputMetadata := true }

/-- A frame with a PQ layer; its blob is 7. -/
def hdrFrame : SignalingFrame :=
  { layers := [{ sourceEotf := some .smpteSt2084Pq }], createBlob := fun _ => .ok 7 }

def sdrFrame : SignalingFrame := { layers := [], createBlob := fun _ => .error .notSupported }

/-- The HDR layer goes, and the frame without it is tested before it is committed. -/
def testedClear : List HdrEvent :=
  [.build hdrFrame .accepted, .build sdrFrame .testOnly, .build sdrFrame .accepted]

theorem makesFresh_sdrFrame (t : HdrTrace) (outcome : BuildOutcome) :
    t.MakesFresh hdrOutput (.build sdrFrame outcome) :=
  fun _ _ h => nomatch h

theorem makesFresh_hdrFrame :
    (init fun _ => 0).MakesFresh hdrOutput (.build hdrFrame .accepted) := by
  intro md b hb
  obtain rfl : 7 = b := Except.ok.inj hb
  decide

theorem shown_blob_destroyed_testedClear :
    ¬ ∀ es : List HdrEvent,
      Meets (step hdrOutput) (MakesFresh hdrOutput) (init fun _ => 0) es →
        Meets (step hdrOutput) (BlobsKept hdrOutput) (init fun _ => 0) es := by
  intro h
  have hkept := h testedClear
    ⟨makesFresh_hdrFrame, makesFresh_sdrFrame _ _, makesFresh_sdrFrame _ _, trivial⟩
  refine hkept.2.2.1.shown 7 ?_ ?_
  · decide +kernel
  · decide +kernel

/-- The same change committed at once. -/
def untestedClear : List HdrEvent := [.build hdrFrame .accepted, .build sdrFrame .accepted]

theorem blobsKept_untestedClear :
    Meets (step hdrOutput) (BlobsKept hdrOutput) (init fun _ => 0) untestedClear := by
  have hfresh : Meets (step hdrOutput) (MakesFresh hdrOutput) (init fun _ => 0) untestedClear :=
    ⟨makesFresh_hdrFrame, makesFresh_sdrFrame _ _, trivial⟩
  refine (blobsKept_iff_kept_run hdrOutput (fun _ => 0) hfresh).mpr ⟨?_, ?_, trivial⟩
  · exact fun _ _ _ => .inl rfl
  · intro _ _ hzero
    revert hzero
    decide +kernel

end HdrTrace

end DrmCxx.Scene
