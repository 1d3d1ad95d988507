import DrmCxx.Lib.Run
import DrmCxx.Scene.SceneLifecycle
import DrmCxx.Verification.Planes.Trace
import DrmCxx.Verification.Scene.Signals
import Mathlib.Data.UInt

/-!
# Signals after a rejected commit

The four writers diff a frame against what they wrote last, which is what the kernel has as long as
the kernel takes what is written. A rejected commit that asked for something new leaves them ahead
of the kernel: the next frame writes too little, or without `ALLOW_MODESET`.
-/

namespace DrmCxx.Scene

open Lib Modeset
open Planes (CrtcId Flags)

namespace OutputProperties

variable (o : OutputProperties)

def colorspaceKey : PropKey := (o.connectorId, .output .colorspace)

def hdrKey : PropKey := (o.connectorId, .output .hdrOutputMetadata)

def vrrKey : PropKey := (o.crtcId, .output .vrrEnabled)

def regammaKey : PropKey := (o.crtcId, .output .amdCrtcRegammaTf)

/-! ### What a frame asks for -/

/-- The colour space asked for, as far as the connector takes it. -/
def askedColorspace (desired : Option Colorspace) : Option UInt64 :=
  if o.caps.hasColorspace && o.hasColorspace then desired.bind (OutputState.colorspaceEntry o)
  else none

def vrrValue (enable : Bool) : UInt64 := if enable then 1 else 0

def askedVrr (r : OutputRequests) : Option UInt64 :=
  if r.vrrUserSet && o.hasVrrEnabled then some (vrrValue r.desiredVrr) else none

def askedRegamma (r : OutputRequests) : Option UInt64 :=
  if r.regammaTfUserSet && o.hasRegammaTf then o.regammaValue r.desiredRegammaTf else none

end OutputProperties

/-- The bytes of the blobs made so far, by id. -/
abbrev BlobBytes := UInt64 → Option (List UInt8)

/-- The kernel shows the metadata, or no metadata when there is none. -/
def ShowsHdr (k : Kernel) (blobs : BlobBytes) (o : OutputProperties) :
    Option HdrSourceMetadata → Prop
  | none => k o.hdrKey = 0
  | some md => blobs (k o.hdrKey) = some (serializeHdrMetadata md)

/-- The kernel has every signal the frame asks for. -/
structure ShowsSignals (k : Kernel) (blobs : BlobBytes) (o : OutputProperties) (r : OutputRequests)
    (layers : List ContentColor) : Prop where
  colorspace : ∀ v, o.askedColorspace (deriveOutputSignaling layers o.caps).colorspace = some v →
    k o.colorspaceKey = v
  hdr : o.hasHdrOutputMetadata → ShowsHdr k blobs o
    (OutputState.effectiveHdr r (deriveOutputSignaling layers o.caps))
  vrr : ∀ v, o.askedVrr r = some v → k o.vrrKey = v
  regamma : ∀ v, o.askedRegamma r = some v → k o.regammaKey = v

namespace OutputState

variable (o : OutputProperties) (r : OutputRequests)

/-! ### In step with the kernel -/

/-- The cache holds the blob written last, with the hash of its bytes. -/
def Cached (blobs : BlobBytes) (last : BlobId) : Option HdrEntry → Prop
  | none => last = 0
  | some e => e.blob = last ∧ e.blob ≠ 0 ∧
    ∃ bytes, blobs e.blob.toUInt64 = some bytes ∧ e.hash = fnv1a64 bytes

/-- What the scene wrote last is what the kernel has. -/
structure InSync (sig : OutputState) (k : Kernel) (blobs : BlobBytes) : Prop where
  colorspace : ∀ v, sig.lastWrittenColorspaceValue = some v → k o.colorspaceKey = v
  hdr : o.hasHdrOutputMetadata → k o.hdrKey = sig.lastWrittenHdrBlobId.toUInt64
  cached : Cached blobs sig.lastWrittenHdrBlobId (sig.hdrCache.active.find? o.crtcId)
  noBlob : blobs 0 = none
  vrr : ∀ enable, sig.lastWrittenVrr = (OutputProperties.vrrValue enable).toUInt32.toInt32 →
    k o.vrrKey = OutputProperties.vrrValue enable
  regamma : sig.lastWrittenRegamma = -1 ∨
    ∃ v < 2 ^ 31, k o.regammaKey = v ∧ sig.lastWrittenRegamma = v.toUInt32.toInt32

/-- One write to a property of the output. -/
theorem commit_single (k : Kernel) (key : PropKey) (v : UInt64) :
    k.commit [(key, v)] = Function.update k key v := rfl

theorem commit_append (k : Kernel) (req req' : AtomicRequest) :
    k.commit (req ++ req') = (k.commit req).commit req' :=
  applyWrites_append k req req'

variable {o r} {sig : OutputState} {k k' : Kernel} {blobs : BlobBytes}

/-- Only the four signals of the output matter. -/
theorem InSync.congr (h : InSync o sig k blobs)
    (hk : ∀ key : PropKey, key.2.signals = true → k' key = k key) : InSync o sig k' blobs where
  colorspace v hv := (hk _ rfl).trans (h.colorspace v hv)
  hdr hhas := (hk _ rfl).trans (h.hdr hhas)
  cached := h.cached
  noBlob := h.noBlob
  vrr enable he := (hk _ rfl).trans (h.vrr enable he)
  regamma := h.regamma.imp id fun ⟨v, hv, hkv, hlast⟩ => ⟨v, hv, (hk _ rfl).trans hkv, hlast⟩

/-! ### The writers -/

/-- What a writer leaves: in step with the kernel its writes are committed to, which they change
only with a modeset, and not at all when the kernel has what is asked. -/
structure Synced (k : Kernel) (blobs : BlobBytes) (asked : Prop) (i : Injected) : Prop where
  inSync : InSync o i.state (k.commit i.writes) blobs
  modeset : i.needsModeset = false → k.commit i.writes = k
  shown : asked → k.commit i.writes = k

theorem synced_colorspace (h : InSync o sig k blobs) (desired : Option Colorspace) :
    Synced (o := o) k blobs (∀ v, o.askedColorspace desired = some v → k o.colorspaceKey = v)
      (sig.injectOutputColorspace o desired) := by
  unfold injectOutputColorspace
  cases hentry : desired.bind (colorspaceEntry o) with
  | none => exact ⟨h, fun _ => rfl, fun _ => rfl⟩
  | some value =>
    dsimp only
    split
    · exact ⟨h, fun _ => rfl, fun _ => rfl⟩
    · rename_i hwrites
      simp only [Bool.or_eq_true, Bool.not_eq_true', decide_eq_true_eq, not_or,
        Bool.not_eq_false] at hwrites
      obtain ⟨⟨hcaps, -⟩, hhas⟩ := hwrites
      have hasked : o.askedColorspace desired = some value := by
        simp [OutputProperties.askedColorspace, hcaps, hhas, hentry]
      refine ⟨?_, fun hneeds => (by cases hneeds), fun hshown => ?_⟩
      · rw [commit_single]
        exact
          { colorspace := fun v hv => by
              cases hv
              exact Function.update_self ..
            hdr := fun hhdr => (Function.update_of_ne (by simp [OutputProperties.hdrKey]) _ _).trans
              (h.hdr hhdr)
            cached := h.cached
            noBlob := h.noBlob
            vrr := fun enable he =>
              (Function.update_of_ne (by simp [OutputProperties.vrrKey]) _ _).trans
                (h.vrr enable he)
            regamma := h.regamma.imp id fun ⟨v, hv, hkv, hlast⟩ => ⟨v, hv,
              (Function.update_of_ne (by simp [OutputProperties.regammaKey]) _ _).trans hkv,
              hlast⟩ }
      · rw [commit_single]
        exact Function.update_eq_self_iff.mpr (hshown value hasked).symm

theorem synced_vrr (h : InSync o sig k blobs) :
    Synced (o := o) k blobs (∀ v, o.askedVrr r = some v → k o.vrrKey = v)
      (sig.injectVrrEnabled o r) := by
  unfold injectVrrEnabled
  split
  · exact ⟨h, fun _ => rfl, fun _ => rfl⟩
  · rename_i hwrites
    simp only [Bool.or_eq_true, Bool.not_eq_true', not_or, Bool.not_eq_false] at hwrites
    have hasked : o.askedVrr r = some (OutputProperties.vrrValue r.desiredVrr) := by
      simp [OutputProperties.askedVrr, hwrites]
    refine ⟨?_, fun hneeds => ?_, fun hshown => ?_⟩
    · exact
        { colorspace := fun v hv =>
            (Function.update_of_ne (by simp [OutputProperties.colorspaceKey]) _ _).trans
              (h.colorspace v hv)
          hdr := fun hhdr => (Function.update_of_ne (by simp [OutputProperties.hdrKey]) _ _).trans
            (h.hdr hhdr)
          cached := h.cached
          noBlob := h.noBlob
          vrr := fun enable he => by
            have hsame : r.desiredVrr = enable := by
              revert he
              dsimp only
              cases r.desiredVrr <;> cases enable <;> decide
            rw [← hsame]
            exact Function.update_self ..
          regamma := h.regamma.imp id fun ⟨v, hv, hkv, hlast⟩ => ⟨v, hv,
            (Function.update_of_ne (by simp [OutputProperties.regammaKey]) _ _).trans hkv, hlast⟩ }
    · have hlast : sig.lastWrittenVrr =
          (OutputProperties.vrrValue r.desiredVrr).toUInt32.toInt32 :=
        (not_not.mp (of_decide_eq_false hneeds)).symm
      exact Function.update_eq_self_iff.mpr (h.vrr _ hlast).symm
    · exact Function.update_eq_self_iff.mpr (hshown _ hasked).symm

/-- A value that fits is below `2 ^ 31`. -/
theorem toNat_of_fits {v : UInt64} (hv : v < 2 ^ 31) : v.toUInt32.toNat = v.toNat := by
  have hlt : v.toNat < 2147483648 := UInt64.lt_iff_toNat_lt.mp hv
  rw [UInt64.toNat_toUInt32]
  omega

/-- Values that fit are told apart by the record of the last one. -/
theorem toInt32_injOn {v v' : UInt64} (hv : v < 2 ^ 31) (hv' : v' < 2 ^ 31)
    (h : v.toUInt32.toInt32 = v'.toUInt32.toInt32) : v = v' := by
  have h32 : v.toUInt32 = v'.toUInt32 := congrArg Int32.toUInt32 h
  rw [← UInt64.toNat_inj, ← toNat_of_fits hv, ← toNat_of_fits hv', h32]

theorem toInt32_ne_neg {v : UInt64} (hv : v < 2 ^ 31) : v.toUInt32.toInt32 ≠ -1 := by
  intro h
  have h32 : v.toUInt32.toNat = 4294967295 :=
    congrArg (fun i : Int32 => i.toUInt32.toNat) h
  have hlt : v.toNat < 2147483648 := UInt64.lt_iff_toNat_lt.mp hv
  rw [toNat_of_fits hv] at h32
  omega

theorem synced_regamma (h : InSync o sig k blobs)
    (hfits : ∀ v, o.askedRegamma r = some v → v < 2 ^ 31) :
    Synced (o := o) k blobs (∀ v, o.askedRegamma r = some v → k o.regammaKey = v)
      (sig.injectOutputRegammaTf o r) := by
  unfold injectOutputRegammaTf
  split
  · exact ⟨h, fun _ => rfl, fun _ => rfl⟩
  · rename_i hwrites
    simp only [Bool.or_eq_true, Bool.not_eq_true', not_or, Bool.not_eq_false] at hwrites
    cases hvalue : o.regammaValue r.desiredRegammaTf with
    | none => exact ⟨h, fun _ => rfl, fun _ => rfl⟩
    | some value =>
      have hasked : o.askedRegamma r = some value := by
        simp [OutputProperties.askedRegamma, hwrites, hvalue]
      refine ⟨?_, fun hneeds => ?_, fun hshown => ?_⟩
      · exact
          { colorspace := fun v hv =>
              (Function.update_of_ne (by simp [OutputProperties.colorspaceKey]) _ _).trans
                (h.colorspace v hv)
            hdr := fun hhdr =>
              (Function.update_of_ne (by simp [OutputProperties.hdrKey]) _ _).trans (h.hdr hhdr)
            cached := h.cached
            noBlob := h.noBlob
            vrr := fun enable he =>
              (Function.update_of_ne (by simp [OutputProperties.vrrKey]) _ _).trans
                (h.vrr enable he)
            regamma := .inr ⟨value, hfits value hasked, Function.update_self .., rfl⟩ }
      · have hlast : value.toUInt32.toInt32 = sig.lastWrittenRegamma :=
          not_not.mp (of_decide_eq_false hneeds)
        obtain hnever | ⟨v, hv, hkv, hv'⟩ := h.regamma
        · exact absurd (hlast.trans hnever) (toInt32_ne_neg (hfits value hasked))
        · rw [toInt32_injOn (hfits value hasked) hv (hlast.trans hv'), commit_single]
          exact Function.update_eq_self_iff.mpr hkv.symm
      · exact Function.update_eq_self_iff.mpr (hshown _ hasked).symm

/-- The blobs after a frame: a new entry of the cache is a blob made of the frame's metadata. -/
def blobsAfter (blobs : BlobBytes) (before after : Option HdrEntry) :
    Option HdrSourceMetadata → BlobBytes
  | none => blobs
  | some md =>
    match after with
    | none => blobs
    | some e =>
      if before = some e then blobs
      else Function.update blobs e.blob.toUInt64 (some (serializeHdrMetadata md))

/-- How the cache answers a frame's metadata. -/
theorem set_cases {c c' : HdrMetadataCache} {create : HdrSourceMetadata → Except Errc BlobId}
    {crtc : CrtcId} {md : HdrSourceMetadata} {blob : BlobId}
    (h : c.set create crtc (some md) = .ok (c', blob)) :
    (∃ e, c.active.find? crtc = some e ∧ e.hash = hdrMetadataHash md ∧ c' = c ∧ blob = e.blob) ∨
      (∀ e, c.active.find? crtc = some e → e.hash ≠ hdrMetadataHash md) ∧ create md = .ok blob ∧
        c'.active.find? crtc = some ⟨blob, hdrMetadataHash md⟩ := by
  rw [HdrMetadataCache.set] at h
  split at h
  · rename_i e he
    split at h
    · rename_i hhash
      cases h
      exact .inl ⟨e, he, hhash, rfl, rfl⟩
    · rename_i hhash
      obtain ⟨b, hb, hc⟩ := exists_of_map_ok h
      cases hc
      refine .inr ⟨fun e' he' => ?_, hb, by simp⟩
      rw [he] at he'
      cases he'
      exact hhash
  · rename_i hnone
    obtain ⟨b, hb, hc⟩ := exists_of_map_ok h
    cases hc
    refine .inr ⟨fun e he => ?_, hb, by simp⟩
    rw [hnone] at he
    cases he

/-- Metadata whose hash is that of the blob shown only if the bytes are. -/
def NoCollision (k : Kernel) (blobs : BlobBytes) (o : OutputProperties)
    (effective : Option HdrSourceMetadata) : Prop :=
  ∀ md bytes, effective = some md → blobs (k o.hdrKey) = some bytes →
    fnv1a64 bytes = hdrMetadataHash md → bytes = serializeHdrMetadata md

/-- The kernel makes no blob with the id 0. -/
def MakesBlobs (create : HdrSourceMetadata → Except Errc BlobId) : Prop :=
  ∀ md blob, create md = .ok blob → blob ≠ 0

theorem toUInt64_ne_zero {blob : BlobId} (h : blob ≠ 0) : blob.toUInt64 ≠ 0 := by
  intro h0
  have hnat := congrArg UInt64.toNat h0
  rw [UInt32.toNat_toUInt64] at hnat
  exact h (UInt32.toNat_inj.mp hnat)

/-- When the kernel shows the metadata, the cache holds its blob. -/
theorem InSync.entry_of_shows (h : InSync o sig k blobs) (hhas : o.hasHdrOutputMetadata)
    {md : HdrSourceMetadata} (hshows : ShowsHdr k blobs o (some md)) :
    ∃ e, sig.hdrCache.active.find? o.crtcId = some e ∧ e.hash = hdrMetadataHash md := by
  have hcached := h.cached
  rw [ShowsHdr, h.hdr hhas] at hshows
  cases hfind : sig.hdrCache.active.find? o.crtcId with
  | none =>
    rw [hfind] at hcached
    rw [show sig.lastWrittenHdrBlobId = 0 from hcached] at hshows
    exact absurd (h.noBlob.symm.trans hshows) (fun h => nomatch h)
  | some e =>
    rw [hfind] at hcached
    obtain ⟨hlast, -, bytes, hbytes, hhash⟩ := hcached
    rw [← hlast, hbytes] at hshows
    cases hshows
    exact ⟨e, rfl, hhash⟩

/-- The cache fails only where the blob cannot be made. -/
theorem set_error {c : HdrMetadataCache} {create : HdrSourceMetadata → Except Errc BlobId}
    {crtc : CrtcId} {src : Option HdrSourceMetadata} {e : Errc}
    (h : c.set create crtc src = .error e) :
    ∃ md, src = some md ∧ create md = .error e ∧
      ∀ entry, c.active.find? crtc = some entry → entry.hash ≠ hdrMetadataHash md := by
  cases src with
  | none => cases h
  | some md =>
    rw [HdrMetadataCache.set] at h
    refine ⟨md, rfl, ?_⟩
    split at h
    · rename_i entry hentry
      split at h
      · cases h
      · rename_i hhash
        refine ⟨error_of_map h, fun entry' hentry' => ?_⟩
        rw [hentry] at hentry'
        cases hentry'
        exact hhash
    · rename_i hnone
      exact ⟨error_of_map h, fun entry hentry => by rw [hnone] at hentry; cases hentry⟩

/-- The blob that cannot be made is of metadata the kernel does not show. -/
theorem injectHdrOutputMetadata_error (h : InSync o sig k blobs)
    {create : HdrSourceMetadata → Except Errc BlobId} {effective : Option HdrSourceMetadata}
    {e : Errc} (hi : sig.injectHdrOutputMetadata o r create effective = .error e) :
    o.hasHdrOutputMetadata ∧ ∃ md, effective = some md ∧ create md = .error e ∧
      ¬ShowsHdr k blobs o (some md) := by
  unfold injectHdrOutputMetadata at hi
  split at hi
  · cases hi
  · rename_i hskip
    have hhas : o.hasHdrOutputMetadata := by
      cases hhas : o.hasHdrOutputMetadata
      · simp [hhas] at hskip
      · rfl
    obtain ⟨md, hmd, hcreate, hentry⟩ := set_error (error_of_map hi)
    refine ⟨hhas, md, hmd, hcreate, fun hshows => ?_⟩
    obtain ⟨entry, hfind, hhash⟩ := h.entry_of_shows hhas hshows
    exact hentry entry hfind hhash

/-- The blob a frame writes: the blob 0 clears the metadata. -/
theorem synced_hdrBlob (h : InSync o sig k blobs) (hhas : o.hasHdrOutputMetadata)
    {cache : HdrMetadataCache} {blob : BlobId} {blobs' : BlobBytes}
    (hblobs : blobs' 0 = none)
    (hcached : Cached blobs' blob (cache.active.find? o.crtcId)) {asked : Prop}
    (hshown : asked → blob = sig.lastWrittenHdrBlobId) :
    Synced (o := o) k blobs' asked
      { state := { sig with hdrCache := cache, lastWrittenHdrBlobId := blob }
        writes := [((o.connectorId, .output .hdrOutputMetadata), blob.toUInt64)]
        needsModeset := blob ≠ sig.lastWrittenHdrBlobId } := by
  have hsame : blob = sig.lastWrittenHdrBlobId →
      k.commit [((o.connectorId, .output .hdrOutputMetadata), blob.toUInt64)] = k := by
    intro hblob
    exact Function.update_eq_self_iff.mpr (by rw [hblob, ← h.hdr hhas]; rfl)
  refine ⟨?_, fun hneeds => hsame (not_not.mp (of_decide_eq_false hneeds)),
    fun hasked => hsame (hshown hasked)⟩
  exact
    { colorspace := fun v hv =>
        (Function.update_of_ne (by simp [OutputProperties.colorspaceKey]) _ _).trans
          (h.colorspace v hv)
      hdr := fun _ => Function.update_self ..
      cached := hcached
      noBlob := hblobs
      vrr := fun enable he =>
        (Function.update_of_ne (by simp [OutputProperties.vrrKey]) _ _).trans (h.vrr enable he)
      regamma := h.regamma.imp id fun ⟨v, hv, hkv, hlast⟩ => ⟨v, hv,
        (Function.update_of_ne (by simp [OutputProperties.regammaKey]) _ _).trans hkv, hlast⟩ }

@[simp] theorem blobsAfter_self (e : Option HdrEntry) (md : Option HdrSourceMetadata) :
    blobsAfter blobs e e md = blobs := by
  cases md <;> cases e <;> simp [blobsAfter]

theorem blobsAfter_of_ne {before : Option HdrEntry} {e : HdrEntry} (h : before ≠ some e)
    (md : HdrSourceMetadata) : blobsAfter blobs before (some e) (some md) =
      Function.update blobs e.blob.toUInt64 (some (serializeHdrMetadata md)) :=
  if_neg h

/-- What the HDR writer leaves: the blob it remembers is that of the frame's metadata. -/
structure SyncedHdr (sig : OutputState) (k : Kernel) (blobs blobs' : BlobBytes)
    (effective : Option HdrSourceMetadata) (i : Injected) : Prop where
  synced : Synced (o := o) k blobs' (o.hasHdrOutputMetadata → ShowsHdr k blobs o effective) i
  colorspace : i.state.lastWrittenColorspaceValue = sig.lastWrittenColorspaceValue
  shows : o.hasHdrOutputMetadata → NoCollision k blobs o effective → ∀ k' : Kernel,
    k' o.hdrKey = i.state.lastWrittenHdrBlobId.toUInt64 → ShowsHdr k' blobs' o effective

theorem syncedHdr_none (h : InSync o sig k blobs) (hhas : o.hasHdrOutputMetadata)
    (create : HdrSourceMetadata → Except Errc BlobId) {cache : HdrMetadataCache} {blob : BlobId}
    (hset : sig.hdrCache.set create o.crtcId none = .ok (cache, blob)) :
    SyncedHdr (o := o) sig k blobs blobs none
      { state := { sig with hdrCache := cache, lastWrittenHdrBlobId := blob }
        writes := [((o.connectorId, .output .hdrOutputMetadata), blob.toUInt64)]
        needsModeset := blob ≠ sig.lastWrittenHdrBlobId } := by
  cases hset
  have hcached : Cached blobs 0 ((sig.hdrCache.active.erase o.crtcId).find? o.crtcId) := by
    rw [Table.find?_erase, if_pos rfl]
    rfl
  refine ⟨synced_hdrBlob h hhas h.noBlob hcached fun hshows => ?_, rfl, fun _ _ k' hk' => hk'⟩
  have hzero : sig.lastWrittenHdrBlobId.toUInt64 = 0 := (h.hdr hhas).symm.trans (hshows hhas)
  by_contra hne
  exact toUInt64_ne_zero (Ne.symm hne) hzero

theorem syncedHdr_some (h : InSync o sig k blobs) (hhas : o.hasHdrOutputMetadata)
    {create : HdrSourceMetadata → Except Errc BlobId} (hmakes : MakesBlobs create)
    {cache : HdrMetadataCache} {blob : BlobId} {md : HdrSourceMetadata}
    (hset : sig.hdrCache.set create o.crtcId (some md) = .ok (cache, blob)) :
    SyncedHdr (o := o) sig k blobs
      (blobsAfter blobs (sig.hdrCache.active.find? o.crtcId) (cache.active.find? o.crtcId)
        (some md))
      (some md)
      { state := { sig with hdrCache := cache, lastWrittenHdrBlobId := blob }
        writes := [((o.connectorId, .output .hdrOutputMetadata), blob.toUInt64)]
        needsModeset := blob ≠ sig.lastWrittenHdrBlobId } := by
  obtain ⟨e, hfind, hhash, rfl, rfl⟩ | ⟨hother, hcreate, hfind⟩ := set_cases hset
  · -- the blob of an earlier frame
    rw [blobsAfter_self]
    have hcached := h.cached
    rw [hfind] at hcached
    obtain ⟨hlast, hne, bytes, hbytes, hentry⟩ := hcached
    refine ⟨synced_hdrBlob h hhas h.noBlob ?_ fun _ => hlast, rfl, fun _ hcollision k' hk' => ?_⟩
    · rw [hfind]
      exact ⟨rfl, hne, bytes, hbytes, hentry⟩
    · have hshown : blobs (k o.hdrKey) = some bytes := by
        rw [h.hdr hhas, ← hlast]
        exact hbytes
      rw [ShowsHdr, hk', ← hcollision md bytes rfl hshown (hentry.symm.trans hhash)]
      exact hbytes
  · -- a blob made for this frame
    have hnew : sig.hdrCache.active.find? o.crtcId ≠ some ⟨blob, hdrMetadataHash md⟩ :=
      fun hsame => hother _ hsame rfl
    rw [hfind, blobsAfter_of_ne hnew]
    have hzero : (0 : UInt64) ≠ blob.toUInt64 := (toUInt64_ne_zero (hmakes md blob hcreate)).symm
    refine ⟨synced_hdrBlob h hhas ?_ ?_ fun hshows => ?_, rfl, fun _ _ k' hk' => ?_⟩
    · rw [Function.update_of_ne hzero]
      exact h.noBlob
    · rw [hfind]
      exact ⟨rfl, hmakes md blob hcreate, _, Function.update_self .., rfl⟩
    · obtain ⟨e, he, hhash⟩ := h.entry_of_shows hhas (hshows hhas)
      exact absurd hhash (hother e he)
    · rw [ShowsHdr, hk']
      exact Function.update_self ..

theorem syncedHdr_of_ok (h : InSync o sig k blobs)
    {create : HdrSourceMetadata → Except Errc BlobId} (hmakes : MakesBlobs create)
    {effective : Option HdrSourceMetadata} {i : Injected}
    (hi : sig.injectHdrOutputMetadata o r create effective = .ok i) :
    SyncedHdr (o := o) sig k blobs
      (blobsAfter blobs (sig.hdrCache.active.find? o.crtcId)
        (i.state.hdrCache.active.find? o.crtcId) effective) effective i := by
  unfold injectHdrOutputMetadata at hi
  split at hi
  · rename_i hskip
    cases hi
    rw [blobsAfter_self]
    refine ⟨⟨h, fun _ => rfl, fun _ => rfl⟩, rfl, fun hhas _ k' hk' => ?_⟩
    simp only [hhas, Bool.not_true, Bool.or_false, Bool.and_eq_true, decide_eq_true_eq] at hskip
    obtain ⟨⟨-, hnone⟩, hlast⟩ := hskip
    rw [Option.isNone_iff_eq_none.mp hnone, ShowsHdr, hk', hlast]
    rfl
  · rename_i hskip
    have hhas : o.hasHdrOutputMetadata := by
      cases hhas : o.hasHdrOutputMetadata
      · simp [hhas] at hskip
      · rfl
    obtain ⟨⟨cache, blob⟩, hset, rfl⟩ := exists_of_map_ok hi
    cases effective with
    | none => exact syncedHdr_none h hhas create hset
    | some md => exact syncedHdr_some h hhas hmakes hset

/-! ### What a writer remembers -/

theorem colorspace_remembers (sig : OutputState) (desired : Option Colorspace) {v : UInt64}
    (h : o.askedColorspace desired = some v) :
    (sig.injectOutputColorspace o desired).state.lastWrittenColorspaceValue = some v := by
  simp only [OutputProperties.askedColorspace, Bool.and_eq_true] at h
  split at h
  · rename_i hhas
    simp only [injectOutputColorspace, h, hhas]
    split <;> simp_all
  · cases h

theorem colorspace_keeps (sig : OutputState) (desired : Option Colorspace) :
    (sig.injectOutputColorspace o desired).state.hdrCache = sig.hdrCache ∧
      (sig.injectOutputColorspace o desired).state.lastWrittenHdrBlobId =
        sig.lastWrittenHdrBlobId := by
  unfold injectOutputColorspace
  split
  · split <;> exact ⟨rfl, rfl⟩
  · exact ⟨rfl, rfl⟩

theorem vrr_remembers (sig : OutputState) {v : UInt64} (h : o.askedVrr r = some v) :
    v = OutputProperties.vrrValue r.desiredVrr ∧
      (sig.injectVrrEnabled o r).state.lastWrittenVrr =
        (OutputProperties.vrrValue r.desiredVrr).toUInt32.toInt32 := by
  simp only [OutputProperties.askedVrr, Bool.and_eq_true] at h
  split at h
  · rename_i hhas
    cases h
    simp [injectVrrEnabled, hhas, OutputProperties.vrrValue]
  · cases h

theorem vrr_keeps (sig : OutputState) :
    (sig.injectVrrEnabled o r).state.hdrCache = sig.hdrCache ∧
      (sig.injectVrrEnabled o r).state.lastWrittenHdrBlobId = sig.lastWrittenHdrBlobId ∧
      (sig.injectVrrEnabled o r).state.lastWrittenColorspaceValue =
        sig.lastWrittenColorspaceValue := by
  unfold injectVrrEnabled
  split <;> exact ⟨rfl, rfl, rfl⟩

theorem regamma_remembers (sig : OutputState) {v : UInt64} (h : o.askedRegamma r = some v) :
    (sig.injectOutputRegammaTf o r).state.lastWrittenRegamma = v.toUInt32.toInt32 := by
  simp only [OutputProperties.askedRegamma, Bool.and_eq_true] at h
  split at h
  · rename_i hhas
    simp [injectOutputRegammaTf, hhas, h]
  · cases h

theorem regamma_keeps (sig : OutputState) :
    (sig.injectOutputRegammaTf o r).state.hdrCache = sig.hdrCache ∧
      (sig.injectOutputRegammaTf o r).state.lastWrittenHdrBlobId = sig.lastWrittenHdrBlobId ∧
      (sig.injectOutputRegammaTf o r).state.lastWrittenColorspaceValue =
        sig.lastWrittenColorspaceValue ∧
      (sig.injectOutputRegammaTf o r).state.lastWrittenVrr = sig.lastWrittenVrr := by
  unfold injectOutputRegammaTf
  split
  · exact ⟨rfl, rfl, rfl, rfl⟩
  · split <;> exact ⟨rfl, rfl, rfl, rfl⟩

/-! ### A frame's signalling -/

/-- What signalling a frame leaves, committed to a kernel it was in step with. -/
structure SyncedFrame (o : OutputProperties) (r : OutputRequests) (layers : List ContentColor)
    (k : Kernel) (blobs blobs' : BlobBytes) (x : Signaled) : Prop where
  inSync : InSync o x.state (k.commit x.writes) blobs'
  modeset : x.needsModeset = false → k.commit x.writes = k
  shown : ShowsSignals k blobs o r layers → k.commit x.writes = k
  shows : NoCollision k blobs o (effectiveHdr r (deriveOutputSignaling layers o.caps)) →
    ShowsSignals (k.commit x.writes) blobs' o r layers

theorem syncedFrame_signal (h : InSync o sig k blobs) (f : SignalingFrame)
    (hmakes : MakesBlobs f.createBlob) (hfits : ∀ v, o.askedRegamma r = some v → v < 2 ^ 31)
    (herr : (sig.signal o r f).error = none) :
    SyncedFrame o r f.layers k blobs
      (blobsAfter blobs (sig.hdrCache.active.find? o.crtcId)
        ((sig.signal o r f).state.hdrCache.active.find? o.crtcId)
        (effectiveHdr r (deriveOutputSignaling f.layers o.caps)))
      (sig.signal o r f) := by
  have hcs := synced_colorspace h (deriveOutputSignaling f.layers o.caps).colorspace
  have hcskeeps := colorspace_keeps (o := o) sig (deriveOutputSignaling f.layers o.caps).colorspace
  have hremembers := fun v => colorspace_remembers (o := o) sig
    (deriveOutputSignaling f.layers o.caps).colorspace (v := v)
  unfold signal at herr ⊢
  dsimp only at herr ⊢
  generalize sig.injectOutputColorspace o (deriveOutputSignaling f.layers o.caps).colorspace = cs
    at hcs hcskeeps hremembers herr ⊢
  cases hi : cs.state.injectHdrOutputMetadata o r f.createBlob
      (effectiveHdr r (deriveOutputSignaling f.layers o.caps)) with
  | error e =>
    rw [hi] at herr
    cases herr
  | ok hdr =>
    have hhdr := syncedHdr_of_ok hcs.inSync hmakes hi
    have hvrr := synced_vrr (r := r) hhdr.synced.inSync
    have hregamma := synced_regamma hvrr.inSync hfits
    have hvkeeps := vrr_keeps (o := o) (r := r) hdr.state
    have hrkeeps := regamma_keeps (o := o) (r := r) (hdr.state.injectVrrEnabled o r).state
    have hvremembers := fun v => vrr_remembers (o := o) (r := r) hdr.state (v := v)
    have hrremembers := fun v => regamma_remembers (o := o) (r := r)
      (hdr.state.injectVrrEnabled o r).state (v := v)
    dsimp only
    generalize hdr.state.injectVrrEnabled o r = vrr
      at hvrr hregamma hvkeeps hrkeeps hvremembers hrremembers ⊢
    generalize vrr.state.injectOutputRegammaTf o r = regamma at hregamma hrkeeps hrremembers ⊢
    rw [hrkeeps.1, hvkeeps.1, ← hcskeeps.1]
    have hcommit : k.commit (cs.writes ++ hdr.writes ++ vrr.writes ++ regamma.writes) =
        (((k.commit cs.writes).commit hdr.writes).commit vrr.writes).commit regamma.writes := by
      rw [commit_append, commit_append, commit_append]
    refine ⟨?_, fun hneeds => ?_, fun hshown => ?_, fun hcollision => ?_⟩
    · rw [hcommit]
      exact hregamma.inSync
    · simp only [Bool.or_eq_false_iff] at hneeds
      obtain ⟨⟨⟨hn₁, hn₂⟩, hn₃⟩, hn₄⟩ := hneeds
      rw [hcommit, hregamma.modeset hn₄, hvrr.modeset hn₃, hhdr.synced.modeset hn₂,
        hcs.modeset hn₁]
    · have h₁ := hcs.shown hshown.colorspace
      have h₂ := hhdr.synced.shown (by rw [h₁]; exact hshown.hdr)
      have h₃ := hvrr.shown (by rw [h₂, h₁]; exact hshown.vrr)
      have h₄ := hregamma.shown (by rw [h₃, h₂, h₁]; exact hshown.regamma)
      rw [hcommit, h₄, h₃, h₂, h₁]
    · rw [hcommit]
      exact
        { colorspace := fun v hv => hregamma.inSync.colorspace v (by
            rw [hrkeeps.2.2.1, hvkeeps.2.2, hhdr.colorspace]
            exact hremembers v hv)
          hdr := fun hhas => hhdr.shows hhas (by
              intro md bytes hmd hbytes
              rw [hcs.inSync.hdr hhas, hcskeeps.2, ← h.hdr hhas] at hbytes
              exact hcollision md bytes hmd hbytes) _ (by
            rw [hregamma.inSync.hdr hhas, hrkeeps.2.1, hvkeeps.2.1])
          vrr := fun v hv => by
            obtain ⟨rfl, hlast⟩ := hvremembers v hv
            exact hregamma.inSync.vrr _ (hrkeeps.2.2.2.trans hlast)
          regamma := fun v hv => by
            obtain hnever | ⟨v', hv', hkv, hlast⟩ := hregamma.inSync.regamma
            · exact absurd ((hrremembers v hv).symm.trans hnever) (toInt32_ne_neg (hfits v hv))
            · rw [hkv]
              exact toInt32_injOn hv' (hfits v hv) (hlast.symm.trans (hrremembers v hv)) }

/-- A frame whose blob cannot be made is remembered by its colour space alone. -/
theorem signal_error (h : InSync o sig k blobs) (f : SignalingFrame)
    (herr : (sig.signal o r f).error.isSome) :
    (sig.signal o r f).state =
        (sig.injectOutputColorspace o (deriveOutputSignaling f.layers o.caps).colorspace).state ∧
      o.hasHdrOutputMetadata ∧ ∃ md e,
        effectiveHdr r (deriveOutputSignaling f.layers o.caps) = some md ∧
          f.createBlob md = .error e ∧ ¬ShowsHdr k blobs o (some md) := by
  have hcs := synced_colorspace h (deriveOutputSignaling f.layers o.caps).colorspace
  have hcskeeps := colorspace_keeps (o := o) sig (deriveOutputSignaling f.layers o.caps).colorspace
  unfold signal at herr ⊢
  dsimp only at herr ⊢
  generalize sig.injectOutputColorspace o (deriveOutputSignaling f.layers o.caps).colorspace = cs
    at hcs hcskeeps herr ⊢
  cases hi : cs.state.injectHdrOutputMetadata o r f.createBlob
      (effectiveHdr r (deriveOutputSignaling f.layers o.caps)) with
  | ok hdr =>
    rw [hi] at herr
    cases herr
  | error e =>
    obtain ⟨hhas, md, hmd, hcreate, hshows⟩ := injectHdrOutputMetadata_error hcs.inSync hi
    refine ⟨rfl, hhas, md, e, hmd, hcreate, fun hshown => hshows ?_⟩
    rw [ShowsHdr, hcs.inSync.hdr hhas, hcskeeps.2, ← h.hdr hhas]
    exact hshown

end OutputState

/-! ### Runs -/

/-- A scene with the kernel it commits to and the blobs made for it. -/
structure SignalTrace where
  scene : SceneState
  kernel : Kernel
  blobs : BlobBytes

/-- The kernel's answer to a commit; `EACCES` ends the session and is left out. -/
abbrev CommitVerdict := Option {e : Errc // e ≠ .permissionDenied}

inductive SignalEvent
  | setOutputMetadata (src : Option HdrSourceMetadata)
  | setVrrEnabled (enable : Bool)
  | setOutputTransferFunction (tf : OutputTransferFunction)
  /-- The layers change, and with them what they declare. -/
  | edit (scene : SceneState)
  | commit (answers : FrameAnswers) (flags : Flags) (verdict : CommitVerdict)

namespace SignalTrace

variable (dev : SceneDevice)

/-- A scene just created. -/
def start (s : SceneState) (k : Kernel) : SignalTrace where
  scene := { s with signaling := {}, requests := {} }
  kernel := k
  blobs _ := none

/-- Whatever an edit changes, it leaves the output and what is remembered of it. -/
def edited (t : SignalTrace) (s : SceneState) : SceneState :=
  { s with
    signaling := t.scene.signaling
    requests := t.scene.requests
    properties := t.scene.properties }

/-- The answers of a frame; `drmModeGetPlane` reads the kernel. -/
def answers (t : SignalTrace) (q : FrameAnswers) : FrameAnswers := { q with kernel := t.kernel }

def build (t : SignalTrace) (q : FrameAnswers) (flags : Flags) : SceneBuild :=
  t.scene.buildFrameInto dev (t.answers q) flags false

/-- The colours the frame's layers declare. -/
def colors (t : SignalTrace) (q : FrameAnswers) : List ContentColor :=
  t.scene.frameColors dev (t.answers q)

/-- The metadata the frame asks for. -/
def effective (t : SignalTrace) (q : FrameAnswers) : Option HdrSourceMetadata :=
  OutputState.effectiveHdr t.scene.requests
    (deriveOutputSignaling (t.colors dev q) t.scene.properties.caps)

/-- The scene's entry in its HDR cache. -/
def hdrEntry (s : SceneState) : Option HdrEntry :=
  s.signaling.hdrCache.active.find? s.properties.crtcId

/-- One real commit: the frame is built, sent, and finished with the kernel's verdict. -/
def commit (t : SignalTrace) (q : FrameAnswers) (flags : Flags) (verdict : CommitVerdict) :
    SignalTrace :=
  let b := t.build dev q flags
  let t := { t with
    scene := b.scene
    blobs := OutputState.blobsAfter t.blobs (hdrEntry t.scene) (hdrEntry b.scene)
      (t.effective dev q) }
  match b.result, verdict with
  | .ok (some f), none =>
    { t with
      scene := t.scene.finalizeFrame f (.ok ())
      kernel := t.kernel.commit f.request }
  | .ok (some f), some e => { t with scene := t.scene.finalizeFrame f (.error e.1) }
  | _, _ => t

def step (t : SignalTrace) : SignalEvent → SignalTrace
  | .setOutputMetadata src => { t with scene := t.scene.setOutputMetadata src }
  | .setVrrEnabled enable => { t with scene := t.scene.setVrrEnabled enable }
  | .setOutputTransferFunction tf => { t with scene := t.scene.setOutputTransferFunction tf }
  | .edit s => { t with scene := t.edited s }
  | .commit q flags verdict => t.commit dev q flags verdict

/-- The kernel has the signals the frame asks for. -/
def Shows (t : SignalTrace) (layers : List ContentColor) : Prop :=
  ShowsSignals t.kernel t.blobs t.scene.properties t.scene.requests layers

/-- The request changes a signal of an output. -/
def Changes (k : Kernel) (req : AtomicRequest) : Prop :=
  ∃ key : PropKey, key.2.signals = true ∧ k.commit req key ≠ k key

/-- A frame that is sent has `ALLOW_MODESET` when it changes a signal, and once it is accepted the
kernel has the signals it asked for. -/
def Heals (t : SignalTrace) : SignalEvent → Prop
  | .commit q flags verdict => ∀ f, (t.build dev q flags).result = .ok (some f) →
    (Changes t.kernel f.request → SceneState.AllowsModeset f.effectiveFlags) ∧
      (verdict = none → (t.commit dev q flags verdict).Shows (t.colors dev q))
  | _ => True

/-- The frame's values fit what is remembered of them, and nothing new is asked for in a frame that
is not accepted. -/
structure Steady (t : SignalTrace) (q : FrameAnswers) (verdict : CommitVerdict) : Prop where
  makes : OutputState.MakesBlobs q.hdrBlob
  fits : ∀ v, t.scene.properties.askedRegamma t.scene.requests = some v → v < 2 ^ 31
  noCollision : OutputState.NoCollision t.kernel t.blobs t.scene.properties (t.effective dev q)
  rejected : verdict ≠ none → t.Shows (t.colors dev q)
  /-- A frame without its HDR blob is not sent, but its colour space is remembered. -/
  noBlob : ∀ md e, t.effective dev q = some md → q.hdrBlob md = .error e →
    t.scene.properties.hasHdrOutputMetadata →
    ¬ShowsHdr t.kernel t.blobs t.scene.properties (some md) →
    ∀ v, t.scene.properties.askedColorspace
        (deriveOutputSignaling (t.colors dev q) t.scene.properties.caps).colorspace = some v →
      t.kernel t.scene.properties.colorspaceKey = v

def StaysSteady (t : SignalTrace) : SignalEvent → Prop
  | .commit q _ verdict => t.Steady dev q verdict
  | _ => True

/-- The scene is in step with its kernel. -/
def Inv (t : SignalTrace) : Prop :=
  t.scene.signaling.InSync t.scene.properties t.kernel t.blobs

/-! ### One commit -/

theorem finalizeFrame_same (s : SceneState) (f : BuiltFrame) (res : Except Errc Unit) :
    (s.finalizeFrame f res).requests = s.requests ∧
      (s.finalizeFrame f res).properties = s.properties := by
  unfold SceneState.finalizeFrame
  split
  · exact ⟨rfl, rfl⟩
  · split <;> exact ⟨rfl, rfl⟩
  · split <;> exact ⟨rfl, rfl⟩

theorem finalizeFrame_signaling (s : SceneState) (f : BuiltFrame) (res : Except Errc Unit) :
    (s.finalizeFrame f res).signaling = s.signaling ∨
      (s.finalizeFrame f res).signaling = s.signaling.committed := by
  unfold SceneState.finalizeFrame
  split
  · exact .inl rfl
  · split <;> exact .inl rfl
  · split
    · exact .inl rfl
    · exact .inr rfl

/-- The verdict is taken over without a change of what was written. -/
theorem inSync_finalizeFrame {s : SceneState} {o : OutputProperties} {k : Kernel}
    {blobs : BlobBytes} (h : s.signaling.InSync o k blobs) (f : BuiltFrame)
    (res : Except Errc Unit) : (s.finalizeFrame f res).signaling.InSync o k blobs := by
  obtain hsame | hcommitted := finalizeFrame_signaling s f res
  · rw [hsame]
    exact h
  · rw [hcommitted]
    exact ⟨h.colorspace, h.hdr, h.cached, h.noBlob, h.vrr, h.regamma⟩

variable {dev} {t : SignalTrace} {q : FrameAnswers} {flags : Flags} {verdict : CommitVerdict}

/-- The blobs after a build. -/
def builtBlobs (dev : SceneDevice) (t : SignalTrace) (q : FrameAnswers) (flags : Flags) :
    BlobBytes :=
  OutputState.blobsAfter t.blobs (hdrEntry t.scene) (hdrEntry (t.build dev q flags).scene)
    (t.effective dev q)

/-- A request that is sent is `req` and the frame's signalling; what it does is seen from the kernel
that has taken `req`. -/
theorem syncedFrame_build (ht : t.Inv) (hq : t.Steady dev q verdict) {f : BuiltFrame}
    (hf : (t.build dev q flags).result = .ok (some f)) :
    ∃ req x, Silent req ∧ t.kernel.commit f.request = (t.kernel.commit req).commit x.writes ∧
      (t.build dev q flags).scene.signaling = x.state ∧
      (x.needsModeset → SceneState.AllowsModeset f.effectiveFlags) ∧
      OutputState.SyncedFrame t.scene.properties t.scene.requests (t.colors dev q)
        (t.kernel.commit req) t.blobs (builtBlobs dev t q flags) x := by
  have hb := SceneState.signalsFrame_buildFrameInto dev t.scene (t.answers q) flags false
  obtain ⟨hstate, herr, ⟨req, hreq, hsilent⟩, hmodeset⟩ := hb.built f hf
  refine ⟨req, t.scene.signaled dev (t.answers q), hsilent, ?_, hstate, hmodeset, ?_⟩
  · rw [hreq, OutputState.commit_append]
  · have hsync := OutputState.syncedFrame_signal
      (OutputState.InSync.congr ht fun key hkey => hsilent.commit_eq t.kernel hkey)
      ⟨t.colors dev q, q.hdrBlob⟩ hq.makes hq.fits herr
    have hblobs : builtBlobs dev t q flags = OutputState.blobsAfter t.blobs (hdrEntry t.scene)
        ((t.scene.signaled dev (t.answers q)).state.hdrCache.active.find? t.scene.properties.crtcId)
        (t.effective dev q) := by
      rw [builtBlobs, hdrEntry, hdrEntry, ← hstate]
      exact congrArg (fun o : OutputProperties => OutputState.blobsAfter t.blobs _
        ((t.build dev q flags).scene.signaling.hdrCache.active.find? o.crtcId) _) hb.properties
    rw [hblobs]
    exact hsync

theorem showsSignals_congr {k k' : Kernel} {blobs : BlobBytes} {o : OutputProperties}
    {r : OutputRequests} {layers : List ContentColor}
    (hk : ∀ key : PropKey, key.2.signals = true → k' key = k key)
    (h : ShowsSignals k blobs o r layers) : ShowsSignals k' blobs o r layers where
  colorspace v hv := (hk _ rfl).trans (h.colorspace v hv)
  hdr hhas := by
    have hshows := h.hdr hhas
    cases hmd : OutputState.effectiveHdr r (deriveOutputSignaling layers o.caps) with
    | none =>
      rw [hmd] at hshows
      exact (hk _ rfl).trans hshows
    | some md =>
      rw [hmd, ShowsHdr] at hshows
      rw [ShowsHdr, hk _ rfl]
      exact hshows
  vrr v hv := (hk _ rfl).trans (h.vrr v hv)
  regamma v hv := (hk _ rfl).trans (h.regamma v hv)

theorem changes_needsModeset (ht : t.Inv) (hq : t.Steady dev q verdict) {f : BuiltFrame}
    (hf : (t.build dev q flags).result = .ok (some f)) (h : Changes t.kernel f.request) :
    SceneState.AllowsModeset f.effectiveFlags := by
  obtain ⟨req, x, hsilent, hcommit, -, hmodeset, hsync⟩ := syncedFrame_build ht hq hf
  obtain ⟨key, hkey, hchange⟩ := h
  refine hmodeset ?_
  by_contra hneeds
  rw [hcommit, hsync.modeset (Bool.eq_false_iff.mpr hneeds)] at hchange
  exact hchange (hsilent.commit_eq t.kernel hkey)

theorem commit_accepted {f : BuiltFrame} (hf : (t.build dev q flags).result = .ok (some f)) :
    t.commit dev q flags none =
      { scene := (t.build dev q flags).scene.finalizeFrame f (.ok ())
        kernel := t.kernel.commit f.request
        blobs := builtBlobs dev t q flags } := by
  simp only [commit, hf]
  rfl

theorem commit_rejected {f : BuiltFrame} (hf : (t.build dev q flags).result = .ok (some f))
    (e : {e : Errc // e ≠ .permissionDenied}) :
    t.commit dev q flags (some e) =
      { scene := (t.build dev q flags).scene.finalizeFrame f (.error e.1)
        kernel := t.kernel
        blobs := builtBlobs dev t q flags } := by
  simp only [commit, hf]
  rfl

/-- The requests and the output outlive a commit. -/
theorem commit_same (t : SignalTrace) (q : FrameAnswers) (flags : Flags)
    (verdict : CommitVerdict) :
    (t.commit dev q flags verdict).scene.requests = t.scene.requests ∧
      (t.commit dev q flags verdict).scene.properties = t.scene.properties := by
  have hb := SceneState.signalsFrame_buildFrameInto dev t.scene (t.answers q) flags false
  have hsame := fun f res => finalizeFrame_same (t.build dev q flags).scene f res
  unfold commit
  dsimp only
  split
  · exact ⟨(hsame _ _).1.trans hb.requests, (hsame _ _).2.trans hb.properties⟩
  · exact ⟨(hsame _ _).1.trans hb.requests, (hsame _ _).2.trans hb.properties⟩
  · exact ⟨hb.requests, hb.properties⟩

/-- A commit that is not sent. -/
theorem commit_unsent (h : ∀ f, (t.build dev q flags).result ≠ .ok (some f)) :
    t.commit dev q flags verdict =
      { scene := (t.build dev q flags).scene
        kernel := t.kernel
        blobs := builtBlobs dev t q flags } := by
  unfold commit
  dsimp only
  split
  · exact absurd (by assumption) (h _)
  · exact absurd (by assumption) (h _)
  · rfl

theorem inv_accepted (ht : t.Inv) (hq : t.Steady dev q none) {f : BuiltFrame}
    (hf : (t.build dev q flags).result = .ok (some f)) : (t.commit dev q flags none).Inv := by
  obtain ⟨req, x, -, hcommit, hstate, -, hsync⟩ := syncedFrame_build ht hq hf
  have hin := hsync.inSync
  rw [← hstate, ← hcommit] at hin
  rw [Inv, (commit_same t q flags none).2, commit_accepted hf]
  exact inSync_finalizeFrame hin f _

theorem inv_rejected (ht : t.Inv) {e : {e : Errc // e ≠ .permissionDenied}}
    (hq : t.Steady dev q (some e)) {f : BuiltFrame}
    (hf : (t.build dev q flags).result = .ok (some f)) : (t.commit dev q flags (some e)).Inv := by
  obtain ⟨req, x, hsilent, -, hstate, -, hsync⟩ := syncedFrame_build ht hq hf
  have hkeys : ∀ key : PropKey, key.2.signals = true →
      t.kernel.commit req key = t.kernel key := fun key hkey => hsilent.commit_eq t.kernel hkey
  -- nothing new was asked for, so the kernel is what the request would have made it
  have hunchanged := hsync.shown
    (showsSignals_congr hkeys (hq.rejected (Option.some_ne_none e)))
  have hin := hsync.inSync
  rw [← hstate, hunchanged] at hin
  rw [Inv, (commit_same t q flags (some e)).2, commit_rejected hf]
  exact inSync_finalizeFrame (hin.congr fun key hkey => (hkeys key hkey).symm) f _

theorem inv_unsent (ht : t.Inv) (hq : t.Steady dev q verdict)
    (h : ∀ f, (t.build dev q flags).result ≠ .ok (some f)) :
    (t.commit dev q flags verdict).Inv := by
  have hb := SceneState.signalsFrame_buildFrameInto dev t.scene (t.answers q) flags false
  have hprops : (t.build dev q flags).scene.properties = t.scene.properties := hb.properties
  have hblobs : (t.build dev q flags).scene.signaling.hdrCache = t.scene.signaling.hdrCache →
      builtBlobs dev t q flags = t.blobs := by
    intro hcache
    rw [builtBlobs, hdrEntry, hdrEntry, hprops, hcache]
    exact OutputState.blobsAfter_self _ _
  rw [Inv, (commit_same t q flags verdict).2, commit_unsent h]
  obtain hsame | ⟨herr, hstate⟩ := hb.failed h
  · have hsame : (t.build dev q flags).scene.signaling = t.scene.signaling := hsame
    dsimp only
    rw [hblobs (by rw [hsame]), hsame]
    exact ht
  · obtain ⟨hcs, hhas, md, e, hmd, hcreate, hshows⟩ :=
      OutputState.signal_error ht ⟨t.colors dev q, q.hdrBlob⟩ herr
    have hstate : (t.build dev q flags).scene.signaling =
        (t.scene.signaling.injectOutputColorspace t.scene.properties
          (deriveOutputSignaling (t.colors dev q) t.scene.properties.caps).colorspace).state :=
      hstate.trans hcs
    have hsync := OutputState.synced_colorspace ht
      (deriveOutputSignaling (t.colors dev q) t.scene.properties.caps).colorspace
    have hin := hsync.inSync
    rw [hsync.shown (hq.noBlob md e hmd hcreate hhas hshows), ← hstate] at hin
    dsimp only
    rw [hblobs (by rw [hstate]; exact (OutputState.colorspace_keeps _ _).1)]
    exact hin

theorem inv_commit (ht : t.Inv) (hq : t.Steady dev q verdict) :
    (t.commit dev q flags verdict).Inv := by
  by_cases hsent : ∃ f, (t.build dev q flags).result = .ok (some f)
  · obtain ⟨f, hf⟩ := hsent
    cases verdict with
    | none => exact inv_accepted ht hq hf
    | some e => exact inv_rejected ht hq hf
  · exact inv_unsent ht hq fun f hf => hsent ⟨f, hf⟩

theorem shows_accepted (ht : t.Inv) (hq : t.Steady dev q none) {f : BuiltFrame}
    (hf : (t.build dev q flags).result = .ok (some f)) :
    (t.commit dev q flags none).Shows (t.colors dev q) := by
  obtain ⟨req, x, hsilent, hcommit, -, -, hsync⟩ := syncedFrame_build ht hq hf
  have hcollision : OutputState.NoCollision (t.kernel.commit req) t.blobs t.scene.properties
      (t.effective dev q) := by
    intro md bytes hmd hbytes
    rw [hsilent.commit_eq t.kernel rfl] at hbytes
    exact hq.noCollision md bytes hmd hbytes
  have hshows := hsync.shows hcollision
  have hsame : (t.commit dev q flags none).scene.requests = t.scene.requests ∧
      (t.commit dev q flags none).scene.properties = t.scene.properties :=
    t.commit_same q flags none
  obtain ⟨hrequests, hproperties⟩ := hsame
  rw [Shows, hrequests, hproperties, commit_accepted hf, hcommit]
  exact hshows

/-! ### The run -/

theorem inv_start {s : SceneState} {k : Kernel}
    (hclear : s.properties.hasHdrOutputMetadata → k s.properties.hdrKey = 0) :
    (start s k).Inv where
  colorspace v hv := nomatch hv
  hdr := hclear
  cached := rfl
  noBlob := rfl
  vrr enable h := by
    have hnever : ∀ enable, (-1 : Int32) ≠ (OutputProperties.vrrValue enable).toUInt32.toInt32 := by
      decide
    exact absurd h (hnever enable)
  regamma := .inl rfl

theorem inv_step {e : SignalEvent} (ht : t.Inv) (he : t.StaysSteady dev e) :
    (t.step dev e).Inv := by
  cases e with
  | setOutputMetadata src =>
    exact ⟨ht.colorspace, ht.hdr, ht.cached, ht.noBlob, ht.vrr, ht.regamma⟩
  | setVrrEnabled enable => exact ht
  | setOutputTransferFunction tf => exact ht
  | edit s => exact ht
  | commit q flags verdict => exact inv_commit ht he

theorem heals_step {e : SignalEvent} (ht : t.Inv) (he : t.StaysSteady dev e) :
    t.Heals dev e := by
  cases e with
  | commit q flags verdict =>
    intro f hf
    refine ⟨changes_needsModeset ht he hf, fun hverdict => ?_⟩
    subst hverdict
    exact shows_accepted ht he hf
  | _ => trivial

/-- A scene whose connector starts without HDR metadata signals what its frames ask for, in every
run in which a frame that is not accepted asks for nothing new. -/
theorem heals_of_steady (dev : SceneDevice) (s : SceneState) (k : Kernel)
    (hclear : s.properties.hasHdrOutputMetadata → k s.properties.hdrKey = 0)
    (es : List SignalEvent) (h : Meets (step dev) (StaysSteady dev) (start s k) es) :
    Meets (step dev) (Heals dev) (start s k) es :=
  meets_of_invariant Inv (fun _ _ ht he => inv_step ht he) (fun _ _ ht he => heals_step ht he)
    (inv_start hclear) h

end SignalTrace

/-! ### A refresh toggle -/

namespace VrrToggle

/-- A CRTC with a refresh toggle. -/
def device : SceneDevice where
  planes := Planes.Controller.device
  traits _ := {}
  objectProperties crtc connector :=
    .ok { crtcId := crtc, connectorId := connector, hasVrrEnabled := true }
  test _ _ _ := none

/-- A scene without layers. -/
def created : SceneState where
  crtcId := 7
  connectorId := 20
  mode := { hdisplay := 640, vdisplay := 480 }
  properties := { crtcId := 7, connectorId := 20, hasVrrEnabled := true }
  slots := []
  nodupTwins := List.nodup_nil
  output := ⟨7, [], 9, List.nodup_nil⟩
  heap _ := {}
  primaryZposHint := some 0

def idle : FrameAnswers where
  acquire _ := .error .resourceUnavailableTryAgain
  mapForRead _ := none
  modeBlob := .ok 5
  hdrBlob _ := .error .invalidArgument
  colorBlob _ := .error .invalidArgument
  createCanvas _ := none
  kernel _ := 0

def rejected : CommitVerdict := some ⟨.invalidArgument, Errc.noConfusion⟩

/-- The toggle is set, shown, and outlives a rejected frame. -/
def shownBefore : List SignalEvent :=
  [.setVrrEnabled true, .commit idle 0 none, .commit idle 0 rejected, .setVrrEnabled false,
    .commit idle 0 none]

/-- The frame that first asks for the toggle is rejected, and sent again. -/
def askedTwice : List SignalEvent :=
  [.commit idle 0 none, .setVrrEnabled true, .commit idle 0 rejected,
    .commit idle 0 none]

end VrrToggle

namespace SignalTrace

open VrrToggle

/-- Without HDR, a colour space and a transfer function a frame is steady when the toggle is. -/
theorem steady_of_vrr {t : SignalTrace} {verdict : CommitVerdict}
    (hcolorspace : ∀ desired, t.scene.properties.askedColorspace desired = none)
    (hregamma : t.scene.properties.askedRegamma t.scene.requests = none)
    (hhdr : t.scene.properties.hasHdrOutputMetadata = false)
    (heffective : t.effective device idle = none)
    (hvrr : verdict ≠ none → ∀ v, t.scene.properties.askedVrr t.scene.requests = some v →
      t.kernel t.scene.properties.vrrKey = v) : t.Steady device idle verdict where
  makes md blob h := by cases h
  fits v hv := by
    rw [hregamma] at hv
    cases hv
  noCollision md bytes hmd := by
    rw [heffective] at hmd
    cases hmd
  rejected hverdict :=
    { colorspace := fun v hv => by
        rw [hcolorspace] at hv
        cases hv
      hdr := fun h => by
        rw [hhdr] at h
        cases h
      vrr := hvrr hverdict
      regamma := fun v hv => by
        rw [hregamma] at hv
        cases hv }
  noBlob md e hmd := by
    rw [heffective] at hmd
    cases hmd

theorem heals_of_steady_shownBefore :
    Meets (step device) (Heals device) (start created fun _ => 0) shownBefore :=
  heals_of_steady device created (fun _ => 0) (fun h => by cases h) shownBefore
    ⟨trivial, steady_of_vrr (fun _ => rfl) rfl rfl rfl fun h => absurd rfl h,
      steady_of_vrr (fun _ => rfl) rfl rfl rfl fun _ v hv => by
        cases hv
        rfl,
      trivial, steady_of_vrr (fun _ => rfl) rfl rfl rfl fun h => absurd rfl h, trivial⟩

/-- The second frame is sent without `ALLOW_MODESET`. -/
theorem changed_without_modeset :
    ¬Meets (step device) (Heals device) (start created fun _ => 0) askedTwice := by
  intro h
  have hsent := (h.2.2.2.1 _ rfl).1 ⟨(7, .output .vrrEnabled), rfl, by decide⟩
  exact absurd (show (0 : Flags) &&& SceneState.allowModeset = SceneState.allowModeset from hsent)
    (by decide)

end SignalTrace

end DrmCxx.Scene
