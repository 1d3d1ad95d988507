import DrmCxx.Verification.Planes.OnePlane
import DrmCxx.Verification.Planes.Trace

/-!
# Legality of a group's placement

A group is placed by a matching, by two greedy passes, or by what is left of these after some
layers were dropped. Each of the three keeps one plane for every layer, the stacking order, and
every virtual plane beside its parent.
-/

namespace DrmCxx.Planes

open DrmCxx.Lib

namespace SearchContext

open Assignment

variable {c : SearchContext} {s : SearchState} {layers : List LayerId}
  {planes : List PlaneCapabilities} {a b : Assignment}

/-! ### The three stages -/

/-- The matching of `bipartite_preseed_group`, as an assignment. -/
def preseed (c : SearchContext) (s : SearchState) (layers : List LayerId)
    (planes : List PlaneCapabilities) : Assignment :=
  (c.bipartitePreseedGroup s (c.byKeepPriority layers) planes).foldl
    (fun a (l, p) => a.insertOrAssign p.id l) Table.empty

/-- What two passes over the ranked candidates place. -/
def greedyOf (c : SearchContext) (s : SearchState) (layers : List LayerId)
    (planes : List PlaneCapabilities) : Assignment :=
  c.greedy s (c.rankCandidatesGroup s (c.byKeepPriority layers) planes)

/-- The order in which the placements of `a` are dropped. -/
def dropOrder (c : SearchContext) (a : Assignment) : List (PlaneId × LayerId) :=
  c.device.stdSort.sort (fun x y => keepPriority (c.heap x.2) < keepPriority (c.heap y.2)) a.entries

/-- The placements `es` dropped one after the other, those already gone skipped. -/
def dropped (c : SearchContext) (among es : List (PlaneId × LayerId)) (a : Assignment) :
    Assignment :=
  es.foldl (fun a e => if a.contains e.1 then c.eraseWithChildren among e.1 a else a) a

theorem dropped_cons (among es : List (PlaneId × LayerId)) (e : PlaneId × LayerId)
    (a : Assignment) : c.dropped among (e :: es) a =
      c.dropped among es (if a.contains e.1 then c.eraseWithChildren among e.1 a else a) := rfl

/-- The loop returns its assignment less the first few of the placements it goes through. -/
theorem dropOne_eq_dropped (among es : List (PlaneId × LayerId)) (a : Assignment)
    (s : SearchState) : ∃ k, (c.dropOne among es a s).1 = c.dropped among (es.take k) a := by
  induction es generalizing a s with
  | nil => exact ⟨0, rfl⟩
  | cons e es ih =>
    rw [dropOne]
    cases hc : a.contains e.1 with
    | false =>
      obtain ⟨k, hk⟩ := ih a s
      refine ⟨k + 1, ?_⟩
      rw [List.take_succ_cons, dropped_cons, hc, if_neg Bool.false_ne_true]
      exact hk
    | true =>
      simp only [Bool.not_true, Bool.false_eq_true, if_false]
      split
      · refine ⟨1, ?_⟩
        rw [List.take_succ_cons, dropped_cons, hc, if_pos rfl]
        rfl
      · obtain ⟨k, hk⟩ := ih (c.eraseWithChildren among e.1 a)
          (c.tryTestCommit s (c.eraseWithChildren among e.1 a)).2
        refine ⟨k + 1, ?_⟩
        rw [List.take_succ_cons, dropped_cons, hc, if_pos rfl]
        exact hk

/-- A group's placement is its matching, once that passed the checks, or what the drops leave of
the greedy one. -/
theorem placeGroup_cases (layers : List LayerId) (planes : List PlaneCapabilities)
    (s : SearchState) :
    ((c.placeGroup layers planes s).1 = c.preseed s layers planes ∧
      ((c.preseed s layers planes).isEmpty = true ∨
        c.preseedStacks (c.preseed s layers planes) = true)) ∨
    ∃ s' k, (c.placeGroup layers planes s).1 = c.dropped (c.dropOrder (c.greedyOf s' layers planes))
      ((c.dropOrder (c.greedyOf s' layers planes)).take k) (c.greedyOf s' layers planes) := by
  have hgreedy : ∀ s', ∃ k, (c.placeGreedy (c.byKeepPriority layers) planes s').1 =
      c.dropped (c.dropOrder (c.greedyOf s' layers planes))
        ((c.dropOrder (c.greedyOf s' layers planes)).take k) (c.greedyOf s' layers planes) := by
    intro s'
    unfold placeGreedy
    dsimp only
    split
    · exact ⟨0, rfl⟩
    · exact dropOne_eq_dropped _ _ _ _
  unfold placeGroup
  change (_ = _ ∧ _) ∨ _
  dsimp only
  split
  · rename_i he
    exact .inl ⟨rfl, .inl he⟩
  · split
    · rename_i hstacks
      split
      · exact .inl ⟨rfl, .inr hstacks⟩
      · exact .inr ⟨_, hgreedy _⟩
    · exact .inr ⟨_, hgreedy _⟩

/-! ### Virtual planes beside their parents -/

/-- The parent of every virtual plane is in the assignment too. -/
def Paired (c : SearchContext) (a : Assignment) : Prop :=
  ∀ p l, (p, l) ∈ a.entries → ∀ caps, c.device.registry.capsOf p = some caps →
    ∀ parent, caps.multirectParent = some parent → a.contains parent = true

theorem fitsMultirect_iff {p : PlaneId} : c.device.fitsMultirect a p = true ↔
    ∀ caps, c.device.registry.capsOf p = some caps →
      ∀ parent, caps.multirectParent = some parent → a.contains parent = true := by
  unfold Device.fitsMultirect multirectPairingOk
  cases c.device.registry.capsOf p with
  | none => simp
  | some caps => cases hp : caps.multirectParent <;> simp [hp]

theorem multirectComplete_iff : c.device.multirectComplete a = true ↔ c.Paired a := by
  simp only [Device.multirectComplete, List.all_eq_true, fitsMultirect_iff, Prod.forall]
  rfl

theorem paired_empty : c.Paired Table.empty := fun _ _ h => by cases h

theorem contains_insertOrAssign {p q : PlaneId} {l : LayerId} (h : a.contains q = true) :
    (a.insertOrAssign p l).contains q = true := by
  obtain ⟨l', hl'⟩ := Table.contains_eq_true.mp h
  rw [Table.contains_eq_true]
  by_cases hq : q = p
  · exact ⟨l, Table.mem_insertOrAssign.mpr (.inl ⟨hq, rfl⟩)⟩
  · exact ⟨l', Table.mem_insertOrAssign.mpr (.inr ⟨hq, hl'⟩)⟩

theorem Paired.insert (h : c.Paired a) {p : PlaneId} {l : LayerId}
    (hfit : c.device.fitsMultirect a p = true) : c.Paired (a.insertOrAssign p l) := by
  rw [fitsMultirect_iff] at hfit
  intro q l' hq caps hcaps parent hparent
  apply contains_insertOrAssign
  rcases Table.mem_insertOrAssign.mp hq with ⟨rfl, -⟩ | ⟨-, hq⟩
  · exact hfit caps hcaps parent hparent
  · exact h q l' hq caps hcaps parent hparent

theorem greedyPass_paired (virtual : Bool) (candidates : List (PlaneCapabilities × LayerId))
    (h : c.Paired a) : c.Paired (c.greedyPass s virtual candidates a) := by
  unfold greedyPass
  induction candidates generalizing a with
  | nil => exact h
  | cons e es ih =>
    apply ih
    dsimp only
    split
    · exact h
    · rename_i hno
      simp only [Bool.or_eq_true, not_or, Bool.not_eq_true', Bool.not_eq_false] at hno
      exact h.insert hno.2

/-- The plane `p` hangs on the plane `parent`. -/
def childOf (c : SearchContext) (parent p : PlaneId) : Bool :=
  (c.device.registry.capsOf p).any fun caps => caps.multirectParent = some parent

/-- A drop takes the plane and those of the virtual planes given that hang on it. -/
theorem mem_eraseWithChildren {among : List (PlaneId × LayerId)} {p q : PlaneId} {l : LayerId} :
    (q, l) ∈ (c.eraseWithChildren among p a).entries ↔
      (q, l) ∈ a.entries ∧ q ≠ p ∧ (c.childOf p q = true → q ∉ among.map Prod.fst) := by
  have hfold : ∀ (es : List (PlaneId × LayerId)) (b : Assignment),
      (q, l) ∈ (es.foldl (fun a e => if c.childOf p e.1 then a.erase e.1 else a) b).entries ↔
        (q, l) ∈ b.entries ∧ (c.childOf p q = true → q ∉ es.map Prod.fst) := by
    intro es
    induction es with
    | nil => simp
    | cons e es ih =>
      intro b
      rw [List.foldl_cons, ih, List.map_cons, List.mem_cons, not_or]
      by_cases he : c.childOf p e.1 = true
      · rw [if_pos he, Table.mem_erase]
        constructor
        · rintro ⟨⟨hne, hb⟩, h⟩
          exact ⟨hb, fun hc => ⟨hne, h hc⟩⟩
        · rintro ⟨hb, h⟩
          by_cases hne : q = e.1
          · exact absurd hne (h (hne ▸ he)).1
          · exact ⟨⟨hne, hb⟩, fun hc => (h hc).2⟩
      · rw [if_neg he]
        constructor
        · rintro ⟨hb, h⟩
          exact ⟨hb, fun hc => ⟨fun hq => he (hq ▸ hc), h hc⟩⟩
        · exact fun ⟨hb, h⟩ => ⟨hb, fun hc => (h hc).2⟩
  unfold eraseWithChildren
  refine (hfold among (a.erase p)).trans ?_
  rw [Table.mem_erase]
  tauto

/-- The parents of the planes given are ordinary planes. -/
def OrdinaryParents (c : SearchContext) (planes : List PlaneCapabilities) : Prop :=
  ∀ q ∈ planes, ∀ parent ∈ q.multirectParent, ∀ caps ∈ c.device.registry.capsOf parent,
    caps.multirectParent = none

instance : Decidable (c.OrdinaryParents planes) :=
  inferInstanceAs (Decidable (∀ q ∈ planes, ∀ parent ∈ q.multirectParent, ∀ caps ∈
    c.device.registry.capsOf parent, caps.multirectParent = none))

theorem capsOf_of_mem (hp : planes ⊆ c.device.registry.forCrtc c.crtcIndex)
    {q : PlaneCapabilities} (hq : q ∈ planes) : c.device.registry.capsOf q.id = some q :=
  PlaneRegistry.capsOf_eq_some.mpr ⟨(PlaneRegistry.mem_forCrtc.mp (hp hq)).1, rfl⟩

/-- A plane that stays keeps its parent: an ordinary plane is only dropped by itself, and takes its
virtual planes along. -/
theorem eraseWithChildren_paired {among : List (PlaneId × LayerId)}
    (hp : planes ⊆ c.device.registry.forCrtc c.crtcIndex) (ho : c.OrdinaryParents planes)
    (hplaced : c.Placed layers planes a) (hamong : a.entries ⊆ among) (h : c.Paired a)
    (p : PlaneId) : c.Paired (c.eraseWithChildren among p a) := by
  intro q l hq caps hcaps parent hparent
  obtain ⟨hmem, -, hstay⟩ := mem_eraseWithChildren.mp hq
  obtain ⟨-, q', hq', rfl, -⟩ := hplaced q l hmem
  obtain rfl : q' = caps := Option.some.inj ((capsOf_of_mem hp hq').symm.trans hcaps)
  obtain ⟨l', hl'⟩ := Table.contains_eq_true.mp (h _ l hmem q' hcaps parent hparent)
  refine Table.contains_eq_true.mpr ⟨l', mem_eraseWithChildren.mpr ⟨hl', ?_, fun hchild => ?_⟩⟩
  · rintro rfl
    refine hstay ?_ (List.mem_map.mpr ⟨_, hamong hmem, rfl⟩)
    simp [childOf, hcaps, hparent]
  · unfold childOf at hchild
    cases hpcaps : c.device.registry.capsOf parent with
    | none => simp [hpcaps] at hchild
    | some pcaps => simp [hpcaps, ho q' hq' parent hparent pcaps hpcaps] at hchild

/-! ### Legal assignments -/

/-- The planes and layers of the lists, each at most once, in pairs the static gate lets through,
stacked as the layers ask, and no virtual plane without its parent. -/
structure Legal (c : SearchContext) (layers : List LayerId) (planes : List PlaneCapabilities)
    (a : Assignment) : Prop where
  planes_nodup : a.keys.Nodup
  layers_nodup : a.values.Nodup
  compatible : ∀ p l, (p, l) ∈ a.entries → l ∈ layers ∧
    ∃ q ∈ planes, q.id = p ∧ planeStaticallyCompatible q (c.heap l) c.crtcIndex = true
  ordered : ∀ p l, (p, l) ∈ a.entries → ∀ p' l', (p', l') ∈ a.entries → p ≠ p' →
    ∀ q ∈ planes, q.id = p → ∀ q' ∈ planes, q'.id = p' →
      stackingConsistent q (c.heap l).zpos q' (c.heap l').zpos = true
  paired : ∀ p l, (p, l) ∈ a.entries → ∀ q ∈ planes, q.id = p →
    ∀ parent, q.multirectParent = some parent → a.contains parent = true

/-- The invariant of the search, over the registry. -/
structure Sound (c : SearchContext) (layers : List LayerId) (planes : List PlaneCapabilities)
    (a : Assignment) : Prop where
  placed : c.Placed layers planes a
  onePlane : OnePlane a
  ordered : c.Stacks a
  paired : c.Paired a

theorem sound_empty : c.Sound layers planes Table.empty :=
  ⟨placed_empty, onePlane_empty, stacks_empty, paired_empty⟩

theorem Sound.legal (h : c.Sound layers planes a)
    (hp : planes ⊆ c.device.registry.forCrtc c.crtcIndex) : c.Legal layers planes a where
  planes_nodup := a.nodupKeys
  layers_nodup := h.onePlane.nodup_values
  compatible := h.placed
  ordered p l hpl p' l' hpl' hne q hq hid q' hq' hid' := by
    have horder := h.ordered _ hpl _ hpl'
    subst hid hid'
    rwa [Device.inOrder, decide_eq_false (Ne.symm hne), Bool.false_or, capsOf_of_mem hp hq,
      capsOf_of_mem hp hq'] at horder
  paired p l hpl q hq hid parent hparent := by
    subst hid
    exact h.paired _ l hpl q (capsOf_of_mem hp hq) parent hparent

theorem Sound.byKeepPriority (h : c.Sound (c.byKeepPriority layers) planes a) :
    c.Sound layers planes a :=
  { h with placed := h.placed.mono (fun _ => mem_byKeepPriority.mp) (List.Subset.refl _) }

theorem sound_preseed (hl : layers.Nodup)
    (hstacks : c.preseedStacks (c.preseed s layers planes) = true) :
    c.Sound layers planes (c.preseed s layers planes) := by
  simp only [preseedStacks, Bool.and_eq_true] at hstacks
  exact Sound.byKeepPriority ⟨preseed_placed _ (fun _ _ => mem_bipartitePreseedGroup) placed_empty,
    preseed_onePlane (nodup_byKeepPriority hl) s planes, Device.stackingConsistent_iff.mp hstacks.1,
    multirectComplete_iff.mp hstacks.2⟩

theorem sound_greedyPass (virtual : Bool) (candidates : List (PlaneCapabilities × LayerId))
    (hcand : ∀ q l, (q, l) ∈ candidates → q ∈ planes ∧ l ∈ layers ∧ c.compatible q l = true)
    (h : c.Sound layers planes a) : c.Sound layers planes (c.greedyPass s virtual candidates a) :=
  ⟨greedyPass_placed virtual candidates hcand h.placed,
    greedyPass_onePlane virtual candidates h.onePlane,
    greedyPass_stacks virtual candidates h.ordered, greedyPass_paired virtual candidates h.paired⟩

theorem sound_greedyOf (layers : List LayerId) (planes : List PlaneCapabilities)
    (s : SearchState) : c.Sound layers planes (c.greedyOf s layers planes) := by
  have hcand : ∀ q l, (q, l) ∈ c.rankCandidatesGroup s (c.byKeepPriority layers) planes →
      q ∈ planes ∧ l ∈ c.byKeepPriority layers ∧ c.compatible q l = true :=
    fun _ _ => mem_rankCandidatesGroup.mp
  exact Sound.byKeepPriority
    (sound_greedyPass true _ hcand (sound_greedyPass false _ hcand sound_empty))

theorem eraseWithChildren_sublist (among : List (PlaneId × LayerId)) (p : PlaneId)
    (a : Assignment) : (c.eraseWithChildren among p a).entries.Sublist a.entries := by
  have hfold : ∀ (es : List (PlaneId × LayerId)) (b : Assignment),
      (es.foldl (fun a e => if c.childOf p e.1 then a.erase e.1 else a) b).entries.Sublist
        b.entries := by
    intro es
    induction es with
    | nil => exact fun b => List.Sublist.refl _
    | cons e es ih =>
      intro b
      rw [List.foldl_cons]
      refine (ih _).trans ?_
      split
      · exact List.filter_sublist
      · exact List.Sublist.refl _
  exact (hfold among (a.erase p)).trans List.filter_sublist

theorem sound_dropped (hp : planes ⊆ c.device.registry.forCrtc c.crtcIndex)
    (ho : c.OrdinaryParents planes) (among es : List (PlaneId × LayerId))
    (hamong : a.entries ⊆ among) (h : c.Sound layers planes a) :
    c.Sound layers planes (c.dropped among es a) := by
  induction es generalizing a with
  | nil => exact h
  | cons e es ih =>
    rw [dropped_cons]
    split
    · have hsub := eraseWithChildren_sublist (c := c) among e.1 a
      apply ih (fun _ hx => hamong (hsub.subset hx))
      exact ⟨h.placed.subset hsub.subset, h.onePlane.subset hsub.subset,
        h.ordered.subset hsub.subset, eraseWithChildren_paired hp ho h.placed hamong h.paired e.1⟩
    · exact ih hamong h

theorem subset_dropOrder (a : Assignment) : a.entries ⊆ c.dropOrder a :=
  fun _ he => (c.device.stdSort.perm _ _).mem_iff.mpr he

/-- Whatever the caches and the kernel answer, a group's placement is legal: the matching once its
checks passed, the greedy placement, and all that drops leave of it. -/
theorem placeGroup_legal (c : SearchContext) (layers : List LayerId)
    (planes : List PlaneCapabilities) (s : SearchState) (hl : layers.Nodup)
    (hp : planes ⊆ c.device.registry.forCrtc c.crtcIndex) (ho : c.OrdinaryParents planes) :
    c.Legal layers planes (c.placeGroup layers planes s).1 ∧
      (c.preseedStacks (c.preseed s layers planes) = true →
        c.Legal layers planes (c.preseed s layers planes)) ∧
      ∀ s', c.Legal layers planes (c.greedyOf s' layers planes) ∧
        ∀ es, c.Legal layers planes (c.dropped (c.dropOrder (c.greedyOf s' layers planes)) es
          (c.greedyOf s' layers planes)) := by
  have hgreedy : ∀ s' es, c.Sound layers planes
      (c.dropped (c.dropOrder (c.greedyOf s' layers planes)) es (c.greedyOf s' layers planes)) :=
    fun s' es => sound_dropped hp ho _ es (subset_dropOrder _) (sound_greedyOf layers planes s')
  refine ⟨?_, fun h => (sound_preseed hl h).legal hp, fun s' =>
    ⟨(sound_greedyOf layers planes s').legal hp, fun es => (hgreedy s' es).legal hp⟩⟩
  rcases placeGroup_cases layers planes s with ⟨hpre, hempty | hstacks⟩ | ⟨s', k, hdrop⟩
  · rw [hpre]
    refine Sound.legal ?_ hp
    have hnone : (c.preseed s layers planes).entries = [] := Table.isEmpty_eq_true.mp hempty
    refine ⟨fun p l he => ?_, fun p p' l he => ?_, fun e he => ?_, fun p l he => ?_⟩
    · rw [hnone] at he
      cases he
    · rw [hnone] at he
      cases he
    · rw [hnone] at he
      cases he
    · rw [hnone] at he
      cases he
  · rw [hpre]
    exact (sound_preseed hl hstacks).legal hp
  · rw [hdrop]
    exact (hgreedy s' _).legal hp

end SearchContext

namespace Controller

/-- The controller with a virtual plane beside its OVERLAY. -/
def multirect : Device :=
  { device with
    registry := {
      planes := device.registry.planes ++ [
        { id := 3, possibleCrtcs := 1, type := .overlay, formatTable := [(1, 0)]
          multirectParent := some 2 }]
      nodupIds := by decide } }

/-- A search over its three planes for three layers. -/
def multirectSearch : SearchContext where
  device := multirect
  crtcIndex := 0
  output := output [0, 1, 2] nodup_triple
  layers := [0, 1, 2]
  heap l := if l = 0 then layer 0 0 11 else if l = 1 then layer 100 3 12 else layer 200 4 13
  flags := 0
  reserved := []
  previous := none
  maxTestCommits := 16

theorem placeGroup_legal_multirect :
    (multirectSearch.placeGroup [0, 1, 2] (multirect.registry.forCrtc 0) {}).1.size = 3 ∧
      multirectSearch.Legal [0, 1, 2] (multirect.registry.forCrtc 0)
        (multirectSearch.placeGroup [0, 1, 2] (multirect.registry.forCrtc 0) {}).1 :=
  ⟨by decide +kernel, (SearchContext.placeGroup_legal multirectSearch [0, 1, 2]
    (multirect.registry.forCrtc 0) {} (by decide) (List.Subset.refl _) (by decide +kernel)).1⟩

end Controller

end DrmCxx.Planes
