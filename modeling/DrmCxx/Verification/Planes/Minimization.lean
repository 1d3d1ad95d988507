import DrmCxx.Verification.Planes.Snapshots
import DrmCxx.Verification.Planes.Trace

/-!
# Property minimization

The kernel next to the snapshots. A snapshot that nobody wrote behind agrees with the kernel, so the
writes a diff skips are those the kernel has already.
-/

namespace DrmCxx.Planes

open DrmCxx.Lib DrmCxx.Modeset

/-! ### The values of the writes -/

section Values

variable {d : Device} {a : Allocator} {heap : Heap} {stack : ZposStack} {e : PlaneId × LayerId}
  {t : PropTag} {v : UInt64}

/-- A write of an entry carries the layer's value, narrowed to the plane. -/
theorem entryWrites_value {w : PropKey × UInt64} (hw : w ∈ Allocator.entryWrites d a heap stack e)
    (hkey : w.1 = (e.1, .tag t))
    (hv : Device.stackedValue (stack.zposIn e.1) (heap e.2) t = some v) :
    w.2 = d.clampToPlane e.1 t v := by
  rcases List.mem_append.mp hw with hw | hw
  · split at hw
    · obtain ⟨prop, -, rfl⟩ := List.mem_map.mp hw
      cases hkey
    · cases hw
  · obtain ⟨t', -, hw⟩ := List.mem_filterMap.mp hw
    obtain ⟨v', hv', hw⟩ := Option.bind_eq_some_iff.mp hw
    split at hw
    · split at hw
      · cases hw
        obtain rfl : t' = t := by simpa [Device.writeOf] using hkey
        rw [hv] at hv'
        cases hv'
        rfl
      · cases hw
    · cases hw

/-- The write is made unless the snapshot has the value, or a producer attaches the framebuffer. -/
theorem entryWrites_mem (hv : Device.stackedValue (stack.zposIn e.1) (heap e.2) t = some v)
    (hwritable : d.writable e.1 t = true)
    (hbound : ¬ ((heap e.2).externallyBound = true ∧ t = .fbId))
    (hbase : propClass t = .content ∨ ∀ snap, a.diffBase e.1 e.2 = some snap → snap t ≠ some v) :
    ((e.1, .tag t), d.clampToPlane e.1 t v) ∈ Allocator.entryWrites d a heap stack e := by
  refine List.mem_append.mpr (.inr (List.mem_filterMap.mpr ⟨t, PropTag.mem_all t, ?_⟩))
  rw [hv, Option.bind_some]
  have hgate : (d.writable e.1 t && !((heap e.2).externallyBound && decide (t = .fbId))) =
    true := by
    rw [hwritable]
    cases hext : (heap e.2).externallyBound with
    | false => rfl
    | true => simp [show t ≠ .fbId from fun h => hbound ⟨hext, h⟩]
  rw [if_pos hgate, if_pos]
  · rfl
  · rcases hbase with hc | hbase
    · simp [hc]
    · cases hb : a.diffBase e.1 e.2 with
      | none => simp
      | some snap => simp [hbase snap hb]

theorem applyLayerToPlane_mem {l : Layer} {p : PlaneId} {w : PropKey × UInt64}
    (hv : Device.stackedValue none l t = some v) (hwritable : d.writable p t = true)
    (hkey : w.1 = (p, .tag t)) :
    w ∈ d.applyLayerToPlane l p none ↔ w = ((p, .tag t), d.clampToPlane p t v) := by
  unfold Device.applyLayerToPlane
  rw [List.mem_filterMap]
  constructor
  · rintro ⟨t', -, hw⟩
    obtain ⟨v', hv', hw⟩ := Option.bind_eq_some_iff.mp hw
    split at hw
    · cases hw
      obtain rfl : t' = t := by simpa [Device.writeOf] using hkey
      rw [hv] at hv'
      cases hv'
      rfl
    · cases hw
  · rintro rfl
    exact ⟨t, PropTag.mem_all t, by simp [hv, hwritable, Device.writeOf]⟩

end Values

/-! ### Committed frames -/

/-- A real frame, with what the caller writes on the planes it reserved for it. -/
structure CommittedFrame where
  frame : Frame
  before : AtomicRequest := []
  after : AtomicRequest := []
  real : frame.testOnly = false
  reservedOnly : ∀ w ∈ before ++ after, w.1.1 ∈ frame.reserved

/-- The allocator of a CRTC over the kernel it commits to. -/
structure Screen where
  allocator : Allocator := {}
  kernel : Kernel
  /-- Planes that the caller or a parked composition layer wrote after the last layer was armed on
  them. -/
  overwritten : List PlaneId := []

namespace Screen

variable (d : Device) (s : Screen) (f : CommittedFrame)

def applied : Applied := s.allocator.apply d { f.frame with kernel := s.kernel }

/-- The planes armed from the assignment. -/
def assigned : List (PlaneId × LayerId) :=
  (s.applied d f).armed.filter fun e =>
    (s.applied d f).allocator.previousAllocation.contains e.1

/-- The plane the composition layer is parked on. -/
def parked : List (PlaneId × LayerId) :=
  (s.applied d f).armed.filter fun e =>
    !(s.applied d f).allocator.previousAllocation.contains e.1

/-- The frame is applied and its request accepted. -/
def commit : Screen where
  allocator := (s.applied d f).allocator
  kernel := s.kernel.commit (f.before ++ (s.applied d f).request ++ f.after)
  overwritten :=
    s.overwritten.filter (fun p => !(s.assigned d f).any fun e => e.1 = p) ++
      (f.before ++ f.after).map (fun w => w.1.1) ++ (s.parked d f).map Prod.fst

end Screen

inductive ScreenEvent
  | commit (f : CommittedFrame)
  | forgetLayer (l : LayerId)
  | invalidateAllocation
  | setMaxTestCommits (max : ℕ)
  | setForceFullPropertyWrites (force : Bool)

namespace Screen

def step (d : Device) (s : Screen) : ScreenEvent → Screen
  | .commit f => s.commit d f
  | .forgetLayer l => { s with allocator := s.allocator.step d (.forgetLayer l) }
  | .invalidateAllocation => { s with allocator := s.allocator.step d .invalidateAllocation }
  | .setMaxTestCommits max => { s with allocator := s.allocator.step d (.setMaxTestCommits max) }
  | .setForceFullPropertyWrites force =>
    { s with allocator := s.allocator.step d (.setForceFullPropertyWrites force) }

/-- `P` holds of every commit of a run, in the state it is made from. -/
def AtCommits (P : Screen → CommittedFrame → Prop) (s : Screen) : ScreenEvent → Prop
  | .commit f => P s f
  | _ => True

variable {d : Device} {s : Screen} {f : CommittedFrame}

/-- The value this frame has for a property on a plane it arms: the zpos as stacked. -/
def frameValue (d : Device) (s : Screen) (f : CommittedFrame) (e : PlaneId × LayerId)
    (t : PropTag) : Option UInt64 :=
  let assignment := (s.applied d f).allocator.previousAllocation
  let zpos := if assignment.contains e.1 then (Allocator.frameStack d f.frame assignment).zposIn e.1
    else none
  Device.stackedValue zpos (f.frame.heap e.2) t

/-- After the commit each armed plane holds the values of this frame, alpha as rescaled. -/
def Holds (d : Device) (s : Screen) (f : CommittedFrame) : Prop :=
  ∀ e ∈ (s.applied d f).armed, ∀ t v, d.writable e.1 t = true →
    s.frameValue d f e t = some v → (s.commit d f).kernel (e.1, .tag t) = d.clampToPlane e.1 t v

/-- No write is skipped against a snapshot somebody wrote behind, no framebuffer is left to a
producer, and the caller leaves the plane of the composition layer alone. -/
structure NothingSkipped (d : Device) (s : Screen) (f : CommittedFrame) : Prop where
  diffed : ∀ e ∈ s.assigned d f, (s.allocator.diffBase e.1 e.2).isSome → e.1 ∉ s.overwritten
  bound : ∀ e ∈ s.assigned d f, (f.frame.heap e.2).externallyBound = true →
    (f.frame.heap e.2).props .fbId = none
  parked : ∀ e ∈ s.parked d f, ∀ w ∈ f.before ++ f.after, w.1.1 ≠ e.1

/-- A snapshot nobody wrote behind agrees with the kernel. -/
def InSync (d : Device) (s : Screen) : Prop :=
  ∀ p snap, s.allocator.lastCommitted.find? p = some snap → p ∉ s.overwritten →
    ∀ t v, propClass t = .placement → d.writable p t = true → snap.properties t = some v →
      s.kernel (p, .tag t) = d.clampToPlane p t v

/-! ### One commit -/

theorem applied_spec (d : Device) (s : Screen) (f : CommittedFrame) :
    ((s.applied d f).armed = [] ∧ (s.applied d f).request = [] ∧
        (s.applied d f).allocator.lastCommitted = s.allocator.lastCommitted) ∨
      ∃ parked, Allocator.ArmSpec d s.allocator (s.applied d f).allocator f.frame.resetHeap
          (Allocator.frameStack d f.frame (s.applied d f).allocator.previousAllocation)
          (s.applied d f).allocator.previousAllocation parked f.frame.reserved
          (s.applied d f).request ∧
        s.assigned d f = (s.applied d f).allocator.previousAllocation.entries ∧
        s.parked d f = parked.toList.map Prod.swap ∧
        (s.applied d f).armed = s.assigned d f ++ s.parked d f := by
  rcases Allocator.apply_spec d s.allocator { f.frame with kernel := s.kernel } f.real with
    h | ⟨parked, hspec, harmed⟩
  · exact .inl h
  · have hin : ∀ e ∈ (s.applied d f).allocator.previousAllocation.entries,
        (s.applied d f).allocator.previousAllocation.contains e.1 = true :=
      fun e he => Allocator.contains_of_mem he
    have hout : ∀ e ∈ parked.toList.map Prod.swap,
        (s.applied d f).allocator.previousAllocation.contains e.1 = false := by
      intro e he
      obtain ⟨x, hx, rfl⟩ := List.mem_map.mp he
      exact hspec.parkedFree x.1 x.2 (Option.mem_toList.mp hx)
    have harmed : (s.applied d f).armed = (s.applied d f).allocator.previousAllocation.entries ++
      parked.toList.map Prod.swap := harmed
    have hassigned : s.assigned d f =
        (s.applied d f).allocator.previousAllocation.entries := by
      rw [assigned, harmed, List.filter_append, List.filter_eq_self.mpr hin,
        List.filter_eq_nil_iff.mpr (by intro e he; simp [hout e he]), List.append_nil]
    have hparked : s.parked d f = parked.toList.map Prod.swap := by
      rw [Screen.parked, harmed, List.filter_append,
        List.filter_eq_nil_iff.mpr (by intro e he; simp [hin e he]),
        List.filter_eq_self.mpr (by intro e he; simp [hout e he]), List.nil_append]
    exact .inr ⟨parked, hspec, hassigned, hparked, by rw [hassigned, hparked, harmed]⟩

/-- An armed plane nobody else writes ends with the values of its writes. -/
theorem commit_kernel_eq {p : PlaneId} {t : PropTag} {v : UInt64}
    (hcaller : ∀ w ∈ f.before ++ f.after, w.1.1 ≠ p)
    (hvalue : ∀ w ∈ (s.applied d f).request, w.1 = (p, .tag t) → w.2 = v)
    (hwritten : s.kernel (p, .tag t) = v ∨ ∃ w ∈ (s.applied d f).request, w.1 = (p, .tag t)) :
    (s.commit d f).kernel (p, .tag t) = v := by
  apply applyWrites_eq
  · intro w hw hkey
    rcases List.mem_append.mp hw with hw | hw
    · rcases List.mem_append.mp hw with hw | hw
      · exact absurd (congrArg Prod.fst hkey) (hcaller w (List.mem_append_left _ hw))
      · exact hvalue w hw hkey
    · exact absurd (congrArg Prod.fst hkey) (hcaller w (List.mem_append_right _ hw))
  · rcases hwritten with h | ⟨w, hw, hkey⟩
    · exact .inl h
    · exact .inr ⟨w, List.mem_append_left _ (List.mem_append_right _ hw), hkey⟩

theorem commit_kernel_of_unwritten {p : PlaneId} {n : PropName}
    (hcaller : ∀ w ∈ f.before ++ f.after, w.1.1 ≠ p)
    (hreq : ∀ w ∈ (s.applied d f).request, w.1.1 ≠ p) :
    (s.commit d f).kernel (p, n) = s.kernel (p, n) := by
  apply applyWrites_of_not_mem
  intro w hw hkey
  have hp : w.1.1 = p := congrArg Prod.fst hkey
  rcases List.mem_append.mp hw with hw | hw
  · rcases List.mem_append.mp hw with hw | hw
    · exact hcaller w (List.mem_append_left _ hw) hp
    · exact hreq w hw hp
  · exact hcaller w (List.mem_append_right _ hw) hp

theorem holds_of_inSync (hs : s.InSync d) (hk : s.NothingSkipped d f) : s.Holds d f := by
  intro e he t v hwritable hv
  rcases s.applied_spec d f with ⟨hnone, -⟩ | ⟨parked, hspec, hassigned, hparked, harmed⟩
  · rw [hnone] at he
    cases he
  · rw [harmed] at he
    rcases List.mem_append.mp he with he | he
    · have hmem := hassigned ▸ he
      have hcontains := Allocator.contains_of_mem hmem
      have hv : Device.stackedValue ((Allocator.frameStack d f.frame
          (s.applied d f).allocator.previousAllocation).zposIn e.1) (f.frame.resetHeap e.2) t =
            some v := by
        rw [frameValue, if_pos hcontains] at hv
        simpa [Device.stackedValue] using hv
      apply commit_kernel_eq
      · intro w hw hp
        exact hspec.unreserved e hmem (hp ▸ f.reservedOnly w hw)
      · intro w hw hkey
        have hw := (hspec.writes e hmem w (congrArg Prod.fst hkey)).mp hw
        exact entryWrites_value hw hkey hv
      · by_cases hbase : propClass t = .content ∨
            ∀ snap, s.allocator.diffBase e.1 e.2 = some snap → snap t ≠ some v
        · right
          refine ⟨_, (hspec.writes e hmem _ rfl).mpr
            (entryWrites_mem hv hwritable ?_ hbase), rfl⟩
          rintro ⟨hext, rfl⟩
          have hfb := hk.bound e he (by simpa using hext)
          simp [Device.stackedValue, hfb] at hv
        · -- the diff finds the value in a snapshot that is in sync
          left
          rw [not_or] at hbase
          obtain ⟨hclass, hbase⟩ := hbase
          rw [Classical.not_forall] at hbase
          obtain ⟨snap, hbase⟩ := hbase
          rw [Classical.not_imp, not_not] at hbase
          obtain ⟨hdiff, hsnap⟩ := hbase
          have hfresh := hk.diffed e he (by rw [hdiff]; rfl)
          have hplace : propClass t = .placement := by
            cases h : propClass t with
            | content => exact absurd h hclass
            | placement => rfl
          unfold Allocator.diffBase at hdiff
          split at hdiff
          · cases hdiff
          · obtain ⟨last, hlast, hdiff⟩ := Option.bind_eq_some_iff.mp hdiff
            split at hdiff
            · cases hdiff
              exact hs e.1 last hlast hfresh t v hplace hwritable hsnap
            · cases hdiff
    · have hswap := hparked ▸ he
      obtain ⟨x, hx, rfl⟩ := List.mem_map.mp hswap
      have hx := Option.mem_toList.mp hx
      have hfree := hspec.parkedFree x.1 x.2 hx
      have hv : Device.stackedValue none (f.frame.resetHeap x.1) t = some v := by
        rw [frameValue] at hv
        dsimp only [Prod.swap] at hv
        rw [if_neg (by rw [hfree]; exact Bool.false_ne_true)] at hv
        simpa [Device.stackedValue] using hv
      apply commit_kernel_eq
      · exact hk.parked _ he
      · intro w hw hkey
        have hw := (hspec.parkWrites x.1 x.2 hx w (congrArg Prod.fst hkey)).mp hw
        rw [(applyLayerToPlane_mem hv hwritable hkey).mp hw]
      · right
        exact ⟨((x.2, .tag t), d.clampToPlane x.2 t v), (hspec.parkWrites x.1 x.2 hx _ rfl).mpr
          ((applyLayerToPlane_mem hv hwritable rfl).mpr rfl), rfl⟩

theorem inSync_commit (hs : s.InSync d) (hk : s.NothingSkipped d f) : (s.commit d f).InSync d := by
  have hholds := holds_of_inSync hs hk
  intro p snap hsnap hfresh t v hclass hwritable hv
  have hsnap : (s.applied d f).allocator.lastCommitted.find? p = some snap := hsnap
  simp only [commit, List.mem_append, not_or, List.mem_filter, not_and] at hfresh
  obtain ⟨⟨hbefore, hcaller⟩, hpark⟩ := hfresh
  have hcaller : ∀ w ∈ f.before ++ f.after, w.1.1 ≠ p :=
    fun w hw hp => hcaller (List.mem_map.mpr ⟨w, hw, hp⟩)
  rcases s.applied_spec d f with ⟨hnone, hreq, hlast⟩ | ⟨parked, hspec, hassigned, hparked, harmed⟩
  · -- nothing was written
    have hfree : p ∉ s.overwritten := fun h => hbefore h (by simp [assigned, hnone])
    rw [commit_kernel_of_unwritten hcaller (by simp [hreq])]
    exact hs p snap (hlast ▸ hsnap) hfree t v hclass hwritable hv
  · cases hc : (s.applied d f).allocator.previousAllocation.contains p with
    | true =>
      obtain ⟨l, hl⟩ := Table.contains_eq_true.mp hc
      have hnew := hspec.snapshot (p, l) hl
      rw [hsnap] at hnew
      cases hnew
      refine hholds (p, l) (harmed ▸ List.mem_append_left _ (hassigned ▸ hl)) t v hwritable ?_
      rw [frameValue, if_pos hc]
      simpa [Allocator.snapshotOf, Device.stackedValue] using hv
    | false =>
      obtain ⟨hold, hwrites⟩ := hspec.kept p snap hc hsnap
      have hfree : p ∉ s.overwritten := by
        intro h
        refine hbefore h ?_
        rw [hassigned, Bool.not_eq_true', List.any_eq_false]
        intro e he hp
        rw [← of_decide_eq_true hp, Allocator.contains_of_mem he] at hc
        cases hc
      have hreq : ∀ w ∈ (s.applied d f).request, w.1.1 ≠ p := by
        intro w hw hp
        obtain ⟨l, hl⟩ := hwrites w hw hp
        exact hpark (List.mem_map.mpr ⟨(p, l), by simp [hparked, hl], rfl⟩)
      rw [commit_kernel_of_unwritten hcaller hreq]
      exact hs p snap hold hfree t v hclass hwritable hv

/-! ### Runs -/

theorem inSync_step (e : ScreenEvent) (hs : s.InSync d)
    (hk : AtCommits (NothingSkipped d) s e) : (s.step d e).InSync d := by
  cases e with
  | commit f => exact inSync_commit hs hk
  | forgetLayer l =>
    intro p snap hsnap
    simp only [step, Allocator.step, Allocator.forgetLayer, Table.find?_mapValues] at hsnap
    obtain ⟨old, hold, rfl⟩ := Option.map_eq_some_iff.mp hsnap
    intro hfresh t v hclass hwritable hv
    refine hs p old hold hfresh t v hclass hwritable ?_
    split at hv <;> exact hv
  | invalidateAllocation => exact hs
  | setMaxTestCommits max => exact hs
  | setForceFullPropertyWrites force => exact hs

/-- A fresh allocator over any kernel state. -/
def start (kernel : Kernel) : Screen := { kernel }

theorem inSync_start (d : Device) (kernel : Kernel) : (start kernel).InSync d := by
  intro p snap hsnap
  cases hsnap

/-- In every run that skips no write it still owes, each commit leaves every plane it arms with the
values of its frame. -/
theorem holds_of_meets (d : Device) (kernel : Kernel) (es : List ScreenEvent)
    (h : Meets (step d) (AtCommits (NothingSkipped d)) (start kernel) es) :
    Meets (step d) (AtCommits (Holds d)) (start kernel) es := by
  refine meets_of_invariant (InSync d) (fun s e => inSync_step e) ?_ (inSync_start d kernel) h
  intro s e hs hk
  cases e with
  | commit f => exact holds_of_inSync hs hk
  | forgetLayer l => trivial
  | invalidateAllocation => trivial
  | setMaxTestCommits max => trivial
  | setForceFullPropertyWrites force => trivial

end Screen

/-! ### A plane lent to the caller and handed back -/

namespace Controller

/-- One layer at the bottom of the stack, with some planes reserved and written by the caller. -/
def lent (reserved : List PlaneId) (after : AtomicRequest)
    (h : ∀ w ∈ after, w.1.1 ∈ reserved) : CommittedFrame where
  frame := { frameOf (layer 0 0 11) with reserved := reserved }
  after := after
  real := rfl
  reservedOnly := h

/-- The layer is shown on the PRIMARY, which the caller then takes and crops. -/
def lend : List ScreenEvent :=
  [.commit (lent [] [] (by decide)), .commit (lent [1] [((1, .tag .srcW), 5)] (by decide))]

theorem holds_of_meets_lend :
    Meets (Screen.step device) (Screen.AtCommits (Screen.NothingSkipped device))
        (Screen.start fun _ => 0) lend ∧
      Meets (Screen.step device) (Screen.AtCommits (Screen.Holds device))
        (Screen.start fun _ => 0) lend := by
  have h : Meets (Screen.step device) (Screen.AtCommits (Screen.NothingSkipped device))
      (Screen.start fun _ => 0) lend :=
    ⟨⟨by decide +kernel, by decide +kernel, by decide +kernel⟩,
      ⟨by decide +kernel, by decide +kernel, by decide +kernel⟩, trivial⟩
  exact ⟨h, Screen.holds_of_meets device _ lend h⟩

/-- The layer comes back to the PRIMARY and is diffed against what it was before the loan. -/
theorem not_holds :
    ¬ Meets (Screen.step device) (Screen.AtCommits (Screen.Holds device)) (Screen.start fun _ => 0)
      (lend ++ [.commit (lent [2] [] (by decide))]) := by
  intro h
  have hcrop := h.2.2.1 (1, 0) (by decide +kernel) .srcW (10 <<< (16 : UInt64)) (by decide +kernel)
    (by decide +kernel)
  revert hcrop
  decide +kernel

end Controller

end DrmCxx.Planes
