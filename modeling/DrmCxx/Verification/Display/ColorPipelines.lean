import DrmCxx.Lib.Run
import DrmCxx.Verification.Display.ColorBlobs
import Mathlib.Algebra.GroupWithZero.Nat
import Mathlib.Algebra.Order.BigOperators.Group.List
import Mathlib.Algebra.Order.Group.Nat

/-!
# Colour pipelines

Any number of pipelines under any sequence of setters, moves, session losses and resumes, with the
kernel refusing blobs at any point. Every blob is in exactly one stage, or was destroyed once
through the descriptor it was created on, or was forgotten.
-/

namespace DrmCxx.Display

open Lib (Conserved)

/-! ### The operations -/

/-- The setters, with their data. -/
inductive Setter
  | identity
  | pqToLinear
  | hlgToLinear
  | bt2020ToBt709
  | linearToPq
  | customDegamma (lut : List ColorLut)
  | customGamma (lut : List ColorLut)
  | customCtm (matrix : List UInt64)
  deriving DecidableEq, Repr

/-- A refusal is the kernel's, of the blob for the stage. -/
def Setter.call (ids : IdSource) (refusal : Stage → Option Errc) (k : Kernel)
    (p : CrtcColorPipeline) : Setter → (Kernel × CrtcColorPipeline) × Except Errc Unit
  | .identity => p.setIdentity ids k refusal
  | .pqToLinear => p.setPqToLinear ids k (refusal .degamma)
  | .hlgToLinear => p.setHlgToLinear ids k (refusal .degamma)
  | .bt2020ToBt709 => p.setBt2020ToBt709 ids k (refusal .ctm)
  | .linearToPq => p.setLinearToPq ids k (refusal .gamma)
  | .customDegamma lut => p.setCustomDegamma ids k (refusal .degamma) lut
  | .customGamma lut => p.setCustomGamma ids k (refusal .gamma) lut
  | .customCtm matrix => p.setCustomCtm ids k (refusal .ctm) matrix

abbrev ObjId := ℕ

inductive Event
  | construct (o : ObjId)
  | create (o : ObjId) (crtcId : ℕ) (caps : Except Errc CrtcCapabilities)
      (dupRefusal : Option Errc) (props : Except Errc (Stage → PropId))
  | set (o : ObjId) (s : Setter) (refusal : Stage → Option Errc)
  | moveConstruct (dst src : ObjId)
  | moveAssign (dst src : ObjId)
  | destruct (o : ObjId)
  | clearForSessionLoss (o : ObjId)
  | onSessionResumed (o : ObjId) (deviceOpen : Bool) (refusal : Option Errc)

/-- The kernel, and the pipelines there are. -/
structure Pipelines where
  kernel : Kernel := {}
  object : ObjId → Option CrtcColorPipeline := fun _ => none

namespace Pipelines

variable (ids : IdSource) (w : Pipelines)

/-- An object that exists is changed along with the kernel. -/
def modify (o : ObjId) (f : Kernel → CrtcColorPipeline → Kernel × CrtcColorPipeline) :
    Pipelines :=
  match w.object o with
  | none => w
  | some p => ⟨(f w.kernel p).1, Function.update w.object o (some (f w.kernel p).2)⟩

/-- What the source has goes to an object that has nothing. -/
def transfer (dst src : ObjId) (p : CrtcColorPipeline) : Pipelines :=
  { w with
    object := Function.update (Function.update w.object src (some p.movedFrom)) dst (some p) }

/-- One operation. Those on objects that do not exist, or that exist already, are left out. -/
def step (w : Pipelines) : Event → Pipelines
  | .construct o =>
    if (w.object o).isSome then w
    else { w with object := Function.update w.object o (some {}) }
  | .create o crtcId caps dupRefusal props =>
    if (w.object o).isSome then w
    else match CrtcColorPipeline.create w.kernel crtcId caps dupRefusal props with
      | (k, .error _) => { w with kernel := k }
      | (k, .ok p) => ⟨k, Function.update w.object o (some p)⟩
  | .set o s refusal => w.modify o fun k p => (s.call ids refusal k p).1
  | .moveConstruct dst src =>
    match w.object src with
    | none => w
    | some p => if (w.object dst).isSome then w else w.transfer dst src p
  | .moveAssign dst src =>
    match w.object src with
    | none => w
    | some p =>
      if dst = src ∨ w.object dst = none then w
      else (w.modify dst fun k q => q.release k).transfer dst src p
  | .destruct o =>
    { w.modify o fun k p => p.release k with object := Function.update w.object o none }
  | .clearForSessionLoss o => w.modify o fun k p => p.clearForSessionLoss k
  | .onSessionResumed o deviceOpen refusal =>
    w.modify o fun k p => (p.onSessionResumed k deviceOpen refusal).1

/-! ### Who holds the blobs -/

/-- Every pipeline owns the blobs of its descriptor, and every live blob is of one of them. -/
structure Accounted (w : Pipelines) : Prop where
  sound : w.kernel.Sound
  owns : ∀ o p, w.object o = some p → Owns w.kernel p
  unique : ∀ o o' p p' fd, w.object o = some p → w.object o' = some p' → p.fd = some fd →
    p'.fd = some fd → o = o'
  held : ∀ b ∈ w.kernel.live, ∃ o p, w.object o = some p ∧ p.fd = some b.fd

theorem accounted_empty : Accounted {} :=
  ⟨Kernel.sound_empty, nofun, nofun, nofun⟩

variable {w : Pipelines}

theorem update_eq_some {f : ObjId → Option CrtcColorPipeline} {o o' : ObjId}
    {x : Option CrtcColorPipeline} {q : CrtcColorPipeline} :
    Function.update f o x o' = some q ↔ o' = o ∧ x = some q ∨ o' ≠ o ∧ f o' = some q := by
  by_cases h : o' = o
  · subst h
    simp
  · simp [h]

/-- An operation on one object, which may be a new one that was blank. -/
theorem Accounted.acts (hw : w.Accounted) {o : ObjId} {p : CrtcColorPipeline}
    (hp : w.object o = some p ∨ w.object o = none ∧ p.fd = none)
    {r : Kernel × CrtcColorPipeline} (hr : Acts w.kernel p r) :
    Accounted ⟨r.1, Function.update w.object o (some r.2)⟩ := by
  -- another object's descriptor is neither the old nor the new one of this object
  have hother (o' : ObjId) (q : CrtcColorPipeline) (ho' : o' ≠ o) (hq : w.object o' = some q)
      (fd : Fd) (hfd : q.fd = some fd) : p.fd ≠ some fd ∧ r.2.fd ≠ some fd := by
    have hne : p.fd ≠ some fd := fun h => by
      rcases hp with hp | ⟨-, hp⟩
      · exact ho' (hw.unique o' o q p fd hq hp hfd h)
      · exact absurd (hp.symm.trans h) nofun
    refine ⟨hne, fun h => ?_⟩
    exact (hr.fd fd h).elim hne (· ((hw.owns o' q hq).isOpen fd hfd))
  refine ⟨hr.sound, fun o' q hq => ?_, fun o₁ o₂ q₁ q₂ fd h₁ h₂ hfd₁ hfd₂ => ?_, fun b hb => ?_⟩
  · rcases update_eq_some.mp hq with ⟨-, ⟨⟩⟩ | ⟨ho', hq⟩
    · exact hr.owns
    · have hown := hw.owns o' q hq
      refine ⟨hown.blank, fun fd hfd => ?_, hown.apart, fun fd hfd id => ?_⟩
      · obtain ⟨hne, hne'⟩ := hother o' q ho' hq fd hfd
        exact (hr.same fd hne hne').2.mpr (hown.isOpen fd hfd)
      · obtain ⟨hne, hne'⟩ := hother o' q ho' hq fd hfd
        exact ((hr.same fd hne hne').1 id).trans (hown.has_iff fd hfd id)
  · rcases update_eq_some.mp h₁ with ⟨rfl, ⟨⟩⟩ | ⟨ho₁, hq₁⟩ <;>
      rcases update_eq_some.mp h₂ with ⟨rfl, ⟨⟩⟩ | ⟨ho₂, hq₂⟩
    · rfl
    · exact absurd hfd₁ (hother o₂ q₂ ho₂ hq₂ fd hfd₂).2
    · exact absurd hfd₂ (hother o₁ q₁ ho₁ hq₁ fd hfd₁).2
    · exact hw.unique o₁ o₂ q₁ q₂ fd hq₁ hq₂ hfd₁ hfd₂
  · by_cases hnew : r.2.fd = some b.fd
    · exact ⟨o, r.2, Function.update_self .., hnew⟩
    · have hhas : r.1.Has b.fd b.id := ⟨b, hb, rfl, rfl⟩
      have hne : p.fd ≠ some b.fd := fun h =>
        hr.gone b.fd h hnew (hr.sound.isOpen_of_has hhas)
      obtain ⟨b', hb', hfd', -⟩ := ((hr.same b.fd hne hnew).1 b.id).mp hhas
      obtain ⟨o', q, hq, hfdq⟩ := hw.held b' hb'
      have hfdq : q.fd = some b.fd := hfd' ▸ hfdq
      refine ⟨o', q, ?_, hfdq⟩
      have ho' : o' ≠ o := by
        rintro rfl
        rcases hp with hp | ⟨hp, -⟩
        · exact hne (Option.some.inj (hq.symm.trans hp) ▸ hfdq)
        · exact nomatch hq.symm.trans hp
      exact (Function.update_of_ne ho' ..).trans hq

/-- Nothing is there, or a pipeline that has nothing. -/
def Idle (x : Option CrtcColorPipeline) : Prop :=
  ∀ p, x = some p → p.fd = none ∧ ∀ s, p.blob s = 0

theorem Accounted.idle (hw : w.Accounted) {o : ObjId} {x : Option CrtcColorPipeline}
    (ho : Idle (w.object o)) (hx : Idle x) :
    Accounted { w with object := Function.update w.object o x } := by
  refine ⟨hw.sound, fun o' q hq => ?_, fun o₁ o₂ q₁ q₂ fd h₁ h₂ hfd₁ hfd₂ => ?_, fun b hb => ?_⟩
  · rcases update_eq_some.mp hq with ⟨-, hq⟩ | ⟨-, hq⟩
    · exact CrtcColorPipeline.owns_blank _ (hx q hq).1 (hx q hq).2
    · exact hw.owns o' q hq
  · rcases update_eq_some.mp h₁ with ⟨-, h₁⟩ | ⟨-, h₁⟩
    · exact absurd ((hx q₁ h₁).1.symm.trans hfd₁) nofun
    · rcases update_eq_some.mp h₂ with ⟨-, h₂⟩ | ⟨-, h₂⟩
      · exact absurd ((hx q₂ h₂).1.symm.trans hfd₂) nofun
      · exact hw.unique o₁ o₂ q₁ q₂ fd h₁ h₂ hfd₁ hfd₂
  · obtain ⟨o', q, hq, hfd⟩ := hw.held b hb
    refine ⟨o', q, (Function.update_of_ne ?_ ..).trans hq, hfd⟩
    rintro rfl
    exact absurd ((ho q hq).1.symm.trans hfd) nofun

/-- The old owner of what the object holds after a transfer. -/
theorem Accounted.transfer (hw : w.Accounted) {dst src : ObjId} {p : CrtcColorPipeline}
    (hdst : Idle (w.object dst)) (hsrc : w.object src = some p) :
    (w.transfer dst src p).Accounted := by
  -- a pipeline with a descriptor was at the same place, or moved from the source
  have hold (o : ObjId) (q : CrtcColorPipeline) (fd : Fd)
      (hq : (w.transfer dst src p).object o = some q) (hfd : q.fd = some fd) :
      o = dst ∧ q = p ∨ o ≠ dst ∧ o ≠ src ∧ w.object o = some q := by
    rcases update_eq_some.mp hq with ⟨ho, hq⟩ | ⟨ho, hq⟩
    · exact .inl ⟨ho, (Option.some.inj hq).symm⟩
    · rcases update_eq_some.mp hq with ⟨-, ⟨⟩⟩ | ⟨ho', hq⟩
      · exact nomatch hfd
      · exact .inr ⟨ho, ho', hq⟩
  refine ⟨hw.sound, fun o q hq => ?_, fun o₁ o₂ q₁ q₂ fd h₁ h₂ hfd₁ hfd₂ => ?_, fun b hb => ?_⟩
  · rcases update_eq_some.mp hq with ⟨-, ⟨⟩⟩ | ⟨-, hq⟩
    · exact hw.owns src p hsrc
    · rcases update_eq_some.mp hq with ⟨-, ⟨⟩⟩ | ⟨-, hq⟩
      · exact CrtcColorPipeline.owns_blank _ rfl fun _ => rfl
      · exact hw.owns o q hq
  · rcases hold o₁ q₁ fd h₁ hfd₁ with ⟨rfl, rfl⟩ | ⟨-, hne₁, hq₁⟩ <;>
      rcases hold o₂ q₂ fd h₂ hfd₂ with ⟨rfl, rfl⟩ | ⟨-, hne₂, hq₂⟩
    · rfl
    · exact absurd (hw.unique o₂ src q₂ _ fd hq₂ hsrc hfd₂ hfd₁) hne₂
    · exact absurd (hw.unique o₁ src q₁ _ fd hq₁ hsrc hfd₁ hfd₂) hne₁
    · exact hw.unique o₁ o₂ q₁ q₂ fd hq₁ hq₂ hfd₁ hfd₂
  · obtain ⟨o, q, hq, hfd⟩ := hw.held b hb
    by_cases ho : o = src
    · subst ho
      obtain rfl := Option.some.inj (hsrc.symm.trans hq)
      exact ⟨dst, p, Function.update_self .., hfd⟩
    · have ho' : o ≠ dst := by
        rintro rfl
        exact absurd ((hdst q hq).1.symm.trans hfd) nofun
      exact ⟨o, q, (Function.update_of_ne ho' ..).trans ((Function.update_of_ne ho ..).trans hq),
        hfd⟩

theorem Accounted.modify (hw : w.Accounted) (o : ObjId)
    {f : Kernel → CrtcColorPipeline → Kernel × CrtcColorPipeline}
    (hf : ∀ k p, k.Sound → Owns k p → Acts k p (f k p)) : (w.modify o f).Accounted := by
  unfold Pipelines.modify
  cases hp : w.object o with
  | none => exact hw
  | some p => exact hw.acts (.inl hp) (hf _ _ hw.sound (hw.owns o p hp))

end Pipelines

theorem Setter.keeps (s : Setter) {ids : IdSource} {refusal : Stage → Option Errc} {k : Kernel}
    {p : CrtcColorPipeline} (hk : k.Sound) (ho : Owns k p) :
    Keeps k p (s.call ids refusal k p).1 := by
  cases s with
  | identity => exact CrtcColorPipeline.keeps_setIdentity refusal hk ho
  | pqToLinear | hlgToLinear | bt2020ToBt709 | linearToPq | customCtm =>
    exact CrtcColorPipeline.keeps_setStage _ _ _ hk ho
  | customDegamma | customGamma => exact CrtcColorPipeline.keeps_setCustomLut _ _ _ _ hk ho

/-- The setters of one stage are atomic. -/
theorem Setter.call_error {ids : IdSource} {refusal : Stage → Option Errc} {k : Kernel}
    {p : CrtcColorPipeline} {s : Setter} (hs : s ≠ .identity)
    (h : (s.call ids refusal k p).2 ≠ .ok ()) : (s.call ids refusal k p).1.2 = p := by
  obtain ⟨e, he⟩ : ∃ e, (s.call ids refusal k p).2 = .error e := by
    cases hr : (s.call ids refusal k p).2 with
    | error e => exact ⟨e, rfl⟩
    | ok u => exact absurd hr h
  cases s with
  | identity => exact absurd rfl hs
  | pqToLinear | hlgToLinear | bt2020ToBt709 | linearToPq | customCtm =>
    exact CrtcColorPipeline.setStage_error _ _ _ he
  | customDegamma | customGamma => exact CrtcColorPipeline.setCustomLut_error _ _ _ _ he

namespace Pipelines

variable {w : Pipelines}

theorem idle_none : Idle none := nofun

theorem object_modify {o : ObjId} {p : CrtcColorPipeline} (ho : w.object o = some p)
    (f : Kernel → CrtcColorPipeline → Kernel × CrtcColorPipeline) :
    (w.modify o f).object o = some (f w.kernel p).2 := by
  rw [Pipelines.modify, ho]
  exact Function.update_self ..

/-- After its destructor ran, an object has nothing. -/
theorem Accounted.release (hw : w.Accounted) (o : ObjId) :
    (w.modify o fun k p => p.release k).Accounted ∧
      Idle ((w.modify o fun k p => p.release k).object o) := by
  have hacc := hw.modify o fun k p hk ho => (CrtcColorPipeline.acts_release hk ho).1
  refine ⟨hacc, fun p hp => ?_⟩
  have hfd : p.fd = none := by
    cases ho : w.object o with
    | none =>
      rw [Pipelines.modify, ho] at hp
      exact nomatch ho.symm.trans hp
    | some q =>
      obtain rfl := Option.some.inj ((object_modify ho _).symm.trans hp)
      exact (CrtcColorPipeline.acts_release hw.sound (hw.owns o q ho)).2
  exact ⟨hfd, (hacc.owns o p hp).blank hfd⟩

theorem modify_of_ne {o o' : ObjId} (ho : o' ≠ o)
    (f : Kernel → CrtcColorPipeline → Kernel × CrtcColorPipeline) :
    (w.modify o f).object o' = w.object o' := by
  unfold Pipelines.modify
  cases w.object o with
  | none => rfl
  | some p => exact Function.update_of_ne ho ..

theorem update_modify (o : ObjId)
    (f : Kernel → CrtcColorPipeline → Kernel × CrtcColorPipeline)
    (x : Option CrtcColorPipeline) :
    Function.update (w.modify o f).object o x = Function.update w.object o x := by
  unfold Pipelines.modify
  cases w.object o with
  | none => rfl
  | some p => exact Function.update_idem ..

theorem accounted_step (ids : IdSource) (hw : w.Accounted) (e : Event) :
    (w.step ids e).Accounted := by
  have hblank : Idle (some {}) := fun p hp => by
    cases hp
    exact ⟨rfl, fun _ => rfl⟩
  have hvacant {o : ObjId} (ho : ¬ (w.object o).isSome) : w.object o = none := by simpa using ho
  cases e with
  | construct o =>
    simp only [step]
    split
    · exact hw
    · rename_i ho
      exact hw.idle (by rw [hvacant ho]; exact idle_none) hblank
  | create o crtcId caps dupRefusal props =>
    simp only [step]
    split
    · exact hw
    · rename_i ho
      have hnone := hvacant ho
      have hacts := hw.acts (.inr ⟨hnone, rfl⟩)
        (CrtcColorPipeline.acts_create hw.sound crtcId caps dupRefusal props)
      revert hacts
      rcases CrtcColorPipeline.create w.kernel crtcId caps dupRefusal props with ⟨k, e | p⟩
      · intro hacts
        have hidle : Idle (Function.update w.object o (some {}) o) := by
          rw [Function.update_self]
          exact hblank
        have hgone := Accounted.idle hacts hidle idle_none
        rw [← hnone] at hgone
        simpa using hgone
      · exact id
  | set o s refusal => exact hw.modify o fun k p hk ho => (s.keeps hk ho).acts
  | moveConstruct dst src =>
    simp only [step]
    cases hsrc : w.object src with
    | none => exact hw
    | some p =>
      simp only
      split
      · exact hw
      · rename_i hdst
        exact hw.transfer (by rw [hvacant hdst]; exact idle_none) hsrc
  | moveAssign dst src =>
    simp only [step]
    cases hsrc : w.object src with
    | none => exact hw
    | some p =>
      simp only
      split
      · exact hw
      · rename_i hne
        obtain ⟨hacc, hidle⟩ := hw.release dst
        refine hacc.transfer hidle ?_
        rw [modify_of_ne fun h => hne (.inl h.symm)]
        exact hsrc
  | destruct o =>
    obtain ⟨hacc, hidle⟩ := hw.release o
    have hgone := hacc.idle hidle idle_none
    rw [update_modify] at hgone
    exact hgone
  | clearForSessionLoss o =>
    exact hw.modify o fun k p hk ho => CrtcColorPipeline.acts_clearForSessionLoss hk ho
  | onSessionResumed o deviceOpen refusal =>
    exact hw.modify o fun k p hk ho => CrtcColorPipeline.acts_onSessionResumed _ _ hk ho

/-! ### Blobs over runs -/

/-- A blob is in one stage of one pipeline, whose descriptor it was created on. -/
def InStage (w : Pipelines) (b : Blob) (i : ObjId × Stage) : Prop :=
  ∃ p, w.object i.1 = some p ∧ p.fd = some b.fd ∧ p.blob i.2 = b.id

theorem Accounted.existsUnique_inStage (hw : w.Accounted) {b : Blob} (hb : b ∈ w.kernel.live) :
    ∃! i, w.InStage b i := by
  obtain ⟨o, p, hp, hfd⟩ := hw.held b hb
  obtain ⟨hid, s, hs⟩ := ((hw.owns o p hp).has_iff b.fd hfd b.id).mp ⟨b, hb, rfl, rfl⟩
  refine ⟨(o, s), ⟨p, hp, hfd, hs⟩, ?_⟩
  rintro ⟨o', s'⟩ ⟨p', hp', hfd', hs'⟩
  obtain rfl := hw.unique o o' p p' b.fd hp hp' hfd hfd'
  obtain rfl := Option.some.inj (hp.symm.trans hp')
  rw [(hw.owns o p hp).apart s s' (hs ▸ hid) (hs.trans hs'.symm)]

/-- What the step must do: a setter that fails leaves the stages and what they apply as they were;
every blob there ever was is in one stage of one pipeline, or was destroyed, or was forgotten with
its session, and none was destroyed through another descriptor, twice or not at all; and what is
applied is live. -/
structure Intact (ids : IdSource) (w : Pipelines) (e : Event) : Prop where
  atomic : ∀ o s refusal, e = .set o s refusal → ∀ p p', w.object o = some p →
    (w.step ids e).object o = some p' → (s.call ids refusal w.kernel p).2 ≠ .ok () →
    p'.blob = p.blob ∧ ∀ r, p'.apply r = p.apply r
  conserved : Conserved (w.step ids e).kernel.created
    [(w.step ids e).kernel.live.map (·.serial), (w.step ids e).kernel.destroyed.map (·.serial),
      (w.step ids e).kernel.forgotten.map (·.serial)]
  inStage : ∀ b ∈ (w.step ids e).kernel.live, ∃! i, (w.step ids e).InStage b i
  leaked : (w.step ids e).kernel.leaked = []
  strays : (w.step ids e).kernel.strays = []
  applies : ∀ o p refusal, (w.step ids e).object o = some p → ∀ x ∈ (p.apply refusal).1,
    ∃ b ∈ (w.step ids e).kernel.live, p.fd = some b.fd ∧ b.id = x.2.2

/-- A `set_identity` on an open descriptor is refused its first stage's blob, or none. -/
def AsksAtOnce (w : Pipelines) : Event → Prop
  | .set o .identity refusal => ∀ p, w.object o = some p → p.fd ≠ none →
    CrtcColorPipeline.AtOnce refusal (CrtcColorPipeline.stages.filter p.caps.has)
  | _ => True

theorem Accounted.applies (hw : w.Accounted) {o : ObjId} {p : CrtcColorPipeline}
    (hp : w.object o = some p) {refusal : Stage → Option Errc} {x : ℕ × PropId × BlobId}
    (hx : x ∈ (p.apply refusal).1) : ∃ b ∈ w.kernel.live, p.fd = some b.fd ∧ b.id = x.2.2 := by
  obtain ⟨s, rfl, hblob⟩ := CrtcColorPipeline.mem_applyOf hx
  have hown := hw.owns o p hp
  cases hfd : p.fd with
  | none => exact absurd (hown.blank hfd s) hblob
  | some fd =>
    obtain ⟨b, hb, rfl, hid⟩ := (hown.has_iff fd hfd _).mpr ⟨hblob, s, rfl⟩
    exact ⟨b, hb, rfl, hid⟩

theorem Accounted.intact_iff (ids : IdSource) (hw : w.Accounted) (e : Event) :
    Intact ids w e ↔ w.AsksAtOnce e := by
  have hstep := accounted_step ids hw e
  have hidentity {o : ObjId} {p : CrtcColorPipeline} (hp : w.object o = some p)
      (refusal : Stage → Option Errc) :=
    CrtcColorPipeline.setIdentity_atomic ids refusal hw.sound (hw.owns o p hp)
      (fun p' => p'.blob = p.blob ∧ ∀ r, p'.apply r = p.apply r) ⟨rfl, fun _ => rfl⟩
      fun _ h => h.1
  constructor
  · intro h
    cases e with
    | set o s refusal =>
      cases s with
      | identity =>
        intro p hp hfd
        exact (hidentity hp refusal).mp
          (h.atomic o .identity refusal rfl p _ hp (object_modify hp _)) hfd
      | _ => trivial
    | _ => trivial
  · intro h
    refine ⟨fun o s refusal he p p' hp hp' hfail => ?_, hstep.sound.conserved,
      fun b hb => hstep.existsUnique_inStage hb, hstep.sound.leaked, hstep.sound.strays,
      fun o p refusal hp x hx => hstep.applies hp hx⟩
    subst he
    obtain rfl := Option.some.inj ((object_modify hp _).symm.trans hp')
    by_cases hs : s = .identity
    · subst hs
      exact (hidentity hp refusal).mpr (h p hp) hfail
    · rw [Setter.call_error hs hfail]
      exact ⟨rfl, fun _ => rfl⟩

/-- Over any run, all is well exactly when no `set_identity` fails after its first stage. -/
theorem intact_iff_asksAtOnce (ids : IdSource) (es : List Event) :
    Lib.Meets (step ids) (Intact ids) {} es ↔
      Lib.Meets (step ids) (fun w e => w.AsksAtOnce e) {} es :=
  Lib.meets_congr_of_invariant Accounted (fun _ e hw => accounted_step ids hw e)
    (fun _ e hw => hw.intact_iff ids e) accounted_empty es

/-! ### A late refusal -/

/-- Ids above those in use. -/
def nextId : IdSource where
  pick k := (k.live.map (·.id)).sum + 1
  ne_zero _ := Nat.succ_ne_zero _
  fresh _ _ hb :=
    Nat.ne_of_lt (Nat.lt_succ_of_le (List.le_sum_of_mem (List.mem_map_of_mem hb)))

/-- The kernel refuses the matrix, when the first table is already in place. -/
theorem not_intact_lateRefusal : ¬ Lib.Meets (step nextId) (Intact nextId) {}
    [.create 0 40 (.ok ⟨fun _ => true, 256, 256⟩) none (.ok fun _ => 7),
      .set 0 .identity fun s => if s = .ctm then some (.other 12) else none] := by
  rintro ⟨-, h, -⟩
  have hblob := (h.atomic 0 .identity _ rfl _ _ rfl rfl nofun).1
  exact absurd (congrFun hblob .degamma) (by decide)

end Pipelines

end DrmCxx.Display
