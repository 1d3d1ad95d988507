import DrmCxx.Lib.Owners
import DrmCxx.Modeset.PageFlip

/-!
# What the dispatchers watch

Each open epoll descriptor belongs to one dispatcher, whatever is constructed, destroyed and moved.
So the dispatchers behave as watchers of their own, who share the process's descriptors, and each
of whom has an interest list that nobody else changes.
-/

namespace DrmCxx.Modeset

open Lib

namespace Process

/-! ### Who owns the epoll descriptors -/

/-- The open epoll descriptor a dispatcher has. -/
def epollOf (w : Process) (o : FlipId) : Option Fd :=
  ((w.flips o).map (·.epfd)).filter (0 ≤ ·)

/-- The open epoll descriptors are those of the dispatchers, and no two share one. -/
structure Owned (w : Process) : Prop where
  owners : Owners w.epollOf fun e => (w.epolls e).isSome
  numbered : ∀ e, (w.epolls e).isSome → w.files.contains e = true

theorem owned_initial : Owned {} :=
  ⟨⟨fun e => by simp [epollOf], fun o o' e h => by simp [epollOf] at h⟩, by simp⟩

variable {w : Process} {o : FlipId} {pf pf' : PageFlip}

theorem epollOf_eq_some {e : Fd} :
    w.epollOf o = some e ↔ ∃ pf, w.flips o = some pf ∧ pf.epfd = e ∧ 0 ≤ e := by
  simp only [epollOf, Option.filter_eq_some_iff, Option.map_eq_some_iff, decide_eq_true_eq]
  constructor
  · rintro ⟨⟨pf, hpf, hfd⟩, he⟩
    exact ⟨pf, hpf, hfd, he⟩
  · rintro ⟨pf, hpf, hfd, he⟩
    exact ⟨⟨pf, hpf, hfd⟩, he⟩

theorem epollOf_of_flips (ho : w.flips o = some pf) (he : 0 ≤ pf.epfd) :
    w.epollOf o = some pf.epfd :=
  epollOf_eq_some.mpr ⟨pf, ho, rfl, he⟩

theorem epollOf_of_none (ho : w.flips o = none) : w.epollOf o = none := by
  rw [epollOf, ho, Option.map_none, Option.filter_none]

theorem Owned.isSome_iff (h : Owned w) {e : Fd} :
    (w.epolls e).isSome ↔ ∃ o pf, w.flips o = some pf ∧ pf.epfd = e ∧ 0 ≤ e := by
  rw [h.owners.open_iff e]
  exact exists_congr fun o => epollOf_eq_some

theorem Owned.opened (h : Owned w) (ho : w.flips o = some pf) (he : 0 ≤ pf.epfd) :
    (w.epolls pf.epfd).isSome :=
  h.isSome_iff.mpr ⟨o, pf, ho, rfl, he⟩

theorem Owned.epolls_of_neg (h : Owned w) {e : Fd} (he : e < 0) : w.epolls e = none := by
  rw [← Option.not_isSome_iff_eq_none, h.isSome_iff]
  rintro ⟨o, pf, -, -, hnonneg⟩
  exact absurd hnonneg (Int.not_le.mpr he)

theorem Owned.interest_of_neg (h : Owned w) {e : Fd} (he : e < 0) : w.interest e = [] := by
  rw [interest, h.epolls_of_neg he, Option.getD_none]

theorem Owned.epfd_ne (h : Owned w) {o' : FlipId} (ho : w.flips o = some pf)
    (ho' : w.flips o' = some pf') (hne : o' ≠ o) (he : 0 ≤ pf.epfd) : pf'.epfd ≠ pf.epfd := by
  intro heq
  exact hne (h.owners.alone o' o pf.epfd (heq ▸ epollOf_of_flips ho' (heq ▸ he))
    (epollOf_of_flips ho he))

/-! ### What the steps change -/

@[simp] theorem flips_setFlip (w : Process) (o : FlipId) (pf : PageFlip) :
    (w.setFlip o pf).flips = Function.update w.flips o (some pf) := rfl

@[simp] theorem files_setFlip (w : Process) (o : FlipId) (pf : PageFlip) :
    (w.setFlip o pf).files = w.files := rfl

@[simp] theorem epolls_setFlip (w : Process) (o : FlipId) (pf : PageFlip) :
    (w.setFlip o pf).epolls = w.epolls := rfl

@[simp] theorem interest_setFlip (w : Process) (o : FlipId) (pf : PageFlip) (e : Fd) :
    (w.setFlip o pf).interest e = w.interest e := rfl

@[simp] theorem flips_setEpoll (w : Process) (e : Fd) (l : Option (List Registration)) :
    (w.setEpoll e l).flips = w.flips := rfl

@[simp] theorem files_setEpoll (w : Process) (e : Fd) (l : Option (List Registration)) :
    (w.setEpoll e l).files = w.files := rfl

@[simp] theorem epolls_setEpoll (w : Process) (e : Fd) (l : Option (List Registration)) :
    (w.setEpoll e l).epolls = Function.update w.epolls e l := rfl

@[simp] theorem epollOf_setEpoll (w : Process) (e : Fd) (l : Option (List Registration)) :
    (w.setEpoll e l).epollOf = w.epollOf := rfl

theorem epollOf_setFlip (w : Process) (o : FlipId) (pf : PageFlip) :
    (w.setFlip o pf).epollOf =
      Function.update w.epollOf o ((some pf.epfd).filter (0 ≤ ·)) := by
  funext o'
  by_cases h : o' = o
  · subst h
    simp [epollOf]
  · simp [epollOf, h]

@[simp] theorem files_ctlDel (w : Process) (epfd fd : Fd) :
    (w.ctlDel epfd fd).files = w.files := by
  rw [ctlDel]
  cases w.files.find? fd <;> rfl

@[simp] theorem flips_letGo (w : Process) (file : File) : (w.letGo file).flips = w.flips := by
  rw [letGo]
  split_ifs <;> rfl

@[simp] theorem files_letGo (w : Process) (file : File) : (w.letGo file).files = w.files := by
  rw [letGo]
  split_ifs <;> rfl

theorem isSome_epolls_letGo (w : Process) (file : File) (e : Fd) :
    ((w.letGo file).epolls e).isSome = (w.epolls e).isSome := by
  rw [letGo]
  split_ifs
  · rfl
  · exact Option.isSome_map

@[simp] theorem flips_close (w : Process) (fd : Fd) (held : Bool) :
    (w.close fd held).flips = w.flips := by
  rw [close]
  cases w.files.find? fd with
  | none => rfl
  | some file => cases held <;> simp

@[simp] theorem contains_close (w : Process) (fd : Fd) (held : Bool) (e : Fd) :
    (w.close fd held).files.contains e = true ↔ e ≠ fd ∧ w.files.contains e = true := by
  rw [close]
  cases hfd : w.files.find? fd with
  | none =>
    refine (and_iff_right_of_imp fun he => ?_).symm
    rintro rfl
    obtain ⟨file, hfile⟩ := Table.contains_eq_true.mp he
    exact Table.find?_eq_none.mp hfd file hfile
  | some file => cases held <;> simp [Table.contains_erase]

theorem isSome_epolls_close (w : Process) (fd : Fd) (held : Bool) (e : Fd) :
    ((w.close fd held).epolls e).isSome = (w.epolls e).isSome := by
  rw [close]
  cases w.files.find? fd with
  | none => rfl
  | some file =>
    cases held
    · exact isSome_epolls_letGo _ file e
    · rfl

@[simp] theorem flips_closeEpfd (w : Process) (pf : PageFlip) :
    (w.closeEpfd pf).flips = w.flips := by
  rw [closeEpfd]
  split_ifs <;> simp

end Process

/-! ### Watchers -/

/-- A dispatcher with the interest list of its epoll instance. -/
structure Watcher where
  flip : PageFlip := {}
  interest : List Registration := []

namespace Watcher

variable (x : Watcher) (files : Table Fd File)

/-- The registration that is made of a descriptor, if one is. -/
def registration (fd : Fd) (refused : Option Errc) : Option Registration :=
  ((files.find? fd).map (⟨fd, ·⟩)).filter fun r =>
    fd ≠ x.flip.epfd ∧ r ∉ x.interest ∧ refused = none

/-- The list without what the descriptor's number and file are registered as. -/
def without (fd : Fd) : List Registration :=
  match files.find? fd with
  | none => x.interest
  | some file => x.interest.erase ⟨fd, file⟩

def construct (deviceFd epfd : Fd) (refused : Option Errc) : Watcher :=
  let x : Watcher := { flip := { drmFd := deviceFd, epfd } }
  if 0 ≤ deviceFd then { x with interest := (x.registration files deviceFd refused).toList } else x

def setHandler (handler : Callback) : Watcher := { x with flip := { x.flip with handler } }

def addSource (fd : Fd) (cb : Callback) (refused : Option Errc) : Watcher :=
  if 0 ≤ fd ∧ 0 ≤ x.flip.epfd ∧ x.flip.sources.contains fd = false then
    match x.registration files fd refused with
    | none => x
    | some r =>
      { flip := { x.flip with sources := x.flip.sources.insertOrAssign fd cb }
        interest := x.interest ++ [r] }
  else x

def removeSource (fd : Fd) : Watcher :=
  if x.flip.sources.contains fd then
    { flip := { x.flip with sources := x.flip.sources.erase fd }, interest := x.without files fd }
  else x

/-- The device's registration is dropped. -/
def unbind : Watcher :=
  if 0 ≤ x.flip.drmFd then
    { flip := { x.flip with drmFd := -1 }, interest := x.without files x.flip.drmFd }
  else x

def bind (newFd : Fd) (refused : Option Errc) : Watcher :=
  match x.registration files newFd refused with
  | none => x
  | some r => { flip := { x.flip with drmFd := newFd }, interest := x.interest ++ [r] }

def rebind (newFd : Fd) (refused : Option Errc) : Watcher :=
  if 0 ≤ x.flip.epfd ∧ 0 ≤ newFd then (x.unbind files).bind files newFd refused else x

/-- A file is gone. -/
def drop (file : File) : Watcher :=
  { x with interest := x.interest.filter (·.file ≠ file) }

end Watcher

/-- The dispatchers as watchers, and the descriptors they share. -/
structure View where
  files : Table Fd File
  watchers : FlipId → Option Watcher

namespace View

variable (v : View)

theorem eq_of_watchers {v v' : View} (hfiles : v.files = v'.files)
    (hwatchers : ∀ o, v.watchers o = v'.watchers o) : v = v' := by
  obtain ⟨files, watchers⟩ := v
  obtain rfl : watchers = v'.watchers := funext hwatchers
  rw [show files = v'.files from hfiles]

def set (o : FlipId) (x : Option Watcher) : View :=
  { v with watchers := Function.update v.watchers o x }

def modify (o : FlipId) (f : Watcher → Watcher) : View := v.set o ((v.watchers o).map f)

def openFd (fd : ℕ) (file : File) : View :=
  if v.files.contains fd then v else { v with files := v.files.insertOrAssign fd file }

def letGo (file : File) : View :=
  if file ∈ v.files.values then v
  else { v with watchers := fun o => (v.watchers o).map (·.drop file) }

def close (fd : Fd) (held : Bool) : View :=
  match v.files.find? fd with
  | none => v
  | some file =>
    let v := { v with files := v.files.erase fd }
    if held then v else v.letGo file

/-- The descriptor is a watcher's own. -/
def Owns (fd : Fd) : Prop := ∃ o x, v.watchers o = some x ∧ x.flip.epfd = fd ∧ 0 ≤ fd

def closeEpfd (x : Watcher) : View := if 0 ≤ x.flip.epfd then v.close x.flip.epfd false else v

/-- What `other` has goes to `o`. -/
def move (o other : FlipId) : View := (v.set o (v.watchers other)).set other (some {})

end View

open Classical in
/-- One call among dispatchers that share nothing but the descriptors. -/
noncomputable def FlipCall.onView (v : View) : FlipCall → View
  | .construct o deviceFd created refused =>
    if (v.watchers o).isSome then v
    else
      match created.filter fun new => !v.files.contains new.1 with
      | none => v.set o (some { flip := { drmFd := deviceFd } })
      | some (epfd, file) =>
        let v := { v with files := v.files.insertOrAssign epfd file }
        v.set o (some (.construct v.files deviceFd epfd refused))
  | .destroy o =>
    match v.watchers o with
    | none => v
    | some x => (v.closeEpfd x).set o none
  | .moveConstruct o other =>
    match v.watchers o, v.watchers other with
    | none, some _ => v.move o other
    | _, _ => v
  | .moveAssign o other =>
    match v.watchers o, v.watchers other with
    | some old, some _ => if o = other then v else (v.closeEpfd old).move o other
    | _, _ => v
  | .setHandler o handler => v.modify o (·.setHandler handler)
  | .addSource o fd cb refused => v.modify o (·.addSource v.files fd cb refused)
  | .removeSource o fd => v.modify o (·.removeSource v.files fd)
  | .rebind o newFd refused => v.modify o (·.rebind v.files newFd refused)
  | .openFd fd file => v.openFd fd file
  | .closeFd fd held => if v.Owns fd then v else v.close fd held
  | .letGo file => v.letGo file

namespace Process

/-- What a process's dispatchers look like from outside. -/
def view (w : Process) : View where
  files := w.files
  watchers o := (w.flips o).map fun pf => ⟨pf, w.interest pf.epfd⟩

variable {w : Process} {o : FlipId} {pf pf' : PageFlip}

@[simp] theorem files_view (w : Process) : w.view.files = w.files := rfl

theorem watchers_of_flips (h : w.flips o = some pf) :
    w.view.watchers o = some ⟨pf, w.interest pf.epfd⟩ :=
  congrArg (Option.map _) h

theorem watchers_eq_none : w.view.watchers o = none ↔ w.flips o = none :=
  Option.map_eq_none_iff

theorem isSome_watchers : (w.view.watchers o).isSome = (w.flips o).isSome :=
  Option.isSome_map

/-- The process after a call is sound, and looks as if its dispatchers shared nothing. -/
structure Refines (w : Process) (v : View) : Prop where
  owned : Owned w
  view : w.view = v

theorem Owned.refl (h : Owned w) : Refines w w.view := ⟨h, rfl⟩

/-! ### Changes of one dispatcher -/

theorem view_set_self (ho : w.flips o = some pf) :
    w.view.set o (some ⟨pf, w.interest pf.epfd⟩) = w.view := by
  rw [View.set, ← watchers_of_flips ho, Function.update_eq_self]

/-- A dispatcher that keeps its descriptor changes nobody else. -/
theorem Owned.changeFlip (h : Owned w) (ho : w.flips o = some pf)
    (hfd : pf'.epfd = pf.epfd := by rfl) :
    Refines (w.setFlip o pf') (w.view.set o (some ⟨pf', w.interest pf.epfd⟩)) := by
  refine ⟨⟨h.owners.congr (fun o' => ?_) (fun e => Iff.rfl), h.numbered⟩, ?_⟩
  · by_cases ho' : o' = o
    · subst ho'
      simp [epollOf, ho, hfd]
    · simp [epollOf, ho']
  · refine View.eq_of_watchers rfl fun o' => ?_
    by_cases ho' : o' = o
    · subst ho'
      simp [view, View.set, hfd]
    · simp [view, View.set, ho']

/-- An interest list is seen by its dispatcher only. -/
theorem Owned.changeList (h : Owned w) (ho : w.flips o = some pf) (he : 0 ≤ pf.epfd)
    (l : List Registration) :
    Refines (w.setEpoll pf.epfd (some l)) (w.view.set o (some ⟨pf, l⟩)) := by
  refine ⟨⟨h.owners.congr (fun o' => rfl) (fun e => ?_), fun e hsome => ?_⟩, ?_⟩
  · by_cases hep : e = pf.epfd
    · subst hep
      simp [h.opened ho he]
    · simp [hep]
  · by_cases hep : e = pf.epfd
    · exact h.numbered e (hep ▸ h.opened ho he)
    · exact h.numbered e (by simpa [hep] using hsome)
  · refine View.eq_of_watchers rfl fun o' => ?_
    by_cases ho' : o' = o
    · subst ho'
      simp [view, View.set, interest, ho]
    · cases hflip : w.flips o' with
      | none => simp [view, View.set, hflip, ho']
      | some pf₂ =>
        have hne : pf₂.epfd ≠ pf.epfd := h.epfd_ne ho hflip ho' he
        simp [view, View.set, interest, hflip, hne, ho']

/-- A change of a dispatcher's list and of itself. -/
theorem Owned.change (h : Owned w) (ho : w.flips o = some pf) (he : 0 ≤ pf.epfd)
    {l : List Registration} (hfd : pf'.epfd = pf.epfd := by rfl) :
    Refines ((w.setEpoll pf.epfd (some l)).setFlip o pf') (w.view.set o (some ⟨pf', l⟩)) := by
  obtain ⟨howned, hview⟩ := h.changeList ho he l
  have hset : (w.setEpoll pf.epfd (some l)).flips o = some pf := ho
  obtain ⟨howned', hview'⟩ := howned.changeFlip hset hfd
  refine ⟨howned', hview'.trans ?_⟩
  rw [hview]
  simp [View.set, interest]

theorem Owned.epolls_eq (h : Owned w) (ho : w.flips o = some pf) (he : 0 ≤ pf.epfd) :
    w.epolls pf.epfd = some (w.interest pf.epfd) := by
  obtain ⟨l, hl⟩ := Option.isSome_iff_exists.mp (h.opened ho he)
  rw [interest, hl, Option.getD_some]

/-- A registration goes to the end of its dispatcher's list. -/
theorem Owned.ctlAdd_eq (h : Owned w) (ho : w.flips o = some pf) (he : 0 ≤ pf.epfd) (fd : Fd)
    (refused : Option Errc) :
    (∃ r, Watcher.registration ⟨pf, w.interest pf.epfd⟩ w.files fd refused = some r ∧
        w.ctlAdd pf.epfd fd refused =
          .ok (w.setEpoll pf.epfd (some (w.interest pf.epfd ++ [r])))) ∨
      Watcher.registration ⟨pf, w.interest pf.epfd⟩ w.files fd refused = none ∧
        ∃ e, w.ctlAdd pf.epfd fd refused = .error e := by
  rw [ctlAdd, h.epolls_eq ho he, Watcher.registration]
  cases hfile : w.files.find? fd with
  | none => exact .inr ⟨rfl, badFileDescriptor, rfl⟩
  | some file =>
    by_cases hself : fd = pf.epfd
    · exact .inr ⟨by simp [hself], .invalidArgument, by simp [hself]⟩
    by_cases hmem : (⟨fd, file⟩ : Registration) ∈ w.interest pf.epfd
    · exact .inr ⟨by simp [hmem], fileExists, by simp [hself, hmem]⟩
    · cases refused with
      | none => exact .inl ⟨⟨fd, file⟩, by simp [hself, hmem], by simp [hself, hmem]⟩
      | some e => exact .inr ⟨by simp, e, by simp [hself, hmem]⟩

theorem Owned.ctlDel_eq (h : Owned w) (ho : w.flips o = some pf) (he : 0 ≤ pf.epfd) (fd : Fd) :
    w.ctlDel pf.epfd fd =
      w.setEpoll pf.epfd (some (Watcher.without ⟨pf, w.interest pf.epfd⟩ w.files fd)) := by
  have hlist := h.epolls_eq ho he
  rw [ctlDel, Watcher.without]
  cases w.files.find? fd with
  | none =>
    rw [setEpoll, ← hlist, Function.update_eq_self]
  | some file =>
    dsimp only
    rw [hlist, Option.map_some]

/-- A call of a dispatcher that is gone does nothing. -/
theorem Owned.gone (h : Owned w) (ho : w.flips o = none) (f : Watcher → Watcher) :
    Refines w (w.view.modify o f) := by
  refine ⟨h, ?_⟩
  rw [View.modify, watchers_eq_none.mpr ho, Option.map_none, View.set,
    Function.update_eq_self_iff.mpr (watchers_eq_none.mpr ho).symm]

theorem Owned.modify (ho : w.flips o = some pf) (f : Watcher → Watcher) :
    w.view.modify o f = w.view.set o (some (f ⟨pf, w.interest pf.epfd⟩)) := by
  rw [View.modify, watchers_of_flips ho, Option.map_some]

/-- A call that is refused does nothing. -/
theorem Owned.unchanged (h : Owned w) (ho : w.flips o = some pf) {f : Watcher → Watcher}
    (hf : f ⟨pf, w.interest pf.epfd⟩ = ⟨pf, w.interest pf.epfd⟩) :
    Refines w (w.view.modify o f) := by
  rw [Owned.modify ho, hf, view_set_self ho]
  exact h.refl

theorem Owned.setHandler (h : Owned w) (o : FlipId) (handler : Callback) :
    Refines (w.setHandler o handler) (w.view.modify o (·.setHandler handler)) := by
  rw [Process.setHandler]
  cases ho : w.flips o with
  | none => exact h.gone ho _
  | some pf =>
    rw [Owned.modify ho]
    exact h.changeFlip ho

theorem Owned.addSource (h : Owned w) (o : FlipId) (fd : Fd) (cb : Callback)
    (refused : Option Errc) :
    Refines (w.addSource o fd cb refused).1
      (w.view.modify o (·.addSource w.files fd cb refused)) := by
  rw [Process.addSource]
  cases ho : w.flips o with
  | none => exact h.gone ho _
  | some pf =>
    by_cases hfd : fd < 0
    · simp only [hfd, if_true]
      exact h.unchanged ho (if_neg fun hc => absurd hc.1 (Int.not_le.mpr hfd))
    by_cases he : pf.epfd < 0
    · simp only [hfd, he, if_true, if_false]
      exact h.unchanged ho (if_neg fun hc => absurd hc.2.1 (Int.not_le.mpr he))
    by_cases hin : pf.sources.contains fd = true
    · simp only [hfd, he, hin, if_true, if_false]
      exact h.unchanged ho (if_neg fun hc => absurd hin (by simp [hc.2.2]))
    simp only [hfd, he, hin, if_false, Bool.false_eq_true]
    rw [Int.not_lt] at hfd he
    have hok : 0 ≤ fd ∧ 0 ≤ pf.epfd ∧ pf.sources.contains fd = false :=
      ⟨hfd, he, by simpa using hin⟩
    rw [Owned.modify ho, Watcher.addSource, if_pos hok]
    rcases h.ctlAdd_eq ho he fd refused with ⟨r, hr, hadd⟩ | ⟨hr, e, hadd⟩
    · rw [hadd, hr]
      exact h.change ho he
    · rw [hadd, hr, view_set_self ho]
      exact h.refl

theorem Owned.removeSource (h : Owned w) (o : FlipId) (fd : Fd) :
    Refines (w.removeSource o fd) (w.view.modify o (·.removeSource w.files fd)) := by
  rw [Process.removeSource]
  cases ho : w.flips o with
  | none => exact h.gone ho _
  | some pf =>
    by_cases hin : pf.sources.contains fd = true
    · rw [Owned.modify ho, Watcher.removeSource, if_pos hin]
      simp only [hin, Bool.not_true, Bool.false_eq_true, if_false]
      by_cases he : 0 ≤ pf.epfd
      · rw [if_pos he, h.ctlDel_eq ho he]
        exact h.change ho he
      · have hnone : Watcher.without ⟨pf, w.interest pf.epfd⟩ w.files fd = w.interest pf.epfd := by
          rw [Watcher.without, h.interest_of_neg (Int.not_le.mp he)]
          cases w.files.find? fd <;> rfl
        rw [if_neg he, hnone]
        exact h.changeFlip ho
    · simp only [hin, Bool.not_false, if_true]
      exact h.unchanged ho (if_neg hin)

/-- The old registration goes. -/
theorem Owned.unbind (h : Owned w) (ho : w.flips o = some pf) (he : 0 ≤ pf.epfd)
    (hdrm : 0 ≤ pf.drmFd) :
    Refines ((w.ctlDel pf.epfd pf.drmFd).setFlip o { pf with drmFd := -1 })
      (w.view.set o (some (Watcher.unbind ⟨pf, w.interest pf.epfd⟩ w.files))) := by
  rw [h.ctlDel_eq ho he, Watcher.unbind, if_pos hdrm]
  exact h.change ho he

/-- The new registration is made, or not. -/
theorem Owned.bind (h : Owned w) (ho : w.flips o = some pf) (he : 0 ≤ pf.epfd) (newFd : Fd)
    (refused : Option Errc) :
    Refines
      (match w.ctlAdd pf.epfd newFd refused with
        | .error e => (w, Except.error e)
        | .ok w => (w.setFlip o { pf with drmFd := newFd }, .ok ())).1
      (w.view.set o (some (Watcher.bind ⟨pf, w.interest pf.epfd⟩ w.files newFd refused))) := by
  rw [Watcher.bind]
  rcases h.ctlAdd_eq ho he newFd refused with ⟨r, hr, hadd⟩ | ⟨hr, e, hadd⟩
  · rw [hadd, hr]
    exact h.change ho he
  · rw [hadd, hr, view_set_self ho]
    exact h.refl

theorem Owned.rebind (h : Owned w) (o : FlipId) (newFd : Fd) (refused : Option Errc) :
    Refines (w.rebind o newFd refused).1
      (w.view.modify o (·.rebind w.files newFd refused)) := by
  rw [Process.rebind]
  cases ho : w.flips o with
  | none => exact h.gone ho _
  | some pf =>
    by_cases he : pf.epfd < 0
    · simp only [he, if_true]
      exact h.unchanged ho (if_neg fun hc => absurd hc.1 (Int.not_le.mpr he))
    by_cases hnew : newFd < 0
    · simp only [he, hnew, if_true, if_false]
      exact h.unchanged ho (if_neg fun hc => absurd hc.2 (Int.not_le.mpr hnew))
    simp only [he, hnew, if_false]
    rw [Int.not_lt] at he hnew
    have hopen : 0 ≤ pf.epfd ∧ 0 ≤ newFd := ⟨he, hnew⟩
    rw [Owned.modify ho, Watcher.rebind, if_pos hopen]
    by_cases hdrm : 0 ≤ pf.drmFd
    · rw [if_pos hdrm]
      have hun := h.unbind ho he hdrm
      have hflip : ((w.ctlDel pf.epfd pf.drmFd).setFlip o { pf with drmFd := -1 }).flips o =
          some { pf with drmFd := -1 } := by simp
      have hseen := (watchers_of_flips hflip).symm.trans (congrArg (·.watchers o) hun.view)
      simp only [View.set, Function.update_self, Option.some.injEq] at hseen
      have hbind := hun.owned.bind hflip he newFd refused
      rw [hseen, hun.view, files_setFlip, files_ctlDel] at hbind
      simp only [View.set, Function.update_idem] at hbind
      exact hbind
    · rw [if_neg hdrm, Watcher.unbind, if_neg hdrm]
      exact h.bind ho he newFd refused

/-! ### Descriptors -/

theorem view_letGo (w : Process) (file : File) : (w.letGo file).view = w.view.letGo file := by
  rw [Process.letGo, View.letGo, files_view]
  split_ifs
  · rfl
  · refine View.eq_of_watchers rfl fun o => ?_
    cases ho : w.flips o with
    | none => simp [view, ho]
    | some pf =>
      cases he : w.epolls pf.epfd <;> simp [view, interest, ho, he, Watcher.drop]

theorem view_close (w : Process) (fd : Fd) (held : Bool) :
    (w.close fd held).view = w.view.close fd held := by
  rw [Process.close, View.close, files_view]
  cases w.files.find? fd with
  | none => rfl
  | some file =>
    cases held
    · exact view_letGo _ file
    · rfl

theorem Owned.letGo (h : Owned w) (file : File) : Refines (w.letGo file) (w.view.letGo file) := by
  refine ⟨⟨h.owners.congr (fun o => ?_) (fun e => ?_), fun e he => ?_⟩, view_letGo w file⟩
  · rw [epollOf, flips_letGo, epollOf]
  · rw [isSome_epolls_letGo]
  · rw [isSome_epolls_letGo] at he
    rw [files_letGo]
    exact h.numbered e he

theorem Owned.closeFd (h : Owned w) (fd : Fd) (held : Bool) :
    Refines (w.closeFd fd held) (FlipCall.onView w.view (.closeFd fd held)) := by
  have howns : w.view.Owns fd ↔ (w.epolls fd).isSome := by
    rw [h.isSome_iff]
    constructor
    · rintro ⟨o, x, hx, hfd⟩
      obtain ⟨pf, ho, rfl⟩ := Option.map_eq_some_iff.mp hx
      exact ⟨o, pf, ho, hfd⟩
    · rintro ⟨o, pf, ho, hfd⟩
      exact ⟨o, _, watchers_of_flips ho, hfd⟩
  rw [Process.closeFd, FlipCall.onView]
  by_cases hself : (w.epolls fd).isSome
  · rw [if_pos hself, if_pos (howns.mpr hself)]
    exact h.refl
  · rw [if_neg hself, if_neg fun hown => hself (howns.mp hown)]
    refine ⟨⟨h.owners.congr (fun o => ?_) (fun e => ?_), fun e he => ?_⟩, view_close w fd held⟩
    · rw [epollOf, flips_close, epollOf]
    · rw [isSome_epolls_close]
    · rw [isSome_epolls_close] at he
      refine (contains_close w fd held e).mpr ⟨?_, h.numbered e he⟩
      rintro rfl
      exact hself he

theorem contains_insert {files : Table Fd File} {e fd : Fd} (file : File)
    (h : files.contains e = true) : (files.insertOrAssign fd file).contains e = true :=
  (Table.contains_insertOrAssign ..).mpr (.inr h)

theorem Owned.openFd (h : Owned w) (fd : ℕ) (file : File) :
    Refines (w.openFd fd file) (w.view.openFd fd file) := by
  rw [Process.openFd, View.openFd, files_view]
  split_ifs
  · exact h.refl
  · exact ⟨⟨h.owners, fun e he => contains_insert file (h.numbered e he)⟩, rfl⟩

/-! ### Dispatchers come and go -/

/-- A dispatcher without an epoll instance is made. -/
theorem Owned.fresh (h : Owned w) (ho : w.flips o = none) (he : pf.epfd < 0) :
    Refines (w.setFlip o pf) (w.view.set o (some ⟨pf, []⟩)) := by
  refine ⟨⟨h.owners.congr (fun o' => ?_) (fun e => Iff.rfl), h.numbered⟩, ?_⟩
  · rw [epollOf_setFlip]
    by_cases heq : o' = o
    · subst heq
      simp [epollOf_of_none ho, he]
    · simp [heq]
  · refine View.eq_of_watchers rfl fun o' => ?_
    by_cases heq : o' = o
    · subst heq
      simp [view, View.set, h.interest_of_neg he]
    · simp [view, View.set, heq]

/-- A dispatcher is made with an epoll instance that nobody has. -/
theorem Owned.create (h : Owned w) (pf : PageFlip) (ho : w.flips o = none) (file : File)
    (hclosed : w.files.contains pf.epfd = false) (he : 0 ≤ pf.epfd) :
    Refines ((w.setFlip o pf).openEpoll pf.epfd file)
      { w.view.set o (some ⟨pf, []⟩) with files := w.files.insertOrAssign pf.epfd file } := by
  have hnone : w.epolls pf.epfd = none := by
    rw [← Option.not_isSome_iff_eq_none]
    intro hopen
    exact absurd (hclosed.symm.trans (h.numbered _ hopen)) Bool.false_ne_true
  refine ⟨⟨?_, fun e hopen => ?_⟩, ?_⟩
  · refine (h.owners.acquire (k := pf.epfd) (epollOf_of_none ho) (by simp [hnone])).congr
      (fun o' => ?_) (fun e => ?_)
    · rw [show ((w.setFlip o pf).openEpoll pf.epfd file).epollOf =
        (w.setFlip o pf).epollOf from rfl,
        epollOf_setFlip]
      simp [Option.filter, he]
    · by_cases heq : e = pf.epfd
      · simp [openEpoll, heq]
      · simp [openEpoll, heq]
  · by_cases heq : e = pf.epfd
    · exact (Table.contains_insertOrAssign ..).mpr (.inl heq)
    · simp only [openEpoll, epolls_setEpoll, Function.update_of_ne heq] at hopen
      exact contains_insert file (h.numbered e hopen)
  · refine View.eq_of_watchers rfl fun o' => ?_
    by_cases heq : o' = o
    · subst heq
      simp [view, View.set, interest, openEpoll]
    · cases hflip : w.flips o' with
      | none => simp [view, View.set, openEpoll, heq, hflip]
      | some pf' =>
        have hne : pf'.epfd ≠ pf.epfd := by
          intro hsame
          have hopen := h.opened hflip (hsame ▸ he)
          rw [hsame, hnone] at hopen
          cases hopen
        simp [view, View.set, openEpoll, interest, heq, hflip, hne]

theorem Owned.construct (h : Owned w) (o : FlipId) (deviceFd : Fd) (created : Option (ℕ × File))
    (refused : Option Errc) :
    Refines (w.construct o deviceFd created refused)
      (FlipCall.onView w.view (.construct o deviceFd created refused)) := by
  rw [Process.construct, FlipCall.onView, isSome_watchers]
  cases ho : w.flips o with
  | some pf => exact h.refl
  | none =>
    rw [Option.isSome_none, if_neg Bool.false_ne_true, epollCreate, files_view]
    cases hmade : created.filter fun new => !w.files.contains new.1 with
    | none => exact h.fresh ho (Int.negSucc_lt_zero 0)
    | some new =>
      obtain ⟨epfd, file⟩ := new
      have hclosed : w.files.contains epfd = false := by
        simpa using (Option.filter_eq_some_iff.mp hmade).2
      have hnew : (0 : Fd) ≤ epfd := Int.natCast_nonneg epfd
      have hmake := h.create { drmFd := deviceFd, epfd } ho file hclosed hnew
      dsimp only
      rw [Watcher.construct]
      by_cases hdev : 0 ≤ deviceFd
      · rw [if_pos hdev, if_pos hdev]
        set made := (w.setFlip o { drmFd := deviceFd, epfd }).openEpoll epfd file with hw
        have hflip : made.flips o = some { drmFd := deviceFd, epfd } := by simp [hw, openEpoll]
        have hlist : made.interest epfd = [] := by simp [hw, openEpoll, interest]
        have hfiles : made.files = w.files.insertOrAssign epfd file := rfl
        have hadd := hmake.owned.ctlAdd_eq hflip hnew deviceFd refused
        rw [hlist, hfiles] at hadd
        rcases hadd with ⟨r, hr, hadd⟩ | ⟨hr, e, hadd⟩
        · rw [hadd, hr]
          have hset := hmake.owned.changeList hflip hnew [r]
          rw [hmake.view] at hset
          simpa [View.set, Except.toOption] using hset
        · rw [hadd, hr]
          exact hmake
      · rw [if_neg hdev, if_neg hdev]
        exact hmake

theorem Owned.isSome_closeEpfd (h : Owned w) (pf : PageFlip) (e : Fd) :
    ((w.closeEpfd pf).epolls e).isSome ↔ (w.epolls e).isSome ∧ e ≠ pf.epfd := by
  rw [closeEpfd]
  split_ifs with he
  · by_cases heq : e = pf.epfd
    · simp [heq]
    · simp [heq, isSome_epolls_close]
  · refine (and_iff_left_of_imp fun hopen => ?_).symm
    rintro rfl
    rw [h.epolls_of_neg (Int.not_le.mp he)] at hopen
    cases hopen

theorem Owned.numbered_closeEpfd (h : Owned w) (pf : PageFlip) (e : Fd)
    (he : ((w.closeEpfd pf).epolls e).isSome) : (w.closeEpfd pf).files.contains e = true := by
  obtain ⟨hopen, hne⟩ := (h.isSome_closeEpfd pf e).mp he
  rw [closeEpfd]
  split_ifs
  · exact (contains_close w pf.epfd false e).mpr ⟨hne, h.numbered e hopen⟩
  · exact h.numbered e hopen

theorem files_closeEpfd (w : Process) (pf : PageFlip) (l : List Registration) :
    (w.closeEpfd pf).files = (w.view.closeEpfd ⟨pf, l⟩).files := by
  rw [closeEpfd, View.closeEpfd]
  split_ifs
  · rw [← view_close]
    rfl
  · rfl

/-- The other dispatchers see that a descriptor is closed. -/
theorem Owned.watchers_closeEpfd (h : Owned w) (ho : w.flips o = some pf) {o' : FlipId}
    (hne : o' ≠ o) (l : List Registration) :
    (w.closeEpfd pf).view.watchers o' = (w.view.closeEpfd ⟨pf, l⟩).watchers o' := by
  rw [closeEpfd, View.closeEpfd]
  split_ifs with he
  · rw [← view_close]
    cases hflip : w.flips o' with
    | none => simp [view, hflip]
    | some pf' =>
      have hother : pf'.epfd ≠ pf.epfd := h.epfd_ne ho hflip hne he
      simp [view, interest, hflip, hother]
  · rfl

/-- A dispatcher goes, and its epoll instance with it. -/
theorem Owned.destroy (h : Owned w) (o : FlipId) :
    Refines (w.destroy o) (FlipCall.onView w.view (.destroy o)) := by
  rw [Process.destroy, FlipCall.onView]
  cases ho : w.flips o with
  | none =>
    rw [watchers_eq_none.mpr ho]
    exact h.refl
  | some pf =>
    rw [watchers_of_flips ho]
    refine ⟨⟨(h.owners.release o).congr (fun o' => ?_) (fun e => ?_), h.numbered_closeEpfd pf⟩, ?_⟩
    · by_cases heq : o' = o
      · simp [heq, epollOf]
      · simp [heq, epollOf]
    · refine (h.isSome_closeEpfd pf e).trans (and_congr_right fun hopen => not_congr ?_)
      rw [epollOf_eq_some]
      constructor
      · rintro rfl
        exact ⟨pf, ho, rfl,
          by_contra fun he => by simp [h.epolls_of_neg (Int.not_le.mp he)] at hopen⟩
      · rintro ⟨pf', hpf', hfd, -⟩
        rw [ho, Option.some.injEq] at hpf'
        exact hpf' ▸ hfd.symm
    · refine View.eq_of_watchers (files_closeEpfd w pf _) fun o' => ?_
      by_cases heq : o' = o
      · simp [heq, view, View.set]
      · have hsame := h.watchers_closeEpfd ho heq (w.interest pf.epfd)
        simp only [View.set, Function.update_of_ne heq, ← hsame]
        simp [view, interest, heq]

/-- What `other` has goes to an object that has nothing. -/
theorem Owned.move (h : Owned w) {other : FlipId} (ho : w.flips o = none)
    (hother : w.flips other = some pf) :
    Refines ((w.setFlip o pf).setFlip other {}) (w.view.move o other) := by
  have hne : other ≠ o := by
    rintro rfl
    rw [ho] at hother
    cases hother
  refine ⟨⟨(h.owners.pass (epollOf_of_none ho) other).congr (fun o' => ?_) (fun e => Iff.rfl),
    h.numbered⟩, View.eq_of_watchers rfl fun o' => ?_⟩
  · have hpass : w.epollOf other = (some pf.epfd).filter (0 ≤ ·) := by
      rw [epollOf, hother, Option.map_some]
    rw [epollOf_setFlip, epollOf_setFlip, hpass]
    rfl
  · by_cases heq : o' = other
    · have hnone : w.interest (-1) = [] := h.interest_of_neg (Int.negSucc_lt_zero 0)
      simp [heq, view, View.move, View.set, hnone]
    · by_cases heq' : o' = o
      · simp [heq', hne.symm, view, View.move, View.set, interest, hother]
      · simp [heq, heq', view, View.move, View.set, interest]

theorem Owned.moveConstruct (h : Owned w) (o other : FlipId) :
    Refines (w.moveConstruct o other) (FlipCall.onView w.view (.moveConstruct o other)) := by
  rw [Process.moveConstruct, FlipCall.onView]
  cases ho : w.flips o with
  | some pf =>
    rw [watchers_of_flips ho]
    exact h.refl
  | none =>
    rw [watchers_eq_none.mpr ho]
    cases hother : w.flips other with
    | none =>
      rw [watchers_eq_none.mpr hother]
      exact h.refl
    | some pf =>
      rw [watchers_of_flips hother]
      exact h.move ho hother

theorem Owned.moveAssign (h : Owned w) (o other : FlipId) :
    Refines (w.moveAssign o other) (FlipCall.onView w.view (.moveAssign o other)) := by
  rw [Process.moveAssign, FlipCall.onView]
  cases ho : w.flips o with
  | none =>
    rw [watchers_eq_none.mpr ho]
    exact h.refl
  | some old =>
    rw [watchers_of_flips ho]
    cases hother : w.flips other with
    | none =>
      rw [watchers_eq_none.mpr hother]
      exact h.refl
    | some pf =>
      rw [watchers_of_flips hother]
      by_cases heq : o = other
      · simp only [heq, if_true]
        exact h.refl
      · simp only [heq, if_false]
        -- The old dispatcher goes, and the new one is put in its place.
        have hgone := h.destroy o
        have hview := hgone.view
        rw [FlipCall.onView, watchers_of_flips ho] at hview
        have hdestroy : (w.destroy o).setFlip o pf = (w.closeEpfd old).setFlip o pf := by
          simp [Process.destroy, ho, Process.setFlip]
        have hnone : (w.destroy o).flips o = none := by simp [Process.destroy, ho]
        have hother' : (w.destroy o).flips other = some pf := by
          simp [Process.destroy, ho, Ne.symm heq, hother]
        have hmove := hgone.owned.move hnone hother'
        rw [hdestroy, hview] at hmove
        refine ⟨hmove.owned, hmove.view.trans ?_⟩
        simp [View.move, View.set, Ne.symm heq]

/-- Dispatchers behave as if they shared nothing but the descriptors. -/
theorem Owned.apply (h : Owned w) (c : FlipCall) : Refines (c.apply w) (c.onView w.view) := by
  cases c with
  | construct o deviceFd created refused => exact h.construct o deviceFd created refused
  | destroy o => exact h.destroy o
  | moveConstruct o other => exact h.moveConstruct o other
  | moveAssign o other => exact h.moveAssign o other
  | setHandler o handler => exact h.setHandler o handler
  | addSource o fd cb refused => exact h.addSource o fd cb refused
  | removeSource o fd => exact h.removeSource o fd
  | rebind o newFd refused => exact h.rebind o newFd refused
  | openFd fd file => exact h.openFd fd file
  | closeFd fd held => exact h.closeFd fd held
  | letGo file => exact h.letGo file

end Process

end DrmCxx.Modeset
