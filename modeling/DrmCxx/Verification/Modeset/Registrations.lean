import DrmCxx.Verification.Modeset.Watchers

/-!
# The registrations of a dispatcher

What an interest list holds is shown for one watcher at a time. Every call of the dispatchers keeps
the lists exact. A descriptor that is closed while it is watched does not: a source then is watched
no more, and what a duplicate keeps alive cannot be taken out of the list again.
-/

namespace DrmCxx.Modeset

open Lib

/-! ### What an interest list holds -/

namespace Watcher

variable {x : Watcher} {files : Table Fd File} {fd : Fd} {r : Registration}

/-- Nothing is watched twice. -/
structure Registered (x : Watcher) : Prop where
  nodup : x.interest.Nodup
  nonneg : ∀ r ∈ x.interest, 0 ≤ r.fd

/-- The sources are watched, and nothing but the device besides. Each number still names the file
it was registered with, and no source has the device's. -/
structure Exact (files : Table Fd File) (x : Watcher) : Prop extends Registered x where
  live : ∀ r ∈ x.interest, files.find? r.fd = some r.file
  known : ∀ r ∈ x.interest, r.fd = x.flip.drmFd ∨ x.flip.sources.contains r.fd = true
  watched : ∀ fd, x.flip.sources.contains fd = true →
    (∃ file, ⟨fd, file⟩ ∈ x.interest) ∧ fd ≠ x.flip.drmFd

theorem registration_eq_some {refused : Option Errc} :
    x.registration files fd refused = some r ↔
      r.fd = fd ∧ files.find? fd = some r.file ∧ fd ≠ x.flip.epfd ∧ r ∉ x.interest ∧
        refused = none := by
  obtain ⟨fd', file⟩ := r
  simp only [registration, Option.filter_eq_some_iff, Option.map_eq_some_iff, decide_eq_true_eq,
    Registration.mk.injEq]
  constructor
  · rintro ⟨⟨file', hfile, rfl, rfl⟩, hok⟩
    exact ⟨rfl, hfile, hok⟩
  · rintro ⟨rfl, hfile, hok⟩
    exact ⟨⟨file, hfile, rfl, rfl⟩, hok⟩

theorem mem_without (h : Registered x) :
    r ∈ x.without files fd ↔ r ∈ x.interest ∧ ¬ (r.fd = fd ∧ files.find? fd = some r.file) := by
  obtain ⟨fd', file'⟩ := r
  rw [without]
  cases files.find? fd with
  | none => simp
  | some file =>
    simp only [h.nodup.mem_erase_iff, ne_eq, Registration.mk.injEq, Option.some.injEq]
    tauto

theorem Registered.without (h : Registered x) (pf : PageFlip) :
    Registered ⟨pf, x.without files fd⟩ := by
  refine ⟨?_, fun r hr => h.nonneg r ((mem_without h).mp hr).1⟩
  rw [Watcher.without]
  cases files.find? fd with
  | none => exact h.nodup
  | some file => exact h.nodup.erase _

theorem Registered.append (h : Registered x) {refused : Option Errc} (hfd : 0 ≤ fd)
    (hr : x.registration files fd refused = some r) (pf : PageFlip) :
    Registered ⟨pf, x.interest ++ [r]⟩ := by
  obtain ⟨rfl, -, -, hnew, -⟩ := registration_eq_some.mp hr
  refine ⟨h.nodup.append (List.nodup_singleton r) (by simpa using hnew), fun r' hr' => ?_⟩
  rcases List.mem_append.mp hr' with hold | hlast
  · exact h.nonneg r' hold
  · exact List.mem_singleton.mp hlast ▸ hfd

theorem registered_empty (pf : PageFlip) : Registered ⟨pf, []⟩ := ⟨List.nodup_nil, by simp⟩

theorem registered_construct (files : Table Fd File) (deviceFd epfd : Fd)
    (refused : Option Errc) : Registered (.construct files deviceFd epfd refused) := by
  rw [construct]
  split_ifs with hdev
  · cases hr : registration { flip := { drmFd := deviceFd, epfd } } files deviceFd refused with
    | none => exact registered_empty _
    | some r => exact (registered_empty { drmFd := deviceFd, epfd }).append hdev hr _
  · exact registered_empty _

theorem Registered.addSource (h : Registered x) (files : Table Fd File) (fd : Fd) (cb : Callback)
    (refused : Option Errc) : Registered (x.addSource files fd cb refused) := by
  rw [Watcher.addSource]
  split_ifs with hok
  · cases hr : x.registration files fd refused with
    | none => exact h
    | some r => exact h.append hok.1 hr _
  · exact h

theorem Registered.removeSource (h : Registered x) (files : Table Fd File) (fd : Fd) :
    Registered (x.removeSource files fd) := by
  rw [Watcher.removeSource]
  split_ifs
  · exact h.without _
  · exact h

theorem Registered.rebind (h : Registered x) (files : Table Fd File) (newFd : Fd)
    (refused : Option Errc) : Registered (x.rebind files newFd refused) := by
  have hun : Registered (x.unbind files) := by
    rw [unbind]
    split_ifs
    · exact h.without _
    · exact h
  rw [Watcher.rebind]
  split_ifs with hopen
  · rw [bind]
    cases hr : (x.unbind files).registration files newFd refused with
    | none => exact hun
    | some r => exact hun.append hopen.2 hr _
  · exact h

theorem Registered.drop (h : Registered x) (file : File) : Registered (x.drop file) :=
  ⟨h.nodup.filter _, fun r hr => h.nonneg r (List.mem_filter.mp hr).1⟩

/-! ### When it is exact -/

theorem exact_empty {pf : PageFlip} (hsources : pf.sources = .empty) : Exact files ⟨pf, []⟩ :=
  ⟨registered_empty pf, by simp, by simp, by simp [hsources, Table.contains, Table.empty]⟩

theorem Exact.setHandler (h : Exact files x) (handler : Callback) :
    Exact files (x.setHandler handler) :=
  ⟨⟨h.nodup, h.nonneg⟩, h.live, h.known, h.watched⟩

/-- A watched number is open. -/
theorem Exact.contains (h : Exact files x) (hr : r ∈ x.interest) :
    files.contains r.fd = true :=
  Table.contains_eq_true.mpr ⟨r.file, Table.find?_eq_some.mp (h.live r hr)⟩

theorem Exact.mem_without (h : Exact files x) :
    r ∈ x.without files fd ↔ r ∈ x.interest ∧ r.fd ≠ fd := by
  rw [Watcher.mem_without h.toRegistered]
  refine and_congr_right fun hr => not_congr (and_iff_left_of_imp ?_)
  rintro rfl
  exact h.live r hr

/-- The registration of a new number. -/
theorem Exact.fd_ne (h : Exact files x) {refused : Option Errc}
    (hr : x.registration files fd refused = some r) {r' : Registration} (hr' : r' ∈ x.interest) :
    r'.fd ≠ fd := by
  obtain ⟨rfl, hfile, -, hnew, -⟩ := registration_eq_some.mp hr
  intro heq
  have hlive := h.live r' hr'
  rw [heq, hfile, Option.some.injEq] at hlive
  obtain ⟨fd', file'⟩ := r'
  obtain ⟨fd, file⟩ := r
  dsimp only at heq hlive
  subst heq hlive
  exact hnew hr'

theorem exact_construct (files : Table Fd File) (deviceFd epfd : Fd) (refused : Option Errc) :
    Exact files (.construct files deviceFd epfd refused) := by
  have hreg := registered_construct files deviceFd epfd refused
  rw [construct] at hreg ⊢
  split_ifs at hreg ⊢ with hdev
  · cases hr : registration { flip := { drmFd := deviceFd, epfd } } files deviceFd refused with
    | none => exact exact_empty rfl
    | some r =>
      obtain ⟨hfd, hfile, -⟩ := registration_eq_some.mp hr
      rw [hr] at hreg
      refine ⟨hreg, ?_, ?_, by simp [Table.contains, Table.empty]⟩
      · intro r' hr'
        rw [List.mem_singleton.mp hr', hfd]
        exact hfile
      · intro r' hr'
        rw [List.mem_singleton.mp hr']
        exact .inl hfd
  · exact exact_empty rfl

theorem Exact.removeSource (h : Exact files x) (fd : Fd) :
    Exact files (x.removeSource files fd) := by
  have hreg := h.toRegistered.removeSource files fd
  rw [Watcher.removeSource] at hreg ⊢
  split_ifs at hreg ⊢
  · refine ⟨hreg, ?_, ?_, ?_⟩
    · intro r hr
      exact h.live r (h.mem_without.mp hr).1
    · intro r hr
      obtain ⟨hold, hne⟩ := h.mem_without.mp hr
      exact (h.known r hold).imp_right fun hc => (Table.contains_erase ..).mpr ⟨hne, hc⟩
    · intro fd' hfd'
      obtain ⟨hne, hold⟩ := (Table.contains_erase ..).mp hfd'
      obtain ⟨⟨file, hfile⟩, hdrm⟩ := h.watched fd' hold
      exact ⟨⟨file, h.mem_without.mpr ⟨hfile, hne⟩⟩, hdrm⟩
  · exact h

/-- The device's registration is never that of a source. -/
theorem Exact.unbind (h : Exact files x) : Exact files (x.unbind files) := by
  rw [Watcher.unbind]
  split_ifs
  · refine ⟨h.toRegistered.without _, ?_, ?_, ?_⟩
    · intro r hr
      exact h.live r (h.mem_without.mp hr).1
    · intro r hr
      obtain ⟨hold, hne⟩ := h.mem_without.mp hr
      exact .inr ((h.known r hold).resolve_left hne)
    · intro fd hfd
      obtain ⟨⟨file, hfile⟩, hne⟩ := h.watched fd hfd
      refine ⟨⟨file, h.mem_without.mpr ⟨hfile, hne⟩⟩, ?_⟩
      rintro rfl
      exact absurd (h.nonneg _ hfile) (Int.not_le.mpr (Int.negSucc_lt_zero 0))
  · exact h

theorem drmFd_unbind (x : Watcher) (files : Table Fd File) : (x.unbind files).flip.drmFd < 0 := by
  rw [unbind]
  split_ifs with h
  · exact Int.negSucc_lt_zero 0
  · exact Int.not_le.mp h

/-- Without a device only sources are watched. -/
theorem Exact.contains_source (h : Exact files x) (hdrm : x.flip.drmFd < 0) (hr : r ∈ x.interest) :
    x.flip.sources.contains r.fd = true :=
  (h.known r hr).resolve_left fun heq =>
    absurd (h.nonneg r hr) (Int.not_le.mpr (heq ▸ hdrm))

theorem Exact.rebind (h : Exact files x) (newFd : Fd) (refused : Option Errc) :
    Exact files (x.rebind files newFd refused) := by
  have hun := h.unbind
  have hreg := h.toRegistered.rebind files newFd refused
  rw [Watcher.rebind] at hreg ⊢
  split_ifs at hreg ⊢ with hopen
  · rw [bind] at hreg ⊢
    cases hr : (x.unbind files).registration files newFd refused with
    | none => exact hun
    | some r =>
      obtain ⟨rfl, hfile, -⟩ := registration_eq_some.mp hr
      rw [hr] at hreg
      refine ⟨hreg, ?_, ?_, ?_⟩
      · intro r' hr'
        rcases List.mem_append.mp hr' with hold | hnew
        · exact hun.live r' hold
        · rw [List.mem_singleton.mp hnew]
          exact hfile
      · intro r' hr'
        rcases List.mem_append.mp hr' with hold | hnew
        · exact .inr (hun.contains_source (drmFd_unbind x files) hold)
        · exact .inl (congrArg Registration.fd (List.mem_singleton.mp hnew))
      · intro fd hfd
        obtain ⟨⟨file, hold⟩, -⟩ := hun.watched fd hfd
        exact ⟨⟨file, List.mem_append_left _ hold⟩, hun.fd_ne hr hold⟩
  · exact h

/-- A source must not have the device's number. -/
theorem exact_addSource_iff (h : Exact files x) (fd : Fd) (cb : Callback) (refused : Option Errc) :
    Exact files (x.addSource files fd cb refused) ↔
      (fd = x.flip.drmFd → x.addSource files fd cb refused = x) := by
  have hreg := h.toRegistered.addSource files fd cb refused
  rw [Watcher.addSource] at hreg ⊢
  split_ifs at hreg ⊢ with hok
  · cases hr : x.registration files fd refused with
    | none => exact ⟨fun _ _ => rfl, fun _ => h⟩
    | some r =>
      obtain ⟨rfl, hfile, -, hnew, -⟩ := registration_eq_some.mp hr
      rw [hr] at hreg
      constructor
      · intro hexact heq
        exact absurd heq (hexact.watched r.fd ((Table.contains_insertOrAssign ..).mpr (.inl rfl))).2
      · intro hne
        refine ⟨hreg, ?_, ?_, ?_⟩
        · intro r' hr'
          rcases List.mem_append.mp hr' with hold | hlast
          · exact h.live r' hold
          · rw [List.mem_singleton.mp hlast]
            exact hfile
        · intro r' hr'
          rw [Table.contains_insertOrAssign]
          rcases List.mem_append.mp hr' with hold | hlast
          · exact (h.known r' hold).imp_right .inr
          · exact .inr (.inl (congrArg Registration.fd (List.mem_singleton.mp hlast)))
        · intro fd' hfd'
          rcases (Table.contains_insertOrAssign ..).mp hfd' with rfl | hold
          · refine ⟨⟨r.file, by simp⟩, fun heq => hnew ?_⟩
            have hmem : r ∈ x.interest ++ [r] := by simp
            exact congrArg Watcher.interest (hne heq) ▸ hmem
          · obtain ⟨⟨file, hmem⟩, hdrm⟩ := h.watched fd' hold
            exact ⟨⟨file, List.mem_append_left _ hmem⟩, hdrm⟩
  · exact ⟨fun _ _ => rfl, fun _ => h⟩

/-- A list does not depend on new descriptors. -/
theorem Exact.insert (h : Exact files x) (hnew : files.contains fd = false) (file : File) :
    Exact (files.insertOrAssign fd file) x := by
  refine ⟨h.toRegistered, fun r hr => ?_, h.known, h.watched⟩
  rw [Table.find?_insertOrAssign, if_neg, h.live r hr]
  rintro rfl
  exact absurd (hnew.symm.trans (h.contains hr)) Bool.false_ne_true

theorem Exact.drop_eq (h : Exact files x) {file : File} (hfile : file ∉ files.values) :
    x.drop file = x := by
  rw [drop, List.filter_eq_self.mpr fun r hr => ?_]
  refine decide_eq_true fun heq => hfile ?_
  exact Table.mem_values.mpr ⟨r.fd, Table.find?_eq_some.mp (heq ▸ h.live r hr)⟩

end Watcher

/-! ### Closed descriptors -/

namespace View

variable {v : View} {o : FlipId} {fd : Fd} {held : Bool} {x : Watcher}

/-- What becomes of a watcher when a descriptor is closed. -/
def closed (v : View) (fd : Fd) (held : Bool) (x : Watcher) : Watcher :=
  match v.files.find? fd with
  | none => x
  | some file => if held = false ∧ file ∉ (v.files.erase fd).values then x.drop file else x

/-- The descriptor is no source's, and if it is watched, its file goes with it. -/
def MayClose (v : View) (fd : Fd) (held : Bool) (x : Watcher) : Prop :=
  x.flip.sources.contains fd = false ∧
    ∀ file, ⟨fd, file⟩ ∈ x.interest → held = false ∧ file ∉ (v.files.erase fd).values

theorem closed_of_none (hfile : v.files.find? fd = none) : v.closed fd held x = x := by
  rw [closed, hfile]

theorem closed_of_some {file : File} (hfile : v.files.find? fd = some file) :
    v.closed fd held x =
      if held = false ∧ file ∉ (v.files.erase fd).values then x.drop file else x := by
  rw [closed, hfile]

@[simp] theorem flip_closed (v : View) (fd : Fd) (held : Bool) (x : Watcher) :
    (v.closed fd held x).flip = x.flip := by
  cases hfile : v.files.find? fd with
  | none => rw [closed_of_none hfile]
  | some file =>
    rw [closed_of_some hfile]
    split_ifs <;> rfl

theorem watchers_close : (v.close fd held).watchers o = (v.watchers o).map (v.closed fd held) := by
  rw [close]
  cases hfile : v.files.find? fd with
  | none =>
    rw [show v.closed fd held = id from funext fun x => closed_of_none hfile, Option.map_id, id]
  | some file =>
    rw [show v.closed fd held = _ from funext fun x => closed_of_some hfile]
    cases held
    · by_cases hmem : file ∈ (v.files.erase fd).values
      · simp [letGo, hmem]
      · simp [letGo, hmem]
    · simp

theorem find?_close (fd' : Fd) :
    (v.close fd held).files.find? fd' = if fd' = fd then none else v.files.find? fd' := by
  rw [close]
  cases hfile : v.files.find? fd with
  | none =>
    by_cases heq : fd' = fd
    · rw [if_pos heq, heq]
      exact hfile
    · rw [if_neg heq]
  | some file =>
    have hletGo : ∀ v : View, (v.letGo file).files = v.files := fun v => by
      rw [letGo]
      split_ifs <;> rfl
    cases held <;> simp [hletGo]

/-- A list without the closed number is as exact as it was. -/
theorem exact_of_ne (h : Watcher.Exact v.files x) (hne : ∀ r ∈ x.interest, r.fd ≠ fd) :
    Watcher.Exact (v.close fd held).files x := by
  refine ⟨h.toRegistered, fun r hr => ?_, h.known, h.watched⟩
  rw [find?_close, if_neg (hne r hr)]
  exact h.live r hr

/-- Closing a descriptor leaves a list exact if it may be closed, and only then. -/
theorem exact_closed_iff (h : Watcher.Exact v.files x) :
    Watcher.Exact (v.close fd held).files (v.closed fd held x) ↔ v.MayClose fd held x := by
  have hdead : ∀ y, Watcher.Exact (v.close fd held).files y → ∀ r ∈ y.interest, r.fd ≠ fd := by
    rintro y hy r hr rfl
    have hlive := hy.live r hr
    rw [find?_close, if_pos rfl] at hlive
    cases hlive
  constructor
  · intro hexact
    refine ⟨?_, fun file hmem => ?_⟩
    · by_contra hin
      rw [Bool.not_eq_false, ← flip_closed v fd held x] at hin
      obtain ⟨⟨file, hmem⟩, -⟩ := hexact.watched fd hin
      exact hdead _ hexact _ hmem rfl
    · by_contra hkept
      rw [closed_of_some (h.live _ hmem), if_neg hkept] at hexact
      exact hdead _ hexact _ hmem rfl
  · rintro ⟨hsource, hgoes⟩
    cases hfile : v.files.find? fd with
    | none =>
      rw [closed_of_none hfile]
      refine exact_of_ne h fun r hr => ?_
      rintro rfl
      rw [h.live r hr] at hfile
      cases hfile
    | some file =>
      rw [closed_of_some hfile]
      have hsame : ∀ r ∈ x.interest, r.fd = fd → r.file = file := by
        rintro r hr rfl
        rw [h.live r hr, Option.some.injEq] at hfile
        exact hfile
      split_ifs with hgo
      · refine ⟨h.toRegistered.drop file, ?_, ?_, ?_⟩
        · intro r hr
          obtain ⟨hold, hne⟩ := List.mem_filter.mp hr
          rw [find?_close, if_neg fun heq => of_decide_eq_true hne (hsame r hold heq)]
          exact h.live r hold
        · intro r hr
          exact h.known r (List.mem_filter.mp hr).1
        · intro fd' hfd'
          obtain ⟨⟨file', hmem⟩, hdrm⟩ := h.watched fd' hfd'
          refine ⟨⟨file', List.mem_filter.mpr ⟨hmem, decide_eq_true fun heq => hgo.2 ?_⟩⟩, hdrm⟩
          have hne : fd' ≠ fd := by
            rintro rfl
            exact absurd (hsource.symm.trans hfd') Bool.false_ne_true
          refine Table.mem_values.mpr ⟨fd', Table.mem_erase.mpr ⟨hne, ?_⟩⟩
          exact heq ▸ Table.find?_eq_some.mp (h.live _ hmem)
      · refine exact_of_ne h fun r hr heq => hgo ?_
        obtain ⟨fd', file'⟩ := r
        obtain rfl : fd' = fd := heq
        obtain rfl : file' = file := hsame _ hr rfl
        exact hgoes file' hr

/-! ### Every watcher -/

/-- Every watcher there is meets the condition. -/
def Each (P : Watcher → Prop) (v : View) : Prop := ∀ o x, v.watchers o = some x → P x

/-- Every list is exact. -/
def Exact (v : View) : Prop := v.Each (Watcher.Exact v.files)

variable {P : Watcher → Prop}

theorem each_set_iff (h : v.Each P) {x : Option Watcher} :
    (v.set o x).Each P ↔ ∀ y, x = some y → P y := by
  constructor
  · rintro hset y rfl
    exact hset o y (by simp [set])
  · intro hx o' y hy
    by_cases ho : o' = o
    · subst ho
      exact hx y (by simpa [set] using hy)
    · exact h o' y (by simpa [set, ho] using hy)

theorem each_modify_iff (h : v.Each P) {f : Watcher → Watcher} :
    (v.modify o f).Each P ↔ ∀ x, v.watchers o = some x → P (f x) := by
  rw [modify, each_set_iff h]
  constructor
  · intro hf x hx
    exact hf (f x) (by rw [hx, Option.map_some])
  · intro hf y hy
    obtain ⟨x, hx, rfl⟩ := Option.map_eq_some_iff.mp hy
    exact hf x hx

/-- Nobody but the object that is overwritten loses its watcher. -/
theorem each_move_iff {other : FlipId} (hne : o ≠ other) (hempty : P {}) :
    (v.move o other).Each P ↔ ∀ o' x, o' ≠ o → v.watchers o' = some x → P x := by
  constructor
  · intro h o' x ho hx
    by_cases hother : o' = other
    · subst hother
      exact h o x (by simp [move, set, hne, hx])
    · exact h o' x (by simp [move, set, ho, hother, hx])
  · intro h o' x hx
    by_cases hother : o' = other
    · obtain rfl : {} = x := by simpa [move, set, hother] using hx
      exact hempty
    · by_cases ho : o' = o
      · subst ho
        exact h other x hne.symm (by simpa [move, set, hother] using hx)
      · exact h o' x ho (by simpa [move, set, ho, hother] using hx)

theorem each_set_none_iff :
    (v.set o none).Each P ↔ ∀ o' x, o' ≠ o → v.watchers o' = some x → P x := by
  constructor
  · intro h o' x ho hx
    exact h o' x (by simpa [set, ho] using hx)
  · intro h o' x hx
    by_cases ho : o' = o
    · simp [set, ho] at hx
    · exact h o' x ho (by simpa [set, ho] using hx)

theorem Each.letGo (h : v.Each P) (hdrop : ∀ x file, P x → P (x.drop file)) (file : File) :
    (v.letGo file).Each P := by
  rw [View.letGo]
  split_ifs
  · exact h
  · intro o y hy
    obtain ⟨x, hx, rfl⟩ := Option.map_eq_some_iff.mp hy
    exact hdrop x file (h o x hx)

theorem Each.close (h : v.Each P) (hdrop : ∀ x file, P x → P (x.drop file)) (fd : Fd)
    (held : Bool) : (v.close fd held).Each P := by
  rw [View.close]
  cases v.files.find? fd with
  | none => exact h
  | some file =>
    cases held
    · exact Each.letGo (v := { v with files := v.files.erase fd }) h hdrop file
    · exact h

/-- What is exact for some of the watchers when a descriptor is closed. -/
theorem exact_close_iff (fd : Fd) (held : Bool) (h : v.Exact) (p : FlipId → Prop) :
    (∀ o x, p o → (v.close fd held).watchers o = some x →
        Watcher.Exact (v.close fd held).files x) ↔
      ∀ o x, p o → v.watchers o = some x → v.MayClose fd held x := by
  simp only [watchers_close]
  constructor
  · intro hclosed o x ho hx
    exact (exact_closed_iff (h o x hx)).mp (hclosed o _ ho (by rw [hx, Option.map_some]))
  · intro hmay o y ho hy
    obtain ⟨x, hx, rfl⟩ := Option.map_eq_some_iff.mp hy
    exact (exact_closed_iff (h o x hx)).mpr (hmay o x ho hx)

theorem Exact.openFd (h : v.Exact) (fd : ℕ) (file : File) : (v.openFd fd file).Exact := by
  rw [View.openFd]
  by_cases hnew : v.files.contains fd = true
  · rwa [if_pos hnew]
  · rw [if_neg hnew]
    exact fun o x hx => (h o x hx).insert (Bool.not_eq_true _ ▸ hnew) file

theorem Exact.letGo (h : v.Exact) (file : File) : (v.letGo file).Exact := by
  rw [View.letGo]
  split_ifs with hfile
  · exact h
  · intro o y hy
    obtain ⟨x, hx, rfl⟩ := Option.map_eq_some_iff.mp hy
    rw [(h o x hx).drop_eq hfile]
    exact h o x hx

/-- The dispatcher's own descriptor may be closed as far as the others go. -/
def MayGo (v : View) (o : FlipId) : Prop :=
  ∀ x, v.watchers o = some x → 0 ≤ x.flip.epfd →
    ∀ o' x', o' ≠ o → v.watchers o' = some x' → v.MayClose x.flip.epfd false x'

theorem exact_closeEpfd_iff (h : v.Exact) (hx : v.watchers o = some x) :
    (∀ o' x', o' ≠ o → (v.closeEpfd x).watchers o' = some x' →
        Watcher.Exact (v.closeEpfd x).files x') ↔ v.MayGo o := by
  have hgo : v.MayGo o ↔ (0 ≤ x.flip.epfd →
      ∀ o' x', o' ≠ o → v.watchers o' = some x' → v.MayClose x.flip.epfd false x') :=
    ⟨fun hgo => hgo x hx, fun hgo y hy => by
      obtain rfl : x = y := Option.some.inj (hx.symm.trans hy)
      exact hgo⟩
  rw [hgo, closeEpfd]
  split_ifs with he
  · rw [exact_close_iff x.flip.epfd false h (· ≠ o)]
    exact (imp_iff_right he).symm
  · exact ⟨fun _ hc => absurd hc he, fun _ o' x' _ hx' => h o' x' hx'⟩

end View

theorem registered_onView {v : View} (h : v.Each Watcher.Registered) (c : FlipCall) :
    (c.onView v).Each Watcher.Registered := by
  have hdrop : ∀ (x : Watcher) (file : File), x.Registered → (x.drop file).Registered :=
    fun x file hx => hx.drop file
  have hempty : Watcher.Registered {} := Watcher.registered_empty {}
  have hclose : ∀ x, (v.closeEpfd x).Each Watcher.Registered := by
    intro x
    rw [View.closeEpfd]
    split_ifs
    · exact h.close hdrop _ _
    · exact h
  cases c with
  | construct o deviceFd created refused =>
    rw [FlipCall.onView]
    split_ifs
    · exact h
    · cases created.filter fun new => !v.files.contains new.1 with
      | none =>
        refine (View.each_set_iff h).mpr ?_
        rintro y ⟨⟩
        exact Watcher.registered_empty _
      | some new =>
        refine (View.each_set_iff (v := { v with files := _ }) h).mpr ?_
        rintro y ⟨⟩
        exact Watcher.registered_construct ..
  | destroy o =>
    rw [FlipCall.onView]
    cases v.watchers o with
    | none => exact h
    | some x => exact View.each_set_none_iff.mpr fun o' y _ hy => hclose x o' y hy
  | moveConstruct o other =>
    rw [FlipCall.onView]
    split
    · rename_i hnone hsome
      refine (View.each_move_iff ?_ hempty).mpr fun o' y _ hy => h o' y hy
      rintro rfl
      rw [hnone] at hsome
      cases hsome
    · exact h
  | moveAssign o other =>
    rw [FlipCall.onView]
    split
    · split_ifs with hne
      · exact h
      · exact (View.each_move_iff hne hempty).mpr fun o' y _ hy => hclose _ o' y hy
    · exact h
  | setHandler o handler =>
    exact (View.each_modify_iff h).mpr fun x hx => ⟨(h o x hx).nodup, (h o x hx).nonneg⟩
  | addSource o fd cb refused =>
    exact (View.each_modify_iff h).mpr fun x hx => (h o x hx).addSource v.files fd cb refused
  | removeSource o fd =>
    exact (View.each_modify_iff h).mpr fun x hx => (h o x hx).removeSource v.files fd
  | rebind o newFd refused =>
    exact (View.each_modify_iff h).mpr fun x hx => (h o x hx).rebind v.files newFd refused
  | openFd fd file =>
    rw [FlipCall.onView, View.openFd]
    split_ifs
    · exact h
    · exact h
  | closeFd fd held =>
    rw [FlipCall.onView]
    split_ifs
    · exact h
    · exact h.close hdrop fd held
  | letGo file => exact h.letGo hdrop file

/-- The call closes no source's descriptor, and none that is watched otherwise while another one is
open on its file, and it registers no source under the number of a device that is not watched. -/
def FlipCall.Careful (v : View) : FlipCall → Prop
  | .destroy o => v.MayGo o
  | .moveAssign o other => o ≠ other → (v.watchers other).isSome → v.MayGo o
  | .addSource o fd cb refused =>
    ∀ x, v.watchers o = some x → fd = x.flip.drmFd → x.addSource v.files fd cb refused = x
  | .closeFd fd held => ¬ v.Owns fd → ∀ o x, v.watchers o = some x → v.MayClose fd held x
  | _ => True

/-- A call keeps every list exact if it is careful, and only then. -/
theorem exact_onView_iff {v : View} (h : v.Exact) (c : FlipCall) :
    (c.onView v).Exact ↔ c.Careful v := by
  have hempty : ∀ files, Watcher.Exact files {} := fun files => Watcher.exact_empty rfl
  cases c with
  | construct o deviceFd created refused =>
    refine iff_of_true ?_ trivial
    rw [FlipCall.onView]
    split_ifs
    · exact h
    · cases hmade : created.filter fun new => !v.files.contains new.1 with
      | none =>
        refine (View.each_set_iff h).mpr ?_
        rintro y ⟨⟩
        exact Watcher.exact_empty rfl
      | some new =>
        have hnew : v.files.contains new.1 = false := by
          simpa using (Option.filter_eq_some_iff.mp hmade).2
        have hopened : View.Exact { v with files := v.files.insertOrAssign new.1 new.2 } :=
          fun o x hx => (h o x hx).insert hnew new.2
        refine (View.each_set_iff hopened).mpr ?_
        rintro y ⟨⟩
        exact Watcher.exact_construct ..
  | destroy o =>
    rw [FlipCall.onView, FlipCall.Careful]
    cases hx : v.watchers o with
    | none => exact iff_of_true h fun x hx' => by simp [hx] at hx'
    | some x => exact View.each_set_none_iff.trans (View.exact_closeEpfd_iff h hx)
  | moveConstruct o other =>
    refine iff_of_true ?_ trivial
    rw [FlipCall.onView]
    split
    · rename_i hnone hsome
      refine (View.each_move_iff ?_ (hempty _)).mpr fun o' y _ hy => h o' y hy
      rintro rfl
      rw [hnone] at hsome
      cases hsome
    · exact h
  | moveAssign o other =>
    rw [FlipCall.onView, FlipCall.Careful]
    cases hx : v.watchers o with
    | none => exact iff_of_true h fun _ _ x hx' => by simp [hx] at hx'
    | some x =>
      cases hother : v.watchers other with
      | none => exact iff_of_true h fun _ hsome => by simp at hsome
      | some y =>
        by_cases hne : o = other
        · simp only [hne, if_true]
          exact iff_of_true h fun hc => absurd rfl hc
        · simp only [hne, if_false]
          refine (View.each_move_iff hne (hempty _)).trans ?_
          refine (View.exact_closeEpfd_iff h hx).trans ?_
          exact ⟨fun hgo _ _ => hgo, fun hgo => hgo hne rfl⟩
  | setHandler o handler =>
    exact iff_of_true
      ((View.each_modify_iff h).mpr fun x hx => (h o x hx).setHandler handler) trivial
  | addSource o fd cb refused =>
    refine (View.each_modify_iff h).trans (forall₂_congr fun x hx => ?_)
    exact Watcher.exact_addSource_iff (h o x hx) fd cb refused
  | removeSource o fd =>
    exact iff_of_true ((View.each_modify_iff h).mpr fun x hx => (h o x hx).removeSource fd) trivial
  | rebind o newFd refused =>
    exact iff_of_true
      ((View.each_modify_iff h).mpr fun x hx => (h o x hx).rebind newFd refused) trivial
  | openFd fd file => exact iff_of_true (h.openFd fd file) trivial
  | closeFd fd held =>
    rw [FlipCall.onView, FlipCall.Careful]
    split_ifs with hown
    · exact iff_of_true h fun hc => absurd hown hc
    · have hclose := View.exact_close_iff fd held h fun _ => True
      simp only [true_imp_iff] at hclose
      exact hclose.trans (imp_iff_right hown).symm
  | letGo file => exact iff_of_true (h.letGo file) trivial

/-! ### Runs -/

namespace Process

theorem each_initial (P : Watcher → Prop) : ({} : Process).view.Each P := by
  simp [View.Each, view]

/-- What holds of every process. -/
structure Sound (w : Process) : Prop where
  owned : Owned w
  registered : w.view.Each Watcher.Registered

theorem sound_initial : Sound {} := ⟨owned_initial, each_initial _⟩

theorem Sound.apply {w : Process} (h : Sound w) (c : FlipCall) : Sound (c.apply w) := by
  have hstep := h.owned.apply c
  exact ⟨hstep.owned, hstep.view ▸ registered_onView h.registered c⟩

theorem Sound.run {w : Process} (h : Sound w) (cs : List FlipCall) :
    Sound (run FlipCall.apply w cs) :=
  run_always (fun _ c hw => hw.apply c) h cs

/-- The lists stay exact over a run exactly if every call of it is careful. -/
theorem Sound.meets_exact_iff {w : Process} (h : Sound w) (hs : w.view.Exact)
    (cs : List FlipCall) :
    Meets FlipCall.apply (fun w c => (c.apply w).view.Exact) w cs ↔
      Meets FlipCall.apply (fun w c => c.Careful w.view) w cs := by
  refine meets_iff_of_kept (fun w => Sound w ∧ w.view.Exact) ?_ ?_ ⟨h, hs⟩ cs
  · rintro w c ⟨hw, -⟩ hwc
    exact ⟨hw.apply c, hwc⟩
  · rintro w c ⟨hw, hws⟩
    rw [(hw.owned.apply c).view]
    exact exact_onView_iff hws c

/-! ### Dispatches -/

theorem handleEvents_process (w : Process) (events : List (FlipEvent × List FlipCall)) :
    (w.handleEvents events).process = run FlipCall.apply w (w.handleEvents events).calls := by
  induction events generalizing w with
  | nil => rfl
  | cons event events ih =>
    obtain ⟨event, calls⟩ := event
    rw [handleEvents]
    cases event.userData with
    | none => exact ih w
    | some p =>
      dsimp only
      cases w.flips p with
      | none => rfl
      | some pf =>
        dsimp only
        cases pf.handler with
        | none => exact ih w
        | some handler =>
          dsimp only [Dispatched.after]
          rw [run_append]
          exact ih _

theorem route_process (o : FlipId) (turn : ℕ → Turn) (w : Process) (fds : List Fd) :
    (route o turn w fds).process = run FlipCall.apply w (route o turn w fds).calls := by
  induction fds generalizing turn w with
  | nil => rfl
  | cons fd fds ih =>
    rw [route]
    cases w.flips o with
    | none => rfl
    | some pf =>
      dsimp only
      split_ifs
      · cases (turn 0).read with
        | error e => rfl
        | ok events =>
          dsimp only
          split_ifs
          · exact handleEvents_process w events
          · simp only [Dispatched.after, run_append, ← handleEvents_process]
            exact ih _ _
      · cases pf.sources.find? fd with
        | none => exact ih _ w
        | some cb =>
          cases cb with
          | none => exact ih _ w
          | some cb =>
            simp only [Dispatched.after, run_append]
            exact ih _ _

/-- A dispatch changes nothing but what its callbacks change. -/
theorem dispatch_process (w : Process) (o : FlipId) (timeoutMs : ℤ) (now : ℕ) (waits : List Wait)
    (turn : ℕ → Turn) :
    (w.dispatch o timeoutMs now waits turn).process =
      run FlipCall.apply w (w.dispatch o timeoutMs now waits turn).calls := by
  rw [dispatch]
  cases w.flips o with
  | none => rfl
  | some pf =>
    dsimp only
    split_ifs
    · rfl
    · rfl
    · cases (wait timeoutMs now waits).2 with
      | none => rfl
      | some answer =>
        cases answer with
        | error e => rfl
        | ok ready =>
          dsimp only
          cases w.report pf.epfd ready with
          | nil => rfl
          | cons fd fds => exact route_process o turn w (fd :: fds)

end Process

theorem FlipOp.apply_eq_run (w : Process) (op : FlipOp) :
    op.apply w = run FlipCall.apply w (op.calls w) := by
  cases op with
  | call c => rfl
  | dispatch o timeoutMs now waits turn => exact w.dispatch_process o timeoutMs now waits turn

/-- A condition on the calls of each operation. -/
def FlipOp.Calls (ok : Process → FlipCall → Prop) (w : Process) (op : FlipOp) : Prop :=
  Meets FlipCall.apply ok w (op.calls w)

/-- The process that a program's operations lead to. -/
def afterOps (ops : List FlipOp) : Process := run FlipOp.apply {} ops

theorem sound_run (ops : List FlipOp) : Process.Sound (afterOps ops) :=
  run_always (fun w op hw => FlipOp.apply_eq_run w op ▸ hw.run (op.calls w))
    Process.sound_initial ops

/-- Whatever a program does with its dispatchers and descriptors, an epoll descriptor is open while
one dispatcher has it, each list names a descriptor once, and a call changes the dispatchers as if
they shared nothing but the descriptors. -/
theorem dispatchers_apart (ops : List FlipOp) :
    (∀ e, ((afterOps ops).epolls e).isSome ↔
        ∃ o pf, (afterOps ops).flips o = some pf ∧ pf.epfd = e ∧ 0 ≤ e) ∧
      (∀ o o' pf pf', (afterOps ops).flips o = some pf → (afterOps ops).flips o' = some pf' →
        0 ≤ pf.epfd → pf'.epfd = pf.epfd → o = o') ∧
      (∀ o pf, (afterOps ops).flips o = some pf →
        Watcher.Registered ⟨pf, (afterOps ops).interest pf.epfd⟩) ∧
      ∀ c : FlipCall, (c.apply (afterOps ops)).view = c.onView (afterOps ops).view := by
  obtain ⟨howned, hreg⟩ := sound_run ops
  refine ⟨fun e => howned.isSome_iff, ?_, ?_, fun c => (howned.apply c).view⟩
  · intro o o' pf pf' ho ho' he hsame
    by_contra hne
    exact howned.epfd_ne ho ho' (Ne.symm hne) he hsame
  · intro o pf ho
    exact hreg o _ (Process.watchers_of_flips ho)

/-- Over a run every interest list holds, after each call of it, the sources and at most the device
exactly if no call, from a callback or not, closes a source's descriptor or a watched one whose file
stays open, or registers a source under the number of an unwatched device. -/
theorem served_iff_careful (ops : List FlipOp) :
    Meets FlipOp.apply (FlipOp.Calls fun w c => (c.apply w).view.Exact) {} ops ↔
      Meets FlipOp.apply (FlipOp.Calls fun w c => c.Careful w.view) {} ops := by
  refine meets_iff_of_kept (fun w => w.Sound ∧ w.view.Exact) ?_ ?_
    ⟨Process.sound_initial, Process.each_initial _⟩ ops
  · rintro w op ⟨hw, hs⟩ hserved
    rw [FlipOp.apply_eq_run]
    have hstep : ∀ (w : Process) (c : FlipCall), w.view.Exact → (c.apply w).view.Exact →
        (c.apply w).view.Exact := fun _ _ _ h => h
    exact ⟨hw.run _, run_invariant hstep hs hserved⟩
  · rintro w op ⟨hw, hs⟩
    exact hw.meets_exact_iff hs (op.calls w)

/-- A source's descriptor is closed while a duplicate is open: removing the source finds nothing. -/
example :
    (afterOps
      [.call (.openFd 3 0), .call (.construct 0 3 (some (4, 1)) none), .call (.openFd 5 2),
        .call (.openFd 6 2), .call (.addSource 0 5 (some 0) none), .call (.closeFd 5 false),
        .call (.removeSource 0 5)]).interest 4 = [⟨3, 0⟩, ⟨5, 2⟩] := by
  decide

end DrmCxx.Modeset
