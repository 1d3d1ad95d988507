import DrmCxx.Lib.Holdings
import DrmCxx.Scene.Detail.DrmFiles

/-!
# What a call to the kernel leaves alone

Each call on descriptors, handles and framebuffers, by what it changes; and the frame of calls on
one holder's descriptors: the descriptors of others, and their framebuffers, stay.
-/

namespace DrmCxx.Scene.Detail

open Lib Lib.Holdings

namespace Kernel

variable {k k' : Kernel} {n device : ℕ}

/-- The descriptor is open. -/
def Opened (k : Kernel) (n : ℕ) : Prop := k.fds.contains n = true

theorem opened_of_find? {d : Description} (h : k.fds.find? n = some d) : k.Opened n :=
  Table.contains_eq_true.mpr ⟨d, Table.find?_eq_some.mp h⟩

/-! ### One call -/

theorem dupFd_ok {answer : Except Errc ℕ} {m : ℕ} (h : k.dupFd n answer = .ok (k', m)) :
    ∃ d, k.fds.find? n = some d ∧ ¬ k.Opened m ∧
      k' = { k with fds := k.fds.insertOrAssign m d } := by
  unfold dupFd at h
  split at h
  · cases h
  · rename_i d hd
    split at h
    · cases h
    · split at h
      · cases h
      · rename_i hnew
        cases h
        exact ⟨d, hd, hnew, rfl⟩

/-- A duplicate takes a free number: what was open stays open and stays what it was. -/
theorem dupFd_keeps {answer : Except Errc ℕ} {m : ℕ} (h : k.dupFd n answer = .ok (k', m)) :
    (∀ j, k.Opened j → k'.Opened j ∧ k'.fds.find? j = k.fds.find? j) ∧ k'.fbs = k.fbs := by
  obtain ⟨d, -, hnew, rfl⟩ := dupFd_ok h
  refine ⟨fun j hj => ⟨?_, ?_⟩, rfl⟩
  · exact (Table.contains_insertOrAssign k.fds m j d).mpr (.inr hj)
  · have hne : j ≠ m := fun heq => hnew (heq ▸ hj)
    simp [hne]

theorem close_fds (k : Kernel) (n : ℕ) : (k.close n).fds = k.fds.erase n := by
  unfold close
  split
  · split <;> rfl
  · rfl

/-- A file stays while another descriptor refers to it. -/
theorem close_of_referred {m : ℕ} {file : FileId} (hne : m ≠ n)
    (hm : k.fds.find? m = some (.device file)) :
    (∀ h, (k.close n).handles.find? (file, h) = k.handles.find? (file, h)) ∧
      ∀ id fb, k.fbs.find? id = some fb → fb.file = file → (k.close n).fbs.find? id = some fb := by
  have hkept : (m, Description.device file) ∈ (k.fds.erase n).entries :=
    Table.mem_erase.mpr ⟨hne, Table.find?_eq_some.mp hm⟩
  unfold close
  split
  · rename_i gone _
    split
    · exact ⟨fun _ => rfl, fun _ _ hfb _ => hfb⟩
    · rename_i hlast
      have hfile : file ≠ gone := by
        rintro rfl
        exact hlast (List.contains_iff_mem.mpr (List.mem_map_of_mem hkept))
      refine ⟨fun h => ?_, fun id fb hfb hin => ?_⟩
      · ext buffer
        simp only [Table.find?_eq_some, Table.mem_filter]
        simp [hfile]
      · rw [Table.find?_eq_some, Table.mem_filter]
        exact ⟨Table.find?_eq_some.mp hfb, by simp [hin, hfile]⟩
  · exact ⟨fun _ => rfl, fun _ _ hfb _ => hfb⟩

theorem fbs_of_close {id : FbId} {fb : DrmFramebuffer} (h : (k.close n).fbs.find? id = some fb) :
    k.fbs.find? id = some fb := by
  unfold close at h
  split at h
  · split at h
    · exact h
    · exact Table.find?_eq_some.mpr (Table.mem_filter.mp (Table.find?_eq_some.mp h)).1
  · exact h

theorem handleOf_eq_some {file : FileId} {buffer : BufferId} {h : GemHandle}
    (hh : k.handleOf file buffer = some h) : k.handles.find? (file, h) = some buffer := by
  unfold handleOf at hh
  obtain ⟨e, he, rfl⟩ := Option.map_eq_some_iff.mp hh
  have hmem := List.mem_of_find?_eq_some he
  obtain ⟨rfl, rfl⟩ : e.1.1 = file ∧ e.2 = buffer := by simpa using List.find?_some he
  exact Table.find?_eq_some.mpr hmem

/-- An import finds the buffer's handle or makes one; the handles there were stay. -/
theorem primeFdToHandle_ok {answer : Except Errc GemHandle} {h : GemHandle}
    (hok : k.primeFdToHandle device n answer = .ok (k', h)) :
    ∃ file buffer, k.fds.find? device = some (.device file) ∧
      k.fds.find? n = some (.dmaBuf buffer) ∧ k'.handles.find? (file, h) = some buffer ∧
      k'.fds = k.fds ∧ k'.fbs = k.fbs ∧
      ∀ key b, k.handles.find? key = some b → k'.handles.find? key = some b := by
  unfold primeFdToHandle at hok
  split at hok
  · rename_i file buffer hdevice hn
    split at hok
    · cases hok
    · split at hok
      · rename_i found hfound
        cases hok
        exact ⟨file, buffer, hdevice, hn, handleOf_eq_some hfound, rfl, rfl, fun _ _ hb => hb⟩
      · split at hok
        · cases hok
        · rename_i hfree
          cases hok
          refine ⟨file, buffer, hdevice, hn, by simp, rfl, rfl, fun key b hb => ?_⟩
          have hne : key ≠ (file, h) := by
            rintro rfl
            exact hfree (.inr (Table.contains_eq_true.mpr ⟨b, Table.find?_eq_some.mp hb⟩))
          simpa [hne] using hb
  · cases hok

theorem gemClose_same (k : Kernel) (device : ℕ) (h : GemHandle) :
    (k.gemClose device h).fds = k.fds ∧ (k.gemClose device h).fbs = k.fbs := by
  unfold gemClose
  split
  · exact ⟨rfl, rfl⟩
  · exact ⟨rfl, rfl⟩

theorem addFb_ok {width height drmFourcc : ℕ} {modifier : Option ℕ}
    {planes : List (GemHandle × ℕ × ℕ)} {answer : Except Errc FbId} {id : FbId}
    (h : k.addFb device width height drmFourcc modifier planes answer = .ok (k', id)) :
    ∃ file buffers, k.fds.find? device = some (.device file) ∧
      k.planeBuffers file planes = some buffers ∧ id ≠ 0 ∧ k.fbs.find? id = none ∧
      k' = { k with
        fbs := k.fbs.insertOrAssign id
          { file, width, height, drmFourcc, modifier, planes := buffers } } := by
  unfold addFb at h
  split at h
  · rename_i file hdevice
    split at h
    · cases h
    · rename_i buffers hbuffers
      split at h
      · cases h
      · split at h
        · cases h
        · rename_i hfree
          cases h
          rw [not_or, Bool.not_eq_true, Table.contains_eq_false] at hfree
          exact ⟨file, buffers, hdevice, hbuffers, hfree.1, Table.find?_eq_none.mpr hfree.2, rfl⟩
  · cases h

theorem rmFb_same (k : Kernel) (device : ℕ) (id : FbId) :
    (k.rmFb device id).fds = k.fds ∧ (k.rmFb device id).handles = k.handles ∧
      ((k.rmFb device id).fbs = k.fbs ∨ (k.rmFb device id).fbs = k.fbs.erase id) := by
  unfold rmFb
  split
  · split
    · split
      · exact ⟨rfl, rfl, .inr rfl⟩
      · exact ⟨rfl, rfl, .inl rfl⟩
    · exact ⟨rfl, rfl, .inl rfl⟩
  · exact ⟨rfl, rfl, .inl rfl⟩

/-- A framebuffer of the descriptor's file is removed, and no other. -/
theorem rmFb_find? {id : FbId} {file : FileId} {fb : DrmFramebuffer}
    (hdevice : k.fds.find? device = some (.device file)) (hfb : k.fbs.find? id = some fb)
    (hfile : fb.file = file) (j : FbId) :
    (k.rmFb device id).fbs.find? j = if j = id then none else k.fbs.find? j := by
  simp [rmFb, hdevice, hfb, hfile]

/-! ### The frame of a holder's calls -/

/-- The descriptors of others stay, and their framebuffers as long as they have the file open;
`newFb` says which framebuffers are added. -/
structure Spares (otherFd : ℕ → Prop) (otherFb newFb : FbId → Prop) (k k' : Kernel) : Prop where
  fds : ∀ n, otherFd n → k'.fds.find? n = k.fds.find? n
  fbs : ∀ n id fb, otherFd n → k.fds.find? n = some (.device fb.file) → otherFb id →
    k.fbs.find? id = some fb → k'.fbs.find? id = some fb
  added : ∀ id fb, k'.fbs.find? id = some fb → newFb id ∨ k.fbs.find? id = some fb

namespace Spares

variable {otherFd : ℕ → Prop} {otherFb newFb : FbId → Prop} {k'' : Kernel}

theorem refl (k : Kernel) : Spares otherFd otherFb newFb k k :=
  ⟨fun _ _ => rfl, fun _ _ _ _ _ _ h => h, fun _ _ => .inr⟩

theorem trans (h : Spares otherFd otherFb newFb k k') (h' : Spares otherFd otherFb newFb k' k'') :
    Spares otherFd otherFb newFb k k'' where
  fds n hn := (h'.fds n hn).trans (h.fds n hn)
  fbs n id fb hn hfile hid hfb :=
    h'.fbs n id fb hn ((h.fds n hn).trans hfile) hid (h.fbs n id fb hn hfile hid hfb)
  added id fb hfb := (h'.added id fb hfb).elim .inl (h.added id fb)

theorem mono {newFb' : FbId → Prop} (h : Spares otherFd otherFb newFb k k')
    (hnew : ∀ id, newFb id → newFb' id) : Spares otherFd otherFb newFb' k k' :=
  ⟨h.fds, h.fbs, fun id fb hfb => (h.added id fb hfb).imp_left (hnew id)⟩

/-- Calls on handles. -/
theorem of_same (hfds : k'.fds = k.fds) (hfbs : k'.fbs = k.fbs) :
    Spares otherFd otherFb newFb k k' :=
  ⟨fun n _ => by rw [hfds], fun _ _ _ _ _ _ h => hfbs ▸ h, fun _ _ h => .inr (hfbs ▸ h)⟩

/-- Descriptors that are added. -/
theorem of_kept (hfds : ∀ n, k.Opened n → k'.fds.find? n = k.fds.find? n) (hfbs : k'.fbs = k.fbs)
    (hopened : ∀ n, otherFd n → k.Opened n) : Spares otherFd otherFb newFb k k' :=
  ⟨fun n hn => hfds n (hopened n hn), fun _ _ _ _ _ _ h => hfbs ▸ h, fun _ _ h => .inr (hfbs ▸ h)⟩

/-- A framebuffer that is added under a free id. -/
theorem of_added {id : FbId} {fb : DrmFramebuffer} (hfds : k'.fds = k.fds)
    (hfbs : k'.fbs = k.fbs.insertOrAssign id fb) (hfree : k.fbs.find? id = none) (hnew : newFb id) :
    Spares otherFd otherFb newFb k k' := by
  refine ⟨fun n _ => by rw [hfds], fun _ id' fb' _ _ _ hfb => ?_, fun id' fb' hfb => ?_⟩
  · have hne : id' ≠ id := by
      rintro rfl
      rw [hfree] at hfb
      cases hfb
    rw [hfbs]
    simpa [hne] using hfb
  · by_cases hid : id' = id
    · exact .inl (hid ▸ hnew)
    · refine .inr ?_
      rw [hfbs] at hfb
      simpa [hid] using hfb

theorem close (hn : ¬ otherFd n) : Spares otherFd otherFb newFb k (k.close n) := by
  have hne : ∀ j, otherFd j → j ≠ n := fun j hj heq => hn (heq ▸ hj)
  refine ⟨fun j hj => ?_, fun j id fb hj hfile _ hfb => ?_, fun _ _ h => .inr (fbs_of_close h)⟩
  · rw [close_fds]
    simp [hne j hj]
  · exact (close_of_referred (hne j hj) hfile).2 id fb hfb rfl

theorem rmFb {id : FbId} (hid : ¬ otherFb id) :
    Spares otherFd otherFb newFb k (k.rmFb device id) := by
  obtain ⟨hfds, -, hfbs | hfbs⟩ := rmFb_same k device id
  · exact of_same hfds hfbs
  · refine ⟨fun j _ => by rw [hfds], fun _ id' fb _ _ hid' hfb => ?_, fun id' fb hfb => .inr ?_⟩
    · have hne : id' ≠ id := fun heq => hid (heq ▸ hid')
      rw [hfbs]
      simpa [hne] using hfb
    · rw [hfbs, Table.find?_eq_some] at hfb
      exact Table.find?_eq_some.mpr (Table.mem_erase.mp hfb).2

end Spares

/-! ### What a holder opens and closes -/

section

variable {ι : Type*} [DecidableEq ι] {i : ι} {holds : ι → List ℕ} {mine : List ℕ}

theorem has_dupFd {answer : Except Errc ℕ} {m : ℕ} (h : Has i holds mine k.Opened)
    (hok : k.dupFd n answer = .ok (k', m)) : Has i holds (m :: mine) k'.Opened := by
  obtain ⟨d, -, hnew, rfl⟩ := dupFd_ok hok
  exact h.gain hnew fun j => Table.contains_insertOrAssign k.fds m j d

theorem has_close (h : Has i holds (n :: mine) k.Opened) : Has i holds mine (k.close n).Opened := by
  refine h.lose fun j => ?_
  rw [Opened, close_fds]
  exact Table.contains_erase k.fds n j

end

end Kernel

end DrmCxx.Scene.Detail
