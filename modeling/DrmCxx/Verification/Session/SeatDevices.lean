import DrmCxx.Lib.Run
import DrmCxx.Session.Seat

/-!
# The devices a seat opens and closes

A seat under any sequence of calls, from its users, from libinput and from its own callbacks. A
ledger of what is open at libseat is set against the seat's map: an open device is under its path,
and only there, so what the seat closes is open, and nothing is left when the seat goes.
-/

namespace DrmCxx.Session

open Lib

/-! ### Runs -/

inductive SeatEvent
  | takeDevice (path : DevicePath) (preserve : Bool) (answer : Except Errc DeviceHandle)
      (slot : MapSlot)
  | releaseDevice (path : DevicePath)
  | openInput (path : DevicePath) (answer : Except Errc DeviceHandle) (slot : MapSlot)
  | closeInput (fd : Fd)
  | disable
  /-- The seat is enabled; a loop over the devices begins and makes its first turn. -/
  | enable (answer : Except Errc DeviceHandle)
  /-- The callback has returned, and the innermost loop makes its next turn. -/
  | enableNext (answer : Except Errc DeviceHandle)
  | destroy

def SeatEvent.call (s : Seat) : SeatEvent → SeatCall
  | takeDevice path preserve answer slot => (s.takeDevice path preserve answer slot).1
  | releaseDevice path => s.releaseDevice path
  | openInput path answer slot => s.openInput path answer slot
  | closeInput fd => s.closeInput fd
  | disable => s.onDisable
  | enable answer => s.onEnable answer
  | enableNext answer => s.enableNext answer
  | destroy => s.destroy

/-- A device open at libseat. -/
structure OpenDevice where
  /-- How many were opened before it: ids come again. -/
  serial : ℕ
  id : DeviceId
  path : DevicePath
  deriving DecidableEq, Repr

structure SeatTrace where
  seat : Seat := {}
  opens : ℕ := 0
  opened : List OpenDevice := []
  /-- The device each descriptor of the input opener was opened as. -/
  inputs : Fd → Option ℕ := fun _ => none

namespace Seat

/-- The device the map has under a path. -/
def deviceAt (s : Seat) (path : DevicePath) : Option DeviceId :=
  ((s.devices.get path).bind (·.handle)).map (·.deviceId)

theorem deviceAt_of_get {s : Seat} {path : DevicePath} {dev : Option TrackedDevice}
    (h : s.devices.get path = dev) :
    s.deviceAt path = (dev.bind (·.handle)).map (·.deviceId) := by
  rw [deviceAt, h]

theorem takeDevice_cases (s : Seat) (path : DevicePath) (preserve : Bool)
    (answer : Except Errc DeviceHandle) (slot : MapSlot) :
    (s.takeDevice path preserve answer slot).1 = { seat := s } ∨
      ∃ handle, s.seat = true ∧ s.active = true ∧ s.deviceAt path = none ∧ answer = .ok handle ∧
        (s.takeDevice path preserve answer slot).1 =
          { seat := s.assign path ⟨handle, preserve⟩ slot
            opened := some (handle.deviceId, path) } := by
  by_cases hopen : (!s.seat || !s.active) = true
  · exact .inl (by simp only [takeDevice, hopen, if_true])
  simp only [takeDevice, hopen, Bool.false_eq_true, if_false]
  simp only [Bool.or_eq_true, Bool.not_eq_true', not_or, Bool.not_eq_false] at hopen
  split
  · exact .inl rfl
  · exact .inl rfl
  · rename_i handle hnone
    exact .inr ⟨handle, hopen.1, hopen.2, by rw [deviceAt, hnone]; rfl, rfl, rfl⟩

theorem openInput_cases (s : Seat) (path : DevicePath) (answer : Except Errc DeviceHandle)
    (slot : MapSlot) :
    s.openInput path answer slot = { seat := s } ∨
      ∃ handle, s.seat = true ∧ s.active = true ∧ answer = .ok handle ∧
        s.openInput path answer slot =
          { seat := { s.assign path { handle } slot with
              tracked := Function.update s.tracked handle.fd (some path) }
            opened := some (handle.deviceId, path) } := by
  by_cases hopen : (!s.seat || !s.active) = true
  · exact .inl (by simp only [openInput, hopen, if_true])
  simp only [openInput, hopen, Bool.false_eq_true, if_false]
  simp only [Bool.or_eq_true, Bool.not_eq_true', not_or, Bool.not_eq_false] at hopen
  cases answer with
  | error e => exact .inl rfl
  | ok handle => exact .inr ⟨handle, hopen.1, hopen.2, rfl, rfl⟩

/-- A closed input descriptor closes what the map has under its path. -/
theorem closeInput_cases (s : Seat) (fd : Fd) :
    s.tracked fd = none ∧ s.closeInput fd = { seat := s } ∨
      ∃ path, s.tracked fd = some path ∧
        (s.seat = false ∧
            s.closeInput fd = { seat := { s with tracked := Function.update s.tracked fd none } } ∨
          s.closeInput fd =
            closeDevice { s with tracked := Function.update s.tracked fd none } path) := by
  rw [closeInput]
  cases htracked : s.tracked fd with
  | none => exact .inl ⟨rfl, rfl⟩
  | some path =>
    cases hseat : s.seat with
    | false => exact .inr ⟨path, rfl, .inl ⟨rfl, by simp⟩⟩
    | true => exact .inr ⟨path, rfl, .inr (by simp)⟩

theorem closeDevice_closed (s : Seat) (path : DevicePath) :
    (s.closeDevice path).closed = (s.deviceAt path).toList := by
  rw [closeDevice]
  cases hget : s.devices.get path with
  | none =>
    rw [deviceAt_of_get hget]
    rfl
  | some dev =>
    rw [deviceAt_of_get hget]
    rfl

theorem closeDevice_tracked (s : Seat) (path : DevicePath) :
    (s.closeDevice path).seat.tracked = s.tracked := by
  rw [closeDevice]
  split <;> rfl

theorem enableNext_tracked (s : Seat) (answer : Except Errc DeviceHandle) :
    (s.enableNext answer).seat.tracked = s.tracked := by
  simp only [enableNext]
  split
  · rfl
  split
  · rfl
  split
  · rfl
  split <;> rfl

end Seat

namespace SeatTrace

/-- What is open once `closed` was closed and `new` opened. -/
def openedAfter (t : SeatTrace) (closed : List DeviceId) (new : Option (DeviceId × DevicePath)) :
    List OpenDevice :=
  t.opened.filter (·.id ∉ closed) ++ (new.map fun d => ⟨t.opens, d.1, d.2⟩).toList

/-- The descriptors of the input opener, once the step opened `new`. -/
def inputsAfter (t : SeatTrace) (new : Option (DeviceId × DevicePath)) :
    SeatEvent → Fd → Option ℕ
  | .openInput _ (.ok handle) _ =>
    if new.isSome then Function.update t.inputs handle.fd (some t.opens) else t.inputs
  | .closeInput fd => Function.update t.inputs fd none
  | _ => t.inputs

def step (t : SeatTrace) (e : SeatEvent) : SeatTrace :=
  let call := e.call t.seat
  { seat := call.seat
    opens := t.opens + call.opened.toList.length
    opened := t.openedAfter call.closed call.opened
    inputs := t.inputsAfter call.opened e }

/-- What one step has to do for every device to be opened and closed once. -/
structure Sound (t : SeatTrace) (e : SeatEvent) : Prop where
  defined : (e.call t.seat).undefined = false
  closes : (e.call t.seat).closed.Nodup ∧ ∀ id ∈ (e.call t.seat).closed, ∃ o ∈ t.opened, o.id = id
  named : ∀ o ∈ (t.step e).opened, (t.step e).seat.deviceAt o.path = some o.id
  one : ∀ o ∈ (t.step e).opened, ∀ o' ∈ (t.step e).opened, o.path = o'.path → o = o'
  /-- What an input descriptor was opened as is closed with it, unless it is closed already. -/
  input : ∀ fd n, e = .closeInput fd → t.inputs fd = some n →
    (e.call t.seat).closed = ((t.opened.find? (·.serial = n)).map (·.id)).toList
  destroyed : e = .destroy → (t.step e).opened = []
  /-- A loop that ends has told of every device it had to open anew, once. -/
  notified : ∀ loop ∈ (e.call t.seat).finished, ∀ n ∈ loop.held,
    (loop.notices.map (·.node)).count n = 1
  /-- A callback is told the descriptor that is now open, opened in the step if it is not
  preserved, or that there is none. -/
  fresh : ∀ k ∈ (e.call t.seat).notice, ∃ dev, (t.step e).seat.devices.get k.path = some dev ∧
    k.told.toOption = dev.handle.map (fun handle => some handle.fd) ∧
    (dev.preserveFdAcrossResume = false →
      ∀ o ∈ (t.step e).opened, o.path = k.path → t.opens ≤ o.serial)

/-- libseat gives no id that another open device has. -/
def Answers (t : SeatTrace) (e : SeatEvent) : Prop :=
  ∀ d ∈ (e.call t.seat).opened, ∀ o ∈ t.opened, o.id = d.1 → o.id ∈ (e.call t.seat).closed

/-- No iterator of a running loop is lost to a new entry. -/
def Unrehashed (s : Seat) (path : DevicePath) (slot : MapSlot) : Prop :=
  s.devices.get path = none → slot.rehash → s.loops = []

/-- No running loop is at the device, or has still to open it anew. -/
def Removable (s : Seat) (path : DevicePath) : Prop :=
  ∀ entry ∈ s.devices.entries, entry.key = path → ∀ loop ∈ s.loops,
    loop.last ≠ some entry.node ∧
      (entry.node ∈ loop.held → entry.node ∉ after s.devices.nodes loop.last)

/-- The opener opens no path that is held; an input descriptor is closed while the device under
its path is the one it was opened as; and no callback of a running loop gives up a device the loop
is at or has still to open anew, makes the map rehash or destroys the seat. -/
def Kept (t : SeatTrace) : SeatEvent → Prop
  | .takeDevice path _ answer slot => t.seat.active → answer.isOk → Unrehashed t.seat path slot
  | .releaseDevice path => Removable t.seat path
  | .openInput path answer slot => t.seat.active → answer.isOk →
      t.seat.deviceAt path = none ∧ Unrehashed t.seat path slot
  | .closeInput fd => ∀ path ∈ t.seat.tracked fd, Removable t.seat path ∧
      ∀ n ∈ t.inputs fd, ∀ id ∈ t.seat.deviceAt path, ∃ o ∈ t.opened, o.id = id ∧ o.serial = n
  | .destroy => t.seat.loops = []
  | _ => True

instance (t : SeatTrace) (e : SeatEvent) : Decidable (Answers t e) :=
  inferInstanceAs (Decidable (∀ d ∈ (e.call t.seat).opened, ∀ o ∈ t.opened,
    o.id = d.1 → o.id ∈ (e.call t.seat).closed))

instance (s : Seat) (path : DevicePath) (slot : MapSlot) : Decidable (Unrehashed s path slot) :=
  inferInstanceAs (Decidable (_ = none → _ → s.loops = []))

instance (s : Seat) (path : DevicePath) : Decidable (Removable s path) :=
  inferInstanceAs (Decidable (∀ entry ∈ s.devices.entries, entry.key = path → ∀ loop ∈ s.loops,
    loop.last ≠ some entry.node ∧
      (entry.node ∈ loop.held → entry.node ∉ after s.devices.nodes loop.last)))

instance (t : SeatTrace) : ∀ e, Decidable (t.Kept e)
  | .takeDevice path _ answer slot =>
    inferInstanceAs (Decidable (_ → answer.isOk → Unrehashed t.seat path slot))
  | .releaseDevice path => inferInstanceAs (Decidable (Removable t.seat path))
  | .openInput path answer slot =>
    inferInstanceAs (Decidable (t.seat.active → answer.isOk →
      t.seat.deviceAt path = none ∧ Unrehashed t.seat path slot))
  | .closeInput fd =>
    inferInstanceAs (Decidable (∀ path ∈ t.seat.tracked fd, Removable t.seat path ∧
      ∀ n ∈ t.inputs fd, ∀ id ∈ t.seat.deviceAt path, ∃ o ∈ t.opened, o.id = id ∧ o.serial = n))
  | .destroy => inferInstanceAs (Decidable (t.seat.loops = []))
  | .disable | .enable _ | .enableNext _ => isTrue trivial

/-! ### The invariant -/

/-- A loop's iterator is in the map, and of the devices it has to open anew it has told of those
behind it, once, and of none ahead. -/
structure Accounts (devices : NodeMap DevicePath TrackedDevice) (loop : EnableLoop) : Prop where
  valid : loop.valid = true
  last : ∀ n ∈ loop.last, n ∈ devices.nodes
  held_lt : ∀ n ∈ loop.held, n < devices.next
  counted : ∀ n ∈ loop.held,
    n ∈ after devices.nodes loop.last ∧ (loop.notices.map (·.node)).count n = 0 ∨
      n ∉ after devices.nodes loop.last ∧ (loop.notices.map (·.node)).count n = 1

/-- What is open is under its path, and what is under a path is open. -/
structure Ledger (t : SeatTrace) : Prop where
  nodup_ids : (t.opened.map (·.id)).Nodup
  nodup_serials : (t.opened.map (·.serial)).Nodup
  serial_lt : ∀ o ∈ t.opened, o.serial < t.opens
  holds : ∀ path id, t.seat.deviceAt path = some id ↔ ∃ o ∈ t.opened, o.path = path ∧ o.id = id

structure Inv (t : SeatTrace) : Prop extends Ledger t where
  inputs : ∀ fd n, t.inputs fd = some n → n < t.opens ∧
    ∃ path, t.seat.tracked fd = some path ∧ ∀ o ∈ t.opened, o.serial = n → o.path = path
  loops : ∀ loop ∈ t.seat.loops, Accounts t.seat.devices loop
  preserved : ∀ path dev, t.seat.devices.get path = some dev → dev.preserveFdAcrossResume →
    dev.handle.isSome
  closed : t.seat.seat = false → t.opened = [] ∧ t.seat.loops = []

theorem inv_init : Inv {} := by
  refine ⟨⟨List.nodup_nil, List.nodup_nil, nofun, fun path id => ?_⟩, nofun, nofun, nofun, nofun⟩
  exact ⟨nofun, fun ⟨o, ho, _⟩ => absurd ho nofun⟩

/-! ### What a call does to the ledger -/

/-- The call closes what was under `path` and leaves `new` there. -/
structure Rebinds (s : Seat) (c : SeatCall) (path : DevicePath) (new : Option DeviceId) :
    Prop where
  closed : c.closed = (s.deviceAt path).toList
  opened : c.opened = new.map (·, path)
  others : ∀ p, p ≠ path → c.seat.deviceAt p = s.deviceAt p
  here : c.seat.deviceAt path = new

theorem Ledger.eq_of_id {t : SeatTrace} (h : t.Ledger) {o o' : OpenDevice} (ho : o ∈ t.opened)
    (ho' : o' ∈ t.opened) (hid : o.id = o'.id) : o = o' :=
  List.inj_on_of_nodup_map h.nodup_ids ho ho' hid

theorem Ledger.eq_of_path {t : SeatTrace} (h : t.Ledger) {o o' : OpenDevice} (ho : o ∈ t.opened)
    (ho' : o' ∈ t.opened) (hpath : o.path = o'.path) : o = o' := by
  refine h.eq_of_id ho ho' (Option.some.inj ?_)
  rw [← (h.holds o.path o.id).mpr ⟨o, ho, rfl, rfl⟩,
    ← (h.holds o'.path o'.id).mpr ⟨o', ho', rfl, rfl⟩, hpath]

theorem mem_openedAfter {t : SeatTrace} {closed : List DeviceId}
    {new : Option (DeviceId × DevicePath)} {o : OpenDevice} :
    o ∈ t.openedAfter closed new ↔
      o ∈ t.opened ∧ o.id ∉ closed ∨ ∃ d ∈ new, o = ⟨t.opens, d.1, d.2⟩ := by
  cases new with
  | none => simp [openedAfter]
  | some d => simp [openedAfter]

/-- A call that closes only what is open closes it once. -/
theorem Rebinds.closes {t : SeatTrace} (h : t.Ledger) {c : SeatCall} {path : DevicePath}
    {new : Option DeviceId} (hc : Rebinds t.seat c path new) :
    c.closed.Nodup ∧ ∀ id ∈ c.closed, ∃ o ∈ t.opened, o.id = id := by
  rw [hc.closed]
  refine ⟨?_, fun id hid => ?_⟩
  · cases t.seat.deviceAt path <;> simp
  · obtain ⟨o, ho, -, hoid⟩ := (h.holds path id).mp (Option.mem_toList.mp hid)
    exact ⟨o, ho, hoid⟩

/-- What a call that rebinds a path closes is what was open there. -/
theorem Rebinds.mem_closed {t : SeatTrace} (h : t.Ledger) {c : SeatCall} {path : DevicePath}
    {new : Option DeviceId} (hc : Rebinds t.seat c path new) {o : OpenDevice} (ho : o ∈ t.opened) :
    o.id ∈ c.closed ↔ o.path = path := by
  rw [hc.closed, Option.mem_toList, h.holds]
  constructor
  · rintro ⟨o', ho', rfl, hid⟩
    rw [h.eq_of_id ho' ho hid]
  · rintro rfl
    exact ⟨o, ho, rfl, rfl⟩

/-- What is open after a call that rebinds a path. -/
theorem Ledger.rebinds {t : SeatTrace} (h : t.Ledger) {c : SeatCall} {path : DevicePath}
    {new : Option DeviceId} (hc : Rebinds t.seat c path new)
    (hfresh : ∀ id ∈ new, ∀ o ∈ t.opened, o.id = id → o.id ∈ c.closed) (inputs : Fd → Option ℕ) :
    Ledger ⟨c.seat, t.opens + c.opened.toList.length, t.openedAfter c.closed c.opened, inputs⟩ := by
  have hkept : List.Sublist (t.opened.filter (·.id ∉ c.closed)) t.opened := List.filter_sublist
  have hmem : ∀ o, o ∈ t.openedAfter c.closed c.opened ↔
      o ∈ t.opened ∧ o.path ≠ path ∨ ∃ id ∈ new, o = ⟨t.opens, id, path⟩ := fun o => by
    rw [mem_openedAfter, hc.opened]
    refine or_congr ?_ ?_
    · exact and_congr_right fun ho => not_congr (hc.mem_closed h ho)
    · cases new <;> simp
  have hnew : ∀ d ∈ (c.opened.map fun d => (⟨t.opens, d.1, d.2⟩ : OpenDevice)).toList,
      ∃ id ∈ new, d = ⟨t.opens, id, path⟩ := fun d hd => by
    rw [hc.opened] at hd
    cases new <;> simp_all
  have hone : (c.opened.map fun d => (⟨t.opens, d.1, d.2⟩ : OpenDevice)).toList.Pairwise
      fun _ _ => False := by
    cases c.opened <;> simp
  constructor
  case nodup_ids =>
    rw [openedAfter, List.map_append]
    refine (h.nodup_ids.sublist (hkept.map _)).append (List.Pairwise.map _ (by simp) hone) ?_
    rintro _ hold hid
    obtain ⟨o, ho, rfl⟩ := List.mem_map.mp hold
    obtain ⟨d, hd, heq⟩ := List.mem_map.mp hid
    obtain ⟨id, hid, rfl⟩ := hnew d hd
    obtain ⟨ho, hopen⟩ := List.mem_filter.mp ho
    exact absurd (hfresh id hid o ho heq.symm) (by simpa using hopen)
  case nodup_serials =>
    rw [openedAfter, List.map_append]
    refine (h.nodup_serials.sublist (hkept.map _)).append (List.Pairwise.map _ (by simp) hone) ?_
    rintro _ hold hserial
    obtain ⟨o, ho, rfl⟩ := List.mem_map.mp hold
    obtain ⟨d, hd, heq⟩ := List.mem_map.mp hserial
    obtain ⟨id, -, rfl⟩ := hnew d hd
    exact absurd heq (h.serial_lt o (hkept.subset ho)).ne'
  case serial_lt =>
    intro o ho
    rcases (hmem o).mp ho with ⟨ho, -⟩ | ⟨id, hid, rfl⟩
    · exact (h.serial_lt o ho).trans_le (Nat.le_add_right _ _)
    · rw [hc.opened]
      cases hid
      exact Nat.lt_succ_self _
  case holds =>
    intro p id
    simp only [hmem]
    by_cases hp : p = path
    · subst hp
      rw [hc.here]
      constructor
      · rintro rfl
        exact ⟨_, .inr ⟨id, rfl, rfl⟩, rfl, rfl⟩
      · rintro ⟨o, ⟨-, hne⟩ | ⟨id', hid, rfl⟩, hpath, rfl⟩
        · exact absurd hpath hne
        · exact hid
    · rw [hc.others p hp, h.holds]
      constructor
      · rintro ⟨o, ho, rfl, hid⟩
        exact ⟨o, .inl ⟨ho, hp⟩, rfl, hid⟩
      · rintro ⟨o, ⟨ho, -⟩ | ⟨id', -, rfl⟩, hpath, hid⟩
        · exact ⟨o, ho, hpath, hid⟩
        · exact absurd hpath.symm hp

/-! ### What a call does to the loops -/

/-- A loop goes on where the nodes stay, whatever is added. -/
theorem Accounts.of_sublist {m m' : NodeMap DevicePath TrackedDevice} {loop : EnableLoop}
    (h : Accounts m loop) (hsub : m.nodes.Sublist m'.nodes) (hnext : m.next ≤ m'.next)
    (hold : ∀ n < m.next, n ∈ m'.nodes → n ∈ m.nodes) : Accounts m' loop where
  valid := h.valid
  last n hn := hsub.subset (h.last n hn)
  held_lt n hn := (h.held_lt n hn).trans_le hnext
  counted n hn := by
    rcases h.counted n hn with ⟨hmem, hcount⟩ | ⟨hmem, hcount⟩
    · have hiff := mem_after_iff_of_sublist hsub m'.nodup_nodes h.last (mem_of_mem_after hmem)
      exact .inl ⟨hiff.mp hmem, hcount⟩
    · refine .inr ⟨fun hmem' => hmem ?_, hcount⟩
      have hn' := hold n (h.held_lt n hn) (mem_of_mem_after hmem')
      exact (mem_after_iff_of_sublist hsub m'.nodup_nodes h.last hn').mpr hmem'

/-- A loop goes on where what is given up is neither where it is nor what it waits for. -/
theorem Accounts.erase {m : NodeMap DevicePath TrackedDevice} {loop : EnableLoop}
    (h : Accounts m loop) {path : DevicePath}
    (hpath : ∀ entry ∈ m.entries, entry.key = path → loop.last ≠ some entry.node ∧
      (entry.node ∈ loop.held → entry.node ∉ after m.nodes loop.last)) :
    Accounts (m.erase path) loop where
  valid := h.valid
  last n hn := NodeMap.mem_nodes_erase (h.last n hn) fun entry he hkey heq =>
    (hpath entry he hkey).1 (heq ▸ hn)
  held_lt := h.held_lt
  counted n hn := by
    have hsub := m.nodes_erase_sublist path
    have hlast : ∀ n ∈ loop.last, n ∈ (m.erase path).nodes := fun n hn =>
      NodeMap.mem_nodes_erase (h.last n hn) fun entry he hkey heq =>
        (hpath entry he hkey).1 (heq ▸ hn)
    rcases h.counted n hn with ⟨hmem, hcount⟩ | ⟨hmem, hcount⟩
    · have hn' : n ∈ (m.erase path).nodes := by
        refine NodeMap.mem_nodes_erase (mem_of_mem_after hmem) fun entry he hkey heq => ?_
        subst heq
        exact (hpath entry he hkey).2 hn hmem
      exact .inl ⟨(mem_after_iff_of_sublist hsub m.nodup_nodes hlast hn').mpr hmem, hcount⟩
    · refine .inr ⟨fun hmem' => hmem ?_, hcount⟩
      exact (mem_after_iff_of_sublist hsub m.nodup_nodes hlast (mem_of_mem_after hmem')).mp hmem'

/-- A turn of a loop tells of the first device ahead. -/
theorem Accounts.visit {m : NodeMap DevicePath TrackedDevice} {loop : EnableLoop}
    (h : Accounts m loop) {entry : Node DevicePath TrackedDevice}
    {rest : List (Node DevicePath TrackedDevice)} (hrest : m.rest loop.last = entry :: rest)
    {notice : Notice} (hnotice : notice.node = entry.node) :
    Accounts m { loop with last := some entry.node, notices := loop.notices ++ [notice] } := by
  have hafter : after m.nodes loop.last = entry.node :: rest.map (·.node) := by
    rw [← m.map_node_rest, hrest, List.map_cons]
  have hnext : after m.nodes (some entry.node) = rest.map (·.node) :=
    after_next m.nodup_nodes hafter
  have hnot : entry.node ∉ rest.map (·.node) := by
    have hnodup := m.nodup_nodes.sublist (after_suffix m.nodes loop.last).sublist
    rw [hafter, List.nodup_cons] at hnodup
    exact hnodup.1
  refine ⟨h.valid, ?_, h.held_lt, fun n hn => ?_⟩
  · rintro _ ⟨⟩
    exact mem_of_mem_after (hafter ▸ List.mem_cons_self)
  · have hcounted := h.counted n hn
    rw [hafter, List.mem_cons] at hcounted
    simp only [hnext, List.map_append, List.count_append, List.map_singleton, hnotice]
    by_cases heq : n = entry.node
    · subst heq
      have hcount : (loop.notices.map (·.node)).count entry.node = 0 := by simpa using hcounted
      exact .inr ⟨hnot, by simp [hcount]⟩
    · simpa [heq, Ne.symm heq] using hcounted

/-! ### The calls -/

inductive Edits (s : Seat) (c : SeatCall) : Prop
  | same (hclosed : c.closed = []) (hopened : c.opened = none)
      (hsame : ∀ p, c.seat.deviceAt p = s.deviceAt p)
  | rebinds (path : DevicePath) (new : Option DeviceId) (h : Rebinds s c path new)

/-- What a call does on a seat that keeps the invariant. -/
structure Spec (t : SeatTrace) (c : SeatCall) : Prop where
  edits : Edits t.seat c
  loops : ∀ loop ∈ c.seat.loops, Accounts c.seat.devices loop
  preserved : ∀ path dev, c.seat.devices.get path = some dev → dev.preserveFdAcrossResume →
    dev.handle.isSome
  closed : c.seat.seat = false → t.seat.seat = false ∧ c.opened = none ∧ c.seat.loops = []
  defined : c.undefined = false
  notified : ∀ loop ∈ c.finished, ∀ n ∈ loop.held, (loop.notices.map (·.node)).count n = 1

theorem spec_same {t : SeatTrace} (h : t.Inv) {s : Seat} (hdevices : s.devices = t.seat.devices)
    (hloops : s.loops = t.seat.loops) (hseat : s.seat = t.seat.seat) : Spec t { seat := s } where
  edits := .same rfl rfl fun p => by rw [Seat.deviceAt, hdevices]; rfl
  loops := by rw [hloops, hdevices]; exact h.loops
  preserved := by rw [hdevices]; exact h.preserved
  closed hclosed := ⟨hseat ▸ hclosed, rfl, hloops ▸ (h.closed (hseat ▸ hclosed)).2⟩
  defined := rfl
  notified := nofun

/-- A device is opened under a path where none is. -/
theorem spec_assign {t : SeatTrace} (h : t.Inv) {path : DevicePath} {handle : DeviceHandle}
    {preserve : Bool} {slot : MapSlot} (hopen : t.seat.seat = true)
    (hfree : t.seat.deviceAt path = none) (hslot : Unrehashed t.seat path slot)
    (tracked : Fd → Option DevicePath) :
    Spec t { seat := { t.seat.assign path ⟨handle, preserve⟩ slot with tracked }
             opened := some (handle.deviceId, path) } := by
  have hget := t.seat.devices.get_assign path ⟨handle, preserve⟩ slot.slot
  have hloops : (t.seat.assign path ⟨handle, preserve⟩ slot).loops = t.seat.loops := by
    rw [Seat.assign]
    split
    · rename_i hnew
      rw [hslot hnew.1 hnew.2, List.map_nil]
    · rfl
  constructor
  case edits =>
    refine .rebinds path (some handle.deviceId) ⟨by rw [hfree]; rfl, rfl, fun p hp => ?_, ?_⟩
    · rw [Seat.deviceAt, Seat.deviceAt, Seat.assign, hget, if_neg hp]
    · rw [Seat.deviceAt, Seat.assign, hget, if_pos rfl]
      rfl
  case loops =>
    intro loop hloop
    exact (h.loops loop (hloops ▸ hloop)).of_sublist (NodeMap.nodes_assign_sublist _ _ _ _)
      (NodeMap.next_le_assign _ _ _ _) fun n hn hmem => NodeMap.mem_nodes_of_assign hmem hn
  case preserved =>
    intro p dev hdev hpreserved
    replace hdev := (hget p).symm.trans hdev
    split at hdev
    · obtain rfl := Option.some.inj hdev
      rfl
    · exact h.preserved p dev hdev hpreserved
  case closed => exact fun hclosed => absurd (hopen.symm.trans hclosed) (by simp)
  case defined => rfl
  case notified => simp

/-- A path is given up, and its device closed. -/
theorem spec_closeDevice {t : SeatTrace} (h : t.Inv) {s : Seat}
    (hdevices : s.devices = t.seat.devices) (hloops : s.loops = t.seat.loops)
    (hseat : s.seat = t.seat.seat) {path : DevicePath} (hremovable : Removable t.seat path) :
    Spec t (s.closeDevice path) := by
  rw [Seat.closeDevice, hdevices]
  cases hget : t.seat.devices.get path with
  | none => exact spec_same h hdevices hloops hseat
  | some dev =>
    have herase := t.seat.devices.get_erase path
    constructor
    case edits =>
      refine .rebinds path none ⟨?_, rfl, fun p hp => ?_, ?_⟩
      · rw [Seat.deviceAt_of_get hget]
        rfl
      · rw [Seat.deviceAt, Seat.deviceAt, herase, if_neg hp]
      · rw [Seat.deviceAt, herase, if_pos rfl]
        rfl
    case loops =>
      intro loop hloop
      replace hloop : loop ∈ t.seat.loops := hloops ▸ hloop
      exact (h.loops loop hloop).erase fun entry he hkey => hremovable entry he hkey loop hloop
    case preserved =>
      intro p dev hdev hpreserved
      replace hdev := (herase p).symm.trans hdev
      split at hdev
      · cases hdev
      · exact h.preserved p dev hdev hpreserved
    case closed =>
      exact fun hclosed => ⟨hseat ▸ hclosed, rfl, hloops ▸ (h.closed (hseat ▸ hclosed)).2⟩
    case defined => rfl
    case notified => simp

/-- A turn of the innermost loop: it ends, or tells of the next device. -/
theorem spec_enableNext {t : SeatTrace} (h : t.Inv) (answer : Except Errc DeviceHandle) :
    Spec t (t.seat.enableNext answer) ∧
      ∀ k ∈ (t.seat.enableNext answer).notice, ∃ dev,
        (t.seat.enableNext answer).seat.devices.get k.path = some dev ∧
        k.told.toOption = dev.handle.map (fun handle => some handle.fd) ∧
        (dev.preserveFdAcrossResume = false →
          (t.seat.enableNext answer).closed = (t.seat.deviceAt k.path).toList) := by
  cases hloops : t.seat.loops with
  | nil =>
    simp only [Seat.enableNext, hloops]
    exact ⟨spec_same h rfl rfl rfl, by simp⟩
  | cons loop loops =>
    have hloop := h.loops loop (hloops ▸ List.mem_cons_self)
    have hrestInv : ∀ l ∈ loops, Accounts t.seat.devices l := fun l hl =>
      h.loops l (hloops ▸ List.mem_cons_of_mem _ hl)
    have hopen : t.seat.seat ≠ false := fun hclosed => by
      simp [(h.closed hclosed).2] at hloops
    have hvalid : ¬ (!loop.valid || loop.last.any (· ∉ t.seat.devices.nodes)) = true := by
      have hlast := hloop.last
      cases hl : loop.last <;> simp_all [hloop.valid]
    cases hrest : t.seat.devices.rest loop.last with
    | nil =>
      simp only [Seat.enableNext, hloops, hvalid, hrest, Bool.false_eq_true, if_false]
      refine ⟨⟨.same rfl rfl fun _ => rfl, hrestInv, h.preserved, fun hc => absurd hc hopen, rfl,
        ?_⟩, by simp⟩
      rintro _ ⟨⟩ n hn
      have hafter : after t.seat.devices.nodes loop.last = [] := by
        rw [← NodeMap.map_node_rest, hrest, List.map_nil]
      have hcounted := hloop.counted n hn
      rw [hafter] at hcounted
      simpa using hcounted
    | cons entry rest =>
      obtain ⟨hmem, hget⟩ : entry ∈ t.seat.devices.entries ∧
          t.seat.devices.get entry.key = some entry.value := by
        have hmem := NodeMap.mem_of_mem_rest (hrest ▸ List.mem_cons_self)
        exact ⟨hmem, NodeMap.get_eq_some.mpr ⟨entry, hmem, rfl, rfl⟩⟩
      cases hpreserve : entry.value.preserveFdAcrossResume with
      | true =>
        simp only [Seat.enableNext, hloops, hvalid, hrest, hpreserve, Bool.false_eq_true, if_false,
          if_true]
        refine ⟨⟨.same rfl rfl fun _ => rfl, ?_, h.preserved, fun hc => absurd hc hopen, rfl,
          by simp⟩, ?_⟩
        · intro l hl
          rcases List.mem_cons.mp hl with rfl | hl
          · exact hloop.visit hrest rfl
          · exact hrestInv l hl
        · rintro _ ⟨⟩
          refine ⟨entry.value, hget, ?_, fun hno => absurd (hpreserve.symm.trans hno) (by simp)⟩
          obtain ⟨handle, hhandle⟩ :=
            Option.isSome_iff_exists.mp (h.preserved entry.key entry.value hget hpreserve)
          rw [hhandle]
          rfl
      | false =>
        have hfind : t.seat.devices.find? entry.key ≠ none := fun hnone =>
          NodeMap.find?_eq_none.mp hnone entry hmem rfl
        have hset := NodeMap.get_set hfind ⟨answer.toOption, false⟩
        simp only [Seat.enableNext, hloops, hvalid, hrest, hpreserve, Bool.false_eq_true, if_false]
        have hclosed : (entry.value.handle.map (·.deviceId)).toList =
            (t.seat.deviceAt entry.key).toList := by
          rw [Seat.deviceAt_of_get hget]
          rfl
        refine ⟨⟨.rebinds entry.key (answer.toOption.map (·.deviceId)) ⟨hclosed, ?_, ?_, ?_⟩, ?_,
          ?_, fun hc => absurd hc hopen, rfl, by simp⟩, ?_⟩
        · rw [Option.map_map]
          rfl
        · intro p hp
          exact (Seat.deviceAt_of_get ((hset p).trans (if_neg hp))).trans rfl
        · exact (Seat.deviceAt_of_get ((hset entry.key).trans (if_pos rfl))).trans rfl
        · have hnodes := NodeMap.nodes_set t.seat.devices entry.key
            ⟨answer.toOption, false⟩
          intro l hl
          have hl : Accounts t.seat.devices l := by
            rcases List.mem_cons.mp hl with rfl | hl
            · exact hloop.visit hrest rfl
            · exact hrestInv l hl
          exact hl.of_sublist (by rw [hnodes]) (le_refl _) fun n _ hn => by rwa [hnodes] at hn
        · intro p dev hdev hpreserved
          replace hdev := (hset p).symm.trans hdev
          split at hdev
          · obtain rfl := Option.some.inj hdev
            cases hpreserved
          · exact h.preserved p dev hdev hpreserved
        · rintro _ ⟨⟩
          refine ⟨_, (hset _).trans (if_pos rfl), ?_, fun _ => hclosed⟩
          cases answer <;> rfl

/-- The seat has begun a loop over its devices. -/
def begun (t : SeatTrace) : SeatTrace :=
  { t with seat := { t.seat with
      active := true
      everEnabled := true
      loops := { held := t.seat.toReopen } :: t.seat.loops } }

theorem begun_enableNext {t : SeatTrace} (hseat : t.seat.seat = true)
    (hever : t.seat.everEnabled = true) (answer : Except Errc DeviceHandle) :
    (SeatEvent.enable answer).call t.seat = (SeatEvent.enableNext answer).call t.begun.seat ∧
      t.step (.enable answer) = t.begun.step (.enableNext answer) := by
  have hcall : (SeatEvent.enable answer).call t.seat =
      (SeatEvent.enableNext answer).call t.begun.seat := by
    rw [SeatEvent.call, Seat.onEnable, if_neg (by simp [hseat])]
    dsimp only
    rw [if_neg (by simp [hever])]
    rfl
  refine ⟨hcall, ?_⟩
  rw [step, step, hcall]
  rfl

theorem Inv.begun {t : SeatTrace} (h : t.Inv) (hseat : t.seat.seat = true) : t.begun.Inv := by
  refine { h with
    loops := fun loop hloop => ?_
    closed := fun hclosed => absurd (hseat.symm.trans hclosed) nofun }
  rcases List.mem_cons.mp hloop with rfl | hloop
  · have hheld : ∀ n ∈ t.seat.toReopen, n ∈ t.seat.devices.nodes := fun n hn => by
      obtain ⟨entry, hentry, rfl⟩ := List.mem_map.mp hn
      exact List.mem_map_of_mem (List.mem_of_mem_filter hentry)
    exact ⟨rfl, nofun, fun n hn => NodeMap.node_lt_next (hheld n hn),
      fun n hn => .inl ⟨hheld n hn, rfl⟩⟩
  · exact h.loops loop hloop

/-! ### One step -/

/-- Only the input opener writes its table. -/
theorem call_tracked {s : Seat} {e : SeatEvent} (hopen : ∀ path answer slot,
    e ≠ .openInput path answer slot) (hclose : ∀ fd, e ≠ .closeInput fd) :
    (e.call s).seat.tracked = s.tracked := by
  cases e with
  | takeDevice path preserve answer slot =>
    rw [SeatEvent.call]
    rcases s.takeDevice_cases path preserve answer slot with heq | ⟨_, _, _, _, _, heq⟩
    · rw [heq]
    · rw [heq]
      rfl
  | releaseDevice path =>
    rw [SeatEvent.call, Seat.releaseDevice]
    split
    · rfl
    · exact Seat.closeDevice_tracked s path
  | openInput path answer slot => exact absurd rfl (hopen path answer slot)
  | closeInput fd => exact absurd rfl (hclose fd)
  | disable =>
    rw [SeatEvent.call, Seat.onDisable]
    dsimp only
    split <;> rfl
  | enable answer =>
    rw [SeatEvent.call, Seat.onEnable]
    split
    · rfl
    dsimp only
    split
    · rfl
    · exact Seat.enableNext_tracked _ answer
  | enableNext answer => exact Seat.enableNext_tracked s answer
  | destroy =>
    rw [SeatEvent.call, Seat.destroy]
    split <;> rfl

/-- What a step leaves in the tables of the input opener. -/
theorem inputs_step {t : SeatTrace} {e : SeatEvent} {fd : Fd} {n : ℕ}
    (h : (t.step e).inputs fd = some n) :
    t.inputs fd = some n ∧ (t.step e).seat.tracked fd = t.seat.tracked fd ∨
      ∃ d ∈ (e.call t.seat).opened, n = t.opens ∧ (t.step e).seat.tracked fd = some d.2 := by
  cases e with
  | openInput path answer slot =>
    rcases t.seat.openInput_cases path answer slot with heq | ⟨handle, -, -, rfl, heq⟩
    · refine .inl ⟨?_, ?_⟩
      · cases answer <;>
          simpa only [step, SeatEvent.call, heq, inputsAfter, Option.isSome_none,
            Bool.false_eq_true, if_false] using h
      · simp only [step, SeatEvent.call, heq]
    · simp only [step, SeatEvent.call, heq, inputsAfter, Option.isSome_some, if_true] at h ⊢
      by_cases hfd : fd = handle.fd
      · subst hfd
        rw [Function.update_self] at h ⊢
        exact .inr ⟨_, rfl, (Option.some.inj h).symm, rfl⟩
      · rw [Function.update_of_ne hfd] at h ⊢
        exact .inl ⟨h, rfl⟩
  | closeInput fd' =>
    have hfd : fd ≠ fd' := by
      rintro rfl
      simp [step, inputsAfter] at h
    simp only [step, inputsAfter, Function.update_of_ne hfd] at h
    refine .inl ⟨h, ?_⟩
    simp only [step, SeatEvent.call]
    rcases t.seat.closeInput_cases fd' with ⟨-, heq⟩ | ⟨path, -, ⟨-, heq⟩ | heq⟩ <;> rw [heq]
    · exact Function.update_of_ne hfd _ _
    · rw [Seat.closeDevice_tracked]
      exact Function.update_of_ne hfd _ _
  | _ =>
    exact .inl ⟨h, congrFun (call_tracked (by rintro _ _ _ ⟨⟩) (by rintro _ ⟨⟩)) fd⟩

theorem Inv.step_of_spec {t : SeatTrace} (h : t.Inv) {e : SeatEvent}
    (hspec : Spec t (e.call t.seat)) (hanswers : Answers t e) : (t.step e).Inv := by
  have hledger : Ledger (t.step e) := by
    cases hspec.edits with
    | same hclosed hopened hsame =>
      have hopenedAfter : t.openedAfter [] none = t.opened := by simp [openedAfter]
      simp only [step, hclosed, hopened, hopenedAfter]
      exact ⟨h.nodup_ids, h.nodup_serials, h.serial_lt, fun path id => by
        rw [← h.holds path id, ← hsame path]⟩
    | rebinds path new hc =>
      refine h.toLedger.rebinds hc (fun id hid o ho heq => ?_) _
      exact hanswers (id, path) (by rw [hc.opened]; cases hid; rfl) o ho heq
  refine { hledger with
    inputs := fun fd n hinput => ?_
    loops := hspec.loops
    preserved := hspec.preserved
    closed := fun hclosed => ?_ }
  · rcases inputs_step hinput with ⟨hold, htracked⟩ | ⟨d, hd, rfl, htracked⟩
    · obtain ⟨hlt, path, hpath, hopened⟩ := h.inputs fd n hold
      refine ⟨hlt.trans_le (Nat.le_add_right _ _), path, htracked.trans hpath, fun o ho hn => ?_⟩
      rcases mem_openedAfter.mp ho with ⟨ho, -⟩ | ⟨d, -, rfl⟩
      · exact hopened o ho hn
      · exact absurd hn hlt.ne'
    · refine ⟨?_, d.2, htracked, fun o ho hn => ?_⟩
      · rw [step, Option.mem_def.mp hd]
        exact Nat.lt_succ_self _
      · rcases mem_openedAfter.mp ho with ⟨ho, -⟩ | ⟨d', hd', rfl⟩
        · exact absurd hn (h.serial_lt o ho).ne
        · rw [Option.some.inj (hd.symm.trans hd')]
  · obtain ⟨hold, hopened, hloops⟩ := hspec.closed hclosed
    refine ⟨List.eq_nil_iff_forall_not_mem.mpr fun o ho => ?_, hloops⟩
    rcases mem_openedAfter.mp ho with ⟨ho, -⟩ | ⟨d, hd, -⟩
    · rw [(h.closed hold).1] at ho
      cases ho
    · rw [hopened] at hd
      cases hd

/-- What a step on a seat that keeps the invariant does about the ledger. -/
theorem closes_of_spec {t : SeatTrace} (h : t.Inv) {c : SeatCall} (hspec : Spec t c) :
    c.closed.Nodup ∧ ∀ id ∈ c.closed, ∃ o ∈ t.opened, o.id = id := by
  cases hspec.edits with
  | same hclosed _ _ =>
    rw [hclosed]
    exact ⟨List.nodup_nil, nofun⟩
  | rebinds path new hc => exact hc.closes h.toLedger

theorem Ledger.named {t : SeatTrace} (h : t.Ledger) :
    ∀ o ∈ t.opened, t.seat.deviceAt o.path = some o.id :=
  fun o ho => (h.holds o.path o.id).mpr ⟨o, ho, rfl, rfl⟩

theorem spec_call {t : SeatTrace} (h : t.Inv) {e : SeatEvent} (hkept : t.Kept e)
    (he : e ≠ .destroy) (hno : ∀ answer, e ≠ .enable answer) : Spec t (e.call t.seat) := by
  cases e with
  | takeDevice path preserve answer slot =>
    rw [SeatEvent.call]
    rcases t.seat.takeDevice_cases path preserve answer slot with
      heq | ⟨handle, hopen, hactive, hfree, rfl, heq⟩ <;> rw [heq]
    · exact spec_same h rfl rfl rfl
    · exact spec_assign h hopen hfree (hkept hactive rfl) t.seat.tracked
  | releaseDevice path =>
    rw [SeatEvent.call, Seat.releaseDevice]
    split
    · exact spec_same h rfl rfl rfl
    · exact spec_closeDevice h rfl rfl rfl hkept
  | openInput path answer slot =>
    rw [SeatEvent.call]
    rcases t.seat.openInput_cases path answer slot with
      heq | ⟨handle, hopen, hactive, rfl, heq⟩ <;> rw [heq]
    · exact spec_same h rfl rfl rfl
    · obtain ⟨hfree, hslot⟩ := hkept hactive rfl
      exact spec_assign h hopen hfree hslot _
  | closeInput fd =>
    rw [SeatEvent.call]
    rcases t.seat.closeInput_cases fd with ⟨-, heq⟩ | ⟨path, htracked, ⟨-, heq⟩ | heq⟩ <;> rw [heq]
    · exact spec_same h rfl rfl rfl
    · exact spec_same h rfl rfl rfl
    · exact spec_closeDevice
        (s := { t.seat with tracked := Function.update t.seat.tracked fd none }) h rfl rfl rfl
        (hkept path htracked).1
  | disable =>
    rw [SeatEvent.call, Seat.onDisable]
    split
    · exact spec_same h rfl rfl rfl
    · exact spec_same h rfl rfl rfl
  | enable answer => exact absurd rfl (hno answer)
  | enableNext answer => exact (spec_enableNext h answer).1
  | destroy => exact absurd rfl he

/-- What an input descriptor was opened as is what its close closes. -/
theorem Inv.input {t : SeatTrace} (h : t.Inv) {fd : Fd} (hkept : t.Kept (.closeInput fd)) {n : ℕ}
    (hn : t.inputs fd = some n) : (t.seat.closeInput fd).closed =
      ((t.opened.find? (·.serial = n)).map (·.id)).toList := by
  obtain ⟨-, path, hpath, hopened⟩ := h.inputs fd n hn
  rcases t.seat.closeInput_cases fd with ⟨hnone, -⟩ | ⟨path', hpath', hcases⟩
  · rw [hpath] at hnone
    cases hnone
  obtain rfl : path = path' := Option.some.inj (hpath.symm.trans hpath')
  rcases hcases with ⟨hclosed, heq⟩ | heq <;> rw [heq]
  · rw [(h.closed hclosed).1]
    rfl
  rw [Seat.closeDevice_closed]
  congr 1
  have hat : Seat.deviceAt { t.seat with tracked := Function.update t.seat.tracked fd none } path =
      t.seat.deviceAt path := rfl
  rw [hat]
  cases hid : t.seat.deviceAt path with
  | none =>
    rw [List.find?_eq_none.mpr, Option.map_none]
    intro o ho hserial
    have hnamed := h.named o ho
    rw [hopened o ho (by simpa using hserial), hid] at hnamed
    cases hnamed
  | some id =>
    obtain ⟨o, ho, rfl, rfl⟩ := (hkept path hpath).2 n hn id hid
    have hsome : (t.opened.find? (·.serial = o.serial)).isSome := by
      rw [List.find?_isSome]
      exact ⟨o, ho, by simp⟩
    obtain ⟨o', ho'⟩ := Option.isSome_iff_exists.mp hsome
    have hserial : o'.serial = o.serial := by simpa using List.find?_some ho'
    rw [ho', List.inj_on_of_nodup_map h.nodup_serials (List.mem_of_find?_eq_some ho') ho hserial]
    rfl

/-- Only a loop calls back. -/
theorem notice_call {s : Seat} {e : SeatEvent} (hno : ∀ answer, e ≠ .enable answer)
    (hnext : ∀ answer, e ≠ .enableNext answer) : (e.call s).notice = none := by
  have hclose : ∀ (s : Seat) path, (s.closeDevice path).notice = none := fun s path => by
    rw [Seat.closeDevice]
    split <;> rfl
  cases e with
  | takeDevice path preserve answer slot =>
    rw [SeatEvent.call]
    rcases s.takeDevice_cases path preserve answer slot with heq | ⟨_, _, _, _, _, heq⟩ <;> rw [heq]
  | releaseDevice path =>
    rw [SeatEvent.call, Seat.releaseDevice]
    split
    · rfl
    · exact hclose s path
  | openInput path answer slot =>
    rw [SeatEvent.call]
    rcases s.openInput_cases path answer slot with heq | ⟨_, _, _, _, heq⟩ <;> rw [heq]
  | closeInput fd =>
    rw [SeatEvent.call]
    rcases s.closeInput_cases fd with ⟨-, heq⟩ | ⟨path, -, ⟨-, heq⟩ | heq⟩ <;> rw [heq]
    exact hclose _ path
  | disable => rfl
  | enable answer => exact absurd rfl (hno answer)
  | enableNext answer => exact absurd rfl (hnext answer)
  | destroy =>
    rw [SeatEvent.call, Seat.destroy]
    split <;> rfl

/-- The device a loop tells of is the one it has opened. -/
theorem fresh_enableNext {t : SeatTrace} (h : t.Inv) (answer : Except Errc DeviceHandle) :
    ∀ k ∈ (t.seat.enableNext answer).notice, ∃ dev,
      (t.step (.enableNext answer)).seat.devices.get k.path = some dev ∧
      k.told.toOption = dev.handle.map (fun handle => some handle.fd) ∧
      (dev.preserveFdAcrossResume = false →
        ∀ o ∈ (t.step (.enableNext answer)).opened, o.path = k.path → t.opens ≤ o.serial) := by
  intro k hk
  obtain ⟨dev, hget, htold, hclosed⟩ := (spec_enableNext h answer).2 k hk
  refine ⟨dev, hget, htold, fun hpreserve o ho hpath => ?_⟩
  rcases mem_openedAfter.mp ho with ⟨ho, hopen⟩ | ⟨d, -, rfl⟩
  · refine absurd ?_ hopen
    rw [SeatEvent.call, hclosed hpreserve, ← hpath, h.named o ho]
    exact List.mem_singleton_self _
  · exact le_refl _

theorem Inv.sound_of_spec {t : SeatTrace} (h : t.Inv) {e : SeatEvent} (hkept : t.Kept e)
    (hanswers : Answers t e) (he : e ≠ .destroy) (hno : ∀ answer, e ≠ .enable answer) :
    t.Sound e ∧ (t.step e).Inv := by
  have hspec := spec_call h hkept he hno
  have hinv := h.step_of_spec hspec hanswers
  refine ⟨⟨hspec.defined, closes_of_spec h hspec, hinv.named, fun o ho o' ho' =>
    hinv.eq_of_path ho ho', ?_, fun hdestroy => absurd hdestroy he, hspec.notified, ?_⟩, hinv⟩
  · rintro fd n rfl hn
    exact h.input hkept hn
  · intro k hk
    cases e with
    | enableNext answer => exact fresh_enableNext h answer k hk
    | enable answer => exact absurd rfl (hno answer)
    | _ => cases (notice_call (by rintro _ ⟨⟩) (by rintro _ ⟨⟩)).symm.trans hk

/-- What the map has open is what libseat has open. -/
theorem Ledger.mem_ids {t : SeatTrace} (h : t.Ledger) {id : DeviceId} :
    id ∈ t.seat.devices.entries.filterMap (fun e => e.value.handle.map (·.deviceId)) ↔
      ∃ o ∈ t.opened, o.id = id := by
  rw [List.mem_filterMap]
  constructor
  · rintro ⟨entry, hentry, hid⟩
    have hat : t.seat.deviceAt entry.key = some id := by
      rw [Seat.deviceAt_of_get (NodeMap.get_eq_some.mpr ⟨entry, hentry, rfl, rfl⟩)]
      exact hid
    obtain ⟨o, ho, -, hoid⟩ := (h.holds _ _).mp hat
    exact ⟨o, ho, hoid⟩
  · rintro ⟨o, ho, rfl⟩
    have hat := h.named o ho
    cases hget : t.seat.devices.get o.path with
    | none =>
      rw [Seat.deviceAt_of_get hget] at hat
      cases hat
    | some dev =>
      rw [Seat.deviceAt_of_get hget] at hat
      obtain ⟨entry, hentry, -, rfl⟩ := NodeMap.get_eq_some.mp hget
      exact ⟨entry, hentry, hat⟩

/-- No device is under two paths. -/
theorem Ledger.ids_nodup {t : SeatTrace} (h : t.Ledger) :
    (t.seat.devices.entries.filterMap fun e => e.value.handle.map (·.deviceId)).Nodup := by
  rw [List.Nodup, List.pairwise_filterMap]
  refine (List.pairwise_map.mp t.seat.devices.nodup_keys).imp_of_mem ?_
  rintro entry entry' hentry hentry' hkey id hid _ hid' rfl
  have hat : ∀ e ∈ t.seat.devices.entries, e.value.handle.map (·.deviceId) = some id →
      ∃ o ∈ t.opened, o.path = e.key ∧ o.id = id := fun e he hid => by
    refine (h.holds _ _).mp ?_
    rw [Seat.deviceAt_of_get (NodeMap.get_eq_some.mpr ⟨e, he, rfl, rfl⟩)]
    exact hid
  obtain ⟨o, ho, hpath, rfl⟩ := hat entry hentry hid
  obtain ⟨o', ho', hpath', hoid⟩ := hat entry' hentry' hid'
  rw [h.eq_of_id ho' ho hoid] at hpath'
  exact hkey (hpath.symm.trans hpath')

/-- The seat goes, and everything it has open with it. -/
theorem Inv.destroy {t : SeatTrace} (h : t.Inv) (hloops : t.seat.loops = []) :
    t.Sound .destroy ∧ (t.step .destroy).Inv := by
  cases hseat : t.seat.seat with
  | false =>
    have hcall : SeatEvent.destroy.call t.seat = { seat := t.seat } := by
      rw [SeatEvent.call, Seat.destroy, if_pos (by simp [hseat])]
    have hspec : Spec t (SeatEvent.destroy.call t.seat) := hcall ▸ spec_same h rfl rfl rfl
    have hinv := h.step_of_spec hspec (fun d hd => by rw [hcall] at hd; cases hd)
    refine ⟨⟨hspec.defined, closes_of_spec h hspec, hinv.named, fun o ho o' ho' =>
      hinv.eq_of_path ho ho', nofun, fun _ => ?_, hspec.notified, ?_⟩, hinv⟩
    · simp [step, openedAfter, hcall, (h.closed hseat).1]
    · rw [hcall]
      exact nofun
  | true =>
    have hcall : SeatEvent.destroy.call t.seat =
        { seat := { t.seat with seat := false, devices := .empty, loops := [] }
          closed :=
            t.seat.devices.entries.filterMap fun e => e.value.handle.map (·.deviceId) } := by
      rw [SeatEvent.call, Seat.destroy, if_neg (by simp [hseat]), hloops]
      rfl
    have hopened : (t.step .destroy).opened = [] := by
      refine List.eq_nil_iff_forall_not_mem.mpr fun o ho => ?_
      rcases mem_openedAfter.mp ho with ⟨ho, hopen⟩ | ⟨d, hd, -⟩
      · rw [hcall] at hopen
        exact hopen (h.mem_ids.mpr ⟨o, ho, rfl⟩)
      · rw [hcall] at hd
        cases hd
    have hstep : (t.step .destroy).seat =
        { t.seat with seat := false, devices := .empty, loops := [] } := by
      rw [step, hcall]
    constructor
    · constructor
      case defined => rw [hcall]
      case closes =>
        rw [hcall]
        exact ⟨h.ids_nodup, fun id hid => h.mem_ids.mp hid⟩
      case named => rw [hopened]; exact nofun
      case one => rw [hopened]; exact nofun
      case input => exact nofun
      case destroyed => exact fun _ => hopened
      case notified => rw [hcall]; exact nofun
      case fresh => rw [hcall]; exact nofun
    · refine ⟨⟨?_, ?_, ?_, fun path id => ?_⟩, fun fd n hn => ?_, ?_, ?_, fun _ => ⟨hopened, ?_⟩⟩
      · rw [hopened]; exact List.nodup_nil
      · rw [hopened]; exact List.nodup_nil
      · rw [hopened]; exact nofun
      · rw [hopened, hstep]
        exact ⟨nofun, fun ⟨o, ho, _⟩ => absurd ho nofun⟩
      · obtain ⟨hlt, path, hpath, -⟩ := h.inputs fd n hn
        refine ⟨hlt.trans_le (Nat.le_add_right _ _), path, by rw [hstep]; exact hpath, ?_⟩
        rw [hopened]
        exact nofun
      · rw [hstep]; exact nofun
      · rw [hstep]; exact nofun
      · rw [hstep]

/-- The first enable, or one of no seat, has nothing to open. -/
theorem Inv.sound_of_same {t : SeatTrace} (h : t.Inv) {e : SeatEvent} {s : Seat}
    (hcall : e.call t.seat = { seat := s }) (hdevices : s.devices = t.seat.devices)
    (hloops : s.loops = t.seat.loops) (hseat : s.seat = t.seat.seat)
    (hclose : ∀ fd, e ≠ .closeInput fd) (he : e ≠ .destroy) : t.Sound e ∧ (t.step e).Inv := by
  have hspec : Spec t (e.call t.seat) := hcall ▸ spec_same h hdevices hloops hseat
  have hinv := h.step_of_spec hspec (fun d hd => by rw [hcall] at hd; cases hd)
  refine ⟨⟨hspec.defined, closes_of_spec h hspec, hinv.named, fun o ho o' ho' =>
    hinv.eq_of_path ho ho', fun fd _ hfd => absurd hfd (hclose fd), fun hd => absurd hd he,
    hspec.notified, ?_⟩, hinv⟩
  rw [hcall]
  exact nofun

/-- An enable is the first turn of the loop it begins. -/
theorem Inv.sound_enable {t : SeatTrace} (h : t.Inv) {answer : Except Errc DeviceHandle}
    (hanswers : Answers t (.enable answer)) :
    t.Sound (.enable answer) ∧ (t.step (.enable answer)).Inv := by
  cases hseat : t.seat.seat with
  | false =>
    exact h.sound_of_same (by rw [SeatEvent.call, Seat.onEnable, if_pos (by simp [hseat])])
      rfl rfl rfl nofun nofun
  | true =>
    cases hever : t.seat.everEnabled with
    | false =>
      refine h.sound_of_same (s := { t.seat with active := true, everEnabled := true }) ?_
        rfl rfl rfl nofun nofun
      rw [SeatEvent.call, Seat.onEnable, if_neg (by simp [hseat])]
      dsimp only
      rw [if_pos (by simp [hever])]
    | true =>
      obtain ⟨hcall, hstep⟩ := begun_enableNext hseat hever answer
      have hanswers' : Answers t.begun (.enableNext answer) := fun d hd o ho hid =>
        hcall ▸ hanswers d (hcall ▸ hd) o ho hid
      obtain ⟨hsound, hinv⟩ := (h.begun hseat).sound_of_spec (e := .enableNext answer) trivial
        hanswers' nofun nofun
      refine ⟨⟨?_, ?_, ?_, ?_, nofun, nofun, ?_, ?_⟩, hstep ▸ hinv⟩
      · exact hcall ▸ hsound.defined
      · exact hcall ▸ hsound.closes
      · exact hstep ▸ hsound.named
      · exact hstep ▸ hsound.one
      · exact hcall ▸ hsound.notified
      · rw [hcall, hstep]
        exact hsound.fresh

/-- A step that keeps the condition is sound. -/
theorem Inv.sound {t : SeatTrace} (h : t.Inv) {e : SeatEvent} (hanswers : Answers t e)
    (hkept : t.Kept e) : t.Sound e ∧ (t.step e).Inv := by
  cases e with
  | destroy => exact h.destroy hkept
  | enable answer => exact h.sound_enable hanswers
  | _ => exact h.sound_of_spec hkept hanswers nofun nofun

/-! ### Runs of a seat -/

theorem Inv.sound_run {t : SeatTrace} (h : t.Inv) {es : List SeatEvent}
    (hanswers : Meets step Answers t es) (hkept : Meets step Kept t es) :
    Meets step Sound t es := by
  induction es generalizing t with
  | nil => trivial
  | cons e es ih =>
    obtain ⟨hsound, hinv⟩ := h.sound hanswers.1 hkept.1
    exact ⟨hsound, ih hinv hanswers.2 hkept.2⟩

/-- Over every run whose steps keep the condition, the seat closes each device it opens once, has
at most one open under a path, and opens every device it holds anew at each enable. -/
theorem devices_once_of_kept (es : List SeatEvent) (hanswers : Meets step Answers {} es)
    (hkept : Meets step Kept {} es) : Meets step Sound {} es :=
  inv_init.sound_run hanswers hkept

/-- A device and an input device through a session switch; the second cannot be opened anew. -/
def switched : List SeatEvent :=
  [.enable (.error .permissionDenied), .takeDevice "card0" false (.ok ⟨5, 1⟩) {},
    .openInput "event0" (.ok ⟨6, 2⟩) { slot := 1 }, .disable, .enable (.ok ⟨7, 3⟩),
    .enableNext (.error .permissionDenied), .enableNext (.error .permissionDenied),
    .closeInput 6, .destroy]

theorem devices_once_switched : Meets step Sound {} switched :=
  devices_once_of_kept switched (by decide +kernel) (by decide +kernel)

/-- A path taken as a device, and opened again by libinput. -/
def openedTwice : List SeatEvent :=
  [.enable (.error .permissionDenied), .takeDevice "event0" false (.ok ⟨5, 1⟩) {},
    .openInput "event0" (.ok ⟨6, 2⟩) {}, .destroy]

/-- The first of the two devices is never closed. -/
theorem opened_twice_left : ¬ ∀ es, Meets step Answers {} es → Meets step Sound {} es := by
  intro h
  obtain ⟨-, -, -, hdestroy, -⟩ := h openedTwice (by decide +kernel)
  have hleft := hdestroy.destroyed rfl
  revert hleft
  decide +kernel

end SeatTrace

end DrmCxx.Session
