import DrmCxx.Errc

/-!
# The property store

`drm::PropertyStore`: the properties of KMS objects, as the kernel listed them when they were
cached.
-/

namespace DrmCxx.Core

abbrev ObjectId := ℕ

abbrev PropertyId := ℕ

/-- `errc::no_such_file_or_directory`. -/
def noSuchFileOrDirectory : Errc := .other 2

structure PropertyInfo where
  id : PropertyId
  name : String
  value : UInt64 := 0
  flags : UInt32 := 0
  deriving DecidableEq, Repr

/-- `DRM_MODE_PROP_IMMUTABLE`. -/
def drmModePropImmutable : UInt32 := 0x4

/-- A property of an object: its id and value, with the name and the flags that a second call
gives. -/
structure ListedProperty where
  id : PropertyId
  value : UInt64 := 0
  described : Option (String × UInt32)
  deriving DecidableEq, Repr

def ListedProperty.info (p : ListedProperty) : Option PropertyInfo :=
  p.described.map fun d => ⟨p.id, d.1, p.value, d.2⟩

structure PropertyStore where
  store : ObjectId → Option (List PropertyInfo) := fun _ => none

namespace PropertyStore

variable (s : PropertyStore) (object : ObjectId) (name : String)

/-- `cache_properties`; a property the kernel does not describe is skipped. -/
def cacheProperties (listing : Except Errc (List ListedProperty)) :
    Except Errc PropertyStore :=
  match listing with
  | .error e => .error e
  | .ok ps =>
    .ok { store := fun o => if o = object then some (ps.filterMap (·.info)) else s.store o }

def find (s : PropertyStore) (object : ObjectId) (name : String) : Except Errc PropertyInfo :=
  match s.store object with
  | none => .error noSuchFileOrDirectory
  | some entries =>
    match entries.find? (·.name = name) with
    | none => .error noSuchFileOrDirectory
    | some info => .ok info

def propertyId : Except Errc PropertyId := (s.find object name).map (·.id)

def isImmutable : Except Errc Bool :=
  (s.find object name).map fun info => info.flags &&& drmModePropImmutable ≠ 0

end PropertyStore

end DrmCxx.Core
