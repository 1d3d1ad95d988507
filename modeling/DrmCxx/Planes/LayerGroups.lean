import Mathlib.Data.Int.Notation
import Mathlib.Data.List.Sort
import Mathlib.Order.Lattice

/-!
# Spatial groups

`layer_groups.hpp`: items connected by overlaps form one group; the groups are ordered by the
highest priority they hold. A union-find over item indices, the root of a group its lowest index.
-/

namespace DrmCxx.Planes

def upOf (parent : List ℕ) (x : ℕ) : ℕ := parent.getD x x

/-- A parent is never above its child, so `x` steps reach the root of `x`. -/
def findRoot : ℕ → ℕ → List ℕ → ℕ × List ℕ
  | 0, x, parent => (x, parent)
  | fuel + 1, x, parent =>
    if upOf parent x = x then (x, parent)
    else
      -- path halving
      let grand := upOf parent (upOf parent x)
      findRoot fuel grand (parent.set x grand)

def unite (parent : List ℕ) (i j : ℕ) : List ℕ :=
  let (a, parent) := findRoot i i parent
  let (b, parent) := findRoot j j parent
  if a = b then parent else parent.set (max a b) (min a b)

/-- The pairs `i < j` in the order the code walks them. -/
def indexPairs (n : ℕ) : List (ℕ × ℕ) :=
  (List.range n).flatMap fun i => ((List.range n).filter (i < ·)).map (i, ·)

section

variable {α : Type} (items : List α) (intersect : α → α → Bool) (priority : α → ℤ)

def overlap (i j : ℕ) : Bool :=
  match items[i]?, items[j]? with
  | some a, some b => intersect a b
  | _, _ => false

def connect : List ℕ :=
  (indexPairs items.length).foldl
    (fun parent (i, j) => if overlap items intersect i j then unite parent i j else parent)
    (List.range items.length)

/-- The root `find` reports for item `i` once all pairs are walked. -/
def groupRoot (i : ℕ) : ℕ := (findRoot i i (connect items intersect)).1

/-- The items whose root is `r`. -/
def groupOf (r : ℕ) : List α :=
  items.zipIdx.filterMap fun (a, i) => if groupRoot items intersect i = r then some a else none

/-- The items by root, the groups in order of their first member. -/
def collectGroups : List (List α) :=
  ((List.range items.length).map (groupRoot items intersect)).eraseDups.map
    (groupOf items intersect)

def groupPriority (group : List α) : ℤ :=
  match group with
  | [] => 0
  | a :: rest => rest.foldl (fun best b => max best (priority b)) (priority a)

def independentGroups : List (List α) :=
  (collectGroups items intersect).insertionSort
    fun a b => groupPriority priority a ≥ groupPriority priority b

/-! ### The loops of the source

Every `find` takes at most `fuel` steps. The loop that collects the groups halves paths too, and
keeps a table from roots to groups.
-/

def uniteWithin (fuel : ℕ) (parent : List ℕ) (i j : ℕ) : List ℕ :=
  let (a, parent) := findRoot fuel i parent
  let (b, parent) := findRoot fuel j parent
  if a = b then parent else parent.set (max a b) (min a b)

def connectWithin (fuel : ℕ) : List ℕ :=
  (indexPairs items.length).foldl
    (fun parent (i, j) =>
      if overlap items intersect i j then uniteWithin fuel parent i j else parent)
    (List.range items.length)

structure Grouping (α : Type) where
  parent : List ℕ
  /-- Root to index into `groups`. -/
  slot : List (Option ℕ)
  groups : List (List α) := []

def Grouping.add (fuel : ℕ) (g : Grouping α) (item : α × ℕ) : Grouping α :=
  let (root, parent) := findRoot fuel item.2 g.parent
  match g.slot.getD root none with
  | some k => { g with parent, groups := g.groups.modify k (· ++ [item.1]) }
  | none => ⟨parent, g.slot.set root (some g.groups.length), g.groups ++ [[item.1]]⟩

def groupingWithin (fuel : ℕ) : Grouping α :=
  items.zipIdx.foldl (Grouping.add fuel)
    ⟨connectWithin items intersect fuel, List.replicate items.length none, []⟩

/-- `independent_groups`. -/
def independentGroupsWithin (fuel : ℕ) : List (List α) :=
  (groupingWithin items intersect fuel).groups.insertionSort
    fun a b => groupPriority priority a ≥ groupPriority priority b

end

end DrmCxx.Planes
