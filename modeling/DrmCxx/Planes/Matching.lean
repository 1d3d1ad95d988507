import Mathlib.Data.Int.Notation
import Mathlib.Data.List.Sort

/-!
# Bipartite matching

Hopcroft-Karp as `matching.cpp` runs it: layers on the left, planes on the right, the edges of a
layer tried by descending score. `none` is the code's `nil`, and an infinite distance.
-/

namespace DrmCxx.Planes

structure Matching where
  matchLeft : List (Option ℕ)
  matchRight : List (Option ℕ)
  /-- Search depth of each left node; the last one belongs to "a free right node". -/
  dist : List (Option ℕ)
  deriving DecidableEq, Repr

/-- The right nodes of each left node, with their scores. -/
abbrev Adjacency := List (List (ℕ × ℤ))

namespace Matching

def init (nLeft nRight : ℕ) : Matching where
  matchLeft := List.replicate nLeft none
  matchRight := List.replicate nRight none
  dist := List.replicate (nLeft + 1) (some 0)

variable (adj : Adjacency) (nLeft : ℕ)

/-- The left node matched to `v`, or `nLeft` for a free one. -/
def partner (m : Matching) (v : ℕ) : ℕ := ((m.matchRight[v]?).join).getD nLeft

def distOf (m : Matching) (u : ℕ) : Option ℕ := (m.dist[u]?).join

/-- One left node taken off the queue: the nodes behind its edges get the next depth. -/
def bfsEdges (d : ℕ) : List (ℕ × ℤ) → Matching → List ℕ → Matching × List ℕ
  | [], m, queue => (m, queue)
  | (v, _) :: es, m, queue =>
    let idx := m.partner nLeft v
    if m.distOf idx = none then
      bfsEdges d es { m with dist := m.dist.set idx (some (d + 1)) }
        (if idx = nLeft then queue else queue ++ [idx])
    else bfsEdges d es m queue

/-- Each left node enters the queue once, so `nLeft` rounds empty it. -/
def bfsLoop : ℕ → Matching → List ℕ → Matching
  | 0, m, _ => m
  | _, m, [] => m
  | fuel + 1, m, u :: queue =>
    match m.distOf u with
    | none => bfsLoop fuel m queue
    | some d =>
      if (m.distOf nLeft).all (d < ·) then
        let (m, queue) := bfsEdges nLeft d (adj.getD u []) m queue
        bfsLoop fuel m queue
      else bfsLoop fuel m queue

def bfs (m : Matching) : Bool × Matching :=
  let free := (List.range nLeft).filter fun u => (m.matchLeft[u]?).join = none
  let m := { m with
    dist := (List.range nLeft).map (fun u => if u ∈ free then some 0 else none) ++ [none] }
  let m := bfsLoop adj nLeft (nLeft + 1) m free
  ((m.distOf nLeft).isSome, m)

/-- The edges of `u` in turn, `rec` searching on from the node behind one. -/
def dfsEdges (rec : ℕ → Matching → Bool × Matching) (u : ℕ) :
    List (ℕ × ℤ) → Matching → Bool × Matching
  | [], m => (false, { m with dist := m.dist.set u none })
  | (v, _) :: es, m =>
    let idx := m.partner nLeft v
    if (m.distOf u).any (fun d => m.distOf idx = some (d + 1)) then
      match rec idx m with
      | (true, m) =>
        (true, { m with
          matchRight := m.matchRight.set v (some u)
          matchLeft := m.matchLeft.set u (some v) })
      | (false, m) => dfsEdges rec u es m
    else dfsEdges rec u es m

/-- Depths grow along the search, so `nLeft + 1` levels suffice. -/
def dfs : ℕ → ℕ → Matching → Bool × Matching
  | 0, _, m => (false, m)
  | fuel + 1, u, m =>
    if u = nLeft then (true, m) else dfsEdges nLeft (dfs fuel) u (adj.getD u []) m

def phase (m : Matching) : Matching :=
  (List.range nLeft).foldl (fun m u =>
    if (m.matchLeft[u]?).join = none then (dfs adj nLeft (nLeft + 2) u m).2 else m) m

/-- Each phase matches one more left node. -/
def solveLoop : ℕ → Matching → Matching
  | 0, m => m
  | fuel + 1, m =>
    match bfs adj nLeft m with
    | (true, m) => solveLoop fuel (phase adj nLeft m)
    | (false, m) => m

def solve (m : Matching) : Matching :=
  solveLoop (adj.map (List.insertionSort fun a b => a.2 ≥ b.2)) nLeft (nLeft + 1) m

def matchForLeft (m : Matching) (u : ℕ) : Option ℕ := (m.matchLeft[u]?).join

end Matching

/-! ### The object

`BipartiteMatching` with its edges and its count, from a constructor or a `reset` to `solve`. The
rounds of its loops are parameters, so that `solve` can be shown to end by itself. -/

namespace Matching

def matchForRight (m : Matching) (v : ℕ) : Option ℕ := (m.matchRight[v]?).join

variable (adj : Adjacency) (nLeft : ℕ)

/-- The distances a search starts with: 0 for the free left nodes. -/
def seeded (m : Matching) : Matching :=
  { m with
    dist := (List.range nLeft).map (fun u => if m.matchForLeft u = none then some 0 else none) ++
      [none] }

def freeLefts (m : Matching) : List ℕ := (List.range nLeft).filter fun u => m.matchForLeft u = none

/-- `bfs` over at most `visits` queue entries. -/
def bfsWith (visits : ℕ) (m : Matching) : Bool × Matching :=
  let m := bfsLoop adj nLeft visits (m.seeded nLeft) (m.freeLefts nLeft)
  ((m.distOf nLeft).isSome, m)

/-- One round of the loop over the left nodes, with the count of pairs. -/
def tryMatch (depth : ℕ) (s : Matching × ℕ) (u : ℕ) : Matching × ℕ :=
  if s.1.matchForLeft u = none then
    match dfs adj nLeft depth u s.1 with
    | (true, m) => (m, s.2 + 1)
    | (false, m) => (m, s.2)
  else s

/-- The `while (bfs())` loop of `solve`, for at most as many rounds as the last number says. -/
def countedLoop (visits depth : ℕ) : ℕ → Matching × ℕ → Matching × ℕ
  | 0, s => s
  | rounds + 1, s =>
    match bfsWith adj nLeft visits s.1 with
    | (true, m) =>
      countedLoop visits depth rounds ((List.range nLeft).foldl (tryMatch adj nLeft depth) (m, s.2))
    | (false, m) => (m, s.2)

end Matching

structure BipartiteMatching where
  nLeft : ℕ
  nRight : ℕ
  adj : Adjacency
  nodes : Matching
  matched : ℕ
  deriving DecidableEq, Repr

namespace BipartiteMatching

def construct (nLeft nRight : ℕ) : BipartiteMatching where
  nLeft := nLeft
  nRight := nRight
  adj := List.replicate nLeft []
  nodes := Matching.init nLeft nRight
  matched := 0

/-- The lists are resized, those of the nodes kept are cleared. -/
def reset (b : BipartiteMatching) (nLeft nRight : ℕ) : BipartiteMatching where
  nLeft := nLeft
  nRight := nRight
  adj := (b.adj.take nLeft ++ List.replicate (nLeft - b.adj.length) []).map fun _ => []
  nodes := Matching.init nLeft nRight
  matched := 0

/-- `none` where `adj_.at` throws. -/
def addEdge (b : BipartiteMatching) (u v : ℕ) (score : ℤ) : Option BipartiteMatching :=
  if u < b.adj.length then some { b with adj := b.adj.modify u (· ++ [(v, score)]) } else none

def sortedAdj (b : BipartiteMatching) : Adjacency :=
  b.adj.map (List.insertionSort fun x y => x.2 ≥ y.2)

/-- `solve` with a bound on the rounds of each loop. -/
def solveWith (visits depth rounds : ℕ) (b : BipartiteMatching) : BipartiteMatching :=
  let s := Matching.countedLoop b.sortedAdj b.nLeft visits depth rounds (b.nodes, 0)
  { b with
    adj := b.sortedAdj
    nodes := s.1
    matched := s.2 }

/-- Rounds enough for each loop to end by itself. -/
def solve (b : BipartiteMatching) : BipartiteMatching :=
  b.solveWith (b.nLeft + 1) (b.nLeft + 2) (b.nLeft + 1)

def matchForLeft (b : BipartiteMatching) (u : ℕ) : Option ℕ := b.nodes.matchForLeft u

def matchForRight (b : BipartiteMatching) (v : ℕ) : Option ℕ := b.nodes.matchForRight v

def matchedCount (b : BipartiteMatching) : ℕ := b.matched

end BipartiteMatching

end DrmCxx.Planes
