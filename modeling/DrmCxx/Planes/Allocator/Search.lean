import DrmCxx.Planes.Allocator.Writes
import DrmCxx.Planes.LayerGroups
import DrmCxx.Planes.Matching

/-!
# Placement search

Scoring, TEST commits, and the searches that turn a list of layers and a list of planes into an
assignment. A search changes the caches and counters of `SearchState` and nothing else.
-/

namespace DrmCxx.Planes

open DrmCxx.Lib DrmCxx.Modeset

/-! ### Priorities -/

def layerPriority (l : Layer) : ℤ :=
  if l.contentType = .video then 100
  else if l.updateHz > 30 then 80
  else if l.updateHz > 0 then 50
  else 10

/-- The content class dominates; the application's priority breaks ties. -/
def keepPriority (l : Layer) : ℤ := layerPriority l * 256 + l.appPriority

def bandwidthClassBonus : BandwidthClass → ℤ
  | .compression => 2
  | .tiling => 1
  | .linear => 0

def costBias (scanoutBytes : ℕ) : ℤ :=
  if scanoutBytes ≥ 16 * 1024 * 1024 then 3
  else if scanoutBytes ≥ 4 * 1024 * 1024 then 2
  else if scanoutBytes ≥ 1024 * 1024 then 1
  else 0

/-- The static gate every search path puts a (plane, layer) pair through. -/
def planeStaticallyCompatible (p : PlaneCapabilities) (l : Layer) (crtcIndex : ℕ) : Bool :=
  !(l.forceComposited || l.transientComposited) && p.compatibleWithCrtc crtcIndex &&
    match l.format with
    | none => false
    | some fourcc =>
      layerFitsPlane p.formatTable fourcc l.modifier &&
      (l.rotation = 0 || p.rotationBits &&& l.rotation = l.rotation) &&
      (!l.requiresScaling || p.supportsScaling) &&
      (p.type ≠ .cursor || (!(p.cursorMaxW > 0 && l.width > p.cursorMaxW) &&
        !(p.cursorMaxH > 0 && l.height > p.cursorMaxH)))

namespace SearchContext

variable (c : SearchContext)

def scorePair (s : SearchState) (p : PlaneCapabilities) (id : LayerId) : ℤ :=
  let l := c.heap id
  let composition := c.output.isCompositionLayer id
  let format : ℤ := match l.format with
    | some fourcc => if layerFitsPlane p.formatTable fourcc l.modifier then 4 else 0
    | none => 0
  let canvas : ℤ := if composition && p.type = .primary then 8 else 0
  let bottom : ℤ := match l.zpos with
    | some z =>
      if !composition && p.type = .primary &&
          (p.zposMin = some z || (p.zposMin.isNone && z = 0)) then
        10
      else 0
    | none => 0
  let overlay : ℤ :=
    if !composition && p.type = .overlay then
      2 + match l.zpos with
        | some z => if p.zposMin.isNone && z > 0 then 8 else 0
        | none => 0
    else 0
  let bandwidth : ℤ := match l.format with
    | some fourcc =>
      let cls := p.bandwidthClass l.modifier
      bandwidthClassBonus cls + costBias (c.device.scanoutCostBytes l.width l.height fourcc cls)
    | none => 0
  let stability : ℤ := if c.previous.bind (·.find? p.id) = some id then 100 else 0
  format + canvas + bottom + overlay + bandwidth + layerPriority l / 10 + stability
    - s.failureCache.failureCount p.id (propertyHash l.props)

/-! ### TEST commits -/

/-- The request of a TEST: the planes left out are off, the assigned ones written in full. -/
def testRequest (decoration : AtomicRequest) (a : Assignment) : AtomicRequest :=
  let stack := c.device.stackedZpos c.crtcIndex c.output c.heap a
  decoration ++
    (c.device.unusedPlanes c.crtcIndex c.reserved a.contains).flatMap c.device.disableWrites ++
    a.entries.flatMap fun (p, l) => c.device.applyLayerToPlane (c.heap l) p (stack.zposIn p)

/-- The verdict is remembered for every pair, and for the modifier of a lone plane. -/
def recordVerdict (s : SearchState) (a : Assignment) (passed : Bool) : SearchState :=
  { s with
    failureCache := a.entries.foldl (fun cache (p, l) =>
      cache.record p (propertyHash (c.heap l).props) passed) s.failureCache
    probeCache := match a.entries with
      | [(p, l)] => match (c.heap l).format with
        | some fourcc =>
          s.probeCache.insertOrAssign (c.crtcIndex, p, fourcc, (c.heap l).modifier) passed
        | none => s.probeCache
      | _ => s.probeCache }

def tryTestCommit (s : SearchState) (a : Assignment) : Option Errc × SearchState :=
  if s.testCommitsThisFrame ≥ c.maxTestCommits then (some .resourceUnavailableTryAgain, s)
  else
    let decoration := match c.device.testPreparer with
      | some prepare => prepare s.attempts c.flags
      | none => .ok []
    match decoration with
    | .error e => (some e, { s with attempts := s.attempts + 1 })
    | .ok writes =>
      let verdict := c.device.test s.attempts (c.testRequest writes a) c.flags
      (verdict, c.recordVerdict
        { s with
          attempts := s.attempts + 1
          testCommitsThisFrame := s.testCommitsThisFrame + 1 } a verdict.isNone)

def outOfTests (s : SearchState) : Bool := s.testCommitsThisFrame ≥ c.maxTestCommits

/-- The caches hold a rejection of the pair. -/
def knownBad (s : SearchState) (p : PlaneCapabilities) (l : LayerId) : Bool :=
  s.failureCache.lookup p.id (propertyHash (c.heap l).props) = some false ||
    match (c.heap l).format with
    | some fourcc =>
      s.probeCache.find? (c.crtcIndex, p.id, fourcc, (c.heap l).modifier) = some false
    | none => false

/-! ### One group -/

def byKeepPriority (layers : List LayerId) : List LayerId :=
  layers.insertionSort fun a b => keepPriority (c.heap a) ≥ keepPriority (c.heap b)

def compatible (p : PlaneCapabilities) (l : LayerId) : Bool :=
  planeStaticallyCompatible p (c.heap l) c.crtcIndex

/-- `bipartite_preseed_group`: a maximum matching over the compatible pairs. -/
def bipartitePreseedGroup (s : SearchState) (layers : List LayerId)
    (planes : List PlaneCapabilities) : List (LayerId × PlaneCapabilities) :=
  let adj : Adjacency := layers.map fun l => planes.zipIdx.filterMap fun (p, j) =>
    if c.compatible p l then some (j, c.scorePair s p l) else none
  let m := (Matching.init layers.length planes.length).solve adj layers.length
  layers.zipIdx.filterMap fun (l, i) =>
    (m.matchForLeft i).bind fun j => (planes[j]?).map fun p => (l, p)

/-- `rank_candidates_group`: the compatible pairs by descending score. -/
def rankCandidatesGroup (s : SearchState) (layers : List LayerId)
    (planes : List PlaneCapabilities) : List (PlaneCapabilities × LayerId) :=
  let pairs := planes.flatMap fun p => (layers.filter (c.compatible p)).map fun l => (p, l)
  c.device.stdSort.sort (fun x y => c.scorePair s x.1 x.2 > c.scorePair s y.1 y.2) pairs

/-- One pass of the greedy placement: over the virtual planes or over the others. -/
def greedyPass (s : SearchState) (virtual : Bool) (candidates : List (PlaneCapabilities × LayerId))
    (a : Assignment) : Assignment :=
  candidates.foldl (fun a (p, l) =>
    if p.multirectParent.isSome ≠ virtual || a.contains p.id || a.hasLayer l || c.knownBad s p l ||
        !c.device.fitsStacking c.heap a p.id l || !c.device.fitsMultirect a p.id then a
    else a.insertOrAssign p.id l) a

def greedy (s : SearchState) (candidates : List (PlaneCapabilities × LayerId)) : Assignment :=
  c.greedyPass s true candidates (c.greedyPass s false candidates Table.empty)

/-- A plane leaves the assignment, with the virtual planes of `among` that hang on it. -/
def eraseWithChildren (among : List (PlaneId × LayerId)) (p : PlaneId) (a : Assignment) :
    Assignment :=
  among.foldl (fun a e =>
    if (c.device.registry.capsOf e.1).any (fun caps => caps.multirectParent = some p) then
      a.erase e.1
    else a) (a.erase p)

/-- The backtracking of `place_group`: drop one placement after the other until a TEST passes or
the budget is spent. -/
def dropOne (among : List (PlaneId × LayerId)) : List (PlaneId × LayerId) → Assignment →
    SearchState → Assignment × SearchState
  | [], a, s => (a, s)
  | (p, _) :: es, a, s =>
    if !a.contains p then dropOne among es a s
    else
      let a := c.eraseWithChildren among p a
      let (verdict, s) := c.tryTestCommit s a
      if verdict.isNone || c.outOfTests s then (a, s) else dropOne among es a s

/-- The matching may invert a stack or orphan a virtual plane; TEST would not notice the first. -/
def preseedStacks (a : Assignment) : Bool :=
  c.device.stackingConsistent c.heap a && c.device.multirectComplete a

def placeGreedy (layers : List LayerId) (planes : List PlaneCapabilities) (s : SearchState) :
    Assignment × SearchState :=
  let a := c.greedy s (c.rankCandidatesGroup s layers planes)
  let (verdict, s) := c.tryTestCommit s a
  if verdict.isNone then (a, s)
  else
    let among := c.device.stdSort.sort
      (fun x y => keepPriority (c.heap x.2) < keepPriority (c.heap y.2)) a.entries
    c.dropOne among among a s

def placeGroup (layers : List LayerId) (planes : List PlaneCapabilities) (s : SearchState) :
    Assignment × SearchState :=
  let ordered := c.byKeepPriority layers
  let preseed := (c.bipartitePreseedGroup s ordered planes).foldl
    (fun a (l, p) => a.insertOrAssign p.id l) Table.empty
  if preseed.isEmpty then (preseed, s)
  else if c.preseedStacks preseed then
    let (verdict, s) := c.tryTestCommit s preseed
    if verdict.isNone then (preseed, s) else c.placeGreedy ordered planes s
  else c.placeGreedy ordered planes s

/-! ### Blend limit -/

/-- The planes left to place on: those held by pinned and bound layers count, and one stage is kept
for the canvas when anything composites. -/
def blendBudget (placeable : List LayerId) (limit : ℕ) : ℕ :=
  let scene := c.layers.filter (!c.output.isCompositionLayer ·)
  let isHeld := fun l => (c.heap l).pinned || (c.heap l).externallyBound
  let held := scene.countP isHeld
  let composites := scene.any (fun l =>
      !isHeld l && ((c.heap l).forceComposited || (c.heap l).transientComposited)) ||
    held + placeable.length > limit
  let stages := limit - held
  if composites && stages > 0 then stages - 1 else stages

/-- `cap_to_blend_limit`: the layers left to place, and those sent to composition. -/
def capToBlendLimit (placeable : List LayerId) : List LayerId × List LayerId :=
  match c.device.registry.blendLimit c.crtcIndex with
  | none => (placeable, [])
  | some limit =>
    if c.device.stacksByPlaneId c.crtcIndex || placeable.length ≤ c.blendBudget placeable limit then
      (placeable, [])
    else
      let excess := (c.byKeepPriority placeable).drop (c.blendBudget placeable limit)
      (placeable.filter (!excess.contains ·), excess)

/-! ### Plane order -/

/-- The first plane from `from` on that layer `i` fits. -/
def firstFit (fits : ℕ → ℕ → Bool) (m i start : ℕ) : Option ℕ :=
  (List.range m).find? fun j => start ≤ j && fits i j

/-- The last plane below `stop` that layer `i` fits. -/
def lastFit (fits : ℕ → ℕ → Bool) (i stop : ℕ) : Option ℕ :=
  (List.range stop).reverse.find? fun j => fits i j

/-- `pre[i]`: the first plane free above layers `[0, i)` placed earliest-first. -/
def preOf (fits : ℕ → ℕ → Bool) (m : ℕ) : ℕ → Option ℕ
  | 0 => some 0
  | i + 1 => (preOf fits m i).bind fun start => (firstFit fits m i start).map (· + 1)

/-- `suf[n - k]`: the lowest plane used by the last `k` layers placed latest-first. -/
def sufOf (fits : ℕ → ℕ → Bool) (n m : ℕ) : ℕ → Option ℕ
  | 0 => some m
  | k + 1 => (sufOf fits n m k).bind fun stop => lastFit fits (n - (k + 1)) stop

/-- The composited run `[a, b)` and the plane its canvas takes. -/
structure Choice where
  a : ℕ
  b : ℕ
  canvas : Option ℕ
  deriving DecidableEq, Repr

/-- What `place_in_plane_order` knows about the layers and the planes, by index. -/
structure OrderProblem where
  n : ℕ
  m : ℕ
  fits : ℕ → ℕ → Bool
  hostsCanvas : ℕ → Bool
  forced : ℕ → Bool
  keep : ℕ → ℤ
  withCanvas : Bool

namespace OrderProblem

variable (o : OrderProblem)

def pre (a : ℕ) : Option ℕ := preOf o.fits o.m a

def suf (b : ℕ) : Option ℕ := sufOf o.fits o.n o.m (o.n - b)

/-- Every forced layer is inside the run. -/
def coversForced (a b : ℕ) : Bool :=
  (List.range o.n).all fun i => !o.forced i || (a ≤ i && i < b)

def runCost (a b : ℕ) : ℤ := ((List.range b).drop a).foldl (fun cost i => cost + o.keep i) 0

/-- The run `[a, b)` with its canvas, when its layers fit around it. -/
def choiceAt (a b : ℕ) : Option Choice :=
  match o.pre a, o.suf b with
  | some lo, some hi =>
    if !o.coversForced a b then none
    else if a = b then if lo ≤ hi then some ⟨a, b, none⟩ else none
    else if o.withCanvas then
      ((List.range hi).reverse.find? fun j => lo ≤ j && o.hostsCanvas j).map fun j =>
        ⟨a, b, some j⟩
    else if lo ≤ hi then some ⟨a, b, none⟩ else none
  | _, _ => none

def placed (c : Choice) : ℕ := o.n - (c.b - c.a)

/-- More layers placed, then less keep priority composited; the first found wins ties. -/
def better (c best : Choice) : Bool :=
  o.placed c > o.placed best ||
    (o.placed c = o.placed best && o.runCost c.a c.b < o.runCost best.a best.b)

def choices : List Choice :=
  (List.range (o.n + 1)).flatMap fun a =>
    ((List.range (o.n + 1)).filter (a ≤ ·)).filterMap fun b => o.choiceAt a b

def keepBest (best : Option Choice) (c : Choice) : Option Choice :=
  match best with
  | none => some c
  | some b => if o.better c b then some c else best

def choose (maxPlaced : ℕ) : Option Choice :=
  (o.choices.filter fun c => o.placed c ≤ maxPlaced).foldl o.keepBest none

end OrderProblem

/-- The planes in stacking order, without virtual and cursor planes. -/
def planesById (planes : List PlaneCapabilities) : List PlaneCapabilities :=
  c.device.stdSort.sort (fun a b => a.id < b.id)
    (planes.filter fun p => p.multirectParent.isNone && p.type ≠ .cursor)

def orderProblem (s : SearchState) (layers : List LayerId) (byId : List PlaneCapabilities)
    (withCanvas : Bool) : OrderProblem where
  n := layers.length
  m := byId.length
  fits i j := match layers[i]?, byId[j]? with
    | some l, some p => c.compatible p l && !c.knownBad s p l
    | _, _ => false
  hostsCanvas j := match byId[j]? with
    | some p => c.device.canvasHost.all (· p)
    | none => false
  forced i := match layers[i]? with
    | some l => (c.heap l).forceComposited || (c.heap l).transientComposited
    | none => false
  keep i := match layers[i]? with
    | some l => keepPriority (c.heap l)
    | none => 0
  withCanvas := withCanvas

/-- Layer `i` goes to plane `j`. -/
def placeAt (layers : List LayerId) (byId : List PlaneCapabilities) (a : Assignment)
    (slot : ℕ × Option ℕ) : Assignment :=
  match layers[slot.1]?, slot.2.bind (byId[·]?) with
  | some l, some p => a.insertOrAssign p.id l
  | _, _ => a

/-- The layers below the run on their earliest planes, those above it on their latest. -/
def assignmentOf (layers : List LayerId) (byId : List PlaneCapabilities) (o : OrderProblem)
    (choice : Choice) : Assignment :=
  let below := (List.range choice.a).map fun i => (i, (o.pre (i + 1)).map (· - 1))
  let above := ((List.range o.n).drop choice.b).map fun i => (i, o.suf i)
  (below ++ above).foldl (placeAt layers byId) Table.empty

def canvasOf (byId : List PlaneCapabilities) (choice : Option Choice) : Option PlaneId :=
  ((choice.bind (·.canvas)).bind (byId[·]?)).map (·.id)

/-- Each failed TEST places at least one layer fewer, so `n + 1` rounds suffice. -/
def planeOrderLoop (layers : List LayerId) (byId : List PlaneCapabilities) (o : OrderProblem) :
    ℕ → ℕ → SearchState → Assignment × SearchState
  | 0, _, s => (Table.empty, s)
  | fuel + 1, maxPlaced, s =>
    match o.choose maxPlaced with
    | none => (Table.empty, s)
    | some choice =>
      let a := assignmentOf layers byId o choice
      let s := { s with canvasPlane := canvasOf byId (some choice) }
      if a.isEmpty then (a, s)
      else
        let (verdict, s) := c.tryTestCommit s a
        if verdict.isNone then (a, s)
        else if c.outOfTests s then
          -- out of TESTs: composite everything rather than arm an untested stack
          (Table.empty, { s with canvasPlane := canvasOf byId (o.choose 0) })
        else planeOrderLoop layers byId o fuel (a.size - 1) s

def placeInPlaneOrder (layers : List LayerId) (planes : List PlaneCapabilities) (withCanvas : Bool)
    (s : SearchState) : Assignment × SearchState :=
  if layers.isEmpty then (Table.empty, s)
  else
    let byId := c.planesById planes
    let o := c.orderProblem s layers byId withCanvas
    c.planeOrderLoop layers byId o (layers.length + 1) layers.length s

/-! ### The canvas conflict -/

/-- The scene's layers the allocator may place or composite. -/
def sceneLayers : List LayerId :=
  c.layers.filter fun l =>
    !c.output.isCompositionLayer l && !(c.heap l).externallyBound && !(c.heap l).pinned

/-- The cheapest run of `w` layers that holds every forced one, the highest on a tie. -/
def bestRun (layers : List LayerId) (w : ℕ) : Option ℕ :=
  let forced := fun i => match layers[i]? with
    | some l => (c.heap l).forceComposited || (c.heap l).transientComposited
    | none => false
  let cost := fun a => ((layers.drop a).take w).foldl (fun s l => s + keepPriority (c.heap l)) 0
  let covers := fun a => (List.range layers.length).all fun i => !forced i || (a ≤ i && i < a + w)
  ((List.range (layers.length + 1)).filter fun a => a + w ≤ layers.length && covers a).foldl
    (fun best a => match best with
      | none => some a
      | some b => if cost a ≤ cost b then some a else best) none

/-- The runs from width `w` on, smallest first. -/
def aroundRunLoop (layers : List LayerId) (planes : List PlaneCapabilities) :
    List ℕ → SearchState → Option Assignment × SearchState
  | [], s => (none, s)
  | w :: ws, s =>
    if c.outOfTests s then (none, s)
    else match c.bestRun layers w with
      | none => aroundRunLoop layers planes ws s
      | some a =>
        let (assignment, s) := c.placeGroup (layers.take a ++ layers.drop (a + w)) planes s
        if !assignment.isEmpty && (c.output.canvasBounds c.heap assignment).feasible then
          (some assignment, s)
        else aroundRunLoop layers planes ws s

def placeAroundRun (placed : ℕ) (planes : List PlaneCapabilities) (s : SearchState) :
    Option Assignment × SearchState :=
  let n := c.sceneLayers.length
  c.aroundRunLoop c.sceneLayers planes ((List.range n).drop (max (n - min placed n) 1)) s

/-- A placed layer between the bounds that overlaps a composited one. -/
def isCaught (a : Assignment) (below above : UInt64) (l : LayerId) : Bool :=
  match (c.heap l).zpos with
  | none => false
  | some z =>
    above ≤ z && z ≤ below && (c.output.compositedLayers c.heap a).any fun o =>
      (c.heap o).zpos.any (· ≠ z) && layersIntersect (c.heap l) (c.heap o)

/-- The caught layer with the lowest keep priority, the first on a tie. -/
def caughtVictim (a : Assignment) (below above : UInt64) : Option (PlaneId × LayerId) :=
  (a.entries.filter fun e => c.isCaught a below above e.2).foldl
    (fun best e => match best with
      | none => some e
      | some b => if keepPriority (c.heap e.2) < keepPriority (c.heap b.2) then some e else best)
    none

/-- `resolve_canvas_bounds`: each round moves one placed layer into the composition. -/
def resolveCanvasBounds : ℕ → Assignment → Bool × Assignment
  | 0, a => (false, a)
  | fuel + 1, a =>
    let bounds := c.output.canvasBounds c.heap a
    match bounds.below, bounds.above with
    | some below, some above =>
      if bounds.feasible then (true, a)
      else match c.caughtVictim a below above with
        | none => (false, a)
        | some (p, _) => resolveCanvasBounds fuel
            ((a.erase p).filter fun e =>
              !(c.device.registry.capsOf e.1).any fun caps => caps.multirectParent = some p)
    | _, _ => (true, a)

/-! ### The whole search -/

/-- `pick_most_constrained`: the fewest compatible planes, then the lowest keep priority. -/
def pickMostConstrained (layers : List LayerId) (planes : List PlaneCapabilities) :
    Option LayerId :=
  let count := fun l => planes.countP fun p => c.compatible p l
  layers.foldl (fun worst l => match worst with
    | none => some l
    | some w =>
      if count l < count w ||
          (count l = count w && keepPriority (c.heap l) < keepPriority (c.heap w))
      then some l else worst) none

/-- The groups one after the other, from a shrinking pool of planes. -/
def placeGroups : List (List LayerId) → List PlaneCapabilities → Assignment → SearchState →
    Assignment × SearchState
  | [], _, best, s => (best, s)
  | group :: groups, planes, best, s =>
    let (a, s) := c.placeGroup group planes s
    placeGroups groups (planes.filter fun p => !a.contains p.id)
      (a.entries.foldl (fun best (p, l) => best.insertOrAssign p l) best) s

/-- The scene-wide fallback drops the most constrained layer on each retry. -/
def partialFallback (planes : List PlaneCapabilities) : ℕ → List LayerId → SearchState →
    Assignment × SearchState
  | 0, _, s => (Table.empty, s)
  | fuel + 1, layers, s =>
    if layers.isEmpty || c.outOfTests s then (Table.empty, s)
    else
      let (a, s) := c.placeGroup layers planes s
      if !a.isEmpty then (a, s)
      else match c.pickMostConstrained layers planes with
        | none => (Table.empty, s)
        | some victim => partialFallback planes fuel (layers.erase victim) s

def availablePlanes : List PlaneCapabilities :=
  (c.device.registry.forCrtc c.crtcIndex).filter fun p => !c.reserved.contains p.id

/-- Group by group; scene-wide when nothing was placed. -/
def placeOnZposCrtc (s : SearchState) : Assignment × SearchState :=
  let placeable := c.layers.filter fun l =>
    !(c.heap l).externallyBound && !(c.heap l).transientComposited && !(c.heap l).pinned
  let (placeable, excess) := c.capToBlendLimit placeable
  let groups := independentGroups placeable
    (fun a b => layersIntersect (c.heap a) (c.heap b)) (fun l => keepPriority (c.heap l))
  let (best, s) := c.placeGroups groups c.availablePlanes Table.empty s
  if !best.isEmpty then (best, s)
  else
    let rest := c.sceneLayers.filter fun l =>
      !(c.heap l).forceComposited && !(c.heap l).transientComposited && !excess.contains l
    c.partialFallback c.availablePlanes (rest.length + 1) rest s

/-- The assignment is kept, placed around one composited run, or shrunk until one canvas slot
suits it. -/
def settleCanvas (best : Assignment) (s : SearchState) : Assignment × SearchState :=
  if (c.output.canvasBounds c.heap best).feasible then (best, s)
  else
    let (around, s) := c.placeAroundRun best.size c.availablePlanes s
    match around with
    | some run => (run, s)
    | none =>
      let (ok, resolved) := c.resolveCanvasBounds (best.size + 1) best
      if !ok then (best, s)
      else if resolved.isEmpty then (resolved, s)
      else if c.outOfTests s then (best, s)
      else
        let (verdict, s) := c.tryTestCommit s resolved
        (if verdict.isNone then resolved else best, s)

/-- The assignment `full_search` arms. An output always has a composition layer, so a plane-order
search always has a canvas. -/
def searchAssignment (s : SearchState) : Assignment × SearchState :=
  if c.device.stacksByPlaneId c.crtcIndex then
    c.placeInPlaneOrder c.sceneLayers c.availablePlanes true s
  else
    let (best, s) := c.placeOnZposCrtc s
    c.settleCanvas best s

end SearchContext

end DrmCxx.Planes
