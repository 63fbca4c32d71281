import RobocupDrone.Library.KeyedHeap
import RobocupDrone.PathSearching.EndPoints

/-! `dyn_a_star.cpp`: the node pool and the search on it. -/

namespace RobocupDrone.PathSearching

open Geometry

variable {K : Type*}

inductive NodeState
  | openSet
  | closedSet
  | undefined
  deriving DecidableEq, Repr

/-- A node; `cameFrom` points to another one by its place in the pool. -/
structure GridNode (K : Type*) where
  rounds : ℕ
  state : NodeState
  index : Vec3 ℤ
  gScore : K
  fScore : K
  cameFrom : Option (Vec3 ℤ)

/-- The constant `inf`, which shifts the wrong way. -/
def inf [Field K] : K := ((1 >>> 20 : ℕ) : K)

def GridNode.new [Field K] (index : Vec3 ℤ) : GridNode K := ⟨0, .undefined, index, inf, inf, none⟩

/-- The nodes by place, and the queue in its order in memory. -/
structure NodePool (K : Type*) where
  nodes : Vec3 ℤ → GridNode K
  openSet : List (Vec3 ℤ)

namespace NodePool

variable (p : NodePool K) (n : Vec3 ℤ) (node : GridNode K)

def set : NodePool K := { p with nodes := Function.update p.nodes n node }

/-- The order of `NodeComparator`. -/
def key : K := (p.nodes n).fScore

@[simp] theorem nodes_set_same : (p.set n node).nodes n = node := Function.update_self _ _ _

theorem nodes_set_other {m : Vec3 ℤ} (other : m ≠ n) : (p.set n node).nodes m = p.nodes m :=
  Function.update_of_ne other _ _

@[simp] theorem openSet_set : (p.set n node).openSet = p.openSet := rfl

variable [LinearOrder K]

def push : NodePool K := { p with openSet := KeyedHeap.push p.key n p.openSet }

def pop : NodePool K := { p with openSet := KeyedHeap.pop p.key p.openSet }

@[simp] theorem nodes_push : (p.push n).nodes = p.nodes := rfl

@[simp] theorem nodes_pop : p.pop.nodes = p.nodes := rfl

theorem openSet_push_perm : (p.push n).openSet.Perm (n :: p.openSet) := KeyedHeap.push_perm _ _ _

theorem openSet_pop_perm {top : Vec3 ℤ} {rest : List (Vec3 ℤ)} (queue : p.openSet = top :: rest) :
    p.pop.openSet.Perm rest := by
  have popped : p.pop.openSet = KeyedHeap.pop p.key (top :: rest) := by rw [pop, queue]
  rw [popped]
  exact KeyedHeap.pop_perm _ _ _

end NodePool

variable [Field K] [LinearOrder K]

/-- What does not change during a search. -/
structure Query (K : Type*) where
  sqrt : K → K
  grid : Grid K
  occupied : Vec3 K → Bool
  round : ℕ
  endIdx : Vec3 ℤ

def getDiagHeu (sqrt : K → K) (node1 node2 : GridNode K) : K :=
  let dx := |node1.index.x - node2.index.x|
  let dy := |node1.index.y - node2.index.y|
  let dz := |node1.index.z - node2.index.z|
  let diag := min (min dx dy) dz
  let dx := dx - diag
  let dy := dy - diag
  let dz := dz - diag
  let along (a b : ℤ) : K := sqrt 3 * diag + sqrt 2 * (min a b : ℤ) + (|a - b| : ℤ)
  let h := 0
  let h := if dx = 0 then along dy dz else h
  let h := if dy = 0 then along dx dz else h
  if dz = 0 then along dx dy else h

def tieBreaker : K := 1 + 1 / 10000

def getHeu (sqrt : K → K) (node1 node2 : GridNode K) : K :=
  tieBreaker * getDiagHeu sqrt node1 node2

namespace Query

variable (q : Query K)

def blocked (n : Vec3 ℤ) : Bool := q.occupied (q.grid.index2Coord n)

def Inner (idx : Vec3 ℤ) : Prop :=
  ∀ axis, ¬(idx.get axis < 1 ∨ idx.get axis ≥ q.grid.poolSize.get axis - 1)

instance (idx : Vec3 ℤ) : Decidable (q.Inner idx) := inferInstanceAs (Decidable (∀ _ : Axis, _))

def offsets : List (Vec3 ℤ) :=
  ([-1, 0, 1].flatMap fun dx => [-1, 0, 1].flatMap fun dy => [-1, 0, 1].map fun dz =>
    (⟨dx, dy, dz⟩ : Vec3 ℤ)).filter (· ≠ 0)

def tentativeGScore (p : NodePool K) (current d : Vec3 ℤ) : K :=
  (p.nodes current).gScore + q.sqrt ((d.x * d.x + d.y * d.y + d.z * d.z : ℤ) : K)

def visitNeighbor (current : Vec3 ℤ) (p : NodePool K) (d : Vec3 ℤ) : NodePool K :=
  let neighborIdx := (p.nodes current).index + d
  if ¬q.Inner neighborIdx then p
  else
    let neighbor : GridNode K := { p.nodes neighborIdx with index := neighborIdx }
    let flagExplored := decide (neighbor.rounds = q.round)
    if flagExplored ∧ neighbor.state = .closedSet then p.set neighborIdx neighbor
    else
      let neighbor : GridNode K := { neighbor with rounds := q.round }
      if q.blocked neighborIdx then p.set neighborIdx neighbor
      else
        let tentativeGScore := q.tentativeGScore p current d
        let reached : GridNode K := { neighbor with
          cameFrom := some current
          gScore := tentativeGScore
          fScore := tentativeGScore + getHeu q.sqrt neighbor (p.nodes q.endIdx) }
        if ¬flagExplored then
          (p.set neighborIdx { reached with state := .openSet }).push neighborIdx
        else if tentativeGScore < neighbor.gScore then p.set neighborIdx reached
        else p.set neighborIdx neighbor

def expand (current : Vec3 ℤ) (p : NodePool K) : NodePool K :=
  offsets.foldl (q.visitNeighbor current)
    (p.set current { p.nodes current with state := .closedSet })

/-- The loop of the search, with the node at the end if it gets there. `late` tells in which rounds
the clock is past the limit. -/
def searchLoop (late : ℕ → Bool) : ℕ → ℕ → NodePool K → Option (Option (Vec3 ℤ) × NodePool K)
  | 0, _, _ => none
  | fuel + 1, numIter, p =>
      match p.openSet with
      | [] => some (none, p)
      | current :: _ =>
          if (p.nodes current).index = (p.nodes q.endIdx).index then some (some current, p.pop)
          else if late numIter then some (none, q.expand current p.pop)
          else searchLoop late fuel (numIter + 1) (q.expand current p.pop)

/-- The pool with only the start node in the queue. The heuristic of the start reads the index of
the end node before that is set. -/
def putStart (startIdx : Vec3 ℤ) (p : NodePool K) : NodePool K :=
  let start : GridNode K := { p.nodes startIdx with
    index := startIdx
    rounds := q.round
    gScore := 0 }
  let p := { p.set startIdx start with openSet := [] }
  let start : GridNode K := { start with
    fScore := getHeu q.sqrt start (p.nodes q.endIdx)
    state := .openSet
    cameFrom := none }
  let p := (p.set startIdx start).push startIdx
  p.set q.endIdx { p.nodes q.endIdx with index := q.endIdx }

end Query

def retrievePath (nodes : Vec3 ℤ → GridNode K) : ℕ → Vec3 ℤ → Option (List (Vec3 ℤ))
  | 0, _ => none
  | fuel + 1, current =>
      match (nodes current).cameFrom with
      | none => some [current]
      | some before => (retrievePath nodes fuel before).map (current :: ·)

structure AStar (K : Type*) where
  grid : Grid K
  rounds : ℕ
  pool : NodePool K
  gridPath : List (Vec3 ℤ)

namespace AStar

variable [FloorRing K] (sqrt : K → K) (occupied : Vec3 K → Bool) (late : ℕ → Bool)

/-- A pool of new nodes; step size and centre are still to be set. -/
def initGridMap (grid : Grid K) (indices : Vec3 ℤ → Vec3 ℤ) : AStar K :=
  { grid
    rounds := 0
    pool := ⟨fun n => GridNode.new (indices n), []⟩
    gridPath := [] }

def setGrid (a : AStar K) (stepSize : K) (startPt endPt : Vec3 K) : Grid K :=
  { poolSize := a.grid.poolSize
    stepSize
    center := (startPt + endPt) / (2 : K) }

def query (a : AStar K) (stepSize : K) (startPt endPt : Vec3 K) (endIdx : Vec3 ℤ) : Query K :=
  { sqrt
    grid := a.setGrid stepSize startPt endPt
    occupied
    round := a.rounds + 1
    endIdx }

def astarSearch (fuel : ℕ) (stepSize : K) (startPt endPt : Vec3 K) (a : AStar K) :
    Option (Bool × AStar K) :=
  let grid := a.setGrid stepSize startPt endPt
  let begun := { a with grid, rounds := a.rounds + 1 }
  match grid.convertToIndexAndAdjustStartEndPoints sqrt occupied fuel startPt endPt with
  | none => none
  | some none => some (false, begun)
  | some (some (startIdx, endIdx)) =>
      let q := query sqrt occupied a stepSize startPt endPt endIdx
      match q.searchLoop late fuel 0 (q.putStart startIdx a.pool) with
      | none => none
      | some (none, pool) => some (false, { begun with pool })
      | some (some current, pool) =>
          (retrievePath pool.nodes fuel current).map fun gridPath =>
            (true, { begun with pool, gridPath })

def getPath (a : AStar K) : List (Vec3 K) :=
  (a.gridPath.map fun ptr => a.grid.index2Coord (a.pool.nodes ptr).index).reverse

/-- The states of an `AStar` after any searches, on any maps. -/
inductive Reachable : AStar K → Prop
  | init (grid : Grid K) (indices : Vec3 ℤ → Vec3 ℤ) : Reachable (initGridMap grid indices)
  | search {a next : AStar K} {found : Bool} (before : Reachable a) (occupied : Vec3 K → Bool)
      (late : ℕ → Bool) (fuel : ℕ) (stepSize : K) (startPt endPt : Vec3 K)
      (returned : a.astarSearch sqrt occupied late fuel stepSize startPt endPt =
        some (found, next)) : Reachable next

end AStar

end RobocupDrone.PathSearching
