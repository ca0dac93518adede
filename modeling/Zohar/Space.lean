/-
Places on a map: positions and their arithmetic, the segments that players walk, and the index of who is where. From
zohar-domain/src/coords.rs and from zohar-sim/src: runtime/player.rs, runtime/spatial.rs, runtime/rules/movement.rs and
aoi.rs. The coordinates are of any kind, floats with their roundings or exact numbers. The grid under the index is a
third-party crate.
-/
import Mathlib.Tactic
import Zohar.Lib.OrdMap

namespace Zohar.Space

open Zohar.Lib

/-! ## Positions -/

/-- Also the difference of two positions, which the source keeps in a vector of its own. -/
@[ext] structure LocalPos (F : Type) where
  x : F
  y : F
  deriving DecidableEq

structure LocalSize (F : Type) where
  width : F
  height : F
  deriving DecidableEq

section

variable {F : Type}

namespace LocalPos

def add [Add F] (a b : LocalPos F) : LocalPos F := ⟨a.x + b.x, a.y + b.y⟩

def sub [Sub F] (a b : LocalPos F) : LocalPos F := ⟨a.x - b.x, a.y - b.y⟩

def scale [Mul F] (a : LocalPos F) (t : F) : LocalPos F := ⟨a.x * t, a.y * t⟩

def divBy [Div F] (a : LocalPos F) (t : F) : LocalPos F := ⟨a.x / t, a.y / t⟩

def dot [Add F] [Mul F] (a b : LocalPos F) : F := a.x * b.x + a.y * b.y

def squareLength [Add F] [Mul F] (a : LocalPos F) : F := a.dot a

def length [Add F] [Mul F] (sqrt : F → F) (a : LocalPos F) : F := sqrt a.squareLength

/-- The derived `==`. -/
def eq [BEq F] (a b : LocalPos F) : Bool := a.x == b.x && a.y == b.y

end LocalPos

def distance [Add F] [Sub F] [Mul F] (sqrt : F → F) (start goal : LocalPos F) : F := (goal.sub start).length sqrt

/-! ## Segments -/

structure PlayerMotionState (F : Type) where
  segmentStartPos : LocalPos F
  segmentEndPos : LocalPos F
  segmentStartTs : Nat
  segmentEndTs : Nat
  lastClientTs : Nat
  deriving DecidableEq

/-- A player that stands at a position from a time on. -/
def PlayerMotionState.standing (pos : LocalPos F) (ts : Nat) : PlayerMotionState F := ⟨pos, pos, ts, ts, ts⟩

variable [Add F] [Sub F] [Mul F] [Div F] [NatCast F]

/-- The last lines of the samplings: the point of a segment of which some time has elapsed. -/
def pointOfSegment (start goal : LocalPos F) (elapsed total : Nat) : LocalPos F :=
  let t : F := (elapsed : F) / (total : F)
  start.add ((goal.sub start).scale t)

/-- `sample_player_motion_state_at`: where a player is when it sends a packet. -/
def samplePlayerMotionStateAt (currentPos : LocalPos F) (motion : PlayerMotionState F) (packetTs : Nat) : LocalPos F :=
  if motion.lastClientTs = 0 ∨ packetTs ≤ motion.lastClientTs then currentPos
  else if motion.segmentEndTs ≤ motion.segmentStartTs then currentPos
  else if motion.segmentEndTs ≤ packetTs then motion.segmentEndPos
  else if motion.segmentEndTs - motion.segmentStartTs = 0 then currentPos
  else
    pointOfSegment motion.segmentStartPos motion.segmentEndPos (packetTs - motion.segmentStartTs)
      (motion.segmentEndTs - motion.segmentStartTs)

/-- `sample_player_visual_position_at`: where a player is seen. -/
def samplePlayerVisualPositionAt (motion : PlayerMotionState F) (packetTs : Nat) : LocalPos F :=
  if motion.segmentEndTs ≤ motion.segmentStartTs then motion.segmentEndPos
  else if packetTs ≤ motion.segmentStartTs then motion.segmentStartPos
  else if motion.segmentEndTs ≤ packetTs then motion.segmentEndPos
  else if motion.segmentEndTs - motion.segmentStartTs = 0 then motion.segmentEndPos
  else
    pointOfSegment motion.segmentStartPos motion.segmentEndPos (packetTs - motion.segmentStartTs)
      (motion.segmentEndTs - motion.segmentStartTs)

end

/-! ## The index -/

/-- `SpatialIndex::query_in_radius`, which is the `query_around` of a third-party grid: in any order, who lies nearer to
the center than the radius. Who lies at the radius is not in the answer. -/
structure RadiusQuery (ι : Type) [LinearOrder ι] {P D : Type} [LT D] (distance : P → P → D) where
  ids : OrdMap ι P → P → D → List ι
  mem_ids : ∀ {spatial center radius id},
    id ∈ ids spatial center radius ↔ ∃ pos, spatial.get? id = some pos ∧ distance center pos < radius

/-- The query that goes over the entries in their order. -/
def RadiusQuery.inOrder (ι : Type) [LinearOrder ι] {P D : Type} [LT D] [DecidableLT D] (distance : P → P → D) :
    RadiusQuery ι distance where
  ids spatial center radius := (spatial.entries.filter fun e => distance center e.2 < radius).map Prod.fst
  mem_ids := by
    intro spatial center radius id
    simp only [List.mem_map, List.mem_filter, decide_eq_true_eq]
    constructor
    · rintro ⟨⟨_, pos⟩, ⟨he, hnear⟩, rfl⟩
      exact ⟨pos, OrdMap.get?_eq_some_iff.2 he, hnear⟩
    · rintro ⟨pos, hpos, hnear⟩
      exact ⟨(id, pos), ⟨OrdMap.get?_eq_some_iff.1 hpos, hnear⟩, rfl⟩

end Zohar.Space
