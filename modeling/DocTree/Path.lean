import DocTree.Decode.Value

/-!
# Paths

A path leads from the root of a document to a node: a child index for each step into `children`,
and a field name followed by an index for each step into a list of nodes in a field.

## Main definitions

- `Segment`, `Path`: a step, and a way from the root.
- `Path.segments`: the steps from the root on.
- `Path.push`, `Path.pop`: longer and shorter paths.
- `Path.text`: the slash-separated form, `/` for the root.
-/

namespace DocTree

/-- A step of a path. -/
inductive Segment where
  | index (place : Nat)
  | field (name : String)
deriving DecidableEq, Repr

namespace Segment

/-- The written form of a step. -/
def text : Segment → String
  | .index place => place.repr
  | .field name => name

/-- The JSON form of a step. -/
def toJson : Segment → Json
  | .index place => .number (.int place)
  | .field name => .string name

/-- Indices come before names; within each sort the smaller one comes first. -/
instance : Ord Segment where
  compare
    | .index i, .index j => compare i j
    | .index _, .field _ => .lt
    | .field _, .index _ => .gt
    | .field m, .field n => compare m n

/-- Reads a step. -/
def decode : Decoder Segment
  | .number (.int place) =>
    if 0 ≤ place ∧ place < Width.size.bound then .ok (.index place.toNat)
    else .error .noPathSegment
  | .string name => .ok (.field name)
  | _ => .error .noPathSegment

end Segment

/-- The steps from the root to a node. They are kept with the last one first, so that going one
step further shares all of the path so far. -/
structure Path where
  upward : List Segment
deriving DecidableEq, Repr

namespace Path

/-- The path of the root. -/
def root : Path := ⟨[]⟩

instance : Inhabited Path := ⟨root⟩

/-- The steps in order, the first one from the root. -/
def segments (path : Path) : List Segment := path.upward.reverse

/-- The path with some steps. -/
def ofSegments (segments : List Segment) : Path := ⟨segments.reverse⟩

/-- Whether a path stays at the root. -/
def isRoot (path : Path) : Bool := path.upward.isEmpty

/-- The number of steps. -/
def depth (path : Path) : Nat := path.upward.length

/-- The indices among the steps. -/
def indices (path : Path) : List Nat :=
  path.segments.filterMap fun
    | .index place => some place
    | .field _ => none

/-- One step further. -/
def push (path : Path) (segment : Segment) : Path := ⟨segment :: path.upward⟩

/-- The path of a child. -/
def child (path : Path) (place : Nat) : Path := path.push (.index place)

/-- The path of an element of a list of nodes in a field. -/
def element (path : Path) (field : String) (place : Nat) : Path :=
  (path.push (.field field)).push (.index place)

/-- The last step. -/
def last? (path : Path) : Option Segment := path.upward.head?

/-- One step back; the root stays where it is. -/
def pop (path : Path) : Path := ⟨path.upward.tail⟩

/-! ## The steps in order -/

@[simp] theorem segments_ofSegments (segments : List Segment) :
    (ofSegments segments).segments = segments := List.reverse_reverse segments

@[simp] theorem ofSegments_segments (path : Path) : ofSegments path.segments = path := by
  simp [ofSegments, segments]

theorem segments_inj {p q : Path} : p.segments = q.segments ↔ p = q :=
  ⟨fun h => by rw [← ofSegments_segments p, h, ofSegments_segments], fun h => h ▸ rfl⟩

@[simp] theorem segments_root : root.segments = [] := rfl

@[simp] theorem segments_push (path : Path) (segment : Segment) :
    (path.push segment).segments = path.segments ++ [segment] := by
  simp [segments, push]

@[simp] theorem segments_pop (path : Path) : path.pop.segments = path.segments.dropLast := by
  simp [segments, pop]

theorem last?_eq (path : Path) : path.last? = path.segments.getLast? := by
  simp [segments, last?]

theorem depth_eq (path : Path) : path.depth = path.segments.length := by
  simp [segments, depth]

@[simp] theorem pop_push (path : Path) (segment : Segment) : (path.push segment).pop = path := rfl

@[simp] theorem last?_push (path : Path) (segment : Segment) :
    (path.push segment).last? = some segment := rfl

/-! ## Order and written forms -/

/-- Segment by segment; a path comes before the paths that it begins. -/
instance : Ord Path := ⟨fun p q => List.compareLex compare p.segments q.segments⟩

/-- The written form. -/
def text (path : Path) : String :=
  if path.isRoot then "/" else String.join (path.segments.map fun segment => "/" ++ segment.text)

/-- The JSON form. -/
def toJson (path : Path) : Json := .array (path.segments.map Segment.toJson)

/-- Reads a path. -/
def decode : Decoder Path := Decoder.map ofSegments (Decoder.list Segment.decode)

end Path
end DocTree
