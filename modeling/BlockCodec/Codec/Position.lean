import BlockCodec.Codec.Error

namespace BlockCodec

def defaultDepthLimit : Nat := 256

/-- The place of a decoder in the value and its depth limit. The indices are kept from
the position back up to the root, with their count beside them, so that stepping into an
item and checking the depth take the same time at every depth. -/
structure Position where
  /-- The array indices from the position up to the root, innermost first. -/
  trail : List Nat
  /-- How many array hops lie between the root and the position. -/
  depth : Nat
  limit : Nat
  depth_eq : depth = trail.length

namespace Position

def root (limit : Nat) : Position := ⟨[], 0, limit, rfl⟩

def path (p : Position) : List Nat := p.trail.reverse

def child (p : Position) (index : Nat) : Position :=
  ⟨index :: p.trail, p.depth + 1, p.limit, by simp [p.depth_eq]⟩

/-- The report for a position deeper than its limit. -/
def depthError (p : Position) (family : Family) : DecodeError :=
  DecodeError.ofProblem family (.depthLimit p.limit) p.path

@[simp] theorem depth_child (p : Position) (i : Nat) : (p.child i).depth = p.depth + 1 := rfl

@[simp] theorem limit_child (p : Position) (i : Nat) : (p.child i).limit = p.limit := rfl

@[simp] theorem path_root (limit : Nat) : (root limit).path = [] := rfl

@[simp] theorem path_child (p : Position) (i : Nat) : (p.child i).path = p.path ++ [i] := by
  simp [child, path]

/-- The depth of a position is the length of its path. -/
theorem depth_eq_length_path (p : Position) : p.depth = p.path.length := by
  simp [path, p.depth_eq]

end Position

end BlockCodec
