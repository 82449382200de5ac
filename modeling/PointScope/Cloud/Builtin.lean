import PointScope.Cloud.Basic
import PointScope.Grid.Walk

/-!
The clouds that need no input: a demonstration and the points shown when nothing else is asked for.
-/

namespace PointScope.Cloud

def unitCube : Cloud := [
  ⟨0.0, 0.0, 0.0⟩, ⟨1.0, 0.0, 0.0⟩, ⟨0.0, 1.0, 0.0⟩, ⟨0.0, 0.0, 1.0⟩,
  ⟨1.0, 1.0, 0.0⟩, ⟨1.0, 0.0, 1.0⟩, ⟨0.0, 1.0, 1.0⟩, ⟨1.0, 1.0, 1.0⟩]

/-- A helix around the third axis, for the parameters from 0 by 0.1 that are below 10. -/
def helix : Cloud :=
  (Grid.walk (· < 10.0) 0.1 0.0).map fun t => ⟨t.cos, t.sin, t / 3.0⟩

/-- The demonstration: the cube and behind it the helix. -/
def demo : Cloud := unitCube ++ helix

/-- The three reference points shown when there is no input. -/
def reference : Cloud := [⟨0.0, 0.0, 0.0⟩, ⟨3.0, 4.0, 0.0⟩, ⟨3.0, 4.0, 5.0⟩]

end PointScope.Cloud
