import Subleq.Assembly.Layout
import Subleq.Monitor.Program

/-!
# The monitor's image

The assembled monitor, for an origin of zero, with its labels and its sizes.
-/

namespace Subleq.Monitor

open Assembly

/-- Where the parts of the monitor stand. -/
def layout : Layout := .ofListing program

/-- The image of the monitor. Its program refers to no unknown label, so every cell has a value. -/
def image : List Int :=
  match program.image layout 0 with
  | .ok cells => cells
  | .error _ => []

/-- The labels of the monitor with their addresses, in the order of definition. -/
def labels : List (String × Int) := layout.labels 0

/-- The sizes of the monitor. -/
def measure : Measure := ⟨image.length, layout.names.length, layout.pool.length⟩

def address? (name : String) : Option Int := labels.lookup name

end Subleq.Monitor
