/-
  GuestHost.Filesystem.Seed — what a filesystem module starts with: the preopened directories in their
  order, and the contents of its files by path.

  The seed goes to the module as a JSON document. Files stand in the order of their paths and each path
  once, so it does not matter in which order they were set (`put_comm`).
-/

import GuestHost.Json.Value
import GuestHost.Text.Lossy
import Std.Data.ExtTreeMap

namespace GuestHost

structure Seed where
  preopens : List String := []
  files : Std.ExtTreeMap String String := ∅

namespace Seed

/-- The seed with a file, in place of one that has its path. -/
def put (s : Seed) (path contents : String) : Seed := { s with files := s.files.insert path contents }

def document (s : Seed) : Json :=
  .obj [("preopens", .arr (s.preopens.map .str)), ("fs", .obj (s.files.toList.map fun (k, v) => (k, .str v)))]

def payload (s : Seed) : List UInt8 := utf8 s.document.text

/-- Files of different paths can be set in either order. -/
theorem put_comm (s : Seed) {p q : String} (h : p ≠ q) (a b : String) :
    (s.put p a).put q b = (s.put q b).put p a := by
  have : (s.files.insert p a).insert q b = (s.files.insert q b).insert p a := by
    apply Std.ExtTreeMap.ext_getElem?
    intro k
    simp only [Std.ExtTreeMap.getElem?_insert]
    by_cases hp : p = k <;> by_cases hq : q = k <;> simp_all
  simp only [put, this]

end Seed

end GuestHost
