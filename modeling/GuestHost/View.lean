/-
  GuestHost.View — a byte view: a length and an accessor, so that a long run of memory can be named
  without being copied.
-/

import GuestHost.Memory

namespace GuestHost

/-- A run of `size` bytes that is read through an accessor. -/
structure View where
  size : Nat
  byte : Nat → UInt8

namespace View

def toList (v : View) : List UInt8 := (List.range v.size).map v.byte

def ofArray (bs : Array UInt8) : View := ⟨bs.size, fun i => bs.getD i 0⟩

/-- The view of an array that is repeated `n` times. -/
def repeated (bs : Array UInt8) (n : Nat) : View := ⟨bs.size * n, fun i => bs.getD (i % bs.size) 0⟩

@[simp] theorem length_toList (v : View) : v.toList.length = v.size := by simp [toList]

@[simp] theorem toList_ofArray (bs : Array UInt8) : (ofArray bs).toList = bs.toList := by
  apply List.ext_getElem
  · simp [ofArray]
  · intro i h1 h2
    have h : i < bs.size := by simpa using h2
    simp [ofArray, toList, h]

end View

/-- The `n` bytes of memory from `a` on, as a view, with zeros past its end. -/
def Memory.view (m : Memory) (a n : Nat) : View := ⟨n, fun i => if i < n then m.byte (a + i) else 0⟩

@[simp] theorem Memory.size_view (m : Memory) (a n : Nat) : (m.view a n).size = n := rfl

@[simp] theorem Memory.toList_view (m : Memory) (a n : Nat) : (m.view a n).toList = m.read a n :=
  List.map_congr_left fun _ hi => if_pos (List.mem_range.1 hi)

/-- A view is told by its bytes. -/
theorem Memory.view_congr {m m' : Memory} {a n : Nat} (h : m'.read a n = m.read a n) : m'.view a n = m.view a n := by
  refine congrArg (View.mk n) (funext fun i => ?_)
  by_cases hi : i < n
  · have hbyte := congrArg (fun bs : List UInt8 => bs[i]?) h
    simp only [Memory.read, List.getElem?_map, List.getElem?_range hi, Option.map_some, Option.some.injEq] at hbyte
    simp only [if_pos hi, hbyte]
  · simp only [if_neg hi]

end GuestHost
