/-
  GuestHost.Json.Payload — byte strings in documents: the digits of the bytes in base sixteen, two for each,
  or such digits with the number of times that they are repeated.
-/

import GuestHost.Json.Parser
import GuestHost.View

namespace GuestHost.Json

def hexBytes? : List Char → Option (List UInt8)
  | [] => some []
  | [_] => none
  | a :: b :: rest => do
    let high ← hexDigit? a
    let low ← hexDigit? b
    let bs ← hexBytes? rest
    return UInt8.ofNat (high * 16 + low) :: bs

def bytes? : Json → Option (List UInt8)
  | str s => hexBytes? s.toList
  | arr [str "rep", str s, num n] => (hexBytes? s.toList).map fun bs => (List.replicate n.toNat bs).flatten
  | _ => none

/-- The byte string that a document is, as runs. Repeated bytes are not laid out. -/
def runs? : Json → Option Runs
  | arr [str "rep", str s, num n] => (hexBytes? s.toList).map fun bs => [⟨bs, n.toNat⟩]
  | j => j.bytes?.map Runs.ofBytes

/-- The byte string that a document is, as a view. Repeated bytes are not laid out. -/
def view? : Json → Option View
  | arr [str "rep", str s, num n] => (hexBytes? s.toList).map fun bs => View.repeated bs.toArray n.toNat
  | j => j.bytes?.map fun bs => View.ofArray bs.toArray

/-- The byte string of a field; empty if it is absent. -/
def payload (j : Json) (key : String) : List UInt8 := ((j.field? key).bind bytes?).getD []

end GuestHost.Json
