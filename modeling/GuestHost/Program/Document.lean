/-
  GuestHost.Program.Document — code written down as a JSON document.

  An expression is a number or an array that begins with a tag, and so is a statement. A call is tagged
  by the place of its target: the preview1 imports, the internal ones, or those of a host for exercises.
  What is no code is not read.
-/

import GuestHost.Guest
import GuestHost.Filesystem.Module
import GuestHost.Json.Payload

namespace GuestHost

/-- The namespace that a call's tag stands for. -/
def spaceOfTag? : String → Option String
  | "wasi" => some previewNamespace
  | "int" => some internalNamespace
  | "host" => some hostNamespace
  | _ => none

def BinaryOp.ofTag? : String → Option BinaryOp
  | "add" => some add
  | "sub" => some sub
  | "mul" => some mul
  | "eq" => some eq
  | "ne" => some ne
  | "lt_u" => some lt
  | "gt_u" => some gt
  | "div_u" => some div
  | _ => none

namespace Expr

/-- The expression of a tag and its operands. -/
def ofTag? : String → List Expr → Option Expr
  | "p", [lit k] => some (param k.toNat)
  | "ph", [lit k] => some (paramHigh k.toNat)
  | "l", [lit k] => some (localVar k.toNat)
  | "g", [lit k] => some (globalVar k.toNat)
  | "load", [a] => some (load a)
  | "load8", [a] => some (loadByte a)
  | "eqz", [x] => some (isZero x)
  | "size", [] => some pages
  | "grow", [n] => some (grow n)
  | tag, [x, y] => (BinaryOp.ofTag? tag).map (binary · x y)
  | _, _ => none

mutual

def ofJson? : Json → Option Expr
  | .num n => some (lit n)
  | .arr (.str tag :: .str name :: args) => do return call ⟨← spaceOfTag? tag, name⟩ (← ofItems? args)
  | .arr (.str tag :: operands) => do ofTag? tag (← ofItems? operands)
  | _ => none

def ofItems? : List Json → Option (List Expr)
  | [] => some []
  | j :: js => do
    let e ← ofJson? j
    let es ← ofItems? js
    return e :: es

end

end Expr

namespace Stmt

def ofTag? : String → List Expr → Option Stmt
  | "set", [.lit k, e] => some (setLocal k.toNat e)
  | "gset", [.lit k, e] => some (setGlobal k.toNat e)
  | "store", [a, e] => some (store a e)
  | "store8", [a, e] => some (storeByte a e)
  | "memcopy", [dst, src, len] => some (copy dst src len)
  | "drop", [e] => some (drop e)
  | "unreachable", [] => some unreachable
  | "return", [] => some leave
  | "note", [e] => some (note e)
  | "dump", [a, n] => some (dump a n)
  | "nonzero", [a, n] => some (nonzero a n)
  | "clock", a :: _ => some (clock a)
  | _, _ => none

mutual

def ofJson? : Json → Option Stmt
  | .arr [.str "if", c, .arr a, .arr b] => do
    return ifElse (← Expr.ofJson? c) (ofList (← ofItems? a)) (ofList (← ofItems? b))
  | .arr [.str "if", c, .arr a] => do return ifElse (← Expr.ofJson? c) (ofList (← ofItems? a)) skip
  | .arr [.str "while", c, .arr a] => do return whileDo (← Expr.ofJson? c) (ofList (← ofItems? a))
  | .arr (.str tag :: .str name :: args) => do return call ⟨← spaceOfTag? tag, name⟩ (← Expr.ofItems? args)
  | .arr (.str tag :: operands) => do ofTag? tag (← Expr.ofItems? operands)
  | _ => none

def ofItems? : List Json → Option (List Stmt)
  | [] => some []
  | j :: js => do
    let s ← ofJson? j
    let ss ← ofItems? js
    return s :: ss

end

end Stmt

namespace Json

/-- The statement of a field that lists statements; the empty one if it is absent. -/
def code? (j : Json) (key : String) : Option Stmt := (Stmt.ofItems? (j.list key)).map Stmt.ofList

def types? (j : Json) : Option (List ValType) := j.items.mapM fun t => t.string?.bind ValType.ofName?

/-- The type of a function, whose parts are absent where it has none. -/
def funcType? (j : Json) : Option FuncType := do
  let params ← ((j.field? "params").getD (arr [])).types?
  let results ← ((j.field? "results").getD (arr [])).types?
  return ⟨params, results⟩

/-- Initial data: an array of addresses with bytes. -/
def data? (j : Json) (key : String) : Option (List (UInt32 × List UInt8)) :=
  (j.list key).mapM fun
    | arr [num a, b] => b.bytes?.map fun bs => (UInt32.ofInt a, bs)
    | _ => none

def words (j : Json) (key : String) : List UInt32 := (j.list key).filterMap fun n => n.int?.map UInt32.ofInt

end Json

end GuestHost
