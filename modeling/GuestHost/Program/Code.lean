/-
  GuestHost.Program.Code — the little language in which modules are written.

  Everything is a 32-bit word. A module has one memory, ten globals, and functions of parameters, eight
  locals and a body. Expressions are evaluated left to right; calls go to the module's imports.
-/

import GuestHost.Abi.Value

namespace GuestHost

structure ImportName where
  space : String
  name : String
  deriving DecidableEq, Repr

/-- An operation on two words. The order and the division are those of unsigned numbers. -/
inductive BinaryOp where
  | add
  | sub
  | mul
  | eq
  | ne
  | lt
  | gt
  | div
  deriving DecidableEq, Repr

inductive Expr where
  | lit (n : Int)
  /-- A parameter; of a long word its low half. -/
  | param (k : Nat)
  /-- The high half of a parameter. -/
  | paramHigh (k : Nat)
  | localVar (k : Nat)
  | globalVar (k : Nat)
  | load (addr : Expr)
  | loadByte (addr : Expr)
  | binary (op : BinaryOp) (x y : Expr)
  | isZero (x : Expr)
  /-- The size of the memory in pages. -/
  | pages
  /-- Grows the memory by a number of pages: the size before, or the largest word if it may not grow. -/
  | grow (n : Expr)
  /-- Calls an import. Missing arguments are zero, superfluous ones are not evaluated. -/
  | call (target : ImportName) (args : List Expr)
  deriving Repr, Inhabited

inductive Stmt where
  | skip
  | seq (s t : Stmt)
  | setLocal (k : Nat) (e : Expr)
  | setGlobal (k : Nat) (e : Expr)
  | store (addr e : Expr)
  | storeByte (addr e : Expr)
  | copy (dst src len : Expr)
  | drop (e : Expr)
  | ifElse (c : Expr) (s t : Stmt)
  | whileDo (c : Expr) (s : Stmt)
  | unreachable
  /-- Leaves the body. -/
  | leave
  /-- Records a word. -/
  | note (e : Expr)
  /-- Records bytes of the memory. -/
  | dump (addr len : Expr)
  /-- Records whether some of the bytes is not zero. -/
  | nonzero (addr len : Expr)
  /-- Records whether the long word at an address is a plausible time. -/
  | clock (addr : Expr)
  /-- Calls an import and records its name and its result. -/
  | call (target : ImportName) (args : List Expr)
  deriving Repr, Inhabited

def Stmt.ofList (body : List Stmt) : Stmt := body.foldr .seq .skip

/-- A function. Its result expression is evaluated also if the body was left. -/
structure Function where
  type : FuncType
  body : Stmt
  result : Expr := .lit 0
  deriving Repr

/-! ## The imports that code names -/

namespace Expr

mutual

def targets : Expr → List ImportName
  | lit _ | param _ | paramHigh _ | localVar _ | globalVar _ | pages => []
  | load e | loadByte e | isZero e | grow e => targets e
  | binary _ x y => targets x ++ targets y
  | call target args => target :: targetsAll args

def targetsAll : List Expr → List ImportName
  | [] => []
  | e :: es => targets e ++ targetsAll es

end

end Expr

def Stmt.targets : Stmt → List ImportName
  | skip | unreachable | leave => []
  | seq s t => s.targets ++ t.targets
  | setLocal _ e | setGlobal _ e | drop e | note e | clock e => e.targets
  | store a e | storeByte a e | dump a e | nonzero a e => a.targets ++ e.targets
  | copy d s n => d.targets ++ s.targets ++ n.targets
  | ifElse c s t => c.targets ++ s.targets ++ t.targets
  | whileDo c s => c.targets ++ s.targets
  | call target args => target :: Expr.targetsAll args

def Function.targets (f : Function) : List ImportName := f.body.targets ++ f.result.targets

end GuestHost
