/-
  GuestHost.Program.Eval — what code does.

  Evaluation is by recursion on the code; only loops take fuel, a number of turns for each loop. The
  evaluator has a parameter for what imports do (`Setting.call`), so it runs guests and filesystem modules
  alike, and a property that all imports keep is kept by all code.
-/

import GuestHost.Program.Code
import GuestHost.Program.Machine

namespace GuestHost

structure Setting (τ : Type) where
  /-- What an import does with its arguments. -/
  call : ImportName → List Value → Exec τ (List Value)
  /-- The type at which the module declares an import. -/
  typeOf : ImportName → FuncType
  /-- The most pages that the memory can have. -/
  maxPages : Nat
  maxPages_le : maxPages ≤ pageLimit
  /-- Whether recording statements can look at the memory. -/
  memoryShown : Bool
  /-- Whether call statements are recorded. -/
  recordsCalls : Bool
  /-- Whether the body is left when a call statement has started an unwind. -/
  obeysUnwind : Bool
  /-- How many turns a loop may take. -/
  fuel : Nat

/-- How a statement ends: with the next one, or by leaving the body. -/
inductive Flow where
  | next
  | leave
  deriving DecidableEq, Repr

/-- The global in which an instrumented guest keeps its suspension state. -/
def stateGlobal : Nat := 8

/-- The value of that global while the guest unwinds. -/
def unwindingWord : UInt32 := 1

def wordOfBool (b : Bool) : UInt32 := if b then 1 else 0

def BinaryOp.eval {τ : Type} : BinaryOp → UInt32 → UInt32 → Exec τ UInt32
  | add, x, y => pure (x + y)
  | sub, x, y => pure (x - y)
  | mul, x, y => pure (x * y)
  | eq, x, y => pure (wordOfBool (x == y))
  | ne, x, y => pure (wordOfBool (x != y))
  | lt, x, y => pure (wordOfBool (x < y))
  | gt, x, y => pure (wordOfBool (y < x))
  | div, x, y => if y = 0 then Exec.trap .divisionByZero else pure (x / y)

/-- The word that an expression sees of the results of a call. -/
def resultWord (results : List Value) : UInt32 := (results.head?.map Value.toWord).getD 0

section

variable {τ : Type} (s : Setting τ) (params : List Value)

namespace Expr

mutual

/-- The value of an expression, where `locals` are the values of the locals. -/
def eval (locals : List UInt32) : Expr → Exec τ UInt32
  | lit n => pure (UInt32.ofInt n)
  | param k => pure ((params[k]?.map Value.toWord).getD 0)
  | paramHigh k => pure ((params[k]?.map Value.highWord).getD 0)
  | localVar k => pure (locals.getD k 0)
  | globalVar k => Exec.global k
  | load a => do Exec.loadWord (← eval locals a)
  | loadByte a => do Exec.loadByte (← eval locals a)
  | binary op x y => do
    let v ← eval locals x
    let w ← eval locals y
    op.eval v w
  | isZero x => do return wordOfBool ((← eval locals x) == 0)
  | pages => do return UInt32.ofNat (← get).memory.pages
  | grow n => do Exec.growPages s.maxPages (← eval locals n)
  | call target args => do
    let values ← evalArgs locals (s.typeOf target).params args
    return resultWord (← s.call target values)

/-- The arguments of a call to a function of the given parameters. A literal is taken as it is where a long
word is due. -/
def evalArgs (locals : List UInt32) : List ValType → List Expr → Exec τ (List Value)
  | [], _ => pure []
  | types, [] => pure (types.map Value.zero)
  | .i64 :: types, lit n :: es => do return .i64 (UInt64.ofInt n) :: (← evalArgs locals types es)
  | t :: types, e :: es => do
    let v ← eval locals e
    return Value.ofWord t v :: (← evalArgs locals types es)

end

end Expr

def repeatWhile (cond : List UInt32 → Exec τ Bool) (body : List UInt32 → Exec τ (Flow × List UInt32)) :
    Nat → List UInt32 → Exec τ (Flow × List UInt32)
  | 0, _ => throw .outOfFuel
  | fuel + 1, locals => do
    if ← cond locals then
      match ← body locals with
      | (.leave, locals) => return (.leave, locals)
      | (.next, locals) => repeatWhile cond body fuel locals
    else return (.next, locals)

/-- Whether a long word is a time of today in nanoseconds: whole milliseconds, and not before 2020. -/
def plausibleTime (bs : List UInt8) : Bool :=
  let t := ofBytesLE bs
  t % 1000000 == 0 && 1577836800000000000 < t

namespace Stmt

def look (addr len : UInt32) : Exec τ (Option (List UInt8)) :=
  if s.memoryShown then Exec.peek addr len else pure none

def exec (locals : List UInt32) : Stmt → Exec τ (Flow × List UInt32)
  | skip => pure (.next, locals)
  | seq a b => do
    match ← exec locals a with
    | (.leave, locals) => return (.leave, locals)
    | (.next, locals) => exec locals b
  | setLocal k e => do return (.next, locals.set k (← e.eval s params locals))
  | setGlobal k e => do
    Exec.setGlobal k (← e.eval s params locals)
    return (.next, locals)
  | store a e => do
    let addr ← a.eval s params locals
    let w ← e.eval s params locals
    Exec.storeBytes addr (wordBytes w)
    return (.next, locals)
  | storeByte a e => do
    let addr ← a.eval s params locals
    let w ← e.eval s params locals
    Exec.storeBytes addr [w.toUInt8]
    return (.next, locals)
  | copy d a n => do
    let dst ← d.eval s params locals
    let src ← a.eval s params locals
    let len ← n.eval s params locals
    Exec.copyBytes dst src len
    return (.next, locals)
  | drop e => do
    let _ ← e.eval s params locals
    return (.next, locals)
  | ifElse c a b => do
    if (← c.eval s params locals) != 0 then exec locals a else exec locals b
  | whileDo c a =>
    repeatWhile (fun locals => do return (← c.eval s params locals) != 0) (fun locals => exec locals a)
      s.fuel locals
  | unreachable => Exec.trap .unreachable
  | leave => pure (.leave, locals)
  | note e => do
    Exec.record (.note (← e.eval s params locals))
    return (.next, locals)
  | dump a n => do
    let addr ← a.eval s params locals
    let len ← n.eval s params locals
    Exec.record (.dump (← look s addr len))
    return (.next, locals)
  | nonzero a n => do
    let addr ← a.eval s params locals
    let len ← n.eval s params locals
    Exec.record (.nonzero ((← look s addr len).map fun bs => bs.any (· != 0)))
    return (.next, locals)
  | clock a => do
    let addr ← a.eval s params locals
    Exec.record (.clock ((← look s addr 8).map plausibleTime))
    return (.next, locals)
  | call target args => do
    let values ← Expr.evalArgs s params locals (s.typeOf target).params args
    let result := resultWord (← s.call target values)
    if s.obeysUnwind && (← Exec.global stateGlobal) == unwindingWord then return (.leave, locals)
    else
      if s.recordsCalls then Exec.record (.called target.name result)
      return (.next, locals)

end Stmt

def freshLocals : List UInt32 := List.replicate 8 0

def Stmt.run (body : Stmt) : Exec τ (List UInt32) := do
  let (_, locals) ← body.exec s params freshLocals
  return locals

end

/-- Calls a function with arguments: its result expression, as a value of each of its result types. -/
def Function.invoke {τ : Type} (f : Function) (s : Setting τ) (args : List Value) : Exec τ (List Value) := do
  let locals ← f.body.run s args
  if f.type.results.isEmpty then return []
  else
    let w ← f.result.eval s args locals
    return f.type.results.map (Value.ofWord · w)

end GuestHost
