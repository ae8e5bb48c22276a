/-
  GuestHost.Abi.Value — the values that pass between modules and their host: words of 32 and 64 bits, and
  floats by their bits.
-/

namespace GuestHost

inductive ValType where
  | i32
  | i64
  | f32
  | f64
  deriving DecidableEq, Repr

def ValType.name : ValType → String
  | i32 => "i32"
  | i64 => "i64"
  | f32 => "f32"
  | f64 => "f64"

def ValType.ofName? : String → Option ValType
  | "i32" => some .i32
  | "i64" => some .i64
  | "f32" => some .f32
  | "f64" => some .f64
  | _ => none

structure FuncType where
  params : List ValType
  results : List ValType
  deriving DecidableEq, Repr

/-- A value; a float is kept as its bits. -/
inductive Value where
  | i32 (w : UInt32)
  | i64 (w : UInt64)
  | f32 (bits : UInt32)
  | f64 (bits : UInt64)
  deriving DecidableEq, Repr, Inhabited

def signed (w : UInt32) : Int := w.toInt32.toInt

namespace Value

def type : Value → ValType
  | i32 _ => .i32
  | i64 _ => .i64
  | f32 _ => .f32
  | f64 _ => .f64

def zero : ValType → Value
  | .i32 => i32 0
  | .i64 => i64 0
  | .f32 => f32 0
  | .f64 => f64 0

/-- A word as a value of a type: sign-extended, or as the float of the signed number. -/
def ofWord (t : ValType) (w : UInt32) : Value :=
  match t with
  | .i32 => i32 w
  | .i64 => i64 w.toInt32.toInt64.toUInt64
  | .f32 => f32 w.toInt32.toFloat32.toBits
  | .f64 => f64 w.toInt32.toFloat.toBits

/-- A value as a word: the low half of a long word, a float cut to a whole number and clamped. -/
def toWord : Value → UInt32
  | i32 w => w
  | i64 w => w.toUInt32
  | f32 bits => (Float32.ofBits bits).toInt32.toUInt32
  | f64 bits => (Float.ofBits bits).toInt32.toUInt32

/-- The high half of a long word; zero for any other value. -/
def highWord : Value → UInt32
  | i64 w => (w >>> 32).toUInt32
  | _ => 0

@[simp] theorem type_zero (t : ValType) : (zero t).type = t := by cases t <;> rfl

@[simp] theorem type_ofWord (t : ValType) (w : UInt32) : (ofWord t w).type = t := by cases t <;> rfl

/-- How an argument shows in an import trace: a whole number signed, a float as its bits. -/
def traceText : Value → String
  | i32 w => toString (signed w)
  | i64 w => toString w.toInt64.toInt
  | f32 bits => "F32(" ++ toString bits.toNat ++ ")"
  | f64 bits => "F64(" ++ toString bits.toNat ++ ")"

end Value

def typesMatch (types : List ValType) (values : List Value) : Bool := values.map Value.type == types

end GuestHost
