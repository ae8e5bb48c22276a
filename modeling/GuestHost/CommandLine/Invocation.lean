/-
  GuestHost.CommandLine.Invocation — what is asked for on the command line.

      run GUEST --memfs PATH [--arg TEXT] [--env KEY=VALUE] [--preopen DIR] [--file PATH=CONTENTS]
          [--no-stream-stdio] [--return-on-exit] [--trace-imports]

  A value follows its option or is attached to it by an equals sign; one that begins with a dash has to be
  attached. A value that follows is looked at only when the next argument has been recognised, so an
  unknown argument counts before the value in front of it (`read`).
-/

import GuestHost.Text.Quoted
import GuestHost.Text.Terminal

namespace GuestHost.CommandLine

/-- An option with a value. -/
inductive ValueOption where
  | memfs
  | arg
  | env
  | preopen
  | file
  deriving DecidableEq, Repr

/-- An option without one. -/
inductive Switch where
  | noStreamStdio
  | returnOnExit
  | traceImports
  deriving DecidableEq, Repr

inductive Refusal where
  /-- Help was asked for. -/
  | help
  /-- A value that should be a pair has no equals sign. -/
  | noPair (option : ValueOption) (raw : String)
  /-- The arguments do not fit together. -/
  | usage
  deriving DecidableEq, Repr

structure Invocation where
  guest : Option String := none
  memfs : Option String := none
  args : List String := []
  env : List (String × String) := []
  preopens : List String := []
  files : List (String × String) := []
  noStreamStdio : Bool := false
  returnOnExit : Bool := false
  traceImports : Bool := false
  deriving DecidableEq, Repr

def ValueOption.shown : ValueOption → String
  | memfs => "--memfs <MEMFS>"
  | arg => "--arg <ARGS>"
  | env => "--env <ENV>"
  | preopen => "--preopen <PREOPENS>"
  | file => "--file <FILES>"

/-- What an option is, by its name. -/
inductive Known where
  | value (o : ValueOption)
  | switch (s : Switch)
  | help
  | unknown
  deriving DecidableEq, Repr

def Known.ofName : String → Known
  | "memfs" => value .memfs
  | "arg" => value .arg
  | "env" => value .env
  | "preopen" => value .preopen
  | "file" => value .file
  | "no-stream-stdio" => switch .noStreamStdio
  | "return-on-exit" => switch .returnOnExit
  | "trace-imports" => switch .traceImports
  | "help" => help
  | _ => unknown

/-- An argument by its shape. -/
inductive Token where
  /-- Two dashes: what follows is no option. -/
  | ending
  | long (name : String) (attached : Option String)
  | short (flags : List Char)
  | plain (text : String)
  deriving DecidableEq, Repr

/-- The two parts of a text at its first equals sign. -/
def splitPair? (s : String) : Option (String × String) :=
  match s.toList.dropWhile (· != '=') with
  | _ :: rest => some (String.ofList (s.toList.takeWhile (· != '=')), String.ofList rest)
  | [] => none

/-- The shape of an argument. A lone dash is plain. -/
def Token.ofArgument (s : String) : Token :=
  match s.toList with
  | ['-', '-'] => ending
  | '-' :: '-' :: rest =>
    let text := String.ofList rest
    match splitPair? text with
    | some (name, value) => long name (some value)
    | none => long text none
  | '-' :: c :: rest => short (c :: rest)
  | _ => plain s

/-- What was recognised last and is still to be looked at. -/
inductive Pending where
  | nothing
  | guest (path : String)
  | option (o : ValueOption) (value : Option String)
  deriving DecidableEq, Repr

namespace Invocation

/-- Takes the path of a module. There can be only one, and it is not empty. -/
def takePath (old : Option String) (path : String) : Except Refusal (Option String) :=
  if old.isSome || path.isEmpty then .error .usage else .ok (some path)

def take (i : Invocation) (o : ValueOption) (value : String) : Except Refusal Invocation :=
  let pair : Except Refusal (String × String) :=
    match splitPair? value with
    | some p => .ok p
    | none => .error (.noPair o value)
  match o with
  | .memfs => do return { i with memfs := ← takePath i.memfs value }
  | .arg => .ok { i with args := i.args ++ [value] }
  | .preopen => .ok { i with preopens := i.preopens ++ [value] }
  | .env => do return { i with env := i.env ++ [← pair] }
  | .file => do return { i with files := i.files ++ [← pair] }

def turn (i : Invocation) (s : Switch) : Except Refusal Invocation :=
  match s with
  | .noStreamStdio => if i.noStreamStdio then .error .usage else .ok { i with noStreamStdio := true }
  | .returnOnExit => if i.returnOnExit then .error .usage else .ok { i with returnOnExit := true }
  | .traceImports => if i.traceImports then .error .usage else .ok { i with traceImports := true }

def settle (i : Invocation) : Pending → Except Refusal Invocation
  | .nothing => .ok i
  | .guest path => do return { i with guest := ← takePath i.guest path }
  | .option o (some value) => i.take o value
  | .option _ none => .error .usage

end Invocation

/-- Reads the arguments, where those after two dashes are no options. -/
def read (i : Invocation) : (afterEnding : Bool) → Pending → List String → Except Refusal Invocation
  | _, pending, [] => i.settle pending
  | afterEnding, pending, s :: rest =>
    match if afterEnding then Token.plain s else Token.ofArgument s with
    | .ending => read i true pending rest
    | .long name attached =>
      match Known.ofName name, attached with
      | .value o, none => do read (← i.settle pending) false (.option o none) rest
      | .value o, some value => do read (← (← i.settle pending).take o value) false .nothing rest
      | .switch s, none => do read (← (← i.settle pending).turn s) false .nothing rest
      | .help, none => do
        let _ ← i.settle pending
        throw .help
      | _, _ => throw .usage
    | .short flags => do
      if flags.head? = some 'h' then
        let _ ← i.settle pending
        throw .help
      else throw .usage
    | .plain s =>
      match pending with
      | .option o none => if afterEnding then throw .usage else read i false (.option o (some s)) rest
      | .guest _ => throw .usage
      | _ =>
        if i.guest.isSome then throw .usage
        else do read (← i.settle pending) afterEnding (.guest s) rest

def commandName : String := "run"

/-- Reads the whole command line. The two modules have to be there. -/
def parse : List String → Except Refusal Invocation
  | [] => .error .usage
  | command :: rest => do
    if command = commandName then
      let i ← read {} false .nothing rest
      if i.guest.isSome && i.memfs.isSome then return i else throw .usage
    else if command = "help" then
      if rest = [] || rest = [commandName] || rest = ["help"] then throw .help else throw .usage
    else
      match Token.ofArgument command with
      | .long "help" none => throw .help
      | .short ('h' :: _) => throw .help
      | _ => throw .usage

def Refusal.line? : Refusal → Option String
  | noPair o raw =>
    some ("error: invalid value '" ++ plainText raw ++ "' for '" ++ o.shown ++ "': expected KEY=VALUE, got " ++
      quoted raw)
  | usage => some "error: the arguments cannot be used like this"
  | help => none

end GuestHost.CommandLine
