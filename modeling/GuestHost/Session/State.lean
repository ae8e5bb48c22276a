/-
  GuestHost.Session.State — one run of a guest: its options, and the state that the host keeps for it.
-/

import GuestHost.Filesystem.Instance
import GuestHost.Stream.Descriptor
import GuestHost.Abi.IoVec

namespace GuestHost

structure Options where
  args : List String := []
  /-- The environment, in the order in which it was set. -/
  env : List (String × String) := []
  /-- Whether an exit, or an unreachable instruction, becomes the run's status. -/
  returnOnExit : Bool := false
  seed : Seed := {}
  stdin : Option Source := none
  stdout : Option SinkPlan := none
  stderr : Option SinkPlan := none
  /-- Whether transfers go straight to the streams, which takes a guest that can be suspended. -/
  streaming : Bool := true
  traceImports : Bool := false

structure Stdio where
  input : Descriptor
  output : Descriptor
  error : Descriptor
  deriving DecidableEq

namespace Stdio

def get? (s : Stdio) : Nat → Option Descriptor
  | 0 => some s.input
  | 1 => some s.output
  | 2 => some s.error
  | _ => none

def put (s : Stdio) (d : Descriptor) : Nat → Stdio
  | 0 => { s with input := d }
  | 1 => { s with output := d }
  | 2 => { s with error := d }
  | _ => s

end Stdio

inductive LogLine where
  /-- The trace of an import call. -/
  | call (text : String)
  /-- A report of the filesystem module. -/
  | report (text : String)
  deriving DecidableEq, Repr

inductive Deed where
  /-- The handler of an import began. -/
  | handled (name : String) (args : List Value)
  /-- The views of a write were given to a standard descriptor. -/
  | offered (fd : Nat) (views : List View)
  /-- The guest asked to exit, and was then as it is here. -/
  | exiting (code : Int32) (guest : Machine Unit)

structure Session where
  args : List String
  /-- The environment as the guest sees it. -/
  env : List String
  stdio : Stdio
  filesystem : Machine Linkage
  log : Array LogLine := #[]
  /-- How many random bytes were asked for. -/
  drawn : Nat := 0
  /-- What the host did, in order. Nothing reads it. -/
  deeds : Array Deed := #[]

inductive Work where
  /-- A read on a descriptor, the buffers to fill, and the address for the count. -/
  | read (fd : Nat) (lens : PendingRead) (buffers : List IoVec) (result : UInt32)
  /-- A write on a descriptor, and the address for the count. -/
  | write (fd : Nat) (chunks : PendingWrite) (result : UInt32)
  /-- Nothing but a value to come. -/
  | value (w : UInt32)

structure Surroundings where
  /-- The time in milliseconds. -/
  now : Nat
  /-- The random bytes, in the order in which they are drawn; none where their source fails. -/
  random : Nat → Option UInt8

abbrev Act := Exec (Hosted Work Session)

namespace Options

def rendered (o : Options) : List String := o.env.map fun (key, value) => key ++ "=" ++ value

def stdio (o : Options) : Stdio :=
  ⟨Descriptor.ofSource o.stdin o.streaming, Descriptor.ofSink o.stdout o.streaming,
    Descriptor.ofSink o.stderr o.streaming⟩

end Options

namespace Session

def write (line : LogLine) : Act Unit :=
  modify fun m =>
    { m with outer := { m.outer with host := { m.outer.host with log := m.outer.host.log.push line } } }

def mark (deed : Deed) : Act Unit :=
  modify fun m =>
    { m with outer := { m.outer with host := { m.outer.host with deeds := m.outer.host.deeds.push deed } } }

/-- The session with the module's reports moved to the log. -/
def takeReports (s : Session) : Session :=
  { s with
    log := s.log ++ s.filesystem.outer.messages.map .report
    filesystem := { s.filesystem with outer := { s.filesystem.outer with messages := #[] } } }

/-- An action on the descriptor of a number; `absent` if there is none. -/
def onStream {α : Type} (fd : Nat) (absent : α) (act : EStateM StreamError Descriptor α) : Act α := fun m =>
  let s := m.outer.host
  let keep (d : Descriptor) := { m with outer := { m.outer with host := { s with stdio := s.stdio.put d fd } } }
  match s.stdio.get? fd with
  | none => .ok absent m
  | some d =>
    match act d with
    | .ok a d => .ok a (keep d)
    | .error e d => .error (.stream e) (keep d)

theorem onStream_map {α β : Type} (fd : Nat) (absent : α) (f : α → β) (act : EStateM StreamError Descriptor α) :
    onStream fd (f absent) (f <$> act) = f <$> onStream fd absent act := by
  funext m
  simp only [onStream, Functor.map, EStateM.map]
  cases m.outer.host.stdio.get? fd with
  | none => rfl
  | some d =>
    dsimp only
    cases act d <;> rfl

/-- An action of the filesystem module, with the guest's memory bound. -/
def onFilesystem {α : Type} (act : FilesystemAct α) : Act α := fun m =>
  let s := m.outer.host
  let keep (f : Machine Linkage) : Machine (Hosted Work Session) :=
    { m with
      memory := f.outer.guest
      outer := { m.outer with host := { s with filesystem := f }.takeReports } }
  let linked := { s.filesystem.outer with guest := m.memory, guestBound := true }
  match act { s.filesystem with outer := linked } with
  | .ok a f => .ok a (keep f)
  | .error e f => .error e (keep f)

end Session

end GuestHost
