/-
  GuestHost.Stream.Exchange — sequences of operations on one descriptor, in which transfers are made, kept
  and later awaited or dropped in any order.

  Transfers are numbered in the order in which they are made. Awaiting a transfer finishes it and gives its
  number up; dropping one gives its number up and does nothing else.
-/

import GuestHost.Stream.Descriptor

namespace GuestHost

inductive Held where
  | read (t : Transfer (List UInt8) PendingRead)
  | write (t : Transfer UInt32 PendingWrite)

/-- A descriptor with the transfers made on it; `none` where the number was given up. -/
structure Exchange where
  descriptor : Descriptor
  made : List (Option Held) := []

inductive Operation where
  | kind
  | buffered
  | close
  | preRun
  | postRun
  | readv (lens : List UInt32)
  | writev (views : List View)
  | startRead (lens : List UInt32)
  | startWrite (views : List View)
  | await (number : Nat)
  | drop (number : Nat)

inductive Answer where
  | done
  | kind (name : String)
  | buffered (bs : List UInt8)
  | read (waited : Bool) (bs : List UInt8)
  | wrote (waited : Bool) (count : UInt32)
  | made (number : Nat) (pending : Bool)
  | noSuchTransfer

namespace Exchange

def on {α : Type} (act : EStateM StreamError Descriptor α) : EStateM StreamError Exchange α := fun x =>
  match act x.descriptor with
  | .ok a d => .ok a { x with descriptor := d }
  | .error e d => .error e { x with descriptor := d }

def keep (h : Held) (pending : Bool) : EStateM StreamError Exchange Answer := fun x =>
  .ok (.made x.made.length pending) { x with made := x.made ++ [some h] }

/-- Takes the transfer of a number out. -/
def release (number : Nat) : EStateM StreamError Exchange (Option Held) := fun x =>
  .ok (x.made.getD number none) { x with made := x.made.set number none }

def finish : Held → EStateM StreamError Exchange Answer
  | .read (.ready bs) => pure (.read false bs)
  | .read (.pending work) => return .read true (← on (Descriptor.finishRead work))
  | .write (.ready n) => pure (.wrote false n)
  | .write (.pending work) => return .wrote true (← on (Descriptor.finishWrite work))

def perform : Operation → EStateM StreamError Exchange Answer
  | .kind => return .kind (← get).descriptor.kind
  | .buffered => return .buffered (← get).descriptor.buffered
  | .close => do on Descriptor.close; return .done
  | .preRun => do on Descriptor.preRun; return .done
  | .postRun => do on Descriptor.postRun; return .done
  | .readv lens => do finish (.read (← on (Descriptor.readv lens)))
  | .writev views => do finish (.write (← on (Descriptor.writev views)))
  | .startRead lens => do
    let t ← on (Descriptor.readv lens)
    keep (.read t) t.isPending
  | .startWrite views => do
    let t ← on (Descriptor.writev views)
    keep (.write t) t.isPending
  | .await number => do
    match ← release number with
    | some h => finish h
    | none => return .noSuchTransfer
  | .drop number => do
    match ← release number with
    | some _ => return .done
    | none => return .noSuchTransfer

/-- Performs operations in turn, also after one failed. Each answer comes with the events that the
operation brought to the sink. -/
def performAll : List Operation → Exchange → List (Except StreamError Answer × List SinkEvent) × Exchange
  | [], x => ([], x)
  | op :: ops, x =>
    let seen := x.descriptor.events.length
    let (answer, x') : Except StreamError Answer × Exchange :=
      match perform op x with
      | .ok a x' => (.ok a, x')
      | .error e x' => (.error e, x')
    let (answers, last) := performAll ops x'
    ((answer, x'.descriptor.events.drop seen) :: answers, last)

end Exchange

end GuestHost
