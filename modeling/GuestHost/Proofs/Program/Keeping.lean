/-
  GuestHost.Proofs.Program.Keeping — code keeps what its imports keep.

  Code by itself does nothing but read and write the module's own memory, globals and record. So a property
  that is a matter of the outside, and of globals that the code does not set (`Undisturbed`), is kept by all
  code as soon as all imports keep it, and code adds no failures but its own.

  Proved:
  - `Stmt.keeps_exec`, `Function.keeps_invoke`, `Guest.keeps_entryWith`: code keeps what its imports keep.
  - `Guest.keeps_callImport`: imports keep what the host keeps, however deep controls and imports nest.
-/

import GuestHost.Proofs.Program.Relating

namespace GuestHost

open Exec

/-- `I` speaks of the outside and of the globals that are not free, and of the memory only in so far as code
lists what it stores; and `E` allows code's own failures where `I` holds. -/
structure Undisturbed {τ : Type} (I : Machine τ → Prop) (E : Failure → Machine τ → Prop) (free : Nat → Prop) :
    Prop where
  own : ∀ {m m' : Machine τ}, m'.outer = m.outer → m'.globals = m.globals → Core.Stores m.core m'.core → I m → I m'
  setGlobal : ∀ {m : Machine τ} {k : Nat} (w : UInt32), free k → I m → I { m with globals := m.globals.set k w }
  fails : ∀ {m : Machine τ} {e : Failure}, e.Own → I m → E e m

section

variable {τ : Type} {I : Machine τ → Prop} {E : Failure → Machine τ → Prop} {free : Nat → Prop}

namespace Undisturbed

theorem homely (h : Undisturbed I E free) {α : Type} {x : (τ : Type) → Exec τ α} (hx : Homely x) :
    Keeps I E (x τ) := by
  intro m hm
  obtain ⟨r, c, ⟨hglobals, hstores⟩, hown, hr⟩ := hx m.core
  have hI : I (c.within m.outer) := h.own (m := m) rfl hglobals hstores hm
  rw [← Machine.within_core m, hr]
  cases r with
  | ok a => exact hI
  | error e => exact h.fails (hown e rfl) hI

variable {s : Setting τ}

/-- Keeping `I` is a relation of code to itself. -/
theorem relating (h : Undisturbed I E free) (hc : ∀ target args, Keeps I E (s.call target args)) :
    Relating s s free fun x _ => Keeps I E x where
  typeOf := rfl
  maxPages := rfl
  memoryShown := rfl
  recordsCalls := rfl
  obeysUnwind := rfl
  fuel := rfl
  bind := Keeps.bind
  homely := h.homely
  setGlobal _ w hk := fun _ hm => h.setGlobal w hk hm
  call := hc

end Undisturbed

variable {s : Setting τ} {params : List Value}

theorem Expr.keeps_eval (h : Undisturbed I E free) (hc : ∀ target args, Keeps I E (s.call target args))
    (locals : List UInt32) (e : Expr) : Keeps I E (e.eval s params locals) :=
  Expr.related_eval (h.relating hc) locals e

theorem Stmt.keeps_exec (h : Undisturbed I E free) (hc : ∀ target args, Keeps I E (s.call target args)) (stmt : Stmt)
    (hfree : ∀ k ∈ stmt.globalsSet, free k) (locals : List UInt32) : Keeps I E (stmt.exec s params locals) :=
  Stmt.related_exec (h.relating hc) stmt hfree locals

theorem Stmt.keeps_run (h : Undisturbed I E free) (hc : ∀ target args, Keeps I E (s.call target args)) (body : Stmt)
    (hfree : ∀ k ∈ body.globalsSet, free k) : Keeps I E (body.run s params) :=
  Stmt.related_run (h.relating hc) body hfree

theorem Function.keeps_invoke (h : Undisturbed I E free) (hc : ∀ target args, Keeps I E (s.call target args))
    (f : Function) (hfree : ∀ k ∈ f.body.globalsSet, free k) (args : List Value) : Keeps I E (f.invoke s args) :=
  Function.related_invoke (h.relating hc) f hfree args

namespace Guest

theorem keeps_entryWith (h : Undisturbed I E free) (g : Guest) (limits : Limits)
    {call : ImportName → List Value → Exec τ (List Value)} (hc : ∀ target args, Keeps I E (call target args))
    (hfree : ∀ k ∈ g.globalsSet, free k) : Keeps I E (g.entryWith limits call) :=
  g.related_entryWith limits (fun _ => h.relating hc) hfree

theorem keeps_callImport {κ η : Type} {I : Machine (Hosted κ η) → Prop} {E : Failure → Machine (Hosted κ η) → Prop}
    {free : Nat → Prop} (h : Undisturbed I E free) (g : Guest) (limits : Limits) (host : Host κ η)
    (hhost : ∀ call, (∀ target args, Keeps I E (call target args)) →
      ∀ target args, Keeps I E (host.answer (g.controlsWith limits call) target args)) :
    ∀ (depth : Nat) (target : ImportName) (args : List Value), Keeps I E (g.callImport limits host depth target args)
  | 0, _, _ => h.homely (Homely.trap _)
  | depth + 1, target, args => hhost _ (keeps_callImport h g limits host hhost depth) target args

end Guest

end

end GuestHost
