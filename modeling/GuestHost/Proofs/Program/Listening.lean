/-
  GuestHost.Proofs.Program.Listening — the calls that a program makes, in the order in which it makes them.

  A listener stands beside the outside of a module and puts each call on a list: the import, its arguments, and what
  the program got for it. It changes nothing of a run, so the list is that of the program itself, whether anybody
  listens or not (`Guest.calls`).

  An outside may keep a record of its own of what it was called for. What each call adds to it (`Adds`), all calls
  together add, in their order. A record with a line for each call (`Tells`) is the simplest case.

  Proved:
  - `Guest.entryWith_hear`: the run of an entry point with a listener is its run, with the calls beside it.
  - `Guest.added_entryWith`: what a run adds to a record is what its calls add.
  - `Guest.told_entryWith`: what is told of each call is told of the whole run.
-/

import GuestHost.Proofs.Program.Keeping
import GuestHost.Proofs.Program.Script

namespace GuestHost

open Exec

structure Heard (ν : Type) where
  target : ImportName
  args : List Value
  /-- The result that the program saw, or the failure that ended the call. -/
  outcome : Except Failure UInt32
  /-- What the listener saw of the machine when the call was made. -/
  seen : ν

/-- Which calls are listened to, and what is seen when they are made. -/
structure Listener (τ ν : Type) where
  hears : ImportName → Bool
  sees : ImportName → List Value → Machine τ → ν

/-- The listener that hears every call and sees the memory. -/
def Listener.all {τ : Type} : Listener τ Memory := ⟨fun _ => true, fun _ _ m => m.memory⟩

section

variable {τ ν α β ω : Type}

/-! ## A list beside the outside -/

/-- The machine with a list of calls beside its outside. -/
def Machine.withCalls (m : Machine τ) (calls : List (Heard ν)) : Machine (τ × List (Heard ν)) :=
  m.core.within (m.outer, calls)

/-- The machine without the list. -/
def Machine.unheard (m : Machine (τ × List (Heard ν))) : Machine τ := m.core.within m.outer.1

def Exec.withCalls (r : EStateM.Result Failure (Machine τ) α) (calls : List (Heard ν)) :
    EStateM.Result Failure (Machine (τ × List (Heard ν))) α :=
  match r with
  | .ok a m => .ok a (m.withCalls calls)
  | .error e m => .error e (m.withCalls calls)

def Exec.heardIn : EStateM.Result Failure (Machine (τ × List (Heard ν))) α → List (Heard ν)
  | .ok _ m | .error _ m => m.outer.2

/-- What a program gets of a call: the word that an expression sees, or the failure. -/
def Exec.outcome : EStateM.Result Failure (Machine τ) (List Value) → Except Failure UInt32
  | .ok results _ => .ok (resultWord results)
  | .error e _ => .error e

theorem Exec.heardIn_withCalls (r : EStateM.Result Failure (Machine τ) α) (calls : List (Heard ν)) :
    heardIn (withCalls r calls) = calls := by cases r <;> rfl

/-! ## Listening -/

namespace Listener

variable (ear : Listener τ ν) {call : ImportName → List Value → Exec τ (List Value)} {target : ImportName}
  {args vs : List Value} {m : Machine (τ × List (Heard ν))} {n : Machine τ}

/-- What is put on the list for a call that is made on this machine. -/
def note (target : ImportName) (args : List Value) (m : Machine τ) (outcome : Except Failure UInt32) : List (Heard ν) :=
  if ear.hears target then [⟨target, args, outcome, ear.sees target args m⟩] else []

/-- The import, with the listener beside it. -/
def hear (call : ImportName → List Value → Exec τ (List Value)) (target : ImportName) (args : List Value) :
    Exec (τ × List (Heard ν)) (List Value) := fun m =>
  let r := call target args m.unheard
  withCalls r (m.outer.2 ++ ear.note target args m.unheard (outcome r))

theorem hear_of_ok (h : call target args m.unheard = .ok vs n) : ear.hear call target args m =
    .ok vs (n.withCalls (m.outer.2 ++ ear.note target args m.unheard (.ok (resultWord vs)))) := by
  simp only [hear, h]
  rfl

theorem hear_of_error {e : Failure} (h : call target args m.unheard = .error e n) : ear.hear call target args m =
    .error e (n.withCalls (m.outer.2 ++ ear.note target args m.unheard (.error e))) := by
  simp only [hear, h]
  rfl

/-- The import does for a listened call what it does. -/
theorem unheard_of_ok {m' : Machine (τ × List (Heard ν))} (h : ear.hear call target args m = .ok vs m') :
    call target args m.unheard = .ok vs m'.unheard := by
  cases hr : call target args m.unheard with
  | ok ws n =>
    rw [ear.hear_of_ok hr] at h
    cases h
    rfl
  | error e n =>
    rw [ear.hear_of_error hr] at h
    cases h

end Listener

/-- `y` is `x` with a listener: it does the same, and adds to the list. -/
def Listens (x : Exec τ α) (y : Exec (τ × List (Heard ν)) α) : Prop :=
  ∀ m calls, ∃ more, y (m.withCalls calls) = withCalls (x m) (calls ++ more)

namespace Listens

theorem homely {x : (τ : Type) → Exec τ α} (hx : Homely x) : Listens (x τ) (x (τ × List (Heard ν))) := by
  intro m calls
  obtain ⟨r, c, -, -, h⟩ := hx m.core
  refine ⟨[], ?_⟩
  have hplain : x τ m = yields r (c.within m.outer) := h τ m.outer
  have hlistened : x (τ × List (Heard ν)) (m.withCalls calls) = yields r (c.within (m.outer, calls)) := h _ _
  rw [hplain, hlistened, List.append_nil]
  cases r <;> rfl

theorem setGlobal (k : Nat) (w : UInt32) :
    Listens (Exec.setGlobal k w : Exec τ Unit) (Exec.setGlobal k w : Exec (τ × List (Heard ν)) Unit) :=
  fun _ _ => ⟨[], by rw [List.append_nil]; rfl⟩

theorem call (ear : Listener τ ν) (call : ImportName → List Value → Exec τ (List Value)) (target : ImportName)
    (args : List Value) : Listens (call target args) (ear.hear call target args) :=
  fun m _ => ⟨ear.note target args m (outcome (call target args m)), rfl⟩

theorem bind {x : Exec τ α} {y : Exec (τ × List (Heard ν)) α} {f : α → Exec τ β} {g : α → Exec (τ × List (Heard ν)) β}
    (hx : Listens x y) (hf : ∀ a, Listens (f a) (g a)) : Listens (x >>= f) (y >>= g) := by
  intro m calls
  obtain ⟨more, hy⟩ := hx m calls
  rw [bind_apply, bind_apply, hy]
  cases x m with
  | error e n => exact ⟨more, rfl⟩
  | ok a n =>
    obtain ⟨later, hg⟩ := hf a n (calls ++ more)
    exact ⟨more ++ later, by rw [← List.append_assoc]; exact hg⟩

/-- Code with a listener beside it is the same code. -/
theorem relating (ear : Listener τ ν) (s : Setting τ) :
    Relating s (s.serving (ear.hear s.call)) (fun _ => True) Listens where
  typeOf := rfl
  maxPages := rfl
  memoryShown := rfl
  recordsCalls := rfl
  obeysUnwind := rfl
  fuel := rfl
  bind := bind
  homely := homely
  setGlobal k w _ := setGlobal k w
  call := call ear s.call

end Listens

/-! ## The calls of a program -/

/-- What each call adds to a record that the outside keeps, where `I` holds, which the calls keep. -/
structure Adds (I : Machine τ → Prop) (ear : Listener τ ν) (of : Heard ν → List ω) (told : τ → List ω)
    (call : ImportName → List Value → Exec τ (List Value)) : Prop where
  keeps : ∀ target args, Keeps I (fun _ => I) (call target args)
  adds : ∀ target args m, I m →
    After (fun vs n => told n.outer = told m.outer ++ (ear.note target args m (.ok (resultWord vs))).flatMap of)
      (fun e n => told n.outer = told m.outer ++ (ear.note target args m (.error e)).flatMap of) (call target args m)

/-- The record and the list of calls are in step. -/
def InTune (of : Heard ν → List ω) (told : τ → List ω) (before : List ω) (m : Machine (τ × List (Heard ν))) : Prop :=
  told m.outer.1 = before ++ m.outer.2.flatMap of

/-- A call that adds to the record keeps it in step with the list. -/
theorem Adds.keeps_hear {I : Machine τ → Prop} {ear : Listener τ ν} {of : Heard ν → List ω} {told : τ → List ω}
    {call : ImportName → List Value → Exec τ (List Value)} (h : Adds I ear of told call) (before : List ω)
    (target : ImportName) (args : List Value) :
    Keeps (fun m => I m.unheard ∧ InTune of told before m) (fun _ m => I m.unheard ∧ InTune of told before m)
      (ear.hear call target args) := by
  rintro m ⟨hI, hm⟩
  have hstep {n : Machine τ} {r : Except Failure UInt32}
      (hn : told n.outer = told m.outer.1 ++ (ear.note target args m.unheard r).flatMap of) :
      InTune of told before (n.withCalls (m.outer.2 ++ ear.note target args m.unheard r)) := by
    show told n.outer = before ++ (m.outer.2 ++ ear.note target args m.unheard r).flatMap of
    rw [List.flatMap_append, hn, show told m.outer.1 = _ from hm, List.append_assoc]
  have hkeeps := h.keeps target args m.unheard hI
  have hadds := h.adds target args m.unheard hI
  cases hr : call target args m.unheard with
  | ok vs n =>
    rw [hr] at hkeeps hadds
    rw [ear.hear_of_ok hr]
    exact ⟨hkeeps, hstep hadds⟩
  | error e n =>
    rw [hr] at hkeeps hadds
    rw [ear.hear_of_error hr]
    exact ⟨hkeeps, hstep hadds⟩

/-- A call as a line of a record. -/
def Heard.line (line : ImportName → List Value → Except Failure UInt32 → ω) (h : Heard ν) : ω :=
  line h.target h.args h.outcome

/-- For each call that is heard, a line is added to what the outside tells. Of calls that come to an end without a
result nothing is said. -/
structure Tells (hears : ImportName → Bool) (line : ImportName → List Value → Except Failure UInt32 → ω)
    (told : τ → List ω) (call : ImportName → List Value → Exec τ (List Value)) : Prop where
  returns : ∀ {target args m vs m'}, call target args m = .ok vs m' → vs ≠ [] →
    told m'.outer = told m.outer ++ if hears target then [line target args (.ok (resultWord vs))] else []
  fails : ∀ {target args m e m'}, call target args m = .error e m' →
    told m'.outer = told m.outer ++ if hears target then [line target args (.error e)] else []

theorem Listener.lines_note (ear : Listener τ ν) (line : ImportName → List Value → Except Failure UInt32 → ω)
    (target : ImportName) (args : List Value) (m : Machine τ) (r : Except Failure UInt32) :
    ((ear.note target args m r).flatMap fun h => [h.line line]) = if ear.hears target then [line target args r] else []
    := by
  unfold note
  split <;> rfl

/-- A line for each call is what the calls add. -/
theorem Tells.adds {ear : Listener τ ν} {call : ImportName → List Value → Exec τ (List Value)}
    {line : ImportName → List Value → Except Failure UInt32 → ω} {told : τ → List ω}
    (h : Tells ear.hears line told call)
    (hresults : ∀ target args m vs m', call target args m = .ok vs m' → vs ≠ []) :
    Adds (fun _ => True) ear (fun h => [h.line line]) told call where
  keeps target args m _ := by cases call target args m <;> trivial
  adds target args m _ := by
    cases hr : call target args m with
    | ok vs n => exact (h.returns hr (hresults _ _ _ _ _ hr)).trans (congrArg _ (ear.lines_note ..).symm)
    | error e n => exact (h.fails hr).trans (congrArg _ (ear.lines_note ..).symm)

namespace Guest

variable (g : Guest) (limits : Limits) (ear : Listener τ ν) (call : ImportName → List Value → Exec τ (List Value))
  (m : Machine τ)

def calls : List (Heard ν) := heardIn (g.entryWith limits (ear.hear call) (m.withCalls []))

/-- A listener changes nothing of a run. -/
theorem entryWith_hear : g.entryWith limits (ear.hear call) (m.withCalls []) =
    withCalls (g.entryWith limits call m) (g.calls limits ear call m) := by
  have hentry : Listens (g.entryWith limits call) (g.entryWith limits (ear.hear call)) :=
    g.related_entryWith limits (fun obeys => Listens.relating ear (g.setting limits obeys call)) fun _ _ => trivial
  obtain ⟨more, h⟩ := hentry m []
  rw [calls, h, heardIn_withCalls]

variable {ear call m} {I : Machine τ → Prop} {of : Heard ν → List ω} {told : τ → List ω}

/-- What a run adds to a record is what its calls add. -/
theorem added_entryWith (h : Adds I ear of told call) (hown : Undisturbed I (fun _ => I) fun _ => True) (hm : I m) :
    After (fun _ n => told n.outer = told m.outer ++ (g.calls limits ear call m).flatMap of)
      (fun _ n => told n.outer = told m.outer ++ (g.calls limits ear call m).flatMap of)
      (g.entryWith limits call m) := by
  have hboth : Undisturbed (fun m' => I m'.unheard ∧ InTune of told (told m.outer) m')
      (fun _ m' => I m'.unheard ∧ InTune of told (told m.outer) m') fun _ => True :=
    { own := by
        intro n n' houter hglobals hstores hn
        have hkept : I n'.unheard := hown.own (m := n.unheard) (congrArg Prod.fst houter) hglobals hstores hn.1
        exact ⟨hkept, by simpa only [InTune, houter] using hn.2⟩
      setGlobal := fun {n k} w _ hn => ⟨hown.setGlobal (m := n.unheard) (k := k) w trivial hn.1, hn.2⟩
      fails := fun _ hn => hn }
  have hrun := g.keeps_entryWith hboth limits (h.keeps_hear (told m.outer)) (fun _ _ => trivial)
    (m.withCalls []) ⟨hm, (List.append_nil _).symm⟩
  rw [g.entryWith_hear limits ear call m] at hrun
  cases hr : g.entryWith limits call m with
  | ok a n =>
    rw [hr] at hrun
    exact hrun.2
  | error e n =>
    rw [hr] at hrun
    exact hrun.2

/-- Where a line is told for each call, the lines of a run are those of the calls of the program. -/
theorem told_entryWith {line : ImportName → List Value → Except Failure UInt32 → ω} (m : Machine τ)
    (h : Tells ear.hears line told call)
    (hresults : ∀ target args m vs m', call target args m = .ok vs m' → vs ≠ []) :
    After (fun _ n => told n.outer = told m.outer ++ (g.calls limits ear call m).map (Heard.line line))
      (fun _ n => told n.outer = told m.outer ++ (g.calls limits ear call m).map (Heard.line line))
      (g.entryWith limits call m) := by
  have hown : Undisturbed (fun _ : Machine τ => True) (fun _ _ => True) fun _ => True :=
    ⟨fun _ _ _ _ => trivial, fun _ _ _ => trivial, fun _ _ => trivial⟩
  simp only [List.map_eq_flatMap]
  exact g.added_entryWith limits (h.adds hresults) hown trivial

end Guest

end

end GuestHost
