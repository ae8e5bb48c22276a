/-
  GuestHost.Proofs.Program.Reach — what a run reads and writes.

  The reach of a run is the list of the ranges that its loads, stores, copies and looks name, in their order, and
  those that its calls name in turn (`Stmt.reach`, `Guest.reachWith`). It is found along the run: an address is known
  when it has been evaluated, and what is not run reaches nothing.

  The reach is all that a run depends on. Where two machines differ in a way that no action notices as long as it
  keeps to certain ranges, no code does that keeps to them, whatever it computes (`Setting.Unaware`). The induction is
  on the code, with one rule for what an action reaches before the next one.

  Proved:
  - `Stmt.unaware_exec`, `Function.unaware_invoke`, `Guest.unaware_entryWith`: code that reaches nothing but such
    ranges comes to the same on both machines.
-/

import GuestHost.Proofs.Abi.Ranges
import GuestHost.Proofs.Program.Relating

namespace GuestHost

open Exec

variable {τ α β : Type}

/-! ## What is reached -/

/-- What one action reaches, and then what the next one does. -/
def Exec.andThen (first : Machine τ → List Range) (x : Exec τ α) (next : α → Machine τ → List Range) :
    Machine τ → List Range := fun m =>
  first m ++ match x m with
    | .ok a m' => next a m'
    | .error _ _ => []

abbrev Exec.nothing : Machine τ → List Range := fun _ => []

/-- What counts as reached, of the code's own memory and by its calls. -/
structure Reach (τ : Type) where
  own : Range → List Range
  call : ImportName → List Value → Machine τ → List Range

section

variable (s : Setting τ) (ρ : Reach τ) (params : List Value)

namespace Expr

mutual

def reach (locals : List UInt32) : Expr → Machine τ → List Range
  | lit _ | param _ | paramHigh _ | localVar _ | globalVar _ | pages => nothing
  | load a => andThen (reach locals a) (a.eval s params locals) fun addr _ => ρ.own (addr.toNat, 4)
  | loadByte a => andThen (reach locals a) (a.eval s params locals) fun addr _ => ρ.own (addr.toNat, 1)
  | binary _ x y => andThen (reach locals x) (x.eval s params locals) fun _ => reach locals y
  | isZero x | grow x => reach locals x
  | call target args =>
    andThen (reachAll locals (s.typeOf target).params args) (evalArgs s params locals (s.typeOf target).params args)
      fun values => ρ.call target values

def reachAll (locals : List UInt32) : List ValType → List Expr → Machine τ → List Range
  | [], _ => nothing
  | _ :: _, [] => nothing
  | t :: types, e :: es => andThen (reach locals e) (evalArg s params locals t e) fun _ => reachAll locals types es

end

end Expr

def reachWhile (cond : List UInt32 → Exec τ Bool) (condReach : List UInt32 → Machine τ → List Range)
    (body : List UInt32 → Exec τ (Flow × List UInt32)) (bodyReach : List UInt32 → Machine τ → List Range) :
    Nat → List UInt32 → Machine τ → List Range
  | 0, _ => nothing
  | fuel + 1, locals => andThen (condReach locals) (cond locals) fun go =>
    if go then andThen (bodyReach locals) (body locals) fun
      | (.leave, _) => nothing
      | (.next, locals) => reachWhile cond condReach body bodyReach fuel locals
    else nothing

namespace Stmt

/-- What a recording statement looks at. -/
def lookReach (addr len : UInt32) : List Range := if s.memoryShown then ρ.own (addr.toNat, len.toNat) else []

def reach : Stmt → List UInt32 → Machine τ → List Range
  | skip, _ | unreachable, _ | leave, _ => nothing
  | seq a b, locals => andThen (reach a locals) (a.exec s params locals) fun
    | (.leave, _) => nothing
    | (.next, locals) => reach b locals
  | setLocal _ e, locals | setGlobal _ e, locals | drop e, locals | note e, locals => e.reach s ρ params locals
  | store a e, locals =>
    andThen (a.reach s ρ params locals) (a.eval s params locals) fun addr =>
      andThen (e.reach s ρ params locals) (e.eval s params locals) fun _ _ => ρ.own (addr.toNat, 4)
  | storeByte a e, locals =>
    andThen (a.reach s ρ params locals) (a.eval s params locals) fun addr =>
      andThen (e.reach s ρ params locals) (e.eval s params locals) fun _ _ => ρ.own (addr.toNat, 1)
  | copy d a n, locals =>
    andThen (d.reach s ρ params locals) (d.eval s params locals) fun dst =>
      andThen (a.reach s ρ params locals) (a.eval s params locals) fun src =>
        andThen (n.reach s ρ params locals) (n.eval s params locals) fun len _ =>
          ρ.own (dst.toNat, len.toNat) ++ ρ.own (src.toNat, len.toNat)
  | ifElse c a b, locals =>
    andThen (c.reach s ρ params locals) (c.eval s params locals) fun v =>
      if v != 0 then reach a locals else reach b locals
  | whileDo c a, locals =>
    reachWhile (fun locals => do return (← c.eval s params locals) != 0) (c.reach s ρ params)
      (fun locals => a.exec s params locals) (fun locals => reach a locals) s.fuel locals
  | dump a n, locals | nonzero a n, locals =>
    andThen (a.reach s ρ params locals) (a.eval s params locals) fun addr =>
      andThen (n.reach s ρ params locals) (n.eval s params locals) fun len _ => lookReach s ρ addr len
  | clock a, locals =>
    andThen (a.reach s ρ params locals) (a.eval s params locals) fun addr _ => lookReach s ρ addr 8
  | call target args, locals =>
    andThen (Expr.reachAll s ρ params locals (s.typeOf target).params args)
      (Expr.evalArgs s params locals (s.typeOf target).params args) fun values => ρ.call target values

end Stmt

end

def Function.reach (f : Function) (s : Setting τ) (ρ : Reach τ) (args : List Value) : Machine τ → List Range :=
  andThen (f.body.reach s ρ args freshLocals) (f.body.run s args) fun locals =>
    if f.type.results.isEmpty then nothing else f.result.reach s ρ args locals

namespace Guest

def reachStatements (s : Setting τ) (ρ : Reach τ) : Nat → List Stmt → List UInt32 → Machine τ → List Range
  | _, [], _ => nothing
  | i, stmt :: rest, locals => andThen nothing (Exec.global progressGlobal) fun progress =>
    if progress = UInt32.ofNat i then
      andThen (stmt.reach s ρ [] locals) (stmt.exec s [] locals) fun
        | (.leave, _) => nothing
        | (.next, locals) => andThen nothing (Exec.global stateGlobal) fun state =>
          if s.obeysUnwind && state == unwindingWord then nothing
          else andThen nothing (Exec.setGlobal progressGlobal (UInt32.ofNat (i + 1))) fun _ =>
            reachStatements s ρ (i + 1) rest locals
    else reachStatements s ρ (i + 1) rest locals

/-- What the entry point reaches, where imports do as `call` says. -/
def reachWith (g : Guest) (limits : Limits) (call : ImportName → List Value → Exec τ (List Value)) (ρ : Reach τ) :
    Machine τ → List Range :=
  if g.instrumented then reachStatements (g.setting limits g.obeysUnwind call) ρ 0 g.body freshLocals
  else (Stmt.ofList g.body).reach (g.setting limits false call) ρ [] freshLocals

end Guest

/-! ## Actions that keep to ranges -/

def Machine.patched (p : Patch) (m : Machine τ) : Machine τ := { m with memory := m.memory.patched [p] }

/-- An action of the module's own that reaches no more of the memory than these ranges: a patch anywhere else makes no
difference to it, and stays. -/
structure Within (ranges : List Range) (x : (τ : Type) → Exec τ α) : Prop where
  homely : Homely x
  apart : ∀ (p : Patch) (c : Core), p.Fits c.memory → (∀ r ∈ ranges, r.Apart p) →
    x Unit (c.patched p) = forget (Machine.patched p) (x Unit c)

namespace Within

theorem pure (a : α) : Within [] fun _ => Pure.pure a := ⟨.pure a, fun _ _ _ _ => rfl⟩

theorem trap (t : Trap) : Within [] fun _ => (Exec.trap t : Exec _ α) := ⟨.trap t, fun _ _ _ _ => rfl⟩

theorem global (k : Nat) : Within [] fun _ => Exec.global k := ⟨.global k, fun _ _ _ _ => rfl⟩

theorem record (step : Step) : Within [] fun _ => Exec.record step := ⟨.record step, fun _ _ _ _ => rfl⟩

theorem binary (op : BinaryOp) (x y : UInt32) : Within [] fun _ => op.eval x y := by
  refine ⟨.binary op x y, fun p c _ _ => ?_⟩
  cases op with
  | div =>
    simp only [BinaryOp.eval]
    split <;> rfl
  | _ => rfl

theorem pages : Within [] fun _ => do return UInt32.ofNat (← get).memory.pages := by
  refine ⟨.reader fun memory => UInt32.ofNat memory.pages, fun p c _ _ => ?_⟩
  show EStateM.Result.ok _ _ = EStateM.Result.ok _ _
  simp only [Machine.patched, Memory.pages, Memory.size_patched]

theorem growPages {limit : Nat} (hlimit : limit ≤ pageLimit) (n : UInt32) :
    Within [] fun _ => Exec.growPages limit n := by
  refine ⟨.growPages hlimit n, fun p c hfits _ => ?_⟩
  have hpages : (c.patched p).memory.pages = c.memory.pages := by
    simp only [Machine.patched, Memory.pages, Memory.size_patched]
  unfold Exec.growPages
  rw [bind_of_ok (get_apply _), bind_of_ok (get_apply _), hpages]
  split
  · show EStateM.Result.ok _ _ = EStateM.Result.ok _ _
    simp only [Machine.patched, Memory.grow_patched hfits]
  · rfl

theorem fault_patched (addr : Nat) (p : Patch) (c : Core) :
    (Exec.fault addr : Exec Unit α) (c.patched p) = forget (Machine.patched p) (Exec.fault addr c) := by
  simp only [Exec.fault, Machine.patched, Memory.size_patched, forget]

theorem loadWord (addr : UInt32) : Within [(addr.toNat, 4)] fun _ => Exec.loadWord addr := by
  refine ⟨.loadWord addr, fun p c _ h => ?_⟩
  have hread : (c.patched p).memory.read addr.toNat 4 = c.memory.read addr.toNat 4 :=
    Memory.read_patched_of_apart (h _ (List.mem_singleton_self _))
  unfold Exec.loadWord
  rw [bind_of_ok (get_apply _), bind_of_ok (get_apply _), hread]
  simp only [Machine.patched, Memory.holds_patched]
  split
  · rfl
  · exact fault_patched _ p c

theorem loadByte (addr : UInt32) : Within [(addr.toNat, 1)] fun _ => Exec.loadByte addr := by
  refine ⟨.loadByte addr, fun p c _ h => ?_⟩
  have hread : (c.patched p).memory.byte addr.toNat = c.memory.byte addr.toNat :=
    List.head_eq_of_cons_eq (Memory.read_patched_of_apart (h _ (List.mem_singleton_self _)))
  unfold Exec.loadByte
  rw [bind_of_ok (get_apply _), bind_of_ok (get_apply _), hread]
  simp only [Machine.patched, Memory.holds_patched]
  split
  · rfl
  · exact fault_patched _ p c

theorem peek (addr len : UInt32) : Within [(addr.toNat, len.toNat)] fun _ => Exec.peek addr len := by
  refine ⟨.peek addr len, fun p c _ h => ?_⟩
  have hread : (c.patched p).memory.read addr.toNat len.toNat = c.memory.read addr.toNat len.toNat :=
    Memory.read_patched_of_apart (h _ (List.mem_singleton_self _))
  unfold Exec.peek
  rw [bind_of_ok (get_apply _), bind_of_ok (get_apply _), hread]
  simp only [Machine.patched, Memory.holds_patched]
  rfl

theorem storeBytes (addr : UInt32) {bs : List UInt8} {n : Nat} (hn : bs.length = n) :
    Within [(addr.toNat, n)] fun _ => Exec.storeBytes addr bs := by
  refine ⟨.storeBytes addr bs, fun p c _ h => ?_⟩
  subst hn
  have hwrite := Memory.write_patched (m := c.memory) (h _ (List.mem_singleton_self _))
  unfold Exec.storeBytes
  rw [bind_of_ok (get_apply _), bind_of_ok (get_apply _)]
  simp only [Machine.patched, Memory.holds_patched]
  split
  · simp only [modify_apply, hwrite, forget, Machine.patched]
  · exact fault_patched _ p c

theorem copyBytes (dst src len : UInt32) :
    Within [(dst.toNat, len.toNat), (src.toNat, len.toNat)] fun _ => Exec.copyBytes dst src len := by
  refine ⟨.copyBytes dst src len, fun p c _ h => ?_⟩
  obtain ⟨hdst, hsrc⟩ := List.forall_mem_cons.1 h
  have hread : (c.memory.patched [p]).read src.toNat len.toNat = c.memory.read src.toNat len.toNat :=
    Memory.read_patched_of_apart (hsrc _ (List.mem_singleton_self _))
  have hplace : Range.Apart (dst.toNat, (c.memory.read src.toNat len.toNat).length) p := by
    rw [Memory.length_read]
    exact hdst
  have hwrite := Memory.write_patched (m := c.memory) hplace
  unfold Exec.copyBytes
  rw [bind_of_ok (get_apply _), bind_of_ok (get_apply _)]
  simp only [Machine.patched, Memory.holds_patched]
  split
  · simp only [modify_apply, hread, hwrite, forget, Machine.patched]
  · rfl

end Within

/-! ## Actions that notice nothing -/

section

variable {S : Machine τ → Machine τ → Prop} {ok : Range → Prop}

/-- If all that an action reaches is `ok`, it comes to the same on machines that `S` relates, and they are related
again. -/
def Unaware (S : Machine τ → Machine τ → Prop) (ok : Range → Prop) (reach : Machine τ → List Range) (x : Exec τ α) :
    Prop := ∀ m n, S m n → (∀ r ∈ reach m, ok r) → Together S Eq (x m) (x n)

namespace Unaware

variable {reach : Machine τ → List Range} {x : Exec τ α}

theorem pure (a : α) : Unaware S ok reach (Pure.pure a) := fun _ _ hS _ => ⟨rfl, hS⟩

theorem throw (e : Failure) : Unaware S ok reach (MonadExcept.throw e : Exec τ α) := fun _ _ hS _ => ⟨rfl, hS⟩

theorem bind {next : α → Machine τ → List Range} {f : α → Exec τ β} (hx : Unaware S ok reach x)
    (hf : ∀ a, Unaware S ok (next a) (f a)) : Unaware S ok (andThen reach x next) (x >>= f) := by
  intro m n hS hok
  rcases (hx m n hS fun r hr => hok r (List.mem_append_left _ hr)).cases with
    ⟨a, _, m₁, n₁, hm, hn, rfl, hS₁⟩ | ⟨e, m₁, n₁, hm, hn, hS₁⟩
  · -- What comes next is known only on the first machine, but both came to the same value.
    rw [bind_of_ok hm, bind_of_ok hn]
    refine hf a m₁ n₁ hS₁ fun r hr => hok r (List.mem_append_right _ ?_)
    rw [hm]
    exact hr
  · rw [bind_of_error hm, bind_of_error hn]
    exact ⟨rfl, hS₁⟩

theorem bind_nothing {f : α → Exec τ β} (hx : Unaware S ok reach x) (hf : ∀ a, Unaware S ok nothing (f a)) :
    Unaware S ok reach (x >>= f) := by
  intro m n hS hok
  refine bind hx hf m n hS fun r hr => ?_
  rcases List.mem_append.1 hr with hr | hr
  · exact hok r hr
  · split at hr <;> cases hr

theorem map (hx : Unaware S ok reach x) (f : α → β) : Unaware S ok reach (do return f (← x)) :=
  hx.bind_nothing fun _ => pure _

theorem ite {c : Prop} [Decidable c] {reach' : Machine τ → List Range} {y : Exec τ α} (hx : Unaware S ok reach x)
    (hy : Unaware S ok reach' y) : Unaware S ok (if c then reach else reach') (if c then x else y) := by
  split
  · exact hx
  · exact hy

end Unaware

/-- What code is run with notices nothing where only `ok` ranges are reached: neither in the memory, nor in a global,
nor in a call. -/
structure Setting.Unaware (s : Setting τ) (ρ : Reach τ) (S : Machine τ → Machine τ → Prop) (ok : Range → Prop) :
    Prop where
  own : ∀ {α : Type} {x : (τ : Type) → Exec τ α} {ranges : List Range}, Within ranges x →
    GuestHost.Unaware S ok (fun _ => ranges.flatMap ρ.own) (x τ)
  setGlobal : ∀ k w, GuestHost.Unaware S ok nothing (Exec.setGlobal k w)
  call : ∀ target args, GuestHost.Unaware S ok (ρ.call target args) (s.call target args)

variable {s : Setting τ} {ρ : Reach τ} {params : List Value}

theorem Setting.Unaware.one (h : s.Unaware ρ S ok) {x : (τ : Type) → Exec τ α} {r : Range} (hx : Within [r] x) :
    GuestHost.Unaware S ok (fun _ => ρ.own r) (x τ) := by simpa using h.own hx

/-! ## Code -/

namespace Expr

theorem unaware_evalArg {locals : List UInt32} {e : Expr}
    (he : Unaware S ok (e.reach s ρ params locals) (e.eval s params locals)) (t : ValType) :
    Unaware S ok (e.reach s ρ params locals) (evalArg s params locals t e) := by
  have hword := he.map (Value.ofWord t)
  unfold evalArg
  split
  · rw [reach]
    exact .pure _
  · exact hword

mutual

theorem unaware_eval (h : s.Unaware ρ S ok) (locals : List UInt32) :
    ∀ e : Expr, Unaware S ok (e.reach s ρ params locals) (e.eval s params locals)
  | lit _ | param _ | paramHigh _ | localVar _ => by simp only [eval, reach]; exact .pure _
  | globalVar k => by simp only [eval, reach]; exact h.own (.global k)
  | pages => by simp only [eval, reach]; exact h.own .pages
  | load a => by
    simp only [eval, reach]
    exact (unaware_eval h locals a).bind fun _ => h.one (.loadWord _)
  | loadByte a => by
    simp only [eval, reach]
    exact (unaware_eval h locals a).bind fun _ => h.one (.loadByte _)
  | binary op x y => by
    simp only [eval, reach]
    exact (unaware_eval h locals x).bind fun _ => (unaware_eval h locals y).bind_nothing fun _ => h.own (.binary op _ _)
  | isZero x => by
    simp only [eval, reach]
    exact (unaware_eval h locals x).map _
  | grow n => by
    simp only [eval, reach]
    exact (unaware_eval h locals n).bind_nothing fun _ => h.own (.growPages s.maxPages_le _)
  | call target args => by
    simp only [eval, reach]
    exact (unaware_evalArgs h locals _ args).bind fun _ => (h.call _ _).map _

theorem unaware_evalArgs (h : s.Unaware ρ S ok) (locals : List UInt32) :
    ∀ (types : List ValType) (es : List Expr),
      Unaware S ok (reachAll s ρ params locals types es) (evalArgs s params locals types es)
  | [], _ => by simp only [evalArgs, reachAll]; exact .pure _
  | _ :: _, [] => by simp only [evalArgs, reachAll]; exact .pure _
  | t :: types, e :: es => by
    rw [evalArgs_cons, reachAll]
    exact (unaware_evalArg (unaware_eval h locals e) t).bind fun _ => (unaware_evalArgs h locals types es).map _

end

end Expr

/-- Loops notice nothing if their turns do not. -/
theorem unaware_repeatWhile {cond : List UInt32 → Exec τ Bool} {condReach : List UInt32 → Machine τ → List Range}
    {body : List UInt32 → Exec τ (Flow × List UInt32)} {bodyReach : List UInt32 → Machine τ → List Range}
    (hcond : ∀ locals, Unaware S ok (condReach locals) (cond locals))
    (hbody : ∀ locals, Unaware S ok (bodyReach locals) (body locals)) (fuel : Nat) (locals : List UInt32) :
    Unaware S ok (reachWhile cond condReach body bodyReach fuel locals) (repeatWhile cond body fuel locals) := by
  induction fuel generalizing locals with
  | zero => exact fun _ _ hS _ => ⟨rfl, hS⟩
  | succ fuel ih =>
    refine (hcond locals).bind fun go => .ite ((hbody locals).bind ?_) (.pure _)
    rintro ⟨flow, locals⟩
    cases flow with
    | leave => exact .pure _
    | next => exact ih locals

namespace Stmt

theorem unaware_look (h : s.Unaware ρ S ok) (addr len : UInt32) :
    Unaware S ok (fun _ => lookReach s ρ addr len) (look s addr len) := by
  unfold look lookReach
  split
  · exact h.one (.peek addr len)
  · exact .pure none

theorem unaware_exec (h : s.Unaware ρ S ok) (stmt : Stmt) (locals : List UInt32) :
    Unaware S ok (stmt.reach s ρ params locals) (stmt.exec s params locals) := by
  have he (locals : List UInt32) (e : Expr) : Unaware S ok (e.reach s ρ params locals) (e.eval s params locals) :=
    Expr.unaware_eval h locals e
  have hrecord (step : Step) (locals : List UInt32) :
      Unaware S ok nothing (do Exec.record step; return (Flow.next, locals)) :=
    (h.own (.record step)).bind_nothing fun _ => .pure _
  induction stmt generalizing locals with
  | skip | leave => simp only [exec, reach]; exact .pure _
  | unreachable => simp only [exec, reach]; exact h.own (.trap _)
  | seq a b iha ihb =>
    simp only [exec, reach]
    refine (iha locals).bind ?_
    rintro ⟨flow, locals⟩
    cases flow with
    | leave => exact .pure _
    | next => exact ihb locals
  | ifElse c a b iha ihb =>
    simp only [exec, reach]
    exact (he locals c).bind fun _ => .ite (iha locals) (ihb locals)
  | whileDo c a iha =>
    simp only [exec, reach]
    exact unaware_repeatWhile (fun locals => (he locals c).map _) iha _ _
  | setLocal k e | drop e =>
    simp only [exec, reach]
    exact (he locals e).map _
  | setGlobal k e =>
    simp only [exec, reach]
    exact (he locals e).bind_nothing fun w => (h.setGlobal k w).bind_nothing fun _ => .pure _
  | store a e =>
    simp only [exec, reach]
    exact (he locals a).bind fun _ => (he locals e).bind fun _ =>
      (h.one (.storeBytes _ (length_wordBytes _))).bind_nothing fun _ => .pure _
  | storeByte a e =>
    simp only [exec, reach]
    exact (he locals a).bind fun _ => (he locals e).bind fun _ =>
      (h.one (.storeBytes _ (List.length_singleton ..))).bind_nothing fun _ => .pure _
  | copy d a n =>
    simp only [exec, reach]
    refine (he locals d).bind fun dst => (he locals a).bind fun src => (he locals n).bind fun len => ?_
    have hcopy := h.own (.copyBytes dst src len)
    simp only [List.flatMap_cons, List.flatMap_nil, List.append_nil] at hcopy
    exact hcopy.bind_nothing fun _ => .pure _
  | note e =>
    simp only [exec, reach]
    exact (he locals e).bind_nothing fun _ => hrecord _ _
  | dump a n | nonzero a n =>
    simp only [exec, reach]
    exact (he locals a).bind fun _ => (he locals n).bind fun _ => (unaware_look h _ _).bind_nothing fun _ => hrecord _ _
  | clock a =>
    simp only [exec, reach]
    exact (he locals a).bind fun _ => (unaware_look h _ _).bind_nothing fun _ => hrecord _ _
  | call target args =>
    simp only [exec, reach]
    refine (Expr.unaware_evalArgs h locals _ args).bind fun _ => (h.call _ _).bind_nothing fun results => ?_
    refine (h.own (.global stateGlobal)).bind_nothing fun state => ?_
    split
    · exact .pure _
    · split
      · exact hrecord _ _
      · exact .pure _

theorem unaware_run (h : s.Unaware ρ S ok) (body : Stmt) :
    Unaware S ok (body.reach s ρ params freshLocals) (body.run s params) := (unaware_exec h body _).map Prod.snd

end Stmt

theorem Function.unaware_invoke (h : s.Unaware ρ S ok) (f : Function) (args : List Value) :
    Unaware S ok (f.reach s ρ args) (f.invoke s args) := by
  refine (Stmt.unaware_run h f.body).bind fun locals => ?_
  split
  · exact .pure _
  · exact (Expr.unaware_eval h locals f.result).map _

namespace Guest

theorem unaware_runStatements (h : s.Unaware ρ S ok) (body : List Stmt) (i : Nat) (locals : List UInt32) :
    Unaware S ok (reachStatements s ρ i body locals) (runStatements s i body locals) := by
  induction body generalizing i locals with
  | nil => exact .pure _
  | cons stmt rest ih =>
    refine (h.own (.global progressGlobal)).bind fun _ => .ite ?_ (ih _ _)
    refine (Stmt.unaware_exec h stmt locals).bind ?_
    rintro ⟨flow, locals⟩
    cases flow with
    | leave => exact .pure _
    | next =>
      exact (h.own (.global stateGlobal)).bind fun _ => .ite (.pure _) ((h.setGlobal _ _).bind fun _ => ih _ _)

/-- Whatever its body, a guest comes to the same on machines that differ in nothing that it reaches. -/
theorem unaware_entryWith (g : Guest) (limits : Limits) {call : ImportName → List Value → Exec τ (List Value)}
    (h : ∀ obeys, (g.setting limits obeys call).Unaware ρ S ok) :
    Unaware S ok (g.reachWith limits call ρ) (g.entryWith limits call) := by
  unfold reachWith entryWith
  split
  · exact unaware_runStatements (h _) g.body 0 freshLocals
  · exact (Stmt.unaware_run (h false) (Stmt.ofList g.body)).map _

end Guest

end

end GuestHost
