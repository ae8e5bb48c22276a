/-
  GuestHost.Proofs.Program.Relating — code that is run with two meanings of its imports.

  Code does two kinds of things by itself: actions on the module's own part of the machine (`Machine.core`),
  which are the same whatever lies outside, and calls. `Relating` lists what a relation between actions has to
  satisfy so that running the same code on both sides is related as soon as the calls are; it is the one
  induction over the language's syntax that the rest builds on.

  Proved:
  - `Stmt.related_exec`, `Function.related_invoke`, `Guest.related_entryWith`: code is related to itself.
-/

import GuestHost.Guest
import GuestHost.Proofs.Program.Actions

namespace GuestHost

open Exec

/-! ## The module's own part of a machine -/

/-- The part of a machine that is the module's own. -/
abbrev Core := Machine Unit

def Machine.core {τ : Type} (m : Machine τ) : Core := { m with outer := () }

/-- The machine with this part of its own, and with this outside. -/
def Machine.within {τ : Type} (c : Core) (outer : τ) : Machine τ := { c with outer }

section

variable {τ τ₁ τ₂ α β : Type}

@[simp] theorem Machine.core_within (c : Core) (o : τ) : (c.within o).core = c := rfl

@[simp] theorem Machine.outer_within (c : Core) (o : τ) : (c.within o).outer = o := rfl

@[simp] theorem Machine.within_core (m : Machine τ) : m.core.within m.outer = m := rfl

/-- A result, with the state it came in. -/
def Exec.yields (r : Except Failure α) (m : Machine τ) : EStateM.Result Failure (Machine τ) α :=
  match r with
  | .ok a => .ok a m
  | .error e => .error e m

theorem yields_inj {r r' : Except Failure α} {c c' : Core} {o o' : τ}
    (h : yields r (c.within o) = yields r' (c'.within o')) : r = r' ∧ c = c' := by
  cases r with
  | ok a =>
    cases r' with
    | ok a' =>
      injection h with ha hm
      have hc : (c.within o).core = (c'.within o').core := congrArg Machine.core hm
      exact ⟨congrArg Except.ok ha, hc⟩
    | error e' => cases h
  | error e =>
    cases r' with
    | ok a' => cases h
    | error e' =>
      injection h with he hm
      have hc : (c.within o).core = (c'.within o').core := congrArg Machine.core hm
      exact ⟨congrArg Except.error he, hc⟩

/-- The failures that code comes to by itself. -/
inductive Failure.Own : Failure → Prop
  | trap (t : Trap) : Own (.trap t)
  | fault (text : String) : Own (.context text (.trap .memoryOutOfBounds))
  | outOfFuel : Own .outOfFuel

/-- The memory is made of whole pages, and of no more than there can be. -/
def Memory.Paged (memory : Memory) : Prop := ∃ pages ≤ pageLimit, memory.size = pages * pageSize

theorem Memory.Paged.size_le {memory : Memory} (h : memory.Paged) : memory.size ≤ UInt32.size := by
  obtain ⟨pages, hpages, hsize⟩ := h
  rw [hsize]
  exact Nat.mul_le_mul_right pageSize hpages

theorem Memory.Paged.of_size_eq {memory memory' : Memory} (h : memory.Paged) (hsize : memory'.size = memory.size) :
    memory'.Paged := by
  obtain ⟨pages, hpages, hpaged⟩ := h
  exact ⟨pages, hpages, hsize.trans hpaged⟩

/-- What code can make of a memory from `c` to `c'`: no byte has changed but those that it lists as stored. -/
structure Core.Stores (c c' : Core) : Prop where
  size : c.memory.size ≤ c'.memory.size
  paged : c.memory.Paged → c'.memory.Paged
  listed : ∃ ranges, c'.stores.toList = c.stores.toList ++ ranges ∧
    ∀ a, c'.memory.byte a ≠ c.memory.byte a → ∃ r ∈ ranges, r.1 ≤ a ∧ a < r.1 + r.2

/-- Where the memory and the list are as they were, nothing has changed. -/
theorem Core.Stores.same {c c' : Core} (hmemory : c'.memory = c.memory) (hstores : c'.stores = c.stores) :
    Core.Stores c c' := by
  refine ⟨Nat.le_of_eq (by rw [hmemory]), by rw [hmemory]; exact id, [], by rw [hstores, List.append_nil],
    fun a h => ?_⟩
  rw [hmemory] at h
  exact absurd rfl h

theorem Core.Stores.refl (c : Core) : Core.Stores c c := .same rfl rfl

theorem Core.Stores.trans {c c' c'' : Core} (h : Core.Stores c c') (h' : Core.Stores c' c'') : Core.Stores c c'' := by
  obtain ⟨hsize, hpaged, ranges, hstores, hbytes⟩ := h
  obtain ⟨hsize', hpaged', ranges', hstores', hbytes'⟩ := h'
  refine ⟨Nat.le_trans hsize hsize', fun h => hpaged' (hpaged h), ranges ++ ranges',
    by rw [hstores', hstores, List.append_assoc], fun a h => ?_⟩
  by_cases ha : c''.memory.byte a = c'.memory.byte a
  · obtain ⟨r, hr, hrange⟩ := hbytes a (ha ▸ h)
    exact ⟨r, List.mem_append_left _ hr, hrange⟩
  · obtain ⟨r, hr, hrange⟩ := hbytes' a ha
    exact ⟨r, List.mem_append_right _ hr, hrange⟩

/-- An action that sees and changes nothing but the module's own memory and record, and lists what it stores. -/
def Homely (x : (τ : Type) → Exec τ α) : Prop :=
  ∀ c : Core, ∃ (r : Except Failure α) (c' : Core), (c'.globals = c.globals ∧ Core.Stores c c') ∧
    (∀ e, r = .error e → e.Own) ∧ ∀ (τ : Type) (o : τ), x τ (c.within o) = yields r (c'.within o)

namespace Homely

theorem pure (a : α) : Homely fun _ => Pure.pure a := fun c => ⟨.ok a, c, ⟨rfl, .refl c⟩, nofun, fun _ _ => rfl⟩

theorem throw {e : Failure} (h : e.Own) : Homely fun _ => (MonadExcept.throw e : Exec _ α) :=
  fun c => ⟨.error e, c, ⟨rfl, .refl c⟩, fun _ he => by cases he; exact h, fun _ _ => rfl⟩

theorem choose (p : Core → Bool) {x y z : (τ : Type) → Exec τ α} (hx : Homely x) (hy : Homely y)
    (hz : ∀ (c : Core) (τ : Type) (o : τ), z τ (c.within o) = if p c then x τ (c.within o) else y τ (c.within o)) :
    Homely z := by
  intro c
  cases h : p c with
  | true =>
    obtain ⟨r, c', hg, hown, heq⟩ := hx c
    exact ⟨r, c', hg, hown, fun τ o => by rw [hz, if_pos h, heq]⟩
  | false =>
    obtain ⟨r, c', hg, hown, heq⟩ := hy c
    exact ⟨r, c', hg, hown, fun τ o => by rw [hz, if_neg (by simp [h]), heq]⟩

theorem bind {x : (τ : Type) → Exec τ α} {f : α → (τ : Type) → Exec τ β} (hx : Homely x) (hf : ∀ a, Homely (f a)) :
    Homely fun τ => x τ >>= fun a => f a τ := by
  intro c
  obtain ⟨r, c', hself, hown, h⟩ := hx c
  cases r with
  | error e => exact ⟨.error e, c', hself, fun f hf => hown f (by cases hf; rfl), fun τ o => bind_of_error (h τ o)⟩
  | ok a =>
    obtain ⟨r', c'', hself', hown', h'⟩ := hf a c'
    exact ⟨r', c'', ⟨hself'.1.trans hself.1, hself.2.trans hself'.2⟩, hown',
      fun τ o => (bind_of_ok (h τ o)).trans (h' τ o)⟩

theorem reader (f : Memory → α) : Homely fun _ => do return f (← get).memory :=
  fun c => ⟨.ok (f c.memory), c, ⟨rfl, .refl c⟩, nofun, fun _ _ => rfl⟩

theorem trap (t : Trap) : Homely fun _ => (Exec.trap t : Exec _ α) := throw (.trap t)

theorem fault (addr : Nat) : Homely fun _ => (Exec.fault addr : Exec _ α) := by
  intro c
  refine ⟨.error (.context ("memory fault at wasm address " ++ hex (max addr c.memory.size) ++
    " in linear memory of size " ++ hex c.memory.size) (.trap .memoryOutOfBounds)), c, ⟨rfl, .refl c⟩,
    fun e he => ?_, fun _ _ => rfl⟩
  cases he
  exact .fault _

theorem global (k : Nat) : Homely fun _ => Exec.global k :=
  fun c => ⟨.ok (c.globals.getD k 0), c, ⟨rfl, .refl c⟩, nofun, fun _ _ => rfl⟩

theorem record (step : Step) : Homely fun _ => Exec.record step :=
  fun c => ⟨.ok (), { c with steps := c.steps.push step }, ⟨rfl, .same rfl rfl⟩, nofun, fun _ _ => rfl⟩

theorem peek (addr len : UInt32) : Homely fun _ => Exec.peek addr len :=
  reader fun memory =>
    if memory.holds addr.toNat len.toNat then some (memory.read addr.toNat len.toNat) else none

theorem loadWord (addr : UInt32) : Homely fun _ => Exec.loadWord addr :=
  choose (fun c => c.memory.holds addr.toNat 4) (reader fun memory => wordOfBytes (memory.read addr.toNat 4))
    (fault addr.toNat) fun c _ o => by
      simp only [Exec.loadWord, bind_apply, get_apply, Machine.within]
      split <;> rfl

theorem loadByte (addr : UInt32) : Homely fun _ => Exec.loadByte addr :=
  choose (fun c => c.memory.holds addr.toNat 1) (reader fun memory => (memory.byte addr.toNat).toUInt32)
    (fault addr.toNat) fun c _ o => by
      simp only [Exec.loadByte, bind_apply, get_apply, Machine.within]
      split <;> rfl

/-- A write to the memory that is listed. -/
theorem stored {f : Machine Unit → List UInt8} {addr len : Nat} (hlen : ∀ c, (f c).length = len) :
    Homely fun _ => (modify fun m =>
      { m with memory := m.memory.write addr (f m.core), stores := m.stores.push (addr, len) } : Exec _ Unit) := by
  intro c
  refine ⟨.ok (), { c with memory := c.memory.write addr (f c), stores := c.stores.push (addr, len) },
    ⟨rfl, by simp, fun h => h.of_size_eq (by simp), [(addr, len)], by simp, fun a h => ?_⟩, nofun, fun _ _ => rfl⟩
  refine ⟨_, List.mem_singleton.2 rfl, ?_⟩
  by_cases hrange : addr ≤ a ∧ a < addr + len
  · exact hrange
  · refine absurd ?_ h
    show (c.memory.write addr (f c)).byte a = c.memory.byte a
    rw [Memory.byte_write, hlen, if_neg (fun h => hrange ⟨h.1, h.2.1⟩)]

theorem storeBytes (addr : UInt32) (bs : List UInt8) : Homely fun _ => Exec.storeBytes addr bs :=
  choose (fun c => c.memory.holds addr.toNat bs.length) (stored (f := fun _ => bs) fun _ => rfl) (fault addr.toNat)
    fun c _ o => by
      simp only [Exec.storeBytes, bind_apply, get_apply, Machine.within]
      split <;> rfl

theorem copyBytes (dst src len : UInt32) : Homely fun _ => Exec.copyBytes dst src len :=
  choose (fun c => c.memory.holds dst.toNat len.toNat && c.memory.holds src.toNat len.toNat)
    (stored (f := fun c => c.memory.read src.toNat len.toNat) fun c => c.memory.length_read _ _)
    (trap .memoryOutOfBounds) fun c _ o => by
      simp only [Exec.copyBytes, bind_apply, get_apply, Machine.within]
      split <;> rfl

theorem growPages {limit : Nat} (hlimit : limit ≤ pageLimit) (n : UInt32) :
    Homely fun _ => Exec.growPages limit n := by
  intro c
  by_cases h : c.memory.pages + n.toNat ≤ limit
  · have hpaged : c.memory.Paged → (c.memory.grow (n.toNat * pageSize)).Paged := by
      rintro ⟨pages, -, hsize⟩
      have hpages : c.memory.pages = pages := by
        rw [Memory.pages, hsize, Nat.mul_div_cancel _ (by decide)]
      exact ⟨pages + n.toNat, by omega, by rw [Memory.size_grow, hsize, Nat.add_mul]⟩
    refine ⟨.ok (UInt32.ofNat c.memory.pages), { c with memory := c.memory.grow (n.toNat * pageSize) },
      ⟨rfl, Nat.le_add_right _ _, hpaged, [], (List.append_nil _).symm,
        fun a h => absurd (Memory.byte_grow _ _ a) h⟩, nofun, ?_⟩
    intro τ o
    simp only [Exec.growPages, bind_apply, get_apply, Machine.within, h, if_true]
    rfl
  · refine ⟨.ok 0xFFFFFFFF, c, ⟨rfl, .refl c⟩, nofun, ?_⟩
    intro τ o
    simp only [Exec.growPages, bind_apply, get_apply, Machine.within, h, if_false]
    rfl

theorem binary (op : BinaryOp) (x y : UInt32) : Homely fun _ => op.eval x y := by
  cases op with
  | div =>
    by_cases h : y = 0
    · simpa only [BinaryOp.eval, if_pos h] using trap .divisionByZero
    · simpa only [BinaryOp.eval, if_neg h] using pure (x / y)
  | _ => exact pure _

end Homely

/-! ## Related actions -/

def Stmt.globalsSet : Stmt → List Nat
  | .setGlobal k _ => [k]
  | .seq s t | .ifElse _ s t => s.globalsSet ++ t.globalsSet
  | .whileDo _ s => s.globalsSet
  | _ => []

/-- What `R` has to satisfy so that code on the one side is related to the same code on the other. Code may set
the globals that are `free`. -/
structure Relating (s₁ : Setting τ₁) (s₂ : Setting τ₂) (free : Nat → Prop)
    (R : {α : Type} → Exec τ₁ α → Exec τ₂ α → Prop) : Prop where
  typeOf : s₂.typeOf = s₁.typeOf
  maxPages : s₂.maxPages = s₁.maxPages
  memoryShown : s₂.memoryShown = s₁.memoryShown
  recordsCalls : s₂.recordsCalls = s₁.recordsCalls
  obeysUnwind : s₂.obeysUnwind = s₁.obeysUnwind
  fuel : s₂.fuel = s₁.fuel
  bind : ∀ {α β : Type} {x : Exec τ₁ α} {y : Exec τ₂ α} {f : α → Exec τ₁ β} {g : α → Exec τ₂ β},
    R x y → (∀ a, R (f a) (g a)) → R (x >>= f) (y >>= g)
  homely : ∀ {α : Type} {x : (τ : Type) → Exec τ α}, Homely x → R (x τ₁) (x τ₂)
  setGlobal : ∀ (k : Nat) (w : UInt32), free k → R (Exec.setGlobal k w) (Exec.setGlobal k w)
  call : ∀ target args, R (s₁.call target args) (s₂.call target args)

variable {s₁ : Setting τ₁} {s₂ : Setting τ₂} {free : Nat → Prop} {R : {α : Type} → Exec τ₁ α → Exec τ₂ α → Prop}

namespace Relating

theorem ite {c : Prop} [Decidable c] {x x' : Exec τ₁ α} {y y' : Exec τ₂ α} (hx : R x y) (hx' : R x' y') :
    R (if c then x else x') (if c then y else y') := by
  split
  · exact hx
  · exact hx'

variable (h : Relating s₁ s₂ free R)
include h

theorem pure (a : α) : R (Pure.pure a) (Pure.pure a) := h.homely (Homely.pure a)

theorem map {x : Exec τ₁ α} {y : Exec τ₂ α} (hx : R x y) (f : α → β) : R (do return f (← x)) (do return f (← y)) :=
  h.bind hx fun _ => h.pure _

end Relating

variable {params : List Value}

namespace Expr

def evalArg (s : Setting τ) (params : List Value) (locals : List UInt32) : ValType → Expr → Exec τ Value
  | .i64, lit n => pure (.i64 (UInt64.ofInt n))
  | t, e => do return Value.ofWord t (← e.eval s params locals)

theorem evalArgs_cons (s : Setting τ) (locals : List UInt32) (t : ValType) (types : List ValType) (e : Expr)
    (es : List Expr) : evalArgs s params locals (t :: types) (e :: es) = do
      let v ← evalArg s params locals t e
      return v :: (← evalArgs s params locals types es) := by
  cases t <;> cases e <;> simp [evalArgs, evalArg]

theorem related_evalArg (h : Relating s₁ s₂ free R) {locals : List UInt32} {e : Expr}
    (he : R (e.eval s₁ params locals) (e.eval s₂ params locals)) (t : ValType) :
    R (evalArg s₁ params locals t e) (evalArg s₂ params locals t e) := by
  have hword : R (do return Value.ofWord t (← e.eval s₁ params locals))
      (do return Value.ofWord t (← e.eval s₂ params locals)) := h.map he _
  unfold evalArg
  split
  · exact h.pure _
  · exact hword

mutual

theorem related_eval (h : Relating s₁ s₂ free R) (locals : List UInt32) :
    ∀ e : Expr, R (e.eval s₁ params locals) (e.eval s₂ params locals)
  | lit _ | param _ | paramHigh _ | localVar _ => by simp only [eval]; exact h.pure _
  | globalVar k => by simp only [eval]; exact h.homely (Homely.global k)
  | pages => by simp only [eval]; exact h.homely (Homely.reader fun memory => UInt32.ofNat memory.pages)
  | load a => by
    simp only [eval]
    exact h.bind (related_eval h locals a) fun _ => h.homely (Homely.loadWord _)
  | loadByte a => by
    simp only [eval]
    exact h.bind (related_eval h locals a) fun _ => h.homely (Homely.loadByte _)
  | binary op x y => by
    simp only [eval]
    exact h.bind (related_eval h locals x) fun _ => h.bind (related_eval h locals y) fun _ =>
      h.homely (Homely.binary op _ _)
  | isZero x => by
    simp only [eval]
    exact h.map (related_eval h locals x) _
  | grow n => by
    simp only [eval, h.maxPages]
    exact h.bind (related_eval h locals n) fun _ => h.homely (Homely.growPages s₁.maxPages_le _)
  | call target args => by
    simp only [eval, h.typeOf]
    exact h.bind (related_evalArgs h locals _ args) fun _ => h.map (h.call _ _) _

theorem related_evalArgs (h : Relating s₁ s₂ free R) (locals : List UInt32) :
    ∀ (types : List ValType) (es : List Expr),
      R (evalArgs s₁ params locals types es) (evalArgs s₂ params locals types es)
  | [], _ => by simp only [evalArgs]; exact h.pure _
  | _ :: _, [] => by simp only [evalArgs]; exact h.pure _
  | t :: types, e :: es => by
    rw [evalArgs_cons, evalArgs_cons]
    exact h.bind (related_evalArg h (related_eval h locals e) t) fun _ => h.map (related_evalArgs h locals types es) _

end

end Expr

theorem related_repeatWhile {cond₁ : List UInt32 → Exec τ₁ Bool} {cond₂ : List UInt32 → Exec τ₂ Bool}
    {body₁ : List UInt32 → Exec τ₁ (Flow × List UInt32)} {body₂ : List UInt32 → Exec τ₂ (Flow × List UInt32)}
    (h : Relating s₁ s₂ free R) (hcond : ∀ locals, R (cond₁ locals) (cond₂ locals))
    (hbody : ∀ locals, R (body₁ locals) (body₂ locals)) :
    ∀ (fuel : Nat) (locals : List UInt32), R (repeatWhile cond₁ body₁ fuel locals) (repeatWhile cond₂ body₂ fuel locals)
  | 0, _ => h.homely (Homely.throw .outOfFuel)
  | fuel + 1, locals => by
    unfold repeatWhile
    refine h.bind (hcond locals) ?_
    intro c
    cases c with
    | false => exact h.pure _
    | true =>
      refine h.bind (hbody locals) ?_
      rintro ⟨flow, locals⟩
      cases flow with
      | leave => exact h.pure _
      | next => exact related_repeatWhile h hcond hbody fuel locals

namespace Stmt

theorem related_look (h : Relating s₁ s₂ free R) (addr len : UInt32) : R (look s₁ addr len) (look s₂ addr len) := by
  simp only [look, h.memoryShown]
  exact Relating.ite (h.homely (Homely.peek addr len)) (h.pure none)

theorem related_exec (h : Relating s₁ s₂ free R) (stmt : Stmt) (hfree : ∀ k ∈ stmt.globalsSet, free k)
    (locals : List UInt32) : R (stmt.exec s₁ params locals) (stmt.exec s₂ params locals) := by
  have he (locals : List UInt32) (e : Expr) : R (e.eval s₁ params locals) (e.eval s₂ params locals) :=
    Expr.related_eval h locals e
  have hrecord (step : Step) (locals : List UInt32) :
      R (do Exec.record step; return (Flow.next, locals)) (do Exec.record step; return (Flow.next, locals)) :=
    h.bind (h.homely (Homely.record step)) fun _ => h.pure _
  induction stmt generalizing locals with
  | skip | leave => simp only [exec]; exact h.pure _
  | unreachable => simp only [exec]; exact h.homely (Homely.trap _)
  | seq a b iha ihb =>
    simp only [globalsSet, List.mem_append] at hfree
    simp only [exec]
    refine h.bind (iha (fun k hk => hfree k (.inl hk)) locals) ?_
    rintro ⟨flow, locals⟩
    cases flow with
    | leave => exact h.pure _
    | next => exact ihb (fun k hk => hfree k (.inr hk)) locals
  | ifElse c a b iha ihb =>
    simp only [globalsSet, List.mem_append] at hfree
    simp only [exec]
    exact h.bind (he locals c) fun _ =>
      Relating.ite (iha (fun k hk => hfree k (.inl hk)) locals) (ihb (fun k hk => hfree k (.inr hk)) locals)
  | whileDo c a iha =>
    simp only [exec, h.fuel]
    exact related_repeatWhile h (fun locals => h.map (he locals c) _) (fun locals => iha hfree locals) _ _
  | setLocal k e | drop e =>
    simp only [exec]
    exact h.map (he locals e) _
  | setGlobal k e =>
    simp only [exec]
    exact h.bind (he locals e) fun w =>
      h.bind (h.setGlobal k w (hfree k (List.mem_singleton.mpr rfl))) fun _ => h.pure _
  | store a e | storeByte a e =>
    simp only [exec]
    exact h.bind (he locals a) fun _ => h.bind (he locals e) fun _ =>
      h.bind (h.homely (Homely.storeBytes _ _)) fun _ => h.pure _
  | copy d a n =>
    simp only [exec]
    exact h.bind (he locals d) fun _ => h.bind (he locals a) fun _ => h.bind (he locals n) fun _ =>
      h.bind (h.homely (Homely.copyBytes _ _ _)) fun _ => h.pure _
  | note e =>
    simp only [exec]
    exact h.bind (he locals e) fun _ => hrecord _ _
  | dump a n | nonzero a n =>
    simp only [exec]
    exact h.bind (he locals a) fun _ => h.bind (he locals n) fun _ => h.bind (related_look h _ _) fun _ => hrecord _ _
  | clock a =>
    simp only [exec]
    exact h.bind (he locals a) fun _ => h.bind (related_look h _ _) fun _ => hrecord _ _
  | call target args =>
    simp only [exec, h.typeOf, h.obeysUnwind, h.recordsCalls]
    refine h.bind (Expr.related_evalArgs h locals _ args) fun _ => h.bind (h.call _ _) ?_
    intro results
    -- whether the call has started an unwind is read off the state that the call left
    exact h.bind (h.homely (Homely.global stateGlobal)) fun _ =>
      Relating.ite (h.pure _) (Relating.ite (hrecord _ _) (h.pure _))

theorem related_run (h : Relating s₁ s₂ free R) (body : Stmt) (hfree : ∀ k ∈ body.globalsSet, free k) :
    R (body.run s₁ params) (body.run s₂ params) := h.map (related_exec h body hfree _) Prod.snd

end Stmt

theorem Function.related_invoke (h : Relating s₁ s₂ free R) (f : Function) (hfree : ∀ k ∈ f.body.globalsSet, free k)
    (args : List Value) : R (f.invoke s₁ args) (f.invoke s₂ args) := by
  refine h.bind (Stmt.related_run h f.body hfree) ?_
  intro locals
  split
  · exact h.pure _
  · exact h.map (Expr.related_eval h locals f.result) _

/-! ## Guests -/

namespace Guest

def globalsSet (g : Guest) : List Nat := progressGlobal :: g.body.flatMap Stmt.globalsSet

theorem related_runStatements (h : Relating s₁ s₂ free R) (hprogress : free progressGlobal) (body : List Stmt)
    (hfree : ∀ stmt ∈ body, ∀ k ∈ stmt.globalsSet, free k) :
    ∀ (i : Nat) (locals : List UInt32), R (runStatements s₁ i body locals) (runStatements s₂ i body locals) := by
  induction body with
  | nil => exact fun _ _ => h.pure _
  | cons stmt rest ih =>
    intro i locals
    have hrest := ih fun t ht => hfree t (List.mem_cons_of_mem _ ht)
    simp only [runStatements, h.obeysUnwind]
    refine h.bind (h.homely (Homely.global _)) fun _ => Relating.ite ?_ (hrest _ _)
    refine h.bind (Stmt.related_exec h stmt (hfree stmt List.mem_cons_self) _) ?_
    rintro ⟨flow, locals⟩
    cases flow with
    | leave => exact h.pure _
    | next =>
      refine h.bind (h.homely (Homely.global _)) fun _ => Relating.ite (h.pure _) ?_
      exact h.bind (h.setGlobal _ _ hprogress) fun _ => hrest _ _

theorem globalsSet_ofList (body : List Stmt) : (Stmt.ofList body).globalsSet = body.flatMap Stmt.globalsSet := by
  induction body with
  | nil => rfl
  | cons stmt rest ih => exact congrArg (stmt.globalsSet ++ ·) ih

theorem related_entryWith (g : Guest) (limits : Limits) {call₁ : ImportName → List Value → Exec τ₁ (List Value)}
    {call₂ : ImportName → List Value → Exec τ₂ (List Value)}
    (h : ∀ obeys, Relating (g.setting limits obeys call₁) (g.setting limits obeys call₂) free R)
    (hfree : ∀ k ∈ g.globalsSet, free k) : R (g.entryWith limits call₁) (g.entryWith limits call₂) := by
  have hbody : ∀ k ∈ g.body.flatMap Stmt.globalsSet, free k := fun k hk => hfree k (List.mem_cons_of_mem _ hk)
  unfold entryWith
  split
  · exact related_runStatements (h _) (hfree _ List.mem_cons_self) g.body
      (fun stmt hs k hk => hbody k (List.mem_flatMap.2 ⟨stmt, hs, hk⟩)) 0 _
  · exact (h false).map (Stmt.related_run (h false) _ (globalsSet_ofList g.body ▸ hbody)) _

end Guest

end

end GuestHost
