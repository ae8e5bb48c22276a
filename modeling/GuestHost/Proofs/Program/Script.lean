/-
  GuestHost.Proofs.Program.Script — what a statement does between its calls.

  A statement can be run without any host: on a script, which either knows the results of one call, with what
  the call left of the module, or stops at the call and says which one it is. `Stmt.probe` is such a run. What
  a statement does on a real machine is then a matter of its probes and of what the calls do: a statement that
  comes to one call is its probe up to the call, the call, and its probe with the results of the call.

  Proved:
  - `Stmt.exec_of_ended`, `Stmt.exec_of_asks_error`, `Stmt.exec_of_asks_ok`: a run from the probes.
  - `Stmt.spares_exec`: a statement leaves all locals alone but those that it assigns to.
-/

import GuestHost.Proofs.Program.Relating

namespace GuestHost

open Exec

inductive Script where
  | idle
  /-- The next call has these results, and leaves this of the module. -/
  | armed (results : List Value) (core : Core)
  /-- The module came to a call for which there are no results. -/
  | asking (target : ImportName) (args : List Value)

def Script.call (target : ImportName) (args : List Value) : Exec Script (List Value) := fun m =>
  match m.outer with
  | .armed results core => .ok results (core.within .idle)
  | _ => .error .boom (m.core.within (.asking target args))

section

variable {τ τ' α β : Type}

def Setting.serving (s : Setting τ) (call : ImportName → List Value → Exec τ' (List Value)) : Setting τ' where
  call
  typeOf := s.typeOf
  maxPages := s.maxPages
  maxPages_le := s.maxPages_le
  memoryShown := s.memoryShown
  recordsCalls := s.recordsCalls
  obeysUnwind := s.obeysUnwind
  fuel := s.fuel

/-! ## Actions and their scripts -/

/-- `y` comes to its end, or to a call for which there are no results. -/
def Closes (y : Exec Script α) (m : Machine Script) : Prop :=
  (∃ (r : Except Failure α) (c : Core), y m = yields r (c.within .idle)) ∨
    ∃ (target : ImportName) (args : List Value) (c : Core), y m = .error .boom (c.within (.asking target args))

/-- `x` does what `y` does on scripts that know what `call` does: it calls nothing, or makes the call that `y`
asks for and goes on as `y` does with its results. -/
def Follows (call : ImportName → List Value → Exec τ (List Value)) (x : Exec τ α) (y : Exec Script α) : Prop :=
  ∀ m : Machine τ,
    (∃ (r : Except Failure α) (c : Core), y (m.core.within .idle) = yields r (c.within .idle) ∧
      (∀ vs c₀, y (m.core.within (.armed vs c₀)) = yields r (c.within (.armed vs c₀))) ∧
      x m = yields r (c.within m.outer)) ∨
    ∃ (target : ImportName) (args : List Value) (c : Core),
      y (m.core.within .idle) = .error .boom (c.within (.asking target args)) ∧
      (∀ vs c₀, Closes y (m.core.within (.armed vs c₀))) ∧
      (∀ e m', call target args (c.within m.outer) = .error e m' → x m = .error e m') ∧
      ∀ vs m' r (c' : Core), call target args (c.within m.outer) = .ok vs m' →
        y (m.core.within (.armed vs m'.core)) = yields r (c'.within .idle) → x m = yields r (c'.within m'.outer)

theorem yields_idle_ne_asks {r : Except Failure α} {c c' : Core} {target : ImportName} {args : List Value} :
    (yields r (c.within .idle) : EStateM.Result Failure (Machine Script) α) ≠
      .error .boom (c'.within (.asking target args)) := by
  intro h
  cases r with
  | ok a => cases h
  | error e =>
    injection h with _ hm
    cases congrArg Machine.outer hm

theorem Closes.bind {y : Exec Script α} {g : α → Exec Script β} {m : Machine Script} (hy : Closes y m)
    (hg : ∀ (a : α) (c : Core), Closes (g a) (c.within .idle)) : Closes (y >>= g) m := by
  unfold Closes
  rw [bind_apply]
  rcases hy with ⟨r, c, h⟩ | ⟨target, args, c, h⟩
  · rw [h]
    cases r with
    | ok a => exact hg a c
    | error e => exact .inl ⟨.error e, c, rfl⟩
  · rw [h]
    exact .inr ⟨target, args, c, rfl⟩

namespace Follows

variable {call : ImportName → List Value → Exec τ (List Value)}

theorem homely {x : (τ : Type) → Exec τ α} (hx : Homely x) : Follows call (x τ) (x Script) := by
  intro m
  obtain ⟨r, c, -, -, h⟩ := hx m.core
  exact .inl ⟨r, c, h _ _, fun _ _ => h _ _, h _ _⟩

theorem assign (k : Nat) (w : UInt32) : Follows call (Exec.setGlobal k w) (Exec.setGlobal k w) :=
  fun m => .inl ⟨.ok (), { m.core with globals := m.globals.set k w }, rfl, fun _ _ => rfl, rfl⟩

theorem asks (target : ImportName) (args : List Value) : Follows call (call target args) (Script.call target args) := by
  intro m
  refine .inr ⟨target, args, m.core, rfl, fun vs c₀ => .inl ⟨.ok vs, c₀, rfl⟩, fun e m' h => h, ?_⟩
  intro vs m' r c' h hr
  obtain ⟨rfl, rfl⟩ := yields_inj (r := .ok vs) hr
  exact h

theorem closes {x : Exec τ α} {y : Exec Script α} (h : Follows call x y) (m : Machine τ) :
    Closes y (m.core.within .idle) := by
  rcases h m with ⟨r, c, hy, -⟩ | ⟨target, args, c, hy, -⟩
  · exact .inl ⟨r, c, hy⟩
  · exact .inr ⟨target, args, c, hy⟩

theorem bind {x : Exec τ α} {y : Exec Script α} {f : α → Exec τ β} {g : α → Exec Script β}
    (hx : Follows call x y) (hf : ∀ a, Follows call (f a) (g a)) : Follows call (x >>= f) (y >>= g) := by
  intro m
  rcases hx m with ⟨r, c, hy, harmed, hr⟩ | ⟨target, args, c, hy, hpasses, herror, hok⟩
  · cases r with
    | error e =>
      exact .inl ⟨.error e, c, by rw [bind_apply, hy]; rfl, fun _ _ => by rw [bind_apply, harmed]; rfl,
        by rw [bind_apply, hr]; rfl⟩
    | ok a =>
      -- nothing was called yet: what comes next decides
      have hidle : (y >>= g) (m.core.within .idle) = g a (c.within .idle) := by rw [bind_apply, hy]; rfl
      have hnext : ∀ vs c₀, (y >>= g) (m.core.within (.armed vs c₀)) = g a (c.within (.armed vs c₀)) := fun vs c₀ => by
        rw [bind_apply, harmed]
        rfl
      have hboth : (x >>= f) m = f a (c.within m.outer) := by rw [bind_apply, hr]; rfl
      simp only [Closes, hidle, hnext, hboth]
      exact hf a (c.within m.outer)
  · have hclose (a : α) (c : Core) : Closes (g a) (c.within .idle) := (hf a).closes (c.within m.outer)
    refine .inr ⟨target, args, c, by rw [bind_apply, hy], fun vs c₀ => (hpasses vs c₀).bind hclose, ?_, ?_⟩
    · intro e m' h
      rw [bind_apply, herror e m' h]
    · intro vs m' r c' h hr
      rw [bind_apply] at hr ⊢
      rcases hpasses vs m'.core with ⟨r₁, c₁, hy₁⟩ | ⟨t, as, c₁, hy₁⟩
      · rw [hok vs m' r₁ c₁ h hy₁]
        rw [hy₁] at hr
        cases r₁ with
        | error e =>
          obtain ⟨rfl, rfl⟩ := yields_inj (r := .error e) hr
          rfl
        | ok a =>
          -- past the call the script is idle, so what follows must not call again
          rcases hf a (c₁.within m'.outer) with ⟨r₂, c₂, hg, -, hfa⟩ | ⟨t, as, c₂, hg, -⟩
          · obtain ⟨rfl, rfl⟩ := yields_inj (hg.symm.trans hr)
            exact hfa
          · exact absurd (hr.symm.trans hg) yields_idle_ne_asks
      · rw [hy₁] at hr
        exact absurd hr.symm yields_idle_ne_asks

/-- Code on a machine follows the same code on a script. -/
theorem relating (s : Setting τ) :
    Relating s (s.serving Script.call) (fun _ => True) fun x y => Follows s.call x y where
  typeOf := rfl
  maxPages := rfl
  memoryShown := rfl
  recordsCalls := rfl
  obeysUnwind := rfl
  fuel := rfl
  bind := Follows.bind
  homely := Follows.homely
  setGlobal k w _ := Follows.assign k w
  call := Follows.asks

end Follows

/-! ## Probes -/

/-- What a probe of a statement comes to: its end, or a call; with what it made of the module until then. -/
inductive Talk where
  | ended (r : Except Failure Flow) (core : Core)
  | asks (target : ImportName) (args : List Value) (core : Core)

def Talk.of (r : Except Failure Flow) (m : Machine Script) : Talk :=
  match m.outer with
  | .asking target args => .asks target args m.core
  | _ => .ended r m.core

def Stmt.probe (stmt : Stmt) (s : Setting τ) (locals : List UInt32) (script : Script) (c : Core) : Talk :=
  match stmt.exec (s.serving Script.call) [] locals (c.within script) with
  | .ok (flow, _) m => .of (.ok flow) m
  | .error e m => .of (.error e) m

namespace Stmt

variable {stmt : Stmt} {s : Setting τ} {locals : List UInt32}

theorem probe_of_yields {script script' : Script} {c c' : Core} {r : Except Failure (Flow × List UInt32)}
    (h : stmt.exec (s.serving Script.call) [] locals (c.within script) = yields r (c'.within script')) :
    stmt.probe s locals script c = .of (r.map Prod.fst) (c'.within script') := by
  unfold probe
  rw [h]
  cases r <;> rfl

theorem follows_exec (stmt : Stmt) (s : Setting τ) (locals : List UInt32) :
    Follows s.call (stmt.exec s [] locals) (stmt.exec (s.serving Script.call) [] locals) :=
  related_exec (Follows.relating s) stmt (fun _ _ => trivial) locals

/-- A statement that calls nothing does what its probe does. -/
theorem exec_of_ended {m : Machine τ} {r : Except Failure Flow} {c : Core}
    (h : stmt.probe s locals .idle m.core = .ended r c) :
    ∃ r', r'.map Prod.fst = r ∧ stmt.exec s [] locals m = yields r' (c.within m.outer) := by
  rcases follows_exec stmt s locals m with ⟨r', c', hy, -, hx⟩ | ⟨target, args, c', hy, -⟩
  · rw [probe_of_yields hy] at h
    injection h with hr hc
    exact ⟨r', hr, hc ▸ hx⟩
  · rw [probe_of_yields (r := .error .boom) hy] at h
    cases h

theorem follows_of_asks {m : Machine τ} {target : ImportName} {args : List Value} {c : Core}
    (h : stmt.probe s locals .idle m.core = .asks target args c) :
    (∀ vs c₀, Closes (stmt.exec (s.serving Script.call) [] locals) (m.core.within (.armed vs c₀))) ∧
    (∀ e m', s.call target args (c.within m.outer) = .error e m' → stmt.exec s [] locals m = .error e m') ∧
      ∀ vs m' r (c' : Core), s.call target args (c.within m.outer) = .ok vs m' →
        stmt.exec (s.serving Script.call) [] locals (m.core.within (.armed vs m'.core)) = yields r (c'.within .idle) →
          stmt.exec s [] locals m = yields r (c'.within m'.outer) := by
  rcases follows_exec stmt s locals m with ⟨r', c', hy, -⟩ | ⟨t, as, c', hy, hpasses, hrest⟩
  · rw [probe_of_yields hy] at h
    cases h
  · rw [probe_of_yields (r := .error .boom) hy] at h
    cases h
    exact ⟨hpasses, hrest⟩

/-- A statement fails when its call fails. -/
theorem exec_of_asks_error {m m' : Machine τ} {target : ImportName} {args : List Value} {c : Core} {e : Failure}
    (h : stmt.probe s locals .idle m.core = .asks target args c)
    (hcall : s.call target args (c.within m.outer) = .error e m') : stmt.exec s [] locals m = .error e m' :=
  (follows_of_asks h).2.1 e m' hcall

/-- A statement goes on from its call as its probe does with the results of the call. -/
theorem exec_of_asks_ok {m m' : Machine τ} {target : ImportName} {args vs : List Value} {c c' : Core}
    {r : Except Failure Flow} (h : stmt.probe s locals .idle m.core = .asks target args c)
    (hcall : s.call target args (c.within m.outer) = .ok vs m')
    (hpast : stmt.probe s locals (.armed vs m'.core) m.core = .ended r c') :
    ∃ r', r'.map Prod.fst = r ∧ stmt.exec s [] locals m = yields r' (c'.within m'.outer) := by
  obtain ⟨hpasses, -, hok⟩ := follows_of_asks h
  rcases hpasses vs m'.core with ⟨r', c₁, hy⟩ | ⟨t, as, c₁, hy⟩
  · rw [probe_of_yields hy] at hpast
    injection hpast with hr hc
    exact ⟨r', hr, hok vs m' r' c' hcall (hc ▸ hy)⟩
  · rw [probe_of_yields (r := .error .boom) hy] at hpast
    cases hpast

/-! ## Locals -/

/-- The locals that a statement assigns to. -/
def localsSet : Stmt → List Nat
  | .setLocal k _ => [k]
  | .seq s t | .ifElse _ s t => s.localsSet ++ t.localsSet
  | .whileDo _ s => s.localsSet
  | _ => []

end Stmt

/-- The locals of the one list are those of the other, but for some. -/
def SameBut (ks : List Nat) (locals locals' : List UInt32) : Prop :=
  locals'.length = locals.length ∧ ∀ k ∉ ks, locals'.getD k 0 = locals.getD k 0

namespace SameBut

variable {ks ks' : List Nat} {l l' l'' : List UInt32}

theorem refl (ks : List Nat) (l : List UInt32) : SameBut ks l l := ⟨rfl, fun _ _ => rfl⟩

theorem trans (h : SameBut ks l l') (h' : SameBut ks' l' l'') : SameBut (ks ++ ks') l l'' := by
  refine ⟨h'.1.trans h.1, ?_⟩
  intro k hk
  rw [List.mem_append, not_or] at hk
  exact (h'.2 k hk.2).trans (h.2 k hk.1)

theorem mono (h : SameBut ks l l') (hsub : ∀ k ∈ ks, k ∈ ks') : SameBut ks' l l' :=
  ⟨h.1, fun k hk => h.2 k fun hks => hk (hsub k hks)⟩

theorem set (k : Nat) (w : UInt32) : SameBut [k] l (l.set k w) := by
  refine ⟨List.length_set, ?_⟩
  intro j hj
  have hne : k ≠ j := fun h => hj (List.mem_singleton.2 h.symm)
  simp only [List.getD_eq_getElem?_getD, List.getElem?_set_ne hne]

end SameBut

abbrev Spares (ks : List Nat) (locals : List UInt32) (x : Exec τ (Flow × List UInt32)) : Prop :=
  Ends (fun _ => True) x (fun r _ => SameBut ks locals r.2) fun _ _ => True

theorem Spares.after {x : Exec τ α} {f : α → Exec τ (Flow × List UInt32)} {ks : List Nat} {locals : List UInt32}
    (h : ∀ a, Spares ks locals (f a)) : Spares ks locals (x >>= f) :=
  Ends.bind (Ends.somehow x) h

theorem spares_repeatWhile {cond : List UInt32 → Exec τ Bool} {body : List UInt32 → Exec τ (Flow × List UInt32)}
    {ks : List Nat} (hbody : ∀ locals, Spares ks locals (body locals)) :
    ∀ (fuel : Nat) (locals : List UInt32), Spares ks locals (repeatWhile cond body fuel locals)
  | 0, _ => fun _ _ => trivial
  | fuel + 1, locals => by
    unfold repeatWhile
    refine .after ?_
    intro c
    cases c with
    | false => exact Ends.pure fun _ _ => .refl _ _
    | true =>
      refine Ends.bind (hbody locals) ?_
      intro r m h
      obtain ⟨flow, locals'⟩ := r
      cases flow with
      | leave => exact h
      | next =>
        exact Ends.mono (spares_repeatWhile hbody fuel locals')
          (fun r _ hr => (h.trans hr).mono fun k hk => by simpa using hk) (fun _ _ h => h) m trivial

namespace Stmt

/-- A statement leaves the locals alone that it does not assign to. -/
theorem spares_exec (s : Setting τ) (params : List Value) (stmt : Stmt) (locals : List UInt32) :
    Spares stmt.localsSet locals (stmt.exec s params locals) := by
  induction stmt generalizing locals with
  | skip | leave => exact Ends.pure fun _ _ => .refl _ _
  | unreachable => exact fun _ _ => trivial
  | seq a b iha ihb =>
    simp only [exec, localsSet]
    refine Ends.bind (iha locals) ?_
    intro r
    obtain ⟨flow, locals'⟩ := r
    cases flow with
    | leave => exact Ends.pure fun _ h => h.mono fun k hk => List.mem_append_left _ hk
    | next =>
      intro m h
      exact Ends.mono (ihb locals') (fun r _ hr => h.trans hr) (fun _ _ h => h) m trivial
  | setLocal k e =>
    simp only [exec]
    exact .after fun w => Ends.pure fun _ _ => .set k w
  | ifElse c a b iha ihb =>
    simp only [exec, localsSet]
    refine .after ?_
    intro w
    split
    · exact Ends.mono (iha locals) (fun _ _ h => h.mono fun k hk => List.mem_append_left _ hk) fun _ _ h => h
    · exact Ends.mono (ihb locals) (fun _ _ h => h.mono fun k hk => List.mem_append_right _ hk) fun _ _ h => h
  | whileDo c a iha =>
    simp only [exec]
    exact spares_repeatWhile iha _ _
  | drop e =>
    simp only [exec]
    exact .after fun _ => Ends.pure fun _ _ => .refl _ _
  | setGlobal k e | note e =>
    simp only [exec]
    exact .after fun _ => .after fun _ => Ends.pure fun _ _ => .refl _ _
  | store a e | storeByte a e =>
    simp only [exec]
    exact .after fun _ => .after fun _ => .after fun _ => Ends.pure fun _ _ => .refl _ _
  | copy d a n | dump a n | nonzero a n =>
    simp only [exec]
    exact .after fun _ => .after fun _ => .after fun _ => .after fun _ => Ends.pure fun _ _ => .refl _ _
  | clock a =>
    simp only [exec]
    exact .after fun _ => .after fun _ => .after fun _ => Ends.pure fun _ _ => .refl _ _
  | call target args =>
    simp only [exec]
    refine .after fun _ => .after fun _ => .after fun _ => ?_
    split
    · exact Ends.pure fun _ _ => .refl _ _
    · split
      · exact .after fun _ => Ends.pure fun _ _ => .refl _ _
      · exact Ends.pure fun _ _ => .refl _ _

end Stmt

end

end GuestHost
