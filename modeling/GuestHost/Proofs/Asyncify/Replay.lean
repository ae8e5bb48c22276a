/-
  GuestHost.Proofs.Asyncify.Replay — a guest that is cut into passes does what it does in one.

  The same statements run twice: directly, where every call answers at once, and under a bridge, where some
  calls suspend. `Stands` ties the two machines between statements: the guest's own part is the same, and the
  hosts are related. A call that suspends takes the second machine out of the relation; the driver brings it
  back in, by finishing the work and having the guest run the statement again.

      direct    ──stmt──▶ ... ──call─────────────────────────────────────▶ rest of stmt ──▶ next stmt
      bridged   ──stmt──▶ ... ──call─▶ unwind ─▶ finish ─▶ stmt again ─▶ call returns ─▶ rest ─▶ next stmt

  This works for statements that may be run again up to their call (`Stmt.Replays`), which is asked where the
  direct run comes to them (`Replayable`), and for hosts that do the same for a call in two halves as in one
  (`Indifferent`).

  Proved:
  - `drive_unwinding`: one turn of the driver.
  - `agrees_tail`: from related machines, the rest of a bridged run comes to what the rest of the direct run
    comes to. By induction on the statements that are left.
-/

import GuestHost.Proofs.Asyncify.Actions
import GuestHost.Proofs.Program.Script

namespace GuestHost

open Exec

/-- What an import returns to a guest that is to unwind. -/
def placeholder : List Value := [.i32 0]

/-- How an operation may leave the module when it waits. -/
abbrev Pauses (τ : Type) := ImportName → List Value → Machine τ → Core → Prop

/-- The guest neither unwinds nor rewinds. -/
structure Awake {τ : Type} (m : Machine τ) : Prop where
  room : m.globals.length = 10
  state : m.globals.getD stateGlobal 0 = 0

/-! ## Statements that can be replayed -/

/-- The statement can be replayed from where the direct run comes to it. -/
structure Stmt.Replays {τ : Type} (s : Setting τ) (pauses : Pauses τ) (earlier : List Nat) (stmt : Stmt)
    (m : Machine τ) : Prop where
  /-- It does the same whatever statements before it have left in their locals. -/
  locals : ∀ locals, SameBut earlier freshLocals locals →
    ∀ script, stmt.probe s locals script m.core = stmt.probe s freshLocals script m.core
  /-- Without a call, it leaves the guest's own two globals alone. -/
  ended : ∀ r c, stmt.probe s freshLocals .idle m.core = .ended r c →
    c.globals.length = m.globals.length ∧ ∀ k ∈ [stateGlobal, progressGlobal], c.globals.getD k 0 = m.globals.getD k 0
  /-- It does nothing before a call. -/
  before : ∀ target args c, stmt.probe s freshLocals .idle m.core = .asks target args c → c = m.core
  /-- It makes at most one call, and leaves the two globals alone after it. -/
  once : ∀ target args c, stmt.probe s freshLocals .idle m.core = .asks target args c →
    ∀ vs m', s.call target args m = .ok vs m' →
      ∃ r c', stmt.probe s freshLocals (.armed vs m'.core) m.core = .ended r c' ∧
        c'.globals.length = m.globals.length ∧
          ∀ k ∈ [stateGlobal, progressGlobal], c'.globals.getD k 0 = m.globals.getD k 0
  /-- Before the call, it reads nothing that the call's operation writes, and not the state global. -/
  again : ∀ target args c, stmt.probe s freshLocals .idle m.core = .asks target args c →
    ∀ vs m', s.call target args m = .ok vs m' → ∀ w,
      let c' := m'.core.setGlobal stateGlobal w
      stmt.probe s freshLocals .idle c' = .asks target args c' ∧
        stmt.probe s freshLocals (.armed vs m'.core) c' = stmt.probe s freshLocals (.armed vs m'.core) m.core
  /-- After a call that has started an unwind, it does nothing. -/
  obeys : ∀ target args c, stmt.probe s freshLocals .idle m.core = .asks target args c →
    ∀ c', pauses target args m c' → ∃ flow,
      stmt.probe s freshLocals (.armed placeholder (c'.setGlobal stateGlobal unwindingWord)) m.core =
        .ended (.ok flow) (c'.setGlobal stateGlobal unwindingWord)

/-- The statements can be replayed, from number `i` on, where the direct run comes to them. -/
def Replayable {τ : Type} (s : Setting τ) (pauses : Pauses τ) :
    List Nat → Nat → List Stmt → List UInt32 → Machine τ → Prop
  | _, _, [], _, _ => True
  | earlier, i, stmt :: rest, locals, m =>
    stmt.Replays s pauses earlier m ∧
      ∀ locals' m', stmt.exec s [] locals m = .ok (.next, locals') m' →
        Replayable s pauses (earlier ++ stmt.localsSet) (i + 1) rest locals'
          (m'.setGlobal progressGlobal (UInt32.ofNat (i + 1)))

/-! ### Two kinds of such statements -/

section

variable {τ : Type} {s : Setting τ} {pauses : Pauses τ} {earlier : List Nat} {m : Machine τ}

/-- A statement that only uses the module's own memory and record, and no locals. -/
theorem Stmt.replays_of_homely {stmt : Stmt} {x : (τ : Type) → Exec τ Flow} (hx : Homely x)
    (hexec : ∀ locals, stmt.exec (s.serving Script.call) [] locals = do return (← x Script, locals)) :
    stmt.Replays s pauses earlier m := by
  have hprobe (c : Core) : ∃ (r : Except Failure Flow) (c' : Core), c'.globals = c.globals ∧ ∀ locals script,
      stmt.probe s locals script c = .of r (c'.within script) := by
    obtain ⟨r, c', ⟨hglobals, -⟩, -, h⟩ := hx c
    refine ⟨r, c', hglobals, ?_⟩
    intro locals script
    unfold Stmt.probe
    rw [hexec, bind_apply, h]
    cases r <;> rfl
  obtain ⟨r, c', hglobals, h⟩ := hprobe m.core
  have hasks {target : ImportName} {args : List Value} {c : Core}
      (hp : stmt.probe s freshLocals .idle m.core = .asks target args c) : False := by
    rw [h] at hp
    cases hp
  exact {
    locals := fun locals _ script => (h locals script).trans (h freshLocals script).symm
    ended := fun r₁ c₁ hp => by
      rw [h] at hp
      cases hp
      exact ⟨congrArg List.length hglobals, fun k _ => congrArg (List.getD · k 0) hglobals⟩
    before := fun _ _ _ hp => (hasks hp).elim
    once := fun _ _ _ hp => (hasks hp).elim
    again := fun _ _ _ hp => (hasks hp).elim
    obeys := fun _ _ _ hp => (hasks hp).elim }

theorem Stmt.replays_look (addr : Int) : (Stmt.note (.load (.lit addr))).Replays s pauses earlier m := by
  refine Stmt.replays_of_homely (x := fun _ => do
    Exec.record (.note (← Exec.loadWord (UInt32.ofInt addr)))
    return .next) (.bind (.loadWord _) fun _ => .bind (.record _) fun _ => .pure _) ?_
  intro locals
  simp only [Stmt.exec, Expr.eval, pure_bind, bind_assoc]

variable {target : ImportName} {args : List Expr} (values : List Value)

theorem Stmt.probe_call (hobeys : s.obeysUnwind = true)
    (hargs : ∀ locals, Expr.evalArgs (s.serving Script.call) [] locals (s.typeOf target).params args = pure values)
    (locals : List UInt32) (script : Script) (c : Core) :
    (Stmt.call target args).probe s locals script c = match script with
      | .armed vs c₀ =>
        if c₀.globals.getD stateGlobal 0 == unwindingWord then .ended (.ok .leave) c₀
        else .ended (.ok .next) (if s.recordsCalls then
            { c₀ with steps := c₀.steps.push (.called target.name (resultWord vs)) }
          else c₀)
      | _ => .asks target values c := by
  have hserving : (s.serving Script.call).obeysUnwind = true := hobeys
  unfold Stmt.probe
  simp only [Stmt.exec, bind_apply, hserving, Bool.true_and]
  rw [show Expr.evalArgs (s.serving Script.call) [] locals ((s.serving Script.call).typeOf target).params args =
    pure values from hargs locals]
  cases script with
  | armed vs c₀ =>
    have hcall : (s.serving Script.call).call target values (c.within (.armed vs c₀)) = .ok vs (c₀.within .idle) := rfl
    have hglobal : Exec.global stateGlobal (c₀.within Script.idle) =
        .ok (c₀.globals.getD stateGlobal 0) (c₀.within .idle) := rfl
    have hrecords : (s.serving Script.call).recordsCalls = s.recordsCalls := rfl
    simp only [pure_apply, hcall, hglobal, hrecords]
    cases c₀.globals.getD stateGlobal 0 == unwindingWord with
    | true => rfl
    | false => cases s.recordsCalls <;> rfl
  | idle => rfl
  | asking t as => rfl

theorem Stmt.replays_call (hobeys : s.obeysUnwind = true)
    (hargs : ∀ locals, Expr.evalArgs (s.serving Script.call) [] locals (s.typeOf target).params args = pure values)
    (hawake : Awake m) (hglobals : ∀ vs m', s.call target values m = .ok vs m' → m'.globals = m.globals)
    (hpauses : ∀ c, pauses target values m c → c.globals = m.globals) :
    (Stmt.call target args).Replays s pauses earlier m := by
  have hprobe := Stmt.probe_call (s := s) values hobeys hargs
  have hstays {c : Core} (h : c.globals = m.globals) :
      (c.globals.getD stateGlobal 0 == unwindingWord) = false := by rw [h, hawake.state]; rfl
  exact {
    locals := fun locals _ script => (hprobe locals script _).trans (hprobe freshLocals script _).symm
    ended := fun r c hp => by
      rw [hprobe] at hp
      cases hp
    before := fun t as c hp => by
      rw [hprobe] at hp
      cases hp
      rfl
    once := fun t as c hp vs m' hcall => by
      rw [hprobe] at hp
      cases hp
      have hsame : m'.core.globals = m.globals := hglobals vs m' hcall
      refine ⟨.ok .next, _, (hprobe _ _ _).trans (if_neg (by rw [hstays hsame]; exact Bool.false_ne_true)), ?_⟩
      split <;> exact ⟨congrArg List.length hsame, fun k _ => congrArg (List.getD · k 0) hsame⟩
    again := fun t as c hp vs m' hcall w => by
      rw [hprobe] at hp
      cases hp
      exact ⟨hprobe _ _ _, (hprobe _ (.armed vs m'.core) _).trans (hprobe _ (.armed vs m'.core) m.core).symm⟩
    obeys := fun t as c hp c' hpause => by
      rw [hprobe] at hp
      cases hp
      have hroom : stateGlobal < c'.globals.length := by rw [hpauses c' hpause, hawake.room]; decide
      exact ⟨.leave, by rw [hprobe]; simp only [Core.getD_setGlobal hroom, beq_self_eq_true, if_true]⟩ }

theorem Awake.congr (h : Awake m) {m' : Machine τ} (hglobals : m'.globals = m.globals) : Awake m' :=
  ⟨hglobals ▸ h.room, hglobals ▸ h.state⟩

theorem Awake.setGlobal (h : Awake m) {k : Nat} (hk : k ≠ stateGlobal) (w : UInt32) : Awake (m.setGlobal k w) := by
  refine ⟨by simpa using h.room, ?_⟩
  simpa [List.getD_eq_getElem?_getD, List.getElem?_set_ne hk] using h.state

theorem undisturbed_awake : Undisturbed (@Awake τ) (fun _ _ => True) fun k => k ≠ stateGlobal where
  own _ hglobals _ hm := hm.congr hglobals
  setGlobal w hk hm := hm.setGlobal hk w
  fails _ _ := trivial

/-- Statements that can be replayed wherever the guest neither unwinds nor rewinds. -/
theorem replayable_of_forall
    (hglobals : ∀ target args m vs m', s.call target args m = .ok vs m' → m'.globals = m.globals) (body : List Stmt)
    (hset : ∀ stmt ∈ body, ∀ k ∈ stmt.globalsSet, k ≠ stateGlobal)
    (h : ∀ stmt ∈ body, ∀ earlier m, Awake m → stmt.Replays s pauses earlier m) :
    ∀ earlier i locals m, Awake m → Replayable s pauses earlier i body locals m := by
  induction body with
  | nil => exact fun _ _ _ _ _ => trivial
  | cons stmt rest ih =>
    intro earlier i locals m hm
    have hcall (target : ImportName) (args : List Value) : Keeps Awake (fun _ _ => True) (s.call target args) := by
      intro n hn
      cases hr : s.call target args n with
      | ok vs n' => exact hn.congr (hglobals _ _ _ _ _ hr)
      | error e n' => trivial
    refine ⟨h stmt List.mem_cons_self earlier m hm, ?_⟩
    intro locals' m' hexec
    have hm' : Awake m' :=
      (Stmt.keeps_exec undisturbed_awake hcall stmt (hset stmt List.mem_cons_self) locals).ok hm hexec
    exact ih (fun t ht => hset t (List.mem_cons_of_mem _ ht)) (fun t ht => h t (List.mem_cons_of_mem _ ht)) _ _ _ _
      (hm'.setGlobal (by decide) _)

end

section

variable {τ κ η α β : Type}

/-! ## Two runs -/

/-- The guest's own part of both machines is the same, and what lies outside is related. -/
structure Matches (ρ : τ → η → Prop) (m₁ : Machine τ) (m₂ : Machine (Hosted κ η)) : Prop where
  core : m₂.core = m₁.core
  host : ρ m₁.outer m₂.outer.host

/-- The machines match, and the bridge of the second is bound and holds nothing. -/
structure Stands (ρ : τ → η → Prop) (m₁ : Machine τ) (m₂ : Machine (Hosted κ η)) : Prop extends Matches ρ m₁ m₂ where
  phase : m₂.outer.bridge.phase = .normal
  bound : m₂.outer.bridge.bound = true

/-- Two results are the same value, in machines of which `Q` holds, or the same failure, in machines that
match. -/
def Agrees (ρ : τ → η → Prop) (Q : Machine τ → Machine (Hosted κ η) → Prop) :
    EStateM.Result Failure (Machine τ) α → EStateM.Result Failure (Machine (Hosted κ η)) α → Prop
  | .ok a m₁, .ok b m₂ => b = a ∧ Q m₁ m₂
  | .error e m₁, .error f m₂ => f = e ∧ Matches ρ m₁ m₂
  | _, _ => False

theorem Agrees.cases {ρ : τ → η → Prop} {Q : Machine τ → Machine (Hosted κ η) → Prop}
    {x : EStateM.Result Failure (Machine τ) α} {y : EStateM.Result Failure (Machine (Hosted κ η)) α}
    (h : Agrees ρ Q x y) :
    (∃ a m₁ m₂, x = .ok a m₁ ∧ y = .ok a m₂ ∧ Q m₁ m₂) ∨
      ∃ e m₁ m₂, x = .error e m₁ ∧ y = .error e m₂ ∧ Matches ρ m₁ m₂ := by
  cases x with
  | ok a m₁ =>
    cases y with
    | error f m₂ => exact h.elim
    | ok b m₂ =>
      obtain ⟨rfl, hm⟩ := h
      exact .inl ⟨_, m₁, m₂, rfl, rfl, hm⟩
  | error e m₁ =>
    cases y with
    | ok b m₂ => exact h.elim
    | error f m₂ =>
      obtain ⟨rfl, hm⟩ := h
      exact .inr ⟨_, m₁, m₂, rfl, rfl, hm⟩

structure AtTurn (i : Nat) (m : Machine τ) : Prop extends Awake m where
  progress : m.globals.getD progressGlobal 0 = UInt32.ofNat i

/-- The second half of a call that suspended: the driver finishes the work, and the call returns its value when
the guest comes to it again. `direct` is what the direct call comes to. -/
def Resumes (ρ : τ → η → Prop) (call : Exec (Hosted κ η) (List Value))
    (direct : EStateM.Result Failure (Machine τ) (List Value))
    (finished : EStateM.Result Failure (Machine (Hosted κ η)) UInt32) : Prop :=
  match direct, finished with
  | .ok vs m₁, .ok w m₂ =>
    m₂.core = m₁.core ∧ m₂.outer.bridge.bound = true ∧
      ∀ b : Bridge κ, b.phase = .rewinding w → b.bound = true →
        ∃ m₃, call ((m₁.core.setGlobal stateGlobal 2).within ⟨b, m₂.outer.host⟩) = .ok vs m₃ ∧ Stands ρ m₁ m₃
  | .error e m₁, .error f m₂ => f = e ∧ Matches ρ m₁ m₂
  | _, _ => False

theorem Resumes.cases {ρ : τ → η → Prop} {call : Exec (Hosted κ η) (List Value)}
    {direct : EStateM.Result Failure (Machine τ) (List Value)}
    {finished : EStateM.Result Failure (Machine (Hosted κ η)) UInt32} (h : Resumes ρ call direct finished) :
    (∃ e m₁ m₂, direct = .error e m₁ ∧ finished = .error e m₂ ∧ Matches ρ m₁ m₂) ∨
      ∃ vs m₁ w m₂, direct = .ok vs m₁ ∧ finished = .ok w m₂ ∧ m₂.core = m₁.core ∧ m₂.outer.bridge.bound = true ∧
        ∀ b : Bridge κ, b.phase = .rewinding w → b.bound = true →
          ∃ m₃, call ((m₁.core.setGlobal stateGlobal 2).within ⟨b, m₂.outer.host⟩) = .ok vs m₃ ∧ Stands ρ m₁ m₃ := by
  cases direct with
  | ok vs m₁ =>
    cases finished with
    | ok w m₂ => exact .inr ⟨vs, m₁, w, m₂, rfl, rfl, h⟩
    | error f m₂ => exact h.elim
  | error e m₁ =>
    cases finished with
    | ok w m₂ => exact h.elim
    | error f m₂ =>
      obtain ⟨rfl, hm⟩ := h
      exact .inl ⟨_, m₁, m₂, rfl, rfl, hm⟩

/-- The host does the same for a call whether it answers at once or suspends. -/
structure Indifferent (ρ : τ → η → Prop) (pauses : Pauses τ) (call₁ : ImportName → List Value → Exec τ (List Value))
    (call₂ : ImportName → List Value → Exec (Hosted κ η) (List Value)) (complete : κ → Exec (Hosted κ η) UInt32) :
    Prop where
  /-- Calls leave the guest's globals alone. -/
  globals : ∀ target args m vs m', call₁ target args m = .ok vs m' → m'.globals = m.globals
  /-- A call answers as the direct one does, or stores work and starts an unwind. -/
  serves : ∀ target args m₁ m₂, Stands ρ m₁ m₂ → Awake m₁ →
    Agrees ρ (Stands ρ) (call₁ target args m₁) (call₂ target args m₂) ∨
      ∃ (c : Core) (b : Bridge κ) (h : η) (work : κ), pauses target args m₁ c ∧ c.globals = m₁.globals ∧
        b.phase = .unwinding work ∧ b.bound = true ∧
        call₂ target args m₂ = .ok placeholder ((c.setGlobal stateGlobal unwindingWord).within ⟨b, h⟩) ∧
        ∀ b' : Bridge κ, b'.phase = .normal → b'.bound = true →
          Resumes ρ (call₂ target args) (call₁ target args m₁) (complete work (c.within ⟨b', h⟩))

/-! ## The parts of a pass -/

/-- What the entry point does after a statement. -/
def goOn (s : Setting τ) (i : Nat) (rest : List Stmt) : Flow × List UInt32 → Exec τ Unit
  | (.leave, _) => return
  | (.next, locals) => do
    if s.obeysUnwind && (← Exec.global stateGlobal) == unwindingWord then return
    else
      Exec.setGlobal progressGlobal (UInt32.ofNat (i + 1))
      Guest.runStatements s (i + 1) rest locals

/-- A guest that does not unwind goes on to the next statement. -/
theorem goOn_next {s : Setting τ} {x : Exec τ (Flow × List UInt32)} {m n : Machine τ} {locals : List UInt32}
    (hx : x m = .ok (.next, locals) n) (hstate : n.globals.getD stateGlobal 0 = 0) (i : Nat) (rest : List Stmt) :
    (x >>= goOn s i rest) m =
      Guest.runStatements s (i + 1) rest locals (n.setGlobal progressGlobal (UInt32.ofNat (i + 1))) := by
  have hglobal : Exec.global stateGlobal n = .ok 0 n := by rw [← hstate]; rfl
  have hzero : ((0 : UInt32) == unwindingWord) = false := rfl
  rw [bind_apply, hx]
  simp only [goOn, bind_apply, hglobal, hzero, Bool.and_false]
  rfl

theorem runStatements_turn (s : Setting τ) {i : Nat} {m : Machine τ}
    (h : m.globals.getD progressGlobal 0 = UInt32.ofNat i) (stmt : Stmt) (rest : List Stmt) (locals : List UInt32) :
    Guest.runStatements s i (stmt :: rest) locals m = (stmt.exec s [] locals >>= goOn s i rest) m := by
  have hturn : Exec.global progressGlobal m = .ok (UInt32.ofNat i) m := by rw [← h]; rfl
  simp only [Guest.runStatements, bind_apply, hturn, if_true]
  congr

theorem runStatements_skip (s : Setting τ) {i : Nat} {m : Machine τ}
    (h : m.globals.getD progressGlobal 0 ≠ UInt32.ofNat i) (stmt : Stmt) (rest : List Stmt) (locals : List UInt32) :
    Guest.runStatements s i (stmt :: rest) locals m = Guest.runStatements s (i + 1) rest locals m := by
  have hturn : Exec.global progressGlobal m = .ok (m.globals.getD progressGlobal 0) m := rfl
  simp only [Guest.runStatements, bind_apply, hturn, if_neg h]

/-- A guest that is entered again passes over the statements that it has run. -/
theorem runStatements_append (s : Setting τ) (rest : List Stmt) (locals : List UInt32) {m : Machine τ} {n : Nat}
    (hprogress : m.globals.getD progressGlobal 0 = UInt32.ofNat n) (hn : n < UInt32.size) :
    ∀ (i : Nat) (done : List Stmt), i + done.length = n →
      Guest.runStatements s i (done ++ rest) locals m = Guest.runStatements s n rest locals m
  | i, [], h => by rw [← h]; rfl
  | i, stmt :: done, h => by
    rw [List.length_cons] at h
    have hne : m.globals.getD progressGlobal 0 ≠ UInt32.ofNat i := by
      rw [hprogress]
      intro heq
      have := congrArg UInt32.toNat heq
      rw [UInt32.toNat_ofNat_of_lt' hn, UInt32.toNat_ofNat_of_lt' (by omega)] at this
      omega
    rw [List.cons_append, runStatements_skip s hne]
    exact runStatements_append s rest locals hprogress hn (i + 1) done (by omega)

variable {g : Guest} {limits : Limits}
  {call : ImportName → List Value → Exec (Hosted κ η) (List Value)} {entry : Exec (Hosted κ η) Unit}
  {complete : κ → Exec (Hosted κ η) UInt32}

/-- The rest of a pass, and all that come after it. -/
def tail (controls : Controls (Hosted κ η)) (entry : Exec (Hosted κ η) Unit) (complete : κ → Exec (Hosted κ η) UInt32)
    (fuel : Nat) (pass : Exec (Hosted κ η) Unit) : Exec (Hosted κ η) Unit := do
  pass
  Bridge.log .left
  Bridge.drive controls entry complete fuel

/-- A pass after which the guest does not unwind is the last one. -/
theorem drive_normal (hg : g.controls = {}) {m : Machine (Hosted κ η)} (h : m.globals.getD stateGlobal 0 = 0)
    (fuel : Nat) :
    Bridge.drive (g.controlsWith limits call) entry complete fuel m = .ok () m := by
  have hstate : (g.controlsWith limits call).state m = .ok .normal m := by rw [Guest.state_usual hg, h]; rfl
  unfold Bridge.drive
  rw [bind_apply, hstate]
  rfl

variable (limits call entry complete) in
/-- A turn of the driver takes the work out of the bridge and finishes it. -/
theorem drive_unwinding (hg : g.controls = {}) {m : Machine (Hosted κ η)} {work : κ}
    (hstate : m.globals.getD stateGlobal 0 = unwindingWord)
    (hphase : m.outer.bridge.phase = .unwinding work) (fuel : Nat) :
    ∃ b : Bridge κ, b.phase = .normal ∧ b.bound = m.outer.bridge.bound ∧
      ∀ r, complete work ((m.core.setGlobal stateGlobal 0).within ⟨b, m.outer.host⟩) = r →
        Bridge.drive (g.controlsWith limits call) entry complete (fuel + 1) m = match r with
          | .error e m' => .error e m'
          | .ok w m' =>
            (do
              (g.controlsWith limits call).expectNormal
              (g.controlsWith limits call).startRewind unwindDataStart
              Bridge.log .entered
              tail (g.controlsWith limits call) entry complete fuel entry : Exec (Hosted κ η) Unit)
                ((m'.onBridge (·.logged (.completed w))).onBridge (·.inPhase (.rewinding w))) := by
  refine ⟨(m.outer.bridge.inPhase .normal).logged (.awaited work), rfl, rfl, ?_⟩
  intro r hr
  have hguest : (g.controlsWith limits call).state m = .ok .unwinding m := by rw [Guest.state_usual hg, hstate]; rfl
  have hwork : complete work
      (((m.setGlobal stateGlobal 0).onBridge (·.inPhase .normal)).onBridge (·.logged (.awaited work))) = r := hr
  rw [Bridge.drive.eq_def]
  simp only [bind_apply, hguest, Guest.stopUnwind_usual hg, Bridge.takePhase_apply, Machine.outer_setGlobal, hphase,
    Bridge.log_apply, hwork]
  cases r with
  | ok w m' => simp only [bind_apply, Bridge.log_apply, Bridge.setPhase_apply, tail]
  | error e m' => rfl

variable (limits call entry complete) in
/-- Work that was finished brings the guest to be entered again, in order to rewind. -/
theorem enter_again (hg : g.controls = {}) {m : Machine (Hosted κ η)} (hstate : m.globals.getD stateGlobal 0 = 0)
    (w : UInt32) (fuel : Nat) :
    ∃ b : Bridge κ, b.phase = .rewinding w ∧ b.bound = m.outer.bridge.bound ∧
      (do
        (g.controlsWith limits call).expectNormal
        (g.controlsWith limits call).startRewind unwindDataStart
        Bridge.log .entered
        tail (g.controlsWith limits call) entry complete fuel entry : Exec (Hosted κ η) Unit)
          ((m.onBridge (·.logged (.completed w))).onBridge (·.inPhase (.rewinding w))) =
        tail (g.controlsWith limits call) entry complete fuel entry
          ((m.core.setGlobal stateGlobal 2).within ⟨b, m.outer.host⟩) := by
  refine ⟨((m.outer.bridge.logged (.completed w)).inPhase (.rewinding w)).logged .entered, rfl, rfl, ?_⟩
  have hword : GuestState.ofWord (((m.onBridge (·.logged (.completed w))).onBridge
      (·.inPhase (.rewinding w))).globals.getD stateGlobal 0) = .ok .normal := by
    simp only [Machine.globals_onBridge, hstate]
    rfl
  simp only [bind_apply, Guest.expectNormal_usual hg _ _ _ _ hword, Guest.startRewind_usual hg, Bridge.log_apply]
  rfl

theorem tail_error {fuel : Nat} {pass : Exec (Hosted κ η) Unit} {controls : Controls (Hosted κ η)} {e : Failure}
    {m n : Machine (Hosted κ η)} (h : pass m = .error e n) : tail controls entry complete fuel pass m = .error e n := by
  simp only [tail, bind_apply, h]

theorem tail_ok {fuel : Nat} {pass : Exec (Hosted κ η) Unit} {controls : Controls (Hosted κ η)}
    {m n : Machine (Hosted κ η)} (h : pass m = .ok () n) : tail controls entry complete fuel pass m =
      Bridge.drive controls entry complete fuel (n.onBridge (·.logged .left)) := by
  simp only [tail, bind_apply, h, Bridge.log_apply]

theorem tail_congr {fuel : Nat} {pass pass' : Exec (Hosted κ η) Unit} {controls : Controls (Hosted κ η)}
    {m m' : Machine (Hosted κ η)} (h : pass m = pass' m') :
    tail controls entry complete fuel pass m = tail controls entry complete fuel pass' m' := by
  simp only [tail, bind_apply, h]

/-! ## Both runs -/

variable {ρ : τ → η → Prop}

theorem Stands.logged {m₁ : Machine τ} {m₂ : Machine (Hosted κ η)} (h : Stands ρ m₁ m₂) (e : Milestone κ) :
    Stands ρ m₁ (m₂.onBridge (·.logged e)) := ⟨⟨h.core, h.host⟩, h.phase, h.bound⟩

theorem Stands.within {m₁ : Machine τ} {m₂ : Machine (Hosted κ η)} (h : Stands ρ m₁ m₂) (c : Core) :
    Stands ρ (c.within m₁.outer) (c.within m₂.outer) := ⟨⟨rfl, h.host⟩, h.phase, h.bound⟩

theorem Stands.setGlobal {m₁ : Machine τ} {m₂ : Machine (Hosted κ η)} (h : Stands ρ m₁ m₂) (k : Nat) (w : UInt32) :
    Stands ρ (m₁.setGlobal k w) (m₂.setGlobal k w) :=
  ⟨⟨by rw [Machine.core_setGlobal, Machine.core_setGlobal, h.core], h.host⟩, h.phase, h.bound⟩

theorem Stands.globals {m₁ : Machine τ} {m₂ : Machine (Hosted κ η)} (h : Stands ρ m₁ m₂) : m₂.globals = m₁.globals :=
  congrArg Machine.globals h.core

abbrev Over (ρ : τ → η → Prop) (m₁ : Machine τ) (m₂ : Machine (Hosted κ η)) : Prop :=
  Stands ρ m₁ m₂ ∧ m₁.globals.getD stateGlobal 0 = 0

/-- A statement came to the same on both sides. If it was the call that failed, the bridge may be left as it is. -/
def Alike (ρ : τ → η → Prop) (i : Nat) (x₁ : EStateM.Result Failure (Machine τ) (Flow × List UInt32))
    (x₂ : EStateM.Result Failure (Machine (Hosted κ η)) (Flow × List UInt32)) : Prop :=
  (∃ r₁ r₂ n₁ n₂, x₁ = yields r₁ n₁ ∧ x₂ = yields r₂ n₂ ∧ r₁.map Prod.fst = r₂.map Prod.fst ∧ Stands ρ n₁ n₂ ∧
    AtTurn i n₁) ∨
  ∃ e n₁ n₂, x₁ = .error e n₁ ∧ x₂ = .error e n₂ ∧ Matches ρ n₁ n₂

/-- After a statement that came to the same on both sides, the runs agree if they do from the next one on. -/
theorem agrees_after (hg : g.controls = {}) {s₁ : Setting τ} {s₂ : Setting (Hosted κ η)} {i fuel : Nat}
    {rest : List Stmt} {x₁ : Exec τ (Flow × List UInt32)} {x₂ : Exec (Hosted κ η) (Flow × List UInt32)} {m₁ : Machine τ}
    {m₂ : Machine (Hosted κ η)} (h : Alike ρ i (x₁ m₁) (x₂ m₂))
    (hnext : ∀ l₁ l₂ n₁ n₂, x₁ m₁ = .ok (.next, l₁) n₁ → x₂ m₂ = .ok (.next, l₂) n₂ → Stands ρ n₁ n₂ → AtTurn i n₁ →
      Agrees ρ (Over ρ) (Guest.runStatements s₁ (i + 1) rest l₁ (n₁.setGlobal progressGlobal (UInt32.ofNat (i + 1))))
        (tail (g.controlsWith limits call) entry complete fuel (Guest.runStatements s₂ (i + 1) rest l₂)
          (n₂.setGlobal progressGlobal (UInt32.ofNat (i + 1))))) :
    Agrees ρ (Over ρ) ((x₁ >>= goOn s₁ i rest) m₁)
      (tail (g.controlsWith limits call) entry complete fuel (x₂ >>= goOn s₂ i rest) m₂) := by
  rcases h with ⟨r₁, r₂, n₁, n₂, hx₁, hx₂, hr, hstands, hturn⟩ | ⟨e, n₁, n₂, hx₁, hx₂, hmatches⟩
  · have hstate₂ : n₂.globals.getD stateGlobal 0 = 0 := hstands.globals ▸ hturn.state
    cases r₁ with
    | error e =>
      cases r₂ with
      | ok a => cases hr
      | error f =>
        cases hr
        rw [bind_apply, hx₁, tail_error (e := e) (n := n₂) (by rw [bind_apply, hx₂]; rfl)]
        exact ⟨rfl, hstands.toMatches⟩
    | ok a₁ =>
      cases r₂ with
      | error f => cases hr
      | ok a₂ =>
        obtain ⟨flow, l₁⟩ := a₁
        obtain ⟨flow₂, l₂⟩ := a₂
        cases hr
        cases flow with
        | leave =>
          rw [bind_apply, hx₁, tail_ok (n := n₂) (by rw [bind_apply, hx₂]; rfl), drive_normal hg (by exact hstate₂)]
          exact ⟨rfl, hstands.logged _, hturn.state⟩
        | next =>
          rw [goOn_next hx₁ hturn.state, tail_congr (goOn_next hx₂ hstate₂ i rest)]
          exact hnext l₁ l₂ n₁ n₂ hx₁ hx₂ hstands hturn
  · rw [bind_apply, hx₁, tail_error (e := e) (n := n₂) (by rw [bind_apply, hx₂])]
    exact ⟨rfl, hmatches⟩

variable {pauses : Pauses τ} {s : Setting τ} {call₂ : ImportName → List Value → Exec (Hosted κ η) (List Value)}
  {earlier : List Nat} {stmt : Stmt} {i : Nat} {m₁ : Machine τ} {m₂ : Machine (Hosted κ η)}
  {locals₁ locals₂ : List UInt32}

theorem probe_serving (locals : List UInt32) (script : Script) (c : Core) :
    stmt.probe (s.serving call₂) locals script c = stmt.probe s locals script c := rfl

theorem AtTurn.within {c : Core} {o : τ} (h : AtTurn i m₁) (hroom : c.globals.length = m₁.globals.length)
    (hglobals : ∀ k ∈ [stateGlobal, progressGlobal], c.globals.getD k 0 = m₁.globals.getD k 0) :
    AtTurn i (c.within o) := by
  refine ⟨⟨hroom.trans h.room, ?_⟩, ?_⟩
  · exact (hglobals stateGlobal (by simp)).trans h.state
  · exact (hglobals progressGlobal (by simp)).trans h.progress

/-- Past a call that answered the same on both sides, a statement comes to the same. -/
theorem alike_past (hstmt : stmt.Replays s pauses earlier m₁) (hturn : AtTurn i m₁)
    (hlocals₁ : SameBut earlier freshLocals locals₁) {target : ImportName} {args : List Value}
    (htalk : stmt.probe s freshLocals .idle m₁.core = .asks target args m₁.core) {vs : List Value} {n₁ : Machine τ}
    {n₂ : Machine (Hosted κ η)} (hcall₁ : s.call target args m₁ = .ok vs n₁) (hcall₂ : call₂ target args m₂ = .ok vs n₂)
    (hstands : Stands ρ n₁ n₂) (hasks₂ : stmt.probe s locals₂ .idle m₂.core = .asks target args m₂.core)
    (hpast₂ : stmt.probe s locals₂ (.armed vs n₁.core) m₂.core = stmt.probe s freshLocals (.armed vs n₁.core) m₁.core) :
    Alike ρ i (stmt.exec s [] locals₁ m₁) (stmt.exec (s.serving call₂) [] locals₂ m₂) := by
  obtain ⟨r, c, hpast, hroom, hglobals⟩ := hstmt.once target args _ htalk vs n₁ hcall₁
  obtain ⟨r₁, hr₁, hx₁⟩ := Stmt.exec_of_asks_ok (s := s) ((hstmt.locals locals₁ hlocals₁ _).trans htalk) hcall₁
    ((hstmt.locals locals₁ hlocals₁ _).trans hpast)
  obtain ⟨r₂, hr₂, hx₂⟩ := Stmt.exec_of_asks_ok (s := s.serving call₂) hasks₂ hcall₂
    (by rw [probe_serving, hstands.core]; exact hpast₂.trans hpast)
  exact .inl ⟨r₁, r₂, _, _, hx₁, hx₂, hr₁.trans hr₂.symm, hstands.within c, hturn.within hroom hglobals⟩

/-- The second machine has stored work for the call that the statement makes. -/
structure Suspended (ρ : τ → η → Prop) (complete : κ → Exec (Hosted κ η) UInt32)
    (call : ImportName → List Value → Exec (Hosted κ η) (List Value)) (s : Setting τ) (stmt : Stmt) (m₁ : Machine τ)
    (n₂ : Machine (Hosted κ η)) (work : κ) (target : ImportName) (args : List Value) : Prop where
  asks : stmt.probe s freshLocals .idle m₁.core = .asks target args m₁.core
  state : n₂.globals.getD stateGlobal 0 = unwindingWord
  phase : n₂.outer.bridge.phase = .unwinding work
  bound : n₂.outer.bridge.bound = true
  resumes : ∀ b : Bridge κ, b.phase = .normal → b.bound = true → Resumes ρ (call target args) (s.call target args m₁)
    (complete work ((n₂.core.setGlobal stateGlobal 0).within ⟨b, n₂.outer.host⟩))

theorem Suspended.left {n₂ : Machine (Hosted κ η)} {work : κ} {target : ImportName} {args : List Value}
    (h : Suspended ρ complete call₂ s stmt m₁ n₂ work target args) :
    Suspended ρ complete call₂ s stmt m₁ (n₂.onBridge (·.logged .left)) work target args :=
  ⟨h.asks, h.state, h.phase, h.bound, h.resumes⟩

/-- The driver finishes the work and enters the guest again, and the call is ready to return its value there;
or both the work and the direct call fail. -/
theorem drive_suspended (hg : g.controls = {})
    (hglobals : ∀ target args m vs m', s.call target args m = .ok vs m' → m'.globals = m.globals)
    (hstate : m₁.globals.getD stateGlobal 0 = 0) {n₂ : Machine (Hosted κ η)} {work : κ} {target : ImportName}
    {args : List Value} (h : Suspended ρ complete call₂ s stmt m₁ n₂ work target args) (fuel : Nat) :
    (∃ e n₁ n, s.call target args m₁ = .error e n₁ ∧
      Bridge.drive (g.controlsWith limits call) entry complete (fuel + 1) n₂ = .error e n ∧ Matches ρ n₁ n) ∨
    ∃ vs n₁ o n, s.call target args m₁ = .ok vs n₁ ∧ n₁.globals = m₁.globals ∧
      Bridge.drive (g.controlsWith limits call) entry complete (fuel + 1) n₂ =
        tail (g.controlsWith limits call) entry complete fuel entry ((n₁.core.setGlobal stateGlobal 2).within o) ∧
      call₂ target args ((n₁.core.setGlobal stateGlobal 2).within o) = .ok vs n ∧ Stands ρ n₁ n := by
  obtain ⟨b, hphase, hbound, hdrive⟩ := drive_unwinding limits call entry complete hg h.state h.phase fuel
  rcases (h.resumes b hphase (hbound.trans h.bound)).cases with
    ⟨e, n₁, n, hcall₁, hwork, hmatches⟩ | ⟨vs, n₁, w, n₃, hcall₁, hwork, hcore, hbound₃, hreturns⟩
  · exact .inl ⟨e, n₁, n, hcall₁, hdrive _ hwork, hmatches⟩
  · have hsame := hglobals target args m₁ vs n₁ hcall₁
    have hstate₃ : n₃.globals.getD stateGlobal 0 = 0 := by
      rw [← Machine.globals_core n₃, hcore, Machine.globals_core, hsame, hstate]
    obtain ⟨b', hphase', hbound', henter⟩ := enter_again limits call entry complete hg hstate₃ w fuel
    obtain ⟨n, hcall₂, hstands⟩ := hreturns b' hphase' (hbound'.trans hbound₃)
    rw [hcore] at henter
    exact .inr ⟨vs, n₁, _, n, hcall₁, hsame, (hdrive _ hwork).trans henter, hcall₂, hstands⟩

/-- From machines that stand alike, a statement comes to the same on both sides, or is suspended on the
second. -/
theorem alike_or_suspended (hhost : Indifferent ρ pauses s.call call₂ complete)
    (hstmt : stmt.Replays s pauses earlier m₁) (hstands : Stands ρ m₁ m₂) (hturn : AtTurn i m₁)
    (hlocals₁ : SameBut earlier freshLocals locals₁) (hlocals₂ : SameBut earlier freshLocals locals₂) :
    Alike ρ i (stmt.exec s [] locals₁ m₁) (stmt.exec (s.serving call₂) [] locals₂ m₂) ∨
      ∃ r n₂ work target args, stmt.exec (s.serving call₂) [] locals₂ m₂ = .ok r n₂ ∧
        Suspended ρ complete call₂ s stmt m₁ n₂ work target args := by
  have hprobe₂ (script : Script) :
      stmt.probe s locals₂ script m₂.core = stmt.probe s freshLocals script m₁.core := by
    rw [hstands.core]
    exact hstmt.locals locals₂ hlocals₂ script
  cases htalk : stmt.probe s freshLocals .idle m₁.core with
  | ended r c =>
    obtain ⟨r₁, hr₁, hx₁⟩ := Stmt.exec_of_ended (s := s) ((hstmt.locals locals₁ hlocals₁ _).trans htalk)
    obtain ⟨r₂, hr₂, hx₂⟩ := Stmt.exec_of_ended (s := s.serving call₂) ((hprobe₂ .idle).trans htalk)
    obtain ⟨hroom, hglobals⟩ := hstmt.ended r c htalk
    exact .inl (.inl ⟨r₁, r₂, _, _, hx₁, hx₂, hr₁.trans hr₂.symm, hstands.within c, hturn.within hroom hglobals⟩)
  | asks target args c =>
    obtain rfl := hstmt.before target args c htalk
    have hasks₁ : stmt.probe s locals₁ .idle m₁.core = .asks target args m₁.core :=
      (hstmt.locals locals₁ hlocals₁ .idle).trans htalk
    have hasks₂ : stmt.probe s locals₂ .idle m₂.core = .asks target args m₂.core := by
      rw [hprobe₂, htalk, hstands.core]
    rcases hhost.serves target args m₁ m₂ hstands hturn.toAwake with
      hanswer | ⟨c, b, h, work, hpause, hglobals, hphase, hbound, hcall₂, hresumes⟩
    · left
      rcases hanswer.cases with ⟨vs, n₁, n₂, hcall₁, hcall₂, hstands'⟩ | ⟨e, n₁, n₂, hcall₁, hcall₂, hmatches⟩
      · exact alike_past hstmt hturn hlocals₁ htalk hcall₁ hcall₂ hstands' hasks₂ (hprobe₂ _)
      · exact .inr ⟨e, n₁, n₂, Stmt.exec_of_asks_error hasks₁ hcall₁,
          Stmt.exec_of_asks_error (s := s.serving call₂) hasks₂ hcall₂, hmatches⟩
    · right
      have hroom : stateGlobal < c.globals.length := by rw [hglobals, hturn.room]; decide
      obtain ⟨flow, hflow⟩ := hstmt.obeys target args _ htalk c hpause
      obtain ⟨r₂, hr₂, hx₂⟩ := Stmt.exec_of_asks_ok (s := s.serving call₂) hasks₂ hcall₂ ((hprobe₂ _).trans hflow)
      cases r₂ with
      | error e => cases hr₂
      | ok a =>
        refine ⟨a, _, work, target, args, hx₂, htalk, ?_, hphase, hbound, ?_⟩
        · exact Core.getD_setGlobal hroom
        · intro b' hphase' hbound'
          have hback : (c.setGlobal stateGlobal unwindingWord).setGlobal stateGlobal 0 = c := by
            rw [Core.setGlobal_twice]
            exact Core.setGlobal_same (by rw [hglobals]; exact hturn.state)
          simpa only [Machine.core_within, Machine.outer_within, hback] using hresumes b' hphase' hbound'

/-- A statement that is run again, in order to take the value of its call, comes to the same. -/
theorem alike_again (hstmt : stmt.Replays s pauses earlier m₁) (hturn : AtTurn i m₁)
    (hlocals₁ : SameBut earlier freshLocals locals₁) {target : ImportName} {args : List Value}
    (htalk : stmt.probe s freshLocals .idle m₁.core = .asks target args m₁.core) {vs : List Value} {n₁ : Machine τ}
    {n₂ : Machine (Hosted κ η)} {o : Hosted κ η} (hcall₁ : s.call target args m₁ = .ok vs n₁)
    (hcall₂ : call₂ target args ((n₁.core.setGlobal stateGlobal 2).within o) = .ok vs n₂) (hstands : Stands ρ n₁ n₂) :
    Alike ρ i (stmt.exec s [] locals₁ m₁)
      (stmt.exec (s.serving call₂) [] freshLocals ((n₁.core.setGlobal stateGlobal 2).within o)) := by
  obtain ⟨hasks, hpast⟩ := hstmt.again target args _ htalk vs n₁ hcall₁ 2
  exact alike_past hstmt hturn hlocals₁ htalk hcall₁ hcall₂ hstands hasks hpast

/-- A pass that ends with a suspension: the guest returns at once, and leaves all to the driver. -/
theorem goOn_unwinding {s : Setting τ} (hobeys : s.obeysUnwind = true) {x : Exec τ (Flow × List UInt32)}
    {m n : Machine τ} {r : Flow × List UInt32} (hx : x m = .ok r n)
    (hstate : n.globals.getD stateGlobal 0 = unwindingWord) (i : Nat) (rest : List Stmt) :
    (x >>= goOn s i rest) m = .ok () n := by
  obtain ⟨flow, locals⟩ := r
  rw [bind_apply, hx]
  cases flow with
  | leave => rfl
  | next =>
    have hglobal : Exec.global stateGlobal n = .ok unwindingWord n := by rw [← hstate]; rfl
    simp only [goOn, bind_apply, hglobal, hobeys, beq_self_eq_true, Bool.and_self, if_true]
    rfl

/-- The locals at the end of a statement are those at its start, but for those that it assigns to. -/
theorem sameBut_of_exec {locals locals' : List UInt32} {flow : Flow} {m n : Machine τ} {s : Setting τ}
    (h : stmt.exec s [] locals m = .ok (flow, locals') n) : SameBut stmt.localsSet locals locals' :=
  (Stmt.spares_exec s [] stmt locals).ok trivial h

theorem AtTurn.after {n : Machine τ} (h : AtTurn i n) :
    AtTurn (i + 1) (n.setGlobal progressGlobal (UInt32.ofNat (i + 1))) :=
  ⟨h.toAwake.setGlobal (by decide) _, by simp [List.getD_eq_getElem?_getD, progressGlobal, h.room]⟩

/-- A guest that is entered again passes over what it has run, and comes to the statement that was suspended. -/
theorem tail_again {controls : Controls (Hosted κ η)} {s : Setting (Hosted κ η)} {body done rest : List Stmt}
    (hbody : body = done ++ stmt :: rest) (hdone : done.length < UInt32.size) {m : Machine (Hosted κ η)}
    (hprogress : m.globals.getD progressGlobal 0 = UInt32.ofNat done.length) (fuel : Nat) :
    tail controls entry complete fuel (Guest.runStatements s 0 body freshLocals) m =
      tail controls entry complete fuel (stmt.exec s [] freshLocals >>= goOn s done.length rest) m := by
  have hskip := runStatements_append s (stmt :: rest) freshLocals hprogress hdone 0 done (Nat.zero_add _)
  rw [← hbody] at hskip
  exact tail_congr (hskip.trans (runStatements_turn s hprogress stmt rest freshLocals))

variable (limits call) in
/-- From machines that stand alike before some statement, the rest of the bridged run comes to what the rest of
the direct run comes to. -/
theorem agrees_tail (hg : g.controls = {}) (hobeys : s.obeysUnwind = true)
    (hhost : Indifferent ρ pauses s.call call₂ complete) (hsize : g.body.length < UInt32.size) :
    ∀ (rest done : List Stmt), g.body = done ++ rest →
    ∀ (earlier : List Nat) (locals₁ locals₂ : List UInt32) (m₁ : Machine τ) (m₂ : Machine (Hosted κ η)) (fuel : Nat),
      Stands ρ m₁ m₂ → AtTurn done.length m₁ → SameBut earlier freshLocals locals₁ →
        SameBut earlier freshLocals locals₂ → Replayable s pauses earlier done.length rest locals₁ m₁ →
        rest.length ≤ fuel →
        Agrees ρ (Over ρ) (Guest.runStatements s done.length rest locals₁ m₁)
          (tail (g.controlsWith limits call) (Guest.runStatements (s.serving call₂) 0 g.body freshLocals) complete fuel
            (Guest.runStatements (s.serving call₂) done.length rest locals₂) m₂) := by
  intro rest
  induction rest with
  | nil =>
    intro done _ _ _ _ m₁ m₂ fuel hstands hturn _ _ _ _
    have hstate₂ : m₂.globals.getD stateGlobal 0 = 0 := hstands.globals ▸ hturn.state
    have hpass : Guest.runStatements (s.serving call₂) done.length [] ‹_› m₂ = .ok () m₂ := rfl
    rw [tail_ok hpass, drive_normal hg (by exact hstate₂)]
    exact ⟨rfl, hstands.logged _, hturn.state⟩
  | cons stmt rest ih =>
    intro done hbody earlier locals₁ locals₂ m₁ m₂ fuel hstands hturn hlocals₁ hlocals₂ ⟨hstmt, hlater⟩ hfuel
    rw [List.length_cons] at hfuel
    have hturn₂ : m₂.globals.getD progressGlobal 0 = UInt32.ofNat done.length := hstands.globals ▸ hturn.progress
    have hdone : done.length < UInt32.size := by
      rw [hbody, List.length_append] at hsize
      omega
    -- once the statement has come to the same on both sides, on whichever pass, the rest is the induction's
    have hafter {fuel : Nat} {locals : List UInt32} {n : Machine (Hosted κ η)} (hf : rest.length ≤ fuel)
        (hlocals : SameBut earlier freshLocals locals)
        (halike : Alike ρ done.length (stmt.exec s [] locals₁ m₁) (stmt.exec (s.serving call₂) [] locals n)) :
        Agrees ρ (Over ρ) ((stmt.exec s [] locals₁ >>= goOn s done.length rest) m₁)
          (tail (g.controlsWith limits call) (Guest.runStatements (s.serving call₂) 0 g.body freshLocals) complete fuel
            (stmt.exec (s.serving call₂) [] locals >>= goOn (s.serving call₂) done.length rest) n) := by
      refine agrees_after hg halike ?_
      intro l₁ l₂ n₁ n₂ hx₁ hx₂ hstands hturn
      have hbody' : g.body = (done ++ [stmt]) ++ rest := by rw [hbody, List.append_assoc]; rfl
      have hlength : (done ++ [stmt]).length = done.length + 1 := by rw [List.length_append]; rfl
      have := ih (done ++ [stmt]) hbody' (earlier ++ stmt.localsSet) l₁ l₂ _ _ fuel (hstands.setGlobal _ _)
        (hlength ▸ hturn.after) (hlocals₁.trans (sameBut_of_exec hx₁)) (hlocals.trans (sameBut_of_exec hx₂))
      rw [hlength] at this
      exact this (hlater l₁ n₁ hx₁) hf
    rw [runStatements_turn s hturn.progress, tail_congr (runStatements_turn (s.serving call₂) hturn₂ stmt rest locals₂)]
    rcases alike_or_suspended hhost hstmt hstands hturn hlocals₁ hlocals₂ with
      halike | ⟨r, n₂, work, target, args, hx₂, hsuspended⟩
    · exact hafter (by omega) hlocals₂ halike
    · obtain ⟨fuel, rfl⟩ : ∃ k, fuel = k + 1 := ⟨fuel - 1, by omega⟩
      rw [tail_ok (goOn_unwinding (s := s.serving call₂) hobeys hx₂ hsuspended.state done.length rest)]
      rcases drive_suspended hg hhost.globals hturn.state hsuspended.left fuel with
        ⟨e, n₁, n, hcall₁, hdrive, hmatches⟩ | ⟨vs, n₁, o, n, hcall₁, hglobals, hdrive, hcall₂, hstands'⟩
      · have hasks := (hstmt.locals locals₁ hlocals₁ .idle).trans hsuspended.asks
        rw [hdrive, bind_apply, Stmt.exec_of_asks_error hasks hcall₁]
        exact ⟨rfl, hmatches⟩
      · have hprogress :
            (n₁.core.setGlobal stateGlobal 2).globals.getD progressGlobal 0 = UInt32.ofNat done.length := by
          rw [← hturn.progress, ← hglobals]
          simp [List.getD_eq_getElem?_getD, progressGlobal, stateGlobal]
        rw [hdrive, tail_again (m := (n₁.core.setGlobal stateGlobal 2).within o) hbody hdone hprogress]
        exact hafter (by omega) (.refl _ _)
          (alike_again hstmt hturn hlocals₁ hsuspended.asks hcall₁ hcall₂ hstands')

variable (limits call) in
/-- A call of the entry point under the bridge comes to what the direct run of the statements comes to. -/
theorem agrees_callEntrypoint (hg : g.controls = {}) (hobeys : s.obeysUnwind = true)
    (hhost : Indifferent ρ pauses s.call call₂ complete) (hsize : g.body.length < UInt32.size)
    (hstands : Stands ρ m₁ m₂) (hturn : AtTurn 0 m₁) (hreplay : Replayable s pauses [] 0 g.body freshLocals m₁)
    {fuel : Nat} (hfuel : g.body.length ≤ fuel) :
    Agrees ρ (Over ρ) (Guest.runStatements s 0 g.body freshLocals m₁)
      (Bridge.callEntrypoint (g.controlsWith limits call) (Guest.runStatements (s.serving call₂) 0 g.body freshLocals)
        complete fuel m₂) := by
  have hnormal {n₁ : Machine τ} {n₂ : Machine (Hosted κ η)} (h : Over ρ n₁ n₂) :
      (g.controlsWith limits call).expectNormal n₂ = .ok () n₂ :=
    Guest.expectNormal_usual hg limits call n₂ .normal (by rw [h.1.globals, h.2]; rfl)
  have hstart : Bridge.callEntrypoint (g.controlsWith limits call)
      (Guest.runStatements (s.serving call₂) 0 g.body freshLocals) complete fuel m₂ =
      (do
        tail (g.controlsWith limits call) (Guest.runStatements (s.serving call₂) 0 g.body freshLocals) complete fuel
          (Guest.runStatements (s.serving call₂) 0 g.body freshLocals)
        Bridge.settle (g.controlsWith limits call) : Exec (Hosted κ η) Unit) (m₂.onBridge (·.logged .entered)) := by
    simp only [Bridge.callEntrypoint_eq, tail, bind_assoc]
    exact (bind_of_ok (by rw [Bridge.requireBound_apply, if_pos hstands.bound])).trans
      ((bind_of_ok (hnormal ⟨hstands, hturn.state⟩)).trans (bind_of_ok (Bridge.log_apply _ _)))
  have htail := agrees_tail limits call hg hobeys hhost hsize g.body [] rfl [] freshLocals
    freshLocals m₁ _ fuel (hstands.logged .entered) hturn (.refl _ _) (.refl _ _) hreplay hfuel
  simp only [List.length_nil] at htail
  rw [hstart]
  rcases htail.cases with ⟨a, n₁, n₂, hx₁, hx₂, hover⟩ | ⟨e, n₁, n₂, hx₁, hx₂, hmatches⟩
  · have hphase : Bridge.getPhase n₂ = .ok .normal n₂ := by rw [Bridge.getPhase_apply, hover.1.phase]
    rw [hx₁, bind_of_ok hx₂]
    simp only [Bridge.settle, bind_apply, hnormal hover, hphase]
    exact ⟨rfl, hover⟩
  · rw [hx₁, bind_of_error hx₂]
    exact ⟨rfl, hmatches⟩

end

end GuestHost
