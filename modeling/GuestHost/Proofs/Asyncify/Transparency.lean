/-
  GuestHost.Proofs.Asyncify.Transparency — a guest cannot tell which of its calls were suspended.

  Behind a host's imports stand operations in two halves (`Operations`): what is done at once, and what is done
  after the place where the operation may wait. The host does both halves in the import, or leaves the second
  to the driver, as it is told for each call (`Operations.host`); the effects are the same. A guest that can be
  replayed then runs to the same end whichever calls suspend: the same result, memory, globals and record, the
  same state of the host, and the same values returned in the same order.

  Proved:
  - `Operations.indifferent`: such a host does the same for a call in two halves as in one.
  - `suspensions_are_transparent`: all choices of the calls that suspend agree.
-/

import GuestHost.Proofs.Asyncify.Replay

namespace GuestHost

open Exec

/-! ## Operations in two halves -/

/-- What stands behind a host's imports: operations on the guest's memory and on the host, each in two halves. -/
structure Operations (κ η : Type) where
  offers : ImportName → Option FuncType
  /-- What an operation does up to the place where it may wait. -/
  start : ImportName → List Value → EStateM Failure (Memory × η) κ
  /-- What it does from there on, and its value. -/
  finish : κ → EStateM Failure (Memory × η) UInt32

structure Served (η : Type) where
  own : η
  /-- How many calls have been taken up. -/
  calls : Nat := 0
  /-- The values that calls have returned to the program, in order. -/
  returned : Array UInt32 := #[]

namespace Operations

variable {τ κ η α : Type}

/-- Does a part of an operation, where the served host is found in `o.1` and put back by `o.2`. -/
def act (get : τ → Served η) (put : Served η → τ → τ) (x : EStateM Failure (Memory × η) α) : Exec τ α := fun m =>
  match x (m.memory, (get m.outer).own) with
  | .ok a (memory, own) => .ok a { m with memory, outer := put { get m.outer with own } m.outer }
  | .error e (memory, own) => .error e { m with memory, outer := put { get m.outer with own } m.outer }

/-- A part of an operation behind a bridge. -/
def bridged (x : EStateM Failure (Memory × η) α) : Exec (Hosted κ (Served η)) α :=
  act Hosted.host (fun host o => { o with host }) x

/-- A part of an operation of a host that stands alone. -/
def alone (x : EStateM Failure (Memory × η) α) : Exec (Served η) α := act id (fun host _ => host) x

/-- Takes up a call: its number. -/
def takeUp : Exec (Hosted κ (Served η)) Nat := do
  let n := (← get).outer.host.calls
  modify fun m => { m with outer := { m.outer with host := { m.outer.host with calls := n + 1 } } }
  return n

def give (w : UInt32) : Exec (Hosted κ (Served η)) Unit :=
  modify fun m =>
    { m with outer := { m.outer with host := { m.outer.host with returned := m.outer.host.returned.push w } } }

/-- What an import does before the bridge decides: all of the operation, or its first half. -/
def handler (ops : Operations κ η) (suspends : Nat → Bool) (target : ImportName) (args : List Value) :
    Exec (Hosted κ (Served η)) (Reply κ) := do
  let n ← takeUp
  let work ← bridged (ops.start target args)
  if suspends n then return .suspend work
  else return .ready (← bridged (ops.finish work))

/-- The host that suspends the calls with the given numbers. -/
def host (ops : Operations κ η) (suspends : Nat → Bool) : Host κ (Served η) where
  offers := ops.offers
  answer controls target args := do
    let w ← Bridge.wrapImport controls (ops.handler suspends target args)
    match ← Bridge.getPhase with
    | .unwinding _ => return [.i32 w]
    | _ =>
      give w
      return [.i32 w]
  complete work := bridged (ops.finish work)

/-- What a call does without a bridge, where imports and controls may be so deep. -/
def direct (ops : Operations κ η) : Nat → ImportName → List Value → Exec (Served η) (List Value)
  | 0, _, _ => Exec.trap .stackExhausted
  | _ + 1, target, args => do
    modify fun m => { m with outer := { m.outer with calls := m.outer.calls + 1 } }
    let work ← alone (ops.start target args)
    let w ← alone (ops.finish work)
    modify fun m => { m with outer := { m.outer with returned := m.outer.returned.push w } }
    return [.i32 w]

/-- How an operation leaves the module where it may wait. -/
def pauses (ops : Operations κ η) : Pauses (Served η) := fun target args m c =>
  ∃ work own, ops.start target args (m.memory, m.outer.own) = .ok work (c.memory, own) ∧
    c = { m.core with memory := c.memory }

theorem alone_apply (x : EStateM Failure (Memory × η) α) (c : Core) (served : Served η) :
    alone x (c.within served) = match x (c.memory, served.own) with
      | .ok a (memory, own) => .ok a (Machine.within { c with memory } { served with own })
      | .error e (memory, own) => .error e (Machine.within { c with memory } { served with own }) := by
  simp only [alone, act, Machine.outer_within]
  rfl

theorem direct_apply (ops : Operations κ η) (depth : Nat) (target : ImportName) (args : List Value) (c : Core)
    (served : Served η) :
    ops.direct (depth + 1) target args (c.within served) =
      match ops.start target args (c.memory, served.own) with
      | .error e (memory, own) =>
        .error e (Machine.within { c with memory } { served with own, calls := served.calls + 1 })
      | .ok work (memory, own) =>
        match ops.finish work (memory, own) with
        | .error e (memory, own) =>
          .error e (Machine.within { c with memory } { served with own, calls := served.calls + 1 })
        | .ok w (memory, own) =>
          .ok [.i32 w] (Machine.within { c with memory }
            { own, calls := served.calls + 1, returned := served.returned.push w }) := by
  simp only [direct]
  have htake : (modify fun m => { m with outer := { m.outer with calls := m.outer.calls + 1 } } : Exec (Served η) Unit)
      (c.within served) = .ok () (c.within { served with calls := served.calls + 1 }) := rfl
  refine (bind_of_ok htake).trans ?_
  rw [bind_apply, alone_apply]
  cases ops.start target args (c.memory, served.own) with
  | error e p => rfl
  | ok work p =>
    obtain ⟨memory, own⟩ := p
    simp only [bind_apply, alone_apply]
    cases ops.finish work (memory, own) <;> rfl

theorem direct_globals (ops : Operations κ η) (depth : Nat) {target : ImportName} {args vs : List Value}
    {m m' : Machine (Served η)} (h : ops.direct depth target args m = .ok vs m') : m'.globals = m.globals := by
  cases depth with
  | zero => cases h
  | succ depth =>
    rw [← Machine.within_core m, direct_apply] at h
    split at h
    · cases h
    · split at h
      · cases h
      · cases h
        rfl

variable {g : Guest} {limits : Limits}

theorem answer_rewinding (ops : Operations κ η) (hg : g.controls = {}) (suspends : Nat → Bool) (limits : Limits)
    (call : ImportName → List Value → Exec (Hosted κ (Served η)) (List Value)) (target : ImportName) (args : List Value)
    {c : Core} {b : Bridge κ} (served : Served η) {w : UInt32} (hstate : c.globals.getD stateGlobal 0 = 0)
    (hroom : stateGlobal < c.globals.length) (hphase : b.phase = .rewinding w) (hbound : b.bound = true) :
    ∃ b' : Bridge κ, b'.phase = .normal ∧ b'.bound = true ∧
      (ops.host suspends).answer (g.controlsWith limits call) target args
        ((c.setGlobal stateGlobal 2).within ⟨b, served⟩) =
      .ok [.i32 w] (c.within ⟨b', { served with returned := served.returned.push w }⟩) := by
  obtain ⟨b', hphase', hbound', hwrap⟩ := Guest.wrapImport_rewound limits hg call (ops.handler suspends target args)
    served hstate hroom hphase hbound
  refine ⟨b', hphase', hbound', ?_⟩
  simp only [host, bind_of_ok hwrap, bind_of_ok (Bridge.getPhase_apply _), Machine.outer_within, hphase']
  rfl

theorem takeUp_apply (c : Core) (b : Bridge κ) (served : Served η) :
    takeUp (c.within ⟨b, served⟩) = .ok served.calls (c.within ⟨b, { served with calls := served.calls + 1 }⟩) := rfl

theorem bridged_apply (x : EStateM Failure (Memory × η) α) (c : Core) (b : Bridge κ) (served : Served η) :
    bridged x (c.within ⟨b, served⟩) = match x (c.memory, served.own) with
      | .ok a (memory, own) => .ok a (Machine.within { c with memory } ⟨b, { served with own }⟩)
      | .error e (memory, own) => .error e (Machine.within { c with memory } ⟨b, { served with own }⟩) := by
  simp only [bridged, act, Machine.outer_within]
  rfl

theorem handler_apply (ops : Operations κ η) (suspends : Nat → Bool) (target : ImportName) (args : List Value)
    (c : Core) (b : Bridge κ) (served : Served η) :
    ops.handler suspends target args (c.within ⟨b, served⟩) =
      match ops.start target args (c.memory, served.own) with
      | .error e (memory, own) =>
        .error e (Machine.within { c with memory } ⟨b, { served with own, calls := served.calls + 1 }⟩)
      | .ok work (memory, own) =>
        if suspends served.calls then
          .ok (.suspend work) (Machine.within { c with memory } ⟨b, { served with own, calls := served.calls + 1 }⟩)
        else
          match ops.finish work (memory, own) with
          | .error e (memory, own) =>
            .error e (Machine.within { c with memory } ⟨b, { served with own, calls := served.calls + 1 }⟩)
          | .ok w (memory, own) =>
            .ok (.ready w) (Machine.within { c with memory } ⟨b, { served with own, calls := served.calls + 1 }⟩) := by
  unfold handler
  rw [bind_of_ok (takeUp_apply c b served), bind_apply, bridged_apply]
  cases ops.start target args (c.memory, served.own) with
  | error e p => rfl
  | ok work p =>
    obtain ⟨memory, own⟩ := p
    cases hsuspends : suspends served.calls with
    | true => rfl
    | false =>
      simp only [Bool.false_eq_true, if_false, bind_apply, bridged_apply]
      cases ops.finish work (memory, own) <;> rfl

theorem answer_awake (ops : Operations κ η) (hg : g.controls = {}) (suspends : Nat → Bool) (limits : Limits)
    (call : ImportName → List Value → Exec (Hosted κ (Served η)) (List Value)) (target : ImportName) (args : List Value)
    {c : Core} {b : Bridge κ} (served : Served η) (hstate : c.globals.getD stateGlobal 0 = 0)
    (hphase : b.phase = .normal) (hbound : b.bound = true) :
    ∃ b₀ : Bridge κ, b₀.phase = .normal ∧ b₀.bound = true ∧
      (ops.host suspends).answer (g.controlsWith limits call) target args (c.within ⟨b, served⟩) =
        match ops.start target args (c.memory, served.own) with
        | .error e (memory, own) =>
          .error e (Machine.within { c with memory } ⟨b₀, { served with own, calls := served.calls + 1 }⟩)
        | .ok work (memory, own) =>
          if suspends served.calls then
            .ok placeholder ((Machine.setGlobal { c with memory } stateGlobal unwindingWord).within
              ⟨(b₀.inPhase (.unwinding work)).logged (.accepted work), { served with own, calls := served.calls + 1 }⟩)
          else
            match ops.finish work (memory, own) with
            | .error e (memory, own) =>
              .error e (Machine.within { c with memory } ⟨b₀, { served with own, calls := served.calls + 1 }⟩)
            | .ok w (memory, own) =>
              .ok [.i32 w] (Machine.within { c with memory }
                ⟨b₀, { own, calls := served.calls + 1, returned := served.returned.push w }⟩) := by
  obtain ⟨bound, phase, journal⟩ := b
  cases hphase
  cases hbound
  refine ⟨(Bridge.logged ⟨true, .normal, journal⟩ (.consulted .normal .normal)).logged .handled, rfl, rfl, ?_⟩
  simp only [host, bind_apply]
  rw [Guest.wrapImport_normal limits hg call _ (m := c.within ⟨⟨true, .normal, journal⟩, served⟩) rfl hstate,
    bind_apply]
  simp only [Machine.core_within, Machine.outer_within, handler_apply]
  cases ops.start target args (c.memory, served.own) with
  | error e p => rfl
  | ok work p =>
    obtain ⟨memory, own⟩ := p
    cases suspends served.calls with
    | true =>
      simp only [if_true]
      rw [Guest.answer_suspend limits hg call work rfl]
      rfl
    | false =>
      simp only [Bool.false_eq_true, if_false]
      cases ops.finish work (memory, own) <;> rfl

/-- A host of two halves serves as the direct calls do. -/
theorem indifferent (ops : Operations κ η) (hg : g.controls = {}) (suspends : Nat → Bool) :
    Indifferent Eq ops.pauses (ops.direct limits.depth) (g.callImport limits (ops.host suspends) limits.depth)
      (ops.host suspends).complete where
  globals _ _ _ _ _ h := ops.direct_globals _ h
  serves target args m₁ m₂ hstands hawake := by
    cases limits.depth with
    | zero => exact .inl ⟨rfl, hstands.toMatches⟩
    | succ depth =>
      obtain ⟨c, served, rfl⟩ : ∃ (c : Core) (served : Served η), m₁ = c.within served := ⟨m₁.core, m₁.outer, rfl⟩
      obtain ⟨b, rfl⟩ : ∃ b : Bridge κ, m₂ = c.within ⟨b, served⟩ := by
        refine ⟨m₂.outer.bridge, ?_⟩
        have hhost : served = m₂.outer.host := hstands.host
        rw [hhost]
        exact (Machine.within_core m₂).symm.trans (congrArg (Machine.within · m₂.outer) hstands.core)
      have hphase : b.phase = .normal := hstands.phase
      have hbound : b.bound = true := hstands.bound
      have hstate : c.globals.getD stateGlobal 0 = 0 := hawake.state
      obtain ⟨b₀, hphase₀, hbound₀, hanswer⟩ := ops.answer_awake hg suspends limits
        (g.callImport limits (ops.host suspends) depth) target args served hstate hphase hbound
      have hcall : g.callImport limits (ops.host suspends) (depth + 1) target args = (ops.host suspends).answer
        (g.controlsWith limits (g.callImport limits (ops.host suspends) depth)) target args := rfl
      rw [hcall, hanswer, direct_apply]
      cases hstart : ops.start target args (c.memory, served.own) with
      | error e p => exact .inl ⟨rfl, rfl, rfl⟩
      | ok work p =>
        obtain ⟨memory, own⟩ := p
        cases suspends served.calls with
        | false =>
          left
          simp only [Bool.false_eq_true, if_false]
          cases ops.finish work (memory, own) with
          | error e p => exact ⟨rfl, rfl, rfl⟩
          | ok w p => exact ⟨rfl, ⟨rfl, rfl⟩, hphase₀, hbound₀⟩
        | true =>
          right
          refine ⟨{ c with memory }, (b₀.inPhase (.unwinding work)).logged (.accepted work), _, work,
            ⟨work, own, hstart, rfl⟩, rfl, rfl, hbound₀, rfl, ?_⟩
          intro b' hphase' hbound'
          show Resumes _ _ _ (bridged (ops.finish work) _)
          rw [bridged_apply]
          dsimp only
          cases ops.finish work (memory, own) with
          | error e p => exact ⟨rfl, rfl, rfl⟩
          | ok w p =>
            refine ⟨rfl, hbound', ?_⟩
            intro b hphase hbound
            have hroom : stateGlobal < c.globals.length := by rw [show c.globals.length = 10 from hawake.room]; decide
            obtain ⟨b'', hphase'', hbound'', hagain⟩ := ops.answer_rewinding hg suspends limits
              (g.callImport limits (ops.host suspends) depth) target args (c := { c with memory := p.1 })
              { own := p.2, calls := served.calls + 1, returned := served.returned } hstate hroom hphase hbound
            exact ⟨_, hagain, ⟨rfl, rfl⟩, hphase'', hbound''⟩

/-- Binds the bridge and runs the guest, where the calls with the given numbers suspend. -/
def run (ops : Operations κ η) (suspends : Nat → Bool) (g : Guest) (limits : Limits) :
    Exec (Hosted κ (Served η)) Unit := do
  g.bindBridge
  g.runBridged limits (ops.host suspends)

end Operations

/-- The guest can be replayed from where its bridge has been bound. -/
structure Guest.CanReplay {κ η : Type} (g : Guest) (limits : Limits) (ops : Operations κ η) (m : Machine (Served η)) :
    Prop where
  instrumented : g.instrumented = true
  controls : g.controls = {}
  obeys : g.obeysUnwind = true
  /-- The guest numbers its statements by words. -/
  numbered : g.body.length < UInt32.size
  starts : AtTurn 0 m
  statements :
    Replayable (g.setting limits g.obeysUnwind (ops.direct limits.depth)) ops.pauses [] 0 g.body freshLocals m

/-- What a run ended in: the result, what it left of the guest, and the host; all but the bridge. -/
def ending {κ η : Type} : EStateM.Result Failure (Machine (Hosted κ η)) Unit → Except Failure Unit × Core × η
  | .ok _ m => (.ok (), m.core, m.outer.host)
  | .error e m => (.error e, m.core, m.outer.host)

/-- The same of a direct run. -/
def endingAlone {η : Type} : EStateM.Result Failure (Machine η) Unit → Except Failure Unit × Core × η
  | .ok _ m => (.ok (), m.core, m.outer)
  | .error e m => (.error e, m.core, m.outer)

section

variable {κ η : Type}

/-- A bridge that has been bound holds nothing, and the guest's globals are as they were. -/
theorem ends_bindBridge (g : Guest) (globals : List UInt32) :
    Ends (fun m => m.globals = globals) (g.bindBridge : Exec (Hosted κ η) Unit)
      (fun _ m => m.globals = globals ∧ m.outer.bridge.phase = .normal ∧ m.outer.bridge.bound = true)
      fun _ _ => True := by
  have hexport (x : String × FuncType) : Keeps (fun m : Machine (Hosted κ η) => m.globals = globals) (fun _ _ => True)
      (settle (g.requireExport x.1 x.2 (.bridge (.missingExport x.1)))) := by
    intro m hm
    cases g.requireExport x.1 x.2 (.bridge (.missingExport x.1)) with
    | ok _ => exact hm
    | error _ => trivial
  refine Ends.bind (Keeps.forM hexport _) fun _ => ?_
  split
  · intro m hm
    simp only [Bridge.bind, bind_apply, get_apply]
    split
    · exact ⟨hm, rfl, rfl⟩
    · trivial
  · exact fun _ _ => trivial

theorem stands_bindBridge {g : Guest} {m m' : Machine (Hosted κ η)} (h : g.bindBridge m = .ok () m') :
    Stands Eq (m'.core.within m'.outer.host) m' := by
  have hbound := (ends_bindBridge g m.globals).ok rfl h
  exact ⟨⟨rfl, rfl⟩, hbound.2.1, hbound.2.2⟩

/-- The end of a direct run is the end of the run under the bridge. -/
theorem ending_of_agrees {x : EStateM.Result Failure (Machine η) Unit}
    {y : EStateM.Result Failure (Machine (Hosted κ η)) Unit} (h : Agrees Eq (Over Eq) x y) :
    ending y = endingAlone x := by
  rcases h.cases with ⟨_, m, n, rfl, rfl, hover⟩ | ⟨e, m, n, rfl, rfl, hmatches⟩
  · exact Prod.ext rfl (Prod.ext hover.1.core hover.1.host.symm)
  · exact Prod.ext rfl (Prod.ext hmatches.core hmatches.host.symm)

/-- Whichever of its calls suspend, a guest that can be replayed comes to the same end: the same result, memory,
globals and record, the same host, and the same values returned to the program in the same order. As many turns of the
driver as the guest has statements are enough. -/
theorem suspensions_are_transparent (ops : Operations κ η) (g : Guest) (limits : Limits)
    (m : Machine (Hosted κ (Served η))) (hturns : g.body.length ≤ limits.turns)
    (hreplay : ∀ m', g.bindBridge m = .ok () m' → g.CanReplay limits ops (m'.core.within m'.outer.host))
    (suspends : Nat → Bool) :
    ending (ops.run suspends g limits m) = ending (ops.run (fun _ => false) g limits m) := by
  cases hbind : g.bindBridge m with
  | error e m' =>
    unfold Operations.run
    rw [bind_of_error hbind, bind_of_error hbind]
  | ok a m' =>
    have hg := hreplay m' hbind
    have hagrees (suspends : Nat → Bool) : Agrees Eq (Over Eq)
        (Guest.runStatements (g.setting limits g.obeysUnwind (ops.direct limits.depth)) 0 g.body freshLocals
          (m'.core.within m'.outer.host)) (ops.run suspends g limits m) := by
      unfold Operations.run
      rw [bind_of_ok hbind]
      have := agrees_callEntrypoint limits (g.callImport limits (ops.host suspends) limits.depth) hg.controls hg.obeys
        (ops.indifferent hg.controls suspends) hg.numbered (stands_bindBridge hbind) hg.starts hg.statements hturns
      unfold Guest.runBridged Guest.entryOf Guest.entryWith
      rwa [if_pos hg.instrumented]
    rw [ending_of_agrees (hagrees suspends), ending_of_agrees (hagrees fun _ => false)]

end

/-- Operations that write their argument into the guest's memory and to a list, and double it. -/
def scribe : Operations UInt32 (List UInt32) where
  offers target := if target.space = hostNamespace then some ⟨[.i32], [.i32]⟩ else none
  start _ args := match args with
    | [.i32 x] => return x
    | _ => throw .boom
  finish x := do
    modify fun (memory, written) => (memory.write 2048 (wordBytes x), written ++ [x])
    return 2 * x

/-- A guest that has two words written, and looks at the first. -/
def dictation : Guest :=
  { instrumented := true
    body := [.call ⟨hostNamespace, "write"⟩ [.lit 5], .note (.load (.lit 2048)),
      .call ⟨hostNamespace, "write"⟩ [.lit 7]] }

theorem suspending_a_dictation :
    ending (scribe.run (· == 0) dictation ⟨3, 1⟩ { memory := .zeroed pageSize, outer := { host := { own := [] } } }) =
      ending (scribe.run (fun _ => false) dictation ⟨3, 1⟩
        { memory := .zeroed pageSize, outer := { host := { own := [] } } }) ∧
    okWith (fun m => m.outer.host.own == [5, 7] && m.outer.host.returned == #[10, 14])
      (scribe.run (· == 0) dictation ⟨3, 1⟩ { memory := .zeroed pageSize, outer := { host := { own := [] } } }) := by
  refine ⟨suspensions_are_transparent scribe dictation ⟨3, 1⟩ _ (by decide) (fun m hm => ?_) _, by decide +kernel⟩
  have hglobals : m.globals = List.replicate 10 0 := ((ends_bindBridge dictation _).ok rfl hm).1
  have hawake : AtTurn 0 (m.core.within m.outer.host) :=
    ⟨⟨congrArg List.length hglobals, congrArg (List.getD · stateGlobal 0) hglobals⟩,
      congrArg (List.getD · progressGlobal 0) hglobals⟩
  refine ⟨rfl, rfl, rfl, by decide, hawake, ?_⟩
  refine replayable_of_forall (fun _ _ _ _ _ => scribe.direct_globals 1) _ (by decide) ?_ _ _ _ _ hawake.toAwake
  intro stmt hstmt earlier m hm
  have hcall (w : Int) : (Stmt.call ⟨hostNamespace, "write"⟩ [.lit w]).Replays
      (dictation.setting ⟨3, 1⟩ dictation.obeysUnwind (scribe.direct 1)) scribe.pauses earlier m :=
    Stmt.replays_call [.i32 (UInt32.ofInt w)] rfl (fun _ => rfl) hm (fun _ _ => scribe.direct_globals 1)
      fun c ⟨_, _, _, hc⟩ => hc ▸ rfl
  rcases List.mem_cons.1 hstmt with rfl | hstmt
  · exact hcall 5
  rcases List.mem_cons.1 hstmt with rfl | hstmt
  · exact Stmt.replays_look 2048
  · cases List.mem_singleton.1 hstmt
    exact hcall 7

end GuestHost
