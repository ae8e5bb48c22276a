/-
  GuestHost.Proofs.Asyncify.Retelling — what is told of a program's calls when the guest is run in passes.

  A host that adds a line to its record for each pass through an import tells of a call that waits twice: once for the
  pass that starts the unwind, with the placeholder that it returns, and once for the pass that returns the value. A
  listener beside the direct run knows which calls these are (`Listener.Foresees`), so the record of the bridged run
  can be told from the calls of the program (`Heard.passes`).

  Proved:
  - `Replayable.listening`, `Indifferent.listening`: neither statements nor hosts mind the listener.
  - `Guest.retold_callEntrypoint`: the bridged run comes to what the direct run comes to, and its record has the
    passes of the program's calls, in their order.
-/

import GuestHost.Proofs.Asyncify.Replay
import GuestHost.Proofs.Program.Listening

namespace GuestHost

open Exec

/-- Whether the call has to wait where it can be suspended, if that is what the listener sees. -/
def Heard.waits (h : Heard Bool) : Bool := h.seen

/-- A call as the lines of a record that has one for each pass. -/
def Heard.passes {ω : Type} (line : ImportName → List Value → Except Failure UInt32 → ω) (h : Heard Bool) : List ω :=
  if h.waits then [line h.target h.args (.ok (resultWord placeholder)), h.line line] else [h.line line]

/-- Each call has one line more if it waits; so the lines are one for each call only if none waits. -/
theorem flatMap_passes_eq_iff {ω : Type} (line : ImportName → List Value → Except Failure UInt32 → ω)
    (calls : List (Heard Bool)) :
    calls.flatMap (Heard.passes line) = calls.map (Heard.line line) ↔ ∀ h ∈ calls, h.waits = false := by
  have hlength (calls : List (Heard Bool)) :
      (calls.flatMap (Heard.passes line)).length = calls.length + calls.countP Heard.waits := by
    induction calls with
    | nil => rfl
    | cons h calls ih =>
      rw [List.flatMap_cons, List.length_append, ih, List.length_cons, List.countP_cons]
      unfold Heard.passes
      split <;> simp only [List.length_cons, List.length_nil] <;> omega
  constructor
  · intro heq
    have := hlength calls
    rw [heq, List.length_map] at this
    intro h hh
    exact Bool.eq_false_iff.2 (List.countP_eq_zero.1 (by omega) h hh)
  · intro h
    induction calls with
    | nil => rfl
    | cons first calls ih =>
      obtain ⟨hfirst, hrest⟩ := List.forall_mem_cons.1 h
      rw [List.flatMap_cons, List.map_cons, ih hrest, Heard.passes, hfirst]
      rfl

section

variable {τ κ η ω : Type}

/-! ## Statements with a listener -/

/-- Operations leave a module with a listener as they leave it without. -/
def Pauses.unheard (pauses : Pauses τ) : Pauses (τ × List (Heard Bool)) := fun target args m c =>
  pauses target args m.unheard c

section

variable {s : Setting τ} {pauses : Pauses τ} {m : Machine τ} (ear : Listener τ Bool) (calls : List (Heard Bool))

theorem Stmt.Replays.listening {earlier : List Nat} {stmt : Stmt} (h : stmt.Replays s pauses earlier m) :
    stmt.Replays (s.serving (ear.hear s.call)) pauses.unheard earlier (m.withCalls calls) where
  locals := h.locals
  ended := h.ended
  before := h.before
  once target args c hasks vs m' hcall := h.once target args c hasks vs m'.unheard (ear.unheard_of_ok hcall)
  again target args c hasks vs m' hcall := h.again target args c hasks vs m'.unheard (ear.unheard_of_ok hcall)
  obeys := h.obeys

theorem Replayable.listening {earlier : List Nat} {i : Nat} {body : List Stmt} {locals : List UInt32}
    (h : Replayable s pauses earlier i body locals m) :
    Replayable (s.serving (ear.hear s.call)) pauses.unheard earlier i body locals (m.withCalls calls) := by
  induction body generalizing earlier i locals m calls with
  | nil => trivial
  | cons stmt rest ih =>
    obtain ⟨hstmt, hlater⟩ := h
    refine ⟨hstmt.listening ear calls, fun locals' m' hexec => ?_⟩
    obtain ⟨more, hlistens⟩ := Stmt.related_exec (Listens.relating ear s) stmt (fun _ _ => trivial) locals m calls
    rw [hexec] at hlistens
    cases hr : stmt.exec s [] locals m with
    | error e n =>
      rw [hr] at hlistens
      cases hlistens
    | ok r n =>
      rw [hr] at hlistens
      cases hlistens
      exact ih (calls ++ more) (hlater locals' n hr)

end

/-! ## Hosts with a listener -/

/-- What a listener knows of a host that may let calls wait: those that do are heard, and come to a result in the
end. -/
structure Listener.Foresees (ear : Listener τ Bool) (ρ : τ → η → Prop) (pauses : Pauses τ)
    (call₁ : ImportName → List Value → Exec τ (List Value))
    (call₂ : ImportName → List Value → Exec (Hosted κ η) (List Value)) : Prop where
  pauses : ∀ target args m c, pauses target args m c → ear.sees target args m = true
  waits : ∀ target args m₁ m₂, Stands ρ m₁ m₂ → Awake m₁ → ear.sees target args m₁ = true →
    ear.hears target = true ∧ (∃ vs n₁, call₁ target args m₁ = .ok vs n₁) ∧
      ∃ (n₂ : Machine (Hosted κ η)) (work : κ),
        call₂ target args m₂ = .ok placeholder n₂ ∧ n₂.outer.bridge.phase = .unwinding work

/-- The hosts are related, and the second has told the passes of the calls that the first made. -/
def Retold (ρ : τ → η → Prop) (line : ImportName → List Value → Except Failure UInt32 → ω) (told : η → List ω)
    (before : List ω) (o : τ × List (Heard Bool)) (h : η) : Prop :=
  ρ o.1 h ∧ told h = before ++ o.2.flatMap (Heard.passes line)

variable {ear : Listener τ Bool} {ρ : τ → η → Prop} {line : ImportName → List Value → Except Failure UInt32 → ω}
  {told : η → List ω} {before : List ω} {pauses : Pauses τ} {call₁ : ImportName → List Value → Exec τ (List Value)}
  {call₂ : ImportName → List Value → Exec (Hosted κ η) (List Value)} {complete : κ → Exec (Hosted κ η) UInt32}

/-- The passes of a call that is put on the list. -/
theorem Listener.passes_note {target : ImportName} {args : List Value} {m : Machine τ} (r : Except Failure UInt32)
    (hwaits : ear.sees target args m = false) : (ear.note target args m r).flatMap (Heard.passes line) =
      if ear.hears target then [line target args r] else [] := by
  unfold note
  split
  · simp only [List.flatMap_cons, List.flatMap_nil, Heard.passes, Heard.waits, hwaits, Bool.false_eq_true, if_false,
      List.append_nil]
    rfl
  · rfl

theorem Listener.passes_note_waiting {target : ImportName} {args : List Value} {m : Machine τ}
    (r : Except Failure UInt32) (hhears : ear.hears target = true) (hwaits : ear.sees target args m = true) :
    (ear.note target args m r).flatMap (Heard.passes line) =
      [line target args (.ok (resultWord placeholder)), line target args r] := by
  unfold note
  rw [if_pos hhears]
  simp only [List.flatMap_cons, List.flatMap_nil, Heard.passes, Heard.waits, hwaits, if_true, List.append_nil]
  rfl

/-- The relation is kept when what a pass has told is what it told of the call. -/
theorem Retold.append {o : τ} {calls : List (Heard Bool)} {h h' : η} (hretold : Retold ρ line told before (o, calls) h)
    {o' : τ} (hρ : ρ o' h') {more : List (Heard Bool)} (htold : told h' = told h ++ more.flatMap (Heard.passes line)) :
    Retold ρ line told before (o', calls ++ more) h' :=
  ⟨hρ, by rw [htold, hretold.2, List.flatMap_append, List.append_assoc]⟩

section

variable {target : ImportName} {args : List Value} {m₁ : Machine (τ × List (Heard Bool))} {m₂ : Machine (Hosted κ η)}

/-- A call that the host answers as the direct run does has not waited. -/
theorem Listener.Foresees.answered (hear : ear.Foresees ρ pauses call₁ call₂) (hstands : Stands ρ m₁.unheard m₂)
    (hawake : Awake m₁.unheard) (h : Agrees ρ (Stands ρ) (call₁ target args m₁.unheard) (call₂ target args m₂)) :
    ear.sees target args m₁.unheard = false := by
  refine Bool.eq_false_iff.2 fun hw => ?_
  obtain ⟨-, -, n₂, work, hcall₂, hphase⟩ := hear.waits target args _ _ hstands hawake hw
  rcases h.cases with ⟨vs, n₁, n, -, hcall, hn⟩ | ⟨e, n₁, n, -, hcall, -⟩
  · rw [hcall₂] at hcall
    cases hcall
    rw [hn.phase] at hphase
    cases hphase
  · rw [hcall₂] at hcall
    cases hcall

variable (htells : Tells ear.hears line (fun o : Hosted κ η => told o.host) call₂)
  (hresults : ∀ target args m vs m', call₁ target args m = .ok vs m' → vs ≠ [])
  (hretold : Retold ρ line told before m₁.outer m₂.outer.host)
include htells hresults hretold

/-- A call that does not wait is told in one pass. -/
theorem Agrees.listening (h : Agrees ρ (Stands ρ) (call₁ target args m₁.unheard) (call₂ target args m₂))
    (hwaits : ear.sees target args m₁.unheard = false) :
    Agrees (Retold ρ line told before) (Stands (Retold ρ line told before)) (ear.hear call₁ target args m₁)
      (call₂ target args m₂) := by
  rcases h.cases with ⟨vs, n₁, n₂, hcall₁, hcall₂, hn⟩ | ⟨e, n₁, n₂, hcall₁, hcall₂, hn⟩
  · have htold := htells.returns hcall₂ (hresults _ _ _ _ _ hcall₁)
    rw [← ear.passes_note _ hwaits] at htold
    rw [ear.hear_of_ok hcall₁, hcall₂]
    exact ⟨rfl, ⟨hn.core, hretold.append hn.host htold⟩, hn.phase, hn.bound⟩
  · have htold := htells.fails hcall₂
    rw [← ear.passes_note _ hwaits] at htold
    rw [ear.hear_of_error hcall₁, hcall₂]
    exact ⟨rfl, hn.core, hretold.append hn.host htold⟩

/-- A call that waits is told in two: once with the placeholder, and once when it is resumed. -/
theorem Resumes.listening {c : Core} {b b' : Bridge κ} {h : η} {work : κ} {vs : List Value} {n₁ : Machine τ}
    (hresumes : Resumes ρ (call₂ target args) (call₁ target args m₁.unheard) (complete work (c.within ⟨b', h⟩)))
    (hfinish : ∀ work m w m', complete work m = .ok w m' → told m'.outer.host = told m.outer.host)
    (hcall₁ : call₁ target args m₁.unheard = .ok vs n₁)
    (hcall₂ : call₂ target args m₂ = .ok placeholder ((c.setGlobal stateGlobal unwindingWord).within ⟨b, h⟩))
    (hhears : ear.hears target = true) (hwaits : ear.sees target args m₁.unheard = true) :
    Resumes (Retold ρ line told before) (call₂ target args) (ear.hear call₁ target args m₁)
      (complete work (c.within ⟨b', h⟩)) := by
  have hfirst := htells.returns hcall₂ (List.cons_ne_nil _ _)
  rcases hresumes.cases with
    ⟨e, _, _, hdirect, -⟩ | ⟨_, _, w, n₂, hdirect, hfinished, hcore, hbound₂, hreturns⟩
  · rw [hcall₁] at hdirect
    cases hdirect
  · rw [hcall₁] at hdirect
    cases hdirect
    rw [ear.hear_of_ok hcall₁, hfinished]
    refine ⟨hcore, hbound₂, fun b₁ hphase₁ hbound₁ => ?_⟩
    obtain ⟨n₃, hcall₃, hn⟩ := hreturns b₁ hphase₁ hbound₁
    have hsecond := htells.returns hcall₃ (hresults _ _ _ _ _ hcall₁)
    refine ⟨n₃, hcall₃, ⟨hn.core, hretold.append hn.host ?_⟩, hn.phase, hn.bound⟩
    rw [if_pos hhears] at hfirst hsecond
    calc told n₃.outer.host
        = told n₂.outer.host ++ [line target args (.ok (resultWord vs))] := hsecond
      _ = (told m₂.outer.host ++ [line target args (.ok (resultWord placeholder))]) ++
            [line target args (.ok (resultWord vs))] := by
          rw [hfinish work _ w n₂ hfinished]
          exact congrArg (· ++ _) hfirst
      _ = told m₂.outer.host ++ (ear.note target args m₁.unheard _).flatMap (Heard.passes line) := by
          rw [ear.passes_note_waiting _ hhears hwaits, List.append_assoc]
          rfl

end

/-- A host does the same for a call with a listener beside the direct run, and tells its passes. -/
theorem Indifferent.listening (h : Indifferent ρ pauses call₁ call₂ complete)
    (hear : ear.Foresees ρ pauses call₁ call₂)
    (htells : Tells ear.hears line (fun o : Hosted κ η => told o.host) call₂)
    (hresults : ∀ target args m vs m', call₁ target args m = .ok vs m' → vs ≠ [])
    (hfinish : ∀ work m w m', complete work m = .ok w m' → told m'.outer.host = told m.outer.host) :
    Indifferent (Retold ρ line told before) pauses.unheard (ear.hear call₁) call₂ complete where
  globals target args m vs m' hcall := h.globals target args m.unheard vs m'.unheard (ear.unheard_of_ok hcall)
  serves target args m₁ m₂ hstands hawake := by
    have hstands' : Stands ρ m₁.unheard m₂ := ⟨⟨hstands.core, hstands.host.1⟩, hstands.phase, hstands.bound⟩
    have hawake' : Awake m₁.unheard := ⟨hawake.room, hawake.state⟩
    rcases h.serves target args m₁.unheard m₂ hstands' hawake' with
      hagrees | ⟨c, b, o, work, hpause, hglobals, hphase, hbound, hcall₂, hresumes⟩
    · left
      exact hagrees.listening htells hresults hstands.host (hear.answered hstands' hawake' hagrees)
    · right
      refine ⟨c, b, o, work, hpause, hglobals, hphase, hbound, hcall₂, fun b' hphase' hbound' => ?_⟩
      have hwaits := hear.pauses target args _ c hpause
      obtain ⟨hhears, ⟨vs, n₁, hcall₁⟩, -⟩ := hear.waits target args _ _ hstands' hawake' hwaits
      exact (hresumes b' hphase' hbound').listening htells hresults hstands.host hfinish hcall₁ hcall₂ hhears hwaits

/-! ## The bridged run -/

variable {g : Guest} {s : Setting τ} {m₁ : Machine τ} {m₂ : Machine (Hosted κ η)}

/-- The bridged run comes to what the direct run comes to, and has then told the passes of its calls. -/
theorem Guest.retold_callEntrypoint (limits : Limits) (call : ImportName → List Value → Exec (Hosted κ η) (List Value))
    (hg : g.controls = {}) (hobeys : s.obeysUnwind = true) (hhost : Indifferent ρ pauses s.call call₂ complete)
    (hear : ear.Foresees ρ pauses s.call call₂)
    (htells : Tells ear.hears line (fun o : Hosted κ η => told o.host) call₂)
    (hresults : ∀ target args m vs m', s.call target args m = .ok vs m' → vs ≠ [])
    (hfinish : ∀ work m w m', complete work m = .ok w m' → told m'.outer.host = told m.outer.host)
    (hsize : g.body.length < UInt32.size) (hstands : Stands ρ m₁ m₂) (hturn : AtTurn 0 m₁)
    (hreplay : Replayable s pauses [] 0 g.body freshLocals m₁) {fuel : Nat} (hfuel : g.body.length ≤ fuel) :
    Agrees (Retold ρ line told (told m₂.outer.host)) (Over (Retold ρ line told (told m₂.outer.host)))
      (Guest.runStatements (s.serving (ear.hear s.call)) 0 g.body freshLocals (m₁.withCalls []))
      (Bridge.callEntrypoint (g.controlsWith limits call) (Guest.runStatements (s.serving call₂) 0 g.body freshLocals)
        complete fuel m₂) :=
  agrees_callEntrypoint limits call hg (s := s.serving (ear.hear s.call)) hobeys
    (hhost.listening hear htells hresults hfinish) hsize
    ⟨⟨hstands.core, hstands.host, (List.append_nil _).symm⟩, hstands.phase, hstands.bound⟩
    ⟨⟨hturn.room, hturn.state⟩, hturn.progress⟩ (hreplay.listening ear []) hfuel

end

end GuestHost
