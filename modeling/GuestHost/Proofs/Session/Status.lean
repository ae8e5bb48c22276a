/-
  GuestHost.Proofs.Session.Status — what becomes of a run's result when its streams cannot be cleaned up, and what
  of its status.

  Whether an exit becomes a status is looked at only when the guest has ended, so two runs that differ in it are the
  same up to there (`Session.start_cases`). What the guest came to counts first. A return, or an exit that is a
  status, gives way to a stream that cannot be closed or delivered. An exit that is raised does not: it is a failure
  already, and the stream's is dropped. So the same loss of output fails the one run and leaves the other one with an
  ordinary exit, and the command gives an error for the one and a status for the other.

  Proved:
  - `Session.ending_of_failed_cleanUp`: the result where a stream fails in the end.
  - `Job.performAtOnce_returning`: whole jobs differ in nothing but how the result is settled.
  - `only_a_raised_exit_hides_a_lost_stream`: both settings, for every run and every job.
  - `a_raised_exit_hides_a_lost_stream`: so it happens.
-/

import GuestHost.CommandLine.Command
import GuestHost.Proofs.Session.Outputs

namespace GuestHost

open Exec

/-- Both are the same status, or neither is one. -/
def SameStatus (a b : Except CommandLine.CommandError Int32) : Prop :=
  (∃ code, a = .ok code ∧ b = .ok code) ∨ ∃ e e', a = .error e ∧ b = .error e'

theorem SameStatus.refl (a : Except CommandLine.CommandError Int32) : SameStatus a a := by
  cases a with
  | ok code => exact .inl ⟨code, rfl, rfl⟩
  | error e => exact .inr ⟨e, e, rfl, rfl⟩

namespace Session

/-- Where the streams fail to be cleaned up, only a result that is no failure gives way to it. -/
theorem ending_of_failed_cleanUp {m : Machine (Hosted Work Session)} {e : StreamError}
    (h : m.outer.host.stdio.cleanUp.1 = .error e) (returnOnExit : Bool) (result : Except Failure Unit) :
    ending returnOnExit result m =
      match (Outcome.classify result).settle returnOnExit m.outer.host.stdio.output.buffered
        m.outer.host.stdio.error.buffered with
      | .ok _ => .error (.fatal (.stream e) m.outer.host.stdio.output.buffered m.outer.host.stdio.error.buffered)
      | .error failure => .error failure := by
  simp only [ending, h]
  cases (Outcome.classify result).settle returnOnExit m.outer.host.stdio.output.buffered
    m.outer.host.stdio.error.buffered <;> rfl

/-- The failure of a run whose streams failed in the end. -/
def lost (e : StreamError) (m : Machine (Hosted Work Session)) : Except Failure (Option Int32) :=
  .error (.fatal (.stream e) m.outer.host.stdio.output.buffered m.outer.host.stdio.error.buffered)

/-- Two runs whose guests ended so, in `m`: in the one an exit is raised, in the other one it becomes the status. -/
structure BothWays (raised turned : Except Failure (Option Int32)) (how : Outcome)
    (m : Machine (Hosted Work Session)) : Prop where
  /-- Without a failure of a stream, a return is a return, and an exit is raised or becomes a status. -/
  clean : m.outer.host.stdio.cleanUp.1 = .ok () →
    (how = .returned → raised = .ok none ∧ turned = .ok none) ∧
      ∀ code, how = .exited code → raised = .error (.exit code) ∧ turned = .ok (some code)
  /-- A guest that returned does not hide a failure of a stream. -/
  returned : ∀ e, m.outer.host.stdio.cleanUp.1 = .error e → how = .returned →
    raised = lost e m ∧ turned = lost e m
  /-- An exit hides it, if it is raised. -/
  exited : ∀ e code, m.outer.host.stdio.cleanUp.1 = .error e → how = .exited code →
    raised = .error (.exit code) ∧ turned = lost e m
  /-- So the command's status is the same both ways, but for that case. -/
  status : (∀ t, how ≠ .trapped t) →
    (SameStatus (CommandLine.statusOf raised) (CommandLine.statusOf turned) ↔
      ¬ ∃ e code, m.outer.host.stdio.cleanUp.1 = .error e ∧ how = .exited code)

theorem bothWays (result : Except Failure Unit) (m : Machine (Hosted Work Session)) :
    BothWays (ending false result m) (ending true result m) (Outcome.classify result) m := by
  have hclean (h : m.outer.host.stdio.cleanUp.1 = .ok ()) (returnOnExit : Bool) := ending_of_clean h returnOnExit result
  have hfailed {e : StreamError} (h : m.outer.host.stdio.cleanUp.1 = .error e) (returnOnExit : Bool) :=
    ending_of_failed_cleanUp h returnOnExit result
  constructor
  case clean =>
    intro h
    rw [hclean h, hclean h]
    refine ⟨fun how => ?_, fun code how => ?_⟩
    · rw [how]
      exact ⟨rfl, rfl⟩
    · rw [how]
      exact ⟨rfl, rfl⟩
  case returned =>
    intro e h how
    rw [hfailed h, hfailed h, how]
    exact ⟨rfl, rfl⟩
  case exited =>
    intro e code h how
    rw [hfailed h, hfailed h, how]
    exact ⟨rfl, rfl⟩
  case status =>
    intro huntrapped
    cases hcleaned : m.outer.host.stdio.cleanUp.1 with
    | ok _ =>
      rw [hclean hcleaned, hclean hcleaned]
      refine iff_of_true ?_ (by rintro ⟨_, _, h, -⟩; cases h)
      cases how : Outcome.classify result with
      | returned => exact .inl ⟨0, rfl, rfl⟩
      | exited code => exact .inl ⟨code, rfl, rfl⟩
      | trapped t => exact absurd how (huntrapped t)
      | failed e => exact .inr ⟨_, _, rfl, rfl⟩
    | error e =>
      rw [hfailed hcleaned, hfailed hcleaned]
      cases how : Outcome.classify result with
      | returned => exact iff_of_true (.inr ⟨_, _, rfl, rfl⟩) (by rintro ⟨_, _, -, h⟩; cases h)
      | exited code =>
        refine iff_of_false ?_ (not_not_intro ⟨e, code, rfl, rfl⟩)
        rintro (⟨_, _, h⟩ | ⟨_, _, h, _⟩) <;> cases h
      | trapped t => exact absurd how (huntrapped t)
      | failed e => exact iff_of_true (.inr ⟨_, _, rfl, rfl⟩) (by rintro ⟨_, _, -, h⟩; cases h)

end Session

/-! ## Whole jobs -/

namespace Job

/-- The job where an exit becomes the status, or is raised. -/
def returning (j : Job) (returnOnExit : Bool) : Job := { j with options := { j.options with returnOnExit } }

/-- The job gets as far as to the start of its guest, with these imports and from this machine. -/
inductive Starts (j : Job) (around : Surroundings) (limits : Limits) :
    Guest → Linked → Machine (Hosted Work Session) → Prop
  | of {fsm : FilesystemModule} {g : Guest} {s : Session} {table : ImportTable} {m : Machine (Hosted Work Session)}
      (filesystem : j.filesystem = some fsm) (guest : j.guest = some g)
      (setUp : Session.setUp j.options ⟨fsm, around.now, limits.turns⟩ = (.ok (), s))
      (link : Session.fillTable j fsm = .ok table)
      (instantiate : g.instantiate (⟨table, ⟨fsm, around.now, limits.turns⟩, around⟩ : Linked).host
        ({ host := s } : Hosted Work Session) = .ok m) :
      Starts j around limits g ⟨table, ⟨fsm, around.now, limits.turns⟩, around⟩ m

/-- The reports of a job are the same either way, or its guest is started in both, from the same machine. -/
theorem perform_returning (j : Job) (around : Surroundings) (limits : Limits) :
    ((j.returning false).perform around limits = (j.returning true).perform around limits) ∨
      ∃ g l m, j.Starts around limits g l m ∧ ∀ returnOnExit,
        ((j.returning returnOnExit).perform around limits).result =
          (Session.start g l j.options.streaming returnOnExit limits m).result := by
  -- what comes before the start does not look at the setting
  have hfilesystem (returnOnExit : Bool) : (j.returning returnOnExit).filesystem = j.filesystem := rfl
  have hguest (returnOnExit : Bool) : (j.returning returnOnExit).guest = j.guest := rfl
  have hsetUp (returnOnExit : Bool) (fs : Filesystem) :
      Session.setUp (j.returning returnOnExit).options fs = Session.setUp j.options fs := rfl
  have htable (returnOnExit : Bool) : Session.fillTable (j.returning returnOnExit) = Session.fillTable j := rfl
  simp only [perform, hfilesystem, hguest]
  split
  · exact .inl rfl
  · exact .inl rfl
  · next fsm g hfsm hg =>
    simp only [runModules, hsetUp, htable]
    split
    · exact .inl rfl
    · next s hs =>
      split
      · exact .inl rfl
      · next table hfill =>
        split
        · exact .inl rfl
        · next machine hm => exact .inr ⟨g, _, machine, .of hfsm hg hs hfill hm, fun _ => rfl⟩

/-- The job as it is run with its last stages in one: nothing is put in place of its imports. -/
def plain (j : Job) : Job := { j with overrides := [], linkTwice := false }

/-- So it is with the last stages in one. -/
theorem performAtOnce_returning (j : Job) (around : Surroundings) (limits : Limits) :
    ((j.returning false).performAtOnce around limits = (j.returning true).performAtOnce around limits) ∨
      ∃ g l m, j.plain.Starts around limits g l m ∧ ∀ returnOnExit,
        ((j.returning returnOnExit).performAtOnce around limits).result =
          (Session.start g l j.options.streaming returnOnExit limits m).result := by
  let merged (r : Report) : Report :=
    if r.stage = .runtime ∨ r.stage = .load then r else { r with stage := .run, state := none }
  have hmerged (returnOnExit : Bool) : (j.returning returnOnExit).performAtOnce around limits =
      merged ((j.plain.returning returnOnExit).perform around limits) := rfl
  have hresult (r : Report) : (merged r).result = r.result := by
    simp only [merged]
    split <;> rfl
  rcases j.plain.perform_returning around limits with h | ⟨g, l, m, hstarts, h⟩
  · exact .inl (by rw [hmerged, hmerged, h])
  · refine .inr ⟨g, l, m, hstarts, fun returnOnExit => ?_⟩
    rw [hmerged, hresult, h]
    rfl

end Job

/-- The reports of a job either way: the same, with the same status, or its guest was started in both, and they tell of
its end as they do. -/
def Job.SettledBothWays (j : Job) (around : Surroundings) (limits : Limits) : Prop :=
  let raised := (j.returning false).performAtOnce around limits
  let turned := (j.returning true).performAtOnce around limits
  (raised = turned ∧ SameStatus (CommandLine.statusOf raised.result) (CommandLine.statusOf turned.result)) ∨
    ∃ g l m result m', j.plain.Starts around limits g l m ∧
      Gives (Session.runGuest g l j.options.streaming limits) m result m' ∧
      Session.BothWays raised.result turned.result (Outcome.classify result) m'

/-- For every guest, with any streams: whether exits are raised or become the status makes no difference to the run
itself, and a stream that fails in the end fails the run both ways, but for one case. An exit that is raised hides it.
So the command gives the same status both ways, or none both ways, for every guest that does not trap, but in that
case; and so it is for every job. -/
theorem only_a_raised_exit_hides_a_lost_stream (g : Guest) (l : Linked) (streaming : Bool) (limits : Limits)
    (m : Machine (Hosted Work Session)) (j : Job) (around : Surroundings) :
    (∃ result m', Gives (Session.runGuest g l streaming limits) m result m' ∧
      (Session.start g l streaming false limits m).machine = (Session.start g l streaming true limits m).machine ∧
      Session.BothWays (Session.start g l streaming false limits m).result
        (Session.start g l streaming true limits m).result (Outcome.classify result) m') ∧
    j.SettledBothWays around limits := by
  constructor
  · obtain ⟨result, m', hgives, hstart⟩ := Session.start_cases g l streaming limits m
    refine ⟨result, m', hgives, ?_, ?_⟩
    · rw [hstart, hstart]
    · rw [hstart, hstart]
      exact Session.bothWays result m'
  · rcases j.performAtOnce_returning around limits with h | ⟨g, l, m, hstarts, h⟩
    · refine .inl ⟨h, ?_⟩
      rw [h]
      exact .refl _
    · obtain ⟨result, m', hgives, hstart⟩ := Session.start_cases g l j.options.streaming limits m
      refine .inr ⟨g, l, m, result, m', hstarts, hgives, ?_⟩
      rw [h, h, hstart, hstart]
      exact Session.bothWays result m'

set_option maxRecDepth 4000

/-- The parting herald exits, and its output is lost in the end. -/
theorem a_herald_loses_its_message :
    ∃ m m' e, partingHerald.instantiate (heraldLinked false).host ({ host := stubbornSession } : Hosted Work Session) =
        .ok m ∧
      Session.runGuest partingHerald (heraldLinked false) false ⟨4, 1⟩ m = .error (.exit 7) m' ∧
      m'.outer.host.stdio.cleanUp.1 = .error e := by
  have h : (partingHerald.instantiate (heraldLinked false).host
      ({ host := stubbornSession } : Hosted Work Session)).toOption.any
      (fun m => errorWith
        (fun e m' => decide (e = .exit 7 ∧ m'.outer.host.stdio.cleanUp.1.toOption = none))
        (Session.runGuest partingHerald (heraldLinked false) false ⟨4, 1⟩ m)) := by
    decide +kernel
  obtain ⟨m, hm, hrun⟩ := (Option.any_eq_true ..).1 h
  obtain ⟨e, m', hr, hlost⟩ := exists_of_errorWith hrun
  obtain ⟨rfl, hlost⟩ := of_decide_eq_true hlost
  cases hcleaned : m'.outer.host.stdio.cleanUp.1 with
  | ok _ =>
    rw [hcleaned] at hlost
    cases hlost
  | error e => exact ⟨m, m', e, eq_ok_of_toOption hm, hr, hcleaned⟩

/-- So a stream that fails in the end is hidden by an exit that is raised: the run ends with just that exit. -/
theorem a_raised_exit_hides_a_lost_stream :
    ¬ ∀ (o : Options) (fs : Filesystem) (around : Surroundings) (g : Guest) (limits : Limits) (s : Session)
      (table : ImportTable) (m m' : Machine (Hosted Work Session)) (result : Except Failure Unit) (e : StreamError),
      Session.setUp o fs = (.ok (), s) →
      ImportTable.install fs.module o.streaming o.traceImports [] = .ok table →
      g.instantiate (⟨table, fs, around⟩ : Linked).host ({ host := s } : Hosted Work Session) = .ok m →
      Gives (Session.runGuest g ⟨table, fs, around⟩ o.streaming limits) m result m' →
      (Outcome.classify result = .returned ∨ ∃ code, Outcome.classify result = .exited code) →
      m'.outer.host.stdio.cleanUp.1 = .error e → ∀ returnOnExit, ∃ stdout stderr,
        (Session.start g ⟨table, fs, around⟩ o.streaming returnOnExit limits m).result =
          .error (.fatal (.stream e) stdout stderr) := by
  intro h
  obtain ⟨m, m', e, hm, hr, hcleaned⟩ := a_herald_loses_its_message
  obtain ⟨stdout, stderr, hfatal⟩ := h stubbornOptions heraldFilesystem ⟨0, fun _ => some 0⟩ partingHerald ⟨4, 1⟩
    stubbornSession (heraldTable false) m m' (.error (.exit 7)) e setUp_stubborn (installed_heraldTable false) hm hr
    (.inr ⟨7, rfl⟩) hcleaned false
  have hexit : (Session.start partingHerald (heraldLinked false) false false ⟨4, 1⟩ m).result = .error (.exit 7) := by
    rw [Session.start_eq, hr]
    exact Session.ending_of_failed_cleanUp hcleaned false (.error (.exit 7))
  cases hexit.symm.trans hfatal

end GuestHost
