/-
  GuestHost.Proofs.Session.Hushed — a run whose imports are traced, and the same run without the trace.

  The log has two kinds of lines: those that the wrapper of the imports writes, one for each pass through an import,
  and the reports of the filesystem module. Nothing reads the log. So all that a handler does is blind to it
  (`Linked.blind_handle`), and the wrapper, the bridge and the driver do on a session without the trace, from a table
  that does not trace, what they do on the session itself (`Echoes`).

  Proved:
  - `Blind.trace`: what is blind to the log writes no line of the trace.
  - `Session.start_hushed`: a run of a table that does not trace is the run of the table, without the trace.
  - `Session.hushed_start_silent`: but for the trace, a run ends alike whether its imports are traced or not.
-/

import GuestHost.Proofs.Session.Apart
import GuestHost.Proofs.Session.Streaming

namespace GuestHost

open Exec

/-! ## The log -/

/-- Whether the line is the trace of a call. -/
def LogLine.isCall : LogLine → Bool
  | call _ => true
  | report _ => false

namespace Session

/-- The lines that the imports wrote when they were called. -/
def trace (s : Session) : List LogLine := s.log.toList.filter LogLine.isCall

def onLog (φ : Array LogLine → Array LogLine) (s : Session) : Session := { s with log := φ s.log }

def withoutCalls (log : Array LogLine) : Array LogLine := log.filter fun line => !line.isCall

def hushed (s : Session) : Session := s.onLog withoutCalls

/-- A change of the log that lets reports pass which come later. -/
def LetsReportsPass (φ : Array LogLine → Array LogLine) : Prop :=
  ∀ log (messages : Array String), φ (log ++ messages.map .report) = φ log ++ messages.map .report

theorem withoutCalls_reports : LetsReportsPass withoutCalls := by
  intro log messages
  refine Array.toList_inj.1 ?_
  have hreports :
      (messages.toList.map LogLine.report).filter (fun line => !line.isCall) = messages.toList.map .report :=
    List.filter_eq_self.2 fun line hline => by
      obtain ⟨text, -, rfl⟩ := List.mem_map.1 hline
      rfl
  simp only [withoutCalls, Array.toList_filter, Array.toList_append, Array.toList_map, List.filter_append, hreports]

theorem append_reports (before : Array LogLine) : LetsReportsPass (before ++ ·) := fun _ _ =>
  (Array.append_assoc ..).symm

theorem trace_withoutCalls {s : Session} (h : withoutCalls s.log = s.log) : s.trace = [] := by
  unfold trace
  rw [← h, withoutCalls, Array.toList_filter, List.filter_filter]
  exact List.filter_eq_nil_iff.2 fun line _ => by simp

variable {φ : Array LogLine → Array LogLine}

theorem aside_onLog : Aside (onLog φ) := ⟨fun _ => rfl, fun _ => rfl, fun _ => rfl, fun _ _ => rfl, fun _ _ => rfl⟩

theorem misses_onLog (fd : Nat) : Misses (onLog φ) fd := ⟨fun _ => rfl, fun _ _ => rfl⟩

/-- The filesystem module is blind to the log, but for what it reports. -/
theorem blind_visit {α : Type} (hφ : LetsReportsPass φ) (act : FilesystemAct α) :
    Blind (onLog φ) (onFilesystem act) := by
  intro m
  have hentered : entered (m.onHost (onLog φ)) = entered m := rfl
  have hleaving (f : Machine Linkage) : leaving (m.onHost (onLog φ)) f = (leaving m f).onHost (onLog φ) := by
    simp only [leaving, Machine.onHost, Machine.withHost, onLog, takeReports, hφ m.outer.host.log f.outer.messages]
  rw [onFilesystem_apply, onFilesystem_apply, hentered]
  cases act (entered m) with
  | ok a f => exact congrArg (EStateM.Result.ok a) (hleaving f)
  | error e f => exact congrArg (EStateM.Result.error e) (hleaving f)

end Session

section

variable {φ : Array LogLine → Array LogLine}

theorem HostCall.blind_log (around : Surroundings) (c : HostCall) (args : List Value) :
    Blind (Session.onLog φ) (c.run around args) :=
  blind_run Session.aside_onLog around fun _ _ _ => Session.misses_onLog _

theorem Work.blind_log (work : Work) : Blind (Session.onLog φ) work.finish := by
  cases work with
  | read fd _ _ _ | write fd _ _ => exact blind_finish rfl (Session.misses_onLog fd)
  | value w => exact .pure w

/-- What stands behind an import is blind to the log. -/
theorem Linked.blind_handle (hφ : Session.LetsReportsPass φ) (l : Linked) (e : Entry) (args : List Value) :
    Blind (Session.onLog φ) (l.handle e args) := by
  have hforward : Blind (Session.onLog φ) (l.forward e.signature.name args) :=
    .bind (Session.blind_visit hφ _) fun _ => .pure _
  refine .bind (Session.blind_mark Session.aside_onLog _) fun _ => ?_
  split
  · exact HostCall.blind_log _ _ _
  · exact hforward
  · exact .bind (HostCall.blind_word _ _) fun _ => .ite (HostCall.blind_log _ _ _) hforward
  · exact .pure _
  · exact .pure _
  · exact .throw _

/-- What is blind to the log adds nothing to the trace. -/
theorem Blind.trace {α : Type} {x : Act α} (h : ∀ φ, Session.LetsReportsPass φ → Blind (Session.onLog φ) x)
    {m m' : Machine (Hosted Work Session)} (hx : Leads x m m') : m'.outer.host.trace = m.outer.host.trace := by
  -- on an empty log the action leaves reports only, and what was in the log before makes no difference
  let m₀ := m.onHost (Session.onLog fun _ => #[])
  obtain ⟨m₁, hx₁, rfl⟩ : ∃ m₁, Leads x m₀ m₁ ∧ m' = m₁.onHost (Session.onLog (m.outer.host.log ++ ·)) := by
    have hblind := h _ (Session.append_reports m.outer.host.log) m₀
    have hm : m₀.onHost (Session.onLog (m.outer.host.log ++ ·)) = m :=
      congrArg m.withHost (show Session.onLog _ _ = _ from congrArg (fun log => { m.outer.host with log })
        Array.append_empty)
    rw [hm] at hblind
    rcases hx with ⟨a, hx⟩ | ⟨e, hx⟩
    · rw [hx] at hblind
      cases hr : x m₀ with
      | ok b m₁ => rw [hr] at hblind; cases hblind; exact ⟨m₁, .inl ⟨_, hr⟩, rfl⟩
      | error f m₁ => rw [hr] at hblind; cases hblind
    · rw [hx] at hblind
      cases hr : x m₀ with
      | ok b m₁ => rw [hr] at hblind; cases hblind
      | error f m₁ => rw [hr] at hblind; cases hblind; exact ⟨m₁, .inr ⟨_, hr⟩, rfl⟩
  have hfixed : m₁.onHost Session.hushed = m₁ := (h _ Session.withoutCalls_reports).fixed rfl hx₁
  have hnothing : m₁.outer.host.trace = [] :=
    Session.trace_withoutCalls (congrArg (fun n : Machine (Hosted Work Session) => n.outer.host.log) hfixed)
  show List.filter _ (m.outer.host.log ++ m₁.outer.host.log).toList = _
  rw [Array.toList_append, List.filter_append]
  exact (congrArg (m.outer.host.trace ++ ·) hnothing).trans (List.append_nil _)

end

/-! ## The bridge and the driver -/

/-- `y` does on the changed session what `x` does on the session itself. -/
def Echoes {α : Type} (f : Session → Session) (x y : Act α) : Prop := ∀ m, y (m.onHost f) = changed f (x m)

structure Controls.Echo (f : Session → Session) (c₁ c₂ : Controls (Hosted Work Session)) : Prop where
  startUnwind : ∀ addr, Echoes f (c₁.startUnwind addr) (c₂.startUnwind addr)
  stopUnwind : Echoes f c₁.stopUnwind c₂.stopUnwind
  startRewind : ∀ addr, Echoes f (c₁.startRewind addr) (c₂.startRewind addr)
  stopRewind : Echoes f c₁.stopRewind c₂.stopRewind
  getState : Echoes f c₁.getState c₂.getState

section

variable {f : Session → Session} {α β : Type} {c₁ c₂ : Controls (Hosted Work Session)}

namespace Echoes

theorem blind {x : Act α} (h : Blind f x) : Echoes f x x := h

theorem pure (a : α) : Echoes f (Pure.pure a) (Pure.pure a) := Blind.pure a

theorem throw (e : Failure) : Echoes f (throw e : Act α) (throw e) := Blind.throw e

theorem settle (r : Except Failure α) : Echoes f (Exec.settle r) (Exec.settle r) := by
  cases r with
  | ok a => exact pure a
  | error e => exact throw e

theorem bind {x y : Act α} {k k' : α → Act β} (hx : Echoes f x y) (hk : ∀ a, Echoes f (k a) (k' a)) :
    Echoes f (x >>= k) (y >>= k') := by
  intro m
  rw [bind_apply, bind_apply, hx m]
  cases x m with
  | ok a m' => exact hk a m'
  | error e m' => rfl

theorem homely {x : (τ : Type) → Exec τ α} (hx : Homely x) : Echoes f (x _) (x _) := by
  intro m
  obtain ⟨r, c, -, -, h⟩ := hx m.core
  have hplain : x _ m = yields r (c.within m.outer) := h _ m.outer
  have hchanged : x _ (m.onHost f) = yields r (c.within (m.onHost f).outer) := h _ (m.onHost f).outer
  rw [hplain, hchanged]
  cases r <;> rfl

theorem relating (s : Setting (Hosted Work Session)) {call : ImportName → List Value → Act (List Value)}
    (h : ∀ target args, Echoes f (s.call target args) (call target args)) :
    Relating s (s.serving call) (fun _ => True) (Echoes f) where
  typeOf := rfl
  maxPages := rfl
  memoryShown := rfl
  recordsCalls := rfl
  obeysUnwind := rfl
  fuel := rfl
  bind := bind
  homely := homely
  setGlobal _ _ _ := fun _ => rfl
  call := h

/-! ### Imports under the bridge -/

theorem requireBound : Echoes f (Bridge.requireBound : Act Unit) Bridge.requireBound := by
  intro m
  rw [Bridge.requireBound_apply, Bridge.requireBound_apply]
  by_cases hbound : m.outer.bridge.bound = true
  · rw [if_pos hbound]
    exact if_pos hbound
  · rw [if_neg hbound]
    exact if_neg hbound

theorem log (e : Milestone Work) : Echoes f (Bridge.log e : Act Unit) (Bridge.log e) := fun _ => rfl

theorem getPhase : Echoes f (Bridge.getPhase : Act (Phase Work)) Bridge.getPhase := fun _ => rfl

theorem setPhase (phase : Phase Work) : Echoes f (Bridge.setPhase phase : Act Unit) (Bridge.setPhase phase) :=
  fun _ => rfl

theorem takePhase : Echoes f (Bridge.takePhase : Act (Phase Work)) Bridge.takePhase := fun _ => rfl

variable (hc : c₁.Echo f c₂)
include hc

theorem state : Echoes f c₁.state c₂.state := by
  refine bind hc.getState fun w => ?_
  split
  · exact pure _
  · exact throw _

theorem expectNormal : Echoes f c₁.expectNormal c₂.expectNormal := by
  refine bind (state hc) fun state => ?_
  cases state with
  | normal => exact pure _
  | unwinding | rewinding => exact throw _

theorem answer (reply : Reply Work) : Echoes f (Bridge.answer c₁ reply) (Bridge.answer c₂ reply) := by
  cases reply with
  | ready value => exact pure value
  | suspend work =>
    refine bind getPhase fun phase => ?_
    cases phase with
    | normal => exact bind (setPhase _) fun _ => bind (log _) fun _ => bind (hc.startUnwind _) fun _ => pure 0
    | unwinding | rewinding => exact throw _

theorem wrapImport {x y : Act (Reply Work)} (h : Echoes f x y) :
    Echoes f (Bridge.wrapImport c₁ x) (Bridge.wrapImport c₂ y) := by
  refine bind requireBound fun _ => bind (state hc) fun state => bind getPhase fun phase => bind (log _) fun _ => ?_
  cases state with
  | rewinding =>
    refine bind hc.stopRewind fun _ => bind takePhase fun phase => ?_
    cases phase with
    | rewinding value => exact bind (log _) fun _ => pure value
    | normal | unwinding => exact throw _
  | unwinding => exact throw _
  | normal => exact bind (log _) fun _ => bind h fun reply => answer hc reply

/-! ### Runs under the bridge -/

variable {entry₁ entry₂ : Act Unit} {complete : Work → Act UInt32} (hentry : Echoes f entry₁ entry₂)
  (hcomplete : ∀ work, Blind f (complete work))
include hentry hcomplete

theorem drive (fuel : Nat) :
    Echoes f (Bridge.drive c₁ entry₁ complete fuel) (Bridge.drive c₂ entry₂ complete fuel) := by
  induction fuel with
  | zero =>
    unfold Bridge.drive
    refine bind (state hc) fun state => ?_
    cases state with
    | normal | rewinding => exact pure _
    | unwinding => exact throw _
  | succ fuel ih =>
    unfold Bridge.drive
    refine bind (state hc) fun state => ?_
    cases state with
    | normal | rewinding => exact pure _
    | unwinding =>
      refine bind hc.stopUnwind fun _ => bind takePhase fun phase => ?_
      cases phase with
      | normal | rewinding => exact throw _
      | unwinding work =>
        exact bind (log _) fun _ => bind (hcomplete work) fun value => bind (log _) fun _ =>
          bind (setPhase _) fun _ => bind (expectNormal hc) fun _ => bind (hc.startRewind _) fun _ =>
            bind (log _) fun _ => bind hentry fun _ => bind (log _) fun _ => ih

theorem callEntrypoint (fuel : Nat) :
    Echoes f (Bridge.callEntrypoint c₁ entry₁ complete fuel) (Bridge.callEntrypoint c₂ entry₂ complete fuel) := by
  refine bind requireBound fun _ => bind (expectNormal hc) fun _ => bind (log _) fun _ => bind hentry fun _ =>
    bind (log _) fun _ => bind (drive hc hentry hcomplete fuel) fun _ => bind (expectNormal hc) fun _ =>
      bind getPhase fun phase => ?_
  cases phase with
  | rewinding => exact throw _
  | normal | unwinding => exact pure _

end Echoes

namespace Guest

variable (g : Guest) (limits : Limits) {call₁ call₂ : ImportName → List Value → Act (List Value)}

/-- Controls echo themselves, if the imports do that their code may call. -/
theorem echo_controlsWith (h : ∀ target args, Echoes f (call₁ target args) (call₂ target args)) :
    (g.controlsWith limits call₁).Echo f (g.controlsWith limits call₂) := by
  have hcode : Relating (g.setting limits false call₁) (g.setting limits false call₂) (fun _ => True) (Echoes f) :=
    Echoes.relating (g.setting limits false call₁) h
  have hrun (body : Stmt) (params : List Value) :
      Echoes f (body.run (g.setting limits false call₁) params) (body.run (g.setting limits false call₂) params) :=
    Stmt.related_run hcode body fun _ _ => trivial
  exact {
    startUnwind := fun _ => .bind (hrun _ _) fun _ => .pure _
    stopUnwind := .bind (hrun _ _) fun _ => .pure _
    startRewind := fun _ => .bind (hrun _ _) fun _ => .pure _
    stopRewind := .bind (hrun _ _) fun _ => .pure _
    getState := .bind (hrun _ _) fun locals => Expr.related_eval hcode locals _ }

theorem echoes_entryWith (h : ∀ target args, Echoes f (call₁ target args) (call₂ target args)) :
    Echoes f (g.entryWith limits call₁) (g.entryWith limits call₂) :=
  g.related_entryWith limits (fun obeys => Echoes.relating (g.setting limits obeys call₁) h) fun _ _ => trivial

omit limits in
/-- The usual controls know of the guest's state only. -/
theorem echo_usual {g : Guest} (hg : g.controls = {}) (limits : Limits)
    (call : ImportName → List Value → Act (List Value)) :
    (g.controlsWith limits call).Echo f (g.controlsWith limits call) where
  startUnwind addr m := by rw [startUnwind_usual hg, startUnwind_usual hg]; rfl
  stopUnwind m := by rw [stopUnwind_usual hg, stopUnwind_usual hg]; rfl
  startRewind addr m := by rw [startRewind_usual hg, startRewind_usual hg]; rfl
  stopRewind m := by rw [stopRewind_usual hg, stopRewind_usual hg]; rfl
  getState m := by rw [getState_usual hg, getState_usual hg]; rfl

/-- Binding the bridge is a matter of the guest's exports and of its memory. -/
theorem blind_bindBridge : Blind f (g.bindBridge : Act Unit) := by
  have hexports (l : List (String × FuncType)) :
      Blind f (l.forM fun x => settle (g.requireExport x.1 x.2 (.bridge (.missingExport x.1))) : Act Unit) := by
    induction l with
    | nil => exact .pure _
    | cons x l ih => exact .bind (Echoes.settle _) fun _ => ih
  have hbind : Blind f (Bridge.bind : Act Unit) := by
    intro m
    have happly (m : Machine (Hosted Work Session)) : (Bridge.bind : Act Unit) m =
        if m.memory.holds unwindDataStart.toNat unwindHeader.length then
          .ok () (m.core.headed.within ⟨{ m.outer.bridge with bound := true, phase := .normal }, m.outer.host⟩)
        else .error .memoryAccess m := by
      have hset (n : Machine (Hosted Work Session)) : (set n : Act Unit) m = .ok () n := rfl
      unfold Bridge.bind
      rw [bind_of_ok (get_apply m)]
      split
      · rw [hset, ← Memory.headed_eq]
        rfl
      · rfl
    rw [happly, happly, show (m.onHost f).memory = m.memory from rfl]
    split <;> rfl
  exact .bind (hexports _) fun _ => .ite hbind (.throw _)

end Guest

/-! ## Tables that do not trace -/

def Entry.silent (e : Entry) : Entry := { e with traced := false }

namespace Linked

/-- The same imports, none of which is traced. -/
def silent (l : Linked) : Linked := { l with table := l.table.map Entry.silent }

theorem silent_silent (l : Linked) : l.silent.silent = l.silent := by
  simp only [silent, List.map_map]
  rfl

variable (l : Linked) (e : Entry) (args : List Value)

/-- The value of an import is no matter of the trace. -/
theorem echoes_value (hc : c₁.Echo f c₂) (h : Blind f (l.handle e args)) :
    Echoes f (l.value c₁ e args) (l.silent.value c₂ e.silent args) := by
  have hhandle : Echoes f (l.handle e args) (l.silent.handle e.silent args) := h
  cases hbridged : e.bridged with
  | true =>
    unfold value
    rw [show e.silent.bridged = true from hbridged, hbridged]
    exact .wrapImport hc hhandle
  | false =>
    rw [l.value_direct hbridged, l.silent.value_direct (e := e.silent) hbridged]
    refine .bind hhandle fun reply => ?_
    cases reply with
    | ready w => exact .pure w
    | suspend work => exact .throw _

theorem hushed_traced (r : Except Failure UInt32) (m : Machine (Hosted Work Session)) :
    (traced e args r m).onHost Session.hushed = m.onHost Session.hushed := by
  have htracing : Session.hushed (tracing e args r m.outer.host) = Session.hushed m.outer.host := by
    unfold tracing
    split
    · have hpush (log : Array LogLine) : Session.withoutCalls (log.push (traceLine e.signature.name args r)) =
          Session.withoutCalls log := Array.toList_inj.1 (by
        simp only [Session.withoutCalls, Array.toList_filter, Array.toList_push, List.filter_append]
        exact List.append_nil _)
      exact congrArg (fun log => { m.outer.host with log }) (hpush _)
    · rfl
  exact congrArg m.withHost htracing

theorem echoes_call (hc : c₁.Echo Session.hushed c₂) :
    Echoes Session.hushed (l.call c₁ e args) (l.silent.call c₂ e.silent args) := by
  intro m
  have hvalue := l.echoes_value e args hc (l.blind_handle Session.withoutCalls_reports e args) m
  cases hv : l.value c₁ e args m with
  | ok w n =>
    rw [hv] at hvalue
    rw [call_of_ok hv, call_of_ok hvalue]
    exact congrArg (EStateM.Result.ok _) (hushed_traced e args _ n).symm
  | error failure n =>
    rw [hv] at hvalue
    rw [call_of_error hv, call_of_error hvalue]
    exact congrArg (EStateM.Result.error _) (hushed_traced e args _ n).symm

theorem echoes_answer (hc : c₁.Echo Session.hushed c₂) (target : ImportName) :
    Echoes Session.hushed (l.host.answer c₁ target args) (l.silent.host.answer c₂ target args) := by
  have hsilent : l.silent.table.find? target.name = (l.table.find? target.name).map Entry.silent := List.find?_map ..
  cases hfind : l.table.find? target.name with
  | none =>
    rw [hfind] at hsilent
    rw [answer_of_none hfind, answer_of_none hsilent]
    exact .throw _
  | some e =>
    rw [hfind] at hsilent
    rw [answer_of_some hfind, answer_of_some hsilent]
    exact l.echoes_call e args hc

variable (g : Guest) (limits : Limits)

theorem echoes_import (depth : Nat) (target : ImportName) (args : List Value) :
    Echoes Session.hushed (g.callImport limits l.host depth target args)
      (g.callImport limits l.silent.host depth target args) := by
  induction depth generalizing target args with
  | zero => exact .throw _
  | succ depth ih => exact l.echoes_answer args (g.echo_controlsWith limits ih) target

end Linked

namespace Session

/-- A run of a table that does not trace does what a run of the table does. -/
theorem echoes_runGuest (g : Guest) (l : Linked) (streaming : Bool) (limits : Limits) :
    Echoes hushed (runGuest g l streaming limits) (runGuest g l.silent streaming limits) := by
  have hcall := l.echoes_import g limits limits.depth
  have hprime (fd : Nat) : Blind hushed (onStream fd () Descriptor.preRun) := blind_onStream (misses_onLog fd) _ _
  have hpre : Blind hushed preRun := .bind (hprime 0) fun _ => .bind (hprime 1) fun _ => hprime 2
  cases streaming with
  | true =>
    rw [runGuest_streaming, runGuest_streaming]
    split
    · exact .bind (.blind g.blind_bindBridge) fun _ => .bind (.blind hpre) fun _ =>
        .callEntrypoint (g.echo_controlsWith limits hcall) (g.echoes_entryWith limits hcall)
          (fun _ => Work.blind_log _) _
    · exact .throw _
  | false =>
    rw [runGuest_buffering, runGuest_buffering]
    split
    · exact .bind (.blind hpre) fun _ => .bind (.settle _) fun _ => g.echoes_entryWith limits hcall
    · exact .throw _

def Ended.hushed (ended : Ended) : Ended := ⟨ended.result, ended.machine.onHost Session.hushed⟩

/-- From a session without a trace, a run of a table that does not trace comes to what a run of the table comes to,
without the trace. -/
theorem start_hushed (g : Guest) (l : Linked) (streaming returnOnExit : Bool) (limits : Limits)
    (m : Machine (Hosted Work Session)) :
    start g l.silent streaming returnOnExit limits (m.onHost hushed) =
      (start g l streaming returnOnExit limits m).hushed := by
  rw [start_eq, start_eq, echoes_runGuest g l streaming limits m]
  cases runGuest g l streaming limits m <;> rfl

/-- Whether the imports are traced is a matter of the trace alone. -/
theorem hushed_start_silent (g : Guest) (l : Linked) (streaming returnOnExit : Bool) (limits : Limits)
    (m : Machine (Hosted Work Session)) : (start g l.silent streaming returnOnExit limits m).hushed =
      (start g l streaming returnOnExit limits m).hushed := by
  rw [← start_hushed g l.silent, l.silent_silent, start_hushed]

end Session

end

end GuestHost
