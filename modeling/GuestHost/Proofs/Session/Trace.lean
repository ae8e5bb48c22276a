/-
  GuestHost.Proofs.Session.Trace — what the trace of a run tells of the guest's calls.

  The wrapper of a traced import writes a line when it is through. Where the output is buffered it runs once for each
  call, so the trace has one line for each call of the program, in their order, with what the program got for it.
  Where the output is streamed it runs twice for a call that waits: the pass that unwinds the guest returns a
  placeholder, and its line says that the call came to zero. Such a line stands for no result that the program sees,
  and because of it the two traces differ.

  The calls that wait are the writes of bytes to a standard descriptor (`movesBytes`). Which calls the program makes is
  told by a listener beside its run (`Guest.importCalls`), and nothing about the trace is assumed for that.

  Proved:
  - `Linked.tells`: each pass through an import writes one line, whether it returns or fails.
  - `Linked.foresees`: the listener knows which calls wait.
  - `every_pass_through_an_import_is_traced`: the traces of both runs, when they are the same, and that a run without
    the trace ends alike.
-/

import GuestHost.Proofs.Asyncify.Retelling
import GuestHost.Proofs.Session.Hushed

namespace GuestHost

open Exec

/-! ## Calls that wait -/

/-- Whether the arguments are those of a write that moves some bytes to a sink. -/
def movesBytes (memory : Memory) (stdio : Stdio) (args : List Value) : Bool :=
  match wordArg args 0, wordArg args 1, wordArg args 2, wordArg args 3 with
  | .ok fd, .ok array, .ok count, .ok _ =>
    match memory.readIoVecs array count with
    | .ok buffers =>
      match memory.gather buffers, stdio.get? fd.toNat with
      | .ok views, some (.bufferedOutput _) => views.any fun v => v.size != 0
      | _, _ => false
    | .error _ => false
  | _, _, _, _ => false

theorem movesBytes_iff {memory : Memory} {stdio : Stdio} {args : List Value} :
    movesBytes memory stdio args = true ↔ Moves memory stdio args := by
  constructor
  · intro h
    unfold movesBytes at h
    split at h
    · next fd array count result hfd harray hcount hresult =>
      split at h
      · next buffers hbuffers =>
        split at h
        · next views w hviews hout =>
          obtain ⟨v, hv, hsize⟩ := List.any_eq_true.1 h
          exact ⟨fd, array, count, result, buffers, views, w, hfd, harray, hcount, hresult, hbuffers, hviews, hout, v,
            hv, by simpa using hsize⟩
        · cases h
      · cases h
    · cases h
  · rintro ⟨fd, array, count, result, buffers, views, w, hfd, harray, hcount, hresult, hbuffers, hviews, hout, v, hv,
      hsize⟩
    simp only [movesBytes, hfd, harray, hcount, hresult, hbuffers, hviews, hout]
    exact List.any_eq_true.2 ⟨v, hv, by simpa using hsize⟩

/-- Bytes that are written to a streaming output have to wait. -/
theorem Descriptor.Twin.writev_pending {w : BufferedOutput} {d : Descriptor} (h : Twin (.bufferedOutput w) d)
    {views : List View} (hsome : ∃ v ∈ views, v.size ≠ 0) :
    ∃ chunks, Descriptor.writev views d = .ok (.pending chunks) d := by
  cases h with
  | output hp hsink =>
    obtain ⟨v, hv, hsize⟩ := hsome
    have hmem : v.toList ∈ (views.filter fun v => v.size != 0).map View.toList :=
      List.mem_map_of_mem (List.mem_filter.2 ⟨hv, by simpa using hsize⟩)
    cases hchunks : (views.filter fun v => v.size != 0).map View.toList with
    | nil =>
      rw [hchunks] at hmem
      cases hmem
    | cons c rest => exact ⟨c :: rest, by simp only [Descriptor.writev, hchunks]⟩

/-- A write that moves bytes suspends a session that streams. -/
theorem HostCall.writeStream_of_moves {b : Bridge Work} {m₁ m₂ : Machine (Hosted Work Session)} (h : Coupled b m₁ m₂)
    {args : List Value} (hmoves : Moves m₁.memory m₁.outer.host.stdio args) :
    ∃ work n, writeStream args m₂ = .ok (.suspend work) n := by
  obtain ⟨fd, array, count, result, buffers, views, w, hfd, harray, hcount, hresult, hbuffers, hviews, hout, hsome⟩ :=
    hmoves
  rcases h.host.stdio.get? fd.toNat with ⟨hnone, -⟩ | ⟨d₁, d₂, hd₁, hd₂, htwin⟩
  · rw [hout] at hnone
    cases hnone
  · rw [hout] at hd₁
    cases hd₁
    obtain ⟨chunks, hpending⟩ := htwin.writev_pending hsome
    refine ⟨.write fd.toNat chunks result, (m₂.noting (.offered fd.toNat views)).putStream fd.toNat d₂, ?_⟩
    rw [writeStream_of_words hfd harray hcount hresult,
      writeStream_of_ok (h.memory ▸ hbuffers) (h.memory ▸ hviews) (Stdio.lt_of_get? hout)]
    exact bind_of_ok (Session.onStream_of_ok (m := m₂.noting (.offered fd.toNat views)) _ hd₂ hpending)

/-- The import of writes suspends a session that streams for a write that moves bytes. -/
theorem Linked.handle_of_moves (l : Linked) {e : Entry} (he : ImportTable.serviceOf e.signature = some e.service)
    (hname : e.signature.name = "fd_write") {b : Bridge Work} {m₁ m₂ : Machine (Hosted Work Session)}
    (h : Coupled b m₁ m₂) {args : List Value} (hmoves : Moves m₁.memory m₁.outer.host.stdio args) :
    ∃ work n, l.handle e args m₂ = .ok (.suspend work) n := by
  have hservice : e.service = .byDescriptor .fdWrite := by
    simp only [ImportTable.serviceOf, hname] at he
    exact (Option.some.inj he).symm
  obtain ⟨fd, _, _, _, _, _, w, hfd, -, -, -, -, -, hout, -⟩ := id hmoves
  have hstandard : fd < firstFilesystemDescriptor := UInt32.lt_iff_toNat_lt.2 (Stdio.lt_of_get? hout)
  obtain ⟨work, n, hwrite⟩ := HostCall.writeStream_of_moves (h.noting (.handled e.signature.name args)
    (.handled e.signature.name args)) hmoves
  have hword : HostCall.word args 0 = pure fd := HostCall.word_of_ok hfd
  refine ⟨work, n, ?_⟩
  unfold handle
  rw [bind_of_ok (show Session.mark _ m₂ = .ok () (m₂.noting _) from rfl), hservice]
  simp only [hword, pure_bind, if_pos hstandard]
  exact hwrite

/-- Where the second import suspends, the first has made the write. -/
theorem Serves.of_suspend {b : Bridge Work} {c : Core} {p : Prop} {n₂ : Machine (Hosted Work Session)} {work : Work}
    {r₁ r₂ : EStateM.Result Failure (Machine (Hosted Work Session)) (Reply Work)} (h : Serves b c p r₁ r₂)
    (hr₂ : r₂ = .ok (.suspend work) n₂) : ∃ w n₁, r₁ = .ok (.ready w) n₁ ∧ Stored b c w n₁ work n₂ := by
  subst hr₂
  rcases h with htogether | ⟨-, w, n₁, work', n, hr₁, hr₂, hstored⟩
  · rcases htogether.cases with ⟨_, _, _, _, -, hr₂, ⟨rfl, w, rfl⟩, -⟩ | ⟨_, _, _, -, hr₂, -⟩ <;> cases hr₂
  · cases hr₂
    exact ⟨w, n₁, hr₁, hstored⟩

/-! ## The lines of a pass -/

/-- The one import of the surface that has no result is the exit. -/
theorem Signature.exit_of_no_result :
    ∀ s ∈ table, s.result = false → s.name = "proc_exit" ∧ s.route = .host := by decide

namespace Linked

def passLine (target : ImportName) (args : List Value) (r : Except Failure UInt32) : LogLine :=
  traceLine target.name args r

/-- A listener to the imports of the table, which knows the writes that move bytes. -/
def ear (l : Linked) : Listener (Hosted Work Session) Bool where
  hears target := (l.table.find? target.name).isSome
  sees target args m := target.name == "fd_write" && movesBytes m.memory m.outer.host.stdio args

variable {l : Linked} {e : Entry} {args : List Value} {m m' : Machine (Hosted Work Session)} {g : Guest}
  {limits : Limits}

theorem trace_traced (he : e.traced = true) (args : List Value) (r : Except Failure UInt32)
    (m : Machine (Hosted Work Session)) :
    (traced e args r m).outer.host.trace = m.outer.host.trace ++ [traceLine e.signature.name args r] := by
  simp only [traced, tracing, he, if_true, Session.trace, Array.toList_push, List.filter_append]
  rfl

/-- Until its line is written, a pass through an import leaves the trace alone. -/
theorem trace_value (hg : g.controls = {}) (call : ImportName → List Value → Act (List Value))
    (h : Leads (l.value (g.controlsWith limits call) e args) m m') : m'.outer.host.trace = m.outer.host.trace :=
  Blind.trace (fun _ hφ => l.echoes_value e args (Guest.echo_usual hg limits call) (l.blind_handle hφ e args)) h

/-- A pass that returns a result leaves its line. -/
theorem trace_call_of_ok (he : e.traced = true) (hg : g.controls = {})
    {call : ImportName → List Value → Act (List Value)} {vs : List Value}
    (h : l.call (g.controlsWith limits call) e args m = .ok vs m') (hvs : vs ≠ []) :
    m'.outer.host.trace = m.outer.host.trace ++ [traceLine e.signature.name args (.ok (resultWord vs))] := by
  cases hv : l.value (g.controlsWith limits call) e args m with
  | error f n => rw [call_of_error hv] at h; cases h
  | ok w n =>
    rw [call_of_ok hv] at h
    cases h
    have hresult : e.signature.result = true := Decidable.byContradiction fun hne => hvs (if_neg hne)
    show (traced e args (.ok w) n).outer.host.trace = _
    rw [trace_traced he, trace_value hg call (.inl ⟨w, hv⟩), if_pos hresult]
    rfl

/-- So does a pass that fails. -/
theorem trace_call_of_error (he : e.traced = true) (hg : g.controls = {})
    {call : ImportName → List Value → Act (List Value)} {f : Failure}
    (h : l.call (g.controlsWith limits call) e args m = .error f m') :
    m'.outer.host.trace = m.outer.host.trace ++ [traceLine e.signature.name args (.error f)] := by
  cases hv : l.value (g.controlsWith limits call) e args m with
  | ok w n => rw [call_of_ok hv] at h; cases h
  | error f n =>
    rw [call_of_error hv] at h
    cases h
    show (traced e args (.error f) n).outer.host.trace = _
    rw [trace_traced he, trace_value hg call (.inr ⟨f, hv⟩)]

/-- Each pass through an import writes one line: what the import was called with, and what it returns or how it
fails. -/
theorem tells (hl : ∀ e ∈ l.table, e.traced = true) (hg : g.controls = {}) (hdepth : 0 < limits.depth) :
    Tells l.ear.hears passLine (fun o : Hosted Work Session => o.host.trace)
      (g.callImport limits l.host limits.depth) := by
  obtain ⟨depth, hdepth⟩ : ∃ depth, limits.depth = depth + 1 := ⟨limits.depth - 1, by omega⟩
  rw [hdepth]
  have hanswer (target : ImportName) (args : List Value) : g.callImport limits l.host (depth + 1) target args =
      l.host.answer (g.controlsWith limits (g.callImport limits l.host depth)) target args := rfl
  constructor
  · intro target args m vs m' h hvs
    rw [hanswer] at h
    cases hfind : l.table.find? target.name with
    | none => rw [answer_of_none hfind] at h; cases h
    | some e =>
      rw [answer_of_some hfind] at h
      rw [if_pos (show l.ear.hears target = true by simp only [ear, hfind, Option.isSome_some]), passLine,
        ← name_of_find hfind]
      exact trace_call_of_ok (hl e (List.mem_of_find?_eq_some hfind)) hg h hvs
  · intro target args m f m' h
    rw [hanswer] at h
    cases hfind : l.table.find? target.name with
    | none =>
      rw [answer_of_none hfind] at h
      cases h
      rw [if_neg (by simp [ear, hfind]), List.append_nil]
    | some e =>
      rw [answer_of_some hfind] at h
      rw [if_pos (show l.ear.hears target = true by simp only [ear, hfind, Option.isSome_some]), passLine,
        ← name_of_find hfind]
      exact trace_call_of_error (hl e (List.mem_of_find?_eq_some hfind)) hg h

/-- Under the bridge too. -/
theorem streaming_tells (hl : ∀ e ∈ l.table, e.traced = true) (hg : g.controls = {}) (hdepth : 0 < limits.depth) :
    Tells l.ear.hears passLine (fun o : Hosted Work Session => o.host.trace)
      (g.callImport limits l.streaming.host limits.depth) := by
  have hhears : l.streaming.ear.hears = l.ear.hears := by
    funext target
    show (ImportTable.find? (l.table.map Entry.bridge) target.name).isSome = _
    rw [ImportTable.find?_map (φ := Entry.bridge) (fun _ => rfl), Option.isSome_map]
    rfl
  rw [← hhears]
  refine l.streaming.tells (fun e he => ?_) hg hdepth
  obtain ⟨e', he', rfl⟩ := List.mem_map.1 he
  exact hl e' he'

/-! ## Calls and their passes -/

/-- An import that has no result does not return. -/
theorem result_of_value (hl : l.Genuine) (he : e ∈ l.table) {controls : Controls (Hosted Work Session)} {w : UInt32}
    (h : l.value controls e args m = .ok w m') : e.signature.result = true := by
  refine Decidable.byContradiction fun hne => ?_
  obtain ⟨hname, hroute⟩ := Signature.exit_of_no_result _ (hl.surface e he) (Bool.eq_false_iff.2 hne)
  have hservice : e.service = .host .procExit := by
    have := hl.services e he
    simp only [ImportTable.serviceOf, hname, hroute, HostCall.ofName?] at this
    exact (Option.some.inj this).symm
  have hhandle : l.handle e args m =
      HostCall.run l.around .procExit args (m.noting (.handled e.signature.name args)) := by
    unfold handle
    rw [hservice]
    rfl
  rw [value_direct (hl.direct e he), bind_apply, hhandle] at h
  rcases HostCall.word_eq args 0 with ⟨code, -, hword⟩ | ⟨f, -, hword⟩ <;>
    (simp only [HostCall.run, hword] at h; cases h)

theorem results_ne_nil (hl : l.Genuine) {depth : Nat} {target : ImportName} {vs : List Value}
    (h : g.callImport limits l.host depth target args m = .ok vs m') : vs ≠ [] := by
  cases depth with
  | zero => cases h
  | succ depth =>
    replace h : l.host.answer (g.controlsWith limits (g.callImport limits l.host depth)) target args m = .ok vs m' := h
    cases hfind : l.table.find? target.name with
    | none => rw [answer_of_none hfind] at h; cases h
    | some e =>
      rw [answer_of_some hfind] at h
      cases hv : l.value (g.controlsWith limits (g.callImport limits l.host depth)) e args m with
      | error f n => rw [call_of_error hv] at h; cases h
      | ok w n =>
        rw [call_of_ok hv, result_of_value hl (List.mem_of_find?_eq_some hfind) hv] at h
        cases h
        exact List.cons_ne_nil _ _

/-- A write of bytes returns where the output is buffered; under the bridge the guest gets the placeholder and is to
unwind. -/
theorem call_of_moves (hl : l.Genuine) (he : e ∈ l.table) (hname : e.signature.name = "fd_write")
    (hg : g.controls = {}) {m₁ m₂ : Machine (Hosted Work Session)} (hstands : Stands Mirrors m₁ m₂) (hawake : Awake m₁)
    (hmoves : Moves m₁.memory m₁.outer.host.stdio args) (controls : Controls (Hosted Work Session))
    (call : ImportName → List Value → Act (List Value)) :
    (∃ vs n, l.call controls e args m₁ = .ok vs n) ∧ ∃ (n : Machine (Hosted Work Session)) (work : Work),
      l.streaming.call (g.controlsWith limits call) e.bridge args m₂ = .ok placeholder n ∧
        n.outer.bridge.phase = .unwinding work := by
  have hcoupled : Coupled (beginning m₂).outer.bridge m₁ (beginning m₂) := ⟨hstands.core, rfl, hstands.host⟩
  obtain ⟨work, n₂, hsuspend⟩ := l.handle_of_moves (hl.services e he) hname hcoupled hmoves
  obtain ⟨w, n₁, hready, hstored⟩ := (l.serves_handle (hl.services e he) hcoupled args).of_suspend hsuspend
  have hv : l.value controls e args m₁ = .ok w n₁ := by
    rw [value_direct (hl.direct e he), bind_of_ok hready]
    rfl
  have hbridge : n₂.outer.bridge.phase = .normal := by
    rw [hstored.bridge]
    exact hstands.phase
  exact ⟨⟨_, _, call_of_ok hv⟩, _, work, l.call_of_suspend limits call args hg
    (result_of_fdWrite _ (hl.surface e he) hname) hstands.bound (hstands.globals ▸ hawake.state) hsuspend hbridge, rfl⟩

/-- The listener knows which calls a session that streams lets wait. -/
theorem foresees (hl : l.Genuine) (hwrites : (l.table.find? "fd_write").isSome) (hg : g.controls = {})
    (hdepth : 0 < limits.depth) :
    l.ear.Foresees Mirrors pauses (g.callImport limits l.host limits.depth)
      (g.callImport limits l.streaming.host limits.depth) := by
  obtain ⟨depth, hdepth⟩ : ∃ depth, limits.depth = depth + 1 := ⟨limits.depth - 1, by omega⟩
  rw [hdepth]
  constructor
  · rintro target args m c ⟨-, hname, hmoves⟩
    simp only [ear, hname, beq_self_eq_true, movesBytes_iff.2 hmoves, Bool.and_self]
  · intro target args m₁ m₂ hstands hawake hwaits
    obtain ⟨hname, hmoves⟩ : target.name = "fd_write" ∧ Moves m₁.memory m₁.outer.host.stdio args := by
      simpa only [ear, Bool.and_eq_true, beq_iff_eq, movesBytes_iff] using hwaits
    obtain ⟨e, hfind⟩ := Option.isSome_iff_exists.1 hwrites
    rw [← hname] at hfind
    have hstreaming : l.streaming.table.find? target.name = some e.bridge :=
      (ImportTable.find?_map (φ := Entry.bridge) (fun _ => rfl) l.table target.name).trans (congrArg _ hfind)
    obtain ⟨⟨vs, n₁, hcall₁⟩, n₂, work, hcall₂, hphase⟩ := call_of_moves hl (List.mem_of_find?_eq_some hfind)
      ((name_of_find hfind).trans hname) hg hstands hawake hmoves
      (g.controlsWith limits (g.callImport limits l.host depth)) (g.callImport limits l.streaming.host depth)
    exact ⟨by simp only [ear, hfind, Option.isSome_some],
      ⟨vs, n₁, (congrFun (answer_of_some hfind) m₁).trans hcall₁⟩, n₂, work,
      (congrFun (answer_of_some hstreaming) m₂).trans hcall₂, hphase⟩

end Linked

/-! ## Tables that were installed -/

namespace ImportTable

variable {fs : FilesystemModule} {bridged traced : Bool} {t t' : ImportTable}

theorem traced_of_install (h : install fs bridged traced [] = .ok t) : ∀ e ∈ t, e.traced = traced := by
  have hsame : install fs bridged traced [] = .ok (t.map fun e => { e with traced }) :=
    foldlM_map (φ := fun e => { e with traced }) (fun _ => rfl) (fun _ _ => rfl) Signature.table h
  have hmap : t = t.map fun e => { e with traced } := Except.ok.inj (h.symm.trans hsame)
  intro e he
  rw [hmap] at he
  obtain ⟨e', -, rfl⟩ := List.mem_map.1 he
  rfl

/-- The table that does not trace is the one that does, silenced. -/
theorem install_silent (h : install fs bridged true [] = .ok t) (h' : install fs bridged false [] = .ok t') :
    t' = t.map Entry.silent := by
  have hsilent : install fs bridged false [] = .ok (t.map Entry.silent) :=
    foldlM_map (φ := Entry.silent) (fun _ => rfl) (fun _ _ => rfl) Signature.table h
  exact Except.ok.inj (h'.symm.trans hsilent)

theorem find?_of_install (h : install fs bridged traced [] = .ok t) {name : String}
    (hname : ∃ s ∈ Signature.table, s.name = name) : (t.find? name).isSome := by
  obtain ⟨s, hs, rfl⟩ := hname
  rw [← (install_installed h).1] at hs
  obtain ⟨e, he, rfl⟩ := List.mem_map.1 hs
  exact List.find?_isSome.2 ⟨e, he, beq_self_eq_true _⟩

end ImportTable

/-! ## Runs -/

/-- The guest, which stands ready in a session, can be suspended when it calls an import. It may well look at the place
of the header. -/
structure Guest.CanSuspend (g : Guest) (l : Linked) (limits : Limits) (m : Machine (Hosted Work Session)) : Prop where
  instrumented : g.instrumented = true
  controls : g.controls = {}
  obeys : g.obeysUnwind = true
  exports : ∀ x ∈ Guest.bridgeExports, g.exportType? x.1 = some x.2
  exportsMemory : g.exportsMemory = true
  /-- The guest numbers its statements by words. -/
  numbered : g.body.length < UInt32.size
  page : pageSize ≤ m.memory.size
  starts : AtTurn 0 m
  /-- With the header there, the run that is not suspended comes to statements only that can be replayed. -/
  statements : Replayable (g.setting limits g.obeysUnwind (g.callImport limits l.host limits.depth)) Linked.pauses [] 0
    g.body freshLocals m.headed

theorem Guest.CanStream.canSuspend {g : Guest} {l : Linked} {limits : Limits} {m : Machine (Hosted Work Session)}
    (h : g.CanStream l limits m) : g.CanSuspend l limits m :=
  ⟨h.instrumented, h.controls, h.obeys, h.exports, h.exportsMemory, h.numbered, h.page, h.starts, h.statements⟩

/-- The calls that the guest makes of the imports of a table, in the order in which it makes them. -/
def Guest.importCalls (g : Guest) (l : Linked) (limits : Limits) (m : Machine (Hosted Work Session)) :
    List (Heard Bool) :=
  g.calls limits l.ear (g.callImport limits l.host limits.depth) m

def Session.Ended.trace (ended : Session.Ended) : List LogLine := ended.machine.outer.host.trace

namespace Linked

variable {l : Linked} {g : Guest} {limits : Limits} {m : Machine (Hosted Work Session)}

/-- The trace of a run that buffers has one line for each call. -/
theorem trace_buffering (hl : l.Genuine) (htraced : ∀ e ∈ l.table, e.traced = true) (hg : g.CanSuspend l limits m)
    (hdepth : 0 < limits.depth) (hpre : ∀ fd d, m.outer.host.stdio.get? fd = some d → Descriptor.preRun d = .ok () d)
    (returnOnExit : Bool) : (Session.start g l false returnOnExit limits m).trace =
      m.outer.host.trace ++ (g.importCalls l limits m).map (Heard.line passLine) := by
  have htold := g.told_entryWith limits m (l.tells htraced hg.controls hdepth) fun _ _ _ _ _ => l.results_ne_nil hl
  rw [Session.start_eq, runGuest_entered hg.exports hg.exportsMemory hpre, Guest.entryOf]
  cases hr : g.entryWith limits (g.callImport limits l.host limits.depth) m with
  | ok _ n =>
    rw [hr] at htold
    exact htold
  | error e n =>
    rw [hr] at htold
    exact htold

/-- The trace of a run that streams has one line for each pass of a call. -/
theorem trace_streaming (hl : l.Genuine) (hwrites : (l.table.find? "fd_write").isSome)
    (htraced : ∀ e ∈ l.table, e.traced = true) (hg : g.CanSuspend l limits m) (hturns : g.body.length ≤ limits.turns)
    (hdepth : 0 < limits.depth) {s : Session} (hs : m.outer.host.Twin s) (returnOnExit : Bool) :
    (Session.start g l.streaming true returnOnExit limits (m.core.within { host := s })).trace =
      s.trace ++ (g.importCalls l limits m.headed).flatMap (Heard.passes passLine) := by
  let code := g.setting limits g.obeysUnwind (g.callImport limits l.host limits.depth)
  have hstands : Stands Mirrors m.headed (m.boundTo s) := ⟨⟨rfl, hs⟩, rfl, rfl⟩
  let listened := Guest.runStatements (code.serving (l.ear.hear code.call)) 0 g.body freshLocals
  have hcalls : g.importCalls l limits m.headed = heardIn (listened (m.headed.withCalls [])) := by
    rw [Guest.importCalls, Guest.calls, Guest.entryWith, if_pos hg.instrumented]
    rfl
  have hretold : Agrees (Retold Mirrors passLine Session.trace s.trace)
      (Over (Retold Mirrors passLine Session.trace s.trace)) (listened (m.headed.withCalls []))
      (Session.runGuest g l.streaming true limits (m.core.within { host := s })) := by
    rw [runGuest_bridged hg.exports hg.exportsMemory hg.page hs.preRun.2, Guest.runBridged,
      entryOf_statements hg.instrumented]
    exact Guest.retold_callEntrypoint (s := code) limits (g.callImport limits l.streaming.host limits.depth) hg.controls
      hg.obeys (l.indifferent limits hl hg.controls) (l.foresees hl hwrites hg.controls hdepth)
      (l.streaming_tells htraced hg.controls hdepth) (fun _ _ _ _ _ => l.results_ne_nil hl)
      (fun work _ _ _ h => Blind.trace (fun _ _ => work.blind_log) (.inl ⟨_, h⟩)) hg.numbered hstands hg.starts.headed
      hg.statements hturns
  rw [Session.start_eq, hcalls]
  rcases hretold.cases with ⟨_, n₁, n₂, hdirect, hrun, hover⟩ | ⟨e, n₁, n₂, hdirect, hrun, hmatches⟩
  · rw [hdirect, hrun]
    exact hover.1.host.2
  · rw [hdirect, hrun]
    exact hmatches.host.2

end Linked

/-- What the traces of a run that buffers and of one that streams tell of the calls that the program makes. -/
structure TracesPasses (g : Guest) (l : Linked) (limits : Limits) (m : Machine (Hosted Work Session))
    (buffered streamed : Session.Ended) : Prop where
  /-- The run that buffers has a line for each call. -/
  buffering : buffered.trace = m.outer.host.trace ++ (g.importCalls l limits m).map (Heard.line Linked.passLine)
  /-- The run that streams has two lines for each call that waits, the first of them with the placeholder. -/
  streaming : streamed.trace =
    m.outer.host.trace ++ (g.importCalls l limits m.headed).flatMap (Heard.passes Linked.passLine)
  /-- So for a program that does the same with the header in its memory, the traces are the same only if no call
  waits. -/
  same : g.importCalls l limits m.headed = g.importCalls l limits m →
    (streamed.trace = buffered.trace ↔ ∀ h ∈ g.importCalls l limits m, h.waits = false)

/-- An import is traced when the program passes through it, and the program passes twice through one that waits. The
trace is all that there is to tracing: without it the run ends alike. -/
theorem every_pass_through_an_import_is_traced (o : Options) (fs : Filesystem) (around : Surroundings) (g : Guest)
    (limits : Limits) (s : Session) (c : Core) {buffering streaming : ImportTable} (hin : o.stdin = none)
    (hout : ∀ p, o.stdout = some p → p.Faultless) (herr : ∀ p, o.stderr = some p → p.Faultless)
    (hbuffering : ImportTable.install fs.module false true [] = .ok buffering)
    (hstreaming : ImportTable.install fs.module true true [] = .ok streaming)
    (hg : g.CanSuspend ⟨buffering, fs, around⟩ limits (o.launch false s c)) (hturns : g.body.length ≤ limits.turns)
    (hdepth : 0 < limits.depth) :
    TracesPasses g ⟨buffering, fs, around⟩ limits (o.launch false s c)
        (Session.start g ⟨buffering, fs, around⟩ false o.returnOnExit limits (o.launch false s c))
        (Session.start g ⟨streaming, fs, around⟩ true o.returnOnExit limits (o.launch true s c)) ∧
      ∀ (bridged : Bool) (traced silent : ImportTable), ImportTable.install fs.module bridged true [] = .ok traced →
        ImportTable.install fs.module bridged false [] = .ok silent →
        (Session.start g ⟨silent, fs, around⟩ bridged o.returnOnExit limits (o.launch bridged s c)).hushed =
          (Session.start g ⟨traced, fs, around⟩ bridged o.returnOnExit limits (o.launch bridged s c)).hushed := by
  have htwin := o.twin_launch hin hout herr s c
  have hl : Linked.Genuine ⟨buffering, fs, around⟩ := Linked.genuine_of_install hbuffering
  have htraced := ImportTable.traced_of_install hbuffering
  have hbuffered := Linked.trace_buffering hl htraced hg hdepth htwin.preRun.1 o.returnOnExit
  have htable : (⟨streaming, fs, around⟩ : Linked) = Linked.streaming ⟨buffering, fs, around⟩ := by
    rw [ImportTable.install_bridge hbuffering hstreaming]
    rfl
  have hstreamed : (Session.start g ⟨streaming, fs, around⟩ true o.returnOnExit limits (o.launch true s c)).trace =
      s.trace ++ (g.importCalls ⟨buffering, fs, around⟩ limits (o.launch false s c).headed).flatMap
        (Heard.passes Linked.passLine) := by
    rw [htable]
    exact Linked.trace_streaming hl (ImportTable.find?_of_install hbuffering (by decide)) htraced hg hturns hdepth htwin
      o.returnOnExit
  refine ⟨⟨hbuffered, hstreamed, fun hsame => ?_⟩, fun bridged traced silent htraced hsilent => ?_⟩
  · rw [hbuffered, hstreamed, hsame, ← flatMap_passes_eq_iff Linked.passLine]
    exact List.append_right_inj _
  · rw [ImportTable.install_silent htraced hsilent]
    exact Session.hushed_start_silent g ⟨traced, fs, around⟩ bridged o.returnOnExit limits _

/-- The imports of the herald with the trace on, under the bridge or not. -/
def heraldTraced (bridged : Bool) : ImportTable := (ImportTable.install .standard bridged true []).toOption.getD []

def heraldTracedRun (streaming : Bool) : Session.Ended :=
  Session.start herald ⟨heraldTraced streaming, heraldFilesystem, ⟨0, fun _ => some 0⟩⟩ streaming true ⟨4, 1⟩
    (heraldOptions.launch streaming heraldSession heraldCore)

set_option maxRecDepth 4000

theorem installed_heraldTraced (bridged : Bool) :
    ImportTable.install .standard bridged true [] = .ok (heraldTraced bridged) := by
  cases bridged
  · exact eq_ok_of_toOption (by decide +kernel)
  · exact eq_ok_of_toOption (by decide +kernel)

theorem herald_canSuspend {l : Linked} (hl : l.Genuine) :
    herald.CanSuspend l ⟨4, 1⟩ (heraldOptions.launch false heraldSession heraldCore) :=
  { herald_canStream.canSuspend with
    statements := herald_replayable hl herald_canStream.starts.headed.toAwake }

theorem genuine_heraldTraced : Linked.Genuine ⟨heraldTraced false, heraldFilesystem, ⟨0, fun _ => some 0⟩⟩ :=
  Linked.genuine_of_install (installed_heraldTraced false)

/-- The herald makes three calls, of which two wait. -/
theorem a_herald_passes_five_times :
    TracesPasses herald ⟨heraldTraced false, heraldFilesystem, ⟨0, fun _ => some 0⟩⟩ ⟨4, 1⟩
        (heraldOptions.launch false heraldSession heraldCore) (heraldTracedRun false) (heraldTracedRun true) ∧
      (heraldTracedRun true).trace =
        [.call "fd_write(1, 2048, 1, 2080) = 0", .call "fd_write(1, 2048, 1, 2080) = 0",
          .call "fd_write(2, 2056, 1, 2084) = 0", .call "fd_write(2, 2056, 1, 2084) = 0",
          .call "proc_exit(7) = Error(proc_exit=7)"] := by
  have htraces := every_pass_through_an_import_is_traced heraldOptions heraldFilesystem ⟨0, fun _ => some 0⟩ herald
    ⟨4, 1⟩ heraldSession heraldCore rfl heraldOptions_faultless.1 heraldOptions_faultless.2
    (installed_heraldTraced false) (installed_heraldTraced true) (herald_canSuspend genuine_heraldTraced) (by decide)
    (by decide)
  exact ⟨htraces.1, by decide +kernel⟩

/-- Though the herald can be suspended, each of its two writes has a line more where the output is streamed. -/
theorem a_write_that_waits_is_traced_twice :
    herald.CanSuspend ⟨heraldTraced false, heraldFilesystem, ⟨0, fun _ => some 0⟩⟩ ⟨4, 1⟩
        (heraldOptions.launch false heraldSession heraldCore) ∧
      (heraldTracedRun false).trace =
        [.call "fd_write(1, 2048, 1, 2080) = 0", .call "fd_write(2, 2056, 1, 2084) = 0",
          .call "proc_exit(7) = Error(proc_exit=7)"] ∧
      (heraldTracedRun true).trace ≠ (heraldTracedRun false).trace :=
  ⟨herald_canSuspend genuine_heraldTraced, by decide +kernel⟩

end GuestHost
