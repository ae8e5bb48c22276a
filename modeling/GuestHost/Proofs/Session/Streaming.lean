/-
  GuestHost.Proofs.Session.Streaming — a run that streams its output comes to what a run that buffers it does.

  The buffered run enters the guest once, without the bridge, and delivers the output at the end. The streaming
  run writes the header of the unwind data into the guest's memory, and then suspends the guest for every write
  that moves bytes. For a guest that can be replayed and whose run leaves the place of the header alone, both
  end alike (`SameRun`): the same result but for the diagnostics of a fatal failure, the same memory but for the
  header, the same globals, record and filesystem module; and every sink has taken the same bytes and was shut
  down once, after the last of them.

  Proved:
  - `ImportTable.install_bridge`: the table of a streaming session is that of a buffered one, under the bridge.
  - `Guest.canStream_of_apart`: a guest that does not reach the place of the header can be run in both sessions.
  - `agrees_runGuest`: the guest is run alike in both sessions, once the header is there.
  - `streaming_comes_to_what_buffering_does`: so are the runs as a whole.
-/

import GuestHost.Session.Run
import GuestHost.Proofs.Session.Ending
import GuestHost.Proofs.Session.Header

namespace GuestHost

open Exec

/-! ## The two import tables -/

namespace ImportTable

theorem installOne_eq {fs : FilesystemModule} {bridged traced : Bool} {t t' : ImportTable} {s : Signature}
    (h : installOne fs bridged traced t s = .ok t') :
    ∃ service, serviceOf s = some service ∧ (Service.needsExport service && (fs.function? s.name).isNone) = false ∧
      (t.find? s.name).isSome = false ∧ t' = t ++ [⟨s, service, bridged, traced⟩] := by
  unfold installOne at h
  cases hservice : serviceOf s with
  | none => rw [hservice] at h; cases h
  | some service =>
    rw [hservice] at h
    dsimp only at h
    split at h
    · cases h
    · next hexport =>
      unfold define at h
      split at h
      · cases h
      · next hfree => cases h; exact ⟨service, rfl, Bool.eq_false_iff.2 hexport, Bool.eq_false_iff.2 hfree, rfl⟩

theorem installOne_of {fs : FilesystemModule} {t : ImportTable} {s : Signature} {service : Service}
    (hservice : serviceOf s = some service)
    (hexport : (Service.needsExport service && (fs.function? s.name).isNone) = false)
    (hfree : (t.find? s.name).isSome = false) (bridged traced : Bool) :
    installOne fs bridged traced t s = .ok (t ++ [⟨s, service, bridged, traced⟩]) := by
  unfold installOne
  simp only [hservice, hexport, define, hfree, Bool.false_eq_true, if_false]

/-- A change of the entries that leaves their names alone does not matter to a search. -/
theorem find?_map {φ : Entry → Entry} (hφ : ∀ e, (φ e).signature = e.signature) (t : ImportTable) (name : String) :
    find? (t.map φ) name = (t.find? name).map φ := by
  unfold find?
  rw [List.find?_map]
  simp only [Function.comp_def, hφ]

/-- Imports are put in alike, whether they run under the bridge and whether they are traced. -/
theorem foldlM_map {fs : FilesystemModule} {bridged bridged' traced traced' : Bool} {φ : Entry → Entry}
    (hφ : ∀ e, (φ e).signature = e.signature)
    (hnew : ∀ s service, φ ⟨s, service, bridged, traced⟩ = ⟨s, service, bridged', traced'⟩)
    (signatures : List Signature) {t t' : ImportTable}
    (h : signatures.foldlM (installOne fs bridged traced) t = .ok t') :
    signatures.foldlM (installOne fs bridged' traced') (t.map φ) = .ok (t'.map φ) := by
  induction signatures generalizing t with
  | nil => cases h; rfl
  | cons s rest ih =>
    rw [List.foldlM_cons] at h ⊢
    cases hone : installOne fs bridged traced t s with
    | error e => rw [hone] at h; cases h
    | ok t₁ =>
      rw [hone] at h
      obtain ⟨service, hservice, hexport, hfree, rfl⟩ := installOne_eq hone
      have hmapped := installOne_of (t := t.map φ) hservice hexport
        (by rw [find?_map hφ, Option.isSome_map]; exact hfree) bridged' traced'
      rw [hmapped]
      have := ih h
      rw [List.map_append, List.map_singleton, hnew] at this
      exact this

structure Installed (fs : FilesystemModule) (bridged : Bool) (e : Entry) : Prop where
  service : serviceOf e.signature = some e.service
  exported : (Service.needsExport e.service && (fs.function? e.signature.name).isNone) = false
  bridged : e.bridged = bridged

/-- Each signature gets its entry, in their order, behind those that are there. -/
theorem foldlM_installed {fs : FilesystemModule} {bridged traced : Bool} (signatures : List Signature)
    {t t' : ImportTable} (h : signatures.foldlM (installOne fs bridged traced) t = .ok t') :
    ∃ added, t' = t ++ added ∧ added.map Entry.signature = signatures ∧ ∀ e ∈ added, Installed fs bridged e := by
  induction signatures generalizing t with
  | nil => cases h; exact ⟨[], (List.append_nil _).symm, rfl, by simp⟩
  | cons s rest ih =>
    rw [List.foldlM_cons] at h
    cases hone : installOne fs bridged traced t s with
    | error e => rw [hone] at h; cases h
    | ok t₁ =>
      rw [hone] at h
      obtain ⟨service, hservice, hexport, -, rfl⟩ := installOne_eq hone
      obtain ⟨added, rfl, hsignatures, hadded⟩ := ih h
      refine ⟨⟨s, service, bridged, traced⟩ :: added, by simp, by rw [List.map_cons, hsignatures], ?_⟩
      intro e he
      rcases List.mem_cons.1 he with rfl | he
      · exact ⟨hservice, hexport, rfl⟩
      · exact hadded e he

theorem install_installed {fs : FilesystemModule} {bridged traced : Bool} {t : ImportTable}
    (h : install fs bridged traced [] = .ok t) :
    t.map Entry.signature = Signature.table ∧ ∀ e ∈ t, Installed fs bridged e := by
  obtain ⟨added, rfl, hsignatures, hadded⟩ := foldlM_installed Signature.table h
  exact ⟨hsignatures, hadded⟩

/-- The table of a session that streams is the table of one that buffers, under the bridge. -/
theorem install_bridge {fs : FilesystemModule} {traced : Bool} {t t' : ImportTable}
    (h : install fs false traced [] = .ok t) (h' : install fs true traced [] = .ok t') : t' = t.map Entry.bridge := by
  have hbridge : install fs true traced [] = .ok (t.map Entry.bridge) :=
    foldlM_map (φ := Entry.bridge) (fun _ => rfl) (fun _ _ => rfl) Signature.table h
  exact Except.ok.inj (h'.symm.trans hbridge)

end ImportTable

theorem Linked.genuine_of_install {fs : Filesystem} {around : Surroundings} {traced : Bool} {t : ImportTable}
    (h : ImportTable.install fs.module false traced [] = .ok t) : Genuine ⟨t, fs, around⟩ := by
  obtain ⟨hsignatures, hinstalled⟩ := ImportTable.install_installed h
  exact ⟨fun e he => hsignatures ▸ List.mem_map_of_mem he, fun e he => (hinstalled e he).service,
    fun e he => (hinstalled e he).bridged⟩

/-! ## The start of a run -/

/-- A guest that was loaded, in a session with these streams. -/
def Options.launch (o : Options) (streaming : Bool) (s : Session) (c : Core) : Machine (Hosted Work Session) :=
  c.within { host := { s with stdio := ({ o with streaming } : Options).stdio } }

theorem Options.twin_launch {o : Options} (hin : o.stdin = none) (hout : ∀ p, o.stdout = some p → p.Faultless)
    (herr : ∀ p, o.stderr = some p → p.Faultless) (s : Session) (c : Core) :
    (o.launch false s c).outer.host.Twin (o.launch true s c).outer.host where
  args := rfl
  env := rfl
  stdio := by
    refine ⟨?_, Descriptor.twin_ofSink hout, Descriptor.twin_ofSink herr⟩
    simp only [launch, Machine.outer_within, stdio, hin]
    exact .null
  filesystem := rfl
  reports := rfl
  drawn := rfl

namespace Session

/-- Where nothing is due on any stream, nothing is done before the guest runs. -/
theorem preRun_of_idle {m : Machine (Hosted Work Session)}
    (h : ∀ fd d, m.outer.host.stdio.get? fd = some d → Descriptor.preRun d = .ok () d) : preRun m = .ok () m := by
  have hstream (fd : Nat) : onStream fd () Descriptor.preRun m = .ok () m := by
    cases hd : m.outer.host.stdio.get? fd with
    | none => exact onStream_none _ _ hd
    | some d =>
      rw [onStream_some _ _ hd, h fd d hd]
      exact congrArg _ (Machine.putStream_same hd)
  unfold preRun
  rw [bind_of_ok (hstream 0), bind_of_ok (hstream 1)]
  exact hstream 2

theorem Twin.preRun {s₁ s₂ : Session} (h : s₁.Twin s₂) :
    (∀ fd d, s₁.stdio.get? fd = some d → Descriptor.preRun d = .ok () d) ∧
      ∀ fd d, s₂.stdio.get? fd = some d → Descriptor.preRun d = .ok () d := by
  constructor
  · intro fd d hd
    rcases h.stdio.get? fd with ⟨h₁, -⟩ | ⟨d₁, d₂, h₁, -, htwin⟩ <;> rw [h₁] at hd <;> cases hd
    exact htwin.preRun.1
  · intro fd d hd
    rcases h.stdio.get? fd with ⟨-, h₂⟩ | ⟨d₁, d₂, -, h₂, htwin⟩ <;> rw [h₂] at hd <;> cases hd
    exact htwin.preRun.2

end Session

namespace Guest

variable {κ η : Type} {g : Guest}

/-- A guest with all exports and a page of memory gets its bridge. -/
theorem bindBridge_ok (hexports : ∀ x ∈ bridgeExports, g.exportType? x.1 = some x.2) (hmemory : g.exportsMemory = true)
    {m : Machine (Hosted κ η)} (hpage : pageSize ≤ m.memory.size) :
    g.bindBridge m =
      .ok () (m.core.headed.within ⟨{ m.outer.bridge with bound := true, phase := .normal }, m.outer.host⟩) := by
  have hexport (l : List (String × FuncType)) (hl : ∀ x ∈ l, g.exportType? x.1 = some x.2) :
      (l.forM fun x => Exec.settle (g.requireExport x.1 x.2 (.bridge (.missingExport x.1))) :
        Exec (Hosted κ η) Unit) m = .ok () m := by
    induction l with
    | nil => rfl
    | cons x l ih =>
      have hx : g.requireExport x.1 x.2 (.bridge (.missingExport x.1)) = .ok () := by
        simp only [requireExport, hl x List.mem_cons_self, if_true]
      have hsettle : (Exec.settle (g.requireExport x.1 x.2 (.bridge (.missingExport x.1))) : Exec (Hosted κ η) Unit) m =
          .ok () m := by rw [hx]; rfl
      exact (bind_of_ok hsettle).trans (ih fun y hy => hl y (List.mem_cons_of_mem _ hy))
  have hholds : m.memory.holds unwindDataStart.toNat unwindHeader.length = true := by
    have hheader : unwindDataStart.toNat + unwindHeader.length ≤ pageSize := by decide
    exact decide_eq_true (Nat.le_trans hheader hpage)
  have hbind : (Bridge.bind : Exec (Hosted κ η) Unit) m =
      .ok () (m.core.headed.within ⟨{ m.outer.bridge with bound := true, phase := .normal }, m.outer.host⟩) := by
    have hset (n : Machine (Hosted κ η)) : (set n : Exec (Hosted κ η) Unit) m = .ok () n := rfl
    unfold Bridge.bind
    rw [bind_of_ok (get_apply m), if_pos hholds, hset, ← Memory.headed_eq]
    rfl
  unfold bindBridge
  rw [bind_of_ok (hexport bridgeExports hexports), if_pos hmemory, hbind]

end Guest

/-! ## Guests whose output can be streamed -/

/-- The guest, which stands ready in a session that buffers its output, can be run in one that streams it. -/
structure Guest.CanStream (g : Guest) (l : Linked) (limits : Limits) (m : Machine (Hosted Work Session)) : Prop where
  instrumented : g.instrumented = true
  controls : g.controls = {}
  obeys : g.obeysUnwind = true
  exports : ∀ x ∈ Guest.bridgeExports, g.exportType? x.1 = some x.2
  exportsMemory : g.exportsMemory = true
  /-- The guest numbers its statements by words. -/
  numbered : g.body.length < UInt32.size
  page : pageSize ≤ m.memory.size
  starts : AtTurn 0 m
  /-- Neither the guest nor an import on its behalf reads or writes the place of the header: the buffered run comes
  to the same with the header there as without, and leaves it there. -/
  untouched : LeavesHeaderAlone (Session.runGuest g l false limits m) (Session.runGuest g l false limits m.headed)
  /-- With the header there, the buffered run comes to statements only that can be replayed. -/
  statements : Replayable (g.setting limits g.obeysUnwind (g.callImport limits l.host limits.depth)) Linked.pauses [] 0
    g.body freshLocals m.headed

section

variable {g : Guest} {l : Linked} {limits : Limits} {m : Machine (Hosted Work Session)}

/-- The machine in another session, with the header in its memory and the bridge bound. -/
def Machine.boundTo (m : Machine (Hosted Work Session)) (s : Session) : Machine (Hosted Work Session) :=
  m.core.headed.within ⟨{ bound := true }, s⟩

theorem AtTurn.headed (h : AtTurn 0 m) : AtTurn 0 m.headed := ⟨⟨h.room, h.state⟩, h.progress⟩

/-- Where nothing is due on any stream, a run that buffers is one of the entry point. -/
theorem runGuest_entered (hexports : ∀ x ∈ Guest.bridgeExports, g.exportType? x.1 = some x.2)
    (hmemory : g.exportsMemory = true)
    (hpre : ∀ fd d, m.outer.host.stdio.get? fd = some d → Descriptor.preRun d = .ok () d) :
    Session.runGuest g l false limits m = g.entryOf limits l.host m := by
  have hexport : g.requireExport Guest.entryName ⟨[], []⟩ (.guestMissingExport Guest.entryName) = .ok () := by
    have hentry := hexports (Guest.entryName, ⟨[], []⟩) List.mem_cons_self
    simp only [Guest.requireExport, hentry, if_true]
  have hentry : (settle (g.requireExport Guest.entryName ⟨[], []⟩ (.guestMissingExport Guest.entryName)) : Act Unit) m =
      .ok () m := by rw [hexport]; rfl
  rw [Session.runGuest_buffering, if_pos hmemory, bind_of_ok (Session.preRun_of_idle hpre), bind_of_ok hentry]

/-- A buffered run that reaches nothing of the header, neither by the guest's code nor through an import, leaves it
alone. -/
theorem runGuest_leavesHeaderAlone (hl : l.Genuine)
    (hexports : ∀ x ∈ Guest.bridgeExports, g.exportType? x.1 = some x.2) (hmemory : g.exportsMemory = true)
    (hpage : pageSize ≤ m.memory.size)
    (hpre : ∀ fd d, m.outer.host.stdio.get? fd = some d → Descriptor.preRun d = .ok () d)
    (hapart : ∀ r ∈ g.reach l limits m, r.Apart unwindPatch) :
    LeavesHeaderAlone (Session.runGuest g l false limits m) (Session.runGuest g l false limits m.headed) := by
  have hheader : unwindPatch.start + unwindPatch.bytes.length ≤ pageSize := by decide
  rw [runGuest_entered hexports hmemory hpre, runGuest_entered (m := m.headed) hexports hmemory hpre]
  exact g.leavesHeaderAlone hl limits (Nat.le_trans hheader hpage) hapart

/-- A guest that reaches nothing of the header can be run in a session that streams, where its statements can be
replayed and nothing is due on its streams. -/
theorem Guest.canStream_of_apart (hl : l.Genuine)
    (hshape : g.instrumented = true ∧ g.controls = {} ∧ g.obeysUnwind = true)
    (hexports : ∀ x ∈ Guest.bridgeExports, g.exportType? x.1 = some x.2) (hmemory : g.exportsMemory = true)
    (hnumbered : g.body.length < UInt32.size) (hpage : pageSize ≤ m.memory.size) (hstarts : AtTurn 0 m)
    (hpre : ∀ fd d, m.outer.host.stdio.get? fd = some d → Descriptor.preRun d = .ok () d)
    (hapart : ∀ r ∈ g.reach l limits m, r.Apart unwindPatch)
    (hstatements : Replayable (g.setting limits g.obeysUnwind (g.callImport limits l.host limits.depth)) Linked.pauses
      [] 0 g.body freshLocals m.headed) :
    g.CanStream l limits m where
  instrumented := hshape.1
  controls := hshape.2.1
  obeys := hshape.2.2
  exports := hexports
  exportsMemory := hmemory
  numbered := hnumbered
  page := hpage
  starts := hstarts
  untouched := runGuest_leavesHeaderAlone hl hexports hmemory hpage hpre hapart
  statements := hstatements

/-- A run that streams is one under the bridge, once the header is there. -/
theorem runGuest_bridged (hexports : ∀ x ∈ Guest.bridgeExports, g.exportType? x.1 = some x.2)
    (hmemory : g.exportsMemory = true) (hpage : pageSize ≤ m.memory.size) {s : Session}
    (hpre : ∀ fd d, s.stdio.get? fd = some d → Descriptor.preRun d = .ok () d) :
    Session.runGuest g l true limits (m.core.within { host := s }) = g.runBridged limits l.host (m.boundTo s) := by
  have hbind : (g.bindBridge : Act Unit) (m.core.within { host := s }) = .ok () (m.boundTo s) :=
    Guest.bindBridge_ok hexports hmemory hpage
  have hidle : Session.preRun (m.boundTo s) = .ok () (m.boundTo s) := Session.preRun_of_idle hpre
  rw [Session.runGuest_streaming, if_pos hmemory, bind_of_ok hbind, bind_of_ok hidle]

theorem entryOf_statements (h : g.instrumented = true) : g.entryOf limits l.host =
    Guest.runStatements (g.setting limits g.obeysUnwind (g.callImport limits l.host limits.depth)) 0 g.body
      freshLocals := by rw [Guest.entryOf, Guest.entryWith, if_pos h]

/-- Once the header is there, the guest is run alike with its output buffered and with its output streamed. -/
theorem agrees_runGuest (hl : l.Genuine) (hg : g.CanStream l limits m) (hturns : g.body.length ≤ limits.turns)
    {s : Session} (hs : m.outer.host.Twin s) :
    Agrees Mirrors (Over Mirrors) (Session.runGuest g l false limits m.headed)
      (Session.runGuest g l.streaming true limits (m.core.within { host := s })) := by
  have hstands : Stands Mirrors m.headed (m.boundTo s) := ⟨⟨rfl, hs⟩, rfl, rfl⟩
  have hruns := agrees_callEntrypoint limits (g.callImport limits l.streaming.host limits.depth) hg.controls
    (s := g.setting limits g.obeysUnwind (g.callImport limits l.host limits.depth)) hg.obeys
    (l.indifferent limits hl hg.controls) hg.numbered hstands hg.starts.headed hg.statements hturns
  rw [runGuest_entered (m := m.headed) hg.exports hg.exportsMemory hs.preRun.1,
    runGuest_bridged hg.exports hg.exportsMemory hg.page hs.preRun.2, Guest.runBridged,
    entryOf_statements hg.instrumented, entryOf_statements hg.instrumented]
  exact hruns

end

/-! ## Whole runs -/

/-- The second run, which streamed, ended as the first, which buffered. -/
structure SameRun (b t : Session.Ended) : Prop where
  /-- The results differ in the diagnostics of a fatal failure at most. -/
  result : t.result.mapError Failure.undiagnosed = b.result.mapError Failure.undiagnosed
  /-- The memory is the same but for the header, and so are the globals and the record. -/
  core : t.machine.core = b.machine.core.headed
  filesystem : t.machine.outer.host.filesystemItself = b.machine.outer.host.filesystemItself
  reports : t.machine.outer.host.reports = b.machine.outer.host.reports
  drawn : t.machine.outer.host.drawn = b.machine.outer.host.drawn
  output : Descriptor.Delivered b.machine.outer.host.stdio.output t.machine.outer.host.stdio.output
  error : Descriptor.Delivered b.machine.outer.host.stdio.error t.machine.outer.host.stdio.error

/-- From machines that are alike when the entry point is through, both runs end alike. -/
theorem sameRun_of_alike {m n n' : Machine (Hosted Work Session)} (hbeside : m.Beside n)
    (hmatches : Matches Mirrors n n') (returnOnExit : Bool) (r : Except Failure Unit) :
    SameRun ⟨Session.ending returnOnExit r m, Session.cleanedUp m⟩
      ⟨Session.ending returnOnExit r n', Session.cleanedUp n'⟩ := by
  have htwin : m.outer.host.stdio.Twin n'.outer.host.stdio := hbeside.stdio ▸ hmatches.host.stdio
  obtain ⟨hinput, hinput', -⟩ := htwin.input.cleanUp
  obtain ⟨houtput, houtput', hdelivered⟩ := htwin.output.cleanUp
  obtain ⟨herror, herror', hdelivered'⟩ := htwin.error.cleanUp
  have hclean := Stdio.cleanUp_eq hinput houtput herror
  have hclean' := Stdio.cleanUp_eq hinput' houtput' herror'
  constructor
  · rw [Session.ending_of_clean (congrArg Prod.fst hclean'), Session.ending_of_clean (congrArg Prod.fst hclean)]
    exact Outcome.settle_undiagnosed _ _ _ _ _ _
  · exact hmatches.core.trans hbeside.core
  · have hsame : n'.outer.host.filesystemItself = n.outer.host.filesystemItself := by
      simp only [Session.filesystemItself, hmatches.host.filesystem]
    exact hsame.trans hbeside.filesystem
  · exact hmatches.host.reports.trans hbeside.reports
  · exact hmatches.host.drawn.trans hbeside.drawn
  · simp only [Session.cleanedUp, hclean, hclean']
    exact hdelivered
  · simp only [Session.cleanedUp, hclean, hclean']
    exact hdelivered'

/-- Whatever the filesystem module, the arguments, the seed and the sinks that do not fail, a run that streams the
output comes to what a run that buffers it does. As many turns of the driver as the guest has statements are
enough. -/
theorem streaming_comes_to_what_buffering_does (o : Options) (fs : Filesystem) (around : Surroundings) (g : Guest)
    (limits : Limits) (s : Session) (c : Core) {buffering streaming : ImportTable} (hin : o.stdin = none)
    (hout : ∀ p, o.stdout = some p → p.Faultless) (herr : ∀ p, o.stderr = some p → p.Faultless)
    (hbuffering : ImportTable.install fs.module false o.traceImports [] = .ok buffering)
    (hstreaming : ImportTable.install fs.module true o.traceImports [] = .ok streaming)
    (hg : g.CanStream ⟨buffering, fs, around⟩ limits (o.launch false s c)) (hturns : g.body.length ≤ limits.turns) :
    SameRun (Session.start g ⟨buffering, fs, around⟩ false o.returnOnExit limits (o.launch false s c))
      (Session.start g ⟨streaming, fs, around⟩ true o.returnOnExit limits (o.launch true s c)) := by
  have htable : (⟨streaming, fs, around⟩ : Linked) = Linked.streaming ⟨buffering, fs, around⟩ := by
    rw [ImportTable.install_bridge hbuffering hstreaming]
    rfl
  have hagrees := agrees_runGuest (Linked.genuine_of_install hbuffering) hg hturns (o.twin_launch hin hout herr s c)
  have hlaunch : (o.launch false s c).core.within { host := (o.launch true s c).outer.host } = o.launch true s c := rfl
  rw [hlaunch, ← htable] at hagrees
  rw [Session.start_eq, Session.start_eq]
  -- the buffered run without the header, the buffered run with it, the streaming run
  rcases hg.untouched.cases with ⟨m, n, hplain, hheaded, hbeside⟩ | ⟨e, m, n, hplain, hheaded, hbeside⟩
  · rw [hheaded] at hagrees
    rcases hagrees.cases with ⟨_, n₁, n', hn, hrun, hover⟩ | ⟨_, _, _, hn, -⟩
    · cases hn
      rw [hplain, hrun]
      exact sameRun_of_alike hbeside hover.1.toMatches _ _
    · cases hn
  · rw [hheaded] at hagrees
    rcases hagrees.cases with ⟨_, _, _, hn, -⟩ | ⟨_, n₁, n', hn, hrun, hmatches⟩
    · cases hn
    · cases hn
      rw [hplain, hrun]
      exact sameRun_of_alike hbeside hmatches _ _

/-- A guest that writes three bytes to its output and two to its error output, looks at the first count, and exits. -/
def herald : Guest where
  body := [.call ⟨previewNamespace, "fd_write"⟩ [.lit 1, .lit 2048, .lit 1, .lit 2080], .note (.load (.lit 2080)),
    .call ⟨previewNamespace, "fd_write"⟩ [.lit 2, .lit 2056, .lit 1, .lit 2084],
    .call ⟨previewNamespace, "proc_exit"⟩ [.lit 7]]
  instrumented := true

def heraldCore : Core where
  memory := ((Memory.zeroed pageSize).write 2048
    (wordBytes 2064 ++ wordBytes 3 ++ wordBytes 2065 ++ wordBytes 2)).write 2064 [104, 101, 121]
  outer := ()

/-- Two sinks, of which the one takes two bytes at a time. -/
def heraldOptions : Options where
  returnOnExit := true
  stdout := some { maxWrite := some 2 }
  stderr := some { waits := true }

def heraldFilesystem : Filesystem := ⟨.standard, 0, 100⟩

def heraldSession : Session := (Session.setUp { heraldOptions with streaming := false } heraldFilesystem).2

def heraldTable (bridged : Bool) : ImportTable := (ImportTable.install .standard bridged false []).toOption.getD []

def heraldLinked (bridged : Bool) : Linked := ⟨heraldTable bridged, heraldFilesystem, ⟨0, fun _ => some 0⟩⟩

set_option maxRecDepth 4000

theorem installed_heraldTable (bridged : Bool) :
    ImportTable.install .standard bridged false [] = .ok (heraldTable bridged) := by
  cases bridged <;> exact eq_ok_of_toOption (by decide +kernel)

/-- The statements of the guest can be replayed, whatever the imports behind them. -/
theorem herald_replayable {l : Linked} (hl : l.Genuine) {m : Machine (Hosted Work Session)} (hm : Awake m) :
    Replayable (herald.setting ⟨4, 1⟩ herald.obeysUnwind (herald.callImport ⟨4, 1⟩ l.host 1)) Linked.pauses [] 0
      herald.body freshLocals m := by
  let s := herald.setting ⟨4, 1⟩ herald.obeysUnwind (herald.callImport ⟨4, 1⟩ l.host 1)
  have hstays := (l.indifferent (g := herald) ⟨4, 1⟩ hl rfl).globals
  refine replayable_of_forall hstays _ (by decide) ?_ _ _ _ _ hm
  intro stmt hstmt earlier m hm
  have hcall {target : ImportName} {args : List Expr} (values : List Value)
      (hargs : ∀ locals,
        Expr.evalArgs (s.serving Script.call) [] locals (Guest.callType target).params args = pure values) :
      (Stmt.call target args).Replays s Linked.pauses earlier m :=
    Stmt.replays_call values rfl hargs hm (fun _ _ => hstays _ _ _ _ _) fun c h => by rw [h.1]; rfl
  rcases List.mem_cons.1 hstmt with rfl | hstmt
  · exact hcall [.i32 1, .i32 2048, .i32 1, .i32 2080] fun _ => rfl
  rcases List.mem_cons.1 hstmt with rfl | hstmt
  · exact Stmt.replays_look 2080
  rcases List.mem_cons.1 hstmt with rfl | hstmt
  · exact hcall [.i32 2, .i32 2056, .i32 1, .i32 2084] fun _ => rfl
  · cases List.mem_singleton.1 hstmt
    exact hcall [.i32 7] fun _ => rfl

theorem heraldOptions_faultless : (∀ p, heraldOptions.stdout = some p → p.Faultless) ∧
    ∀ p, heraldOptions.stderr = some p → p.Faultless := by
  constructor
  · intro p h
    cases h
    exact ⟨rfl, rfl, by decide, rfl, rfl⟩
  · intro p h
    cases h
    exact ⟨rfl, rfl, by decide, rfl, rfl⟩

theorem herald_canStream :
    herald.CanStream (heraldLinked false) ⟨4, 1⟩ (heraldOptions.launch false heraldSession heraldCore) := by
  have hawake : AtTurn 0 (heraldOptions.launch false heraldSession heraldCore) := ⟨⟨rfl, rfl⟩, rfl⟩
  have hgenuine : (heraldLinked false).Genuine := Linked.genuine_of_install (installed_heraldTable false)
  have hidle := (heraldOptions.twin_launch rfl heraldOptions_faultless.1 heraldOptions_faultless.2 heraldSession
    heraldCore).preRun.1
  refine Guest.canStream_of_apart hgenuine ⟨rfl, rfl, rfl⟩ (by decide +kernel) (by decide +kernel) (by decide)
    (by decide +kernel) hawake hidle ?_ (herald_replayable hgenuine (hawake.toAwake.congr rfl))
  decide +kernel

/-- The guest's output reaches both sinks, and its exit is the result, whether the output is streamed or buffered. -/
theorem a_herald_is_heard_either_way :
    SameRun
        (Session.start herald (heraldLinked false) false true ⟨4, 1⟩
          (heraldOptions.launch false heraldSession heraldCore))
        (Session.start herald (heraldLinked true) true true ⟨4, 1⟩
          (heraldOptions.launch true heraldSession heraldCore)) ∧
      (Session.start herald (heraldLinked true) true true ⟨4, 1⟩
        (heraldOptions.launch true heraldSession heraldCore)).machine.outer.host.stdio.output.events =
          [.wrote [104, 101], .wrote [121], .flushed, .shutDown] :=
  ⟨streaming_comes_to_what_buffering_does heraldOptions heraldFilesystem ⟨0, fun _ => some 0⟩ herald ⟨4, 1⟩
    heraldSession heraldCore rfl heraldOptions_faultless.1 heraldOptions_faultless.2 (installed_heraldTable false)
    (installed_heraldTable true) herald_canStream (by decide), by decide +kernel⟩

end GuestHost
