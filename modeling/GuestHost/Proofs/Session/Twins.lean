/-
  GuestHost.Proofs.Session.Twins — the imports of a session that buffers its output and of one that streams it.

  Two sessions are twins if their descriptors are, and all else that imports depend on is the same. On twins, what
  an import does is the same on both sides (`InStep`), but for a write of some bytes to a sink: there the streaming
  side has done nothing yet, and stored the write. Finishing it then comes to what the buffered side came to at
  once (`Serves`).

  Proved:
  - `Linked.serves_handle`: every import of the surface serves twins so.
  - `Linked.indifferent`: under the bridge, a streaming session is the host that a buffered one is without it.
-/

import GuestHost.Proofs.Asyncify.Replay
import GuestHost.Proofs.Session.Transfers
import GuestHost.Proofs.Stream.Twins

namespace GuestHost

open Exec

/-! ## Twins -/

structure Stdio.Twin (s₁ s₂ : Stdio) : Prop where
  input : s₁.input.Twin s₂.input
  output : s₁.output.Twin s₂.output
  error : s₁.error.Twin s₂.error

namespace Stdio.Twin

variable {s₁ s₂ : Stdio}

theorem get? (h : Twin s₁ s₂) (fd : Nat) :
    (s₁.get? fd = none ∧ s₂.get? fd = none) ∨ ∃ d₁ d₂, s₁.get? fd = some d₁ ∧ s₂.get? fd = some d₂ ∧ d₁.Twin d₂ := by
  rcases fd with _ | _ | _ | fd
  · exact .inr ⟨_, _, rfl, rfl, h.input⟩
  · exact .inr ⟨_, _, rfl, rfl, h.output⟩
  · exact .inr ⟨_, _, rfl, rfl, h.error⟩
  · exact .inl ⟨rfl, rfl⟩

theorem put (h : Twin s₁ s₂) {d₁ d₂ : Descriptor} (hd : d₁.Twin d₂) (fd : Nat) :
    Twin (s₁.put d₁ fd) (s₂.put d₂ fd) := by
  rcases fd with _ | _ | _ | fd
  · exact ⟨hd, h.output, h.error⟩
  · exact ⟨h.input, hd, h.error⟩
  · exact ⟨h.input, h.output, hd⟩
  · exact h

end Stdio.Twin

def LogLine.report? : LogLine → Option String
  | report text => some text
  | call _ => none

def Session.reports (s : Session) : List String := s.log.toList.filterMap LogLine.report?

/-- The same session, buffered and streaming, with the same reports in the log. -/
structure Session.Twin (s₁ s₂ : Session) : Prop where
  args : s₂.args = s₁.args
  env : s₂.env = s₁.env
  stdio : s₁.stdio.Twin s₂.stdio
  filesystem : s₂.filesystem = s₁.filesystem
  reports : s₂.reports = s₁.reports
  drawn : s₂.drawn = s₁.drawn

/-- A trace changes nothing but the log, and not what was reported. -/
theorem Linked.tracing_eq (e : Entry) (args : List Value) (r : Except Failure UInt32) (s : Session) :
    ∃ log, tracing e args r s = { s with log } ∧ ({ s with log } : Session).reports = s.reports := by
  unfold tracing
  split
  · exact ⟨_, rfl, by simp [Session.reports, traceLine, LogLine.report?]⟩
  · exact ⟨s.log, rfl, rfl⟩

/-- Traces tell twins apart no more than before. -/
theorem Session.Twin.tracing {s₁ s₂ : Session} (h : s₁.Twin s₂) (e₁ e₂ : Entry) (args : List Value)
    (r₁ r₂ : Except Failure UInt32) : (Linked.tracing e₁ args r₁ s₁).Twin (Linked.tracing e₂ args r₂ s₂) := by
  obtain ⟨log₁, h₁, hreports₁⟩ := Linked.tracing_eq e₁ args r₁ s₁
  obtain ⟨log₂, h₂, hreports₂⟩ := Linked.tracing_eq e₂ args r₂ s₂
  rw [h₁, h₂]
  exact ⟨h.args, h.env, h.stdio, h.filesystem, hreports₂.trans (h.reports.trans hreports₁.symm), h.drawn⟩

/-! ## Actions in step -/

/-- The module's own part of both machines is the same, the sessions are twins, and the second bridge is `b`. -/
structure Coupled (b : Bridge Work) (m₁ m₂ : Machine (Hosted Work Session)) : Prop where
  core : m₂.core = m₁.core
  bridge : m₂.outer.bridge = b
  host : m₁.outer.host.Twin m₂.outer.host

section

variable {b : Bridge Work} {m₁ m₂ : Machine (Hosted Work Session)}

/-- Coupled machines have their own part in common. -/
theorem Coupled.split (h : Coupled b m₁ m₂) : ∃ (c : Core) (o : Hosted Work Session) (s : Session),
    m₁ = c.within o ∧ m₂ = c.within ⟨b, s⟩ ∧ o.host.Twin s := by
  refine ⟨m₁.core, m₁.outer, m₂.outer.host, rfl, ?_, h.host⟩
  obtain ⟨hcore, rfl, -⟩ := h
  rw [← hcore]
  rfl

theorem Coupled.memory (h : Coupled b m₁ m₂) : m₂.memory = m₁.memory :=
  show m₂.core.memory = m₁.core.memory from h.core ▸ rfl

theorem Coupled.within {o : Hosted Work Session} {s : Session} (c : Core) (h : o.host.Twin s) :
    Coupled b (c.within o) (c.within ⟨b, s⟩) := ⟨rfl, rfl, h⟩

theorem Coupled.traced (h : Coupled b m₁ m₂) (e₁ e₂ : Entry) (args : List Value) (r₁ r₂ : Except Failure UInt32) :
    Coupled b (Linked.traced e₁ args r₁ m₁) (Linked.traced e₂ args r₂ m₂) :=
  ⟨h.core, h.bridge, h.host.tracing _ _ _ _ _⟩

theorem Coupled.putStream (h : Coupled b m₁ m₂) {d₁ d₂ : Descriptor} (hd : d₁.Twin d₂) (fd : Nat) :
    Coupled b (m₁.putStream fd d₁) (m₂.putStream fd d₂) :=
  ⟨h.core, h.bridge, h.host.args, h.host.env, h.host.stdio.put hd fd, h.host.filesystem, h.host.reports, h.host.drawn⟩

theorem Coupled.noting (h : Coupled b m₁ m₂) (deed₁ deed₂ : Deed) : Coupled b (m₁.noting deed₁) (m₂.noting deed₂) :=
  ⟨h.core, h.bridge, h.host.args, h.host.env, h.host.stdio, h.host.filesystem, h.host.reports, h.host.drawn⟩

namespace InStep

/-! ### The parts of an import -/

theorem marshal (act : Marshal Unit) : InStep (Coupled b) Eq (HostCall.marshal act) (HostCall.marshal act) := by
  intro m₁ m₂ hm
  obtain ⟨c, o, s, rfl, rfl, hs⟩ := hm.split
  obtain ⟨e, memory, h⟩ := HostCall.marshal_within act c
  rw [h, h]
  exact ⟨rfl, .within _ hs⟩

theorem draw (around : Surroundings) (n : Nat) :
    InStep (Coupled b) Eq (HostCall.draw around n) (HostCall.draw around n) := by
  intro m₁ m₂ hm
  obtain ⟨c, o, s, rfl, rfl, hs⟩ := hm.split
  refine ⟨?_, .within c ⟨hs.args, hs.env, hs.stdio, hs.filesystem, hs.reports, congrArg (· + n) hs.drawn⟩⟩
  simp only [Machine.outer_within, hs.drawn]

/-- The twins may mark what they do differently. -/
theorem mark (deed₁ deed₂ : Deed) : InStep (Coupled b) (fun _ _ => True) (Session.mark deed₁) (Session.mark deed₂) :=
  fun _ _ hm => ⟨trivial, hm.noting deed₁ deed₂⟩

theorem onFilesystem {α : Type} (act : FilesystemAct α) :
    InStep (Coupled b) Eq (Session.onFilesystem act) (Session.onFilesystem act) := by
  intro m₁ m₂ hm
  obtain ⟨c, o, s, rfl, rfl, hs⟩ := hm.split
  have hkeep (f : Machine Linkage) :
      ({ o.host with filesystem := f } : Session).takeReports.Twin
        ({ s with filesystem := f } : Session).takeReports := by
    refine ⟨hs.args, hs.env, hs.stdio, rfl, ?_, hs.drawn⟩
    have := hs.reports
    simp only [Session.reports, Session.takeReports, Array.toList_append, List.filterMap_append] at this ⊢
    rw [this]
  simp only [Session.onFilesystem, Machine.outer_within, hs.filesystem]
  have hmemory (τ : Type) (o : τ) : (c.within o).memory = c.memory := rfl
  simp only [hmemory]
  split
  · exact ⟨rfl, rfl, rfl, hkeep _⟩
  · exact ⟨rfl, rfl, rfl, hkeep _⟩

abbrev SameReady (r₁ r₂ : Reply Work) : Prop := r₂ = r₁ ∧ ∃ w, r₁ = .ready w

theorem answer (e : Errno) : InStep (Coupled b) SameReady (HostCall.answer e) (HostCall.answer e) := pure ⟨rfl, _, rfl⟩

theorem marshalled (act : Marshal Unit) :
    InStep (Coupled b) SameReady (do HostCall.answer (← HostCall.marshal act))
      (do HostCall.answer (← HostCall.marshal act)) :=
  bind (marshal act) fun e _ h => h ▸ answer e

/-- A read gives nothing, or fails for the same reason. -/
theorem readv (fd : Nat) (lens : List UInt32) :
    InStep (Coupled b) (fun t₁ t₂ => t₂ = t₁ ∧ ∃ bs, t₁ = .ready bs)
      (Session.onStream fd (.ready []) (Descriptor.readv lens))
      (Session.onStream fd (.ready []) (Descriptor.readv lens)) := by
  intro m₁ m₂ hm
  rcases hm.host.stdio.get? fd with ⟨h₁, h₂⟩ | ⟨d₁, d₂, h₁, h₂, hd⟩
  · rw [Session.onStream_none _ _ h₁, Session.onStream_none _ _ h₂]
    exact ⟨⟨rfl, _, rfl⟩, hm⟩
  · have hput := hm.putStream hd fd
    rw [Session.onStream_some _ _ h₁, Session.onStream_some _ _ h₂]
    rcases hd.readv lens with ⟨hr₁, hr₂⟩ | ⟨e, hr₁, hr₂⟩
    · rw [hr₁, hr₂]
      exact ⟨⟨rfl, _, rfl⟩, hput⟩
    · rw [hr₁, hr₂]
      exact ⟨rfl, hput⟩

/-- All calls but writes do the same on both sides. -/
theorem run (around : Surroundings) {c : HostCall} (hc : c ≠ .fdWrite) (args : List Value) :
    InStep (Coupled b) SameReady (c.run around args) (c.run around args) := by
  refine HostCall.run_of_steps (P := fun x => InStep (Coupled b) SameReady x x) around c args (fun hx => ?_)
    fun plan hplan hshows => bind get fun m₁ m₂ hm =>
      hshows m₁ m₂ (.of_eq hm.memory hm.host.args hm.host.env) ▸ hplan m₁
  induction hx with
  | answer e => exact answer e
  | refused => exact throw _
  | marshal act _ _ ih => exact bind (marshal act) fun e _ h => h ▸ ih e
  | draw n _ ih => exact bind (draw around n) fun bs _ h => h ▸ ih bs
  | read =>
    refine bind (readv _ _) ?_
    rintro t _ ⟨h, bs, ht⟩
    subst h ht
    exact marshalled _
  | write hwrite => exact absurd hwrite hc
  | exit => exact bind get fun _ _ _ => bind (mark _ _) fun _ _ _ => throw _

theorem forward (l : Linked) (name : String) (args : List Value) :
    InStep (Coupled b) SameReady (l.forward name args) (l.forward name args) :=
  bind (onFilesystem _) fun _ _ h => h ▸ pure ⟨rfl, _, rfl⟩

end InStep

/-! ## Writes -/

/-- The arguments are those of a write that moves some bytes to a sink. -/
def Moves (memory : Memory) (stdio : Stdio) (args : List Value) : Prop :=
  ∃ fd array count result buffers views w,
    wordArg args 0 = .ok fd ∧ wordArg args 1 = .ok array ∧ wordArg args 2 = .ok count ∧ wordArg args 3 = .ok result ∧
      memory.readIoVecs array count = .ok buffers ∧ memory.gather buffers = .ok views ∧
      stdio.get? fd.toNat = some (.bufferedOutput w) ∧ ∃ v ∈ views, v.size ≠ 0

/-- The second side has stored the work that the first has done. Finishing it does not depend on the log. -/
structure Stored (b : Bridge Work) (c : Core) (w : UInt32) (n₁ : Machine (Hosted Work Session)) (work : Work)
    (n₂ : Machine (Hosted Work Session)) : Prop where
  core : n₂.core = c
  bridge : n₂.outer.bridge = b
  finish : ∀ b' e args r, ∃ n₃,
    work.finish (c.within ⟨b', Linked.tracing e args r n₂.outer.host⟩) = .ok w n₃ ∧ Coupled b' n₁ n₃

/-- Two imports that were called on the module's own part `c` answered alike; or the second has stored a write,
where the first has made it. -/
def Serves (b : Bridge Work) (c : Core) (moves : Prop)
    (r₁ r₂ : EStateM.Result Failure (Machine (Hosted Work Session)) (Reply Work)) : Prop :=
  Together (Coupled b) InStep.SameReady r₁ r₂ ∨
    (moves ∧ ∃ w n₁ work n₂, r₁ = .ok (.ready w) n₁ ∧ r₂ = .ok (.suspend work) n₂ ∧ Stored b c w n₁ work n₂)

theorem serves_transfer (h : Coupled b m₁ m₂) (fd : Nat) (views : List View) (result : UInt32) :
    Serves b m₁.core ((∃ w, m₁.outer.host.stdio.get? fd = some (.bufferedOutput w)) ∧ ∃ v ∈ views, v.size ≠ 0)
      ((Session.onStream fd (.ready 0) (Descriptor.writev views) >>= HostCall.conclude fd result) m₁)
      ((Session.onStream fd (.ready 0) (Descriptor.writev views) >>= HostCall.conclude fd result) m₂) := by
  rcases h.host.stdio.get? fd with ⟨h₁, h₂⟩ | ⟨d₁, d₂, h₁, h₂, hd⟩
  · rw [bind_of_ok (Session.onStream_none _ _ h₁), bind_of_ok (Session.onStream_none _ _ h₂)]
    exact .inl (InStep.marshalled _ _ _ h)
  · rcases hd.writev views with
      ⟨n, d₁', hr₁, hr₂, hd'⟩ | ⟨n, d₁', chunks, d₂', ⟨w, rfl⟩, hsome, hr₁, hr₂, hfinish, hd'⟩
    · rw [bind_of_ok ((Session.onStream_some _ _ h₁).trans (by rw [hr₁])),
        bind_of_ok ((Session.onStream_some _ _ h₂).trans (by rw [hr₂]))]
      exact .inl (InStep.marshalled _ _ _ (h.putStream hd' fd))
    · obtain ⟨e, memory, hmarshal⟩ := HostCall.marshal_within (Memory.writeWord result n) m₁.core
      refine .inr ⟨⟨⟨w, h₁⟩, hsome⟩, e.raw, Machine.within { m₁.core with memory } (m₁.putStream fd d₁').outer,
        .write fd chunks result, m₂, ?_, ?_, h.core, h.bridge, ?_⟩
      · rw [bind_of_ok ((Session.onStream_some _ _ h₁).trans (by rw [hr₁]))]
        exact bind_of_ok (hmarshal (m₁.putStream fd d₁').outer)
      · rw [bind_of_ok ((Session.onStream_some _ _ h₂).trans (by rw [hr₂])), Machine.putStream_same h₂]
        rfl
      · intro b' entry args r
        -- the log apart, the session is the one in which the write was stored
        obtain ⟨log, htracing, hreports⟩ := Linked.tracing_eq entry args r m₂.outer.host
        rw [htracing]
        let m : Machine (Hosted Work Session) := m₁.core.within ⟨b', { m₂.outer.host with log }⟩
        have htaken : Session.onStream fd 0 (Descriptor.finishWrite chunks) m = .ok n (m.putStream fd d₂') :=
          (Session.onStream_some (m := m) _ _ h₂).trans (by rw [hfinish])
        refine ⟨Machine.within { m₁.core with memory } (m.putStream fd d₂').outer, ?_, rfl, rfl, ?_⟩
        · exact (bind_of_ok htaken).trans (bind_of_ok (hmarshal (m.putStream fd d₂').outer))
        · exact ⟨h.host.args, h.host.env, h.host.stdio.put hd' fd, h.host.filesystem, hreports.trans h.host.reports,
            h.host.drawn⟩

theorem Serves.imp {c : Core} {p q : Prop} {r₁ r₂ : EStateM.Result Failure (Machine (Hosted Work Session)) (Reply Work)}
    (hpq : p → q) : Serves b c p r₁ r₂ → Serves b c q r₁ r₂ :=
  Or.imp_right (And.imp_left hpq)

theorem serves_writeStream (h : Coupled b m₁ m₂) (args : List Value) :
    Serves b m₁.core (Moves m₁.memory m₁.outer.host.stdio args) (HostCall.writeStream args m₁)
      (HostCall.writeStream args m₂) := by
  have hanswer (e : Errno) {p : Prop} :
      Serves b m₁.core p (.ok (.ready e.raw) m₁) (.ok (.ready e.raw) m₂) := .inl (InStep.answer e _ _ h)
  rcases HostCall.writeStream_words args with
    ⟨fd, array, count, result, hfd, harray, hcount, hresult, hcall⟩ | ⟨_, _, _, _, hcall⟩ <;> rw [hcall]
  case inr => exact .inl ⟨rfl, h⟩
  cases hbuffers : m₁.memory.readIoVecs array count with
  | error e =>
    rw [HostCall.writeStream_of_error hbuffers, HostCall.writeStream_of_error (h.memory ▸ hbuffers)]
    exact hanswer _
  | ok buffers =>
    cases hviews : m₁.memory.gather buffers with
    | error e =>
      rw [HostCall.writeStream_of_unfit hbuffers hviews,
        HostCall.writeStream_of_unfit (h.memory ▸ hbuffers) (h.memory ▸ hviews)]
      exact hanswer _
    | ok views =>
      by_cases hstandard : fd.toNat < 3
      · rw [HostCall.writeStream_of_ok hbuffers hviews hstandard,
          HostCall.writeStream_of_ok (h.memory ▸ hbuffers) (h.memory ▸ hviews) hstandard]
        have hnoted := h.noting (.offered fd.toNat views) (.offered fd.toNat views)
        refine (serves_transfer hnoted fd.toNat views result).imp ?_
        rintro ⟨⟨w, hout⟩, hsome⟩
        exact ⟨fd, array, count, result, buffers, views, w, hfd, harray, hcount, hresult, hbuffers, hviews, hout, hsome⟩
      · have hother : 3 ≤ fd.toNat := Nat.not_lt.1 hstandard
        rw [HostCall.writeStream_of_unbound hbuffers hviews hother,
          HostCall.writeStream_of_unbound (h.memory ▸ hbuffers) (h.memory ▸ hviews) hother]
        exact hanswer _

/-! ## The imports of the surface -/

theorem HostCall.ofName?_ne_fdRead (name : String) : ofName? name ≠ some .fdRead := by
  unfold ofName?
  split <;> simp

theorem HostCall.ofName?_ne_fdWrite (name : String) : ofName? name ≠ some .fdWrite := by
  unfold ofName?
  split <;> simp

namespace Signature

/-- Reads and writes are split by their descriptor. -/
def Splits (s : Signature) : Prop := s.name = "fd_read" ∨ s.name = "fd_write"

instance (s : Signature) : Decidable s.Splits := inferInstanceAs (Decidable (_ ∨ _))

/-- Who answers what: the three kinds of imports. -/
inductive Kind (s : Signature) : Service → Prop
  | split {c : HostCall} :
    s.name = "fd_read" ∧ c = .fdRead ∨ s.name = "fd_write" ∧ c = .fdWrite → Kind s (.byDescriptor c)
  | filesystem : ¬ s.Splits → s.route = .filesystem → Kind s .filesystem
  | host {c : HostCall} : ¬ s.Splits → s.route = .host → c ≠ .fdRead → c ≠ .fdWrite → Kind s (.host c)

theorem kind_of_serviceOf {s : Signature} {service : Service} (h : ImportTable.serviceOf s = some service) :
    s.Kind service := by
  unfold ImportTable.serviceOf at h
  by_cases hread : s.name = "fd_read"
  · rw [if_pos hread] at h
    cases h
    exact .split (.inl ⟨hread, rfl⟩)
  · rw [if_neg hread] at h
    by_cases hwrite : s.name = "fd_write"
    · rw [if_pos hwrite] at h
      cases h
      exact .split (.inr ⟨hwrite, rfl⟩)
    · rw [if_neg hwrite] at h
      have hsplits : ¬ s.Splits := fun hs => hs.elim hread hwrite
      cases hroute : s.route with
      | filesystem =>
        rw [hroute] at h
        cases h
        exact .filesystem hsplits hroute
      | host =>
        rw [hroute] at h
        obtain ⟨c, hc, rfl⟩ := Option.map_eq_some_iff.1 h
        exact .host hsplits hroute (fun hread => HostCall.ofName?_ne_fdRead s.name (hread ▸ hc))
          fun hwrite => HostCall.ofName?_ne_fdWrite s.name (hwrite ▸ hc)

end Signature

/-- Every import of the surface serves twins alike, but for a write that moves bytes to a sink. -/
theorem Linked.serves_handle (l : Linked) {e : Entry} (he : ImportTable.serviceOf e.signature = some e.service)
    (h : Coupled b m₁ m₂) (args : List Value) :
    Serves b m₁.core (e.signature.name = "fd_write" ∧ Moves m₁.memory m₁.outer.host.stdio args) (l.handle e args m₁)
      (l.handle e args m₂) := by
  obtain ⟨signature, service, bridged, traced⟩ := e
  have hnoted := h.noting (.handled signature.name args) (.handled signature.name args)
  have hmark (m : Machine (Hosted Work Session)) :
      Session.mark (.handled signature.name args) m = .ok () (m.noting (.handled signature.name args)) := rfl
  unfold handle
  rw [bind_of_ok (hmark m₁), bind_of_ok (hmark m₂)]
  cases Signature.kind_of_serviceOf he with
  | filesystem => exact .inl (InStep.forward l _ args _ _ hnoted)
  | host _ _ _ hc => exact .inl (InStep.run _ hc args _ _ hnoted)
  | split hname =>
    rcases hname with ⟨-, rfl⟩ | ⟨hname, rfl⟩
    case inl =>
      refine .inl (InStep.bind (HostCall.inStep_word args 0) (fun fd _ hfd => hfd ▸ ?_) _ _ hnoted)
      split
      · exact InStep.run _ (by simp) args
      · exact InStep.forward l _ args
    rcases HostCall.word_eq args 0 with ⟨fd, -, hw⟩ | ⟨e, -, hw⟩ <;> simp only [hw, pure_bind]
    case inr => exact .inl ⟨rfl, hnoted⟩
    by_cases hstandard : fd < firstFilesystemDescriptor
    · simp only [if_pos hstandard]
      exact (serves_writeStream hnoted args).imp fun hmoves => ⟨hname, hmoves⟩
    · simp only [if_neg hstandard]
      exact .inl (InStep.forward l _ args _ _ hnoted)

end

/-! ## Under the bridge -/

def Entry.bridge (e : Entry) : Entry := { e with bridged := true }

namespace Linked

/-- The same imports for a session that streams: all of them run under the bridge. -/
def streaming (l : Linked) : Linked := { l with table := l.table.map Entry.bridge }

/-- The table is made of imports of the surface, and none runs under the bridge. -/
structure Genuine (l : Linked) : Prop where
  surface : ∀ e ∈ l.table, e.signature ∈ Signature.table
  services : ∀ e ∈ l.table, ImportTable.serviceOf e.signature = some e.service
  direct : ∀ e ∈ l.table, e.bridged = false

/-- A call may wait where it moves bytes to a sink. It has done nothing then. -/
def pauses : Pauses (Hosted Work Session) := fun target args m c =>
  c = m.core ∧ target.name = "fd_write" ∧ Moves m.memory m.outer.host.stdio args

end Linked

/-- The session of the first is the buffered twin of the second. -/
abbrev Mirrors (o : Hosted Work Session) (s : Session) : Prop := o.host.Twin s

theorem result_of_fdWrite : ∀ s ∈ Signature.table, s.name = "fd_write" → s.result = true := by decide

namespace Linked

variable {l : Linked} {e : Entry} {args : List Value} {controls : Controls (Hosted Work Session)}
  {m₁ m₂ n : Machine (Hosted Work Session)}

theorem value_direct (he : e.bridged = false) :
    l.value controls e args = (l.handle e args >>= fun r => settle r.intoReady) := by
  unfold value
  rw [he]
  rfl

theorem value_bridge : l.streaming.value controls e.bridge args = Bridge.wrapImport controls (l.handle e args) := rfl

theorem passive_globals {α : Type} {x : Act α} (hx : Passive x) {a : α} (h : x m₁ = .ok a n) : n.globals = m₁.globals :=
  ((hx m₁.outer.bridge m₁.globals).ok ⟨rfl, rfl⟩ h).2

theorem globals_call (he : e.bridged = false) {vs : List Value} (h : l.call controls e args m₁ = .ok vs n) :
    n.globals = m₁.globals := by
  have hvalue : Passive (l.value controls e args) := by
    rw [value_direct he]
    refine .bind (l.passive_handle e args) ?_
    intro r
    cases r with
    | ready w => exact .pure w
    | suspend work => exact .throw fun _ h => by cases h; rfl
  cases hv : l.value controls e args m₁ with
  | error f m => rw [call_of_error hv] at h; cases h
  | ok w m =>
    rw [call_of_ok hv] at h
    cases h
    exact passive_globals (n := m) hvalue hv

variable {g : Guest} (limits : Limits) (call : ImportName → List Value → Act (List Value))

/-- While the guest rewinds, a call gives the value that was kept for it. -/
theorem call_rewinding (args : List Value) (hg : g.controls = {}) (c : Core) {b : Bridge Work} (s : Session)
    {w : UInt32} (hstate : c.globals.getD stateGlobal 0 = 0) (hroom : stateGlobal < c.globals.length)
    (hphase : b.phase = .rewinding w) (hbound : b.bound = true) (hresult : e.signature.result = true) :
    ∃ b' : Bridge Work, b'.phase = .normal ∧ b'.bound = true ∧
      l.streaming.call (g.controlsWith limits call) e.bridge args ((c.setGlobal stateGlobal 2).within ⟨b, s⟩) =
        .ok [.i32 w] (c.within ⟨b', tracing e.bridge args (.ok w) s⟩) := by
  obtain ⟨b', hphase', hbound', hwrap⟩ := Guest.wrapImport_rewound limits hg call (l.handle e args) s hstate hroom
    hphase hbound
  refine ⟨b', hphase', hbound', ?_⟩
  rw [← value_bridge] at hwrap
  rw [call_of_ok hwrap, show e.bridge.signature.result = true from hresult]
  rfl

/-- Where the imports do the same, so do the calls. -/
theorem agrees_of_together {controls' : Controls (Hosted Work Session)} {b : Bridge Work} (he : e.bridged = false)
    (hphase : b.phase = .normal) (hbound : b.bound = true)
    (hvalue : l.streaming.value controls' e.bridge args m₂ = (l.handle e args >>= Bridge.answer controls') n)
    (h : Together (Coupled b) InStep.SameReady (l.handle e args m₁) (l.handle e args n)) :
    Agrees Mirrors (Stands Mirrors) (l.call controls e args m₁) (l.streaming.call controls' e.bridge args m₂) := by
  rcases h.cases with ⟨r₁, r₂, n₁, n₂, hr₁, hr₂, ⟨rfl, w, rfl⟩, h⟩ | ⟨f, n₁, n₂, hr₁, hr₂, h⟩
  · have hv₁ : l.value controls e args m₁ = .ok w n₁ := by rw [value_direct he, bind_of_ok hr₁]; rfl
    have hv₂ : l.streaming.value controls' e.bridge args m₂ = .ok w n₂ := by rw [hvalue, bind_of_ok hr₂]; rfl
    have htraced := h.traced e e.bridge args (.ok w) (.ok w)
    rw [call_of_ok hv₁, call_of_ok hv₂]
    refine ⟨rfl, ⟨htraced.core, htraced.host⟩, ?_, ?_⟩
    · rw [htraced.bridge]; exact hphase
    · rw [htraced.bridge]; exact hbound
  · have hv₁ : l.value controls e args m₁ = .error f n₁ := by rw [value_direct he, bind_of_error hr₁]
    have hv₂ : l.streaming.value controls' e.bridge args m₂ = .error f n₂ := by rw [hvalue, bind_of_error hr₂]
    have htraced := h.traced e e.bridge args (.error f) (.error f)
    rw [call_of_error hv₁, call_of_error hv₂]
    exact ⟨rfl, htraced.core, htraced.host⟩

/-- The machine when the handler of an import begins under the bridge. -/
def beginning (m : Machine (Hosted Work Session)) : Machine (Hosted Work Session) :=
  m.core.within ⟨(m.outer.bridge.logged (.consulted .normal m.outer.bridge.phase)).logged .handled, m.outer.host⟩

/-- While the guest neither unwinds nor rewinds, the handler decides. -/
theorem value_awake (args : List Value) (hg : g.controls = {}) (hbound : m₂.outer.bridge.bound = true)
    (hstate : m₂.globals.getD stateGlobal 0 = 0) :
    l.streaming.value (g.controlsWith limits call) e.bridge args m₂ =
      (l.handle e args >>= Bridge.answer (g.controlsWith limits call)) (beginning m₂) := by
  rw [value_bridge]
  exact Guest.wrapImport_normal limits hg call _ hbound hstate

/-- A call whose handler suspends gives the placeholder to a guest that is to unwind. -/
theorem call_of_suspend (args : List Value) (hg : g.controls = {}) (hresult : e.signature.result = true)
    (hbound : m₂.outer.bridge.bound = true) (hstate : m₂.globals.getD stateGlobal 0 = 0) {work : Work}
    (h : l.handle e args (beginning m₂) = .ok (.suspend work) n) (hphase : n.outer.bridge.phase = .normal) :
    l.streaming.call (g.controlsWith limits call) e.bridge args m₂ =
      .ok placeholder ((n.core.setGlobal stateGlobal unwindingWord).within
        ⟨(n.outer.bridge.inPhase (.unwinding work)).logged (.accepted work),
          tracing e.bridge args (.ok 0) n.outer.host⟩) := by
  have hvalue : l.streaming.value (g.controlsWith limits call) e.bridge args m₂ =
      .ok 0 ((n.core.setGlobal stateGlobal unwindingWord).within
        ⟨(n.outer.bridge.inPhase (.unwinding work)).logged (.accepted work), n.outer.host⟩) := by
    rw [l.value_awake limits call args hg hbound hstate, bind_of_ok h, Guest.answer_suspend limits hg call work hphase]
    rfl
  rw [call_of_ok hvalue, show e.bridge.signature.result = true from hresult]
  rfl

/-- A call under the bridge answers as the direct one, or stores the write that the direct one makes. -/
theorem call_awake (controls : Controls (Hosted Work Session)) (args : List Value) (hl : l.Genuine)
    (hg : g.controls = {}) (he : e ∈ l.table) (hstands : Stands Mirrors m₁ m₂) (hawake : Awake m₁) :
    Agrees Mirrors (Stands Mirrors) (l.call controls e args m₁)
        (l.streaming.call (g.controlsWith limits call) e.bridge args m₂) ∨
      ∃ (b : Bridge Work) (s : Session) (work : Work),
        (e.signature.name = "fd_write" ∧ Moves m₁.memory m₁.outer.host.stdio args) ∧
        b.phase = .unwinding work ∧ b.bound = true ∧
        l.streaming.call (g.controlsWith limits call) e.bridge args m₂ =
          .ok placeholder ((m₁.core.setGlobal stateGlobal unwindingWord).within ⟨b, s⟩) ∧
        ∀ b' : Bridge Work, b'.phase = .normal → b'.bound = true →
          Resumes Mirrors (l.streaming.call (g.controlsWith limits call) e.bridge args) (l.call controls e args m₁)
            (work.finish (m₁.core.within ⟨b', s⟩)) := by
  have hstate : m₂.globals.getD stateGlobal 0 = 0 := hstands.globals ▸ hawake.state
  have hcoupled : Coupled (beginning m₂).outer.bridge m₁ (beginning m₂) := ⟨hstands.core, rfl, hstands.host⟩
  have hphase₀ : (beginning m₂).outer.bridge.phase = .normal := hstands.phase
  have hbound₀ : (beginning m₂).outer.bridge.bound = true := hstands.bound
  rcases l.serves_handle (hl.services e he) hcoupled args with
    htogether | ⟨hmoves, w, n₁, work, n₂, hr₁, hr₂, hcore, hbridge, hfinish⟩
  · exact .inl (agrees_of_together (hl.direct e he) hphase₀ hbound₀
      (l.value_awake limits call args hg hstands.bound hstate) htogether)
  · right
    have hresult : e.signature.result = true := result_of_fdWrite _ (hl.surface e he) hmoves.1
    have hv₁ : l.value controls e args m₁ = .ok w n₁ := by rw [value_direct (hl.direct e he), bind_of_ok hr₁]; rfl
    have hcall₂ := l.call_of_suspend limits call args hg hresult hstands.bound hstate hr₂
      (by rw [hbridge]; exact hphase₀)
    rw [hcore] at hcall₂
    refine ⟨_, tracing e.bridge args (.ok 0) n₂.outer.host, work, hmoves, rfl, ?_, hcall₂, ?_⟩
    · show n₂.outer.bridge.bound = true
      rw [hbridge]
      exact hbound₀
    · intro b' hphase hbound
      obtain ⟨n₃, hwork, h₃⟩ := hfinish b' e.bridge args (.ok 0)
      have hglobals : n₁.globals = m₁.globals := passive_globals (l.passive_handle e args) hr₁
      rw [call_of_ok hv₁, hwork, hresult]
      refine ⟨h₃.core, by rw [h₃.bridge]; exact hbound, ?_⟩
      intro b₁ hphase₁ hbound₁
      obtain ⟨b₂, hphase₂, hbound₂, hcall⟩ := l.call_rewinding limits call args hg n₁.core n₃.outer.host
        (by rw [Machine.globals_core, hglobals]; exact hawake.state)
        (by rw [Machine.globals_core, hglobals, hawake.room]; decide) hphase₁ hbound₁ hresult
      exact ⟨_, hcall, ⟨rfl, h₃.host.tracing e e.bridge args (.ok w) (.ok w)⟩, hphase₂, hbound₂⟩

theorem answer_of_some {target : ImportName} (h : l.table.find? target.name = some e) :
    l.host.answer controls target args = l.call controls e args := by simp only [host, h]

theorem answer_of_none {target : ImportName} (h : l.table.find? target.name = none) :
    l.host.answer controls target args = throw (.engine "unknown import") := by simp only [host, h]

theorem name_of_find {t : ImportTable} {name : String} (h : t.find? name = some e) : e.signature.name = name := by
  simpa using List.find?_some h

/-- Under the bridge, a session that streams does what its buffered twin does without it. -/
theorem indifferent (hl : l.Genuine) (hg : g.controls = {}) :
    Indifferent Mirrors pauses (g.callImport limits l.host limits.depth)
      (g.callImport limits l.streaming.host limits.depth) Work.finish where
  globals target args m vs m' h := by
    cases hdepth : limits.depth with
    | zero => rw [hdepth] at h; cases h
    | succ depth =>
      rw [hdepth] at h
      replace h :
        l.host.answer (g.controlsWith limits (g.callImport limits l.host depth)) target args m = .ok vs m' := h
      cases hfind : l.table.find? target.name with
      | none => rw [answer_of_none hfind] at h; cases h
      | some e =>
        rw [answer_of_some hfind] at h
        exact globals_call (hl.direct e (List.mem_of_find?_eq_some hfind)) h
  serves target args m₁ m₂ hstands hawake := by
    cases limits.depth with
    | zero => exact .inl ⟨rfl, hstands.toMatches⟩
    | succ depth =>
      have hstreaming : l.streaming.table.find? target.name = (l.table.find? target.name).map Entry.bridge :=
        List.find?_map ..
      have hdepth (l : Linked) : g.callImport limits l.host (depth + 1) target args =
          l.host.answer (g.controlsWith limits (g.callImport limits l.host depth)) target args := rfl
      rw [hdepth, hdepth]
      cases hfind : l.table.find? target.name with
      | none =>
        rw [hfind] at hstreaming
        rw [answer_of_none hfind, answer_of_none hstreaming]
        exact .inl ⟨rfl, hstands.toMatches⟩
      | some e =>
        rw [hfind] at hstreaming
        rw [answer_of_some hfind, answer_of_some hstreaming]
        rcases l.call_awake limits (g.callImport limits l.streaming.host depth)
            (g.controlsWith limits (g.callImport limits l.host depth)) args hl hg (List.mem_of_find?_eq_some hfind)
            hstands hawake with
          hagrees | ⟨b, s, work, hmoves, hphase, hbound, hcall, hresumes⟩
        · exact .inl hagrees
        · have hpauses : pauses target args m₁ m₁.core := ⟨rfl, name_of_find hfind ▸ hmoves.1, hmoves.2⟩
          exact .inr ⟨m₁.core, b, s, work, hpauses, rfl, hphase, hbound, hcall, hresumes⟩

end Linked

end GuestHost
