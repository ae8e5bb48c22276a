/-
  GuestHost.Proofs.Session.Offers — what a buffered run was offered, in all.

  A buffered run enters the guest once, and no call is made twice. So what a standard descriptor is offered is what
  the calls of the guest write to it, one after the other (`Guest.heardCalls`, `Linked.written`): the sum, over the
  run, of what `Linked.offered_answer` says of one call. Nothing else offers anything, neither the preparation of the
  streams nor the guest's own code.

  What a call writes is read at 32-bit addresses, so it has to be known that a guest never has more memory than there
  are addresses. It starts with whole pages, code adds whole pages up to the limit, and no import adds any.

  Proved:
  - `Linked.paged_answer`: imports leave the guest's memory paged.
  - `Session.offered_runGuest`: a run offers what its calls write, and nothing besides.
-/

import GuestHost.Proofs.Program.Listening
import GuestHost.Proofs.Session.Diagnostics

namespace GuestHost

open Exec

/-! ## Whole pages -/

abbrev KeepsPages {α : Type} (x : Act α) : Prop := Keeps (fun m => m.memory.Paged) (fun _ m => m.memory.Paged) x

section

variable {α : Type}

theorem undisturbed_paged {τ : Type} :
    Undisturbed (fun m : Machine τ => m.memory.Paged) (fun _ m => m.memory.Paged) fun _ => True where
  own _ _ hstores hm := hstores.paged hm
  setGlobal _ _ hm := hm
  fails _ hm := hm

theorem Session.paged_onStream (fd : Nat) (absent : α) (act : EStateM StreamError Descriptor α) :
    KeepsPages (onStream fd absent act) := by
  intro m hm
  unfold onStream
  dsimp only
  split
  · exact hm
  · split <;> exact hm

/-- The filesystem module copies into the guest's memory, and does not let it grow. -/
theorem Session.paged_onFilesystem {act : FilesystemAct α} (h : ∀ m₀, Travels m₀ act) :
    KeepsPages (onFilesystem act) := by
  intro m hm
  have hact := h (entered m) (entered m) .here
  rw [onFilesystem_apply]
  cases hr : act (entered m) with
  | ok a f =>
    rw [hr] at hact
    exact hm.of_size_eq hact.frame.1
  | error e f =>
    rw [hr] at hact
    exact hm.of_size_eq hact.1.frame.1

namespace HostCall

theorem paged_marshal {act : Marshal Unit} (hsize : ∀ m : Memory, (m.after act).size = m.size) :
    KeepsPages (marshal act) := by
  intro m hm
  have hpaged : (m.memory.after act).Paged := hm.of_size_eq (hsize m.memory)
  unfold Memory.after at hpaged
  unfold marshal
  cases hr : act m.memory with
  | ok _ memory =>
    rw [hr] at hpaged
    exact hpaged
  | error e memory =>
    rw [hr] at hpaged
    exact hpaged

theorem paged_run (around : Surroundings) (c : HostCall) (args : List Value) : KeepsPages (c.run around args) := by
  refine run_of_steps around c args (fun hx => ?_) fun _ hplan _ m hm => hplan m m hm
  induction hx with
  | answer e => exact .pure _
  | refused => exact fun _ hm => hm
  | marshal act _ hstores ih => exact .bind (paged_marshal hstores.size) ih
  | draw n _ ih => exact .bind (fun _ hm => hm) ih
  | read _ _ _ _ _ hbuffers hresult =>
    refine .bind (Session.paged_onStream _ _ _) fun t => ?_
    cases t with
    | ready bs => exact .bind (paged_marshal (storesIn_placeRead hbuffers _ hresult).size) fun _ => .pure _
    | pending lens => exact .pure _
  | write _ _ _ _ _ hresult =>
    refine .bind (fun _ hm => hm) fun _ => .bind (Session.paged_onStream _ _ _) fun t => ?_
    cases t with
    | ready n => exact .bind (paged_marshal (Marshal.StoresIn.writeWord hresult).size) fun _ => .pure _
    | pending chunks => exact .pure _
  | exit => exact fun _ hm => hm

end HostCall

namespace Linked

variable (l : Linked)

theorem paged_handle (e : Entry) (args : List Value) : KeepsPages (l.handle e args) := by
  have hforward : KeepsPages (l.forward e.signature.name args) :=
    .bind (Session.paged_onFilesystem fun _ => l.filesystem.travels_forward _ _) fun _ => .pure _
  refine .bind (fun _ hm => hm) fun _ => ?_
  split
  · exact HostCall.paged_run _ _ _
  · exact hforward
  · refine .bind ?_ fun w => .ite (HostCall.paged_run _ _ _) hforward
    rcases HostCall.word_eq args 0 with ⟨w, -, hw⟩ | ⟨e, -, hw⟩ <;> rw [hw]
    · exact .pure w
    · exact fun _ hm => hm
  · exact .pure _
  · exact .pure _
  · exact fun _ hm => hm

/-- An import leaves the guest's memory paged, where none runs under the bridge. -/
theorem paged_answer (hl : l.Genuine) (controls : Controls (Hosted Work Session)) (target : ImportName)
    (args : List Value) : KeepsPages (l.host.answer controls target args) := by
  cases hfind : l.table.find? target.name with
  | none =>
    rw [answer_of_none hfind]
    exact fun _ hm => hm
  | some e =>
    have hvalue : KeepsPages (l.value controls e args) := by
      rw [value_direct (hl.direct e (List.mem_of_find?_eq_some hfind))]
      refine .bind (l.paged_handle e args) fun reply => ?_
      cases reply with
      | ready w => exact .pure w
      | suspend work => exact fun _ hm => hm
    rw [answer_of_some hfind, call_eq]
    refine .bind (.bind (.attempt hvalue) fun r => .bind (fun m hm => ?_) fun _ => ?_) fun _ => .pure _
    · rw [modify_apply]
      unfold traced tracing
      split <;> exact hm
    · cases r with
      | ok w => exact .pure w
      | error failure => exact fun _ hm => hm

end Linked

theorem size_applyData {data : List (UInt32 × List UInt8)} {memory memory' : Memory}
    (h : applyData data memory = .ok memory') : memory'.size = memory.size := by
  induction data generalizing memory with
  | nil => cases h; rfl
  | cons d rest ih =>
    rw [applyData] at h
    split at h
    · exact (ih h).trans (Memory.size_write ..)
    · cases h

/-- A guest that the engine takes starts with whole pages. -/
theorem Guest.paged_of_instantiate {κ η τ : Type} {g : Guest} {host : Host κ η} {outer : τ} {m : Machine τ}
    (hg : g.wellFormed = true) (h : g.instantiate host outer = .ok m) : m.memory.Paged := by
  have hpages : g.pages ≤ pageLimit := by
    have hmost : g.pages ≤ g.mostPages := by simpa using ((Bool.and_eq_true ..).mp hg).1
    exact Nat.le_trans hmost (Nat.min_le_right ..)
  unfold instantiate at h
  split at h
  · cases h
  · cases hd : applyData g.data (Memory.zeroed (g.pages * pageSize)) with
    | error e => rw [hd] at h; cases h
    | ok memory =>
      rw [hd] at h
      cases h
      exact ⟨g.pages, hpages, size_applyData hd⟩

end

/-! ## The calls of a run -/

def Linked.written (l : Linked) (fd : Nat) (h : Heard Memory) : List UInt8 :=
  match l.table.find? h.target.name with
  | some e => e.signature.written h.args h.seen fd
  | none => []

/-- What a call adds to what was offered to a standard descriptor is what it writes. -/
theorem Linked.adds (l : Linked) (hl : l.Genuine) (g : Guest) {limits : Limits} (hdepth : 0 < limits.depth) {fd : Nat}
    (hfd : fd < 3) :
    Adds (fun m => m.memory.Paged) .all (l.written fd) (fun o => o.host.offered fd)
      (g.callImport limits l.host limits.depth) := by
  obtain ⟨depth, hdepth⟩ := Nat.exists_eq_succ_of_ne_zero (Nat.pos_iff_ne_zero.1 hdepth)
  rw [hdepth]
  constructor
  · exact fun target args => l.paged_answer hl _ target args
  · intro target args m hm
    let controls := g.controlsWith limits (g.callImport limits l.host depth)
    have hnote (r : Except Failure UInt32) : (Listener.all.note target args m r).flatMap (l.written fd) =
        match l.table.find? target.name with
        | some e => e.signature.written args m.memory fd
        | none => [] := by
      simp only [Listener.note, Listener.all, if_true, List.flatMap_cons, List.flatMap_nil, List.append_nil, written]
    simp only [hnote]
    show After _ _ (l.host.answer controls target args m)
    cases hfind : l.table.find? target.name with
    | none =>
      simp only [host, hfind, List.append_nil]
      rfl
    | some e =>
      have he : e ∈ l.table := List.mem_of_find?_eq_some hfind
      have hoffered := l.offered_answer controls hfind (hl.direct e he) (hl.services e he) args hm.size_le
      cases hr : l.host.answer controls target args m with
      | ok vs n =>
        rw [hr] at hoffered
        exact hoffered fd hfd
      | error failure n =>
        rw [hr] at hoffered
        exact hoffered fd hfd

namespace Session

/-- What a buffered run does before it enters the guest. -/
def enter (g : Guest) : Act Unit :=
  if g.exportsMemory then do
    preRun
    Exec.settle (g.requireExport Guest.entryName ⟨[], []⟩ (.guestMissingExport Guest.entryName))
  else throw (.guestMissingExport Guest.memoryName)

theorem runGuest_enters (g : Guest) (l : Linked) (limits : Limits) :
    runGuest g l false limits = enter g >>= fun _ => g.entryOf limits l.host := by
  rw [runGuest_buffering, enter]
  split
  · rw [bind_assoc]
  · rfl

theorem enter_keeps (g : Guest) : OffersNothing (enter g) ∧ KeepsPages (enter g) := by
  have hsettle : OffersNothing (Exec.settle (g.requireExport Guest.entryName ⟨[], []⟩
      (.guestMissingExport Guest.entryName)) : Act Unit) ∧ KeepsPages (Exec.settle (g.requireExport Guest.entryName
        ⟨[], []⟩ (.guestMissingExport Guest.entryName)) : Act Unit) := by
    cases g.requireExport Guest.entryName ⟨[], []⟩ (.guestMissingExport Guest.entryName) with
    | ok _ => exact ⟨.pure _, .pure _⟩
    | error e => exact ⟨fun _ _ hm => hm, fun _ hm => hm⟩
  unfold enter
  cases g.exportsMemory with
  | false => exact ⟨fun _ _ hm => hm, fun _ hm => hm⟩
  | true =>
    constructor
    · have hstreams : OffersNothing preRun :=
        .bind (.onStream _ _ _) fun _ => .bind (.onStream _ _ _) fun _ => .onStream _ _ _
      exact .bind hstreams fun _ => hsettle.1
    · have hstreams : KeepsPages preRun :=
        .bind (paged_onStream _ _ _) fun _ => .bind (paged_onStream _ _ _) fun _ => paged_onStream _ _ _
      exact .bind hstreams fun _ => hsettle.2

end Session

/-- The calls that the guest makes in a buffered run, in their order. -/
def Guest.heardCalls (g : Guest) (l : Linked) (limits : Limits) (m : Machine (Hosted Work Session)) :
    List (Heard Memory) :=
  match Session.enter g m with
  | .ok _ n => g.calls limits .all (g.callImport limits l.host limits.depth) n
  | .error _ _ => []

namespace Session

/-- However a buffered run ends, it has offered what its calls write, and nothing besides. -/
theorem offered_runGuest {l : Linked} (hl : l.Genuine) (g : Guest) {limits : Limits} (hdepth : 0 < limits.depth)
    {m m' : Machine (Hosted Work Session)} (hpaged : m.memory.Paged) (hrun : Leads (runGuest g l false limits) m m') :
    OfferedBesides m (fun fd => (g.heardCalls l limits m).flatMap (l.written fd)) m' := by
  obtain ⟨hnothing, hkeeps⟩ := enter_keeps g
  intro fd hfd
  have hbefore := hnothing m.outer.host.offered m rfl
  have hstill := hkeeps m hpaged
  unfold Leads at hrun
  rw [runGuest_enters, bind_apply] at hrun
  unfold Guest.heardCalls
  cases henter : enter g m with
  | error e n =>
    rw [henter] at hrun hbefore
    rcases hrun with ⟨_, hrun⟩ | ⟨_, hrun⟩
    · cases hrun
    · cases hrun
      exact (congrFun hbefore fd).trans (List.append_nil _).symm
  | ok _ n =>
    rw [henter] at hrun hbefore hstill
    have hentry := g.added_entryWith limits (l.adds hl g hdepth hfd) undisturbed_paged hstill
    have hsame : n.outer.host.offered fd = m.outer.host.offered fd := congrFun hbefore fd
    rw [hsame] at hentry
    rcases hrun with ⟨_, hrun⟩ | ⟨_, hrun⟩
    · rw [show g.entryWith limits (g.callImport limits l.host limits.depth) n = _ from hrun] at hentry
      exact hentry
    · rw [show g.entryWith limits (g.callImport limits l.host limits.depth) n = _ from hrun] at hentry
      exact hentry

set_option maxRecDepth 4000 in
/-- The herald's first call writes three bytes to its output, and no other call adds to them. -/
example : (herald.heardCalls (heraldLinked false) ⟨4, 1⟩ (heraldOptions.launch false heraldSession heraldCore)).flatMap
    ((heraldLinked false).written 1) = [104, 101, 121] := by decide +kernel

/-- In a session that buffers its output, all that was offered to a standard descriptor when the guest has ended is
what the guest's calls wrote to it, put together in their order. -/
theorem offered_eq_written (o : Options) (fs : Filesystem) (around : Surroundings) {g : Guest}
    (hg : g.wellFormed = true) {limits : Limits} (hdepth : 0 < limits.depth) {s : Session} {table : ImportTable}
    {m m' : Machine (Hosted Work Session)} (hs : setUp o fs = (.ok (), s))
    (htable : ImportTable.install fs.module false o.traceImports [] = .ok table)
    (hm : g.instantiate (⟨table, fs, around⟩ : Linked).host ({ host := s } : Hosted Work Session) = .ok m)
    (hrun : Leads (runGuest g ⟨table, fs, around⟩ false limits) m m') {fd : Nat} (hfd : fd < 3) :
    let l : Linked := ⟨table, fs, around⟩
    m'.outer.host.offered fd = (g.heardCalls l limits m).flatMap (l.written fd) := by
  intro l
  have hfirst : m.outer.host.offered fd = [] := by
    rw [(Guest.of_instantiate hm).1]
    simp [offered, (of_setUp hs).2]
  have hgenuine : l.Genuine := Linked.genuine_of_install htable
  have hall := offered_runGuest hgenuine g hdepth (Guest.paged_of_instantiate hg hm) hrun fd hfd
  rw [hall, hfirst, List.nil_append]

end Session

end GuestHost
