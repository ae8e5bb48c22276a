/-
  GuestHost.Proofs.Session.Diagnostics — what a buffered run has kept of its output, and where it goes.

  Of all that a guest calls, only a write on a standard descriptor offers bytes to it: those of the buffers that
  its array lists, if the array and all of them lie in memory (`Signature.written`). A buffered output keeps all
  of that until the guest has ended, and its sink sees nothing before. So cleaning up writes what was offered, and
  the diagnostics of a failure, which are taken before, are the same bytes.

  Proved:
  - `Linked.offered_answer`: what a call of the guest adds to what was offered (`Session.offered_eq_written` puts the
    calls of a run together).
  - `buffered_output_is_complete`: every buffered run, however it ends; and a streaming run keeps nothing back.
-/

import GuestHost.Proofs.Abi.Buffers
import GuestHost.Proofs.Session.Outputs

namespace GuestHost

open Exec

/-! ## What calls write -/

/-- The bytes of the buffers that an array lists, in order, if the array and all of them lie in memory. -/
def Memory.listed (m : Memory) (array count : UInt32) : List UInt8 :=
  if m.HoldsArray array count ∧ ∀ i < count.toNat, (m.entry array.toNat i).Fits m then
    (List.range count.toNat).flatMap fun i => m.read (m.entry array.toNat i).ptr.toNat (m.entry array.toNat i).len.toNat
  else []

theorem Memory.listed_of_lists {m : Memory} {array count : UInt32} (h : m.Lists array count) :
    m.listed array count = (m.views array count).flatMap View.toList := by
  have hfits : ∀ i < count.toNat, (m.entry array.toNat i).Fits m := fun i hi =>
    h.2 _ (List.mem_map_of_mem (List.mem_range.2 hi))
  simp only [listed, if_pos (And.intro h.1 hfits), views, buffers, List.flatMap_map, toList_view]

theorem Memory.listed_of_not {m : Memory} {array count : UInt32} (h : ¬ m.Lists array count) :
    m.listed array count = [] :=
  if_neg fun hlists => h ⟨hlists.1, List.forall_mem_map.2 fun i hi => hlists.2 i (List.mem_range.1 hi)⟩

/-- What a call writes to a standard descriptor: nothing, unless it is a write with four words. -/
def Signature.written (s : Signature) (args : List Value) (m : Memory) (fd : Nat) : List UInt8 :=
  match s.name, wordArg args 0, wordArg args 1, wordArg args 2, wordArg args 3 with
  | "fd_write", .ok w, .ok array, .ok count, .ok _ => if w.toNat = fd then m.listed array count else []
  | _, _, _, _, _ => []

theorem Signature.written_of_ne {s : Signature} (h : s.name ≠ "fd_write") (args : List Value) (m : Memory) (fd : Nat) :
    s.written args m fd = [] := by
  unfold written
  split
  · next hname _ _ _ _ => exact absurd hname h
  · rfl

theorem Signature.written_of_error {s : Signature} {args : List Value} {i : Nat} (hi : i < 4) {e : MarshalError}
    (h : wordArg args i = .error e) (m : Memory) (fd : Nat) : s.written args m fd = [] := by
  unfold written
  split
  · next h₀ h₁ h₂ h₃ =>
    match i, hi with
    | 0, _ => rw [h] at h₀; cases h₀
    | 1, _ => rw [h] at h₁; cases h₁
    | 2, _ => rw [h] at h₂; cases h₂
    | 3, _ => rw [h] at h₃; cases h₃
  · rfl

theorem Signature.written_of_other {s : Signature} {args : List Value} {w : UInt32} (hw : wordArg args 0 = .ok w)
    {fd : Nat} (h : w.toNat ≠ fd) (m : Memory) : s.written args m fd = [] := by
  unfold written
  split
  · next hv _ _ _ =>
    rw [hw] at hv
    cases hv
    exact if_neg h
  · rfl

/-- The action offers nothing to a descriptor, also if it fails. -/
def OffersNothing {α : Type} (x : Act α) : Prop :=
  ∀ f, Keeps (fun m => m.outer.host.offered = f) (fun _ m => m.outer.host.offered = f) x

namespace OffersNothing

variable {α β : Type}

theorem pure (a : α) : OffersNothing (Pure.pure a) := fun _ => Keeps.pure a

theorem bind {x : Act α} {f : α → Act β} (hx : OffersNothing x) (hf : ∀ a, OffersNothing (f a)) :
    OffersNothing (x >>= f) := fun o => Keeps.bind (hx o) fun a => hf a o

theorem of_quiet {x : Act α} (h : Quiet x) : OffersNothing x := by
  intro f m hm
  have hx := h m m ⟨rfl, rfl, rfl, rfl⟩
  cases hr : x m with
  | ok a m' => rw [hr] at hx; exact hx.offered.trans hm
  | error e m' => rw [hr] at hx; exact hx.1.offered.trans hm

/-- What is done to a stream is no offer; the offer is marked before. -/
theorem onStream (fd : Nat) (absent : α) (act : EStateM StreamError Descriptor α) :
    OffersNothing (Session.onStream fd absent act) := by
  intro f m hm
  unfold Session.onStream
  dsimp only
  split
  · exact hm
  · split <;> exact hm

/-- Only a write offers something. -/
theorem run (around : Surroundings) {c : HostCall} (hc : c ≠ .fdWrite) (args : List Value) :
    OffersNothing (c.run around args) := by
  refine HostCall.run_of_steps around c args (fun hx => ?_) fun _ hplan _ => .bind (.of_quiet .get) hplan
  induction hx with
  | answer e => exact .pure _
  | refused => exact .of_quiet (.throw nofun)
  | marshal act _ _ ih => exact .bind (.of_quiet (HostCall.quiet_marshal act)) ih
  | draw n _ ih => exact .bind (.of_quiet (HostCall.quiet_draw around n)) ih
  | read =>
    refine .bind (.onStream _ _ _) fun t => ?_
    cases t with
    | ready bs => exact .of_quiet (HostCall.quiet_marshalled _)
    | pending lens => exact .pure _
  | write hwrite => exact absurd hwrite hc
  | exit => exact .of_quiet (.bind .get fun _ => .bind (Session.quiet_mark fun _ => rfl) fun _ => .throw nofun)

end OffersNothing

/-- The machine `m'` was offered what `m` was, and these bytes besides. -/
def OfferedBesides (m : Machine (Hosted Work Session)) (bytes : Nat → List UInt8) (m' : Machine (Hosted Work Session)) :
    Prop := ∀ fd < 3, m'.outer.host.offered fd = m.outer.host.offered fd ++ bytes fd

theorem OffersNothing.after {α : Type} {x : Act α} (h : OffersNothing x) {m₀ m : Machine (Hosted Work Session)}
    {bytes : Nat → List UInt8} (hm : OfferedBesides m₀ bytes m) :
    After (fun _ => OfferedBesides m₀ bytes) (fun _ => OfferedBesides m₀ bytes) (x m) := by
  have hx := h m.outer.host.offered m rfl
  cases hr : x m with
  | ok a m' => rw [hr] at hx; exact fun fd hfd => (congrFun hx fd).trans (hm fd hfd)
  | error e m' => rw [hr] at hx; exact fun fd hfd => (congrFun hx fd).trans (hm fd hfd)

/-- A write on a standard descriptor offers it the bytes of its buffers, if these are in memory. -/
theorem HostCall.offered_writeStream {s : Signature} (hname : s.name = "fd_write") {args : List Value}
    (hstandard : ∀ w, wordArg args 0 = .ok w → w.toNat < 3) {m₀ m : Machine (Hosted Work Session)}
    (hm : m.outer.host.offered = m₀.outer.host.offered) (hsize : m.memory.size ≤ UInt32.size) :
    After (fun _ => OfferedBesides m₀ (s.written args m.memory)) (fun _ => OfferedBesides m₀ (s.written args m.memory))
      (writeStream args m) := by
  have hnothing (h : ∀ fd, s.written args m.memory fd = []) : OfferedBesides m₀ (s.written args m.memory) m := by
    intro fd _
    rw [h fd, List.append_nil, hm]
  rcases writeStream_words args with
    ⟨w, array, count, result, hw, harray, hcount, hresult, hcall⟩ | ⟨i, hi, e, he, hcall⟩ <;> rw [hcall]
  case inr => exact hnothing (Signature.written_of_error hi he _)
  have hwritten (fd : Nat) : s.written args m.memory fd = if w.toNat = fd then m.memory.listed array count else [] := by
    simp only [Signature.written, hname, hw, harray, hcount, hresult]
  by_cases hlists : m.memory.Lists array count
  · rw [writeStream_of_lists hsize hlists (hstandard w hw)]
    refine OffersNothing.after (.bind (.onStream _ _ _) fun t => ?_) fun fd _ => ?_
    · cases t with
      | ready n => exact .of_quiet (quiet_marshalled _)
      | pending chunks => exact .pure _
    · refine (offered_push m.outer.host w.toNat fd _).trans ?_
      rw [hwritten, Memory.listed_of_lists hlists, hm]
  · rw [writeStream_of_not hsize hlists]
    exact hnothing fun fd => by rw [hwritten, Memory.listed_of_not hlists, ite_self]

namespace Linked

/-- What a handler adds to what was offered. -/
theorem offered_handle (l : Linked) {e : Entry} (hservice : ImportTable.serviceOf e.signature = some e.service)
    (args : List Value) {m : Machine (Hosted Work Session)} (hsize : m.memory.size ≤ UInt32.size) :
    let bytes := e.signature.written args m.memory
    After (fun _ => OfferedBesides m bytes) (fun _ => OfferedBesides m bytes) (l.handle e args m) := by
  obtain ⟨signature, service, bridged, traced⟩ := e
  intro bytes
  let n := m.noting (.handled signature.name args)
  have hmark : n.outer.host.offered = m.outer.host.offered := Session.offered_deed m.outer.host fun _ => rfl
  -- what is no write of a standard descriptor adds nothing
  have helse {x : Act (Reply Work)} (hx : OffersNothing x) (h : ∀ fd < 3, bytes fd = []) :
      After (fun _ => OfferedBesides m bytes) (fun _ => OfferedBesides m bytes) (x n) :=
    hx.after fun fd hfd => by rw [hmark, h fd hfd, List.append_nil]
  have hforward : OffersNothing (l.forward signature.name args) := .of_quiet (l.quiet_forward _ _)
  unfold handle
  rw [bind_of_ok (show Session.mark (.handled signature.name args) m = .ok () n from rfl)]
  cases Signature.kind_of_serviceOf hservice with
  | host hsplits _ _ hwrite =>
    exact helse (.run _ hwrite _) fun _ _ => Signature.written_of_ne (fun hname => hsplits (.inr hname)) _ _ _
  | filesystem hsplits _ =>
    exact helse hforward fun _ _ => Signature.written_of_ne (fun hname => hsplits (.inr hname)) _ _ _
  | split hname =>
    rcases hname with ⟨hread, rfl⟩ | ⟨hwrite, rfl⟩
    case inl =>
      have hname : signature.name ≠ "fd_write" := by rw [hread]; decide
      refine helse (.bind (.of_quiet (HostCall.quiet_word _ _)) fun w f => ?_) fun _ _ =>
        Signature.written_of_ne hname _ _ _
      exact Keeps.ite (OffersNothing.run _ (by decide) _ _) (hforward f)
    show After _ _ ((HostCall.word args 0 >>= fun w => if w < firstFilesystemDescriptor then
        HostCall.writeStream args else l.forward signature.name args) n)
    rcases HostCall.word_eq args 0 with ⟨w, hw₀, hword⟩ | ⟨failure, he, hword⟩ <;> rw [hword]
    case inr =>
      rw [throw_bind]
      exact helse (.of_quiet (.throw nofun)) fun fd _ => Signature.written_of_error (by decide) he _ _
    rw [pure_bind]
    by_cases hw : w < firstFilesystemDescriptor
    · rw [if_pos hw]
      refine HostCall.offered_writeStream hwrite (fun v hv => ?_) hmark hsize
      rw [hw₀] at hv
      cases hv
      exact UInt32.lt_iff_toNat_lt.1 hw
    · rw [if_neg hw]
      refine helse hforward fun fd hfd => ?_
      have hother : w.toNat ≠ fd := by
        have hthree : 3 ≤ w.toNat := Nat.not_lt.1 fun h => hw (UInt32.lt_iff_toNat_lt.2 h)
        omega
      exact Signature.written_of_other hw₀ hother m.memory

/-- What a call of the guest adds to what was offered, where no import runs under the bridge. -/
theorem offered_answer (l : Linked) (controls : Controls (Hosted Work Session)) {target : ImportName} {e : Entry}
    (hfind : l.table.find? target.name = some e) (hdirect : e.bridged = false)
    (hservice : ImportTable.serviceOf e.signature = some e.service) (args : List Value)
    {m : Machine (Hosted Work Session)} (hsize : m.memory.size ≤ UInt32.size) :
    let bytes := e.signature.written args m.memory
    After (fun _ => OfferedBesides m bytes) (fun _ => OfferedBesides m bytes)
      (l.host.answer controls target args m) := by
  intro bytes
  have hvalue : Ends (· = m) (l.value controls e args) (fun _ => OfferedBesides m bytes)
      fun _ => OfferedBesides m bytes := by
    unfold value
    rw [if_neg (by simp [hdirect])]
    refine Ends.bind (Q := fun _ => OfferedBesides m bytes) ?_ fun reply => ?_
    · rintro _ rfl
      exact l.offered_handle hservice args hsize
    · cases reply with
      | ready w => exact Ends.pure fun _ hm => hm
      | suspend work => exact Ends.throw fun _ hm => hm
  have hcall : Ends (· = m) (l.call controls e args) (fun _ => OfferedBesides m bytes)
      fun _ => OfferedBesides m bytes := by
    rw [call_eq]
    have hattempt : Ends (· = m) (attempt (l.value controls e args)) (fun _ => OfferedBesides m bytes)
        fun _ => OfferedBesides m bytes :=
      Ends.mono (Ends.attempt hvalue) (fun r _ h => by cases r <;> exact h) fun _ _ h => h
    refine Ends.bind (Q := fun _ => OfferedBesides m bytes)
      (Ends.bind (Q := fun _ => OfferedBesides m bytes) hattempt fun r => ?_) fun _ => Ends.pure fun _ h => h
    refine Ends.bind (Q := fun _ => OfferedBesides m bytes) (Ends.modify fun m' h => ?_) fun _ => ?_
    · unfold traced tracing
      split <;> exact h
    · cases r with
      | ok w => exact Ends.pure fun _ h => h
      | error failure => exact Ends.throw fun _ h => h
  simp only [host, hfind]
  exact hcall m rfl

end Linked

/-! ## The end of a run -/

/-- The output that a run keeps back for a descriptor: all that was offered to it, if it is buffered. -/
def Options.keptBack (o : Options) (s : Session) (fd : Nat) : List UInt8 :=
  if o.streaming = false ∧ (o.plan? fd).isSome then s.offered fd else []

namespace Session

theorem StreamsOpen.buffered {o : Options} {s : Session} (h : s.StreamsOpen o) {fd : Nat} {d : Descriptor}
    (hd : s.stdio.get? fd = some d) : d.buffered = o.keptBack s fd := (h fd d hd).buffered

/-- The diagnostics of a failure are what the outputs kept when the guest had ended. -/
theorem diagnostics_of_ending {returnOnExit : Bool} {result : Except Failure Unit} {m : Machine (Hosted Work Session)}
    {source : Failure} {stdout stderr : List UInt8}
    (h : ending returnOnExit result m = .error (.fatal source stdout stderr)) :
    stdout = m.outer.host.stdio.output.buffered ∧ stderr = m.outer.host.stdio.error.buffered := by
  simp only [ending] at h
  split at h
  · cases h
    exact ⟨rfl, rfl⟩
  · unfold Outcome.settle at h
    split at h
    · cases h
    · split at h <;> cases h
    · split at h <;> cases h
    · cases h
      exact ⟨rfl, rfl⟩

/-- What has become of the output of a run whose guest ended in `m`. -/
structure Ended.Complete (t : Ended) (o : Options) (m : Machine (Hosted Work Session)) : Prop where
  /-- Only cleaning up came after that. -/
  machine : t.machine = cleanedUp m
  /-- A buffered sink has seen nothing by then, and of what was offered it is written a beginning; all of it, if the
  sink does not fail. -/
  sinks : o.streaming = false → ∀ fd p, o.plan? fd = some p → ∃ before after,
    m.outer.host.stdio.get? fd = some before ∧ t.machine.outer.host.stdio.get? fd = some after ∧ before.events = [] ∧
      SinkEvent.taken after.events <+: m.outer.host.offered fd ∧
      (p.Faultless ∨ (∀ e ∈ after.events, e.isFailure = false) → SinkEvent.taken after.events = m.outer.host.offered fd)
  diagnostics : ∀ source stdout stderr, t.result = .error (.fatal source stdout stderr) →
    stdout = o.keptBack m.outer.host 1 ∧ stderr = o.keptBack m.outer.host 2

end Session

/-- Every call that a guest can make in a buffered run adds to what was offered exactly what it writes. -/
def Linked.CountsWrites (l : Linked) : Prop :=
  ∀ (controls : Controls (Hosted Work Session)) (target : ImportName) (e : Entry) (args : List Value)
    (m m' : Machine (Hosted Work Session)), l.table.find? target.name = some e → m.memory.size ≤ UInt32.size →
    Leads (l.host.answer controls target args) m m' → OfferedBesides m (e.signature.written args m.memory) m'

/-- Whatever the guest, the filesystem module and the streams, and however the run ends: what was offered to a
descriptor is what the calls of the guest wrote, a buffered output delivers it as far as its sink takes it and not
earlier than in the end, and the diagnostics are these bytes. A streaming run has none. -/
theorem buffered_output_is_complete (o : Options) (fs : Filesystem) (around : Surroundings) (g : Guest)
    (limits : Limits) {s : Session} {table : ImportTable} {m : Machine (Hosted Work Session)}
    (hs : Session.setUp o fs = (.ok (), s))
    (htable : ImportTable.install fs.module o.streaming o.traceImports [] = .ok table)
    (hm : g.instantiate (⟨table, fs, around⟩ : Linked).host ({ host := s } : Hosted Work Session) = .ok m) :
    (∀ fd, m.outer.host.offered fd = []) ∧
      (o.streaming = false → (⟨table, fs, around⟩ : Linked).CountsWrites) ∧
      ∃ m', Leads (Session.runGuest g ⟨table, fs, around⟩ o.streaming limits) m m' ∧
        (Session.start g ⟨table, fs, around⟩ o.streaming o.returnOnExit limits m).Complete o m' := by
  obtain ⟨-, hinstalled⟩ := ImportTable.install_installed htable
  obtain ⟨result, m', hgives, hstart⟩ := Session.start_cases g ⟨table, fs, around⟩ o.streaming limits m
  have hleads := hgives.leads
  have hopen := Session.streamsOpen_of_leads hs hm hleads
  refine ⟨fun fd => ?_, fun hstreaming => ?_, m', hleads, ?_⟩
  · rw [(Guest.of_instantiate hm).1]
    simp [Session.offered, (Session.of_setUp hs).2]
  · intro controls target e args n n' hfind hsize hanswer
    have he : e ∈ table := List.mem_of_find?_eq_some hfind
    have hafter := Linked.offered_answer ⟨table, fs, around⟩ controls hfind
      ((hinstalled e he).bridged.trans hstreaming) (hinstalled e he).service args hsize
    rcases hanswer with ⟨_, hr⟩ | ⟨_, hr⟩
    · rw [hr] at hafter
      exact hafter
    · rw [hr] at hafter
      exact hafter
  · rw [hstart]
    constructor
    case machine => rfl
    case sinks =>
      intro hstreaming fd p hplan
      obtain ⟨d, hd, hbefore, hcleaned⟩ := hopen.descriptor hplan
      rw [hstreaming] at hbefore
      refine ⟨d, d.cleaned, hd, hcleaned, hbefore.untouched, hbefore.delivery.taken_prefix, ?_⟩
      rintro (hfaultless | hevents)
      · obtain ⟨s', hw, -⟩ := Sink.writeAll_ok hfaultless (s := ⟨p, 0, #[]⟩) ⟨rfl, by simp⟩ (m'.outer.host.offered fd)
        exact hbefore.delivery.taken_eq_of_ok hw
      · exact hbefore.delivery.taken_eq hevents
    case diagnostics =>
      intro source stdout stderr hfatal
      obtain ⟨hout, herr⟩ := Session.diagnostics_of_ending hfatal
      exact ⟨hout.trans (hopen.buffered rfl), herr.trans (hopen.buffered rfl)⟩

set_option maxRecDepth 4000

/-- The parting herald's exit fails because its one sink refuses what it is given. The failure shows both messages, and
these are what the sinks were to get. -/
theorem a_refused_message_is_shown :
    ∃ m m', partingHerald.instantiate (heraldLinked false).host ({ host := stubbornSession } : Hosted Work Session) =
        .ok m ∧
      (stubbornEnd true m).Complete { stubbornOptions with returnOnExit := true } m' ∧
      (stubbornEnd true m).result =
        .error (.fatal (.stream (.io "sink write failed")) [104, 101, 121] [101, 121]) ∧
      m'.outer.host.offered 1 = [104, 101, 121] ∧ m'.outer.host.offered 2 = [101, 121] := by
  have h : (partingHerald.instantiate (heraldLinked false).host
      ({ host := stubbornSession } : Hosted Work Session)).toOption.any
      (fun m => match (stubbornEnd true m).result with
        | .error e => decide (e = .fatal (.stream (.io "sink write failed")) [104, 101, 121] [101, 121])
        | .ok _ => false) := by
    decide +kernel
  obtain ⟨m, hm, hlast⟩ := (Option.any_eq_true ..).1 h
  obtain ⟨-, -, m', -, hcomplete⟩ := buffered_output_is_complete { stubbornOptions with returnOnExit := true }
    heraldFilesystem ⟨0, fun _ => some 0⟩ partingHerald ⟨4, 1⟩ setUp_stubborn (installed_heraldTable false)
    (eq_ok_of_toOption hm)
  cases hresult : (stubbornEnd true m).result with
  | ok code =>
    rw [hresult] at hlast
    cases hlast
  | error e =>
    rw [hresult] at hlast
    obtain rfl := of_decide_eq_true hlast
    obtain ⟨hout, herr⟩ := hcomplete.diagnostics _ _ _ hresult
    exact ⟨m, m', eq_ok_of_toOption hm, hcomplete, hresult, hout.symm, herr.symm⟩

end GuestHost
