/-
  GuestHost.Proofs.Session.Delivery — in a streaming run, what became of the bytes that the guest wrote.

  A write to a standard descriptor with a sink takes its bytes from the guest at once and hands them to the
  sink while the guest is suspended. In between they are held by the bridge, in its phase. So at any time the
  bytes that were offered to a descriptor are those that its sink has taken and those that the phase holds
  (`Handed`), whatever the guest's controls do.

  Proved:
  - `Linked.keeps_call`, `pays_finish`: imports keep the account, and finished work pays what was held for it.
  - `keeps_runGuest`: so does a run, from `handed_setUp` on.
  - `Stdio.taken_cleanUp`: cleaning up adds nothing to it.
-/

import GuestHost.Session.Run
import GuestHost.Proofs.Session.Discipline
import GuestHost.Proofs.Session.Ending
import GuestHost.Proofs.Asyncify.Ledger
import GuestHost.Proofs.Stream.Taken

namespace GuestHost

open Exec

/-- The bytes for a descriptor that the bridge holds. -/
def Phase.held (fd : Nat) : Phase Work → List UInt8
  | unwinding (.write other chunks _) => if other = fd then chunks.flatten else []
  | _ => []

/-- Behind each of the descriptors is a sink, which has taken all that was offered but for what the phase
holds. -/
def Handed (fds : List Nat) (phase : Phase Work) (s : Session) : Prop :=
  ∀ fd ∈ fds, ∃ w, s.stdio.get? fd = some (.streamingOutput w) ∧ s.offered fd = w.sink.taken ++ phase.held fd

/-- What may fail a run in between: the bridge, a stream, or whatever leaves the account in order. -/
def Accounted (before : List (Milestone Work)) (fds : List Nat) (e : Failure) (m : Machine (Hosted Work Session)) :
    Prop :=
  (∃ b, e = .bridge b) ∨ (∃ s, e = .stream s) ∨ Balanced before (Handed fds) m

section

variable {before : List (Milestone Work)} {fds : List Nat}

theorem lenient_accounted : Lenient before (Handed fds) (Accounted before fds) where
  bridge e _ := .inl ⟨e, rfl⟩
  balanced _ _ h := .inr (.inr h)

theorem Quiet.keeps {α : Type} {x : Act α} (h : Quiet x) :
    Keeps (Balanced before (Handed fds)) (Accounted before fds) x := by
  intro m hm
  have hkept {m' : Machine (Hosted Work Session)} (h' : Untouched m m') : Balanced before (Handed fds) m' := by
    simpa only [Balanced, Handed, h'.bridge, h'.stdio, h'.offered] using hm
  have hx := h m m ⟨rfl, rfl, rfl, rfl⟩
  cases hr : x m with
  | ok a m' => rw [hr] at hx; exact hkept hx
  | error e m' => rw [hr] at hx; exact .inr (.inr (hkept hx.1))

/-! ## Reads and writes -/

theorem handed_put {phase phase' : Phase Work} {s s' : Session} {fd : Nat} {d : Descriptor}
    (hs : s'.stdio = s.stdio.put d fd) (hother : ∀ other ≠ fd, s'.offered other = s.offered other)
    (hheld : ∀ other ≠ fd, phase'.held other = phase.held other)
    (hfd : fd ∈ fds → ∃ w, d = .streamingOutput w ∧ s'.offered fd = w.sink.taken ++ phase'.held fd)
    (h : Handed fds phase s) : Handed fds phase' s' := by
  intro other ho
  obtain ⟨w, hw, hoffered⟩ := h other ho
  by_cases heq : other = fd
  · subst heq
    obtain ⟨w', rfl, hoffered'⟩ := hfd ho
    exact ⟨w', by rw [hs]; exact Stdio.get?_put hw _, hoffered'⟩
  · exact ⟨w, by rw [hs, Stdio.get?_put_ne _ heq]; exact hw, by rw [hother _ heq, hheld _ heq]; exact hoffered⟩

theorem Handed.congr {phase phase' : Phase Work} {s : Session} (h : Handed fds phase s)
    (hheld : ∀ fd, phase.held fd = phase'.held fd) : Handed fds phase' s := by
  simpa only [Handed, hheld] using h

/-- An action on a descriptor: what an output has taken and what is held for it are the same bytes after it. -/
theorem ends_onStream {α : Type} {phase : Phase Work} (phase' : Phase Work) {fd : Nat} (absent : α)
    {act : EStateM StreamError Descriptor α} (b : Bridge Work)
    (hheld : ∀ other ≠ fd, phase'.held other = phase.held other)
    (hact : ∀ w a d, act (.streamingOutput w) = .ok a d →
      ∃ w', d = .streamingOutput w' ∧ w.sink.taken ++ phase.held fd = w'.sink.taken ++ phase'.held fd) :
    Ends (fun m => m.outer.bridge = b ∧ Handed fds phase m.outer.host) (Session.onStream fd absent act)
      (fun _ m => m.outer.bridge = b ∧ Handed fds phase' m.outer.host) (Accounted before fds) := by
  intro m ⟨hb, hm⟩
  cases hd : m.outer.host.stdio.get? fd with
  | none =>
    rw [Session.onStream_none absent act hd]
    refine ⟨hb, ?_⟩
    intro other ho
    obtain ⟨w, hw, hoffered⟩ := hm other ho
    have hne : other ≠ fd := by rintro rfl; rw [hd] at hw; cases hw
    exact ⟨w, hw, by rw [hheld _ hne]; exact hoffered⟩
  | some d =>
    rw [Session.onStream_some absent act hd]
    cases hr : act d with
    | error e d' => exact .inr (.inl ⟨e, rfl⟩)
    | ok a d' =>
      refine ⟨hb, handed_put rfl (fun _ _ => rfl) hheld (fun hfd => ?_) hm⟩
      obtain ⟨w, hw, hoffered⟩ := hm fd hfd
      obtain rfl : d = .streamingOutput w := by rw [hw] at hd; exact (Option.some.inj hd).symm
      obtain ⟨w', rfl, htaken⟩ := hact w a d' hr
      exact ⟨w', rfl, hoffered.trans htaken⟩

theorem keeps_onStream {α : Type} {fd : Nat} (absent : α) {act : EStateM StreamError Descriptor α}
    (hact : ∀ w a d, act (.streamingOutput w) = .ok a d → d = .streamingOutput w) :
    Keeps (Balanced before (Handed fds)) (Accounted before fds) (Session.onStream fd absent act) := by
  intro m hm
  have hsame : Ends (fun n => n.outer.bridge = m.outer.bridge ∧ Handed fds m.outer.bridge.phase n.outer.host)
      (Session.onStream fd absent act)
      (fun _ n => n.outer.bridge = m.outer.bridge ∧ Handed fds m.outer.bridge.phase n.outer.host)
      (Accounted before fds) :=
    ends_onStream _ absent m.outer.bridge (fun _ _ => rfl) fun w a d hr => ⟨w, hact w a d hr, rfl⟩
  have h := hsame m ⟨rfl, hm.2⟩
  cases hr : Session.onStream fd absent act m with
  | error e m' => rw [hr] at h; exact h
  | ok a m' =>
    rw [hr] at h
    obtain ⟨hb, hhanded⟩ := h
    rw [← hb] at hhanded
    exact ⟨by rw [hb]; exact hm.1, hhanded⟩

theorem replied_answer (act : Marshal Unit) :
    Ends (Balanced before (Handed fds)) (do HostCall.answer (← HostCall.marshal act)) (Replied before (Handed fds))
      (Accounted before fds) :=
  Ends.bind (HostCall.quiet_marshal act).keeps fun _ => Ends.pure fun _ hm => hm

theorem offered_push (s : Session) (fd other : Nat) (views : List View) :
    { s with deeds := s.deeds.push (.offered fd views) }.offered other =
      s.offered other ++ if fd = other then views.flatMap View.toList else [] := by
  simp [Session.offered, Deed.bytesFor]

/-- What an offer leaves of the balance, where `t` is the transfer that it made. -/
def Offered (before : List (Milestone Work)) (fds : List Nat) (fd : Nat) (result : UInt32)
    (t : Transfer UInt32 PendingWrite) : Machine (Hosted Work Session) → Prop :=
  match t with
  | .ready _ => Balanced before (Handed fds)
  | .pending chunks => Replied before (Handed fds) (.suspend (.write fd chunks result))

theorem offered_writev (fd : Nat) (views : List View) (result : UInt32) :
    Ends (Balanced before (Handed fds))
      (Session.mark (.offered fd views) >>= fun _ => Session.onStream fd (.ready 0) (Descriptor.writev views))
      (Offered before fds fd result) (Accounted before fds) := by
  intro m hm
  let s := { m.outer.host with deeds := m.outer.host.deeds.push (.offered fd views) }
  let m₁ : Machine (Hosted Work Session) := { m with outer := { m.outer with host := s } }
  show After _ _ (Session.onStream fd _ _ m₁)
  have hother : ∀ other ≠ fd, s.offered other = m.outer.host.offered other := fun other ho => by
    rw [offered_push, if_neg (Ne.symm ho), List.append_nil]
  have hself : s.offered fd = m.outer.host.offered fd ++ views.flatMap View.toList := by
    rw [offered_push, if_pos rfl]
  cases hd : m.outer.host.stdio.get? fd with
  | none =>
    rw [Session.onStream_none (m := m₁) _ _ hd]
    refine ⟨hm.1, ?_⟩
    intro other ho
    obtain ⟨w, hw, hoffered⟩ := hm.2 other ho
    have hne : other ≠ fd := by rintro rfl; rw [hd] at hw; cases hw
    exact ⟨w, hw, (hother other hne).trans hoffered⟩
  | some d =>
    rw [Session.onStream_some (m := m₁) _ _ hd]
    -- no sink stands behind a descriptor that answers without one
    have habsent (hnone : ∀ w, d ≠ .streamingOutput w) (d' : Descriptor) :
        Balanced before (Handed fds) (m₁.putStream fd d') := by
      refine ⟨hm.1, handed_put (s := m.outer.host) rfl hother (fun _ _ => rfl) (fun hfd => ?_) hm.2⟩
      obtain ⟨w, hw, -⟩ := hm.2 fd hfd
      rw [hd] at hw
      exact absurd (Option.some.inj hw) (hnone w)
    cases d with
    | bufferedInput r | streamingInput r => exact .inr (.inl ⟨_, rfl⟩)
    | null | bufferedOutput w => exact habsent nofun _
    | streamingOutput w =>
      have hbytes := flatten_chunks views
      have hsink : fd ∈ fds → m.outer.host.offered fd = w.sink.taken ++ m.outer.bridge.phase.held fd := fun hfd => by
        obtain ⟨w', hw, hoffered⟩ := hm.2 fd hfd
        rw [hd] at hw
        cases hw
        exact hoffered
      cases hchunks : (views.filter fun v => v.size != 0).map View.toList with
      | nil =>
        simp only [Descriptor.writev, hchunks]
        refine ⟨hm.1, handed_put (s := m.outer.host) rfl hother (fun _ _ => rfl) (fun hfd => ⟨w, rfl, ?_⟩) hm.2⟩
        rw [hchunks] at hbytes
        exact (hself.trans (by rw [← hbytes, List.flatten_nil, List.append_nil])).trans (hsink hfd)
      | cons c rest =>
        simp only [Descriptor.writev, hchunks]
        refine ⟨hm.1, ?_⟩
        intro hp
        replace hp : m.outer.bridge.phase = .normal := hp
        refine handed_put (s := m.outer.host) rfl hother (fun other ho => ?_) (fun hfd => ⟨w, rfl, ?_⟩) hm.2
        · rw [hp]
          exact if_neg (Ne.symm ho)
        · have hfree := hsink hfd
          rw [hp] at hfree
          rw [hchunks] at hbytes
          refine hself.trans ?_
          rw [hfree, ← hbytes]
          simp [Phase.held]

/-! ## The host of a session -/

theorem replied_run (around : Surroundings) (c : HostCall) (args : List Value) :
    Ends (Balanced before (Handed fds)) (c.run around args) (Replied before (Handed fds)) (Accounted before fds) := by
  refine HostCall.run_of_steps
    (P := fun x => Ends (Balanced before (Handed fds)) x (Replied before (Handed fds)) (Accounted before fds))
    around c args (fun hx => ?_) fun _ hplan _ => Ends.bind Quiet.get.keeps hplan
  induction hx with
  | answer e => exact Ends.pure fun _ hm => hm
  | refused => exact Ends.throw fun _ hm => .inr (.inr hm)
  | marshal act _ _ ih => exact Ends.bind (HostCall.quiet_marshal act).keeps ih
  | draw n _ ih => exact Ends.bind (HostCall.quiet_draw around n).keeps ih
  | read =>
    refine Ends.bind (keeps_onStream _ fun w a d hr => by cases hr) fun t => ?_
    cases t with
    | ready bs => exact replied_answer _
    | pending lens => exact Ends.pure fun m hm => ⟨hm.1, fun hp => (hp ▸ hm.2).congr fun _ => rfl⟩
  | write _ _ _ views result =>
    rw [← bind_assoc]
    refine Ends.bind (offered_writev _ views result) fun t => ?_
    cases t with
    | ready n => exact replied_answer _
    | pending chunks => exact Ends.pure fun _ hm => hm
  | exit =>
    exact Ends.bind Quiet.get.keeps fun _ => Ends.bind (Session.quiet_mark fun _ => rfl).keeps fun _ =>
      Ends.throw fun _ hm => .inr (.inr hm)

namespace Linked

theorem replied_handle (l : Linked) (e : Entry) (args : List Value) :
    Ends (Balanced before (Handed fds)) (l.handle e args) (Replied before (Handed fds)) (Accounted before fds) := by
  have hforward : Ends (Balanced before (Handed fds)) (l.forward e.signature.name args) (Replied before (Handed fds))
      (Accounted before fds) :=
    Ends.bind (Session.quiet_onFilesystem fun _ => l.filesystem.travels_forward _ _).keeps fun _ =>
      Ends.pure fun _ hm => hm
  refine Ends.bind (Session.quiet_handled _ _).keeps fun _ => ?_
  split
  · exact replied_run _ _ _
  · exact hforward
  · refine Ends.bind (HostCall.quiet_word _ _).keeps fun _ => ?_
    split
    · exact replied_run _ _ _
    · exact hforward
  · exact Ends.pure fun _ hm => hm
  · exact Ends.pure fun m hm => ⟨hm.1, fun hp => (hp ▸ hm.2).congr fun _ => rfl⟩
  · exact Ends.throw fun _ hm => .inr (.inr hm)

theorem keeps_value (l : Linked) {controls : Controls (Hosted Work Session)}
    (hc : controls.Keep (Balanced before (Handed fds)) (Accounted before fds)) (e : Entry) (args : List Value) :
    Keeps (Balanced before (Handed fds)) (Accounted before fds) (l.value controls e args) := by
  unfold value
  split
  · exact (wrapping_balanced lenient_accounted fun _ _ h => h.congr fun _ => rfl).keeps_wrapped hc
      (l.replied_handle e args)
  · refine Ends.bind (l.replied_handle e args) ?_
    intro r
    cases r with
    | ready w => exact Ends.pure fun _ hm => hm
    | suspend work => exact Ends.throw fun _ _ => .inl ⟨_, rfl⟩

theorem keeps_call (l : Linked) {controls : Controls (Hosted Work Session)}
    (hc : controls.Keep (Balanced before (Handed fds)) (Accounted before fds)) (e : Entry) (args : List Value) :
    Keeps (Balanced before (Handed fds)) (Accounted before fds) (l.call controls e args) := by
  have hlog (m : Machine (Hosted Work Session)) (r : Except Failure UInt32)
      (hm : Balanced before (Handed fds) m) : Balanced before (Handed fds) (traced e args r m) := by
    have hsession : (tracing e args r m.outer.host).stdio = m.outer.host.stdio ∧
        (tracing e args r m.outer.host).deeds = m.outer.host.deeds := by
      unfold tracing
      split <;> exact ⟨rfl, rfl⟩
    simpa only [Balanced, Handed, Session.offered, traced, hsession] using hm
  rw [call_eq]
  refine Keeps.bind (Ends.bind (Ends.attempt (l.keeps_value hc e args)) fun r => ?_) fun w => Keeps.pure _
  cases r with
  | ok w => exact Ends.bind (Ends.modify fun m hm => hlog m (.ok w) hm) fun _ => Keeps.pure w
  | error e' =>
    rintro m (⟨b, rfl⟩ | ⟨s, rfl⟩ | hm)
    · exact .inl ⟨b, rfl⟩
    · exact .inr (.inl ⟨s, rfl⟩)
    · exact .inr (.inr (hlog m (.error e') hm))

end Linked

/-- Finishing a write hands the held bytes over. -/
theorem pays_finish : Pays (Handed fds) Work.finish (Accounted before fds) where
  returns _ _ h := h.congr fun _ => rfl
  complete work b := by
    have hmarshal (act : Marshal Unit) (value : UInt32) :
        Ends (fun m => m.outer.bridge = b ∧ Handed fds (.rewinding value) m.outer.host)
          (do return (← HostCall.marshal act).raw)
          (fun value m => m.outer.bridge = b ∧ Handed fds (.rewinding value) m.outer.host) (Accounted before fds) := by
      intro m hm
      obtain ⟨e, memory, hr⟩ := HostCall.marshal_apply act m
      rw [bind_apply, hr]
      exact hm
    cases work with
    | value w => exact Ends.pure fun _ hm => ⟨hm.1, hm.2.congr fun _ => rfl⟩
    | read fd lens buffers result =>
      refine Ends.bind (ends_onStream (.rewinding 0) _ b (fun _ _ => rfl) ?_) fun bs => hmarshal _ _
      rintro w a d ⟨⟩
      exact ⟨w, rfl, rfl⟩
    | write fd chunks result =>
      refine Ends.bind (ends_onStream (.rewinding 0) _ b (fun other ho => (if_neg (Ne.symm ho)).symm) ?_)
        fun n => hmarshal _ _
      intro w n d hr
      simp only [Descriptor.finishWrite, Descriptor.within] at hr
      split at hr
      · next w' hput =>
        cases hr
        exact ⟨w', rfl, by rw [StreamingOutput.taken_put hput]; simp [Phase.held]⟩
      · cases hr

/-! ## A whole run -/

theorem keeps_bindBridge (g : Guest) :
    Ends (fun m => Balanced before (Handed fds) m ∧ m.outer.bridge.phase = .normal) (g.bindBridge : Act Unit)
      (fun _ => Balanced before (Handed fds)) (Accounted before fds) := by
  intro m ⟨hm, hphase⟩
  rcases g.bindBridge_cases m with ⟨memory, hr⟩ | ⟨e, -, hr⟩
  · rw [hr]
    exact ⟨hphase ▸ hm.1, hphase ▸ hm.2⟩
  · rw [hr]
    exact .inr (.inr hm)

theorem keeps_preRun :
    Keeps (Balanced before (Handed fds)) (Accounted before fds) Session.preRun := by
  have hact (w : StreamingOutput) (a : Unit) (d : Descriptor)
      (hr : Descriptor.preRun (.streamingOutput w) = .ok a d) : d = .streamingOutput w := by cases hr; rfl
  exact Keeps.bind (keeps_onStream () hact) fun _ => Keeps.bind (keeps_onStream () hact) fun _ => keeps_onStream () hact

theorem keeps_runGuest (g : Guest) (l : Linked) (limits : Limits) :
    Ends (fun m => Balanced before (Handed fds) m ∧ m.outer.bridge.phase = .normal) (Session.runGuest g l true limits)
      (fun _ m => Balanced before (Handed fds) m ∧ ∀ value, m.outer.bridge.phase ≠ .rewinding value)
      (Accounted before fds) := by
  have hanswer (controls : Controls (Hosted Work Session))
      (hc : controls.Keep (Balanced before (Handed fds)) (Accounted before fds)) (target : ImportName)
      (args : List Value) :
      Keeps (Balanced before (Handed fds)) (Accounted before fds) (l.host.answer controls target args) := by
    simp only [Linked.host]
    split
    · exact l.keeps_call hc _ _
    · exact Ends.throw fun _ hm => .inr (.inr hm)
  have hrun := g.keeps_runBridged lenient_accounted limits l.host pays_finish hanswer
  rw [Session.runGuest_streaming]
  split
  · exact Ends.bind (keeps_bindBridge g) fun _ => Ends.bind keeps_preRun fun _ => hrun
  · exact Ends.throw fun _ hm => .inr (.inr hm.1)

/-! ### The end of a run -/

/-- Cleaning up hands nothing to a sink behind a streaming output. -/
theorem Stdio.taken_cleanUp {s : Stdio} {fd : Nat} {w : StreamingOutput} (h : s.get? fd = some (.streamingOutput w)) :
    ∃ w', s.cleanUp.2.get? fd = some (.streamingOutput w') ∧ w'.sink.taken = w.sink.taken := by
  have hclose : ∃ w', Descriptor.after Descriptor.close (.streamingOutput w) = .streamingOutput w' ∧
      w'.sink.taken = w.sink.taken := by
    unfold Descriptor.after Descriptor.close StreamingOutput.close Sink.shutDown
    by_cases hclosed : w.closed
    · exact ⟨w, by simp [hclosed, Descriptor.within], rfl⟩
    · by_cases hfail : w.sink.plan.failShutDown
      · refine ⟨_, by simp [hclosed, hfail, Descriptor.within]; rfl, ?_⟩
        exact (Sink.taken_push _ _).trans (List.append_nil _)
      · refine ⟨_, by simp [hclosed, hfail, Descriptor.within]; rfl, ?_⟩
        exact (Sink.taken_push _ _).trans (List.append_nil _)
  obtain ⟨w', hw', htaken⟩ := hclose
  refine ⟨w', ?_, htaken⟩
  simp only [cleanUp]
  rw [get?_each, get?_each, h]
  simp only [Option.map_some, hw']
  rfl

end

def Options.sinkNumbers (o : Options) : List Nat :=
  (if o.stdout.isSome then [1] else []) ++ (if o.stderr.isSome then [2] else [])

/-- A session that was set up has its streams, and did nothing yet. -/
theorem Session.of_setUp {o : Options} {fs : Filesystem} {s : Session} (h : setUp o fs = (.ok (), s)) :
    s.stdio = o.stdio ∧ s.deeds = #[] := by
  simp only [setUp] at h
  split at h <;> cases h
  exact ⟨rfl, rfl⟩

theorem handed_setUp {o : Options} {fs : Filesystem} {s : Session} (hs : Session.setUp o fs = (.ok (), s))
    (ho : o.streaming = true) : Handed o.sinkNumbers .normal s := by
  have hstart := Session.of_setUp hs
  have hsink (plan : SinkPlan) (fd : Nat)
      (hd : o.stdio.get? fd = some (Descriptor.ofSink (some plan) o.streaming)) :
      ∃ w, s.stdio.get? fd = some (.streamingOutput w) ∧ s.offered fd = w.sink.taken ++ Phase.held fd .normal := by
    refine ⟨⟨⟨plan, 0, #[]⟩, false⟩, ?_, ?_⟩
    · rw [hstart.1, hd, ho]
      rfl
    · rw [Session.offered, hstart.2]
      rfl
  intro fd hfd
  cases hout : o.stdout with
  | none =>
    cases herr : o.stderr with
    | none => simp [Options.sinkNumbers, hout, herr] at hfd
    | some plan =>
      obtain rfl : fd = 2 := by simpa [Options.sinkNumbers, hout, herr] using hfd
      exact hsink plan 2 (by rw [← herr]; rfl)
  | some plan =>
    cases herr : o.stderr with
    | none =>
      obtain rfl : fd = 1 := by simpa [Options.sinkNumbers, hout, herr] using hfd
      exact hsink plan 1 (by rw [← hout]; rfl)
    | some plan' =>
      have h12 : fd = 1 ∨ fd = 2 := by simpa [Options.sinkNumbers, hout, herr] using hfd
      rcases h12 with rfl | rfl
      · exact hsink plan 1 (by rw [← hout]; rfl)
      · exact hsink plan' 2 (by rw [← herr]; rfl)

end GuestHost
