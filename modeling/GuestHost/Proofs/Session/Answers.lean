/-
  GuestHost.Proofs.Session.Answers — what the host's own imports answer, and how they fail.

  An import that the host answers looks up the words it is given and nothing else, so with arguments of its type it
  never fails over them. What it finds at fault in memory becomes a result code. Only an exit and a failed stream
  are left to end the guest.

  Proved:
  - `Signature.host_surface`: each import of the surface that is routed to the host has a call, whose words are
    among its parameters.
  - `HostCall.ends_run`: a call that finds its words gives a result code or a transfer, or fails as declared.
  - `HostCall.run_randomGet`: what comes of random bytes, also where their source fails.
  - `Work.ends_finish`: such a transfer is finished with a result code, or as a failed stream.
-/

import GuestHost.Proofs.Session.Routing

namespace GuestHost

open Exec

/-- What an import that the host answers may give: a result code, or a transfer to be finished. -/
def Reply.Proper : Reply Work → Prop
  | ready w => ∃ e : Errno, w = e.raw
  | suspend (.read ..) | suspend (.write ..) => True
  | suspend (.value _) => False

def Failure.Declared : Failure → Prop
  | exit _ | stream _ | guestMemoryUnbound => True
  | _ => False

/-- The call of a service that the host has a part in. -/
def Service.call? : Service → Option HostCall
  | .host c | .byDescriptor c => some c
  | _ => none

/-- The host has a call for each import that is routed to it, and its words are words by their types. -/
theorem Signature.host_surface {s : Signature} (hs : s ∈ table) (hroute : s.route = .host) :
    ∃ c, (ImportTable.serviceOf s = some (.host c) ∨ ImportTable.serviceOf s = some (.byDescriptor c)) ∧
      ∀ i ∈ c.words, s.params[i]? = some .i32 := by
  have hcalls : ∀ s ∈ table, s.route = .host → ((ImportTable.serviceOf s).bind Service.call?).any
      (fun c => c.words.all fun i => s.params[i]? == some .i32) = true := by decide
  obtain ⟨c, hc, hwords⟩ := (Option.any_eq_true ..).1 (hcalls s hs hroute)
  obtain ⟨service, hservice, hcall⟩ := Option.bind_eq_some_iff.1 hc
  refine ⟨c, ?_, fun i hi => by simpa using List.all_eq_true.1 hwords i hi⟩
  cases service with
  | host c' => exact .inl (hservice.trans (congrArg _ (congrArg _ (Option.some.inj hcall))))
  | byDescriptor c' => exact .inr (hservice.trans (congrArg _ (congrArg _ (Option.some.inj hcall))))
  | filesystem | scripted => cases hcall

/-- Where the type says that there is a word, there is one. -/
theorem wordArg_of_types {types : List ValType} {args : List Value} (h : typesMatch types args = true) {i : Nat}
    (hi : types[i]? = some .i32) : ∃ w, wordArg args i = .ok w := by
  have htypes : args.map Value.type = types := by simpa [typesMatch] using h
  rw [← htypes, List.getElem?_map] at hi
  obtain ⟨v, hv, htype⟩ := Option.map_eq_some_iff.1 hi
  cases v with
  | i32 w => exact ⟨w, by rw [wordArg, hv]⟩
  | i64 | f32 | f64 => cases htype

section

variable {α : Type} {P : Machine (Hosted Work Session) → Prop} {Q : α → Machine (Hosted Work Session) → Prop}
variable {E : Failure → Machine (Hosted Work Session) → Prop}

theorem Session.ends_onStream (fd : Nat) (absent : α) (act : EStateM StreamError Descriptor α) :
    Ends P (onStream fd absent act) (fun _ _ => True) fun e _ => ∃ s, e = .stream s := by
  intro m _
  cases hd : m.outer.host.stdio.get? fd with
  | none => rw [onStream_none absent act hd]; trivial
  | some d =>
    rw [onStream_some absent act hd]
    cases act d with
    | ok a d' => trivial
    | error e d' => exact ⟨e, rfl⟩

namespace HostCall

theorem ends_mark (deed : Deed) : Ends P (Session.mark deed) (fun _ _ => True) E := .modify fun _ _ => trivial

theorem ends_marshal (act : Marshal Unit) : Ends P (marshal act) (fun _ _ => True) E := by
  intro m _
  unfold marshal
  cases act m.memory <;> trivial

/-- Whatever is found at fault in memory becomes a result code. -/
theorem ends_marshal_answer (act : Marshal Unit) : Ends P (do answer (← marshal act)) (fun r _ => r.Proper) E :=
  (ends_marshal act).bind fun e => .pure fun _ _ => ⟨e, rfl⟩

theorem ends_onStream (fd : Nat) (absent : α) (act : EStateM StreamError Descriptor α) :
    Ends P (Session.onStream fd absent act) (fun _ _ => True) fun e _ => e.Declared :=
  Ends.mono (Session.ends_onStream fd absent act) (fun _ _ h => h) fun _ _ ⟨_, he⟩ => he ▸ trivial

/-- A call that finds its words gives a result code or a transfer, or fails as declared. -/
theorem ends_run (around : Surroundings) (c : HostCall) {args : List Value}
    (h : ∀ i ∈ c.words, ∃ w, wordArg args i = .ok w) :
    Ends P (c.run around args) (fun r _ => r.Proper) fun e _ => e.Declared := by
  suffices hrun : Ends (fun _ => True) (c.run around args) (fun r _ => r.Proper) fun e _ => e.Declared from
    fun m _ => hrun m trivial
  refine run_of_steps (P := fun x => Ends (fun _ => True) x (fun r _ => r.Proper) fun e _ => e.Declared)
    around c args (fun hx => ?_) fun _ hplan _ m hm => hplan m m hm
  induction hx with
  | answer e => exact .pure fun _ _ => ⟨e, rfl⟩
  | refused hi he =>
    obtain ⟨w, hw⟩ := h _ hi
    cases hw.symm.trans he
  | marshal act _ _ ih => exact Ends.bind (ends_marshal act) ih
  | draw n _ ih => exact Ends.bind (Q := fun _ _ => True) (fun _ _ => trivial) ih
  | read =>
    refine Ends.bind (ends_onStream _ _ _) fun t => ?_
    cases t with
    | ready bs => exact ends_marshal_answer _
    | pending lens => exact .pure fun _ _ => trivial
  | write =>
    refine Ends.bind (ends_mark _) fun _ => Ends.bind (ends_onStream _ _ _) fun t => ?_
    cases t with
    | ready n => exact ends_marshal_answer _
    | pending chunks => exact .pure fun _ _ => trivial
  | exit => exact fun m _ => trivial

/-- Random bytes are stored as far as their source gives them. If these are fewer than were asked for, the answer is
`io`. -/
theorem run_randomGet (around : Surroundings) {args : List Value} {buffer len : UInt32}
    {m : Machine (Hosted Work Session)} (hbuffer : wordArg args 0 = .ok buffer) (hlen : wordArg args 1 = .ok len)
    (hplace : buffer.toNat + len.toNat ≤ m.memory.size) :
    ∃ drawn m', draw around len.toNat m = .ok drawn m' ∧
      run around randomGet args m =
        .ok (.ready (if drawn.length < len.toNat then Errno.io else .success).raw)
          { m' with memory := m.memory.write buffer.toNat drawn } := by
  obtain ⟨drawn, m', hdraw⟩ : ∃ drawn m', draw around len.toNat m = .ok drawn m' := ⟨_, _, rfl⟩
  have hmemory : m'.memory = m.memory := by
    obtain ⟨-, rfl⟩ := EStateM.Result.ok.inj hdraw
    rfl
  have hstored : Memory.store buffer len drawn m'.memory = .ok () (m.memory.write buffer.toNat drawn) := by
    rw [hmemory]
    exact Memory.store_eq_ok drawn hplace
  refine ⟨drawn, m', hdraw, ?_⟩
  simp only [run, word_of_ok hbuffer, word_of_ok hlen, pure_bind]
  rw [bind_of_ok (get_apply m), Memory.slice_eq_ok hplace]
  dsimp only
  rw [bind_of_ok hdraw, bind_of_ok (marshal_of_ok hstored)]
  rfl

end HostCall

/-- A transfer that was left to be finished ends with a result code, or as a failed stream. -/
theorem Work.ends_finish {work : Work} (h : (Reply.suspend work).Proper) :
    Ends P work.finish (fun w _ => ∃ e : Errno, w = e.raw) fun e _ => ∃ s, e = .stream s := by
  cases work with
  | read | write =>
    exact Ends.bind (Session.ends_onStream _ _ _) fun _ => Ends.bind (HostCall.ends_marshal _) fun e =>
      .pure fun _ _ => ⟨e, rfl⟩
  | value w => exact h.elim

end

end GuestHost
