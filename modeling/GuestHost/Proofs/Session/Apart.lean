/-
  GuestHost.Proofs.Session.Apart — actions that have nothing to do with one part of a session.

  An action is blind to a change of the session (`Blind`) if it does on the changed session what it does on the
  session itself, and leaves it with the same change: so it neither sees nor touches what the change is about.
  Two changes matter here: another adapter under a standard descriptor (`Session.withStream`), and another
  filesystem machine (`Session.withFilesystem`).

  Proved:
  - `HostCall.blind_run`, `Work.blind_finish`: the host's own calls are blind to the filesystem machine, and to all
    adapters but the one that a read or a write is about.
  - `Session.blind_onFilesystem`: the filesystem module is blind to the adapters.
  - `Blind.stdio`, `Blind.filesystem`: blind to a part, so the part is as it was.
-/

import GuestHost.Proofs.Session.Twins

namespace GuestHost

open Exec

namespace Machine

def withHost (m : Machine (Hosted Work Session)) (s : Session) : Machine (Hosted Work Session) :=
  { m with outer := { m.outer with host := s } }

def onHost (m : Machine (Hosted Work Session)) (f : Session → Session) : Machine (Hosted Work Session) :=
  m.withHost (f m.outer.host)

end Machine

namespace Session

def withStream (fd : Nat) (d : Descriptor) (s : Session) : Session := { s with stdio := s.stdio.put d fd }

def withFilesystem (machine : Machine Linkage) (s : Session) : Session := { s with filesystem := machine }

end Session

def Exec.changed {α : Type} (f : Session → Session) :
    EStateM.Result Failure (Machine (Hosted Work Session)) α → EStateM.Result Failure (Machine (Hosted Work Session)) α
  | .ok a m => .ok a (m.onHost f)
  | .error e m => .error e (m.onHost f)

/-- Neither sees nor touches what `f` changes. -/
def Blind {α : Type} (f : Session → Session) (x : Act α) : Prop := ∀ m, x (m.onHost f) = changed f (x m)

section

variable {α β : Type} {f : Session → Session}

namespace Blind

theorem pure (a : α) : Blind f (Pure.pure a) := fun _ => rfl

theorem throw (e : Failure) : Blind f (throw e : Act α) := fun _ => rfl

theorem bind {x : Act α} {k : α → Act β} (hx : Blind f x) (hk : ∀ a, Blind f (k a)) : Blind f (x >>= k) := by
  intro m
  rw [bind_apply, bind_apply, hx m]
  cases x m with
  | ok a m' => exact hk a m'
  | error e m' => rfl

theorem ite {c : Prop} [Decidable c] {x y : Act α} (hx : Blind f x) (hy : Blind f y) :
    Blind f (if c then x else y) := by
  split
  · exact hx
  · exact hy

/-- A look at the state, of which only such parts are used as `f` does not change. -/
theorem get {k : Machine (Hosted Work Session) → Act α} (hk : ∀ m, Blind f (k m)) (hsame : ∀ m, k (m.onHost f) = k m) :
    Blind f (get >>= k) := by
  intro m
  rw [bind_apply, bind_apply]
  simp only [get_apply, hsame]
  exact hk m m

/-- A change that changes nothing before changes nothing after. -/
theorem fixed {x : Act α} (h : Blind f x) {m m' : Machine (Hosted Work Session)} (hm : m.onHost f = m)
    (hx : Leads x m m') : m'.onHost f = m' := by
  have hblind := h m
  rw [hm] at hblind
  rcases hx with ⟨a, hx⟩ | ⟨e, hx⟩
  · rw [hx] at hblind
    exact (EStateM.Result.ok.inj hblind).2.symm
  · rw [hx] at hblind
    exact (EStateM.Result.error.inj hblind).2.symm

/-- Blind to any adapter under a number, so the adapters are left as they are. -/
theorem stdio {x : Act α} (h : ∀ fd d, Blind (Session.withStream fd d) x) {m m' : Machine (Hosted Work Session)}
    (hx : Leads x m m') : m'.outer.host.stdio = m.outer.host.stdio := by
  have hput (fd : Nat) (d : Descriptor) (hd : m.outer.host.stdio.get? fd = some d) :
      m'.outer.host.stdio.put d fd = m'.outer.host.stdio :=
    congrArg (fun n : Machine (Hosted Work Session) => n.outer.host.stdio)
      ((h fd d).fixed (Machine.putStream_same hd) hx)
  have h₀ := congrArg Stdio.input (hput 0 _ rfl)
  have h₁ := congrArg Stdio.output (hput 1 _ rfl)
  have h₂ := congrArg Stdio.error (hput 2 _ rfl)
  calc m'.outer.host.stdio
      = ⟨m'.outer.host.stdio.input, m'.outer.host.stdio.output, m'.outer.host.stdio.error⟩ := rfl
    _ = ⟨m.outer.host.stdio.input, m.outer.host.stdio.output, m.outer.host.stdio.error⟩ := by rw [← h₀, ← h₁, ← h₂]; rfl

/-- Blind to the filesystem machine, so it is left as it is. -/
theorem filesystem {x : Act α} (h : ∀ machine, Blind (Session.withFilesystem machine) x)
    {m m' : Machine (Hosted Work Session)} (hx : Leads x m m') :
    m'.outer.host.filesystem = m.outer.host.filesystem := by
  have hm : m.onHost (Session.withFilesystem m.outer.host.filesystem) = m := rfl
  exact (congrArg (fun n : Machine (Hosted Work Session) => n.outer.host.filesystem) ((h _).fixed hm hx)).symm

end Blind

/-! ## Changes -/

/-- A change of the session that leaves alone what the host itself keeps there. -/
structure Aside (f : Session → Session) : Prop where
  args : ∀ s, (f s).args = s.args
  env : ∀ s, (f s).env = s.env
  drawn : ∀ s, (f s).drawn = s.drawn
  draw : ∀ s n, f { s with drawn := n } = { f s with drawn := n }
  mark : ∀ s deed, f { s with deeds := s.deeds.push deed } = { f s with deeds := (f s).deeds.push deed }

/-- A change of the session that leaves the adapter under a descriptor alone. -/
structure Misses (f : Session → Session) (fd : Nat) : Prop where
  get : ∀ s, (f s).stdio.get? fd = s.stdio.get? fd
  put : ∀ s d, f { s with stdio := s.stdio.put d fd } = { f s with stdio := (f s).stdio.put d fd }

theorem Stdio.put_comm (s : Stdio) {fd other : Nat} (h : other ≠ fd) (d d' : Descriptor) :
    (s.put d fd).put d' other = (s.put d' other).put d fd := by
  match fd with
  | 0 | 1 | 2 =>
    match other with
    | 0 | 1 | 2 => first | rfl | exact absurd rfl h
    | _ + 3 => rfl
  | _ + 3 => rfl

namespace Session

theorem aside_withStream (fd : Nat) (d : Descriptor) : Aside (withStream fd d) :=
  ⟨fun _ => rfl, fun _ => rfl, fun _ => rfl, fun _ _ => rfl, fun _ _ => rfl⟩

theorem aside_withFilesystem (machine : Machine Linkage) : Aside (withFilesystem machine) :=
  ⟨fun _ => rfl, fun _ => rfl, fun _ => rfl, fun _ _ => rfl, fun _ _ => rfl⟩

theorem misses_withStream {fd other : Nat} (h : other ≠ fd) (d : Descriptor) : Misses (withStream fd d) other where
  get s := s.stdio.get?_put_ne h d
  put s d' := by simp only [withStream, Stdio.put_comm _ h]

theorem misses_withFilesystem (machine : Machine Linkage) (fd : Nat) : Misses (withFilesystem machine) fd :=
  ⟨fun _ => rfl, fun _ _ => rfl⟩

/-! ## What the host does -/

theorem blind_mark (h : Aside f) (deed : Deed) : Blind f (mark deed) := fun m =>
  congrArg (EStateM.Result.ok ()) (congrArg m.withHost (h.mark m.outer.host deed).symm)

theorem blind_onStream {fd : Nat} (h : Misses f fd) (absent : α) (act : EStateM StreamError Descriptor α) :
    Blind f (onStream fd absent act) := by
  intro m
  have hget : (m.onHost f).outer.host.stdio.get? fd = m.outer.host.stdio.get? fd := h.get m.outer.host
  have hput (d : Descriptor) : (m.onHost f).putStream fd d = (m.putStream fd d).onHost f :=
    congrArg m.withHost (h.put m.outer.host d).symm
  cases hd : m.outer.host.stdio.get? fd with
  | none =>
    rw [onStream_none absent act hd, onStream_none absent act (hget.trans hd)]
    rfl
  | some d =>
    rw [onStream_some absent act hd, onStream_some absent act (hget.trans hd)]
    cases act d with
    | ok a d' => exact congrArg (EStateM.Result.ok a) (hput d')
    | error e d' => exact congrArg (EStateM.Result.error (Failure.stream e)) (hput d')

theorem blind_onFilesystem (act : FilesystemAct α) (fd : Nat) (d : Descriptor) :
    Blind (withStream fd d) (onFilesystem act) := by
  intro m
  have hentered : entered (m.onHost (withStream fd d)) = entered m := rfl
  rw [onFilesystem_apply, onFilesystem_apply, hentered]
  cases act (entered m) <;> rfl

end Session

namespace HostCall

theorem blind_word (args : List Value) (i : Nat) : Blind f (word args i) := by
  unfold word
  split
  · exact .pure _
  · exact .throw _

theorem blind_marshal (act : Marshal Unit) : Blind f (marshal act) := by
  intro m
  obtain ⟨e, memory, h⟩ := marshal_within act m.core
  have happly : marshal act m = .ok e _ := h m.outer
  have happly' : marshal act (m.onHost f) = .ok e _ := h (m.onHost f).outer
  rw [happly, happly']
  rfl

theorem blind_draw (h : Aside f) (around : Surroundings) (n : Nat) : Blind f (draw around n) := by
  intro m
  have hdrawn : (m.onHost f).outer.host.drawn = m.outer.host.drawn := h.drawn m.outer.host
  simp only [draw, hdrawn]
  exact congrArg (EStateM.Result.ok _) (congrArg m.withHost (h.draw m.outer.host _).symm)

theorem blind_marshalled (act : Marshal Unit) : Blind f (do answer (← marshal act)) :=
  .bind (blind_marshal act) fun _ => .pure _

/-- A call sees and touches no adapter but the one that a read or a write is about, and no filesystem machine. -/
theorem blind_run (h : Aside f) (around : Surroundings) {c : HostCall} {args : List Value}
    (hmisses : c = fdRead ∨ c = fdWrite → ∀ fd, wordArg args 0 = .ok fd → Misses f fd.toNat) :
    Blind f (c.run around args) := by
  refine run_of_steps around c args (fun hx => ?_) fun _ hplan hshows =>
    .get hplan fun m => hshows _ _ (.of_eq rfl (h.args _) (h.env _))
  induction hx with
  | answer e => exact .pure _
  | refused => exact .throw _
  | marshal act _ _ ih => exact .bind (blind_marshal act) ih
  | draw n _ ih => exact .bind (blind_draw h around n) ih
  | read hc hfd =>
    refine .bind (Session.blind_onStream (hmisses (.inl hc) _ hfd) _ _) fun t => ?_
    cases t with
    | ready bs => exact blind_marshalled _
    | pending lens => exact .pure _
  | write hc hfd =>
    refine .bind (Session.blind_mark h _) fun _ =>
      .bind (Session.blind_onStream (hmisses (.inr hc) _ hfd) _ _) fun t => ?_
    cases t with
    | ready n => exact blind_marshalled _
    | pending chunks => exact .pure _
  | exit => exact .get (fun _ => .bind (Session.blind_mark h _) fun _ => .throw _) fun _ => rfl

end HostCall

/-- The descriptor that work is about. -/
def Work.On (fd : Nat) : Work → Prop
  | read other _ _ _ | write other _ _ => other = fd
  | value _ => False

/-- Finishing work sees and touches no adapter but the one it is about. -/
theorem Work.blind_finish {work : Work} {fd : Nat} (hon : work.On fd) (h : Misses f fd) : Blind f work.finish := by
  cases work with
  | read other lens buffers result =>
    cases hon
    exact .bind (Session.blind_onStream h _ _) fun _ => .bind (HostCall.blind_marshal _) fun _ => .pure _
  | write other chunks result =>
    cases hon
    exact .bind (Session.blind_onStream h _ _) fun _ => .bind (HostCall.blind_marshal _) fun _ => .pure _
  | value w => cases hon

/-- Finishing work sees and touches no filesystem machine. -/
theorem Work.blind_filesystem (work : Work) (machine : Machine Linkage) :
    Blind (Session.withFilesystem machine) work.finish := by
  cases work with
  | read fd _ _ _ | write fd _ _ => exact blind_finish rfl (Session.misses_withFilesystem machine fd)
  | value w => exact .pure w

end

end GuestHost
