/-
  GuestHost.Proofs.Session.Header — runs that leave the header of the unwind data alone.

  A session that streams writes a header of eight bytes into the guest's memory before it enters the guest. A guest
  that neither reads nor writes these bytes, and for which no import does, comes to the same with the header there as
  without, and leaves it there (`LeavesHeaderAlone`). What a guest and its imports read and write is the reach of its
  run (`Guest.reach`): the ranges of its own code, those that the host's calls are given, and those that the filesystem
  module copies from or to.

  Proved:
  - `Linked.unaware_answer`: an import that reaches nothing of the header does the same with it as without.
  - `Guest.leavesHeaderAlone`: so does a whole run.
-/

import GuestHost.Proofs.Filesystem.Reach
import GuestHost.Proofs.Session.Twins

namespace GuestHost

open Exec

/-! ## With and without the header -/

/-- The header of the unwind data, where it belongs. -/
def unwindPatch : Patch := ⟨unwindDataStart.toNat, unwindHeader⟩

@[irreducible]
def Memory.headed (m : Memory) : Memory := m.write unwindDataStart.toNat unwindHeader

theorem Memory.headed_eq (m : Memory) : m.headed = m.write unwindDataStart.toNat unwindHeader := by
  unfold headed
  rfl

def Machine.headed {τ : Type} (m : Machine τ) : Machine τ := { m with memory := m.memory.headed }

/-- The filesystem module without its look at the guest's memory, which every call renews. -/
def Session.filesystemItself (s : Session) : Machine Linkage :=
  { s.filesystem with outer := { s.filesystem.outer with guest := default } }

/-- The second machine is the first with the header in its memory. -/
structure Machine.Beside (m n : Machine (Hosted Work Session)) : Prop where
  core : n.core = m.core.headed
  stdio : n.outer.host.stdio = m.outer.host.stdio
  filesystem : n.outer.host.filesystemItself = m.outer.host.filesystemItself
  reports : n.outer.host.reports = m.outer.host.reports
  drawn : n.outer.host.drawn = m.outer.host.drawn

/-- Two runs came to the same, but for the header in the memory of the second. -/
def LeavesHeaderAlone : EStateM.Result Failure (Machine (Hosted Work Session)) Unit →
    EStateM.Result Failure (Machine (Hosted Work Session)) Unit → Prop
  | .ok _ m, .ok _ n => m.Beside n
  | .error e m, .error f n => f = e ∧ m.Beside n
  | _, _ => False

theorem LeavesHeaderAlone.cases {x y : EStateM.Result Failure (Machine (Hosted Work Session)) Unit}
    (h : LeavesHeaderAlone x y) :
    (∃ m n, x = .ok () m ∧ y = .ok () n ∧ m.Beside n) ∨ ∃ e m n, x = .error e m ∧ y = .error e n ∧ m.Beside n := by
  cases x with
  | ok _ m =>
    cases y with
    | ok _ n => exact .inl ⟨m, n, rfl, rfl, h⟩
    | error f n => exact h.elim
  | error e m =>
    cases y with
    | ok _ n => exact h.elim
    | error f n =>
      obtain ⟨rfl, hbeside⟩ := h
      exact .inr ⟨_, m, n, rfl, rfl, hbeside⟩

/-- The same session, but for what is kept of it that no import looks at. -/
structure Session.Peer (s₁ s₂ : Session) : Prop where
  args : s₂.args = s₁.args
  env : s₂.env = s₁.env
  stdio : s₂.stdio = s₁.stdio
  filesystem : s₂.filesystemItself = s₁.filesystemItself
  reports : s₂.reports = s₁.reports
  drawn : s₂.drawn = s₁.drawn

/-- The second machine is the first, with a patch in the guest's memory. -/
structure Overlaid (p : Patch) (m n : Machine (Hosted Work Session)) : Prop where
  core : n.core = m.core.patched p
  place : p.Fits m.memory
  host : m.outer.host.Peer n.outer.host

section

variable {α : Type} {p : Patch} {m n : Machine (Hosted Work Session)}

theorem Overlaid.memory (h : Overlaid p m n) : n.memory = m.memory.patched [p] :=
  show n.core.memory = (m.core.patched p).memory from h.core ▸ rfl

theorem Overlaid.self (hplace : p.Fits m.memory) : Overlaid p m (m.patched p) :=
  ⟨rfl, hplace, rfl, rfl, rfl, rfl, rfl, rfl⟩

/-- Such machines have their own part in common, but for the patch. -/
theorem Overlaid.split (h : Overlaid p m n) : ∃ (c : Core) (o o' : Hosted Work Session),
    m = c.within o ∧ n = (c.patched p).within o' ∧ p.Fits c.memory ∧ o.host.Peer o'.host := by
  refine ⟨m.core, m.outer, n.outer, rfl, ?_, h.place, h.host⟩
  rw [← h.core]
  rfl

theorem Overlaid.within {c : Core} {o o' : Hosted Work Session} (hplace : p.Fits c.memory)
    (h : o.host.Peer o'.host) : Overlaid p (c.within o) ((c.patched p).within o') := ⟨rfl, hplace, h⟩

namespace InStep

/-! ### The parts of an import -/

theorem overlaid_marshal {act : Marshal Unit} {ranges : List Range} (hstores : act.StoresIn ranges)
    (hapart : ∀ r ∈ ranges, r.Apart p) : InStep (Overlaid p) Eq (HostCall.marshal act) (HostCall.marshal act) := by
  intro m n h
  obtain ⟨c, o, o', rfl, rfl, hplace, hpeer⟩ := h.split
  have hsize := hstores.size c.memory
  have hpatched : act ((c.patched p).within o').memory = forget (fun m => m.patched [p])
      (act c.memory) := hstores.apart p c.memory hapart
  have hplain : (c.within o).memory = c.memory := rfl
  unfold Memory.after at hsize
  unfold HostCall.marshal
  rw [hpatched, hplain]
  cases hact : act c.memory with
  | ok _ memory =>
    rw [hact] at hsize
    exact ⟨rfl, .within (c := { c with memory }) (Nat.le_trans hplace (Nat.le_of_eq hsize.symm)) hpeer⟩
  | error e memory =>
    rw [hact] at hsize
    exact ⟨rfl, .within (c := { c with memory }) (Nat.le_trans hplace (Nat.le_of_eq hsize.symm)) hpeer⟩

theorem overlaid_draw (around : Surroundings) (k : Nat) :
    InStep (Overlaid p) Eq (HostCall.draw around k) (HostCall.draw around k) := by
  intro m n h
  obtain ⟨c, o, o', rfl, rfl, hplace, hpeer⟩ := h.split
  refine ⟨?_, .within hplace ⟨hpeer.args, hpeer.env, hpeer.stdio, hpeer.filesystem, hpeer.reports,
    congrArg (· + k) hpeer.drawn⟩⟩
  simp only [Machine.outer_within, hpeer.drawn]

theorem overlaid_mark (deed deed' : Deed) :
    InStep (Overlaid p) Eq (Session.mark deed) (Session.mark deed') := by
  intro m n h
  exact ⟨rfl, h.core, h.place, h.host.args, h.host.env, h.host.stdio, h.host.filesystem, h.host.reports, h.host.drawn⟩

theorem overlaid_onStream (fd : Nat) (absent : α) (act : EStateM StreamError Descriptor α) :
    InStep (Overlaid p) Eq (Session.onStream fd absent act) (Session.onStream fd absent act) := by
  intro m n h
  have hput (d : Descriptor) : Overlaid p (m.putStream fd d) (n.putStream fd d) :=
    ⟨h.core, h.place, h.host.args, h.host.env, congrArg (·.put d fd) h.host.stdio, h.host.filesystem, h.host.reports,
      h.host.drawn⟩
  have hsame : n.outer.host.stdio.get? fd = m.outer.host.stdio.get? fd := by rw [h.host.stdio]
  cases hd : m.outer.host.stdio.get? fd with
  | none =>
    rw [Session.onStream_none _ _ hd, Session.onStream_none _ _ (hsame.trans hd)]
    exact ⟨rfl, h⟩
  | some d =>
    rw [Session.onStream_some _ _ hd, Session.onStream_some _ _ (hsame.trans hd)]
    cases act d with
    | ok a d' => exact ⟨rfl, hput d'⟩
    | error e d' => exact ⟨rfl, hput d'⟩

theorem overlaid_marshalled {act : Marshal Unit} {ranges : List Range} (hstores : act.StoresIn ranges)
    (hapart : ∀ r ∈ ranges, r.Apart p) :
    InStep (Overlaid p) Eq (do HostCall.answer (← HostCall.marshal act))
      (do HostCall.answer (← HostCall.marshal act)) := bind (overlaid_marshal hstores hapart) fun _ _ h => h ▸ pure rfl

/-- Steps that store nothing where the patch is do not notice it. -/
theorem overlaid_steps {around : Surroundings} {c : HostCall} {args : List Value} {ranges : List Range}
    (hapart : ∀ r ∈ ranges, r.Apart p) {x : Act (Reply Work)} (hx : HostCall.Steps around c args ranges x) :
    InStep (Overlaid p) Eq x x := by
  induction hx with
  | answer e => exact pure rfl
  | refused => exact throw _
  | marshal act _ hstores ih => exact bind (overlaid_marshal hstores hapart) fun e _ h => h ▸ ih e
  | draw k _ ih => exact bind (overlaid_draw around k) fun bs _ h => h ▸ ih bs
  | read _ _ _ _ _ hbuffers hresult =>
    refine bind (overlaid_onStream _ _ _) fun t _ h => h ▸ ?_
    cases t with
    | ready bs => exact overlaid_marshalled (storesIn_placeRead hbuffers bs hresult) hapart
    | pending lens => exact pure rfl
  | write _ _ _ _ _ hresult =>
    refine bind (overlaid_mark _ _) fun _ _ _ => bind (overlaid_onStream _ _ _) fun t _ h => h ▸ ?_
    cases t with
    | ready k => exact overlaid_marshalled (.writeWord hresult) hapart
    | pending chunks => exact pure rfl
  | exit => exact bind get fun _ _ _ => bind (overlaid_mark _ _) fun _ _ _ => throw _

end InStep

/-! ### Imports -/

/-- A call that reaches nothing of a patch comes to the same with it as without. -/
theorem HostCall.unaware_run (around : Surroundings) (c : HostCall) (args : List Value) :
    Unaware (Overlaid p) (·.Apart p) (c.reach args) (c.run around args) := by
  intro m n h hapart
  obtain ⟨plan, hrun, hsteps, hshows⟩ := planned_run around c args
  -- The call sees nothing of the patch, so its plan is the same; and the steps of that plan store beside it.
  have hsame : plan n = plan m :=
    hshows m n ⟨h.host.args, h.host.env, by rw [h.memory, Memory.size_patched],
      fun r hr => by rw [h.memory]; exact Memory.read_patched_of_apart (hapart r hr)⟩
  rw [hrun, bind_of_ok (get_apply m), bind_of_ok (get_apply n), hsame]
  exact InStep.overlaid_steps hapart (hsteps m) m n h

theorem Overlaid.entered (h : Overlaid p m n) : Beyond p (Session.entered m) (Session.entered n) := by
  have hentered (m : Machine (Hosted Work Session)) : Session.entered m =
      { m.outer.host.filesystemItself with
        outer := { m.outer.host.filesystemItself.outer with guest := m.memory, guestBound := true } } := rfl
  rw [Beyond, hentered, hentered, h.host.filesystem, h.memory]
  rfl

theorem Overlaid.leaving (h : Overlaid p m n) {k : Machine Linkage} (hplace : p.Fits k.outer.guest) :
    Overlaid p (Session.leaving m k) (Session.leaving n (k.beyond p)) := by
  obtain ⟨c, o, o', rfl, rfl, -, hpeer⟩ := h.split
  refine ⟨rfl, hplace, hpeer.args, hpeer.env, hpeer.stdio, rfl, ?_, hpeer.drawn⟩
  have hreports := hpeer.reports
  simp only [Session.reports, Session.leaving, Session.takeReports, Machine.outer_within, Array.toList_append,
    List.filterMap_append] at hreports ⊢
  rw [hreports]
  rfl

theorem Overlaid.traced (h : Overlaid p m n) (e : Entry) (args : List Value) (r : Except Failure UInt32) :
    Overlaid p (Linked.traced e args r m) (Linked.traced e args r n) := by
  obtain ⟨log, hm, hreports⟩ := Linked.tracing_eq e args r m.outer.host
  obtain ⟨log', hn, hreports'⟩ := Linked.tracing_eq e args r n.outer.host
  unfold Linked.traced
  rw [hm, hn]
  exact ⟨h.core, h.place, h.host.args, h.host.env, h.host.stdio, h.host.filesystem,
    hreports'.trans (h.host.reports.trans hreports.symm), h.host.drawn⟩

theorem Session.unaware_onFilesystem {act : FilesystemAct α} {reach : Machine Linkage → List Range}
    (hact : Unaware (Beyond p) (·.Apart p) reach act) (htravels : ∀ k, Travels k act) :
    Unaware (Overlaid p) (·.Apart p) (fun m => reach (entered m)) (onFilesystem act) := by
  intro m n h hapart
  have hjourney := htravels (entered m) (entered m) .here
  have hfits {k : Machine Linkage} (hk : Journey (entered m) k) : p.Fits k.outer.guest :=
    Nat.le_trans h.place (Nat.le_of_eq hk.frame.1.symm)
  rw [onFilesystem_apply, onFilesystem_apply]
  rcases (hact _ _ h.entered hapart).cases with ⟨a, _, k, _, hm, hn, rfl, rfl⟩ | ⟨e, k, _, hm, hn, rfl⟩
  · rw [hm] at hjourney
    rw [hm, hn]
    exact ⟨rfl, h.leaving (hfits hjourney)⟩
  · rw [hm] at hjourney
    rw [hm, hn]
    exact ⟨rfl, h.leaving (hfits hjourney.1)⟩

theorem HostCall.reach_noting (c : HostCall) (args : List Value) (m : Machine (Hosted Work Session)) (deed : Deed) :
    c.reach args (m.noting deed) = c.reach args m := by cases c <;> rfl

namespace Linked

variable (l : Linked)

/-- The ranges of the guest's memory that an entry reaches when it is called. -/
def reachOf (e : Entry) (args : List Value) (m : Machine (Hosted Work Session)) : List Range :=
  match e.service with
  | .host c => c.reach args m
  | .filesystem => l.filesystem.reach e.signature.name args (Session.entered m)
  | .byDescriptor c =>
    if wordOr args 0 < firstFilesystemDescriptor then c.reach args m
    else l.filesystem.reach e.signature.name args (Session.entered m)
  | .scripted _ => []

def reach (target : ImportName) (args : List Value) (m : Machine (Hosted Work Session)) : List Range :=
  match l.table.find? target.name with
  | some e => l.reachOf e args m
  | none => []

theorem unaware_forward (name : String) (args : List Value) :
    Unaware (Overlaid p) (·.Apart p) (fun m => l.filesystem.reach name args (Session.entered m))
      (l.forward name args) :=
  (Session.unaware_onFilesystem (l.filesystem.unaware_forward name args) fun _ =>
    l.filesystem.travels_forward name args).bind_nothing fun _ => .pure _

theorem unaware_handle (e : Entry) (args : List Value) :
    Unaware (Overlaid p) (·.Apart p) (l.reachOf e args) (l.handle e args) := by
  intro m n h hapart
  let deed : Deed := .handled e.signature.name args
  have hmarked : Overlaid p (m.noting deed) (n.noting deed) := (InStep.overlaid_mark deed deed m n h).2
  have hmark (m : Machine (Hosted Work Session)) : Session.mark deed m = .ok () (m.noting deed) := rfl
  unfold handle
  rw [bind_of_ok (hmark m), bind_of_ok (hmark n)]
  unfold reachOf at hapart
  cases hservice : e.service with
  | host c =>
    rw [hservice] at hapart
    exact c.unaware_run l.around args _ _ hmarked (c.reach_noting args m deed ▸ hapart)
  | filesystem =>
    rw [hservice] at hapart
    exact l.unaware_forward _ args _ _ hmarked hapart
  | byDescriptor c =>
    rw [hservice] at hapart
    rcases HostCall.word_eq args 0 with ⟨fd, hfd, hw⟩ | ⟨failure, -, hw⟩
    · simp only [hw, pure_bind]
      rw [wordOr_of_ok hfd] at hapart
      by_cases hstandard : fd < firstFilesystemDescriptor
      · simp only [if_pos hstandard] at hapart ⊢
        exact c.unaware_run l.around args _ _ hmarked (c.reach_noting args m deed ▸ hapart)
      · simp only [if_neg hstandard] at hapart ⊢
        exact l.unaware_forward _ args _ _ hmarked hapart
    · simp only [hw]
      exact ⟨rfl, hmarked⟩
  | scripted script => cases script <;> exact ⟨rfl, hmarked⟩

/-- An import that reaches nothing of a patch comes to the same with it as without, where none runs under the
bridge. -/
theorem unaware_answer (hl : l.Genuine) (controls : Controls (Hosted Work Session)) (target : ImportName)
    (args : List Value) :
    Unaware (Overlaid p) (·.Apart p) (l.reach target args) (l.host.answer controls target args) := by
  unfold reach
  cases hfind : l.table.find? target.name with
  | none =>
    rw [answer_of_none hfind]
    exact .throw _
  | some e =>
    have hvalue : Unaware (Overlaid p) (·.Apart p) (l.reachOf e args) (l.value controls e args) := by
      rw [value_direct (hl.direct e (List.mem_of_find?_eq_some hfind))]
      refine (l.unaware_handle e args).bind_nothing fun reply => ?_
      cases reply with
      | ready w => exact .pure w
      | suspend work => exact .throw _
    rw [answer_of_some hfind]
    intro m n h hapart
    rcases (hvalue m n h hapart).cases with ⟨w, _, m₁, n₁, hm, hn, rfl, h₁⟩ | ⟨failure, m₁, n₁, hm, hn, h₁⟩
    · rw [call_of_ok hm, call_of_ok hn]
      exact ⟨rfl, h₁.traced e args _⟩
    · rw [call_of_error hm, call_of_error hn]
      exact ⟨rfl, h₁.traced e args _⟩

end Linked

/-! ## Guests -/

namespace Guest

variable (g : Guest) (l : Linked) (limits : Limits)

/-- The ranges of its memory that a guest reaches when it is run, by its own code and through its imports. -/
def reach : Machine (Hosted Work Session) → List Range :=
  g.reachWith limits (g.callImport limits l.host limits.depth) ⟨fun r => [r], l.reach⟩

theorem unaware_setting (hl : l.Genuine) (obeys : Bool) :
    (g.setting limits obeys (g.callImport limits l.host limits.depth)).Unaware ⟨fun r => [r], l.reach⟩ (Overlaid p)
      (·.Apart p) where
  own {α x ranges} hx := by
    intro m n h hapart
    obtain ⟨c, o, o', rfl, rfl, hplace, hpeer⟩ := h.split
    have hranges : ∀ r ∈ ranges, r.Apart p := fun r hr =>
      hapart r (List.mem_flatMap.2 ⟨r, hr, List.mem_singleton_self r⟩)
    -- A homely action does not see what lies outside, so both runs are told by the bare core.
    obtain ⟨r, c₁, ⟨-, hstores⟩, -, hplain⟩ := hx.homely c
    obtain ⟨r', c₂, -, -, hpatched⟩ := hx.homely (c.patched p)
    have hsame : yields r' (c₂.within ()) = yields r ((c₁.patched p).within ()) :=
      calc yields r' (c₂.within ()) = x Unit (c.patched p) := (hpatched Unit ()).symm
        _ = forget (Machine.patched p) (x Unit c) := hx.apart p c hplace hranges
        _ = forget (Machine.patched p) (yields r c₁) := congrArg _ (hplain Unit ())
        _ = yields r ((c₁.patched p).within ()) := by cases r <;> rfl
    obtain ⟨rfl, rfl⟩ := yields_inj hsame
    rw [hplain, hpatched]
    have hplace₁ : p.Fits c₁.memory := Nat.le_trans hplace hstores.size
    cases r' <;> exact ⟨rfl, .within hplace₁ hpeer⟩
  setGlobal k w := by
    rintro m n h -
    obtain ⟨c, o, o', rfl, rfl, hplace, hpeer⟩ := h.split
    exact ⟨rfl, rfl, hplace, hpeer⟩
  call target args := by
    show Unaware _ _ (l.reach target args) (g.callImport limits l.host limits.depth target args)
    cases limits.depth with
    | zero => exact .throw _
    | succ depth => exact l.unaware_answer hl _ target args

/-- A guest comes to the same with a patch that its run reaches nothing of as without. -/
theorem unaware_entryOf (hl : l.Genuine) :
    Unaware (Overlaid p) (·.Apart p) (g.reach l limits) (g.entryOf limits l.host) :=
  g.unaware_entryWith limits (g.unaware_setting l limits hl)

end Guest

end

theorem Machine.headed_eq {τ : Type} (m : Machine τ) : m.headed = m.patched unwindPatch := by
  simp only [headed, patched, Memory.headed_eq, Memory.patched_cons, Memory.patched_nil, unwindPatch]

theorem Overlaid.beside {m n : Machine (Hosted Work Session)} (h : Overlaid unwindPatch m n) : m.Beside n :=
  ⟨m.core.headed_eq ▸ h.core, h.host.stdio, h.host.filesystem, h.host.reports, h.host.drawn⟩

/-- A guest whose run reaches nothing of the header, with the memory to hold it, leaves it alone. -/
theorem Guest.leavesHeaderAlone (g : Guest) {l : Linked} (hl : l.Genuine) (limits : Limits)
    {m : Machine (Hosted Work Session)} (hplace : unwindPatch.Fits m.memory)
    (hapart : ∀ r ∈ g.reach l limits m, r.Apart unwindPatch) :
    LeavesHeaderAlone (g.entryOf limits l.host m) (g.entryOf limits l.host m.headed) := by
  rw [m.headed_eq]
  rcases (g.unaware_entryOf l limits hl m _ (.self hplace) hapart).cases with
    ⟨_, _, m₁, n₁, hm, hn, -, h⟩ | ⟨e, m₁, n₁, hm, hn, h⟩
  · rw [hm, hn]
    exact h.beside
  · rw [hm, hn]
    exact ⟨rfl, h.beside⟩

end GuestHost
