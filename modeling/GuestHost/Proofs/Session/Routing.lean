/-
  GuestHost.Proofs.Session.Routing — where a call of the guest goes.

  A table that was installed answers each import of the surface in one of three ways. A read or a write on 0, 1
  or 2 goes to the adapter of that number, and descriptors are unsigned, so the negative ones are not among
  these. Any other read or write, and every import of the filesystem, goes to the module's export of its name;
  there 0, 1 and 2 are descriptors like any other. The rest is answered by the host.

  Proved:
  - `Filesystem.forward_eq`: a forwarded call is one call of the export, with the same arguments and result.
  - `Linked.call_begins`: a call of the guest is what its handler does, and what becomes of its reply.
  - `Linked.apart_handle`, `Linked.kept_handle`, `Linked.answers_handle`: what a call neither sees nor touches,
    and how reads and writes of the adapters are answered.
  - `every_call_has_one_place_to_go`: every import of the surface, with all arguments, in every state.
-/

import GuestHost.Proofs.Session.Apart
import GuestHost.Proofs.Session.Streaming

namespace GuestHost

open Exec

/-! ## The surface -/

namespace Signature

/-- The call is a read or a write on a standard descriptor. -/
def OnStream (s : Signature) (args : List Value) (fd : Nat) : Prop :=
  s.Splits ∧ fd < 3 ∧ ∃ w : UInt32, args.head? = some (.i32 w) ∧ w.toNat = fd

/-- The call is the filesystem module's: a read or a write on another descriptor, or an import of the filesystem. -/
def Forwards (s : Signature) (args : List Value) : Prop :=
  (s.Splits ∧ ∃ w : UInt32, args.head? = some (.i32 w) ∧ 3 ≤ w.toNat) ∨ s.route = .filesystem

/-- The imports that may be forwarded give a word, and begin with one if they are split. -/
theorem forwarded_surface : ∀ s ∈ table, s.Splits ∨ s.route = .filesystem →
    s.funcType.results = [.i32] ∧ (s.Splits → s.params.head? = some .i32 ∧ s.route = .host) := by decide

theorem route_of_splits {s : Signature} (hs : s ∈ table) (h : s.Splits) : s.route = .host :=
  ((forwarded_surface s hs (.inl h)).2 h).2

theorem eq_of_name : ∀ s ∈ table, ∀ s' ∈ table, s'.name = s.name → s' = s := by decide

end Signature

/-- The first of the arguments, where the first parameter is a word. -/
theorem head_of_typesMatch {types : List ValType} {args : List Value} (h : typesMatch types args = true)
    (hfirst : types.head? = some .i32) : ∃ w : UInt32, args.head? = some (.i32 w) := by
  have htypes : args.map Value.type = types := by simpa [typesMatch] using h
  rw [← htypes, List.head?_map] at hfirst
  obtain ⟨v, hv, htype⟩ := Option.map_eq_some_iff.1 hfirst
  cases v with
  | i32 w => exact ⟨w, hv⟩
  | i64 _ | f32 _ | f64 _ => cases htype

/-- Reads and writes begin with their descriptor. -/
theorem Signature.head_of_splits {s : Signature} (hs : s ∈ table) {args : List Value}
    (htypes : typesMatch s.params args = true) (h : s.Splits) : ∃ w : UInt32, args.head? = some (.i32 w) :=
  head_of_typesMatch htypes ((forwarded_surface s hs (.inl h)).2 h).1

theorem wordArg_of_head {args : List Value} {w : UInt32} (h : args.head? = some (.i32 w)) : wordArg args 0 = .ok w := by
  rw [List.head?_eq_getElem?] at h
  unfold wordArg
  rw [h]

/-- The module's exports have the types of the surface, where calls are forwarded to them. -/
def FilesystemModule.Canonical (m : FilesystemModule) : Prop :=
  ∀ s ∈ Signature.table, s.Splits ∨ s.route = .filesystem → ∀ f, m.function? s.name = some f → f.type = s.funcType

/-! ## Forwarded calls -/

theorem Function.invoke_eq {τ : Type} {f : Function} (s : Setting τ) (args : List Value)
    (hresults : f.type.results = [.i32]) : f.invoke s args = (do
      let locals ← f.body.run s args
      let w ← f.result.eval s args locals
      return [.i32 w]) := by
  unfold invoke
  rw [hresults]
  rfl

/-- A function of one word gives one word. -/
theorem Function.word_of_invoke {τ : Type} {f : Function} {s : Setting τ} {args : List Value} {m m' : Machine τ}
    {vs : List Value} (hresults : f.type.results = [.i32]) (h : f.invoke s args m = .ok vs m') :
    ∃ w, vs = [.i32 w] := by
  rw [invoke_eq s args hresults] at h
  obtain ⟨locals, m₁, -, h⟩ := bind_eq_ok h
  obtain ⟨w, m₂, -, h⟩ := bind_eq_ok h
  cases h
  exact ⟨w, rfl⟩

/-- A forwarded call is one call of the export, with the arguments as they are, and its word is the result. -/
theorem Filesystem.forward_eq (fs : Filesystem) {name : String} {f : Function} {args : List Value}
    (hf : fs.module.function? name = some f) (hargs : typesMatch f.type.params args = true)
    (hresults : f.type.results = [.i32]) :
    fs.forward name args = (do return resultWord (← f.invoke fs.setting args)) := by
  have hlength : f.type.params.length = args.length := by
    have htypes : args.map Value.type = f.type.params := by simpa [typesMatch] using hargs
    rw [← htypes, List.length_map]
  have hchecked : fs.callChecked f args 1 = f.invoke fs.setting args := by
    unfold callChecked
    rw [if_neg (fun h => h hlength), if_neg (by rw [hresults]; decide), if_pos hargs]
  have hsettle : (settle (fs.function name) : FilesystemAct Function) = pure f := by
    unfold Filesystem.function
    rw [hf]
    rfl
  unfold forward
  rw [hsettle, pure_bind, hchecked, Function.invoke_eq _ _ hresults]
  simp only [bind_assoc, pure_bind]
  rfl

/-! ## Calls -/

namespace Linked

/-- The handler of a call that is made from `m` begins at `m₀`: at once, or, under the bridge, where the guest says
that its state is normal. -/
def Begins (controls : Controls (Hosted Work Session)) (e : Entry) (m m₀ : Machine (Hosted Work Session)) : Prop :=
  if e.bridged then
    m.outer.bridge.bound = true ∧ ∃ n, controls.state m = .ok .normal n ∧
      m₀ = (n.onBridge (·.logged (.consulted .normal n.outer.bridge.phase))).onBridge (·.logged .handled)
  else m₀ = m

/-- What becomes of what a handler gave: a value is returned, and work is left to the bridge. -/
def conclude (controls : Controls (Hosted Work Session)) (e : Entry) (args : List Value) :
    EStateM.Result Failure (Machine (Hosted Work Session)) (Reply Work) →
      EStateM.Result Failure (Machine (Hosted Work Session)) (List Value)
  | .error f m => .error f (traced e args (.error f) m)
  | .ok reply m =>
    match (if e.bridged then Bridge.answer controls reply else settle reply.intoReady) m with
    | .ok w m => .ok (if e.signature.result then [.i32 w] else []) (traced e args (.ok w) m)
    | .error f m => .error f (traced e args (.error f) m)

variable {l : Linked} {controls : Controls (Hosted Work Session)} {e : Entry} {args : List Value}
  {m m₀ : Machine (Hosted Work Session)}

theorem value_begins (h : Begins controls e m m₀) : l.value controls e args m = (do
    let reply ← l.handle e args
    if e.bridged then Bridge.answer controls reply else settle reply.intoReady) m₀ := by
  unfold value
  by_cases hb : e.bridged = true
  · simp only [Begins, hb, if_true] at h ⊢
    obtain ⟨hbound, n, hstate, rfl⟩ := h
    exact Bridge.wrapImport_eq _ hbound hstate
  · simp only [Begins, hb] at h ⊢
    rw [h]
    rfl

/-- A call is what its handler does, and what becomes of its reply. -/
theorem call_begins (h : Begins controls e m m₀) :
    l.call controls e args m = conclude controls e args (l.handle e args m₀) := by
  have hvalue : l.value controls e args m = _ := value_begins h
  rw [bind_apply] at hvalue
  cases hr : l.handle e args m₀ with
  | error f n =>
    rw [hr] at hvalue
    exact call_of_error hvalue
  | ok reply n =>
    rw [hr] at hvalue
    unfold conclude
    dsimp only at hvalue ⊢
    cases hlast : (if e.bridged then Bridge.answer controls reply else settle reply.intoReady) n with
    | ok w n' => exact call_of_ok (hvalue.trans hlast)
    | error f n' => exact call_of_error (hvalue.trans hlast)

/-- A value that a handler gave is returned as it is. -/
theorem conclude_ready (w : UInt32) (n : Machine (Hosted Work Session)) :
    conclude controls e args (.ok (.ready w) n) =
      .ok (if e.signature.result then [.i32 w] else []) (traced e args (.ok w) n) := by
  unfold conclude
  cases e.bridged <;> rfl

/-! ### What stands behind an import -/

/-- A call that is not the module's is the host's own: a read or a write on a standard descriptor, or none at all. -/
theorem handle_own (he : e.signature.Kind e.service)
    (hfirst : e.signature.Splits → ∃ w : UInt32, args.head? = some (.i32 w)) (hargs : ¬ e.signature.Forwards args) :
    ∃ c : HostCall, (∀ l : Linked, l.handle e args = (do
        Session.mark (.handled e.signature.name args)
        c.run l.around args)) ∧
      ((c ≠ .fdRead ∧ c ≠ .fdWrite ∧ ¬ e.signature.Splits) ∨
        (e.signature.Splits ∧ (c = .fdRead ∨ c = .fdWrite) ∧
          ∃ w : UInt32, args.head? = some (.i32 w) ∧ w.toNat < 3)) := by
  cases hservice : e.service with
  | host c =>
    rw [hservice] at he
    cases he with
    | host hsplits hroute hread hwrite =>
      exact ⟨c, fun l => by unfold handle; rw [hservice], .inl ⟨hread, hwrite, hsplits⟩⟩
  | filesystem =>
    rw [hservice] at he
    cases he with
    | filesystem hsplits hroute => exact absurd (.inr hroute) hargs
  | byDescriptor c =>
    rw [hservice] at he
    cases he with
    | split hname =>
      have hsplits : e.signature.Splits := hname.imp And.left And.left
      obtain ⟨w, hw⟩ := hfirst hsplits
      have hlt : w.toNat < 3 := by
        by_cases hlt : w.toNat < 3
        · exact hlt
        · exact absurd (.inl ⟨hsplits, w, hw, by omega⟩) hargs
      refine ⟨c, fun l => ?_, .inr ⟨hsplits, hname.imp And.right And.right, w, hw, hlt⟩⟩
      unfold handle
      simp only [hservice, HostCall.word_of_ok (wordArg_of_head hw), pure_bind]
      rw [if_pos (UInt32.lt_iff_toNat_lt.2 hlt)]
  | scripted s => rw [hservice] at he; cases he

/-- A call that is the module's is forwarded. -/
theorem handle_forward (he : e.signature.Kind e.service) (hroute : e.signature.Splits → e.signature.route = .host)
    (hargs : e.signature.Forwards args) : l.handle e args = (do
      Session.mark (.handled e.signature.name args)
      l.forward e.signature.name args) := by
  cases hservice : e.service with
  | host c =>
    rw [hservice] at he
    cases he with
    | host hsplits hown _ _ =>
      rcases hargs with ⟨hs, -⟩ | hfilesystem
      · exact absurd hs hsplits
      · rw [hown] at hfilesystem
        cases hfilesystem
  | filesystem => unfold handle; rw [hservice]
  | byDescriptor c =>
    rw [hservice] at he
    cases he with
    | split hname =>
      rcases hargs with ⟨-, w, hw, hle⟩ | hfilesystem
      · unfold handle
        simp only [hservice, HostCall.word_of_ok (wordArg_of_head hw), pure_bind]
        rw [if_neg fun hlt => Nat.not_lt.2 hle (UInt32.lt_iff_toNat_lt.1 hlt)]
      · rw [hroute (hname.imp And.left And.left)] at hfilesystem
        cases hfilesystem
  | scripted s => rw [hservice] at he; cases he

end Linked

/-! ## The adapters -/

/-- An answer to a read or a write of an adapter: success or a fault, and never that there is no such descriptor. -/
def Answered (w : UInt32) : Prop := (w = Errno.success.raw ∨ w = Errno.fault.raw) ∧ w ≠ Errno.badf.raw

theorem answered_success : Answered Errno.success.raw := ⟨.inl rfl, by decide⟩

theorem answered_fault : Answered Errno.fault.raw := ⟨.inr rfl, by decide⟩

theorem HostCall.answered_marshal (act : Marshal Unit) :
    Ends (fun _ => True) (do return (← marshal act).raw) (fun w _ => Answered w) fun _ _ => True := by
  intro m _
  rw [bind_apply]
  unfold marshal
  cases act m.memory with
  | ok _ memory => exact answered_success
  | error e memory => exact answered_fault

/-- Work on an adapter: finishing it gives an answer, and has nothing to do with other adapters or with the module. -/
structure Work.Serves (work : Work) (fd : Nat) : Prop where
  answered : Ends (fun _ => True) work.finish (fun w _ => Answered w) fun _ _ => True
  apart : ∀ other, other ≠ fd → ∀ d, Blind (Session.withStream other d) work.finish
  kept : ∀ machine, Blind (Session.withFilesystem machine) work.finish

theorem Work.serves_of_on {work : Work} {fd : Nat} (hon : work.On fd) : work.Serves fd where
  answered := by
    cases work with
    | read | write => exact Ends.bind (Ends.somehow _) fun _ => HostCall.answered_marshal _
    | value w => cases hon
  apart other h d := Work.blind_finish hon (Session.misses_withStream h.symm d)
  kept := work.blind_filesystem

/-- What a read or a write of an adapter replies: an answer, or work on the adapter. -/
def Reply.Serves (fd : Nat) : Reply Work → Prop
  | ready w => Answered w
  | suspend work => work.Serves fd

namespace HostCall

theorem serves_marshal (fd : Nat) (act : Marshal Unit) :
    Ends (fun _ => True) (do answer (← marshal act)) (fun r _ => r.Serves fd) fun _ _ => True := by
  intro m _
  rw [bind_apply]
  unfold marshal
  cases act m.memory with
  | ok _ memory => exact answered_success
  | error e memory => exact answered_fault

theorem serves_readStream {args : List Value} {w : UInt32} (hw : wordArg args 0 = .ok w) (hlt : w.toNat < 3) :
    Ends (fun _ => True) (readStream args) (fun r _ => r.Serves w.toNat) fun _ _ => True := by
  rw [readStream_eq]
  simp only [word_of_ok hw, pure_bind]
  refine Ends.bind (Ends.somehow _) fun _ => Ends.bind (Ends.somehow _) fun _ => Ends.bind (Ends.somehow _) fun _ =>
    Ends.bind (Ends.somehow _) fun m => ?_
  split
  · exact Ends.pure fun _ _ => answered_fault
  · rw [if_neg (Nat.not_le.2 hlt)]
    refine Ends.bind (Ends.somehow _) fun t => ?_
    cases t with
    | ready bs => exact serves_marshal _ _
    | pending lens => exact Ends.pure fun _ _ => Work.serves_of_on rfl

theorem serves_writeStream {args : List Value} {w : UInt32} (hw : wordArg args 0 = .ok w) (hlt : w.toNat < 3) :
    Ends (fun _ => True) (writeStream args) (fun r _ => r.Serves w.toNat) fun _ _ => True := by
  unfold writeStream
  simp only [word_of_ok hw, pure_bind]
  refine Ends.bind (Ends.somehow _) fun _ => Ends.bind (Ends.somehow _) fun _ => Ends.bind (Ends.somehow _) fun _ =>
    Ends.bind (Ends.somehow _) fun m => ?_
  split
  · exact Ends.pure fun _ _ => answered_fault
  · split
    · exact Ends.pure fun _ _ => answered_fault
    · rw [if_neg (Nat.not_le.2 hlt)]
      refine Ends.bind (Ends.somehow _) fun _ => Ends.bind (Ends.somehow _) fun t => ?_
      cases t with
      | ready n => exact serves_marshal _ _
      | pending chunks => exact Ends.pure fun _ _ => Work.serves_of_on rfl

end HostCall

/-! ## Where calls go -/

namespace Signature

theorem needsExport_of_forwards {s : Signature} {service : Service} (hkind : s.Kind service) {args : List Value}
    (hargs : s.Forwards args) : ImportTable.Service.needsExport service = true := by
  cases hkind with
  | split | filesystem => rfl
  | host hsplits hroute _ _ =>
    rcases hargs with ⟨h, -⟩ | hfilesystem
    · exact absurd h hsplits
    · rw [hroute] at hfilesystem
      cases hfilesystem

theorem not_forwards_of_onStream {s : Signature} {args : List Value} {fd : Nat}
    (hroute : s.Splits → s.route = .host) (h : s.OnStream args fd) : ¬ s.Forwards args := by
  obtain ⟨hsplits, hlt, w, hw, rfl⟩ := h
  rintro (⟨-, w', hw', hle⟩ | hfilesystem)
  · rw [hw] at hw'
    cases hw'
    omega
  · rw [hroute hsplits] at hfilesystem
    cases hfilesystem

end Signature

namespace Linked

/-- The call is one call of the function `f` of the module: with the same arguments, and with its results. -/
structure ForwardsTo (l : Linked) (e : Entry) (args : List Value) (f : Function) : Prop where
  handled : l.handle e args = (do
    Session.mark (.handled e.signature.name args)
    return .ready (resultWord (← Session.onFilesystem (f.invoke l.filesystem.setting args))))
  /-- The module's results are the guest's. -/
  returned : ∀ {controls : Controls (Hosted Work Session)} {m m₀ : Machine (Hosted Work Session)},
    Begins controls e m m₀ → l.host.answer controls ⟨previewNamespace, e.signature.name⟩ args m =
      match (do
        Session.mark (.handled e.signature.name args)
        Session.onFilesystem (f.invoke l.filesystem.setting args) : Act (List Value)) m₀ with
      | .ok results n => .ok results (traced e args (.ok (resultWord results)) n)
      | .error failure n => .error failure (traced e args (.error failure) n)
  word : ∀ {m m' : Machine (Hosted Work Session)} {results : List Value},
    Session.onFilesystem (f.invoke l.filesystem.setting args) m = .ok results m' → ∃ w, results = [.i32 w]

/-- Where a call of an import goes: what answers it, and which parts of the session it has nothing to do with. -/
structure Routed (l : Linked) (e : Entry) (args : List Value) : Prop where
  /-- What is the module's, is one call of its export of that name, and the adapters stay as they are. -/
  forwarded : e.signature.Forwards args →
    (∃ f, l.filesystem.module.function? e.signature.name = some f ∧ l.ForwardsTo e args f) ∧
      ∀ {m m' : Machine (Hosted Work Session)}, Leads (l.handle e args) m m' →
        m'.outer.host.stdio = m.outer.host.stdio
  /-- What is not, is the same with any other module, and neither sees nor touches the module's machine. -/
  kept : ¬ e.signature.Forwards args →
    (∀ other, Linked.handle { l with filesystem := other } e args = l.handle e args) ∧
      ∀ machine, Blind (Session.withFilesystem machine) (l.handle e args)
  /-- Only reads and writes on a descriptor see or touch its adapter. -/
  apart : ∀ fd, ¬ e.signature.OnStream args fd → ∀ d, Blind (Session.withStream fd d) (l.handle e args)
  /-- These are not the module's. They are answered with success or a fault, or leave work that is. -/
  served : ∀ fd, e.signature.OnStream args fd → ¬ e.signature.Forwards args ∧
    Ends (fun _ => True) (l.handle e args) (fun reply _ => reply.Serves fd) fun _ _ => True
  /-- The guest gets what the handler gave. -/
  answered : ∀ {controls : Controls (Hosted Work Session)} {m m₀ : Machine (Hosted Work Session)},
    Begins controls e m m₀ → l.host.answer controls ⟨previewNamespace, e.signature.name⟩ args m =
      conclude controls e args (l.handle e args m₀)

theorem answer_eq {l : Linked} {e : Entry} (he : l.table.find? e.signature.name = some e)
    (controls : Controls (Hosted Work Session)) (args : List Value) :
    l.host.answer controls ⟨previewNamespace, e.signature.name⟩ args = l.call controls e args := by
  simp only [host, he]

variable {l : Linked} {e : Entry} {args : List Value}

theorem forwardsTo (he : l.table.find? e.signature.name = some e) (hkind : e.signature.Kind e.service)
    (hsurface : e.signature.funcType.results = [.i32] ∧ (e.signature.Splits → e.signature.route = .host))
    (htypes : typesMatch e.signature.params args = true) (hargs : e.signature.Forwards args) {f : Function}
    (hf : l.filesystem.module.function? e.signature.name = some f) (htype : f.type = e.signature.funcType) :
    l.ForwardsTo e args f := by
  have hresults : f.type.results = [.i32] := htype ▸ hsurface.1
  have hparams : typesMatch f.type.params args = true := by
    rw [htype]
    exact htypes
  have hword {m m' : Machine (Hosted Work Session)} {results : List Value}
      (h : Session.onFilesystem (f.invoke l.filesystem.setting args) m = .ok results m') :
      ∃ w, results = [.i32 w] := by
    rw [Session.onFilesystem_apply] at h
    cases hr : f.invoke l.filesystem.setting args (Session.entered m) with
    | ok vs n =>
      rw [hr] at h
      cases h
      exact Function.word_of_invoke hresults hr
    | error failure n => rw [hr] at h; cases h
  have hhandled : l.handle e args = (do
      Session.mark (.handled e.signature.name args)
      return .ready (resultWord (← Session.onFilesystem (f.invoke l.filesystem.setting args)))) := by
    rw [handle_forward hkind hsurface.2 hargs]
    unfold forward
    rw [l.filesystem.forward_eq hf hparams hresults]
    funext m
    simp only [bind_apply]
    cases Session.mark (.handled e.signature.name args) m with
    | error failure n => rfl
    | ok _ n =>
      simp only [Session.onFilesystem_apply, bind_apply]
      cases f.invoke l.filesystem.setting args (Session.entered n) <;> rfl
  refine ⟨hhandled, @fun controls m m₀ hbegins => ?_, hword⟩
  rw [answer_eq he, call_begins hbegins, hhandled, bind_apply, bind_apply]
  cases Session.mark (.handled e.signature.name args) m₀ with
  | error failure n => rfl
  | ok _ n =>
    dsimp only
    rw [bind_apply]
    cases hr : Session.onFilesystem (f.invoke l.filesystem.setting args) n with
    | error failure n' => rfl
    | ok results n' =>
      obtain ⟨w, rfl⟩ := hword hr
      have hresult : e.signature.result = true := by
        have hone := hsurface.1
        unfold Signature.funcType at hone
        split at hone
        · assumption
        · cases hone
      exact (conclude_ready w n').trans (by rw [if_pos hresult]; rfl)

/-- An adapter is out of reach of every call but reads and writes on its descriptor. -/
theorem apart_handle (hkind : e.signature.Kind e.service) (hroute : e.signature.Splits → e.signature.route = .host)
    (hfirst : e.signature.Splits → ∃ w : UInt32, args.head? = some (.i32 w)) {fd : Nat}
    (hfd : ¬ e.signature.OnStream args fd) (d : Descriptor) :
    Blind (Session.withStream fd d) (l.handle e args) := by
  have hmark : Blind (Session.withStream fd d) (Session.mark (.handled e.signature.name args)) :=
    Session.blind_mark (Session.aside_withStream fd d) _
  by_cases hargs : e.signature.Forwards args
  · rw [handle_forward hkind hroute hargs]
    exact .bind hmark fun _ => .bind (Session.blind_onFilesystem _ fd d) fun _ => .pure _
  · obtain ⟨c, hown, ⟨hread, hwrite, -⟩ | ⟨hsplits, hc, w, hw, hlt⟩⟩ := handle_own hkind hfirst hargs
    · rw [hown l]
      refine .bind hmark fun _ => HostCall.blind_run (Session.aside_withStream fd d) _ fun hc => ?_
      exact (hc.elim hread hwrite).elim
    · have hmisses (w' : UInt32) (hw' : wordArg args 0 = .ok w') : Misses (Session.withStream fd d) w'.toNat := by
        rw [wordArg_of_head hw] at hw'
        cases hw'
        refine Session.misses_withStream (fun heq => ?_) d
        subst heq
        exact hfd ⟨hsplits, hlt, w, hw, rfl⟩
      rw [hown l]
      exact .bind hmark fun _ => HostCall.blind_run (Session.aside_withStream fd d) _ fun _ => hmisses

/-- The module is out of reach of the host's own calls. -/
theorem kept_handle (hkind : e.signature.Kind e.service)
    (hfirst : e.signature.Splits → ∃ w : UInt32, args.head? = some (.i32 w)) (hargs : ¬ e.signature.Forwards args) :
    (∀ other, Linked.handle { l with filesystem := other } e args = l.handle e args) ∧
      ∀ machine, Blind (Session.withFilesystem machine) (l.handle e args) := by
  obtain ⟨c, hown, -⟩ := handle_own hkind hfirst hargs
  refine ⟨fun other => (hown _).trans (hown l).symm, fun machine => ?_⟩
  rw [hown l]
  exact .bind (Session.blind_mark (Session.aside_withFilesystem machine) _) fun _ =>
    HostCall.blind_run (Session.aside_withFilesystem machine) _ fun _ _ _ =>
      Session.misses_withFilesystem machine _

/-- Reads and writes on a standard descriptor are served by its adapter. -/
theorem answers_handle (hkind : e.signature.Kind e.service)
    (hfirst : e.signature.Splits → ∃ w : UInt32, args.head? = some (.i32 w)) (hargs : ¬ e.signature.Forwards args)
    {fd : Nat} (hfd : e.signature.OnStream args fd) :
    Ends (fun _ => True) (l.handle e args) (fun reply _ => reply.Serves fd) fun _ _ => True := by
  obtain ⟨hsplits, -, w, hw, rfl⟩ := hfd
  obtain ⟨c, hown, ⟨-, -, hnone⟩ | ⟨-, hc, w', hw', hlt⟩⟩ := handle_own hkind hfirst hargs
  · exact absurd hsplits hnone
  · rw [hw] at hw'
    cases hw'
    rw [hown l]
    refine Ends.bind (Ends.somehow _) fun _ => ?_
    rcases hc with rfl | rfl
    · exact HostCall.serves_readStream (wordArg_of_head hw) hlt
    · exact HostCall.serves_writeStream (wordArg_of_head hw) hlt

/-- The handler of an import that was put into the table sends each call where it belongs. -/
theorem routed (he : l.table.find? e.signature.name = some e) (hkind : e.signature.Kind e.service)
    (hsurface : e.signature ∈ Signature.table) (hcanonical : l.filesystem.module.Canonical)
    (hexport : e.signature.Forwards args → ∃ f, l.filesystem.module.function? e.signature.name = some f)
    (htypes : typesMatch e.signature.params args = true) : l.Routed e args := by
  have hroute := Signature.route_of_splits hsurface
  have hfirst := Signature.head_of_splits hsurface htypes
  refine ⟨fun hargs => ⟨?_, fun hr => ?_⟩, fun hargs => kept_handle hkind hfirst hargs,
    fun fd hfd => apart_handle hkind hroute hfirst hfd, fun fd hfd => ?_, fun hbegins => ?_⟩
  · obtain ⟨f, hf⟩ := hexport hargs
    have hforwards : e.signature.Splits ∨ e.signature.route = .filesystem := hargs.imp_left And.left
    have hresults := (Signature.forwarded_surface e.signature hsurface hforwards).1
    have htype := hcanonical e.signature hsurface hforwards f hf
    exact ⟨f, hf, forwardsTo he hkind ⟨hresults, hroute⟩ htypes hargs hf htype⟩
  · have hnone (fd : Nat) : ¬ e.signature.OnStream args fd := fun hfd =>
      Signature.not_forwards_of_onStream hroute hfd hargs
    exact Blind.stdio (fun fd => apart_handle hkind hroute hfirst (hnone fd)) hr
  · have hargs := Signature.not_forwards_of_onStream hroute hfd
    exact ⟨hargs, answers_handle hkind hfirst hargs hfd⟩
  · rw [answer_eq he]
    exact call_begins hbegins

end Linked

/-- In a linked process, whatever its filesystem module as long as that has the usual types, every import of the
surface is routed, for all arguments that have its types and in every state. -/
theorem every_call_has_one_place_to_go (fs : Filesystem) (around : Surroundings) {bridged traced : Bool}
    {t : ImportTable} (htable : ImportTable.install fs.module bridged traced [] = .ok t)
    (hcanonical : fs.module.Canonical) (s : Signature) (hs : s ∈ Signature.table) (args : List Value)
    (hargs : typesMatch s.params args = true) :
    ∃ e, t.find? s.name = some e ∧ e.signature = s ∧ e.bridged = bridged ∧
      (⟨t, fs, around⟩ : Linked).Routed e args := by
  obtain ⟨hsignatures, hinstalled⟩ := ImportTable.install_installed htable
  -- the import is there under its name, and no other
  obtain ⟨e₀, he₀, hs₀⟩ := List.mem_map.1 (hsignatures ▸ hs : s ∈ t.map Entry.signature)
  obtain ⟨e, he⟩ : ∃ e, t.find? s.name = some e := by
    refine Option.isSome_iff_exists.1 (List.find?_isSome.2 ⟨e₀, he₀, ?_⟩)
    rw [hs₀]
    exact beq_self_eq_true _
  have hmem : e ∈ t := List.mem_of_find?_eq_some he
  have hname : e.signature.name = s.name := by simpa using List.find?_some he
  have hsurface : e.signature ∈ Signature.table := hsignatures ▸ List.mem_map_of_mem hmem
  obtain rfl : e.signature = s := Signature.eq_of_name s hs e.signature hsurface hname
  have hentry := hinstalled e hmem
  have hkind := Signature.kind_of_serviceOf hentry.service
  refine ⟨e, he, rfl, hentry.bridged, Linked.routed he hkind hsurface hcanonical (fun hforwards => ?_) hargs⟩
  have hneeds := Signature.needsExport_of_forwards hkind hforwards
  have hexported := hentry.exported
  rw [hneeds, Bool.true_and] at hexported
  cases hf : fs.module.function? e.signature.name with
  | some f => exact ⟨f, rfl⟩
  | none => rw [hf] at hexported; cases hexported

set_option maxRecDepth 4000

/-- A write on descriptor -1 is the standard module's. -/
theorem a_negative_descriptor_is_the_modules :
    let args : List Value := [.i32 0xFFFFFFFF, .i32 2048, .i32 1, .i32 2080]
    ∃ e, (heraldTable true).find? "fd_write" = some e ∧ e.signature.Forwards args ∧
      (heraldLinked true).Routed e args := by
  intro args
  have hcanonical : FilesystemModule.standard.Canonical := by
    intro s hs _ f hf
    have hall : ∀ s ∈ Signature.table, (FilesystemModule.standard.function? s.name).all (·.type = s.funcType) := by
      decide +kernel
    have htype := hall s hs
    rw [hf] at htype
    simpa using htype
  obtain ⟨e, he, hsignature, -, hrouted⟩ := every_call_has_one_place_to_go heraldFilesystem ⟨0, fun _ => some 0⟩
    (installed_heraldTable true) hcanonical (Signature.served "fd_write" [.i32, .i32, .i32, .i32]) (by decide) args
    (by decide)
  exact ⟨e, he, .inl ⟨hsignature ▸ .inr rfl, 0xFFFFFFFF, rfl, by decide⟩, hrouted⟩

end GuestHost
