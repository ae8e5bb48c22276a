/-
  GuestHost.Proofs.Session.Isolation — the guest's memory and the filesystem module's, and what crosses between
  them.

  The module answers a forwarded call with its own memory and with what it copies. Whatever its code is, between
  entering and leaving its export it reaches the guest's memory through copies only, and it reaches nothing else
  of the session (`Confined`). Calls that are the host's own do not reach the module at all.

  Proved:
  - `Session.confined_onFilesystem`: every visit to the module is confined.
  - `Session.steady_tended`: a whole run is a row of visits, and arguments and environment are as they were.
  - `memories_are_apart`: so it is for every call in every run.
-/

import GuestHost.Proofs.Filesystem.Copies
import GuestHost.Proofs.Session.Routing
import GuestHost.Proofs.Session.Steady

namespace GuestHost

open Exec

/-! ## Visits -/

/-- What a visit to the module does: from `m`, where its export is entered, to `m'`, where it was left as `f`. -/
structure Confined (fs : Filesystem) (m : Machine (Hosted Work Session)) (f : Machine Linkage)
    (m' : Machine (Hosted Work Session)) : Prop where
  journey : Journey (Session.entered m) f
  /-- Wherever it has come to, the module gets whole copies or none. -/
  copies : ∀ k, Journey (Session.entered m) k → fs.CopiesWhole k
  size : m'.memory.size = m.memory.size
  /-- A byte of the guest that is not what it was is the module's, by a copy that is on record. -/
  guest : ∀ a, m'.memory.byte a ≠ m.memory.byte a → ∃ (k : Machine Linkage) (src dst len : Nat),
    CopyOut (Session.entered m) f k src dst len ∧ dst ≤ a ∧ a < dst + len ∧
      m'.memory.byte a = k.memory.byte (src + (a - dst)) ∧
        .outward dst (k.memory.read src len) ∈ (Session.entered m).copiesSince f
  /-- A byte of the module that is not what it was was stored by its own code, or by such a copy. -/
  own : ∀ a, m'.outer.host.filesystem.memory.byte a ≠ m.outer.host.filesystem.memory.byte a →
    (∃ r ∈ (Session.entered m).storesSince f, r.1 ≤ a ∧ a < r.1 + r.2) ∨
      ∃ (k : Machine Linkage) (src dst len : Nat), CopyIn (Session.entered m) f k src dst len ∧ dst ≤ a ∧
        a < dst + len ∧ .inward dst (k.outer.guest.read src len) ∈ (Session.entered m).copiesSince f
  args : m'.outer.host.args = m.outer.host.args
  env : m'.outer.host.env = m.outer.host.env
  stdio : m'.outer.host.stdio = m.outer.host.stdio
  bridge : m'.outer.bridge = m.outer.bridge
  globals : m'.globals = m.globals

namespace Session

theorem confined_leaving (fs : Filesystem) {m : Machine (Hosted Work Session)} {f : Machine Linkage}
    (hattached : m.outer.host.filesystem.outer.attached = true) (h : Journey (entered m) f) :
    Confined fs m f (leaving m f) where
  journey := h
  copies k hk := by
    obtain ⟨-, -, hbound, hstill, -⟩ := hk.frame
    exact Filesystem.copies_whole hbound (hstill.trans hattached)
  size := h.frame.1
  guest a ha := by
    obtain ⟨k, src, dst, len, hcopy, hle, hlt, hbyte⟩ := h.guest_byte ha
    exact ⟨k, src, dst, len, hcopy, hle, hlt, hbyte, hcopy.recorded⟩
  own a ha := by
    rcases h.own_byte ha with hstored | ⟨k, src, dst, len, hcopy, hle, hlt⟩
    · exact .inl hstored
    · exact .inr ⟨k, src, dst, len, hcopy, hle, hlt, hcopy.recorded⟩
  args := rfl
  env := rfl
  stdio := rfl
  bridge := rfl
  globals := rfl

end Session

/-- What becomes of the module's machine while guests are run: it is visited any number of times. -/
inductive Visits (f : Machine Linkage) : Machine Linkage → Prop
  | none : Visits f f
  | visit {m : Machine (Hosted Work Session)} {n : Machine Linkage} : Visits f m.outer.host.filesystem →
      Journey (Session.entered m) n → Visits f (Session.leaving m n).outer.host.filesystem

namespace Visits

variable {f n : Machine Linkage}

theorem records (h : Visits f n) :
    f.outer.crossings.toList <+: n.outer.crossings.toList ∧ f.stores.toList <+: n.stores.toList := by
  induction h with
  | none => exact ⟨List.prefix_refl _, List.prefix_refl _⟩
  | visit _ hjourney ih => exact ⟨ih.1.trans hjourney.records.1, ih.2.trans hjourney.records.2⟩

/-- Over any number of visits, a byte of the module that has changed was stored by its own code or copied in. -/
theorem own_byte (h : Visits f n) {a : Nat} (ha : n.memory.byte a ≠ f.memory.byte a) :
    (∃ r ∈ f.storesSince n, r.1 ≤ a ∧ a < r.1 + r.2) ∨
      ∃ dst bs, .inward dst bs ∈ f.copiesSince n ∧ dst ≤ a ∧ a < dst + bs.length := by
  induction h with
  | none => exact absurd rfl ha
  | @visit m n hvisits hjourney ih =>
    have hstores := hjourney.records.2.sublist.drop f.stores.toList.length
    have hcopies := hjourney.records.1.sublist.drop f.outer.crossings.toList.length
    by_cases hsame : n.memory.byte a = m.outer.host.filesystem.memory.byte a
    · -- it had changed before this visit
      rcases ih (hsame ▸ ha) with ⟨r, hr, hrange⟩ | ⟨dst, bs, hcopy, hrange⟩
      · exact .inl ⟨r, hstores.subset hr, hrange⟩
      · exact .inr ⟨dst, bs, hcopies.subset hcopy, hrange⟩
    · rcases hjourney.own_byte hsame with ⟨r, hr, hrange⟩ | ⟨k, src, dst, len, hcopy, hle, hlt⟩
      · exact .inl ⟨r, (List.drop_sublist_drop_left _ hvisits.records.2.length_le).subset hr, hrange⟩
      · refine .inr ⟨dst, k.outer.guest.read src len, ?_, hle, by rw [Memory.length_read]; exact hlt⟩
        exact (List.drop_sublist_drop_left _ hvisits.records.1.length_le).subset hcopy.recorded

end Visits

/-! ## Sessions -/

/-- What a session `s` has kept of the session `s₀` that it once was. -/
structure Session.Tended (s₀ s : Session) : Prop where
  args : s.args = s₀.args
  env : s.env = s₀.env
  attached : s.filesystem.outer.attached = true
  visits : Visits s₀.filesystem s.filesystem

/-- Nothing that is done to a session, and no failure, ends its being tended. -/
theorem Session.steady_tended (s₀ : Session) :
    Steady (fun _ _ => True) s₀.Tended fun _ m => s₀.Tended m.outer.host where
  log _ h := ⟨h.args, h.env, h.attached, h.visits⟩
  drawn _ h := ⟨h.args, h.env, h.attached, h.visits⟩
  handled _ _ h := ⟨h.args, h.env, h.attached, h.visits⟩
  moved _ _ h := ⟨h.args, h.env, h.attached, h.visits⟩
  offered _ _ h := ⟨h.args, h.env, h.attached, h.visits⟩
  visit h hjourney := ⟨h.args, h.env, hjourney.frame.2.2.2.1.trans h.attached, .visit h.visits hjourney⟩
  fails _ h := h
  broken _ _ h := ⟨h.args, h.env, h.attached, h.visits⟩
  refused _ _ h := ⟨h.args, h.env, h.attached, h.visits⟩
  exits _ _ h := ⟨h.args, h.env, h.attached, h.visits⟩
  traced _ h := ⟨h.args, h.env, h.attached, h.visits⟩

/-- When a session is set up, there is no guest yet, and nothing was copied, also if that failed. -/
theorem Session.alone_setUp (o : Options) (fs : Filesystem) :
    ∃ own, Filesystem.Alone own (setUp o fs).2.filesystem ∧ ((setUp o fs).1 = .ok () → own = true) := by
  have hblank : Filesystem.Alone false (blank o fs).filesystem := ⟨rfl, rfl, rfl⟩
  have hup := fs.alone_bringUp o.seed _ hblank
  unfold setUp
  dsimp only
  cases hr : fs.bringUp o.seed (blank o fs).filesystem with
  | ok _ f =>
    rw [hr] at hup
    exact ⟨true, ⟨hup.bound, hup.crossings, hup.attached⟩, fun _ => rfl⟩
  | error e f =>
    rw [hr] at hup
    obtain ⟨own, hown⟩ := hup
    exact ⟨own, ⟨hown.bound, hown.crossings, hown.attached⟩, nofun⟩

namespace Linked

variable {l : Linked} {e : Entry} {args : List Value} {m m' : Machine (Hosted Work Session)}

theorem confined_handle (hkind : e.signature.Kind e.service)
    (hroute : e.signature.Splits → e.signature.route = .host) (hargs : e.signature.Forwards args)
    (hattached : m.outer.host.filesystem.outer.attached = true) (h : Leads (l.handle e args) m m') :
    ∃ f, Confined l.filesystem m f m' := by
  rw [handle_forward hkind hroute hargs] at h
  -- the handler's mark is out of the module's sight
  let marked := m.onHost fun s => { s with deeds := s.deeds.push (.handled e.signature.name args) }
  have hvisit : ∃ f, Journey (Session.entered m) f ∧ m' = Session.leaving marked f := by
    have htravels := l.filesystem.travels_forward e.signature.name args (Session.entered m) .here
    have hforward : (do
        Session.mark (.handled e.signature.name args)
        l.forward e.signature.name args) m = (do
          let w ← Session.onFilesystem (l.filesystem.forward e.signature.name args)
          return Reply.ready w : Act (Reply Work)) marked := rfl
    unfold Leads at h
    rw [hforward, bind_apply, Session.onFilesystem_apply] at h
    change After _ _ (l.filesystem.forward e.signature.name args (Session.entered marked)) at htravels
    cases hr : l.filesystem.forward e.signature.name args (Session.entered marked) with
    | ok w f =>
      rw [hr] at h htravels
      rcases h with ⟨a, h⟩ | ⟨failure, h⟩
      · cases h
        exact ⟨f, htravels, rfl⟩
      · cases h
    | error failure f =>
      rw [hr] at h htravels
      rcases h with ⟨a, h⟩ | ⟨failure', h⟩
      · cases h
      · cases h
        exact ⟨f, htravels.1, rfl⟩
  obtain ⟨f, hjourney, rfl⟩ := hvisit
  have hconfined := Session.confined_leaving l.filesystem hattached hjourney
  exact ⟨f, hconfined.journey, hconfined.copies, hconfined.size, hconfined.guest, hconfined.own, rfl, rfl, rfl, rfl,
    rfl⟩

end Linked

/-- The two memories are apart in all runs of guests whose session `s₀` was set up and whose imports are linked as
`l`. -/
structure Linked.KeepsApart (l : Linked) (s₀ : Session) : Prop where
  /-- Before the first run there is no guest, nothing was copied, and no copy would have got anywhere. -/
  before : s₀.filesystem.outer.guestBound = false ∧ s₀.filesystem.outer.crossings = #[] ∧
    ∀ k : Machine Linkage, k.outer.guestBound = false → l.filesystem.CopiesNothing k
  /-- A forwarded call is a visit to the module, also if it fails. -/
  forwarded : ∀ e ∈ l.table, ∀ args, e.signature.Forwards args → ∀ m m', s₀.Tended m.outer.host →
    Leads (l.handle e args) m m' → ∃ f, Confined l.filesystem m f m'
  /-- The host's own calls leave the module as it is. -/
  kept : ∀ e ∈ l.table, ∀ args, typesMatch e.signature.params args = true → ¬ e.signature.Forwards args →
    ∀ m m', Leads (l.handle e args) m m' → m'.outer.host.filesystem = m.outer.host.filesystem
  /-- So does the work that they leave. -/
  finished : ∀ (work : Work) m m', Leads work.finish m m' → m'.outer.host.filesystem = m.outer.host.filesystem
  /-- Every call is made in a session that is tended, and leaves it so. -/
  start : s₀.Tended s₀
  handled : ∀ e args, Upholds s₀.Tended (l.handle e args)
  answered : ∀ {controls : Controls (Hosted Work Session)},
    controls.Keep (fun m => s₀.Tended m.outer.host) (fun _ m => s₀.Tended m.outer.host) →
      ∀ target args, Upholds s₀.Tended (l.host.answer controls target args)
  /-- A run leaves the session tended, however it ends. -/
  run : ∀ (g : Guest) (streaming returnOnExit : Bool) (limits : Limits) (m : Machine (Hosted Work Session)),
    m.outer.host = s₀ → s₀.Tended (Session.start g l streaming returnOnExit limits m).machine.outer.host
  /-- In such a session, a byte of the module that is not what it was was stored by its own code or copied in. -/
  own : ∀ s, s₀.Tended s → ∀ a, s.filesystem.memory.byte a ≠ s₀.filesystem.memory.byte a →
    (∃ r ∈ s₀.filesystem.storesSince s.filesystem, r.1 ≤ a ∧ a < r.1 + r.2) ∨
      ∃ dst bs, .inward dst bs ∈ s₀.filesystem.copiesSince s.filesystem ∧ dst ≤ a ∧ a < dst + bs.length

/-- Whatever the filesystem module: the two memories are apart, in every call and in every run. -/
theorem memories_are_apart (o : Options) (fs : Filesystem) (around : Surroundings) {s₀ : Session}
    (hs : Session.setUp o fs = (.ok (), s₀)) {bridged traced : Bool} {t : ImportTable}
    (htable : ImportTable.install fs.module bridged traced [] = .ok t) :
    (⟨t, fs, around⟩ : Linked).KeepsApart s₀ := by
  obtain ⟨hsignatures, hinstalled⟩ := ImportTable.install_installed htable
  have hsurface (e : Entry) (he : e ∈ t) : e.signature ∈ Signature.table := hsignatures ▸ List.mem_map_of_mem he
  have hkind (e : Entry) (he : e ∈ t) : e.signature.Kind e.service :=
    Signature.kind_of_serviceOf (hinstalled e he).service
  have hsteady := Session.steady_tended s₀
  have hanywhere : (⟨t, fs, around⟩ : Linked).BeginsAt fun _ _ => True :=
    ⟨fun _ _ _ _ => trivial, fun _ _ _ _ => trivial⟩
  obtain ⟨own, halone, hown⟩ := Session.alone_setUp o fs
  rw [hs] at halone hown
  have htended : s₀.Tended s₀ := ⟨rfl, rfl, halone.attached.trans (hown rfl), .none⟩
  exact {
    before := ⟨halone.bound, halone.crossings, fun k hk => Filesystem.copies_nothing hk⟩
    forwarded := fun e he args hargs m m' hm hlead =>
      Linked.confined_handle (hkind e he) (Signature.route_of_splits (hsurface e he)) hargs hm.attached hlead
    kept := fun e he args htypes hargs m m' hlead =>
      Blind.filesystem (Linked.kept_handle (hkind e he) (Signature.head_of_splits (hsurface e he) htypes) hargs).2 hlead
    finished := fun work m m' hlead => Blind.filesystem work.blind_filesystem hlead
    start := htended
    handled := fun e args m hm => hsteady.upholds_handle _ e args m ⟨hm, trivial⟩
    answered := hsteady.upholds_answer hanywhere
    run := fun g streaming returnOnExit limits m hm =>
      hsteady.of_start (fun _ hs => ⟨hs.args, hs.env, hs.attached, hs.visits⟩) hanywhere (hm ▸ htended) g streaming
        returnOnExit limits
    own := fun s hs a ha => hs.visits.own_byte ha }

set_option maxRecDepth 4000

/-- The write of three bytes on descriptor 4 is the standard module's, which puts their number into the guest's
memory. -/
theorem a_count_crosses_into_the_guest :
    let e : Entry := ⟨Signature.served "fd_write" [.i32, .i32, .i32, .i32], .byDescriptor .fdWrite, false, false⟩
    let m := heraldOptions.launch false heraldSession heraldCore
    ∃ m', Leads ((heraldLinked false).handle e [.i32 4, .i32 2048, .i32 1, .i32 2080]) m m' ∧
      m'.memory.read 2080 4 = [3, 0, 0, 0] ∧ ∃ f, Confined heraldFilesystem m f m' := by
  intro e m
  have hset : Session.setUp { heraldOptions with streaming := false } heraldFilesystem = (.ok (), heraldSession) :=
    Prod.ext (eq_ok_of_toOption (by decide +kernel)) rfl
  have hapart := memories_are_apart { heraldOptions with streaming := false } heraldFilesystem ⟨0, fun _ => some 0⟩ hset
    (installed_heraldTable false)
  have hrun : okWith (fun n => n.memory.read 2080 4 == [3, 0, 0, 0])
      ((heraldLinked false).handle e [.i32 4, .i32 2048, .i32 1, .i32 2080] m) := by decide +kernel
  have htended : heraldSession.Tended m.outer.host :=
    ⟨hapart.start.args, hapart.start.env, hapart.start.attached, hapart.start.visits⟩
  cases hr : (heraldLinked false).handle e [.i32 4, .i32 2048, .i32 1, .i32 2080] m with
  | error failure m' => rw [hr] at hrun; cases hrun
  | ok reply m' =>
    rw [hr] at hrun
    have hlead : Leads ((heraldLinked false).handle e [.i32 4, .i32 2048, .i32 1, .i32 2080]) m m' := .inl ⟨reply, hr⟩
    refine ⟨m', hlead, by simpa [okWith] using hrun, ?_⟩
    exact hapart.forwarded e (by decide +kernel) _ (.inl ⟨.inr rfl, 4, rfl, by decide⟩) m m' htended hlead

end GuestHost
