/-
  GuestHost.Proofs.Filesystem.Results — what a filesystem module gets back from its imports.

  The module declares the types of its imports, and the engine holds the host to them: a result slot that is left
  empty, or filled at another type than the declared one, fails the call. Reports and copies return zeros of whatever
  types are declared. The other imports were written with one type in mind (`Linkage.Suits`): the time is given as
  `i32`, `i64` or `f64` and in one slot only, `proc_exit` fills none, and the code of an unsupported import is always an
  `i32`. Declared otherwise they can be linked, and fail whenever they are called.

  Proved:
  - `Linkage.typesMatch_timeSlots`, `Linkage.typesMatch_unsupportedSlots`: the types at which slots are filled.
  - `imports_return_what_is_declared_where_it_suits`: every import that the host defines, at every declared type.
-/

import GuestHost.Proofs.Filesystem.Copies

namespace GuestHost

open Exec

namespace Linkage

variable {results : List ValType} {args : List Value} {now : Nat} {a b c : UInt32}

/-! ## Slots -/

/-- What the engine says of a call of which a result is missing or of another type. -/
def incompatible : Failure := .engine "function attempted to return an incompatible value"

theorem fillSlots_apply (results : List ValType) (filled : List Value) (k : Machine Linkage) :
    fillSlots results filled k = if typesMatch results filled = true then .ok filled k else .error incompatible k := by
  unfold fillSlots
  split <;> rfl

/-- The time fits one slot, of any type but `f32`. -/
theorem typesMatch_timeSlots (now : Nat) :
    typesMatch results (timeSlots now results) = true ↔
      results = [] ∨ results = [.i32] ∨ results = [.i64] ∨ results = [.f64] := by
  match results with
  | [] => simp [typesMatch, timeSlots]
  | [.i32] | [.i64] | [.f32] | [.f64] => simp [typesMatch, timeSlots, Value.type]
  | t :: u :: rest => cases t <;> simp [typesMatch, timeSlots]

/-- The code of an unsupported import fits a first slot of type `i32`. -/
theorem typesMatch_unsupportedSlots :
    typesMatch results (unsupportedSlots results) = true ↔ results = [] ∨ results.head? = some .i32 := by
  cases results with
  | nil => exact iff_of_true rfl (.inl rfl)
  | cons t rest =>
    have htypes : (unsupportedSlots (t :: rest)).map Value.type = .i32 :: rest :=
      congrArg (ValType.i32 :: ·) (beq_iff_eq.1 (typesMatch_zeros rest))
    rw [typesMatch, beq_iff_eq, htypes, List.head?_cons]
    constructor
    · intro h
      exact .inr (congrArg some (List.cons.inj h).1.symm)
    · rintro (h | h)
      · cases h
      · rw [Option.some.inj h]

theorem typesMatch_nil : typesMatch results [] = true ↔ results = [] := by
  rw [typesMatch, beq_iff_eq]
  exact eq_comm

/-! ## What is refused, and what suits -/

/-- The host has no reason of its own to refuse a call of an internal import. -/
def Admits (k : Machine Linkage) (name : String) (a b c : UInt32) : Prop :=
  match name with
  | "trace" => k.outer.attached = true ∧ k.memory.holds b.toNat c.toNat = true ∧ a = 0
  | "copy_in" => k.outer.guestBound = true ∧ k.outer.attached = true ∧
      k.outer.guest.holds a.toNat c.toNat = true ∧ k.memory.holds b.toNat c.toNat = true
  | "copy_out" => k.outer.guestBound = true ∧ k.outer.attached = true ∧
      k.memory.holds a.toNat c.toNat = true ∧ k.outer.guest.holds b.toNat c.toNat = true
  | _ => True

/-- The reasons for which the host refuses a call: an error that the module reports, a range out of bounds, or that
there is no memory of a guest, or none of the module. -/
inductive Refusal : Failure → Prop
  | reported (text : String) : Refusal (.filesystem (.trace text))
  | outOfBounds : Refusal .memoryAccess
  | noGuest : Refusal (.filesystem .guestMemoryUnbound)
  | noMemory : Refusal (.filesystem (.missingExport FilesystemModule.memoryName))

/-- The host has no reason of its own to refuse a call. -/
def Admitted (k : Machine Linkage) (target : ImportName) (args : List Value) : Prop :=
  target.space = internalNamespace →
    ∀ a b c rest, args = .i32 a :: .i32 b :: .i32 c :: rest → Admits k target.name a b c

/-- The result types at which the host fills the slots of an import. -/
def Suits (target : ImportName) (results : List ValType) : Prop :=
  if target.space = internalNamespace then
    target.name = "now_ms" → results = [] ∨ results = [.i32] ∨ results = [.i64] ∨ results = [.f64]
  else if target.name = "proc_exit" then results = []
  else results = [] ∨ results.head? = some .i32

/-- How a call ends: refused with one of the host's reasons, with a value of the declared type for each result, or with
the failure of the engine. -/
structure Ended (admitted suits : Prop) (results : List ValType) (k : Machine Linkage)
    (r : EStateM.Result Failure (Machine Linkage) (List Value)) : Prop where
  refused : ¬ admitted → ∃ e, Refusal e ∧ r = .error e k
  served : admitted → suits → ∃ values k', r = .ok values k' ∧ typesMatch results values = true
  missed : admitted → ¬ suits → r = .error incompatible k

/-- An action that is done if it is admitted, and refused if not. -/
def Done (admitted : Prop) (act : FilesystemAct Unit) (k : Machine Linkage) : Prop :=
  (admitted ∧ ∃ k', act k = .ok () k') ∨ ¬ admitted ∧ ∃ e, Refusal e ∧ act k = .error e k

section

variable {admitted suits : Prop} {k : Machine Linkage}

theorem ended_fillSlots {filled : List Value} (hadmitted : admitted) (h : typesMatch results filled = true ↔ suits) :
    Ended admitted suits results k (fillSlots results filled k) where
  refused hr := absurd hadmitted hr
  served _ hs := ⟨filled, k, by rw [fillSlots_apply, if_pos (h.2 hs)], h.2 hs⟩
  missed _ hs := by rw [fillSlots_apply, if_neg (mt h.1 hs)]

theorem ended_zeros {act : FilesystemAct Unit} (hsuits : suits) (hact : Done admitted act k) :
    Ended admitted suits results k ((act >>= fun _ => fillSlots results (zeros results)) k) := by
  rcases hact with ⟨hadmitted, k', hok⟩ | ⟨hrefused, e, he, herror⟩
  · rw [bind_of_ok hok, fillSlots_zeros]
    exact {
      refused := fun hr => absurd hadmitted hr
      served := fun _ _ => ⟨zeros results, k', rfl, typesMatch_zeros results⟩
      missed := fun _ hs => absurd hsuits hs }
  · rw [bind_of_error herror]
    exact {
      refused := fun _ => ⟨e, he, rfl⟩
      served := fun ha => absurd ha hrefused
      missed := fun ha => absurd ha hrefused }

end

/-! ## Reports and copies -/

section

variable {target : ImportName} (k : Machine Linkage) (a b c : UInt32) (rest : List Value)

theorem done_trace : Done (Admits k "trace" a b c) (trace (.i32 a :: .i32 b :: .i32 c :: rest)) k := by
  unfold Done
  rw [trace_of_words k rfl rfl rfl]
  split
  · next h => exact .inr ⟨fun ha => absurd ha.1 (by simp [h]), _, .noMemory, rfl⟩
  · next hattached =>
    split
    · next hholds =>
      split
      · next hzero => exact .inl ⟨⟨eq_true_of_ne_false hattached, hholds, hzero⟩, _, rfl⟩
      · next hzero => exact .inr ⟨fun ha => hzero ha.2.2, _, .reported _, rfl⟩
    · next hholds => exact .inr ⟨fun ha => hholds ha.2.1, _, .outOfBounds, rfl⟩

/-- A copy is done if both memories are known and both ranges lie in them. -/
theorem done_of_copy {act : FilesystemAct Unit} {k k' : Machine Linkage} {held : Prop} [Decidable held]
    (h : act k = if k.outer.guestBound = false then .error (.filesystem .guestMemoryUnbound) k
      else if k.outer.attached = false then .error (.filesystem (.missingExport FilesystemModule.memoryName)) k
      else if held then .ok () k' else .error .memoryAccess k) :
    Done (k.outer.guestBound = true ∧ k.outer.attached = true ∧ held) act k := by
  unfold Done
  rw [h]
  split
  · next hbound => exact .inr ⟨fun ha => absurd ha.1 (by simp [hbound]), _, .noGuest, rfl⟩
  · next hbound =>
    split
    · next hattached => exact .inr ⟨fun ha => absurd ha.2.1 (by simp [hattached]), _, .noMemory, rfl⟩
    · next hattached =>
      split
      · next hheld => exact .inl ⟨⟨eq_true_of_ne_false hbound, eq_true_of_ne_false hattached, hheld⟩, _, rfl⟩
      · next hheld => exact .inr ⟨fun ha => hheld ha.2.2, _, .outOfBounds, rfl⟩

variable {k a b c rest}

theorem admitted_iff (hspace : target.space = internalNamespace) :
    Admitted k target (.i32 a :: .i32 b :: .i32 c :: rest) ↔ Admits k target.name a b c := by
  constructor
  · intro h
    exact h hspace a b c rest rfl
  · intro h _ a' b' c' rest' hargs
    cases hargs
    exact h

theorem admitted_of_ne (h : target.space ≠ internalNamespace) : Admitted k target args := fun hspace => absurd hspace h

end

theorem cases_of_defined {target : ImportName} {kind : ImportKind}
    (h : FilesystemModule.defined target kind = true) :
    (target.space = internalNamespace ∧ (target.name = "now_ms" ∨ target.name = "trace" ∨
      target.name = "copy_in" ∨ target.name = "copy_out")) ∨ target.space ≠ internalNamespace := by
  simp only [FilesystemModule.defined, Bool.and_eq_true, Bool.or_eq_true, beq_iff_eq] at h
  rcases h.2 with hspace | ⟨hspace, hname⟩
  · exact .inr (hspace ▸ by decide)
  · refine .inl ⟨hspace, ?_⟩
    simpa [internalImports, List.lookup_isSome_iff] using hname

theorem threeWords_of_typesMatch {params : List ValType} (hparams : params.take 3 = [.i32, .i32, .i32])
    (h : typesMatch params args = true) : ∃ a b c rest, args = .i32 a :: .i32 b :: .i32 c :: rest := by
  have htypes : (args.take 3).map Value.type = [.i32, .i32, .i32] := by
    rw [List.map_take, beq_iff_eq.1 h, hparams]
  match args, htypes with
  | .i32 a :: .i32 b :: .i32 c :: rest, _ => exact ⟨a, b, c, rest, rfl⟩

end Linkage

/-- Whatever types a filesystem module declares, of an import that the host defines it gets a value of the declared type
for each result wherever the types suit, unless the call is refused for a reason of its own; and where they do not suit,
every other call fails in the engine. -/
theorem imports_return_what_is_declared_where_it_suits (fs : Filesystem) (target : ImportName) (type : FuncType)
    (htype : fs.module.importType target = type)
    (hdefined : FilesystemModule.defined target (.function type) = true)
    (hparams : target.space = internalNamespace → target.name ≠ "now_ms" → type.params.take 3 = [.i32, .i32, .i32])
    (args : List Value) (hargs : typesMatch type.params args = true) (k : Machine Linkage) :
    Linkage.Ended (Linkage.Admitted k target args) (Linkage.Suits target type.results) type.results k
      (fs.setting.call target args k) := by
  subst htype
  obtain ⟨space, name⟩ := target
  show Linkage.Ended _ _ _ k (Linkage.call fs.now _ _ args k)
  have hwords := fun hspace hname => Linkage.threeWords_of_typesMatch (hparams hspace hname) hargs
  unfold Linkage.call Linkage.Suits
  rcases Linkage.cases_of_defined hdefined with ⟨rfl, rfl | rfl | rfl | rfl⟩ | hspace
  · simp only [if_true]
    exact Linkage.ended_fillSlots (fun _ _ _ _ _ _ => trivial) (by simpa using Linkage.typesMatch_timeSlots fs.now)
  · obtain ⟨a, b, c, rest, rfl⟩ := hwords rfl (by decide)
    rw [Linkage.admitted_iff rfl]
    exact Linkage.ended_zeros nofun (Linkage.done_trace k a b c rest)
  · obtain ⟨src, dst, len, rest, rfl⟩ := hwords rfl (by decide)
    rw [Linkage.admitted_iff rfl]
    exact Linkage.ended_zeros nofun (Linkage.done_of_copy (Linkage.copyIn_of_words k rfl rfl rfl))
  · obtain ⟨src, dst, len, rest, rfl⟩ := hwords rfl (by decide)
    rw [Linkage.admitted_iff rfl]
    exact Linkage.ended_zeros nofun (Linkage.done_of_copy (Linkage.copyOut_of_words k rfl rfl rfl))
  · rw [if_neg hspace, if_neg hspace]
    have hadmitted : Linkage.Admitted k ⟨space, name⟩ args := Linkage.admitted_of_ne hspace
    split
    · exact Linkage.ended_fillSlots hadmitted Linkage.typesMatch_nil
    · exact Linkage.ended_fillSlots hadmitted Linkage.typesMatch_unsupportedSlots

/-- A module that has chosen types of its own for three of its imports. -/
def wayward : Filesystem where
  module :=
    { internalTypes := [("now_ms", ⟨[], [.f32]⟩), ("copy_in", ⟨[.i32, .i32, .i32], [.f64, .i64]⟩)]
      previewTypes := [("fd_sync", ⟨[], [.i32, .f32]⟩)] }
  now := 0
  turns := 100

/-- The same module while it runs, with a guest. -/
def waywardRunning : Machine Linkage where
  memory := Memory.zeroed pageSize
  outer := { guest := Memory.zeroed pageSize, guestBound := true, attached := true }

/-- It gets zeros from a copy, also of types that nobody has thought of, and is told that a file is not supported. -/
theorem a_wayward_module_gets_its_zeros :
    (∃ values k', wayward.setting.call ⟨internalNamespace, "copy_in"⟩ [.i32 0, .i32 8, .i32 4] waywardRunning =
        .ok values k' ∧ typesMatch [.f64, .i64] values = true) ∧
      (∃ e, Linkage.Refusal e ∧
        wayward.setting.call ⟨internalNamespace, "copy_in"⟩ [.i32 0, .i32 65535, .i32 4] waywardRunning =
          .error e waywardRunning) ∧
      ∃ values k', wayward.setting.call ⟨previewNamespace, "fd_sync"⟩ [] waywardRunning = .ok values k' ∧
        typesMatch [.i32, .f32] values = true := by
  have hcopy := imports_return_what_is_declared_where_it_suits wayward ⟨internalNamespace, "copy_in"⟩
    ⟨[.i32, .i32, .i32], [.f64, .i64]⟩ (by decide) (by decide) fun _ _ => rfl
  have hsync := imports_return_what_is_declared_where_it_suits wayward ⟨previewNamespace, "fd_sync"⟩
    ⟨[], [.i32, .f32]⟩ (by decide) (by decide) fun h => absurd h (by decide)
  refine ⟨?_, ?_, ?_⟩
  · refine (hcopy [.i32 0, .i32 8, .i32 4] rfl waywardRunning).served ?_ ?_
    · exact (Linkage.admitted_iff rfl).2 ⟨rfl, rfl, by decide, by decide⟩
    · exact fun h => absurd h (by decide)
  · refine (hcopy [.i32 0, .i32 65535, .i32 4] rfl waywardRunning).refused ?_
    exact fun h => absurd ((Linkage.admitted_iff rfl).1 h).2.2.2 (by decide)
  · refine (hsync [] rfl waywardRunning).served ?_ ?_
    · exact Linkage.admitted_of_ne (by decide)
    · exact .inr rfl

/-- But although its imports can be linked, it cannot ask for the time, which is not given at the type that it has
declared. -/
theorem a_wayward_module_gets_no_time :
    wayward.module.link = .ok () ∧
      wayward.module.importType ⟨internalNamespace, "now_ms"⟩ = ⟨[], [.f32]⟩ ∧
      wayward.setting.call ⟨internalNamespace, "now_ms"⟩ [] waywardRunning =
        .error (.engine "function attempted to return an incompatible value") waywardRunning :=
  ⟨rfl, by decide, rfl⟩

end GuestHost
