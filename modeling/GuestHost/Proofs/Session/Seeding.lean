/-
  GuestHost.Proofs.Session.Seeding — what a filesystem module finds in its seed.

  Directories and files are set one after the other (`Seed.Entry`). The directories keep their order; of the contents
  that are set for a path the last count, and otherwise the order of the files is lost. So the seed is the same as the
  pair of `Seed.preopened` and `Seed.contents?` (`Seed.configured_eq_iff`), and so is the payload, as it can be read
  back. The module gets it as bytes in its own memory, by their address and their number. A word cannot tell the number
  of bytes that take all the addresses there are; that aside, what the module finds there is the payload.

  Proved:
  - `Seed.documentOf?_payload`, `Seed.payload_inj`: the payload is read back, and tells seeds apart.
  - `Filesystem.seed_of_free`: the course of seeding.
  - `seed_tells_the_settings`: both, for any settings and any module.
  - `a_payload_of_all_addresses_is_not_told`: the one payload that the module does not find.
-/

import GuestHost.Proofs.Filesystem.Scratch
import GuestHost.Proofs.Json.RoundTrip
import GuestHost.Proofs.Session.Strings

namespace GuestHost

open Exec

namespace Seed

/-! ## Settings -/

inductive Entry where
  | preopen (dir : String)
  | file (path contents : String)
  deriving DecidableEq, Repr

def apply (s : Seed) : Entry → Seed
  | .preopen dir => { s with preopens := s.preopens ++ [dir] }
  | .file path contents => s.put path contents

/-- The seed of settings that were made one after the other. -/
def configured (entries : List Entry) : Seed := entries.foldl apply {}

/-- The directories that settings preopen, in their order. -/
def preopened : List Entry → List String
  | [] => []
  | .preopen dir :: rest => dir :: preopened rest
  | .file _ _ :: rest => preopened rest

/-- The contents that were set last for a path. -/
def contents? (path : String) : List Entry → Option String
  | [] => none
  | .preopen _ :: rest => contents? path rest
  | .file p contents :: rest => (contents? path rest).or (if p = path then some contents else none)

theorem preopens_foldl (entries : List Entry) (s : Seed) :
    (entries.foldl apply s).preopens = s.preopens ++ preopened entries := by
  induction entries generalizing s with
  | nil => rw [preopened, List.append_nil, List.foldl_nil]
  | cons e entries ih =>
    rw [List.foldl_cons, ih]
    cases e with
    | preopen dir => rw [apply, preopened, List.append_assoc, List.singleton_append]
    | file path contents => rfl

theorem getElem?_foldl (entries : List Entry) (s : Seed) (path : String) :
    (entries.foldl apply s).files[path]? = (contents? path entries).or s.files[path]? := by
  induction entries generalizing s with
  | nil => rfl
  | cons e entries ih =>
    rw [List.foldl_cons, ih]
    cases e with
    | preopen dir => rfl
    | file p contents =>
      have hput : (s.put p contents).files[path]? = (if p = path then some contents else none).or s.files[path]? := by
        rw [put, Std.ExtTreeMap.getElem?_insert]
        simp only [Std.LawfulEqCmp.compare_eq_iff_eq]
        split <;> rfl
      rw [apply, hput, contents?, Option.or_assoc]

theorem preopens_configured (entries : List Entry) : (configured entries).preopens = preopened entries :=
  preopens_foldl entries {}

theorem getElem?_configured (entries : List Entry) (path : String) :
    (configured entries).files[path]? = contents? path entries := by
  rw [configured, getElem?_foldl, Std.ExtTreeMap.getElem?_empty, Option.or_none]

/-- Two rows of settings come to the same seed if they preopen the same and end with the same contents. -/
theorem configured_eq_iff (entries entries' : List Entry) : configured entries = configured entries' ↔
    preopened entries = preopened entries' ∧ ∀ path, contents? path entries = contents? path entries' := by
  constructor
  · intro h
    refine ⟨?_, fun path => ?_⟩
    · rw [← preopens_configured, h, preopens_configured]
    · rw [← getElem?_configured, h, getElem?_configured]
  · rintro ⟨hpreopens, hcontents⟩
    have hfiles : (configured entries).files = (configured entries').files :=
      Std.ExtTreeMap.ext_getElem? fun path => by rw [getElem?_configured, getElem?_configured, hcontents]
    calc configured entries = ⟨(configured entries).preopens, (configured entries).files⟩ := rfl
      _ = ⟨(configured entries').preopens, (configured entries').files⟩ := by
        rw [hfiles, preopens_configured, preopens_configured, hpreopens]

/-! ## The document -/

/-- The document that bytes spell in UTF-8. -/
def documentOf? (bs : List UInt8) : Option Json := (text? bs).bind Json.parse?

def documentFor (dirs : List String) (files : List (String × String)) : Json :=
  .obj [("preopens", .arr (dirs.map .str)), ("fs", .obj (files.map fun (path, contents) => (path, .str contents)))]

theorem documentFor_inj {dirs dirs' : List String} {files files' : List (String × String)} :
    documentFor dirs files = documentFor dirs' files' ↔ dirs = dirs' ∧ files = files' := by
  refine ⟨fun h => ?_, fun h => by rw [h.1, h.2]⟩
  simp only [documentFor, Json.obj.injEq, List.cons.injEq, Prod.mk.injEq, Json.arr.injEq, true_and, and_true] at h
  refine ⟨(List.map_inj_right fun _ _ => Json.str.inj).1 h.1, (List.map_inj_right ?_).1 h.2⟩
  rintro ⟨path, contents⟩ ⟨path', contents'⟩ heq
  simpa using heq

theorem documentOf?_payload (s : Seed) : documentOf? s.payload = some (documentFor s.preopens s.files.toList) := by
  rw [documentOf?, payload, text?_utf8, Option.bind_some, Json.parse?_text]
  rfl

/-- Different seeds have different payloads. -/
theorem payload_inj {s s' : Seed} : s.payload = s'.payload ↔ s = s' := by
  refine ⟨fun h => ?_, fun h => by rw [h]⟩
  have hdocument := documentOf?_payload s
  rw [h, documentOf?_payload, Option.some.injEq, documentFor_inj, Std.ExtTreeMap.toList_inj] at hdocument
  cases s
  cases s'
  cases hdocument.1
  cases hdocument.2
  rfl

/-- A seed has each of its paths once. -/
theorem nodup_paths (s : Seed) : (s.files.toList.map Prod.fst).Nodup := by
  rw [List.Nodup, List.pairwise_map]
  exact Std.ExtTreeMap.distinct_keys_toList.imp fun h heq => h (Std.LawfulEqCmp.compare_eq_iff_eq.2 heq)

end Seed

/-! ## The module -/

namespace Filesystem

variable (fs : Filesystem)

def handOver (entry : Function) (ptr len : UInt32) : FilesystemAct UInt32 := do
  return resultWord (← entry.invoke fs.setting [.i32 ptr, .i32 len])

/-- What comes of seeding: what the module answers counts after all that fails. -/
def seeded : Except Failure UInt32 → Except Failure UInt32 → Except Failure Unit
  | .error e, _ | .ok _, .error e => .error e
  | .ok errno, .ok _ =>
    if errno != Errno.success.raw then .error (.filesystem (.seeding errno.toInt32)) else .ok ()

/-- The entry for the seed is called while the payload is staged, with its address and its length. -/
theorem seed_of_free {fs : Filesystem} (place : ScratchExports fs) {entry : Function}
    (htyped : fs.typed FilesystemModule.seedName ⟨[.i32, .i32], [.i32]⟩ = .ok entry) (s : Seed)
    {m : Machine Linkage} (hfree : m.outer.scratchLive = false) :
    ∃ answer m₁ freed m₂, Staged place s.payload (fs.handOver entry) (m.scratch true) answer m₁ ∧
      place.giveBack (m₁.scratch false) = yields freed m₂ ∧ fs.seed s m = yields (seeded answer freed) m₂ := by
  have hcall : (fun ptr len => fs.callTyped FilesystemModule.seedName ⟨[.i32, .i32], [.i32]⟩ [.i32 ptr, .i32 len]) =
      fs.handOver entry := by
    funext ptr len
    unfold callTyped
    rw [htyped]
    rfl
  obtain ⟨answer, m₁, freed, m₂, hstaged, hfreed, -, hresult⟩ :=
    withScratch_of_free place s.payload (fs.handOver entry) m hfree
  refine ⟨answer, m₁, freed, m₂, hstaged, hfreed, ?_⟩
  unfold seed
  rw [htyped, hcall]
  refine (bind_of_ok (pure_apply entry m)).trans ?_
  -- the answer is looked at only when the place was given back
  cases answer with
  | error e => exact bind_of_error hresult
  | ok errno =>
    cases freed with
    | error e => exact bind_of_error hresult
    | ok _ =>
      refine (bind_of_ok hresult).trans ?_
      rw [seeded]
      split <;> rfl

end Filesystem

/-- Whatever is set in whatever order, what the module is given is a JSON document in UTF-8 that tells exactly which
directories are preopened, in their order, and for each path once what was set for it last. Settings that come to the
same have the same payload byte for byte, and others another. Seeding stages the payload for the one call of the
module's entry, which gets its address and its length. -/
theorem seed_tells_the_settings (entries : List Seed.Entry) :
    (∃ files : List (String × String), (files.map Prod.fst).Nodup ∧
      (∀ path contents, (path, contents) ∈ files ↔ Seed.contents? path entries = some contents) ∧
      Seed.documentOf? (Seed.configured entries).payload = some (Seed.documentFor (Seed.preopened entries) files) ∧
      ∀ (memory : Memory) (ptr len : UInt32), Delimits memory ptr len (Seed.configured entries).payload →
        memory.size < UInt32.size ∨ (Seed.configured entries).payload.length < UInt32.size →
          Seed.documentOf? (memory.read ptr.toNat len.toNat) =
            some (Seed.documentFor (Seed.preopened entries) files)) ∧
      (∀ others : List Seed.Entry, (Seed.configured others).payload = (Seed.configured entries).payload ↔
        Seed.preopened others = Seed.preopened entries ∧
          ∀ path, Seed.contents? path others = Seed.contents? path entries) ∧
      ∀ (fs : Filesystem) (place : ScratchExports fs) (entry : Function),
        fs.typed FilesystemModule.seedName ⟨[.i32, .i32], [.i32]⟩ = .ok entry →
          ∀ m : Machine Linkage, m.outer.scratchLive = false →
            ∃ answer m₁ freed m₂,
              Staged place (Seed.configured entries).payload (fs.handOver entry) (m.scratch true) answer m₁ ∧
              place.giveBack (m₁.scratch false) = yields freed m₂ ∧
              fs.seed (Seed.configured entries) m = yields (Filesystem.seeded answer freed) m₂ := by
  have hdocument := Seed.documentOf?_payload (Seed.configured entries)
  rw [Seed.preopens_configured] at hdocument
  refine ⟨⟨(Seed.configured entries).files.toList, Seed.nodup_paths _, fun path contents => ?_, hdocument,
    fun memory ptr len h hsmall => ?_⟩, fun others => ?_, fun fs place entry htyped m hfree => ?_⟩
  · rw [Std.ExtTreeMap.mem_toList_iff_getElem?_eq_some, Seed.getElem?_configured]
  · rw [h.read hsmall, hdocument]
  · rw [Seed.payload_inj, Seed.configured_eq_iff]
  · exact Filesystem.seed_of_free place htyped _ hfree

/-- A module that gives a place and takes its seed. -/
def takingSeeds : Filesystem :=
  ⟨{ functions := [(FilesystemModule.allocName, ⟨⟨[.i32], [.i32]⟩, .skip, .lit 64⟩),
      (FilesystemModule.freeName, ⟨⟨[], []⟩, .skip, .lit 0⟩),
      (FilesystemModule.seedName, ⟨⟨[.i32, .i32], [.i32]⟩, .skip, .lit 0⟩)] }, 0, 0⟩

def takingSeedsExports : ScratchExports takingSeeds where
  alloc := ⟨⟨[.i32], [.i32]⟩, .skip, .lit 64⟩
  free := ⟨⟨[], []⟩, .skip, .lit 0⟩
  alloc_typed := rfl
  free_typed := rfl

/-- A path that is set twice, and one whose contents have to be escaped. -/
def twiceSet : List Seed.Entry :=
  [.preopen "/", .file "/b" "1", .file "/a" "\"\\\n", .preopen "/tmp", .file "/b" "2"]

/-- The second setting counts, it does not matter when the other file was set, and the module is given the payload. -/
theorem the_second_setting_counts :
    (∃ files, Seed.documentOf? (Seed.configured twiceSet).payload = some (Seed.documentFor ["/", "/tmp"] files) ∧
      ("/b", "2") ∈ files ∧ ("/b", "1") ∉ files) ∧
      (Seed.configured [.file "/a" "\"\\\n", .file "/b" "2", .preopen "/", .preopen "/tmp"]).payload =
        (Seed.configured twiceSet).payload ∧
      (Seed.configured [.preopen "/tmp", .preopen "/"]).payload ≠ (Seed.configured twiceSet).payload ∧
      ∃ answer m₁, Staged takingSeedsExports (Seed.configured twiceSet).payload
        (takingSeeds.handOver ⟨⟨[.i32, .i32], [.i32]⟩, .skip, .lit 0⟩)
        ((takingSeeds.blank {}).scratch true) answer m₁ := by
  obtain ⟨⟨files, -, hmem, hdocument, -⟩, hsame, hcourse⟩ := seed_tells_the_settings twiceSet
  obtain ⟨answer, m₁, -, -, hstaged, -⟩ := hcourse takingSeeds takingSeedsExports _ rfl (takingSeeds.blank {}) rfl
  refine ⟨⟨files, hdocument, (hmem _ _).2 rfl, fun h => ?_⟩, (hsame _).2 ⟨rfl, fun path => ?_⟩, fun h => ?_,
    answer, m₁, hstaged⟩
  · exact absurd ((hmem _ _).1 h) (by decide)
  · by_cases hb : "/b" = path
    · subst hb
      decide
    · simp only [twiceSet, Seed.contents?, if_neg hb, Option.none_or, Option.or_none]
  · exact absurd ((hsame _).1 h).1 (by decide)

/-- A payload that takes all the addresses there are lies in memory as a whole, and the module is told that it has no
bytes. What it finds by its arguments is no document. -/
theorem a_payload_of_all_addresses_is_not_told (entries : List Seed.Entry) {memory : Memory} {ptr len : UInt32}
    (h : Delimits memory ptr len (Seed.configured entries).payload) (hsize : memory.size ≤ UInt32.size)
    (hfull : ¬ (memory.size < UInt32.size ∨ (Seed.configured entries).payload.length < UInt32.size)) :
    memory.read 0 UInt32.size = (Seed.configured entries).payload ∧ ptr = 0 ∧ len = 0 ∧
      Seed.documentOf? (memory.read ptr.toNat len.toNat) = none := by
  obtain ⟨hlength, rfl, rfl⟩ := h.of_full hsize hfull
  have hbytes := h.bytes
  rw [hlength] at hbytes
  exact ⟨hbytes, rfl, rfl, rfl⟩

end GuestHost
