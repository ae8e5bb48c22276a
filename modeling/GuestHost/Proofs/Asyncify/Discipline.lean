/-
  GuestHost.Proofs.Asyncify.Discipline — hosts that touch the bridge through `Bridge.wrapImport` only.

  A passive action leaves the bridge and the guest's globals alone, and does not fail as if it were the
  bridge. A disciplined one is made of passive actions and of wrapped imports, nested as one likes; it
  may also look at how an import ended before it goes on with that.

  Proved:
  - `Disciplined.keeps`: a disciplined action keeps what wrapped imports keep, if that is a matter of the
    bridge and the globals.
  - `Practice.host_disciplined`; that sessions have disciplined hosts is in
    `GuestHost.Proofs.Session.Discipline`.
-/

import GuestHost.Asyncify.Practice
import GuestHost.Proofs.Program.Keeping

namespace GuestHost

open Exec

/-- A failure that is not the bridge's, but for saying that there is none. -/
def Failure.Outside (e : Failure) : Prop := ∀ b, e = .bridge b → b = .uninitialized

theorem Failure.Own.outside {e : Failure} (h : e.Own) : e.Outside := by
  cases h <;> exact nofun

section

variable {κ η α β : Type}

/-- The bridge and the globals are as given. -/
def Still (b : Bridge κ) (globals : List UInt32) (m : Machine (Hosted κ η)) : Prop :=
  m.outer.bridge = b ∧ m.globals = globals

/-- Leaves the bridge and the globals alone. -/
def Passive (x : Exec (Hosted κ η) α) : Prop :=
  ∀ b globals, Keeps (Still b globals) (fun e m => Still b globals m ∧ e.Outside) x

namespace Passive

theorem pure (a : α) : Passive (Pure.pure a : Exec (Hosted κ η) α) := fun _ _ => Keeps.pure a

theorem throw {e : Failure} (h : e.Outside) : Passive (throw e : Exec (Hosted κ η) α) := fun _ _ _ hm => ⟨hm, h⟩

theorem bind {x : Exec (Hosted κ η) α} {f : α → Exec (Hosted κ η) β} (hx : Passive x) (hf : ∀ a, Passive (f a)) :
    Passive (x >>= f) := fun b globals => Keeps.bind (hx b globals) fun a => hf a b globals

theorem ite {c : Prop} [Decidable c] {x y : Exec (Hosted κ η) α} (hx : Passive x) (hy : Passive y) :
    Passive (if c then x else y) := by
  split
  · exact hx
  · exact hy

theorem modify {f : Machine (Hosted κ η) → Machine (Hosted κ η)} (h : ∀ m, Still m.outer.bridge m.globals (f m)) :
    Passive (modify f) := fun _ _ m hm => ⟨(h m).1.trans hm.1, (h m).2.trans hm.2⟩

end Passive

inductive Disciplined (controls : Controls (Hosted κ η)) : {α : Type} → Exec (Hosted κ η) α → Prop
  | passive {α : Type} {x : Exec (Hosted κ η) α} : Passive x → Disciplined controls x
  | bind {α β : Type} {x : Exec (Hosted κ η) α} {f : α → Exec (Hosted κ η) β} :
      Disciplined controls x → (∀ a, Disciplined controls (f a)) → Disciplined controls (x >>= f)
  | wrapped {handler : Exec (Hosted κ η) (Reply κ)} :
      Disciplined controls handler → Disciplined controls (Bridge.wrapImport controls handler)
  /-- The host takes note of an outcome before it goes on with it. -/
  | observed {α : Type} {x : Exec (Hosted κ η) α}
      {note : Except Failure α → Machine (Hosted κ η) → Machine (Hosted κ η)} :
      Disciplined controls x → (∀ r m, Still m.outer.bridge m.globals (note r m)) →
        Disciplined controls (attempt x >>= fun r => modify (note r) >>= fun _ => settle r)

/-- A host that touches the bridge through wrapped imports only. -/
structure Host.Disciplined (host : Host κ η) : Prop where
  answer : ∀ controls target args, GuestHost.Disciplined controls (host.answer controls target args)
  complete : ∀ work, Passive (host.complete work)

/-- `I` and `E` are matters of the bridge and of the guest's globals; a failure of the outside is allowed
where `I` holds. -/
structure OnBridge (I : Machine (Hosted κ η) → Prop) (E : Failure → Machine (Hosted κ η) → Prop) : Prop where
  stays : ∀ {m m'}, Still m.outer.bridge m.globals m' → I m → I m'
  failed : ∀ {m m' e}, Still m.outer.bridge m.globals m' → E e m → E e m'
  fails : ∀ {m e}, Failure.Outside e → I m → E e m

variable {I : Machine (Hosted κ η) → Prop} {E : Failure → Machine (Hosted κ η) → Prop}

theorem OnBridge.passive (h : OnBridge I E) {x : Exec (Hosted κ η) α} (hx : Passive x) : Keeps I E x := by
  intro m hm
  have hs := hx _ _ m ⟨rfl, rfl⟩
  cases hr : x m with
  | ok a m' => rw [hr] at hs; exact h.stays hs hm
  | error e m' => rw [hr] at hs; exact h.fails hs.2 (h.stays hs.1 hm)

theorem Disciplined.keeps {controls : Controls (Hosted κ η)} (h : OnBridge I E)
    (hwrap : ∀ handler, Keeps I E handler → Keeps I E (Bridge.wrapImport controls handler))
    {x : Exec (Hosted κ η) α} (hx : Disciplined controls x) : Keeps I E x := by
  induction hx with
  | passive hp => exact h.passive hp
  | bind _ _ ihx ihf => exact Keeps.bind ihx ihf
  | wrapped _ ih => exact hwrap _ ih
  | observed _ hnote ih =>
    refine Ends.bind (Ends.attempt ih) ?_
    intro r
    cases r with
    | ok a => exact Ends.bind (Ends.modify fun m hm => h.stays (hnote (.ok a) m) hm) fun _ => Keeps.pure a
    | error e => exact fun m hm => h.failed (hnote (.error e) m) hm

end

/-! ## The host to practise on -/

namespace Practice

theorem passive_log (name : String) (w : UInt32) : Passive (log name w) := Passive.modify fun _ => ⟨rfl, rfl⟩

theorem disciplined_handler (controls : Controls (Hosted Chore Log)) (name : String) (x : UInt32) :
    Disciplined controls (handler controls name x) := by
  unfold handler
  split
  · exact .bind (.passive (passive_log _ _)) fun _ => .passive (.pure _)
  · exact .passive (.pure _)
  · exact .passive (.pure _)
  · exact .passive (.pure _)
  · exact .bind (.wrapped (.passive (.pure _))) fun _ =>
      .bind (.passive (passive_log _ _)) fun _ => .passive (.pure _)
  · exact .passive (.throw nofun)

theorem passive_complete (work : Chore) : Passive (complete work) := by
  cases work with
  | later x => exact .bind (passive_log _ _) fun _ => .pure _
  | resumeFail x => exact .bind (passive_log _ _) fun _ => .throw nofun
  | fail => exact .throw nofun

theorem host_disciplined : Practice.host.Disciplined where
  answer controls target args := by
    simp only [host]
    split
    · exact .bind (.wrapped (disciplined_handler _ _ _)) fun _ => .passive (.pure _)
    · exact .passive (.throw nofun)
  complete := passive_complete

end Practice

end GuestHost
