/-
  GuestHost.Proofs.Stream.Pulls — what a read of a streaming input asks of its source.

  A streaming input keeps the rest of its last chunk, and a pull replaces all of that rest. So nothing gets lost only
  because a read pulls when nothing is left over: it serves its buffers one after the other, each from the leftover
  and, if that is not enough, from one chunk more (`FillsOne`), and ends with the first buffer that stays short
  (`Fills`).

      leftover ++ chunks that were pulled  =  bytes that were read ++ new leftover

  The pulls of a read show in no result. `NotedInput.fill` does what the read does and notes them: for which buffer
  each was made, and what was left over then.

  Proved:
  - `NotedInput.forgets_fill`: noting the pulls changes nothing else.
  - `NotedInput.fill_eq_ok`: how a read that did not fail went.
  - `Fills.conserves`, `Fills.fedBy`: it returned and left over what it found and pulled, and the source gave that.
  - `Fills.thrifty`: it pulled no more than it had to.
-/

import GuestHost.Stream.Descriptor
import GuestHost.Proofs.Program.Actions

namespace GuestHost

open Exec

/-! ## What a source gives -/

/-- Read a chunk at a time, the source gives these chunks, and `rest` is still to come. -/
inductive Source.Gives : Source → List (List UInt8) → Source → Prop
  | nothing (s : Source) : Gives s [] s
  | read {s s₁ rest : Source} {chunk : List UInt8} {chunks : List (List UInt8)} (h : s.read chunkSize = .ok chunk s₁)
      (hrest : Gives s₁ chunks rest) : Gives s (chunk :: chunks) rest

theorem Source.Gives.snoc {s s₁ rest : Source} {chunk : List UInt8} {chunks : List (List UInt8)}
    (h : s.Gives chunks s₁) (hread : s₁.read chunkSize = .ok chunk rest) : s.Gives (chunks ++ [chunk]) rest := by
  induction h with
  | nothing s => exact .read hread (.nothing rest)
  | read hfirst _ ih => exact .read hfirst (ih hread)

namespace StreamingInput

/-- The input has pulled its chunks from `s`, and goes on with the rest of it unless it is closed. -/
def FedBy (s : Source) (closed : Bool) (r : StreamingInput) : Prop :=
  ∃ rest, s.Gives r.pulls.toList rest ∧ r.source = if closed then none else some rest

/-! ## One buffer after the other -/

/-- Fills one buffer, as far as the leftover and one pull go. -/
def fillOne (len : UInt32) : EStateM StreamError StreamingInput (List UInt8) := do
  let first ← consume len.toNat
  if first.length = len.toNat then return first
  else if ← pull then return first ++ (← consume (len.toNat - first.length))
  else return first

theorem consume_apply (n : Nat) (r : StreamingInput) :
    consume n r = .ok (r.leftover.take n) { r with leftover := r.leftover.drop n } := rfl

/-- Buffers are served in turn, up to one that stays short. -/
theorem fill_cons (len : UInt32) (lens : List UInt32) (r : StreamingInput) :
    fill (len :: lens) r = (do
      let bs ← fillOne len
      if bs.length = len.toNat then return bs ++ (← fill lens) else return bs) r := by
  rw [fill, fillOne, bind_assoc, bind_of_ok (consume_apply ..), bind_of_ok (consume_apply ..)]
  by_cases hfull : (r.leftover.take len.toNat).length = len.toNat
  · rw [if_pos hfull, if_pos hfull, pure_bind, if_pos hfull]
  · rw [if_neg hfull, if_neg hfull, bind_assoc]
    cases hpull : pull { r with leftover := r.leftover.drop len.toNat } with
    | error e r₁ => rw [bind_of_error hpull, bind_of_error hpull]
    | ok more r₁ =>
      rw [bind_of_ok hpull, bind_of_ok hpull]
      cases more with
      | false =>
        rw [if_neg Bool.false_ne_true, if_neg Bool.false_ne_true, pure_bind, if_neg hfull]
      | true =>
        rw [if_pos rfl, if_pos rfl, bind_assoc, bind_of_ok (consume_apply ..), bind_of_ok (consume_apply ..), pure_bind,
          List.length_append]

/-- A read into buffers that are all empty does nothing. -/
theorem fill_of_empty {lens : List UInt32} (h : lens.all (· == 0) = true) (r : StreamingInput) :
    fill lens r = .ok [] r := by
  induction lens with
  | nil => rfl
  | cons len lens ih =>
    rw [List.all_cons, Bool.and_eq_true] at h
    obtain rfl : len = 0 := by simpa using h.1
    have hfirst : fillOne 0 r = .ok [] r := rfl
    have hnone : ([] : List UInt8).length = (0 : UInt32).toNat := rfl
    rw [fill_cons, bind_of_ok hfirst, if_pos hnone, bind_of_ok (ih h.2)]
    rfl

theorem pull_eq_ok {r r' : StreamingInput} {more : Bool} (h : pull r = .ok more r') :
    ∃ source chunk rest, r.source = some source ∧ source.read chunkSize = .ok chunk rest ∧ more = !chunk.isEmpty ∧
      r' = ⟨some rest, chunk, r.pulls.push chunk⟩ := by
  unfold pull at h
  split at h
  · cases h
  · next source hsource =>
    split at h
    · next chunk rest hread =>
      cases h
      exact ⟨source, chunk, rest, hsource, hread, rfl, rfl⟩
    · cases h

end StreamingInput

/-! ## Notes of the pulls -/

/-- A pull: the place of the buffer that it was made for, what was left over at that moment, and what it brought. -/
structure Pull where
  buffer : Nat
  leftover : List UInt8
  chunk : List UInt8
  deriving DecidableEq, Repr

structure NotedInput where
  input : StreamingInput
  noted : List Pull := []

namespace NotedInput

def ofInput {α : Type} (act : EStateM StreamError StreamingInput α) : EStateM StreamError NotedInput α := fun t =>
  match act t.input with
  | .ok a r => .ok a { t with input := r }
  | .error e r => .error e { t with input := r }

/-- A pull for the buffer at a place, with a note of it. -/
def pull (buffer : Nat) : EStateM StreamError NotedInput Bool := fun t =>
  match StreamingInput.pull t.input with
  | .ok more r => .ok more ⟨r, t.noted ++ [⟨buffer, t.input.leftover, r.leftover⟩]⟩
  | .error e r => .error e { t with input := r }

def fillOne (buffer : Nat) (len : UInt32) : EStateM StreamError NotedInput (List UInt8) := do
  let first ← ofInput (StreamingInput.consume len.toNat)
  if first.length = len.toNat then return first
  else if ← pull buffer then return first ++ (← ofInput (StreamingInput.consume (len.toNat - first.length)))
  else return first

/-- Fills buffers in order, of which the first is at the given place. -/
def fill : Nat → List UInt32 → EStateM StreamError NotedInput (List UInt8)
  | _, [] => pure []
  | buffer, len :: lens => do
    let bs ← fillOne buffer len
    if bs.length = len.toNat then return bs ++ (← fill (buffer + 1) lens) else return bs

theorem forgets_ofInput {α : Type} (act : EStateM StreamError StreamingInput α) :
    Forgets input (ofInput act) act := by
  intro t
  unfold ofInput
  cases h : act t.input <;> rfl

theorem forgets_pull (buffer : Nat) : Forgets input (pull buffer) StreamingInput.pull := by
  intro t
  unfold pull
  cases h : StreamingInput.pull t.input <;> rfl

theorem forgets_fillOne (buffer : Nat) (len : UInt32) :
    Forgets input (fillOne buffer len) (StreamingInput.fillOne len) := by
  refine (forgets_ofInput _).bind fun first => .ite (.pure _) ?_
  refine (forgets_pull buffer).bind fun more => .ite ?_ (.pure _)
  exact (forgets_ofInput _).bind fun second => .pure _

/-- Noting the pulls changes nothing else. -/
theorem forgets_fill (buffer : Nat) (lens : List UInt32) :
    Forgets input (fill buffer lens) (StreamingInput.fill lens) := by
  induction lens generalizing buffer with
  | nil => exact .pure []
  | cons len lens ih =>
    intro t
    rw [StreamingInput.fill_cons]
    refine Forgets.bind (forgets_fillOne buffer len) (fun bs => .ite ?_ (.pure _)) t
    exact (ih (buffer + 1)).bind fun more => .pure _

end NotedInput

/-! ## How a read goes -/

/-- How the buffer at place `k` was served: from the leftover alone if that was enough, else with one pull. -/
inductive FillsOne (k : Nat) (len : UInt32) (r : StreamingInput) : List Pull → List UInt8 → StreamingInput → Prop
  | enough (h : len.toNat ≤ r.leftover.length) :
      FillsOne k len r [] (r.leftover.take len.toNat) { r with leftover := r.leftover.drop len.toNat }
  | pulled {source rest : Source} {chunk : List UInt8} (h : r.leftover.length < len.toNat)
      (hsource : r.source = some source) (hread : source.read chunkSize = .ok chunk rest) :
      FillsOne k len r [⟨k, [], chunk⟩] (r.leftover ++ chunk.take (len.toNat - r.leftover.length))
        ⟨some rest, chunk.drop (len.toNat - r.leftover.length), r.pulls.push chunk⟩

/-- How buffers were filled, of which the first is at place `k`: each was served, up to one that stayed short. -/
inductive Fills : Nat → List UInt32 → StreamingInput → List Pull → List UInt8 → StreamingInput → Prop
  | nothing (k : Nat) (r : StreamingInput) : Fills k [] r [] [] r
  | short {k : Nat} {len : UInt32} {lens : List UInt32} {r r' : StreamingInput} {pulls : List Pull} {bs : List UInt8}
      (h : FillsOne k len r pulls bs r') (hshort : bs.length ≠ len.toNat) : Fills k (len :: lens) r pulls bs r'
  | full {k : Nat} {len : UInt32} {lens : List UInt32} {r r₁ r' : StreamingInput} {pulls more : List Pull}
      {bs rest : List UInt8} (h : FillsOne k len r pulls bs r₁) (hfull : bs.length = len.toNat)
      (hrest : Fills (k + 1) lens r₁ more rest r') : Fills k (len :: lens) r (pulls ++ more) (bs ++ rest) r'

namespace NotedInput

theorem fillOne_eq_ok {k : Nat} {len : UInt32} {t t' : NotedInput} {bs : List UInt8}
    (h : fillOne k len t = .ok bs t') :
    ∃ pulls, t'.noted = t.noted ++ pulls ∧ FillsOne k len t.input pulls bs t'.input := by
  obtain ⟨r, noted⟩ := t
  have htaken : ofInput (StreamingInput.consume len.toNat) ⟨r, noted⟩ =
    .ok (r.leftover.take len.toNat) ⟨{ r with leftover := r.leftover.drop len.toNat }, noted⟩ := rfl
  rw [fillOne, bind_of_ok htaken] at h
  by_cases henough : len.toNat ≤ r.leftover.length
  · rw [if_pos (List.length_take_of_le henough)] at h
    cases h
    exact ⟨[], (List.append_nil _).symm, .enough henough⟩
  · have hless : r.leftover.length < len.toNat := Nat.lt_of_not_le henough
    have htake : r.leftover.take len.toNat = r.leftover := List.take_of_length_le (Nat.le_of_lt hless)
    have hdrop : r.leftover.drop len.toNat = [] := List.drop_of_length_le (Nat.le_of_lt hless)
    rw [htake, hdrop, if_neg (Nat.ne_of_lt hless)] at h
    obtain ⟨more, t₁, hpull, h⟩ := bind_eq_ok h
    unfold pull at hpull
    split at hpull <;> cases hpull
    next r₁ hr =>
    obtain ⟨source, chunk, rest, hsource, hread, rfl, rfl⟩ := StreamingInput.pull_eq_ok hr
    have hone := FillsOne.pulled (k := k) hless hsource hread
    cases chunk with
    | nil =>
      cases h
      rw [List.take_nil, List.append_nil, List.drop_nil] at hone
      exact ⟨_, rfl, hone⟩
    | cons b chunk =>
      cases h
      exact ⟨_, rfl, hone⟩

/-- A read that did not fail filled its buffers, with the pulls that it noted. -/
theorem fill_eq_ok {k : Nat} {lens : List UInt32} {t t' : NotedInput} {bs : List UInt8}
    (h : fill k lens t = .ok bs t') :
    ∃ pulls, t'.noted = t.noted ++ pulls ∧ Fills k lens t.input pulls bs t'.input := by
  induction lens generalizing k t bs with
  | nil =>
    cases h
    exact ⟨[], (List.append_nil _).symm, .nothing ..⟩
  | cons len lens ih =>
    obtain ⟨first, t₁, hfirst, h⟩ := bind_eq_ok h
    obtain ⟨pulls, hnoted, hone⟩ := fillOne_eq_ok hfirst
    by_cases hfull : first.length = len.toNat
    · rw [if_pos hfull] at h
      obtain ⟨rest, t₂, hfill, h⟩ := bind_eq_ok h
      cases h
      obtain ⟨more, hmore, hrest⟩ := ih hfill
      refine ⟨pulls ++ more, ?_, .full hone hfull hrest⟩
      rw [hmore, hnoted, List.append_assoc]
    · rw [if_neg hfull] at h
      cases h
      exact ⟨pulls, hnoted, .short hone hfull⟩

end NotedInput

/-- A read that did not fail made some pulls. -/
theorem StreamingInput.noted_of_fill {lens : List UInt32} {r r' : StreamingInput} {bs : List UInt8}
    (h : fill lens r = .ok bs r') :
    ∃ pulls, NotedInput.fill 0 lens ⟨r, []⟩ = .ok bs ⟨r', pulls⟩ ∧ Fills 0 lens r pulls bs r' := by
  have hforget := NotedInput.forgets_fill 0 lens ⟨r, []⟩
  rw [h] at hforget
  cases hnoted : NotedInput.fill 0 lens ⟨r, []⟩ with
  | error e t =>
    rw [hnoted] at hforget
    cases hforget
  | ok bs' t =>
    rw [hnoted] at hforget
    cases hforget
    obtain ⟨pulls, hpulls, hfills⟩ := NotedInput.fill_eq_ok hnoted
    obtain ⟨r', noted⟩ := t
    obtain rfl : noted = pulls := hpulls
    exact ⟨noted, rfl, hfills⟩

namespace FillsOne

variable {k : Nat} {len : UInt32} {r r' : StreamingInput} {pulls : List Pull} {bs : List UInt8}

theorem length_le (h : FillsOne k len r pulls bs r') : bs.length ≤ len.toNat := by
  cases h with
  | enough h => exact List.length_take_le ..
  | pulled h =>
    rw [List.length_append, List.length_take]
    omega

theorem conserves (h : FillsOne k len r pulls bs r') :
    bs ++ r'.leftover = r.leftover ++ (pulls.map Pull.chunk).flatten := by
  cases h with
  | enough h => simp
  | pulled h => simp

theorem pulls_eq (h : FillsOne k len r pulls bs r') : r'.pulls.toList = r.pulls.toList ++ pulls.map Pull.chunk := by
  cases h with
  | enough h => simp
  | pulled h => simp

/-- No pull is made for an empty buffer. -/
theorem noted (h : FillsOne k len r pulls bs r') : pulls = [] ∨ ∃ chunk, pulls = [⟨k, [], chunk⟩] ∧ len ≠ 0 := by
  cases h with
  | enough h => exact .inl rfl
  | pulled h =>
    refine .inr ⟨_, rfl, ?_⟩
    rintro rfl
    exact absurd h (Nat.not_lt_zero _)

/-- Where nothing is given for something, a pull brought nothing. -/
theorem chunk_of_blank (h : FillsOne k len r pulls bs r') (hbs : bs = []) (hlen : len.toNat ≠ 0) :
    ∃ p ∈ pulls, p.chunk = [] := by
  cases h with
  | enough h =>
    rw [List.take_eq_nil_iff] at hbs
    rcases hbs with hbs | hbs
    · exact absurd hbs hlen
    · rw [hbs] at h
      exact absurd (Nat.le_zero.1 h) hlen
  | pulled h =>
    obtain ⟨hleft, hchunk⟩ := List.append_eq_nil_iff.1 hbs
    rw [hleft, List.length_nil, Nat.sub_zero, List.take_eq_nil_iff] at hchunk
    exact ⟨_, List.mem_singleton_self _, hchunk.resolve_left hlen⟩

end FillsOne

theorem FillsOne.fedBy {k : Nat} {len : UInt32} {r r' : StreamingInput} {pulls : List Pull} {bs : List UInt8}
    (h : FillsOne k len r pulls bs r') {s : Source} {closed : Bool} (hr : r.FedBy s closed) : r'.FedBy s closed := by
  cases h with
  | enough h => exact hr
  | @pulled source rest chunk h hsource hread =>
    obtain ⟨rest₀, hgives, hrest⟩ := hr
    rw [hsource] at hrest
    cases closed with
    | true => cases hrest
    | false =>
      cases hrest
      refine ⟨rest, ?_, rfl⟩
      rw [Array.toList_push]
      exact hgives.snoc hread

/-- A read into buffers of these lengths, which gave these bytes, pulled no more than it had to. -/
structure Thrifty (lens : List UInt32) (bs : List UInt8) (pulls : List Pull) : Prop where
  /-- It gave no more than the buffers hold. -/
  bounded : bs.length ≤ totalLength lens
  /-- It pulled at most once for each buffer, in their order, -/
  once : pulls.Pairwise fun p p' => p.buffer < p'.buffer
  /-- and for none that is empty. -/
  wanted : ∀ p ∈ pulls, ∃ len, lens[p.buffer]? = some len ∧ len ≠ 0
  /-- When it pulled, nothing was left over, -/
  dry : ∀ p ∈ pulls, p.leftover = []
  /-- and the buffers before were full: after one that stayed short it did not pull. -/
  inTurn : ∀ p ∈ pulls, totalLength (lens.take p.buffer) ≤ bs.length
  /-- It gave nothing for something only because a pull brought nothing. -/
  blank : bs = [] → totalLength lens ≠ 0 → ∃ p ∈ pulls, p.chunk = []

namespace Fills

variable {k : Nat} {lens : List UInt32} {r r' : StreamingInput} {pulls : List Pull} {bs : List UInt8}

theorem conserves (h : Fills k lens r pulls bs r') :
    bs ++ r'.leftover = r.leftover ++ (pulls.map Pull.chunk).flatten := by
  induction h with
  | nothing k r => simp
  | short h => exact h.conserves
  | @full k len lens r r₁ r' pulls more bs rest h hfull hrest ih =>
    calc bs ++ rest ++ r'.leftover
      _ = (bs ++ r₁.leftover) ++ (more.map Pull.chunk).flatten := by rw [List.append_assoc, ih, List.append_assoc]
      _ = r.leftover ++ ((pulls ++ more).map Pull.chunk).flatten := by simp [h.conserves]

theorem pulls_eq (h : Fills k lens r pulls bs r') : r'.pulls.toList = r.pulls.toList ++ pulls.map Pull.chunk := by
  induction h with
  | nothing k r => simp
  | short h => exact h.pulls_eq
  | full h hfull hrest ih => rw [ih, h.pulls_eq, List.map_append, List.append_assoc]

theorem fedBy (h : Fills k lens r pulls bs r') {s : Source} {closed : Bool} (hr : r.FedBy s closed) :
    r'.FedBy s closed := by
  induction h with
  | nothing k r => exact hr
  | short h => exact h.fedBy hr
  | full h hfull hrest ih => exact ih (h.fedBy hr)

theorem length_le (h : Fills k lens r pulls bs r') : bs.length ≤ totalLength lens := by
  induction h with
  | nothing k r => exact Nat.le_refl 0
  | short h => exact Nat.le_trans h.length_le (Nat.le_add_right ..)
  | full h hfull hrest ih =>
    rw [List.length_append, totalLength]
    omega

/-- Every pull is made for one of the buffers, when those before it are full. -/
theorem mem_pulls (h : Fills k lens r pulls bs r') {p : Pull} (hp : p ∈ pulls) :
    ∃ i len, p.buffer = k + i ∧ lens[i]? = some len ∧ len ≠ 0 ∧ p.leftover = [] ∧
      totalLength (lens.take i) ≤ bs.length := by
  induction h with
  | nothing k r => cases hp
  | @short k len lens r r' pulls bs h =>
    rcases h.noted with rfl | ⟨chunk, rfl, hlen⟩
    · cases hp
    · obtain rfl := List.mem_singleton.1 hp
      exact ⟨0, len, rfl, rfl, hlen, rfl, Nat.zero_le _⟩
  | @full k len lens r r₁ r' pulls more bs rest h hfull hrest ih =>
    rcases List.mem_append.1 hp with hp | hp
    · rcases h.noted with rfl | ⟨chunk, rfl, hlen⟩
      · cases hp
      · obtain rfl := List.mem_singleton.1 hp
        exact ⟨0, len, rfl, rfl, hlen, rfl, Nat.zero_le _⟩
    · obtain ⟨i, len', hbuffer, hget, hlen, hleft, hturn⟩ := ih hp
      refine ⟨i + 1, len', ?_, hget, hlen, hleft, ?_⟩
      · omega
      · rw [List.take_succ_cons, totalLength, List.length_append]
        omega

theorem pairwise (h : Fills k lens r pulls bs r') : pulls.Pairwise fun p p' => p.buffer < p'.buffer := by
  induction h with
  | nothing k r => exact .nil
  | short h =>
    rcases h.noted with rfl | ⟨chunk, rfl, -⟩
    · exact .nil
    · exact List.pairwise_singleton ..
  | @full k len lens r r₁ r' pulls more bs rest h hfull hrest ih =>
    rcases h.noted with rfl | ⟨chunk, rfl, -⟩
    · exact ih
    · refine List.pairwise_cons.2 ⟨fun p hp => ?_, ih⟩
      obtain ⟨i, -, hbuffer, -⟩ := hrest.mem_pulls hp
      show k < p.buffer
      omega

theorem blank (h : Fills k lens r pulls bs r') (hbs : bs = []) (hlens : totalLength lens ≠ 0) :
    ∃ p ∈ pulls, p.chunk = [] := by
  induction h with
  | nothing k r => exact absurd rfl hlens
  | @short k len lens r r' pulls bs h hshort =>
    refine h.chunk_of_blank hbs fun hlen => hshort ?_
    rw [hbs, hlen]
    rfl
  | @full k len lens r r₁ r' pulls more bs rest h hfull hrest ih =>
    obtain ⟨rfl, rfl⟩ := List.append_eq_nil_iff.1 hbs
    have hlen : len.toNat = 0 := hfull.symm
    rw [totalLength, hlen, Nat.zero_add] at hlens
    obtain ⟨p, hp, hchunk⟩ := ih rfl hlens
    exact ⟨p, List.mem_append_right _ hp, hchunk⟩

theorem thrifty (h : Fills 0 lens r pulls bs r') : Thrifty lens bs pulls where
  bounded := h.length_le
  once := h.pairwise
  wanted p hp := by
    obtain ⟨i, len, hbuffer, hget, hlen, -⟩ := h.mem_pulls hp
    rw [hbuffer, Nat.zero_add]
    exact ⟨len, hget, hlen⟩
  dry p hp := by
    obtain ⟨-, -, -, -, -, hleft, -⟩ := h.mem_pulls hp
    exact hleft
  inTurn p hp := by
    obtain ⟨i, -, hbuffer, -, -, -, hturn⟩ := h.mem_pulls hp
    rwa [hbuffer, Nat.zero_add]
  blank := h.blank

end Fills

end GuestHost
