/-
  GuestHost.Proofs.Stream.Inputs — the same input, buffered and streaming.

  A buffered input drains its source before the guest runs and serves reads from what it drained. A streaming input
  asks the source again and again, and gives what one pull for each buffer brings. The two cut the bytes at different
  places: a streaming read may stay short of what is still to come. But both give the bytes of the source in order, and
  nothing only when there are no more (`Brings`).

      content of the source  =  bytes that were read ++ bytes that the input still has to give

  Proved:
  - `Source.drain_plain`, `Source.read_plain`: what a source gives that does not fail.
  - `StreamingInput.fill_plain`, `Exchange.perform_readv`: one read.
  - `Exchange.performAll_readv`: reads, one after the other.
  - `both_inputs_give_the_content`: reading until a read brings nothing gives what the source has, in both modes.
-/

import GuestHost.Proofs.Stream.Reading

namespace GuestHost

open Exec

/-! ## Sources that do not fail -/

/-- Neither a failure nor something that looks like the end of the stream. -/
def Delivery.Plain : Delivery → Prop
  | bytes bs => bs ≠ []
  | runs rs => rs.bytes ≠ []
  | wait => True
  | failure _ => False

namespace Source

/-- Any number of chunks and waits, and then the end of the stream. -/
def Plain (s : Source) : Prop := ∀ d ∈ s, d.Plain

def content : Source → List UInt8
  | [] => []
  | .bytes bs :: rest => bs ++ content rest
  | .runs rs :: rest => rs.bytes ++ content rest
  | .wait :: rest | .failure _ :: rest => content rest

theorem Plain.tail {d : Delivery} {s : Source} (h : Plain (d :: s)) : Plain s :=
  fun d' hd' => h d' (List.mem_cons_of_mem _ hd')

/-- Draining gives everything. -/
theorem drain_plain {s : Source} (h : s.Plain) : ∃ kept : Runs, s.drain = .ok kept [] ∧ kept.bytes = s.content := by
  induction s with
  | nil => exact ⟨[], rfl, rfl⟩
  | cons d s ih =>
    obtain ⟨more, hrest, hmore⟩ := ih h.tail
    cases d with
    | wait => exact ⟨more, hrest, hmore⟩
    | failure text => exact absurd (h _ List.mem_cons_self) id
    | bytes bs =>
      have hbs : bs ≠ [] := h _ List.mem_cons_self
      refine ⟨⟨bs, 1⟩ :: more, ?_, ?_⟩
      · rw [drain, hrest]
        exact hbs
      · rw [Runs.bytes, Run.bytes_one, hmore, content]
    | runs rs =>
      have hsize : rs.size ≠ 0 := by
        rw [← Runs.length_bytes, ne_eq, List.length_eq_zero_iff]
        exact h _ List.mem_cons_self
      refine ⟨rs ++ more, ?_, ?_⟩
      · rw [drain, if_neg hsize, hrest]
      · rw [Runs.bytes_append, hmore, content]

/-- A read gives a beginning of what is left, and nothing only at the end. -/
theorem read_plain {capacity : Nat} (hcap : 0 < capacity) {s : Source} (h : s.Plain) :
    ∃ chunk rest, s.read capacity = .ok chunk rest ∧ rest.Plain ∧ chunk ++ rest.content = s.content ∧
      (chunk = [] → s.content = []) := by
  induction s with
  | nil => exact ⟨[], [], rfl, h, rfl, fun _ => rfl⟩
  | cons d s ih =>
    cases d with
    | wait => exact ih h.tail
    | failure text => exact absurd (h _ List.mem_cons_self) id
    | bytes bs =>
      have hbs : bs ≠ [] := h _ List.mem_cons_self
      rw [read]
      by_cases hfits : bs.length ≤ capacity
      · rw [if_pos hfits]
        exact ⟨bs, s, rfl, h.tail, rfl, fun hnone => absurd hnone hbs⟩
      · rw [if_neg hfits]
        refine ⟨bs.take capacity, .bytes (bs.drop capacity) :: s, rfl, ?_, ?_, fun hnone => ?_⟩
        · intro d hd
          rcases List.mem_cons.1 hd with rfl | hd
          · show bs.drop capacity ≠ []
            rw [ne_eq, List.drop_eq_nil_iff]
            exact hfits
          · exact h.tail d hd
        · rw [content, content, ← List.append_assoc, List.take_append_drop]
        · rcases List.take_eq_nil_iff.1 hnone with hzero | hbs'
          · omega
          · exact absurd hbs' hbs
    | runs rs =>
      have hrs : rs.bytes ≠ [] := h _ List.mem_cons_self
      rw [read]
      by_cases hfits : rs.size ≤ capacity
      · rw [if_pos hfits]
        exact ⟨rs.bytes, s, rfl, h.tail, rfl, fun hnone => absurd hnone hrs⟩
      · rw [if_neg hfits]
        refine ⟨_, .runs (rs.dropBytes capacity) :: s, rfl, ?_, ?_, fun hnone => ?_⟩
        · intro d hd
          rcases List.mem_cons.1 hd with rfl | hd
          · show (rs.dropBytes capacity).bytes ≠ []
            rw [Runs.bytes_dropBytes, ne_eq, List.drop_eq_nil_iff, Runs.length_bytes]
            exact hfits
          · exact h.tail d hd
        · rw [content, content, Runs.bytes_takeBytes, Runs.bytes_dropBytes, ← List.append_assoc, List.take_append_drop]
        · rw [Runs.bytes_takeBytes] at hnone
          rcases List.take_eq_nil_iff.1 hnone with hzero | hrs'
          · omega
          · exact absurd hrs' hrs

end Source

/-! ## One read -/

namespace StreamingInput

/-- A plain source stands behind the input, and these are the bytes that it still has to give. -/
def Offers (bytes : List UInt8) (r : StreamingInput) : Prop :=
  ∃ rest, r.source = some rest ∧ rest.Plain ∧ r.leftover ++ rest.content = bytes

theorem fillOne_plain (len : UInt32) {bytes : List UInt8} {r : StreamingInput} (h : r.Offers bytes) :
    ∃ bs more r', fillOne len r = .ok bs r' ∧ bytes = bs ++ more ∧ r'.Offers more ∧
      (bs = [] → len.toNat ≠ 0 → more = []) := by
  obtain ⟨rest, hsource, hplain, rfl⟩ := h
  rw [fillOne, bind_of_ok (consume_apply ..)]
  by_cases henough : len.toNat ≤ r.leftover.length
  · have hfull : (r.leftover.take len.toNat).length = len.toNat := List.length_take_of_le henough
    rw [if_pos hfull]
    refine ⟨_, r.leftover.drop len.toNat ++ rest.content, _, rfl, ?_, ⟨rest, hsource, hplain, rfl⟩, ?_⟩
    · rw [← List.append_assoc, List.take_append_drop]
    · intro hbs hlen
      rw [hbs] at hfull
      exact absurd hfull.symm hlen
  · have hless : r.leftover.length < len.toNat := Nat.lt_of_not_le henough
    have htake : r.leftover.take len.toNat = r.leftover := List.take_of_length_le (Nat.le_of_lt hless)
    have hcap : 0 < chunkSize := by decide
    obtain ⟨chunk, rest', hread, hplain', hcontent, hend⟩ := Source.read_plain hcap hplain
    have hpull : pull { r with leftover := r.leftover.drop len.toNat } =
        .ok (!chunk.isEmpty) ⟨some rest', chunk, r.pulls.push chunk⟩ := by
      simp only [pull, hsource, hread]
    rw [htake, if_neg (Nat.ne_of_lt hless), bind_of_ok hpull]
    cases chunk with
    | nil =>
      refine ⟨r.leftover, [], _, rfl, ?_, ⟨rest', rfl, hplain', ?_⟩, fun _ _ => rfl⟩
      · rw [hend rfl]
      · rw [List.nil_append, ← hend rfl, ← hcontent]
        rfl
    | cons b chunk =>
      refine ⟨_, (b :: chunk).drop (len.toNat - r.leftover.length) ++ rest'.content, _, rfl, ?_,
        ⟨rest', rfl, hplain', rfl⟩, fun hbs hlen => ?_⟩
      · rw [List.append_assoc, ← List.append_assoc (List.take _ _), List.take_append_drop, hcontent]
      · obtain ⟨hleft, hchunk⟩ := List.append_eq_nil_iff.1 hbs
        rw [hleft, List.length_nil, Nat.sub_zero, List.take_eq_nil_iff] at hchunk
        exact absurd (hchunk.resolve_left hlen) (List.cons_ne_nil b chunk)

/-- A read gives a beginning of what is left, and nothing for something only if nothing is left. -/
theorem fill_plain (lens : List UInt32) {bytes : List UInt8} {r : StreamingInput} (h : r.Offers bytes) :
    ∃ bs more r', fill lens r = .ok bs r' ∧ bytes = bs ++ more ∧ r'.Offers more ∧
      (bs = [] → totalLength lens ≠ 0 → more = []) := by
  induction lens generalizing bytes r with
  | nil => exact ⟨[], bytes, r, rfl, rfl, h, fun _ hlens => absurd rfl hlens⟩
  | cons len lens ih =>
    obtain ⟨bs, more, r₁, hone, rfl, h₁, hend⟩ := fillOne_plain len h
    rw [fill_cons, bind_of_ok hone]
    by_cases hfull : bs.length = len.toNat
    · obtain ⟨bs', more', r', hrest, rfl, h', hend'⟩ := ih h₁
      rw [if_pos hfull, bind_of_ok hrest]
      refine ⟨bs ++ bs', more', r', rfl, (List.append_assoc ..).symm, h', fun hbs hlens => ?_⟩
      obtain ⟨rfl, hbs'⟩ := List.append_eq_nil_iff.1 hbs
      refine hend' hbs' ?_
      rwa [totalLength, ← hfull, List.length_nil, Nat.zero_add] at hlens
    · rw [if_neg hfull]
      refine ⟨bs, more, r₁, rfl, rfl, h₁, fun hbs _ => hend hbs fun hlen => hfull ?_⟩
      rw [hbs, hlen]
      rfl

end StreamingInput

namespace Descriptor

/-- An input, streaming or not, and the bytes that it still has to give. -/
inductive Offers (bytes : List UInt8) : Bool → Descriptor → Prop
  | buffered {r : BufferedInput} (h : r.remaining = bytes) : Offers bytes false (.bufferedInput r)
  | streaming {r : StreamingInput} (h : r.Offers bytes) : Offers bytes true (.streamingInput r)

/-- Before the guest runs, an input has to give all that its source has. -/
theorem offers_ofSource {s : Source} (h : s.Plain) (streaming : Bool) :
    ∃ d, preRun (ofSource (some s) streaming) = .ok () d ∧ Offers s.content streaming d := by
  cases streaming with
  | true => exact ⟨_, rfl, .streaming ⟨s, rfl, h, rfl⟩⟩
  | false =>
    obtain ⟨kept, hdrain, hkept⟩ := Source.drain_plain h
    refine ⟨.bufferedInput ⟨some [], kept, 0, Nat.zero_le _⟩, ?_, .buffered hkept⟩
    simp [preRun, ofSource, BufferedInput.drain, hdrain, within]

end Descriptor

namespace Exchange

theorem perform_readv (lens : List UInt32) {bytes : List UInt8} {streaming : Bool} {d : Descriptor}
    (h : d.Offers bytes streaming) (made : List (Option Held)) :
    ∃ bs more d', perform (.readv lens) ⟨d, made⟩ = .ok (.read (streaming && !lens.all (· == 0)) bs) ⟨d', made⟩ ∧
      bytes = bs ++ more ∧ d'.Offers more streaming ∧
      (streaming = false → bs.length = min (totalLength lens) bytes.length) ∧
      (bs = [] → totalLength lens ≠ 0 → more = []) := by
  cases h with
  | @buffered r h =>
    subst h
    let n := min (totalLength lens) r.remaining.length
    have hlen : (r.remaining.take n).length = n := List.length_take_of_le (Nat.min_le_right ..)
    refine ⟨r.remaining.take n, r.remaining.drop n, _, rfl, (List.take_append_drop ..).symm,
      .buffered (r.remaining_take lens), fun _ => hlen, fun hbs hlens => ?_⟩
    rw [hbs, List.length_nil] at hlen
    rw [List.drop_eq_nil_iff]
    omega
  | @streaming r h =>
    obtain ⟨bs, more, r', hfill, hbytes, h', hend⟩ := StreamingInput.fill_plain lens h
    refine ⟨bs, more, _, ?_, hbytes, .streaming h', Bool.noConfusion, hend⟩
    have hready : perform (.readv lens) ⟨.streamingInput r, made⟩ =
        finish (.ofLengths lens) ⟨.streamingInput r, made⟩ := by
      show (on (Descriptor.readv lens) >>= _) _ = _
      rw [bind_apply, on, readv_streamingInput, Held.ofLengths]
    rw [hready, finish_ofLengths, hfill]
    rfl

end Exchange

/-! ## Reads, one after the other -/

/-- What reads into buffers of the given lengths bring of the bytes that an input, streaming or not, has to give. -/
inductive Brings (streaming : Bool) : List UInt8 → List (List UInt32) → List (List UInt8) → Prop
  | nothing (bytes : List UInt8) : Brings streaming bytes [] []
  | read {lens : List UInt32} {bs more : List UInt8} {lenss : List (List UInt32)} {results : List (List UInt8)}
      (hfull : streaming = false → bs.length = min (totalLength lens) (bs ++ more).length)
      (hend : bs = [] → totalLength lens ≠ 0 → more = []) (h : Brings streaming more lenss results) :
      Brings streaming (bs ++ more) (lens :: lenss) (bs :: results)

namespace Brings

variable {streaming : Bool} {bytes : List UInt8} {lenss : List (List UInt32)} {results : List (List UInt8)}

theorem length_eq (h : Brings streaming bytes lenss results) : results.length = lenss.length := by
  induction h with
  | nothing bytes => rfl
  | read _ _ _ ih => rw [List.length_cons, List.length_cons, ih]

theorem flatten_prefix (h : Brings streaming bytes lenss results) : results.flatten <+: bytes := by
  induction h with
  | nothing bytes => exact List.nil_prefix
  | read _ _ _ ih =>
    rw [List.flatten_cons]
    exact (List.prefix_append_right_inj _).2 ih

/-- A buffered input gives as many as are asked for, while there are any. -/
theorem full (h : Brings false bytes lenss results) {i : Nat} {lens : List UInt32} {bs : List UInt8}
    (hlens : lenss[i]? = some lens) (hbs : results[i]? = some bs) :
    bs.length = min (totalLength lens) (bytes.length - (results.take i).flatten.length) := by
  induction h generalizing i with
  | nothing bytes => cases hlens
  | @read lens' bs' more lenss results hfull _ _ ih =>
    cases i with
    | zero =>
      cases hlens
      cases hbs
      exact hfull rfl
    | succ i =>
      rw [ih hlens hbs, List.take_succ_cons, List.flatten_cons, List.length_append, List.length_append]
      congr 1
      omega

/-- A read for something brings nothing only when everything was brought. -/
theorem all_of_blank (h : Brings streaming bytes lenss results) {i : Nat} {lens : List UInt32}
    (hlens : lenss[i]? = some lens) (hbs : results[i]? = some []) (hsome : totalLength lens ≠ 0) :
    (results.take i).flatten = bytes := by
  induction h generalizing i with
  | nothing bytes => cases hlens
  | @read lens' bs' more lenss results _ hend _ ih =>
    cases i with
    | zero =>
      cases hlens
      cases hbs
      rw [hend rfl hsome]
      rfl
    | succ i => rw [List.take_succ_cons, List.flatten_cons, ih hlens hbs]

/-- Whoever asks for something each time and stops when nothing comes has everything. -/
theorem until_blank (h : Brings streaming bytes lenss results) (hsome : ∀ lens ∈ lenss, totalLength lens ≠ 0)
    (hblank : [] ∈ results) : (results.takeWhile fun bs => !bs.isEmpty).flatten = bytes := by
  induction h with
  | nothing bytes => cases hblank
  | @read lens bs more lenss results _ hend _ ih =>
    cases bs with
    | nil =>
      rw [hend rfl (hsome lens List.mem_cons_self)]
      rfl
    | cons b bs =>
      rcases List.mem_cons.1 hblank with hblank | hblank
      · cases hblank
      · have hfirst : (!(b :: bs).isEmpty) = true := rfl
        have hrest := ih (fun lens h => hsome lens (List.mem_cons_of_mem _ h)) hblank
        rw [List.takeWhile_cons, if_pos hfirst, List.flatten_cons, hrest]

/-- And nothing comes in the end, since there are only so many bytes. -/
theorem blank_of_length_lt (h : Brings streaming bytes lenss results) (hmany : bytes.length < lenss.length) :
    [] ∈ results := by
  induction h with
  | nothing bytes => cases hmany
  | @read lens bs more lenss results _ _ _ ih =>
    cases bs with
    | nil => exact List.mem_cons_self
    | cons b bs =>
      refine List.mem_cons_of_mem _ (ih ?_)
      simp only [List.length_append, List.length_cons] at hmany
      omega

end Brings

namespace Exchange

theorem performAll_readv (lenss : List (List UInt32)) {bytes : List UInt8} {streaming : Bool} {d : Descriptor}
    (h : d.Offers bytes streaming) (made : List (Option Held)) :
    ∃ results, Brings streaming bytes lenss results ∧
      answers (lenss.map .readv) ⟨d, made⟩ =
        lenss.zipWith (fun lens bs => .ok (.read (streaming && !lens.all (· == 0)) bs)) results := by
  induction lenss generalizing bytes d with
  | nil => exact ⟨[], .nothing bytes, rfl⟩
  | cons lens lenss ih =>
    obtain ⟨bs, more, d', hread, rfl, hleft, hfull, hend⟩ := perform_readv lens h made
    obtain ⟨results, hbrings, hanswers⟩ := ih hleft
    refine ⟨bs :: results, .read hfull hend hbrings, ?_⟩
    rw [List.map_cons, answers_cons, turn_of_ok hread, hanswers]
    rfl

end Exchange

/-- A source delivers chunks of any sizes, with any waits, and then ends. After what is due before the guest runs, reads
of any lengths are made of it, each of them awaited before the next, through a buffered or a streaming input. None
fails. What they bring is a beginning of what the source has; a buffered read brings as much as it asks for or all that
is left; and a read for something brings nothing only when everything was brought. So whoever asks for something until
nothing comes has all that the source has, in both modes; and after as many reads as there are bytes nothing comes. -/
theorem both_inputs_give_the_content (s : Source) (hs : s.Plain) (streaming : Bool) (lenss : List (List UInt32)) :
    ∃ results : List (List UInt8),
      Exchange.answers (.preRun :: lenss.map .readv) { descriptor := .ofSource (some s) streaming } =
          .ok .done :: lenss.zipWith (fun lens bs => .ok (.read (streaming && !lens.all (· == 0)) bs)) results ∧
        results.length = lenss.length ∧
        results.flatten <+: s.content ∧
        (streaming = false → ∀ i lens bs, lenss[i]? = some lens → results[i]? = some bs →
          bs.length = min (totalLength lens) (s.content.length - (results.take i).flatten.length)) ∧
        (∀ i lens, lenss[i]? = some lens → results[i]? = some [] → totalLength lens ≠ 0 →
          (results.take i).flatten = s.content) ∧
        ((∀ lens ∈ lenss, totalLength lens ≠ 0) → [] ∈ results →
          (results.takeWhile fun bs => !bs.isEmpty).flatten = s.content) ∧
        (s.content.length < lenss.length → [] ∈ results) := by
  obtain ⟨d, hpre, hoffers⟩ := Descriptor.offers_ofSource hs streaming
  obtain ⟨results, hbrings, hanswers⟩ := Exchange.performAll_readv lenss hoffers []
  have hfirst : Exchange.perform .preRun { descriptor := .ofSource (some s) streaming } = .ok .done ⟨d, []⟩ := by
    show (Exchange.on Descriptor.preRun >>= _) _ = _
    rw [bind_apply, Exchange.on, hpre]
    rfl
  refine ⟨results, ?_, hbrings.length_eq, hbrings.flatten_prefix, ?_, ?_, hbrings.until_blank,
    hbrings.blank_of_length_lt⟩
  · rw [Exchange.answers_cons, Exchange.turn_of_ok hfirst, hanswers]
  · rintro rfl i lens bs hlens hbs
    exact hbrings.full hlens hbs
  · intro i lens hlens hbs hsome
    exact hbrings.all_of_blank hlens hbs hsome

/-- A source that waits between two chunks. -/
def pausingSource : Source := [.bytes [1, 2, 3], .wait, .bytes [4, 5]]

def sixReads : List (List UInt32) := List.replicate 6 [4]

/-- The streaming input stops at the end of each chunk. -/
theorem both_inputs_give_five_bytes :
    pausingSource.Plain ∧ (∀ lens ∈ sixReads, totalLength lens ≠ 0) ∧
      (∀ streaming, ∃ results : List (List UInt8),
        Exchange.answers (.preRun :: sixReads.map .readv) { descriptor := .ofSource (some pausingSource) streaming } =
            .ok .done :: sixReads.zipWith (fun lens bs => .ok (.read (streaming && !lens.all (· == 0)) bs)) results ∧
          (results.takeWhile fun bs => !bs.isEmpty).flatten = [1, 2, 3, 4, 5]) ∧
      Exchange.answers [.preRun, .readv [4], .readv [4], .readv [4]]
          { descriptor := .ofSource (some pausingSource) true } =
        [.ok .done, .ok (.read true [1, 2, 3]), .ok (.read true [4, 5]), .ok (.read true [])] ∧
      Exchange.answers [.preRun, .readv [4], .readv [4], .readv [4]]
          { descriptor := .ofSource (some pausingSource) false } =
        [.ok .done, .ok (.read false [1, 2, 3, 4]), .ok (.read false [5]), .ok (.read false [])] := by
  have hs : pausingSource.Plain := by simp [Source.Plain, pausingSource, Delivery.Plain]
  have hsome : ∀ lens ∈ sixReads, totalLength lens ≠ 0 := by decide
  refine ⟨hs, hsome, fun streaming => ?_, rfl, rfl⟩
  obtain ⟨results, hanswers, -, -, -, -, huntil, hblank⟩ :=
    both_inputs_give_the_content pausingSource hs streaming sixReads
  exact ⟨results, hanswers, huntil hsome (hblank (by decide))⟩

end GuestHost
