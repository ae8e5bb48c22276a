/-
  GuestHost.Proofs.Stream.Twins — the same output, buffered and streaming.

  A buffered output keeps what is written to it until the end of the run; a streaming output hands it to its
  sink while the guest is suspended. They are twins as long as the one keeps what the sink of the other has
  taken. Where the sink never fails, a write that is made and finished on the streaming side is one write on
  the buffered side, with the same count, and at the end of the run both sinks have taken the same bytes and
  were shut down once, after the last of them.

  Proved:
  - `count_chunks`, `count_eq_countOf`: all ways of counting the bytes of views come to the same.
  - `Descriptor.Twin.readv`, `Descriptor.Twin.writev`: transfers on twins.
  - `Descriptor.Twin.cleanUp`: what cleaning up makes of twins.
-/

import GuestHost.Proofs.Stream.Faultless

namespace GuestHost

open Exec

/-! ## Counting -/

theorem addCount_zero (total : UInt32) : addCount total 0 = total := by
  have := total.toNat_lt
  unfold addCount
  rw [show min (total.toNat + 0) (UInt32.size - 1) = total.toNat by simp only [UInt32.size]; omega]
  exact UInt32.ofNat_toNat

/-- The bytes of the views that have any are counted as the views are. -/
theorem count_chunks (views : List View) (total : UInt32) :
    ((views.filter fun v => v.size != 0).map View.toList).foldl (fun total c => addCount total c.length) total =
      views.foldl (fun total v => addCount total v.size) total := by
  induction views generalizing total with
  | nil => rfl
  | cons v views ih =>
    by_cases hv : v.size = 0
    · simpa [hv, addCount_zero] using ih total
    · simpa [hv] using ih (addCount total v.size)

def View.totalSize : List View → Nat
  | [] => 0
  | v :: views => v.size + totalSize views

/-- How many bytes the views have together, or the largest word if they have more. -/
def countOf (views : List View) : UInt32 := UInt32.ofNat (min (View.totalSize views) (UInt32.size - 1))

theorem toNat_addCount (total : UInt32) (n : Nat) :
    (addCount total n).toNat = min (total.toNat + n) (UInt32.size - 1) := by
  have hlt : min (total.toNat + n) (UInt32.size - 1) < UInt32.size := by simp only [UInt32.size]; omega
  exact UInt32.toNat_ofNat_of_lt hlt

/-- It makes no difference whether a count stops at the largest word at once or in the end. -/
theorem addCount_addCount (total : UInt32) (m n : Nat) : addCount (addCount total m) n = addCount total (m + n) := by
  rw [addCount, toNat_addCount, addCount]
  congr 1
  omega

theorem count_views (views : List View) (total : UInt32) :
    views.foldl (fun total v => addCount total v.size) total = addCount total (View.totalSize views) := by
  induction views generalizing total with
  | nil => exact (addCount_zero total).symm
  | cons v views ih => rw [List.foldl_cons, ih, addCount_addCount, View.totalSize]

/-- Counted one after the other, views come to what they have together. -/
theorem count_eq_countOf (views : List View) :
    views.foldl (fun total v => addCount total v.size) 0 = countOf views := by
  rw [count_views, addCount, countOf, UInt32.toNat_zero, Nat.zero_add]

/-! ## Twins -/

namespace Descriptor

/-- The same output, buffered and streaming, before it is closed; or nothing on both sides. -/
inductive Twin : Descriptor → Descriptor → Prop
  | null : Twin .null .null
  | output {p : SinkPlan} {sink : Sink} (hp : p.Faultless) (hsink : sink.Working p) :
      Twin (.bufferedOutput ⟨⟨p, 0, #[]⟩, sink.taken, false⟩) (.streamingOutput ⟨sink, false⟩)

theorem twin_ofSink {plan : Option SinkPlan} (h : ∀ p, plan = some p → p.Faultless) :
    Twin (ofSink plan false) (ofSink plan true) := by
  cases plan with
  | none => exact .null
  | some p => exact @Twin.output p ⟨p, 0, #[]⟩ (h p rfl) ⟨rfl, by simp⟩

namespace Twin

variable {d₁ d₂ : Descriptor}

theorem readv (h : Twin d₁ d₂) (lens : List UInt32) :
    (Descriptor.readv lens d₁ = .ok (.ready []) d₁ ∧ Descriptor.readv lens d₂ = .ok (.ready []) d₂) ∨
      ∃ e, Descriptor.readv lens d₁ = .error e d₁ ∧ Descriptor.readv lens d₂ = .error e d₂ := by
  cases h with
  | null => exact .inl ⟨rfl, rfl⟩
  | output => exact .inr ⟨_, rfl, rfl⟩

/-- A write that is made at once leaves twins. One that is pending is made at once on the buffered side, and
comes to the same when it is finished. -/
theorem writev (h : Twin d₁ d₂) (views : List View) :
    (∃ n d₁', Descriptor.writev views d₁ = .ok (.ready n) d₁' ∧ Descriptor.writev views d₂ = .ok (.ready n) d₂ ∧
        Twin d₁' d₂) ∨
      ∃ n d₁' chunks d₂', (∃ w, d₁ = .bufferedOutput w) ∧ (∃ v ∈ views, v.size ≠ 0) ∧
        Descriptor.writev views d₁ = .ok (.ready n) d₁' ∧ Descriptor.writev views d₂ = .ok (.pending chunks) d₂ ∧
        Descriptor.finishWrite chunks d₂ = .ok n d₂' ∧ Twin d₁' d₂' := by
  cases h with
  | null => exact .inl ⟨_, _, rfl, rfl, .null⟩
  | @output p sink hp hsink =>
    have hbytes := flatten_chunks views
    have hcount := count_chunks views 0
    cases hchunks : (views.filter fun v => v.size != 0).map View.toList with
    | nil =>
      rw [hchunks] at hbytes hcount
      refine .inl ⟨0, _, ?_, by simp only [Descriptor.writev, hchunks], .output hp hsink⟩
      simp only [Descriptor.writev, BufferedOutput.append, ← hcount, ← hbytes, List.flatten_nil, List.append_nil]
      rfl
    | cons c rest =>
      rw [hchunks] at hbytes hcount
      obtain ⟨sink', hput, hsink', htaken⟩ := StreamingOutput.put_ok hp hsink (c :: rest)
      have hsome : ∃ v ∈ views, v.size ≠ 0 := by
        obtain ⟨v, hv, -⟩ := List.mem_map.1 (hchunks ▸ List.mem_cons_self : c ∈ _)
        obtain ⟨hmem, hsize⟩ := List.mem_filter.1 hv
        exact ⟨v, hmem, by simpa using hsize⟩
      rw [hcount] at hput
      refine .inr ⟨views.foldl (fun total v => addCount total v.size) 0, _, c :: rest, _, ⟨_, rfl⟩, hsome, ?_,
        by simp only [Descriptor.writev, hchunks], by simp only [finishWrite, hput, within], .output hp hsink'⟩
      simp only [Descriptor.writev, BufferedOutput.append, ← hbytes, htaken]

/-- Nothing is due on a twin before the guest runs. -/
theorem preRun (h : Twin d₁ d₂) : Descriptor.preRun d₁ = .ok () d₁ ∧ Descriptor.preRun d₂ = .ok () d₂ := by
  cases h <;> exact ⟨rfl, rfl⟩

end Twin

/-- A sink stands behind both descriptors or behind neither. Both sinks have taken the same bytes, and were shut
down once, after the last of them. -/
structure Delivered (d₁ d₂ : Descriptor) : Prop where
  present : d₂.sink?.isSome = d₁.sink?.isSome
  taken : SinkEvent.taken d₂.events = SinkEvent.taken d₁.events
  shutDown : d₁.sink?.isSome → ShutDownLast d₁.events ∧ ShutDownLast d₂.events

/-- Twins clean up without a failure, and have then delivered the same. -/
theorem Twin.cleanUp {d₁ d₂ : Descriptor} (h : Twin d₁ d₂) :
    d₁.CleansUp ∧ d₂.CleansUp ∧ Delivered d₁.cleaned d₂.cleaned := by
  cases h with
  | null => exact ⟨⟨rfl, rfl⟩, ⟨rfl, rfl⟩, rfl, rfl, nofun⟩
  | @output p sink hp hsink =>
    obtain ⟨hclean₁, s₁, hcleaned₁, htaken₁, hlast₁⟩ := cleaned_bufferedOutput hp sink.taken
    obtain ⟨hclean₂, s₂, hcleaned₂, htaken₂, hlast₂⟩ := cleaned_streamingOutput hp hsink
    rw [hcleaned₁, hcleaned₂]
    exact ⟨hclean₁, hclean₂, rfl, htaken₂.trans htaken₁.symm, fun _ => ⟨hlast₁, hlast₂⟩⟩

end Descriptor

end GuestHost
