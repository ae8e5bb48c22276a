/-
  GuestHost.Proofs.Stream.Agreement — outputs that are written to, closed and delivered.

  A descriptor without a stream only counts what is written to it. A buffered output keeps the bytes and delivers them
  in one piece when the guest has run. A streaming output hands them to its sink at once. They count in different ways,
  and a sink sees different writes of a buffered and of a streaming output. But as long as it does not fail, all of
  them answer the same, and both sinks have taken the same bytes and were shut down once (`Descriptor.Took`).

  After that nothing happens any more: a streaming output that is closed stays closed, and a buffered output that was
  delivered is not delivered again (`Descriptor.Settled`).

  Proved:
  - `Exchange.perform_writev`, `Exchange.performAll_writev`: one write, and writes in turn.
  - `Exchange.performAll_cleanUp`: closing and delivering.
  - `Exchange.performAll_settled`: closing and delivering again.
  - `outputs_agree`: all of it.
-/

import GuestHost.Proofs.Stream.Writing

namespace GuestHost

open Exec

/-- Views without bytes count nothing, and bring nothing. -/
theorem countOf_of_empty {views : List View} (h : haveBytes views = false) :
    countOf views = 0 ∧ views.flatMap View.toList = [] := by
  have hnone : views.filter (fun v => v.size != 0) = [] := by
    rw [List.filter_eq_nil_iff, ← List.any_eq_false]
    exact h
  have hcount := count_chunks views 0
  have hbytes := flatten_chunks views
  rw [hnone] at hcount hbytes
  exact ⟨((count_eq_countOf views).symm.trans hcount.symm), hbytes.symm⟩

namespace Descriptor

/-- An output, streaming or not, that bytes were written to: it keeps them, or its sink has taken them. Without a
stream they are gone. -/
inductive Took (offered : List UInt8) : Bool → Option SinkPlan → Descriptor → Prop
  | null (streaming : Bool) : Took offered streaming none .null
  | bufferedOutput (p : SinkPlan) : Took offered false (some p) (.bufferedOutput ⟨⟨p, 0, #[]⟩, offered, false⟩)
  | streamingOutput {p : SinkPlan} {sink : Sink} (hsink : sink.Working p) (htaken : sink.taken = offered) :
      Took offered true (some p) (.streamingOutput ⟨sink, false⟩)

theorem took_ofSink (plan : Option SinkPlan) (streaming : Bool) : Took [] streaming plan (ofSink plan streaming) := by
  cases plan with
  | none => exact .null streaming
  | some p =>
    cases streaming with
    | false => exact .bufferedOutput p
    | true => exact .streamingOutput ⟨rfl, List.not_mem_nil⟩ rfl

inductive Settled : Descriptor → Prop
  | null : Settled .null
  | bufferedOutput (sink : Sink) (bs : List UInt8) : Settled (.bufferedOutput ⟨sink, bs, true⟩)
  | streamingOutput (sink : Sink) : Settled (.streamingOutput ⟨sink, true⟩)

/-- Closing and delivering leaves an output settled. Its sink has then taken what was written, and was shut down once,
after the last of it. -/
theorem Took.cleanUp {offered : List UInt8} {streaming : Bool} {plan : Option SinkPlan} {d : Descriptor}
    (hp : ∀ p, plan = some p → p.Faultless) (h : Took offered streaming plan d) :
    d.CleansUp ∧ Settled d.cleaned ∧
      (plan.isSome = true → SinkEvent.taken d.cleaned.events = offered ∧ ShutDownLast d.cleaned.events) := by
  cases h with
  | null => exact ⟨⟨rfl, rfl⟩, .null, nofun⟩
  | bufferedOutput p =>
    obtain ⟨hcleans, s, hcleaned, htaken, hlast⟩ := cleaned_bufferedOutput (hp p rfl) offered
    rw [hcleaned]
    exact ⟨hcleans, .bufferedOutput s offered, fun _ => ⟨htaken, hlast⟩⟩
  | @streamingOutput p sink hsink htaken =>
    obtain ⟨hcleans, s, hcleaned, htaken', hlast⟩ := cleaned_streamingOutput (hp p rfl) hsink
    rw [hcleaned]
    exact ⟨hcleans, .streamingOutput s, fun _ => ⟨htaken'.trans htaken, hlast⟩⟩

theorem eq_ok_of_outcome {act : EStateM StreamError Descriptor Unit} {d : Descriptor} (h : outcome act d = .ok ()) :
    act d = .ok () (after act d) := by
  unfold outcome at h
  unfold after
  cases hact : act d with
  | ok _ d' => rfl
  | error e d' =>
    rw [hact] at h
    cases h

end Descriptor

namespace Exchange

theorem perform_writev {offered : List UInt8} {streaming : Bool} {plan : Option SinkPlan} {d : Descriptor}
    (hp : ∀ p, plan = some p → p.Faultless) (h : d.Took offered streaming plan) (views : List View)
    (made : List (Option Held)) :
    ∃ d', perform (.writev views) ⟨d, made⟩ =
        .ok (.wrote (streaming && plan.isSome && haveBytes views) (countOf views)) ⟨d', made⟩ ∧
      d'.Took (offered ++ views.flatMap View.toList) streaming plan := by
  have hcount := count_eq_countOf views
  cases h with
  | null =>
    refine ⟨.null, ?_, .null streaming⟩
    rw [← hcount, Option.isSome_none, Bool.and_false, Bool.false_and]
    rfl
  | bufferedOutput p =>
    refine ⟨_, ?_, .bufferedOutput p⟩
    rw [← hcount]
    rfl
  | @streamingOutput p sink hsink htaken =>
    have hready : perform (.writev views) ⟨.streamingOutput ⟨sink, false⟩, made⟩ =
        finish (.ofViews views) ⟨.streamingOutput ⟨sink, false⟩, made⟩ := by
      show (on (Descriptor.writev views) >>= _) _ = _
      rw [bind_apply, on, writev_streamingOutput, Held.ofViews]
    rw [hready]
    cases hsome : haveBytes views with
    | false =>
      obtain ⟨hzero, hnone⟩ := countOf_of_empty hsome
      rw [finish_empty hsome, hzero, hnone, List.append_nil]
      exact ⟨_, rfl, .streamingOutput hsink htaken⟩
    | true =>
      obtain ⟨sink', hput, hsink', htaken'⟩ := StreamingOutput.put_ok (hp p rfl) hsink
        ((views.filter fun v => v.size != 0).map View.toList)
      rw [count_chunks, hcount] at hput
      rw [flatten_chunks, htaken] at htaken'
      rw [finish_ofViews hsome, hput]
      exact ⟨_, rfl, .streamingOutput hsink' htaken'⟩

theorem performAll_writev (viewss : List (List View)) {offered : List UInt8} {streaming : Bool}
    {plan : Option SinkPlan} {d : Descriptor} (hp : ∀ p, plan = some p → p.Faultless)
    (h : d.Took offered streaming plan) (made : List (Option Held)) :
    ∃ d', (performAll (viewss.map .writev) ⟨d, made⟩).2 = ⟨d', made⟩ ∧
      answers (viewss.map .writev) ⟨d, made⟩ =
        (viewss.map fun views => .ok (.wrote (streaming && plan.isSome && haveBytes views) (countOf views))) ∧
      d'.Took (offered ++ viewss.flatten.flatMap View.toList) streaming plan := by
  induction viewss generalizing offered d with
  | nil =>
    refine ⟨d, rfl, rfl, ?_⟩
    rw [List.flatten_nil, List.flatMap_nil, List.append_nil]
    exact h
  | cons views viewss ih =>
    obtain ⟨d₁, hwrite, h₁⟩ := perform_writev hp h views made
    obtain ⟨d', hlast, hanswers, h'⟩ := ih h₁
    refine ⟨d', ?_, ?_, ?_⟩
    · rw [List.map_cons, performAll_cons, turn_of_ok hwrite]
      exact hlast
    · rw [List.map_cons, answers_cons, turn_of_ok hwrite, hanswers, List.map_cons]
    · rwa [List.flatten_cons, List.flatMap_append, ← List.append_assoc]

theorem performAll_cleanUp {d : Descriptor} (h : d.CleansUp) (made : List (Option Held)) :
    (performAll [.close, .postRun] ⟨d, made⟩).2 = ⟨d.cleaned, made⟩ ∧
      answers [.close, .postRun] ⟨d, made⟩ = [.ok .done, .ok .done] := by
  have hclose : perform .close ⟨d, made⟩ = .ok .done ⟨d.after Descriptor.close, made⟩ := by
    show (on Descriptor.close >>= _) _ = _
    rw [bind_apply, on, Descriptor.eq_ok_of_outcome h.1]
    rfl
  have hpost : perform .postRun ⟨d.after Descriptor.close, made⟩ = .ok .done ⟨d.cleaned, made⟩ := by
    show (on Descriptor.postRun >>= _) _ = _
    rw [bind_apply, on, Descriptor.eq_ok_of_outcome h.2]
    rfl
  constructor
  · rw [performAll_cons, performAll_cons, turn_of_ok hclose, turn_of_ok hpost]
    rfl
  · rw [answers_cons, answers_cons, turn_of_ok hclose, turn_of_ok hpost]
    rfl

/-- Closing and delivering again changes nothing. -/
theorem performAll_settled {d : Descriptor} (h : d.Settled) {ops : List Operation}
    (hops : ∀ op ∈ ops, op = .close ∨ op = .postRun) (made : List (Option Held)) :
    (performAll ops ⟨d, made⟩).2 = ⟨d, made⟩ ∧ ∀ answer ∈ answers ops ⟨d, made⟩, answer = .ok .done := by
  induction ops with
  | nil => exact ⟨rfl, nofun⟩
  | cons op ops ih =>
    have hturn : turn op ⟨d, made⟩ = (.ok .done, ⟨d, made⟩) := by
      rcases hops op List.mem_cons_self with rfl | rfl
      · cases h <;> rfl
      · cases h <;> rfl
    obtain ⟨hlast, hanswers⟩ := ih fun op' h => hops op' (List.mem_cons_of_mem _ h)
    rw [performAll_cons, answers_cons, hturn]
    refine ⟨hlast, fun answer ha => ?_⟩
    rcases List.mem_cons.1 ha with rfl | ha
    · rfl
    · exact hanswers answer ha

end Exchange

/-- Views are written to an output, each write awaited before the next, and then it is closed and delivered: a
buffered output, a streaming one, or one without a stream. As long as a sink does not fail, none of this fails, and
every write counts the bytes of its views, whichever output it is. The sink, if there is one, has taken the bytes of all
views in order, and was shut down once, after the last of them. Closing and delivering again, in any order, does
nothing. -/
theorem outputs_agree (plan : Option SinkPlan) (hp : ∀ p, plan = some p → p.Faultless) (streaming : Bool)
    (viewss : List (List View)) :
    ∃ d, (Exchange.performAll (viewss.map .writev ++ [.close, .postRun])
          { descriptor := .ofSink plan streaming }).2 = ⟨d, []⟩ ∧
      Exchange.answers (viewss.map .writev ++ [.close, .postRun]) { descriptor := .ofSink plan streaming } =
        (viewss.map fun views => .ok (.wrote (streaming && plan.isSome && haveBytes views) (countOf views))) ++
          [.ok .done, .ok .done] ∧
      (plan.isSome = true →
        SinkEvent.taken d.events = viewss.flatten.flatMap View.toList ∧ ShutDownLast d.events) ∧
      ∀ more : List Operation, (∀ op ∈ more, op = .close ∨ op = .postRun) →
        (Exchange.performAll more ⟨d, []⟩).2.descriptor.events = d.events ∧
          ∀ answer ∈ Exchange.answers more ⟨d, []⟩, answer = .ok .done := by
  obtain ⟨d₁, hwritten, hanswers, htook⟩ :=
    Exchange.performAll_writev viewss hp (Descriptor.took_ofSink plan streaming) []
  obtain ⟨hcleans, hsettled, htaken⟩ := htook.cleanUp hp
  obtain ⟨hcleaned, hdone⟩ := Exchange.performAll_cleanUp hcleans []
  refine ⟨d₁.cleaned, ?_, ?_, htaken, fun more hmore => ?_⟩
  · rw [Exchange.performAll_append, hwritten]
    exact hcleaned
  · rw [Exchange.answers_append, hanswers, hwritten, hdone]
  · obtain ⟨hlast, hagain⟩ := Exchange.performAll_settled hsettled hmore []
    exact ⟨by rw [hlast], hagain⟩

/-- Two writes of some bytes, and one of none. -/
def fewWrites : List (List View) := [[.ofArray #[1, 2, 3], .ofArray #[]], [], [.ofArray #[4]]]

/-- The sink of the buffered output sees two writes, that of the streaming output three, of the same bytes. -/
theorem outputs_agree_on_few_writes :
    (∀ p, some smallSink = some p → p.Faultless) ∧
      (∀ streaming, ∃ d, (Exchange.performAll (fewWrites.map .writev ++ [.close, .postRun])
            { descriptor := .ofSink (some smallSink) streaming }).2 = ⟨d, []⟩ ∧
        Exchange.answers (fewWrites.map .writev ++ [.close, .postRun])
            { descriptor := .ofSink (some smallSink) streaming } =
          [.ok (.wrote streaming 3), .ok (.wrote false 0), .ok (.wrote streaming 1), .ok .done, .ok .done] ∧
        SinkEvent.taken d.events = [1, 2, 3, 4] ∧ ShutDownLast d.events ∧
        (Exchange.performAll [.postRun, .close, .close] ⟨d, []⟩).2.descriptor.events = d.events) ∧
      (Exchange.performAll (fewWrites.map .writev ++ [.close, .postRun])
          { descriptor := .ofSink (some smallSink) false }).2.descriptor.events =
        [.wrote [1, 2], .wrote [3, 4], .shutDown] ∧
      (Exchange.performAll (fewWrites.map .writev ++ [.close, .postRun])
          { descriptor := .ofSink (some smallSink) true }).2.descriptor.events =
        [.wrote [1, 2], .wrote [3], .flushed, .wrote [4], .flushed, .shutDown] := by
  have hp : ∀ p, some smallSink = some p → p.Faultless := by
    rintro p ⟨⟩
    exact faultless_smallSink
  refine ⟨hp, fun streaming => ?_, by decide, by decide⟩
  obtain ⟨d, hlast, hanswers, hdelivered, hagain⟩ := outputs_agree (some smallSink) hp streaming fewWrites
  obtain ⟨htaken, hshut⟩ := hdelivered rfl
  refine ⟨d, hlast, ?_, htaken, hshut, (hagain [.postRun, .close, .close] (by simp)).1⟩
  rw [hanswers]
  cases streaming <;> rfl

end GuestHost
