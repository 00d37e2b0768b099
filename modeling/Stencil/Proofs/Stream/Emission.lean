/-
# `Stream.Emission` — what a stream has emitted stands

A stream emits an expression when a brace opens or closes markup, and at no other time.  What it has
emitted when a part of a source has arrived is therefore the beginning of what it has emitted when
more has arrived: nothing is taken back, and only what is pending can still change.

* `emitted_step` — a step emits one expression or none;
* `emitted_feed` — a text that arrives only adds to what was emitted;
* `compile_stream` — the expressions of a source are those emitted and the literal of what is pending
  at the end; more of the source may arrive at any point.
-/
import Stencil.Proofs.Stream.Splitting

namespace Stencil

namespace Stream

/-! ## Emitting -/

theorem emitted_stepText (s : Stream) (c : Char) : (s.stepText c).emitted = s.emitted := by
  unfold stepText
  split
  · rfl
  · split <;> rfl

theorem emitted_step (s : Stream) (c : Char) :
    (s.step c).emitted = s.emitted ∨ ∃ e, (s.step c).emitted = s.emitted.push e := by
  unfold step
  split
  case h_1 => exact .inl (emitted_stepText s c)
  case h_2 => exact .inl rfl
  case h_3 kind _ =>
      split
      · exact .inr ⟨.literal s.pending, rfl⟩
      · -- the remembered character becomes pending before `c` is taken
        exact .inl (emitted_stepText { s with pending := s.pending.push kind.sigil } c)
  case h_4 kind _ =>
      split
      · exact .inr ⟨kind.expr s.pending, rfl⟩
      · split <;> exact .inl rfl

theorem emitted_step_prefix (s : Stream) (c : Char) :
    s.emitted.toList <+: (s.step c).emitted.toList := by
  rcases emitted_step s c with eq | ⟨e, eq⟩
  · exact eq.symm ▸ List.prefix_rfl
  · rw [eq, Array.toList_push]
    exact List.prefix_append _ _

/-- **What was emitted is not taken back.** -/
theorem emitted_feed (s : Stream) (text : String) :
    s.emitted.toList <+: (s.feed text).emitted.toList := by
  unfold feed
  induction text.toList generalizing s with
  | nil => exact List.prefix_rfl
  | cons c rest ih =>
      have first := emitted_step_prefix s c
      exact first.trans (ih (s.step c))

/-! ## Arriving in parts -/

theorem feed_append (s : Stream) (text more : String) :
    s.feed (text ++ more) = (s.feed text).feed more := by
  simp only [feed, String.toList_append, List.foldl_append]

theorem dropLast_finish (s : Stream) : s.finish.dropLast = s.emitted.toList := by
  rw [finish_eq, List.dropLast_concat]

theorem emitted_prefix_finish (s : Stream) : s.emitted.toList <+: s.finish := by
  rw [finish_eq]
  exact List.prefix_append _ _

end Stream

theorem compile_append_eq_finish (source more : String) :
    compile (source ++ more) = ((Stream.start.feed source).feed more).finish := by
  rw [compile_eq_finish, Stream.feed_append]

theorem dropLast_compile_prefix (source more : String) :
    (compile source).dropLast <+: compile (source ++ more) := by
  have before : (compile source).dropLast = (Stream.start.feed source).emitted.toList := by
    rw [compile_eq_finish, Stream.dropLast_finish]
  rw [before, compile_append_eq_finish]
  have arriving := Stream.emitted_feed (Stream.start.feed source) more
  exact arriving.trans (Stream.emitted_prefix_finish _)

/-- **The expressions of a source are what a stream emits while the source arrives and a literal of
what is pending at the end.**  What has arrived may be any part of a source: what follows it is taken
from there on, and the expressions emitted so far stay. -/
theorem compile_stream (source : String) :
    compile source = (source.toList.foldl Stream.step Stream.start).emitted.toList ++
        [.literal (source.toList.foldl Stream.step Stream.start).remainder] ∧
      ∀ more,
        compile (source ++ more) = ((Stream.start.feed source).feed more).finish ∧
          (compile source).dropLast <+: compile (source ++ more) := by
  constructor
  · rw [compile_eq_finish, Stream.finish_eq]
    rfl
  · intro more
    exact ⟨compile_append_eq_finish source more, dropLast_compile_prefix source more⟩

end Stencil
