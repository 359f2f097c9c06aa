import Mathlib

/-!
# Trace — what holds after every occurrence of a mark

A trace is a list of actions, the latest at its end.  Laws of the form "after every mark …" are kept
as the trace grows by one action, which either is a mark or is not.
-/

namespace EventRecorder.Theory

variable {α : Type*} {mark action : α} {trace : List α} {P Q : List α → Prop}

/-- `P` holds of what follows each occurrence of `mark`. -/
def AfterEach (mark : α) (P : List α → Prop) (trace : List α) : Prop :=
  ∀ before after, trace = before ++ mark :: after → P after

/-- Where a mark can be in a trace that has grown by an action. -/
theorem split_snoc {before after : List α} (h : trace ++ [action] = before ++ mark :: after) :
    (after = [] ∧ action = mark) ∨
      ∃ earlier, after = earlier ++ [action] ∧ trace = before ++ mark :: earlier := by
  -- the new action is either the mark itself or the last of what follows the mark
  rcases List.eq_nil_or_concat after with rfl | ⟨earlier, last, rfl⟩
  · obtain ⟨-, hlast⟩ := List.append_inj' h rfl
    exact .inl ⟨rfl, List.singleton_inj.mp hlast⟩
  · have hsnoc : trace ++ [action] = (before ++ mark :: earlier) ++ [last] := by
      rw [h, List.append_assoc, List.cons_append, List.concat_eq_append]
    obtain ⟨htrace, hlast⟩ := List.append_inj' hsnoc rfl
    refine .inr ⟨earlier, ?_, htrace⟩
    rw [List.concat_eq_append, List.singleton_inj.mp hlast]

theorem afterEach_nil : AfterEach mark P [] := by
  intro before after h
  exact absurd h.symm (List.append_ne_nil_of_right_ne_nil before (List.cons_ne_nil mark after))

/-- The trace grows by something that is not a mark. -/
theorem AfterEach.snoc (h : AfterEach mark P trace) (hne : action ≠ mark)
    (hstep : ∀ after, P after → Q (after ++ [action])) :
    AfterEach mark Q (trace ++ [action]) := by
  intro before after hsplit
  rcases split_snoc hsplit with ⟨-, heq⟩ | ⟨earlier, rfl, htrace⟩
  · exact absurd heq hne
  · exact hstep earlier (h before earlier htrace)

/-- The trace grows by a mark. -/
theorem AfterEach.snoc_mark (h : AfterEach mark P trace) (hnow : Q [])
    (hstep : ∀ after, P after → Q (after ++ [mark])) : AfterEach mark Q (trace ++ [mark]) := by
  intro before after hsplit
  rcases split_snoc hsplit with ⟨rfl, -⟩ | ⟨earlier, rfl, htrace⟩
  · exact hnow
  · exact hstep earlier (h before earlier htrace)

end EventRecorder.Theory
