import Mathlib

/-!
# Loop — loops that go on with a state or leave with a result

The body of a loop takes a state to the next one or to the result of the loop.  A state is reached
when rounds that go on lead to it.  That a loop ends is shown by a number that falls with every
round, from an invariant of the states reached.
-/

namespace EventRecorder.Theory

variable {σ β : Type*} (body : σ → σ ⊕ β)

/-- The result of a loop that leaves within so many rounds. -/
def loop : Nat → σ → Option β
  | 0, _ => none
  | fuel + 1, s =>
    match body s with
    | .inl next => loop fuel next
    | .inr result => some result

/-- The round from `s` goes on with `next`. -/
def Continues (s next : σ) : Prop := body s = .inl next

/-- Rounds that go on lead from one state to the other. -/
def Reaches : σ → σ → Prop := Relation.ReflTransGen (Continues body)

variable {body} {s t next : σ} {result : β} {fuel : Nat}

/-! ## 1. The states of a loop -/

theorem Reaches.refl : Reaches body s s := Relation.ReflTransGen.refl

theorem Reaches.tail (h : Reaches body s t) (hnext : body t = .inl next) : Reaches body s next :=
  Relation.ReflTransGen.tail h hnext

theorem Reaches.head (hnext : body s = .inl next) (h : Reaches body next t) : Reaches body s t :=
  Relation.ReflTransGen.head hnext h

/-- **Invariant rule.** -/
theorem Reaches.invariant {I : σ → Prop} (h : Reaches body s t)
    (hstep : ∀ s next, I s → body s = .inl next → I next) (hs : I s) : I t := by
  induction h with
  | refl => exact hs
  | tail _ hnext ih => exact hstep _ _ ih hnext

/-- Whatever state is reached, the loop goes on from it to where it leaves. -/
theorem Reaches.to_last {last : σ} (h : Reaches body s t) (hlast : Reaches body s last)
    (hleaves : body last = .inr result) : Reaches body t last := by
  have hunique : Relator.RightUnique (Continues body) := by
    intro s next next' hnext hnext'
    exact Sum.inl.inj (hnext.symm.trans hnext')
  cases Relation.ReflTransGen.total_of_right_unique hunique h hlast with
  | inl hbefore => exact hbefore
  | inr hbeyond =>
    cases hbeyond.cases_head with
    | inl heq =>
      rw [heq]
      exact .refl
    -- no round goes on from the last state
    | inr hmore =>
      obtain ⟨next, hnext, -⟩ := hmore
      cases hleaves.symm.trans hnext

/-! ## 2. Results -/

theorem loop_succ_of_continues (h : body s = .inl next) :
    loop body (fuel + 1) s = loop body fuel next := by
  rw [loop, h]

theorem loop_succ_of_leaves (h : body s = .inr result) :
    loop body (fuel + 1) s = some result := by
  rw [loop, h]

/-- A result comes from a state that was reached. -/
theorem exists_reaches_of_loop (h : loop body fuel s = some result) :
    ∃ last, Reaches body s last ∧ body last = .inr result := by
  induction fuel generalizing s with
  | zero => cases h
  | succ fuel ih =>
    cases hs : body s with
    | inl next =>
      rw [loop_succ_of_continues hs] at h
      obtain ⟨last, hreach, hlast⟩ := ih h
      exact ⟨last, hreach.head hs, hlast⟩
    | inr left =>
      rw [loop_succ_of_leaves hs] at h
      exact ⟨s, .refl, hs.trans (congrArg Sum.inr (Option.some.inj h))⟩

/-- **Termination rule.**  A number that falls with every round bounds the rounds. -/
theorem exists_loop_of_measure {I : σ → Prop} (measure : σ → Nat)
    (hstep : ∀ s next, I s → body s = .inl next → I next ∧ measure next < measure s)
    (hs : I s) (hfuel : measure s < fuel) : ∃ result, loop body fuel s = some result := by
  induction fuel generalizing s with
  | zero => exact absurd hfuel (Nat.not_lt_zero _)
  | succ fuel ih =>
    cases hbody : body s with
    | inl next =>
      obtain ⟨hnext, hless⟩ := hstep s next hs hbody
      rw [loop_succ_of_continues hbody]
      exact ih hnext (by omega)
    | inr result => exact ⟨result, loop_succ_of_leaves hbody⟩

/-- A round that changes nothing is repeated for ever. -/
theorem loop_eq_none_of_stuck (h : body s = .inl s) (fuel : Nat) : loop body fuel s = none := by
  induction fuel with
  | zero => rfl
  | succ fuel ih => rw [loop_succ_of_continues h, ih]

end EventRecorder.Theory
