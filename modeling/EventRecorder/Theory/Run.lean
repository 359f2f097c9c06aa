import Mathlib

/-!
# Run — deterministic machines driven by a list of events

A machine is a total step function `σ → ε → σ`.  A law of its states holds *throughout* a run when
it holds after every prefix of the events, and a condition on steps is met by *each step* when it
holds of every event in the state it is taken from.  The rules below carry a law along a run, once,
so that a development only has to argue about one step.
-/

namespace EventRecorder.Theory

variable {σ τ ε ω : Type*}

/-- The state after a list of events. -/
def run (step : σ → ε → σ) (s : σ) (es : List ε) : σ :=
  es.foldl step s

/-- `P` holds after every prefix of the events, the empty one included. -/
def Throughout (step : σ → ε → σ) (P : σ → Prop) (s : σ) (es : List ε) : Prop :=
  ∀ pre, pre <+: es → P (run step s pre)

/-- Every event meets `ok` in the state it is taken from. -/
def EachStep (step : σ → ε → σ) (ok : σ → ε → Prop) (s : σ) (es : List ε) : Prop :=
  ∀ pre e, pre ++ [e] <+: es → ok (run step s pre) e

@[simp] theorem run_nil (step : σ → ε → σ) (s : σ) : run step s [] = s := rfl

@[simp] theorem run_cons (step : σ → ε → σ) (s : σ) (e : ε) (es : List ε) :
    run step s (e :: es) = run step (step s e) es := rfl

theorem run_append (step : σ → ε → σ) (s : σ) (es fs : List ε) :
    run step s (es ++ fs) = run step (run step s es) fs :=
  List.foldl_append

theorem throughout_nil (step : σ → ε → σ) (P : σ → Prop) (s : σ) :
    Throughout step P s [] ↔ P s := by
  simp [Throughout]

theorem throughout_cons (step : σ → ε → σ) (P : σ → Prop) (s : σ) (e : ε) (es : List ε) :
    Throughout step P s (e :: es) ↔ P s ∧ Throughout step P (step s e) es := by
  constructor
  · intro h
    refine ⟨h [] (List.nil_prefix), fun pre hpre => ?_⟩
    exact h (e :: pre) ((List.prefix_cons_inj e).mpr hpre)
  -- a prefix of `e :: es` is empty or starts with `e`
  · rintro ⟨hs, h⟩ pre hpre
    cases pre with
    | nil => exact hs
    | cons f pre =>
      obtain ⟨rfl, htail⟩ := List.cons_prefix_cons.mp hpre
      exact h pre htail

theorem eachStep_nil (step : σ → ε → σ) (ok : σ → ε → Prop) (s : σ) :
    EachStep step ok s [] := by
  intro pre e h
  simp at h

theorem eachStep_cons (step : σ → ε → σ) (ok : σ → ε → Prop) (s : σ) (e : ε) (es : List ε) :
    EachStep step ok s (e :: es) ↔ ok s e ∧ EachStep step ok (step s e) es := by
  constructor
  · intro h
    refine ⟨h [] e (by simp), fun pre f hpre => ?_⟩
    exact h (e :: pre) f ((List.prefix_cons_inj e).mpr hpre)
  · rintro ⟨hs, h⟩ pre f hpre
    cases pre with
    | nil =>
      obtain ⟨rfl, -⟩ := List.cons_prefix_cons.mp hpre
      exact hs
    | cons g pre =>
      obtain ⟨rfl, htail⟩ := List.cons_prefix_cons.mp hpre
      exact h pre f htail

theorem eachStep_append (step : σ → ε → σ) (ok : σ → ε → Prop) (s : σ) (es fs : List ε) :
    EachStep step ok s (es ++ fs) ↔
      EachStep step ok s es ∧ EachStep step ok (run step s es) fs := by
  induction es generalizing s with
  | nil => exact (and_iff_right (eachStep_nil step ok s)).symm
  | cons e es ih => rw [List.cons_append, eachStep_cons, eachStep_cons, ih, run_cons, and_assoc]

instance EachStep.decidable {step : σ → ε → σ} {ok : σ → ε → Prop} [∀ s e, Decidable (ok s e)] :
    ∀ (s : σ) (es : List ε), Decidable (EachStep step ok s es)
  | s, [] => isTrue (eachStep_nil step ok s)
  | s, e :: es =>
    have : Decidable (EachStep step ok (step s e) es) := EachStep.decidable (step s e) es
    decidable_of_iff _ (eachStep_cons step ok s e es).symm

/-- The law at the end of a run. -/
theorem Throughout.last {step : σ → ε → σ} {P : σ → Prop} {s : σ} {es : List ε}
    (h : Throughout step P s es) : P (run step s es) :=
  h es (List.prefix_refl es)

theorem Throughout.mono {step : σ → ε → σ} {P Q : σ → Prop} {s : σ} {es : List ε}
    (hPQ : ∀ s, P s → Q s) (h : Throughout step P s es) : Throughout step Q s es :=
  fun pre hpre => hPQ _ (h pre hpre)

/-- **Invariant rule.**  A law that every step meeting its condition preserves holds throughout
every run whose steps all meet the condition. -/
theorem throughout_of_step {step : σ → ε → σ} {ok : σ → ε → Prop} {I : σ → Prop}
    (hstep : ∀ s e, I s → ok s e → I (step s e)) {s : σ} {es : List ε}
    (hs : I s) (hok : EachStep step ok s es) : Throughout step I s es := by
  -- the state stays general: the rest of the run starts one step later
  induction es generalizing s with
  | nil => exact (throughout_nil step I s).mpr hs
  | cons e es ih =>
    obtain ⟨he, hes⟩ := (eachStep_cons step ok s e es).mp hok
    exact (throughout_cons step I s e es).mpr ⟨hs, ih (hstep s e hs he) hes⟩

/-- Two conditions on steps that agree in every lawful state are met by the same runs. -/
theorem eachStep_congr {step : σ → ε → σ} {ok A B : σ → ε → Prop} {I : σ → Prop}
    (hstep : ∀ s e, I s → ok s e → I (step s e))
    (hiff : ∀ s e, I s → ok s e → (A s e ↔ B s e)) {s : σ} {es : List ε} (hs : I s)
    (hok : EachStep step ok s es) : EachStep step A s es ↔ EachStep step B s es := by
  induction es generalizing s with
  | nil => exact iff_of_true (eachStep_nil step A s) (eachStep_nil step B s)
  | cons e es ih =>
    obtain ⟨he, hes⟩ := (eachStep_cons step ok s e es).mp hok
    rw [eachStep_cons, eachStep_cons, hiff s e hs he, ih (hstep s e hs he) hes]

/-- An unconditional invariant holds throughout every run. -/
theorem throughout_of_invariant {step : σ → ε → σ} {I : σ → Prop}
    (hstep : ∀ s e, I s → I (step s e)) {s : σ} (es : List ε) (hs : I s) :
    Throughout step I s es :=
  throughout_of_step (fun s e h (_ : True) => hstep s e h) hs fun _ _ _ => trivial

/-- **Exact condition rule.**  When an admitted step from a lawful state keeps the law exactly if it
meets a condition, the law holds throughout an admitted run exactly if each of its steps meets the
condition.  `I` is any invariant of the machine that the step argument needs. -/
theorem throughout_iff_eachStep {step : σ → ε → σ} {adm ok : σ → ε → Prop} {I P : σ → Prop}
    (hinv : ∀ s e, I s → adm s e → I (step s e))
    (hstep : ∀ s e, I s → adm s e → P s → (P (step s e) ↔ ok s e))
    {s : σ} (hI : I s) (hP : P s) {es : List ε} (hadm : EachStep step adm s es) :
    Throughout step P s es ↔ EachStep step ok s es := by
  induction es generalizing s with
  | nil => exact iff_of_true ((throughout_nil step P s).mpr hP) (eachStep_nil step ok s)
  | cons e es ih =>
    obtain ⟨he, hes⟩ := (eachStep_cons step adm s e es).mp hadm
    rw [throughout_cons, eachStep_cons]
    constructor
    -- the law after the first step is the law of the empty prefix of the rest
    · rintro ⟨-, h⟩
      have hnext : P (step s e) := h [] List.nil_prefix
      exact ⟨(hstep s e hI he hP).mp hnext, (ih (hinv s e hI he) hnext hes).mp h⟩
    · rintro ⟨hok, h⟩
      exact ⟨hP, (ih (hinv s e hI he) ((hstep s e hI he hP).mpr hok) hes).mpr h⟩

/-- The exact condition rule when nothing but the law is needed for the step. -/
theorem throughout_iff_eachStep_of_law {step : σ → ε → σ} {ok : σ → ε → Prop} {P : σ → Prop}
    (hstep : ∀ s e, P s → (P (step s e) ↔ ok s e)) {s : σ} (hP : P s) (es : List ε) :
    Throughout step P s es ↔ EachStep step ok s es :=
  @throughout_iff_eachStep _ _ step (fun _ _ => True) ok (fun _ => True) P
    (fun _ _ _ _ => trivial) (fun s e _ _ => hstep s e) s trivial hP es fun _ _ _ => trivial

/-! ## Outputs -/

/-- What a machine answers to a list of events. -/
def outputs (step : σ → ε → σ × ω) : σ → List ε → List ω
  | _, [] => []
  | s, e :: es => (step s e).2 :: outputs step (step s e).1 es

/-- **Simulation rule.**  A machine whose steps answer as another's does, from related states to
related states, answers a whole run as the other does and stays related to it. -/
theorem outputs_of_simulation {stepS : σ → ε → σ × ω} {stepT : τ → ε → τ × ω}
    {ok : σ → ε → Prop} {R : σ → τ → Prop}
    (hstep : ∀ s t e, R s t → ok s e →
      (stepS s e).2 = (stepT t e).2 ∧ R (stepS s e).1 (stepT t e).1)
    {s : σ} {t : τ} {es : List ε} (hR : R s t)
    (hok : EachStep (fun s e => (stepS s e).1) ok s es) :
    outputs stepS s es = outputs stepT t es ∧
      Throughout (fun s e => (stepS s e).1) (fun s => ∃ t, R s t) s es := by
  induction es generalizing s t with
  | nil => exact ⟨rfl, (throughout_nil _ _ s).mpr ⟨t, hR⟩⟩
  | cons e es ih =>
    obtain ⟨he, hes⟩ := (eachStep_cons _ ok s e es).mp hok
    obtain ⟨hout, hnext⟩ := hstep s t e hR he
    obtain ⟨hrest, hthroughout⟩ := ih hnext hes
    refine ⟨?_, (throughout_cons _ _ s e es).mpr ⟨⟨t, hR⟩, hthroughout⟩⟩
    rw [outputs, outputs, hout, hrest]

end EventRecorder.Theory
