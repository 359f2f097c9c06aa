import EventRecorder.Theory.Run

/-!
# Simulation — two machines that take the same events

Two machines are in step with each other when every event takes related states to related states.
What holds of the one is then carried over to the other, for whole runs.  A machine that is part of
a larger one takes several events, or none, at each step of the other.  A machine that can end
answers either its next state or the reason for which it has ended together with its last state.
-/

namespace EventRecorder.Theory

variable {σ τ ε φ ω : Type*} {R : σ → τ → Prop}

/-- **Simulation rule.** -/
theorem run_related {stepS : σ → ε → σ} {stepT : τ → ε → τ} {ok : σ → ε → Prop}
    (hstep : ∀ s t e, R s t → ok s e → R (stepS s e) (stepT t e)) {s : σ} {t : τ} {es : List ε}
    (hR : R s t) (hok : EachStep stepS ok s es) : R (run stepS s es) (run stepT t es) := by
  -- induction on the events, over all related states
  induction es generalizing s t with
  | nil => exact hR
  | cons e es ih =>
    obtain ⟨he, hes⟩ := (eachStep_cons stepS ok s e es).mp hok
    exact ih (hstep s t e hR he) hes

/-- The relation holds after every prefix of the events. -/
theorem related_throughout {stepS : σ → ε → σ} {stepT : τ → ε → τ} {ok : σ → ε → Prop}
    (hstep : ∀ s t e, R s t → ok s e → R (stepS s e) (stepT t e)) {s : σ} {t : τ} {es : List ε}
    (hR : R s t) (hok : EachStep stepS ok s es) {pre : List ε} (hpre : pre <+: es) :
    R (run stepS s pre) (run stepT t pre) :=
  run_related hstep hR fun front e hfront => hok front e (hfront.trans hpre)

/-! ## Machines that are part of others -/

/-- What each event amounts to in the state it is taken from, all along a run. -/
def along (step : σ → ε → σ) (events : σ → ε → List φ) : σ → List ε → List φ
  | _, [] => []
  | s, e :: es => events s e ++ along step events (step s e) es

/-- Nothing more once a machine has ended. -/
def whileOn (events : σ → ε → List φ) : Option σ → ε → List φ
  | none, _ => []
  | some s, e => events s e

@[simp] theorem along_cons (step : σ → ε → σ) (events : σ → ε → List φ) (s : σ) (e : ε)
    (es : List ε) :
    along step events s (e :: es) = events s e ++ along step events (step s e) es := rfl

theorem along_append (step : σ → ε → σ) (events : σ → ε → List φ) (s : σ) (es fs : List ε) :
    along step events s (es ++ fs) =
      along step events s es ++ along step events (run step s es) fs := by
  induction es generalizing s with
  | nil => rfl
  | cons e es ih => rw [List.cons_append, along_cons, ih, along_cons, run_cons, List.append_assoc]

section Along

variable {stepS : σ → ε → σ} {stepT : τ → φ → τ} {events : σ → ε → List φ} {ok : σ → ε → Prop}
  (hstep : ∀ s t e, R s t → ok s e → R (stepS s e) (run stepT t (events s e)))

include hstep

/-- **Simulation rule.**  The part runs along with the whole. -/
theorem run_along {s : σ} {t : τ} {es : List ε} (hR : R s t) (hok : EachStep stepS ok s es) :
    R (run stepS s es) (run stepT t (along stepS events s es)) := by
  induction es generalizing s t with
  | nil => exact hR
  | cons e es ih =>
    obtain ⟨he, hes⟩ := (eachStep_cons stepS ok s e es).mp hok
    rw [along_cons, run_append]
    exact ih (hstep s t e hR he) hes

/-- What the events of each step of the whole meet, all events of the part meet. -/
theorem eachStep_along {okT : τ → φ → Prop}
    (hevents : ∀ s t e, R s t → ok s e → EachStep stepT okT t (events s e)) {s : σ} {t : τ}
    {es : List ε} (hR : R s t) (hok : EachStep stepS ok s es) :
    EachStep stepT okT t (along stepS events s es) := by
  induction es generalizing s t with
  | nil => exact eachStep_nil stepT okT t
  | cons e es ih =>
    obtain ⟨he, hes⟩ := (eachStep_cons stepS ok s e es).mp hok
    rw [along_cons, eachStep_append]
    exact ⟨hevents s t e hR he, ih (hstep s t e hR he) hes⟩

end Along

section Partial

variable {handle : σ → ε → Option σ} {s s' : σ} {es : List ε}

/-- A machine that has ended stays so. -/
theorem run_bind_none (handle : σ → ε → Option σ) (es : List ε) :
    run (fun state e => state.bind fun s => handle s e) none es = none := by
  induction es with
  | nil => rfl
  | cons e es ih => exact ih

/-- A machine that goes on to the end of its events has not ended at the first. -/
theorem run_bind_cons {e : ε}
    (hrun : run (fun state e => state.bind fun s => handle s e) (some s) (e :: es) = some s') :
    ∃ next, handle s e = some next ∧
      run (fun state e => state.bind fun s => handle s e) (some next) es = some s' := by
  rw [run_cons, Option.bind_some] at hrun
  cases hhandle : handle s e with
  | none =>
    rw [hhandle, run_bind_none] at hrun
    cases hrun
  | some next =>
    rw [hhandle] at hrun
    exact ⟨next, rfl, hrun⟩

/-- **Invariant rule.**  What every step keeps is kept as long as the machine goes on. -/
theorem run_bind_keeps {I : σ → Prop} (hstep : ∀ s s' e, I s → handle s e = some s' → I s')
    (hs : I s)
    (hrun : run (fun state e => state.bind fun s => handle s e) (some s) es = some s') :
    I s' := by
  induction es generalizing s with
  | nil =>
    cases hrun
    exact hs
  | cons e es ih =>
    obtain ⟨next, hnext, hrest⟩ := run_bind_cons hrun
    exact ih (hstep s next e hs hnext) hrest

end Partial

section WhileOn

variable {handle : σ → ε → Option σ} {stepT : τ → φ → τ} {events : σ → ε → List φ} {view : σ → τ}
  (hview : ∀ s s' e, handle s e = some s' → run stepT (view s) (events s e) = view s')

include hview

/-- A part that is seen of every state of a machine, until that ends. -/
theorem run_whileOn {s s' : σ} {es : List ε}
    (hrun : run (fun state e => state.bind fun s => handle s e) (some s) es = some s') :
    run stepT (view s)
        (along (fun state e => state.bind fun s => handle s e) (whileOn events) (some s) es) =
      view s' := by
  have hrelated := @run_along (Option σ) τ ε φ (fun state t => ∀ s ∈ state, t = view s)
    (fun state e => state.bind fun s => handle s e) stepT (whileOn events) (fun _ _ => True)
    (by
      intro state t e hR _ s' hs'
      obtain ⟨s, hs, hhandle⟩ := Option.bind_eq_some_iff.mp hs'
      rw [hR s hs, hs]
      exact hview s s' e hhandle)
    (some s) (view s) es (fun s' hs' => by cases hs'; rfl) (fun _ _ _ => trivial)
  exact hrelated s' hrun

theorem eachStep_whileOn {ok : σ → ε → Prop} {okT : τ → φ → Prop}
    (hevents : ∀ s e, ok s e → EachStep stepT okT (view s) (events s e)) {s : σ} {es : List ε}
    (hok : EachStep (fun state e => state.bind fun s => handle s e)
      (fun state e => ∀ s ∈ state, ok s e) (some s) es) :
    EachStep stepT okT (view s)
      (along (fun state e => state.bind fun s => handle s e) (whileOn events) (some s) es) := by
  refine @eachStep_along (Option σ) τ ε φ (fun state t => ∀ s ∈ state, t = view s)
    (fun state e => state.bind fun s => handle s e) stepT (whileOn events)
    (fun state e => ∀ s ∈ state, ok s e) ?_ okT ?_ (some s) (view s) es ?_ hok
  · intro state t e hR _ s' hs'
    obtain ⟨s, hs, hhandle⟩ := Option.bind_eq_some_iff.mp hs'
    rw [hR s hs, hs]
    exact hview s s' e hhandle
  · intro state t e hR hstate
    cases state with
    | none => exact eachStep_nil stepT okT t
    | some s =>
      rw [hR s rfl]
      exact hevents s e (hstate s rfl)
  · intro s' hs'
    cases hs'
    rfl

end WhileOn

/-! ## Machines that can end -/

/-- Both go on in related states, or both have ended for the same reason in related states. -/
def EndAlike (R : σ → τ → Prop) : Except (ω × σ) σ → Except (ω × τ) τ → Prop
  | .ok s, .ok t => R s t
  | .error a, .error b => a.1 = b.1 ∧ R a.2 b.2
  | _, _ => False

namespace EndAlike

variable {a : Except (ω × σ) σ} {b : Except (ω × τ) τ}

theorem map (h : EndAlike R a b) {f : σ → σ} {g : τ → τ} (hfg : ∀ s t, R s t → R (f s) (g t)) :
    EndAlike R (a.map f) (b.map g) := by
  cases a with
  | ok s =>
    cases b with
    | ok t => exact hfg s t h
    | error _ => exact h
  | error _ =>
    cases b with
    | ok t => exact h
    | error _ => exact h

theorem bind (h : EndAlike R a b) {f : σ → Except (ω × σ) σ} {g : τ → Except (ω × τ) τ}
    (hfg : ∀ s t, R s t → EndAlike R (f s) (g t)) : EndAlike R (a.bind f) (b.bind g) := by
  cases a with
  | ok s =>
    cases b with
    | ok t => exact hfg s t h
    | error _ => exact h.elim
  | error _ =>
    cases b with
    | ok t => exact h.elim
    | error _ => exact h

end EndAlike

end EventRecorder.Theory
