import EventRecorder.Theory.Run

/-!
# Crash — programs that die on the way through a list of steps

When a program dies, some of its steps have been taken in full and the next one has been cut short.
`cut s e k` is the state that a step `e` from `s` leaves when it is cut after `k` units of its work;
a step that happens at once leaves `s`.
-/

namespace EventRecorder.Theory

variable {σ ε : Type*} (step : σ → ε → σ) (cut : σ → ε → Nat → σ)

/-- The state after `n` steps and `k` units of the next one, or after all of them. -/
def crashAfter : σ → List ε → Nat → Nat → σ
  | s, [], _, _ => s
  | s, e :: _, 0, k => cut s e k
  | s, e :: es, n + 1, k => crashAfter (step s e) es n k

/-- `Q` holds wherever the program dies, and at the end. -/
def AtEveryCrash (Q : σ → Prop) (s : σ) (es : List ε) : Prop :=
  ∀ n k, Q (crashAfter step cut s es n k)

theorem crashAfter_of_length_le {s : σ} {es : List ε} {n : Nat} (hn : es.length ≤ n) (k : Nat) :
    crashAfter step cut s es n k = run step s es := by
  induction es generalizing s n with
  | nil => rfl
  | cons e es ih =>
    cases n with
    | zero => exact absurd hn (Nat.not_succ_le_zero _)
    | succ n => exact ih (Nat.le_of_succ_le_succ hn)

variable {step cut} {Q R : σ → Prop} {s : σ} {e : ε} {es fs : List ε}

theorem atEveryCrash_nil : AtEveryCrash step cut Q s [] ↔ Q s :=
  ⟨fun h => h 0 0, fun h _ _ => h⟩

/-- The first step is cut, or it is taken and the program dies later. -/
theorem atEveryCrash_cons :
    AtEveryCrash step cut Q s (e :: es) ↔
      (∀ k, Q (cut s e k)) ∧ AtEveryCrash step cut Q (step s e) es := by
  constructor
  · intro h
    exact ⟨fun k => h 0 k, fun n k => h (n + 1) k⟩
  · rintro ⟨hcut, hrest⟩ n k
    cases n with
    | zero => exact hcut k
    | succ n => exact hrest n k

/-- Two programs one after the other. -/
theorem AtEveryCrash.append (h : AtEveryCrash step cut Q s es)
    (hrest : AtEveryCrash step cut Q (run step s es) fs) :
    AtEveryCrash step cut Q s (es ++ fs) := by
  induction es generalizing s with
  | nil => exact hrest
  | cons e es ih =>
    obtain ⟨hcut, htail⟩ := atEveryCrash_cons.mp h
    exact atEveryCrash_cons.mpr ⟨hcut, ih htail hrest⟩

theorem AtEveryCrash.mono (hQR : ∀ s, Q s → R s) (h : AtEveryCrash step cut Q s es) :
    AtEveryCrash step cut R s es :=
  fun n k => hQR _ (h n k)

/-- What holds wherever the program dies holds at its end. -/
theorem AtEveryCrash.last (h : AtEveryCrash step cut Q s es) : Q (run step s es) := by
  have hend := h es.length 0
  rwa [crashAfter_of_length_le step cut le_rfl] at hend

/-! ## Programs as parts of larger ones -/

section Embedded

variable {τ δ : Type*} {step' : τ → δ → τ} {cut' : τ → δ → Nat → τ} {put : σ → τ} {mark : ε → δ}

theorem run_map (hstep : ∀ s e, step' (put s) (mark e) = put (step s e)) (s : σ) (es : List ε) :
    run step' (put s) (es.map mark) = put (run step s es) := by
  induction es generalizing s with
  | nil => rfl
  | cons e es ih => rw [List.map_cons, run_cons, run_cons, hstep, ih]

theorem crashAfter_map (hstep : ∀ s e, step' (put s) (mark e) = put (step s e))
    (hcut : ∀ s e k, cut' (put s) (mark e) k = put (cut s e k)) (s : σ) (es : List ε) (n k : Nat) :
    crashAfter step' cut' (put s) (es.map mark) n k = put (crashAfter step cut s es n k) := by
  induction es generalizing s n with
  | nil => rfl
  | cons e es ih =>
    cases n with
    | zero => exact hcut s e k
    | succ n =>
      rw [List.map_cons, crashAfter, hstep, ih]
      rfl

/-- A program on a part of the state that dies leaves the rest of it alone. -/
theorem AtEveryCrash.map {Q : τ → Prop} (hstep : ∀ s e, step' (put s) (mark e) = put (step s e))
    (hcut : ∀ s e k, cut' (put s) (mark e) k = put (cut s e k))
    (h : AtEveryCrash step cut (fun s => Q (put s)) s es) :
    AtEveryCrash step' cut' Q (put s) (es.map mark) := by
  intro n k
  rw [crashAfter_map hstep hcut]
  exact h n k

end Embedded

end EventRecorder.Theory
