/-
# Runs of a system that takes one step for each event

A system is a function `step : σ → ε → σ`; a run from `s` takes a finite list of
events and ends in `es.foldl step s`.  `Throughout step P s es` says that every
state of the run satisfies `P`, `Along step C s es` that every event meets the
condition `C` in the state it finds.

`throughout_of_along` is the induction that invariants of conditioned runs use;
`throughout_iff_along` makes the condition exact: a property that holds in every
state of a run just when every event of it meets `C`.
-/

import Mathlib.Data.List.Basic

namespace Run

variable {σ ε : Type*} {step : σ → ε → σ}

/-- Every state of the run from `s`, the first and the last included, satisfies `P`. -/
def Throughout (step : σ → ε → σ) (P : σ → Prop) : σ → List ε → Prop
  | s, [] => P s
  | s, e :: es => P s ∧ Throughout step P (step s e) es

/-- Every event of the run from `s` meets `C` in the state it finds. -/
def Along (step : σ → ε → σ) (C : σ → ε → Prop) : σ → List ε → Prop
  | _, [] => True
  | s, e :: es => C s e ∧ Along step C (step s e) es

instance decidableThroughout {P : σ → Prop} [DecidablePred P] :
    ∀ s (es : List ε), Decidable (Throughout step P s es)
  | s, [] => inferInstanceAs (Decidable (P s))
  | s, e :: es =>
    have : Decidable (Throughout step P (step s e) es) := decidableThroughout (step s e) es
    inferInstanceAs (Decidable (P s ∧ Throughout step P (step s e) es))

instance decidableAlong {C : σ → ε → Prop} [∀ s e, Decidable (C s e)] :
    ∀ s (es : List ε), Decidable (Along step C s es)
  | _, [] => inferInstanceAs (Decidable True)
  | s, e :: es =>
    have : Decidable (Along step C (step s e) es) := decidableAlong (step s e) es
    inferInstanceAs (Decidable (C s e ∧ Along step C (step s e) es))

/-- The last state of a run. -/
theorem Throughout.last {P : σ → Prop} : ∀ {s : σ} {es : List ε}, Throughout step P s es → P (es.foldl step s)
  | _, [], h => h
  | _, _ :: _, h => h.2.last

/-- A run that ends badly. -/
theorem not_throughout_of_last {P : σ → Prop} {s : σ} {es : List ε} (h : ¬ P (es.foldl step s)) :
    ¬ Throughout step P s es := fun hes => h hes.last

theorem Throughout.head {P : σ → Prop} {s : σ} {es : List ε} (h : Throughout step P s es) : P s := by
  cases es with
  | nil => exact h
  | cons e es => exact h.1

/-- The rest of a run. -/
theorem Throughout.of_append {P : σ → Prop} {s : σ} {es es' : List ε} (h : Throughout step P s (es ++ es')) :
    Throughout step P (es.foldl step s) es' := by
  induction es generalizing s with
  | nil => exact h
  | cons e es ih => exact ih h.2

/-- What holds throughout a run holds after each first part of it. -/
theorem throughout_iff_prefix {P : σ → Prop} {s : σ} {es : List ε} :
    Throughout step P s es ↔ ∀ es', es' <+: es → P (es'.foldl step s) := by
  induction es generalizing s with
  | nil =>
    refine ⟨fun h es' hes' => ?_, fun h => h [] List.nil_prefix⟩
    rw [List.prefix_nil.1 hes']
    exact h
  | cons e es ih =>
    constructor
    · rintro ⟨hs, hrest⟩ es' hes'
      cases es' with
      | nil => exact hs
      | cons e' es' =>
        obtain ⟨rfl, htail⟩ := List.cons_prefix_cons.1 hes'
        exact ih.1 hrest es' htail
    · intro h
      exact ⟨h [] List.nil_prefix, ih.2 fun es' hes' => h (e :: es') (List.cons_prefix_cons.2 ⟨rfl, hes'⟩)⟩

/-- **The invariant rule.**  What holds at the start and is kept by every event
that meets `C` holds throughout a run along `C`. -/
theorem throughout_of_along {C : σ → ε → Prop} {I : σ → Prop}
    (hstep : ∀ s e, I s → C s e → I (step s e)) :
    ∀ {s : σ} {es : List ε}, I s → Along step C s es → Throughout step I s es
  | _, [], hs, _ => hs
  | _, _ :: _, hs, h => ⟨hs, throughout_of_along hstep (hstep _ _ hs h.1) h.2⟩

theorem Throughout.mono {P Q : σ → Prop} (hPQ : ∀ s, P s → Q s) :
    ∀ {s : σ} {es : List ε}, Throughout step P s es → Throughout step Q s es
  | _, [], h => hPQ _ h
  | _, _ :: _, h => ⟨hPQ _ h.1, h.2.mono hPQ⟩

/-- **The exact condition of a property of runs**, of those along `D`.  If an
invariant `I` that implies `P` is kept by the events that meet `C`, and from a
state in `I` every other event breaks `P`, then `P` holds throughout a run just
when the run is along `C`. -/
theorem throughout_iff_along_in {C D : σ → ε → Prop} {I P : σ → Prop} (hIP : ∀ s, I s → P s)
    (hstep : ∀ s e, D s e → I s → C s e → I (step s e))
    (hbreak : ∀ s e, D s e → I s → ¬ C s e → ¬ P (step s e)) {s : σ} (hs : I s) {es : List ε} (hes : Along step D s es) :
    Throughout step P s es ↔ Along step C s es := by
  induction es generalizing s with
  | nil => exact ⟨fun _ => trivial, fun _ => hIP s hs⟩
  | cons e es ih =>
    obtain ⟨he, hrest⟩ := hes
    constructor
    · rintro ⟨_, h⟩
      have hC : C s e := by
        by_contra hn
        exact hbreak s e he hs hn h.head
      exact ⟨hC, (ih (hstep s e he hs hC) hrest).1 h⟩
    · rintro ⟨hC, h⟩
      exact ⟨hIP s hs, (ih (hstep s e he hs hC) hrest).2 h⟩

theorem along_of_forall {D : ε → Prop} : ∀ {s : σ} {es : List ε}, (∀ e ∈ es, D e) → Along step (fun _ => D) s es
  | _, [], _ => trivial
  | _, e :: _, h => ⟨h e List.mem_cons_self, along_of_forall fun d hd => h d (List.mem_cons_of_mem e hd)⟩

/-- The exact condition, of events in `D`. -/
theorem throughout_iff_along_of {C : σ → ε → Prop} {I P : σ → Prop} {D : ε → Prop} (hIP : ∀ s, I s → P s)
    (hstep : ∀ s e, D e → I s → C s e → I (step s e))
    (hbreak : ∀ s e, D e → I s → ¬ C s e → ¬ P (step s e)) {s : σ} (hs : I s) (es : List ε) (hes : ∀ e ∈ es, D e) :
    Throughout step P s es ↔ Along step C s es :=
  throughout_iff_along_in (D := fun _ => D) hIP hstep hbreak hs (along_of_forall hes)

/-- The exact condition, of any events. -/
theorem throughout_iff_along {C : σ → ε → Prop} {I P : σ → Prop} (hIP : ∀ s, I s → P s)
    (hstep : ∀ s e, I s → C s e → I (step s e))
    (hbreak : ∀ s e, I s → ¬ C s e → ¬ P (step s e)) {s : σ} (hs : I s) (es : List ε) :
    Throughout step P s es ↔ Along step C s es :=
  throughout_iff_along_of (D := fun _ => True) hIP (fun s e _ => hstep s e) (fun s e _ => hbreak s e) hs es
    fun _ _ => trivial

/-- Two conditions that agree on an invariant agree along every run. -/
theorem along_congr {C D : σ → ε → Prop} {I : σ → Prop} (hstep : ∀ s e, I s → I (step s e))
    (hCD : ∀ s e, I s → (C s e ↔ D s e)) {s : σ} (hs : I s) (es : List ε) :
    Along step C s es ↔ Along step D s es := by
  induction es generalizing s with
  | nil => exact Iff.rfl
  | cons e es ih => exact and_congr (hCD s e hs) (ih (hstep s e hs))

/-- A run of a relation, whose steps have the labels of the list. -/
def Path (R : σ → ε → σ → Prop) : σ → List ε → σ → Prop
  | s, [], t => s = t
  | s, e :: es, t => ∃ r, R s e r ∧ Path R r es t

theorem Path.snoc {R : σ → ε → σ → Prop} {e : ε} {t r : σ} :
    ∀ {s : σ} {es : List ε}, Path R s es t → R t e r → Path R s (es ++ [e]) r
  | _, [], rfl, hr => ⟨r, hr, rfl⟩
  | _, _ :: _, ⟨q, hq, h⟩, hr => ⟨q, hq, h.snoc hr⟩

/-- The states reached from `init`. -/
def Reachable (step : σ → ε → σ) (init : σ → Prop) (s : σ) : Prop :=
  ∃ s₀, init s₀ ∧ ∃ es : List ε, es.foldl step s₀ = s

/-- A run from a state that is reached. -/
theorem Reachable.foldl {init : σ → Prop} {s : σ} (h : Reachable step init s) (es : List ε) :
    Reachable step init (es.foldl step s) := by
  obtain ⟨s₀, h₀, es₀, rfl⟩ := h
  exact ⟨s₀, h₀, es₀ ++ es, List.foldl_append⟩

theorem foldl_inv {I : σ → Prop} (hstep : ∀ s e, I s → I (step s e)) :
    ∀ (es : List ε) {s : σ}, I s → I (es.foldl step s)
  | [], _, hs => hs
  | e :: es, s, hs => foldl_inv hstep es (hstep s e hs)

/-- **The measure rule.**  A run whose events each lower a measure has no more events than the
measure says at its beginning. -/
theorem Along.length_le {μ : σ → ℕ} {s : σ} {es : List ε} (h : Along step (fun s e => μ (step s e) < μ s) s es) :
    es.length ≤ μ s := by
  induction es generalizing s with
  | nil => exact Nat.zero_le _
  | cons e es ih =>
    have hrest := ih h.2
    have hlt : μ (step s e) < μ s := h.1
    rw [List.length_cons]
    omega

/-- A condition that an invariant makes stronger. -/
theorem Along.mono {C D : σ → ε → Prop} {I : σ → Prop} (hstep : ∀ s e, I s → C s e → I (step s e))
    (hCD : ∀ s e, I s → C s e → D s e) : ∀ {s : σ} {es : List ε}, I s → Along step C s es → Along step D s es
  | _, [], _, _ => trivial
  | _, _ :: _, hs, h => ⟨hCD _ _ hs h.1, Along.mono hstep hCD (hstep _ _ hs h.1) h.2⟩

/-! ### What the events report -/

/-- What the events of the run from `s` report, in order. -/
def reports {δ : Type*} (step : σ → ε → σ) (report : σ → ε → Option δ) : σ → List ε → List δ
  | _, [] => []
  | s, e :: es => (report s e).toList ++ reports step report (step s e) es

theorem reports_append {δ : Type*} {report : σ → ε → Option δ} (s : σ) (es es' : List ε) :
    reports step report s (es ++ es') = reports step report s es ++ reports step report (es.foldl step s) es' := by
  induction es generalizing s with
  | nil => rfl
  | cons e es ih => rw [List.cons_append, reports, reports, ih, List.append_assoc, List.foldl_cons]

/-- **The replay rule.**  If, under an invariant, each event does to a part of the state what it
reports, and nothing where it reports nothing, a run does to that part what its reports do in
turn. -/
theorem replay_in {δ τ : Type*} {report : σ → ε → Option δ} {part : σ → τ} {apply : τ → δ → τ} {I : σ → Prop}
    (hinv : ∀ s e, I s → I (step s e))
    (hstep : ∀ s e, I s → part (step s e) = (report s e).elim (part s) (apply (part s))) {s : σ} (hs : I s) (es : List ε) :
    part (es.foldl step s) = (reports step report s es).foldl apply (part s) := by
  induction es generalizing s with
  | nil => rfl
  | cons e es ih =>
    rw [List.foldl_cons, ih (hinv s e hs), reports, List.foldl_append, hstep s e hs]
    cases report s e <;> rfl

theorem replay {δ τ : Type*} {report : σ → ε → Option δ} {part : σ → τ} {apply : τ → δ → τ}
    (hstep : ∀ s e, part (step s e) = (report s e).elim (part s) (apply (part s))) (s : σ) (es : List ε) :
    part (es.foldl step s) = (reports step report s es).foldl apply (part s) :=
  replay_in (I := fun _ => True) (fun _ _ _ => trivial) (fun s e _ => hstep s e) trivial es

/-- **The invariant rule for reachable states.** -/
theorem Reachable.inv {init I : σ → Prop} (hinit : ∀ s, init s → I s)
    (hstep : ∀ s e, I s → I (step s e)) {s : σ} (h : Reachable step init s) : I s := by
  obtain ⟨s₀, h₀, es, rfl⟩ := h
  exact foldl_inv hstep es (hinit s₀ h₀)

end Run
