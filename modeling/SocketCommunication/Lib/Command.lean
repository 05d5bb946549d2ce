/-
# Commands that read and write a state and may throw

Programs written in a language with exceptions are commands
`EStateM ε σ α`: they start in a state, and end in a state with a value or with
an exception, whose state is *not* rolled back.  This file is their program
logic: the weakest precondition `wp` of a command, with one rule for each
construct, the preorders a command keeps (`Keeps`), and commands that work on a
part of a larger state (`focus`).

Nothing here depends on which states, values or exceptions are meant.
-/

import Mathlib.Order.Defs.Unbundled
import Mathlib.Tactic.SplitIfs

namespace Effect

universe u

variable {ε σ τ α β : Type u}

/-- The weakest precondition: `c` started in `s` returns a value and a state in
`Q`, or throws an exception and leaves a state in `E`. -/
def wp (c : EStateM ε σ α) (Q : α → σ → Prop) (E : ε → σ → Prop) (s : σ) : Prop :=
  match c s with
  | .ok a t => Q a t
  | .error e t => E e t

/-- A specification of a run can be computed. -/
instance decidableWp {c : EStateM ε σ α} {Q : α → σ → Prop} {E : ε → σ → Prop} {s : σ}
    [∀ a t, Decidable (Q a t)] [∀ e t, Decidable (E e t)] : Decidable (wp c Q E s) :=
  match h : c s with
  | .ok a t => decidable_of_iff (Q a t) (by rw [wp, h])
  | .error e t => decidable_of_iff (E e t) (by rw [wp, h])

section Rules

variable {Q : α → σ → Prop} {E : ε → σ → Prop} {s : σ}

@[simp] theorem wp_pure (a : α) : wp (pure a : EStateM ε σ α) Q E s ↔ Q a s := Iff.rfl

@[simp] theorem wp_throw (e : ε) : wp (throw e : EStateM ε σ α) Q E s ↔ E e s := Iff.rfl

@[simp] theorem wp_bind (c : EStateM ε σ β) (f : β → EStateM ε σ α) :
    wp (c >>= f) Q E s ↔ wp c (fun b t => wp (f b) Q E t) E s := by
  change wp (EStateM.bind c f) Q E s ↔ _
  unfold wp EStateM.bind
  cases c s <;> rfl

@[simp] theorem wp_map (c : EStateM ε σ β) (f : β → α) :
    wp (f <$> c) Q E s ↔ wp c (fun b => Q (f b)) E s := by
  change wp (EStateM.map f c) Q E s ↔ _
  unfold wp EStateM.map
  cases c s <;> rfl

@[simp] theorem wp_get {Q : σ → σ → Prop} : wp (get : EStateM ε σ σ) Q E s ↔ Q s s := Iff.rfl

@[simp] theorem wp_set {Q : PUnit → σ → Prop} (t : σ) :
    wp (set t : EStateM ε σ PUnit) Q E s ↔ Q ⟨⟩ t := Iff.rfl

@[simp] theorem wp_modify {Q : PUnit → σ → Prop} (f : σ → σ) :
    wp (modify f : EStateM ε σ PUnit) Q E s ↔ Q ⟨⟩ (f s) := Iff.rfl

/-- The handler starts in the state the exception left. -/
@[simp] theorem wp_tryCatch (c : EStateM ε σ α) (h : ε → EStateM ε σ α) :
    wp (tryCatch c h) Q E s ↔ wp c Q (fun e t => wp (h e) Q E t) s := by
  change wp (EStateM.tryCatch c h) Q E s ↔ _
  unfold wp EStateM.tryCatch
  cases hc : c s <;> rfl

@[simp] theorem wp_ite (p : Prop) [Decidable p] (c d : EStateM ε σ α) :
    wp (if p then c else d) Q E s ↔ (p → wp c Q E s) ∧ (¬ p → wp d Q E s) := by
  split_ifs with h <;> simp [h]

/-- `if (p) { c }`. -/
def onlyIf (p : Prop) [Decidable p] (c : EStateM ε σ PUnit) : EStateM ε σ PUnit :=
  if p then c else pure ⟨⟩

@[simp] theorem wp_onlyIf {Q : PUnit → σ → Prop} (p : Prop) [Decidable p] (c : EStateM ε σ PUnit) :
    wp (onlyIf p c) Q E s ↔ (p → wp c Q E s) ∧ (¬ p → Q ⟨⟩ s) :=
  wp_ite ..

theorem wp_mono {c : EStateM ε σ α} {Q' : α → σ → Prop} {E' : ε → σ → Prop}
    (hQ : ∀ a t, Q a t → Q' a t) (hE : ∀ e t, E e t → E' e t) (h : wp c Q E s) :
    wp c Q' E' s := by
  unfold wp at h ⊢
  cases hc : c s with
  | ok a t => rw [hc] at h; exact hQ a t h
  | error e t => rw [hc] at h; exact hE e t h

theorem wp_of_forall {c : EStateM ε σ α} (hQ : ∀ a t, Q a t) (hE : ∀ e t, E e t) : wp c Q E s := by
  unfold wp
  cases c s with
  | ok a t => exact hQ a t
  | error e t => exact hE e t

theorem wp_and {c : EStateM ε σ α} {Q' : α → σ → Prop} {E' : ε → σ → Prop}
    (h : wp c Q E s) (h' : wp c Q' E' s) :
    wp c (fun a t => Q a t ∧ Q' a t) (fun e t => E e t ∧ E' e t) s := by
  unfold wp at h h' ⊢
  cases hc : c s <;> rw [hc] at h h' <;> exact ⟨h, h'⟩

/-- Two specifications of one run do not exclude each other. -/
theorem wp_exclude {c : EStateM ε σ α} {Q' : α → σ → Prop} {E' : ε → σ → Prop} (h : wp c Q E s) (h' : wp c Q' E' s)
    (hQ : ∀ a t, Q a t → Q' a t → False) (hE : ∀ e t, E e t → E' e t → False) : False := by
  have hboth := wp_and h h'
  unfold wp at hboth
  cases hc : c s with
  | ok a t => rw [hc] at hboth; exact hQ a t hboth.1 hboth.2
  | error e t => rw [hc] at hboth; exact hE e t hboth.1 hboth.2

/-- What a precondition says of a run that returned. -/
theorem wp_ok {c : EStateM ε σ α} {a : α} {t : σ} (h : wp c Q E s) (hc : c s = .ok a t) :
    Q a t := by
  unfold wp at h; rwa [hc] at h

/-- The precondition of a run whose outcome is known. -/
theorem wp_of_ok {c : EStateM ε σ α} {a : α} {t : σ} (hc : c s = .ok a t) : wp c Q E s ↔ Q a t := by
  rw [wp, hc]

theorem wp_of_error {c : EStateM ε σ α} {e : ε} {t : σ} (hc : c s = .error e t) :
    wp c Q E s ↔ E e t := by
  rw [wp, hc]

theorem wp_iff_run {c : EStateM ε σ α} :
    wp c Q E s ↔ (∀ a t, c s = .ok a t → Q a t) ∧ ∀ e t, c s = .error e t → E e t := by
  cases hc : c s with
  | ok a t => simp [wp_of_ok hc]
  | error e t => simp [wp_of_error hc]

/-- A command that never throws returns. -/
theorem wp_returns {c : EStateM ε σ α} (h : wp c Q (fun _ _ => False) s) :
    ∃ a t, c s = .ok a t ∧ Q a t := by
  unfold wp at h
  cases hc : c s with
  | ok a t => rw [hc] at h; exact ⟨a, t, rfl, h⟩
  | error e t => rw [hc] at h; exact h.elim

theorem wp_error {c : EStateM ε σ α} {e : ε} {t : σ} (h : wp c Q E s) (hc : c s = .error e t) :
    E e t := by
  unfold wp at h; rwa [hc] at h

end Rules

/-! ### The final state -/

/-- The state a command leaves, whether it returned or threw. -/
def after (c : EStateM ε σ α) (s : σ) : σ :=
  match c s with
  | .ok _ t => t
  | .error _ t => t

theorem wp_iff_after {c : EStateM ε σ α} {P : σ → Prop} {s : σ} :
    wp c (fun _ => P) (fun _ => P) s ↔ P (after c s) := by
  unfold wp after
  cases c s <;> rfl

/-! ### Commands that keep a relation -/

/-- Every run of `c` ends in a state related by `R` to the one it started in. -/
def Keeps (R : σ → σ → Prop) (c : EStateM ε σ α) : Prop :=
  ∀ s, wp c (fun _ => R s) (fun _ => R s) s

section Keeps

variable {R : σ → σ → Prop} [IsPreorder σ R]

theorem Keeps.after {R : σ → σ → Prop} {c : EStateM ε σ α} (h : Keeps R c) (s : σ) :
    R s (after c s) := wp_iff_after.1 (h s)

theorem keeps_pure (a : α) : Keeps R (pure a : EStateM ε σ α) := fun s => refl_of R s

theorem keeps_throw (e : ε) : Keeps R (throw e : EStateM ε σ α) := fun s => refl_of R s

theorem keeps_get : Keeps R (get : EStateM ε σ σ) := fun s => refl_of R s

theorem keeps_modify {R : σ → σ → Prop} {f : σ → σ} (h : ∀ s, R s (f s)) :
    Keeps R (modify f : EStateM ε σ PUnit) := h

theorem keeps_bind {c : EStateM ε σ β} {f : β → EStateM ε σ α} (hc : Keeps R c)
    (hf : ∀ b, Keeps R (f b)) : Keeps R (c >>= f) := by
  intro s
  rw [wp_bind]
  refine wp_mono (fun b t hst => ?_) (fun _ _ h => h) (hc s)
  exact wp_mono (fun _ _ h => trans_of R hst h) (fun _ _ h => trans_of R hst h) (hf b t)

theorem keeps_tryCatch {c : EStateM ε σ α} {h : ε → EStateM ε σ α} (hc : Keeps R c)
    (hh : ∀ e, Keeps R (h e)) : Keeps R (tryCatch c h) := by
  intro s
  rw [wp_tryCatch]
  refine wp_mono (fun _ _ h => h) (fun e t hst => ?_) (hc s)
  exact wp_mono (fun _ _ h => trans_of R hst h) (fun _ _ h => trans_of R hst h) (hh e t)

theorem keeps_map {R : σ → σ → Prop} {c : EStateM ε σ β} {f : β → α} : Keeps R (f <$> c) ↔ Keeps R c :=
  forall_congr' fun _ => wp_map c f

theorem keeps_ite {R : σ → σ → Prop} {p : Prop} [Decidable p] {c d : EStateM ε σ α}
    (hc : p → Keeps R c) (hd : ¬ p → Keeps R d) : Keeps R (if p then c else d) := by
  split_ifs with h
  · exact hc h
  · exact hd h

/-- A weaker relation is kept as well. -/
theorem Keeps.mono {R R' : σ → σ → Prop} {c : EStateM ε σ α} (h : Keeps R c)
    (hR : ∀ s t, R s t → R' s t) : Keeps R' c := fun s =>
  wp_mono (fun _ _ => hR s _) (fun _ _ => hR s _) (h s)

end Keeps

/-! ### Exceptions from pure code -/

/-- A pure computation that may throw, as a command. -/
def orThrow : Except ε α → EStateM ε σ α
  | .ok a => pure a
  | .error e => throw e

@[simp] theorem orThrow_ok (a : α) : (orThrow (.ok a) : EStateM ε σ α) = pure a := rfl

@[simp] theorem orThrow_error (e : ε) : (orThrow (.error e) : EStateM ε σ α) = throw e := rfl

theorem wp_orThrow {x : Except ε α} {Q : α → σ → Prop} {E : ε → σ → Prop} {s : σ} :
    wp (orThrow x) Q E s ↔ (∀ a, x = .ok a → Q a s) ∧ ∀ e, x = .error e → E e s := by
  cases x <;> simp

theorem keeps_orThrow {R : σ → σ → Prop} [IsPreorder σ R] (x : Except ε α) :
    Keeps R (orThrow x : EStateM ε σ α) := by
  cases x with
  | ok a => exact keeps_pure a
  | error e => exact keeps_throw e

theorem keeps_mapM {R : σ → σ → Prop} [IsPreorder σ R] {c : α → EStateM ε σ β} (hc : ∀ a, Keeps R (c a)) (l : List α) :
    Keeps R (l.mapM c) := by
  induction l with
  | nil =>
    rw [List.mapM_nil]
    exact keeps_pure _
  | cons a l ih =>
    rw [List.mapM_cons]
    exact keeps_bind (hc a) fun _ => keeps_bind ih fun _ => keeps_pure _

/-- What follows a pure computation may use its value. -/
theorem keeps_orThrow_bind {R : σ → σ → Prop} [IsPreorder σ R] {x : Except ε β} {f : β → EStateM ε σ α}
    (hf : ∀ b, x = .ok b → Keeps R (f b)) : Keeps R (do let b ← orThrow x; f b) := by
  cases x with
  | ok b => exact hf b rfl
  | error e => exact keeps_throw e

/-! ### Working on a part of the state -/

/-- Run a command on the part of the state that `get` reads and `put` writes. -/
def focus (get : σ → τ) (put : τ → σ → σ) (c : EStateM ε τ α) : EStateM ε σ α := fun s =>
  match c (get s) with
  | .ok a t => .ok a (put t s)
  | .error e t => .error e (put t s)

@[simp] theorem wp_focus {get : σ → τ} {put : τ → σ → σ} {c : EStateM ε τ α} {Q : α → σ → Prop}
    {E : ε → σ → Prop} {s : σ} :
    wp (focus get put c) Q E s ↔ wp c (fun a t => Q a (put t s)) (fun e t => E e (put t s)) (get s) := by
  unfold wp focus
  cases c (get s) <;> rfl

/-- `c` does to the part that `get` reads what `d` does, with the same value or
exception. -/
def Erases (get : σ → τ) (c : EStateM ε σ α) (d : EStateM ε τ α) : Prop :=
  ∀ (Q : α → τ → Prop) (E : ε → τ → Prop) (s : σ),
    wp c (fun a t => Q a (get t)) (fun e t => E e (get t)) s ↔ wp d Q E (get s)

theorem erases_focus {get : σ → τ} {put : τ → σ → σ} (h : ∀ t s, get (put t s) = t) (c : EStateM ε τ α) :
    Erases get (focus get put c) c := by
  intro Q E s
  simp only [wp_focus, h]

theorem erases_throw {get : σ → τ} (e : ε) : Erases get (throw e : EStateM ε σ α) (throw e) := fun _ _ _ => Iff.rfl

/-- A change of something else comes first. -/
theorem Erases.modify {get : σ → τ} {f : σ → σ} {c : EStateM ε σ α} {d : EStateM ε τ α} (h : Erases get c d)
    (hf : ∀ s, get (f s) = get s) : Erases get (do modify f; c) d := by
  intro Q E s
  rw [wp_bind, wp_modify, h, hf]

theorem Erases.tryCatch {get : σ → τ} {c : EStateM ε σ α} {d : EStateM ε τ α} {k : ε → EStateM ε σ α}
    {l : ε → EStateM ε τ α} (h : Erases get c d) (hk : ∀ e, Erases get (k e) (l e)) :
    Erases get (tryCatch c k) (tryCatch d l) := by
  intro Q E s
  rw [wp_tryCatch, wp_tryCatch, ← h]
  simp only [hk _ Q E _]

end Effect
