/-
# Rows of a table

A table is the list of its rows; `UPDATE … SET f WHERE p` maps the rows that
satisfy `p`, `DELETE` filters them out, `INSERT` adds a row at the end, and a
key is a function of the row whose values are distinct.  What the three
statements do to the rows, and to the values of a column they do not write.
-/

import Mathlib.Data.List.Forall2
import Mathlib.Data.List.Nodup

namespace Rows

variable {ρ κ : Type*} {p : ρ → Prop} [DecidablePred p] {f : ρ → ρ} {key : ρ → κ} {l : List ρ}

/-- `UPDATE … SET f WHERE p`. -/
def update (p : ρ → Prop) [DecidablePred p] (f : ρ → ρ) (l : List ρ) : List ρ :=
  l.map fun r => if p r then f r else r

/-- `DELETE … WHERE p`. -/
def delete (p : ρ → Prop) [DecidablePred p] (l : List ρ) : List ρ := l.filter fun r => ¬ p r

/-- A column that `f` does not write keeps its values. -/
theorem map_update (h : ∀ r, p r → key (f r) = key r) : (update p f l).map key = l.map key := by
  rw [update, List.map_map]
  refine List.map_congr_left fun r _ => ?_
  by_cases hr : p r
  · simp [hr, h r hr]
  · simp [hr]

theorem mem_update {r : ρ} : r ∈ update p f l ↔ ∃ q ∈ l, (if p q then f q else q) = r :=
  List.mem_map

/-- The rows that `p` does not select are still there. -/
theorem mem_update_of_not {r : ρ} (hr : r ∈ l) (hp : ¬ p r) : r ∈ update p f l :=
  mem_update.2 ⟨r, hr, if_neg hp⟩

theorem forall_mem_update_iff {P : ρ → Prop} :
    (∀ r ∈ update p f l, P r) ↔ ∀ r ∈ l, (p r → P (f r)) ∧ (¬ p r → P r) := by
  simp only [mem_update, forall_exists_index, and_imp, forall_apply_eq_imp_iff₂]
  refine forall₂_congr fun r _ => ?_
  by_cases h : p r <;> simp [h]

/-- What holds of the rows and of the new values holds after the update. -/
theorem forall_mem_update {P : ρ → Prop} (hl : ∀ r ∈ l, P r) (hf : ∀ r ∈ l, p r → P (f r)) :
    ∀ r ∈ update p f l, P r :=
  forall_mem_update_iff.2 fun r hr => ⟨hf r hr, fun _ => hl r hr⟩

/-- Two updates that agree on the rows there are. -/
theorem update_congr {q : ρ → Prop} [DecidablePred q] {g : ρ → ρ} (hpq : ∀ r ∈ l, p r ↔ q r)
    (hfg : ∀ r ∈ l, p r → f r = g r) : update p f l = update q g l := by
  refine List.map_congr_left fun r hr => ?_
  by_cases hp : p r
  · rw [if_pos hp, if_pos ((hpq r hr).1 hp), hfg r hr hp]
  · rw [if_neg hp, if_neg fun hq => hp ((hpq r hr).2 hq)]

/-- An update that selects no row. -/
theorem update_eq_self (h : ∀ r ∈ l, ¬ p r) : update p f l = l :=
  (List.map_congr_left fun r hr => if_neg (h r hr)).trans (List.map_id' l)

/-- Two updates by one function agree just when every row is selected by both or by
neither, or is left as it is. -/
theorem update_eq_update_iff {q : ρ → Prop} [DecidablePred q] :
    update p f l = update q f l ↔ ∀ r ∈ l, (q r ↔ p r) ∨ f r = r := by
  refine List.map_inj_left.trans (forall₂_congr fun r _ => ?_)
  by_cases hp : p r
  · by_cases hq : q r <;> simp [hp, hq]
  · by_cases hq : q r <;> simp [hp, hq, eq_comm]

/-- The rows of an update beside those it is made from. -/
theorem forall₂_update {R : ρ → ρ → Prop} :
    List.Forall₂ R l (update p f l) ↔ ∀ r ∈ l, (p r → R r (f r)) ∧ (¬ p r → R r r) := by
  rw [update, List.forall₂_map_right_iff, List.forall₂_same]
  refine forall₂_congr fun r _ => ?_
  by_cases h : p r <;> simp [h]

theorem countP_update {q : ρ → Prop} [DecidablePred q] :
    (update p f l).countP q = l.countP fun r => q (if p r then f r else r) :=
  List.countP_map

/-- Fewer rows satisfy a stronger condition that one of them does not meet. -/
theorem countP_lt_countP {q q' : ρ → Bool} (hq : ∀ r ∈ l, q r → q' r) {a : ρ} (ha : a ∈ l) (ha' : q' a)
    (hna : ¬ q a) : l.countP q < l.countP q' := by
  induction l with
  | nil => exact absurd ha List.not_mem_nil
  | cons b l ih =>
    have hle : l.countP q ≤ l.countP q' :=
      List.countP_mono_left fun r hr => hq r (List.mem_cons_of_mem _ hr)
    rw [List.countP_cons, List.countP_cons]
    rcases List.mem_cons.1 ha with rfl | ha
    · rw [if_pos ha', if_neg hna]
      omega
    · have hlt := ih (fun r hr => hq r (List.mem_cons_of_mem _ hr)) ha
      have hb : (if q b then 1 else 0) ≤ if q' b then 1 else 0 := by
        split_ifs with h₁ h₂ <;> simp_all
      omega

theorem mem_delete {r : ρ} : r ∈ delete p l ↔ r ∈ l ∧ ¬ p r := by
  simp [delete]

theorem nodup_map_delete (h : (l.map key).Nodup) : ((delete p l).map key).Nodup :=
  h.sublist (List.filter_sublist.map key)

theorem nodup_map_append_singleton {r : ρ} :
    ((l ++ [r]).map key).Nodup ↔ (l.map key).Nodup ∧ key r ∉ l.map key := by
  rw [List.map_append, List.map_cons, List.map_nil, List.nodup_append]
  simp only [List.nodup_cons, List.not_mem_nil, not_false_eq_true, List.nodup_nil, and_self,
    List.mem_singleton, true_and]
  exact and_congr_right fun _ => ⟨fun h hr => h _ hr _ rfl rfl, fun h a ha b hb hab => h (hb ▸ hab ▸ ha)⟩

/-- Rows with one key are one row. -/
theorem eq_of_key_eq (h : (l.map key).Nodup) {a b : ρ} (ha : a ∈ l) (hb : b ∈ l)
    (hab : key a = key b) : a = b :=
  List.inj_on_of_nodup_map h ha hb hab

/-- Selecting by the key of a row finds that row alone. -/
theorem filter_key_eq [DecidableEq κ] (h : (l.map key).Nodup) {r : ρ} (hr : r ∈ l) :
    l.filter (fun q => key q = key r) = [r] := by
  induction l with
  | nil => exact absurd hr List.not_mem_nil
  | cons q l ih =>
    obtain ⟨hq, hl⟩ := List.nodup_cons.1 h
    rcases List.mem_cons.1 hr with rfl | hr
    · have hnone : l.filter (fun q => key q = key r) = [] := by
        refine List.filter_eq_nil_iff.2 fun a ha => ?_
        have : key a ≠ key r := fun hk => hq (hk ▸ List.mem_map_of_mem ha)
        simpa using this
      simp [hnone]
    · have hne : key q ≠ key r := fun hk => hq (hk ▸ List.mem_map_of_mem hr)
      simpa [hne] using ih hl hr

/-- Selecting by the key of a row and a condition that it meets finds that row alone. -/
theorem filter_key_and_eq [DecidableEq κ] (h : (l.map key).Nodup) {r : ρ} (hr : r ∈ l)
    {q : ρ → Prop} [DecidablePred q] (hq : q r) :
    l.filter (fun a => key a = key r ∧ q a) = [r] := by
  calc l.filter (fun a => key a = key r ∧ q a)
      = (l.filter fun a => key a = key r).filter fun a => q a := by
        rw [List.filter_filter]
        exact List.filter_congr fun a _ => by rw [← Bool.decide_and]; exact decide_eq_decide.2 and_comm
    _ = [r] := by rw [filter_key_eq h hr]; simp [hq]

end Rows
