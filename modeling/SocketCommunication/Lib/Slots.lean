/-
# The slots of a list

A list is read at its indices: what lies in the slots when one of them was written, when
one was added at the end, and what is counted or filtered out when one is written or
taken out.
-/

import Mathlib.Data.List.Perm.Basic

namespace Slots

variable {α β : Type*} {f : α → Option β} {l : List α} {i j : ℕ} {a b c : α}

/-- A slot is written. -/
theorem getElem?_set_iff (hi : i < l.length) : (l.set i b)[j]? = some c ↔ (j = i ∧ c = b) ∨ (j ≠ i ∧ l[j]? = some c) := by
  by_cases hj : j = i
  · subst hj
    rw [List.getElem?_set_self hi, Option.some.injEq]
    constructor
    · exact fun hc => .inl ⟨rfl, hc.symm⟩
    · exact fun hc => (hc.resolve_right fun hold => hold.1 rfl).2.symm
  · rw [List.getElem?_set_ne (Ne.symm hj)]
    constructor
    · exact fun hc => .inr ⟨hj, hc⟩
    · exact fun hc => (hc.resolve_left fun hnew => hj hnew.1).2

/-- A slot is added. -/
theorem getElem?_append_iff : (l ++ [b])[j]? = some c ↔ l[j]? = some c ∨ (j = l.length ∧ c = b) := by
  rw [List.getElem?_append]
  split_ifs with hlt
  · exact (or_iff_left fun hlast => absurd hlast.1 (Nat.ne_of_lt hlt)).symm
  · rw [List.getElem?_eq_none (Nat.not_lt.1 hlt), List.getElem?_singleton]
    split_ifs with hzero
    · rw [Option.some.injEq]
      constructor
      · exact fun hc => .inr ⟨by omega, hc.symm⟩
      · exact fun hc => (hc.resolve_left fun hc => by cases hc).2.symm
    · exact iff_of_false (by simp) fun hc => hc.elim (fun hc => by cases hc) fun hlast => hzero (by omega)

theorem filterMap_set_of_eq (ha : l[i]? = some a) (h : f b = f a) : (l.set i b).filterMap f = l.filterMap f := by
  induction l generalizing i with
  | nil => rfl
  | cons c l ih =>
    cases i with
    | zero =>
      obtain rfl : c = a := Option.some.inj ha
      rw [List.set_cons_zero, List.filterMap_cons, List.filterMap_cons, h]
    | succ i => rw [List.set_cons_succ, List.filterMap_cons, List.filterMap_cons, ih ha]

/-- A value that is set is one more. -/
theorem filterMap_set_perm (ha : l[i]? = some a) (hnone : f a = none) {y : β} (hb : f b = some y) :
    (l.filterMap f ++ [y]).Perm ((l.set i b).filterMap f) := by
  induction l generalizing i with
  | nil => cases ha
  | cons c l ih =>
    cases i with
    | zero =>
      obtain rfl : c = a := Option.some.inj ha
      rw [List.set_cons_zero, List.filterMap_cons_none hnone, List.filterMap_cons_some hb]
      exact List.perm_append_singleton y _
    | succ i =>
      rw [List.set_cons_succ, List.filterMap_cons, List.filterMap_cons]
      cases f c with
      | none => exact ih ha
      | some z => exact (ih ha).cons z

/-- A slot is taken out. -/
theorem countP_eraseIdx {p : α → Bool} (ha : l[i]? = some a) :
    l.countP p = (l.eraseIdx i).countP p + if p a then 1 else 0 := by
  obtain ⟨hi, rfl⟩ := List.getElem?_eq_some_iff.1 ha
  rw [← (List.getElem_cons_eraseIdx_perm hi).countP_eq, List.countP_cons]

end Slots
