/-
# Searching a sequence

`find p l` is the place of the first occurrence of `p` in `l`, as `std::string::find`
gives it.  An occurrence stays the first one when the sequence goes on
(`find_append`), and a part of the sequence that ends before it has none.

`split p l` are the parts of `l` between the occurrences of `p`.  Where `p` does not
overlap itself, a sequence can be split at any of them (`split_append`).
-/

import Mathlib.Data.List.Infix
import Mathlib.Tactic.SplitIfs

namespace Search

variable {α : Type*} [DecidableEq α] {p l m : List α} {i : ℕ}

/-- The first place at which `p` occurs in `l`. -/
def find (p : List α) : List α → Option ℕ
  | [] => if p = [] then some 0 else none
  | c :: cs => if p <+: c :: cs then some 0 else (find p cs).map (· + 1)

/-- **What is found**: an occurrence, and none before it. -/
theorem find_eq_some_iff : find p l = some i ↔ i ≤ l.length ∧ p <+: l.drop i ∧ ∀ j < i, ¬ p <+: l.drop j := by
  induction l generalizing i with
  | nil =>
    simp only [find, List.length_nil, Nat.le_zero, List.drop_nil, List.prefix_nil]
    split_ifs with hp
    · constructor
      · intro h
        cases h
        exact ⟨rfl, hp, fun j hj => absurd hj j.not_lt_zero⟩
      · rintro ⟨rfl, -⟩
        rfl
    · exact iff_of_false (fun h => nomatch h) fun h => hp h.2.1
  | cons c cs ih =>
    rw [find]
    split_ifs with hp
    · constructor
      · intro h
        cases h
        exact ⟨Nat.zero_le _, hp, fun j hj => absurd hj j.not_lt_zero⟩
      · rintro ⟨-, -, hno⟩
        cases i with
        | zero => rfl
        | succ i => exact absurd hp (hno 0 i.succ_pos)
    · cases i with
      | zero => exact iff_of_false (by simp) fun h => hp h.2.1
      | succ i =>
        rw [Option.map_eq_some_iff]
        simp only [Nat.add_right_cancel_iff, exists_eq_right, ih, List.length_cons, Nat.add_le_add_iff_right,
          List.drop_succ_cons]
        refine and_congr_right fun _ => and_congr_right fun _ => ⟨fun h j hj => ?_, fun h j hj => h (j + 1) (by omega)⟩
        cases j with
        | zero => exact hp
        | succ j => exact h j (by omega)

/-- What occurs is found. -/
theorem find_isSome_of_isPrefix {j : ℕ} (hj : j ≤ l.length) (h : p <+: l.drop j) : ∃ i ≤ j, find p l = some i := by
  induction j using Nat.strong_induction_on with
  | _ j ih =>
    by_cases hearlier : ∃ k < j, p <+: l.drop k
    · obtain ⟨k, hk, hp⟩ := hearlier
      obtain ⟨i, hi, hf⟩ := ih k hk (by omega) hp
      exact ⟨i, by omega, hf⟩
    · exact ⟨j, Nat.le_refl j, find_eq_some_iff.2 ⟨hj, h, fun k hk hp => hearlier ⟨k, hk, hp⟩⟩⟩

theorem find_isSome_of_isInfix {a b : List α} (h : l = a ++ p ++ b) : ∃ i ≤ a.length, find p l = some i := by
  refine find_isSome_of_isPrefix ?_ ?_
  · rw [h, List.append_assoc, List.length_append]
    omega
  · rw [h, List.append_assoc, List.drop_left]
    exact List.prefix_append p b

/-- An occurrence ends within the sequence. -/
theorem length_of_find (h : find p l = some i) : i + p.length ≤ l.length := by
  obtain ⟨hi, hp, -⟩ := find_eq_some_iff.1 h
  have hlen := hp.length_le
  rw [List.length_drop] at hlen
  omega

/-- What is found stays the first occurrence when more follows. -/
theorem find_append (h : find p l = some i) (m : List α) : find p (l ++ m) = some i := by
  have hlen := length_of_find h
  obtain ⟨hi, hp, hno⟩ := find_eq_some_iff.1 h
  refine find_eq_some_iff.2 ⟨by rw [List.length_append]; omega, ?_, fun j hj hocc => hno j hj ?_⟩
  · rw [List.drop_append_of_le_length hi]
    exact hp.trans (List.prefix_append _ _)
  · rw [List.drop_append_of_le_length (by omega)] at hocc
    refine List.prefix_of_prefix_length_le hocc (List.prefix_append _ _) ?_
    rw [List.length_drop]
    omega

/-- A part of the sequence that ends before the first occurrence does has none. -/
theorem find_eq_none_of_isPrefix (h : find p l = some i) (hm : m <+: l) (hlen : m.length < i + p.length) :
    find p m = none := by
  cases hf : find p m with
  | none => rfl
  | some j =>
    obtain ⟨b, rfl⟩ := hm
    have hsame := Option.some.inj ((find_append hf b).symm.trans h)
    have hend := length_of_find hf
    omega

/-- What is found within the first part is found without the second. -/
theorem find_of_append (h : find p (l ++ m) = some i) (hlen : i + p.length ≤ l.length) : find p l = some i := by
  obtain ⟨-, hp, -⟩ := find_eq_some_iff.1 h
  rw [List.drop_append_of_le_length (by omega)] at hp
  have hocc : p <+: l.drop i := by
    refine List.prefix_of_prefix_length_le hp (List.prefix_append _ _) ?_
    rw [List.length_drop]
    omega
  obtain ⟨j, -, hj⟩ := find_isSome_of_isPrefix (by omega) hocc
  rw [hj, Option.some.inj ((find_append hj m).symm.trans h)]

/-! ### Splitting -/

/-- The parts of a sequence, when `skip` symbols of an occurrence of `p` are still to be
passed over. -/
def splitFrom (p : List α) : ℕ → List α → List (List α)
  | _, [] => [[]]
  | skip + 1, _ :: cs => splitFrom p skip cs
  | 0, c :: cs =>
    if p <+: c :: cs then [] :: splitFrom p (p.length - 1) cs else (splitFrom p 0 cs).modifyHead (c :: ·)

/-- The parts of `l` between the occurrences of `p`. -/
def split (p l : List α) : List (List α) := splitFrom p 0 l

theorem splitFrom_eq (p : List α) (skip : ℕ) (l : List α) : splitFrom p skip l = split p (l.drop skip) := by
  induction l generalizing skip with
  | nil =>
    rw [List.drop_nil, split, splitFrom, splitFrom]
  | cons c cs ih =>
    cases skip with
    | zero => rfl
    | succ skip => rw [splitFrom, ih, List.drop_succ_cons]

theorem split_of_find_none (h : find p l = none) : split p l = [l] := by
  induction l with
  | nil => rfl
  | cons c cs ih =>
    rw [find] at h
    split_ifs at h with hp
    have hcs : split p cs = [cs] := ih (Option.map_eq_none_iff.1 h)
    rw [split, splitFrom, if_neg hp, ← split, hcs]
    rfl

/-- **The first part** ends at the first occurrence, and the others come after it. -/
theorem split_of_find (hp : p ≠ []) (h : find p l = some i) :
    split p l = l.take i :: split p (l.drop (i + p.length)) := by
  induction l generalizing i with
  | nil =>
    rw [find, if_neg hp] at h
    cases h
  | cons c cs ih =>
    rw [find] at h
    split_ifs at h with hocc
    · obtain rfl := Option.some.inj h
      obtain ⟨n, hn⟩ := Nat.exists_eq_succ_of_ne_zero (mt List.length_eq_zero_iff.1 hp)
      rw [split, splitFrom, if_pos hocc, splitFrom_eq, List.take_zero, Nat.zero_add, hn, List.drop_succ_cons]
      rfl
    · obtain ⟨j, hj, rfl⟩ := Option.map_eq_some_iff.1 h
      have hcs := ih hj
      rw [split, splitFrom, if_neg hocc, ← split, hcs, List.modifyHead_cons, List.take_succ_cons,
        Nat.add_right_comm, List.drop_succ_cons]

/-- No end of `p` is a beginning of it, so that two occurrences cannot overlap. -/
def Borderless (p : List α) : Prop := ∀ i < p.length, 0 < i → ¬ p.drop i <+: p

instance (p : List α) : Decidable (Borderless p) :=
  inferInstanceAs (Decidable (∀ i < p.length, 0 < i → ¬ p.drop i <+: p))

/-- An occurrence comes after another or ends before it. -/
theorem find_append_self (hb : Borderless p) (h : find p (l ++ p ++ m) = some i) :
    i = l.length ∨ i + p.length ≤ l.length := by
  obtain ⟨j, hj, hfind⟩ := @find_isSome_of_isInfix _ _ p (l ++ p ++ m) l m rfl
  obtain rfl := Option.some.inj (hfind.symm.trans h)
  by_contra hno
  have hlt : l.length - j < p.length := by omega
  refine hb _ hlt (by omega) ?_
  obtain ⟨-, hocc, -⟩ := find_eq_some_iff.1 hfind
  have hdrop := hocc.drop (l.length - j)
  rw [List.drop_drop, Nat.add_sub_cancel' hj, List.append_assoc, List.drop_left] at hdrop
  refine List.prefix_of_prefix_length_le hdrop (List.prefix_append _ _) ?_
  rw [List.length_drop]
  omega

/-- **A sequence is split at any occurrence.** -/
theorem split_append (hp : p ≠ []) (hb : Borderless p) (l m : List α) :
    split p (l ++ p ++ m) = split p l ++ split p m := by
  induction hn : l.length using Nat.strong_induction_on generalizing l with
  | _ n ih =>
    obtain ⟨i, -, hfind⟩ := @find_isSome_of_isInfix _ _ p (l ++ p ++ m) l m rfl
    have hpos : 0 < p.length := List.length_pos_of_ne_nil hp
    rcases find_append_self hb hfind with rfl | hi
    · have hnone : find p l = none := by
        refine find_eq_none_of_isPrefix hfind ?_ (by omega)
        rw [List.append_assoc]
        exact List.prefix_append _ _
      rw [split_of_find hp hfind, split_of_find_none hnone, ← List.length_append, List.drop_left, List.append_assoc,
        List.take_left]
      rfl
    · rw [List.append_assoc] at hfind
      have hl : find p l = some i := find_of_append hfind hi
      have hrest := ih (l.drop (i + p.length)).length (by rw [List.length_drop]; omega) _ rfl
      rw [List.append_assoc, split_of_find hp hfind, split_of_find hp hl, List.take_append_of_le_length (by omega),
        List.drop_append_of_le_length hi, ← List.append_assoc, hrest, List.cons_append]

end Search
