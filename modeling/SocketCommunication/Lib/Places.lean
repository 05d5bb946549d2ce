/-
# A register of taken places

Holders come and go, each at one place; some of them are guests, let in because
their place was free.  A register of the taken places is exact (`Exact`) when it
holds the places of the guests that are there, and there is one guest at a place.

Each rule says what one event does to an exact register: a holder comes or is let
in, a guest leaves and gives its place back.  A holder that is no guest and gives
its place back leaves an exact register just when no guest is there
(`exact_erase_iff`).
-/

import Mathlib.Data.Finset.Basic
import Mathlib.Data.Finset.Lattice.Lemmas
import Mathlib.Logic.Function.Basic

namespace Places

variable {κ α : Type*}

/-- The register holds the places of the guests that are there, one for each. -/
structure Exact (taken : Finset α) (place : κ → Option α) (guests : Finset κ) : Prop where
  taken_iff : ∀ a, a ∈ taken ↔ ∃ k ∈ guests, place k = some a
  single : ∀ k ∈ guests, ∀ k' ∈ guests, ∀ a, place k = some a → place k' = some a → k = k'

variable {taken : Finset α} {place place' : κ → Option α} {guests : Finset κ} {k : κ} {a : α}

/-- Nobody is there. -/
theorem exact_of_gone (hgone : ∀ k, place k = none) : Exact ∅ place guests where
  taken_iff a := by simp [hgone]
  single k _ k' _ a hk := by
    rw [hgone] at hk
    cases hk

/-- A holder comes, no guest yet. -/
theorem Exact.come (h : Exact taken place guests) (hk : k ∉ guests) (hplace : ∀ j, j ≠ k → place' j = place j) :
    Exact taken place' guests := by
  have hsame : ∀ j ∈ guests, place' j = place j := by
    intro j hj
    refine hplace j ?_
    rintro rfl
    exact hk hj
  refine ⟨fun b => ?_, fun i hi j hj b hib hjb => ?_⟩
  · rw [h.taken_iff]
    constructor
    · rintro ⟨j, hj, hjb⟩
      exact ⟨j, hj, (hsame j hj).trans hjb⟩
    · rintro ⟨j, hj, hjb⟩
      exact ⟨j, hj, (hsame j hj).symm.trans hjb⟩
  · rw [hsame i hi] at hib
    rw [hsame j hj] at hjb
    exact h.single i hi j hj b hib hjb

variable [DecidableEq κ] [DecidableEq α]

/-- A holder asks for its place and is let in where that is free. -/
theorem Exact.admit (h : Exact taken place guests) (hk : place k = some a) :
    Exact (insert a taken) place (guests ∪ if a ∉ taken then {k} else ∅) := by
  by_cases ha : a ∈ taken
  · rw [Finset.insert_eq_of_mem ha, if_neg (not_not.2 ha), Finset.union_empty]
    exact h
  · rw [if_pos ha]
    have hfree : ∀ j ∈ guests, place j ≠ some a := fun j hj hja => ha ((h.taken_iff a).2 ⟨j, hj, hja⟩)
    have hmem : ∀ {j}, j ∈ guests ∪ {k} ↔ j ∈ guests ∨ j = k := by
      intro j
      rw [Finset.mem_union, Finset.mem_singleton]
    refine ⟨fun b => ?_, fun i hi j hj b hib hjb => ?_⟩
    · rw [Finset.mem_insert, h.taken_iff]
      constructor
      · rintro (rfl | ⟨j, hj, hjb⟩)
        · exact ⟨k, hmem.2 (.inr rfl), hk⟩
        · exact ⟨j, hmem.2 (.inl hj), hjb⟩
      · rintro ⟨j, hj, hjb⟩
        rcases hmem.1 hj with hj | rfl
        · exact .inr ⟨j, hj, hjb⟩
        · exact .inl (Option.some.inj (hjb.symm.trans hk))
    · rcases hmem.1 hi with hi' | hik <;> rcases hmem.1 hj with hj' | hjk
      · exact h.single i hi' j hj' b hib hjb
      · rw [hjk, hk] at hjb
        exact absurd (hib.trans hjb.symm) (hfree i hi')
      · rw [hik, hk] at hib
        exact absurd (hjb.trans hib.symm) (hfree j hj')
      · rw [hik, hjk]

/-- A guest leaves and gives its place back. -/
theorem Exact.leave (h : Exact taken place guests) (hg : k ∈ guests) (hk : place k = some a) :
    Exact (taken.erase a) (Function.update place k none) guests := by
  have hold : ∀ {j b}, Function.update place k none j = some b → j ≠ k ∧ place j = some b := by
    intro j b hj
    by_cases hjk : j = k
    · rw [hjk, Function.update_self] at hj
      cases hj
    · rw [Function.update_of_ne hjk] at hj
      exact ⟨hjk, hj⟩
  refine ⟨fun b => ?_, fun i hi j hj b hib hjb => h.single i hi j hj b (hold hib).2 (hold hjb).2⟩
  rw [Finset.mem_erase, h.taken_iff]
  constructor
  · rintro ⟨hne, j, hj, hjb⟩
    have hjk : j ≠ k := by
      rintro rfl
      exact hne (Option.some.inj (hjb.symm.trans hk))
    exact ⟨j, hj, (Function.update_of_ne hjk _ _).trans hjb⟩
  · rintro ⟨j, hj, hjb⟩
    obtain ⟨hjk, hjb⟩ := hold hjb
    refine ⟨?_, j, hj, hjb⟩
    rintro rfl
    exact hjk (h.single j hj k hg b hjb hk)

/-- **A holder that is no guest gives a place back rightly just when no guest is there.** -/
theorem exact_erase_iff (h : Exact taken place guests) (hg : k ∉ guests) :
    Exact (taken.erase a) (Function.update place k none) guests ↔ ∀ j ∈ guests, place j ≠ some a := by
  constructor
  · intro herased j hj hja
    have hjk : j ≠ k := by
      rintro rfl
      exact hg hj
    exact Finset.notMem_erase a taken ((herased.taken_iff a).2 ⟨j, hj, (Function.update_of_ne hjk _ _).trans hja⟩)
  · intro hfree
    have ha : a ∉ taken := fun ha => by
      obtain ⟨j, hj, hja⟩ := (h.taken_iff a).1 ha
      exact hfree j hj hja
    rw [Finset.erase_eq_of_notMem ha]
    exact h.come hg fun j hj => Function.update_of_ne hj _ _

end Places
