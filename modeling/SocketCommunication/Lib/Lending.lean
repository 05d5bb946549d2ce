/-
# Things that are lent out

A lender keeps its things in a row of slots and, in a second row, which slots are
marked.  The two rows are exact for a list of what is held (`Exact`) when they are
equally long, no thing lies in two slots, and a slot is marked just when its thing
is held, by one holder.

Each rule says what one act of the lender does to exact rows: it lends the thing of
a free slot, puts a new thing into a free slot, adds a slot for a new thing that it
lends at once, or takes a thing back.
-/

import SocketCommunication.Lib.Slots
import Mathlib.Data.List.Nodup

namespace Lending

variable {κ : Type*} {things : List κ} {marks : List Bool} {held held' : List κ} {i j : ℕ} {a b : κ}

/-- The marked slots are those of the things held, one for each. -/
structure Exact (things : List κ) (marks : List Bool) (held : List κ) : Prop where
  length : marks.length = things.length
  distinct : things.Nodup
  marked_iff : ∀ (i : ℕ) a, things[i]? = some a → (marks[i]? = some true ↔ a ∈ held)
  mem : ∀ a ∈ held, a ∈ things
  single : held.Nodup

/-- Nothing is held. -/
theorem exact_replicate (h : things.Nodup) : Exact things (List.replicate things.length false) [] where
  length := List.length_replicate
  distinct := h
  marked_iff i a _ := by
    rw [List.getElem?_replicate]
    split_ifs <;> simp
  mem _ ha := absurd ha List.not_mem_nil
  single := List.nodup_nil

theorem Exact.perm (h : Exact things marks held) (hp : held.Perm held') : Exact things marks held' where
  length := h.length
  distinct := h.distinct
  marked_iff i a ha := (h.marked_iff i a ha).trans hp.mem_iff
  mem a ha := h.mem a (hp.mem_iff.2 ha)
  single := hp.nodup_iff.1 h.single

/-- A thing lies in one slot. -/
theorem slot_eq (h : things.Nodup) (hi : things[i]? = some a) (hj : things[j]? = some a) : j = i := by
  obtain ⟨hlt, -⟩ := List.getElem?_eq_some_iff.1 hj
  exact (List.getElem?_inj hlt h).1 (hj.trans hi.symm)

theorem Exact.lt_marks (h : Exact things marks held) (hi : things[i]? = some a) : i < marks.length := by
  rw [h.length]
  exact (List.getElem?_eq_some_iff.1 hi).1

/-- What is not marked is not held. -/
theorem Exact.notMem (h : Exact things marks held) (hi : things[i]? = some a) (hfree : marks[i]? = some false) :
    a ∉ held := by
  intro ha
  have hmarked := (h.marked_iff i a hi).2 ha
  rw [hfree] at hmarked
  cases hmarked

/-- Where every slot is marked everything is held. -/
theorem Exact.forall_mem (h : Exact things marks held) (hfull : false ∉ marks) : ∀ a ∈ things, a ∈ held := by
  intro a ha
  obtain ⟨i, hi⟩ := List.mem_iff_getElem?.1 ha
  have hlt := h.lt_marks hi
  have hmarked : marks[i] = true := by
    rw [← Bool.not_eq_false]
    exact fun hfalse => hfull (hfalse ▸ List.getElem_mem hlt)
  refine (h.marked_iff i a hi).1 ?_
  rw [List.getElem?_eq_getElem hlt, hmarked]

/-- One slot is marked anew, and every other thing is held as before. -/
theorem Exact.marked_set (h : Exact things marks held) {m : Bool} (hi : things[i]? = some a) (ha : m = true ↔ a ∈ held')
    (hother : ∀ c ≠ a, c ∈ held' ↔ c ∈ held) :
    ∀ (j : ℕ) c, things[j]? = some c → ((marks.set i m)[j]? = some true ↔ c ∈ held') := by
  intro j c hj
  rw [Slots.getElem?_set_iff (h.lt_marks hi), h.marked_iff j c hj]
  by_cases hij : j = i
  · subst hij
    obtain rfl : a = c := Option.some.inj (hi.symm.trans hj)
    rw [← ha, eq_comm]
    simp
  · have hca : c ≠ a := by
      rintro rfl
      exact hij (slot_eq h.distinct hi hj)
    rw [hother c hca]
    simp [hij]

/-- **The thing of a free slot is lent.** -/
theorem Exact.lend (h : Exact things marks held) (hi : things[i]? = some a) (hfree : marks[i]? = some false) :
    Exact things (marks.set i true) (a :: held) where
  length := by rw [List.length_set, h.length]
  distinct := h.distinct
  marked_iff := h.marked_set hi (iff_of_true rfl List.mem_cons_self) fun c hca => by
    rw [List.mem_cons, or_iff_right hca]
  mem b hb := by
    rcases List.mem_cons.1 hb with rfl | hb
    · exact List.mem_of_getElem? hi
    · exact h.mem b hb
  single := List.nodup_cons.2 ⟨h.notMem hi hfree, h.single⟩

/-- **A new thing is put into a free slot.** -/
theorem Exact.replace (h : Exact things marks held) (hi : things[i]? = some b) (hfree : marks[i]? = some false)
    (ha : a ∉ things) : Exact (things.set i a) marks held where
  length := by rw [List.length_set, h.length]
  distinct := h.distinct.set ha
  marked_iff j c hj := by
    have hlt := (List.getElem?_eq_some_iff.1 hi).1
    rcases (Slots.getElem?_set_iff hlt).1 hj with ⟨rfl, rfl⟩ | ⟨-, hj⟩
    · rw [hfree]
      exact iff_of_false (by simp) fun hheld => ha (h.mem c hheld)
    · exact h.marked_iff j c hj
  mem c hc := by
    obtain ⟨j, hj⟩ := List.mem_iff_getElem?.1 (h.mem c hc)
    have hij : i ≠ j := by
      rintro rfl
      exact h.notMem hj hfree hc
    exact List.mem_of_getElem? ((List.getElem?_set_ne hij).trans hj)
  single := h.single

/-- **A slot is added, and its thing is lent.** -/
theorem Exact.add (h : Exact things marks held) (ha : a ∉ things) :
    Exact (things ++ [a]) (marks ++ [true]) (a :: held) where
  length := by rw [List.length_append, List.length_append, h.length, List.length_singleton, List.length_singleton]
  distinct := List.nodup_append_comm.1 (List.nodup_cons.2 ⟨ha, h.distinct⟩)
  marked_iff j c hj := by
    rw [Slots.getElem?_append_iff]
    rcases Slots.getElem?_append_iff.1 hj with hold | ⟨rfl, rfl⟩
    · have hca : c ≠ a := by
        rintro rfl
        exact ha (List.mem_of_getElem? hold)
      have hlt := h.lt_marks hold
      rw [h.marked_iff j c hold, List.mem_cons, or_iff_right hca]
      exact or_iff_left fun hlast => by omega
    · exact iff_of_true (.inr ⟨h.length.symm, rfl⟩) List.mem_cons_self
  mem b hb := by
    rcases List.mem_cons.1 hb with rfl | hb
    · exact List.mem_append_right _ (List.mem_singleton_self _)
    · exact List.mem_append_left _ (h.mem b hb)
  single := List.nodup_cons.2 ⟨fun hheld => ha (h.mem a hheld), h.single⟩

/-- **A thing is taken back.** -/
theorem Exact.takeBack (h : Exact things marks (a :: held)) (hi : things[i]? = some a) :
    Exact things (marks.set i false) held where
  length := by rw [List.length_set, h.length]
  distinct := h.distinct
  marked_iff := h.marked_set hi (iff_of_false Bool.false_ne_true (List.nodup_cons.1 h.single).1) fun c hca => by
    rw [List.mem_cons, or_iff_right hca]
  mem b hb := h.mem b (List.mem_cons_of_mem a hb)
  single := (List.nodup_cons.1 h.single).2

end Lending
