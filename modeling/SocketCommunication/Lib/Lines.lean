/-
# The lines of a stream

A sender ends each line with a delimiter that the lines do not contain.  A receiver
takes lines out of a buffer while the stream arrives in pieces: `Cut d stream ls rest`
says that it has taken `ls` so far and that `rest` is still in the buffer.

`Cut` does not mention the pieces: of the receivers of one stream the one that waits for
a delimiter is ahead of every other (`Cut.prefix_of_clean`), and what was sent as lines
is received as these (`Cut.prefix_of_sent`).
-/

import Mathlib.Data.List.Basic
import Mathlib.Tactic.SplitIfs

namespace Lines

variable {α : Type*} {d : α} {stream stream' rest rest' line : List α} {ls ls' : List (List α)}

/-- The lines as they are sent. -/
def text (d : α) (ls : List (List α)) : List α := ls.flatMap (· ++ [d])

@[simp] theorem text_nil : text d [] = [] := rfl

@[simp] theorem text_cons : text d (line :: ls) = line ++ d :: text d ls := by
  simp [text]

theorem text_append : text d (ls ++ ls') = text d ls ++ text d ls' := List.flatMap_append

/-- The first line of a buffer, and what follows its delimiter. -/
def next [DecidableEq α] (d : α) : List α → Option (List α × List α)
  | [] => none
  | a :: l => if a = d then some ([], l) else (next d l).map fun p => (a :: p.1, p.2)

section Next

variable [DecidableEq α] {l : List α}

theorem next_eq_some_iff : next d l = some (line, rest) ↔ l = line ++ d :: rest ∧ d ∉ line := by
  induction l generalizing line with
  | nil => simp [next]
  | cons a l ih =>
    rw [next]
    split_ifs with ha
    · subst ha
      constructor
      · intro h
        obtain ⟨rfl, rfl⟩ := Prod.mk.inj (Option.some.inj h)
        exact ⟨rfl, List.not_mem_nil⟩
      · rintro ⟨h, hline⟩
        cases line with
        | nil => rw [(List.cons.inj h).2]
        | cons b line => exact absurd (List.mem_cons.2 (.inl (List.cons.inj h).1)) hline
    · rw [Option.map_eq_some_iff]
      constructor
      · rintro ⟨⟨line', rest'⟩, h, heq⟩
        obtain ⟨rfl, rfl⟩ := Prod.mk.inj heq
        obtain ⟨rfl, hline⟩ := ih.1 h
        refine ⟨rfl, ?_⟩
        rw [List.mem_cons, not_or]
        exact ⟨Ne.symm ha, hline⟩
      · rintro ⟨h, hline⟩
        cases line with
        | nil => exact absurd (List.cons.inj h).1 ha
        | cons b line =>
          obtain ⟨rfl, hl⟩ := List.cons.inj h
          exact ⟨(line, rest), ih.2 ⟨hl, fun hmem => hline (List.mem_cons_of_mem a hmem)⟩, rfl⟩

end Next

/-- Of the stream the lines were taken, and the rest is left. -/
structure Cut (d : α) (stream : List α) (ls : List (List α)) (rest : List α) : Prop where
  joins : text d ls ++ rest = stream
  clean : ∀ l ∈ ls, d ∉ l

namespace Cut

theorem nil (stream : List α) : Cut d stream [] stream := ⟨rfl, fun _ h => absurd h List.not_mem_nil⟩

/-- What a sender of lines sends. -/
theorem sent (h : ∀ l ∈ ls, d ∉ l) : Cut d (text d ls) ls [] := ⟨List.append_nil _, h⟩

/-- More of the stream arrives. -/
theorem feed (h : Cut d stream ls rest) (piece : List α) : Cut d (stream ++ piece) ls (rest ++ piece) :=
  ⟨by rw [← List.append_assoc, h.joins], h.clean⟩

/-- A line is taken. -/
theorem take [DecidableEq α] (h : Cut d stream ls rest) (hnext : next d rest = some (line, rest')) :
    Cut d stream (ls ++ [line]) rest' := by
  obtain ⟨rfl, hline⟩ := next_eq_some_iff.1 hnext
  refine ⟨?_, fun l hl => ?_⟩
  · rw [← h.joins, text_append, text_cons, text_nil, List.append_assoc, List.append_assoc]
    rfl
  · rcases List.mem_append.1 hl with hl | hl
    · exact h.clean l hl
    · rw [List.mem_singleton.1 hl]
      exact hline

/-- Where a line ends. -/
theorem line_unique {l l' m m' : List α} (hl : d ∉ l) (hl' : d ∉ l') (h : l ++ d :: m = l' ++ d :: m') : l = l' ∧ m = m' := by
  induction l generalizing l' with
  | nil =>
    cases l' with
    | nil => exact ⟨rfl, (List.cons.inj h).2⟩
    | cons b l' => exact absurd (List.mem_cons.2 (.inl (List.cons.inj h).1)) hl'
  | cons a l ih =>
    cases l' with
    | nil => exact absurd (List.mem_cons.2 (.inl (List.cons.inj h).1.symm)) hl
    | cons b l' =>
      obtain ⟨rfl, htail⟩ := List.cons.inj h
      rw [List.mem_cons, not_or] at hl hl'
      obtain ⟨rfl, rfl⟩ := ih hl.2 hl'.2 htail
      exact ⟨rfl, rfl⟩

/-- **A receiver that waits for a delimiter has taken every line.** -/
theorem prefix_of_clean (h : Cut d stream ls rest) (h' : Cut d stream ls' rest') (hrest : d ∉ rest) : ls' <+: ls := by
  induction ls generalizing ls' stream with
  | nil =>
    cases ls' with
    | nil => exact List.prefix_refl _
    | cons l' ls' =>
      refine absurd ?_ hrest
      have hjoin := h.joins.trans h'.joins.symm
      rw [text_nil, List.nil_append, text_cons] at hjoin
      rw [hjoin]
      simp
  | cons l ls ih =>
    cases ls' with
    | nil => exact List.nil_prefix
    | cons l' ls' =>
      have hjoin := h.joins.trans h'.joins.symm
      rw [text_cons, text_cons, List.append_assoc, List.append_assoc, List.cons_append, List.cons_append] at hjoin
      obtain ⟨rfl, htail⟩ := line_unique (h.clean l List.mem_cons_self) (h'.clean l' List.mem_cons_self) hjoin
      rw [List.cons_prefix_cons]
      exact ⟨rfl, ih ⟨rfl, fun x hx => h.clean x (List.mem_cons_of_mem l hx)⟩
        ⟨htail.symm, fun x hx => h'.clean x (List.mem_cons_of_mem l hx)⟩⟩

/-- **What was sent as lines is received as these lines**: of a part of the text the first of
them, and all of them where the whole text has come and no delimiter is left. -/
theorem prefix_of_sent (h : Cut d stream ls rest) (hsent : ∀ l ∈ ls', d ∉ l) (hstream : stream <+: text d ls') :
    ls <+: ls' ∧ (stream = text d ls' → d ∉ rest → ls = ls') := by
  obtain ⟨later, hlater⟩ := hstream
  have hfed := h.feed later
  rw [hlater] at hfed
  have hle := (Cut.sent hsent).prefix_of_clean hfed List.not_mem_nil
  refine ⟨hle, fun hall hrest => ?_⟩
  rw [hall] at h
  exact hle.eq_of_length_le (h.prefix_of_clean (Cut.sent hsent) hrest).length_le

end Cut

end Lines
