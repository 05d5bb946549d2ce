/-
# Messages and the pieces of a stream

A sender writes the texts of messages one after the other; what arrives is their
concatenation, cut anywhere.  A receiver that parses every piece by itself reads
the messages `pieces.filterMap parse`.

Where the pieces are the texts these are the messages that were sent.  The
converse is by length (`lengths_of_filterMap_eq`): if no piece spells a message
in fewer symbols than its text, and the messages are those that were sent, then
the pieces are the texts (`filterMap_eq_iff`).

`upTo k` are the pieces that bring the first `k` symbols of the stream.
-/

import Mathlib.Data.List.Basic

namespace Segments

variable {α β : Type*} {parse : List α → Option β} {stream text : List α} {texts pieces : List (List α)}
  {messages : List β}

/-- No piece of the stream spells the message of the text in fewer symbols. -/
def Shortest (parse : List α → Option β) (stream text : List α) : Prop :=
  ∀ piece, piece <:+: stream → parse piece = parse text → text.length ≤ piece.length

theorem filterMap_of_map (h : texts.map parse = messages.map some) : texts.filterMap parse = messages := by
  induction texts generalizing messages with
  | nil =>
    cases messages with
    | nil => rfl
    | cons m messages => cases h
  | cons t texts ih =>
    cases messages with
    | nil => cases h
    | cons m messages =>
      rw [List.map_cons, List.map_cons, List.cons.injEq] at h
      rw [List.filterMap_cons_some h.1, ih h.2]

/-- Pieces that spell the messages of the texts, and are not empty, are no shorter
altogether; if they are no longer either, each is as long as its text. -/
theorem lengths_of_filterMap_eq (htexts : texts.map parse = messages.map some)
    (hpieces : ∀ p ∈ pieces, p ≠ []) (h : pieces.filterMap parse = messages)
    (hshort : ∀ p ∈ pieces, ∀ t ∈ texts, parse p = parse t → t.length ≤ p.length) :
    texts.flatten.length ≤ pieces.flatten.length ∧
      (pieces.flatten.length ≤ texts.flatten.length → pieces.map List.length = texts.map List.length) := by
  induction pieces generalizing texts messages with
  | nil =>
    obtain rfl : messages = [] := h.symm
    obtain rfl : texts = [] := List.map_eq_nil_iff.1 htexts
    exact ⟨Nat.le_refl _, fun _ => rfl⟩
  | cons p pieces ih =>
    have hrest := fun q hq => hpieces q (List.mem_cons_of_mem p hq)
    have hlength : (p :: pieces).flatten.length = p.length + pieces.flatten.length := by
      rw [List.flatten_cons, List.length_append]
    cases hp : parse p with
    | none =>
      -- the piece is lost, and with it symbols of the stream
      rw [List.filterMap_cons_none hp] at h
      obtain ⟨hle, -⟩ := ih htexts hrest h fun q hq => hshort q (List.mem_cons_of_mem p hq)
      have hpos := List.length_pos_of_ne_nil (hpieces p List.mem_cons_self)
      exact ⟨by omega, fun hge => by omega⟩
    | some m =>
      rw [List.filterMap_cons_some hp] at h
      obtain rfl := h.symm
      cases texts with
      | nil => cases htexts
      | cons t texts =>
        rw [List.map_cons, List.map_cons, List.cons.injEq] at htexts
        obtain ⟨hle, heq⟩ := ih htexts.2 hrest rfl fun q hq u hu =>
          hshort q (List.mem_cons_of_mem p hq) u (List.mem_cons_of_mem t hu)
        have hfirst := hshort p List.mem_cons_self t List.mem_cons_self (hp.trans htexts.1.symm)
        have hlength' : (t :: texts).flatten.length = t.length + texts.flatten.length := by
          rw [List.flatten_cons, List.length_append]
        refine ⟨by omega, fun hge => ?_⟩
        rw [List.map_cons, List.map_cons, heq (by omega), show p.length = t.length by omega]

/-- **The receiver reads the messages just when the pieces are the texts.** -/
theorem filterMap_eq_iff (htexts : texts.map parse = messages.map some) (hpieces : ∀ p ∈ pieces, p ≠ [])
    (hstream : pieces.flatten = texts.flatten) (hshort : ∀ t ∈ texts, Shortest parse texts.flatten t) :
    pieces.filterMap parse = messages ↔ pieces = texts := by
  constructor
  · intro h
    have hinfix : ∀ p ∈ pieces, ∀ t ∈ texts, parse p = parse t → t.length ≤ p.length := by
      intro p hp t ht
      exact hshort t ht p (hstream ▸ List.infix_of_mem_flatten hp)
    obtain ⟨-, heq⟩ := lengths_of_filterMap_eq htexts hpieces h hinfix
    exact List.eq_iff_flatten_eq.2 ⟨hstream, heq (Nat.le_of_eq (congrArg List.length hstream))⟩
  · rintro rfl
    exact filterMap_of_map htexts

/-! ### The pieces that bring a part of the stream -/

/-- The pieces up to the one that completes the first `k` symbols. -/
def upTo (k : ℕ) : List (List α) → List (List α)
  | [] => []
  | p :: ps => if k = 0 then [] else p :: upTo (k - p.length) ps

end Segments
