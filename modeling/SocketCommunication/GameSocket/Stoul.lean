/-
# The number in a header block

`Session::read_header` looks for the first `Content-Length: ` in what it has read and
gives the text from there to the end of the line to `std::stoul`.

* `stoul_eq`: the text is taken when its digits are those of a number that fits
  (`Fits`); it is then worth `number`.
* `converted_numeral`: the text after a field that is the first match is the value of
  that field.

The width of `unsigned long` is a parameter: 32 bits on Windows, which `CMakeLists.txt`
is written for, and 64 bits elsewhere.
-/

import Mathlib.Algebra.Group.Nat.Defs
import Mathlib.Data.List.TakeWhile
import SocketCommunication.Lib.Search
import SocketCommunication.Lib.Utf8

namespace SocketCommunication
namespace GameSocket

open Search

/-- `"Content-Length: "`. -/
def clHeader : List UInt8 :=
  [0x43, 0x6F, 0x6E, 0x74, 0x65, 0x6E, 0x74, 0x2D, 0x4C, 0x65, 0x6E, 0x67, 0x74, 0x68, 0x3A, 0x20]

example : clHeader = "Content-Length: ".toUTF8.data.toList := by decide

def crlf : List UInt8 := [0x0D, 0x0A]

/-- `"\r\n\r\n"`. -/
def separator : List UInt8 := crlf ++ crlf

/-- `isspace`. -/
def isSpace (c : UInt8) : Bool := c = 0x20 ∨ (0x09 ≤ c ∧ c ≤ 0x0D)

def isDigit (c : UInt8) : Bool := 0x30 ≤ c ∧ c ≤ 0x39

/-- The value of decimal digits. -/
def decimal (digits : List UInt8) : ℕ := digits.foldl (fun v c => 10 * v + (c.toNat - 0x30)) 0

/-- `std::stoul`, where `unsigned long` has so many bits: blanks, a sign, digits; what
follows them is ignored.  It throws where there is no digit or the number is too large,
and wraps a negative one. -/
def stoul (bits : ℕ) (text : List UInt8) : Option ℕ :=
  let text := text.dropWhile isSpace
  let negative := text.head? = some 0x2D
  let text := if negative ∨ text.head? = some 0x2B then text.tail else text
  let digits := text.takeWhile isDigit
  if digits = [] ∨ 2 ^ bits ≤ decimal digits then none
  else if negative then some ((2 ^ bits - decimal digits) % 2 ^ bits)
  else some (decimal digits)

/-- The `content_length` of `read_header`, unless `std::stoul` throws. -/
def contentLength (bits : ℕ) (header : List UInt8) : Option ℕ :=
  match find clHeader header with
  | none => some 0
  | some pos =>
    match find crlf (header.drop pos) with
    | none => some 0
    | some endPos => stoul bits ((header.drop (pos + clHeader.length)).take (endPos - clHeader.length))

/-! ### What `std::stoul` takes -/

/-- The text after its blanks. -/
def unspaced (text : List UInt8) : List UInt8 := text.dropWhile isSpace

def Negative (text : List UInt8) : Prop := (unspaced text).head? = some 0x2D

instance (text : List UInt8) : Decidable (Negative text) := inferInstanceAs (Decidable (_ = _))

/-- The digits after the blanks and the sign. -/
def digits (text : List UInt8) : List UInt8 :=
  (if Negative text ∨ (unspaced text).head? = some 0x2B then (unspaced text).tail else unspaced text).takeWhile isDigit

/-- There are digits, and their number is below the limit. -/
def Fits (bits : ℕ) (text : List UInt8) : Prop := digits text ≠ [] ∧ decimal (digits text) < 2 ^ bits

instance (bits : ℕ) (text : List UInt8) : Decidable (Fits bits text) := inferInstanceAs (Decidable (_ ∧ _))

/-- The number, wrapped where it is negative. -/
def number (bits : ℕ) (text : List UInt8) : ℕ :=
  if Negative text then (2 ^ bits - decimal (digits text)) % 2 ^ bits else decimal (digits text)

section Number

variable {bits : ℕ} {text : List UInt8}

/-- **What `std::stoul` makes of a text.** -/
theorem stoul_eq (bits : ℕ) (text : List UInt8) :
    stoul bits text = if Fits bits text then some (number bits text) else none := by
  have hstoul : stoul bits text = if digits text = [] ∨ 2 ^ bits ≤ decimal (digits text) then none
      else if Negative text then some ((2 ^ bits - decimal (digits text)) % 2 ^ bits)
      else some (decimal (digits text)) := rfl
  rw [hstoul]
  by_cases hfits : Fits bits text
  · rw [if_neg (not_or.2 ⟨hfits.1, Nat.not_le.2 hfits.2⟩), if_pos hfits, number]
    split_ifs <;> rfl
  · rw [if_neg hfits, if_pos]
    by_contra hno
    exact hfits ⟨fun h => hno (.inl h), Nat.not_le.1 fun h => hno (.inr h)⟩

/-- A digit is neither a blank nor a sign. -/
theorem not_isSpace_of_isDigit {c : UInt8} (h : isDigit c) : ¬ isSpace c ∧ c ≠ 0x2D ∧ c ≠ 0x2B := by
  simp only [isDigit, isSpace, decide_eq_true_eq, UInt8.le_iff_toNat_le, ← UInt8.toNat_inj, ne_eq] at h ⊢
  simp only [UInt8.reduceToNat] at h ⊢
  omega

/-- Where the first byte after the blanks is a digit there is no sign. -/
theorem digits_of_unspaced {c : UInt8} {cs : List UInt8} (hdigit : isDigit c) (h : unspaced text = c :: cs) :
    ¬ Negative text ∧ digits text = (c :: cs).takeWhile isDigit := by
  obtain ⟨-, hminus, hplus⟩ := not_isSpace_of_isDigit hdigit
  have hnegative : ¬ Negative text := by
    rw [Negative, h]
    exact fun he => hminus (Option.some.inj he)
  refine ⟨hnegative, ?_⟩
  rw [digits, if_neg, h]
  rw [h]
  exact fun he => he.elim hnegative fun he => hplus (Option.some.inj he)

end Number

/-! ### A number as it is written -/

/-- The decimal digits of a number. -/
def numeral (n : ℕ) : List UInt8 := (toString n).toUTF8.data.toList

section Numeral

theorem utf8EncodeChar_of_isDigit {c : Char} (h : c.isDigit) : String.utf8EncodeChar c = [UInt8.ofNat c.toNat] := by
  have hrange : 0x30 ≤ c.toNat ∧ c.toNat ≤ 0x39 := by simpa [Char.isDigit, UInt32.le_iff_toNat_le] using h
  unfold String.utf8EncodeChar
  rw [show c.val.toNat = c.toNat from rfl]
  dsimp only
  rw [if_pos (by omega)]

theorem numeral_eq (n : ℕ) : numeral n = (Nat.toDigits 10 n).map fun c => UInt8.ofNat c.toNat := by
  have hlist : (toString n).toList = Nat.toDigits 10 n := by
    rw [Nat.toString_eq_repr, Nat.toList_repr]
  rw [numeral, Utf8.toList_toUTF8, hlist, ← List.flatMap_singleton' ((Nat.toDigits 10 n).map _), List.flatMap_map]
  exact List.flatMap_congr fun c hc => utf8EncodeChar_of_isDigit (Nat.isDigit_of_mem_toDigits (by decide) (by decide) hc)

theorem isDigit_of_mem_numeral {n : ℕ} {c : UInt8} (h : c ∈ numeral n) : isDigit c := by
  rw [numeral_eq] at h
  obtain ⟨d, hd, rfl⟩ := List.mem_map.1 h
  have hdigit := Nat.isDigit_of_mem_toDigits (by decide) (by decide) hd
  have hrange : 0x30 ≤ d.toNat ∧ d.toNat ≤ 0x39 := by simpa [Char.isDigit, UInt32.le_iff_toNat_le] using hdigit
  simp only [isDigit, decide_eq_true_eq, UInt8.le_iff_toNat_le, UInt8.toNat_ofNat', UInt8.reduceToNat]
  omega

theorem decimal_numeral (n : ℕ) : decimal (numeral n) = n := by
  have hdigits : ∀ (l : List Char) (v : ℕ), (∀ c ∈ l, c.isDigit) →
      (l.map fun c => UInt8.ofNat c.toNat).foldl (fun v c => 10 * v + (c.toNat - 0x30)) v = Nat.ofDigitChars 10 l v := by
    intro l
    induction l with
    | nil => exact fun v _ => Nat.ofDigitChars_nil.symm
    | cons c l ih =>
      intro v h
      obtain ⟨hc, hl⟩ := List.forall_mem_cons.1 h
      have hrange : 0x30 ≤ c.toNat ∧ c.toNat ≤ 0x39 := by simpa [Char.isDigit, UInt32.le_iff_toNat_le] using hc
      have hbyte : (UInt8.ofNat c.toNat).toNat = c.toNat := by
        rw [UInt8.toNat_ofNat']
        omega
      rw [List.map_cons, List.foldl_cons, ih _ hl, Nat.ofDigitChars_cons, hbyte]
      rfl
  rw [decimal, numeral_eq, hdigits _ _ fun c hc => Nat.isDigit_of_mem_toDigits (by decide) (by decide) hc]
  exact Nat.ofDigitChars_ten_toDigits

theorem numeral_ne_nil (n : ℕ) : numeral n ≠ [] := by
  rw [numeral_eq]
  simp [Nat.toDigits_ne_nil]

/-- **A number that is written out is taken if it is below the limit.** -/
theorem stoul_numeral (bits n : ℕ) : stoul bits (numeral n) = if n < 2 ^ bits then some n else none := by
  obtain ⟨c, cs, hcs⟩ := List.exists_cons_of_ne_nil (numeral_ne_nil n)
  have hall : ∀ d ∈ numeral n, isDigit d := fun d => isDigit_of_mem_numeral
  have hc : isDigit c := hall c (by rw [hcs]; exact List.mem_cons_self)
  have hunspaced : unspaced (numeral n) = c :: cs := by
    rw [unspaced, hcs, List.dropWhile_cons_of_neg (not_isSpace_of_isDigit hc).1]
  obtain ⟨hnegative, hdigits⟩ := digits_of_unspaced hc hunspaced
  rw [← hcs, List.takeWhile_eq_self_iff.2 hall] at hdigits
  have hfits : Fits bits (numeral n) ↔ n < 2 ^ bits := by
    rw [Fits, hdigits, decimal_numeral, and_iff_right (numeral_ne_nil n)]
  rw [stoul_eq, number, if_neg hnegative, hdigits, decimal_numeral]
  exact if_congr hfits rfl rfl

end Numeral

/-! ### What is converted -/

/-- The place of the first `Content-Length: ` and the text that `std::stoul` gets. -/
def converted (chunk : List UInt8) : Option (ℕ × List UInt8) :=
  (find clHeader chunk).bind fun pos =>
    (find crlf (chunk.drop pos)).map fun endPos =>
      (pos, (chunk.drop (pos + clHeader.length)).take (endPos - clHeader.length))

section Converted

variable {bits n pos endPos : ℕ} {chunk text before after : List UInt8}

theorem contentLength_eq (bits : ℕ) (chunk : List UInt8) : contentLength bits chunk =
    match converted chunk with
    | none => some 0
    | some (_, text) => stoul bits text := by
  unfold contentLength converted
  cases find clHeader chunk with
  | none => rfl
  | some pos =>
    rw [Option.bind_some]
    dsimp only
    cases find crlf (chunk.drop pos) <;> rfl

/-- What is converted stands on one line. -/
theorem converted_eq_some_iff : converted chunk = some (pos, text) ↔ find clHeader chunk = some pos ∧
    ∃ endPos, find crlf (chunk.drop pos) = some endPos ∧
      text = (chunk.drop (pos + clHeader.length)).take (endPos - clHeader.length) := by
  rw [converted, Option.bind_eq_some_iff]
  constructor
  · rintro ⟨pos', hpos, hmap⟩
    obtain ⟨endPos, hend, heq⟩ := Option.map_eq_some_iff.1 hmap
    obtain ⟨rfl, rfl⟩ := Prod.mk.inj heq
    exact ⟨hpos, endPos, hend, rfl⟩
  · rintro ⟨hpos, endPos, hend, rfl⟩
    exact ⟨pos, hpos, by rw [hend]; rfl⟩

/-- A line without a return ends where the next one begins. -/
theorem find_crlf_append {line rest : List UInt8} (hline : ∀ c ∈ line, c ≠ 0x0D) (hrest : crlf <+: rest) :
    find crlf (line ++ rest) = some line.length := by
  refine find_eq_some_iff.2 ⟨by rw [List.length_append]; omega, by rwa [List.drop_left], fun j hj hno => ?_⟩
  rw [List.drop_append_of_le_length hj.le] at hno
  have hreturn : (line.drop j ++ rest)[0]? = some 0x0D := by
    obtain ⟨tail, htail⟩ := hno
    rw [← htail]
    rfl
  rw [List.getElem?_append_left (by rw [List.length_drop]; omega), List.getElem?_drop] at hreturn
  exact hline _ (List.mem_of_getElem? hreturn) rfl

/-- **Where the first match is a field with a number, that number is converted.** -/
theorem converted_numeral (hchunk : chunk = before ++ (clHeader ++ numeral n) ++ after) (hafter : crlf <+: after)
    (hfirst : find clHeader chunk = some before.length) : converted chunk = some (before.length, numeral n) := by
  have hline : ∀ c ∈ clHeader ++ numeral n, c ≠ 0x0D := by
    intro c hc
    rcases List.mem_append.1 hc with hword | hdigit
    · exact (show ∀ c ∈ clHeader, c ≠ 0x0D by decide +kernel) c hword
    · rintro rfl
      exact absurd (isDigit_of_mem_numeral hdigit) (by decide)
  have hdrop : chunk.drop before.length = clHeader ++ numeral n ++ after := by
    rw [hchunk, List.append_assoc, List.drop_left]
  refine converted_eq_some_iff.2 ⟨hfirst, _, by rw [hdrop]; exact find_crlf_append hline hafter, ?_⟩
  rw [← List.drop_drop, hdrop, List.append_assoc, List.drop_left, List.length_append, Nat.add_sub_cancel_left, List.take_left]

end Converted

end GameSocket
end SocketCommunication
