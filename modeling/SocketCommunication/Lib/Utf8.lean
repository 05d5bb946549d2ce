/-
# The bytes of a text

What the length of the UTF-8 encoding and its bytes say of the characters.

`Encodes` lists the bytes of a character by their number: the lead byte tells which
of the four ranges the character is in, any other byte continues it.
-/

import Mathlib.Tactic.Common

namespace Utf8

/-- The bytes of a text are those of its characters. -/
theorem toList_toUTF8 (s : String) : s.toUTF8.data.toList = s.toList.flatMap String.utf8EncodeChar := by
  rw [String.toUTF8_eq_toByteArray, ← String.utf8Encode_toList, List.utf8Encode, List.toList_data_toByteArray]

theorem length_le_flatMap (l : List Char) : l.length ≤ (l.flatMap String.utf8EncodeChar).length := by
  induction l with
  | nil => exact Nat.le_refl _
  | cons c l ih =>
    have hpos := List.length_pos_iff.2 (@String.utf8EncodeChar_ne_nil c)
    rw [List.flatMap_cons, List.length_append, List.length_cons]
    omega

/-- A text has at most as many characters as bytes. -/
theorem length_le (s : String) : s.length ≤ s.toUTF8.data.toList.length := by
  rw [toList_toUTF8, ← String.length_toList]
  exact length_le_flatMap _

/-- The zero character is a zero byte. -/
theorem zero_mem {s : String} (h : '\x00' ∈ s.toList) : (0 : UInt8) ∈ s.toUTF8.data.toList := by
  rw [toList_toUTF8]
  exact List.mem_flatMap.2 ⟨_, h, by decide⟩

/-- A fact about bytes is one about the numbers below 256. -/
theorem forall_byte {p : UInt8 → Prop} (h : ∀ n < 256, p (UInt8.ofNat n)) (b : UInt8) : p b := by
  have hb := h b.toNat b.toNat_lt
  rwa [UInt8.ofNat_toNat] at hb

/-- A byte that continues a character. -/
def Tail (b : UInt8) : Prop := 0x80 ≤ b.toNat ∧ b.toNat ≤ 0xBF

instance (b : UInt8) : Decidable (Tail b) := inferInstanceAs (Decidable (_ ∧ _))

theorem tail_iff (b : UInt8) : Tail b ↔ (b &&& 0xC0) = 0x80 := by
  revert b
  exact forall_byte (by decide +kernel)

/-- The bytes of a character, by their number. -/
inductive Encodes (c : Char) : List UInt8 → Prop
  | one {b : UInt8} (hb : b.toNat = c.toNat) (hc : c.toNat ≤ 0x7F) : Encodes c [b]
  | two {b b₁ : UInt8} (hb : b.toNat = 0xC0 + c.toNat / 0x40) (h₁ : Tail b₁) (hlo : 0x80 ≤ c.toNat)
      (hhi : c.toNat ≤ 0x7FF) : Encodes c [b, b₁]
  | three {b b₁ b₂ : UInt8} (hb : b.toNat = 0xE0 + c.toNat / 0x1000) (h₁ : Tail b₁) (h₂ : Tail b₂)
      (hlo : 0x800 ≤ c.toNat) (hhi : c.toNat ≤ 0xFFFF) : Encodes c [b, b₁, b₂]
  | four {b b₁ b₂ b₃ : UInt8} (hb : b.toNat = 0xF0 + c.toNat / 0x40000) (h₁ : Tail b₁) (h₂ : Tail b₂)
      (h₃ : Tail b₃) (hlo : 0x10000 ≤ c.toNat) (hhi : c.toNat < 0x110000) : Encodes c [b, b₁, b₂, b₃]

theorem encodes (c : Char) : Encodes c (String.utf8EncodeChar c) := by
  have hval : c.val.toNat = c.toNat := rfl
  have hmax : c.toNat < 0x110000 := by
    rcases c.valid with h | ⟨-, h⟩
    · exact Nat.lt_trans h (by decide)
    · exact h
  have htail : ∀ n, Tail (UInt8.ofNat (n % 0x40 + 0x80)) := by
    intro n
    rw [Tail, UInt8.toNat_ofNat']
    omega
  unfold String.utf8EncodeChar
  rw [hval]
  dsimp only
  split_ifs with h₁ h₂ h₃
  · exact .one (by rw [UInt8.toNat_ofNat']; omega) h₁
  · exact .two (by rw [UInt8.toNat_ofNat']; omega) (htail _) (by omega) h₂
  · exact .three (by rw [UInt8.toNat_ofNat']; omega) (htail _) (htail _) (by omega) h₃
  · exact .four (by rw [UInt8.toNat_ofNat']; omega) (htail _) (htail _) (htail _) (by omega) hmax

/-- An ASCII byte is the whole of a character. -/
theorem toNat_eq_of_mem {c : Char} {b : UInt8} (hb : b ∈ String.utf8EncodeChar c) (hlt : b.toNat < 0x80) :
    b.toNat = c.toNat := by
  have hcases := encodes c
  generalize String.utf8EncodeChar c = bytes at hb hcases
  cases hcases with
  | one hn hc =>
    rw [List.mem_singleton.1 hb]
    exact hn
  | two hn h₁ hlo hhi =>
    simp only [List.mem_cons, List.not_mem_nil, or_false] at hb
    unfold Tail at h₁
    rcases hb with rfl | rfl <;> omega
  | three hn h₁ h₂ hlo hhi =>
    simp only [List.mem_cons, List.not_mem_nil, or_false] at hb
    unfold Tail at h₁ h₂
    rcases hb with rfl | rfl | rfl <;> omega
  | four hn h₁ h₂ h₃ hlo hhi =>
    simp only [List.mem_cons, List.not_mem_nil, or_false] at hb
    unfold Tail at h₁ h₂ h₃
    rcases hb with rfl | rfl | rfl | rfl <;> omega

/-- Of the bytes of a character the first alone does not continue one. -/
theorem countP_encoding (c : Char) : (String.utf8EncodeChar c).countP (fun b => ¬ Tail b) = 1 := by
  have hcases := encodes c
  generalize String.utf8EncodeChar c = bytes at hcases
  cases hcases with
  | @one b hb hc =>
    have hlead : ¬ Tail b := by unfold Tail; omega
    simp [hlead]
  | @two b b₁ hb h₁ hlo hhi =>
    have hlead : ¬ Tail b := by unfold Tail; omega
    simp [hlead, h₁]
  | @three b b₁ b₂ hb h₁ h₂ hlo hhi =>
    have hlead : ¬ Tail b := by unfold Tail; omega
    simp [hlead, h₁, h₂]
  | @four b b₁ b₂ b₃ hb h₁ h₂ h₃ hlo hhi =>
    have hlead : ¬ Tail b := by unfold Tail; omega
    simp [hlead, h₁, h₂, h₃]

/-- A text has as many characters as bytes that do not continue one. -/
theorem countP_eq_length (s : String) : s.toUTF8.data.toList.countP (fun b => ¬ Tail b) = s.length := by
  rw [toList_toUTF8, ← String.length_toList]
  induction s.toList with
  | nil => rfl
  | cons c l ih => rw [List.flatMap_cons, List.countP_append, countP_encoding, ih, List.length_cons, Nat.add_comm]

end Utf8
