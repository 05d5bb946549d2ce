/-
# Bytes in hexadecimal

Two lower-case digits for each byte, as a stream with `hex`, `setw(2)` and
`setfill('0')` prints them.
-/

import SocketCommunication.Lib.Utf8

namespace Hex

def ofByte (b : UInt8) : List Char := [Nat.digitChar (b.toNat / 16), Nat.digitChar (b.toNat % 16)]

def ofBytes (bs : List UInt8) : String := String.ofList (bs.flatMap ofByte)

def digits : List Char := "0123456789abcdef".toList

theorem digitChar_mem : ∀ n < 16, Nat.digitChar n ∈ digits := by decide

theorem mem_digits {bs : List UInt8} {c : Char} (h : c ∈ (ofBytes bs).toList) : c ∈ digits := by
  rw [ofBytes, String.toList_ofList, List.mem_flatMap] at h
  obtain ⟨b, -, hb⟩ := h
  have hlt := b.toNat_lt
  simp only [ofByte, List.mem_cons, List.not_mem_nil, or_false] at hb
  rcases hb with rfl | rfl
  · exact digitChar_mem _ (by omega)
  · exact digitChar_mem _ (by omega)

theorem length_ofBytes (bs : List UInt8) : (ofBytes bs).length = 2 * bs.length := by
  rw [ofBytes, String.length_ofList]
  induction bs with
  | nil => rfl
  | cons b bs ih =>
    rw [List.flatMap_cons, List.length_append, ih, List.length_cons]
    simp only [ofByte, List.length_cons, List.length_nil]
    omega

end Hex
