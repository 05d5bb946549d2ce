/-
# The names that are accepted

Three checks of one kind: a bound on the bytes of a text and a loop over them.  Each
is compared with the language of characters that it is meant for.

* `isValidRoomName_exact`: any character of three bytes passes for a Hangul syllable.
* `validUserNameBytes_exact`: the reserved word is looked for in lower case only.
* `nickNameSound_iff`: a range of bytes stands for the range of Hangul syllables,
  and the bound is on bytes where the column counts characters.
-/

import SocketCommunication.Lib.Utf8
import SocketCommunication.Matching.Accounts

namespace SocketCommunication
namespace Matching

open Effect

/-- An ASCII letter or digit. -/
def IsAlnum (c : Char) : Prop :=
  (0x41 ≤ c.toNat ∧ c.toNat ≤ 0x5A) ∨ (0x61 ≤ c.toNat ∧ c.toNat ≤ 0x7A) ∨ (0x30 ≤ c.toNat ∧ c.toNat ≤ 0x39)

instance (c : Char) : Decidable (IsAlnum c) := inferInstanceAs (Decidable (_ ∨ _))

/-- A Hangul syllable. -/
def IsHangul (c : Char) : Prop := 0xAC00 ≤ c.toNat ∧ c.toNat ≤ 0xD7A3

instance (c : Char) : Decidable (IsHangul c) := inferInstanceAs (Decidable (_ ∧ _))

/-! ### Room names -/

namespace RoomService

/-- A character of a room name. -/
def RoomChar (c : Char) : Prop := IsAlnum c ∨ c = ' ' ∨ IsHangul c

/-- A character whose bytes the loop lets through: any of three bytes will do. -/
def LooseChar (c : Char) : Prop := IsAlnum c ∨ c = ' ' ∨ (0x800 ≤ c.toNat ∧ c.toNat ≤ 0xFFFF)

/-- Every character is a `p`; the last may also be a `$`. -/
def Made (p : Char → Prop) (cs : List Char) : Prop :=
  (∀ c ∈ cs.dropLast, p c) ∧ ∀ c ∈ cs.getLast?, p c ∨ c = '$'

/-- **The room names that are meant.** -/
structure RoomName (name : String) : Prop where
  pos : 1 ≤ name.utf8ByteSize
  le : name.utf8ByteSize ≤ 40
  made : Made RoomChar name.toList

/-- A byte that the loop lets through wherever it stands. -/
def looseByte (c : UInt8) : Bool :=
  (0x41 ≤ c && c ≤ 0x5A) || (0x61 ≤ c && c ≤ 0x7A) || (0x30 ≤ c && c ≤ 0x39) || c == 0x20 ||
    (c &&& 0xF0) == 0xE0 || (c &&& 0xC0) == 0x80

theorem looseByte_iff (b : UInt8) : looseByte b ↔ (0x41 ≤ b.toNat ∧ b.toNat ≤ 0x5A) ∨
    (0x61 ≤ b.toNat ∧ b.toNat ≤ 0x7A) ∨ (0x30 ≤ b.toNat ∧ b.toNat ≤ 0x39) ∨ b.toNat = 0x20 ∨
    (0x80 ≤ b.toNat ∧ b.toNat ≤ 0xBF) ∨ (0xE0 ≤ b.toNat ∧ b.toNat ≤ 0xEF) := by
  revert b
  exact Utf8.forall_byte (by decide +kernel)

theorem validRoomBytes_cons (b : UInt8) (bs : List UInt8) :
    validRoomBytes (b :: bs) ↔ (looseByte b ∨ (bs = [] ∧ b = 0x24)) ∧ validRoomBytes bs := by
  simp only [validRoomBytes, looseByte, Bool.and_eq_true, Bool.or_eq_true, List.isEmpty_iff, beq_iff_eq]
  tauto

/-- Before other bytes the `$` is not let through. -/
theorem validRoomBytes_append {l : List UInt8} (hl : l ≠ []) (bs : List UInt8) :
    validRoomBytes (bs ++ l) ↔ (∀ b ∈ bs, looseByte b) ∧ validRoomBytes l := by
  induction bs with
  | nil => simp
  | cons b bs ih =>
    rw [List.cons_append, validRoomBytes_cons, ih, List.forall_mem_cons, and_assoc]
    refine and_congr_left fun _ => or_iff_left fun h => ?_
    exact hl (List.append_eq_nil_iff.1 h.1).2

/-- The bytes of these characters are let through, and of no others. -/
theorem looseByte_encoding (c : Char) : (∀ b ∈ String.utf8EncodeChar c, looseByte b) ↔ LooseChar c := by
  have hspace : c = ' ' ↔ c.toNat = 0x20 := Char.toNat_inj.symm
  have hcases := Utf8.encodes c
  generalize String.utf8EncodeChar c = bytes at hcases
  rw [LooseChar, IsAlnum, hspace]
  cases hcases with
  | one hb hc =>
    simp only [List.mem_singleton, forall_eq, looseByte_iff, hb]
    omega
  | two hb h₁ hlo hhi =>
    refine iff_of_false (fun h => ?_) (by omega)
    have hlead := (looseByte_iff _).1 (h _ List.mem_cons_self)
    omega
  | three hb h₁ h₂ hlo hhi =>
    refine iff_of_true ?_ (by omega)
    simp only [List.mem_cons, List.not_mem_nil, or_false, forall_eq_or_imp, forall_eq, looseByte_iff]
    unfold Utf8.Tail at h₁ h₂
    omega
  | four hb h₁ h₂ h₃ hlo hhi =>
    refine iff_of_false (fun h => ?_) (by omega)
    have hlead := (looseByte_iff _).1 (h _ List.mem_cons_self)
    omega

theorem validRoomBytes_iff {bs : List UInt8} (hbs : (0x24 : UInt8) ∉ bs) :
    validRoomBytes bs ↔ ∀ b ∈ bs, looseByte b := by
  induction bs with
  | nil => simp [validRoomBytes]
  | cons b bs ih =>
    obtain ⟨hb, hbs⟩ := not_or.1 (mt List.mem_cons.2 hbs)
    rw [validRoomBytes_cons, ih hbs, List.forall_mem_cons]
    exact and_congr_left fun _ => or_iff_left fun h => hb h.2.symm

/-- A `$` is let through at the end. -/
theorem validRoomBytes_encoding (c : Char) :
    validRoomBytes (String.utf8EncodeChar c) ↔ LooseChar c ∨ c = '$' := by
  by_cases hc : c = '$'
  · subst hc
    exact iff_of_true (by decide) (.inr rfl)
  · rw [validRoomBytes_iff fun hmem => hc ?_, looseByte_encoding, or_iff_left hc]
    exact Char.toNat_inj.1 (Utf8.toNat_eq_of_mem hmem (by decide)).symm

/-- **What the loop lets through**, by characters. -/
theorem validRoomBytes_flatMap (cs : List Char) :
    validRoomBytes (cs.flatMap String.utf8EncodeChar) ↔ Made LooseChar cs := by
  induction cs with
  | nil => simp [Made, validRoomBytes]
  | cons c cs ih =>
    cases cs with
    | nil => simp [Made, validRoomBytes_encoding]
    | cons d ds =>
      have hne : (d :: ds).flatMap String.utf8EncodeChar ≠ [] := by
        rw [List.flatMap_cons]
        exact fun h => String.utf8EncodeChar_ne_nil (List.append_eq_nil_iff.1 h).1
      rw [List.flatMap_cons, validRoomBytes_append hne, ih, looseByte_encoding]
      simp only [Made, List.dropLast_cons_cons, List.forall_mem_cons, List.getLast?_cons_cons, and_assoc]

theorem isValidRoomName_iff (name : String) :
    isValidRoomName name ↔ 1 ≤ name.utf8ByteSize ∧ name.utf8ByteSize ≤ 40 ∧ Made LooseChar name.toList := by
  have hsize : name.toUTF8.data.toList.length = name.utf8ByteSize := rfl
  rw [← validRoomBytes_flatMap, ← Utf8.toList_toUTF8]
  unfold isValidRoomName
  simp only [Bool.and_eq_true, Bool.not_eq_true', List.isEmpty_eq_false_iff, decide_eq_true_eq, and_assoc, hsize]
  rw [← List.length_pos_iff, hsize]
  rfl

theorem forall_mem_iff_last {cs : List Char} {p : Char → Prop} :
    (∀ c ∈ cs, p c) ↔ (∀ c ∈ cs.dropLast, p c) ∧ ∀ c ∈ cs.getLast?, p c := by
  cases hlast : cs.getLast? with
  | none =>
    rw [List.getLast?_eq_none_iff.1 hlast]
    simp
  | some d =>
    have hsplit := List.dropLast_append_getLast? d hlast
    conv_lhs => rw [← hsplit]
    simp only [List.forall_mem_append, List.forall_mem_singleton, Option.mem_def, Option.some.injEq, forall_eq']

/-- Where the loop lets three bytes through they may be of another script. -/
theorem made_roomChar_iff {cs : List Char} (h : Made LooseChar cs) :
    Made RoomChar cs ↔ ∀ c ∈ cs, 0x800 ≤ c.toNat → IsHangul c := by
  have hspace : ∀ c : Char, c = ' ' ↔ c.toNat = 0x20 := fun c => Char.toNat_inj.symm
  have hdollar : ∀ c : Char, c = '$' ↔ c.toNat = 0x24 := fun c => Char.toNat_inj.symm
  rw [forall_mem_iff_last, Made]
  refine and_congr (forall₂_congr fun c hc => ?_) (forall₂_congr fun c hc => ?_)
  · have hloose := h.1 c hc
    rw [LooseChar, IsAlnum, hspace] at hloose
    rw [RoomChar, IsAlnum, IsHangul, hspace]
    omega
  · have hloose := h.2 c hc
    rw [LooseChar, IsAlnum, hspace, hdollar] at hloose
    rw [RoomChar, IsAlnum, IsHangul, hspace, hdollar]
    omega

theorem Made.loose {cs : List Char} (h : Made RoomChar cs) : Made LooseChar cs := by
  have hchar : ∀ {c}, RoomChar c → LooseChar c := by
    rintro c (halnum | hspace | hhangul)
    · exact .inl halnum
    · exact .inr (.inl hspace)
    · unfold IsHangul at hhangul
      exact .inr (.inr (by omega))
  exact ⟨fun c hc => hchar (h.1 c hc), fun c hc => (h.2 c hc).imp_left hchar⟩

/-- **A room name is accepted just when it is meant to be**, unless nothing is wrong with
it but that a character of three bytes is not a Hangul syllable. -/
theorem isValidRoomName_exact (name : String) : (isValidRoomName name ↔ RoomName name) ↔
    ¬ (1 ≤ name.utf8ByteSize ∧ name.utf8ByteSize ≤ 40 ∧ Made LooseChar name.toList ∧
      ∃ c ∈ name.toList, 0x800 ≤ c.toNat ∧ ¬ IsHangul c) := by
  rw [isValidRoomName_iff]
  constructor
  · rintro h ⟨hpos, hle, hloose, c, hc, hlong, hforeign⟩
    exact hforeign ((made_roomChar_iff hloose).1 (h.1 ⟨hpos, hle, hloose⟩).made c hc hlong)
  · refine fun h => ⟨fun ⟨hpos, hle, hloose⟩ => ⟨hpos, hle, (made_roomChar_iff hloose).2 fun c hc hlong => ?_⟩, ?_⟩
    · by_contra hforeign
      exact h ⟨hpos, hle, hloose, c, hc, hlong, hforeign⟩
    · exact fun hname => ⟨hname.pos, hname.le, hname.made.loose⟩

/-- A Greek letter with a breathing is three bytes long. -/
theorem not_roomName_alpha : ¬ (isValidRoomName "ἀ" ↔ RoomName "ἀ") := by
  intro h
  have hname := h.1 (by decide +kernel)
  have hchar := hname.made.2 'ἀ' (by decide +kernel)
  rcases hchar with (halnum | hspace | hhangul) | hdollar
  · exact absurd halnum (by decide)
  · exact absurd hspace (by decide)
  · exact absurd hhangul (by decide)
  · exact absurd hdollar (by decide)

end RoomService

/-! ### User names -/

namespace AuthService

/-- `isValidUserName` on the bytes of a `std::string`. -/
def validUserNameBytes (name : List UInt8) : Bool :=
  if name.isEmpty then false
  else if 30 < name.length then false
  else if hasInfix "mirror".toUTF8.data.toList name then false
  else if (name.dropWhile (· != 0x40)).contains 0x2E then
    name.all fun c => isAlnum c || c == 0x40 || c == 0x2E || c == 0x5F || c == 0x2D || c == 0x2B
  else name.all isAlnum

theorem isValidUserName_eq (name : String) : isValidUserName name = validUserNameBytes name.toUTF8.data.toList := rfl

/-- `"mirror"`. -/
def mirrorWord : List UInt8 := [0x6D, 0x69, 0x72, 0x72, 0x6F, 0x72]

/-- An ASCII letter in lower case; any other byte as it is. -/
def lowerByte (c : UInt8) : UInt8 := if 0x41 ≤ c ∧ c ≤ 0x5A then c + 0x20 else c

/-- The name has the word in it, in upper and lower case. -/
def Reserved (name : List UInt8) : Prop := mirrorWord <:+: name.map lowerByte

/-- An `@`, and a `.` somewhere after it. -/
def IsEmail (name : List UInt8) : Prop := ∃ before rest, name = before ++ 0x40 :: rest ∧ (0x2E : UInt8) ∈ rest

/-- A character of an e-mail address. -/
def isEmailByte (c : UInt8) : Bool := isAlnum c || c == 0x40 || c == 0x2E || c == 0x5F || c == 0x2D || c == 0x2B

/-- A short text of letters and digits, or of the characters of an e-mail address. -/
structure Wellformed (name : List UInt8) : Prop where
  pos : 1 ≤ name.length
  le : name.length ≤ 30
  made : (∀ c ∈ name, isAlnum c) ∨ IsEmail name ∧ ∀ c ∈ name, isEmailByte c

/-- **The user names that are meant.** -/
structure UserName (name : List UInt8) : Prop extends Wellformed name where
  free : ¬ Reserved name

theorem hasInfix_iff (pattern l : List UInt8) : hasInfix pattern l ↔ pattern <:+: l := by
  induction l with
  | nil => simp [hasInfix]
  | cons c l ih => simp [hasInfix, List.infix_cons_iff, ih]

/-- After the first `@` there is a `.` if there is one after any. -/
theorem contains_dropWhile_iff (name : List UInt8) :
    (name.dropWhile (· != 0x40)).contains 0x2E ↔ IsEmail name := by
  rw [List.contains_iff_mem]
  induction name with
  | nil => simp [IsEmail]
  | cons c cs ih =>
    by_cases hc : c = 0x40
    · subst hc
      rw [List.dropWhile_cons_of_neg (by decide), List.mem_cons, or_iff_right (by decide)]
      constructor
      · exact fun h => ⟨[], cs, rfl, h⟩
      · rintro ⟨before, rest, hsplit, hdot⟩
        cases before with
        | nil => rwa [(List.cons.inj hsplit).2]
        | cons b bs =>
          rw [(List.cons.inj hsplit).2]
          exact List.mem_append_right _ (List.mem_cons_of_mem _ hdot)
    · rw [List.dropWhile_cons_of_pos (by simpa using hc), ih]
      constructor
      · rintro ⟨before, rest, rfl, hdot⟩
        exact ⟨c :: before, rest, rfl, hdot⟩
      · rintro ⟨before, rest, hsplit, hdot⟩
        cases before with
        | nil => exact absurd (List.cons.inj hsplit).1 hc
        | cons b bs => exact ⟨bs, rest, (List.cons.inj hsplit).2, hdot⟩

theorem Reserved.of_isInfix {name : List UInt8} (h : mirrorWord <:+: name) : Reserved name := by
  obtain ⟨before, after, rfl⟩ := h
  exact ⟨before.map lowerByte, after.map lowerByte, by simp only [List.map_append]; rfl⟩

theorem validUserNameBytes_iff (name : List UInt8) :
    validUserNameBytes name ↔ Wellformed name ∧ ¬ mirrorWord <:+: name := by
  have hword : hasInfix "mirror".toUTF8.data.toList name ↔ mirrorWord <:+: name := hasInfix_iff mirrorWord name
  -- a name of letters and digits is no address
  have halnum : IsEmail name → ¬ ∀ c ∈ name, isAlnum c := by
    rintro ⟨before, rest, rfl, -⟩ h
    exact absurd (h 0x40 (List.mem_append_right _ List.mem_cons_self)) (by decide)
  have hpos : name.isEmpty = false ↔ 1 ≤ name.length := by
    rw [List.isEmpty_eq_false_iff, ← List.length_pos_iff]
    exact Iff.rfl
  unfold validUserNameBytes
  by_cases hempty : name.isEmpty
  · rw [if_pos hempty]
    exact iff_of_false Bool.false_ne_true fun h => by simp [hpos.2 h.1.pos] at hempty
  by_cases hlong : 30 < name.length
  · rw [if_neg hempty, if_pos hlong]
    exact iff_of_false Bool.false_ne_true fun h => absurd h.1.le (by omega)
  by_cases hmirror : mirrorWord <:+: name
  · rw [if_neg hempty, if_neg hlong, if_pos (hword.2 hmirror)]
    exact iff_of_false Bool.false_ne_true fun h => h.2 hmirror
  rw [if_neg hempty, if_neg hlong, if_neg (mt hword.1 hmirror), and_iff_left hmirror]
  have hsized := hpos.1 (Bool.eq_false_iff.2 hempty)
  by_cases hmail : IsEmail name
  · rw [if_pos ((contains_dropWhile_iff name).2 hmail), List.all_eq_true]
    exact ⟨fun h => ⟨hsized, not_lt.1 hlong, .inr ⟨hmail, h⟩⟩, fun h => (h.made.resolve_left (halnum hmail)).2⟩
  · rw [if_neg (mt (contains_dropWhile_iff name).1 hmail), List.all_eq_true]
    exact ⟨fun h => ⟨hsized, not_lt.1 hlong, .inl h⟩, fun h => h.made.resolve_right fun h => hmail h.1⟩

/-- **A user name is accepted just when it is meant to be**, unless nothing is wrong with
it but that the reserved word is in it, and never all in lower case. -/
theorem validUserNameBytes_exact (name : List UInt8) : (validUserNameBytes name ↔ UserName name) ↔
    ¬ (Wellformed name ∧ Reserved name ∧ ¬ mirrorWord <:+: name) := by
  rw [validUserNameBytes_iff]
  constructor
  · rintro h ⟨hwell, hres, hword⟩
    exact (h.1 ⟨hwell, hword⟩).free hres
  · refine fun h => ⟨fun ⟨hwell, hword⟩ => ⟨hwell, fun hres => h ⟨hwell, hres, hword⟩⟩, fun hname => ?_⟩
    exact ⟨hname.toWellformed, fun hword => hname.free (.of_isInfix hword)⟩

/-- `Mirror1`. -/
theorem not_userName_mirror : ¬ (validUserNameBytes "Mirror1".toUTF8.data.toList ↔ UserName "Mirror1".toUTF8.data.toList) :=
  fun h => (h.1 (by decide +kernel)).free ⟨[], [0x31], by decide +kernel⟩

/-! ### Nicknames -/

/-- A character of a nickname. -/
def NickChar (c : Char) : Prop := IsHangul c ∨ IsAlnum c

/-- A character whose bytes are in the bracket: any of the first half of the plane. -/
def NickLoose (c : Char) : Prop := IsAlnum c ∨ (0x80 ≤ c.toNat ∧ c.toNat ≤ 0xD7FF)

/-- A nickname that is accepted is made of the characters that are meant, fits the column,
and can be given to any account. -/
def NickNameSound (nickName : String) : Prop :=
  isValidNickName nickName → (∀ c ∈ nickName.toList, NickChar c) ∧ Tables.charLength nickName ≤ 16 ∧
    ∀ (env : Env) (w : World) (u : UserRow) (request : Json), env.Steady → u ∈ w.db.1.users →
      request.value "userId" = .int u.userId → request.value "nickName" = .str nickName →
      wp (updateNickName env request) (fun j _ => j.succeeds = true) (fun _ _ => False) w

/-- A byte of the bracket. -/
def nickByte (c : UInt8) : Bool := (0x80 ≤ c && c ≤ 0xED) || isAlnum c

theorem nickByte_iff (b : UInt8) : nickByte b ↔ (0x80 ≤ b.toNat ∧ b.toNat ≤ 0xED) ∨
    (0x41 ≤ b.toNat ∧ b.toNat ≤ 0x5A) ∨ (0x61 ≤ b.toNat ∧ b.toNat ≤ 0x7A) ∨ (0x30 ≤ b.toNat ∧ b.toNat ≤ 0x39) := by
  revert b
  exact Utf8.forall_byte (by decide +kernel)

theorem nickByte_encoding (c : Char) : (∀ b ∈ String.utf8EncodeChar c, nickByte b) ↔ NickLoose c := by
  have hplane : ¬ (0xD800 ≤ c.toNat ∧ c.toNat ≤ 0xDFFF) := by
    have hval : c.val.toNat = c.toNat := rfl
    have hvalid := c.valid
    unfold UInt32.isValidChar Nat.isValidChar at hvalid
    omega
  have hcases := Utf8.encodes c
  generalize String.utf8EncodeChar c = bytes at hcases
  rw [NickLoose, IsAlnum]
  cases hcases with
  | one hb hc =>
    simp only [List.mem_singleton, forall_eq, nickByte_iff, hb]
    omega
  | two hb h₁ hlo hhi =>
    refine iff_of_true ?_ (by omega)
    simp only [List.mem_cons, List.not_mem_nil, or_false, forall_eq_or_imp, forall_eq, nickByte_iff]
    unfold Utf8.Tail at h₁
    omega
  | three hb h₁ h₂ hlo hhi =>
    simp only [List.mem_cons, List.not_mem_nil, or_false, forall_eq_or_imp, forall_eq, nickByte_iff]
    unfold Utf8.Tail at h₁ h₂
    omega
  | four hb h₁ h₂ h₃ hlo hhi =>
    refine iff_of_false (fun h => ?_) (by omega)
    have hlead := (nickByte_iff _).1 (h _ List.mem_cons_self)
    omega

theorem isValidNickName_iff (nickName : String) : isValidNickName nickName ↔
    1 ≤ nickName.utf8ByteSize ∧ nickName.utf8ByteSize ≤ 24 ∧ ∀ c ∈ nickName.toList, NickLoose c := by
  have hall : (∀ b ∈ nickName.toUTF8.data.toList, nickByte b) ↔ ∀ c ∈ nickName.toList, NickLoose c := by
    rw [Utf8.toList_toUTF8, List.forall_mem_flatMap]
    exact forall₂_congr fun c _ => nickByte_encoding c
  have hpos : nickName.toUTF8.data.toList.isEmpty = false ↔ 1 ≤ nickName.utf8ByteSize := by
    rw [List.isEmpty_eq_false_iff, ← List.length_pos_iff]
    exact Iff.rfl
  have hsize : nickName.toUTF8.data.toList.length = nickName.utf8ByteSize := rfl
  rw [← hall, ← List.all_eq_true, ← hpos]
  unfold isValidNickName
  dsimp only
  rw [hsize]
  by_cases hlong : 24 < nickName.utf8ByteSize
  · rw [if_pos hlong]
    exact iff_of_false Bool.false_ne_true fun h => absurd h.2.1 (by omega)
  · rw [if_neg hlong, Bool.and_eq_true, Bool.not_eq_true', and_iff_right (not_lt.1 hlong)]
    exact Iff.rfl

/-- A nickname of sixteen characters or less is given where no call fails. -/
theorem updateNickName_succeeds {env : Env} (hsteady : env.Steady) {w : World} {u : UserRow} (hu : u ∈ w.db.1.users)
    {request : Json} {nickName : String} (hid : request.value "userId" = .int u.userId)
    (hnick : request.value "nickName" = .str nickName) (hvalid : isValidNickName nickName)
    (hfits : Tables.charLength nickName ≤ 16) :
    wp (updateNickName env request) (fun j _ => j.succeeds = true) (fun _ _ => False) w := by
  have hloose := ((isValidNickName_iff nickName).1 hvalid).2.2
  have hsql : sqlText nickName = nickName := by
    refine sqlText_eq fun h0 => ?_
    have hzero := hloose _ h0
    revert hzero
    unfold NickLoose IsAlnum
    decide
  have hrow : (w.db.1.setNickName u.userId (sqlText nickName)).Valid := by
    refine w.db.2.setNickName u.userId ?_
    rw [hsql, varchar_eq (by rwa [← Tables.charLength_eq])]
    exact hfits
  have hrenames : UserRepository.Renames env w u.userId nickName := ⟨hsteady.answers w 3, hrow⟩
  have hint : (request.value "userId").getInt = .ok u.userId := by
    rw [hid, Json.getInt, Json.wrapInt_eq (w.db.2.users_int4 u hu).1 (w.db.2.users_int4 u hu).2]
  have hthere : request.contains "userId" := Json.contains_of_getInt hint
  simp only [updateNickName, wp_ite, wp_pure, wp_bind, hnick, hint, Json.getString, orThrow_ok, hthere,
    Json.contains_of_value hnick, hvalid]
  refine ⟨fun h => absurd ⟨trivial, trivial⟩ h, fun _ => ⟨fun h => absurd trivial h, fun _ => ?_⟩⟩
  refine wp_mono (fun b w' h => ?_) (fun _ _ h => h.1 hrenames) (UserRepository.updateUserNickName_spec w u.userId nickName)
  rcases h with ⟨-, -, rfl⟩ | ⟨hn, -⟩
  · refine ⟨fun hno => absurd ?_ hno, fun _ => rfl⟩
    exact decide_eq_true (List.mem_map_of_mem hu)
  · exact absurd hrenames hn

/-- **Accepted nicknames are sound but for two kinds**: a text of up to 24 bytes with a
character of another script below the surrogates, or with more than sixteen characters. -/
theorem nickNameSound_iff (nickName : String) : NickNameSound nickName ↔
    ¬ (1 ≤ nickName.utf8ByteSize ∧ nickName.utf8ByteSize ≤ 24 ∧ (∀ c ∈ nickName.toList, NickLoose c) ∧
      ((∃ c ∈ nickName.toList, 0x80 ≤ c.toNat ∧ ¬ IsHangul c) ∨ 16 < nickName.length)) := by
  have hchar : ∀ {c}, NickLoose c → (NickChar c ↔ (0x80 ≤ c.toNat → IsHangul c)) := by
    intro c hloose
    unfold NickLoose IsAlnum at hloose
    unfold NickChar IsAlnum IsHangul
    omega
  rw [NickNameSound, Tables.charLength_eq]
  constructor
  · rintro h ⟨hpos, hle, hloose, hbad⟩
    obtain ⟨hchars, hfits, -⟩ := h ((isValidNickName_iff nickName).2 ⟨hpos, hle, hloose⟩)
    rcases hbad with ⟨c, hc, hlo, hforeign⟩ | hlong
    · exact hforeign ((hchar (hloose c hc)).1 (hchars c hc) hlo)
    · omega
  · intro h hvalid
    obtain ⟨hpos, hle, hloose⟩ := (isValidNickName_iff nickName).1 hvalid
    have hfits : nickName.length ≤ 16 := by
      by_contra hlong
      exact h ⟨hpos, hle, hloose, .inr (not_le.1 hlong)⟩
    refine ⟨fun c hc => (hchar (hloose c hc)).2 fun hlo => ?_, hfits, ?_⟩
    · by_contra hforeign
      exact h ⟨hpos, hle, hloose, .inl ⟨c, hc, hlo, hforeign⟩⟩
    · intro env w u request hsteady hu hid hnick
      exact updateNickName_succeeds hsteady hu hid hnick hvalid (by rwa [Tables.charLength_eq])

/-- A letter with an accent, and a nickname of seventeen letters. -/
theorem not_nickNameSound_accent : ¬ NickNameSound "é" ∧ ¬ NickNameSound "abcdefghijklmnopq" := by
  constructor
  · intro h
    obtain ⟨hchars, -⟩ := h (by decide +kernel)
    rcases hchars 'é' (by decide +kernel) with hhangul | halnum
    · exact absurd hhangul (by decide)
    · exact absurd halnum (by decide)
  · intro h
    exact absurd (h (by decide +kernel)).2.1 (by decide +kernel)

end AuthService

end Matching
end SocketCommunication
