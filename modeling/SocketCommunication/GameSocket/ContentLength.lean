/-
# The length that a header block declares

`read_header` takes the length of a body from the text between the first
`Content-Length: ` of what it has read and the next end of a line, wherever these
stand.  `declared` is what the header block says: the value of its first
`Content-Length` field.

The handler uses that value, and throws nothing, just when the text is a number that
fits, and is that of the field (`soundLength_iff`).  Where the words begin the field this
is a condition on the spelling of its value; anywhere else the two numbers have to
coincide.  Which length the handler uses is read off what it does: the request that it
passes on, or the bytes that it waits for (`Uses`).
-/

import SocketCommunication.GameSocket.Session

namespace SocketCommunication
namespace GameSocket

open Search

/-! ### What the header block declares -/

def lower (c : UInt8) : UInt8 := if 0x41 ≤ c ∧ c ≤ 0x5A then c + 0x20 else c

/-- `"content-length:"`. -/
def fieldName : List UInt8 :=
  [0x63, 0x6F, 0x6E, 0x74, 0x65, 0x6E, 0x74, 0x2D, 0x6C, 0x65, 0x6E, 0x67, 0x74, 0x68, 0x3A]

example : fieldName = "content-length:".toUTF8.data.toList := by decide

/-- The line is a `Content-Length` field; the case of a name does not matter. -/
def isField (line : List UInt8) : Bool := (line.take fieldName.length).map lower = fieldName

/-- A blank or a tab. -/
def isBlank (c : UInt8) : Bool := c = 0x20 ∨ c = 0x09

/-- The value of a field: digits, which may have blanks around them. -/
def fieldValue (text : List UInt8) : Option ℕ :=
  let text := text.dropWhile isBlank
  let digits := text.takeWhile isDigit
  if digits ≠ [] ∧ (text.dropWhile isDigit).all isBlank then some (decimal digits) else none

/-- The value of the first `Content-Length` field of a header block. -/
def field (block : List UInt8) : Option (List UInt8) :=
  ((split crlf block).find? isField).map (·.drop fieldName.length)

/-- The length that a header block declares, unless the value is malformed; without a
field there is no body. -/
def declared (block : List UInt8) : Option ℕ :=
  match field block with
  | none => some 0
  | some value => fieldValue value

/-! ### What the handler uses -/

/-- The handler has taken the body to be `length` bytes long, of which `part` is there: it
has passed on so many of them, or waits for the rest. -/
def Uses (length : ℕ) (part : List UInt8) (r r' : Reader) : Prop :=
  (length ≤ part.length ∧ r'.requests = r.requests ++ [part.take length]) ∨
  (part.length < length ∧ r'.waiting = .body (length - part.length))

/-- The handler has gone on to `process_request` or to `read_body`. -/
def GoesOn (r r' : Reader) : Prop := r'.requests ≠ r.requests ∨ ∃ remaining, r'.waiting = .body remaining

/-- The handler of what `read_header` has read throws nothing, and if it goes on it uses
the length that the header block declares. -/
def SoundLength (bits : ℕ) (r : Reader) (chunk : List UInt8) : Prop :=
  (r.readHeader bits chunk).waiting ≠ .thrown ∧ (GoesOn r (r.readHeader bits chunk) → ∃ pos length,
    find separator chunk = some pos ∧ declared (chunk.take pos) = some length ∧
      Uses length (chunk.drop (pos + separator.length)) r (r.readHeader bits chunk))

section Handler

variable {bits length : ℕ} {r : Reader} {chunk : List UInt8} {pos : ℕ}

/-- Without a blank line the handler does not go on. -/
theorem readHeader_idle (hlength : contentLength bits chunk = some length) (hpos : find separator chunk = none) :
    (r.readHeader bits chunk).waiting = .nothing ∧ (r.readHeader bits chunk).requests = r.requests := by
  rw [Reader.readHeader, hlength, hpos]
  exact ⟨rfl, rfl⟩

/-- **What the handler uses**: the length it has read, and no other. -/
theorem readHeader_uses (hlength : contentLength bits chunk = some length) (hpos : find separator chunk = some pos)
    (m : ℕ) : Uses m (chunk.drop (pos + separator.length)) r (r.readHeader bits chunk) ↔ m = length := by
  rw [Reader.readHeader, hlength, hpos]
  dsimp only
  generalize chunk.drop (pos + separator.length) = part
  constructor
  · rintro (⟨hm, hrequests⟩ | ⟨hm, hwaiting⟩)
    · split_ifs at hrequests with hle
      · have htake := List.singleton_inj.1 (List.append_cancel_left hrequests)
        have hlens := congrArg List.length htake
        rw [List.length_take_of_le hle, List.length_take_of_le hm] at hlens
        exact hlens.symm
      · exact absurd (congrArg List.length hrequests) (by simp)
    · split_ifs at hwaiting with hle
      · cases hwaiting
      · have hrest := Waiting.body.inj hwaiting
        omega
  · rintro rfl
    by_cases hle : m ≤ part.length
    · rw [if_pos hle]
      exact .inl ⟨hle, rfl⟩
    · rw [if_neg hle]
      exact .inr ⟨Nat.not_le.1 hle, rfl⟩

theorem Uses.goesOn {part : List UInt8} {r' : Reader} (h : Uses length part r r') : GoesOn r r' := by
  rcases h with ⟨-, hrequests⟩ | ⟨-, hwaiting⟩
  · refine .inl fun hsame => absurd (congrArg List.length (hrequests.symm.trans hsame)) (by simp)
  · exact .inr ⟨_, hwaiting⟩

/-- What is asked of the handler, by the length that it reads. -/
theorem soundLength_iff_contentLength (r : Reader) (chunk : List UInt8) : SoundLength bits r chunk ↔
    ∃ length, contentLength bits chunk = some length ∧
      ∀ pos, find separator chunk = some pos → declared (chunk.take pos) = some length := by
  rw [SoundLength, ne_eq, Reader.readHeader_thrown_iff]
  cases hlength : contentLength bits chunk with
  | none =>
    refine iff_of_false (fun h => h.1 rfl) ?_
    rintro ⟨_, hno, -⟩
    cases hno
  | some length =>
    rw [and_iff_right (Option.some_ne_none length)]
    cases hpos : find separator chunk with
    | none =>
      obtain ⟨hidle, hsame⟩ := @readHeader_idle bits length r chunk hlength hpos
      refine iff_of_true (fun hgoes => ?_) ⟨length, rfl, fun _ hno => ?_⟩
      · rcases hgoes with hrequests | ⟨remaining, hwaiting⟩
        · exact absurd hsame hrequests
        · rw [hidle] at hwaiting
          cases hwaiting
      · cases hno
    | some pos =>
      have huses := @readHeader_uses bits length r chunk pos hlength hpos
      constructor
      · intro h
        obtain ⟨pos', m, hpos', hdeclared, hm⟩ := h ((huses length).2 rfl).goesOn
        obtain rfl := Option.some.inj hpos'
        rw [(huses m).1 hm] at hdeclared
        exact ⟨length, rfl, fun _ h => Option.some.inj h ▸ hdeclared⟩
      · rintro ⟨m, hm, hdeclared⟩ -
        obtain rfl := Option.some.inj hm
        exact ⟨pos, length, rfl, hdeclared pos rfl, (huses length).2 rfl⟩

end Handler

/-! ### The spelling of a value -/

/-- The text is digits, which may have blanks around them. -/
def Plain (text : List UInt8) : Prop :=
  (text.dropWhile isBlank).takeWhile isDigit ≠ [] ∧ ((text.dropWhile isBlank).dropWhile isDigit).all isBlank

instance (text : List UInt8) : Decidable (Plain text) := inferInstanceAs (Decidable (_ ∧ _))

theorem isSpace_of_isBlank {c : UInt8} (h : isBlank c) : isSpace c := by
  simp only [isBlank, isSpace, decide_eq_true_eq] at h ⊢
  rcases h with rfl | rfl <;> decide

/-- The value of a field that is plain is its digits, and `std::stoul` sees the same. -/
theorem fieldValue_of_plain {text : List UInt8} (h : Plain text) :
    fieldValue text = some (decimal (digits text)) ∧ ¬ Negative text := by
  have hvalue : fieldValue text = some (decimal ((text.dropWhile isBlank).takeWhile isDigit)) := if_pos h
  -- the first byte after the blanks is a digit
  obtain ⟨c, cs, hcs⟩ := List.exists_cons_of_ne_nil (fun hnil => h.1 (by rw [hnil]; rfl) : text.dropWhile isBlank ≠ [])
  have hdigit : isDigit c := by
    by_contra hno
    exact h.1 (by rw [hcs, List.takeWhile_cons_of_neg hno])
  have hunspaced : unspaced text = c :: cs := by
    rw [unspaced, ← List.takeWhile_append_dropWhile (p := isBlank) (l := text), hcs, List.dropWhile_append_of_pos,
      List.dropWhile_cons_of_neg (not_isSpace_of_isDigit hdigit).1]
    exact fun x hx => isSpace_of_isBlank (List.all_eq_true.1 List.all_takeWhile x hx)
  obtain ⟨hnegative, hdigits⟩ := digits_of_unspaced hdigit hunspaced
  rw [hvalue, hdigits, hcs]
  exact ⟨rfl, hnegative⟩

theorem fieldValue_of_not_plain {text : List UInt8} (h : ¬ Plain text) : fieldValue text = none := if_neg h

/-! ### The field -/

/-- The words at `pos` begin the first `Content-Length` field of the header block, which
ends at `stop`. -/
structure Begins (chunk : List UInt8) (stop pos : ℕ) : Prop where
  inside : pos < stop
  line : pos = 0 ∨ crlf <:+ chunk.take pos
  first : ∀ line ∈ split crlf (chunk.take pos), ¬ isField line

instance (chunk : List UInt8) (stop pos : ℕ) : Decidable (Begins chunk stop pos) :=
  decidable_of_iff (pos < stop ∧ (pos = 0 ∨ crlf <:+ chunk.take pos) ∧ ∀ line ∈ split crlf (chunk.take pos), ¬ isField line)
    ⟨fun h => ⟨h.1, h.2.1, h.2.2⟩, fun h => ⟨h.inside, h.line, h.first⟩⟩

section Field

variable {chunk text : List UInt8} {stop pos endPos : ℕ}

theorem borderless_crlf : Borderless crlf := by decide

theorem crlf_ne_nil : crlf ≠ [] := by decide

/-- What is converted begins after the words. -/
theorem length_le_of_find (hpos : find clHeader chunk = some pos) (hend : find crlf (chunk.drop pos) = some endPos) :
    clHeader.length ≤ endPos := by
  by_contra hlt
  obtain ⟨-, ⟨tail, htail⟩, -⟩ := find_eq_some_iff.1 hpos
  obtain ⟨-, ⟨after, hafter⟩, -⟩ := find_eq_some_iff.1 hend
  have hreturn : (chunk.drop pos)[endPos]? = some 0x0D := by
    rw [← Nat.add_zero endPos, ← List.getElem?_drop, ← hafter]
    rfl
  rw [← htail, List.getElem?_append_left (Nat.not_le.1 hlt)] at hreturn
  have hword : ∀ i < clHeader.length, clHeader[i]? ≠ some 0x0D := by decide
  exact hword endPos (Nat.not_le.1 hlt) hreturn

/-- The line that the words begin. -/
theorem line_eq (hpos : find clHeader chunk = some pos) (hend : find crlf (chunk.drop pos) = some endPos) :
    (chunk.drop pos).take endPos =
      clHeader ++ (chunk.drop (pos + clHeader.length)).take (endPos - clHeader.length) := by
  have hle := length_le_of_find hpos hend
  obtain ⟨-, ⟨tail, htail⟩, -⟩ := find_eq_some_iff.1 hpos
  rw [← List.drop_drop, ← htail, List.drop_left, List.take_append, List.take_of_length_le hle]

/-- The first line of what is left of a block that a blank line follows. -/
theorem split_line (hstop : find separator chunk = some stop) (hlt : pos < stop)
    (hend : find crlf (chunk.drop pos) = some endPos) :
    ∃ rest, split crlf ((chunk.take stop).drop pos) = (chunk.drop pos).take endPos :: rest := by
  obtain ⟨hle, ⟨body, hbody⟩, -⟩ := find_eq_some_iff.1 hstop
  have hdrop : chunk.drop pos = (chunk.take stop).drop pos ++ crlf ++ (crlf ++ body) := by
    have hlen : pos ≤ (chunk.take stop).length := by
      rw [List.length_take]
      omega
    conv_lhs => rw [← List.take_append_drop stop chunk, ← hbody]
    rw [List.drop_append_of_le_length hlen, separator, List.append_assoc, List.append_assoc]
  rw [hdrop] at hend ⊢
  rcases find_append_self borderless_crlf hend with rfl | hle
  · have hnone : find crlf ((chunk.take stop).drop pos) = none := by
      refine find_eq_none_of_isPrefix hend ?_ (by simp [crlf])
      rw [List.append_assoc]
      exact List.prefix_append _ _
    rw [split_of_find_none hnone, List.append_assoc, List.take_left]
    exact ⟨[], rfl⟩
  · rw [List.append_assoc] at hend
    rw [split_of_find crlf_ne_nil (find_of_append hend hle), List.append_assoc, List.take_append_of_le_length (by omega)]
    exact ⟨_, rfl⟩

/-- The first field of the block is the line that the words begin. -/
theorem find?_isField (hstop : find separator chunk = some stop) (hpos : find clHeader chunk = some pos)
    (hend : find crlf (chunk.drop pos) = some endPos) (h : Begins chunk stop pos) :
    (split crlf (chunk.take stop)).find? isField = some ((chunk.drop pos).take endPos) := by
  obtain ⟨rest, hrest⟩ := split_line hstop h.inside hend
  have hfield : isField ((chunk.drop pos).take endPos) := by
    rw [line_eq hpos hend]
    exact decide_eq_true rfl
  rcases h.line with rfl | ⟨before, hbefore⟩
  · rw [List.drop_zero] at hrest
    rw [hrest, List.find?_cons_of_pos hfield]
  · have hblock : chunk.take stop = before ++ crlf ++ (chunk.take stop).drop pos := by
      conv_lhs => rw [← List.take_append_drop pos (chunk.take stop)]
      rw [List.take_take, Nat.min_eq_left h.inside.le, hbefore]
    have hlines := split_append crlf_ne_nil borderless_crlf before
    have hfirst := h.first
    rw [← hbefore, ← List.append_nil (before ++ crlf), hlines] at hfirst
    rw [hblock, hlines, List.find?_append, hrest, List.find?_cons_of_pos hfield,
      List.find?_eq_none.2 fun line hline => hfirst line (List.mem_append_left _ hline)]
    rfl

/-- **The field that the words begin declares the text that is converted.** -/
theorem declared_of_begins (hstop : find separator chunk = some stop) (hconv : converted chunk = some (pos, text))
    (h : Begins chunk stop pos) : declared (chunk.take stop) = fieldValue text := by
  obtain ⟨hpos, endPos, hend, rfl⟩ := converted_eq_some_iff.1 hconv
  rw [declared, field, find?_isField hstop hpos hend h, line_eq hpos hend]
  rfl

end Field

/-! ### When the handler is right -/

/-- The value of the field, if there is one, spells the number that the text elsewhere is
worth: without a sign that of its digits, and after a minus sign the one that makes up
2 ^ bits with them. -/
def Coincides (bits : ℕ) (text : List UInt8) : Option (List UInt8) → Prop
  | none => decimal (digits text) = 0
  | some value => Plain value ∧
      if Negative text then decimal (digits value) < 2 ^ bits ∧ 2 ^ bits ∣ decimal (digits value) + decimal (digits text)
      else decimal (digits value) = decimal (digits text)

/-- Where the words are found, the text after them is a number that fits.  If a blank line
follows, and the words begin the field of the header block, its value is digits and blanks;
if they stand elsewhere, the value of the field coincides.  Where the words are not found the
field, if there is one, is zero. -/
def Readable (bits : ℕ) (chunk : List UInt8) : Prop :=
  match converted chunk with
  | none => ∀ stop, find separator chunk = some stop →
      ∀ value, field (chunk.take stop) = some value → Plain value ∧ decimal (digits value) = 0
  | some (pos, text) => Fits bits text ∧ ∀ stop, find separator chunk = some stop →
      (Begins chunk stop pos ∧ Plain text) ∨ (¬ Begins chunk stop pos ∧ Coincides bits text (field (chunk.take stop)))

section Readable

variable {bits : ℕ} {block text : List UInt8}

theorem declared_eq_zero_iff : declared block = some 0 ↔
    ∀ value, field block = some value → Plain value ∧ decimal (digits value) = 0 := by
  rw [declared]
  cases field block with
  | none => exact iff_of_true rfl fun _ h => by cases h
  | some value =>
    dsimp only
    by_cases hplain : Plain value
    · rw [(fieldValue_of_plain hplain).1]
      constructor
      · intro h _ hv
        obtain rfl := Option.some.inj hv
        exact ⟨hplain, Option.some.inj h⟩
      · exact fun h => congrArg some (h value rfl).2
    · rw [fieldValue_of_not_plain hplain]
      exact iff_of_false (Option.some_ne_none 0).symm fun h => hplain (h value rfl).1

/-- A number below the limit is a negative one wrapped just when they add up to a multiple
of the limit. -/
theorem eq_wrapped_iff {limit v d : ℕ} (hd : d < limit) : v = (limit - d) % limit ↔ v < limit ∧ limit ∣ v + d := by
  rcases Nat.eq_zero_or_pos d with rfl | hpos
  · rw [Nat.sub_zero, Nat.mod_self, Nat.add_zero]
    constructor
    · rintro rfl
      exact ⟨hd, Nat.dvd_zero limit⟩
    · exact fun ⟨hv, hdvd⟩ => Nat.eq_zero_of_dvd_of_lt hdvd hv
  · rw [Nat.mod_eq_of_lt (by omega)]
    constructor
    · rintro rfl
      refine ⟨by omega, ?_⟩
      exact (Nat.sub_add_cancel hd.le).symm ▸ Nat.dvd_refl limit
    · rintro ⟨hv, k, hk⟩
      obtain rfl : k = 1 := by
        have hlow : 0 < k := Nat.pos_of_ne_zero (by rintro rfl; omega)
        have hhigh : k < 2 := by
          by_contra hno
          have := Nat.mul_le_mul_left limit (Nat.not_lt.1 hno)
          omega
        omega
      omega

theorem coincides_iff (hfits : Fits bits text) :
    declared block = some (number bits text) ↔ Coincides bits text (field block) := by
  have hzero : number bits text = 0 ↔ decimal (digits text) = 0 := by
    rw [number]
    split_ifs
    · rw [eq_comm, eq_wrapped_iff hfits.2, Nat.zero_add, and_iff_right (Nat.two_pow_pos bits)]
      exact ⟨fun h => Nat.eq_zero_of_dvd_of_lt h hfits.2, fun h => h ▸ Nat.dvd_zero _⟩
    · rfl
  rw [declared]
  cases field block with
  | none => exact ⟨fun h => hzero.1 (Option.some.inj h).symm, fun h => congrArg some (hzero.2 h).symm⟩
  | some value =>
    dsimp only [Coincides]
    by_cases hplain : Plain value
    · rw [(fieldValue_of_plain hplain).1, and_iff_right hplain, Option.some_inj, number]
      split_ifs
      · exact eq_wrapped_iff hfits.2
      · rfl
    · rw [fieldValue_of_not_plain hplain]
      exact iff_of_false (Option.some_ne_none _).symm fun h => hplain h.1

end Readable

/-- **The handler throws nothing and uses the declared length just when the chunk is
readable.** -/
theorem soundLength_iff (bits : ℕ) (r : Reader) (chunk : List UInt8) :
    SoundLength bits r chunk ↔ Readable bits chunk := by
  rw [soundLength_iff_contentLength, Readable, contentLength_eq]
  cases hconv : converted chunk with
  | none =>
    have hzero : ∀ stop, declared (chunk.take stop) = some 0 ↔ _ := fun stop => declared_eq_zero_iff
    constructor
    · rintro ⟨length, hlength, h⟩
      obtain rfl := Option.some.inj hlength
      exact fun stop hstop => (hzero stop).1 (h stop hstop)
    · exact fun h => ⟨0, rfl, fun stop hstop => (hzero stop).2 (h stop hstop)⟩
  | some found =>
    obtain ⟨pos, text⟩ := found
    dsimp only
    rw [stoul_eq]
    by_cases hfits : Fits bits text
    swap
    · rw [if_neg hfits]
      refine iff_of_false ?_ fun h => hfits h.1
      rintro ⟨_, hno, -⟩
      cases hno
    have hstop : ∀ stop, find separator chunk = some stop → (declared (chunk.take stop) = some (number bits text) ↔
        (Begins chunk stop pos ∧ Plain text) ∨
          (¬ Begins chunk stop pos ∧ Coincides bits text (field (chunk.take stop)))) := by
      intro stop hstop
      by_cases hbegins : Begins chunk stop pos
      · rw [or_iff_left fun h => h.1 hbegins, and_iff_right hbegins, declared_of_begins hstop hconv hbegins]
        by_cases hplain : Plain text
        · obtain ⟨hvalue, hnegative⟩ := fieldValue_of_plain hplain
          rw [hvalue, number, if_neg hnegative]
          exact iff_of_true rfl hplain
        · rw [fieldValue_of_not_plain hplain]
          exact iff_of_false (Option.some_ne_none _).symm hplain
      · rw [or_iff_right fun h => hbegins h.1, and_iff_right hbegins]
        exact coincides_iff hfits
    rw [if_pos hfits, and_iff_right hfits]
    constructor
    · rintro ⟨length, hlength, h⟩
      obtain rfl := Option.some.inj hlength
      exact fun stop hs => (hstop stop hs).1 (h stop hs)
    · exact fun h => ⟨number bits text, rfl, fun stop hs => (hstop stop hs).2 (h stop hs)⟩

/-- A header block whose length is not a number. -/
def wordHeader : List UInt8 := "POST /api HTTP/1.1\r\nContent-Length: two".toUTF8.data.toList

/-- `std::stoul` throws, and nothing in the handler catches it. -/
theorem not_soundLength_wordHeader : ¬ SoundLength 32 Reader.start (Reader.request wordHeader Reader.emptyObject) := by
  rintro ⟨hno, -⟩
  exact hno (by decide +kernel)

end GameSocket
end SocketCommunication
