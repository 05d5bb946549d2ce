/-
# JSON values

The values of `nlohmann::json` that the matching server reads and writes, with
the operations it uses on them: `contains`, `operator[]`, `get<int>()`,
`get<std::string>()`, comparison with a literal.  A conversion of a value of the
wrong type throws `type_error`, with the library's text.

A number the parser reads is a 64-bit integer or a double; a finite double is a
rational.  `get<int>()` narrows to the 32 bits of `int`.  An object is the list
of its members; the first member of a name is the one that counts.
-/

import Mathlib.Algebra.Group.Int.Defs
import Mathlib.Algebra.Group.Nat.Defs
import Mathlib.Data.Rat.Defs
import Mathlib.Data.List.Basic

namespace SocketCommunication
namespace Matching

/-- A `std::exception`, with its `what()`. -/
structure Exn where
  what : String
  deriving DecidableEq, Inhabited

inductive Json where
  | null
  | bool (b : Bool)
  | int (i : ℤ)
  | float (q : ℚ)
  | str (s : String)
  | arr (js : List Json)
  | obj (members : List (String × Json))
  deriving Inhabited

namespace Json

/-- `type_name()`. -/
def typeName : Json → String
  | null => "null"
  | bool _ => "boolean"
  | int _ => "number"
  | float _ => "number"
  | str _ => "string"
  | arr _ => "array"
  | obj _ => "object"

def typeError302 (expected : String) (j : Json) : Exn :=
  ⟨"[json.exception.type_error.302] type must be " ++ expected ++ ", but is " ++ j.typeName⟩

def typeError305 (j : Json) : Exn :=
  ⟨"[json.exception.type_error.305] cannot use operator[] with a string argument with " ++ j.typeName⟩

def isObject : Json → Bool
  | obj _ => true
  | _ => false

/-- The value of the member `k` in a list of members. -/
def find (k : String) : List (String × Json) → Option Json
  | [] => none
  | m :: ms => if m.1 = k then some m.2 else find k ms

/-- The member named `k`, if the value is an object that has one. -/
def get? : Json → String → Option Json
  | obj ms, k => find k ms
  | _, _ => none

def contains (j : Json) (k : String) : Bool := (j.get? k).isSome

/-- `j[k]` where the member is known to be there. -/
def value (j : Json) (k : String) : Json := (j.get? k).getD null

/-- Replace the member `k`, or add it at the end. -/
def setMember (k : String) (v : Json) : List (String × Json) → List (String × Json)
  | [] => [(k, v)]
  | m :: ms => if m.1 = k then (k, v) :: ms else m :: setMember k v ms

/-- `j[k] = v` on an object. -/
def set (j : Json) (k : String) (v : Json) : Json :=
  match j with
  | obj ms => obj (setMember k v ms)
  | j => j

/-- `j[k]` on a value that is not `const`: a missing member is added as `null`,
and `null` itself becomes an object.  Returns the member and the changed value. -/
def index (j : Json) (k : String) : Except Exn (Json × Json) :=
  match j with
  | null => .ok (null, obj [(k, null)])
  | obj ms =>
    match find k ms with
    | some v => .ok (v, obj ms)
    | none => .ok (null, obj (ms ++ [(k, null)]))
  | j => .error (typeError305 j)

/-- `get<std::string>()`. -/
def getString : Json → Except Exn String
  | str s => .ok s
  | j => .error (typeError302 "string" j)

/-- The value of an integer in the 32 bits of `int`. -/
def wrapInt (i : ℤ) : ℤ := i.bmod (2 ^ 32)

/-- `static_cast<int>` of a double: towards zero; outside of `int` the
conversion instruction of x86-64 gives the smallest `int`. -/
def truncInt (q : ℚ) : ℤ :=
  let t := q.num.tdiv q.den
  if -(2 ^ 31) ≤ t ∧ t < 2 ^ 31 then t else -(2 ^ 31)

/-- `get<int>()`: booleans count as numbers. -/
def getInt : Json → Except Exn ℤ
  | int i => .ok (wrapInt i)
  | float q => .ok (truncInt q)
  | bool b => .ok (if b then 1 else 0)
  | j => .error (typeError302 "number" j)

/-- `j == "s"`. -/
def eqString : Json → String → Bool
  | str t, s => t == s
  | _, _ => false

/-- `j == i` for an `int` literal. -/
def eqInt : Json → ℤ → Bool
  | int k, i => k == i
  | float q, i => q == (i : ℚ)
  | _, _ => false

/-- The order of types that decides a comparison of values of different types. -/
def typeOrder : Json → ℕ
  | null => 0
  | bool _ => 1
  | int _ => 2
  | float _ => 2
  | obj _ => 3
  | arr _ => 4
  | str _ => 5

/-- `j < i` for an `int` literal. -/
def ltInt : Json → ℤ → Bool
  | int k, i => k < i
  | float q, i => q < (i : ℚ)
  | j, _ => j.typeOrder < 2

/-- `j > i` for an `int` literal. -/
def gtInt : Json → ℤ → Bool
  | int k, i => i < k
  | float q, i => (i : ℚ) < q
  | j, _ => 2 < j.typeOrder

/-! ### What a member assignment reads back -/

theorem find_setMember (k k' : String) (v : Json) (ms : List (String × Json)) :
    find k' (setMember k v ms) = if k' = k then some v else find k' ms := by
  induction ms with
  | nil => simp [setMember, find, eq_comm]
  | cons m ms ih =>
    by_cases hm : m.1 = k
    · by_cases h : k' = k
      · simp [setMember, find, hm, h]
      · simp [setMember, find, hm, h, Ne.symm h]
    · by_cases h : k' = k
      · subst h
        simp [setMember, find, hm, ih]
      · simp [setMember, find, hm, ih, h]

theorem get?_set (j : Json) (k k' : String) (v : Json) (hj : j.isObject) :
    (j.set k v).get? k' = if k' = k then some v else j.get? k' := by
  cases j <;> simp_all [isObject, set, get?, find_setMember]

theorem wrapInt_eq {i : ℤ} (hlo : -(2 ^ 31) ≤ i) (hhi : i < 2 ^ 31) : wrapInt i = i :=
  Int.bmod_eq_of_le (by omega) (by omega)

/-- A converted number is an `int`. -/
theorem wrapInt_of_getInt {j : Json} {i : ℤ} (h : j.getInt = .ok i) : wrapInt i = i := by
  cases j with
  | int k =>
    obtain rfl := Except.ok.inj h
    exact Int.bmod_bmod
  | float q =>
    obtain rfl := Except.ok.inj h
    unfold truncInt
    dsimp only
    split_ifs with hq
    · exact wrapInt_eq hq.1 hq.2
    · decide
  | bool b =>
    obtain rfl := Except.ok.inj h
    cases b <;> decide
  | null => cases h
  | str => cases h
  | arr => cases h
  | obj => cases h

theorem getString_ok {j : Json} {s : String} (h : j.getString = .ok s) : j = .str s := by
  cases j <;> simp_all [getString]

/-- A value that is not null is there. -/
theorem contains_of_ne_null {j : Json} {k : String} (h : j.value k ≠ .null) : j.contains k := by
  unfold value at h
  unfold contains
  cases hk : j.get? k with
  | none =>
    rw [hk] at h
    exact absurd rfl h
  | some v => rfl

theorem contains_of_getInt {j : Json} {k : String} {i : ℤ} (h : (j.value k).getInt = .ok i) : j.contains k := by
  refine contains_of_ne_null fun hnull => ?_
  rw [hnull] at h
  cases h

theorem eq_of_eqString {j : Json} {s : String} (h : j.eqString s) : j = .str s := by
  cases j <;> simp_all [eqString]

theorem contains_of_value {j : Json} {k s : String} (h : j.value k = .str s) : j.contains k := by
  refine contains_of_ne_null fun hnull => ?_
  rw [hnull] at h
  cases h

theorem value_set (j : Json) (k k' : String) (v : Json) (hj : j.isObject) :
    (j.set k v).value k' = if k' = k then v else j.value k' := by
  unfold value
  rw [get?_set j k k' v hj]
  split_ifs <;> rfl

/-- Any other member reads as before, also where nothing was written. -/
theorem value_set_ne {j v : Json} {k k' : String} (h : k' ≠ k) : (j.set k v).value k' = j.value k' := by
  by_cases hj : j.isObject
  · rw [value_set j k k' v hj, if_neg h]
  · cases j <;> simp_all [isObject, set]

/-- A member that is there is read, and nothing is added. -/
theorem index_of_contains {j : Json} {k : String} (h : j.contains k) : j.index k = .ok (j.value k, j) := by
  cases j with
  | obj ms =>
    cases hk : find k ms with
    | none => simp [contains, get?, hk] at h
    | some v => simp [value, get?, index, hk]
  | _ => simp [contains, get?] at h

/-- A member that is a string is there to be read. -/
theorem index_of_value {j : Json} {k s : String} (h : j.value k = .str s) : j.index k = .ok (.str s, j) := by
  rw [index_of_contains (contains_of_value h), h]

/-- A member that reads as a string was there. -/
theorem value_of_index {j j' : Json} {k s : String} (h : j.index k = .ok (.str s, j')) :
    j.value k = .str s ∧ j' = j := by
  cases j with
  | obj ms =>
    cases hk : find k ms with
    | none => simp [index, hk] at h
    | some v => simp_all [value, get?, index]
  | _ => simp [index] at h

theorem isObject_of_value {j : Json} {k s : String} (h : j.value k = .str s) : j.isObject := by
  cases j <;> simp_all [value, get?, isObject]

theorem contains_set (j : Json) (k k' : String) (v : Json) (hj : j.isObject) :
    (j.set k v).contains k' = (decide (k' = k) || j.contains k') := by
  unfold contains
  rw [get?_set j k k' v hj]
  split_ifs with h <;> simp [h]

instance decidableEqInt (j : Json) (i : ℤ) : Decidable (j = .int i) :=
  match j with
  | .int k => decidable_of_iff (k = i) (by simp)
  | .null | .bool _ | .float _ | .str _ | .arr _ | .obj _ => isFalse (by simp)

instance decidableExistsInt (j : Json) (P : ℤ → Prop) [DecidablePred P] : Decidable (∃ i, j = .int i ∧ P i) :=
  match j with
  | .int k => decidable_of_iff (P k) (by simp)
  | .null | .bool _ | .float _ | .str _ | .arr _ | .obj _ => isFalse (by simp)

instance decidableExistsStr (j : Json) (P : String → Prop) [DecidablePred P] : Decidable (∃ s, j = .str s ∧ P s) :=
  match j with
  | .str s => decidable_of_iff (P s) (by simp)
  | .null | .bool _ | .int _ | .float _ | .arr _ | .obj _ => isFalse (by simp)

instance decidableEqStr (j : Json) (s : String) : Decidable (j = .str s) :=
  decidable_of_iff (∃ s', j = .str s' ∧ s' = s) (by simp)

instance decidableExistsOk {α : Type} (e : Except Exn α) (P : α → Prop) [DecidablePred P] :
    Decidable (∃ a, e = .ok a ∧ P a) :=
  match e with
  | .ok a => decidable_of_iff (P a) (by simp)
  | .error _ => isFalse (by simp)

end Json

end Matching
end SocketCommunication
