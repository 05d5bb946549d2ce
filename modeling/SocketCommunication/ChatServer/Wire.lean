/-
# The chat server as it reads bytes

`async_read_until` collects what arrives in a `streambuf` until it holds a newline, and
what came after the newline stays there for the next call: a call that finds a newline
in the buffer completes without a read.  `Service` takes a line with `getline`.

* `Wire.refines`: every run of the server that reads bytes is a run of the server that
  reads lines, and the lines of a connection are those that were sent to it, however the
  stream was cut.

A read that returns brings at least one byte, and at the end of a stream it fails.
-/

import SocketCommunication.ChatServer.Service
import SocketCommunication.Lib.Lines

namespace SocketCommunication
namespace ChatServer

open Lines

/-- The server, and what `async_read_until` has collected. -/
structure Wire where
  server : Server
  /-- `m_request` of each connection. -/
  request : ℕ → List UInt8
  /-- The bytes that have arrived for each connection. -/
  received : ℕ → List UInt8

/-- A completion at the server. -/
inductive WireEvent where
  | accept
  /-- A read of `async_read_until` returns. -/
  | data (i : ℕ) (bytes : List UInt8)
  /-- `async_read_until` has found a newline in the buffer. -/
  | found (i : ℕ)
  | readError (i : ℕ)
  | resume (i : ℕ)
  deriving DecidableEq

namespace Wire

def empty : Wire := ⟨.empty, fun _ => [], fun _ => []⟩

/-- `async_read_until` waits for a read. -/
def Waits (s : Wire) (i : ℕ) : Prop := (s.server.services i).phase = .reading ∧ newline ∉ s.request i

instance (s : Wire) (i : ℕ) : Decidable (s.Waits i) := inferInstanceAs (Decidable (_ ∧ _))

/-- The handler takes a line out of the buffer, if one has come. -/
def takeLine (s : Wire) (i : ℕ) : Wire :=
  match next newline (s.request i) with
  | none => s
  | some (line, rest) =>
    { s with server := s.server.step (.line i line), request := Function.update s.request i rest }

/-- A read has returned. -/
def append (s : Wire) (i : ℕ) (bytes : List UInt8) : Wire :=
  { s with
    request := Function.update s.request i (s.request i ++ bytes)
    received := Function.update s.received i (s.received i ++ bytes) }

def step (s : Wire) : WireEvent → Wire
  | .accept => { s with server := s.server.step .accept }
  | .data i bytes => if s.Waits i then (s.append i bytes).takeLine i else s
  | .found i => if (s.server.services i).phase = .reading then s.takeLine i else s
  | .readError i => if s.Waits i then { s with server := s.server.step (.readError i) } else s
  | .resume i => { s with server := s.server.step (.resume i) }

/-- What the handlers are called with. -/
def lineOf (s : Wire) (i : ℕ) : Option Event := (next newline (s.request i)).map fun p => .line i p.1

/-- The completion that the handlers see. -/
def report (s : Wire) : WireEvent → Option Event
  | .accept => some .accept
  | .data i bytes => if s.Waits i then (s.append i bytes).lineOf i else none
  | .found i => if (s.server.services i).phase = .reading then s.lineOf i else none
  | .readError i => if s.Waits i then some (.readError i) else none
  | .resume i => some (.resume i)

/-- The lines of a connection among the completions. -/
def linesOf (i : ℕ) : List Event → List (List UInt8)
  | [] => []
  | .line j line :: es => if j = i then line :: linesOf i es else linesOf i es
  | .accept :: es | .readError _ :: es | .resume _ :: es => linesOf i es

theorem linesOf_append (i : ℕ) (es es' : List Event) : linesOf i (es ++ es') = linesOf i es ++ linesOf i es' := by
  induction es with
  | nil => rfl
  | cons e es ih =>
    cases e with
    | line j line =>
      rw [List.cons_append, linesOf, linesOf, ih]
      split_ifs <;> rfl
    | _ => exact ih

section Steps

variable {s : Wire} {i : ℕ}

theorem server_takeLine : (s.takeLine i).server = (s.lineOf i).elim s.server s.server.step := by
  unfold takeLine lineOf
  cases next newline (s.request i) <;> rfl

/-- The handlers see a run of lines. -/
theorem server_step (s : Wire) (e : WireEvent) : (s.step e).server = (s.report e).elim s.server s.server.step := by
  cases e with
  | accept => rfl
  | data i bytes =>
    rw [step, report]
    split_ifs
    · exact server_takeLine
    · rfl
  | found i =>
    rw [step, report]
    split_ifs
    · exact server_takeLine
    · rfl
  | readError i =>
    rw [step, report]
    split_ifs <;> rfl
  | resume i => rfl

/-- What was taken of the streams so far. -/
def Cuts (s : Wire) (lines : ℕ → List (List UInt8)) : Prop := ∀ i, Cut newline (s.received i) (lines i) (s.request i)

theorem Cuts.append {lines : ℕ → List (List UInt8)} (h : s.Cuts lines) (i : ℕ) (bytes : List UInt8) :
    (s.append i bytes).Cuts lines := by
  intro j
  by_cases hj : j = i
  · subst hj
    simp only [Wire.append, Function.update_self]
    exact (h j).feed bytes
  · simp only [Wire.append, Function.update_of_ne hj]
    exact h j

theorem Cuts.takeLine {lines : ℕ → List (List UInt8)} (h : s.Cuts lines) (i : ℕ) :
    (s.takeLine i).Cuts fun j => lines j ++ linesOf j (s.lineOf i).toList := by
  intro j
  unfold Wire.takeLine lineOf
  beta_reduce
  cases hnext : next newline (s.request i) with
  | none =>
    rw [Option.map_none, Option.toList_none, linesOf, List.append_nil]
    exact h j
  | some p =>
    obtain ⟨line, rest⟩ := p
    rw [Option.map_some, Option.toList_some, linesOf, linesOf]
    by_cases hj : j = i
    · subst hj
      simp only [Function.update_self, if_true]
      exact (h j).take hnext
    · simp only [Function.update_of_ne hj, if_neg (Ne.symm hj), List.append_nil]
      exact h j

/-- **A completion takes at most a line.** -/
theorem Cuts.step {lines : ℕ → List (List UInt8)} (h : s.Cuts lines) (e : WireEvent) :
    (s.step e).Cuts fun j => lines j ++ linesOf j (s.report e).toList := by
  have hnone : s.Cuts fun j => lines j ++ linesOf j [] := by
    intro j
    beta_reduce
    rw [linesOf, List.append_nil]
    exact h j
  cases e with
  | accept => exact hnone
  | data i bytes =>
    rw [Wire.step, report]
    split_ifs
    · exact (h.append i bytes).takeLine i
    · exact hnone
  | found i =>
    rw [Wire.step, report]
    split_ifs
    · exact h.takeLine i
    · exact hnone
  | readError i =>
    rw [Wire.step, report]
    split_ifs
    · exact hnone
    · exact hnone
  | resume i => exact hnone

theorem Cuts.foldl {lines : ℕ → List (List UInt8)} (h : s.Cuts lines) (es : List WireEvent) :
    (es.foldl Wire.step s).Cuts fun j => lines j ++ linesOf j (Run.reports Wire.step report s es) := by
  induction es generalizing s lines with
  | nil =>
    intro j
    beta_reduce
    rw [Run.reports, linesOf, List.append_nil]
    exact h j
  | cons e es ih =>
    intro j
    beta_reduce
    rw [Run.reports, linesOf_append, ← List.append_assoc]
    exact ih (h.step e) j

end Steps

/-- **The server that reads bytes is the server that reads lines.**  Its handlers make a run of
`Server.step`.  If what has arrived for a connection is a part of the text of lines, the
handlers of the connection were called with the first of these lines in their order, and with
all of them once the text has come and no newline is left in the buffer. -/
theorem refines (es : List WireEvent) (i : ℕ) (sent : List (List UInt8)) (hsent : ∀ line ∈ sent, newline ∉ line)
    (hreceived : (es.foldl step empty).received i <+: text newline sent) :
    let events := Run.reports step report empty es
    (es.foldl step empty).server = events.foldl Server.step .empty ∧ linesOf i events <+: sent ∧
      ((es.foldl step empty).received i = text newline sent → newline ∉ (es.foldl step empty).request i →
        linesOf i events = sent) := by
  have hstart : empty.Cuts fun _ => [] := fun _ => Cut.nil []
  have hcut : Cut newline _ (linesOf i (Run.reports step report empty es)) _ := hstart.foldl es i
  exact ⟨@Run.replay _ _ step _ _ report Wire.server _ server_step empty es, hcut.prefix_of_sent hsent hreceived⟩

/-- A nickname and two messages, in three reads. -/
def threeReads : List WireEvent :=
  [.accept, .data 0 [0x61], .data 0 [0x62, 0x0A, 0x63], .resume 0, .resume 0, .data 0 [0x0A, 0x64, 0x0A], .resume 0, .found 0]

theorem refines_threeReads :
    let events := Run.reports step report empty threeReads
    (threeReads.foldl step empty).server = events.foldl Server.step .empty ∧
      linesOf 0 events <+: [[0x61, 0x62], [0x63], [0x64]] ∧
      ((threeReads.foldl step empty).received 0 = text newline [[0x61, 0x62], [0x63], [0x64]] →
        newline ∉ (threeReads.foldl step empty).request 0 → linesOf 0 events = [[0x61, 0x62], [0x63], [0x64]]) :=
  refines threeReads 0 [[0x61, 0x62], [0x63], [0x64]] (by decide) (by decide +kernel)

end Wire

end ChatServer
end SocketCommunication
