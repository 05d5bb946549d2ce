/-
# The chat client

`Client.cpp`: the main thread sends what is typed, the thread of the `io_context`
connects, sends the nickname and reads.  The two are not synchronised.  A line that is
typed when the connection is there and its handler has not run yet is sent before the
nickname.  So is one that is typed before: its write is queued behind the connect of the
socket and is done with it, unless it fails at once.

* `prints`: the client prints the lines that it was sent, however the stream was cut.
* `named_iff`: the nickname is the first thing sent just when nothing is typed too early.

`async_read_until` tells the handler up to where a newline was found.
-/

import SocketCommunication.ChatServer.Wire

namespace SocketCommunication
namespace ChatServer

open Lines

/-- The socket of the client. -/
inductive Link where
  | connecting
  /-- The connection is there; the handler of `async_connect` has not run. -/
  | established
  | connected
  | failed
  deriving DecidableEq

/-- `ChatClient`, and what the user sees and has typed. -/
structure ChatClient where
  nickname : List UInt8
  link : Link
  /-- The arguments of `sendMessage` whose write waits for the connection. -/
  queued : List (List UInt8)
  /-- The arguments of `sendMessage` whose write was started on a connection. -/
  sent : List (List UInt8)
  /-- A read was started and has not failed. -/
  reading : Bool
  /-- `m_buffer`. -/
  buffer : List UInt8
  received : List UInt8
  /-- What `readMessage` has printed. -/
  printed : List (List UInt8)

inductive ClientEvent where
  | established
  /-- The first write that waits for the connection fails. -/
  | writeError
  | connectHandler
  | connectError
  /-- `std::getline` returns in the main thread. -/
  | typed (message : List UInt8)
  /-- A read of `async_read_until` returns. -/
  | data (bytes : List UInt8)
  /-- `async_read_until` has found a newline in the buffer. -/
  | found
  | readError

namespace ChatClient

def start (nickname : List UInt8) : ChatClient := ⟨nickname, .connecting, [], [], false, [], [], []⟩

/-- `sendMessage`; after a connect that has failed the write fails as well. -/
def sendMessage (c : ChatClient) (message : List UInt8) : ChatClient :=
  match c.link with
  | .connecting => { c with queued := c.queued ++ [message] }
  | .established | .connected => { c with sent := c.sent ++ [message] }
  | .failed => c

/-- The handler of `readMessage`: it copies what stands before the newline, and consumes that
and the newline. -/
def onMessage (c : ChatClient) (bytesTransferred : ℕ) : ChatClient :=
  { c with
    buffer := c.buffer.drop bytesTransferred
    printed := c.printed ++ [c.buffer.take (bytesTransferred - 1)] }

/-- The completion of `async_read_until`, if the newline is there. -/
def complete (c : ChatClient) : ChatClient :=
  if newline ∈ c.buffer then c.onMessage (c.buffer.idxOf newline + 1) else c

def step (c : ChatClient) : ClientEvent → ChatClient
  | .established =>
    if c.link = .connecting then { c with link := .established, queued := [], sent := c.sent ++ c.queued } else c
  | .writeError => { c with queued := c.queued.tail }
  | .connectHandler =>
    if c.link = .established then { { c with link := .connected }.sendMessage c.nickname with reading := true } else c
  | .connectError => if c.link = .connecting then { c with link := .failed, queued := [] } else c
  | .typed message => c.sendMessage message
  | .data bytes =>
    if c.reading ∧ newline ∉ c.buffer then
      { c with buffer := c.buffer ++ bytes, received := c.received ++ bytes }.complete
    else c
  | .found => if c.reading then c.complete else c
  | .readError => if c.reading ∧ newline ∉ c.buffer then { c with reading := false } else c

section Prints

variable {c : ChatClient}

/-- What was printed was taken from the stream. -/
def Printed (c : ChatClient) : Prop := Cut newline c.received c.printed c.buffer

/-- What is copied and consumed is the first line. -/
theorem next_buffer {buffer : List UInt8} (h : newline ∈ buffer) :
    next newline buffer = some (buffer.take (buffer.idxOf newline), buffer.drop (buffer.idxOf newline + 1)) := by
  rw [next_eq_some_iff]
  have hlt := List.idxOf_lt_length_of_mem h
  constructor
  · have hnewline : buffer[buffer.idxOf newline] = newline := List.getElem_idxOf hlt
    conv_lhs => rw [← List.take_append_drop (buffer.idxOf newline) buffer, List.drop_eq_getElem_cons hlt, hnewline]
  · rw [List.mem_take_iff_idxOf_lt h]
    omega

theorem Printed.complete (h : c.Printed) : c.complete.Printed := by
  unfold ChatClient.complete
  split_ifs with hmem
  · exact Cut.take h (next_buffer hmem)
  · exact h

theorem Printed.sendMessage (h : c.Printed) (message : List UInt8) : (c.sendMessage message).Printed := by
  unfold ChatClient.sendMessage
  cases c.link <;> exact h

theorem Printed.step (h : c.Printed) (e : ClientEvent) : (c.step e).Printed := by
  cases e with
  | established =>
    rw [ChatClient.step]
    split_ifs
    · exact h
    · exact h
  | writeError => exact h
  | connectHandler =>
    rw [ChatClient.step]
    split_ifs
    · exact Printed.sendMessage (c := { c with link := .connected }) h c.nickname
    · exact h
  | connectError =>
    rw [ChatClient.step]
    split_ifs
    · exact h
    · exact h
  | typed message => exact h.sendMessage message
  | data bytes =>
    rw [ChatClient.step]
    split_ifs
    · exact Printed.complete (c := { c with buffer := c.buffer ++ bytes, received := c.received ++ bytes }) (h.feed bytes)
    · exact h
  | found =>
    rw [ChatClient.step]
    split_ifs
    · exact h.complete
    · exact h
  | readError =>
    rw [ChatClient.step]
    split_ifs
    · exact h
    · exact h

end Prints

/-- **The client prints what it was sent**: of a part of the text of lines the first of them, in
their order, and all of them once the text has come and no newline is left in the buffer. -/
theorem prints (nickname : List UInt8) (es : List ClientEvent) (lines : List (List UInt8))
    (hlines : ∀ line ∈ lines, newline ∉ line)
    (hreceived : (es.foldl step (start nickname)).received <+: text newline lines) :
    (es.foldl step (start nickname)).printed <+: lines ∧
      ((es.foldl step (start nickname)).received = text newline lines →
        newline ∉ (es.foldl step (start nickname)).buffer → (es.foldl step (start nickname)).printed = lines) := by
  have hprinted : (es.foldl step (start nickname)).Printed :=
    Run.foldl_inv (fun _ e h => h.step e) es (Cut.nil [])
  exact hprinted.prefix_of_sent hlines hreceived

/-- Two lines, in three reads. -/
def twoLines : List ClientEvent :=
  [.established, .connectHandler, .data [0x61, 0x3A], .data [0x20, 0x62, 0x0A, 0x63], .data [0x0A]]

theorem prints_twoLines :
    (twoLines.foldl step (start [0x61])).printed <+: [[0x61, 0x3A, 0x20, 0x62], [0x63]] ∧
      ((twoLines.foldl step (start [0x61])).received = text newline [[0x61, 0x3A, 0x20, 0x62], [0x63]] →
        newline ∉ (twoLines.foldl step (start [0x61])).buffer →
          (twoLines.foldl step (start [0x61])).printed = [[0x61, 0x3A, 0x20, 0x62], [0x63]]) :=
  prints [0x61] twoLines [[0x61, 0x3A, 0x20, 0x62], [0x63]] (by decide) (by decide +kernel)

/-! ### The nickname -/

/-- What the client has sent begins with the nickname. -/
def NamedFirst (c : ChatClient) : Prop := ∀ message, c.sent.head? = some message → message = c.nickname

/-- The connection comes while nothing else than the nickname waits as the first for it, and
where it is there, its handler has not run and nothing was sent, nothing else is typed. -/
def Patient (c : ChatClient) : ClientEvent → Prop
  | .established => c.link = .connecting → ∀ message, c.queued.head? = some message → message = c.nickname
  | .typed message => c.link = .established → c.sent = [] → message = c.nickname
  | _ => True

/-- The invariant of the runs that meet the condition. -/
structure Named (c : ChatClient) : Prop where
  first : c.NamedFirst
  connecting : c.link = .connecting → c.sent = []
  connected : c.link = .connected → c.sent ≠ []

section Named

variable {c : ChatClient}

theorem sendMessage_of_sends (h : c.link = .established ∨ c.link = .connected) (message : List UInt8) :
    c.sendMessage message = { c with sent := c.sent ++ [message] } := by
  rcases h with h | h <;> rw [sendMessage, h]

theorem sendMessage_of_connecting (h : c.link = .connecting) (message : List UInt8) :
    c.sendMessage message = { c with queued := c.queued ++ [message] } := by
  rw [sendMessage, h]

theorem sendMessage_of_failed (h : c.link = .failed) (message : List UInt8) : c.sendMessage message = c := by
  rw [sendMessage, h]

theorem Named.start (nickname : List UInt8) : (ChatClient.start nickname).Named where
  first _ hno := by cases hno
  connecting _ := rfl
  connected hno := by cases hno

/-- A message behind the first. -/
theorem NamedFirst.append {sent : List (List UInt8)} (h : c.NamedFirst) {message : List UInt8}
    (hsent : sent = c.sent ++ [message]) (hmessage : c.sent = [] → message = c.nickname) :
    ∀ m, sent.head? = some m → m = c.nickname := by
  intro m hm
  rw [hsent] at hm
  cases hnone : c.sent with
  | nil =>
    rw [hnone] at hm
    exact Option.some.inj hm ▸ hmessage hnone
  | cons first rest =>
    rw [hnone] at hm
    exact h m (hnone ▸ hm)

/-- Reading and printing do not touch what was sent. -/
theorem Named.complete (h : c.Named) : c.complete.Named := by
  unfold ChatClient.complete
  split_ifs
  · exact ⟨h.first, h.connecting, h.connected⟩
  · exact h

theorem Named.step (h : c.Named) {e : ClientEvent} (he : c.Patient e) : (c.step e).Named := by
  cases e with
  | established =>
    rw [ChatClient.step]
    split_ifs with hlink
    · refine ⟨fun message hmessage => he hlink message ?_, fun hno => (nomatch hno), fun hno => (nomatch hno)⟩
      have hsent : (c.sent ++ c.queued).head? = some message := hmessage
      rwa [h.connecting hlink] at hsent
    · exact h
  | writeError => exact ⟨h.first, h.connecting, h.connected⟩
  | connectHandler =>
    rw [ChatClient.step]
    split_ifs
    · rw [sendMessage_of_sends (.inr rfl)]
      exact ⟨h.first.append rfl fun _ => rfl, fun hno => (nomatch hno), fun _ => List.append_ne_nil_of_right_ne_nil _ (by simp)⟩
    · exact h
  | connectError =>
    rw [ChatClient.step]
    split_ifs
    · exact ⟨h.first, fun hno => (nomatch hno), fun hno => (nomatch hno)⟩
    · exact h
  | typed message =>
    rw [ChatClient.step]
    cases hlink : c.link with
    | connecting =>
      rw [sendMessage_of_connecting hlink]
      exact ⟨h.first, h.connecting, h.connected⟩
    | failed => rwa [sendMessage_of_failed hlink]
    | established =>
      rw [sendMessage_of_sends (.inl hlink)]
      refine ⟨h.first.append rfl (he hlink), fun hno => ?_, fun _ => List.append_ne_nil_of_right_ne_nil _ (by simp)⟩
      exact absurd (hlink.symm.trans hno) (by decide)
    | connected =>
      rw [sendMessage_of_sends (.inr hlink)]
      refine ⟨h.first.append rfl fun hnone => absurd hnone (h.connected hlink), fun hno => ?_,
        fun _ => List.append_ne_nil_of_right_ne_nil _ (by simp)⟩
      exact absurd (hlink.symm.trans hno) (by decide)
  | data bytes =>
    rw [ChatClient.step]
    split_ifs
    · exact Named.complete (c := { c with buffer := c.buffer ++ bytes, received := c.received ++ bytes })
        ⟨h.first, h.connecting, h.connected⟩
    · exact h
  | found =>
    rw [ChatClient.step]
    split_ifs
    · exact h.complete
    · exact h
  | readError =>
    rw [ChatClient.step]
    split_ifs
    · exact ⟨h.first, h.connecting, h.connected⟩
    · exact h

end Named

/-- **The nickname is sent first just when nothing is typed too early**: the server takes the
first line for the nickname.  Typed before the connection is there, a message is too early
if it is the first that still waits then. -/
theorem named_iff (nickname : List UInt8) (es : List ClientEvent) :
    Run.Throughout step NamedFirst (start nickname) es ↔ Run.Along step Patient (start nickname) es := by
  refine Run.throughout_iff_along (I := Named) (fun _ h => h.first) (fun c e h he => h.step he) (fun c e h he hfirst => ?_)
    (Named.start nickname) es
  cases e with
  | established =>
    obtain ⟨hlink, hrest⟩ := Classical.not_imp.1 he
    push Not at hrest
    obtain ⟨message, hhead, hne⟩ := hrest
    rw [step, if_pos hlink] at hfirst
    refine hne (hfirst message ?_)
    show (c.sent ++ c.queued).head? = some message
    rwa [h.connecting hlink]
  | typed message =>
    obtain ⟨hlink, hrest⟩ := Classical.not_imp.1 he
    obtain ⟨hnone, hne⟩ := Classical.not_imp.1 hrest
    rw [step, sendMessage_of_sends (.inl hlink)] at hfirst
    refine hne (hfirst message ?_)
    show (c.sent ++ [message]).head? = some message
    rw [hnone]
    rfl
  | _ => exact absurd trivial he

end ChatClient
end ChatServer
end SocketCommunication
