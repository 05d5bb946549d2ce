/-
# The chat server

`Service` is the object of one connection, `Server` the connections with the table
`m_clients` that they share.

Each event of `Server.step` is what one thread does without a pause: a read completes,
or a handler goes on, with the mutex of the table, in `registerClient` or in
`broadcastMessage`.  Between these the handlers of other connections may run.

* `Server.Wf`: the table is what the connections have registered, in every run.
-/

import Mathlib.Logic.Function.Basic
import Mathlib.Tactic.Common
import SocketCommunication.Lib.Run

namespace SocketCommunication
namespace ChatServer

/-- `": "`. -/
def colon : List UInt8 := ": ".toUTF8.data.toList

def newline : UInt8 := 0x0A

/-- What follows the nickname when a connection has entered: `"님이 입장하셨습니다."` in the
encoding of the source file, CP949. -/
def entered : List UInt8 :=
  [0xB4, 0xD4, 0xC0, 0xCC, 0x20, 0xC0, 0xD4, 0xC0, 0xE5, 0xC7, 0xCF, 0xBC, 0xCC, 0xBD, 0xC0, 0xB4,
   0xCF, 0xB4, 0xD9, 0x2E]

/-- The answer to a nickname that is taken: `"해당 닉네임이 이미 사용중입니다, 다시 시도해 주세요\n"`
in CP949, with the zero byte at its end, since `asio::buffer` is given the array. -/
def nicknameTaken : List UInt8 :=
  [0xC7, 0xD8, 0xB4, 0xE7, 0x20, 0xB4, 0xD0, 0xB3, 0xD7, 0xC0, 0xD3, 0xC0, 0xCC, 0x20, 0xC0, 0xCC,
   0xB9, 0xCC, 0x20, 0xBB, 0xE7, 0xBF, 0xEB, 0xC1, 0xDF, 0xC0, 0xD4, 0xB4, 0xCF, 0xB4, 0xD9, 0x2C,
   0x20, 0xB4, 0xD9, 0xBD, 0xC3, 0x20, 0xBD, 0xC3, 0xB5, 0xB5, 0xC7, 0xD8, 0x20, 0xC1, 0xD6, 0xBC,
   0xBC, 0xBF, 0xE4, 0x0A, 0x00]

/-- What is broadcast: a line that was sent, or that a connection has entered. -/
inductive Notice where
  | message (nickname line : List UInt8)
  | entry (nickname : List UInt8)
  deriving DecidableEq

/-- The argument of `broadcastMessage`. -/
def Notice.text : Notice → List UInt8
  | .message nickname line => nickname ++ colon ++ line
  | .entry nickname => nickname ++ entered

/-- Where the handlers of a connection are. -/
inductive Phase where
  /-- Not accepted yet. -/
  | absent
  /-- `async_read_until` was called. -/
  | reading
  /-- Before the lock of `registerClient`. -/
  | registering
  /-- Before the lock of `broadcastMessage`. -/
  | broadcasting (notice : Notice)
  /-- An error completion was delivered; no read was started after it. -/
  | failed
  /-- `m_sock->close()` was called; no read was started after it. -/
  | closed
  deriving DecidableEq

/-- The connection is accepted, no error was delivered for it and it was not closed. -/
def Phase.isOpen : Phase → Bool
  | .absent => false
  | .reading => true
  | .registering => true
  | .broadcasting _ => true
  | .failed => false
  | .closed => false

def Phase.isBroadcasting : Phase → Bool
  | .broadcasting _ => true
  | _ => false

theorem Phase.eq_broadcasting {p : Phase} (h : p.isBroadcasting) : ∃ notice, p = .broadcasting notice := by
  cases p with
  | broadcasting notice => exact ⟨notice, rfl⟩
  | _ => cases h

/-- The line that the connection still has to broadcast. -/
def Phase.pending : Phase → List (List UInt8)
  | .broadcasting (.message _ line) => [line]
  | _ => []

structure Service where
  /-- `m_nickname`. -/
  nickname : List UInt8
  phase : Phase
  /-- The nicknames it has registered so far. -/
  held : List (List UInt8)
  /-- The lines it sent after it had registered. -/
  said : List (List UInt8)
  deriving DecidableEq

namespace Service

def absent : Service := ⟨[], .absent, [], []⟩

/-- A new connection. -/
def accept : Service := ⟨[], .reading, [], []⟩

def startHandling (c : Service) : Service := { c with phase := .reading }

/-- `onRequestReceived` with an error. -/
def fail (c : Service) : Service := { c with phase := .failed }

/-- `onRequestReceived` with a line, up to the first lock. -/
def onRequestReceived (c : Service) (message : List UInt8) : Service :=
  let said := if c.held = [] then c.said else c.said ++ [message]
  if c.nickname ≠ [] then { c with said, phase := .broadcasting (.message c.nickname message) }
  else { c with said, nickname := message, phase := .registering }

/-- `registerClient` has returned true. -/
def register (c : Service) : Service :=
  { c with held := c.held ++ [c.nickname], phase := .broadcasting (.entry c.nickname) }

/-- `registerClient` has closed the socket and returned false. -/
def close (c : Service) : Service := { c with phase := .closed }

@[simp] theorem held_onRequestReceived (c : Service) (m : List UInt8) : (c.onRequestReceived m).held = c.held := by
  unfold onRequestReceived
  dsimp only
  split_ifs <;> rfl

end Service

/-- An `async_write`. -/
structure Write where
  socket : ℕ
  text : List UInt8
  deriving DecidableEq

/-- A call of `broadcastMessage`: the writes it started, and which connections were
registered and open then. -/
structure Broadcast where
  sender : ℕ
  notice : Notice
  writes : List Write
  registered : ℕ → Bool
  live : ℕ → Bool

structure Server where
  /-- The connections, numbered as they are accepted. -/
  services : ℕ → Service
  accepted : ℕ
  /-- `m_clients`: the nicknames with the sockets of their `Client`s. -/
  clients : List (List UInt8 × ℕ)
  broadcasts : List Broadcast
  /-- The writes of `registerClient`. -/
  refusals : List Write

/-- A completion, or a handler that gets the lock. -/
inductive Event where
  | accept
  | line (i : ℕ) (message : List UInt8)
  | readError (i : ℕ)
  | resume (i : ℕ)
  deriving DecidableEq

namespace Server

def empty : Server := ⟨fun _ => .absent, 0, [], [], []⟩

/-- `m_clients.find(nickname) == m_clients.end()`. -/
def Free (s : Server) (nickname : List UInt8) : Prop := s.clients.lookup nickname = none

instance (s : Server) (nickname : List UInt8) : Decidable (s.Free nickname) :=
  inferInstanceAs (Decidable (_ = none))

def setService (s : Server) (i : ℕ) (c : Service) : Server :=
  { s with services := Function.update s.services i c }

/-- The nicknames under which a connection is in the table. -/
def namesOf (s : Server) (i : ℕ) : List (List UInt8) := (s.clients.filter fun p => p.2 = i).map (·.1)

/-- The lines of a connection that were broadcast. -/
def messagesOf (s : Server) (i : ℕ) : List (List UInt8) :=
  s.broadcasts.filterMap fun b =>
    match b.notice with
    | .message _ line => if b.sender = i then some line else none
    | .entry _ => none

/-- `m_clients[m_nickname] = std::make_shared<Client>(m_sock, m_nickname)`. -/
def insertClient (s : Server) (i : ℕ) : Server :=
  { s with clients := s.clients ++ [((s.services i).nickname, i)] }.setService i (s.services i).register

/-- The answer to a nickname that is taken. -/
def refuseClient (s : Server) (i : ℕ) : Server :=
  { s with refusals := s.refusals ++ [Write.mk i nicknameTaken] }.setService i (s.services i).close

def registerClient (s : Server) (i : ℕ) : Server :=
  if s.Free (s.services i).nickname then s.insertClient i else s.refuseClient i

/-- The loop of `broadcastMessage`: a write to each client. -/
def broadcastOf (s : Server) (i : ℕ) (notice : Notice) : Broadcast where
  sender := i
  notice
  writes := s.clients.map fun p => ⟨p.2, notice.text ++ [newline]⟩
  registered j := s.namesOf j ≠ []
  live j := (s.services j).phase.isOpen

/-- `broadcastMessage`, and then `StartHandling`. -/
def broadcastMessage (s : Server) (i : ℕ) (notice : Notice) : Server :=
  { s with broadcasts := s.broadcasts ++ [s.broadcastOf i notice] }.setService i (s.services i).startHandling

def step (s : Server) : Event → Server
  | .accept => { s with accepted := s.accepted + 1 }.setService s.accepted .accept
  | .line i message =>
    if (s.services i).phase = .reading then s.setService i ((s.services i).onRequestReceived message) else s
  | .readError i =>
    if (s.services i).phase = .reading then s.setService i (s.services i).fail else s
  | .resume i =>
    match (s.services i).phase with
    | .registering => s.registerClient i
    | .broadcasting notice => s.broadcastMessage i notice
    | _ => s

/-- The events that nothing waits for. -/
def Idle (s : Server) : Event → Prop
  | .accept => False
  | .line i _ => (s.services i).phase ≠ .reading
  | .readError i => (s.services i).phase ≠ .reading
  | .resume i => (s.services i).phase ≠ .registering ∧ ∀ notice, (s.services i).phase ≠ .broadcasting notice

section Step

variable {s : Server}

/-- **What one event can do.** -/
theorem step_cases {Q : Event → Server → Prop}
    (haccept : Q .accept ({ s with accepted := s.accepted + 1 }.setService s.accepted .accept))
    (hline : ∀ i m, (s.services i).phase = .reading →
      Q (.line i m) (s.setService i ((s.services i).onRequestReceived m)))
    (herror : ∀ i, (s.services i).phase = .reading →
      Q (.readError i) (s.setService i (s.services i).fail))
    (hinsert : ∀ i, (s.services i).phase = .registering → s.Free (s.services i).nickname →
      Q (.resume i) (s.insertClient i))
    (hrefuse : ∀ i, (s.services i).phase = .registering → ¬ s.Free (s.services i).nickname →
      Q (.resume i) (s.refuseClient i))
    (hbroadcast : ∀ i notice, (s.services i).phase = .broadcasting notice →
      Q (.resume i) (s.broadcastMessage i notice))
    (hidle : ∀ e, s.Idle e → Q e s) (e : Event) : Q e (s.step e) := by
  cases e with
  | accept => exact haccept
  | line i m =>
    rw [step]
    split_ifs with h
    · exact hline i m h
    · exact hidle _ h
  | readError i =>
    rw [step]
    split_ifs with h
    · exact herror i h
    · exact hidle _ h
  | resume i =>
    rw [step]
    split
    · next h =>
      rw [registerClient]
      split_ifs with hfree
      · exact hinsert i h hfree
      · exact hrefuse i h hfree
    · next notice h => exact hbroadcast i notice h
    · next hreg hbr => exact hidle _ ⟨hreg, hbr⟩

@[simp] theorem services_setService_self (s : Server) (i : ℕ) (c : Service) : (s.setService i c).services i = c :=
  Function.update_self ..

theorem services_setService_of_ne (s : Server) {i j : ℕ} (hj : j ≠ i) (c : Service) :
    (s.setService i c).services j = s.services j := Function.update_of_ne hj ..

/-- What holds of the other connections, and of the new state of one, holds of all. -/
theorem forall_setService {P : ℕ → Service → Prop} {i : ℕ} {c : Service} (h : ∀ j, j ≠ i → P j (s.services j))
    (hc : P i c) : ∀ j, P j ((s.setService i c).services j) := by
  intro j
  by_cases hj : j = i
  · rw [hj, services_setService_self]
    exact hc
  · rw [services_setService_of_ne s hj]
    exact h j hj

@[simp] theorem namesOf_setService (s : Server) (i j : ℕ) (c : Service) : (s.setService i c).namesOf j = s.namesOf j :=
  rfl

theorem messagesOf_broadcastMessage (s : Server) (i j : ℕ) (notice : Notice) :
    (s.broadcastMessage i notice).messagesOf j =
      s.messagesOf j ++ if i = j then (Phase.broadcasting notice).pending else [] := by
  show List.filterMap _ (s.broadcasts ++ [s.broadcastOf i notice]) = _
  rw [List.filterMap_append, messagesOf]
  cases notice with
  | message nickname line => by_cases h : i = j <;> simp [broadcastOf, Phase.pending, h]
  | entry nickname => simp [broadcastOf, Phase.pending]

theorem namesOf_insertClient (s : Server) (i j : ℕ) :
    (s.insertClient i).namesOf j = s.namesOf j ++ if i = j then [(s.services i).nickname] else [] := by
  show (List.filter _ (s.clients ++ [_])).map _ = _
  rw [List.filter_append, List.map_append, namesOf]
  by_cases h : i = j
  · simp [h]
  · simp [h]

end Step

/-- What holds of the table and of the connections in every run. -/
structure Wf (s : Server) : Prop where
  absent : ∀ i, s.accepted ≤ i → s.services i = .absent
  /-- The table is what was registered. -/
  namesOf_eq : ∀ i, s.namesOf i = (s.services i).held
  /-- A nickname is set by registering. -/
  held : ∀ i, (s.services i).nickname ≠ [] → (s.services i).phase ≠ .registering → (s.services i).phase ≠ .closed →
    (s.services i).held ≠ []

namespace Wf

theorem empty : Wf .empty where
  absent _ _ := rfl
  namesOf_eq _ := rfl
  held _ h _ _ := absurd rfl h

variable {s : Server} {i : ℕ}

/-- A connection that was accepted. -/
theorem lt_accepted (h : s.Wf) (hi : s.services i ≠ .absent) : i < s.accepted := by
  by_contra hle
  exact hi (h.absent i (Nat.not_lt.1 hle))

/-- A new state of one connection keeps the rest. -/
theorem setService (h : s.Wf) {c : Service} (hi : i < s.accepted) (hheld : c.held = (s.services i).held)
    (hnick : c.nickname ≠ [] → c.phase ≠ .registering → c.phase ≠ .closed → c.held ≠ []) : (s.setService i c).Wf := by
  have hother : ∀ j, j ≠ i → (s.setService i c).services j = s.services j := fun j hj =>
    s.services_setService_of_ne hj c
  constructor
  · intro j hj
    have hj' : s.accepted ≤ j := hj
    rw [hother j (by omega)]
    exact h.absent j hj'
  · intro j
    rw [namesOf_setService, h.namesOf_eq]
    by_cases hj : j = i
    · rw [hj, services_setService_self, hheld]
    · rw [hother j hj]
  · exact forall_setService (P := fun _ c => c.nickname ≠ [] → c.phase ≠ .registering → c.phase ≠ .closed → c.held ≠ [])
      (fun j _ => h.held j) hnick

/-- The invariant does not look at the writes. -/
theorem congr {t : Server} (h : s.Wf) (hservices : t.services = s.services) (haccepted : t.accepted = s.accepted)
    (hclients : t.clients = s.clients) : t.Wf := by
  have hnames : t.namesOf = s.namesOf := by
    funext j
    rw [namesOf, namesOf, hclients]
  constructor
  · rw [hservices, haccepted]
    exact h.absent
  · rw [hservices, hnames]
    exact h.namesOf_eq
  · rw [hservices]
    exact h.held

theorem insertClient (h : s.Wf) (hi : i < s.accepted) : (s.insertClient i).Wf := by
  have hother : ∀ j, j ≠ i → (s.insertClient i).services j = s.services j := fun j hj =>
    services_setService_of_ne _ hj _
  constructor
  · intro j hj
    have hj' : s.accepted ≤ j := hj
    rw [hother j (by omega)]
    exact h.absent j hj'
  · intro j
    rw [namesOf_insertClient, h.namesOf_eq]
    by_cases hj : j = i
    · subst hj
      rw [if_pos rfl]
      show _ = (Server.services (Server.setService _ j _) j).held
      rw [services_setService_self]
      rfl
    · rw [hother j hj, if_neg (Ne.symm hj), List.append_nil]
  · intro j hnick hreg hclosed
    by_cases hj : j = i
    · subst hj
      show (Server.services (Server.setService _ j _) j).held ≠ []
      rw [services_setService_self]
      exact List.append_ne_nil_of_right_ne_nil _ (List.cons_ne_nil _ _)
    · rw [hother j hj] at hnick hreg hclosed ⊢
      exact h.held j hnick hreg hclosed

/-- A nickname is in the table for those who registered it. -/
theorem mem_clients_iff (h : s.Wf) {nickname : List UInt8} :
    (nickname, i) ∈ s.clients ↔ nickname ∈ (s.services i).held := by
  rw [← h.namesOf_eq, namesOf, List.mem_map]
  constructor
  · intro hmem
    exact ⟨(nickname, i), List.mem_filter.2 ⟨hmem, decide_eq_true rfl⟩, rfl⟩
  · rintro ⟨⟨n, j⟩, hfilter, rfl⟩
    obtain ⟨hmem, hj⟩ := List.mem_filter.1 hfilter
    rw [← of_decide_eq_true hj]
    exact hmem

/-- A nickname is free when nobody has registered it. -/
theorem free_iff (h : s.Wf) (nickname : List UInt8) :
    s.Free nickname ↔ ∀ i, nickname ∉ (s.services i).held := by
  rw [Free, List.lookup_eq_none_iff]
  constructor
  · intro hnone i hi
    exact bne_iff_ne.1 (hnone _ (h.mem_clients_iff.2 hi)) rfl
  · rintro hheld ⟨n, i⟩ hmem
    refine bne_iff_ne.2 ?_
    rintro rfl
    exact hheld i (h.mem_clients_iff.1 hmem)

theorem accept (h : s.Wf) : ({ s with accepted := s.accepted + 1 }.setService s.accepted .accept).Wf := by
  have hnew := h.absent s.accepted (Nat.le_refl _)
  have hup : Wf { s with accepted := s.accepted + 1 } := by
    refine ⟨fun j hj => h.absent j ?_, h.namesOf_eq, h.held⟩
    have hj' : s.accepted + 1 ≤ j := hj
    omega
  refine hup.setService (Nat.lt_succ_self _) ?_ fun hnick => absurd rfl hnick
  show [] = (s.services s.accepted).held
  rw [hnew]
  rfl

end Wf

/-- **The table is what the connections registered**, after every event. -/
theorem Wf.step {s : Server} (h : s.Wf) (e : Event) : (s.step e).Wf := by
  have hlt : ∀ {i p}, (s.services i).phase = p → p ≠ .absent → i < s.accepted := by
    intro i p hp hne
    refine h.lt_accepted fun habsent => hne ?_
    rw [← hp, habsent]
    rfl
  refine step_cases (Q := fun _ t => t.Wf) h.accept ?_ ?_ ?_ ?_ ?_ (fun _ _ => h) e
  · intro i m hi
    refine h.setService (hlt hi (by decide)) (Service.held_onRequestReceived _ _) fun _ hreg _ => ?_
    rw [Service.held_onRequestReceived]
    refine h.held i ?_ (by rw [hi]; decide) (by rw [hi]; decide)
    intro hnick
    refine hreg ?_
    rw [Service.onRequestReceived, if_neg (not_not.2 hnick)]
  · intro i hi
    exact h.setService (hlt hi (by decide)) rfl fun hnick _ _ => h.held i hnick (by rw [hi]; decide) (by rw [hi]; decide)
  · intro i hi _
    exact h.insertClient (hlt hi (by decide))
  · intro i hi _
    have hwrite : Wf { s with refusals := s.refusals ++ [Write.mk i nicknameTaken] } := h.congr rfl rfl rfl
    exact hwrite.setService (hlt hi (by decide)) rfl fun _ _ hclosed => absurd rfl hclosed
  · intro i notice hi
    have hnick : (s.services i).nickname ≠ [] → (s.services i).held ≠ [] := fun hnick =>
      h.held i hnick (by rw [hi]; exact fun h => nomatch h) (by rw [hi]; exact fun h => nomatch h)
    have hwrites : Wf { s with broadcasts := s.broadcasts ++ [s.broadcastOf i notice] } := h.congr rfl rfl rfl
    exact hwrites.setService (hlt hi fun h => nomatch h) rfl fun hne _ _ => hnick hne

end Server
end ChatServer
end SocketCommunication
