/-
# The steps of the matching server

One event is one handler run to its end: a connection is accepted, a pending
operation completes, a timer expires, a signal arrives.  An operation started on
an open socket may complete either way, in any order with the others and also
after the socket was closed; one started on a closed socket fails.

After the handler, a session that no pending operation holds is destroyed.  A
process that ends leaves the database as it is.
-/

import SocketCommunication.Lib.Run
import SocketCommunication.Matching.Session

namespace SocketCommunication
namespace Matching

open Effect

inductive Event where
  /-- A connection is accepted; `none` when its peer is gone before the constructor
  asks for the address, whose exception leaves the handler. -/
  | accept (remoteIp : Option String) (mirrorPort : ℤ)
  /-- The `i`-th pending operation of `sid` completes. -/
  | complete (sid i : ℕ) (result : Session.Completion)
  | sessionCheck
  | broadcast
  | tick (nanoseconds : ℕ)
  | signal

namespace Server

section Handlers

variable (env : Env)

/-- The sessions of `sessions_`, with their tokens. -/
def entries (s : Server) : List (String × ℕ) :=
  (env.order 0 s.sessions.entries).map fun e => (e.1, e.2)

/-- The tokens that `check_inactive_sessions` removes. -/
def sessionsToRemove (s : Server) : List String :=
  ((s.entries env).filter fun e =>
    (s.get? e.2).all fun sess => ! sess.isActive s.clock sessionTimeout).map (·.1)

/-- Remove the tokens, and end the sessions that are still there. -/
def removeInactive : List String → ServerM Unit
  | [] => return ()
  | token :: tokens => do
    let s ← get
    match s.sessions.lookup token with
    | none => removeInactive tokens
    | some sid =>
      set { s with sessions := s.sessions.erase token }
      onlyIf (s.get? sid).isSome (Session.handleError env sid)
      removeInactive tokens

def checkInactiveSessions : ServerM Unit := do
  let s ← get
  onlyIf s.running (removeInactive env (s.sessionsToRemove env))

/-- The sessions of users, and what `broadcastCCU` says of them. -/
def users (s : Server) : List (ℕ × Session) :=
  (s.entries env).filterMap fun e =>
    (s.get? e.2).bind fun sess => if sess.userId ≠ 0 then some (e.2, sess) else none

def broadcastMessage (s : Server) : Json :=
  .obj [("action", .str "CCUList"), ("users", .arr ((s.users env).map fun u =>
    .obj [("nickName", .str u.2.nickName), ("status", .str u.2.status)]))]

def broadcastCCU : ServerM Unit :=
  modify fun s =>
    (((s.users env).filter fun u => u.2.status = "대기중").map (·.1)).foldl
      (fun t sid => start sid (.writeBroadcast (s.broadcastMessage env)) t) s

/-- End the sessions of `sessions_` one after the other. -/
def endSessions : List ℕ → ServerM Unit
  | [] => return ()
  | sid :: sids => do
    let s ← get
    onlyIf (s.get? sid).isSome (Session.handleError env sid)
    endSessions sids

def stop : ServerM Unit := do
  let s ← get
  onlyIf s.running do
    set { s with running := false }
    endSessions env ((s.entries env).map (·.2))
    modify fun s => { s with sessions := ∅ }

end Handlers

/-- A connection is accepted. -/
def accept (remoteIp : String) (mirrorPort : ℤ) (s : Server) : Server :=
  { s with
    heap := s.heap.insert s.nextId (Session.make remoteIp mirrorPort s.clock)
    nextId := s.nextId + 1 }

/-- Take the `i`-th operation out of the pending ones. -/
def take (sid i : ℕ) : Server → Server :=
  modifySession sid fun sess => { sess with pending := sess.pending.eraseIdx i }

/-- The end of a handler of `sid`. -/
def reap (sid : ℕ) (s : Server) : Server :=
  match s.get? sid with
  | some sess => if sess.pending.isEmpty then Session.destroy sid sess s else s
  | none => s

/-- Run a handler; an exception that leaves it ends the process. -/
def run (c : ServerM Unit) (s : Server) : Server :=
  match c s with
  | .ok _ t => t
  | .error _ t => t.halt

/-- The pending operation that an event completes. -/
def completed (s : Server) (sid i : ℕ) : Option PendingOp :=
  (s.get? sid).bind fun sess => sess.pending[i]?

/-- An operation may complete so. -/
def canComplete (p : PendingOp) : Session.Completion → Bool
  | .ok _ => p.live
  | .error => true

/-- **One step of the server.**  An event that cannot happen changes nothing. -/
def step (env : Env) (s : Server) : Event → Server
  | .accept (some remoteIp) mirrorPort =>
    if s.running then s.accept remoteIp mirrorPort else s
  | .accept none _ => if s.running then s.halt else s
  | .complete sid i result =>
    match s.completed sid i with
    | some p =>
      if canComplete p result then
        reap sid (run (Session.complete env sid p.op result) (take sid i s))
      else s
    | none => s
  | .sessionCheck => run (checkInactiveSessions env) s
  | .broadcast => if s.running then run (broadcastCCU env) s else s
  | .tick nanoseconds => { s with clock := s.clock + nanoseconds }
  | .signal => if s.running then (run (stop env) s).halt else s

/-- The event can happen. -/
def Happens (s : Server) : Event → Prop
  | .accept _ _ | .broadcast | .signal => s.running
  | .complete sid i result => ∃ p, s.completed sid i = some p ∧ canComplete p result
  | .sessionCheck | .tick _ => True

theorem step_of_not_happens {env : Env} {s : Server} {e : Event} (h : ¬ s.Happens e) : step env s e = s := by
  cases e with
  | accept remoteIp mirrorPort =>
    cases remoteIp with
    | none => exact if_neg h
    | some remoteIp => exact if_neg h
  | complete sid i result =>
    rw [step]
    cases hp : s.completed sid i with
    | none => rfl
    | some p => exact if_neg fun hcan => h ⟨p, hp, hcan⟩
  | sessionCheck | tick => exact absurd trivial h
  | broadcast | signal => exact if_neg h

/-- What a handler that throws nothing leaves. -/
theorem run_of_wp {s : Server} {c : ServerM Unit} {P : Server → Prop}
    (h : wp c (fun _ => P) (fun _ _ => False) s) : P (run c s) := by
  obtain ⟨_, t, ht, hP⟩ := wp_returns h
  rwa [run, ht]

/-- A completion runs the handler of its operation. -/
theorem step_completes {env : Env} {s : Server} {sid i : ℕ} {p : PendingOp} {result : Session.Completion}
    (hp : s.completed sid i = some p) (hcan : canComplete p result) :
    step env s (.complete sid i result) =
      reap sid (run (Session.complete env sid p.op result) (take sid i s)) := by
  simp only [step, hp, hcan, if_true]

/-- The server as `run` starts it, on any database. -/
structure Init (s : Server) : Prop where
  heap : s.heap = ∅
  mirrors : s.mirrors = ∅
  sessions : s.sessions = ∅
  connectedIps : s.connectedIps = ∅
  tokens : s.tokens = ∅
  running : s.running
  trace : s.trace = []

/-- The server on the database of `db-init.sql`. -/
def init : Server where
  world := .init
  heap := ∅
  nextId := 0
  mirrors := ∅
  sessions := ∅
  connectedIps := ∅
  tokens := ∅
  running := true
  version := "1.0.0"
  uuids := 0
  clock := 0
  trace := []

theorem init_init : Init init := ⟨rfl, rfl, rfl, rfl, rfl, rfl, rfl⟩

/-- The session sends a message, and is answered. -/
def sends (sid : ℕ) (message : Json) : List Event :=
  [.complete sid 0 (.ok (some message)), .complete sid 0 (.ok none)]

/-- A client connects. -/
def connects (sid : ℕ) (remoteIp : String) : List Event :=
  .accept (some remoteIp) 0 :: sends sid (.obj [("version", .str "1.0.0")])

/-- The request of a client to be logged in. -/
def credentials (action userName password : String) : Json :=
  .obj [("action", .str action), ("userName", .str userName), ("password", .str password)]

/-- A mirror connects. -/
def hostsAt (sid : ℕ) (remoteIp : String) (port : ℤ) : List Event :=
  .accept (some remoteIp) 0 :: sends sid (.obj [("connectionType", .str "mirror"), ("port", .int port)])

/-- The request for a room. -/
def roomRequest : Json :=
  .obj [("action", .str "createRoom"), ("roomName", .str "room"), ("maxPlayers", .int 4)]

abbrev Reachable (env : Env) : Server → Prop := Run.Reachable (step env) Init

end Server

end Matching
end SocketCommunication
