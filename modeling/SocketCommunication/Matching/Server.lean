/-
# The state of the matching server

The objects of `core/session.h` and `core/server.h`: the sessions with their
pending asynchronous operations, the registries of `Server`, the database, and
the methods of `core/server.cpp` that a session calls.

Handlers run one at a time on the one thread of `main.cpp`, so a handler is a
command `ServerM`.  A session is an object of the heap under a number that is
never used twice; a `weak_ptr` is that number, and locks while the object is
there.  The object is there as long as a pending operation holds it.

`trace` is the history: what the controllers were asked, and how requests were
answered.  Nothing in the program reads it.
-/

import SocketCommunication.Matching.Controller
import Mathlib.Data.List.AList
import Mathlib.Data.Finset.Basic

namespace SocketCommunication
namespace Matching

open Effect

/-- An asynchronous operation on the socket of a session, with what it writes. -/
inductive Op where
  | readHandshake
  | readMessage
  | writeHandshake (response : Json)
  | writeResponse (response : Json)
  | writeBroadcast (response : Json)
  | writeMirror (response : Json)

/-- A pending operation.  One that was started on a closed socket is not `live`:
it can only fail. -/
structure PendingOp where
  op : Op
  live : Bool

/-- `Session`. -/
structure Session where
  isOpen : Bool
  userId : ℤ
  userName : String
  nickName : String
  status : String
  lastActivity : ℕ
  token : String
  isMirror : Bool
  mirrorPort : ℤ
  remoteIp : String
  pending : List PendingOp
  deriving Inhabited

/-- An entry of the history. -/
inductive Act where
  /-- The session gave a request to a controller. -/
  | handled (sid : ℕ) (type : ControllerType) (request : Json)
  /-- The session answered a request of the action with the response of a controller. -/
  | answered (sid : ℕ) (action : String) (response : Json)

/-- `Server`.  The times are nanoseconds of `steady_clock`. -/
structure Server where
  world : World
  heap : AList fun _ : ℕ => Session
  nextId : ℕ
  mirrors : AList fun _ : ℤ => ℕ
  sessions : AList fun _ : String => ℕ
  connectedIps : Finset String
  tokens : AList fun _ : ℤ => String
  running : Bool
  version : String
  /-- The number of UUIDs drawn. -/
  uuids : ℕ
  clock : ℕ
  trace : List Act

abbrev ServerM := EStateM Exn Server

namespace Server

/-- The object `sid`. -/
def get? (s : Server) (sid : ℕ) : Option Session := s.heap.lookup sid

/-- Write the object `sid`, if it is there. -/
def modifySession (sid : ℕ) (f : Session → Session) (s : Server) : Server :=
  match s.get? sid with
  | some sess => { s with heap := s.heap.insert sid (f sess) }
  | none => s

theorem modifySession_of_some {sid : ℕ} {f : Session → Session} {s : Server} {sess : Session}
    (h : s.get? sid = some sess) : modifySession sid f s = { s with heap := s.heap.insert sid (f sess) } := by
  simp [modifySession, h]

theorem modifySession_of_none {sid : ℕ} {f : Session → Session} {s : Server}
    (h : s.get? sid = none) : modifySession sid f s = s := by
  simp [modifySession, h]

/-- No object is there. -/
theorem get?_of_empty {s : Server} (h : s.heap = ∅) (sid : ℕ) : s.get? sid = none := by
  rw [get?, h, AList.lookup_empty]

theorem get?_of_insert {s t : Server} {sid : ℕ} {sess : Session} (h : t.heap = s.heap.insert sid sess)
    (sid' : ℕ) : t.get? sid' = if sid' = sid then some sess else s.get? sid' := by
  rw [get?, h]
  split_ifs with hsid
  · rw [hsid, AList.lookup_insert]
  · exact AList.lookup_insert_ne hsid

theorem get?_modifySession (sid sid' : ℕ) (f : Session → Session) (s : Server) :
    (modifySession sid f s).get? sid' = if sid' = sid then (s.get? sid).map f else s.get? sid' := by
  cases h : s.get? sid with
  | none =>
    rw [modifySession_of_none h]
    split_ifs with hsid
    · rw [hsid, h, Option.map_none]
    · rfl
  | some sess =>
    rw [modifySession_of_some h, get?_of_insert rfl, Option.map_some]

theorem get?_modifySession_self {sid : ℕ} {f : Session → Session} {s : Server} {sess : Session}
    (h : s.get? sid = some sess) : (modifySession sid f s).get? sid = some (f sess) := by
  rw [get?_modifySession, if_pos rfl, h, Option.map_some]

theorem get?_modifySession_of_ne {sid sid' : ℕ} {f : Session → Session} {s : Server} (h : sid' ≠ sid) :
    (modifySession sid f s).get? sid' = s.get? sid' := by
  rw [get?_modifySession, if_neg h]

/-- What one object is read for, where no other is written. -/
theorem map_get?_update {β : Type*} {s t : Server} {sid : ℕ} {x : Option Session} (f : Session → β)
    (hget : ∀ k, t.get? k = if k = sid then x else s.get? k) :
    (fun k => (t.get? k).map f) = Function.update (fun k => (s.get? k).map f) sid (x.map f) := by
  funext k
  rw [hget]
  by_cases hsid : k = sid
  · rw [if_pos hsid, hsid, Function.update_self]
  · rw [if_neg hsid, Function.update_of_ne hsid]

/-- Writing an object changes the heap alone. -/
theorem modifySession_eq (sid : ℕ) (f : Session → Session) (s : Server) :
    ∃ heap, modifySession sid f s = { s with heap } := by
  cases h : s.get? sid with
  | none => exact ⟨s.heap, modifySession_of_none h⟩
  | some sess => exact ⟨_, modifySession_of_some h⟩

section Frame

variable (sid : ℕ) (f : Session → Session) (s : Server)

@[simp] theorem modifySession_world : (modifySession sid f s).world = s.world := by
  obtain ⟨heap, h⟩ := modifySession_eq sid f s; rw [h]

@[simp] theorem modifySession_tokens : (modifySession sid f s).tokens = s.tokens := by
  obtain ⟨heap, h⟩ := modifySession_eq sid f s; rw [h]

@[simp] theorem modifySession_trace : (modifySession sid f s).trace = s.trace := by
  obtain ⟨heap, h⟩ := modifySession_eq sid f s; rw [h]

@[simp] theorem modifySession_nextId : (modifySession sid f s).nextId = s.nextId := by
  obtain ⟨heap, h⟩ := modifySession_eq sid f s; rw [h]

@[simp] theorem modifySession_sessions : (modifySession sid f s).sessions = s.sessions := by
  obtain ⟨heap, h⟩ := modifySession_eq sid f s; rw [h]

@[simp] theorem modifySession_uuids : (modifySession sid f s).uuids = s.uuids := by
  obtain ⟨heap, h⟩ := modifySession_eq sid f s; rw [h]

@[simp] theorem modifySession_version : (modifySession sid f s).version = s.version := by
  obtain ⟨heap, h⟩ := modifySession_eq sid f s; rw [h]

@[simp] theorem modifySession_mirrors : (modifySession sid f s).mirrors = s.mirrors := by
  obtain ⟨heap, h⟩ := modifySession_eq sid f s; rw [h]

@[simp] theorem modifySession_connectedIps : (modifySession sid f s).connectedIps = s.connectedIps := by
  obtain ⟨heap, h⟩ := modifySession_eq sid f s; rw [h]

theorem modifySession_modifySession (g : Session → Session) :
    modifySession sid g (modifySession sid f s) = modifySession sid (g ∘ f) s := by
  cases h : s.get? sid with
  | none => rw [modifySession_of_none h, modifySession_of_none h, modifySession_of_none h]
  | some sess =>
    rw [modifySession_of_some (get?_modifySession_self h), modifySession_of_some h, modifySession_of_some h]
    simp [AList.insert_insert]

end Frame

/-- The end of the process: its objects and registries are gone. -/
def halt (s : Server) : Server :=
  { s with heap := ∅, mirrors := ∅, sessions := ∅, connectedIps := ∅, tokens := ∅, running := false }

/-- Start an operation on the socket of `sid`. -/
def start (sid : ℕ) (op : Op) : Server → Server :=
  modifySession sid fun sess => { sess with pending := sess.pending ++ [⟨op, sess.isOpen⟩] }

/-- `session_timeout_`, in seconds. -/
def sessionTimeout : ℕ := 12

section Methods

variable (env : Env)

/-- `this`: a handler runs on an object that is there. -/
def this (sid : ℕ) : ServerM Session := do
  let s ← get
  return (s.get? sid).getD default

/-- `controller_it->second->handleRequest(request)`. -/
def call (sid : ℕ) (type : ControllerType) (request : Json) : ServerM Json := do
  modify fun s => { s with trace := .handled sid type request :: s.trace }
  focus Server.world (fun w s => { s with world := w }) (Controller.handleRequest env type request)

def checkAlreadyLogin (userId : ℤ) : ServerM Bool := do
  let s ← get
  return (s.tokens.lookup userId).isSome

/-- The first entry of `sid` in a registry, in the order of its hash table. -/
def entryOf {κ : Type} (l : List (Sigma fun _ : κ => ℕ)) (sid : ℕ) : Option κ :=
  ((env.order 0 l).find? fun e => e.2 = sid).map (·.1)

/-- A registry without the first entry of `sid`. -/
def dropEntry {κ : Type} [DecidableEq κ] (l : AList fun _ : κ => ℕ) (sid : ℕ) : AList fun _ : κ => ℕ :=
  match entryOf env l.entries sid with
  | some k => l.erase k
  | none => l

def registerSession (sid : ℕ) : ServerM String := do
  let s ← get
  let sess ← this sid
  let token := env.uuid s.uuids
  set { s with
    sessions := (dropEntry env s.sessions sid).insert token sid
    uuids := s.uuids + 1
    tokens := if sess.userId ≠ 0 then s.tokens.insert sess.userId token else s.tokens }
  return token

def registerMirrorSession (sid : ℕ) (port : ℤ) : ServerM Unit :=
  modify fun s => { s with mirrors := (dropEntry env s.mirrors sid).insert port sid }

def removeSession (token : String) (userId : ℤ) (s : Server) : Server :=
  { s with sessions := s.sessions.erase token, tokens := s.tokens.erase userId }

def removeMirrorSession (port : ℤ) (s : Server) : Server :=
  { s with mirrors := s.mirrors.erase port }

def getMirrorSession (port : ℤ) : ServerM (Option ℕ) := do
  let s ← get
  match s.mirrors.lookup port with
  | none => return none
  | some sid =>
    if (s.get? sid).isSome then return some sid
    else
      set { s with mirrors := s.mirrors.erase port }
      return none

def getCCU : ServerM ℤ := do
  let s ← get
  return s.sessions.entries.length

def getRoomCapacity : ServerM ℤ := do
  let s ← get
  return s.mirrors.entries.length

def allowConnection (ipAddress : String) : ServerM Bool := do
  let s ← get
  if ipAddress ∈ s.connectedIps then return false
  else
    set { s with connectedIps := insert ipAddress s.connectedIps }
    return true

def removeConnection (ipAddress : String) (s : Server) : Server :=
  { s with connectedIps := s.connectedIps.erase ipAddress }

/-- The elements of a JSON array. -/
def elements : Json → List Json
  | .arr js => js
  | _ => []

/-- The tokens of a list of users. -/
def tokensOf : List Json → ServerM (List String)
  | [] => return []
  | user :: users => do
    let u ← orThrow user.getInt
    let s ← get
    let rest ← tokensOf users
    return (s.tokens.lookup u).toList ++ rest

/-- A registered session that is gone is a null pointer, which ends the process. -/
def setStatuses (status : String) : List String → ServerM Unit
  | [] => return ()
  | token :: tokens => do
    let s ← get
    match s.sessions.lookup token with
    | none => setStatuses status tokens
    | some sid =>
      if (s.get? sid).isSome then
        modify (modifySession sid fun sess => { sess with status })
        setStatuses status tokens
      else modify halt

def setSessionStatus (users : Json) (flag : Bool) : ServerM Unit := do
  let tokens ← tokensOf (elements (users.value "users"))
  setStatuses (if flag then "게임중" else "대기중") tokens

end Methods

end Server

end Matching
end SocketCommunication
