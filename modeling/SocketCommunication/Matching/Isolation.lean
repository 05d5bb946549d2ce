/-
# What a handler does to the other sessions

A handler runs on one session.  The objects of the others stay as they are, but for the
messages about a new room that wait to be written at a mirror (`apart_of_reachable`).
Of its own session it writes the time of the last activity only for a ping
(`Timers`).

`Confined` collects the changes that every handler but that of a ping makes; a preorder
that allows them is kept by all of these handlers.
-/

import SocketCommunication.Matching.Answers
import SocketCommunication.Matching.Events
import SocketCommunication.Matching.Footprint
import SocketCommunication.Matching.RoomCallers

namespace SocketCommunication
namespace Matching

open Effect Server

/-- A relation that allows what the handlers of `sid` do: they write registries, their
own object, and messages for mirrors. -/
structure Confined (sid : ℕ) (R : Server → Server → Prop) : Prop where
  registries {s t : Server} (hheap : t.heap = s.heap) : R s t
  own (f : Session → Session) (hf : ∀ x, (f x).lastActivity = x.lastActivity) (s : Server) :
    R s (modifySession sid f s)
  mirror (mirror : ℕ) (message : Json) (s : Server) : R s (Server.start mirror (.writeMirror message) s)

namespace Confined

variable {env : Env} {sid : ℕ} {R : Server → Server → Prop}

theorem modify_own (h : Confined sid R) {f : Session → Session} (hf : ∀ x, (f x).lastActivity = x.lastActivity) :
    Keeps R (modify (modifySession sid f) : ServerM Unit) :=
  keeps_modify (h.own f hf)

theorem start_own (h : Confined sid R) (op : Op) : Keeps R (modify (Server.start sid op) : ServerM Unit) :=
  h.modify_own fun _ => rfl

theorem call (h : Confined sid R) (type : ControllerType) (request : Json) : Keeps R (Server.call env sid type request) :=
  fun _ => wp_call (fun _ _ _ => h.registries rfl) fun _ _ _ => h.registries rfl

theorem registerSession (h : Confined sid R) : Keeps R (Server.registerSession env sid) := fun _ => h.registries rfl

variable [IsPreorder Server R]

theorem this (sid : ℕ) : Keeps R (Server.this sid) := keeps_bind keeps_get fun _ => keeps_pure _

theorem answer (h : Confined sid R) (action : String) (response : Json) : Keeps R (Session.answer sid action response) :=
  keeps_bind (keeps_modify fun _ => h.registries rfl) fun _ => h.start_own _

theorem handleError (h : Confined sid R) : Keeps R (Session.handleError env sid) := by
  refine keeps_bind (this sid) fun sess => keeps_bind ?_ fun _ => h.modify_own fun _ => rfl
  refine keeps_tryCatch (keeps_ite (fun _ => ?_) fun _ => keeps_pure _) fun _ => keeps_pure _
  exact keeps_bind (h.call _ _) fun _ => keeps_pure _

theorem initCurrentUser (h : Confined sid R) (response : Json) : Keeps R (Session.initCurrentUser sid response) := by
  refine keeps_bind (Session.keeps_member sid _ fun _ _ => h.modify_own fun _ => rfl) fun _ => ?_
  refine keeps_bind (Session.keeps_member sid _ fun _ _ => h.modify_own fun _ => rfl) fun _ => ?_
  refine keeps_bind (Session.keeps_member sid _ fun _ _ => h.modify_own fun _ => rfl) fun _ => ?_
  exact h.modify_own fun _ => rfl

theorem login (h : Confined sid R) (action : String) (response : Json) : Keeps R (Session.login env sid action response) := by
  have hlookup : ∀ userId, Keeps R (checkAlreadyLogin userId) := fun _ _ => h.registries rfl
  refine keeps_bind (keeps_orThrow _) fun userId => keeps_bind (hlookup userId) fun already => ?_
  refine keeps_ite (fun _ => h.start_own _) fun _ => keeps_bind (h.initCurrentUser response) fun _ => ?_
  exact keeps_bind h.registerSession fun token => keeps_bind (h.modify_own fun _ => rfl) fun _ => h.answer _ _

theorem getMirrorSession (h : Confined sid R) (port : ℤ) : Keeps R (Server.getMirrorSession port) := by
  intro s
  simp only [Server.getMirrorSession, wp_bind, wp_get]
  cases s.mirrors.lookup port with
  | none => exact refl_of R s
  | some mirror => exact (wp_ite _ _ _).2 ⟨fun _ => refl_of R s, fun _ => h.registries rfl⟩

theorem notifyMirror (h : Confined sid R) (response : Json) : Keeps R (Session.notifyMirror sid response) := by
  refine keeps_tryCatch (keeps_bind (keeps_orThrow _) fun port => ?_) fun _ => keeps_pure _
  refine keeps_bind (h.getMirrorSession port) fun mirror => ?_
  cases mirror with
  | none => exact keeps_bind (h.start_own _) fun _ => keeps_pure _
  | some mirror =>
    refine keeps_bind (keeps_orThrow _) fun roomId => keeps_bind (h.modify_own fun _ => rfl) fun _ => ?_
    exact keeps_bind (keeps_modify (h.mirror mirror _)) fun _ => keeps_pure _

/-- An answer, of which no game is granted: the statuses of others are not set. -/
theorem respond (h : Confined sid R) {action : String} {response : Json}
    (hgame : action = "gameStart" ∨ action = "gameEnd" → response.succeeds = false) :
    Keeps R (Session.respond env sid action response) := by
  have hanswer : Keeps R (Session.answer sid action response) := h.answer action response
  have hnone : ∀ {a}, a = "gameStart" ∨ a = "gameEnd" → ¬ (action = a ∧ response.succeeds) := by
    rintro a ha ⟨rfl, hsuccess⟩
    rw [hgame ha] at hsuccess
    cases hsuccess
  refine keeps_ite (fun _ => h.login action response) fun _ => ?_
  refine keeps_ite (fun _ => keeps_bind (h.notifyMirror response) fun _ =>
    keeps_ite (fun _ => hanswer) fun _ => keeps_pure _) fun _ => ?_
  refine keeps_ite (fun _ => keeps_bind (keeps_orThrow _) fun _ => keeps_bind (h.modify_own fun _ => rfl) fun _ =>
    hanswer) fun _ => ?_
  refine keeps_ite (fun _ => keeps_bind (h.modify_own fun _ => rfl) fun _ => hanswer) fun _ => ?_
  refine keeps_ite (fun hg => absurd hg (hnone (.inl rfl))) fun _ => ?_
  refine keeps_ite (fun hg => absurd hg (hnone (.inr rfl))) fun _ => ?_
  exact keeps_ite (fun _ => keeps_bind (keeps_orThrow _) fun nickName => keeps_bind (h.modify_own fun _ => rfl) fun _ =>
    hanswer) fun _ => hanswer

/-- The answer to a request for a game is no grant. -/
theorem call_respond (h : Confined sid R) {type : ControllerType} {action : String} (request : Json)
    (htype : action = "gameStart" ∨ action = "gameEnd" → type = .game) :
    Keeps R (do
      let response ← Server.call env sid type request
      Session.respond env sid action response) := by
  intro s
  rw [wp_bind]
  refine wp_call (fun response w hcall => ?_) fun _ _ _ => h.registries rfl
  have hstep : R s (s.called env sid type request) := h.registries rfl
  refine wp_mono (fun _ _ h' => trans_of R hstep h') (fun _ _ h' => trans_of R hstep h')
    (h.respond (fun hgame => ?_) (s.called env sid type request))
  rw [htype hgame] at hcall
  exact wp_ok (Q := fun j _ => j.succeeds = false) (Controller.game_refuses s.world request) hcall

/-- A ping writes the time as well. -/
theorem handlePing (h : Confined sid R)
    (htime : ∀ now s, R s (modifySession sid (fun sess => { sess with lastActivity := now }) s)) :
    Keeps R (Session.handlePing sid) :=
  keeps_bind (keeps_modify fun s => htime s.clock s) fun _ => keeps_bind (this sid) fun _ => h.start_own _

/-- **A request.** -/
theorem dispatch (h : Confined sid R) {action : String} (hping : action = "alivePing" → Keeps R (Session.handlePing sid))
    (request : Json) : Keeps R (Session.dispatch env sid action request) := by
  have hwrite : ∀ j, Keeps R (Session.writeResponse sid j) := fun j => h.start_own (.writeResponse j)
  have hcount : Keeps R getCCU := keeps_bind keeps_get fun _ => keeps_pure _
  have hcapacity : Keeps R getRoomCapacity := keeps_bind keeps_get fun _ => keeps_pure _
  refine keeps_bind (this sid) fun sess => ?_
  refine keeps_ite (fun hauth => h.call_respond _ ?_) fun _ => ?_
  · rintro (rfl | rfl) <;> exact absurd hauth (by decide)
  refine keeps_ite (fun hroom => keeps_ite (fun _ => hwrite _) fun _ => h.call_respond _ ?_) fun _ => ?_
  · rintro (rfl | rfl) <;> exact absurd hroom (by decide)
  refine keeps_ite (fun _ => keeps_ite (fun _ => hwrite _) fun _ => h.call_respond _ fun _ => rfl) fun _ => ?_
  refine keeps_ite hping fun _ => keeps_ite (fun _ => h.handleError) fun _ => ?_
  refine keeps_ite (fun _ => keeps_bind hcapacity fun _ => hwrite _) fun _ => ?_
  exact keeps_ite (fun _ => keeps_bind hcount fun _ => hwrite _) fun _ => hwrite _

theorem processRequest (h : Confined sid R) {request : Json}
    (hping : request.value "action" = .str "alivePing" → Keeps R (Session.handlePing sid)) :
    Keeps R (Session.processRequest env sid request) := by
  intro s
  have hwrite : ∀ t, R s t → wp (Session.writeResponse sid (errorResponse "잘못된 요청 형식")) (fun _ => R s) (fun _ => R s) t :=
    fun t ht => wp_mono (fun _ _ => trans_of R ht) (fun _ _ => trans_of R ht) (h.start_own (.writeResponse _) t)
  refine wp_processRequest (fun action haction => ?_) fun _ => ⟨hwrite s (refl_of R s), fun _ => refl_of R s⟩
  refine wp_mono (fun _ _ h' => h') (fun _ t ht => hwrite t ht) (h.dispatch (fun hno => hping ?_) request s)
  rw [haction, hno]

theorem mirrorHandshake (h : Confined sid R) (handshake : Json) : Keeps R (Session.mirrorHandshake env sid handshake) := by
  refine keeps_bind (h.modify_own fun _ => rfl) fun _ => keeps_bind (keeps_orThrow _) fun port => ?_
  refine keeps_bind (h.modify_own fun _ => rfl) fun _ => keeps_bind (keeps_modify fun _ => h.registries rfl) fun _ => ?_
  exact keeps_bind (h.modify_own fun _ => rfl) fun _ => h.start_own _

theorem checkAddress (h : Confined sid R) : Keeps R (Session.checkAddress env sid) := by
  refine keeps_bind (this sid) fun sess => keeps_bind (fun s => ?_) fun allowed => ?_
  · simp only [allowConnection, wp_bind, wp_get]
    exact (wp_ite _ _ _).2 ⟨fun _ => refl_of R s, fun _ => h.registries rfl⟩
  · exact keeps_ite (fun _ => keeps_bind (h.start_own _) fun _ => h.handleError) fun _ => keeps_pure _

theorem clientHandshake (h : Confined sid R) {handshake : Json}
    (hping : handshake.value "action" = .str "alivePing" → Keeps R (Session.handlePing sid)) :
    Keeps R (Session.clientHandshake env sid handshake) := by
  refine keeps_bind h.checkAddress fun _ => keeps_bind keeps_get fun s => ?_
  refine keeps_ite (fun _ => h.handleError) fun _ => keeps_bind (keeps_orThrow _) fun version => ?_
  refine keeps_ite (fun _ => h.handleError) fun _ => keeps_bind ?_ fun _ => ?_
  · exact keeps_bind h.registerSession fun token => h.modify_own fun _ => rfl
  · exact keeps_ite (fun _ => h.processRequest hping) fun _ => h.start_own _

/-- **The handler of an operation.** -/
theorem complete (env : Env) (h : Confined sid R) (op : Op) {result : Session.Completion}
    (hping : ∀ message, result = .ok (some message) → message.value "action" = .str "alivePing" →
      Keeps R (Session.handlePing sid)) : Keeps R (Session.complete env sid op result) := by
  cases result with
  | error => cases op <;> exact h.handleError
  | ok data =>
    cases op with
    | readHandshake =>
      refine keeps_tryCatch ?_ fun _ => h.handleError
      cases data with
      | none => exact keeps_throw _
      | some handshake =>
        exact keeps_ite (fun _ => h.mirrorHandshake handshake) fun _ => h.clientHandshake (hping handshake rfl)
    | readMessage =>
      refine keeps_tryCatch ?_ fun _ => h.start_own _
      cases data with
      | none => exact keeps_throw _
      | some request => exact h.processRequest (hping request rfl)
    | writeHandshake | writeResponse | writeMirror => exact h.start_own _
    | writeBroadcast => exact keeps_pure _

end Confined

/-! ### The other sessions -/

/-- The object `k` as it was, but for messages for a mirror that wait to be written. -/
def Beside (k : ℕ) (s t : Server) : Prop :=
  ∃ ops : List PendingOp, t.get? k = (s.get? k).map (fun x => { x with pending := x.pending ++ ops }) ∧
    ∀ p ∈ ops, ∃ message, p.op = .writeMirror message

theorem Beside.of_get? {k : ℕ} {s t : Server} (h : t.get? k = s.get? k) : Beside k s t := by
  refine ⟨[], ?_, fun _ hp => absurd hp List.not_mem_nil⟩
  rw [h]
  simp

theorem Beside.trans {k : ℕ} {s t r : Server} (h : Beside k s t) (h' : Beside k t r) : Beside k s r := by
  obtain ⟨ops, hget, hops⟩ := h
  obtain ⟨ops', hget', hops'⟩ := h'
  refine ⟨ops ++ ops', ?_, fun p hp => (List.mem_append.1 hp).elim (hops p) (hops' p)⟩
  rw [hget', hget, Option.map_map]
  simp only [Function.comp_def, List.append_assoc]

/-- The objects other than `sid` are as they were, but for messages for mirrors. -/
def Apart (sid : ℕ) (s t : Server) : Prop := ∀ k ≠ sid, Beside k s t

instance (sid : ℕ) : IsPreorder Server (Apart sid) where
  refl _ _ _ := .of_get? rfl
  trans _ _ _ h h' k hk := (h k hk).trans (h' k hk)

theorem apart_modifySession (sid : ℕ) (f : Session → Session) (s : Server) : Apart sid s (modifySession sid f s) :=
  fun _ hk => .of_get? (get?_modifySession_of_ne hk)

theorem confined_apart (sid : ℕ) : Confined sid (Apart sid) where
  registries hheap k _ := .of_get? (by rw [Server.get?, hheap]; rfl)
  own f _ s := apart_modifySession sid f s
  mirror mirror message s k _ := by
    by_cases hk : k = mirror
    · subst hk
      cases hs : s.get? k with
      | none => exact .of_get? (by rw [Server.start, modifySession_of_none hs])
      | some x =>
        refine ⟨[⟨.writeMirror message, x.isOpen⟩], ?_, fun p hp => ⟨message, by rw [List.mem_singleton.1 hp]⟩⟩
        rw [Server.start, get?_modifySession_self hs, hs]
        rfl
    · exact .of_get? (get?_modifySession_of_ne hk)

section Step

variable {env : Env} {s : Server} {sid : ℕ}

/-- The end of a handler of `sid` leaves the other objects. -/
theorem get?_reap_of_ne {k : ℕ} (hk : k ≠ sid) (t : Server) : (t.reap sid).get? k = t.get? k := by
  rcases reap_cases sid t with ⟨hreap, -⟩ | ⟨sess, -, -, hreap⟩
  · rw [hreap]
  · rw [hreap, get?_destroy, if_neg hk]

/-- What the handlers of `sid` keep holds of an event of it, up to the end of the object. -/
theorem step_confined (env : Env) {R : Server → Server → Prop} [IsPreorder Server R] (h : Confined sid R) (hs : s.Sane) (i : ℕ)
    {result : Session.Completion} (hping : ∀ message, result = .ok (some message) →
      message.value "action" = .str "alivePing" → Keeps R (Session.handlePing sid)) :
    ∃ t, R s t ∧ (Server.step env s (.complete sid i result) = t ∨
      Server.step env s (.complete sid i result) = t.reap sid) := by
  by_cases he : s.Happens (.complete sid i result)
  swap
  · exact ⟨s, refl_of R s, .inl (Server.step_of_not_happens he)⟩
  obtain ⟨p, hp, hcan⟩ := he
  have hhandler := wp_complete (L := .free) hs hp hcan (@licensed_free env s _)
  obtain ⟨_, t, ht, -, hR⟩ := wp_returns (wp_mono (fun _ _ h => h) (fun _ _ h => h.1)
    (wp_and hhandler (h.complete env p.op hping (s.take sid i))))
  have htake : R s (s.take sid i) := h.own (fun sess => { sess with pending := sess.pending.eraseIdx i }) (fun _ => rfl) s
  refine ⟨t, trans_of R htake hR, .inr ?_⟩
  rw [Server.step_completes hp hcan, Server.run, ht]

/-- **What an event of a session does to the others.** -/
theorem step_apart (hs : s.Sane) (i : ℕ) (result : Session.Completion) :
    Apart sid s (Server.step env s (.complete sid i result)) := by
  have hping : ∀ message, result = .ok (some message) → message.value "action" = .str "alivePing" →
      Keeps (Apart sid) (Session.handlePing sid) := fun _ _ _ =>
    (confined_apart sid).handlePing fun now s => apart_modifySession sid _ s
  obtain ⟨t, hR, hstep | hstep⟩ := step_confined env (confined_apart sid) hs i hping
  · rwa [hstep]
  · intro k hk
    rw [hstep]
    exact (hR k hk).trans (.of_get? (get?_reap_of_ne hk t))

/-- **The sessions are isolated.**  In every reachable state an event of one session leaves
every other object as it is, but for messages that wait to be written at a mirror. -/
theorem Server.apart_of_reachable (h : Server.Reachable env s) (i : ℕ) (result : Session.Completion) :
    Apart sid s (Server.step env s (.complete sid i result)) :=
  step_apart h.sane i result

end Step

/-- The host asks for the list of rooms; the mirror and the game of its room are not touched. -/
theorem Server.apart_hostRun : Apart 0 (hostRun.foldl (step .reliable) init)
    (step .reliable (hostRun.foldl (step .reliable) init) (.complete 0 0 (.ok (some (.obj [("action", .str "listRooms")]))))) :=
  apart_of_reachable ⟨init, init_init, hostRun, rfl⟩ 0 _

end Matching
end SocketCommunication
