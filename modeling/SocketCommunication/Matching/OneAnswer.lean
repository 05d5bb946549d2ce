/-
# One answer for each request

Whatever is read, `read_message` starts one response on its session and leaves the
socket as it is, or, for a `logout`, starts nothing and closes the socket: `SameOpen`
says that no other branch touches a socket, and `processRequest_edits` what is started.

The response reads on when it is written.  So does the message to the mirror server of
a new room, which is a second operation on the session when the session is that mirror
server itself (`oneAnswer_iff`).
-/

import SocketCommunication.Matching.Completions

namespace SocketCommunication
namespace Matching

open Effect

/-! ### Sockets stay as they are -/

/-- Every socket is as it was. -/
def SameOpen (s t : Server) : Prop := ∀ sid, (t.get? sid).map (·.isOpen) = (s.get? sid).map (·.isOpen)

instance : IsPreorder Server SameOpen where
  refl _ := fun _ => rfl
  trans _ _ _ h h' := fun sid => (h' sid).trans (h sid)

section Sockets

variable {env : Env} {s t : Server} {sid : ℕ} {sess : Session}

theorem sameOpen_modifySession {k : ℕ} {f : Session → Session} (hf : ∀ x, (f x).isOpen = x.isOpen) :
    SameOpen s (Server.modifySession k f s) := by
  intro sid
  rw [Server.get?_modifySession]
  split_ifs with hk
  · rw [hk, Option.map_map]
    exact congrArg (Option.map · (s.get? k)) (funext hf)
  · rfl

theorem tolerates_sameOpen : Tolerates SameOpen where
  registries _ hheap := fun sid => by rw [Server.get?, hheap, Server.get?]
  start _ _ _ := sameOpen_modifySession fun _ => rfl
  token _ _ _ := sameOpen_modifySession fun _ => rfl
  lastActivity _ _ _ := sameOpen_modifySession fun _ => rfl

theorem initCurrentUser_sameOpen (response : Json) : Keeps SameOpen (Session.initCurrentUser sid response) := by
  have hmodify : ∀ {f : Session → Session}, (∀ x, (f x).isOpen = x.isOpen) →
      Keeps SameOpen (modify (Server.modifySession sid f) : ServerM Unit) :=
    fun hf => keeps_modify fun _ => sameOpen_modifySession hf
  exact keeps_bind (Session.keeps_member sid _ fun _ _ => hmodify fun _ => rfl) fun _ =>
    keeps_bind (Session.keeps_member sid _ fun _ _ => hmodify fun _ => rfl) fun _ =>
      keeps_bind (Session.keeps_member sid _ fun _ _ => hmodify fun _ => rfl) fun _ => hmodify fun _ => rfl

/-- An answer leaves the sockets; a game is never granted. -/
theorem respond_sameOpen {action : String} {response : Json}
    (hgame : action = "gameStart" ∨ action = "gameEnd" → response.succeeds = false) :
    Keeps SameOpen (Session.respond env sid action response) :=
  tolerates_sameOpen.respond sid (fun _ _ _ => sameOpen_modifySession fun _ => rfl)
    (fun _ => initCurrentUser_sameOpen response) (fun _ _ => sameOpen_modifySession fun _ => rfl)
    fun hg hs => absurd hs (by rw [hgame hg]; decide)

/-- The session has closed its socket. -/
def Server.Shut (s : Server) (sid : ℕ) : Prop := ∃ x, s.get? sid = some x ∧ x.isOpen = false

/-- The message asks to log out. -/
def logsOut : Option Json → Bool
  | none => false
  | some request => (request.value "action").eqString "logout"

/-- What becomes of the sockets: that of a session that logs out is closed. -/
def Sockets (s : Server) (sid : ℕ) (data : Option Json) (t : Server) : Prop :=
  if logsOut data then t.Shut sid else SameOpen s t

theorem dispatch_sockets {action : String} {request : Json} (hs : s.get? sid = some sess)
    (haction : request.value "action" = .str action) :
    wp (Session.dispatch env sid action request) (fun _ => Sockets s sid (some request))
      (fun _ t => SameOpen s t ∧ action ≠ "logout") s := by
  have hlogout : logsOut (some request) ↔ action = "logout" := by simp [logsOut, haction, Json.eqString]
  have hkeeps : ∀ {c : ServerM Unit}, action ≠ "logout" → wp c (fun _ => SameOpen s) (fun _ => SameOpen s) s →
      wp c (fun _ => Sockets s sid (some request)) (fun _ t => SameOpen s t ∧ action ≠ "logout") s := fun hne h =>
    wp_mono (fun _ t ht => by rwa [Sockets, if_neg (mt hlogout.1 hne)]) (fun _ _ ht => ⟨ht, hne⟩) h
  -- a call leaves the objects, and so does what is done with its answer
  have hcall : ∀ (type : ControllerType) (request' : Json), action ≠ "logout" →
      (∀ response w, Controller.handleRequest env type request' s.world = .ok response w →
        action = "gameStart" ∨ action = "gameEnd" → response.succeeds = false) →
      wp (do
        let response ← Server.call env sid type request'
        Session.respond env sid action response) (fun _ => Sockets s sid (some request))
          (fun _ t => SameOpen s t ∧ action ≠ "logout") s := by
    intro type request' hne hgame
    have hcalled : SameOpen s (s.called env sid type request') := fun _ => rfl
    refine hkeeps hne ?_
    rw [wp_bind]
    refine wp_call (fun response w hrun => ?_) fun _ _ _ => hcalled
    exact wp_mono (fun _ _ h => trans_of SameOpen hcalled h) (fun _ _ h => trans_of SameOpen hcalled h)
      (respond_sameOpen (hgame response w hrun) _)
  refine wp_dispatch hs (fun hauth => ?_) (fun _ hroom _ => ?_) (fun _ _ hgame _ => ?_) (fun hping => ?_)
    (fun hout => ?_) fun hne _ j => hkeeps hne (tolerates_sameOpen.writeResponse sid j s)
  · have hother : action ≠ "logout" ∧ ¬ (action = "gameStart" ∨ action = "gameEnd") := by
      rcases hauth with rfl | rfl | rfl | rfl <;> decide
    exact hcall .auth _ hother.1 fun _ _ _ h => absurd h hother.2
  · have hother : action ≠ "logout" ∧ ¬ (action = "gameStart" ∨ action = "gameEnd") := by
      rcases hroom with rfl | rfl | rfl | rfl <;> decide
    exact hcall .room _ hother.1 fun _ _ _ h => absurd h hother.2
  · have hother : action ≠ "logout" := by rcases hgame with rfl | rfl <;> decide
    refine hcall .game _ hother fun response w hrun _ => ?_
    have hrefused := wp_ok (Controller.game_refuses s.world _) hrun
    exact hrefused
  · have hother : action ≠ "logout" := by rw [hping]; decide
    exact hkeeps hother (tolerates_sameOpen.handlePing sid s)
  · refine wp_handleError hs ?_
    rw [Sockets, if_pos (hlogout.2 hout)]
    exact ⟨_, (Server.get?_ended hs sid).trans (if_pos rfl), rfl⟩

/-- The answer to what is not understood leaves the sockets. -/
theorem writeResponse_sockets {t : Server} {data : Option Json} (ht : SameOpen s t) (hdata : logsOut data = false)
    (j : Json) : wp (Session.writeResponse sid j) (fun _ => Sockets s sid data) (fun _ _ => False) t := by
  show Sockets s sid data (Server.start sid (.writeResponse j) t)
  rw [Sockets, if_neg (Bool.eq_false_iff.1 hdata)]
  exact trans_of SameOpen ht (tolerates_sameOpen.start sid _ t)

theorem readMessage_sockets (hs : s.get? sid = some sess) (data : Option Json) :
    wp (Session.readMessage env sid data) (fun _ => Sockets s sid data) (fun _ _ => False) s := by
  have hsame : SameOpen s s := refl_of SameOpen s
  simp only [Session.readMessage, wp_tryCatch]
  cases data with
  | none => exact writeResponse_sockets hsame rfl _
  | some request =>
    refine wp_processRequest (fun action haction => ?_) fun hmisnamed => ?_
    · refine wp_mono (fun _ _ h => h) (fun _ t ht => ?_) (dispatch_sockets hs haction)
      have hdata : logsOut (some request) = false := by simpa [logsOut, haction, Json.eqString] using ht.2
      exact wp_mono (fun _ _ h => h) (fun _ _ h => h.elim) (writeResponse_sockets ht.1 hdata _)
    · have hdata : logsOut (some request) = false := eqString_of_misnamed hmisnamed _
      have hwrite := fun j => @writeResponse_sockets s sid s (some request) hsame hdata j
      exact ⟨wp_mono (fun _ _ h => h) (fun _ _ h => h.elim) (hwrite _), fun _ => hwrite _⟩

end Sockets

/-! ### The mirror server of a new room -/

namespace RoomService

/-- The room can be announced to the mirror server `mirror`. -/
structure Reaches (env : Env) (s : Server) (r : RoomRow) (mirror : ℕ) : Prop where
  answers : env.Answers s.world 12
  ipAddress : r.ipAddress ≠ none
  roomId : r.roomId ≠ -1
  port : ∃ port, r.port = some port ∧ s.mirrorOf (Json.wrapInt port) = some mirror

end RoomService

section Answers

open RoomService (Grants Reaches)

variable {env : Env} {s t : Server} {sid mirror : ℕ} {sess : Session} {l : Starts}

/-- **The mirror that is told of a room**: that of the room that the request is granted. -/
theorem announces_iff {request : Json} : s.announces env sess request = some mirror ↔
    request.value "action" = .str "createRoom" ∧ sess.userId ≠ 0 ∧
      ∃ r, Grants env s.world (sess.withUser request) r ∧ Reaches env s r mirror := by
  by_cases hasks : (request.value "action").eqString "createRoom" ∧ sess.userId ≠ 0
  swap
  · have hnone : s.announces env sess request = none := if_neg hasks
    rw [hnone]
    refine iff_of_false (Option.some_ne_none mirror).symm ?_
    rintro ⟨haction, huser, -⟩
    exact hasks ⟨by rw [haction]; rfl, huser⟩
  have haction : request.value "action" = .str "createRoom" := Json.eq_of_eqString hasks.1
  have hroom : Controller.room env (sess.withUser request) = RoomService.createRoom env (sess.withUser request) :=
    Controller.room_createRoom ((Json.value_set_ne (by decide)).trans haction)
  obtain ⟨j, w, hrun, hout⟩ := wp_returns (@RoomService.createRoom_spec env s.world (sess.withUser request))
  have hann : s.announces env sess request = if j.succeeds then s.told j else none := by
    rw [Server.announces, if_pos hasks, hroom, hrun]
  rw [hann]
  rcases hout with ⟨r, hgrants, -, ⟨roomName, ip, port, maxPlayers, hans, hip, hport, hid, rfl⟩ | ⟨hfails, message, rfl⟩⟩ |
    ⟨hnone, -, message, rfl⟩
  · have htold : s.told (RoomService.created r.roomId roomName ip port maxPlayers) = s.mirrorOf (Json.wrapInt port) := rfl
    have hsuccess : (RoomService.created r.roomId roomName ip port maxPlayers).succeeds := rfl
    rw [if_pos hsuccess, htold]
    constructor
    · intro hmirror
      exact ⟨haction, hasks.2, r, hgrants, hans, by rw [hip]; exact Option.some_ne_none ip, hid, port, hport, hmirror⟩
    · rintro ⟨-, -, r', hgrants', hreaches⟩
      obtain rfl := hgrants.unique hgrants'
      obtain ⟨port', hport', hmirror⟩ := hreaches.port
      rwa [Option.some.inj (hport.symm.trans hport')]
  · rw [succeeds_errorResponse, if_neg Bool.false_ne_true]
    refine iff_of_false (Option.some_ne_none mirror).symm ?_
    rintro ⟨-, -, r', hgrants', hreaches⟩
    obtain rfl := hgrants.unique hgrants'
    obtain ⟨port, hport, -⟩ := hreaches.port
    rcases hfails with hn | hip | hnull | hid
    · exact hn hreaches.answers
    · exact hreaches.ipAddress hip
    · rw [hnull] at hport
      cases hport
    · exact hreaches.roomId hid
  · rw [succeeds_errorResponse, if_neg Bool.false_ne_true]
    refine iff_of_false (Option.some_ne_none mirror).symm ?_
    rintro ⟨-, -, r, hgrants, -⟩
    exact hnone r hgrants

/-! ### What is started on the session -/

/-- A response write. -/
def PendingOp.answers (p : PendingOp) : Bool :=
  match p.op with
  | .writeResponse _ => true
  | _ => false

/-- A read, or a write whose handler will start one.  On a closed socket neither can
happen. -/
def PendingOp.rearms (p : PendingOp) : Bool :=
  p.live &&
    match p.op with
    | .writeBroadcast _ => false
    | _ => true

/-- What is started on an open socket is live. -/
theorem Edits.live (h : Edits env s l t) {y : Session} (hy : t.get? sid = some y) (hopen : y.isOpen) :
    ∀ p ∈ l.on sid, p.live := by
  induction h generalizing y with
  | refl => exact fun _ hp => nomatch hp
  | edit _ hedit ih =>
    obtain ⟨x, hx, hgrown⟩ := hedit.get? hy
    exact ih hx (hgrown.kin.isOpen hopen)
  | @start l t k op z _ ht ih =>
    rw [Server.start, Server.get?_modifySession] at hy
    intro p hp
    rw [Starts.on_append, List.mem_append] at hp
    split_ifs at hy with hk
    · subst hk
      rw [ht, Option.map_some, Option.some.injEq] at hy
      subst hy
      refine hp.elim (ih ht hopen p) fun hp => ?_
      simp only [Starts.on, List.mem_map, List.mem_filter, List.mem_singleton, decide_eq_true_eq] at hp
      obtain ⟨q, ⟨rfl, -⟩, rfl⟩ := hp
      exact hopen
    · refine hp.elim (ih hy hopen p) fun hp => ?_
      simp only [Starts.on, List.mem_map, List.mem_filter, List.mem_singleton, decide_eq_true_eq] at hp
      obtain ⟨q, ⟨rfl, hq⟩, -⟩ := hp
      exact absurd hq.symm hk

/-- One answer and one read, unless the mirror that is told is the session itself. -/
theorem Answers.counts {m : Option ℕ} (h : Answers sid m l) {isOpen : Bool} (hlive : ∀ p ∈ l.on sid, p.live = isOpen) :
    (l.on sid).countP PendingOp.answers = 1 ∧
      (l.on sid).countP PendingOp.rearms = if isOpen then (if m = some sid then 2 else 1) else 0 := by
  cases h with
  | @alone response live =>
    have hon : Starts.on [(sid, (⟨.writeResponse response, live⟩ : PendingOp))] sid = [⟨.writeResponse response, live⟩] := by
      simp [Starts.on]
    rw [hon] at hlive ⊢
    obtain rfl := hlive _ (List.mem_singleton_self _)
    cases live <;> exact ⟨rfl, rfl⟩
  | @notified mirror message response live live' =>
    by_cases hm : mirror = sid
    · subst hm
      have hon : Starts.on [(mirror, (⟨.writeMirror message, live⟩ : PendingOp)), (mirror, ⟨.writeResponse response, live'⟩)]
          mirror = [⟨.writeMirror message, live⟩, ⟨.writeResponse response, live'⟩] := by simp [Starts.on]
      rw [hon] at hlive ⊢
      obtain rfl := hlive _ List.mem_cons_self
      obtain rfl := hlive _ (List.mem_cons_of_mem _ (List.mem_singleton_self _))
      rw [if_pos rfl]
      cases live' <;> exact ⟨rfl, rfl⟩
    · have hon : Starts.on [(mirror, (⟨.writeMirror message, live⟩ : PendingOp)), (sid, ⟨.writeResponse response, live'⟩)]
          sid = [⟨.writeResponse response, live'⟩] := by simp [Starts.on, hm]
      rw [hon] at hlive ⊢
      obtain rfl := hlive _ (List.mem_singleton_self _)
      rw [if_neg fun he => hm (Option.some.inj he)]
      cases live' <;> exact ⟨rfl, rfl⟩

/-- How a message leaves its session: the operations `ops` were started. -/
structure Answered (sess y : Session) (logout : Bool) (ops : List PendingOp) : Prop where
  pending : y.pending = sess.pending ++ ops
  answers : ops.countP PendingOp.answers = if logout then 0 else 1
  isOpen : y.isOpen = (sess.isOpen && ! logout)
  rearms : ops.countP PendingOp.rearms = if y.isOpen then 1 else 0

/-- A message starts one response and, unless the session is closed after it, one read
on its session. -/
def OneAnswer (env : Env) (s : Server) (sid : ℕ) (sess : Session) (data : Option Json) : Prop :=
  wp (Session.readMessage env sid data)
    (fun _ t => ∃ y ops, t.get? sid = some y ∧ Answered sess y (logsOut data) ops) (fun _ _ => False) s

/-- The mirror that a message makes the server tell of a room. -/
def Server.tells (env : Env) (s : Server) (sess : Session) (data : Option Json) : Option ℕ :=
  data.bind (s.announces env sess)

/-- What is started: nothing by a request to log out, an answer by any other message. -/
theorem Heard.or {data : Option Json} (h : Heard env s sid sess data l) :
    (logsOut data ∧ l = []) ∨ (logsOut data = false ∧ Answers sid (s.tells env sess data) l) := by
  cases data with
  | none => exact .inr ⟨rfl, h⟩
  | some request =>
    rw [Heard, Asked] at h
    split_ifs at h with hlogout
    · exact .inl ⟨hlogout, h⟩
    · exact .inr ⟨Bool.eq_false_iff.2 hlogout, h⟩

/-- A request to log out announces no room. -/
theorem tells_of_logsOut {data : Option Json} (h : logsOut data) : s.tells env sess data = none := by
  cases data with
  | none => rfl
  | some request => exact Server.announces_eq_none (Json.eq_of_eqString h) (by decide)

/-- **What a message starts on its session.** -/
theorem readMessage_starts (hs : s.get? sid = some sess) (data : Option Json) :
    wp (Session.readMessage env sid data)
      (fun _ t => ∃ y ops, t.get? sid = some y ∧ y.pending = sess.pending ++ ops ∧
        y.isOpen = (sess.isOpen && ! logsOut data) ∧
        ((logsOut data ∧ ops = []) ∨
          (logsOut data = false ∧ ops.countP PendingOp.answers = 1 ∧ ops.countP PendingOp.rearms =
            if sess.isOpen then (if s.tells env sess data = some sid then 2 else 1) else 0)))
      (fun _ _ => False) s := by
  refine wp_mono (fun _ t ht => ?_) (fun _ _ h => h.1) (wp_and (@readMessage_heard env s sid sess hs data)
    (@readMessage_sockets env s sid sess hs data))
  obtain ⟨⟨l, hedits, hheard⟩, hsockets⟩ := ht
  obtain ⟨y, hy⟩ := Option.isSome_iff_exists.1 ((hedits.isSome sid).trans (Option.isSome_of_mem hs))
  obtain ⟨x, hx, hgrown⟩ := hedits.get? hy
  obtain rfl := Option.some.inj (hs.symm.trans hx)
  refine ⟨y, l.on sid, hy, hgrown.pending, ?_⟩
  rcases hheard.or with ⟨hdata, rfl⟩ | ⟨hdata, hanswers⟩
  · rw [Sockets, if_pos hdata] at hsockets
    obtain ⟨z, hz, hclosed⟩ := hsockets
    obtain rfl := Option.some.inj (hy.symm.trans hz)
    exact ⟨by rw [hclosed, hdata, Bool.not_true, Bool.and_false], .inl ⟨hdata, rfl⟩⟩
  · rw [Sockets, if_neg (Bool.eq_false_iff.1 hdata)] at hsockets
    have hopen : y.isOpen = sess.isOpen := by
      have hsame := hsockets sid
      rwa [hy, hs, Option.map_some, Option.map_some, Option.some.injEq] at hsame
    have hlive : ∀ p ∈ l.on sid, p.live = sess.isOpen := by
      intro p hp
      cases hsess : sess.isOpen with
      | true => exact hedits.live hy (hopen.trans hsess) p hp
      | false => exact hedits.not_live (fun z hz => by rw [← Option.some.inj (hs.symm.trans hz), hsess]) p hp
    exact ⟨by rw [hopen, hdata, Bool.not_false, Bool.and_true], .inr ⟨hdata, hanswers.counts hlive⟩⟩

theorem oneAnswer_iff_tells (hs : s.get? sid = some sess) (data : Option Json) :
    OneAnswer env s sid sess data ↔ ¬ (sess.isOpen ∧ s.tells env sess data = some sid) := by
  have hstarts := @readMessage_starts env s sid sess hs data
  constructor
  · rintro hone ⟨hopen, htells⟩
    obtain ⟨_, t, -, ⟨y, ops, hy, hanswered⟩, y', ops', hy', hpending, hopen', hout⟩ :=
      wp_returns (wp_mono (fun _ _ h => h) (fun _ _ h => h.1) (wp_and hone hstarts))
    obtain rfl := Option.some.inj (hy.symm.trans hy')
    obtain rfl := List.append_cancel_left (hanswered.pending.symm.trans hpending)
    rcases hout with ⟨hlogout, -⟩ | ⟨hdata, -, hrearms⟩
    · rw [tells_of_logsOut hlogout] at htells
      cases htells
    · rw [hanswered.rearms, hopen', hopen, hdata, if_pos htells] at hrearms
      simp at hrearms
  · intro hcross
    refine wp_mono (fun _ t ht => ?_) (fun _ _ h => h) hstarts
    obtain ⟨y, ops, hy, hpending, hopen, hout⟩ := ht
    refine ⟨y, ops, hy, hpending, ?_, hopen, ?_⟩
    · rcases hout with ⟨hlogout, rfl⟩ | ⟨hdata, hanswers, -⟩
      · rw [hlogout]
        rfl
      · rw [hanswers, hdata]
        rfl
    · rcases hout with ⟨hlogout, rfl⟩ | ⟨hdata, -, hrearms⟩
      · rw [hopen, hlogout, Bool.not_true, Bool.and_false]
        rfl
      · rw [hrearms, hopen, hdata, Bool.not_false, Bool.and_true]
        cases hsess : sess.isOpen with
        | true => rw [if_pos rfl, if_pos rfl, if_neg fun h => hcross ⟨hsess, h⟩]
        | false => rfl

/-- The session is told of the room that it is granted: it is the mirror server of that
room. -/
def MirrorsItself (env : Env) (s : Server) (sid : ℕ) (sess : Session) : Option Json → Prop
  | none => False
  | some request => request.value "action" = .str "createRoom" ∧ sess.userId ≠ 0 ∧
      ∃ r, Grants env s.world (sess.withUser request) r ∧ Reaches env s r sid

theorem tells_iff {data : Option Json} : s.tells env sess data = some sid ↔ MirrorsItself env s sid sess data := by
  cases data with
  | none => exact iff_of_false (Option.some_ne_none sid).symm id
  | some request => exact announces_iff

/-- **A message is answered once just when it does not make a mirror server tell itself
of a room.** -/
theorem oneAnswer_iff (hs : s.get? sid = some sess) (data : Option Json) :
    OneAnswer env s sid sess data ↔ ¬ (sess.isOpen ∧ MirrorsItself env s sid sess data) := by
  rw [oneAnswer_iff_tells hs, tells_iff]

/-- The answer to a host whose mirror server is another session. -/
theorem oneAnswer_hostRequest : OneAnswer .reliable mirroredServer 0 hostSession (some hostRequest) := by
  refine (oneAnswer_iff rfl (some hostRequest)).2 ?_
  rintro ⟨-, -, -, r, hgrants, hreaches⟩
  obtain ⟨port, hport, hmirror⟩ := hreaches.port
  rw [granted_mirroredServer hgrants] at hport
  cases hport
  exact absurd hmirror (by decide +kernel)

/-- A mirror server on the port of the first room that has logged in as the first account. -/
def selfMirror : Session :=
  { Session.make "192.0.2.1" 40000 0 with userId := 1, token := "uuid0", isMirror := true, pending := [] }

def selfMirrorServer : Server :=
  { Server.init with heap := AList.singleton 0 selfMirror, mirrors := AList.singleton 40000 0 }

/-- The mirror server is told of its own room and answered: two writes that read on. -/
theorem not_oneAnswer_selfMirrorServer :
    ¬ OneAnswer .reliable selfMirrorServer 0 selfMirror (some hostRequest) := by
  rw [oneAnswer_iff_tells rfl, tells_iff, not_not]
  refine ⟨rfl, rfl, by decide, Tables.initRoom 0,
    ⟨by decide +kernel, 1, "room", 4, ⟨rfl, by decide +kernel, by decide, rfl, rfl⟩, ?_⟩,
    ⟨by decide +kernel, by decide, by decide, 40000, rfl, by decide +kernel⟩⟩
  exact ⟨by decide +kernel, by decide +kernel, by decide +kernel, by decide +kernel, by decide +kernel⟩

end Answers

end Matching
end SocketCommunication
