/-
# The handlers make moves

The handlers of a session, from `process_request` up to the completion handlers,
are chains of moves whose calls and logins are among the deeds of the event
(`complete_handled`).  No exception leaves a completion handler.

`Settled` is how a handler leaves its session: waiting for an operation that will
call it again, or with its user in no room.
-/

import SocketCommunication.Matching.Moves

namespace SocketCommunication
namespace Matching

open Effect

/-- The session waits for an operation that will call a handler of it. -/
def Session.Armed (sess : Session) : Prop :=
  ∃ p ∈ sess.pending, ∀ response, p.op ≠ .writeBroadcast response

/-- The session `sid` will be called again, or its user is in no room. -/
def Settled (sid : ℕ) (s : Server) : Prop :=
  ∀ sess, s.get? sid = some sess → sess.Armed ∨
    (0 < sess.userId → ∀ r ∈ s.world.db.1.roomUsers, r.userId ≠ sess.userId)

/-- A handler of `sid` has led from `s` to `t`. -/
def Handled (env : Env) (L : Licence) (sid : ℕ) (s t : Server) : Prop :=
  Moves env L s t ∧ (env.Steady → Settled sid t)

section Handlers

variable {env : Env} {L : Licence} {sid : ℕ} {s : Server} {sess : Session}

theorem wp_this {Q : Session → Server → Prop} {E : Exn → Server → Prop} (hs : s.get? sid = some sess) :
    wp (Server.this sid) Q E s ↔ Q sess s := by
  simp [Server.this, hs]

theorem wp_call {type : ControllerType} {request : Json} {Q : Json → Server → Prop}
    {E : Exn → Server → Prop}
    (hQ : ∀ response w, Controller.handleRequest env type request s.world = .ok response w →
      Q response (s.called env sid type request))
    (hE : ∀ e w, Controller.handleRequest env type request s.world = .error e w →
      E e (s.called env sid type request)) :
    wp (Server.call env sid type request) Q E s := by
  simp only [Server.call, wp_bind, wp_modify, wp_focus]
  refine wp_iff_run.2 ⟨fun response w h => ?_, fun e w h => ?_⟩
  · have := hQ response w h
    rwa [Server.called, after, h] at this
  · have := hE e w h
    rwa [Server.called, after, h] at this

/-- **The body of `process_request`**, by the kinds of action: a call with the identity
of the session and what is done with the answer, a ping, a logout, or a response that no
controller has been asked for. -/
theorem wp_dispatch {action : String} {request : Json} {Q : Unit → Server → Prop} {E : Exn → Server → Prop}
    (hs : s.get? sid = some sess)
    (hauth : action = "register" ∨ action = "login" ∨ action = "SSAFYlogin" ∨ action = "updateNickName" →
      wp (do
        let response ← Server.call env sid .auth (sess.identity.sign request)
        Session.respond env sid action response) Q E s)
    (hroom : ¬ (action = "register" ∨ action = "login" ∨ action = "SSAFYlogin" ∨ action = "updateNickName") →
      action = "createRoom" ∨ action = "joinRoom" ∨ action = "exitRoom" ∨ action = "listRooms" → sess.userId ≠ 0 →
      wp (do
        let response ← Server.call env sid .room (sess.identity.sign request)
        Session.respond env sid action response) Q E s)
    (hgame : ¬ (action = "register" ∨ action = "login" ∨ action = "SSAFYlogin" ∨ action = "updateNickName") →
      ¬ (action = "createRoom" ∨ action = "joinRoom" ∨ action = "exitRoom" ∨ action = "listRooms") →
      action = "gameStart" ∨ action = "gameEnd" → ¬ (sess.userId = 0 ∨ ¬ sess.isMirror) →
      wp (do
        let response ← Server.call env sid .game (sess.identity.sign request)
        Session.respond env sid action response) Q E s)
    (hping : action = "alivePing" → wp (Session.handlePing sid) Q E s)
    (hlogout : action = "logout" → wp (Session.handleError env sid) Q E s)
    (hwrite : action ≠ "logout" → (action = "createRoom" → sess.userId = 0) →
      ∀ j, wp (Session.writeResponse sid j) Q E s) :
    wp (Session.dispatch env sid action request) Q E s := by
  have hsign : sess.userId ≠ 0 → sess.withUser request = sess.identity.sign request := fun hne => (if_pos hne).symm
  rw [Session.dispatch, wp_bind, wp_this hs]
  refine (wp_ite _ _ _).2 ⟨hauth, fun hnauth => (wp_ite _ _ _).2 ⟨fun hr => (wp_ite _ _ _).2 ⟨fun hzero => ?_, fun hne => ?_⟩,
    fun hnroom => (wp_ite _ _ _).2 ⟨fun hg => (wp_ite _ _ _).2 ⟨fun _ => ?_, fun hmirror => ?_⟩, fun _ =>
      (wp_ite _ _ _).2 ⟨hping, fun _ => (wp_ite _ _ _).2 ⟨hlogout, fun hnout => ?_⟩⟩⟩⟩⟩
  · exact hwrite (by rcases hr with rfl | rfl | rfl | rfl <;> decide) (fun _ => hzero) _
  · rw [hsign hne]
    exact hroom hnauth hr hne
  · have hne : action ≠ "logout" := by rcases hg with rfl | rfl <;> decide
    exact hwrite hne (fun hcreate => absurd (.inl hcreate) hnroom) _
  · rw [hsign (not_or.1 hmirror).1]
    exact hgame hnauth hnroom hg hmirror
  · have hother := hwrite hnout fun hcreate => absurd (.inl hcreate) hnroom
    exact (wp_ite _ _ _).2 ⟨fun _ => hother _, fun _ => (wp_ite _ _ _).2 ⟨fun _ => hother _, fun _ => hother _⟩⟩

/-- **A request**, by its action.  Without one it is answered with an error; an action
that is not a string is an exception. -/
theorem wp_processRequest {request : Json} {Q : Unit → Server → Prop} {E : Exn → Server → Prop}
    (hnamed : ∀ action, request.value "action" = .str action → wp (Session.dispatch env sid action request) Q
      (fun _ t => wp (Session.writeResponse sid (errorResponse "잘못된 요청 형식")) Q E t) s)
    (hmisnamed : (∀ action, request.value "action" ≠ .str action) →
      wp (Session.writeResponse sid (errorResponse "잘못된 요청 형식")) Q E s ∧ ∀ e, E e s) :
    wp (Session.processRequest env sid request) Q E s := by
  simp only [Session.processRequest, wp_tryCatch, wp_bind]
  cases hindex : request.index "action" with
  | error e =>
    refine (hmisnamed fun action haction => ?_).1
    rw [Json.index_of_value haction] at hindex
    cases hindex
  | ok member =>
    obtain ⟨action, request'⟩ := member
    simp only [orThrow_ok, wp_pure, wp_bind, wp_orThrow]
    constructor
    · intro a ha
      obtain rfl := Json.getString_ok ha
      obtain ⟨haction, rfl⟩ := Json.value_of_index hindex
      refine wp_mono (fun _ _ h => h) (fun _ t ht => ⟨fun _ _ => ht, fun _ he => ?_⟩) (hnamed a haction)
      cases he
    · refine fun e he => ⟨fun b hb => ?_, fun e' _ => (hmisnamed fun a ha => ?_).2 e'⟩
      · rw [he] at hb
        cases hb
      · rw [Json.index_of_value ha] at hindex
        obtain ⟨rfl, -⟩ := Prod.mk.inj (Except.ok.inj hindex)
        cases he

/-- A request for the `auth` controller. -/
theorem wp_processRequest_auth {action : String} {request : Json} {Q : Unit → Server → Prop} {E : Exn → Server → Prop}
    (hs : s.get? sid = some sess) (haction : request.value "action" = .str action)
    (hauth : action = "register" ∨ action = "login" ∨ action = "SSAFYlogin" ∨ action = "updateNickName")
    (h : wp (Server.call env sid .auth (sess.identity.sign request))
      (fun response t => wp (Session.respond env sid action response) Q
        (fun _ t => wp (Session.writeResponse sid (errorResponse "잘못된 요청 형식")) Q E t) t)
      (fun _ t => wp (Session.writeResponse sid (errorResponse "잘못된 요청 형식")) Q E t) s) :
    wp (Session.processRequest env sid request) Q E s := by
  refine wp_processRequest (fun a ha => ?_) fun hmisnamed => absurd haction (hmisnamed action)
  obtain rfl := Json.str.inj (haction.symm.trans ha)
  rw [Session.dispatch, wp_bind, wp_this hs, if_pos hauth, wp_bind]
  exact h

theorem settled_start {op : Op} (hop : ∀ response, op ≠ .writeBroadcast response) :
    Settled sid (Server.start sid op s) := by
  intro sess hsess
  rw [Server.start, Server.get?_modifySession, if_pos rfl, Option.map_eq_some_iff] at hsess
  obtain ⟨sess', -, rfl⟩ := hsess
  exact .inl ⟨_, List.mem_append_right _ (List.mem_singleton_self _), hop⟩

/-- A handler that ends by starting an operation. -/
theorem handled_start {op : Op} {t : Server} (hg : s.Greeted sid) (h : Moves env L s t)
    (hop : op ≠ .readHandshake) (hbroad : ∀ response, op ≠ .writeBroadcast response) :
    Handled env L sid s (Server.start sid op t) :=
  ⟨h.tail (.start (h.greeted hg) hop), fun _ => settled_start hbroad⟩

theorem writeResponse_handled {response : Json} {t : Server} (hg : s.Greeted sid) (h : Moves env L s t) :
    wp (Session.writeResponse sid response) (fun _ => Handled env L sid s) (fun _ _ => False) t :=
  handled_start hg h Op.noConfusion fun _ => Op.noConfusion

/-- The answer to a request that did not log in. -/
theorem answer_handled {action : String} {response : Json} {t : Server} (hs : s.get? sid = some sess)
    (hg : s.Greeted sid) (h : Moves env L s t) (hlogin : ¬ (isLogin action ∧ response.succeeds)) :
    wp (Session.answer sid action response) (fun _ => Handled env L sid s) (fun _ _ => False) t := by
  simp only [Session.answer, wp_bind, wp_modify]
  have hsome : (t.get? sid).isSome := by rw [h.isSome, hs, Option.isSome_some]
  exact writeResponse_handled hg (h.tail (.answered hsome hlogin))

/-- Where no call fails, the request of `handle_error` takes its user out of every room. -/
theorem room_exitRequest (hsteady : env.Steady) {u : ℤ} (hu : Json.wrapInt u = u) (w : World) :
    ∀ r ∈ (after (Controller.room env (Session.exitRequest u)) w).db.1.roomUsers, r.userId ≠ u := by
  have hroom : Controller.room env (Session.exitRequest u) =
      RoomService.exitRoom env (Session.exitRequest u) := rfl
  have hid : ((Session.exitRequest u).value "userId").getInt = .ok u := congrArg Except.ok hu
  rw [hroom]
  exact wp_iff_after.1 (RoomService.exitRoom_leaves hsteady w hid)

/-- The server after `handle_error`. -/
def Server.ended (env : Env) (sid : ℕ) (sess : Session) (s : Server) : Server :=
  modifySession sid (fun sess => { sess with isOpen := false })
    (if 0 < sess.userId then s.called env sid .room (Session.exitRequest sess.userId) else s)

/-- What `handle_error` does; it never throws. -/
theorem wp_handleError {Q : Unit → Server → Prop} {E : Exn → Server → Prop} (hs : s.get? sid = some sess)
    (hQ : Q () (s.ended env sid sess)) : wp (Session.handleError env sid) Q E s := by
  simp only [Session.handleError, wp_bind, wp_this hs, wp_tryCatch, wp_onlyIf, wp_pure, wp_modify]
  constructor
  · intro hpos
    rw [Server.ended, if_pos hpos] at hQ
    exact wp_call (fun _ _ _ => hQ) fun _ _ _ => hQ
  · intro hneg
    rwa [Server.ended, if_neg hneg] at hQ

theorem moves_ended (hs : s.get? sid = some sess)
    (hL : 0 < sess.userId → L.call sid sess.identity .room (Session.exitRequest sess.userId)) :
    Moves env L s (s.ended env sid sess) := by
  refine Relation.ReflTransGen.tail ?_ (.revise fun _ => ⟨rfl, rfl⟩)
  split_ifs with hpos
  · exact .single (.call hs ⟨hpos.ne', rfl⟩ (hL hpos))
  · exact .refl

/-- The object after `handle_error`. -/
theorem Server.get?_ended (hs : s.get? sid = some sess) (sid' : ℕ) :
    (s.ended env sid sess).get? sid' =
      if sid' = sid then some { sess with isOpen := false } else s.get? sid' := by
  have hget : (if 0 < sess.userId then s.called env sid .room (Session.exitRequest sess.userId) else s).get? =
      s.get? := by split_ifs <;> rfl
  rw [Server.ended, Server.get?_modifySession, hget, hs, Option.map_some]

/-- Where no call fails, `handle_error` takes the user of the session out of every room. -/
theorem Server.ended_leaves (hsteady : env.Steady) (hint : Json.wrapInt sess.userId = sess.userId)
    (hpos : 0 < sess.userId) : ∀ r ∈ (s.ended env sid sess).world.db.1.roomUsers, r.userId ≠ sess.userId := by
  rw [Server.ended, if_pos hpos, Server.modifySession_world]
  exact room_exitRequest hsteady hint s.world

/-- The end of a session. -/
theorem handleError_handled (hs : s.get? sid = some sess) (hint : Json.wrapInt sess.userId = sess.userId)
    (hL : 0 < sess.userId → L.call sid sess.identity .room (Session.exitRequest sess.userId)) :
    wp (Session.handleError env sid) (fun _ => Handled env L sid s) (fun _ _ => False) s := by
  refine wp_handleError hs ⟨moves_ended hs hL, fun hsteady sess' hsess' => .inr fun hpos => ?_⟩
  rw [Server.get?_ended hs, if_pos rfl, Option.some.injEq] at hsess'
  subst hsess'
  exact Server.ended_leaves hsteady hint hpos

/-- The registry after `registerSession`. -/
theorem registerSession_registers (hs : s.get? sid = some sess) (hg : s.Greeted sid) {token : String} :
    s.Registers s.sessions ((Server.dropEntry env s.sessions sid).insert token sid) :=
  (Server.registers_dropEntry env s.sessions sid).insert (Option.isSome_of_mem hs) hg token

/-! ### Logins -/

section Login

variable {u : UserRow} {userName nickName action : String} {createdAt lastLogin : ℕ}

/-- `init_current_user` on the answer for an account. -/
theorem wp_initCurrentUser {Q : Unit → Server → Prop} {E : Exn → Server → Prop}
    (hint : Json.wrapInt u.userId = u.userId) :
    wp (Session.initCurrentUser sid
        (AuthService.loginResponse (UserRepository.userJson env u nickName createdAt lastLogin))) Q E s ↔
      Q () (Server.modifySession sid (fun x =>
        { x with userId := u.userId, userName := u.userName, nickName, status := "대기중" }) s) := by
  have hid : ((AuthService.loginResponse (UserRepository.userJson env u nickName createdAt lastLogin)).value
      "userId").getInt = .ok u.userId := congrArg Except.ok hint
  have hname : ((AuthService.loginResponse (UserRepository.userJson env u nickName createdAt lastLogin)).value
      "userName").getString = .ok u.userName := rfl
  have hnick : ((AuthService.loginResponse (UserRepository.userJson env u nickName createdAt lastLogin)).value
      "nickName").getString = .ok nickName := rfl
  have hhas : ∀ k ∈ ["userId", "userName", "nickName"], (AuthService.loginResponse
      (UserRepository.userJson env u nickName createdAt lastLogin)).contains k = true := by
    intro k hk
    simp only [List.mem_cons, List.not_mem_nil, or_false] at hk
    rcases hk with rfl | rfl | rfl <;> rfl
  simp only [Session.initCurrentUser, wp_bind, wp_onlyIf, hhas "userId" (by simp),
    hhas "userName" (by simp), hhas "nickName" (by simp), hid, hname, hnick, orThrow_ok, wp_pure, wp_modify,
    not_true_eq_false, false_implies, and_true, true_implies, Server.modifySession_modifySession]
  rfl

/-- `init_current_user` on the answer of a lookup that found nobody. -/
theorem wp_initCurrentUser_noUser {Q : Unit → Server → Prop} {E : Exn → Server → Prop}
    (hE : ∀ e, E e (Server.modifySession sid (fun x => { x with userId := -1 }) s)) :
    wp (Session.initCurrentUser sid (AuthService.loginResponse UserRepository.noUser)) Q E s := by
  have hid : ((AuthService.loginResponse UserRepository.noUser).value "userId").getInt = .ok (-1) := by
    decide
  have hname : ((AuthService.loginResponse UserRepository.noUser).value "userName").getString =
      .error (Json.typeError302 "string" .null) := rfl
  have hhas : (AuthService.loginResponse UserRepository.noUser).contains "userId" = true := rfl
  have hhas' : (AuthService.loginResponse UserRepository.noUser).contains "userName" = true := rfl
  simp only [Session.initCurrentUser, wp_bind, wp_onlyIf, hhas, hhas', hid, hname, orThrow_ok,
    orThrow_error, wp_pure, wp_throw, wp_modify, not_true_eq_false, false_implies, and_true, true_implies]
  exact hE _

/-- **The branch of a login**, by the answer.  The user may be logged in already; an
account is entered in the session and registered; a lookup that found nobody throws half
way. -/
theorem wp_login {response : Json} {Q : Unit → Server → Prop} {E : Exn → Server → Prop}
    (hans : AuthService.LoginAnswer env response)
    (hbusy : ∀ v, (response.value "userId").getInt = .ok v → (s.tokens.lookup v).isSome →
      wp (Session.writeResponse sid (errorResponse "이미 로그인된 사용자입니다")) Q E s)
    (haccount : ∀ (u : UserRow) nickName createdAt lastLogin, Json.wrapInt u.userId = u.userId →
      response = AuthService.loginResponse (UserRepository.userJson env u nickName createdAt lastLogin) →
      s.tokens.lookup u.userId = none →
      wp (do
        let token ← Server.registerSession env sid
        modify (Server.modifySession sid fun sess => { sess with token })
        Session.answer sid action (response.set "sessionToken" (.str token))) Q E
        (Server.modifySession sid (fun x =>
          { x with userId := u.userId, userName := u.userName, nickName, status := "대기중" }) s))
    (hmissing : response = AuthService.loginResponse UserRepository.noUser → s.tokens.lookup (-1) = none →
      ∀ e, E e (Server.modifySession sid (fun x => { x with userId := -1 }) s)) :
    wp (Session.login env sid action response) Q E s := by
  -- what is left to show once the user is known not to be logged in
  have hid : ∀ {v}, (response.value "userId").getInt = .ok v →
      (s.tokens.lookup v = none →
        wp (do
          Session.initCurrentUser sid response
          let token ← Server.registerSession env sid
          modify (Server.modifySession sid fun sess => { sess with token })
          Session.answer sid action (response.set "sessionToken" (.str token))) Q E s) →
      wp (Session.login env sid action response) Q E s := by
    intro v hv h
    simp only [Session.login, Server.checkAlreadyLogin, wp_bind, hv, orThrow_ok, wp_pure, wp_get, wp_ite]
    exact ⟨hbusy v hv, fun hfree => by simpa only [wp_bind] using h (by simpa using hfree)⟩
  cases hans with
  | account u nickName createdAt lastLogin hint =>
    have hv : ((AuthService.loginResponse (UserRepository.userJson env u nickName createdAt lastLogin)).value
        "userId").getInt = .ok u.userId := congrArg Except.ok hint
    refine hid hv fun hfree => ?_
    rw [wp_bind, wp_initCurrentUser hint]
    exact haccount u nickName createdAt lastLogin hint rfl hfree
  | missing =>
    refine hid (v := -1) (by decide) fun hfree => ?_
    rw [wp_bind]
    exact wp_initCurrentUser_noUser (hmissing rfl hfree)

theorem login_handled {response : Json} (hs : s.get? sid = some sess) (hg : s.Greeted sid) (haction : isLogin action)
    (hans : AuthService.LoginAnswer env response)
    (hL : ∀ v, (response.value "userId").getInt = .ok v → s.tokens.lookup v = none →
      L.login s sid sess.identity v) :
    wp (Session.login env sid action response) (fun _ => Handled env L sid s)
      (fun _ => Moves env L s) s := by
  refine wp_login hans
    (fun _ _ _ => wp_mono (fun _ _ h => h) (fun _ _ h => h.elim) (writeResponse_handled hg .refl))
    (fun u nickName createdAt lastLogin hint hanswer hfree => ?_) fun hanswer hfree _ => ?_
  · have hv : (response.value "userId").getInt = .ok u.userId := by
      rw [hanswer]
      exact congrArg Except.ok hint
    rw [Server.modifySession_of_some hs]
    have hs₁ : ∀ {x : Session} {sessions : AList fun _ : String => ℕ} {uuids : ℕ}
        {tokens : AList fun _ : ℤ => String}, Server.get?
        { s with heap := s.heap.insert sid x, sessions, uuids, tokens } sid = some x :=
      AList.lookup_insert _
    simp only [Server.registerSession, wp_bind, wp_get, wp_set, wp_pure, wp_modify]
    refine (wp_this hs₁).2 ?_
    rw [Server.modifySession_of_some hs₁]
    simp only [AList.insert_insert]
    simp only [Session.answer, wp_bind, wp_modify]
    subst hanswer
    exact wp_mono (fun _ _ h => h) (fun _ _ h => h.elim) (writeResponse_handled hg (.single
      (.login hs (hg _ hs) (registerSession_registers hs hg) (hL _ hv hfree) hint hfree (env.uuid_ne s.uuids) haction rfl rfl)))
  · subst hanswer
    exact .single (.halfLogin hs (hg _ hs) (hL (-1) (by decide) hfree))

end Login

/-! ### Requests -/

/-- A result of a handler, or of a part of it that threw. -/
theorem handled_mono {c : ServerM Unit} {t : Server}
    (h : wp c (fun _ => Handled env L sid s) (fun _ _ => False) t) :
    wp c (fun _ => Handled env L sid s) (fun _ => Moves env L s) t :=
  wp_mono (fun _ _ h => h) (fun _ _ h => h.elim) h

theorem getMirrorSession_moves (hsane : s.Sane) (port : ℤ) :
    wp (Server.getMirrorSession port) (fun r t => Moves env L s t ∧ ∀ mirror, r = some mirror → s.Greeted mirror)
      (fun _ _ => False) s := by
  simp only [Server.getMirrorSession, wp_bind, wp_get]
  cases hmirror : s.mirrors.lookup port with
  | none => exact ⟨.refl, fun _ h => absurd h.symm (Option.some_ne_none _)⟩
  | some mirror =>
    refine (wp_ite _ _ _).2 ⟨fun _ => ⟨.refl, fun _ h => ?_⟩, fun _ => ⟨.single (.registry ?_ ?_), fun _ h => ?_⟩⟩
    · exact Option.some.inj h ▸ (hsane.mirrors port mirror hmirror).2
    · exact Server.registers_erase _ _
    · exact Server.registers_refl _
    · exact absurd h.symm (Option.some_ne_none _)

theorem notifyMirror_handled (hsane : s.Sane) (hg : s.Greeted sid) (response : Json) :
    wp (Session.notifyMirror sid response)
      (fun notified t => if notified then Moves env L s t else Handled env L sid s t) (fun _ _ => False) s := by
  simp only [Session.notifyMirror, wp_tryCatch, wp_bind, wp_orThrow, wp_pure]
  refine ⟨fun port _ => ?_, fun _ _ => .refl⟩
  refine wp_mono (fun r t ht => ?_) (fun _ _ h => h.elim) (@getMirrorSession_moves env L s hsane port)
  obtain ⟨ht, hmirror⟩ := ht
  cases r with
  | none =>
    rw [wp_bind]
    exact wp_mono (fun _ _ h => h) (fun _ _ h => h.elim) (writeResponse_handled hg ht)
  | some mirror =>
    simp only [wp_bind, wp_orThrow, wp_modify, wp_pure]
    refine ⟨fun roomId _ => ?_, fun _ _ => ht⟩
    have hrevised : Moves env L s (Server.modifySession sid
        (fun sess => { sess with status := toString roomId ++ "번 방" }) t) := ht.tail (.revise fun _ => ⟨rfl, rfl⟩)
    exact hrevised.tail (.start (hrevised.greeted (hmirror mirror rfl)) Op.noConfusion)

theorem respond_handled {action : String} {response : Json} (hsane : s.Sane) (hs : s.get? sid = some sess)
    (hg : s.Greeted sid) (hlogin : isLogin action → response.succeeds → AuthService.LoginAnswer env response ∧
      ∀ v, (response.value "userId").getInt = .ok v → s.tokens.lookup v = none →
        L.login s sid sess.identity v)
    (hgame : action = "gameStart" ∨ action = "gameEnd" → response.succeeds = false) :
    wp (Session.respond env sid action response) (fun _ => Handled env L sid s) (fun _ => Moves env L s) s := by
  have hanswer : ∀ {t}, Moves env L s t → ¬ (isLogin action ∧ response.succeeds) →
      wp (Session.answer sid action response) (fun _ => Handled env L sid s) (fun _ => Moves env L s) t :=
    fun h hn => handled_mono (answer_handled hs hg h hn)
  have hrevise : ∀ {f : Session → Session} {t}, (∀ x, (f x).identity = x.identity ∧ (f x).pending = x.pending) →
      Moves env L s t → Moves env L s (Server.modifySession sid f t) := fun hf h => h.tail (.revise hf)
  simp only [Session.respond, wp_ite]
  refine ⟨fun h => ?_, fun h => ?_⟩
  · have haction : isLogin action := by simpa [isLogin] using h.1
    exact login_handled hs hg haction (hlogin haction h.2).1 (hlogin haction h.2).2
  have hnot : ¬ (isLogin action ∧ response.succeeds) := by simpa [isLogin] using h
  refine ⟨fun _ => ?_, fun _ => ⟨fun _ => ?_, fun _ => ⟨fun _ => ?_, fun _ => ⟨fun h => ?_, fun _ =>
    ⟨fun h => ?_, fun _ => ⟨fun _ => ?_, fun _ => hanswer .refl hnot⟩⟩⟩⟩⟩⟩
  · rw [wp_bind]
    refine wp_mono (fun notified t ht => ?_) (fun _ _ h => h.elim)
      (@notifyMirror_handled env L sid s hsane hg response)
    refine (wp_onlyIf _ _).2 ⟨fun hn => ?_, fun hn => ?_⟩
    · rw [if_pos hn] at ht
      exact hanswer ht hnot
    · rwa [if_neg hn] at ht
  · simp only [wp_bind, wp_orThrow, wp_modify]
    exact ⟨fun _ _ => hanswer (hrevise (fun _ => ⟨rfl, rfl⟩) .refl) hnot, fun _ _ => .refl⟩
  · simp only [wp_bind, wp_modify]
    exact hanswer (hrevise (fun _ => ⟨rfl, rfl⟩) .refl) hnot
  · rw [hgame (.inl h.1)] at h
    exact absurd h.2 Bool.false_ne_true
  · rw [hgame (.inr h.1)] at h
    exact absurd h.2 Bool.false_ne_true
  · simp only [wp_bind, wp_orThrow, wp_modify]
    exact ⟨fun _ _ => hanswer (hrevise (fun _ => ⟨rfl, rfl⟩) .refl) hnot, fun _ _ => .refl⟩

theorem value_sign {who : Identity} {request : Json} {k : String} (hk : k ≠ "userId") :
    (who.sign request).value k = request.value k := by
  unfold Identity.sign
  split_ifs with h
  · exact Json.value_set_ne hk
  · rfl

theorem value_sign_userId {who : Identity} {request : Json} (hobj : request.isObject)
    (hwho : who.userId ≠ 0) : (who.sign request).value "userId" = .int who.userId := by
  rw [Identity.sign, if_pos hwho, Json.value_set _ _ _ _ hobj, if_pos rfl]

/-- The login that a request is granted is one of its deeds. -/
theorem mem_granted {who : Identity} {w w' : World} {tokens : AList fun _ : ℤ => String} {action : String}
    {request response : Json} {u : ℤ} (haction : isLogin action)
    (hrun : Controller.auth env (who.sign request) w = .ok response w') (hsuccess : response.succeeds)
    (hu : (response.value "userId").getInt = .ok u) (hfree : tokens.lookup u = none) :
    .login who u ∈ who.granted env w tokens action request := by
  simp [Identity.granted, haction, hrun, hsuccess, hu, hfree]

/-- A call and what is done with its answer. -/
theorem call_respond_handled {type : ControllerType} {action : String} {request : Json}
    (hsane : s.Sane) (hs : s.get? sid = some sess) (hg : s.Greeted sid)
    (hguard : Guarded sess.identity request type)
    (hL : L.call sid sess.identity type request)
    (hlogin : ∀ response w, Controller.handleRequest env type request s.world = .ok response w →
      isLogin action → response.succeeds → AuthService.LoginAnswer env response ∧
        ∀ v, (response.value "userId").getInt = .ok v → s.tokens.lookup v = none →
          L.login (s.called env sid type request) sid sess.identity v)
    (hgame : ∀ response w, Controller.handleRequest env type request s.world = .ok response w →
      action = "gameStart" ∨ action = "gameEnd" → response.succeeds = false) :
    wp (Server.call env sid type request)
      (fun response t => wp (Session.respond env sid action response) (fun _ => Handled env L sid s)
        (fun _ => Moves env L s) t)
      (fun _ => Moves env L s) s := by
  have hcall : Move env L s (s.called env sid type request) := .call hs hguard hL
  have hmove : Moves env L s (s.called env sid type request) := .single hcall
  refine wp_call (fun response w hrun => ?_) fun _ _ _ => hmove
  refine wp_mono (fun _ _ h => ⟨hmove.trans h.1, h.2⟩) (fun _ _ h => hmove.trans h)
    (respond_handled (s := s.called env sid type request) (hcall.sane hsane) hs hg (hlogin response w hrun) (hgame response w hrun))

/-- The body of `process_request`. -/
theorem dispatch_handled {s₀ : Server} {action : String} {request : Json} (hsane : s.Sane)
    (hs : s.get? sid = some sess) (hg : s.Greeted sid) (hcalm : Calm sid s₀ s)
    (haction : request.value "action" = .str action)
    (hL : ∀ d ∈ sess.identity.asks env s.world s.tokens request, L.Allows s₀ sid d) :
    wp (Session.dispatch env sid action request) (fun _ => Handled env L sid s) (fun _ => Moves env L s) s := by
  have hobj := Json.isObject_of_value haction
  have hwrite : ∀ {j t}, Moves env L s t → wp (Session.writeResponse sid j) (fun _ => Handled env L sid s)
      (fun _ => Moves env L s) t := fun h => handled_mono (writeResponse_handled hg h)
  simp only [Identity.asks, haction] at hL
  refine wp_dispatch hs (fun hauth => ?_) (fun hauth hroom hne => ?_) (fun hauth hroom hgame hmirror => ?_) (fun _ => ?_)
    (fun hlogout => ?_) fun _ _ _ => hwrite .refl
  · rw [if_pos hauth] at hL
    rw [wp_bind]
    refine call_respond_handled hsane hs hg (value_sign_userId hobj) (hL _ List.mem_cons_self)
      (fun response w hrun hlogin hsuccess => ⟨?_, fun v hv hfree => ?_⟩) fun _ _ _ hgame => ?_
    · have hindex := Json.index_of_value ((@value_sign sess.identity _ _ (by decide)).trans haction)
      exact wp_ok (Controller.auth_answer s.world hindex hlogin) hrun hsuccess
    · refine hL _ (List.mem_cons_of_mem _ (mem_granted hlogin hrun hsuccess hv hfree)) _ (hcalm.trans ?_)
      exact ⟨((Controller.auth_keeps _).after s.world).2, rfl, fun _ _ => rfl⟩
    · rcases hgame with rfl | rfl <;> simp at hauth
  · have hne' : ¬ sess.identity.userId = 0 := hne
    rw [if_neg hauth, if_pos hroom, if_neg hne'] at hL
    rw [wp_bind]
    refine call_respond_handled hsane hs hg ⟨hne, value_sign_userId hobj hne⟩ (hL _ (List.mem_singleton_self _))
      (fun _ _ _ hlogin => ?_) fun _ _ _ hgame => ?_
    · simp only [isLogin, Bool.decide_or, Bool.or_eq_true, decide_eq_true_eq] at hlogin
      rcases hlogin with rfl | rfl <;> simp at hroom
    · rcases hgame with rfl | rfl <;> simp at hroom
  · have hmirror' : ¬ (sess.identity.userId = 0 ∨ ¬ sess.identity.isMirror) := hmirror
    rw [if_neg hauth, if_neg hroom, if_pos hgame, if_neg hmirror'] at hL
    rw [wp_bind]
    refine call_respond_handled hsane hs hg (not_not.1 (not_or.1 hmirror').2) (hL _ (List.mem_singleton_self _))
      (fun _ _ _ hlogin => ?_) fun response w hrun _ => ?_
    · simp only [isLogin, Bool.decide_or, Bool.or_eq_true, decide_eq_true_eq] at hlogin
      rcases hlogin with rfl | rfl <;> simp at hgame
    · have hrefused := wp_ok (Controller.game_refuses s.world _) hrun
      exact hrefused
  · simp only [Session.handlePing, wp_bind, wp_modify]
    rw [wp_this (Server.get?_modifySession_self hs)]
    exact hwrite (.single (.revise fun _ => ⟨rfl, rfl⟩))
  · subst hlogout
    simp only [String.reduceEq, or_self, if_false, if_true] at hL
    refine handled_mono (handleError_handled hs (hsane.session sid sess hs).int fun hpos => ?_)
    rw [Identity.teardown, if_pos (show 0 < sess.identity.userId from hpos)] at hL
    exact hL _ (List.mem_singleton_self _)

/-- A request; an exception leaves only when the action is not a string, and then
nothing has happened. -/
theorem processRequest_handled {s₀ : Server} {request : Json} (hsane : s.Sane)
    (hs : s.get? sid = some sess) (hg : s.Greeted sid) (hcalm : Calm sid s₀ s)
    (hL : ∀ d ∈ sess.identity.asks env s.world s.tokens request, L.Allows s₀ sid d) :
    wp (Session.processRequest env sid request) (fun _ => Handled env L sid s) (fun _ t => t = s) s := by
  have hwrite : ∀ {t}, Moves env L s t →
      wp (Session.writeResponse sid (errorResponse "잘못된 요청 형식")) (fun _ => Handled env L sid s)
        (fun _ t => t = s) t := fun h => wp_mono (fun _ _ h => h) (fun _ _ h => h.elim) (writeResponse_handled hg h)
  refine wp_processRequest (fun action haction => ?_) fun _ => ⟨hwrite .refl, fun _ => rfl⟩
  exact wp_mono (fun _ _ h => h) (fun _ _ ht => hwrite ht) (dispatch_handled hsane hs hg hcalm haction hL)

/-- The handler of a message. -/
theorem readMessage_handled {s₀ : Server} {data : Option Json} (hsane : s.Sane)
    (hs : s.get? sid = some sess) (hg : s.Greeted sid) (hcalm : Calm sid s₀ s)
    (hL : ∀ request, data = some request →
      ∀ d ∈ sess.identity.asks env s.world s.tokens request, L.Allows s₀ sid d) :
    wp (Session.readMessage env sid data) (fun _ => Handled env L sid s) (fun _ _ => False) s := by
  simp only [Session.readMessage, wp_tryCatch]
  cases data with
  | none => exact writeResponse_handled hg .refl
  | some request =>
    refine wp_mono (fun _ _ h => h) (fun _ t ht => ?_) (processRequest_handled hsane hs hg hcalm (hL request rfl))
    exact writeResponse_handled hg (ht ▸ .refl)

/-! ### Handshakes -/

/-- Nothing has happened but to the pending operations, the socket and the
addresses. -/
structure Near (sid : ℕ) (s t : Server) : Prop extends Calm sid s t where
  world : t.world = s.world
  version : t.version = s.version
  uuids : t.uuids = s.uuids
  who : (t.get? sid).map Session.identity = (s.get? sid).map Session.identity

/-- The session is still there, and nobody else. -/
theorem Near.get? {t : Server} (h : Near sid s t) (hs : s.get? sid = some sess) :
    ∃ x, t.get? sid = some x ∧ x.identity = sess.identity := by
  have hwho := h.who
  rwa [hs, Option.map_some, Option.map_eq_some_iff] at hwho

/-- `handle_error` of a session without a user only closes its socket. -/
theorem Server.ended_zero {t : Server} {x : Session} (hzero : x.userId = 0) :
    t.ended env sid x = Server.modifySession sid (fun sess => { sess with isOpen := false }) t := by
  rw [Server.ended, if_neg (by rw [hzero]; exact lt_irrefl 0)]

theorem handleError_zero_handled {t : Server} (h : Moves env L s t) {x : Session} (ht : t.get? sid = some x)
    (hzero : x.userId = 0) :
    wp (Session.handleError env sid) (fun _ => Handled env L sid s) (fun _ _ => False) t := by
  have hpos : ¬ 0 < x.userId := by rw [hzero]; exact lt_irrefl 0
  refine wp_handleError ht ⟨h.trans (moves_ended ht fun h => absurd h hpos), fun _ y hy => .inr fun h => ?_⟩
  rw [Server.get?_ended ht, if_pos rfl, Option.some.injEq] at hy
  subst hy
  exact absurd h hpos

/-- The handshake of a mirror. -/
theorem mirrorHandshake_handled {handshake : Json} (hs : s.get? sid = some sess) (hg : s.Greeted sid)
    (hzero : sess.userId = 0) (htoken : sess.token = "") :
    wp (Session.mirrorHandshake env sid handshake) (fun _ => Handled env L sid s)
      (fun _ t => Moves env L s t ∧ ∃ x, t.get? sid = some x ∧ x.userId = 0) s := by
  have hgs : sess.Greeted := hg sess hs
  have hmirror : Moves env L s (Server.modifySession sid (fun x => { x with isMirror := true }) s) :=
    .single (.mirror hs hgs hzero htoken)
  simp only [Session.mirrorHandshake, wp_bind, wp_modify, wp_orThrow]
  refine ⟨fun port hport => ?_, fun e _ => ⟨hmirror, _, Server.get?_modifySession_self hs, hzero⟩⟩
  simp only [Server.registerMirrorSession, wp_modify]
  have hrevised : Moves env L s (Server.modifySession sid (fun x => { x with mirrorPort := port })
      (Server.modifySession sid (fun x => { x with isMirror := true }) s)) :=
    hmirror.tail (.revise fun _ => ⟨rfl, rfl⟩)
  have hget := Server.get?_modifySession_self (f := fun x => { x with mirrorPort := port })
    (Server.get?_modifySession_self (f := fun x => { x with isMirror := true }) hs)
  refine handled_start hg (Relation.ReflTransGen.tail ?_
    (.port hget hgs rfl hzero htoken (Json.wrapInt_of_getInt hport))) Op.noConfusion fun _ => Op.noConfusion
  refine hrevised.tail (.registry ?_ (Server.registers_refl _))
  exact (Server.registers_dropEntry env _ sid).insert (Option.isSome_of_mem hget) (hrevised.greeted hg) port

theorem near_modifySession {f : Session → Session} (hf : ∀ x, (f x).identity = x.identity) {t : Server}
    (h : Near sid s t) : Near sid s (Server.modifySession sid f t) where
  roomUsers := by rw [Server.modifySession_world]; exact h.roomUsers
  tokens := by rw [Server.modifySession_tokens]; exact h.tokens
  others sid' hne := (Server.get?_modifySession_of_ne hne).trans (h.others sid' hne)
  world := by rw [Server.modifySession_world]; exact h.world
  version := by rw [Server.modifySession_version]; exact h.version
  uuids := by rw [Server.modifySession_uuids]; exact h.uuids
  who := by
    rw [Server.get?_modifySession, if_pos rfl, Option.map_map, show Session.identity ∘ f = Session.identity
      from funext hf]
    exact h.who

/-- The check of the address. -/
theorem checkAddress_near (hs : s.get? sid = some sess) (hg : s.Greeted sid) (hzero : sess.userId = 0) :
    wp (Session.checkAddress env sid) (fun _ t => Moves env L s t ∧ Near sid s t) (fun _ _ => False) s := by
  have hnear : Near sid s s := ⟨.refl sid s, rfl, rfl, rfl, rfl⟩
  simp only [Session.checkAddress, Server.allowConnection, wp_bind, wp_this hs, wp_get, wp_ite, wp_pure,
    wp_set, wp_onlyIf, Bool.false_eq_true, not_false_eq_true, true_implies, not_true_eq_false, false_implies,
    and_true, true_and, wp_modify]
  refine ⟨fun _ => ?_, fun _ => ⟨.single (.registry (Server.registers_refl _) (Server.registers_refl _)),
    ⟨rfl, rfl, fun _ _ => rfl⟩, rfl, rfl, rfl, rfl⟩⟩
  refine wp_handleError (Server.get?_modifySession_self hs) ?_
  refine (Server.ended_zero hzero).symm ▸ ⟨?_, ?_⟩
  · refine Relation.ReflTransGen.tail ?_ (.revise fun _ => ⟨rfl, rfl⟩)
    exact .single (.start hg Op.noConfusion)
  · refine near_modifySession ?_ (near_modifySession ?_ hnear) <;> exact fun _ => rfl

/-- A client that the server takes in. -/
theorem initSession_moves (hs : s.get? sid = some sess) (hg : s.Greeted sid) (hzero : sess.userId = 0) :
    wp (Session.initSession env sid)
      (fun _ t => Moves env L s t ∧ Calm sid s t ∧ t.world = s.world ∧
        t.get? sid = some { sess with token := env.uuid s.uuids })
      (fun _ _ => False) s := by
  have hs' : ∀ {sessions : AList fun _ : String => ℕ} {uuids : ℕ},
      Server.get? { s with sessions, uuids } sid = some sess := hs
  have hfree : ¬ sess.userId ≠ 0 := not_not.2 hzero
  simp only [Session.initSession, Server.registerSession, wp_bind, wp_get, wp_this hs, wp_set, wp_pure,
    wp_modify, if_neg hfree]
  refine ⟨?_, ⟨?_, ?_, fun sid' hne => Server.get?_modifySession_of_ne hne⟩, ?_,
    Server.get?_modifySession_self hs'⟩
  · refine Relation.ReflTransGen.tail ?_ (.token hs' (hg _ hs) hzero (env.uuid_ne s.uuids))
    exact .single (.registry (Server.registers_refl _) (registerSession_registers hs hg))
  · rw [Server.modifySession_world]
  · rw [Server.modifySession_tokens]
  · rw [Server.modifySession_world]

/-- The handshake of a client. -/
theorem clientHandshake_handled {handshake : Json} (hsane : s.Sane) (hs : s.get? sid = some sess)
    (hg : s.Greeted sid) (hzero : sess.userId = 0) {s₀ : Server} (hcalm : Calm sid s₀ s)
    (hL : (handshake.value "version").eqString s.version → handshake.contains "action" →
      ∀ d ∈ { sess.identity with token := env.uuid s.uuids }.asks env s.world s.tokens handshake,
        L.Allows s₀ sid d) :
    wp (Session.clientHandshake env sid handshake) (fun _ => Handled env L sid s)
      (fun _ t => Moves env L s t ∧ ∃ x, t.get? sid = some x ∧ x.userId = 0) s := by
  rw [Session.clientHandshake, wp_bind]
  refine wp_mono (fun _ t ht => ?_) (fun _ _ h => h.elim) (checkAddress_near (L := L) hs hg hzero)
  obtain ⟨hmoves, hnear⟩ := ht
  obtain ⟨x, hx, hid⟩ := hnear.get? hs
  have hxzero : x.userId = 0 := (congrArg Identity.userId hid).trans hzero
  have herror : wp (Session.handleError env sid) (fun _ => Handled env L sid s)
      (fun _ t => Moves env L s t ∧ ∃ x, t.get? sid = some x ∧ x.userId = 0) t :=
    wp_mono (fun _ _ h => h) (fun _ _ h => h.elim) (handleError_zero_handled hmoves hx hxzero)
  simp only [wp_bind, wp_get, wp_ite, wp_orThrow]
  refine ⟨fun _ => herror, fun _ => ⟨fun version hversion => ⟨fun _ => herror, fun hv => ?_⟩,
    fun _ _ => ⟨hmoves, x, hx, hxzero⟩⟩⟩
  refine wp_mono (fun _ r hr => ?_) (fun _ _ h => h.elim) (initSession_moves (L := L) hx (hmoves.greeted hg) hxzero)
  obtain ⟨hmoves', hcalm', hworld, hr⟩ := hr
  have hall : Moves env L s r := hmoves.trans hmoves'
  refine ⟨fun haction => ?_, fun _ => handled_start hg hall Op.noConfusion fun _ => Op.noConfusion⟩
  have hvalue : (handshake.value "version").eqString s.version := by
    rw [Json.getString_ok hversion, ← hnear.version, not_not.1 hv]
    exact beq_self_eq_true _
  have hnow := @processRequest_handled env L sid r { x with token := env.uuid t.uuids } s₀ handshake
    (hall.sane hsane) hr (hall.greeted hg)
  refine wp_mono (fun _ _ h => ⟨hall.trans h.1, h.2⟩) (fun _ q hq => ?_)
    (hnow (hcalm.trans (hnear.toCalm.trans hcalm')) ?_)
  · subst hq
    exact ⟨hall, _, hr, hxzero⟩
  · have hident : Session.identity { x with token := env.uuid t.uuids } =
        { sess.identity with token := env.uuid s.uuids } := by
      rw [← hid, ← hnear.uuids]
      rfl
    rw [hident, hworld, hnear.world, hcalm'.tokens, hnear.tokens]
    exact hL hvalue haction

/-- The handler of the first message. -/
theorem readHandshake_handled {data : Option Json} (hsane : s.Sane) (hs : s.get? sid = some sess)
    (hg : s.Greeted sid) (hzero : sess.userId = 0) (htoken : sess.token = "") {s₀ : Server} (hcalm : Calm sid s₀ s)
    (hL : ∀ handshake, data = some handshake → ¬ Session.asksMirror handshake →
      (handshake.value "version").eqString s.version → handshake.contains "action" →
      ∀ d ∈ { sess.identity with token := env.uuid s.uuids }.asks env s.world s.tokens handshake,
        L.Allows s₀ sid d) :
    wp (Session.readHandshake env sid data) (fun _ => Handled env L sid s) (fun _ _ => False) s := by
  have hcatch : ∀ {t : Server}, (Moves env L s t ∧ ∃ x, t.get? sid = some x ∧ x.userId = 0) →
      wp (Session.handleError env sid) (fun _ => Handled env L sid s) (fun _ _ => False) t :=
    fun ⟨hmoves, _, hx, hxzero⟩ => handleError_zero_handled hmoves hx hxzero
  simp only [Session.readHandshake, wp_tryCatch]
  cases data with
  | none => exact hcatch ⟨.refl, sess, hs, hzero⟩
  | some handshake =>
    refine (wp_ite _ _ _).2 ⟨fun _ => ?_, fun hmirror => ?_⟩
    · exact wp_mono (fun _ _ h => h) (fun _ _ h => hcatch h) (mirrorHandshake_handled hs hg hzero htoken)
    · exact wp_mono (fun _ _ h => h) (fun _ _ h => hcatch h)
        (clientHandshake_handled hsane hs hg hzero hcalm (hL handshake rfl hmirror))

/-- **The handler of a pending operation.**  The completion of a broadcast alone
has no handler. -/
theorem complete_handled {op : Op} {result : Session.Completion} (hsane : s.Sane)
    (hs : s.get? sid = some sess) (hg : s.Greeted sid)
    (hfresh : op = .readHandshake → sess.userId = 0 ∧ sess.token = "") {s₀ : Server} (hcalm : Calm sid s₀ s)
    (hL : ∀ d ∈ s.completes env sess.identity op result, L.Allows s₀ sid d) :
    wp (Session.complete env sid op result)
      (fun _ t => Handled env L sid s t ∨ (∃ response, op = .writeBroadcast response) ∧ t = s)
      (fun _ _ => False) s := by
  have hread : Handled env L sid s (Server.start sid .readMessage s) :=
    handled_start hg .refl Op.noConfusion fun _ => Op.noConfusion
  have hleft : ∀ {c : ServerM Unit}, wp c (fun _ => Handled env L sid s) (fun _ _ => False) s →
      wp c (fun _ t => Handled env L sid s t ∨ (∃ response, op = .writeBroadcast response) ∧ t = s)
        (fun _ _ => False) s := fun h => wp_mono (fun _ _ h => .inl h) (fun _ _ h => h) h
  cases result with
  | error =>
    have herror : ∀ d ∈ sess.identity.teardown, L.Allows s₀ sid d := by
      cases op <;> exact hL
    have hcall : wp (Session.handleError env sid) (fun _ => Handled env L sid s) (fun _ _ => False) s := by
      refine handleError_handled hs (hsane.session sid sess hs).int fun hpos => ?_
      rw [Identity.teardown, if_pos (show 0 < sess.identity.userId from hpos)] at herror
      exact herror _ (List.mem_singleton_self _)
    cases op <;> exact hleft hcall
  | ok data =>
    cases op with
    | readHandshake =>
      refine hleft (readHandshake_handled hsane hs hg (hfresh rfl).1 (hfresh rfl).2 hcalm fun handshake hdata hm hv ha => ?_)
      subst hdata
      rwa [Server.completes, if_pos ⟨hm, hv, ha⟩] at hL
    | readMessage =>
      exact hleft (readMessage_handled hsane hs hg hcalm fun request hdata => by subst hdata; exact hL)
    | writeHandshake _ => exact .inl hread
    | writeResponse _ => exact .inl hread
    | writeMirror _ => exact .inl hread
    | writeBroadcast response => exact .inr ⟨⟨response, rfl⟩, rfl⟩

end Handlers

end Matching
end SocketCommunication
