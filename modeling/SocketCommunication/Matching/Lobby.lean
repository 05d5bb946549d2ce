/-
# Who has the status of the lobby

A session keeps in `status_` whether its user waits in the lobby or is in a room:
`init_current_user` and the answers to the requests for rooms write it, each after
the transaction of another layer.

`Unmoved` is what every other piece of a handler keeps: the members of the rooms, and
the clients with their statuses.
-/

import SocketCommunication.Matching.Memberships
import SocketCommunication.Matching.Registry
import SocketCommunication.Matching.RoomCreation
import SocketCommunication.Matching.Starts

namespace SocketCommunication
namespace Matching

open Effect

/-- A client that is logged in, with an open socket. -/
def Session.Client (x : Session) : Prop := x.isOpen ∧ x.isMirror = false ∧ 0 < x.userId

instance (x : Session) : Decidable x.Client := inferInstanceAs (Decidable (_ ∧ _ ∧ _))

namespace Server

/-- **A client has the status of the lobby just when its user is in no room.** -/
def LobbyExact (s : Server) : Prop :=
  ∀ sid x, s.get? sid = some x → x.Client → (x.status = "대기중" ↔ ¬ s.InRoom x.userId)

/-- Members and clients are where they were. -/
structure Unmoved (s t : Server) : Prop where
  rows : t.world.db.1.roomUsers = s.world.db.1.roomUsers
  clients : ∀ sid y, t.get? sid = some y → y.Client →
    ∃ x, s.get? sid = some x ∧ x.Client ∧ x.userId = y.userId ∧ x.status = y.status

instance : IsPreorder Server Unmoved where
  refl _ := ⟨rfl, fun _ y hy hclient => ⟨y, hy, hclient, rfl, rfl⟩⟩
  trans _ _ _ h h' := ⟨h'.rows.trans h.rows, fun sid z hz hclient => by
    obtain ⟨y, hy, hclient', hu, hst⟩ := h'.clients sid z hz hclient
    obtain ⟨x, hx, hclient'', hu', hst'⟩ := h.clients sid y hy hclient'
    exact ⟨x, hx, hclient'', hu'.trans hu, hst'.trans hst⟩⟩

section Unmoved

variable {env : Env} {s t : Server} {sid : ℕ}

theorem inRoom_congr (h : t.world.db.1.roomUsers = s.world.db.1.roomUsers) (u : ℤ) : t.InRoom u ↔ s.InRoom u := by
  rw [InRoom, InRoom, h]

theorem LobbyExact.unmoved (h : s.LobbyExact) (ht : Unmoved s t) : t.LobbyExact := by
  intro sid y hy hclient
  obtain ⟨x, hx, hclient', hu, hst⟩ := ht.clients sid y hy hclient
  rw [inRoom_congr ht.rows, ← hu, ← hst]
  exact h sid x hx hclient'

/-- What is kept by a command that moves nobody. -/
theorem LobbyExact.keeps {α : Type} {c : ServerM α} (hc : Keeps Unmoved c) (h : s.LobbyExact) :
    wp c (fun _ t => t.LobbyExact) (fun _ t => t.LobbyExact) s :=
  wp_mono (fun _ _ => h.unmoved) (fun _ _ => h.unmoved) (hc s)

/-- No session is there. -/
theorem lobbyExact_of_heap (h : s.heap = ∅) : s.LobbyExact := by
  intro sid x hx
  rw [get?_of_empty h] at hx
  cases hx

theorem unmoved_of_heap (hrows : t.world.db.1.roomUsers = s.world.db.1.roomUsers) (hheap : t.heap = s.heap) :
    Unmoved s t :=
  ⟨hrows, fun _ y hy hclient => ⟨y, by rwa [get?, ← hheap], hclient, rfl, rfl⟩⟩

/-- A session changes, and is no client after that or the client that it was. -/
theorem unmoved_modifySession {f : Session → Session}
    (hf : ∀ x, s.get? sid = some x → (f x).Client → x.Client ∧ x.userId = (f x).userId ∧ x.status = (f x).status) :
    Unmoved s (modifySession sid f s) := by
  refine ⟨by rw [modifySession_world], fun k y hy hclient => ?_⟩
  rw [get?_modifySession] at hy
  split_ifs at hy with hk
  · obtain ⟨x, hx, rfl⟩ := Option.map_eq_some_iff.1 hy
    exact ⟨x, hk ▸ hx, hf x hx hclient⟩
  · exact ⟨y, hy, hclient, rfl, rfl⟩

theorem unmoved_start (sid : ℕ) (op : Op) (s : Server) : Unmoved s (start sid op s) :=
  unmoved_modifySession fun _ _ hclient => ⟨hclient, rfl, rfl⟩

theorem unmoved_closed (sid : ℕ) (s : Server) : Unmoved s (s.closed sid) :=
  unmoved_modifySession fun _ _ hclient => absurd hclient.1 Bool.false_ne_true

theorem tolerates_unmoved : Tolerates Unmoved where
  registries hworld hheap := unmoved_of_heap (by rw [hworld]) hheap
  start := unmoved_start
  token _ _ _ := unmoved_modifySession fun _ _ hclient => ⟨hclient, rfl, rfl⟩
  lastActivity _ _ _ := unmoved_modifySession fun _ _ hclient => ⟨hclient, rfl, rfl⟩

end Unmoved

end Server

namespace Session

open Server

variable {env : Env} (sid : ℕ)

/-! ### Logins -/

section Login

variable {sid} {s : Server} {sess : Session} {action : String} {response : Json}

/-- **A login** makes a client whose user should be in no room. -/
theorem login_lobbyExact (hs : s.get? sid = some sess) (h : s.LobbyExact) (hans : AuthService.LoginAnswer env response)
    (hfree : ∀ u, (response.value "userId").getInt = .ok u → s.tokens.lookup u = none →
      sess.isOpen → sess.isMirror = false → 0 < u → ¬ s.InRoom u) :
    wp (login env sid action response) (fun _ t => t.LobbyExact) (fun _ t => t.LobbyExact) s := by
  refine wp_login hans (fun _ _ _ => h.keeps (tolerates_unmoved.writeResponse sid _))
    (fun u nickName createdAt lastLogin hint hanswer hlookup => ?_) fun _ _ _ => ?_
  · have hu : (response.value "userId").getInt = .ok u.userId := by
      rw [hanswer]
      exact congrArg Except.ok hint
    refine LobbyExact.keeps (tolerates_unmoved.register sid action _) fun k y hy hclient => ?_
    rw [inRoom_congr (s := s) (by rw [modifySession_world])]
    rw [get?_modifySession] at hy
    split_ifs at hy with hk
    · obtain ⟨x, hx, rfl⟩ := Option.map_eq_some_iff.1 hy
      obtain rfl := Option.some.inj (hs.symm.trans hx)
      exact iff_of_true rfl (hfree u.userId hu hlookup hclient.1 hclient.2.1 hclient.2.2)
    · exact h k y hy hclient
  · have hneg : ¬ (0 : ℤ) < -1 := by decide
    exact h.unmoved (unmoved_modifySession fun _ _ hclient => absurd hclient.2.2 hneg)

/-- The answer to a request for an account. -/
theorem respond_auth (haction : action = "register" ∨ action = "login" ∨ action = "SSAFYlogin" ∨ action = "updateNickName")
    (hs : s.get? sid = some sess) (h : s.LobbyExact)
    (hlogin : isLogin action → response.succeeds → AuthService.LoginAnswer env response ∧
      ∀ u, (response.value "userId").getInt = .ok u → s.tokens.lookup u = none →
        sess.isOpen → sess.isMirror = false → 0 < u → ¬ s.InRoom u) :
    wp (respond env sid action response) (fun _ t => t.LobbyExact) (fun _ t => t.LobbyExact) s := by
  have hno : ∀ a ∈ ["createRoom", "joinRoom", "exitRoom", "gameStart", "gameEnd"], action ≠ a := by
    rcases haction with rfl | rfl | rfl | rfl <;> decide
  simp only [List.mem_cons, List.not_mem_nil, or_false, forall_eq_or_imp, forall_eq] at hno
  refine (wp_ite _ _ _).2 ⟨fun hsuccess => ?_, fun _ => ?_⟩
  · have his : isLogin action := by simpa [isLogin] using hsuccess.1
    exact login_lobbyExact hs h (hlogin his hsuccess.2).1 (hlogin his hsuccess.2).2
  · rw [if_neg fun hc => hno.1 hc.1, if_neg fun hc => hno.2.1 hc.1, if_neg fun hc => hno.2.2.1 hc.1,
      if_neg fun hc => hno.2.2.2.1 hc.1, if_neg fun hc => hno.2.2.2.2 hc.1]
    refine h.keeps (keeps_ite (fun _ => keeps_bind (keeps_orThrow _) fun _ => ?_) fun _ => tolerates_unmoved.answer sid _ _)
    exact keeps_bind (keeps_modify fun _ => unmoved_modifySession fun _ _ hclient => ⟨hclient, rfl, rfl⟩) fun _ =>
      tolerates_unmoved.answer sid _ _

end Login

end Session

/-! ### Rooms -/

open RoomRepository RoomService

/-- The request takes its user from no room into one, or out of all rooms. -/
def Relocates (env : Env) (w : World) (request : Json) (u : ℤ) : Prop :=
  (request.value "action" = .str "createRoom" ∧ ∃ r, Grants env w request r) ∨
  (request.value "action" = .str "joinRoom" ∧ (∀ q ∈ w.db.1.roomUsers, q.userId ≠ u) ∧
    ∃ roomId, (request.value "roomId").getInt = .ok roomId ∧ Joins env w roomId u) ∨
  (request.value "action" = .str "exitRoom" ∧ ∃ roomId, Leaves env w u roomId)

/-- The request is granted a room that its client cannot be told of. -/
def Server.Strands (env : Env) (s : Server) (request : Json) : Prop :=
  request.value "action" = .str "createRoom" ∧ ∃ r, Grants env s.world request r ∧ s.Stranded env r

instance (env : Env) (w : World) (request : Json) (u : ℤ) : Decidable (Relocates env w request u) :=
  inferInstanceAs (Decidable ((request.value "action" = .str "createRoom" ∧ ∃ r, Grants env w request r) ∨
    (request.value "action" = .str "joinRoom" ∧ (∀ q ∈ w.db.1.roomUsers, q.userId ≠ u) ∧
      ∃ roomId, (request.value "roomId").getInt = .ok roomId ∧ Joins env w roomId u) ∨
    (request.value "action" = .str "exitRoom" ∧ ∃ roomId, Leaves env w u roomId)))

instance (env : Env) (s : Server) (request : Json) : Decidable (s.Strands env request) :=
  inferInstanceAs (Decidable (_ ∧ ∃ r, Grants env s.world request r ∧ s.Stranded env r))

section Rooms

variable {env : Env} {s t : Server} {sid : ℕ} {sess : Session} {request : Json}

/-- The status of a room is not that of the lobby. -/
theorem roomStatus_ne (roomId : ℤ) : toString roomId ++ "번 방" ≠ "대기중" := by
  intro h
  have hlist := congrArg String.toList h
  rw [String.toList_append] at hlist
  have hend := @List.append_inj_right' _ (toString roomId).toList _ [] _ hlist (by decide)
  exact absurd hend (by decide)

/-- A room is opened for the user whose rows have changed. -/
theorem RoomService.Opened.inserts {w w' : World} {r : RoomRow} {u : ℤ} (h : Opened w r w') (hrows : OnlyRowsOf u w w') :
    ∃ q ∈ w'.db.1.roomUsers, q.userId = u := by
  obtain ⟨host, roomName, maxPlayers, now, hp⟩ := h
  have hnew : w'.db.1.roomUsers = w.db.1.roomUsers ++ [⟨r.roomId, host, now⟩] := by rw [hp.1]; rfl
  have hmem : (⟨r.roomId, host, now⟩ : RoomUserRow) ∈ w'.db.1.roomUsers := by rw [hnew]; simp
  refine ⟨_, hmem, ?_⟩
  by_contra hne
  have hkeys := w'.db.2.roomUsers_pkey
  rw [hnew, Rows.nodup_map_append_singleton] at hkeys
  exact hkeys.2 (List.mem_map_of_mem ((hrows _ hne).1 hmem))

/-- What the `room` controller answers to a request of the user `u`, and what it has
done to the rows of `u`. -/
inductive RoomAnswer (env : Env) (w : World) (request : Json) (u : ℤ) : Json → World → Prop
  | created {r : RoomRow} {w' : World} {roomName ip : String} {port maxPlayers : ℤ}
      (haction : request.value "action" = .str "createRoom") (hgrants : Grants env w request r)
      (hport : r.port = some port) (hin : ∃ q ∈ w'.db.1.roomUsers, q.userId = u) :
      RoomAnswer env w request u (RoomService.created r.roomId roomName ip port maxPlayers) w'
  | untold {r : RoomRow} {w' : World} {message : String} (haction : request.value "action" = .str "createRoom")
      (hgrants : Grants env w request r)
      (hfails : ¬ env.Answers w 12 ∨ r.ipAddress = none ∨ r.port = none ∨ r.roomId = -1) :
      RoomAnswer env w request u (errorResponse message) w'
  | joined {roomId : ℤ} {w' : World} (haction : request.value "action" = .str "joinRoom")
      (hroom : (request.value "roomId").getInt = .ok roomId) (hjoins : Joins env w roomId u)
      (hin : ∃ q ∈ w'.db.1.roomUsers, q.userId = u) : RoomAnswer env w request u (RoomService.joined roomId) w'
  | exited {roomId : ℤ} {w' : World} (haction : request.value "action" = .str "exitRoom") (hleaves : Leaves env w u roomId)
      (hout : ∀ q ∈ w'.db.1.roomUsers, q.userId ≠ u) : RoomAnswer env w request u RoomService.exited w'
  | idle {j : Json} {w' : World} (hrows : w'.db.1.roomUsers = w.db.1.roomUsers)
      (hj : j.succeeds → request.value "action" = .str "listRooms") : RoomAnswer env w request u j w'

/-- **What the `room` controller answers.** -/
theorem room_answer (w : World) {u : ℤ} (hu : (request.value "userId").getInt = .ok u) {action : String}
    (haction : request.value "action" = .str action) :
    wp (Controller.handleRequest env .room request) (RoomAnswer env w request u)
      (fun _ w' => w'.db.1.roomUsers = w.db.1.roomUsers) w := by
  have hidle : ∀ {w' : World} {message : String}, Unpublished w w' →
      RoomAnswer env w request u (errorResponse message) w' := fun h =>
    .idle h.sameRooms.2 fun hs => absurd hs Bool.false_ne_true
  have hrows := @Controller.room_keeps env u request hu w
  have hroom := @Controller.room_of_action env action request haction
  rw [show Controller.room env request = Controller.handleRequest env .room request from rfl] at hrows
  by_cases hcreate : action = "createRoom"
  · rw [hroom, if_pos hcreate] at hrows ⊢
    refine wp_mono (fun j w' ⟨h, hkept⟩ => ?_) (fun _ _ h => h.1.elim) (wp_and (createRoom_spec w request) hrows)
    rw [hcreate] at haction
    rcases h with ⟨r, hgrants, hopened, ⟨roomName, ip, port, maxPlayers, -, -, hport, -, rfl⟩ | ⟨hfails, message, rfl⟩⟩ |
      ⟨-, hun, message, rfl⟩
    · exact .created haction hgrants hport (hopened.inserts hkept)
    · exact .untold haction hgrants hfails
    · exact hidle hun
  by_cases hjoin : action = "joinRoom"
  · rw [hroom, if_neg hcreate, if_pos hjoin]
    refine wp_mono (fun j w' h => ?_) (fun _ _ h => h.elim) (joinRoom_spec w hu)
    rcases h with ⟨roomId, hid, hjoins, hp, rfl⟩ | ⟨hun, message, rfl⟩
    · refine .joined (hjoin ▸ haction) hid hjoins ⟨⟨roomId, u, env.now (w.tick + 1)⟩, ?_, rfl⟩
      rw [hp.1]
      exact List.mem_append_right _ (List.mem_singleton_self _)
    · exact hidle hun
  by_cases hexit : action = "exitRoom"
  · rw [hroom, if_neg hcreate, if_neg hjoin, if_pos hexit]
    refine wp_mono (fun j w' h => ?_) (fun _ _ h => h.elim) (exitRoom_spec w hu)
    rcases h with ⟨roomId, hleaves, hp, rfl⟩ | ⟨hun, message, rfl⟩
    · refine .exited (hexit ▸ haction) hleaves fun q hq => ?_
      rw [hp.1, mem_roomUsers_leave] at hq
      exact hq.2
    · exact hidle hun
  rw [hroom, if_neg hcreate, if_neg hjoin, if_neg hexit]
  by_cases hlist : action = "listRooms"
  · rw [if_pos hlist]
    have hkept : Keeps SameRooms (RoomService.listRooms env) := RoomService.listRooms_keeps sameRooms_of_db
    exact wp_mono (fun _ _ h => .idle h.2 fun _ => hlist ▸ haction) (fun _ _ h => h.2) (hkept w)
  · rw [if_neg hlist]
    exact hidle ⟨rfl, rfl⟩

/-- An answer that says that a user has come or gone was given to such a request. -/
theorem RoomAnswer.relocates {w w' : World} {u : ℤ} {j : Json} (h : RoomAnswer env w request u j w') :
    Relocates env w request u ∨ ((∃ q ∈ w'.db.1.roomUsers, q.userId = u) ↔ ∃ q ∈ w.db.1.roomUsers, q.userId = u) := by
  cases h with
  | created haction hgrants => exact .inl (.inl ⟨haction, _, hgrants⟩)
  | untold haction hgrants => exact .inl (.inl ⟨haction, _, hgrants⟩)
  | joined haction hroom hjoins hin =>
    by_cases hold : ∃ q ∈ w.db.1.roomUsers, q.userId = u
    · exact .inr (iff_of_true hin hold)
    · exact .inl (.inr (.inl ⟨haction, fun q hq hu => hold ⟨q, hq, hu⟩, _, hroom, hjoins⟩))
  | exited haction hleaves => exact .inl (.inr (.inr ⟨haction, _, hleaves⟩))
  | idle hrows => exact .inr (by rw [hrows])

namespace Server

/-- Where only rows of `u` have changed, the clients of other users are right; those
of `u` are `sid`, and others for whom nothing has changed. -/
theorem LobbyExact.rows {u : ℤ} (h : s.LobbyExact) (hrows : OnlyRowsOf u s.world t.world)
    (hothers : ∀ k ≠ sid, t.get? k = s.get? k)
    (hin : s.Has (fun k y => k ≠ sid ∧ y.Client) u → (t.InRoom u ↔ s.InRoom u))
    (hsid : ∀ y, t.get? sid = some y → y.Client → (y.status = "대기중" ↔ ¬ t.InRoom y.userId)) : t.LobbyExact := by
  intro k y hy hclient
  by_cases hk : k = sid
  · subst hk
    exact hsid y hy hclient
  rw [hothers k hk] at hy
  rw [h k y hy hclient, not_iff_not]
  by_cases hu : y.userId = u
  · rw [hu, hin ⟨k, y, hy, hu, hk, hclient⟩]
  · refine exists_congr fun q => ?_
    constructor
    · exact fun ⟨hq, hqu⟩ => ⟨(hrows q (hqu ▸ hu)).2 hq, hqu⟩
    · exact fun ⟨hq, hqu⟩ => ⟨(hrows q (hqu ▸ hu)).1 hq, hqu⟩

/-- The server `r` after a call of the `room` controller by `sid`, which found `s`. -/
structure RoomCalled (s : Server) (sid : ℕ) (sess : Session) (r : Server) : Prop where
  get : s.get? sid = some sess
  lobby : s.LobbyExact
  heap : r.heap = s.heap
  mirrors : r.mirrors = s.mirrors
  rows : OnlyRowsOf sess.userId s.world r.world
  others : s.Has (fun k y => k ≠ sid ∧ y.Client) sess.userId → (r.InRoom sess.userId ↔ s.InRoom sess.userId)

namespace RoomCalled

variable {r : Server}

theorem get?_eq (h : RoomCalled s sid sess r) (k : ℕ) : r.get? k = s.get? k := by
  rw [Server.get?, h.heap]
  rfl

theorem mirrorOf_eq (h : RoomCalled s sid sess r) (port : ℤ) : r.mirrorOf port = s.mirrorOf port := by
  simp only [mirrorOf, h.mirrors, h.get?_eq]

/-- The caller is given its status. -/
theorem written (h : RoomCalled s sid sess r) {q : Server} (hworld : q.world = r.world) (hheap : q.heap = r.heap)
    {status : String} (hstatus : status = "대기중" ↔ ¬ r.InRoom sess.userId) :
    (modifySession sid (fun x => { x with status }) q).LobbyExact := by
  refine @LobbyExact.rows s _ sid sess.userId h.lobby ?_ (fun k hk => ?_) (fun hhas => ?_) fun y hy _ => ?_
  · rw [modifySession_world, hworld]
    exact h.rows
  · rw [get?_modifySession_of_ne hk, Server.get?, hheap]
    exact h.get?_eq k
  · rw [InRoom, modifySession_world, hworld]
    exact h.others hhas
  · have hq : q.get? sid = some sess := by
      rw [Server.get?, hheap]
      exact (h.get?_eq sid).trans h.get
    rw [get?_modifySession_self hq, Option.some.injEq] at hy
    subst hy
    rw [InRoom, modifySession_world, hworld]
    exact hstatus

/-- The caller is not told what has become of its user, and is no client. -/
theorem untold (h : RoomCalled s sid sess r) (hno : ¬ sess.Client) : r.LobbyExact := by
  refine h.lobby.rows h.rows (fun k _ => h.get?_eq k) h.others fun y hy hclient => ?_
  obtain rfl := Option.some.inj (h.get.symm.trans ((h.get?_eq sid).symm.trans hy))
  exact absurd hclient hno

end RoomCalled

end Server

namespace Session

open Server

variable {r : Server}

/-- A room is created: the caller is told, if the mirror server of the room is connected. -/
theorem respond_created_lobby (h : RoomCalled s sid sess r) (hin : r.InRoom sess.userId) {roomId port maxPlayers : ℤ}
    {roomName ip : String} (hno : s.mirrorOf (Json.wrapInt port) = none → ¬ sess.Client) :
    wp (respond env sid "createRoom" (RoomService.created roomId roomName ip port maxPlayers))
      (fun _ t => t.LobbyExact) (fun _ t => t.LobbyExact) r := by
  refine wp_respond_created (fun q hworld hheap hmirror => ?_) fun mirror q told hworld hheap hmirror => ?_
  · rw [h.mirrorOf_eq] at hmirror
    have hlobby : q.LobbyExact := (h.untold (hno hmirror)).unmoved (unmoved_of_heap (by rw [hworld]) hheap)
    exact hlobby.unmoved (unmoved_start sid _ q)
  · have hlobby := h.written hworld hheap (iff_of_false (roomStatus_ne (Json.wrapInt roomId)) (not_not.2 hin))
    exact (hlobby.unmoved (unmoved_start mirror _ _)).keeps (tolerates_unmoved.answer sid _ _)

theorem respond_joined_lobby (h : RoomCalled s sid sess r) (hin : r.InRoom sess.userId) (roomId : ℤ) :
    wp (respond env sid "joinRoom" (RoomService.joined roomId)) (fun _ t => t.LobbyExact) (fun _ t => t.LobbyExact) r := by
  have hsuccess : (RoomService.joined roomId).succeeds := rfl
  have hroom : ((RoomService.joined roomId).value "roomId").getInt = .ok (Json.wrapInt roomId) := rfl
  simp only [respond, hsuccess, String.reduceEq, or_self, false_and, if_false, and_self, if_true, wp_bind, hroom,
    orThrow_ok, wp_pure, wp_modify]
  exact (h.written rfl rfl (iff_of_false (roomStatus_ne _) (not_not.2 hin))).keeps (tolerates_unmoved.answer sid _ _)

theorem respond_exited_lobby (h : RoomCalled s sid sess r) (hout : ¬ r.InRoom sess.userId) :
    wp (respond env sid "exitRoom" RoomService.exited) (fun _ t => t.LobbyExact) (fun _ t => t.LobbyExact) r := by
  have hsuccess : RoomService.exited.succeeds := rfl
  simp only [respond, hsuccess, String.reduceEq, or_self, false_and, if_false, and_self, if_true, wp_bind, wp_modify]
  exact (h.written rfl rfl (iff_of_true rfl hout)).keeps (tolerates_unmoved.answer sid _ _)

/-- Nothing has become of the user of the caller. -/
theorem respond_idle_lobby {action : String} {j : Json} (h : r.LobbyExact) (hj : j.succeeds → action = "listRooms") :
    wp (respond env sid action j) (fun _ t => t.LobbyExact) (fun _ t => t.LobbyExact) r := by
  by_cases hsuccess : j.succeeds
  · simp only [respond, hj hsuccess, String.reduceEq, or_self, false_and, if_false]
    exact h.keeps (tolerates_unmoved.answer sid _ _)
  · rw [respond_eq_answer sid (Bool.eq_false_iff.2 hsuccess)]
    exact h.keeps (tolerates_unmoved.answer sid _ _)

/-- **What `process_request` does with an answer of the `room` controller** keeps
every client right. -/
theorem respond_room {action : String} {j : Json} (h : RoomCalled s sid sess r)
    (haction : request.value "action" = .str action) (hanswer : RoomAnswer env s.world request sess.userId j r.world)
    (hstrand : sess.Client → ¬ s.Strands env request) :
    wp (respond env sid action j) (fun _ t => t.LobbyExact) (fun _ t => t.LobbyExact) r := by
  have hsame : ∀ {b : String}, request.value "action" = .str b → action = b :=
    fun hb => Json.str.inj (haction.symm.trans hb)
  generalize hworld : r.world = w at hanswer
  cases hanswer with
  | created haction' hgrants hport hin =>
    obtain rfl := hsame haction'
    refine respond_created_lobby h (by rwa [InRoom, hworld]) fun hmirror hclient => hstrand hclient ?_
    refine ⟨haction, _, hgrants, .inr (.inr (.inr (.inr fun port hp => ?_)))⟩
    rwa [← Option.some.inj (hport.symm.trans hp)]
  | untold haction' hgrants hfails =>
    have hstrands : s.Strands env request :=
      ⟨haction', _, hgrants, hfails.imp_right (Or.imp_right (Or.imp_right .inl))⟩
    exact respond_idle_lobby (h.untold fun hclient => hstrand hclient hstrands) fun hs => absurd hs Bool.false_ne_true
  | joined haction' _ _ hin =>
    obtain rfl := hsame haction'
    exact respond_joined_lobby h (by rwa [InRoom, hworld]) _
  | exited haction' _ hout =>
    obtain rfl := hsame haction'
    refine respond_exited_lobby h fun hin => ?_
    obtain ⟨q, hq, hu⟩ := hin
    exact hout q (hworld ▸ hq) hu
  | idle hidle hj =>
    have hlobby : r.LobbyExact := h.lobby.unmoved (unmoved_of_heap (by rw [hworld, hidle]) h.heap)
    exact respond_idle_lobby hlobby fun hs => hsame (hj hs)

end Session

end Rooms

/-! ### Deeds that make a status wrong -/

namespace Server

/-- A deed of `sid`, whose socket is open or not, that leaves a client with the
wrong status: a client is logged in whose user is in a room; a client is granted a
room and not told of it; or the user of another client comes or goes. -/
def Misleads (env : Env) (s : Server) (sid : ℕ) (isOpen : Bool) : Deed → Prop
  | .login i u => isOpen ∧ i.isMirror = false ∧ 0 < u ∧ s.InRoom u
  | .call i .room request =>
    (isOpen ∧ i.isMirror = false ∧ 0 < i.userId ∧ s.Strands env request) ∨
      (s.Has (fun k x => k ≠ sid ∧ x.Client) i.userId ∧ Relocates env s.world request i.userId)
  | .call .. => False

instance (env : Env) (s : Server) (sid : ℕ) (isOpen : Bool) : ∀ d, Decidable (s.Misleads env sid isOpen d)
  | .login i u => inferInstanceAs (Decidable (isOpen ∧ i.isMirror = false ∧ 0 < u ∧ s.InRoom u))
  | .call i .room request =>
    inferInstanceAs (Decidable ((isOpen ∧ i.isMirror = false ∧ 0 < i.userId ∧ s.Strands env request) ∨
      (s.Has (fun k x => k ≠ sid ∧ x.Client) i.userId ∧ Relocates env s.world request i.userId)))
  | .call _ .auth _ | .call _ .game _ => inferInstanceAs (Decidable False)

section Requests

variable {env : Env} {s t : Server} {sid : ℕ} {sess : Session} {request : Json}

/-- A deed looks at the database, the mirrors and the other sessions. -/
theorem Misleads.of_same {isOpen : Bool} {d : Deed} (hworld : t.world = s.world) (hmirrors : t.mirrors = s.mirrors)
    (hsome : ∀ k, (t.get? k).isSome = (s.get? k).isSome) (hothers : ∀ k ≠ sid, t.get? k = s.get? k)
    (h : t.Misleads env sid isOpen d) : s.Misleads env sid isOpen d := by
  have hmirrorOf : ∀ port, t.mirrorOf port = s.mirrorOf port := fun port => by simp only [mirrorOf, hmirrors, hsome]
  cases d with
  | login i u =>
    obtain ⟨hopen, hmirror, hpos, hin⟩ := h
    exact ⟨hopen, hmirror, hpos, by rwa [InRoom, ← hworld]⟩
  | call i type request =>
    cases type with
    | room =>
      rcases h with ⟨hopen, hmirror, hpos, hcreate, r, hgrants, hstranded⟩ | ⟨⟨k, x, hx, hu, hk, hclient⟩, hmoves⟩
      · refine .inl ⟨hopen, hmirror, hpos, hcreate, r, hworld ▸ hgrants, ?_⟩
        simpa only [Stranded, hworld, hmirrorOf] using hstranded
      · exact .inr ⟨⟨k, x, hothers k hk ▸ hx, hu, hk, hclient⟩, hworld ▸ hmoves⟩
    | auth => exact h
    | game => exact h

theorem world_called {type : ControllerType} {j : Json} {w : World}
    (hrun : Controller.handleRequest env type request s.world = .ok j w) :
    (s.called env sid type request).world = w := by
  rw [called, after, hrun]

/-- What the `room` controller does to the rows of a user. -/
theorem inRoom_called {u : ℤ} (hu : (request.value "userId").getInt = .ok u) {action : String}
    (haction : request.value "action" = .str action) (hstay : ¬ Relocates env s.world request u) :
    (s.called env sid .room request).InRoom u ↔ s.InRoom u := by
  have hrows : wp (Controller.handleRequest env .room request)
      (fun _ w => (∃ q ∈ w.db.1.roomUsers, q.userId = u) ↔ s.InRoom u)
      (fun _ w => (∃ q ∈ w.db.1.roomUsers, q.userId = u) ↔ s.InRoom u) s.world := by
    refine wp_mono (fun _ _ h => h.relocates.resolve_left hstay) (fun _ _ h => ?_) (room_answer s.world hu haction)
    rw [h]
    rfl
  exact wp_iff_after.1 hrows

theorem roomCalled (hs : s.get? sid = some sess) (h : s.LobbyExact)
    (hu : (request.value "userId").getInt = .ok sess.userId) {action : String}
    (haction : request.value "action" = .str action)
    (hothers : s.Has (fun k x => k ≠ sid ∧ x.Client) sess.userId → ¬ Relocates env s.world request sess.userId) :
    RoomCalled s sid sess (s.called env sid .room request) where
  get := hs
  lobby := h
  heap := rfl
  mirrors := rfl
  rows := (Controller.room_keeps hu).after s.world
  others hhas := inRoom_called hu haction (hothers hhas)

/-- **The end of a session** takes its user out of its rooms, and closes its socket. -/
theorem LobbyExact.ended (hs : s.get? sid = some sess) (h : s.LobbyExact) (hint : Json.wrapInt sess.userId = sess.userId)
    (hothers : 0 < sess.userId → s.Has (fun k x => k ≠ sid ∧ x.Client) sess.userId →
      ¬ Relocates env s.world (Session.exitRequest sess.userId) sess.userId) : (s.ended env sid sess).LobbyExact := by
  by_cases hpos : 0 < sess.userId
  · have hcalled : RoomCalled s sid sess (s.called env sid .room (Session.exitRequest sess.userId)) :=
      roomCalled hs h (congrArg Except.ok hint) rfl (hothers hpos)
    rw [Server.ended, if_pos hpos]
    refine @LobbyExact.rows s _ sid sess.userId h ?_ (fun k hk => get?_modifySession_of_ne hk) ?_ fun y hy hclient => ?_
    · rw [modifySession_world]
      exact hcalled.rows
    · rw [InRoom, modifySession_world]
      exact hcalled.others
    · have hget : (s.called env sid .room (Session.exitRequest sess.userId)).get? sid = some sess := hs
      rw [get?_modifySession_self hget, Option.some.injEq] at hy
      subst hy
      exact absurd hclient.1 Bool.false_ne_true
  · rw [Server.ended, if_neg hpos]
    exact h.unmoved (unmoved_closed sid s)

end Requests

end Server

namespace Session

open Server

section Requests

variable {env : Env} {s : Server} {sid : ℕ} {sess : Session} {request : Json}

/-- The end of a session that misleads nobody. -/
theorem handleError_lobby {E : Exn → Server → Prop} {isOpen : Bool} (hs : s.get? sid = some sess)
    (hint : Json.wrapInt sess.userId = sess.userId) (h : s.LobbyExact)
    (hdeeds : ∀ d ∈ sess.identity.teardown, ¬ s.Misleads env sid isOpen d) :
    wp (handleError env sid) (fun _ t => t.LobbyExact) E s := by
  refine wp_handleError hs (h.ended hs hint fun hpos hhas hmoves => ?_)
  refine hdeeds (.call sess.identity .room (exitRequest sess.userId)) ?_ (.inr ⟨hhas, hmoves⟩)
  rw [Identity.teardown, if_pos (show 0 < sess.identity.userId from hpos)]
  exact List.mem_singleton_self _

/-- **A request that misleads nobody.** -/
theorem dispatch_lobby {action : String} (hs : s.get? sid = some sess) (hint : Json.wrapInt sess.userId = sess.userId)
    (h : s.LobbyExact) (haction : request.value "action" = .str action)
    (hdeeds : ∀ d ∈ sess.identity.asks env s.world s.tokens request, ¬ s.Misleads env sid sess.isOpen d) :
    wp (dispatch env sid action request) (fun _ t => t.LobbyExact) (fun _ t => t.LobbyExact) s := by
  have hobj := Json.isObject_of_value haction
  have hsigned : (sess.identity.sign request).value "action" = .str action := (value_sign (by decide)).trans haction
  have hwrite : ∀ (j : Json), wp (writeResponse sid j) (fun _ t => t.LobbyExact) (fun _ t => t.LobbyExact) s :=
    fun j => h.keeps (tolerates_unmoved.writeResponse sid j)
  simp only [Identity.asks, haction] at hdeeds
  refine wp_dispatch hs (fun hauth => ?_) (fun hauth hroom hne => ?_) (fun _ _ _ _ => ?_)
    (fun _ => h.keeps (tolerates_unmoved.handlePing sid)) (fun hlogout => ?_) fun _ _ j => hwrite j
  · rw [if_pos hauth] at hdeeds
    have hsame : Unmoved s (s.called env sid .auth (sess.identity.sign request)) :=
      unmoved_of_heap ((Controller.auth_keeps _).after s.world).2 rfl
    rw [wp_bind]
    refine wp_call (fun response w hrun => ?_) fun _ _ _ => h.unmoved hsame
    refine respond_auth hauth hs (h.unmoved hsame) fun hlogin hsuccess =>
      ⟨wp_ok (Controller.auth_answer s.world (Json.index_of_value hsigned) hlogin) hrun hsuccess,
        fun u hu hfree hopen hclient hpos hin => ?_⟩
    refine hdeeds _ (List.mem_cons_of_mem _ (mem_granted hlogin hrun hsuccess hu hfree)) ⟨hopen, hclient, hpos, ?_⟩
    exact (inRoom_congr hsame.rows u).1 hin
  · have hne' : ¬ sess.identity.userId = 0 := hne
    rw [if_neg hauth, if_pos hroom, if_neg hne'] at hdeeds
    have hdeed := hdeeds _ (List.mem_singleton_self _)
    have hu : ((sess.identity.sign request).value "userId").getInt = .ok sess.userId := by
      rw [value_sign_userId hobj hne']
      exact congrArg Except.ok hint
    have hcalled : RoomCalled s sid sess (s.called env sid .room (sess.identity.sign request)) :=
      roomCalled hs h hu hsigned fun hhas hmoves => hdeed (.inr ⟨hhas, hmoves⟩)
    have hanswer := @room_answer env (sess.identity.sign request) s.world sess.userId hu action hsigned
    rw [wp_bind]
    refine wp_call (fun response w hrun => ?_) fun _ w hrun => ?_
    · refine respond_room hcalled hsigned ?_ fun hclient hstrands => hdeed (.inl ?_)
      · rw [world_called hrun]
        exact wp_ok hanswer hrun
      · exact ⟨hclient.1, hclient.2.1, hclient.2.2, hstrands⟩
    · have hrows := wp_error hanswer hrun
      refine h.unmoved (unmoved_of_heap ?_ rfl)
      rw [called, after, hrun]
      exact hrows
  · have hsame : Unmoved s (s.called env sid .game (sess.identity.sign request)) :=
      unmoved_of_heap ((Controller.game_keeps _).after s.world) rfl
    rw [wp_bind]
    refine wp_call (fun response w hrun => ?_) fun _ _ _ => h.unmoved hsame
    have hrefused := wp_ok (Controller.game_refuses s.world _) hrun
    rw [respond_eq_answer sid hrefused]
    exact (h.unmoved hsame).keeps (tolerates_unmoved.answer sid _ _)
  · subst hlogout
    simp only [String.reduceEq, or_self, if_false, if_true] at hdeeds
    exact handleError_lobby hs hint h hdeeds

theorem processRequest_lobby (hs : s.get? sid = some sess) (hint : Json.wrapInt sess.userId = sess.userId)
    (h : s.LobbyExact)
    (hdeeds : ∀ d ∈ sess.identity.asks env s.world s.tokens request, ¬ s.Misleads env sid sess.isOpen d) :
    wp (processRequest env sid request) (fun _ t => t.LobbyExact) (fun _ t => t.LobbyExact) s := by
  have hwrite : ∀ {t : Server} (j : Json), t.LobbyExact →
      wp (writeResponse sid j) (fun _ t => t.LobbyExact) (fun _ t => t.LobbyExact) t :=
    fun j ht => ht.keeps (tolerates_unmoved.writeResponse sid j)
  refine wp_processRequest (fun action haction => ?_) fun _ => ⟨hwrite _ h, fun _ => h⟩
  exact wp_mono (fun _ _ h => h) (fun _ _ ht => hwrite _ ht) (dispatch_lobby hs hint h haction hdeeds)

/-- A message. -/
theorem readMessage_lobby {data : Option Json} (hs : s.get? sid = some sess)
    (hint : Json.wrapInt sess.userId = sess.userId) (h : s.LobbyExact)
    (hdeeds : ∀ request, data = some request →
      ∀ d ∈ sess.identity.asks env s.world s.tokens request, ¬ s.Misleads env sid sess.isOpen d) :
    wp (readMessage env sid data) (fun _ t => t.LobbyExact) (fun _ t => t.LobbyExact) s := by
  have hwrite : ∀ {t : Server} (j : Json), t.LobbyExact →
      wp (writeResponse sid j) (fun _ t => t.LobbyExact) (fun _ t => t.LobbyExact) t :=
    fun j ht => ht.keeps (tolerates_unmoved.writeResponse sid j)
  simp only [readMessage, wp_tryCatch]
  cases data with
  | none => exact hwrite _ h
  | some request =>
    exact wp_mono (fun _ _ h => h) (fun _ _ ht => hwrite _ ht) (processRequest_lobby hs hint h (hdeeds request rfl))

end Requests

/-! ### Handshakes -/

section Handshakes

variable {env : Env} {s : Server} {sid : ℕ} {sess : Session}

theorem unmoved_checked : Unmoved s (s.checked sid sess) := by
  unfold checked
  split_ifs
  · exact trans_of Unmoved (unmoved_start sid _ s) (unmoved_closed sid _)
  · exact unmoved_of_heap rfl rfl

theorem unmoved_registered : Unmoved s (s.registered env sid sess) := by
  unfold registered
  refine trans_of Unmoved ?_ (unmoved_modifySession fun _ _ hclient => ?_)
  · exact unmoved_of_heap rfl rfl
  · exact ⟨hclient, rfl, rfl⟩

theorem unmoved_mirrored (hs : s.get? sid = some sess) (port : ℤ) : Unmoved s (s.mirrored env sid port) := by
  refine ⟨by simp [mirrored, start], fun k y hy hclient => ?_⟩
  rw [get?_mirrored hs] at hy
  split_ifs at hy with hk
  · obtain rfl := Option.some.inj hy
    exact absurd hclient.2.1 Bool.noConfusion
  · exact ⟨y, hy, hclient, rfl, rfl⟩

/-- The check of the address touches its session and the addresses alone. -/
theorem checked_frame : (s.checked sid sess).world = s.world ∧ (s.checked sid sess).tokens = s.tokens ∧
    (s.checked sid sess).mirrors = s.mirrors ∧ (s.checked sid sess).uuids = s.uuids ∧
    ∀ k ≠ sid, (s.checked sid sess).get? k = s.get? k := by
  unfold checked
  split_ifs
  · refine ⟨by simp [closed, start], by simp [closed, start], by simp [closed, start], by simp [closed, start], fun k hk => ?_⟩
    rw [closed, get?_modifySession_of_ne hk, start, get?_modifySession_of_ne hk]
  · exact ⟨rfl, rfl, rfl, rfl, fun _ _ => rfl⟩

/-- The check of the address closes the socket of a second client on one. -/
theorem isOpen_checked {x : Session} (hs : s.get? sid = some sess) (hx : (s.checked sid sess).get? sid = some x) :
    x.isOpen = (sess.isOpen && decide (sess.remoteIp ∉ s.connectedIps)) := by
  unfold checked at hx
  split_ifs at hx with hin
  · rw [closed, start, get?_modifySession_self (get?_modifySession_self hs), Option.some.injEq] at hx
    rw [← hx, decide_eq_false (not_not.2 hin), Bool.and_false]
  · obtain rfl := Option.some.inj (hs.symm.trans hx)
    rw [decide_eq_true hin, Bool.and_true]

/-- **A first message that misleads nobody.** -/
theorem readHandshake_lobby {data : Option Json} (hs : s.get? sid = some sess) (hzero : sess.userId = 0) (h : s.LobbyExact)
    (hdeeds : ∀ handshake, data = some handshake → ¬ asksMirror handshake →
      (handshake.value "version").eqString s.version → handshake.contains "action" →
      ∀ d ∈ { sess.identity with token := env.uuid s.uuids }.asks env s.world s.tokens handshake,
        ¬ s.Misleads env sid (sess.isOpen && decide (sess.remoteIp ∉ s.connectedIps)) d) :
    wp (readHandshake env sid data) (fun _ t => t.LobbyExact) (fun _ _ => False) s := by
  have hclosed : ∀ {t : Server}, Unmoved s t → (t.closed sid).LobbyExact :=
    fun ht => (h.unmoved ht).unmoved (unmoved_closed sid _)
  have hregistered : Unmoved s ((s.checked sid sess).registered env sid sess) :=
    trans_of Unmoved unmoved_checked unmoved_registered
  refine wp_readHandshake hs hzero (fun _ => hclosed (refl_of Unmoved s)) (fun _ _ _ _ => hclosed ?_)
    (fun _ port _ _ _ => h.unmoved (unmoved_mirrored hs port)) fun handshake hdata hno => ?_
  · exact unmoved_modifySession fun _ _ hclient => absurd hclient.2.1 Bool.noConfusion
  refine wp_clientHandshake hs hzero (fun _ => hclosed unmoved_checked)
    (fun _ _ => (h.unmoved hregistered).unmoved (unmoved_start sid _ _)) fun x hversion haction hx hid => ?_
  have hget := @get?_registered env _ sid sess x hx
  have hxzero : x.userId = 0 := (congrArg Identity.userId hid).trans hzero
  obtain ⟨hworld, htokens, hmirrors, huuids, hothers⟩ := @checked_frame s sid sess
  refine wp_mono (fun _ t ht => ht.1) (fun _ t ht => ?_)
    (wp_and (processRequest_lobby hget (by rw [hxzero]; decide) (h.unmoved hregistered) fun d hd hmisleads => ?_)
      (processRequest_edits hget))
  · obtain ⟨-, rfl, -⟩ := ht
    exact ⟨⟨_, hget, hxzero⟩, hclosed hregistered⟩
  · have hident : Session.identity { x with token := env.uuid (s.checked sid sess).uuids } =
        { sess.identity with token := env.uuid s.uuids } := by
      rw [← hid, ← huuids]
      rfl
    have hsame : ((s.checked sid sess).registered env sid sess).tokens = s.tokens := by
      rw [registered, modifySession_tokens, if_neg (not_not.2 hzero), htokens]
    have hsameworld : ((s.checked sid sess).registered env sid sess).world = s.world := by
      rw [registered, modifySession_world, hworld]
    rw [hident, hsameworld, hsame] at hd
    refine hdeeds handshake hdata hno hversion haction d hd ?_
    rw [← isOpen_checked hs hx]
    refine hmisleads.of_same hsameworld ?_ (fun k => ?_) fun k hk => ?_
    · rw [registered, modifySession_mirrors, hmirrors]
    · rw [registered, isSome_modifySession]
      by_cases hk : k = sid
      · subst hk
        exact (congrArg Option.isSome hx).trans (congrArg Option.isSome hs).symm
      · exact congrArg Option.isSome (hothers k hk)
    · rw [registered, get?_modifySession_of_ne hk]
      exact hothers k hk

/-- **The handler of a pending operation.** -/
theorem complete_lobby {op : Op} {result : Completion} {isOpen : Bool} (hs : s.get? sid = some sess)
    (hint : Json.wrapInt sess.userId = sess.userId) (h : s.LobbyExact)
    (hfresh : op = .readHandshake → sess.userId = 0 ∧ isOpen = (sess.isOpen && decide (sess.remoteIp ∉ s.connectedIps)))
    (hlater : op = .readMessage → isOpen = sess.isOpen)
    (hdeeds : ∀ d ∈ s.completes env sess.identity op result, ¬ s.Misleads env sid isOpen d) :
    wp (complete env sid op result) (fun _ t => t.LobbyExact) (fun _ t => t.LobbyExact) s := by
  have hread : (start sid .readMessage s).LobbyExact := h.unmoved (unmoved_start sid _ s)
  cases result with
  | error =>
    have herror : wp (handleError env sid) (fun _ t => t.LobbyExact) (fun _ t => t.LobbyExact) s :=
      handleError_lobby hs hint h (by cases op <;> exact hdeeds)
    cases op <;> exact herror
  | ok data =>
    cases op with
    | readHandshake =>
      obtain ⟨hzero, rfl⟩ := hfresh rfl
      refine wp_mono (fun _ _ h => h) (fun _ _ h => h.elim)
        (readHandshake_lobby hs hzero h fun handshake hdata hno hversion haction => ?_)
      subst hdata
      rwa [completes, if_pos ⟨hno, hversion, haction⟩] at hdeeds
    | readMessage =>
      obtain rfl := hlater rfl
      exact readMessage_lobby hs hint h fun request hdata => by subst hdata; exact hdeeds
    | writeHandshake => exact hread
    | writeResponse => exact hread
    | writeMirror => exact hread
    | writeBroadcast => exact h

end Handshakes

end Session

/-! ### Runs -/

instance (op : Op) : Decidable (op = .readHandshake) :=
  match op with
  | .readHandshake => isTrue rfl
  | .readMessage | .writeHandshake _ | .writeResponse _ | .writeBroadcast _ | .writeMirror _ => isFalse nofun

instance (x : Session) : Decidable x.Greeted := inferInstanceAs (Decidable (∀ p ∈ x.pending, p.op ≠ .readHandshake))

namespace Server

/-- The socket of `sid` is open, and stays so when its address is checked. -/
def staysOpen (s : Server) (sid : ℕ) : Bool :=
  (s.get? sid).any fun x => x.isOpen && decide (x.Greeted ∨ x.remoteIp ∉ s.connectedIps)

/-- The event misleads no client. -/
def Candid (env : Env) (s : Server) (e : Event) : Prop :=
  ∀ x ∈ s.deeds env e, ¬ s.Misleads env x.1 (s.staysOpen x.1) x.2

instance (env : Env) (s : Server) (e : Event) : Decidable (s.Candid env e) :=
  inferInstanceAs (Decidable (∀ x ∈ s.deeds env e, ¬ s.Misleads env x.1 (s.staysOpen x.1) x.2))

/-- A client with a user has a token. -/
def Tokened (s : Server) : Prop :=
  ∀ sid i, s.who sid = some i → i.isMirror = false → 0 < i.userId → i.token ≠ ""

section Runs

variable {env : Env} {L : Licence} {s t : Server} {sid : ℕ}

theorem Init.tokened (h : Init s) : s.Tokened := by
  intro sid i hi
  rw [who_of_empty h.heap] at hi
  cases hi

theorem Tokened.update {x : Option Identity} (h : s.Tokened) (hwho : t.who = Function.update s.who sid x)
    (hx : ∀ i, x = some i → i.isMirror = false → 0 < i.userId → i.token ≠ "") : t.Tokened := by
  intro k i hi
  rw [hwho] at hi
  rcases update_eq_some hi with ⟨-, hxi⟩ | ⟨-, hold⟩
  · exact hx i hxi
  · exact h k i hold

/-- A number that is no mirror's comes with a token. -/
theorem Tokened.step (h : s.Tokened) (hchange : WhoChange L s t) : t.Tokened := by
  cases hchange with
  | same hwho | called _ _ _ hwho | answered _ hwho => exact fun sid i hi => h sid i (hwho ▸ hi)
  | turned hs hturn hwho =>
    refine h.update hwho fun k hk hmirror _ => ?_
    obtain rfl := Option.some.inj hk
    cases hturn with
    | mirror => cases hmirror
    | port hport => exact absurd hport (Bool.eq_false_iff.1 hmirror)
    | token _ htoken => exact htoken
  | halfLogin hs _ hwho =>
    refine h.update hwho fun k hk _ hpos => ?_
    obtain rfl := Option.some.inj hk
    have hneg : ¬ (0 : ℤ) < -1 := by decide
    exact absurd hpos hneg
  | login _ _ _ htoken _ _ _ hwho =>
    refine h.update hwho fun k hk _ _ => ?_
    obtain rfl := Option.some.inj hk
    exact htoken
  | accept _ _ hwho =>
    refine h.update hwho fun k hk _ hpos => ?_
    obtain rfl := Option.some.inj hk
    exact absurd hpos (lt_irrefl 0)
  | destroy _ hwho => exact h.update hwho fun k hk => nomatch hk
  | halt hwho =>
    intro sid i hi
    rw [hwho] at hi
    cases hi

/-- No client has the user of a session that is listed, but that session. -/
theorem Listed.alone (h : s.Listed) (hkeyed : s.Keyed) (htokened : s.Tokened) {token : String} {sess : Session}
    (hlisted : s.sessions.lookup token = some sid) (hget : s.who sid = some sess.identity) {k : ℕ}
    {y : Session} (hy : s.who k = some y.identity) (hu : y.userId = sess.userId) (hclient : y.Client) : k = sid := by
  obtain ⟨hne, x, hx, htoken⟩ := h token sid hlisted
  have hid : x.identity = sess.identity := Option.some.inj ((who_of_get? hx).symm.trans hget)
  have hsess : sess.identity.token ≠ "" := by
    rw [← hid]
    exact fun hempty => hne (htoken ▸ hempty)
  exact hkeyed.unique k sid _ _ hy hget hclient.2.2 hu (htokened k _ hy hclient.2.1 hclient.2.2) hsess

/-- The loop of `check_inactive_sessions` ends sessions that are listed. -/
theorem LobbyExact.sessionCheck (hs : s.Sane) (hkeyed : s.Keyed) (htokened : s.Tokened) (hlisted : s.Listed)
    (h : s.LobbyExact) : (step env s .sessionCheck).LobbyExact := by
  have hrun : wp (checkInactiveSessions env) (fun _ t => t.LobbyExact) (fun _ _ => False) s := by
    simp only [checkInactiveSessions, wp_bind, wp_get, wp_onlyIf]
    refine ⟨fun _ => ?_, fun _ => h⟩
    refine wp_mono (fun _ _ ht => ht.1) (fun _ _ h => h)
      (wp_removeInactive (I := fun t => t.LobbyExact ∧ Between env .free s t) _ s ⟨h, .refl⟩
        fun token _ t sid ht hsid => ?_)
    obtain ⟨ht, hbetween⟩ := ht
    have herase : LobbyExact { t with sessions := t.sessions.erase token } := ht.unmoved (unmoved_of_heap rfl rfl)
    refine ⟨⟨herase, hbetween.erase token⟩, fun sess hget => ⟨?_, (hbetween.erase token).ended hget fun d _ => ?_⟩⟩
    · refine herase.ended hget ((Moves.sane hbetween.moves hs).session sid sess hget).int fun _ hhas => ?_
      obtain ⟨k, y, hy, hu, hk, hclient⟩ := hhas
      have hwho : ∀ {k x}, t.get? k = some x → s.who k = some x.identity := fun hx => by
        rw [who, ← hbetween.who, hx, Option.map_some]
      exact absurd (hlisted.alone hkeyed htokened (hbetween.sessions token sid hsid) (hwho hget) (hwho hy) hu hclient) hk
    · exact Licence.allows_free s d.1 d.2
  exact run_of_wp hrun

theorem LobbyExact.reap (h : t.LobbyExact) (sid : ℕ) : (t.reap sid).LobbyExact :=
  h.unmoved ⟨by rw [reap_world], fun _ y hy hclient => ⟨y, get?_of_reap hy, hclient, rfl, rfl⟩⟩

/-- What a handler leaves; an exception that leaves it leaves no session. -/
theorem lobbyExact_run {c : ServerM Unit} (h : wp c (fun _ t => t.LobbyExact) (fun _ t => t.LobbyExact) s) :
    (run c s).LobbyExact := by
  unfold run
  cases hc : c s with
  | ok a t => exact wp_ok h hc
  | error e t => exact lobbyExact_of_heap rfl

/-- Whether the socket is open when the request of an operation is processed. -/
theorem staysOpen_of_pending (hs : s.Sane) {sess : Session} (hget : s.get? sid = some sess) {i : ℕ} {p : PendingOp}
    (hp : sess.pending[i]? = some p) :
    (p.op = .readHandshake → s.staysOpen sid = (sess.isOpen && decide (sess.remoteIp ∉ s.connectedIps))) ∧
      (p.op = .readMessage → s.staysOpen sid = sess.isOpen) := by
  have hmem : p ∈ sess.pending := List.mem_of_getElem? hp
  constructor
  · intro hop
    have hnot : ¬ sess.Greeted := fun hg => hg p hmem hop
    simp only [staysOpen, hget, Option.any_some, hnot, false_or]
  · intro hop
    have hgreeted : sess.Greeted := by
      by_contra hnot
      obtain ⟨q, hq, -⟩ := (hs.session sid sess hget).fresh hnot
      refine hnot fun r hr hfirst => ?_
      rw [hq, List.mem_singleton] at hr hmem
      rw [hr, ← hmem, hop] at hfirst
      cases hfirst
    simp only [staysOpen, hget, Option.any_some, hgreeted, true_or, decide_true, Bool.and_true]

theorem LobbyExact.complete (hs : s.Sane) (h : s.LobbyExact) {i : ℕ} {p : PendingOp} {result : Session.Completion}
    (hp : s.completed sid i = some p) (hcan : canComplete p result) (hcandid : s.Candid env (.complete sid i result)) :
    (step env s (.complete sid i result)).LobbyExact := by
  obtain ⟨sess, hget, hi⟩ := completed_eq_some.1 hp
  obtain ⟨hfirst, hlater⟩ := staysOpen_of_pending hs hget hi
  have htake : (s.take sid i).LobbyExact :=
    h.unmoved (unmoved_modifySession fun _ _ hclient => ⟨hclient, rfl, rfl⟩)
  have hips : (s.take sid i).connectedIps = s.connectedIps := modifySession_connectedIps ..
  have hzero : p.op = .readHandshake → sess.userId = 0 := hs.fresh hget hi
  have hrun : wp (Session.complete env sid p.op result) (fun _ t => t.LobbyExact) (fun _ t => t.LobbyExact)
      (s.take sid i) := by
    refine Session.complete_lobby (get?_take hget i) (hs.session sid sess hget).int htake
      (fun hop => ⟨hzero hop, ?_⟩) hlater fun d hd hmisleads => ?_
    · rw [hips]
      exact hfirst hop
    rw [completes_take] at hd
    refine hcandid (sid, d) ?_ (hmisleads.of_same (modifySession_world ..) (modifySession_mirrors ..)
      (fun k => isSome_modifySession) fun k hk => get?_modifySession_of_ne hk)
    simp only [deeds, hget, hp, hcan, if_true]
    exact List.mem_map_of_mem hd
  rw [step_completes hp hcan]
  exact (lobbyExact_run hrun).reap sid

/-- **An event that misleads no client keeps every status right.** -/
theorem Candid.step (hs : s.Sane) (hkeyed : s.Keyed) (htokened : s.Tokened) (hlisted : s.Listed) (h : s.LobbyExact)
    {e : Event} (hcandid : s.Candid env e) : (Server.step env s e).LobbyExact := by
  by_cases he : s.Happens e
  swap
  · rwa [step_of_not_happens he]
  cases e with
  | accept remoteIp mirrorPort =>
    cases remoteIp with
    | none =>
      have hrunning : s.running := he
      rw [Server.step, if_pos hrunning]
      exact lobbyExact_of_heap rfl
    | some remoteIp =>
      have hrunning : s.running := he
      rw [Server.step, if_pos hrunning]
      refine h.unmoved ⟨rfl, fun k y hy hclient => ?_⟩
      rw [get?_of_insert rfl] at hy
      split_ifs at hy
      · obtain rfl := Option.some.inj hy
        exact absurd hclient.2.2 (lt_irrefl 0)
      · exact ⟨y, hy, hclient, rfl, rfl⟩
  | complete sid i result =>
    obtain ⟨p, hp, hcan⟩ := he
    exact h.complete hs hp hcan hcandid
  | sessionCheck => exact h.sessionCheck hs hkeyed htokened hlisted
  | broadcast =>
    have hstarts : ∀ (sids : List ℕ) (op : Op) (t : Server), t.LobbyExact →
        (sids.foldl (fun t sid => start sid op t) t).LobbyExact := by
      intro sids op
      induction sids with
      | nil => exact fun t ht => ht
      | cons sid sids ih => exact fun t ht => ih _ (ht.unmoved (unmoved_start sid op t))
    have hrunning : s.running := he
    rw [Server.step, if_pos hrunning]
    exact hstarts _ _ s h
  | tick => exact h.unmoved (unmoved_of_heap rfl rfl)
  | signal =>
    rcases step_signal (@licensed_free env s .signal) with hsame | ⟨t, -, hhalt⟩
    · rwa [hsame]
    · rw [hhalt]
      exact lobbyExact_of_heap rfl

/-- **Where no event misleads a client, the clients with the status of the lobby
are those whose users are in no room, throughout.** -/
theorem lobbyExact_throughout (h : Init s) (es : List Event) (hes : Run.Along (step env) (Candid env) s es) :
    Run.Throughout (step env) LobbyExact s es := by
  have hinv := Run.throughout_of_along
    (I := fun t : Server => t.Sane ∧ t.Keyed ∧ t.Tokened ∧ t.Listed ∧ t.LobbyExact) (fun t e ht he => ?_)
    ⟨h.sane, h.keyed, h.tokened, h.listed, lobbyExact_of_heap h.heap⟩ hes
  · exact hinv.mono fun _ ht => ht.2.2.2.2
  · obtain ⟨hs, hkeyed, htokened, hlisted, hlobby⟩ := ht
    obtain ⟨hs', hkeyed', htokened'⟩ := step_inv (I := fun t => t.Keyed ∧ t.Tokened)
      (fun _ _ hsane ⟨hk, htok⟩ hchange => ⟨hk.step (hchange.whoChange hsane), htok.step (hchange.whoChange hsane)⟩)
      hs ⟨hkeyed, htokened⟩ (@licensed_free env t e)
    exact ⟨hs', hkeyed', htokened', (step_stepped hs e).listed hs hlisted, he.step hs hkeyed htokened hlisted hlobby⟩

end Runs

/-- A mirror serves a port, and a client logs in, opens a room there and leaves it. -/
def lodgerRun : List Event :=
  hostsAt 0 "192.0.2.2" 40000 ++ connects 1 "192.0.2.1" ++ sends 1 (credentials "login" "rnqhscjf3333" "admin") ++
    sends 1 roomRequest ++ sends 1 (.obj [("action", .str "exitRoom")])

theorem lobbyExact_lodgerRun : Run.Throughout (step .reliable) LobbyExact init lodgerRun :=
  lobbyExact_throughout init_init _ (by decide +kernel)

/-- With no mirror connected, the client that has opened a room keeps the status of
the lobby. -/
theorem not_lobbyExact_hostRun : ¬ Run.Throughout (step .reliable) LobbyExact init hostRun := by
  intro h
  have hlast : ∃ x, (hostRun.foldl (step .reliable) init).get? 0 = some x ∧ x.Client ∧ x.status = "대기중" ∧
      (hostRun.foldl (step .reliable) init).InRoom x.userId := by decide +kernel
  obtain ⟨x, hx, hclient, hstatus, hin⟩ := hlast
  exact (h.last 0 x hx hclient).1 hstatus hin

end Server

end Matching
end SocketCommunication
