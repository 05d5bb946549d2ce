/-
# `createRoom`, all or nothing

The repository commits the room before it converts the columns of the row, two of them
nullable, and the session looks for the mirror server of the room after that.  Whatever goes
wrong there is answered with an error, and the room stays open
(`allOrNothing_iff`).
-/

import SocketCommunication.Matching.Answers
import SocketCommunication.Matching.Handlers

namespace SocketCommunication
namespace Matching

open Effect RoomRepository

/-- `response["status"] == "error"`. -/
def Json.fails (response : Json) : Bool := (response.value "status").eqString "error"

namespace RoomService

/-- The request asks, in a form that the service accepts, for a room of `u`. -/
structure Asks (request : Json) (u : ℤ) (roomName : String) (maxPlayers : ℤ) : Prop where
  name : request.value "roomName" = .str roomName
  valid : isValidRoomName roomName
  range : ¬ ((request.value "maxPlayers").ltInt 2 ∨ (request.value "maxPlayers").gtInt 8)
  userId : (request.value "userId").getInt = .ok u
  maxPlayers : (request.value "maxPlayers").getInt = .ok maxPlayers

/-- The answer for the room that was created. -/
def created (roomId : ℤ) (roomName ipAddress : String) (port maxPlayers : ℤ) : Json :=
  .obj [("action", .str "createRoom"), ("status", .str "success"),
    ("message", .str "방이 성공적으로 생성되었습니다"), ("roomId", .int roomId), ("roomName", .str roomName),
    ("maxPlayers", .int maxPlayers), ("ipAddress", .str ipAddress), ("port", .int port)]

section Spec

variable {env : Env}

/-- `createRoom` takes the room `r`. -/
structure Grants (env : Env) (w : World) (request : Json) (r : RoomRow) : Prop where
  mem : r ∈ w.db.1.rooms
  opens : ∃ u roomName maxPlayers, Asks request u roomName maxPlayers ∧ Opens env w u roomName r.roomId

theorem Grants.unique {w : World} {request : Json} {r r' : RoomRow} (h : Grants env w request r)
    (h' : Grants env w request r') : r = r' := by
  obtain ⟨_, _, _, -, ho⟩ := h.opens
  obtain ⟨_, _, _, -, ho'⟩ := h'.opens
  exact Rows.eq_of_key_eq w.db.2.rooms_pkey h.mem h'.mem (Option.some.inj (ho.free.symm.trans ho'.free))

/-- The room that a request is granted is found from its members. -/
theorem exists_grants_iff {w : World} {request : Json} {P : RoomRow → Prop} :
    (∃ r, Grants env w request r ∧ P r) ↔
      ∃ roomName, request.value "roomName" = .str roomName ∧ isValidRoomName roomName = true ∧
        ¬ ((request.value "maxPlayers").ltInt 2 ∨ (request.value "maxPlayers").gtInt 8) ∧
        (∃ maxPlayers, (request.value "maxPlayers").getInt = .ok maxPlayers ∧ True) ∧
        ∃ u, (request.value "userId").getInt = .ok u ∧ ∃ r ∈ w.db.1.rooms, Opens env w u roomName r.roomId ∧ P r := by
  constructor
  · rintro ⟨r, ⟨hmem, u, roomName, maxPlayers, hasks, hopens⟩, hr⟩
    exact ⟨roomName, hasks.name, hasks.valid, hasks.range, ⟨maxPlayers, hasks.maxPlayers, trivial⟩, u, hasks.userId, r,
      hmem, hopens, hr⟩
  · rintro ⟨roomName, hname, hvalid, hrange, ⟨maxPlayers, hmax, -⟩, u, hu, r, hmem, hopens, hr⟩
    exact ⟨r, ⟨hmem, u, roomName, maxPlayers, ⟨hname, hvalid, hrange, hu, hmax⟩, hopens⟩, hr⟩

instance (w : World) (request : Json) (P : RoomRow → Prop) [DecidablePred P] :
    Decidable (∃ r, Grants env w request r ∧ P r) := decidable_of_iff _ exists_grants_iff.symm

instance (w : World) (request : Json) : Decidable (∃ r, Grants env w request r) :=
  decidable_of_iff (∃ r, Grants env w request r ∧ True) (by simp)

/-- The room `r` was opened. -/
def Opened (w : World) (r : RoomRow) (w' : World) : Prop :=
  ∃ u roomName maxPlayers now, Published w w' (openRoom w.db.1 r.roomId u roomName maxPlayers now)

theorem Opened.not_sameRooms {w w' : World} {r : RoomRow} (h : Opened w r w') : ¬ SameRooms w w' := by
  obtain ⟨u, roomName, maxPlayers, now, hp⟩ := h
  rintro ⟨-, hmembers⟩
  rw [hp.1] at hmembers
  have hlength := congrArg List.length hmembers
  simp [openRoom, Tables.insertRoomUser, Tables.reopenRoom] at hlength

/-- **What `createRoom` answers and publishes.** -/
theorem createRoom_spec (w : World) (request : Json) :
    wp (createRoom env request)
      (fun j w' =>
        (∃ r, Grants env w request r ∧ Opened w r w' ∧
          ((∃ roomName ip port maxPlayers, env.Answers w 12 ∧ r.ipAddress = some ip ∧ r.port = some port ∧
            r.roomId ≠ -1 ∧ j = created r.roomId roomName ip port maxPlayers) ∨
          ((¬ env.Answers w 12 ∨ r.ipAddress = none ∨ r.port = none ∨ r.roomId = -1) ∧
            ∃ message, j = errorResponse message))) ∨
        ((∀ r, ¬ Grants env w request r) ∧ Unpublished w w' ∧ ∃ message, j = errorResponse message))
      (fun _ _ => False) w := by
  have hrefuse : (∀ u n m, ¬ Asks request u n m) → ∀ message,
      (∀ r, ¬ Grants env w request r) ∧ Unpublished w w ∧ ∃ text, errorResponse message = errorResponse text :=
    fun h message => ⟨fun r ⟨_, u, n, m, ha, _⟩ => h u n m ha, ⟨rfl, rfl⟩, message, rfl⟩
  simp only [createRoom, wp_tryCatch, wp_ite, wp_pure, wp_bind, wp_orThrow]
  refine ⟨fun hmiss => .inr (hrefuse (fun u n m ha => hmiss ⟨Json.contains_of_value ha.name,
      Json.contains_of_getInt ha.userId, Json.contains_of_getInt ha.maxPlayers⟩) _), fun _ =>
    ⟨fun roomName hname => ⟨fun hinvalid => .inr (hrefuse (fun u n m ha => hinvalid ?_) _), fun hvalid =>
      ⟨fun hrange => .inr (hrefuse (fun u n m ha => ha.range hrange) _), fun hrange =>
        ⟨fun u hu => ⟨fun maxPlayers hm => ?_, fun e he => .inr (hrefuse (fun u' n m ha => ?_) _)⟩,
          fun e he => .inr (hrefuse (fun u' n m ha => ?_) _)⟩⟩⟩,
      fun e he => .inr (hrefuse (fun u' n m ha => ?_) _)⟩⟩
  · obtain rfl := Json.str.inj ((Json.getString_ok hname).symm.trans ha.name)
    exact ha.valid
  · have hasks : Asks request u roomName maxPlayers :=
      ⟨Json.getString_ok hname, not_not.1 hvalid, hrange, hu, hm⟩
    have hnone : (∀ k, ¬ Opens env w u roomName k) → ∀ r, ¬ Grants env w request r := by
      rintro hn r ⟨-, u', n, m, ha, ho⟩
      obtain rfl := Except.ok.inj (hu.symm.trans ha.userId)
      obtain rfl := Json.str.inj ((Json.getString_ok hname).symm.trans ha.name)
      exact hn r.roomId ho
    refine wp_mono (fun result w' h => ?_) (fun e w' h => ?_) (createRoomWithHost_spec w u roomName maxPlayers)
    · rcases h with ⟨r, hr, hopens, hp, hans, ip, port, hip, hport, rfl⟩ | ⟨hn, hun, rfl⟩
      · have hgrants : Grants env w request r := ⟨hr, u, roomName, maxPlayers, hasks, hopens⟩
        have hopened : Opened w r w' := ⟨u, roomName, maxPlayers, _, hp⟩
        refine ⟨fun hid => .inl ⟨r, hgrants, hopened, .inr ⟨.inr (.inr (.inr ?_)), _, rfl⟩⟩, fun hid => .inl
          ⟨r, hgrants, hopened, .inl ⟨_, ip, port, maxPlayers, hans, hip, hport, fun he => hid ?_, rfl⟩⟩⟩
        · simpa [roomResult, Json.value, Json.get?, Json.find, Json.eqInt] using hid
        · simp [roomResult, Json.value, Json.get?, Json.find, Json.eqInt, he]
      · refine ⟨fun _ => .inr ⟨hnone hn, hun, _, rfl⟩, fun hid => absurd ?_ hid⟩
        decide
    · rcases h with ⟨r, hr, hopens, hp, hthrows⟩ | ⟨hn, hun⟩
      · refine .inl ⟨r, ⟨hr, u, roomName, maxPlayers, hasks, hopens⟩, ⟨u, roomName, maxPlayers, _, hp⟩, .inr ⟨?_, _, rfl⟩⟩
        rcases hthrows with hip | hport | hans
        · exact .inr (.inl hip)
        · exact .inr (.inr (.inl hport))
        · exact .inl hans
      · exact .inr ⟨hnone hn, hun, _, rfl⟩
  · rw [ha.maxPlayers] at he
    cases he
  · rw [ha.userId] at he
    cases he
  · rw [ha.name] at he
    cases he

end Spec

end RoomService

namespace Server

/-- The mirror server on a port, if it is connected. -/
def mirrorOf (s : Server) (port : ℤ) : Option ℕ :=
  (s.mirrors.lookup port).filter fun sid => (s.get? sid).isSome

theorem getMirrorSession_spec (port : ℤ) (s : Server) :
    wp (getMirrorSession port) (fun r t => r = s.mirrorOf port ∧ t.world = s.world ∧ t.heap = s.heap)
      (fun _ _ => False) s := by
  simp only [getMirrorSession, wp_bind, wp_get, mirrorOf]
  cases s.mirrors.lookup port with
  | none => exact ⟨rfl, rfl, rfl⟩
  | some mirror =>
    refine (wp_ite _ _ _).2 ⟨fun h => ⟨?_, rfl, rfl⟩, fun h => ⟨?_, rfl, rfl⟩⟩
    · rw [Option.filter_some, if_pos h]
    · rw [Option.filter_some, if_neg h]

/-- The last operation on the socket of `sid` writes the response. -/
def Writes (s : Server) (sid : ℕ) (response : Json) : Prop :=
  ∃ sess live, s.get? sid = some sess ∧ sess.pending.getLast? = some ⟨.writeResponse response, live⟩

theorem writes_start {s : Server} {sid : ℕ} {sess : Session} (hs : s.get? sid = some sess) (response : Json) :
    (start sid (.writeResponse response) s).Writes sid response :=
  ⟨_, sess.isOpen, get?_modifySession_self hs, List.getLast?_concat⟩

theorem Writes.unique {s : Server} {sid : ℕ} {a b : Json} (ha : s.Writes sid a) (hb : s.Writes sid b) : a = b := by
  obtain ⟨x, l, hx, hlast⟩ := ha
  obtain ⟨y, m, hy, hlast'⟩ := hb
  obtain rfl := Option.some.inj (hx.symm.trans hy)
  exact Op.writeResponse.inj (congrArg PendingOp.op (Option.some.inj (hlast.symm.trans hlast')))

end Server

section Answers

variable {env : Env} {sid : ℕ} {s : Server} {sess : Session}

/-- A response is written to a session that is there. -/
theorem answer_writes (hs : (s.get? sid).isSome) (action : String) (response : Json) :
    wp (Session.answer sid action response) (fun _ t => t.Writes sid response) (fun _ _ => False) s := by
  obtain ⟨sess, hs⟩ := Option.isSome_iff_exists.1 hs
  exact Server.writes_start (s := { s with trace := .answered sid action response :: s.trace }) hs response

/-- A request that is refused is answered so. -/
theorem respond_refused (hs : s.get? sid = some sess) (message : String) :
    wp (Session.respond env sid "createRoom" (errorResponse message))
      (fun _ t => t.Writes sid (errorResponse message)) (fun _ _ => False) s := by
  rw [Session.respond_eq_answer sid (succeeds_errorResponse message)]
  exact answer_writes (Option.isSome_of_mem hs) _ _

/-- How a created room is told: the caller hears that no mirror server is connected for its
port, or is in the room from now on, and the mirror server hears of it first. -/
theorem wp_respond_created {roomId port maxPlayers : ℤ} {roomName ip : String} {Q : Unit → Server → Prop}
    {E : Exn → Server → Prop}
    (hnone : ∀ t, t.world = s.world → t.heap = s.heap → s.mirrorOf (Json.wrapInt port) = none →
      Q () (Server.start sid (.writeResponse (errorResponse "미러 서버가 없습니다")) t))
    (hsome : ∀ mirror t told, t.world = s.world → t.heap = s.heap → s.mirrorOf (Json.wrapInt port) = some mirror →
      wp (Session.answer sid "createRoom" (RoomService.created roomId roomName ip port maxPlayers)) Q E
        (Server.start mirror (.writeMirror told) (Server.modifySession sid
          (fun sess => { sess with status := toString (Json.wrapInt roomId) ++ "번 방" }) t))) :
    wp (Session.respond env sid "createRoom" (RoomService.created roomId roomName ip port maxPlayers)) Q E s := by
  have hport : ((RoomService.created roomId roomName ip port maxPlayers).value "port").getInt =
      .ok (Json.wrapInt port) := rfl
  have hroom : ((RoomService.created roomId roomName ip port maxPlayers).value "roomId").getInt =
      .ok (Json.wrapInt roomId) := rfl
  have hsuccess : (RoomService.created roomId roomName ip port maxPlayers).succeeds := rfl
  simp only [Session.respond, hsuccess, String.reduceEq, or_self, false_and, if_false, and_self, if_true,
    Session.notifyMirror, wp_bind, wp_tryCatch, hport, hroom, orThrow_ok, wp_pure]
  refine wp_mono (fun mirror t ht => ?_) (fun _ _ h => h.elim) (Server.getMirrorSession_spec _ s)
  obtain ⟨rfl, hworld, hheap⟩ := ht
  cases hmirror : s.mirrorOf (Json.wrapInt port) with
  | none =>
    simp only [wp_bind, wp_pure, wp_onlyIf, Bool.false_eq_true, false_implies, not_false_eq_true, true_implies,
      true_and]
    exact hnone t hworld hheap hmirror
  | some mirror =>
    simp only [wp_bind, wp_pure, wp_modify, wp_onlyIf, true_implies, not_true_eq_false, false_implies, and_true]
    exact hsome mirror t _ hworld hheap hmirror

/-- A room that is created is answered with an error when its mirror server is not
connected. -/
theorem respond_created (hs : s.get? sid = some sess) (roomId : ℤ) (roomName ip : String) (port maxPlayers : ℤ) :
    wp (Session.respond env sid "createRoom" (RoomService.created roomId roomName ip port maxPlayers))
      (fun _ t => ∃ response, t.Writes sid response ∧
        (response.fails ↔ s.mirrorOf (Json.wrapInt port) = none))
      (fun _ _ => False) s := by
  have hthere : ∀ {t : Server}, t.heap = s.heap → t.get? sid = some sess := fun hheap => by
    rwa [Server.get?, hheap]
  have hfails : (RoomService.created roomId roomName ip port maxPlayers).fails = false := rfl
  refine wp_respond_created (fun t _ hheap hmirror => ?_) fun mirror t told _ hheap hmirror => ?_
  · exact ⟨_, Server.writes_start (hthere hheap) _, iff_of_true rfl hmirror⟩
  · refine wp_mono (fun _ q hq => ⟨_, hq, ?_⟩) (fun _ _ h => h) (answer_writes ?_ "createRoom" _)
    · rw [hfails, hmirror]
      exact iff_of_false Bool.false_ne_true (Option.some_ne_none _)
    · rw [Server.start, Server.isSome_modifySession, Server.isSome_modifySession]
      exact Option.isSome_of_mem (hthere hheap)

/-- The room `r` cannot be announced to the client: a conversion throws or a column that
it is told is missing, or the mirror server of the room is not connected. -/
def Server.Stranded (env : Env) (s : Server) (r : RoomRow) : Prop :=
  ¬ env.Answers s.world 12 ∨ r.ipAddress = none ∨ r.port = none ∨ r.roomId = -1 ∨
    ∀ port, r.port = some port → s.mirrorOf (Json.wrapInt port) = none

instance (env : Env) (s : Server) (r : RoomRow) : Decidable (s.Stranded env r) :=
  inferInstanceAs (Decidable (_ ∨ _ ∨ _ ∨ _ ∨ ∀ port ∈ r.port, s.mirrorOf (Json.wrapInt port) = none))

/-- **What a `createRoom` request of a session with a user does and is answered.** -/
theorem processRequest_createRoom (hs : s.get? sid = some sess) (huser : sess.userId ≠ 0) {request : Json}
    (haction : request.value "action" = .str "createRoom") :
    wp (Session.processRequest env sid request)
      (fun _ t => ∃ response, t.Writes sid response ∧
        ((∃ r, RoomService.Grants env s.world (sess.withUser request) r ∧ RoomService.Opened s.world r t.world ∧
          (response.fails ↔ s.Stranded env r)) ∨
        ((∀ r, ¬ RoomService.Grants env s.world (sess.withUser request) r) ∧ SameRooms s.world t.world)))
      (fun _ _ => False) s := by
  have haction' : (sess.withUser request).value "action" = .str "createRoom" :=
    (Json.value_set_ne (by decide)).trans haction
  have hroom : Controller.handleRequest env .room (sess.withUser request) =
      RoomService.createRoom env (sess.withUser request) := Controller.room_createRoom haction'
  have hauth : ¬ ("createRoom" = "register" ∨ "createRoom" = "login" ∨ "createRoom" = "SSAFYlogin" ∨
      "createRoom" = "updateNickName") := by decide
  simp only [Session.processRequest, wp_tryCatch, wp_bind, Json.index_of_value haction, orThrow_ok, wp_pure,
    Json.getString, Session.dispatch, wp_this hs, if_neg hauth, true_or, if_true, if_neg huser]
  simp only [Server.call, wp_bind, wp_modify, wp_focus, hroom]
  refine wp_mono (fun response w h => ?_) (fun _ _ h => h.elim)
    (RoomService.createRoom_spec s.world (sess.withUser request))
  -- the answer leaves the database as the controller left it
  have hsame := @Session.respond_keeps env sid "createRoom" response
    { s with trace := .handled sid .room (sess.withUser request) :: s.trace, world := w }
  have hget : Server.get? { s with trace := .handled sid .room (sess.withUser request) :: s.trace, world := w } sid =
    some sess := hs
  rcases h with ⟨r, hgrants, hopened, ⟨roomName, ip, port, maxPlayers, hans, hip, hport, hid, rfl⟩ | ⟨hfails, message, rfl⟩⟩ |
    ⟨hnone, hun, message, rfl⟩
  · refine wp_mono (fun _ q hq => ?_) (fun _ _ h => h.1.elim) (wp_and (respond_created hget ..) hsame)
    obtain ⟨⟨response, hwrites, hfails⟩, hworld⟩ := hq
    refine ⟨response, hwrites, .inl ⟨r, hgrants, ?_, hfails.trans ?_⟩⟩
    · rw [show q.world = w from hworld]
      exact hopened
    · rw [Server.Stranded, hip, hport]
      simp [hid, hans]
      rfl
  · refine wp_mono (fun _ q hq => ?_) (fun _ _ h => h.1.elim) (wp_and (respond_refused hget message) hsame)
    refine ⟨_, hq.1, .inl ⟨r, hgrants, ?_, iff_of_true rfl ?_⟩⟩
    · rw [show q.world = w from hq.2]
      exact hopened
    · exact hfails.imp_right (Or.imp_right (Or.imp_right .inl))
  · refine wp_mono (fun _ q hq => ?_) (fun _ _ h => h.1.elim) (wp_and (respond_refused hget message) hsame)
    refine ⟨_, hq.1, .inr ⟨hnone, ?_⟩⟩
    rw [show q.world = w from hq.2]
    exact hun.sameRooms

/-- A request that is answered with an error has changed no room and no member. -/
def AllOrNothing (env : Env) (s : Server) (sid : ℕ) (request : Json) : Prop :=
  wp (Session.processRequest env sid request)
    (fun _ t => ∃ response, t.Writes sid response ∧ (response.fails → SameRooms s.world t.world))
    (fun _ _ => False) s

/-- **`createRoom` is all or nothing just when the room that it takes, if any, can
be announced.** -/
theorem allOrNothing_iff (hs : s.get? sid = some sess) (huser : sess.userId ≠ 0) (request : Json)
    (haction : request.value "action" = .str "createRoom") :
    AllOrNothing env s sid request ↔
      ∀ r, RoomService.Grants env s.world (sess.withUser request) r → ¬ s.Stranded env r := by
  have hspec := @processRequest_createRoom env sid s sess hs huser request haction
  constructor
  · intro h r hgrants hstranded
    obtain ⟨_, t, -, ⟨response, hwrites, hsame⟩, response', hwrites', hout⟩ := wp_returns (wp_mono (fun _ _ h => h)
      (fun _ _ h => h.1) (wp_and h hspec))
    obtain rfl := hwrites.unique hwrites'
    rcases hout with ⟨r', hgrants', hopened, hfails⟩ | ⟨hnone, -⟩
    · obtain rfl := hgrants.unique hgrants'
      exact hopened.not_sameRooms (hsame (hfails.2 hstranded))
    · exact hnone r hgrants
  · intro h
    refine wp_mono (fun _ t ⟨response, hwrites, hout⟩ => ⟨response, hwrites, fun hfails => ?_⟩) (fun _ _ h => h) hspec
    rcases hout with ⟨r, hgrants, -, hiff⟩ | ⟨-, hsame⟩
    · exact absurd (hiff.1 hfails) (h r hgrants)
    · exact hsame

/-- A session of the first account of `db-init.sql`. -/
def hostSession : Session := { Session.make "192.0.2.1" 0 0 with userId := 1, token := "uuid0", pending := [] }

/-- The server with that session alone: no mirror server is connected. -/
def hostServer : Server := { Server.init with heap := AList.singleton 0 hostSession }

theorem get?_hostServer : hostServer.get? 0 = some hostSession := rfl

/-- A request for a room. -/
def hostRequest : Json := .obj [("action", .str "createRoom"), ("roomName", .str "room"), ("maxPlayers", .int 4)]

/-- The same server with the mirror server of the first room. -/
def mirroredServer : Server :=
  { hostServer with
    heap := hostServer.heap.insert 1 { Session.make "192.0.2.1" 40000 0 with isMirror := true }
    mirrors := AList.singleton 40000 1 }

theorem granted_mirroredServer {request : Json} {r : RoomRow}
    (h : RoomService.Grants .reliable mirroredServer.world request r) : r = Tables.initRoom 0 := by
  obtain ⟨_, _, _, -, hopens⟩ := h.opens
  have hfirst : freeRoom mirroredServer.world.db.1 = some (Tables.initRoom 0).roomId := by decide +kernel
  have hid : r.roomId = (Tables.initRoom 0).roomId := Option.some.inj (hopens.free.symm.trans hfirst)
  exact Rows.eq_of_key_eq mirroredServer.world.db.2.rooms_pkey h.mem (by decide +kernel) hid

/-- With the mirror server connected the room is announced. -/
theorem allOrNothing_mirroredServer : AllOrNothing .reliable mirroredServer 0 hostRequest := by
  refine (@allOrNothing_iff .reliable 0 mirroredServer hostSession rfl (by decide) hostRequest rfl).2 fun r h => ?_
  rw [granted_mirroredServer h]
  decide +kernel

/-- The room is taken out of the pool, and the client is told of an error. -/
theorem not_allOrNothing_hostServer : ¬ AllOrNothing .reliable hostServer 0 hostRequest := by
  intro h
  have hspec := @processRequest_createRoom .reliable 0 hostServer hostSession get?_hostServer (by decide) hostRequest rfl
  obtain ⟨_, t, -, ⟨response, hwrites, hsame⟩, response', hwrites', hout⟩ := wp_returns (wp_mono (fun _ _ h => h)
    (fun _ _ h => h.1) (wp_and h hspec))
  obtain rfl := hwrites.unique hwrites'
  rcases hout with ⟨r, -, hopened, hfails⟩ | ⟨hnone, -⟩
  · exact hopened.not_sameRooms (hsame (hfails.2 (.inr (.inr (.inr (.inr fun _ _ => rfl))))))
  · refine hnone (Tables.initRoom 0) ⟨by decide +kernel, 1, "room", 4, ⟨rfl, by decide +kernel, by decide, rfl, rfl⟩, ?_⟩
    exact ⟨by decide +kernel, by decide +kernel, by decide +kernel, by decide +kernel, by decide +kernel⟩

end Answers

end Matching
end SocketCommunication
