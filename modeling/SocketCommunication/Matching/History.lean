/-
# The history of the database

The server touches its database only through `handleRequest`, and one handler runs at
a time: `requests` are the requests handed to the controllers so far, `serve` is one of
them on the database alone.  The database of a run is what its requests make of the
first one, served one after the other (`world_eq_serve`).  What every request keeps is
so kept by every run of the server.

* `safeRooms_run`: the rooms of the whole server are safe.
* `evolves_run`: accounts, places of rooms and games are never lost or rewritten.
* `playsOn_run`: nobody enters a room whose game has begun, until it is given up.
-/

import SocketCommunication.Matching.Accounts
import SocketCommunication.Matching.Events
import SocketCommunication.Matching.Footprint
import SocketCommunication.Matching.RoomCallers
import SocketCommunication.Matching.RoomSafety

namespace SocketCommunication
namespace Matching

open Effect RoomRepository GameRepository

/-- The request of an entry of the history. -/
def Act.request : Act → Option (ControllerType × Json)
  | handled _ type request => some (type, request)
  | answered _ _ _ => none

/-- The requests handed to the controllers so far, the first one first. -/
def Server.requests (s : Server) : List (ControllerType × Json) := s.trace.reverse.filterMap Act.request

/-- A request on the database alone. -/
def serve (env : Env) (w : World) (r : ControllerType × Json) : World :=
  after (Controller.handleRequest env r.1 r.2) w

section Serial

variable {env : Env} {L : Licence} {s t : Server}

/-- `t` comes from `s` by serving some requests. -/
def Serves (env : Env) (s t : Server) : Prop :=
  ∃ rs, t.requests = s.requests ++ rs ∧ t.world = rs.foldl (serve env) s.world

theorem Serves.refl (s : Server) : Serves env s s := ⟨[], (List.append_nil _).symm, rfl⟩

theorem Serves.trans {r : Server} (h : Serves env s t) (h' : Serves env t r) : Serves env s r := by
  obtain ⟨rs, hrs, hw⟩ := h
  obtain ⟨rs', hrs', hw'⟩ := h'
  refine ⟨rs ++ rs', ?_, ?_⟩
  · rw [hrs', hrs, List.append_assoc]
  · rw [hw', hw, List.foldl_append]

/-- A change of neither the database nor the history. -/
theorem Serves.of_eq (hworld : t.world = s.world) (htrace : t.trace = s.trace) : Serves env s t := by
  refine ⟨[], ?_, hworld⟩
  rw [Server.requests, htrace, List.append_nil]
  rfl

theorem Serves.called (sid : ℕ) (type : ControllerType) (request : Json) :
    Serves env s (s.called env sid type request) := by
  refine ⟨[(type, request)], ?_, rfl⟩
  show (List.reverse (.handled sid type request :: s.trace)).filterMap Act.request = _
  rw [List.reverse_cons, List.filterMap_append]
  rfl

/-- An answer is no request. -/
theorem Serves.answered {sid : ℕ} {action : String} {response : Json} (hworld : t.world = s.world)
    (htrace : t.trace = .answered sid action response :: s.trace) : Serves env s t := by
  refine ⟨[], ?_, hworld⟩
  rw [Server.requests, htrace, List.reverse_cons, List.filterMap_append, List.append_nil]
  exact List.append_nil _

theorem Move.serves (h : Move env L s t) : Serves env s t := by
  cases h with
  | call => exact .called ..
  | registry => exact .of_eq rfl rfl
  | answered | login => exact .answered rfl rfl
  | start | revise | mirror | port | token | halfLogin =>
    exact .of_eq (Server.modifySession_world ..) (Server.modifySession_trace ..)

theorem Change.serves (h : Change env L s t) : Serves env s t := by
  cases h with
  | move h => exact h.serves
  | take => exact .of_eq (Server.modifySession_world ..) (Server.modifySession_trace ..)
  | @destroy sid sess =>
    obtain ⟨mirrors, sessions, connectedIps, heq, -, -⟩ := Server.destroy_eq sid sess s
    rw [heq]
    exact .of_eq rfl rfl
  | accept | tick | halt => exact .of_eq rfl rfl

/-- **An event serves some requests.** -/
theorem step_serves (hs : s.Sane) (e : Event) : Serves env s (Server.step env s e) :=
  (step_inv (L := .free) (I := Serves env s) (fun _ _ _ h hchange => h.trans hchange.serves) hs (.refl s)
    (licensed_free e)).2

theorem run_serves (env : Env) (hs : s.Sane) (es : List Event) : Serves env s (es.foldl (Server.step env) s) := by
  induction es generalizing s with
  | nil => exact .refl s
  | cons e es ih => exact (step_serves hs e).trans (ih (step_sane hs e))

/-- **The database of a run is what its requests make of the first one, one after the
other.** -/
theorem Server.world_eq_serve (env : Env) {s : Server} (hs : s.Init) (es : List Event) :
    (es.foldl (Server.step env) s).world = (es.foldl (Server.step env) s).requests.foldl (serve env) s.world := by
  obtain ⟨rs, hrs, hw⟩ := run_serves env hs.sane es
  have hnone : s.requests = [] := by
    rw [Server.requests, hs.trace]
    rfl
  rw [hw, hrs, hnone, List.nil_append]

/-- A client logs in and opens a room: two requests. -/
theorem Server.world_eq_serve_hostRun :
    (hostRun.foldl (Server.step .reliable) init).requests.map Prod.fst = [.auth, .room] ∧
      (hostRun.foldl (Server.step .reliable) init).world =
        (hostRun.foldl (Server.step .reliable) init).requests.foldl (serve .reliable) init.world :=
  ⟨by decide +kernel, world_eq_serve .reliable init_init hostRun⟩

end Serial

/-! ### The tables after a request -/

section Serve

variable {env : Env} {w : World} {P : Tables → Prop}

/-- A request to the rooms makes one call, or none. -/
theorem RoomRequest.step_of_calls (h₀ : P w.db.1) (h : ∀ c : RoomCall, P (RoomCall.step env w c).db.1)
    (q : RoomRequest) : P (RoomRequest.step env w q).db.1 := by
  -- what the service does with an answer leaves the tables
  have hcall : ∀ {β : Type} {c : RoomCall} {m : DbM β} {f : β → DbM Json}, c.run env = (fun _ => ()) <$> m →
      (∀ a, Keeps (fun w w' : World => w'.db = w.db) (f a)) →
      wp (m >>= f) (fun _ w' => P w'.db.1) (fun _ w' => P w'.db.1) w := by
    intro β c m f hc hf
    have hm : wp (c.run env) (fun _ w' => P w'.db.1) (fun _ w' => P w'.db.1) w := wp_iff_after.2 (h c)
    rw [hc, wp_map] at hm
    refine (wp_bind _ _).2 (wp_mono (fun a w₁ h₁ => ?_) (fun _ _ h₁ => h₁) hm)
    exact wp_mono (fun _ w' h' => by rw [h']; exact h₁) (fun _ w' h' => by rw [h']; exact h₁) (hf a w₁)
  refine wp_iff_after (P := fun w' : World => P w'.db.1).1 ?_
  cases q with
  | createRoom request =>
    simp only [RoomRequest.run, RoomService.createRoom, wp_tryCatch, wp_ite, wp_pure]
    refine ⟨fun _ => h₀, fun _ => ?_⟩
    rw [wp_bind, wp_orThrow]
    refine ⟨fun roomName _ => ?_, fun _ _ => h₀⟩
    simp only [wp_ite, wp_pure]
    refine ⟨fun _ => h₀, fun _ => ⟨fun _ => h₀, fun _ => ?_⟩⟩
    rw [wp_bind, wp_orThrow]
    refine ⟨fun userId _ => ?_, fun _ _ => h₀⟩
    rw [wp_bind, wp_orThrow]
    refine ⟨fun maxPlayers _ => ?_, fun _ _ => h₀⟩
    exact hcall (c := .createRoomWithHost userId roomName maxPlayers) rfl fun _ w₁ =>
      (wp_ite _ _ _).2 ⟨fun _ => rfl, fun _ => rfl⟩
  | joinRoom request =>
    simp only [RoomRequest.run, RoomService.joinRoom, wp_tryCatch, wp_ite, wp_pure]
    refine ⟨fun _ => h₀, fun _ => ?_⟩
    rw [wp_bind, wp_orThrow]
    refine ⟨fun roomId _ => ?_, fun _ _ => h₀⟩
    rw [wp_bind, wp_orThrow]
    refine ⟨fun userId _ => ?_, fun _ _ => h₀⟩
    exact hcall (c := .addPlayer roomId userId) rfl fun _ w₁ => (wp_ite _ _ _).2 ⟨fun _ => rfl, fun _ => rfl⟩
  | exitRoom request =>
    simp only [RoomRequest.run, RoomService.exitRoom, wp_tryCatch, wp_ite, wp_pure]
    refine ⟨fun _ => h₀, fun _ => ?_⟩
    rw [wp_bind, wp_orThrow]
    refine ⟨fun userId _ => ?_, fun _ _ => h₀⟩
    exact hcall (c := .removePlayer userId) rfl fun _ w₁ => (wp_ite _ _ _).2 ⟨fun _ => rfl, fun _ => rfl⟩
  | startGame request =>
    simp only [RoomRequest.run, GameService.startGame, wp_tryCatch, wp_ite, wp_pure]
    refine ⟨fun _ => h₀, fun _ => ?_⟩
    exact hcall (c := .createGame request) rfl fun _ w₁ => (wp_ite _ _ _).2 ⟨fun _ => rfl, fun _ => rfl⟩
  | endGame request =>
    simp only [RoomRequest.run, GameService.endGame, wp_tryCatch, wp_ite, wp_pure]
    refine ⟨fun _ => h₀, fun _ => ?_⟩
    rw [wp_bind, wp_orThrow]
    refine ⟨fun gameId _ => ?_, fun _ _ => h₀⟩
    exact hcall (c := .endGame gameId) rfl fun _ w₁ => (wp_ite _ _ _).2 ⟨fun _ => rfl, fun _ => rfl⟩

/-- **What a request to a controller makes of the tables** is what one of the services
makes of them, if anything. -/
theorem serve_of_steps (h₀ : P w.db.1) (hroom : ∀ q : RoomRequest, P (RoomRequest.step env w q).db.1)
    (haccount : ∀ r : AccountRequest, P (AccountRequest.step env w r).db.1) (r : ControllerType × Json) :
    P (serve env w r).db.1 := by
  obtain ⟨type, request⟩ := r
  refine wp_iff_after (P := fun w' : World => P w'.db.1).1 ?_
  have hq (q : RoomRequest) : wp (q.run env) (fun _ w' => P w'.db.1) (fun _ w' => P w'.db.1) w :=
    wp_iff_after.2 (hroom q)
  have hr (r : AccountRequest) : wp (r.run env) (fun _ w' => P w'.db.1) (fun _ w' => P w'.db.1) w :=
    wp_iff_after.2 (haccount r)
  have hlist : wp (RoomService.listRooms env) (fun _ w' => P w'.db.1) (fun _ w' => P w'.db.1) w :=
    wp_mono (fun _ w' h' => by rw [h']; exact h₀) (fun _ w' h' => by rw [h']; exact h₀)
      (RoomService.listRooms_keeps (R := fun w w' : World => w'.db = w.db) id w)
  cases type with
  | auth =>
    simp only [Controller.handleRequest, Controller.auth]
    rw [wp_bind, wp_orThrow]
    refine ⟨fun member _ => ?_, fun _ _ => h₀⟩
    rw [wp_bind, wp_orThrow]
    refine ⟨fun action _ => ?_, fun _ _ => h₀⟩
    simp only [wp_ite, wp_pure]
    exact ⟨fun _ => hr (.register request), fun _ => ⟨fun _ => hr (.login request), fun _ =>
      ⟨fun _ => hr (.SSAFYlogin request), fun _ => ⟨fun _ => hr (.updateNickName request), fun _ => h₀⟩⟩⟩⟩
  | room =>
    simp only [Controller.handleRequest, Controller.room]
    rw [wp_bind, wp_orThrow]
    refine ⟨fun member _ => ?_, fun _ _ => h₀⟩
    rw [wp_bind, wp_orThrow]
    refine ⟨fun action _ => ?_, fun _ _ => h₀⟩
    simp only [wp_ite, wp_pure]
    exact ⟨fun _ => hq (.createRoom request), fun _ => ⟨fun _ => hq (.joinRoom request), fun _ =>
      ⟨fun _ => hq (.exitRoom request), fun _ => ⟨fun _ => hlist, fun _ => h₀⟩⟩⟩⟩
  | game =>
    simp only [Controller.handleRequest, Controller.game]
    rw [wp_bind, wp_orThrow]
    refine ⟨fun member _ => ?_, fun _ _ => h₀⟩
    rw [wp_bind, wp_orThrow]
    refine ⟨fun action _ => ?_, fun _ _ => h₀⟩
    simp only [wp_ite, wp_pure]
    exact ⟨fun _ => hq (.startGame request), fun _ => ⟨fun _ => hq (.endGame request), fun _ => h₀⟩⟩

/-- What one request makes of the tables, a run makes of them. -/
theorem serve_run {R : Tables → Tables → Prop} (hrefl : ∀ t, R t t) (htrans : ∀ t₁ t₂ t₃, R t₁ t₂ → R t₂ t₃ → R t₁ t₃)
    (h : ∀ w r, R w.db.1 (serve env w r).db.1) (w : World) (rs : List (ControllerType × Json)) :
    R w.db.1 (rs.foldl (serve env) w).db.1 :=
  Run.foldl_inv (I := fun w' : World => R w.db.1 w'.db.1) (fun w' r hw' => htrans _ _ _ hw' (h w' r)) rs (hrefl _)

end Serve

/-! ### The rooms of the whole server -/

/-- What a request to `auth` leaves of the other tables. -/
theorem AccountRequest.Outcome.tables {env : Env} {w : World} {r : AccountRequest} {t : Tables}
    (h : AccountRequest.Outcome env w r t) : t = { w.db.1 with users := t.users } := by
  have henrol : ∀ {t}, AccountRequest.Enrolment env w r t → t = { w.db.1 with users := t.users } := by
    intro t ht
    cases ht with
    | created => rfl
    | same => rfl
  cases h with
  | enrols h => exact henrol h
  | logs h userId now =>
    rw [henrol h]
    rfl
  | renames => rfl

theorem accountRequest_outcome (env : Env) (w : World) (r : AccountRequest) :
    AccountRequest.Outcome env w r (AccountRequest.step env w r).db.1 :=
  wp_iff_after (P := fun w' : World => AccountRequest.Outcome env w r w'.db.1).1 (AccountRequest.outcome_of_run env w r)

theorem SafeRooms.of_users {t : Tables} (h : SafeRooms t) (users : List UserRow) : SafeRooms { t with users } :=
  ⟨h.empty, h.capacity, h.bounds⟩

/-- **Every request keeps the rooms safe.** -/
theorem SafeRooms.serve {env : Env} {w : World} (h : SafeRooms w.db.1) (r : ControllerType × Json) :
    SafeRooms (serve env w r).db.1 := by
  refine serve_of_steps h (fun q => (RoomRequest.run_safe q).after w h) (fun r => ?_) r
  rw [(accountRequest_outcome env w r).tables]
  exact h.of_users _

/-- **The rooms of the server are safe in every run**: one that is free is empty, none has
more members than it is for, and the next host finds his room empty. -/
theorem Server.safeRooms_run (env : Env) {s : Server} (hs : s.Init) (hstart : RoomRequest.Start s.world)
    (es : List Event) : SafeRooms (es.foldl (Server.step env) s).world.db.1 ∧
      ∀ roomId, freeRoom (es.foldl (Server.step env) s).world.db.1 = some roomId →
        (es.foldl (Server.step env) s).world.db.1.players roomId = 0 := by
  have hsafe : SafeRooms (es.foldl (Server.step env) s).world.db.1 := by
    rw [Server.world_eq_serve env hs es]
    exact Run.foldl_inv (I := fun w : World => SafeRooms w.db.1) (fun _ r h => h.serve r) _ hstart.safe
  exact ⟨hsafe, fun _ hfree => hsafe.players_freeRoom hfree⟩

theorem Server.safeRooms_hostRun : SafeRooms (hostRun.foldl (Server.step .reliable) init).world.db.1 :=
  (safeRooms_run .reliable init_init RoomRequest.start_init hostRun).1

/-! ### What is never lost -/

/-- What an account is: its number, its name, its password and when it was made. -/
def UserRow.account (u : UserRow) : ℤ × String × String × Option ℕ := (u.userId, u.userName, u.passwordHash, u.createdAt)

/-- The number of a room and the address at which its games are played. -/
def RoomRow.place (r : RoomRow) : ℤ × Option String × Option ℤ := (r.roomId, r.ipAddress, r.port)

/-- A game, but for its end. -/
def GameRow.start (g : GameRow) : ℤ × ℤ × ℤ × Option ℕ := (g.gameId, g.roomId, g.mapId, g.startedAt)

/-- The game is over. -/
def Tables.Over (t : Tables) (gameId : ℤ) : Prop := ∃ g ∈ t.games, g.gameId = gameId ∧ g.status = .completed

/-- Accounts and games are only added, rooms stay where they are, and what is over stays
over. -/
structure Tables.Evolves (t t' : Tables) : Prop where
  accounts : t.users.map UserRow.account <+: t'.users.map UserRow.account
  maps : t'.maps = t.maps
  places : t'.rooms.map RoomRow.place = t.rooms.map RoomRow.place
  games : t.games.map GameRow.start <+: t'.games.map GameRow.start
  completed : ∀ gameId, t.Over gameId → t'.Over gameId

namespace Tables

variable {t t' : Tables} {roomId userId : ℤ} {now : ℕ}

theorem Evolves.refl (t : Tables) : t.Evolves t :=
  ⟨List.prefix_refl _, rfl, rfl, List.prefix_refl _, fun _ => id⟩

theorem Evolves.trans {t'' : Tables} (h : t.Evolves t') (h' : t'.Evolves t'') : t.Evolves t'' where
  accounts := h.accounts.trans h'.accounts
  maps := h'.maps.trans h.maps
  places := h'.places.trans h.places
  games := h.games.trans h'.games
  completed id hid := h'.completed id (h.completed id hid)

/-- Rooms are written in place, and members come and go. -/
theorem Evolves.rooms (husers : t'.users = t.users) (hmaps : t'.maps = t.maps) (hgames : t'.games = t.games)
    (hplaces : t'.rooms.map RoomRow.place = t.rooms.map RoomRow.place) : t.Evolves t' where
  accounts := husers ▸ List.prefix_refl _
  maps := hmaps
  places := hplaces
  games := hgames ▸ List.prefix_refl _
  completed id hid := by rwa [Over, hgames]

/-- An end is written to games. -/
theorem Evolves.ends (p : GameRow → Prop) [DecidablePred p] (now : ℕ) :
    t.Evolves { t with
      games := Rows.update p (fun g => { g with status := .completed, completedAt := some now }) t.games } where
  accounts := List.prefix_refl _
  maps := rfl
  places := rfl
  games := (Rows.map_update fun _ _ => rfl :
    (Rows.update p (fun g => { g with status := .completed, completedAt := some now }) t.games).map GameRow.start =
      t.games.map GameRow.start) ▸ List.prefix_refl _
  completed id := by
    rintro ⟨g, hg, hid, hst⟩
    refine ⟨_, Rows.mem_update.2 ⟨g, hg, rfl⟩, ?_, ?_⟩
    · split_ifs <;> exact hid
    · split_ifs
      · rfl
      · exact hst

theorem map_place_reopenRoom (t : Tables) (roomId : ℤ) (roomName : String) (hostId maxPlayers : ℤ) (now : ℕ) :
    (t.reopenRoom roomId roomName hostId maxPlayers now).rooms.map RoomRow.place = t.rooms.map RoomRow.place :=
  Rows.map_update fun _ _ => rfl

theorem evolves_openRoom (hostId : ℤ) (roomName : String) (maxPlayers : ℤ) :
    t.Evolves (openRoom t roomId hostId roomName maxPlayers now) :=
  .rooms rfl rfl rfl (map_place_reopenRoom t roomId (sqlText roomName) hostId maxPlayers now)

theorem evolves_leave : t.Evolves (leave t userId roomId now) := by
  unfold leave
  split_ifs
  · have hrooms : t.Evolves ((t.deleteRoomUsers userId).setRoomStatus roomId .terminated) :=
      .rooms rfl rfl rfl (Rows.map_update fun _ _ => rfl)
    exact hrooms.trans (.ends _ now)
  · exact .rooms rfl rfl rfl rfl

theorem evolves_startGame (gameId mapId : ℤ) : t.Evolves (startGame t gameId roomId mapId now) where
  accounts := List.prefix_refl _
  maps := rfl
  places := Rows.map_update fun _ _ => rfl
  games := by
    show t.games.map GameRow.start <+: (t.games ++ [_]).map GameRow.start
    rw [List.map_append]
    exact List.prefix_append _ _
  completed id := by
    rintro ⟨g, hg, hid⟩
    exact ⟨g, List.mem_append_left _ hg, hid⟩

/-- Columns of an account that do not make it are written in place. -/
theorem Evolves.users {users : List UserRow} (h : t.users.map UserRow.account <+: users.map UserRow.account) :
    t.Evolves { t with users } :=
  ⟨h, rfl, rfl, List.prefix_refl _, fun _ => id⟩

theorem evolves_call (env : Env) (w : World) (c : RoomCall) : w.db.1.Evolves (RoomCall.step env w c).db.1 := by
  have hout := RoomCall.step_outcome env w c
  cases c with
  | createRoomWithHost hostId roomName maxPlayers =>
    rcases hout with ⟨roomId, -, ht⟩ | ⟨-, ht⟩ <;> rw [ht]
    · exact evolves_openRoom ..
    · exact .refl _
  | addPlayer roomId userId =>
    rcases hout with ⟨-, ht⟩ | ⟨-, ht⟩ <;> rw [ht]
    · exact .rooms rfl rfl rfl rfl
    · exact .refl _
  | removePlayer userId =>
    rcases hout with ⟨roomId, -, ht⟩ | ⟨-, ht⟩ <;> rw [ht]
    · exact evolves_leave
    · exact .refl _
  | createGame request =>
    rcases hout with ⟨roomId, mapId, -, ht⟩ | ⟨-, ht⟩ <;> rw [ht]
    · exact evolves_startGame ..
    · exact .refl _
  | endGame gameId =>
    rcases hout with ht | ht <;> rw [ht]
    · exact .ends _ _
    · exact .refl _

theorem evolves_account (env : Env) (w : World) (r : AccountRequest) :
    w.db.1.Evolves (AccountRequest.step env w r).db.1 := by
  have henrol : ∀ {t}, AccountRequest.Enrolment env w r t → w.db.1.Evolves t := by
    intro t ht
    cases ht with
    | created =>
      rw [UserRepository.enrol]
      refine .users ?_
      show w.db.1.users.map UserRow.account <+: (w.db.1.users ++ [_]).map UserRow.account
      rw [List.map_append]
      exact List.prefix_append _ _
    | same => exact .refl _
  have hcolumn : ∀ (t : Tables) {p : UserRow → Prop} [DecidablePred p] {f : UserRow → UserRow},
      (∀ u, p u → (f u).account = u.account) → t.Evolves { t with users := Rows.update p f t.users } := by
    intro t p _ f hf
    refine .users ?_
    rw [Rows.map_update hf]
  have hout : ∀ {t}, AccountRequest.Outcome env w r t → w.db.1.Evolves t := by
    intro t ht
    cases ht with
    | enrols h => exact henrol h
    | logs h userId now => exact (henrol h).trans (hcolumn _ fun _ _ => rfl)
    | renames => exact hcolumn _ fun _ _ => rfl
  exact hout (accountRequest_outcome env w r)

/-- **What a request leaves.** -/
theorem evolves_serve (env : Env) (w : World) (r : ControllerType × Json) : w.db.1.Evolves (serve env w r).db.1 :=
  serve_of_steps (.refl _)
    (fun q => RoomRequest.step_of_calls (P := fun t => w.db.1.Evolves t) (.refl _) (fun c => evolves_call env w c) q)
    (fun r => evolves_account env w r) r

end Tables

/-- **No run of the server loses or rewrites an account, moves a room, loses a game or
takes one up again that is over.** -/
theorem Server.evolves_run {env : Env} {s : Server} (hs : Server.Reachable env s) (es : List Event) :
    s.world.db.1.Evolves (es.foldl (Server.step env) s).world.db.1 := by
  obtain ⟨rs, -, hw⟩ := run_serves env hs.sane es
  rw [hw]
  exact serve_run Tables.Evolves.refl (fun _ _ _ h h' => h.trans h') (Tables.evolves_serve env) s.world rs

theorem Server.evolves_hostRun : init.world.db.1.Evolves (hostRun.foldl (Server.step .reliable) init).world.db.1 :=
  evolves_run ⟨init, init_init, [], rfl⟩ hostRun

/-! ### Games are played by those who began them -/

namespace Tables

/-- A game was begun in the room, and the room was not given up since. -/
def Plays (t : Tables) (roomId : ℤ) : Prop := ∃ r ∈ t.rooms, r.roomId = roomId ∧ r.status = .gameInProgress

/-- The room was given up. -/
def Vacant (t : Tables) (roomId : ℤ) : Prop := ∃ r ∈ t.rooms, r.roomId = roomId ∧ r.status = .terminated

instance (t : Tables) (roomId : ℤ) : Decidable (t.Plays roomId) := inferInstanceAs (Decidable (∃ r ∈ t.rooms, _))

instance (t : Tables) (roomId : ℤ) : Decidable (t.Vacant roomId) := inferInstanceAs (Decidable (∃ r ∈ t.rooms, _))

/-- The room plays on in `t'`, and nobody is in it who was not in `t`. -/
structure PlaysOn (t t' : Tables) (roomId : ℤ) : Prop where
  plays : t'.Plays roomId
  members : ∀ q ∈ t'.roomUsers, q.roomId = roomId → q ∈ t.roomUsers

variable {t t' : Tables} {roomId : ℤ}

theorem PlaysOn.refl (h : t.Plays roomId) : t.PlaysOn t roomId := ⟨h, fun _ hq _ => hq⟩

theorem PlaysOn.trans {t'' : Tables} (h : t.PlaysOn t' roomId) (h' : t'.PlaysOn t'' roomId) : t.PlaysOn t'' roomId :=
  ⟨h'.plays, fun q hq hid => h.members q (h'.members q hq hid) hid⟩

/-- A room has one status. -/
theorem Plays.ne (h : t.Plays roomId) (hv : t.Valid) {r : RoomRow} (hr : r ∈ t.rooms) (hst : r.status ≠ .gameInProgress) :
    r.roomId ≠ roomId := by
  rintro rfl
  obtain ⟨r', hr', hid, hplays⟩ := h
  obtain rfl := Rows.eq_of_key_eq hv.rooms_pkey hr' hr hid
  exact hst hplays

/-- Somebody enters another room. -/
theorem PlaysOn.insertRoomUser (h : t.PlaysOn t' roomId) {otherId userId : ℤ} {now : ℕ} (hother : otherId ≠ roomId) :
    t.PlaysOn (t'.insertRoomUser otherId userId now) roomId where
  plays := h.plays
  members q hq hid := by
    rcases List.mem_append.1 hq with hq | hq
    · exact h.members q hq hid
    · rw [List.mem_singleton.1 hq] at hid
      exact absurd hid hother

theorem Plays.openRoom (h : t.Plays roomId) (hv : t.Valid) {otherId hostId maxPlayers : ℤ} {roomName : String} {now : ℕ}
    (hfree : freeRoom t = some otherId) : t.PlaysOn (openRoom t otherId hostId roomName maxPlayers now) roomId := by
  obtain ⟨r', hr', rfl, hst⟩ := freeRoom_mem hfree
  have hother : r'.roomId ≠ roomId := h.ne hv hr' (by rw [hst]; decide)
  obtain ⟨r, hr, hid, hplays⟩ := h
  have hkept : t.PlaysOn (t.reopenRoom r'.roomId (sqlText roomName) hostId maxPlayers now) roomId :=
    ⟨⟨r, Rows.mem_update_of_not hr fun hp => hother (hp.1.symm.trans hid), hid, hplays⟩, fun _ hq _ => hq⟩
  exact hkept.insertRoomUser hother

theorem Plays.leave (h : t.Plays roomId) {otherId userId : ℤ} {now : ℕ} :
    t.PlaysOn (leave t userId otherId now) roomId ∨ (RoomRepository.leave t userId otherId now).Vacant roomId := by
  obtain ⟨r, hr, hid, hplays⟩ := h
  have hmembers : ∀ q ∈ (RoomRepository.leave t userId otherId now).roomUsers, q.roomId = roomId → q ∈ t.roomUsers :=
    fun q hq _ => (mem_roomUsers_leave.1 hq).1
  unfold RoomRepository.leave at hmembers ⊢
  split_ifs at hmembers ⊢
  · -- the room that is looked at is empty
    by_cases hother : r.roomId = otherId
    · exact .inr ⟨_, Rows.mem_update.2 ⟨r, hr, if_pos hother⟩, hid, rfl⟩
    · exact .inl ⟨⟨r, Rows.mem_update_of_not hr hother, hid, hplays⟩, hmembers⟩
  · exact .inl ⟨⟨r, hr, hid, hplays⟩, hmembers⟩

theorem Plays.startGame (h : t.Plays roomId) {gameId otherId mapId : ℤ} {now : ℕ} :
    t.PlaysOn (startGame t gameId otherId mapId now) roomId := by
  obtain ⟨r, hr, hid, hplays⟩ := h
  refine ⟨⟨_, Rows.mem_update.2 ⟨r, hr, rfl⟩, ?_, ?_⟩, fun _ hq _ => hq⟩
  · split_ifs <;> exact hid
  · split_ifs
    · rfl
    · exact hplays

/-- **What a request does to a game**: it goes on without newcomers, or the room is given up. -/
theorem Plays.serve {env : Env} {w : World} (h : w.db.1.Plays roomId) (r : ControllerType × Json) :
    w.db.1.PlaysOn (serve env w r).db.1 roomId ∨ (serve env w r).db.1.Vacant roomId := by
  have hsame := PlaysOn.refl h
  refine serve_of_steps (P := fun t => w.db.1.PlaysOn t roomId ∨ t.Vacant roomId) (.inl hsame) (fun q => ?_)
    (fun r => ?_) r
  · refine RoomRequest.step_of_calls (P := fun t => w.db.1.PlaysOn t roomId ∨ t.Vacant roomId) (.inl hsame)
      (fun c => ?_) q
    have hout := RoomCall.step_outcome env w c
    cases c with
    | createRoomWithHost hostId roomName maxPlayers =>
      rcases hout with ⟨otherId, hopens, ht⟩ | ⟨-, ht⟩ <;> rw [ht]
      · exact .inl (h.openRoom w.db.2 hopens.free)
      · exact .inl hsame
    | addPlayer otherId userId =>
      rcases hout with ⟨hjoins, ht⟩ | ⟨-, ht⟩ <;> rw [ht]
      · obtain ⟨r, hr, rfl, hst, -⟩ := hjoins.2.room
        exact .inl (hsame.insertRoomUser (h.ne w.db.2 hr (by rw [hst]; decide)))
      · exact .inl hsame
    | removePlayer userId =>
      rcases hout with ⟨otherId, -, ht⟩ | ⟨-, ht⟩ <;> rw [ht]
      · exact h.leave
      · exact .inl hsame
    | createGame request =>
      rcases hout with ⟨otherId, mapId, -, ht⟩ | ⟨-, ht⟩ <;> rw [ht]
      · exact .inl h.startGame
      · exact .inl hsame
    | endGame gameId =>
      rcases hout with ht | ht <;> rw [ht]
      · exact .inl ⟨h, fun _ hq _ => hq⟩
      · exact .inl hsame
  · rw [(accountRequest_outcome env w r).tables]
    exact .inl ⟨h, fun _ hq _ => hq⟩

/-- As long as the room is not given up the game goes on without newcomers. -/
theorem Plays.serve_run {env : Env} {w : World} (h : w.db.1.Plays roomId) {rs : List (ControllerType × Json)}
    (hrs : Run.Throughout (Matching.serve env) (fun w => ¬ w.db.1.Vacant roomId) w rs) :
    w.db.1.PlaysOn (rs.foldl (Matching.serve env) w).db.1 roomId := by
  induction rs generalizing w with
  | nil => exact .refl h
  | cons r rs ih =>
    rcases h.serve r with hon | hvacant
    · exact hon.trans (ih hon.plays hrs.2)
    · exact absurd hvacant hrs.2.head

end Tables

/-- **Nobody enters a game.**  From a reachable state in which a room plays, a run whose
requests do not give the room up leaves it playing, with members it had. -/
theorem Server.playsOn_run {env : Env} {s : Server} (hs : Server.Reachable env s) {roomId : ℤ}
    (hplays : s.world.db.1.Plays roomId) (es : List Event)
    (hes : Run.Throughout (serve env) (fun w => ¬ w.db.1.Vacant roomId) s.world
      ((es.foldl (Server.step env) s).requests.drop s.requests.length)) :
    s.world.db.1.PlaysOn (es.foldl (Server.step env) s).world.db.1 roomId := by
  obtain ⟨rs, hrs, hw⟩ := run_serves env hs.sane es
  rw [hrs, List.drop_left] at hes
  rw [hw]
  exact hplays.serve_run hes

/-- A mirror begins the game of a room with one member. -/
def gameRun : List Event :=
  Server.hostRun ++ Server.hostsAt 1 "192.0.2.2" 40000 ++
    Server.sends 1 (.obj [("action", .str "gameStart"), ("roomId", .int 1), ("mapId", .int 1)])

/-- Another client asks to join the room. -/
def latecomerRun : List Event :=
  Server.connects 2 "192.0.2.3" ++ Server.sends 2 (Server.credentials "login" "superAdmin1234" "admin") ++
    Server.sends 2 (.obj [("action", .str "joinRoom"), ("roomId", .int 1)])

theorem Server.playsOn_latecomerRun :
    (gameRun.foldl (step .reliable) init).world.db.1.PlaysOn
      (latecomerRun.foldl (step .reliable) (gameRun.foldl (step .reliable) init)).world.db.1 1 :=
  playsOn_run ⟨init, init_init, gameRun, rfl⟩ (by decide +kernel) latecomerRun (by decide +kernel)

end Matching
end SocketCommunication
