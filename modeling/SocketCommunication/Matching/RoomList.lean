/-
# The list of rooms

`listRooms` reads the open rooms in one transaction and counts the members of each in
a transaction of its own.  Where no call fails it shows each open room once, the newest
first, with its members counted (`Shows`), in every state that a run of the server
reaches.

A client reads from the list what it can join: `addPlayer` takes it into a room just
when the list says that the room waits and has a seat (`joinRoom_iff_shown`).
-/

import SocketCommunication.Matching.History

namespace SocketCommunication
namespace Matching

open Effect RoomRepository

/-- `WHERE status = 'WAITING' OR status = 'GAME_IN_PROGRESS'`. -/
def Tables.openRooms (t : Tables) : List RoomRow :=
  t.rooms.filter fun r => r.status = .waiting ∨ r.status = .gameInProgress

/-- The columns of the room are there that the list reads, and its number is an `int`. -/
structure RoomRow.Complete (r : RoomRow) : Prop where
  roomId : Json.wrapInt r.roomId = r.roomId
  ipAddress : r.ipAddress.isSome
  port : r.port.isSome
  createdAt : r.createdAt.isSome

instance (r : RoomRow) : Decidable r.Complete :=
  decidable_of_iff (Json.wrapInt r.roomId = r.roomId ∧ r.ipAddress.isSome ∧ r.port.isSome ∧ r.createdAt.isSome)
    ⟨fun h => ⟨h.1, h.2.1, h.2.2.1, h.2.2.2⟩, fun h => ⟨h.roomId, h.ipAddress, h.port, h.createdAt⟩⟩

/-- The room as the list shows it, with `players` members. -/
def RoomRow.shown (env : Env) (players : ℤ) (r : RoomRow) : Json :=
  .obj [("roomId", .int r.roomId), ("roomName", .str r.roomName), ("hostId", .int r.hostId),
    ("ipAddress", .str (r.ipAddress.getD "")), ("port", .int (r.port.getD 0)), ("maxPlayers", .int r.maxPlayers),
    ("status", .str r.status.text), ("createdAt", .str (env.timestampText (r.createdAt.getD 0))),
    ("currentPlayers", .int players)]

/-- The answer shows each open room of `t` once, the newest first, with its members. -/
def Shows (env : Env) (t : Tables) (j : Json) : Prop :=
  ∃ l : List RoomRow, l.Perm t.openRooms ∧ l.Pairwise newer ∧
    j = RoomService.roomList "success" "방 목록을 성공적으로 가져왔습니다"
      (l.map fun r => r.shown env (t.players r.roomId))

section List

variable {env : Env} {w : World}

instance : Std.Total newer where
  total r s := by
    unfold newer
    cases r.createdAt <;> cases s.createdAt <;> simp [le_total]

instance : IsTrans RoomRow newer where
  trans r s q h h' := by
    unfold newer at h h' ⊢
    cases hr : r.createdAt with
    | none => exact trivial
    | some a =>
      cases hs : s.createdAt with
      | none => simp [hr, hs] at h
      | some b =>
        cases hq : q.createdAt with
        | none => simp [hs, hq] at h'
        | some c =>
          simp only [hr, hs] at h
          simp only [hs, hq] at h'
          exact h'.trans h

/-- Where no call fails, the conversion of a column that is there answers. -/
theorem wp_field_steady {α : Type} {a : α} {Q : α → World → Prop} {E : Exn → World → Prop} (hsteady : env.Steady)
    (hQ : ∀ w', w'.db = w.db → Q a w') : wp (field env (some a)) Q E w := by
  refine wp_field_tick (fun b hb _ => ?_) fun e hn => ?_
  · cases hb
    exact hQ _ rfl
  · exact (hn.resolve_left (Option.some_ne_none a)).elim (hsteady w.tick)

/-- What the list needs of the JSON of a row. -/
def Lists (env : Env) (r : RoomRow) (j : Json) : Prop :=
  (∀ n, j.set "currentPlayers" (.int n) = r.shown env n) ∧ j.value "roomId" = .int r.roomId

/-- A row whose columns are there. -/
theorem wp_roomJson (hsteady : env.Steady) {r : RoomRow} (h : r.Complete) :
    wp (roomJson env r) (fun j w' => Lists env r j ∧ w'.db = w.db) (fun _ _ => False) w := by
  obtain ⟨ip, hip⟩ := Option.isSome_iff_exists.1 h.ipAddress
  obtain ⟨port, hport⟩ := Option.isSome_iff_exists.1 h.port
  obtain ⟨at', hat⟩ := Option.isSome_iff_exists.1 h.createdAt
  simp only [roomJson, hip, hport, hat, wp_bind, wp_pure]
  refine wp_field_steady hsteady fun w₁ h₁ => wp_field_steady hsteady fun w₂ h₂ => ?_
  refine wp_field_steady hsteady fun w₃ h₃ => wp_field_steady hsteady fun w₄ h₄ => ?_
  refine wp_field_steady hsteady fun w₅ h₅ => wp_field_steady hsteady fun w₆ h₆ => ?_
  refine wp_field_steady hsteady fun w₇ h₇ => wp_field_steady hsteady fun w₈ h₈ => ⟨⟨fun n => ?_, rfl⟩, ?_⟩
  · simp [RoomRow.shown, hip, hport, hat, Json.set, Json.setMember]
  · rw [h₈, h₇, h₆, h₅, h₄, h₃, h₂, h₁]

theorem wp_mapM_roomJson (hsteady : env.Steady) :
    ∀ (l : List RoomRow) (w : World), (∀ r ∈ l, r.Complete) →
      wp (l.mapM (roomJson env)) (fun js w' => List.Forall₂ (Lists env) l js ∧ w'.db = w.db) (fun _ _ => False) w
  | [], w, _ => by
    rw [List.mapM_nil]
    exact ⟨.nil, rfl⟩
  | r :: l, w, h => by
    obtain ⟨hr, hl⟩ := List.forall_mem_cons.1 h
    rw [List.mapM_cons, wp_bind]
    refine wp_mono (fun j w₁ hj => ?_) (fun _ _ h => h) (wp_roomJson hsteady hr)
    rw [wp_bind]
    refine wp_mono (fun js w₂ hjs => ?_) (fun _ _ h => h) (wp_mapM_roomJson hsteady l w₁ hl)
    exact ⟨.cons hj.1 hjs.1, hjs.2.trans hj.2⟩

/-- The open rooms, the newest first. -/
theorem findAllOpen_spec (hsteady : env.Steady) (h : ∀ r ∈ w.db.1.openRooms, r.Complete) :
    wp (findAllOpen env) (fun js w' => w'.db = w.db ∧ ∃ l : List RoomRow, l.Perm w.db.1.openRooms ∧ l.Pairwise newer ∧
      List.Forall₂ (Lists env) l js) (fun _ _ => False) w := by
  refine wp_open (fun conn w₁ h₁ => ?_) fun e w' hn _ => hn (hsteady.answers w 1)
  simp only [wp_tryCatch, wp_bind]
  refine wp_query h₁ (fun w₂ h₂ => ?_) fun e w' hn _ => absurd (hsteady.answers w _) hn
  refine wp_commit h₂ (fun w₃ h₃ => wp_returnConnection fun pool => ?_) fun e w' hn _ => absurd (hsteady.answers w _) hn
  have hperm : ∀ n, ((env.order n w.db.1.openRooms).insertionSort newer).Perm w.db.1.openRooms := fun n =>
    (List.perm_insertionSort newer _).trans (env.order_perm n _)
  refine wp_mono (fun js w₄ hjs => ?_) (fun _ _ h => h.elim)
    (wp_mapM_roomJson hsteady _ _ fun r hr => h r ((hperm _).mem_iff.1 hr))
  exact ⟨hjs.2.trans (Subtype.ext h₃.published.1), _, hperm _, List.pairwise_insertionSort newer _, hjs.1⟩

theorem getPlayerCount_spec (hsteady : env.Steady) (roomId : ℤ) :
    wp (getPlayerCount env roomId) (fun n w' => n = w.db.1.players roomId ∧ w'.db = w.db) (fun _ _ => False) w := by
  refine wp_open (fun conn w₁ h₁ => ?_) fun e w' hn _ => hn (hsteady.answers w 1)
  simp only [wp_tryCatch, wp_bind]
  refine wp_query h₁ (fun w₂ h₂ => ?_) fun e w' hn _ => absurd (hsteady.answers w _) hn
  refine wp_commit h₂ (fun w₃ h₃ => wp_returnConnection fun pool => ?_) fun e w' hn _ => absurd (hsteady.answers w _) hn
  rw [Env.order_singleton]
  exact wp_field_steady hsteady fun w₄ h₄ => ⟨rfl, h₄.trans (Subtype.ext h₃.published.1)⟩

/-- The loop of `listRooms`, by the rooms that are still to be counted. -/
theorem countPlayers_spec (hsteady : env.Steady) {t : Tables} {l : List RoomRow} {js : List Json}
    (h : List.Forall₂ (Lists env) l js) (hid : ∀ r ∈ l, Json.wrapInt r.roomId = r.roomId) :
    ∀ (listed : List Json) (w : World), w.db.1 = t →
      wp (RoomService.countPlayers env js listed) (fun j w' => w'.db = w.db ∧
        j = RoomService.roomList "success" "방 목록을 성공적으로 가져왔습니다"
          (listed ++ l.map fun r => r.shown env (t.players r.roomId))) (fun _ _ => False) w := by
  induction h with
  | nil =>
    intro listed w _
    simp only [RoomService.countPlayers, wp_pure, List.map_nil, List.append_nil, and_self]
  | @cons r j l js hj _ ih =>
    intro listed w hw
    obtain ⟨hset, hroom⟩ := hj
    obtain ⟨hr, hl⟩ := List.forall_mem_cons.1 hid
    have hint : (j.value "roomId").getInt = .ok r.roomId := by
      rw [hroom]
      exact congrArg Except.ok hr
    simp only [RoomService.countPlayers, wp_tryCatch, wp_bind, hint, orThrow_ok, wp_pure]
    refine wp_mono (fun n w₁ hn => ?_) (fun _ _ h => h.elim) (getPlayerCount_spec hsteady r.roomId)
    obtain ⟨rfl, hdb⟩ := hn
    refine wp_mono (fun a w₂ ha => ?_) (fun _ _ h => h.elim) (ih hl _ w₁ (by rw [hdb, hw]))
    refine ⟨ha.1.trans hdb, ?_⟩
    rw [ha.2, hset, hw, List.append_assoc]
    rfl

/-- **`listRooms` shows the open rooms.** -/
theorem listRooms_spec (hsteady : env.Steady) (h : ∀ r ∈ w.db.1.rooms, r.Complete) :
    wp (RoomService.listRooms env) (fun j w' => w'.db = w.db ∧ Shows env w.db.1 j) (fun _ _ => False) w := by
  have hopen : ∀ r ∈ w.db.1.openRooms, r.Complete := fun r hr => h r (List.mem_filter.1 hr).1
  simp only [RoomService.listRooms, wp_tryCatch, wp_bind]
  refine wp_mono (fun js w₁ hjs => ?_) (fun _ _ h => h.elim) (findAllOpen_spec hsteady hopen)
  obtain ⟨hdb, l, hperm, hsorted, hall⟩ := hjs
  refine wp_mono (fun j w₂ hj => ?_) (fun _ _ h => h.elim) (countPlayers_spec hsteady (t := w.db.1) hall
    (fun r hr => (hopen r (hperm.mem_iff.1 hr)).roomId) [] w₁ (by rw [hdb]))
  exact ⟨hj.1.trans hdb, l, hperm, hsorted, hj.2⟩

/-! ### What can be joined -/

/-- The list offers a seat in the room. -/
def Offers (j : Json) (roomId : ℤ) : Prop :=
  ∃ room ∈ Server.elements (j.value "rooms"), room.value "roomId" = .int roomId ∧
    room.value "status" = .str "WAITING" ∧
      ∃ currentPlayers maxPlayers, room.value "currentPlayers" = .int currentPlayers ∧
        room.value "maxPlayers" = .int maxPlayers ∧ currentPlayers < maxPlayers

theorem Shows.offers_iff {t : Tables} {j : Json} {roomId : ℤ} (h : Shows env t j) :
    Offers j roomId ↔ ∃ r ∈ t.rooms, r.roomId = roomId ∧ r.status = .waiting ∧ t.players roomId < r.maxPlayers := by
  obtain ⟨l, hperm, -, rfl⟩ := h
  have hrooms : Server.elements ((RoomService.roomList "success" "방 목록을 성공적으로 가져왔습니다"
      (l.map fun r => r.shown env (t.players r.roomId))).value "rooms") =
      l.map fun r => r.shown env (t.players r.roomId) := rfl
  rw [Offers, hrooms]
  constructor
  · rintro ⟨room, hroom, hid, hstatus, n, m, hn, hm, hlt⟩
    obtain ⟨r, hr, rfl⟩ := List.mem_map.1 hroom
    obtain rfl : r.roomId = roomId := Json.int.inj hid
    obtain rfl : (t.players r.roomId : ℤ) = n := Json.int.inj hn
    obtain rfl : r.maxPlayers = m := Json.int.inj hm
    exact ⟨r, (List.mem_filter.1 (hperm.mem_iff.1 hr)).1, rfl, RoomStatus.text_eq_waiting.1 (Json.str.inj hstatus), hlt⟩
  · rintro ⟨r, hr, rfl, hstatus, hlt⟩
    have hopen : r ∈ t.openRooms := List.mem_filter.2 ⟨hr, by simp [hstatus]⟩
    refine ⟨_, List.mem_map_of_mem (hperm.mem_iff.2 hopen), rfl, ?_, _, _, rfl, rfl, hlt⟩
    exact congrArg Json.str (RoomStatus.text_eq_waiting.2 hstatus)

/-- A room is joined just when it waits and has a seat for one who is not there. -/
theorem joinRoom_succeeds_iff (hsteady : env.Steady) {request : Json} {roomId u : ℤ}
    (hroom : (request.value "roomId").getInt = .ok roomId) (hu : (request.value "userId").getInt = .ok u) :
    wp (RoomService.joinRoom env request) (fun j _ => j.succeeds ↔ CanJoin w.db.1 roomId u) (fun _ _ => False) w := by
  have hfields : request.contains "roomId" ∧ request.contains "userId" :=
    ⟨Json.contains_of_getInt hroom, Json.contains_of_getInt hu⟩
  simp only [RoomService.joinRoom, wp_tryCatch, wp_ite, wp_pure, wp_bind, hroom, hu, orThrow_ok]
  refine ⟨fun hn => absurd hfields hn, fun _ => ?_⟩
  have hjoins : Joins env w roomId u ↔ CanJoin w.db.1 roomId u := and_iff_right (hsteady.answers w 9)
  refine wp_mono (fun b w' h => ?_) (fun _ w' h => ?_) (addPlayer_spec w roomId u)
  · cases b with
    | true => exact ⟨fun hn => absurd rfl hn, fun _ => iff_of_true rfl (hjoins.1 h.1)⟩
    | false => exact ⟨fun _ => iff_of_false Bool.false_ne_true fun hcan => h.1 (hjoins.2 hcan),
        fun hn => absurd Bool.false_ne_true hn⟩
  · exact iff_of_false Bool.false_ne_true fun hcan => h.1 (hjoins.2 hcan)

end List

/-! ### In every run -/

/-- Every room can be shown. -/
def Tables.Complete (t : Tables) : Prop := ∀ r ∈ t.rooms, r.Complete

instance (t : Tables) : Decidable t.Complete := inferInstanceAs (Decidable (∀ r ∈ t.rooms, r.Complete))

theorem Tables.Complete.call {env : Env} {w : World} (h : w.db.1.Complete) (c : RoomCall) :
    (RoomCall.step env w c).db.1.Complete := by
  have hout := RoomCall.step_outcome env w c
  cases c with
  | createRoomWithHost hostId roomName maxPlayers =>
    rcases hout with ⟨roomId, -, ht⟩ | ⟨-, ht⟩ <;> rw [ht]
    · exact Rows.forall_mem_update h fun r hr _ => ⟨(h r hr).roomId, (h r hr).ipAddress, (h r hr).port, rfl⟩
    · exact h
  | addPlayer roomId userId =>
    rcases hout with ⟨-, ht⟩ | ⟨-, ht⟩ <;> rw [ht] <;> exact h
  | removePlayer userId =>
    rcases hout with ⟨roomId, -, ht⟩ | ⟨-, ht⟩ <;> rw [ht]
    · refine RoomCall.forall_mem_rooms_leave.2 fun r hr => ?_
      split_ifs <;> exact ⟨(h r hr).roomId, (h r hr).ipAddress, (h r hr).port, (h r hr).createdAt⟩
    · exact h
  | createGame request =>
    rcases hout with ⟨roomId, mapId, -, ht⟩ | ⟨-, ht⟩ <;> rw [ht]
    · exact Rows.forall_mem_update h fun r hr _ => ⟨(h r hr).roomId, (h r hr).ipAddress, (h r hr).port, (h r hr).createdAt⟩
    · exact h
  | endGame gameId =>
    rcases hout with ht | ht <;> rw [ht] <;> exact h

theorem Tables.Complete.serve {env : Env} {w : World} (h : w.db.1.Complete) (r : ControllerType × Json) :
    (serve env w r).db.1.Complete := by
  refine serve_of_steps h (fun q => RoomRequest.step_of_calls (P := Tables.Complete) h h.call q) (fun r => ?_) r
  rw [(accountRequest_outcome env w r).tables]
  exact h

/-- **The list is what can be joined.**  In every run of the server, where no call fails,
a client that asks for the list is shown the open rooms; and one that then asks for a room
gets in just when the list offers a seat there, and the account is one that has none yet. -/
theorem Server.joinRoom_iff_shown {env : Env} {s : Server} (hsteady : env.Steady) (hs : s.Init)
    (hcomplete : s.world.db.1.Complete) (es : List Event) :
    ∃ j w, RoomService.listRooms env (es.foldl (Server.step env) s).world = .ok j w ∧
      w.db = (es.foldl (Server.step env) s).world.db ∧ Shows env w.db.1 j ∧
      ∀ request roomId u, (request.value "roomId").getInt = .ok roomId → (request.value "userId").getInt = .ok u →
        ∃ answer w', RoomService.joinRoom env request w = .ok answer w' ∧ (answer.succeeds ↔
          Offers j roomId ∧ u ∈ w.db.1.users.map (·.userId) ∧ ∀ q ∈ w.db.1.roomUsers, q.roomId = roomId → q.userId ≠ u) := by
  obtain ⟨rs, -, hw⟩ := run_serves env hs.sane es
  have hrooms : (es.foldl (Server.step env) s).world.db.1.Complete := by
    rw [hw]
    exact Run.foldl_inv (I := fun w : World => w.db.1.Complete) (fun _ r h => h.serve r) rs hcomplete
  obtain ⟨j, w, hlist, hdb, hshows⟩ := wp_returns (listRooms_spec hsteady hrooms)
  rw [← hdb] at hshows
  refine ⟨j, w, hlist, hdb, hshows, fun request roomId u hroom hu => ?_⟩
  obtain ⟨answer, w', hjoin, hiff⟩ := wp_returns (joinRoom_succeeds_iff (w := w) hsteady hroom hu)
  refine ⟨answer, w', hjoin, hiff.trans ⟨fun h => ?_, fun ⟨hoffers, huser, hfresh⟩ => ?_⟩⟩
  · exact ⟨hshows.offers_iff.2 h.room, h.user, h.fresh⟩
  · exact ⟨hshows.offers_iff.1 hoffers, hfresh, huser⟩

/-- The room of the host waits, and has three seats. -/
theorem Server.joinRoom_hostRun :
    ∃ j w, RoomService.listRooms .reliable (hostRun.foldl (Server.step .reliable) init).world = .ok j w ∧
      Shows .reliable w.db.1 j := by
  obtain ⟨j, w, hlist, -, hshows, -⟩ := @joinRoom_iff_shown .reliable init (fun _ => rfl) init_init
    (by decide +kernel) hostRun
  exact ⟨j, w, hlist, hshows⟩

end Matching
end SocketCommunication
