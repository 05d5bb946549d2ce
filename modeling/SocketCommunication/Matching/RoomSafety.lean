/-
# Serial runs of room requests

The requests of the room and game services, one after the other, with any JSON and
any failures of the database.

A room that is `TERMINATED` is empty, no room has more members than
`max_players`, and `max_players` stays between 2 and 8 (`safe_of_reachable`).  The
three are proved together: a room that is opened again may become smaller, and it
has room for its host since nobody is in it.
-/

import SocketCommunication.Matching.GameService
import SocketCommunication.Matching.RoomRuns

namespace SocketCommunication
namespace Matching

open Effect RoomRepository

/-- A number that passes the range check of `createRoom` is an `int` in the range:
what is not a number is on one side of all numbers. -/
theorem Json.getInt_range {j : Json} {lo hi i : ℤ} (hlo : 0 ≤ lo) (hhi : hi < 2 ^ 31)
    (hrange : ¬ (j.ltInt lo ∨ j.gtInt hi)) (h : j.getInt = .ok i) : lo ≤ i ∧ i ≤ hi := by
  cases j with
  | int k =>
    obtain rfl := Except.ok.inj h
    simp only [ltInt, gtInt, decide_eq_true_eq, not_or, not_lt] at hrange
    rw [wrapInt_eq (by omega) (by omega)]
    exact hrange
  | float q =>
    obtain rfl := Except.ok.inj h
    simp only [ltInt, gtInt, decide_eq_true_eq, not_or, Rat.not_lt] at hrange
    -- the fraction is cut off a number that is not negative
    have hge : lo ≤ q.floor := Rat.le_floor_iff.2 hrange.1
    have hle : q.floor ≤ hi := (Rat.floor_monotone hrange.2).trans_eq (Rat.floor_intCast hi)
    have hnum : 0 ≤ q.num := Rat.num_nonneg.2 (Rat.le_trans (Rat.intCast_nonneg.2 hlo) hrange.1)
    have hfloor : q.num.tdiv q.den = q.floor := by rw [Int.tdiv_eq_ediv_of_nonneg hnum, Rat.floor_def]
    unfold truncInt
    rw [hfloor]
    dsimp only
    rw [if_pos (by omega)]
    exact ⟨hge, hle⟩
  | bool b => exact absurd (.inl (by simp [ltInt, typeOrder])) hrange
  | null => cases h
  | str => cases h
  | arr => cases h
  | obj => cases h

/-- The rooms are safe. -/
structure SafeRooms (t : Tables) : Prop where
  empty : RoomCall.MembersInOpen t
  capacity : ∀ r ∈ t.rooms, t.players r.roomId ≤ r.maxPlayers
  bounds : ∀ r ∈ t.rooms, 2 ≤ r.maxPlayers ∧ r.maxPlayers ≤ 8

section Tables

variable {t : Tables} {roomId userId : ℤ} {now : ℕ}

theorem players_insertRoomUser (k : ℤ) :
    (t.insertRoomUser roomId userId now).players k = t.players k + if roomId = k then 1 else 0 := by
  rw [Tables.players, Tables.insertRoomUser, List.filter_append, List.length_append]
  by_cases hk : roomId = k <;> simp [Tables.players, hk]

theorem players_leave_le (k : ℤ) : (leave t userId roomId now).players k ≤ t.players k := by
  rw [Tables.players, roomUsers_leave]
  exact ((List.filter_sublist (l := t.roomUsers)).filter _).length_le

/-- Nobody is in a room that is free. -/
theorem SafeRooms.players_freeRoom (h : SafeRooms t) (hfree : freeRoom t = some roomId) : t.players roomId = 0 := by
  obtain ⟨r, hr, rfl, hst⟩ := freeRoom_mem hfree
  rw [Tables.players, List.length_eq_zero_iff, List.filter_eq_nil_iff]
  exact fun q hq => by simpa using h.empty r hr hst q hq

/-- The room that is opened has room for its host, however small it is now. -/
theorem SafeRooms.openRoom (h : SafeRooms t) (hv : t.Valid) (hfree : freeRoom t = some roomId) {roomName : String}
    {maxPlayers : ℤ} (hmax : 2 ≤ maxPlayers ∧ maxPlayers ≤ 8) :
    SafeRooms (openRoom t roomId userId roomName maxPlayers now) where
  empty := RoomCall.membersInOpen_openRoom h.empty
  capacity := by
    have hnone := h.players_freeRoom hfree
    have hplayers : ∀ k, (RoomRepository.openRoom t roomId userId roomName maxPlayers now).players k =
        t.players k + if roomId = k then 1 else 0 := fun k => players_insertRoomUser k
    refine Rows.forall_mem_update_iff.2 fun r hr => ⟨fun hp => ?_, fun hp => ?_⟩
    · rw [hplayers, if_pos hp.1.symm, hp.1, hnone]
      change ((0 + 1 : ℕ) : ℤ) ≤ maxPlayers
      omega
    · have hne : roomId ≠ r.roomId := by
        intro hid
        obtain ⟨q, hq, hqid, hst⟩ := freeRoom_mem hfree
        obtain rfl := Rows.eq_of_key_eq hv.rooms_pkey hq hr (hqid.trans hid)
        exact hp ⟨hqid, hst⟩
      rw [hplayers, if_neg hne]
      exact h.capacity r hr
  bounds := Rows.forall_mem_update_iff.2 fun r hr => ⟨fun _ => hmax, fun _ => h.bounds r hr⟩

theorem SafeRooms.insertRoomUser (h : SafeRooms t) (hv : t.Valid) (hjoin : CanJoin t roomId userId) :
    SafeRooms (t.insertRoomUser roomId userId now) where
  empty := RoomCall.membersInOpen_insertRoomUser h.empty hv hjoin
  capacity r hr := by
    rw [players_insertRoomUser]
    have hold := h.capacity r hr
    split_ifs with hid
    · obtain ⟨q, hq, hqid, -, hlt⟩ := hjoin.room
      obtain rfl := Rows.eq_of_key_eq hv.rooms_pkey hq hr (hqid.trans hid)
      rw [← hid]
      change (t.players roomId : ℤ) < q.maxPlayers at hlt
      push_cast
      omega
    · exact hold
  bounds := h.bounds

theorem SafeRooms.leave (h : SafeRooms t) : SafeRooms (leave t userId roomId now) where
  empty := RoomCall.membersInOpen_leave h.empty
  capacity := by
    refine RoomCall.forall_mem_rooms_leave.2 fun r hr => ?_
    have hle : ((RoomRepository.leave t userId roomId now).players r.roomId : ℤ) ≤ r.maxPlayers :=
      (Int.ofNat_le.2 (players_leave_le r.roomId)).trans (h.capacity r hr)
    split_ifs <;> exact hle
  bounds := RoomCall.forall_mem_rooms_leave.2 fun r hr => by split_ifs <;> exact h.bounds r hr

theorem SafeRooms.startGame (h : SafeRooms t) {gameId mapId : ℤ} :
    SafeRooms (GameRepository.startGame t gameId roomId mapId now) where
  empty := RoomCall.membersInOpen_startGame h.empty
  capacity := Rows.forall_mem_update h.capacity fun r hr _ => h.capacity r hr
  bounds := Rows.forall_mem_update h.bounds fun r hr _ => h.bounds r hr

end Tables

/-- A call with a number of players in the range. -/
def RoomCall.Bounded : RoomCall → Prop
  | createRoomWithHost _ _ maxPlayers => 2 ≤ maxPlayers ∧ maxPlayers ≤ 8
  | _ => True

/-- Every call keeps the rooms safe. -/
theorem SafeRooms.step {env : Env} {w : World} {c : RoomCall} (h : SafeRooms w.db.1) (hc : c.Bounded) :
    SafeRooms (RoomCall.step env w c).db.1 := by
  have hout := RoomCall.step_outcome env w c
  cases c with
  | createRoomWithHost hostId roomName maxPlayers =>
    rcases hout with ⟨roomId, hopens, ht⟩ | ⟨-, ht⟩ <;> rw [ht]
    · exact h.openRoom w.db.2 hopens.free hc
    · exact h
  | addPlayer roomId userId =>
    rcases hout with ⟨hjoin, ht⟩ | ⟨-, ht⟩ <;> rw [ht]
    · exact h.insertRoomUser w.db.2 hjoin.2
    · exact h
  | removePlayer userId =>
    rcases hout with ⟨roomId, -, ht⟩ | ⟨-, ht⟩ <;> rw [ht]
    · exact h.leave
    · exact h
  | createGame request =>
    rcases hout with ⟨roomId, mapId, -, ht⟩ | ⟨-, ht⟩ <;> rw [ht]
    · exact h.startGame
    · exact h
  | endGame gameId => rcases hout with ht | ht <;> rw [ht] <;> exact ⟨h.empty, h.capacity, h.bounds⟩

/-- The relation that the services keep. -/
def StaySafe (w w' : World) : Prop := SafeRooms w.db.1 → SafeRooms w'.db.1

instance : IsPreorder World StaySafe where
  refl _ := id
  trans _ _ _ h h' := h' ∘ h

/-- A request to the room or the game service. -/
inductive RoomRequest where
  | createRoom (request : Json)
  | joinRoom (request : Json)
  | exitRoom (request : Json)
  | startGame (request : Json)
  | endGame (request : Json)

namespace RoomRequest

/-- The answer to a request. -/
def run (env : Env) : RoomRequest → DbM Json
  | createRoom request => RoomService.createRoom env request
  | joinRoom request => RoomService.joinRoom env request
  | exitRoom request => RoomService.exitRoom env request
  | startGame request => GameService.startGame env request
  | endGame request => GameService.endGame env request

/-- The world after a request. -/
def step (env : Env) (w : World) (q : RoomRequest) : World := after (q.run env) w

/-- All rooms are free and empty, for two to eight players. -/
structure Start (w : World) : Prop where
  terminated : ∀ r ∈ w.db.1.rooms, r.status = .terminated
  roomUsers : w.db.1.roomUsers = []
  bounds : ∀ r ∈ w.db.1.rooms, 2 ≤ r.maxPlayers ∧ r.maxPlayers ≤ 8

section Requests

variable {env : Env}

theorem keeps_of_call (c : RoomCall) (hc : c.Bounded) : Keeps StaySafe (c.run env) := fun _ =>
  wp_iff_after.2 fun h => h.step hc

theorem createRoom_safe (request : Json) : Keeps StaySafe (RoomService.createRoom env request) := by
  refine keeps_tryCatch (keeps_ite (fun _ => keeps_pure _) fun _ => ?_) fun _ => keeps_pure _
  refine keeps_bind (keeps_orThrow _) fun roomName => keeps_ite (fun _ => keeps_pure _) fun _ => ?_
  refine keeps_ite (fun _ => keeps_pure _) fun hrange => keeps_bind (keeps_orThrow _) fun userId => ?_
  refine keeps_orThrow_bind fun maxPlayers hmax => keeps_bind ?_ fun _ => ?_
  · have hbounds := Json.getInt_range (by decide) (by decide) hrange hmax
    exact keeps_map.1 (keeps_of_call (.createRoomWithHost userId roomName maxPlayers) hbounds)
  · exact keeps_ite (fun _ => keeps_pure _) fun _ => keeps_pure _

theorem joinRoom_safe (request : Json) : Keeps StaySafe (RoomService.joinRoom env request) := by
  refine keeps_tryCatch (keeps_ite (fun _ => keeps_pure _) fun _ => ?_) fun _ => keeps_pure _
  refine keeps_bind (keeps_orThrow _) fun roomId => keeps_bind (keeps_orThrow _) fun userId => keeps_bind ?_ fun _ => ?_
  · exact keeps_map.1 (keeps_of_call (.addPlayer roomId userId) trivial)
  · exact keeps_ite (fun _ => keeps_pure _) fun _ => keeps_pure _

theorem exitRoom_safe (request : Json) : Keeps StaySafe (RoomService.exitRoom env request) := by
  refine keeps_tryCatch (keeps_ite (fun _ => keeps_pure _) fun _ => ?_) fun _ => keeps_pure _
  refine keeps_bind (keeps_orThrow _) fun userId => keeps_bind ?_ fun _ => ?_
  · exact keeps_map.1 (keeps_of_call (.removePlayer userId) trivial)
  · exact keeps_ite (fun _ => keeps_pure _) fun _ => keeps_pure _

theorem startGame_safe (request : Json) : Keeps StaySafe (GameService.startGame env request) := by
  refine keeps_tryCatch (keeps_ite (fun _ => keeps_pure _) fun _ => keeps_bind ?_ fun _ => ?_) fun _ => keeps_pure _
  · exact keeps_map.1 (keeps_of_call (.createGame request) trivial)
  · exact keeps_ite (fun _ => keeps_pure _) fun _ => keeps_pure _

theorem endGame_safe (request : Json) : Keeps StaySafe (GameService.endGame env request) := by
  refine keeps_tryCatch (keeps_ite (fun _ => keeps_pure _) fun _ => ?_) fun _ => keeps_pure _
  refine keeps_bind (keeps_orThrow _) fun gameId => keeps_bind ?_ fun _ => ?_
  · exact keeps_map.1 (keeps_of_call (.endGame gameId) trivial)
  · exact keeps_ite (fun _ => keeps_pure _) fun _ => keeps_pure _

theorem run_safe (q : RoomRequest) : Keeps StaySafe (q.run env) := by
  cases q with
  | createRoom request => exact createRoom_safe request
  | joinRoom request => exact joinRoom_safe request
  | exitRoom request => exact exitRoom_safe request
  | startGame request => exact startGame_safe request
  | endGame request => exact endGame_safe request

theorem Start.safe {w : World} (h : Start w) : SafeRooms w.db.1 where
  empty r _ _ q hq := by
    rw [h.roomUsers] at hq
    cases hq
  capacity r hr := by
    have hnone : w.db.1.players r.roomId = 0 := by rw [Tables.players, h.roomUsers]; rfl
    have hbounds := h.bounds r hr
    omega
  bounds := h.bounds

/-- **The rooms are safe after any requests.**  In particular the room that
`createRoomWithHost` picks has no members. -/
theorem safe_of_reachable {w : World} (h : Run.Reachable (step env) Start w) :
    SafeRooms w.db.1 ∧ ∀ roomId, freeRoom w.db.1 = some roomId → w.db.1.players roomId = 0 := by
  have hsafe : SafeRooms w.db.1 :=
    Run.Reachable.inv (I := fun w : World => SafeRooms w.db.1) (fun _ h => h.safe) (fun w q h => (run_safe q).after w h) h
  exact ⟨hsafe, fun _ hfree => hsafe.players_freeRoom hfree⟩

theorem start_init : Start .init := ⟨by decide +kernel, rfl, by decide +kernel⟩

/-- A room for eight is left and opened again for two and a half. -/
def shrinkRun : List RoomRequest :=
  [.createRoom (.obj [("roomName", .str "large"), ("userId", .int 1), ("maxPlayers", .int 8)]),
    .joinRoom (.obj [("roomId", .int 1), ("userId", .int 2)]),
    .exitRoom (.obj [("userId", .int 1)]), .exitRoom (.obj [("userId", .int 2)]),
    .createRoom (.obj [("roomName", .str "small"), ("userId", .int 1), ("maxPlayers", .float (5 / 2))])]

theorem safe_shrinkRun : SafeRooms (shrinkRun.foldl (step .reliable) .init).db.1 :=
  (safe_of_reachable ⟨.init, start_init, shrinkRun, rfl⟩).1

end Requests

end RoomRequest

end Matching
end SocketCommunication
