/-
# The database of the matching server

The tables of `db-init.sql`, their constraints, and the statements that the
repositories run on them.

`Tables.Valid` is the schema: primary keys, `UNIQUE` columns, foreign keys and
the lengths of the `VARCHAR` columns.  The two `CHECK` constraints are the types
`RoomStatus` and `GameStatus`.  `Db` is a database state that the schema admits:
a statement that would leave it raises an error instead.
-/

import SocketCommunication.Lib.Rows
import SocketCommunication.Lib.Utf8
import Mathlib.Algebra.Group.Int.Defs
import Mathlib.Data.Int.Notation

namespace SocketCommunication
namespace Matching

/-- `users`.  An instant is a number of microseconds. -/
structure UserRow where
  userId : ℤ
  userName : String
  nickName : Option String
  passwordHash : String
  createdAt : Option ℕ
  lastLogin : Option ℕ
  deriving DecidableEq

/-- `maps`. -/
structure MapRow where
  mapId : ℤ
  mapName : String
  deriving DecidableEq

/-- `CHECK (status IN ('WAITING', 'GAME_IN_PROGRESS', 'TERMINATED'))`. -/
inductive RoomStatus where
  | waiting
  | gameInProgress
  | terminated
  deriving DecidableEq

def RoomStatus.text : RoomStatus → String
  | waiting => "WAITING"
  | gameInProgress => "GAME_IN_PROGRESS"
  | terminated => "TERMINATED"

theorem RoomStatus.text_eq_waiting {s : RoomStatus} : s.text = "WAITING" ↔ s = .waiting := by
  cases s <;> decide

/-- `rooms`. -/
structure RoomRow where
  roomId : ℤ
  roomName : String
  hostId : ℤ
  ipAddress : Option String
  port : Option ℤ
  maxPlayers : ℤ
  status : RoomStatus
  createdAt : Option ℕ
  deriving DecidableEq

/-- `room_users`. -/
structure RoomUserRow where
  roomId : ℤ
  userId : ℤ
  joinedAt : Option ℕ
  deriving DecidableEq

/-- `CHECK (status IN ('IN_PROGRESS', 'COMPLETED'))`. -/
inductive GameStatus where
  | inProgress
  | completed
  deriving DecidableEq

/-- `games`. -/
structure GameRow where
  gameId : ℤ
  roomId : ℤ
  mapId : ℤ
  status : GameStatus
  startedAt : Option ℕ
  completedAt : Option ℕ
  deriving DecidableEq

structure Tables where
  users : List UserRow
  maps : List MapRow
  rooms : List RoomRow
  roomUsers : List RoomUserRow
  games : List GameRow
  deriving DecidableEq

namespace Tables

/-- The number of characters of a text: its bytes that do not continue one. -/
def charLength (s : String) : ℕ := s.toUTF8.data.toList.countP fun b => b &&& 0xC0 != 0x80

theorem charLength_eq (s : String) : charLength s = s.length := by
  rw [← Utf8.countP_eq_length, charLength]
  refine List.countP_congr fun b _ => ?_
  rw [decide_eq_true_iff, Utf8.tail_iff, bne_iff_ne]

/-- The constraints of `db-init.sql`; of the ranges of `INTEGER` columns, that of
the key that sessions carry. -/
structure Valid (t : Tables) : Prop where
  users_int4 : ∀ u ∈ t.users, -(2 ^ 31) ≤ u.userId ∧ u.userId < 2 ^ 31
  users_pkey : (t.users.map (·.userId)).Nodup
  users_userName_key : (t.users.map (·.userName)).Nodup
  users_varchar : ∀ u ∈ t.users, charLength u.userName ≤ 50 ∧
    u.nickName.all (charLength · ≤ 16) ∧ charLength u.passwordHash ≤ 255
  maps_pkey : (t.maps.map (·.mapId)).Nodup
  maps_mapName_key : (t.maps.map (·.mapName)).Nodup
  maps_varchar : ∀ m ∈ t.maps, charLength m.mapName ≤ 50
  rooms_pkey : (t.rooms.map (·.roomId)).Nodup
  rooms_hostId_fkey : ∀ r ∈ t.rooms, r.hostId ∈ t.users.map (·.userId)
  rooms_varchar : ∀ r ∈ t.rooms, charLength r.roomName ≤ 100 ∧ r.ipAddress.all (charLength · ≤ 45)
  roomUsers_pkey : (t.roomUsers.map fun r => (r.roomId, r.userId)).Nodup
  roomUsers_roomId_fkey : ∀ r ∈ t.roomUsers, r.roomId ∈ t.rooms.map (·.roomId)
  roomUsers_userId_fkey : ∀ r ∈ t.roomUsers, r.userId ∈ t.users.map (·.userId)
  games_pkey : (t.games.map (·.gameId)).Nodup
  games_roomId_fkey : ∀ g ∈ t.games, g.roomId ∈ t.rooms.map (·.roomId)
  games_mapId_fkey : ∀ g ∈ t.games, g.mapId ∈ t.maps.map (·.mapId)

instance (t : Tables) : Decidable t.Valid :=
  decidable_of_iff
    (((∀ u ∈ t.users, -(2 ^ 31) ≤ u.userId ∧ u.userId < 2 ^ 31) ∧ (t.users.map (·.userId)).Nodup ∧ (t.users.map (·.userName)).Nodup ∧
      (∀ u ∈ t.users, charLength u.userName ≤ 50 ∧
        u.nickName.all (charLength · ≤ 16) ∧ charLength u.passwordHash ≤ 255)) ∧
    ((t.maps.map (·.mapId)).Nodup ∧ (t.maps.map (·.mapName)).Nodup ∧
      ∀ m ∈ t.maps, charLength m.mapName ≤ 50) ∧
    ((t.rooms.map (·.roomId)).Nodup ∧ (∀ r ∈ t.rooms, r.hostId ∈ t.users.map (·.userId)) ∧
      ∀ r ∈ t.rooms, charLength r.roomName ≤ 100 ∧ r.ipAddress.all (charLength · ≤ 45)) ∧
    ((t.roomUsers.map fun r => (r.roomId, r.userId)).Nodup ∧
      (∀ r ∈ t.roomUsers, r.roomId ∈ t.rooms.map (·.roomId)) ∧
      ∀ r ∈ t.roomUsers, r.userId ∈ t.users.map (·.userId)) ∧
    ((t.games.map (·.gameId)).Nodup ∧ (∀ g ∈ t.games, g.roomId ∈ t.rooms.map (·.roomId)) ∧
      ∀ g ∈ t.games, g.mapId ∈ t.maps.map (·.mapId)))
    ⟨fun ⟨⟨u₀, u₁, u₂, u₃⟩, ⟨m₁, m₂, m₃⟩, ⟨r₁, r₂, r₃⟩, ⟨p₁, p₂, p₃⟩, g₁, g₂, g₃⟩ =>
      ⟨u₀, u₁, u₂, u₃, m₁, m₂, m₃, r₁, r₂, r₃, p₁, p₂, p₃, g₁, g₂, g₃⟩,
    fun ⟨u₀, u₁, u₂, u₃, m₁, m₂, m₃, r₁, r₂, r₃, p₁, p₂, p₃, g₁, g₂, g₃⟩ =>
      ⟨⟨u₀, u₁, u₂, u₃⟩, ⟨m₁, m₂, m₃⟩, ⟨r₁, r₂, r₃⟩, ⟨p₁, p₂, p₃⟩, g₁, g₂, g₃⟩⟩

/-- What is stored of a text in a `VARCHAR(n)` column: spaces past the length
are cut, any other longer text stays too long. -/
def varchar (n : ℕ) (s : String) : String :=
  if (s.toList.drop n).all (· == ' ') then String.ofList (s.toList.take n) else s

/-! ### The statements that write -/

/-- `UPDATE rooms SET status = … WHERE room_id = …`. -/
def setRoomStatus (t : Tables) (roomId : ℤ) (status : RoomStatus) : Tables :=
  { t with rooms := Rows.update (fun r => r.roomId = roomId) (fun r => { r with status }) t.rooms }

/-- `UPDATE rooms SET room_name = …, host_id = …, max_players = …,
status = 'WAITING', created_at = DEFAULT WHERE room_id = … AND status = 'TERMINATED'`. -/
def reopenRoom (t : Tables) (roomId : ℤ) (roomName : String) (hostId maxPlayers : ℤ) (now : ℕ) :
    Tables :=
  { t with
    rooms := Rows.update (fun r => r.roomId = roomId ∧ r.status = .terminated)
      (fun r => { r with
        roomName := varchar 100 roomName, hostId, maxPlayers,
        status := .waiting, createdAt := some now }) t.rooms }

/-- `INSERT INTO room_users`. -/
def insertRoomUser (t : Tables) (roomId userId : ℤ) (now : ℕ) : Tables :=
  { t with roomUsers := t.roomUsers ++ [⟨roomId, userId, some now⟩] }

/-- `DELETE FROM room_users WHERE user_id = …`. -/
def deleteRoomUsers (t : Tables) (userId : ℤ) : Tables :=
  { t with roomUsers := Rows.delete (fun r => r.userId = userId) t.roomUsers }

/-- `INSERT INTO games (room_id, map_id)`. -/
def insertGame (t : Tables) (gameId roomId mapId : ℤ) (now : ℕ) : Tables :=
  { t with games := t.games ++ [⟨gameId, roomId, mapId, .inProgress, some now, none⟩] }

/-- `UPDATE games SET status = 'COMPLETED', completed_at = … WHERE game_id = …`. -/
def finishGame (t : Tables) (gameId : ℤ) (now : ℕ) : Tables :=
  { t with
    games := Rows.update (fun g => g.gameId = gameId)
      (fun g => { g with status := .completed, completedAt := some now }) t.games }

/-- `UPDATE games SET status = 'COMPLETED', completed_at = …
WHERE status = 'IN_PROGRESS' AND room_id = …`. -/
def completeGames (t : Tables) (roomId : ℤ) (now : ℕ) : Tables :=
  { t with
    games := Rows.update (fun g => g.status = .inProgress ∧ g.roomId = roomId)
      (fun g => { g with status := .completed, completedAt := some now }) t.games }

/-- `INSERT INTO users (user_name, password_hash)`; the other columns take
their defaults. -/
def insertUser (t : Tables) (userId : ℤ) (userName passwordHash nickName : String) (now : ℕ) :
    Tables :=
  { t with
    users := t.users ++ [⟨userId, varchar 50 userName, some (varchar 16 nickName),
      varchar 255 passwordHash, some now, some now⟩] }

/-- `UPDATE users SET last_login = … WHERE user_id = …`. -/
def setLastLogin (t : Tables) (userId : ℤ) (now : ℕ) : Tables :=
  { t with
    users := Rows.update (fun u => u.userId = userId) (fun u => { u with lastLogin := some now })
      t.users }

/-- `UPDATE users SET nick_name = … WHERE user_id = …`. -/
def setNickName (t : Tables) (userId : ℤ) (nickName : String) : Tables :=
  { t with
    users := Rows.update (fun u => u.userId = userId)
      (fun u => { u with nickName := some (varchar 16 nickName) }) t.users }

/-! ### When a statement keeps the constraints -/

theorem map_roomId_setRoomStatus (t : Tables) (roomId : ℤ) (status : RoomStatus) :
    (t.setRoomStatus roomId status).rooms.map (·.roomId) = t.rooms.map (·.roomId) :=
  Rows.map_update fun _ _ => rfl

theorem map_roomId_reopenRoom (t : Tables) (roomId : ℤ) (roomName : String) (hostId maxPlayers : ℤ)
    (now : ℕ) : (t.reopenRoom roomId roomName hostId maxPlayers now).rooms.map (·.roomId) =
      t.rooms.map (·.roomId) :=
  Rows.map_update fun _ _ => rfl

theorem Valid.setRoomStatus {t : Tables} (h : t.Valid) (roomId : ℤ) (status : RoomStatus) :
    (t.setRoomStatus roomId status).Valid := by
  have hid := t.map_roomId_setRoomStatus roomId status
  exact { h with
    rooms_pkey := hid ▸ h.rooms_pkey
    rooms_hostId_fkey := Rows.forall_mem_update h.rooms_hostId_fkey fun r hr _ => h.rooms_hostId_fkey r hr
    rooms_varchar := Rows.forall_mem_update h.rooms_varchar fun r hr _ => h.rooms_varchar r hr
    roomUsers_roomId_fkey := fun r hr => hid ▸ h.roomUsers_roomId_fkey r hr
    games_roomId_fkey := fun g hg => hid ▸ h.games_roomId_fkey g hg }

theorem Valid.deleteRoomUsers {t : Tables} (h : t.Valid) (userId : ℤ) :
    (t.deleteRoomUsers userId).Valid :=
  { h with
    roomUsers_pkey := Rows.nodup_map_delete h.roomUsers_pkey
    roomUsers_roomId_fkey := fun r hr => h.roomUsers_roomId_fkey r (Rows.mem_delete.1 hr).1
    roomUsers_userId_fkey := fun r hr => h.roomUsers_userId_fkey r (Rows.mem_delete.1 hr).1 }

theorem Valid.finishGame {t : Tables} (h : t.Valid) (gameId : ℤ) (now : ℕ) :
    (t.finishGame gameId now).Valid :=
  { h with
    games_pkey := (Rows.map_update fun _ _ => rfl : (t.finishGame gameId now).games.map (·.gameId) =
      t.games.map (·.gameId)) ▸ h.games_pkey
    games_roomId_fkey := Rows.forall_mem_update h.games_roomId_fkey fun g hg _ => h.games_roomId_fkey g hg
    games_mapId_fkey := Rows.forall_mem_update h.games_mapId_fkey fun g hg _ => h.games_mapId_fkey g hg }

theorem Valid.completeGames {t : Tables} (h : t.Valid) (roomId : ℤ) (now : ℕ) :
    (t.completeGames roomId now).Valid :=
  { h with
    games_pkey := (Rows.map_update fun _ _ => rfl : (t.completeGames roomId now).games.map (·.gameId) =
      t.games.map (·.gameId)) ▸ h.games_pkey
    games_roomId_fkey := Rows.forall_mem_update h.games_roomId_fkey fun g hg _ => h.games_roomId_fkey g hg
    games_mapId_fkey := Rows.forall_mem_update h.games_mapId_fkey fun g hg _ => h.games_mapId_fkey g hg }

/-- A change of columns that nothing refers to keeps the accounts. -/
theorem Valid.updateUsers {t : Tables} (h : t.Valid) {p : UserRow → Prop} [DecidablePred p] {f : UserRow → UserRow}
    (hkey : ∀ u, (f u).userId = u.userId ∧ (f u).userName = u.userName ∧ (f u).passwordHash = u.passwordHash)
    (hfits : ∀ u ∈ t.users, (f u).nickName.all (charLength · ≤ 16)) :
    Valid { t with users := Rows.update p f t.users } := by
  have hid : (Rows.update p f t.users).map (·.userId) = t.users.map (·.userId) := Rows.map_update fun u _ => (hkey u).1
  have hname : (Rows.update p f t.users).map (·.userName) = t.users.map (·.userName) :=
    Rows.map_update fun u _ => (hkey u).2.1
  exact { h with
    users_int4 := Rows.forall_mem_update h.users_int4 fun u hu _ => (hkey u).1 ▸ h.users_int4 u hu
    users_pkey := hid ▸ h.users_pkey
    users_userName_key := hname ▸ h.users_userName_key
    users_varchar := Rows.forall_mem_update h.users_varchar fun u hu _ =>
      ⟨(hkey u).2.1 ▸ (h.users_varchar u hu).1, hfits u hu, (hkey u).2.2 ▸ (h.users_varchar u hu).2.2⟩
    rooms_hostId_fkey := fun r hr => hid ▸ h.rooms_hostId_fkey r hr
    roomUsers_userId_fkey := fun r hr => hid ▸ h.roomUsers_userId_fkey r hr }

theorem Valid.setLastLogin {t : Tables} (h : t.Valid) (userId : ℤ) (now : ℕ) : (t.setLastLogin userId now).Valid :=
  h.updateUsers (fun _ => ⟨rfl, rfl, rfl⟩) fun u hu => (h.users_varchar u hu).2.1

/-- A nickname can be given that the column takes. -/
theorem Valid.setNickName {t : Tables} (h : t.Valid) (userId : ℤ) {nickName : String}
    (hfits : charLength (varchar 16 nickName) ≤ 16) : (t.setNickName userId nickName).Valid :=
  h.updateUsers (fun _ => ⟨rfl, rfl, rfl⟩) fun _ _ => by simpa using hfits

/-- A free room can be given to an existing user under a name that fits. -/
theorem valid_reopenRoom {t : Tables} (h : t.Valid) {roomId : ℤ}
    (hroom : ∃ r ∈ t.rooms, r.roomId = roomId ∧ r.status = .terminated) (roomName : String)
    (hostId maxPlayers : ℤ) (now : ℕ) :
    (t.reopenRoom roomId roomName hostId maxPlayers now).Valid ↔
      hostId ∈ t.users.map (·.userId) ∧ charLength (varchar 100 roomName) ≤ 100 := by
  have hid := t.map_roomId_reopenRoom roomId roomName hostId maxPlayers now
  obtain ⟨r, hr, hrp⟩ := hroom
  constructor
  · intro h'
    have hmem : _ ∈ (t.reopenRoom roomId roomName hostId maxPlayers now).rooms :=
      Rows.mem_update.2 ⟨r, hr, if_pos hrp⟩
    exact ⟨h'.rooms_hostId_fkey _ hmem, (h'.rooms_varchar _ hmem).1⟩
  · rintro ⟨hhost, hname⟩
    exact { h with
      rooms_pkey := hid ▸ h.rooms_pkey
      rooms_hostId_fkey := Rows.forall_mem_update h.rooms_hostId_fkey fun _ _ _ => hhost
      rooms_varchar := Rows.forall_mem_update h.rooms_varchar fun q hq _ =>
        ⟨hname, (h.rooms_varchar q hq).2⟩
      roomUsers_roomId_fkey := fun q hq => hid ▸ h.roomUsers_roomId_fkey q hq
      games_roomId_fkey := fun g hg => hid ▸ h.games_roomId_fkey g hg }

/-- A member can be added when room and user exist and the pair is new. -/
theorem valid_insertRoomUser {t : Tables} (h : t.Valid) (roomId userId : ℤ) (now : ℕ) :
    (t.insertRoomUser roomId userId now).Valid ↔
      (∀ r ∈ t.roomUsers, r.roomId = roomId → r.userId ≠ userId) ∧
        roomId ∈ t.rooms.map (·.roomId) ∧ userId ∈ t.users.map (·.userId) := by
  have hkey : ((roomId, userId) ∉ t.roomUsers.map fun r => (r.roomId, r.userId)) ↔
      ∀ r ∈ t.roomUsers, r.roomId = roomId → r.userId ≠ userId := by
    simp only [List.mem_map, Prod.mk.injEq, not_exists, not_and]
  constructor
  · intro h'
    refine ⟨hkey.1 (Rows.nodup_map_append_singleton.1 h'.roomUsers_pkey).2, ?_, ?_⟩
    · exact h'.roomUsers_roomId_fkey _ (List.mem_append_right _ (List.mem_singleton.2 rfl))
    · exact h'.roomUsers_userId_fkey _ (List.mem_append_right _ (List.mem_singleton.2 rfl))
  · rintro ⟨hnew, hroom, huser⟩
    exact { h with
      roomUsers_pkey := Rows.nodup_map_append_singleton.2 ⟨h.roomUsers_pkey, hkey.2 hnew⟩
      roomUsers_roomId_fkey := List.forall_mem_append.2
        ⟨h.roomUsers_roomId_fkey, fun _ hr => List.mem_singleton.1 hr ▸ hroom⟩
      roomUsers_userId_fkey := List.forall_mem_append.2
        ⟨h.roomUsers_userId_fkey, fun _ hr => List.mem_singleton.1 hr ▸ huser⟩ }

/-- A game can be added when room and map exist and the number is new. -/
theorem valid_insertGame {t : Tables} (h : t.Valid) (gameId roomId mapId : ℤ) (now : ℕ) :
    (t.insertGame gameId roomId mapId now).Valid ↔
      gameId ∉ t.games.map (·.gameId) ∧
        roomId ∈ t.rooms.map (·.roomId) ∧ mapId ∈ t.maps.map (·.mapId) := by
  constructor
  · intro h'
    refine ⟨(Rows.nodup_map_append_singleton.1 h'.games_pkey).2, ?_, ?_⟩
    · exact h'.games_roomId_fkey _ (List.mem_append_right _ (List.mem_singleton.2 rfl))
    · exact h'.games_mapId_fkey _ (List.mem_append_right _ (List.mem_singleton.2 rfl))
  · rintro ⟨hnew, hroom, hmap⟩
    exact { h with
      games_pkey := Rows.nodup_map_append_singleton.2 ⟨h.games_pkey, hnew⟩
      games_roomId_fkey := List.forall_mem_append.2
        ⟨h.games_roomId_fkey, fun _ hg => List.mem_singleton.1 hg ▸ hroom⟩
      games_mapId_fkey := List.forall_mem_append.2
        ⟨h.games_mapId_fkey, fun _ hg => List.mem_singleton.1 hg ▸ hmap⟩ }

end Tables

/-- A database state that the schema admits. -/
abbrev Db := { t : Tables // t.Valid }

/-! ### The database that `db-init.sql` builds -/

namespace Tables

/-- An account of `db-init.sql`. -/
def initUser (userId : ℤ) (userName nickName passwordHash : String) : UserRow :=
  ⟨userId, userName, some nickName, passwordHash, some 0, some 0⟩

/-- The `i`-th of the pool of rooms. -/
def initRoom (i : ℕ) : RoomRow :=
  ⟨i + 1, "room" ++ toString i, 0, some "127.0.0.1", some (40000 + i), 8, .terminated, some 0⟩

def init : Tables where
  users :=
    [initUser 0 "Mirror" "Manager" "Mirror",
      initUser 1 "rnqhscjf3333" "[GM]구본관"
        "8c6976e5b5410415bde908bd4dee15dfb167a9c873fc4bb8a81f6f2ab448a918",
      initUser 2 "superAdmin1234" "😋G김성일M😋"
        "8c6976e5b5410415bde908bd4dee15dfb167a9c873fc4bb8a81f6f2ab448a918",
      initUser 3 "thswjdcks2480" "😎타락파워정찬😎"
        "8c6976e5b5410415bde908bd4dee15dfb167a9c873fc4bb8a81f6f2ab448a918",
      initUser 4 "zzzz955" "😍산혁😍"
        "8c6976e5b5410415bde908bd4dee15dfb167a9c873fc4bb8a81f6f2ab448a918",
      initUser 5 "loge5490" "[GM]2^e"
        "8c6976e5b5410415bde908bd4dee15dfb167a9c873fc4bb8a81f6f2ab448a918",
      initUser 6 "te04072" "[GM]쌀숭이"
        "8c6976e5b5410415bde908bd4dee15dfb167a9c873fc4bb8a81f6f2ab448a918",
      initUser 7 "consultant" "컨설턴트님짱😍"
        "a515519adc491e150ad0cfd8529f17748677812b026d07f35cc90b94acd0421a"]
  maps := [⟨1, "SSAFY"⟩, ⟨2, "Magma"⟩, ⟨3, "Space"⟩]
  rooms := (List.range 10).map initRoom
  roomUsers := []
  games := []

theorem valid_init : init.Valid := by decide +kernel

end Tables

end Matching
end SocketCommunication
