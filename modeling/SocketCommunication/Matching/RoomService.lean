/-
# `RoomServiceImpl`

`service/room_service.cpp`: the checks of a room request, the call of the
repository and the answer.  Every method runs in a `try` block and answers an
exception with its text, so a room request always gets an answer.

`joinRoom_spec` and `exitRoom_spec` relate that answer to what the repository
published; for `createRoom` see `RoomCreation`.
-/

import SocketCommunication.Matching.RoomRepository

namespace SocketCommunication
namespace Matching

open Effect

/-- `{"status": "error", "message": …}`. -/
def errorResponse (message : String) : Json :=
  .obj [("status", .str "error"), ("message", .str message)]

/-- `response["status"] == "success"`. -/
def Json.succeeds (response : Json) : Bool := (response.value "status").eqString "success"

@[simp] theorem succeeds_errorResponse (message : String) :
    (errorResponse message).succeeds = false := rfl

namespace RoomService

/-- The bytes of a room name: letters, digits, spaces, the bytes of Hangul, and a
`$` at the end. -/
def validRoomBytes : List UInt8 → Bool
  | [] => true
  | c :: cs =>
    ((cs.isEmpty && c == 0x24) ||
      (0x41 ≤ c && c ≤ 0x5A) || (0x61 ≤ c && c ≤ 0x7A) || (0x30 ≤ c && c ≤ 0x39) || c == 0x20 ||
      (c &&& 0xF0) == 0xE0 || (c &&& 0xC0) == 0x80) && validRoomBytes cs

def isValidRoomName (name : String) : Bool :=
  let bytes := name.toUTF8.data.toList
  !bytes.isEmpty && bytes.length ≤ 40 && validRoomBytes bytes

section Methods

variable (env : Env)

def createRoom (request : Json) : DbM Json :=
  tryCatch
    (do
      if ¬ (request.contains "roomName" ∧ request.contains "userId" ∧ request.contains "maxPlayers") then
        return errorResponse "방 생성 요청에 필수 필드가 누락되었습니다"
      else
        let roomName ← orThrow (request.value "roomName").getString
        if ¬ isValidRoomName roomName then
          return errorResponse "방 이름은 1-40바이트 길이여야 하며 영어, 한글, 숫자만 포함해야 합니다"
        else if (request.value "maxPlayers").ltInt 2 ∨ (request.value "maxPlayers").gtInt 8 then
          return errorResponse "최대 플레이어 수는 2~8 사이여야 합니다"
        else
          let userId ← orThrow (request.value "userId").getInt
          let maxPlayers ← orThrow (request.value "maxPlayers").getInt
          let result ← RoomRepository.createRoomWithHost env userId roomName maxPlayers
          if (result.value "roomId").eqInt (-1) then
            return errorResponse "방 생성에 실패했습니다"
          else
            return .obj [("action", .str "createRoom"), ("status", .str "success"),
              ("message", .str "방이 성공적으로 생성되었습니다"), ("roomId", result.value "roomId"),
              ("roomName", result.value "roomName"), ("maxPlayers", result.value "maxPlayers"),
              ("ipAddress", result.value "ipAddress"), ("port", result.value "port")])
    fun e => return errorResponse ("방 생성 오류: " ++ e.what)

def joinRoom (request : Json) : DbM Json :=
  tryCatch
    (do
      if ¬ (request.contains "roomId" ∧ request.contains "userId") then
        return errorResponse "방 참가 요청에 필수 필드가 누락되었습니다"
      else
        let roomId ← orThrow (request.value "roomId").getInt
        let userId ← orThrow (request.value "userId").getInt
        let joined ← RoomRepository.addPlayer env roomId userId
        if ¬ joined then
          return errorResponse "방 참가에 실패했습니다 - 방이 가득 찼거나 WAITING 상태가 아닙니다"
        else
          return .obj [("action", .str "joinRoom"), ("roomId", .int roomId), ("status", .str "success"),
            ("message", .str "방에 성공적으로 참가했습니다")])
    fun e => return errorResponse ("방 참가 오류: " ++ e.what)

def exitRoom (request : Json) : DbM Json :=
  tryCatch
    (do
      if ¬ request.contains "userId" then
        return errorResponse "방 퇴장 요청에 userId가 누락되었습니다"
      else
        let userId ← orThrow (request.value "userId").getInt
        let removed ← RoomRepository.removePlayer env userId
        if ¬ removed then return errorResponse "사용자가 어떤 방에도 없습니다"
        else
          return .obj [("action", .str "exitRoom"), ("status", .str "success"),
            ("message", .str "방에서 성공적으로 퇴장했습니다")])
    fun e => return errorResponse ("방 퇴장 오류: " ++ e.what)

/-- The answer of `listRooms` with the rooms counted so far. -/
def roomList (status message : String) (rooms : List Json) : Json :=
  .obj [("action", .str "listRooms"), ("status", .str status), ("message", .str message),
    ("rooms", .arr rooms)]

/-- The loop of `listRooms`; an exception leaves the rooms listed before it. -/
def countPlayers : List Json → List Json → DbM Json
  | [], listed => return roomList "success" "방 목록을 성공적으로 가져왔습니다" listed
  | room :: rooms, listed =>
    tryCatch
      (do
        let roomId ← orThrow (room.value "roomId").getInt
        let players ← RoomRepository.getPlayerCount env roomId
        countPlayers rooms (listed ++ [room.set "currentPlayers" (.int players)]))
      fun e => return roomList "error" ("방 목록 조회 오류: " ++ e.what) listed

def listRooms : DbM Json :=
  tryCatch
    (do
      let rooms ← RoomRepository.findAllOpen env
      countPlayers env rooms [])
    fun e => return errorResponse ("방 목록 조회 오류: " ++ e.what)

end Methods

/-! ### What the answers promise -/

/-- The answer to a user who has joined a room. -/
def joined (roomId : ℤ) : Json :=
  .obj [("action", .str "joinRoom"), ("roomId", .int roomId), ("status", .str "success"),
    ("message", .str "방에 성공적으로 참가했습니다")]

/-- The answer to a user who has left. -/
def exited : Json :=
  .obj [("action", .str "exitRoom"), ("status", .str "success"), ("message", .str "방에서 성공적으로 퇴장했습니다")]

section Spec

open RoomRepository

variable {env : Env} {request : Json} {u : ℤ}

theorem joinRoom_spec (w : World) (hu : (request.value "userId").getInt = .ok u) :
    wp (joinRoom env request)
      (fun j w' =>
        (∃ roomId, (request.value "roomId").getInt = .ok roomId ∧ Joins env w roomId u ∧
          Published w w' (w.db.1.insertRoomUser roomId u (env.now (w.tick + 1))) ∧ j = joined roomId) ∨
        (Unpublished w w' ∧ ∃ message, j = errorResponse message))
      (fun _ _ => False) w := by
  simp only [joinRoom, wp_tryCatch, wp_ite, wp_pure, wp_bind, wp_orThrow, hu, orThrow_ok]
  refine ⟨fun _ => .inr ⟨⟨rfl, rfl⟩, _, rfl⟩, fun _ => ⟨fun roomId hroom => ?_, fun _ _ => .inr ⟨⟨rfl, rfl⟩, _, rfl⟩⟩⟩
  refine wp_mono (fun b w' h => ?_) (fun _ w' h => .inr ⟨h.2, _, rfl⟩) (addPlayer_spec w roomId u)
  cases b with
  | true => exact ⟨fun hn => absurd rfl hn, fun _ => .inl ⟨roomId, hroom, h.1, h.2, rfl⟩⟩
  | false => exact ⟨fun _ => .inr ⟨h.2, _, rfl⟩, fun hn => absurd Bool.false_ne_true hn⟩

theorem exitRoom_spec (w : World) (hu : (request.value "userId").getInt = .ok u) :
    wp (exitRoom env request)
      (fun j w' =>
        (∃ roomId, Leaves env w u roomId ∧ Published w w' (leave w.db.1 u roomId (env.now (w.tick + 1))) ∧ j = exited) ∨
        (Unpublished w w' ∧ ∃ message, j = errorResponse message))
      (fun _ _ => False) w := by
  simp only [exitRoom, wp_tryCatch, wp_ite, wp_pure, wp_bind, hu, orThrow_ok]
  refine ⟨fun _ => .inr ⟨⟨rfl, rfl⟩, _, rfl⟩, fun _ => ?_⟩
  refine wp_mono (fun b w' h => ?_) (fun _ w' h => .inr ⟨h.2, _, rfl⟩) (removePlayer_spec w u)
  cases b with
  | true =>
    obtain ⟨roomId, hleaves, hp⟩ := h
    exact ⟨fun hn => absurd rfl hn, fun _ => .inl ⟨roomId, hleaves, hp, rfl⟩⟩
  | false => exact ⟨fun _ => .inr ⟨h.2, _, rfl⟩, fun hn => absurd Bool.false_ne_true hn⟩

end Spec

end RoomService

end Matching
end SocketCommunication
