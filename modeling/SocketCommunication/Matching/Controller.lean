/-
# The controllers

`controller/*.cpp`: each takes a request to the service method of its `action`.
-/

import SocketCommunication.Matching.AuthService
import SocketCommunication.Matching.GameService

namespace SocketCommunication
namespace Matching

open Effect

/-- The keys of `controllers_`. -/
inductive ControllerType where
  | auth
  | room
  | game
  deriving DecidableEq

namespace Controller

variable (env : Env)

def auth (request : Json) : DbM Json := do
  let action ← orThrow (request.index "action")
  let action ← orThrow action.1.getString
  if action = "register" then AuthService.registerUser env request
  else if action = "login" then AuthService.loginUser env request
  else if action = "SSAFYlogin" then AuthService.registerCheckAndLogin env request
  else if action = "updateNickName" then AuthService.updateNickName env request
  else return errorResponse "알 수 없는 인증 액션"

def room (request : Json) : DbM Json := do
  let action ← orThrow (request.index "action")
  let action ← orThrow action.1.getString
  if action = "createRoom" then RoomService.createRoom env request
  else if action = "joinRoom" then RoomService.joinRoom env request
  else if action = "exitRoom" then RoomService.exitRoom env request
  else if action = "listRooms" then RoomService.listRooms env
  else return errorResponse "알 수 없는 방 액션"

def game (request : Json) : DbM Json := do
  let action ← orThrow (request.index "action")
  let action ← orThrow action.1.getString
  if action = "gameStart" then GameService.startGame env request
  else if action = "gameEnd" then GameService.endGame env request
  else return errorResponse "알 수 없는 게임 액션"

/-- `handleRequest` of the controller of a type. -/
def handleRequest : ControllerType → Json → DbM Json
  | .auth => auth env
  | .room => room env
  | .game => game env

variable {env}

/-- The room controller, once the action is known. -/
theorem room_of_action {action : String} {request : Json} (h : request.value "action" = .str action) :
    handleRequest env .room request =
      if action = "createRoom" then RoomService.createRoom env request
      else if action = "joinRoom" then RoomService.joinRoom env request
      else if action = "exitRoom" then RoomService.exitRoom env request
      else if action = "listRooms" then RoomService.listRooms env
      else return errorResponse "알 수 없는 방 액션" := by
  simp only [handleRequest, room, Json.index_of_value h, orThrow_ok, Json.getString, pure_bind]

theorem room_createRoom {request : Json} (h : request.value "action" = .str "createRoom") :
    handleRequest env .room request = RoomService.createRoom env request :=
  (room_of_action h).trans (if_pos rfl)

end Controller

end Matching
end SocketCommunication
