/-
# The handlers of a session

The methods of `core/session.cpp`.  `readHandshake` and `readMessage` are the
completion handlers of the two reads; `handleError` ends a session; the
destructor is `destroy`.

The duplicate-address branch of the handshake does not return: the handshake goes
on after `handle_error`.  `user_id_` is written in three places: the constructor,
the handshake of a mirror, and `initCurrentUser`.
-/

import SocketCommunication.Matching.Server

namespace SocketCommunication
namespace Matching

open Effect

namespace Session

open Server

/-- A session as the constructor leaves it; `mirror_port_` is not initialised. -/
def make (remoteIp : String) (mirrorPort : ℤ) (now : ℕ) : Session where
  isOpen := true
  userId := 0
  userName := ""
  nickName := ""
  status := ""
  lastActivity := now
  token := ""
  isMirror := false
  mirrorPort := mirrorPort
  remoteIp := remoteIp
  pending := [⟨.readHandshake, true⟩]

def isActive (sess : Session) (now timeout : ℕ) : Bool :=
  (now - sess.lastActivity) / 10 ^ 9 < timeout

/-- `write_response`. -/
def writeResponse (sid : ℕ) (response : Json) : ServerM Unit :=
  modify (start sid (.writeResponse response))

/-- `write_response(response.dump())` at the end of a request. -/
def answer (sid : ℕ) (action : String) (response : Json) : ServerM Unit := do
  modify fun s => { s with trace := .answered sid action response :: s.trace }
  writeResponse sid response

section Methods

variable (env : Env)

/-- The request that `handle_error` makes. -/
def exitRequest (userId : ℤ) : Json :=
  .obj [("action", .str "exitRoom"), ("userId", .int userId)]

def handleError (sid : ℕ) : ServerM Unit := do
  let sess ← this sid
  tryCatch
    (onlyIf (0 < sess.userId) do
      let _ ← call env sid .room (exitRequest sess.userId)
      return ())
    fun _ => return ()
  modify (modifySession sid fun sess => { sess with isOpen := false })

def initCurrentUser (sid : ℕ) (response : Json) : ServerM Unit := do
  onlyIf (response.contains "userId") do
    let userId ← orThrow (response.value "userId").getInt
    modify (modifySession sid fun sess => { sess with userId })
  onlyIf (response.contains "userName") do
    let userName ← orThrow (response.value "userName").getString
    modify (modifySession sid fun sess => { sess with userName })
  onlyIf (response.contains "nickName") do
    let nickName ← orThrow (response.value "nickName").getString
    modify (modifySession sid fun sess => { sess with nickName })
  modify (modifySession sid fun sess => { sess with status := "대기중" })

def handlePing (sid : ℕ) : ServerM Unit := do
  modify fun s => modifySession sid (fun sess => { sess with lastActivity := s.clock }) s
  let sess ← this sid
  writeResponse sid (.obj [("action", .str "refreshSession"), ("status", .str "success"),
    ("message", .str "pong"), ("sessionToken", .str sess.token)])

/-- The branch of a login that the service granted. -/
def login (sid : ℕ) (action : String) (response : Json) : ServerM Unit := do
  let userId ← orThrow (response.value "userId").getInt
  let already ← checkAlreadyLogin userId
  if already then writeResponse sid (errorResponse "이미 로그인된 사용자입니다")
  else
    initCurrentUser sid response
    let token ← registerSession env sid
    modify (modifySession sid fun sess => { sess with token })
    answer sid action (response.set "sessionToken" (.str token))

/-- The message to the mirror of a new room; `false` when there is no mirror and
the client has been told so. -/
def notifyMirror (sid : ℕ) (response : Json) : ServerM Bool :=
  tryCatch
    (do
      let port ← orThrow (response.value "port").getInt
      let mirror ← getMirrorSession port
      match mirror with
      | none =>
        writeResponse sid (errorResponse "미러 서버가 없습니다")
        return false
      | some mirror =>
        let roomId ← orThrow (response.value "roomId").getInt
        modify (modifySession sid fun sess => { sess with status := toString roomId ++ "번 방" })
        modify (start mirror (.writeMirror (.obj [("action", .str "setRoom"),
          ("roomId", response.value "roomId"), ("roomName", response.value "roomName"),
          ("maxPlayers", response.value "maxPlayers")])))
        return true)
    fun _ => return true

/-- What `process_request` does with the answer of a controller. -/
def respond (sid : ℕ) (action : String) (response : Json) : ServerM Unit := do
  if (action = "login" ∨ action = "SSAFYlogin") ∧ response.succeeds then login env sid action response
  else if action = "createRoom" ∧ response.succeeds then
    let notified ← notifyMirror sid response
    onlyIf notified (answer sid action response)
  else if action = "joinRoom" ∧ response.succeeds then
    let roomId ← orThrow (response.value "roomId").getInt
    modify (modifySession sid fun sess => { sess with status := toString roomId ++ "번 방" })
    answer sid action response
  else if action = "exitRoom" ∧ response.succeeds then
    modify (modifySession sid fun sess => { sess with status := "대기중" })
    answer sid action response
  else if action = "gameStart" ∧ response.succeeds then
    setSessionStatus response true
    answer sid action response
  else if action = "gameEnd" ∧ response.succeeds then
    setSessionStatus response false
    answer sid action response
  else if action = "updateNickName" ∧ response.succeeds then
    let nickName ← orThrow (response.value "nickName").getString
    modify (modifySession sid fun sess => { sess with nickName })
    answer sid action response
  else answer sid action response

/-- A request with the `userId` of the session. -/
def withUser (sess : Session) (request : Json) : Json := request.set "userId" (.int sess.userId)

/-- The body of `process_request`, once the action is known. -/
def dispatch (sid : ℕ) (action : String) (request : Json) : ServerM Unit := do
  let sess ← this sid
  if action = "register" ∨ action = "login" ∨ action = "SSAFYlogin" ∨ action = "updateNickName" then
    let request := if sess.userId ≠ 0 then withUser sess request else request
    let response ← call env sid .auth request
    respond env sid action response
  else if action = "createRoom" ∨ action = "joinRoom" ∨ action = "exitRoom" ∨ action = "listRooms" then
    if sess.userId = 0 then writeResponse sid (errorResponse "인증이 필요합니다")
    else
      let response ← call env sid .room (withUser sess request)
      respond env sid action response
  else if action = "gameStart" ∨ action = "gameEnd" then
    if sess.userId = 0 ∨ ¬ sess.isMirror then writeResponse sid (errorResponse "권한이 없습니다.")
    else
      let response ← call env sid .game (withUser sess request)
      respond env sid action response
  else if action = "alivePing" then handlePing sid
  else if action = "logout" then handleError env sid
  else if action = "roomCapacity" then
    let roomCapacity ← getRoomCapacity
    writeResponse sid (.obj [("action", .str "roomCapacity"), ("status", .str "success"),
      ("roomCapacity", .int roomCapacity)])
  else if action = "CCU" then
    let ccu ← getCCU
    writeResponse sid (.obj [("action", .str "CCU"), ("status", .str "success"),
      ("roomCapacity", .int ccu)])
  else writeResponse sid (errorResponse "알 수 없는 액션")

/-- `process_request`.  Its `catch` block reads the action once more, and throws
again when that is not a string. -/
def processRequest (sid : ℕ) (request : Json) : ServerM Unit :=
  tryCatch
    (do
      let (action, request) ← orThrow (request.index "action")
      let action ← orThrow action.getString
      dispatch env sid action request)
    fun _ => do
      match request.index "action" with
      | .ok (action, _) =>
        let _ ← orThrow action.getString
        writeResponse sid (errorResponse "잘못된 요청 형식")
      | .error _ => writeResponse sid (errorResponse "잘못된 요청 형식")

/-- `Session::initialize`. -/
def initSession (sid : ℕ) : ServerM Unit := do
  let token ← registerSession env sid
  modify (modifySession sid fun sess => { sess with token })

/-- The handshake of a mirror server. -/
def mirrorHandshake (sid : ℕ) (handshake : Json) : ServerM Unit := do
  modify (modifySession sid fun sess => { sess with isMirror := true })
  let port ← orThrow (handshake.value "port").getInt
  modify (modifySession sid fun sess => { sess with mirrorPort := port })
  registerMirrorSession env sid port
  modify (modifySession sid fun sess => { sess with userId := port })
  modify (start sid (.writeHandshake (.obj [("status", .str "success"),
    ("message", .str "미러 서버가 연결되었습니다")])))

/-- The check for a second client on one address. -/
def checkAddress (sid : ℕ) : ServerM Unit := do
  let sess ← this sid
  let allowed ← allowConnection sess.remoteIp
  onlyIf (¬ allowed) do
    modify (start sid (.writeHandshake (errorResponse "이미 접속 중인 IP입니다.")))
    handleError env sid

/-- The handshake of a client. -/
def clientHandshake (sid : ℕ) (handshake : Json) : ServerM Unit := do
  checkAddress env sid
  let s ← get
  if ¬ handshake.contains "version" then handleError env sid
  else
    let version ← orThrow (handshake.value "version").getString
    if s.version ≠ version then handleError env sid
    else
      initSession env sid
      if handshake.contains "action" then processRequest env sid handshake
      else
        modify (start sid (.writeHandshake (.obj [("status", .str "success"),
          ("message", .str "서버에 연결되었습니다")])))

/-- A first message that asks for the handshake of a mirror. -/
def asksMirror (handshake : Json) : Bool :=
  handshake.contains "connectionType" && (handshake.value "connectionType").eqString "mirror" &&
    handshake.contains "port"

/-- The handler of the first read; `none` is data that is not JSON. -/
def readHandshake (sid : ℕ) (data : Option Json) : ServerM Unit :=
  tryCatch
    (match data with
    | none => throw ⟨"parse error"⟩
    | some handshake =>
      if asksMirror handshake then mirrorHandshake env sid handshake
      else clientHandshake env sid handshake)
    fun _ => handleError env sid

/-- The handler of the other reads. -/
def readMessage (sid : ℕ) (data : Option Json) : ServerM Unit :=
  tryCatch
    (match data with
    | none => throw ⟨"parse error"⟩
    | some request => processRequest env sid request)
    fun _ => writeResponse sid (errorResponse "잘못된 요청 형식")

/-- How an operation completes; a read comes with its data. -/
inductive Completion where
  | ok (data : Option Json)
  | error

/-- The completion handler of an operation. -/
def complete (sid : ℕ) : Op → Completion → ServerM Unit
  | _, .error => handleError env sid
  | .readHandshake, .ok data => readHandshake env sid data
  | .readMessage, .ok data => readMessage env sid data
  | .writeHandshake _, .ok _ => modify (start sid .readMessage)
  | .writeResponse _, .ok _ => modify (start sid .readMessage)
  | .writeMirror _, .ok _ => modify (start sid .readMessage)
  | .writeBroadcast _, .ok _ => return ()

end Methods

/-- `~Session`. -/
def destroy (sid : ℕ) (sess : Session) (s : Server) : Server :=
  let s := { s with heap := s.heap.erase sid }
  let s := if sess.isMirror then removeMirrorSession sess.mirrorPort s else s
  let s := if sess.token ≠ "" then removeSession sess.token sess.userId s else s
  if sess.remoteIp ≠ "" then removeConnection sess.remoteIp s else s

end Session

end Matching
end SocketCommunication
