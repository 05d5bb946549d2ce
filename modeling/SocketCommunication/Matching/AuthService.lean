/-
# `AuthServiceImpl`

`service/auth_service.cpp` and `util/password_util.cpp`.  No method has a `try`
block: a field of the wrong type, or a database without connections, is an
exception that reaches the session.

`registerCheckAndLogin` (`SSAFYlogin`) looks the name up, creates the account if
there is none, looks the name up again and answers with what it finds.
-/

import SocketCommunication.Matching.UserRepository
import SocketCommunication.Matching.RoomService

namespace SocketCommunication
namespace Matching

open Effect

namespace PasswordUtil

def hashPassword (env : Env) (password : String) : String := env.sha256 password

def verifyPassword (env : Env) (password hashedPassword : String) : Bool :=
  hashPassword env password == hashedPassword

end PasswordUtil

namespace AuthService

/-- An ASCII letter or digit. -/
def isAlnum (c : UInt8) : Bool :=
  (0x41 ≤ c && c ≤ 0x5A) || (0x61 ≤ c && c ≤ 0x7A) || (0x30 ≤ c && c ≤ 0x39)

/-- `find(pattern) != npos`. -/
def hasInfix (pattern : List UInt8) : List UInt8 → Bool
  | [] => pattern.isEmpty
  | c :: cs => pattern.isPrefixOf (c :: cs) || hasInfix pattern cs

def isValidUserName (name : String) : Bool :=
  let bytes := name.toUTF8.data.toList
  if bytes.isEmpty then false
  else if 30 < bytes.length then false
  else if hasInfix "mirror".toUTF8.data.toList bytes then false
  -- an e-mail address has a `.` after its first `@`
  else if (bytes.dropWhile (· != 0x40)).contains 0x2E then
    bytes.all fun c => isAlnum c || c == 0x40 || c == 0x2E || c == 0x5F || c == 0x2D || c == 0x2B
  else bytes.all isAlnum

/-- The expression `^[가-힣A-Za-z0-9]+$` is matched byte by byte, so that the range
of Hangul syllables is the range of bytes from `0x80` to `0xED`. -/
def isValidNickName (str : String) : Bool :=
  let bytes := str.toUTF8.data.toList
  if 24 < bytes.length then false
  else !bytes.isEmpty && bytes.all fun c => (0x80 ≤ c && c ≤ 0xED) || isAlnum c

section Methods

variable (env : Env)

def registerUser (request : Json) : DbM Json := do
  if ¬ (request.contains "userName" ∧ request.contains "password") then
    return errorResponse "회원가입 요청에 필수 필드가 누락되었습니다."
  else
    let userName ← orThrow (request.value "userName").getString
    if ¬ isValidUserName userName then return errorResponse "잘못된 형식의 아이디입니다."
    else
      let password ← orThrow (request.value "password").getString
      if password.utf8ByteSize < 6 then
        return errorResponse "비밀번호는 최소 6자리 이상이어야 합니다."
      else
        let userInfo ← UserRepository.findByUsername env userName
        if ¬ (userInfo.value "userId").eqInt (-1) then return errorResponse "이미 존재하는 아이디입니다."
        else
          let userId ← UserRepository.create env userName (PasswordUtil.hashPassword env password)
          if userId < 0 then return errorResponse "회원가입에 실패하였습니다."
          else
            return .obj [("action", .str "register"), ("status", .str "success"),
              ("message", .str "회원가입에 성공하였습니다."), ("userId", .int userId),
              ("userName", request.value "userName")]

/-- The answer to a login as the account `userInfo`. -/
def loginResponse (userInfo : Json) : Json :=
  .obj [("action", .str "login"), ("status", .str "success"), ("message", .str "로그인에 성공하였습니다."),
    ("userId", userInfo.value "userId"), ("userName", userInfo.value "userName"),
    ("nickName", userInfo.value "nickName"), ("createdAt", userInfo.value "createdAt"),
    ("lastLogin", userInfo.value "lastLogin")]

def loginUser (request : Json) : DbM Json := do
  if ¬ (request.contains "userName" ∧ request.contains "password") then
    return errorResponse "로그인 요청에 필수 필드가 누락되었습니다."
  else
    let userName ← orThrow (request.value "userName").getString
    let userInfo ← UserRepository.findByUsername env userName
    if (userInfo.value "userId").eqInt (-1) then return errorResponse "존재하지 않는 사용자입니다."
    else
      let password ← orThrow (request.value "password").getString
      let passwordHash ← orThrow (userInfo.value "passwordHash").getString
      if ¬ PasswordUtil.verifyPassword env password passwordHash then
        return errorResponse "비밀번호가 일치하지 않습니다."
      else
        let userId ← orThrow (userInfo.value "userId").getInt
        let _ ← UserRepository.updateLastLogin env userId
        return loginResponse userInfo

/-- What `registerCheckAndLogin` does once the account is there: `userId` is −1
unless this request created it. -/
def loginRegistered (userName : String) (userId : ℤ) : DbM Json := do
  let userInfo ← UserRepository.findByUsername env userName
  let _ ← UserRepository.updateLastLogin env userId
  return loginResponse userInfo

def registerCheckAndLogin (request : Json) : DbM Json := do
  if ¬ (request.contains "userName" ∧ request.contains "password") then
    return errorResponse "회원가입 여부 확인 및 로그인 요청에 필수 필드가 누락되었습니다."
  else
    let userName ← orThrow (request.value "userName").getString
    let userInfo ← UserRepository.findByUsername env userName
    if (userInfo.value "userId").eqInt (-1) then
      let password ← orThrow (request.value "password").getString
      let userId ← UserRepository.create env userName (PasswordUtil.hashPassword env password)
      if userId < 0 then return errorResponse "사용재 생성에 실패하였습니다."
      else loginRegistered env userName userId
    else loginRegistered env userName (-1)

def updateNickName (request : Json) : DbM Json := do
  if ¬ (request.contains "userId" ∧ request.contains "nickName") then
    return errorResponse "닉네임 변경 요청에 필수 필드가 누락되었습니다."
  else
    let nickName ← orThrow (request.value "nickName").getString
    if ¬ isValidNickName nickName then return errorResponse "잘못된 형식의 닉네임입니다."
    else
      let userId ← orThrow (request.value "userId").getInt
      let updated ← UserRepository.updateUserNickName env userId nickName
      if ¬ updated then return errorResponse "닉네임 변경에 실패하였습니다."
      else
        return .obj [("action", .str "updateNickName"), ("status", .str "success"),
          ("message", .str "닉네임을 성공적으로 변경하였습니다."), ("nickName", request.value "nickName")]

end Methods

end AuthService

end Matching
end SocketCommunication
