/-
# `UserDao`

`db/user_dao.cpp`: lookups and updates of single users.  Every method runs in a `try`
block on a connection and a transaction of its own, and returns a default where
something throws.

A time stands for the text that `as<std::string>()` makes of it, and no `last_login`
for the empty text.
-/

import SocketCommunication.GameSocket.Database

namespace SocketCommunication
namespace GameSocket

open Effect Matching

/-- `UserInfo`. -/
structure UserInfo where
  userId : ℤ
  username : String
  rating : ℤ
  totalGames : ℤ
  totalWins : ℤ
  createdAt : ℕ
  lastLogin : Option ℕ
  deriving DecidableEq

namespace Users

/-- The `RETURNING user_id` of an update of the user. -/
def returning (users : List UserRow) (userId : ℤ) : List ℤ := (users.filter fun u => u.userId = userId).map (·.userId)

/-- `UPDATE Users SET rating = … WHERE user_id = …`. -/
def setRating (users : List UserRow) (userId rating : ℤ) : List UserRow :=
  Rows.update (fun u => u.userId = userId) (fun u => { u with rating := some rating }) users

/-- `UPDATE Users SET total_games = total_games + 1 WHERE user_id = …`, with
`total_wins = total_wins + 1` for a game that was won. -/
def addGame (users : List UserRow) (userId : ℤ) (isWin : Bool) : List UserRow :=
  Rows.update (fun u => u.userId = userId)
    (fun u => { u with
      totalGames := u.totalGames.map (· + 1)
      totalWins := if isWin then u.totalWins.map (· + 1) else u.totalWins }) users

/-- The counters are `INT`. -/
def inRange (u : UserRow) : Bool := u.totalGames.all (· < 2 ^ 31) && u.totalWins.all (· < 2 ^ 31)

/-- `a` comes before `b`, or with it, in `ORDER BY rating DESC`; `NULL` comes first. -/
def rated (a b : UserRow) : Bool :=
  match a.rating, b.rating with
  | none, _ => true
  | some _, none => false
  | some x, some y => y ≤ x

end Users

namespace UserDao

section Methods

variable (env : Env)

/-- The body of a method: it returns the default where something throws. -/
def transaction {α ρ : Type} (default : α) (stmt : ApiM (List ρ)) (read : List ρ → ApiM α) : ApiM α :=
  tryCatch
    (do
      let _conn ← getConnection env
      beginWork env
      let result ← stmt
      commit env
      read result)
    fun _ => return default

/-- The conversions of a row. -/
def userInfo (u : UserRow) : ApiM UserInfo := do
  let rating ← column u.rating
  let totalGames ← column u.totalGames
  let totalWins ← column u.totalWins
  let createdAt ← column u.createdAt
  return ⟨u.userId, u.username, rating, totalGames, totalWins, createdAt, u.lastLogin⟩

/-- The first row, if there is one. -/
def firstUser : List UserRow → ApiM (Option UserInfo)
  | [] => return none
  | u :: _ => do
    let user ← userInfo u
    return some user

def findById (userId : ℤ) : ApiM (Option UserInfo) :=
  transaction env none (query env fun users => users.filter fun u => u.userId = userId) firstUser

def findByUsername (username : String) : ApiM (Option UserInfo) :=
  transaction env none (query env fun users => users.filter fun u => u.username = sqlText username) firstUser

def create (username hashedPassword : String) : ApiM ℤ :=
  transaction env (-1)
    (do
      let now := (← get).began
      exec env fun q users => (q + 1, [(q : ℤ)], Users.insert users q (sqlText username) (sqlText hashedPassword) now))
    fun result => return result.headD (-1)

def updateRating (userId newRating : ℤ) : ApiM Bool :=
  transaction env false
    (exec env fun q users => (q, Users.returning users userId, Users.setRating users userId newRating))
    fun result => return ! result.isEmpty

/-- A counter that would leave the range of its type is a `pqxx::sql_error`. -/
def updateStats (userId : ℤ) (isWin : Bool) : ApiM Bool :=
  transaction env false
    (do
      let result ← exec env fun q users => (q, Users.returning users userId, Users.addGame users userId isWin)
      if (← get).work.1.all Users.inRange then return result
      else throw (.sqlError "integer out of range"))
    fun result => return ! result.isEmpty

def updateLastLogin (userId : ℤ) : ApiM Bool :=
  transaction env false
    (do
      let now := (← get).began
      exec env fun q users => (q, Users.returning users userId, Users.setLastLogin users userId now))
    fun result => return ! result.isEmpty

/-- The loop of `get_top_players`; an exception leaves the users listed before it. -/
def userInfos : List UserRow → ApiM (List UserInfo)
  | [] => return []
  | u :: rows =>
    tryCatch
      (do
        let user ← userInfo u
        let users ← userInfos rows
        return user :: users)
      fun _ => return []

/-- `get_top_players`; users of one rating come in any `order`. -/
def getTopPlayers (order : ℕ → List UserRow → List UserRow) (limit : ℤ) : ApiM (List UserInfo) :=
  transaction env []
    (do
      let tick := (← get).tick
      let result ← query env fun users => ((order tick users).mergeSort Users.rated).take limit.toNat
      if 0 ≤ limit then return result
      else throw (.sqlError "LIMIT must not be negative"))
    userInfos

end Methods

end UserDao

end GameSocket
end SocketCommunication
