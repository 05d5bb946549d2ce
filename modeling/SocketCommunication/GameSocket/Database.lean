/-
# The database of the game socket server

The table `Users` of `init.sql`, and the calls that the handlers of this server make
on the pool and on a `pqxx::work`.

The handlers tell a `pqxx::sql_error` from any other exception, so a failure is one or
the other.  A `work` that goes out of scope without a commit is rolled back.

A `COMMIT` that throws may have been executed all the same, which libpqxx reports as
`in_doubt_error`: `Env.inDoubt` says which.  `Env.Settled` is the assumption that none is.
The conversion of a column that is not `NULL` does not throw.
-/

import SocketCommunication.Lib.Hex
import SocketCommunication.Matching.Database

namespace SocketCommunication
namespace GameSocket

open Effect Matching

/-- `Users`. -/
structure UserRow where
  userId : ℤ
  username : String
  password : String
  createdAt : Option ℕ
  lastLogin : Option ℕ
  totalGames : Option ℤ
  totalWins : Option ℤ
  rating : Option ℤ
  deriving DecidableEq

namespace Users

/-- The constraints of `Users`. -/
structure Valid (users : List UserRow) : Prop where
  int4 : ∀ u ∈ users, -(2 ^ 31) ≤ u.userId ∧ u.userId < 2 ^ 31
  pkey : (users.map (·.userId)).Nodup
  username_key : (users.map (·.username)).Nodup
  varchar : ∀ u ∈ users, Tables.charLength u.username ≤ 50 ∧ Tables.charLength u.password ≤ 50

instance (users : List UserRow) : Decidable (Valid users) :=
  decidable_of_iff ((∀ u ∈ users, -(2 ^ 31) ≤ u.userId ∧ u.userId < 2 ^ 31) ∧ (users.map (·.userId)).Nodup ∧
    (users.map (·.username)).Nodup ∧ ∀ u ∈ users, Tables.charLength u.username ≤ 50 ∧ Tables.charLength u.password ≤ 50)
    ⟨fun ⟨h₁, h₂, h₃, h₄⟩ => ⟨h₁, h₂, h₃, h₄⟩, fun ⟨h₁, h₂, h₃, h₄⟩ => ⟨h₁, h₂, h₃, h₄⟩⟩

/-- `INSERT INTO Users (username, password, created_at)`; the other columns take their
defaults. -/
def insert (users : List UserRow) (userId : ℤ) (username password : String) (now : ℕ) : List UserRow :=
  users ++ [⟨userId, Tables.varchar 50 username, Tables.varchar 50 password, some now, none, some 0, some 0, some 1000⟩]

theorem mem_insert (users : List UserRow) (userId : ℤ) (username password : String) (now : ℕ) :
    ⟨userId, Tables.varchar 50 username, Tables.varchar 50 password, some now, none, some 0, some 0, some 1000⟩ ∈
      insert users userId username password now :=
  List.mem_append_right _ (List.mem_singleton_self _)

/-- `UPDATE Users SET last_login = CURRENT_TIMESTAMP WHERE user_id = …`. -/
def setLastLogin (users : List UserRow) (userId : ℤ) (now : ℕ) : List UserRow :=
  Rows.update (fun u => u.userId = userId) (fun u => { u with lastLogin := some now }) users

end Users

/-- An exception, by the `catch` clause that it goes to. -/
inductive Failure where
  | sqlError (what : String)
  | exception (what : String)
  deriving DecidableEq

structure Env where
  /-- `SHA256`. -/
  sha256 : List UInt8 → Fin 32 → UInt8
  /-- `HMAC(EVP_sha256(), key, data)`. -/
  hmac : List UInt8 → List UInt8 → Fin 32 → UInt8
  /-- `dump()`. -/
  dump : Json → String
  /-- The `n`-th call on the database throws. -/
  fails : ℕ → Option Failure
  /-- The `n`-th call, if it is a `COMMIT`, is executed also where it throws. -/
  inDoubt : ℕ → Bool
  /-- The pooled connection found by the `n`-th call is closed. -/
  closed : ℕ → Bool
  /-- The time of the `n`-th call. -/
  now : ℕ → ℕ
  /-- The width of `unsigned long`. -/
  ulongBits : ℕ

/-- A `COMMIT` that throws was not executed. -/
def Env.Settled (env : Env) : Prop := ∀ n, env.inDoubt n = false

structure World where
  /-- The committed table. -/
  users : { l : List UserRow // Users.Valid l }
  /-- The table as the open transaction sees it. -/
  work : { l : List UserRow // Users.Valid l }
  /-- `CURRENT_TIMESTAMP` of the open transaction. -/
  began : ℕ
  /-- The sequence behind `user_id`. -/
  nextUserId : ℕ
  pool : DbPool
  /-- The number of calls on the database so far. -/
  tick : ℕ

abbrev ApiM := EStateM Failure World

section Calls

variable (env : Env)

/-- A call that may throw. -/
def attempt : ApiM Unit := do
  let w ← get
  set { w with tick := w.tick + 1 }
  match env.fails w.tick with
  | some e => throw e
  | none => return ()

/-- `DbPool::get_connection`. -/
def getConnection : ApiM ℕ := do
  let w ← get
  match w.pool.firstFree with
  | some i =>
    modify fun w => { w with pool := w.pool.setInUse i true }
    if env.closed w.tick then
      tryCatch (attempt env) fun e => do
        modify fun w => { w with pool := w.pool.setInUse i false }
        throw e
      modify fun w => { w with pool := (w.pool.replace i).note (.taken w.pool.made) }
      return w.pool.made
    else
      modify fun w => { w with tick := w.tick + 1, pool := w.pool.note (.taken (w.pool.connections.getD i 0)) }
      return w.pool.connections.getD i 0
  | none =>
    attempt env
    modify fun w => { w with pool := w.pool.grow.note (.taken w.pool.made) }
    return w.pool.made

/-- `DbPool::return_connection`. -/
def returnConnection (conn : ℕ) : ApiM Unit :=
  modify fun w =>
    match w.pool.connections.findIdx? (· = conn) with
    | some i => { w with pool := (w.pool.setInUse i false).note (.returned conn) }
    | none => w

/-- `pqxx::work txn(*conn)`. -/
def beginWork : ApiM Unit := do
  let now := env.now (← get).tick
  attempt env
  modify fun w => { w with work := w.users, began := now }

/-- A `SELECT`. -/
def query {α : Type} (f : List UserRow → List α) : ApiM (List α) := do
  attempt env
  return f (← get).work.1

/-- An `INSERT` or `UPDATE`; one that would violate a constraint is a `pqxx::sql_error`. -/
def exec {α : Type} (stmt : ℕ → List UserRow → ℕ × List α × List UserRow) : ApiM (List α) := do
  attempt env
  let w ← get
  let r := stmt w.nextUserId w.work.1
  modify fun w => { w with nextUserId := r.1 }
  if h : Users.Valid r.2.2 then do
    modify fun w => { w with work := ⟨r.2.2, h⟩ }
    return r.2.1
  else
    throw (.sqlError "value too long, or a duplicate key")

/-- `txn.commit()`. -/
def commit : ApiM Unit := do
  modify fun w => if env.inDoubt w.tick then { w with users := w.work } else w
  attempt env
  modify fun w => { w with users := w.work }

/-- `row[…].as<T>()` of a column that may be `NULL`. -/
def column {α : Type} : Option α → ApiM α
  | some a => return a
  | none => throw (.exception "Attempt to convert SQL null")

/-- `request[…]` as a `std::string`. -/
def text (j : Json) : ApiM String :=
  match j.getString with
  | .ok s => return s
  | .error e => throw (.exception e.what)

end Calls

end GameSocket
end SocketCommunication
