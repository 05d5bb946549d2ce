/-
# Room transactions that overlap

`createRoomWithHost`, `addPlayer` and `removePlayer` on connections of their own,
one statement at a time in any order.

PostgreSQL runs them under `READ COMMITTED`.  A statement reads what was committed
before it began, with the changes of its own transaction.  `FOR UPDATE` and
`UPDATE` first read (the snapshot is part of the stage), then wait until no other
transaction holds the row; what they read of a row that was changed meanwhile is
read again, and what they read elsewhere, the count of members among it, is not.
An `INSERT` waits for a transaction that has inserted or deleted the same key, and
a `DELETE` for one that has deleted the same row.

What a transaction has written shows when it commits.  The rows it has written are
in its stage until then.
-/

import SocketCommunication.Matching.RoomRuns

namespace SocketCommunication
namespace Matching

open RoomRepository

/-- Where `createRoomWithHost` is; a stage has the name of the variable that its
statement fills. -/
inductive CreateStage where
  | isJoined
  | idResult
  /-- `FOR UPDATE` has read the free rooms, and waits for the first. -/
  | lockRoom (rooms : List ℤ)
  | roomResult (roomId : ℤ)
  | insertUser (row : RoomRow)
  | commit (row : RoomRow)
  | ended (result : Option RoomRow) (aborted : Bool)

/-- Where `addPlayer` is. -/
inductive AddStage where
  | roomCheck
  | checkResult
  | maxPlayersResult
  /-- `FOR UPDATE` has counted the members, and waits for the room. -/
  | lockRoom (currentPlayers : ℕ)
  | insertUser
  | commit
  | ended (result aborted : Bool)

/-- Where `removePlayer` is. -/
inductive RemoveStage where
  | roomResult
  | deleteUser (roomId : ℤ)
  /-- `DELETE` has read the rows of the user, and waits for them. -/
  | lockRows (roomId : ℤ) (rows : List RoomUserRow)
  | countResult (roomId : ℤ) (rows : List RoomUserRow)
  | terminate (roomId : ℤ) (rows : List RoomUserRow)
  | completeGames (roomId : ℤ) (rows : List RoomUserRow) (row : RoomRow)
  | commit (roomId : ℤ) (rows : List RoomUserRow) (row : Option RoomRow)
  | ended (result aborted : Bool)

/-- A transaction: the call, the time it began, and where it is. -/
inductive Txn where
  | createRoomWithHost (hostId : ℤ) (roomName : String) (maxPlayers : ℤ) (began : ℕ) (stage : CreateStage)
  | addPlayer (roomId userId : ℤ) (began : ℕ) (stage : AddStage)
  | removePlayer (userId : ℤ) (began : ℕ) (stage : RemoveStage)

/-- What a call returns: the row of the room that was opened, or whether the call
succeeded. -/
inductive Answer where
  | room (result : Option RoomRow)
  | verdict (result : Bool)
  deriving DecidableEq

/-- The database, and the transactions that run on it. -/
structure Pool where
  tables : Tables
  txns : List Txn

/-- The primary key of `room_users`. -/
def RoomUserRow.key (row : RoomUserRow) : ℤ × ℤ := (row.roomId, row.userId)

namespace Txn

/-- The room whose row the transaction has locked. -/
def lock : Txn → Option ℤ
  | createRoomWithHost _ _ _ _ (.roomResult roomId) => some roomId
  | createRoomWithHost _ _ _ _ (.insertUser row) => some row.roomId
  | createRoomWithHost _ _ _ _ (.commit row) => some row.roomId
  | addPlayer roomId _ _ .insertUser => some roomId
  | addPlayer roomId _ _ .commit => some roomId
  | removePlayer _ _ (.completeGames roomId _ _) => some roomId
  | removePlayer _ _ (.commit roomId _ (some _)) => some roomId
  | _ => none

/-- The keys of `room_users` that the transaction has inserted or deleted. -/
def keys : Txn → List (ℤ × ℤ)
  | createRoomWithHost hostId _ _ _ (.commit row) => [(row.roomId, hostId)]
  | addPlayer roomId userId _ .commit => [(roomId, userId)]
  | removePlayer _ _ (.countResult _ rows) => rows.map RoomUserRow.key
  | removePlayer _ _ (.terminate _ rows) => rows.map RoomUserRow.key
  | removePlayer _ _ (.completeGames _ rows _) => rows.map RoomUserRow.key
  | removePlayer _ _ (.commit _ rows _) => rows.map RoomUserRow.key
  | _ => []

end Txn

namespace Pool

/-- Another transaction has locked the row of the room. -/
def locked (p : Pool) (i : ℕ) (roomId : ℤ) : Prop := ∃ x ∈ p.txns.eraseIdx i, x.lock = some roomId

instance (p : Pool) (i : ℕ) (roomId : ℤ) : Decidable (p.locked i roomId) :=
  inferInstanceAs (Decidable (∃ x ∈ p.txns.eraseIdx i, x.lock = some roomId))

/-- Another transaction has inserted or deleted the row of `room_users`. -/
def pending (p : Pool) (i : ℕ) (key : ℤ × ℤ) : Prop := ∃ x ∈ p.txns.eraseIdx i, key ∈ x.keys

instance (p : Pool) (i : ℕ) (key : ℤ × ℤ) : Decidable (p.pending i key) :=
  inferInstanceAs (Decidable (∃ x ∈ p.txns.eraseIdx i, key ∈ x.keys))

end Pool

namespace Tables

/-- The row of a room. -/
def room? (t : Tables) (roomId : ℤ) : Option RoomRow := t.rooms.find? fun r => r.roomId = roomId

/-- The rows of a user. -/
def rowsOf (t : Tables) (userId : ℤ) : List RoomUserRow := t.roomUsers.filter fun q => q.userId = userId

/-- The user is in the room. -/
def inRoom (t : Tables) (roomId userId : ℤ) : Prop := ∃ q ∈ t.roomUsers, q.roomId = roomId ∧ q.userId = userId

instance (t : Tables) (roomId userId : ℤ) : Decidable (t.inRoom roomId userId) :=
  inferInstanceAs (Decidable (∃ q ∈ t.roomUsers, q.roomId = roomId ∧ q.userId = userId))

/-- Write the row of a room. -/
def setRoom (t : Tables) (row : RoomRow) : Tables :=
  { t with rooms := Rows.update (fun r => r.roomId = row.roomId) (fun _ => row) t.rooms }

/-- Delete the given rows of `room_users`. -/
def deleteRows (t : Tables) (rows : List RoomUserRow) : Tables :=
  { t with roomUsers := Rows.delete (· ∈ rows) t.roomUsers }

end Tables

/-- The row that `createRoomWithHost` makes of the row of a free room. -/
def RoomRow.reopened (row : RoomRow) (roomName : String) (hostId maxPlayers : ℤ) (began : ℕ) : RoomRow :=
  { row with
    roomName := Tables.varchar 100 (sqlText roomName), hostId, maxPlayers, status := .waiting, createdAt := some began }

theorem RoomRow.roomId_reopened (row : RoomRow) (roomName : String) (hostId maxPlayers : ℤ) (began : ℕ) :
    (row.reopened roomName hostId maxPlayers began).roomId = row.roomId := by
  simp only [RoomRow.reopened]

/-- What comes of a statement: the transaction goes on, waits, or ends with an answer
and the tables it leaves. -/
inductive Outcome where
  | next (x : Txn)
  | wait
  | ends (x : Txn) (tables : Tables)

section Statements

variable (p : Pool) (i : ℕ)

/-- The statement of `createRoomWithHost`. -/
def createRoomWithHost (hostId : ℤ) (roomName : String) (maxPlayers : ℤ) (began : ℕ) : CreateStage → Outcome
  | .isJoined => if p.tables.rowsOf hostId ≠ [] then giveUp else goto .idResult
  | .idResult =>
    goto (.lockRoom (((p.tables.rooms.filter fun r => r.status = .terminated).map (·.roomId)).insertionSort (· ≤ ·)))
  | .lockRoom [] => giveUp
  | .lockRoom (roomId :: rooms) =>
    if p.locked i roomId then .wait
    -- a row that has changed is checked again
    else if (p.tables.room? roomId).any fun r => r.status = .terminated then goto (.roomResult roomId)
    else goto (.lockRoom rooms)
  | .roomResult roomId =>
    match p.tables.room? roomId with
    | none => giveUp
    | some row =>
      if row.status ≠ .terminated then giveUp
      -- the foreign key of `host_id` and the length of `room_name`
      else if hostId ∉ p.tables.users.map (·.userId) ∨
          100 < Tables.charLength (Tables.varchar 100 (sqlText roomName)) then giveUp
      else goto (.insertUser (row.reopened roomName hostId maxPlayers began))
  | .insertUser row =>
    if p.pending i (row.roomId, hostId) then .wait
    else if p.tables.inRoom row.roomId hostId then giveUp
    else goto (.commit row)
  | .commit row => .ends (.createRoomWithHost hostId roomName maxPlayers began (.ended (some row) false))
      ((p.tables.setRoom row).insertRoomUser row.roomId hostId began)
  | .ended _ _ => .wait
where
  goto (stage : CreateStage) : Outcome := .next (.createRoomWithHost hostId roomName maxPlayers began stage)
  giveUp : Outcome := .ends (.createRoomWithHost hostId roomName maxPlayers began (.ended none false)) p.tables

/-- The statement of `addPlayer`. -/
def addPlayer (roomId userId : ℤ) (began : ℕ) : AddStage → Outcome
  | .roomCheck =>
    match p.tables.room? roomId with
    | none => giveUp
    | some row => if row.status ≠ .waiting then giveUp else goto .checkResult
  | .checkResult => if p.tables.inRoom roomId userId then giveUp else goto .maxPlayersResult
  | .maxPlayersResult => goto (.lockRoom (p.tables.players roomId))
  | .lockRoom currentPlayers =>
    if p.locked i roomId then .wait
    else
      match p.tables.room? roomId with
      | none => giveUp
      | some row => if row.maxPlayers ≤ currentPlayers then giveUp else goto .insertUser
  | .insertUser =>
    if p.pending i (roomId, userId) then .wait
    -- the primary key, and the foreign key of `user_id`
    else if p.tables.inRoom roomId userId ∨ userId ∉ p.tables.users.map (·.userId) then giveUp
    else goto .commit
  | .commit => .ends (.addPlayer roomId userId began (.ended true false)) (p.tables.insertRoomUser roomId userId began)
  | .ended _ _ => .wait
where
  goto (stage : AddStage) : Outcome := .next (.addPlayer roomId userId began stage)
  giveUp : Outcome := .ends (.addPlayer roomId userId began (.ended false false)) p.tables

/-- The statement of `removePlayer`; `pick` is the place of the row that comes first. -/
def removePlayer (pick : ℕ) (userId : ℤ) (began : ℕ) : RemoveStage → Outcome
  | .roomResult =>
    if p.tables.rowsOf userId = [] then giveUp
    else
      match (p.tables.rowsOf userId)[pick]? with
      | none => .wait
      | some row => goto (.deleteUser row.roomId)
  | .deleteUser roomId => goto (.lockRows roomId (p.tables.rowsOf userId))
  | .lockRows roomId rows =>
    if ∃ row ∈ rows, p.pending i row.key then .wait
    -- a row that has been deleted is left out
    else goto (.countResult roomId (rows.filter (· ∈ p.tables.roomUsers)))
  | .countResult roomId rows =>
    if (p.tables.deleteRows rows).players roomId = 0 then goto (.terminate roomId rows)
    else goto (.commit roomId rows none)
  | .terminate roomId rows =>
    if p.locked i roomId then .wait
    else
      match p.tables.room? roomId with
      | none => goto (.commit roomId rows none)
      | some row => goto (.completeGames roomId rows { row with status := .terminated })
  | .completeGames roomId rows row => goto (.commit roomId rows (some row))
  | .commit _ rows none => .ends (.removePlayer userId began (.ended true false)) (p.tables.deleteRows rows)
  | .commit roomId rows (some row) => .ends (.removePlayer userId began (.ended true false))
      (((p.tables.deleteRows rows).setRoom row).completeGames roomId began)
  | .ended _ _ => .wait
where
  goto (stage : RemoveStage) : Outcome := .next (.removePlayer userId began stage)
  giveUp : Outcome := .ends (.removePlayer userId began (.ended false false)) p.tables

end Statements

namespace Txn

/-- The next statement of the transaction. -/
def move (p : Pool) (i pick : ℕ) : Txn → Outcome
  | createRoomWithHost hostId roomName maxPlayers began stage =>
    Matching.createRoomWithHost p i hostId roomName maxPlayers began stage
  | addPlayer roomId userId began stage => Matching.addPlayer p i roomId userId began stage
  | removePlayer userId began stage => Matching.removePlayer p i pick userId began stage

/-- The transaction after the database has aborted it; one that has ended stays as it is. -/
def abort : Txn → Txn
  | createRoomWithHost hostId roomName maxPlayers began (.ended result aborted) =>
    createRoomWithHost hostId roomName maxPlayers began (.ended result aborted)
  | createRoomWithHost hostId roomName maxPlayers began _ =>
    createRoomWithHost hostId roomName maxPlayers began (.ended none true)
  | addPlayer roomId userId began (.ended result aborted) => addPlayer roomId userId began (.ended result aborted)
  | addPlayer roomId userId began _ => addPlayer roomId userId began (.ended false true)
  | removePlayer userId began (.ended result aborted) => removePlayer userId began (.ended result aborted)
  | removePlayer userId began _ => removePlayer userId began (.ended false true)

end Txn

namespace Pool

/-- What happens: a transaction goes one statement further, or the database aborts
it, a deadlock or a failure among the reasons. -/
inductive Event where
  | run (i pick : ℕ)
  | abort (i : ℕ)

def step (p : Pool) : Event → Pool
  | .run i pick =>
    match p.txns[i]? with
    | none => p
    | some x =>
      match x.move p i pick with
      | .next y => { p with txns := p.txns.set i y }
      | .wait => p
      | .ends y tables => { tables, txns := p.txns.set i y }
  | .abort i =>
    match p.txns[i]? with
    | none => p
    | some x => { p with txns := p.txns.set i x.abort }

end Pool

end Matching
end SocketCommunication
