/-
# A room transaction that runs alone

`Serial` is what a call makes of the tables when nothing else runs, and what it
answers.  The methods of `RoomRepositoryImpl` do that where no call on the database
fails (`createRoomWithHost_serial`, `addPlayer_serial`, `removePlayer_serial`).
-/

import SocketCommunication.Matching.Transactions

namespace SocketCommunication
namespace Matching

open Effect RoomRepository

/-- A transaction that has ended: the call, when it began, what it answered, and
whether the database aborted it. -/
structure Ended where
  call : RoomCall
  began : ℕ
  answer : Answer
  aborted : Bool

/-- What a call answers that changes nothing. -/
def RoomCall.refusal : RoomCall → Answer
  | createRoomWithHost .. => .room none
  | _ => .verdict false

/-- `createRoomWithHost` takes the room. -/
structure CanOpen (t : Tables) (hostId : ℤ) (roomName : String) (roomId : ℤ) : Prop where
  free : freeRoom t = some roomId
  alone : ∀ q ∈ t.roomUsers, q.userId ≠ hostId
  host : hostId ∈ t.users.map (·.userId)
  name : Tables.charLength (Tables.varchar 100 (sqlText roomName)) ≤ 100

/-- **A call that runs alone.** -/
inductive Serial (t : Tables) : Ended → Tables → Prop
  | opens {hostId maxPlayers : ℤ} {roomName : String} {began : ℕ} {row : RoomRow} (hrow : row ∈ t.rooms)
      (h : CanOpen t hostId roomName row.roomId) :
      Serial t ⟨.createRoomWithHost hostId roomName maxPlayers, began,
        .room (some (row.reopened roomName hostId maxPlayers began)), false⟩
        (openRoom t row.roomId hostId roomName maxPlayers began)
  | noRoom {hostId maxPlayers : ℤ} {roomName : String} {began : ℕ} (h : ∀ roomId, ¬ CanOpen t hostId roomName roomId) :
      Serial t ⟨.createRoomWithHost hostId roomName maxPlayers, began, .room none, false⟩ t
  | joins {roomId userId : ℤ} {began : ℕ} (h : CanJoin t roomId userId) :
      Serial t ⟨.addPlayer roomId userId, began, .verdict true, false⟩ (t.insertRoomUser roomId userId began)
  | refused {roomId userId : ℤ} {began : ℕ} (h : ¬ CanJoin t roomId userId) :
      Serial t ⟨.addPlayer roomId userId, began, .verdict false, false⟩ t
  | leaves {roomId userId : ℤ} {began : ℕ} (h : t.inRoom roomId userId) :
      Serial t ⟨.removePlayer userId, began, .verdict true, false⟩ (leave t userId roomId began)
  | absent {userId : ℤ} {began : ℕ} (h : ∀ q ∈ t.roomUsers, q.userId ≠ userId) :
      Serial t ⟨.removePlayer userId, began, .verdict false, false⟩ t
  /-- A call that the database aborts. -/
  | aborted {call : RoomCall} {began : ℕ} : Serial t ⟨call, began, call.refusal, true⟩ t

section Repository

variable {env : Env}

/-- The answer of `createRoomWithHost` to the row that it has opened. -/
def Answer.json : Answer → Json
  | .room (some row) => .obj [("roomId", .int row.roomId), ("roomName", .str row.roomName),
      ("ipAddress", .str (row.ipAddress.getD "")), ("port", .int (row.port.getD 0)), ("maxPlayers", .int row.maxPlayers)]
  | .room none => noRoom
  | .verdict result => .bool result

theorem createRoomWithHost_serial (hs : env.Steady) (w : World) (hostId : ℤ) (roomName : String) (maxPlayers : ℤ) :
    wp (RoomRepository.createRoomWithHost env hostId roomName maxPlayers)
      (fun j w' => ∃ answer : Answer, j = answer.json ∧ Serial w.db.1
        ⟨.createRoomWithHost hostId roomName maxPlayers, env.now (w.tick + 1), answer, false⟩ w'.db.1)
      (fun _ w' => ∃ answer : Answer, Serial w.db.1
        ⟨.createRoomWithHost hostId roomName maxPlayers, env.now (w.tick + 1), answer, false⟩ w'.db.1) w := by
  have hopens : ∀ {roomId}, CanOpen w.db.1 hostId roomName roomId → Opens env w hostId roomName roomId :=
    fun h => ⟨hs.answers w _, h.free, h.alone, h.host, h.name⟩
  have hopened : ∀ {r w'}, r ∈ w.db.1.rooms → Opens env w hostId roomName r.roomId →
      Published w w' (openRoom w.db.1 r.roomId hostId roomName maxPlayers (env.now (w.tick + 1))) →
      Serial w.db.1 ⟨.createRoomWithHost hostId roomName maxPlayers, env.now (w.tick + 1),
        .room (some (r.reopened roomName hostId maxPlayers (env.now (w.tick + 1)))), false⟩ w'.db.1 := by
    intro r w' hr ho hp
    rw [hp.1]
    exact .opens hr ⟨ho.free, ho.alone, ho.host, ho.name⟩
  refine wp_mono (fun j w' h => ?_) (fun e w' h => ?_) (createRoomWithHost_spec w hostId roomName maxPlayers)
  · rcases h with ⟨r, hr, ho, hp, -, ip, port, hip, hport, rfl⟩ | ⟨hn, hu, rfl⟩
    · refine ⟨_, ?_, hopened hr ho hp⟩
      simp [roomResult, Answer.json, RoomRow.reopened, hip, hport]
    · refine ⟨.room none, rfl, ?_⟩
      rw [hu.1]
      exact .noRoom fun roomId h => hn roomId (hopens h)
  · rcases h with ⟨r, hr, ho, hp, -⟩ | ⟨hn, hu⟩
    · exact ⟨_, hopened hr ho hp⟩
    · refine ⟨.room none, ?_⟩
      rw [hu.1]
      exact .noRoom fun roomId h => hn roomId (hopens h)

theorem addPlayer_serial (hs : env.Steady) (w : World) (roomId userId : ℤ) :
    wp (RoomRepository.addPlayer env roomId userId)
      (fun b w' => Serial w.db.1 ⟨.addPlayer roomId userId, env.now (w.tick + 1), .verdict b, false⟩ w'.db.1)
      (fun _ w' => Serial w.db.1 ⟨.addPlayer roomId userId, env.now (w.tick + 1), .verdict false, false⟩ w'.db.1) w := by
  have hrefused : ∀ {w'}, ¬ Joins env w roomId userId ∧ Unpublished w w' →
      Serial w.db.1 ⟨.addPlayer roomId userId, env.now (w.tick + 1), .verdict false, false⟩ w'.db.1 := by
    rintro w' ⟨hn, hu⟩
    rw [hu.1]
    exact .refused fun h => hn ⟨hs.answers w _, h⟩
  refine wp_mono (fun b w' h => ?_) (fun _ w' h => hrefused h) (addPlayer_spec w roomId userId)
  cases b with
  | true =>
    rw [h.2.1]
    exact .joins h.1.2
  | false => exact hrefused h

theorem removePlayer_serial (hs : env.Steady) (w : World) (userId : ℤ) :
    wp (RoomRepository.removePlayer env userId)
      (fun b w' => Serial w.db.1 ⟨.removePlayer userId, env.now (w.tick + 1), .verdict b, false⟩ w'.db.1)
      (fun _ w' => Serial w.db.1 ⟨.removePlayer userId, env.now (w.tick + 1), .verdict false, false⟩ w'.db.1) w := by
  have habsent : ∀ {w'}, (∀ roomId, ¬ Leaves env w userId roomId) ∧ Unpublished w w' →
      Serial w.db.1 ⟨.removePlayer userId, env.now (w.tick + 1), .verdict false, false⟩ w'.db.1 := by
    rintro w' ⟨hn, hu⟩
    rw [hu.1]
    exact .absent (absent_of_not_leaves hs hn)
  refine wp_mono (fun b w' h => ?_) (fun _ w' h => habsent h) (removePlayer_spec w userId)
  cases b with
  | true =>
    obtain ⟨roomId, hl, hp⟩ := h
    rw [hp.1]
    exact .leaves hl.exists_row
  | false => exact habsent h

end Repository

end Matching
end SocketCommunication
