/-
# What an open transaction has found

Between its first statement and its commit a transaction goes by what it has found:
that the host is in no room, that the room is `WAITING` and has a seat, which rows are
the user's and whether anyone else is in his room (`Txn.findings`).  `RoomCall.Changes`
says which of that a call undoes when it takes effect; both are about the arguments of
the calls and the tables as they are.

A call that runs alone leaves what it does not change (`Serial.same`).
-/

import SocketCommunication.Matching.RoomSafety
import SocketCommunication.Matching.SerialCalls

namespace SocketCommunication
namespace Matching

open RoomRepository

/-- What a transaction finds in the tables. -/
inductive Finding where
  /-- The rows of the user. -/
  | rows (userId : ℤ)
  /-- The rooms that are free. -/
  | free
  /-- The first room that is free. -/
  | first
  /-- The room is `WAITING`. -/
  | waiting (roomId : ℤ)
  /-- Whether the room has a seat. -/
  | seat (roomId : ℤ)
  /-- Whether anyone else is in the room of the user. -/
  | others (userId : ℤ)

namespace Txn

/-- The call of the transaction. -/
def call : Txn → RoomCall
  | createRoomWithHost hostId roomName maxPlayers _ _ => .createRoomWithHost hostId roomName maxPlayers
  | addPlayer roomId userId _ _ => .addPlayer roomId userId
  | removePlayer userId _ _ => .removePlayer userId

/-- What the statements of the transaction so far have found, and its answer rests on. -/
def findings : Txn → List Finding
  | createRoomWithHost _ _ _ _ .isJoined | createRoomWithHost _ _ _ _ (.ended _ _) => []
  | createRoomWithHost hostId _ _ _ .idResult => [.rows hostId]
  | createRoomWithHost hostId _ _ _ (.lockRoom _) => [.rows hostId, .free]
  | createRoomWithHost hostId _ _ _ (.roomResult _)
  | createRoomWithHost hostId _ _ _ (.insertUser _)
  | createRoomWithHost hostId _ _ _ (.commit _) => [.rows hostId, .first]
  | addPlayer _ _ _ .roomCheck | addPlayer _ _ _ (.ended _ _) => []
  | addPlayer roomId _ _ .checkResult
  | addPlayer roomId _ _ .maxPlayersResult => [.waiting roomId]
  | addPlayer roomId _ _ (.lockRoom _)
  | addPlayer roomId _ _ .insertUser
  | addPlayer roomId _ _ .commit => [.waiting roomId, .seat roomId]
  | removePlayer _ _ .roomResult | removePlayer _ _ (.ended _ _) => []
  | removePlayer userId _ (.deleteUser _)
  | removePlayer userId _ (.lockRows _ _)
  | removePlayer userId _ (.countResult _ _) => [.rows userId]
  | removePlayer userId _ (.terminate _ _)
  | removePlayer userId _ (.completeGames _ _ _)
  | removePlayer userId _ (.commit _ _ _) => [.rows userId, .others userId]

/-- The transaction once it has ended. -/
def ended? : Txn → Option Ended
  | createRoomWithHost hostId roomName maxPlayers began (.ended result aborted) =>
    some ⟨.createRoomWithHost hostId roomName maxPlayers, began, .room result, aborted⟩
  | addPlayer roomId userId began (.ended result aborted) => some ⟨.addPlayer roomId userId, began, .verdict result, aborted⟩
  | removePlayer userId began (.ended result aborted) => some ⟨.removePlayer userId, began, .verdict result, aborted⟩
  | _ => none

/-- The next statement of the transaction is its `COMMIT`. -/
def committing : Txn → Bool
  | createRoomWithHost _ _ _ _ (.commit _) | addPlayer _ _ _ .commit | removePlayer _ _ (.commit _ _ _) => true
  | _ => false

end Txn

/-- Only these users are in the room. -/
def Tables.only (t : Tables) (users : List ℤ) (roomId : ℤ) : Prop :=
  ∀ q ∈ t.roomUsers, q.roomId = roomId → q.userId ∈ users

instance (t : Tables) (users : List ℤ) (roomId : ℤ) : Decidable (t.only users roomId) :=
  inferInstanceAs (Decidable (∀ q ∈ t.roomUsers, q.roomId = roomId → q.userId ∈ users))

namespace RoomCall

/-- The user whose rows of `room_users` the call is about. -/
def user? : RoomCall → Option ℤ
  | createRoomWithHost hostId _ _ => some hostId
  | addPlayer _ userId | removePlayer userId => some userId
  | createGame _ | endGame _ => none

/-- The room that the call brings its user into. -/
def entered (t : Tables) : RoomCall → Option ℤ
  | createRoomWithHost _ _ _ => freeRoom t
  | addPlayer roomId _ => some roomId
  | removePlayer _ | createGame _ | endGame _ => none

/-- The user whom the call takes out of his rooms. -/
def leaver : RoomCall → Option ℤ
  | removePlayer userId => some userId
  | createRoomWithHost _ _ _ | addPlayer _ _ | createGame _ | endGame _ => none

/-- The call changes what a transaction has found, if it takes effect on the tables. -/
def Changes (t : Tables) (call : RoomCall) : Finding → Prop
  | .rows userId => call.user? = some userId
  -- a room becomes free when its last member leaves
  | .free => ∃ v ∈ call.leaver, ∃ q ∈ t.rowsOf v, t.only [v] q.roomId
  | .first => ∃ v ∈ call.leaver, ∃ q ∈ t.rowsOf v, t.only [v] q.roomId ∧ ∀ k ∈ freeRoom t, q.roomId < k
  | .waiting roomId => ∃ v ∈ call.leaver, t.inRoom roomId v ∧ t.only [v] roomId
  -- the last seat is taken, or a seat of a full room is left
  | .seat roomId => ∃ row ∈ t.room? roomId,
      (call.entered t = some roomId ∧ row.maxPlayers = t.players roomId + 1) ∨
      ∃ v ∈ call.leaver, row.maxPlayers ≤ t.players roomId ∧ (t.deleteRoomUsers v).players roomId < row.maxPlayers
  -- someone joins a user who is alone, or leaves him alone
  | .others userId => ∃ q ∈ t.rowsOf userId,
      (call.entered t = some q.roomId ∧ t.only [userId] q.roomId) ∨
      ∃ v ∈ call.leaver, t.inRoom q.roomId v ∧ t.only [userId, v] q.roomId

instance decidableChanges (t : Tables) (call : RoomCall) : ∀ f, Decidable (call.Changes t f)
  | .rows userId => inferInstanceAs (Decidable (call.user? = some userId))
  | .free => inferInstanceAs (Decidable (∃ v ∈ call.leaver, ∃ q ∈ t.rowsOf v, t.only [v] q.roomId))
  | .first => inferInstanceAs (Decidable
      (∃ v ∈ call.leaver, ∃ q ∈ t.rowsOf v, t.only [v] q.roomId ∧ ∀ k ∈ freeRoom t, q.roomId < k))
  | .waiting roomId => inferInstanceAs (Decidable (∃ v ∈ call.leaver, t.inRoom roomId v ∧ t.only [v] roomId))
  | .seat roomId => inferInstanceAs (Decidable (∃ row ∈ t.room? roomId,
      (call.entered t = some roomId ∧ row.maxPlayers = t.players roomId + 1) ∨
      ∃ v ∈ call.leaver, row.maxPlayers ≤ t.players roomId ∧ (t.deleteRoomUsers v).players roomId < row.maxPlayers))
  | .others userId => inferInstanceAs (Decidable (∃ q ∈ t.rowsOf userId,
      (call.entered t = some q.roomId ∧ t.only [userId] q.roomId) ∨
      ∃ v ∈ call.leaver, t.inRoom q.roomId v ∧ t.only [userId, v] q.roomId))

end RoomCall

/-! ### What a call leaves -/

/-- What was found in `t` is found in `t'`. -/
def Finding.Same (t t' : Tables) : Finding → Prop
  | rows userId => t'.rowsOf userId = t.rowsOf userId
  | free => ∀ r ∈ t'.rooms, r.status = .terminated → ∃ r' ∈ t.rooms, r'.roomId = r.roomId ∧ r'.status = .terminated
  | first => ∀ r ∈ t'.rooms, r.status = .terminated → ∃ k ∈ freeRoom t, k ≤ r.roomId
  | waiting roomId => ∀ row ∈ t.room? roomId, row.status = .waiting → t'.room? roomId = some row
  | seat roomId => ∀ row ∈ t.room? roomId, row.maxPlayers ≤ t'.players roomId ↔ row.maxPlayers ≤ t.players roomId
  | others userId => ∀ q ∈ t.rowsOf userId, t'.only [userId] q.roomId ↔ t.only [userId] q.roomId

section Tables

variable {t t' : Tables} {roomId userId : ℤ} {now : ℕ}

theorem room?_eq_some {row : RoomRow} (h : t.room? roomId = some row) : row ∈ t.rooms ∧ row.roomId = roomId := by
  have hid := List.find?_some h
  exact ⟨List.mem_of_find?_eq_some h, of_decide_eq_true hid⟩

theorem room?_eq_none (h : t.room? roomId = none) : ∀ r ∈ t.rooms, r.roomId ≠ roomId := by
  intro r hr hid
  exact List.find?_eq_none.1 h r hr (decide_eq_true hid)

theorem room?_of_mem (hpkey : (t.rooms.map (·.roomId)).Nodup) {row : RoomRow} (hrow : row ∈ t.rooms) :
    t.room? row.roomId = some row := by
  cases h : t.room? row.roomId with
  | none => exact absurd rfl (room?_eq_none h row hrow)
  | some r =>
    obtain ⟨hr, hid⟩ := room?_eq_some h
    rw [Rows.eq_of_key_eq hpkey hr hrow hid]

theorem mem_rowsOf {q : RoomUserRow} : q ∈ t.rowsOf userId ↔ q ∈ t.roomUsers ∧ q.userId = userId := by
  rw [Tables.rowsOf, List.mem_filter, decide_eq_true_eq]

theorem rowsOf_eq_nil : t.rowsOf userId = [] ↔ ∀ q ∈ t.roomUsers, q.userId ≠ userId := by
  simp [Tables.rowsOf, List.filter_eq_nil_iff]

theorem inRoom_iff : t.inRoom roomId userId ↔ ∃ q ∈ t.rowsOf userId, q.roomId = roomId := by
  constructor
  · rintro ⟨q, hq, hid, hu⟩
    exact ⟨q, mem_rowsOf.2 ⟨hq, hu⟩, hid⟩
  · rintro ⟨q, hq, hid⟩
    obtain ⟨hq, hu⟩ := mem_rowsOf.1 hq
    exact ⟨q, hq, hid, hu⟩

theorem only_iff : t.only [userId] roomId ↔ (t.deleteRoomUsers userId).players roomId = 0 := by
  rw [RoomCall.players_deleteRoomUsers_eq_zero]
  simp only [Tables.only, List.mem_singleton]

theorem freeRoom_eq_some_iff : freeRoom t = some roomId ↔
    (∃ r ∈ t.rooms, r.roomId = roomId ∧ r.status = .terminated) ∧
      ∀ r ∈ t.rooms, r.status = .terminated → roomId ≤ r.roomId := by
  rw [freeRoom, List.min?_eq_some_iff]
  simp only [List.mem_map, List.mem_filter, decide_eq_true_eq]
  constructor
  · rintro ⟨⟨r, ⟨hr, hst⟩, hid⟩, hmin⟩
    exact ⟨⟨r, hr, hid, hst⟩, fun r' hr' hst' => hmin _ ⟨r', ⟨hr', hst'⟩, rfl⟩⟩
  · rintro ⟨⟨r, hr, hid, hst⟩, hmin⟩
    refine ⟨⟨r, ⟨hr, hst⟩, hid⟩, ?_⟩
    rintro _ ⟨r', ⟨hr', hst'⟩, rfl⟩
    exact hmin r' hr' hst'

/-- The first free room comes before every other one. -/
theorem exists_freeRoom_le {r : RoomRow} (hr : r ∈ t.rooms) (hst : r.status = .terminated) :
    ∃ k ∈ freeRoom t, k ≤ r.roomId := by
  cases hfree : freeRoom t with
  | some k => exact ⟨k, rfl, (freeRoom_eq_some_iff.1 hfree).2 r hr hst⟩
  | none =>
    rw [freeRoom, List.min?_eq_none_iff, List.map_eq_nil_iff, List.filter_eq_nil_iff] at hfree
    exact absurd (decide_eq_true hst) (hfree r hr)

/-- Nothing has changed. -/
theorem Finding.same_refl (f : Finding) : f.Same t t := by
  cases f with
  | rows => exact rfl
  | free => exact fun r hr hst => ⟨r, hr, rfl, hst⟩
  | first => exact fun r hr hst => exists_freeRoom_le hr hst
  | waiting => exact fun row hrow _ => hrow
  | seat => exact fun _ _ => Iff.rfl
  | others => exact fun _ _ => Iff.rfl

theorem rowsOf_insertRoomUser {u : ℤ} (hne : userId ≠ u) :
    (t.insertRoomUser roomId userId now).rowsOf u = t.rowsOf u := by
  rw [Tables.rowsOf, Tables.insertRoomUser, List.filter_append, List.filter_singleton, decide_eq_false hne]
  exact List.append_nil _

theorem rowsOf_leave {u : ℤ} (hne : userId ≠ u) : (leave t userId roomId now).rowsOf u = t.rowsOf u := by
  rw [Tables.rowsOf, roomUsers_leave, Rows.delete, List.filter_filter]
  refine List.filter_congr fun q _ => ?_
  by_cases hu : q.userId = u <;> simp [hu, hne.symm]

theorem players_leave (k : ℤ) : (leave t userId roomId now).players k = (t.deleteRoomUsers userId).players k := by
  rw [Tables.players, roomUsers_leave]
  rfl

theorem players_deleteRoomUsers_le (k : ℤ) : (t.deleteRoomUsers userId).players k ≤ t.players k :=
  ((List.filter_sublist (l := t.roomUsers)).filter _).length_le

/-- A seat in the room that the user enters, where it is not the last one. -/
theorem full_insertRoomUser_iff {k : ℤ} {row : RoomRow}
    (h : ¬ (some roomId = some k ∧ row.maxPlayers = t.players k + 1)) :
    row.maxPlayers ≤ (t.insertRoomUser roomId userId now).players k ↔ row.maxPlayers ≤ t.players k := by
  rw [players_insertRoomUser]
  split_ifs with hid
  · have hlast : row.maxPlayers ≠ t.players k + 1 := fun hrow => h ⟨congrArg some hid, hrow⟩
    push_cast
    omega
  · rw [Nat.add_zero]

/-- Someone enters a room in which the user is not alone. -/
theorem only_insertRoomUser_iff {u k : ℤ} (h : ¬ (some roomId = some k ∧ t.only [u] k)) :
    (t.insertRoomUser roomId userId now).only [u] k ↔ t.only [u] k := by
  refine ⟨fun hall q hq => hall q (List.mem_append_left _ hq), fun hall q hq hid => ?_⟩
  rcases List.mem_append.1 hq with hq | hq
  · exact hall q hq hid
  · rw [List.mem_singleton.1 hq] at hid
    exact absurd ⟨congrArg some hid, hall⟩ h

/-- The rooms that are free after a user has left. -/
theorem free_of_leave {r : RoomRow} (hr : r ∈ (leave t userId roomId now).rooms) (hst : r.status = .terminated) :
    (∃ r' ∈ t.rooms, r'.roomId = r.roomId ∧ r'.status = .terminated) ∨ r.roomId = roomId ∧ t.only [userId] roomId := by
  have hall : ∀ r ∈ (leave t userId roomId now).rooms, r.status = .terminated →
      (∃ r' ∈ t.rooms, r'.roomId = r.roomId ∧ r'.status = .terminated) ∨ r.roomId = roomId ∧ t.only [userId] roomId := by
    refine RoomCall.forall_mem_rooms_leave.2 fun r hr => ?_
    split_ifs with hlast
    · refine fun _ => .inr ⟨hlast.1, fun q hq hid => ?_⟩
      exact List.mem_singleton.2 (hlast.2 q hq hid)
    · exact fun hst => .inl ⟨r, hr, rfl, hst⟩
  exact hall r hr hst

theorem mem_rooms_leave {r : RoomRow} (hr : r ∈ t.rooms) (hlast : ¬ (r.roomId = roomId ∧ t.only [userId] roomId)) :
    r ∈ (leave t userId roomId now).rooms := by
  unfold leave
  split_ifs with hempty
  · refine Rows.mem_update_of_not hr fun hid => hlast ⟨hid, ?_⟩
    exact only_iff.2 hempty
  · exact hr

theorem pkey_openRoom {hostId maxPlayers : ℤ} {roomName : String} :
    (openRoom t roomId hostId roomName maxPlayers now).rooms.map (·.roomId) = t.rooms.map (·.roomId) :=
  Rows.map_update fun _ _ => rfl

theorem pkey_leave : (leave t userId roomId now).rooms.map (·.roomId) = t.rooms.map (·.roomId) := by
  unfold leave
  split_ifs
  · exact Rows.map_update fun _ _ => rfl
  · rfl

end Tables

section Serial

variable {t : Tables} {f : Finding} {roomId userId : ℤ} {now : ℕ}

theorem same_insertRoomUser (hnot : ¬ (RoomCall.addPlayer roomId userId).Changes t f) :
    f.Same t (t.insertRoomUser roomId userId now) := by
  cases f with
  | rows u => exact rowsOf_insertRoomUser fun hu => hnot (congrArg some hu)
  | free => exact Finding.same_refl (t := t) .free
  | first => exact Finding.same_refl (t := t) .first
  | waiting k => exact Finding.same_refl (t := t) (.waiting k)
  | seat k => exact fun row hrow => full_insertRoomUser_iff fun h => hnot ⟨row, hrow, .inl h⟩
  | others u => exact fun q hq => only_insertRoomUser_iff fun h => hnot ⟨q, hq, .inl h⟩

theorem same_openRoom (hpkey : (t.rooms.map (·.roomId)).Nodup) {roomName : String} {maxPlayers : ℤ}
    (hfree : freeRoom t = some roomId) (hnot : ¬ (RoomCall.createRoomWithHost userId roomName maxPlayers).Changes t f) :
    f.Same t (openRoom t roomId userId roomName maxPlayers now) := by
  -- the room that is opened is not free any more
  have hrooms : ∀ r ∈ (openRoom t roomId userId roomName maxPlayers now).rooms, r.status = .terminated → r ∈ t.rooms :=
    Rows.forall_mem_update_iff.2 fun r hr => ⟨fun _ hst => (nomatch hst), fun _ _ => hr⟩
  cases f with
  | rows u => exact rowsOf_insertRoomUser fun hu => hnot (congrArg some hu)
  | free => exact fun r hr hst => ⟨r, hrooms r hr hst, rfl, hst⟩
  | first => exact fun r hr hst => exists_freeRoom_le (hrooms r hr hst) hst
  | waiting k =>
    intro row hrow hst
    obtain ⟨hmem, rfl⟩ := room?_eq_some hrow
    refine room?_of_mem (pkey_openRoom.symm ▸ hpkey) (Rows.mem_update_of_not hmem fun h => ?_)
    rw [hst] at h
    cases h.2
  | seat k =>
    refine fun row hrow => full_insertRoomUser_iff (t := t) fun h => hnot ⟨row, hrow, .inl ⟨?_, h.2⟩⟩
    exact hfree.trans h.1
  | others u =>
    refine fun q hq => only_insertRoomUser_iff (t := t) fun h => hnot ⟨q, hq, .inl ⟨?_, h.2⟩⟩
    exact hfree.trans h.1

theorem same_leave (hpkey : (t.rooms.map (·.roomId)).Nodup) (hin : t.inRoom roomId userId)
    (hnot : ¬ (RoomCall.removePlayer userId).Changes t f) : f.Same t (leave t userId roomId now) := by
  obtain ⟨q₀, hq₀, hid₀⟩ := inRoom_iff.1 hin
  cases f with
  | rows u => exact rowsOf_leave fun hu => hnot (congrArg some hu)
  | free =>
    intro r hr hst
    rcases free_of_leave hr hst with hold | ⟨-, halone⟩
    · exact hold
    · exact absurd ⟨userId, rfl, q₀, hq₀, hid₀ ▸ halone⟩ hnot
  | first =>
    intro r hr hst
    rcases free_of_leave hr hst with ⟨r', hr', hid, hst'⟩ | ⟨hid, halone⟩
    · exact hid ▸ exists_freeRoom_le hr' hst'
    · by_contra hless
      refine hnot ⟨userId, rfl, q₀, hq₀, hid₀ ▸ halone, fun k hk => ?_⟩
      rw [hid₀, ← hid]
      exact not_le.1 fun hle => hless ⟨k, hk, hle⟩
  | waiting k =>
    intro row hrow _
    obtain ⟨hmem, rfl⟩ := room?_eq_some hrow
    refine room?_of_mem (pkey_leave.symm ▸ hpkey) (mem_rooms_leave hmem fun ⟨hid, halone⟩ => hnot ?_)
    exact ⟨userId, rfl, hid.symm ▸ hin, hid.symm ▸ halone⟩
  | seat k =>
    intro row hrow
    rw [players_leave]
    refine ⟨fun hfull => hfull.trans ?_, fun hfull => ?_⟩
    · exact_mod_cast players_deleteRoomUsers_le k
    · exact not_lt.1 fun hseat => hnot ⟨row, hrow, .inr ⟨userId, rfl, hfull, hseat⟩⟩
  | others u =>
    refine fun q hq => ⟨fun hall => ?_, fun hall q' hq' => hall q' (mem_roomUsers_leave.1 hq').1⟩
    -- if the user stays alone, the one who leaves was not in the room
    have hpair : t.only [u, userId] q.roomId := by
      intro q' hq' hid
      by_cases hu : q'.userId = userId
      · exact hu ▸ List.mem_cons_of_mem _ List.mem_cons_self
      · exact List.mem_cons.2 (.inl (List.mem_singleton.1 (hall q' (mem_roomUsers_leave.2 ⟨hq', hu⟩) hid)))
    intro q' hq' hid
    refine hall q' (mem_roomUsers_leave.2 ⟨hq', fun hu => hnot ?_⟩) hid
    exact ⟨q, hq, .inr ⟨userId, rfl, ⟨q', hq', hid, hu⟩, hpair⟩⟩

/-- **What a call does not change is found again after it.** -/
theorem Serial.same {t' : Tables} {e : Ended} (hpkey : (t.rooms.map (·.roomId)).Nodup) (h : Serial t e t')
    (hnot : ¬ e.call.Changes t f) : f.Same t t' := by
  cases h with
  | opens hrow hcan => exact same_openRoom hpkey hcan.free hnot
  | joins => exact same_insertRoomUser hnot
  | leaves hin => exact same_leave hpkey hin hnot
  | noRoom | refused | absent | aborted => exact f.same_refl

end Serial

end Matching
end SocketCommunication
