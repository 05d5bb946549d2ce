/-
# Serial runs of the room and game methods

The five methods that write `rooms`, `room_users` and `games`, called one after
the other in any order with any arguments.

* `oneRoom_throughout_iff`: no user is ever in two rooms just when no user who is
  in a room joins another.
* `noLeak_throughout_iff`: every open room keeps a member just when no game
  starts in an empty room and nobody is the last member of a second room when
  leaving.
-/

import SocketCommunication.Lib.Run
import SocketCommunication.Matching.RoomRepository
import SocketCommunication.Matching.GameRepository

namespace SocketCommunication
namespace Matching

open Effect

/-- The number of members of a room. -/
def Tables.players (t : Tables) (roomId : ℤ) : ℕ := (t.roomUsers.filter fun q => q.roomId = roomId).length

/-- A call of a method with its arguments. -/
inductive RoomCall where
  | createRoomWithHost (hostId : ℤ) (roomName : String) (maxPlayers : ℤ)
  | addPlayer (roomId userId : ℤ)
  | removePlayer (userId : ℤ)
  | createGame (request : Json)
  | endGame (gameId : ℤ)

namespace RoomCall

open RoomRepository GameRepository

/-- Make the call and drop what it returns. -/
def run (env : Env) : RoomCall → DbM Unit
  | createRoomWithHost hostId roomName maxPlayers =>
    (fun _ => ()) <$> RoomRepository.createRoomWithHost env hostId roomName maxPlayers
  | addPlayer roomId userId => (fun _ => ()) <$> RoomRepository.addPlayer env roomId userId
  | removePlayer userId => (fun _ => ()) <$> RoomRepository.removePlayer env userId
  | createGame request => (fun _ => ()) <$> GameRepository.createGame env request
  | endGame gameId => (fun _ => ()) <$> GameRepository.endGame env gameId

/-- The world after a call, whether it returned or threw. -/
def step (env : Env) (w : World) (c : RoomCall) : World := after (c.run env) w

/-- What a call makes of the tables: `t` are the new ones. -/
def Outcome (env : Env) (w : World) : RoomCall → Tables → Prop
  | createRoomWithHost hostId roomName maxPlayers, t =>
    (∃ roomId, Opens env w hostId roomName roomId ∧
      t = openRoom w.db.1 roomId hostId roomName maxPlayers (env.now (w.tick + 1))) ∨
    ((∀ roomId, ¬ Opens env w hostId roomName roomId) ∧ t = w.db.1)
  | addPlayer roomId userId, t =>
    (Joins env w roomId userId ∧ t = w.db.1.insertRoomUser roomId userId (env.now (w.tick + 1))) ∨
    (¬ Joins env w roomId userId ∧ t = w.db.1)
  | removePlayer userId, t =>
    (∃ roomId, Leaves env w userId roomId ∧ t = leave w.db.1 userId roomId (env.now (w.tick + 1))) ∨
    ((∀ roomId, ¬ Leaves env w userId roomId) ∧ t = w.db.1)
  | createGame request, t =>
    (∃ roomId mapId, Starts env w request roomId mapId ∧
      t = startGame w.db.1 w.seqs.games roomId mapId (env.now (w.tick + 1))) ∨
    ((∀ roomId mapId, ¬ Starts env w request roomId mapId) ∧ t = w.db.1)
  | endGame gameId, t => t = w.db.1.finishGame gameId (env.now (w.tick + 1)) ∨ t = w.db.1

theorem step_outcome (env : Env) (w : World) (c : RoomCall) : Outcome env w c (step env w c).db.1 := by
  refine wp_iff_after (P := fun w' : World => Outcome env w c w'.db.1).1 ?_
  cases c with
  | createRoomWithHost hostId roomName maxPlayers =>
    refine (wp_map _ _).2 (wp_mono (fun j w' h => ?_) (fun e w' h => ?_)
      (createRoomWithHost_spec w hostId roomName maxPlayers))
    · exact h.imp (fun ⟨r, _, ho, hp, _⟩ => ⟨r.roomId, ho, hp.1⟩) fun ⟨hn, hu, _⟩ => ⟨hn, by rw [hu.1]⟩
    · exact h.imp (fun ⟨r, _, ho, hp, _⟩ => ⟨r.roomId, ho, hp.1⟩) fun ⟨hn, hu⟩ => ⟨hn, by rw [hu.1]⟩
  | addPlayer roomId userId =>
    refine (wp_map _ _).2 (wp_mono (fun b w' h => ?_) (fun e w' h => .inr ⟨h.1, by rw [h.2.1]⟩)
      (addPlayer_spec w roomId userId))
    cases b with
    | true => exact .inl ⟨h.1, h.2.1⟩
    | false => exact .inr ⟨h.1, by rw [h.2.1]⟩
  | removePlayer userId =>
    refine (wp_map _ _).2 (wp_mono (fun b w' h => ?_) (fun e w' h => .inr ⟨h.1, by rw [h.2.1]⟩)
      (removePlayer_spec w userId))
    cases b with
    | true =>
      obtain ⟨roomId, hl, hp⟩ := h
      exact .inl ⟨roomId, hl, hp.1⟩
    | false => exact .inr ⟨h.1, by rw [h.2.1]⟩
  | createGame request =>
    refine (wp_map _ _).2 (wp_mono (fun j w' h => ?_) (fun e w' h => .inr ⟨h.1, by rw [h.2.1]⟩)
      (createGame_spec w request))
    exact h.2.imp (fun ⟨r, m, hs, hp⟩ => ⟨r, m, hs, hp.1⟩) fun ⟨hn, hu⟩ => ⟨hn, by rw [hu.1]⟩
  | endGame gameId =>
    refine (wp_map _ _).2 (wp_mono (fun j w' h => ?_) (fun e w' h => .inr (by rw [h.2.1]))
      (endGame_spec w gameId))
    exact h.2.imp (fun ⟨r, _, hp⟩ => hp.1) fun ⟨_, hu⟩ => by rw [hu.1]

/-- The database with which the server starts: all rooms free, nobody in them, no games. -/
structure Fresh (t : Tables) : Prop where
  terminated : ∀ r ∈ t.rooms, r.status = .terminated
  roomUsers : t.roomUsers = []
  games : t.games = []

theorem fresh_init : Fresh World.init.db.1 := ⟨by decide +kernel, rfl, rfl⟩

/-! ### Membership -/

/-- No user is in two rooms. -/
def OneRoom (t : Tables) : Prop := (t.roomUsers.map (·.userId)).Nodup

instance (t : Tables) : Decidable (OneRoom t) := inferInstanceAs (Decidable (List.Nodup _))

/-- Nobody who is in a room joins a room. -/
def JoinsAlone (env : Env) (w : World) : RoomCall → Prop
  | addPlayer roomId userId =>
    Joins env w roomId userId → ∀ r ∈ w.db.1.roomUsers, r.userId ≠ userId
  | _ => True

theorem oneRoom_insertRoomUser {t : Tables} {roomId userId : ℤ} {now : ℕ} :
    OneRoom (t.insertRoomUser roomId userId now) ↔
      OneRoom t ∧ ∀ r ∈ t.roomUsers, r.userId ≠ userId := by
  refine Rows.nodup_map_append_singleton.trans (and_congr_right fun _ => ?_)
  simp only [List.mem_map, not_exists, not_and]

theorem oneRoom_step {env : Env} {w : World} {c : RoomCall} (h : OneRoom w.db.1)
    (hc : JoinsAlone env w c) : OneRoom (step env w c).db.1 := by
  have hout := step_outcome env w c
  cases c with
  | createRoomWithHost hostId roomName maxPlayers =>
    rcases hout with ⟨roomId, ho, ht⟩ | ⟨-, ht⟩ <;> rw [ht]
    · exact oneRoom_insertRoomUser.2 ⟨h, ho.alone⟩
    · exact h
  | addPlayer roomId userId =>
    rcases hout with ⟨hj, ht⟩ | ⟨-, ht⟩ <;> rw [ht]
    · exact oneRoom_insertRoomUser.2 ⟨h, hc hj⟩
    · exact h
  | removePlayer userId =>
    rcases hout with ⟨roomId, -, ht⟩ | ⟨-, ht⟩ <;> rw [ht]
    · rw [OneRoom, roomUsers_leave]
      exact Rows.nodup_map_delete h
    · exact h
  | createGame request => rcases hout with ⟨roomId, mapId, -, ht⟩ | ⟨-, ht⟩ <;> rw [ht] <;> exact h
  | endGame gameId => rcases hout with ht | ht <;> rw [ht] <;> exact h

theorem not_oneRoom_step {env : Env} {w : World} {c : RoomCall} (hc : ¬ JoinsAlone env w c) :
    ¬ OneRoom (step env w c).db.1 := by
  have hout := step_outcome env w c
  cases c with
  | addPlayer roomId userId =>
    obtain ⟨hj, hmem⟩ := Classical.not_imp.1 hc
    rw [(hout.resolve_right fun hn => hn.1 hj).2, oneRoom_insertRoomUser]
    exact fun h => hmem h.2
  | createRoomWithHost => exact absurd trivial hc
  | removePlayer => exact absurd trivial hc
  | createGame => exact absurd trivial hc
  | endGame => exact absurd trivial hc

/-- **One room for each user.**  In a run that starts with nobody in a room no user is
ever in two rooms just when no call lets a user who is in a room join another. -/
theorem oneRoom_throughout_iff (env : Env) {w : World} (hw : w.db.1.roomUsers = []) (calls : List RoomCall) :
    Run.Throughout (step env) (fun w => OneRoom w.db.1) w calls ↔
      Run.Along (step env) (JoinsAlone env) w calls := by
  have hstart : OneRoom w.db.1 := by
    rw [OneRoom, hw]
    exact List.nodup_nil
  exact Run.throughout_iff_along (C := JoinsAlone env) (I := fun w => OneRoom w.db.1) (fun _ h => h)
    (fun _ _ => oneRoom_step) (fun _ _ _ => not_oneRoom_step) hstart calls

/-- User 1 opens a room, user 2 another, and user 1 joins that one. -/
def joinSecond : List RoomCall :=
  [createRoomWithHost 1 "one" 4, createRoomWithHost 2 "two" 4, addPlayer 2 1]

theorem not_oneRoom_joinSecond : ¬ Run.Throughout (step .reliable) (fun w => OneRoom w.db.1) .init joinSecond := by
  decide +kernel

/-- User 3 joins the room of user 1. -/
theorem oneRoom_join_init : Run.Throughout (step .reliable) (fun w => OneRoom w.db.1) .init
    [createRoomWithHost 1 "one" 4, addPlayer 1 3, removePlayer 1] :=
  (oneRoom_throughout_iff .reliable fresh_init.roomUsers _).2 ⟨trivial, fun _ => by decide +kernel, trivial, trivial⟩

/-! ### The pool of rooms -/

/-- Every open room has a member. -/
def NoLeak (t : Tables) : Prop :=
  ∀ r ∈ t.rooms, r.status ≠ .terminated → ∃ q ∈ t.roomUsers, q.roomId = r.roomId

instance (t : Tables) : Decidable (NoLeak t) := inferInstanceAs (Decidable (∀ r ∈ t.rooms, _))

/-- Members are in open rooms. -/
def MembersInOpen (t : Tables) : Prop :=
  ∀ r ∈ t.rooms, r.status = .terminated → ∀ q ∈ t.roomUsers, q.roomId ≠ r.roomId

/-- No game starts in an empty room, and nobody who leaves is the last member of a
room other than the one that is looked at. -/
def EmptiesOne (env : Env) (w : World) : RoomCall → Prop
  | createGame request => ∀ roomId mapId, Starts env w request roomId mapId →
      ∃ q ∈ w.db.1.roomUsers, q.roomId = roomId
  | removePlayer userId => ∀ roomId, Leaves env w userId roomId →
      ∀ q ∈ w.db.1.roomUsers, q.userId = userId → q.roomId ≠ roomId →
        ∃ q' ∈ w.db.1.roomUsers, q'.roomId = q.roomId ∧ q'.userId ≠ userId
  | _ => True

section Tables

variable {t : Tables} {roomId userId : ℤ} {now : ℕ}

theorem membersInOpen_openRoom (h : MembersInOpen t) {roomName : String} {maxPlayers : ℤ} :
    MembersInOpen (openRoom t roomId userId roomName maxPlayers now) := by
  refine Rows.forall_mem_update_iff.2 fun r hr => ⟨fun _ hst => (nomatch hst), fun hp hst => ?_⟩
  refine List.forall_mem_append.2 ⟨h r hr hst, fun q hq => ?_⟩
  rw [List.mem_singleton.1 hq]
  exact fun hid => hp ⟨hid.symm, hst⟩

theorem noLeak_openRoom (h : NoLeak t) {roomName : String} {maxPlayers : ℤ} :
    NoLeak (openRoom t roomId userId roomName maxPlayers now) := by
  refine Rows.forall_mem_update_iff.2 fun r hr => ⟨fun hp _ => ?_, fun _ hst => ?_⟩
  · exact ⟨_, List.mem_append_right _ (List.mem_singleton_self _), hp.1.symm⟩
  · obtain ⟨q, hq, hid⟩ := h r hr hst
    exact ⟨q, List.mem_append_left _ hq, hid⟩

/-- A user who joins is in an open room. -/
theorem membersInOpen_insertRoomUser (h : MembersInOpen t) (hv : t.Valid)
    (hjoin : CanJoin t roomId userId) : MembersInOpen (t.insertRoomUser roomId userId now) := by
  intro r hr hst
  refine List.forall_mem_append.2 ⟨h r hr hst, fun q hq => ?_⟩
  rw [List.mem_singleton.1 hq]
  intro hid
  obtain ⟨r₀, hr₀, hid₀, hwait, -⟩ := hjoin.room
  rw [Rows.eq_of_key_eq hv.rooms_pkey hr hr₀ (hid.symm.trans hid₀.symm), hwait] at hst
  cases hst

theorem noLeak_insertRoomUser (h : NoLeak t) : NoLeak (t.insertRoomUser roomId userId now) := by
  intro r hr hst
  obtain ⟨q, hq, hid⟩ := h r hr hst
  exact ⟨q, List.mem_append_left _ hq, hid⟩

theorem membersInOpen_startGame (h : MembersInOpen t) {gameId mapId : ℤ} :
    MembersInOpen (startGame t gameId roomId mapId now) :=
  Rows.forall_mem_update_iff.2 fun r hr => ⟨fun _ hst => (nomatch hst), fun _ hst => h r hr hst⟩

/-- Starting a game keeps the pool just when the room has a member. -/
theorem noLeak_startGame_iff (h : NoLeak t) (hroom : roomId ∈ t.rooms.map (·.roomId)) {gameId mapId : ℤ} :
    NoLeak (startGame t gameId roomId mapId now) ↔ ∃ q ∈ t.roomUsers, q.roomId = roomId := by
  refine Rows.forall_mem_update_iff.trans ⟨fun h' => ?_, fun hmem r hr => ⟨fun hp _ => ?_, fun _ => h r hr⟩⟩
  · obtain ⟨r, hr, rfl⟩ := List.mem_map.1 hroom
    exact (h' r hr).1 rfl fun hst => nomatch hst
  · obtain ⟨q, hq, rfl⟩ := hmem
    exact ⟨q, hq, hp.symm⟩

/-- A room is empty after a user has left when nobody else was in it. -/
theorem players_deleteRoomUsers_eq_zero : (t.deleteRoomUsers userId).players roomId = 0 ↔
    ∀ q ∈ t.roomUsers, q.roomId = roomId → q.userId = userId := by
  simp only [Tables.players, List.length_eq_zero_iff, List.filter_eq_nil_iff, Tables.deleteRoomUsers, Rows.mem_delete,
    decide_eq_true_eq, and_imp]
  exact forall₂_congr fun q _ => by rw [not_imp_comm, not_not]

/-- The room that is looked at becomes free when it is empty; the others stay as they are. -/
theorem forall_mem_rooms_leave {P : RoomRow → Prop} :
    (∀ r ∈ (leave t userId roomId now).rooms, P r) ↔ ∀ r ∈ t.rooms,
      if r.roomId = roomId ∧ ∀ q ∈ t.roomUsers, q.roomId = roomId → q.userId = userId then
        P { r with status := .terminated } else P r := by
  have hempty : ((t.deleteRoomUsers userId).roomUsers.filter fun r => r.roomId = roomId).length = 0 ↔
      ∀ q ∈ t.roomUsers, q.roomId = roomId → q.userId = userId := players_deleteRoomUsers_eq_zero
  unfold leave
  simp only [hempty]
  split_ifs with h
  · refine Rows.forall_mem_update_iff.trans (forall₂_congr fun r _ => ?_)
    by_cases hr : r.roomId = roomId
    · rw [if_pos ⟨hr, h⟩]
      exact ⟨fun h' => h'.1 hr, fun h' => ⟨fun _ => h', fun hn => absurd hr hn⟩⟩
    · rw [if_neg fun hp => hr hp.1]
      exact ⟨fun h' => h'.2 hr, fun h' => ⟨fun hn => absurd hn hr, fun _ => h'⟩⟩
  · simp only [h, and_false, if_false]
    rfl

theorem membersInOpen_leave (h : MembersInOpen t) : MembersInOpen (leave t userId roomId now) := by
  refine forall_mem_rooms_leave.2 fun r hr => ?_
  split_ifs with hp
  · rintro - q hq
    obtain ⟨hq, hne⟩ := mem_roomUsers_leave.1 hq
    exact fun hid => hne (hp.2 q hq (hid.trans hp.1))
  · exact fun hst q hq => h r hr hst q (mem_roomUsers_leave.1 hq).1

/-- Leaving keeps the pool just when no room but the one looked at loses its last member. -/
theorem noLeak_leave_iff (h : NoLeak t) (ho : MembersInOpen t) (hv : t.Valid) :
    NoLeak (leave t userId roomId now) ↔
      ∀ q ∈ t.roomUsers, q.userId = userId → q.roomId ≠ roomId →
        ∃ q' ∈ t.roomUsers, q'.roomId = q.roomId ∧ q'.userId ≠ userId := by
  constructor
  · intro h' q hq hu hne
    obtain ⟨r, hr, hid⟩ := List.mem_map.1 (hv.roomUsers_roomId_fkey q hq)
    have hst : r.status ≠ .terminated := fun hst => ho r hr hst q hq hid.symm
    have hr' := forall_mem_rooms_leave.1 h' r hr
    rw [if_neg fun hp => hne (hid.symm.trans hp.1)] at hr'
    obtain ⟨q', hq', hid'⟩ := hr' hst
    obtain ⟨hq', hne'⟩ := mem_roomUsers_leave.1 hq'
    exact ⟨q', hq', hid'.trans hid, hne'⟩
  · intro hstay
    refine forall_mem_rooms_leave.2 fun r hr => ?_
    split_ifs with hp
    · exact fun hst => absurd rfl hst
    · intro hst
      obtain ⟨q, hq, hid⟩ := h r hr hst
      by_cases hu : q.userId = userId
      · by_cases hroom : q.roomId = roomId
        · have hroom' : ∃ q' ∈ t.roomUsers, q'.roomId = roomId ∧ q'.userId ≠ userId := by
            simpa [hid.symm.trans hroom] using hp
          obtain ⟨q', hq', hid', hne'⟩ := hroom'
          exact ⟨q', mem_roomUsers_leave.2 ⟨hq', hne'⟩, hid'.trans (hroom.symm.trans hid)⟩
        · obtain ⟨q', hq', hid', hne'⟩ := hstay q hq hu hroom
          exact ⟨q', mem_roomUsers_leave.2 ⟨hq', hne'⟩, hid'.trans hid⟩
      · exact ⟨q, mem_roomUsers_leave.2 ⟨hq, hu⟩, hid⟩

end Tables

theorem membersInOpen_step {env : Env} {w : World} {c : RoomCall} (h : MembersInOpen w.db.1) :
    MembersInOpen (step env w c).db.1 := by
  have hout := step_outcome env w c
  cases c with
  | createRoomWithHost hostId roomName maxPlayers =>
    rcases hout with ⟨roomId, -, ht⟩ | ⟨-, ht⟩ <;> rw [ht]
    · exact membersInOpen_openRoom h
    · exact h
  | addPlayer roomId userId =>
    rcases hout with ⟨hj, ht⟩ | ⟨-, ht⟩ <;> rw [ht]
    · exact membersInOpen_insertRoomUser h w.db.2 hj.2
    · exact h
  | removePlayer userId =>
    rcases hout with ⟨roomId, -, ht⟩ | ⟨-, ht⟩ <;> rw [ht]
    · exact membersInOpen_leave h
    · exact h
  | createGame request =>
    rcases hout with ⟨roomId, mapId, -, ht⟩ | ⟨-, ht⟩ <;> rw [ht]
    · exact membersInOpen_startGame h
    · exact h
  | endGame gameId => rcases hout with ht | ht <;> rw [ht] <;> exact h

/-- One call keeps the pool just when it meets `EmptiesOne`. -/
theorem noLeak_step_iff {env : Env} {w : World} {c : RoomCall} (h : NoLeak w.db.1)
    (ho : MembersInOpen w.db.1) : NoLeak (step env w c).db.1 ↔ EmptiesOne env w c := by
  have hout := step_outcome env w c
  cases c with
  | createRoomWithHost hostId roomName maxPlayers =>
    refine iff_of_true ?_ trivial
    rcases hout with ⟨roomId, -, ht⟩ | ⟨-, ht⟩ <;> rw [ht]
    · exact noLeak_openRoom h
    · exact h
  | addPlayer roomId userId =>
    refine iff_of_true ?_ trivial
    rcases hout with ⟨-, ht⟩ | ⟨-, ht⟩ <;> rw [ht]
    · exact noLeak_insertRoomUser h
    · exact h
  | removePlayer userId =>
    rcases hout with ⟨roomId, hl, ht⟩ | ⟨hn, ht⟩ <;> rw [ht]
    · rw [noLeak_leave_iff h ho w.db.2]
      refine ⟨fun hstay r hl' => ?_, fun hc => hc roomId hl⟩
      rwa [Option.some.inj (hl'.1.symm.trans hl.1)]
    · exact iff_of_true h fun roomId hl => absurd hl (hn roomId)
  | createGame request =>
    rcases hout with ⟨roomId, mapId, hs, ht⟩ | ⟨hn, ht⟩ <;> rw [ht]
    · rw [noLeak_startGame_iff h hs.room]
      refine ⟨fun hmem r m hs' => ?_, fun hc => hc roomId mapId hs⟩
      rwa [Except.ok.inj (hs'.roomId_eq.symm.trans hs.roomId_eq)]
    · exact iff_of_true h fun roomId mapId hs => absurd hs (hn roomId mapId)
  | endGame gameId =>
    refine iff_of_true ?_ trivial
    rcases hout with ht | ht <;> rw [ht] <;> exact h

/-- **No room is lost.**  In a run from a fresh database every open room has a
member throughout just when no game starts in an empty room and nobody who leaves
is the last member of a room other than the first one found. -/
theorem noLeak_throughout_iff (env : Env) {w : World} (hw : Fresh w.db.1) (calls : List RoomCall) :
    Run.Throughout (step env) (fun w => NoLeak w.db.1) w calls ↔
      Run.Along (step env) (EmptiesOne env) w calls := by
  have hstart : NoLeak w.db.1 ∧ MembersInOpen w.db.1 := by
    refine ⟨fun r hr hst => absurd (hw.terminated r hr) hst, fun r _ _ q hq => ?_⟩
    rw [hw.roomUsers] at hq
    cases hq
  exact Run.throughout_iff_along (C := EmptiesOne env) (I := fun w => NoLeak w.db.1 ∧ MembersInOpen w.db.1)
    (fun _ h => h.1) (fun _ _ h hc => ⟨(noLeak_step_iff h.1 h.2).2 hc, membersInOpen_step h.2⟩)
    (fun _ _ h hc hl => hc ((noLeak_step_iff h.1 h.2).1 hl)) hstart calls

/-- A game starts in a room that nobody has opened. -/
theorem not_noLeak_createGame : ¬ Run.Throughout (step .reliable) (fun w => NoLeak w.db.1) .init
    [createGame (.obj [("roomId", .int 1), ("mapId", .int 1)])] := by
  decide +kernel

/-- The only member of a room leaves it while a game is on. -/
theorem noLeak_leave_init : Run.Throughout (step .reliable) (fun w => NoLeak w.db.1) .init
    [createRoomWithHost 1 "one" 4, createGame (.obj [("roomId", .int 1), ("mapId", .int 1)]),
      removePlayer 1] := by
  refine (noLeak_throughout_iff .reliable fresh_init _).2 ⟨trivial, ?_, ?_, trivial⟩
  · rintro roomId mapId h
    cases h.roomId_eq
    decide +kernel
  · intro roomId h q hq _ hne
    have hroom : ∀ q ∈ (step .reliable (step .reliable .init (createRoomWithHost 1 "one" 4))
        (createGame (.obj [("roomId", .int 1), ("mapId", .int 1)]))).db.1.roomUsers, q.roomId = 1 := by
      decide +kernel
    have hfirst : firstRoom .reliable (step .reliable (step .reliable .init (createRoomWithHost 1 "one" 4))
        (createGame (.obj [("roomId", .int 1), ("mapId", .int 1)]))) 1 = some 1 := by
      decide +kernel
    exact absurd ((hroom q hq).trans (Option.some.inj (hfirst.symm.trans h.1))) hne

end RoomCall

end Matching
end SocketCommunication
