/-
# The status of a room and its games

`rooms.status` and `games.status` are written by different methods: `createGame`
writes both, `removePlayer` both when the room it looks at is empty, `endGame` only
that of the game.

* `statusesAgree_throughout_iff`: in a run from a fresh database a room has one
  game that is on while it is `GAME_IN_PROGRESS`, and none otherwise, just when no
  game starts in a room that has one and no game that is on is ended.
-/

import SocketCommunication.Matching.RoomRuns

namespace SocketCommunication
namespace Matching

open Effect

namespace Tables

/-- The number of `IN_PROGRESS` games of a room. -/
def gamesOn (t : Tables) (roomId : ℤ) : ℕ :=
  t.games.countP fun g => g.roomId = roomId ∧ g.status = .inProgress

section GamesOn

variable {t : Tables} {gameId roomId : ℤ} {now : ℕ}

theorem gamesOn_insertGame (t : Tables) (gameId roomId mapId : ℤ) (now : ℕ) (id : ℤ) :
    (t.insertGame gameId roomId mapId now).gamesOn id = t.gamesOn id + if id = roomId then 1 else 0 := by
  simp only [gamesOn, insertGame, List.countP_append, List.countP_singleton, and_true, decide_eq_true_eq,
    eq_comm (a := id)]

/-- The games of the room are over, the others as they were. -/
theorem gamesOn_completeGames (t : Tables) (roomId : ℤ) (now : ℕ) (id : ℤ) :
    (t.completeGames roomId now).gamesOn id = if id = roomId then 0 else t.gamesOn id := by
  rw [gamesOn, completeGames, Rows.countP_update]
  split_ifs with hid
  · refine List.countP_eq_zero.2 fun g _ => ?_
    by_cases hg : g.status = .inProgress ∧ g.roomId = roomId
    · simp [hg]
    · rw [if_neg hg, hid]
      simpa [and_comm] using hg
  · refine List.countP_congr fun g _ => ?_
    by_cases hg : g.status = .inProgress ∧ g.roomId = roomId
    · simp [hg, Ne.symm hid]
    · rw [if_neg hg]

/-- Ending a game that is over changes no number. -/
theorem gamesOn_finishGame_completed (h : ∀ g ∈ t.games, g.gameId = gameId → g.status = .completed) (id : ℤ) :
    (t.finishGame gameId now).gamesOn id = t.gamesOn id := by
  rw [gamesOn, finishGame, Rows.countP_update]
  refine List.countP_congr fun g hg => ?_
  by_cases hid : g.gameId = gameId
  · simp [hid, h g hg hid]
  · rw [if_neg hid]

/-- Ending a game that is on leaves its room with fewer. -/
theorem gamesOn_finishGame_lt {g : GameRow} (hg : g ∈ t.games) (hon : g.status = .inProgress) :
    (t.finishGame g.gameId now).gamesOn g.roomId < t.gamesOn g.roomId := by
  rw [gamesOn, finishGame, Rows.countP_update]
  refine Rows.countP_lt_countP (fun q _ hq => ?_) hg (by simp [hon]) (by simp)
  by_cases hid : q.gameId = g.gameId
  · simp [hid] at hq
  · rwa [if_neg hid] at hq

end GamesOn

end Tables

namespace RoomCall

open RoomRepository GameRepository

/-- Every room has at most one game that is on, and one exactly when its status is
`GAME_IN_PROGRESS`. -/
def StatusesAgree (t : Tables) : Prop :=
  ∀ r ∈ t.rooms, t.gamesOn r.roomId ≤ 1 ∧ (t.gamesOn r.roomId = 1 ↔ r.status = .gameInProgress)

instance (t : Tables) : Decidable (StatusesAgree t) := inferInstanceAs (Decidable (∀ r ∈ t.rooms, _))

/-- No game starts in a room that is `GAME_IN_PROGRESS`, and no game ends that is
still on. -/
def LeavesGames (env : Env) (w : World) : RoomCall → Prop
  | createGame request => ∀ roomId mapId, Starts env w request roomId mapId →
      ∀ r ∈ w.db.1.rooms, r.roomId = roomId → r.status ≠ .gameInProgress
  | endGame gameId => ∀ roomId, Ends env w gameId roomId →
      ∀ g ∈ w.db.1.games, g.gameId = gameId → g.status = .completed
  | _ => True

section Tables

variable {t : Tables} {roomId userId : ℤ} {now : ℕ}

theorem statusesAgree_openRoom (h : StatusesAgree t) {roomName : String} {maxPlayers : ℤ} :
    StatusesAgree (openRoom t roomId userId roomName maxPlayers now) := by
  refine Rows.forall_mem_update_iff.2 fun r hr => ⟨fun hp => ⟨(h r hr).1, ?_⟩, fun _ => h r hr⟩
  refine iff_of_false (fun hone => ?_) (by simp)
  have hst := (h r hr).2.1 hone
  rw [hp.2] at hst
  cases hst

theorem statusesAgree_leave (h : StatusesAgree t) : StatusesAgree (leave t userId roomId now) := by
  unfold leave
  split_ifs
  · refine Rows.forall_mem_update_iff.2 fun r hr => ⟨fun hp => ?_, fun hp => ?_⟩
    · rw [Tables.gamesOn_completeGames, if_pos hp]
      exact ⟨Nat.zero_le _, by simp⟩
    · rw [Tables.gamesOn_completeGames, if_neg hp]
      exact h r hr
  · exact h

/-- Starting a game keeps the statuses just when none is on in the room. -/
theorem statusesAgree_startGame_iff (h : StatusesAgree t) {gameId mapId : ℤ} :
    StatusesAgree (startGame t gameId roomId mapId now) ↔
      ∀ r ∈ t.rooms, r.roomId = roomId → r.status ≠ .gameInProgress := by
  have hcount : ∀ id, (startGame t gameId roomId mapId now).gamesOn id =
      t.gamesOn id + if id = roomId then 1 else 0 := t.gamesOn_insertGame gameId roomId mapId now
  refine Rows.forall_mem_update_iff.trans ⟨fun h' r hr hid hst => ?_, fun hn r hr => ⟨fun hp => ?_, fun hp => ?_⟩⟩
  · have hle := ((h' r hr).1 hid).1
    have hone := (h r hr).2.2 hst
    have hnow := hcount r.roomId
    rw [if_pos hid] at hnow
    dsimp only at hle
    omega
  · have hle := (h r hr).1
    have hne : t.gamesOn r.roomId ≠ 1 := fun hone => hn r hr hp ((h r hr).2.1 hone)
    have hnow := hcount r.roomId
    rw [if_pos hp] at hnow
    constructor
    · dsimp only
      omega
    · refine iff_of_true ?_ rfl
      dsimp only
      omega
  · rw [hcount, if_neg hp]
    exact h r hr

/-- Ending a game keeps the statuses just when the game is over already. -/
theorem statusesAgree_finishGame_iff (h : StatusesAgree t) (hv : t.Valid) {gameId : ℤ} :
    StatusesAgree (t.finishGame gameId now) ↔ ∀ g ∈ t.games, g.gameId = gameId → g.status = .completed := by
  constructor
  · intro h' g hg hid
    by_contra hne
    have hon : g.status = .inProgress := by
      cases hst : g.status with
      | inProgress => rfl
      | completed => exact absurd hst hne
    obtain ⟨r, hr, hroom⟩ := List.mem_map.1 (hv.games_roomId_fkey g hg)
    have hlt := @Tables.gamesOn_finishGame_lt t now g hg hon
    rw [hid, ← hroom] at hlt
    have hle := (h r hr).1
    have hone : t.gamesOn r.roomId = 1 := by omega
    have hstill := (h' r hr).2.2 ((h r hr).2.1 hone)
    omega
  · intro hover r hr
    rw [Tables.gamesOn_finishGame_completed hover]
    exact h r hr

end Tables

/-- What `endGame` makes of the tables. -/
theorem step_endGame (env : Env) (w : World) (gameId : ℤ) :
    (∃ roomId, Ends env w gameId roomId ∧
      (step env w (endGame gameId)).db.1 = w.db.1.finishGame gameId (env.now (w.tick + 1))) ∨
    ((∀ roomId, ¬ Ends env w gameId roomId) ∧ (step env w (endGame gameId)).db.1 = w.db.1) := by
  refine wp_iff_after (P := fun w' : World =>
    (∃ roomId, Ends env w gameId roomId ∧ w'.db.1 = w.db.1.finishGame gameId (env.now (w.tick + 1))) ∨
      ((∀ roomId, ¬ Ends env w gameId roomId) ∧ w'.db.1 = w.db.1)).1 ?_
  refine (wp_map _ _).2 (wp_mono (fun j w' h => ?_) (fun e w' h => .inr ⟨h.1, by rw [h.2.1]⟩)
    (endGame_spec w gameId))
  exact h.2.imp (fun ⟨r, he, hp⟩ => ⟨r, he, hp.1⟩) fun ⟨hn, hu⟩ => ⟨hn, by rw [hu.1]⟩

/-- One call keeps the statuses just when it meets `LeavesGames`. -/
theorem statusesAgree_step_iff {env : Env} {w : World} {c : RoomCall} (h : StatusesAgree w.db.1) :
    StatusesAgree (step env w c).db.1 ↔ LeavesGames env w c := by
  have hout := step_outcome env w c
  cases c with
  | createRoomWithHost hostId roomName maxPlayers =>
    refine iff_of_true ?_ trivial
    rcases hout with ⟨roomId, -, ht⟩ | ⟨-, ht⟩ <;> rw [ht]
    · exact statusesAgree_openRoom h
    · exact h
  | addPlayer roomId userId =>
    refine iff_of_true ?_ trivial
    rcases hout with ⟨-, ht⟩ | ⟨-, ht⟩ <;> rw [ht] <;> exact h
  | removePlayer userId =>
    refine iff_of_true ?_ trivial
    rcases hout with ⟨roomId, -, ht⟩ | ⟨-, ht⟩ <;> rw [ht]
    · exact statusesAgree_leave h
    · exact h
  | createGame request =>
    rcases hout with ⟨roomId, mapId, hs, ht⟩ | ⟨hn, ht⟩ <;> rw [ht]
    · rw [statusesAgree_startGame_iff h]
      refine ⟨fun hfree r m hs' => ?_, fun hc => hc roomId mapId hs⟩
      rwa [Except.ok.inj (hs'.roomId_eq.symm.trans hs.roomId_eq)]
    · exact iff_of_true h fun roomId mapId hs => absurd hs (hn roomId mapId)
  | endGame gameId =>
    rcases step_endGame env w gameId with ⟨roomId, he, ht⟩ | ⟨hn, ht⟩ <;> rw [ht]
    · rw [statusesAgree_finishGame_iff h w.db.2]
      exact ⟨fun hover _ _ => hover, fun hc => hc roomId he⟩
    · exact iff_of_true h fun roomId he => absurd he (hn roomId)

/-- **The statuses of rooms and games.**  In a run from a fresh database they agree
throughout just when no game starts in a room that has one and no game that is on
is ended. -/
theorem statusesAgree_throughout_iff (env : Env) {w : World} (hw : Fresh w.db.1) (calls : List RoomCall) :
    Run.Throughout (step env) (fun w => StatusesAgree w.db.1) w calls ↔
      Run.Along (step env) (LeavesGames env) w calls := by
  have hstart : StatusesAgree w.db.1 := by
    intro r hr
    have hnone : w.db.1.gamesOn r.roomId = 0 := by rw [Tables.gamesOn, hw.games, List.countP_nil]
    rw [hnone, hw.terminated r hr]
    decide
  exact Run.throughout_iff_along (C := LeavesGames env) (I := fun w => StatusesAgree w.db.1) (fun _ h => h)
    (fun _ _ h => (statusesAgree_step_iff h).2) (fun _ _ h hc hs => hc ((statusesAgree_step_iff h).1 hs))
    hstart calls

/-- User 1 opens a room, starts a game in it, and the game ends. -/
theorem not_statusesAgree_endGame : ¬ Run.Throughout (step .reliable) (fun w => StatusesAgree w.db.1) .init
    [createRoomWithHost 1 "one" 4, createGame (.obj [("roomId", .int 1), ("mapId", .int 1)]), endGame 1] := by
  decide +kernel

/-- The only player leaves the game. -/
theorem statusesAgree_leave_init : Run.Throughout (step .reliable) (fun w => StatusesAgree w.db.1) .init
    [createRoomWithHost 1 "one" 4, createGame (.obj [("roomId", .int 1), ("mapId", .int 1)]),
      removePlayer 1, endGame 1] := by
  refine (statusesAgree_throughout_iff .reliable fresh_init _).2 ⟨trivial, ?_, trivial, ?_, trivial⟩
  · rintro roomId mapId h
    cases h.roomId_eq
    decide +kernel
  · intro _ _
    decide +kernel

end RoomCall

end Matching
end SocketCommunication
