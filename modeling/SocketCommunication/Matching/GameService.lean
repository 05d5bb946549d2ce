/-
# `GameServiceImpl`

`service/game_service.cpp`: a game request is answered with `success` unless the
repository's answer carries the `gameId` −1.
-/

import SocketCommunication.Matching.GameRepository
import SocketCommunication.Matching.RoomService

namespace SocketCommunication
namespace Matching

open Effect

namespace GameService

section Methods

variable (env : Env)

def startGame (request : Json) : DbM Json :=
  tryCatch
    (do
      if ¬ (request.contains "roomId" ∧ request.contains "mapId") then
        return errorResponse "게임 시작 요청에 필수 필드가 누락되었습니다"
      else
        let result ← GameRepository.createGame env request
        if (result.value "gameId").eqInt (-1) then
          return errorResponse "새 게임 기록 추가에 실패했습니다"
        else
          return .obj [("action", .str "gameStart"), ("status", .str "success"),
            ("message", .str "게임이 성공적으로 생성되었습니다"), ("gameId", result.value "gameId"),
            ("users", result.value "users")])
    fun e => return errorResponse ("게임 생성 오류: " ++ e.what)

def endGame (request : Json) : DbM Json :=
  tryCatch
    (do
      if ¬ request.contains "gameId" then
        return errorResponse "게임 종료 요청에 필수 필드가 누락되었습니다"
      else
        let gameId ← orThrow (request.value "gameId").getInt
        let result ← GameRepository.endGame env gameId
        if (result.value "gameId").eqInt (-1) then
          return errorResponse "게임 종료 업데이트에 실패했습니다"
        else
          return .obj [("action", .str "gameEnd"), ("status", .str "success"),
            ("roomId", result.value "roomId"), ("message", .str "게임이 성공적으로 종료되었습니다"),
            ("users", result.value "users")])
    fun e => return errorResponse ("게임 종료 오류: " ++ e.what)

end Methods

/-! ### What the answers promise -/

/-- One transaction was committed. -/
def Committed (w w' : World) : Prop := w'.commits = w.commits + 1

/-- The answer is `success` and carries the number of the game that was inserted
and the members of its room. -/
structure Granted (w : World) (j : Json) (w' : World) : Prop where
  success : j.succeeds
  game : ∃ g ∈ w'.db.1.games, g ∉ w.db.1.games ∧ j.value "gameId" = .int g.gameId ∧
    ∃ users : List ℤ, j.value "users" = .arr (users.map .int) ∧
      users.Perm (GameRepository.members w'.db.1 g.roomId)

/-- The answer to a `gameStart` request agrees with what was committed. -/
def StartSound (env : Env) (w : World) (request : Json) : Prop :=
  wp (startGame env request)
    (fun j w' => (Granted w j w' ↔ Committed w w') ∧
      (¬ j.succeeds → w'.db.1.rooms = w.db.1.rooms ∧ w'.db.1.games = w.db.1.games))
    (fun _ _ => False) w

/-- The row of the game is updated and the transaction committed. -/
def Finished (w w' : World) (gameId : ℤ) : Prop :=
  gameId ∈ w.db.1.games.map (·.gameId) ∧
    ∃ now, Published w w' (w.db.1.finishGame gameId now)

/-- The answer to a `gameEnd` request agrees with what was committed. -/
def EndSound (env : Env) (w : World) (request : Json) : Prop :=
  wp (endGame env request)
    (fun j w' =>
      (j.succeeds ↔ ∃ gameId, (request.value "gameId").getInt = .ok gameId ∧ Finished w w' gameId) ∧
      (¬ j.succeeds → w'.db = w.db))
    (fun _ _ => False) w

section Spec

variable {env : Env}

/-- A `gameStart` request is always refused, also when the game was created. -/
theorem startGame_spec (w : World) (request : Json) :
    wp (startGame env request)
      (fun j w' => j.succeeds = false ∧
        ((∃ roomId mapId, GameRepository.Starts env w request roomId mapId ∧
            Published w w' (GameRepository.startGame w.db.1 w.seqs.games roomId mapId
              (env.now (w.tick + 1)))) ∨
          ((∀ roomId mapId, ¬ GameRepository.Starts env w request roomId mapId) ∧ Unpublished w w')))
      (fun _ _ => False) w := by
  simp only [startGame, wp_tryCatch, wp_ite, wp_pure, succeeds_errorResponse, true_and]
  refine ⟨fun hmiss => .inr ⟨fun roomId mapId h => hmiss ⟨?_, ?_⟩, rfl, rfl⟩, fun _ => ?_⟩
  · exact Json.contains_of_getInt h.roomId_eq
  · exact Json.contains_of_getInt h.mapId_eq
  · rw [wp_bind]
    refine wp_mono (fun j w' h => ?_) (fun e w' h => .inr h) (GameRepository.createGame_spec w request)
    simp only [h.1, Json.eqInt, beq_self_eq_true, if_true, wp_pure, succeeds_errorResponse, true_and]
    exact h.2

/-- A `gameEnd` request is always refused, also when the game was updated. -/
theorem endGame_spec (w : World) (request : Json) :
    wp (endGame env request)
      (fun j w' => j.succeeds = false ∧
        ((∃ gameId roomId, (request.value "gameId").getInt = .ok gameId ∧
            GameRepository.Ends env w gameId roomId ∧
            Published w w' (w.db.1.finishGame gameId (env.now (w.tick + 1)))) ∨
          ((∀ gameId roomId, (request.value "gameId").getInt = .ok gameId →
            ¬ GameRepository.Ends env w gameId roomId) ∧ Unpublished w w')))
      (fun _ _ => False) w := by
  simp only [endGame, wp_tryCatch, wp_ite, wp_pure, succeeds_errorResponse, true_and]
  refine ⟨fun hmiss => .inr ⟨fun gameId roomId hg _ => hmiss (Json.contains_of_getInt hg), rfl, rfl⟩,
    fun _ => ?_⟩
  rw [wp_bind, wp_orThrow]
  refine ⟨fun gameId hgameId => ?_, fun e he => .inr ⟨fun _ _ hg => ?_, rfl, rfl⟩⟩
  swap
  · rw [hg] at he
    cases he
  have honly : ∀ {g}, (request.value "gameId").getInt = .ok g → g = gameId := fun h =>
    Except.ok.inj (h.symm.trans hgameId)
  rw [wp_bind]
  refine wp_mono (fun j w' h => ?_) (fun e w' h => ?_) (GameRepository.endGame_spec w gameId)
  · simp only [h.1, Json.eqInt, beq_self_eq_true, if_true, wp_pure, succeeds_errorResponse, true_and]
    rcases h.2 with ⟨roomId, hends, hp⟩ | ⟨hn, hu⟩
    · exact .inl ⟨gameId, roomId, hgameId, hends, hp⟩
    · exact .inr ⟨fun g r hg => honly hg ▸ hn r, hu⟩
  · exact .inr ⟨fun g r hg => honly hg ▸ h.1 r, h.2⟩

/-- A `gameStart` request is answered as it should be just when nothing is committed. -/
theorem startSound_iff (w : World) (request : Json) :
    StartSound env w request ↔ ∀ roomId mapId, ¬ GameRepository.Starts env w request roomId mapId := by
  constructor
  · intro h roomId mapId hs
    obtain ⟨j, w', hrun, hj, hcase⟩ := wp_returns (@startGame_spec env w request)
    obtain ⟨r, m, -, hp⟩ := hcase.resolve_right fun hn => hn.1 roomId mapId hs
    have hs : j.succeeds := ((wp_ok h hrun).1.2 hp.2).success
    rw [hj] at hs
    exact Bool.false_ne_true hs
  · intro hn
    refine wp_mono (fun j w' h => ?_) (fun _ _ h => h) (startGame_spec w request)
    have hu : Unpublished w w' := (h.2.resolve_left fun ⟨r, m, hs, _⟩ => hn r m hs).2
    refine ⟨⟨fun hg => ?_, fun hc => ?_⟩, fun _ => by rw [hu.1]; exact ⟨rfl, rfl⟩⟩
    · exact absurd hg.success (by rw [h.1]; decide)
    · rw [Committed, hu.2] at hc
      omega

/-- A `gameEnd` request is answered as it should be just when nothing is committed. -/
theorem endSound_iff (w : World) (request : Json) :
    EndSound env w request ↔ ∀ gameId roomId, (request.value "gameId").getInt = .ok gameId →
      ¬ GameRepository.Ends env w gameId roomId := by
  constructor
  · intro h gameId roomId hg hends
    obtain ⟨j, w', hrun, hj, hcase⟩ := wp_returns (@endGame_spec env w request)
    obtain ⟨g, r, hg', ⟨-, row, hrow, hid, -⟩, hp⟩ := hcase.resolve_right fun hn =>
      hn.1 gameId roomId hg hends
    have hs : j.succeeds := (wp_ok h hrun).1.2 ⟨g, hg', List.mem_map.2 ⟨row, hrow, hid⟩, _, hp⟩
    rw [hj] at hs
    exact Bool.false_ne_true hs
  · intro hn
    refine wp_mono (fun j w' h => ?_) (fun _ _ h => h) (endGame_spec w request)
    have hu : Unpublished w w' := (h.2.resolve_left fun ⟨g, r, hg, hends, _⟩ => hn g r hg hends).2
    refine ⟨⟨fun hs => ?_, fun ⟨g, _, hfin⟩ => ?_⟩, fun _ => hu.1⟩
    · exact absurd hs (by rw [h.1]; decide)
    · obtain ⟨-, now, hp⟩ := hfin
      have hc := hp.2
      rw [hu.2] at hc
      omega

/-- **The verdict on a game is exact only when there is nothing to report.**
`gameStart` is answered by what was committed just when no game is created, and
`gameEnd` just when no game is updated. -/
theorem startGame_endGame_sound_iff (env : Env) (w : World) :
    (∀ request, StartSound env w request ↔
      ∀ roomId mapId, ¬ GameRepository.Starts env w request roomId mapId) ∧
    ∀ request, EndSound env w request ↔
      ∀ gameId roomId, (request.value "gameId").getInt = .ok gameId →
        ¬ GameRepository.Ends env w gameId roomId :=
  ⟨startSound_iff w, endSound_iff w⟩

/-- A game of room 1 on map 1. -/
def startRequest : Json := .obj [("action", .str "gameStart"), ("roomId", .int 1), ("mapId", .int 1)]

/-- On the database of `db-init.sql` the game is created. -/
theorem starts_init : GameRepository.Starts .reliable .init startRequest 1 1 where
  roomId_eq := rfl
  mapId_eq := rfl
  answers := by decide +kernel
  fresh := by decide +kernel
  room := by decide +kernel
  map := by decide +kernel

/-- The answer is `error`. -/
theorem not_startSound_init : ¬ StartSound .reliable .init startRequest :=
  (startSound_iff .init startRequest).not.2 fun hnone => hnone 1 1 starts_init

end Spec

end GameService

end Matching
end SocketCommunication
