/-
# `GameRepositoryImpl`

The two methods of `repository/game_repository.cpp`.  Both build their answer
`response` before the transaction starts, with `gameId` −1 and no users; the
`catch` block returns what has been built so far.

`createGame_spec` and `endGame_spec` say when they commit and what they answer.
Neither ever writes `gameId`: `gameResult` carries −1 also for a game that was
created.
-/

import SocketCommunication.Matching.Database

namespace SocketCommunication
namespace Matching

open Effect

namespace GameRepository

section Methods

variable (env : Env)

/-- `response["users"].push_back(…)` for each row: the users that were read before a
conversion threw, and whether none has. -/
def readUsers : List ℤ → DbM (List ℤ × Bool)
  | [] => return ([], true)
  | userId :: rows => do
    let read ← tryCatch (some <$> field env (some userId)) fun _ => return none
    match read with
    | none => return ([], false)
    | some userId =>
      let (users, complete) ← readUsers rows
      return (userId :: users, complete)

def createGame (request : Json) : DbM Json := do
  let response := Json.obj [("gameId", .int (-1)), ("users", .arr [])]
  let conn ← getConnection env
  beginWork env
  tryCatch
    (do
      let roomId ← orThrow (request.value "roomId").getInt
      let mapId ← orThrow (request.value "mapId").getInt
      let now := (← get).began
      let result ← exec env fun q t =>
        ({ q with games := q.games + 1 }, [(q.games : ℤ)], t.insertGame q.games roomId mapId now)
      let updateRoom ← update env fun t =>
        ((t.rooms.filter fun r => r.roomId = roomId).map fun _ => RoomStatus.gameInProgress.text,
          t.setRoomStatus roomId .gameInProgress)
      if result = [] ∨ updateRoom = [] then giveUp conn response
      else
        let _ ← field env result.head?
        let inRoomUsers ← query env fun t =>
          (t.roomUsers.filter fun r => r.roomId = roomId).map (·.userId)
        let (users, complete) ← readUsers env inRoomUsers
        -- `catch` now answers with the users as well
        let response := response.set "users" (.arr (users.map .int))
        if ¬ complete then giveUp conn response
        else
          tryCatch
            (do
              commit env
              returnConnection conn
              return response)
            fun _ => giveUp conn response)
    fun _ => giveUp conn response

def endGame (gameId : ℤ) : DbM Json := do
  let response := Json.obj [("gameId", .int (-1)), ("users", .arr [])]
  let conn ← getConnection env
  beginWork env
  tryCatch
    (do
      let now := (← get).began
      let result ← update env fun t =>
        ((t.games.filter fun g => g.gameId = gameId).map (·.roomId), t.finishGame gameId now)
      match result with
      | [] => giveUp conn response
      | roomId :: _ =>
        let roomId ← field env (some roomId)
        let inRoomUsers ← query env fun t =>
          (t.roomUsers.filter fun r => r.roomId = roomId).map (·.userId)
        let (users, complete) ← readUsers env inRoomUsers
        let response := (response.set "roomId" (.int roomId)).set "users" (.arr (users.map .int))
        if ¬ complete then giveUp conn response
        else
          tryCatch
            (do
              commit env
              returnConnection conn
              return response)
            fun _ => giveUp conn response)
    fun _ => giveUp conn response

end Methods

/-! ### What the methods publish -/

/-- The users of a room. -/
def members (t : Tables) (roomId : ℤ) : List ℤ :=
  (t.roomUsers.filter fun r => r.roomId = roomId).map (·.userId)

/-- `createGame` commits a game of `roomId` on `mapId`. -/
structure Starts (env : Env) (w : World) (request : Json) (roomId mapId : ℤ) : Prop where
  roomId_eq : (request.value "roomId").getInt = .ok roomId
  mapId_eq : (request.value "mapId").getInt = .ok mapId
  answers : env.Answers w (6 + (members w.db.1 roomId).length)
  fresh : (w.seqs.games : ℤ) ∉ w.db.1.games.map (·.gameId)
  room : roomId ∈ w.db.1.rooms.map (·.roomId)
  map : mapId ∈ w.db.1.maps.map (·.mapId)

/-- The tables after the game has started. -/
def startGame (t : Tables) (gameId roomId mapId : ℤ) (now : ℕ) : Tables :=
  (t.insertGame gameId roomId mapId now).setRoomStatus roomId .gameInProgress

/-- `endGame` commits, for a game of `roomId`. -/
structure Ends (env : Env) (w : World) (gameId roomId : ℤ) : Prop where
  answers : env.Answers w (5 + (members w.db.1 roomId).length)
  game : ∃ g ∈ w.db.1.games, g.gameId = gameId ∧ g.roomId = roomId

section Spec

variable {env : Env}

theorem length_order_members (n : ℕ) (t : Tables) (roomId : ℤ) :
    (env.order n (members t roomId)).length = (members t roomId).length :=
  (env.order_perm n _).length_eq

/-- All rows are read when the conversions answer. -/
theorem wp_readUsers {w₀ : World} {t : Tables} {q : Seqs} {Q : List ℤ × Bool → World → Prop} {E : Exn → World → Prop}
    (rows : List ℤ) : ∀ {k : ℕ} {w : World}, Within env w₀ k t q w →
      (∀ w', Within env w₀ (k + rows.length) t q w' → Q (rows, true) w') →
      (∀ users w', ¬ env.Answers w₀ (k + rows.length) → InWork w₀ w' → Q (users, false) w') →
      wp (readUsers env rows) Q E w := by
  induction rows generalizing Q with
  | nil => exact fun h hQ _ => hQ _ h
  | cons userId rows ih =>
    intro k w h hQ hE
    have hlen : k + (userId :: rows).length = k + 1 + rows.length := by
      rw [List.length_cons]
      omega
    rw [hlen] at hQ hE
    simp only [readUsers, wp_bind, wp_tryCatch, wp_map, wp_pure]
    refine wp_field_some h (fun w₁ h₁ => ?_) fun e w' hn hw => hE _ w' (fun ha => hn (ha.mono (by omega))) hw
    exact ih h₁ (fun w' h' => hQ w' h') fun users w' hn hw => hE _ w' hn hw

theorem createGame_spec (w : World) (request : Json) :
    wp (createGame env request)
      (fun j w' => j.value "gameId" = .int (-1) ∧
        ((∃ roomId mapId, Starts env w request roomId mapId ∧
            Published w w' (startGame w.db.1 w.seqs.games roomId mapId (env.now (w.tick + 1)))) ∨
          ((∀ roomId mapId, ¬ Starts env w request roomId mapId) ∧ Unpublished w w')))
      (fun _ w' => (∀ roomId mapId, ¬ Starts env w request roomId mapId) ∧ Unpublished w w') w := by
  have hsix : ∀ {k r m}, k ≤ 6 → ¬ env.Answers w k → ¬ Starts env w request r m :=
    fun hk hn h => hn (h.answers.mono (by omega))
  have hnone : (Json.obj [("gameId", .int (-1)), ("users", .arr [])]).value "gameId" = .int (-1) := rfl
  refine wp_open (fun conn w₁ h₁ => ?_) fun e w' hn hu => ⟨fun _ _ => hsix (by decide) hn, hu⟩
  simp only [wp_tryCatch, wp_bind]
  rw [wp_orThrow]
  refine ⟨fun roomId hroomId => ?_, fun e he => wp_giveUp h₁.inWork fun w' hw' =>
    ⟨hnone, .inr ⟨fun _ _ h => by simp [h.roomId_eq] at he, hw'⟩⟩⟩
  rw [wp_orThrow]
  refine ⟨fun mapId hmapId => ?_, fun e he => wp_giveUp h₁.inWork fun w' hw' =>
    ⟨hnone, .inr ⟨fun _ _ h => by simp [h.mapId_eq] at he, hw'⟩⟩⟩
  have honly : ∀ {r m}, Starts env w request r m → r = roomId ∧ m = mapId := fun h =>
    ⟨Except.ok.inj (h.roomId_eq.symm.trans hroomId), Except.ok.inj (h.mapId_eq.symm.trans hmapId)⟩
  have hvalid := Tables.valid_insertGame w.db.2 w.seqs.games roomId mapId (env.now (w.tick + 1))
  rw [wp_get]
  simp only [h₁.began]
  refine wp_exec h₁ (fun w₂ hv₂ h₂ => ?_) fun e w' hn hw => wp_giveUp hw fun w' hw' =>
    ⟨hnone, .inr ⟨fun r m h => ?_, hw'⟩⟩
  swap
  · obtain ⟨rfl, rfl⟩ := honly h
    exact hn.elim (fun hn => hsix (by decide) hn h) fun hn => hn (hvalid.2 ⟨h.fresh, h.room, h.map⟩)
  obtain ⟨hfresh, hroom, hmap⟩ := hvalid.1 hv₂
  refine wp_update h₂ (fun w₃ _ h₃ => ?_) fun e w' hn hw => wp_giveUp hw fun w' hw' =>
    ⟨hnone, .inr ⟨fun _ _ => hsix (by decide) (hn.resolve_right fun hn => hn (hv₂.setRoomStatus ..)), hw'⟩⟩
  have hrooms : (w.db.1.insertGame w.seqs.games roomId mapId (env.now (w.tick + 1))).rooms.filter
      (fun r => r.roomId = roomId) ≠ [] := by
    obtain ⟨r, hr, hid⟩ := List.mem_map.1 hroom
    exact List.ne_nil_of_mem (List.mem_filter.2 ⟨hr, by simpa using hid⟩)
  simp only [wp_ite, Env.order_eq_nil, List.map_eq_nil_iff, hrooms, List.cons_ne_nil, or_self,
    false_implies, not_false_eq_true, true_implies, true_and, wp_bind, wp_tryCatch]
  simp only [Env.order_singleton, List.head?_cons]
  refine wp_field_some h₃ (fun w₄ h₄ => ?_) fun e w' hn hw => wp_giveUp hw fun w' hw' =>
    ⟨hnone, .inr ⟨fun _ _ => hsix (by decide) hn, hw'⟩⟩
  refine wp_query h₄ (fun w₅ h₅ => ?_) fun e w' hn hw => wp_giveUp hw fun w' hw' =>
    ⟨hnone, .inr ⟨fun _ _ => hsix (by decide) hn, hw'⟩⟩
  have hlast : ∀ {n k r m}, k ≤ 6 → ¬ env.Answers w (k + (env.order n (members w.db.1 roomId)).length) →
      ¬ Starts env w request r m := by
    intro n k r m hk hn h
    obtain ⟨rfl, rfl⟩ := honly h
    rw [length_order_members] at hn
    exact hn (h.answers.mono (by omega))
  refine wp_readUsers _ h₅ (fun w₆ h₆ => ?_) fun users w' hn hw => ?_
  · refine ⟨fun h => absurd rfl h, fun _ => ?_⟩
    refine wp_commit h₆ (fun w₇ h₇ => wp_returnConnection fun pool => ?_) fun e w' hn hw =>
      wp_giveUp hw fun w' hw' => ⟨rfl, .inr ⟨fun _ _ => ?_, hw'⟩⟩
    · refine ⟨rfl, .inl ⟨roomId, mapId, ⟨hroomId, hmapId, h₇.answers.mono ?_, hfresh, hroom, hmap⟩, h₇.published⟩⟩
      have := @length_order_members env (w.tick + 1 + (1 + 1 + 1 + 1)) w.db.1 roomId
      change _ ≤ 1 + 1 + 1 + 1 + 1 + (env.order (w.tick + 1 + (1 + 1 + 1 + 1)) (members w.db.1 roomId)).length + 1
      omega
    · refine hlast (n := w.tick + 1 + (1 + 1 + 1 + 1)) (k := 6) le_rfl fun h => hn (h.mono ?_)
      change 1 + 1 + 1 + 1 + 1 + (env.order (w.tick + 1 + (1 + 1 + 1 + 1)) (members w.db.1 roomId)).length + 1 ≤ _
      omega
  · refine ⟨fun _ => wp_giveUp hw fun w' hw' => ?_, fun h => absurd Bool.false_ne_true h⟩
    exact ⟨rfl, .inr ⟨fun _ _ => hlast (by decide) hn, hw'⟩⟩

theorem endGame_spec (w : World) (gameId : ℤ) :
    wp (endGame env gameId)
      (fun j w' => j.value "gameId" = .int (-1) ∧
        ((∃ roomId, Ends env w gameId roomId ∧
            Published w w' (w.db.1.finishGame gameId (env.now (w.tick + 1)))) ∨
          ((∀ roomId, ¬ Ends env w gameId roomId) ∧ Unpublished w w')))
      (fun _ w' => (∀ roomId, ¬ Ends env w gameId roomId) ∧ Unpublished w w') w := by
  have hfive : ∀ {k r}, k ≤ 5 → ¬ env.Answers w k → ¬ Ends env w gameId r :=
    fun hk hn h => hn (h.answers.mono (by omega))
  have hnone : (Json.obj [("gameId", .int (-1)), ("users", .arr [])]).value "gameId" = .int (-1) := rfl
  refine wp_open (fun conn w₁ h₁ => ?_) fun e w' hn hu => ⟨fun _ => hfive (by decide) hn, hu⟩
  simp only [wp_tryCatch, wp_bind, wp_get, h₁.began]
  refine wp_update h₁ (fun w₂ _ h₂ => ?_) fun e w' hn hw => wp_giveUp hw fun w' hw' =>
    ⟨hnone, .inr ⟨fun _ => hfive (by decide) (hn.resolve_right fun hn => hn (w.db.2.finishGame ..)), hw'⟩⟩
  by_cases hgame : ∃ g ∈ w.db.1.games, g.gameId = gameId
  swap
  · have hnil : w.db.1.games.filter (fun g => g.gameId = gameId) = [] := by
      simpa [List.filter_eq_nil_iff] using hgame
    simp only [hnil, List.map_nil, Env.order_nil]
    refine wp_giveUp h₂.inWork fun w' hw' => ⟨hnone, .inr ⟨fun _ h => ?_, hw'⟩⟩
    obtain ⟨g, hg, hid, -⟩ := h.game
    exact hgame ⟨g, hg, hid⟩
  obtain ⟨g, hg, rfl⟩ := hgame
  simp only [Rows.filter_key_eq w.db.2.games_pkey hg, List.map_cons, List.map_nil, Env.order_singleton, wp_bind,
    wp_tryCatch, wp_ite]
  refine wp_field_some h₂ (fun w₃ h₃ => ?_) fun e w' hn hw => wp_giveUp hw fun w' hw' =>
    ⟨hnone, .inr ⟨fun _ => hfive (by decide) hn, hw'⟩⟩
  refine wp_query h₃ (fun w₄ h₄ => ?_) fun e w' hn hw => wp_giveUp hw fun w' hw' =>
    ⟨hnone, .inr ⟨fun _ => hfive (by decide) hn, hw'⟩⟩
  have hlast : ∀ {n k r}, k ≤ 5 → ¬ env.Answers w (k + (env.order n (members w.db.1 g.roomId)).length) →
      ¬ Ends env w g.gameId r := by
    intro n k r hk hn h
    obtain ⟨g', hg', hid, rfl⟩ := h.game
    obtain rfl := Rows.eq_of_key_eq w.db.2.games_pkey hg' hg hid
    rw [length_order_members] at hn
    exact hn (h.answers.mono (by omega))
  refine wp_readUsers _ h₄ (fun w₅ h₅ => ?_) fun users w' hn hw => ?_
  · refine ⟨fun h => absurd rfl h, fun _ => ?_⟩
    refine wp_commit h₅ (fun w₆ h₆ => wp_returnConnection fun pool => ?_) fun e w' hn hw =>
      wp_giveUp hw fun w' hw' => ⟨rfl, .inr ⟨fun _ => ?_, hw'⟩⟩
    · refine ⟨rfl, .inl ⟨g.roomId, ⟨h₆.answers.mono ?_, g, hg, rfl, rfl⟩, h₆.published⟩⟩
      have := @length_order_members env (w.tick + 1 + (1 + 1 + 1)) w.db.1 g.roomId
      change _ ≤ 1 + 1 + 1 + 1 + (env.order (w.tick + 1 + (1 + 1 + 1)) (members w.db.1 g.roomId)).length + 1
      omega
    · refine hlast (n := w.tick + 1 + (1 + 1 + 1)) (k := 5) le_rfl fun h => hn (h.mono ?_)
      change 1 + 1 + 1 + 1 + (env.order (w.tick + 1 + (1 + 1 + 1)) (members w.db.1 g.roomId)).length + 1 ≤ _
      omega
  · refine ⟨fun _ => wp_giveUp hw fun w' hw' => ?_, fun h => absurd Bool.false_ne_true h⟩
    exact ⟨rfl, .inr ⟨fun _ => hlast (by decide) hn, hw'⟩⟩

end Spec

end GameRepository

end Matching
end SocketCommunication
