/-
# `RoomRepositoryImpl`

The methods of `repository/room_repository.cpp`, statement by statement, and what
each of them publishes.

A method takes its connection and opens its transaction before its `try` block,
so an exception there leaves the method.  Inside, the `catch` block aborts,
returns the connection and answers; after a commit that abort throws.
`createRoomWithHost_spec`, `addPlayer_spec` and `removePlayer_spec` say in one
statement each when the method commits, what the tables are then, and that they
are untouched otherwise.
-/

import SocketCommunication.Matching.Database
import Mathlib.Data.List.Sort

namespace SocketCommunication
namespace Matching

open Effect

namespace RoomRepository

variable (env : Env)

/-- A row of `findAllOpen` as JSON. -/
def roomJson (r : RoomRow) : DbM Json := do
  let _ ← field env (some r.roomId)
  let _ ← field env (some r.roomName)
  let _ ← field env (some r.hostId)
  let ipAddress ← field env r.ipAddress
  let port ← field env r.port
  let _ ← field env (some r.maxPlayers)
  let _ ← field env (some r.status)
  let createdAt ← field env r.createdAt
  return .obj [("roomId", .int r.roomId), ("roomName", .str r.roomName), ("hostId", .int r.hostId),
    ("ipAddress", .str ipAddress), ("port", .int port), ("maxPlayers", .int r.maxPlayers),
    ("status", .str r.status.text), ("createdAt", .str (env.timestampText createdAt))]

/-- `ORDER BY created_at DESC`: `NULL` comes first. -/
def newer (r s : RoomRow) : Prop :=
  match r.createdAt, s.createdAt with
  | none, _ => True
  | some _, none => False
  | some a, some b => b ≤ a

instance : DecidableRel newer := fun r s => by
  unfold newer
  cases r.createdAt <;> cases s.createdAt <;> exact inferInstance

def findAllOpen : DbM (List Json) := do
  let conn ← getConnection env
  beginWork env
  tryCatch
    (do
      let result ← query env fun t =>
        t.rooms.filter fun r => r.status = .waiting ∨ r.status = .gameInProgress
      commit env
      returnConnection conn
      (result.insertionSort newer).mapM (roomJson env))
    fun _ => giveUp conn []

def createRoomWithHost (hostId : ℤ) (roomName : String) (maxPlayers : ℤ) : DbM Json := do
  let conn ← getConnection env
  beginWork env
  let result := Json.obj [("roomId", .int (-1))]
  tryCatch
    (do
      let isJoined ← query env fun t =>
        ((t.roomUsers.filter fun r => r.userId = hostId).map (·.roomId)).take 1
      if isJoined ≠ [] then giveUp conn result
      else
        -- SELECT … WHERE status = 'TERMINATED' ORDER BY room_id LIMIT 1 FOR UPDATE
        let idResult ← query env fun t =>
          ((t.rooms.filter fun r => r.status = .terminated).map (·.roomId)).min?.toList
        match idResult with
        | [] => giveUp conn result
        | roomId :: _ =>
          let roomId ← field env (some roomId)
          let now := (← get).began
          let roomResult ← update env fun t =>
            ((t.rooms.filter fun r => r.roomId = roomId ∧ r.status = .terminated).map fun r =>
              (r.roomId, Tables.varchar 100 (sqlText roomName), r.ipAddress, r.port, maxPlayers),
            t.reopenRoom roomId (sqlText roomName) hostId maxPlayers now)
          match roomResult with
          | [] => giveUp conn result
          | (id, name, ip, port, players) :: _ =>
            let _ ← update env fun t => (([] : List ℤ), t.insertRoomUser roomId hostId now)
            commit env
            returnConnection conn
            -- the transaction is over: an exception from here on leaves the method
            let id ← field env (some id)
            let name ← field env (some name)
            let ipAddress ← field env ip
            let port ← field env port
            let players ← field env (some players)
            return .obj [("roomId", .int id), ("roomName", .str name), ("ipAddress", .str ipAddress),
              ("port", .int port), ("maxPlayers", .int players)])
    fun _ => giveUp conn result

def addPlayer (roomId userId : ℤ) : DbM Bool := do
  let conn ← getConnection env
  beginWork env
  tryCatch
    (do
      let roomCheck ← query env fun t =>
        (t.rooms.filter fun r => r.roomId = roomId).map (·.status.text)
      match roomCheck with
      | [] => giveUp conn false
      | status :: _ =>
        let status ← field env (some status)
        if status ≠ "WAITING" then giveUp conn false
        else
          let checkResult ← query env fun t =>
            (t.roomUsers.filter fun r => r.roomId = roomId ∧ r.userId = userId).map (·.joinedAt)
          if checkResult ≠ [] then giveUp conn false
          else
            -- SELECT max_players, (SELECT COUNT(*) …) … FOR UPDATE
            let maxPlayersResult ← query env fun t =>
              (t.rooms.filter fun r => r.roomId = roomId).map fun r =>
                (r.maxPlayers, ((t.roomUsers.filter fun q => q.roomId = roomId).length : ℤ))
            let maxPlayers ← field env (maxPlayersResult.head?.map (·.1))
            let currentPlayers ← field env (maxPlayersResult.head?.map (·.2))
            if maxPlayers ≤ currentPlayers then giveUp conn false
            else
              let now := (← get).began
              let result ← update env fun t => ([roomId], t.insertRoomUser roomId userId now)
              if result = [] then giveUp conn false
              else
                commit env
                returnConnection conn
                return true)
    fun _ => giveUp conn false

def removePlayer (userId : ℤ) : DbM Bool := do
  let conn ← getConnection env
  beginWork env
  tryCatch
    (do
      let roomResult ← query env fun t =>
        (t.roomUsers.filter fun r => r.userId = userId).map (·.roomId)
      match roomResult with
      | [] => giveUp conn false
      | roomId :: _ =>
        let roomId ← field env (some roomId)
        let now := (← get).began
        let _ ← update env fun t => (([] : List ℤ), t.deleteRoomUsers userId)
        let countResult ← query env fun t => [(t.roomUsers.filter fun r => r.roomId = roomId).length]
        let remainingPlayers ← field env countResult.head?
        if remainingPlayers = 0 then
          let _ ← update env fun t => (([] : List ℤ), t.setRoomStatus roomId .terminated)
          let _ ← update env fun t => (([] : List ℤ), t.completeGames roomId now)
          commit env
          returnConnection conn
          return true
        else
          commit env
          returnConnection conn
          return true)
    fun _ => giveUp conn false

def getPlayerCount (roomId : ℤ) : DbM ℤ := do
  let conn ← getConnection env
  beginWork env
  tryCatch
    (do
      let result ← query env fun t => [((t.roomUsers.filter fun r => r.roomId = roomId).length : ℤ)]
      commit env
      returnConnection conn
      match result with
      | [] => return 0
      | count :: _ => field env (some count))
    fun _ => giveUp conn (-1)

def getPlayersInRoom (roomId : ℤ) : DbM (List ℤ) := do
  let conn ← getConnection env
  beginWork env
  tryCatch
    (do
      let result ← query env fun t =>
        (t.roomUsers.filter fun r => r.roomId = roomId).map (·.userId)
      commit env
      returnConnection conn
      result.mapM fun userId => field env (some userId))
    fun _ => giveUp conn []

/-! ### What the methods publish -/

section Spec

variable {env : Env}

/-- What the conversion of a column keeps, that of a row does. -/
theorem roomJson_keeps {R : World → World → Prop} [IsPreorder World R]
    (h : ∀ {α : Type} (column : Option α), Keeps R (field env column)) (r : RoomRow) : Keeps R (roomJson env r) :=
  keeps_bind (h _) fun _ => keeps_bind (h _) fun _ => keeps_bind (h _) fun _ => keeps_bind (h _) fun _ =>
    keeps_bind (h _) fun _ => keeps_bind (h _) fun _ => keeps_bind (h _) fun _ => keeps_bind (h _) fun _ => keeps_pure _

/-- `addPlayer` finds room, seat and user. -/
structure CanJoin (t : Tables) (roomId userId : ℤ) : Prop where
  room : ∃ r ∈ t.rooms, r.roomId = roomId ∧ r.status = .waiting ∧
    (t.roomUsers.filter fun q => q.roomId = roomId).length < r.maxPlayers
  fresh : ∀ q ∈ t.roomUsers, q.roomId = roomId → q.userId ≠ userId
  user : userId ∈ t.users.map (·.userId)

instance (t : Tables) (roomId userId : ℤ) : Decidable (CanJoin t roomId userId) :=
  decidable_of_iff ((∃ r ∈ t.rooms, r.roomId = roomId ∧ r.status = .waiting ∧
      (t.roomUsers.filter fun q => q.roomId = roomId).length < r.maxPlayers) ∧
      (∀ q ∈ t.roomUsers, q.roomId = roomId → q.userId ≠ userId) ∧ userId ∈ t.users.map (·.userId))
    ⟨fun h => ⟨h.1, h.2.1, h.2.2⟩, fun h => ⟨h.room, h.fresh, h.user⟩⟩

/-- `addPlayer` commits. -/
def Joins (env : Env) (w : World) (roomId userId : ℤ) : Prop :=
  env.Answers w 9 ∧ CanJoin w.db.1 roomId userId

instance (env : Env) (w : World) (roomId userId : ℤ) : Decidable (Joins env w roomId userId) :=
  inferInstanceAs (Decidable (env.Answers w 9 ∧ CanJoin w.db.1 roomId userId))

theorem addPlayer_spec (w : World) (roomId userId : ℤ) :
    wp (addPlayer env roomId userId)
      (fun b w' => if b then Joins env w roomId userId ∧
          Published w w' (w.db.1.insertRoomUser roomId userId (env.now (w.tick + 1)))
        else ¬ Joins env w roomId userId ∧ Unpublished w w')
      (fun _ w' => ¬ Joins env w roomId userId ∧ Unpublished w w') w := by
  refine wp_open (fun conn w₁ h₁ => ?_) fun e w' hn hu => ⟨fun h => hn (h.1.mono (by decide)), hu⟩
  -- every way out of the block but the commit gives up
  have hout : ∀ {E : Exn → World → Prop} {w' : World}, InWork w w' → ¬ Joins env w roomId userId →
      wp (giveUp conn false)
        (fun b w' => if b then Joins env w roomId userId ∧
            Published w w' (w.db.1.insertRoomUser roomId userId (env.now (w.tick + 1)))
          else ¬ Joins env w roomId userId ∧ Unpublished w w') E w' := fun hw hn =>
    wp_giveUp hw fun w' hw' => by simpa using ⟨hn, hw'⟩
  simp only [wp_tryCatch, wp_bind]
  refine wp_query h₁ (fun w₂ h₂ => ?_) fun e w' hn hw => hout hw fun h => hn (h.1.mono (by decide))
  by_cases hroom : ∃ r ∈ w.db.1.rooms, r.roomId = roomId
  swap
  · have hnil : w.db.1.rooms.filter (fun r => r.roomId = roomId) = [] := by
      simpa [List.filter_eq_nil_iff] using hroom
    simp only [hnil, List.map_nil, Env.order_nil]
    refine hout h₂.inWork fun h => ?_
    obtain ⟨r, hr, hid, -⟩ := h.2.room
    exact hroom ⟨r, hr, hid⟩
  obtain ⟨r, hr, rfl⟩ := hroom
  have hrow : w.db.1.rooms.filter (fun q => q.roomId = r.roomId) = [r] :=
    Rows.filter_key_eq w.db.2.rooms_pkey hr
  have hone : CanJoin w.db.1 r.roomId userId → r.status = .waiting ∧
      (w.db.1.roomUsers.filter fun q => q.roomId = r.roomId).length < r.maxPlayers := by
    intro h
    obtain ⟨q, hq, hid, hwait, hlt⟩ := h.room
    obtain rfl := Rows.eq_of_key_eq w.db.2.rooms_pkey hq hr hid
    exact ⟨hwait, hlt⟩
  simp only [hrow, List.map_cons, List.map_nil, Env.order_singleton, wp_bind, wp_ite, ne_eq]
  refine wp_field_some h₂ (fun w₃ h₃ => ?_) fun e w' hn hw => hout hw fun h => hn (h.1.mono (by decide))
  rw [RoomStatus.text_eq_waiting]
  refine ⟨fun hst => hout h₃.inWork fun h => hst (hone h.2).1, fun hst => ?_⟩
  refine wp_query h₃ (fun w₄ h₄ => ?_) fun e w' hn hw => hout hw fun h => hn (h.1.mono (by decide))
  simp only [Env.order_eq_nil, List.map_eq_nil_iff, List.filter_eq_nil_iff,
    decide_eq_true_eq, not_and, not_not]
  refine ⟨fun hc => hout h₄.inWork fun h => hc h.2.fresh, fun hc => ?_⟩
  refine wp_query h₄ (fun w₅ h₅ => ?_) fun e w' hn hw => hout hw fun h => hn (h.1.mono (by decide))
  simp only [hrow, List.map_cons, List.map_nil, Env.order_singleton, List.head?_cons, Option.map_some]
  refine wp_field_some h₅ (fun w₆ h₆ => ?_) fun e w' hn hw => hout hw fun h => hn (h.1.mono (by decide))
  refine wp_field_some h₆ (fun w₇ h₇ => ?_) fun e w' hn hw => hout hw fun h => hn (h.1.mono (by decide))
  simp only [wp_get, h₇.began]
  refine ⟨fun hfull => hout h₇.inWork fun h => absurd (hone h.2).2 (not_lt.2 hfull), fun hfull => ?_⟩
  refine wp_update h₇ (fun w₈ hv h₈ => ?_) fun e w' hn hw => hout hw fun h => ?_
  · rw [Env.order_singleton]
    refine ⟨fun h => absurd h (List.cons_ne_nil _ _), fun _ => ?_⟩
    have hcan := (Tables.valid_insertRoomUser w.db.2 ..).1 hv
    refine wp_commit h₈ (fun w₉ h₉ => wp_returnConnection fun pool => ?_) fun e w' hn hw =>
      hout hw fun h => hn (h.1.mono (by decide))
    exact ⟨⟨h₉.answers, ⟨r, hr, rfl, not_not.1 hst, not_le.1 hfull⟩, hcan.1, hcan.2.2⟩, h₉.published⟩
  · rcases hn with hn | hn
    · exact hn (h.1.mono (by decide))
    · exact hn ((Tables.valid_insertRoomUser w.db.2 ..).2 ⟨h.2.fresh, List.mem_map_of_mem hr, h.2.user⟩)

/-- The room that `removePlayer` reads first. -/
def firstRoom (env : Env) (w : World) (userId : ℤ) : Option ℤ :=
  (env.order (w.tick + 2) ((w.db.1.roomUsers.filter fun r => r.userId = userId).map (·.roomId))).head?

/-- The tables after `userId` has left, having been found in `roomId`. -/
def leave (t : Tables) (userId roomId : ℤ) (now : ℕ) : Tables :=
  if ((t.deleteRoomUsers userId).roomUsers.filter fun r => r.roomId = roomId).length = 0 then
    ((t.deleteRoomUsers userId).setRoomStatus roomId .terminated).completeGames roomId now
  else t.deleteRoomUsers userId

section Leave

variable (t : Tables) (userId roomId : ℤ) (now : ℕ)

theorem roomUsers_leave :
    (leave t userId roomId now).roomUsers = Rows.delete (fun r => r.userId = userId) t.roomUsers := by
  unfold leave
  split_ifs <;> rfl

/-- The members that stay. -/
theorem mem_roomUsers_leave {t : Tables} {userId roomId : ℤ} {now : ℕ} {q : RoomUserRow} :
    q ∈ (leave t userId roomId now).roomUsers ↔ q ∈ t.roomUsers ∧ q.userId ≠ userId := by
  rw [roomUsers_leave, Rows.mem_delete]

theorem users_leave : (leave t userId roomId now).users = t.users := by
  unfold leave
  split_ifs <;> rfl

end Leave

/-- `removePlayer` commits, having found `roomId`. -/
def Leaves (env : Env) (w : World) (userId roomId : ℤ) : Prop :=
  firstRoom env w userId = some roomId ∧
    env.Answers w
      (if ((w.db.1.deleteRoomUsers userId).roomUsers.filter fun r => r.roomId = roomId).length = 0 then 9 else 7)

instance (env : Env) (w : World) (userId : ℤ) : Decidable (∃ roomId, Leaves env w userId roomId) :=
  inferInstanceAs (Decidable (∃ roomId, firstRoom env w userId = some roomId ∧ env.Answers w
    (if ((w.db.1.deleteRoomUsers userId).roomUsers.filter fun r => r.roomId = roomId).length = 0 then 9 else 7)))

theorem Leaves.exists_row {w : World} {userId roomId : ℤ} (h : Leaves env w userId roomId) :
    ∃ r ∈ w.db.1.roomUsers, r.roomId = roomId ∧ r.userId = userId := by
  have hmem := List.mem_of_head? h.1
  rw [(env.order_perm _ _).mem_iff] at hmem
  obtain ⟨r, hr, hid⟩ := List.mem_map.1 hmem
  obtain ⟨hr, hu⟩ := List.mem_filter.1 hr
  exact ⟨r, hr, hid, of_decide_eq_true hu⟩

/-- Where no call fails, a user whom `removePlayer` does not remove is in no room. -/
theorem absent_of_not_leaves (hs : env.Steady) {w : World} {userId : ℤ} (hn : ∀ roomId, ¬ Leaves env w userId roomId) :
    ∀ r ∈ w.db.1.roomUsers, r.userId ≠ userId := by
  intro r hr hru
  cases hfirst : firstRoom env w userId with
  | none =>
    rw [firstRoom, List.head?_eq_none_iff, Env.order_eq_nil, List.map_eq_nil_iff, List.filter_eq_nil_iff] at hfirst
    exact hfirst r hr (by simpa using hru)
  | some roomId => exact hn roomId ⟨hfirst, hs.answers w _⟩

theorem removePlayer_spec (w : World) (userId : ℤ) :
    wp (removePlayer env userId)
      (fun b w' => if b then ∃ roomId, Leaves env w userId roomId ∧
          Published w w' (leave w.db.1 userId roomId (env.now (w.tick + 1)))
        else (∀ roomId, ¬ Leaves env w userId roomId) ∧ Unpublished w w')
      (fun _ w' => (∀ roomId, ¬ Leaves env w userId roomId) ∧ Unpublished w w') w := by
  have hseven : ∀ {k roomId}, k ≤ 7 → ¬ env.Answers w k → ¬ Leaves env w userId roomId := by
    intro k roomId hk hn h
    refine hn (h.2.mono (hk.trans ?_))
    split_ifs <;> decide
  refine wp_open (fun conn w₁ h₁ => ?_) fun e w' hn hu => ⟨fun _ => hseven (by decide) hn, hu⟩
  -- every way out of the block but the commits gives up
  have hout : ∀ {E : Exn → World → Prop} {w' : World}, InWork w w' →
      (∀ roomId, ¬ Leaves env w userId roomId) → wp (giveUp conn false)
        (fun b w' => if b then ∃ roomId, Leaves env w userId roomId ∧
            Published w w' (leave w.db.1 userId roomId (env.now (w.tick + 1)))
          else (∀ roomId, ¬ Leaves env w userId roomId) ∧ Unpublished w w') E w' := fun hw hn =>
    wp_giveUp hw fun w' hw' => by simpa using ⟨hn, hw'⟩
  simp only [wp_tryCatch, wp_bind]
  refine wp_query h₁ (fun w₂ h₂ => ?_) fun e w' hn hw => hout hw fun _ => hseven (by decide) hn
  have hfirst : firstRoom env w userId = (env.order (w.tick + 1 + 1)
    ((w.db.1.roomUsers.filter fun r => r.userId = userId).map (·.roomId))).head? := rfl
  cases hrows : env.order (w.tick + 1 + 1)
    ((w.db.1.roomUsers.filter fun r => r.userId = userId).map (·.roomId)) with
  | nil =>
    refine hout h₂.inWork fun roomId h => ?_
    have := hfirst.symm.trans h.1
    simp [hrows] at this
  | cons roomId rest =>
    rw [hrows, List.head?_cons] at hfirst
    have honly : ∀ {r}, Leaves env w userId r → r = roomId := fun h =>
      Option.some.inj (h.1.symm.trans hfirst)
    simp only [wp_bind, wp_get]
    refine wp_field_some h₂ (fun w₃ h₃ => ?_) fun e w' hn hw => hout hw fun _ => hseven (by decide) hn
    rw [h₃.began]
    refine wp_update h₃ (fun w₄ hv₄ h₄ => ?_) fun e w' hn hw => hout hw fun _ =>
      hseven (by decide) (hn.resolve_right fun hv => hv (w.db.2.deleteRoomUsers userId))
    refine wp_query h₄ (fun w₅ h₅ => ?_) fun e w' hn hw => hout hw fun _ => hseven (by decide) hn
    simp only [Env.order_singleton, List.head?_cons]
    refine wp_field_some h₅ (fun w₆ h₆ => ?_) fun e w' hn hw => hout hw fun _ => hseven (by decide) hn
    simp only [wp_ite, wp_bind]
    refine ⟨fun hempty => ?_, fun hempty => ?_⟩
    · have hnine : ∀ {k r}, k ≤ 9 → ¬ env.Answers w k → ¬ Leaves env w userId r := by
        intro k r hk hn h
        obtain rfl := honly h
        have := h.2
        rw [if_pos hempty] at this
        exact hn (this.mono hk)
      have hv := (w.db.2.deleteRoomUsers userId).setRoomStatus roomId .terminated
      refine wp_update h₆ (fun w₇ _ h₇ => ?_) fun e w' hn hw => hout hw fun _ =>
        hnine (by decide) (hn.resolve_right fun hn => hn hv)
      refine wp_update h₇ (fun w₈ _ h₈ => ?_) fun e w' hn hw => hout hw fun _ =>
        hnine (by decide) (hn.resolve_right fun hn => hn (hv.completeGames roomId _))
      refine wp_commit h₈ (fun w₉ h₉ => wp_returnConnection fun pool => ?_) fun e w' hn hw =>
        hout hw fun _ => hnine (by decide) hn
      refine ⟨roomId, ⟨hfirst, by rw [if_pos hempty]; exact h₉.answers⟩, ?_⟩
      rw [leave, if_pos hempty]
      exact h₉.published
    · refine wp_commit h₆ (fun w₉ h₉ => wp_returnConnection fun pool => ?_) fun e w' hn hw =>
        hout hw fun _ => hseven (by decide) hn
      refine ⟨roomId, ⟨hfirst, by rw [if_neg hempty]; exact h₉.answers⟩, ?_⟩
      rw [leave, if_neg hempty]
      exact h₉.published

/-- The room that `createRoomWithHost` picks. -/
def freeRoom (t : Tables) : Option ℤ :=
  ((t.rooms.filter fun r => r.status = .terminated).map (·.roomId)).min?

theorem freeRoom_mem {t : Tables} {roomId : ℤ} (h : freeRoom t = some roomId) :
    ∃ r ∈ t.rooms, r.roomId = roomId ∧ r.status = .terminated := by
  have hmem := List.min?_mem h
  obtain ⟨r, hr, rfl⟩ := List.mem_map.1 hmem
  obtain ⟨hr, hst⟩ := List.mem_filter.1 hr
  exact ⟨r, hr, rfl, by simpa using hst⟩

/-- `createRoomWithHost` commits, and takes `roomId`. -/
structure Opens (env : Env) (w : World) (hostId : ℤ) (roomName : String) (roomId : ℤ) : Prop where
  answers : env.Answers w 7
  free : freeRoom w.db.1 = some roomId
  alone : ∀ r ∈ w.db.1.roomUsers, r.userId ≠ hostId
  host : hostId ∈ w.db.1.users.map (·.userId)
  name : Tables.charLength (Tables.varchar 100 (sqlText roomName)) ≤ 100

instance (env : Env) (w : World) (hostId : ℤ) (roomName : String) (roomId : ℤ) :
    Decidable (Opens env w hostId roomName roomId) :=
  decidable_of_iff (env.Answers w 7 ∧ freeRoom w.db.1 = some roomId ∧ (∀ r ∈ w.db.1.roomUsers, r.userId ≠ hostId) ∧
      hostId ∈ w.db.1.users.map (·.userId) ∧ Tables.charLength (Tables.varchar 100 (sqlText roomName)) ≤ 100)
    ⟨fun h => ⟨h.1, h.2.1, h.2.2.1, h.2.2.2.1, h.2.2.2.2⟩, fun h => ⟨h.answers, h.free, h.alone, h.host, h.name⟩⟩

def openRoom (t : Tables) (roomId hostId : ℤ) (roomName : String) (maxPlayers : ℤ) (now : ℕ) : Tables :=
  (t.reopenRoom roomId (sqlText roomName) hostId maxPlayers now).insertRoomUser roomId hostId now

/-- The answer of `createRoomWithHost` when no room was created. -/
def noRoom : Json := .obj [("roomId", .int (-1))]

/-- The answer of `createRoomWithHost` for the room `r`. -/
def roomResult (r : RoomRow) (roomName ipAddress : String) (port maxPlayers : ℤ) : Json :=
  .obj [("roomId", .int r.roomId), ("roomName", .str (Tables.varchar 100 (sqlText roomName))),
    ("ipAddress", .str ipAddress), ("port", .int port), ("maxPlayers", .int maxPlayers)]

theorem createRoomWithHost_spec (w : World) (hostId : ℤ) (roomName : String) (maxPlayers : ℤ) :
    wp (createRoomWithHost env hostId roomName maxPlayers)
      (fun j w' =>
        (∃ r ∈ w.db.1.rooms, Opens env w hostId roomName r.roomId ∧
          Published w w' (openRoom w.db.1 r.roomId hostId roomName maxPlayers (env.now (w.tick + 1))) ∧
          env.Answers w 12 ∧ ∃ ip port, r.ipAddress = some ip ∧ r.port = some port ∧
            j = roomResult r roomName ip port maxPlayers) ∨
        ((∀ roomId, ¬ Opens env w hostId roomName roomId) ∧ Unpublished w w' ∧ j = noRoom))
      (fun _ w' =>
        (∃ r ∈ w.db.1.rooms, Opens env w hostId roomName r.roomId ∧
          Published w w' (openRoom w.db.1 r.roomId hostId roomName maxPlayers (env.now (w.tick + 1))) ∧
          (r.ipAddress = none ∨ r.port = none ∨ ¬ env.Answers w 12)) ∨
        ((∀ roomId, ¬ Opens env w hostId roomName roomId) ∧ Unpublished w w')) w := by
  have hseven : ∀ {k roomId}, k ≤ 7 → ¬ env.Answers w k → ¬ Opens env w hostId roomName roomId :=
    fun hk hn h => hn (h.answers.mono hk)
  refine wp_open (fun conn w₁ h₁ => ?_) fun e w' hn hu => .inr ⟨fun _ => hseven (by decide) hn, hu⟩
  simp only [wp_tryCatch, wp_bind]
  refine wp_query h₁ (fun w₂ h₂ => ?_) fun e w' hn hw =>
    wp_giveUp hw fun w' hw' => .inr ⟨fun _ => hseven (by decide) hn, hw', rfl⟩
  simp only [wp_ite, wp_bind, ne_eq, Env.order_eq_nil, List.take_eq_nil_iff, Nat.one_ne_zero, false_or,
    List.map_eq_nil_iff, List.filter_eq_nil_iff, decide_eq_true_eq]
  refine ⟨fun hj => wp_giveUp h₂.inWork fun w' hw' => .inr ⟨fun _ h => hj h.alone, hw', rfl⟩, fun hj => ?_⟩
  rw [not_not] at hj
  refine wp_query h₂ (fun w₃ h₃ => ?_) fun e w' hn hw =>
    wp_giveUp hw fun w' hw' => .inr ⟨fun _ => hseven (by decide) hn, hw', rfl⟩
  change wp (match env.order _ (freeRoom w.db.1).toList with | [] => _ | roomId :: _ => _) _ _ _
  cases hfree : freeRoom w.db.1 with
  | none =>
    simp only [Option.toList_none, Env.order_nil]
    refine wp_giveUp h₃.inWork fun w' hw' => .inr ⟨fun roomId h => ?_, hw', rfl⟩
    exact Option.some_ne_none _ (h.free.symm.trans hfree)
  | some roomId =>
    obtain ⟨r, hr, rfl, hst⟩ := freeRoom_mem hfree
    have hsel : w.db.1.rooms.filter (fun q => q.roomId = r.roomId ∧ q.status = .terminated) = [r] :=
      Rows.filter_key_and_eq w.db.2.rooms_pkey hr hst
    have hvalid := Tables.valid_reopenRoom w.db.2 ⟨r, hr, rfl, hst⟩ (sqlText roomName) hostId maxPlayers
      (env.now (w.tick + 1))
    simp only [Option.toList_some, Env.order_singleton, wp_bind, wp_get]
    refine wp_field_some h₃ (fun w₄ h₄ => ?_) fun e w' hn hw => wp_giveUp hw fun w' hw' =>
      .inr ⟨fun _ => hseven (by decide) hn, hw', rfl⟩
    rw [h₄.began]
    refine wp_update h₄ (fun w₅ hv h₅ => ?_) fun e w' hn hw => wp_giveUp hw fun w' hw' =>
      .inr ⟨fun _ h => hn.elim (fun hn => hseven (by decide) hn h) fun hn =>
        hn (hvalid.2 ⟨h.host, h.name⟩), hw', rfl⟩
    obtain ⟨hhost, hname⟩ := hvalid.1 hv
    have hins : ((w.db.1.reopenRoom r.roomId (sqlText roomName) hostId maxPlayers
        (env.now (w.tick + 1))).insertRoomUser r.roomId hostId (env.now (w.tick + 1))).Valid := by
      refine (Tables.valid_insertRoomUser hv ..).2 ⟨fun q hq _ => hj q hq, ?_, hhost⟩
      rw [Tables.map_roomId_reopenRoom]
      exact List.mem_map_of_mem hr
    simp only [hsel, List.map_cons, List.map_nil, Env.order_singleton, wp_bind]
    refine wp_update h₅ (fun w₆ _ h₆ => ?_) fun e w' hn hw => wp_giveUp hw fun w' hw' =>
      .inr ⟨fun _ h => hseven (by decide) (hn.resolve_right fun hn => hn hins) h, hw', rfl⟩
    refine wp_commit h₆ (fun w₇ h₇ => wp_returnConnection_after h₇ fun w₈ h₈ => ?_) fun e w' hn hw =>
      wp_giveUp hw fun w' hw' => .inr ⟨fun _ => hseven (by decide) hn, hw', rfl⟩
    have hopens : Opens env w hostId roomName r.roomId := ⟨h₈.answers, hfree, hj, hhost, hname⟩
    have hlate : ∀ {k}, k ≤ 12 → ¬ env.Answers w k → ¬ env.Answers w 12 := fun hk hn h => hn (h.mono hk)
    -- every way out from here on leaves the method
    refine wp_field_after_some h₈ (fun w₉ h₉ => ?_) fun e w' hn hp hc => wp_giveUp_committed hc fun e =>
      .inl ⟨r, hr, hopens, hp, .inr (.inr (hlate (by decide) hn))⟩
    refine wp_field_after_some h₉ (fun w₁₀ h₁₀ => ?_) fun e w' hn hp hc => wp_giveUp_committed hc fun e =>
      .inl ⟨r, hr, hopens, hp, .inr (.inr (hlate (by decide) hn))⟩
    refine wp_field_after h₁₀ (fun ip w₁₁ hip h₁₁ => ?_) fun e w' hn hp hc => wp_giveUp_committed hc fun e =>
      .inl ⟨r, hr, hopens, hp, hn.imp_right fun hn => .inr (hlate (by decide) hn)⟩
    refine wp_field_after h₁₁ (fun port w₁₂ hport h₁₂ => ?_) fun e w' hn hp hc => wp_giveUp_committed hc fun e =>
      .inl ⟨r, hr, hopens, hp, .inr (hn.imp_right (hlate (by decide)))⟩
    refine wp_field_after_some h₁₂ (fun w₁₃ h₁₃ => ?_) fun e w' hn hp hc => wp_giveUp_committed hc fun e =>
      .inl ⟨r, hr, hopens, hp, .inr (.inr hn)⟩
    exact .inl ⟨r, hr, hopens, h₁₃.published, h₁₃.answers, ip, port, hip, hport, rfl⟩

end Spec

end RoomRepository

end Matching
end SocketCommunication
