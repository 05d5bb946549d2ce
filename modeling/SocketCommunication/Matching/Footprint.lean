/-
# What the controllers write

Of the tables, the `auth` controller writes `users` alone, the `game` controller
leaves `room_users` as it is, and the `room` controller touches no row of
`room_users` but those of the user of the request.  Each of these is a relation
that the statements of a repository keep (`UserRepository.Keep`,
`RoomRepository.Keep`), and therefore every command over it.

`exitRoom_leaves`: where no call fails, the user is in no room afterwards.
-/

import SocketCommunication.Matching.Controller

namespace SocketCommunication
namespace Matching

open Effect

/-- Rooms and members are as they were. -/
def SameRooms (w w' : World) : Prop :=
  w'.db.1.rooms = w.db.1.rooms ∧ w'.db.1.roomUsers = w.db.1.roomUsers

instance : IsPreorder World SameRooms where
  refl _ := ⟨rfl, rfl⟩
  trans _ _ _ h h' := ⟨h'.1.trans h.1, h'.2.trans h.2⟩

/-- Members are as they were. -/
def SameMembers (w w' : World) : Prop := w'.db.1.roomUsers = w.db.1.roomUsers

instance : IsPreorder World SameMembers where
  refl _ := rfl
  trans _ _ _ h h' := Eq.trans h' h

/-- Only rows of `room_users` of the user `u` have come or gone. -/
def OnlyRowsOf (u : ℤ) (w w' : World) : Prop :=
  ∀ r : RoomUserRow, r.userId ≠ u → (r ∈ w'.db.1.roomUsers ↔ r ∈ w.db.1.roomUsers)

instance (u : ℤ) : IsPreorder World (OnlyRowsOf u) where
  refl _ _ _ := Iff.rfl
  trans _ _ _ h h' r hr := (h' r hr).trans (h r hr)

/-- The accounts are as they were. -/
def SameUsers (w w' : World) : Prop := w'.db.1.users = w.db.1.users

instance : IsPreorder World SameUsers where
  refl _ := rfl
  trans _ _ _ h h' := Eq.trans h' h

/-- A number that has come to be an account's is not negative. -/
def Enrols (w w' : World) : Prop :=
  ∀ u ∈ w'.db.1.users, 0 ≤ u.userId ∨ u.userId ∈ w.db.1.users.map (·.userId)

instance : IsPreorder World Enrols where
  refl _ := fun _ hu => .inr (List.mem_map_of_mem hu)
  trans _ _ _ h h' := fun u hu => by
    refine (h' u hu).elim .inl fun hold => ?_
    obtain ⟨v, hv, hvu⟩ := List.mem_map.1 hold
    exact hvu ▸ h v hv

theorem SameUsers.enrols {w w' : World} (h : SameUsers w w') : Enrols w w' := by
  intro u hu
  rw [h] at hu
  exact .inr (List.mem_map_of_mem hu)

theorem sameRooms_of_db {w w' : World} (h : w'.db = w.db) : SameRooms w w' := by
  rw [SameRooms, h]
  exact ⟨rfl, rfl⟩

theorem Unpublished.sameRooms {w w' : World} (h : Unpublished w w') : SameRooms w w' := sameRooms_of_db h.1

section Footprint

variable {env : Env}

/-! ### `auth` -/

namespace UserRepository

/-- What the methods of the repository keep. -/
structure Keep (env : Env) (R : World → World → Prop) : Prop where
  findByUsername (userName : String) : Keeps R (findByUsername env userName)
  create (userName hashedPassword : String) : Keeps R (create env userName hashedPassword)
  updateLastLogin (userId : ℤ) : Keeps R (updateLastLogin env userId)
  updateUserNickName (userId : ℤ) (nickName : String) : Keeps R (updateUserNickName env userId nickName)

/-- The methods keep what the statements that they publish keep. -/
theorem keep_of {R : World → World → Prop} (hsame : ∀ {w w' : World}, w'.db = w.db → R w w')
    (henrol : ∀ {w w' : World} {userName password : String}, w'.db.1 = enrol env w userName password → R w w')
    (hlogin : ∀ {w w' : World} {u : ℤ} {now : ℕ}, w'.db.1 = w.db.1.setLastLogin u now → R w w')
    (hnick : ∀ {w w' : World} {u : ℤ} {nickName : String}, w'.db.1 = w.db.1.setNickName u nickName → R w w') :
    Keep env R where
  findByUsername userName w :=
    wp_mono (fun _ _ h => hsame h.1) (fun _ _ h => hsame h.1) (findByUsername_spec w userName)
  create userName hashedPassword w := by
    refine wp_mono (fun _ w' h => ?_) (fun _ w' h => ?_) (create_spec w userName hashedPassword)
    · rcases h with ⟨hcreated, -⟩ | ⟨-, -, hu⟩
      · exact henrol hcreated.published.1
      · exact hsame hu.1
    · rcases h with ⟨-, -, hp⟩ | ⟨-, hu⟩
      · exact henrol hp.1
      · exact hsame hu.1
  updateLastLogin userId w := by
    refine wp_mono (fun _ w' h => ?_) (fun _ _ h => hsame h.2.1) (updateLastLogin_spec w userId)
    rcases h.2 with hp | hu
    · exact hlogin hp.1
    · exact hsame hu.1
  updateUserNickName userId nickName w := by
    refine wp_mono (fun _ w' h => ?_) (fun _ _ h => hsame h.2.1) (updateUserNickName_spec w userId nickName)
    rcases h with ⟨-, hp, -⟩ | ⟨-, hu, -⟩
    · exact hnick hp.1
    · exact hsame hu.1

theorem keep_sameRooms : Keep env SameRooms :=
  keep_of sameRooms_of_db (fun h => by rw [SameRooms, h]; exact ⟨rfl, rfl⟩)
    (fun h => by rw [SameRooms, h]; exact ⟨rfl, rfl⟩) fun h => by rw [SameRooms, h]; exact ⟨rfl, rfl⟩

theorem keep_enrols : Keep env Enrols := by
  have hids : ∀ {w w' : World}, w'.db.1.users.map (·.userId) = w.db.1.users.map (·.userId) → Enrols w w' :=
    fun h u hu => .inr (h ▸ List.mem_map_of_mem hu)
  refine keep_of (fun h => hids (by rw [h])) (fun h u hu => ?_)
    (fun h => hids (by rw [h]; exact Rows.map_update fun _ _ => rfl))
    fun h => hids (by rw [h]; exact Rows.map_update fun _ _ => rfl)
  rw [h, enrol, Tables.insertUser, List.mem_append, List.mem_singleton] at hu
  rcases hu with hold | rfl
  · exact .inr (List.mem_map_of_mem hold)
  · exact .inl (Int.natCast_nonneg _)

end UserRepository

namespace AuthService

variable {R : World → World → Prop} [IsPreorder World R]

theorem registerUser_keeps (h : UserRepository.Keep env R) (request : Json) : Keeps R (registerUser env request) := by
  refine keeps_ite (fun _ => keeps_pure _) fun _ => ?_
  refine keeps_bind (keeps_orThrow _) fun userName => keeps_ite (fun _ => keeps_pure _) fun _ => ?_
  refine keeps_bind (keeps_orThrow _) fun password => keeps_ite (fun _ => keeps_pure _) fun _ => ?_
  refine keeps_bind (h.findByUsername _) fun userInfo => keeps_ite (fun _ => keeps_pure _) fun _ => ?_
  exact keeps_bind (h.create _ _) fun userId =>
    keeps_ite (fun _ => keeps_pure _) fun _ => keeps_pure _

theorem loginUser_keeps (h : UserRepository.Keep env R) (request : Json) : Keeps R (loginUser env request) := by
  refine keeps_ite (fun _ => keeps_pure _) fun _ => keeps_bind (keeps_orThrow _) fun userName => ?_
  refine keeps_bind (h.findByUsername _) fun userInfo => keeps_ite (fun _ => keeps_pure _) fun _ => ?_
  refine keeps_bind (keeps_orThrow _) fun password => keeps_bind (keeps_orThrow _) fun hash => ?_
  refine keeps_ite (fun _ => keeps_pure _) fun _ => keeps_bind (keeps_orThrow _) fun userId => ?_
  exact keeps_bind (h.updateLastLogin _) fun _ => keeps_pure _

theorem loginRegistered_keeps (h : UserRepository.Keep env R) (userName : String) (userId : ℤ) :
    Keeps R (loginRegistered env userName userId) :=
  keeps_bind (h.findByUsername _) fun _ => keeps_bind (h.updateLastLogin _) fun _ => keeps_pure _

theorem registerCheckAndLogin_keeps (h : UserRepository.Keep env R) (request : Json) :
    Keeps R (registerCheckAndLogin env request) := by
  refine keeps_ite (fun _ => keeps_pure _) fun _ => keeps_bind (keeps_orThrow _) fun userName => ?_
  refine keeps_bind (h.findByUsername _) fun userInfo => keeps_ite (fun _ => ?_) fun _ =>
    loginRegistered_keeps h _ _
  refine keeps_bind (keeps_orThrow _) fun password => keeps_bind (h.create _ _) fun userId => ?_
  exact keeps_ite (fun _ => keeps_pure _) fun _ => loginRegistered_keeps h _ _

theorem updateNickName_keeps (h : UserRepository.Keep env R) (request : Json) :
    Keeps R (updateNickName env request) := by
  refine keeps_ite (fun _ => keeps_pure _) fun _ => keeps_bind (keeps_orThrow _) fun nickName => ?_
  refine keeps_ite (fun _ => keeps_pure _) fun _ => keeps_bind (keeps_orThrow _) fun userId => ?_
  exact keeps_bind (h.updateUserNickName _ _) fun _ =>
    keeps_ite (fun _ => keeps_pure _) fun _ => keeps_pure _

end AuthService

/-- What the repository of users keeps, the `auth` controller keeps. -/
theorem Controller.auth_keeps_of {R : World → World → Prop} [IsPreorder World R] (h : UserRepository.Keep env R)
    (request : Json) : Keeps R (Controller.auth env request) := by
  refine keeps_bind (keeps_orThrow _) fun member => keeps_bind (keeps_orThrow _) fun action => ?_
  refine keeps_ite (fun _ => AuthService.registerUser_keeps h _) fun _ => ?_
  refine keeps_ite (fun _ => AuthService.loginUser_keeps h _) fun _ => ?_
  refine keeps_ite (fun _ => AuthService.registerCheckAndLogin_keeps h _) fun _ => ?_
  exact keeps_ite (fun _ => AuthService.updateNickName_keeps h _) fun _ => keeps_pure _

theorem Controller.auth_keeps (request : Json) : Keeps SameRooms (Controller.auth env request) :=
  Controller.auth_keeps_of UserRepository.keep_sameRooms request

/-! ### `game` -/

/-- What the two statements keep that the `game` controller publishes, it keeps. -/
theorem Controller.game_keeps_of {R : World → World → Prop} [IsPreorder World R]
    (hsame : ∀ {w w' : World}, w'.db = w.db → R w w')
    (hstart : ∀ {w w' : World} {gameId roomId mapId : ℤ} {now : ℕ},
      w'.db.1 = GameRepository.startGame w.db.1 gameId roomId mapId now → R w w')
    (hend : ∀ {w w' : World} {gameId : ℤ} {now : ℕ}, w'.db.1 = w.db.1.finishGame gameId now → R w w')
    (request : Json) : Keeps R (Controller.game env request) := by
  refine keeps_bind (keeps_orThrow _) fun member => keeps_bind (keeps_orThrow _) fun action => ?_
  refine keeps_ite (fun _ w => ?_) fun _ => keeps_ite (fun _ w => ?_) fun _ => keeps_pure _
  · refine wp_mono (fun j w' h => ?_) (fun _ _ h => h.elim) (GameService.startGame_spec w request)
    rcases h.2 with ⟨_, _, -, hp⟩ | ⟨-, hu⟩
    · exact hstart hp.1
    · exact hsame hu.1
  · refine wp_mono (fun j w' h => ?_) (fun _ _ h => h.elim) (GameService.endGame_spec w request)
    rcases h.2 with ⟨_, _, -, -, hp⟩ | ⟨-, hu⟩
    · exact hend hp.1
    · exact hsame hu.1

theorem Controller.game_keeps (request : Json) : Keeps SameMembers (Controller.game env request) :=
  game_keeps_of (fun h => by rw [SameMembers, h]) (fun h => by rw [SameMembers, h]; rfl)
    (fun h => by rw [SameMembers, h]; rfl) request

theorem Controller.game_sameUsers (request : Json) : Keeps SameUsers (Controller.game env request) :=
  game_keeps_of (fun h => by rw [SameUsers, h]) (fun h => by rw [SameUsers, h]; rfl)
    (fun h => by rw [SameUsers, h]; rfl) request

/-- A game request is never answered with `success`. -/
theorem Controller.game_refuses (w : World) (request : Json) :
    wp (Controller.game env request) (fun j _ => j.succeeds = false) (fun _ _ => True) w := by
  simp only [Controller.game, wp_bind, wp_orThrow]
  refine ⟨fun member _ => ⟨fun action _ => ?_, fun _ _ => trivial⟩, fun _ _ => trivial⟩
  refine (wp_ite _ _ _).2 ⟨fun _ => ?_, fun _ => (wp_ite _ _ _).2 ⟨fun _ => ?_, fun _ => rfl⟩⟩
  · exact wp_mono (fun _ _ h => h.1) (fun _ _ h => h.elim) (GameService.startGame_spec w request)
  · exact wp_mono (fun _ _ h => h.1) (fun _ _ h => h.elim) (GameService.endGame_spec w request)

/-! ### `room` -/

namespace RoomRepository

/-- What the methods that act for the user `u`, and those that list rooms, keep. -/
structure Keep (env : Env) (u : ℤ) (R : World → World → Prop) : Prop where
  same {w w' : World} (h : w'.db = w.db) : R w w'
  createRoomWithHost (roomName : String) (maxPlayers : ℤ) : Keeps R (createRoomWithHost env u roomName maxPlayers)
  addPlayer (roomId : ℤ) : Keeps R (addPlayer env roomId u)
  removePlayer : Keeps R (removePlayer env u)

/-- The methods keep what the statements that they publish keep. -/
theorem keep_of {u : ℤ} {R : World → World → Prop} (hsame : ∀ {w w' : World}, w'.db = w.db → R w w')
    (hopen : ∀ {w w' : World} {roomId maxPlayers : ℤ} {roomName : String} {now : ℕ},
      w'.db.1 = openRoom w.db.1 roomId u roomName maxPlayers now → R w w')
    (hinsert : ∀ {w w' : World} {roomId : ℤ} {now : ℕ}, w'.db.1 = w.db.1.insertRoomUser roomId u now → R w w')
    (hleave : ∀ {w w' : World} {roomId : ℤ} {now : ℕ}, w'.db.1 = leave w.db.1 u roomId now → R w w') :
    Keep env u R where
  same := hsame
  createRoomWithHost roomName maxPlayers w := by
    refine wp_mono (fun _ w' h => ?_) (fun _ w' h => ?_) (createRoomWithHost_spec w u roomName maxPlayers)
    · rcases h with ⟨r, -, -, hp, -⟩ | ⟨-, hu, -⟩
      · exact hopen hp.1
      · exact hsame hu.1
    · rcases h with ⟨r, -, -, hp, -⟩ | ⟨-, hu⟩
      · exact hopen hp.1
      · exact hsame hu.1
  addPlayer roomId w := by
    refine wp_mono (fun b w' h => ?_) (fun _ w' h => hsame h.2.1) (addPlayer_spec w roomId u)
    cases b with
    | true => exact hinsert h.2.1
    | false => exact hsame h.2.1
  removePlayer w := by
    refine wp_mono (fun b w' h => ?_) (fun _ w' h => hsame h.2.1) (removePlayer_spec w u)
    cases b with
    | true =>
      obtain ⟨roomId, -, hp⟩ := h
      exact hleave hp.1
    | false => exact hsame h.2.1

theorem keep_onlyRowsOf (u : ℤ) : Keep env u (OnlyRowsOf u) := by
  -- opening a room and joining one insert the same row
  have hinsert : ∀ {w w' : World} {t : Tables} {roomId : ℤ} {now : ℕ}, t.roomUsers = w.db.1.roomUsers →
      w'.db.1 = t.insertRoomUser roomId u now → OnlyRowsOf u w w' := by
    intro w w' t roomId now ht h r hr
    rw [h, Tables.insertRoomUser, List.mem_append, ht, List.mem_singleton]
    exact or_iff_left fun hrow => hr (by rw [hrow])
  refine keep_of (fun h r _ => by rw [h]) (fun h => ?_) (fun h => hinsert rfl h) fun h r hr => ?_
  · rw [openRoom] at h
    exact hinsert (by rfl) h
  · rw [h, mem_roomUsers_leave]
    exact and_iff_left hr

theorem keep_sameUsers (u : ℤ) : Keep env u SameUsers :=
  keep_of (fun h => by rw [SameUsers, h]) (fun h => by rw [SameUsers, h]; rfl) (fun h => by rw [SameUsers, h]; rfl)
    fun h => by rw [SameUsers, h, users_leave]

/-- Where no call fails, a user who is removed is in no room. -/
theorem removePlayer_removes (hs : env.Steady) (w : World) (u : ℤ) :
    wp (removePlayer env u) (fun _ w' => ∀ r ∈ w'.db.1.roomUsers, r.userId ≠ u)
      (fun _ w' => ∀ r ∈ w'.db.1.roomUsers, r.userId ≠ u) w := by
  refine wp_mono (fun b w' h => ?_) (fun _ w' h => ?_) (removePlayer_spec w u)
  · cases b with
    | true =>
      obtain ⟨roomId, -, hp⟩ := h
      intro r hr
      rw [hp.1, mem_roomUsers_leave] at hr
      exact hr.2
    | false =>
      rw [h.2.1]
      exact absent_of_not_leaves hs h.1
  · rw [h.2.1]
    exact absent_of_not_leaves hs h.1

/-! The methods that only read. -/

section Read

variable {R : World → World → Prop} [IsPreorder World R]

theorem giveUp_keeps {α : Type} (hR : ∀ {w w' : World}, w'.db = w.db → R w w') (conn : ℕ) (a : α) :
    Keeps R (giveUp conn a) := by
  refine keeps_bind (fun w => ?_) fun _ => keeps_bind (fun w => ?_) fun _ => keeps_pure _
  · simp only [abort, wp_bind, wp_get]
    cases w.txn <;> exact hR rfl
  · exact wp_returnConnection fun _ => hR rfl

/-- A method that reads, commits and goes on without the database writes nothing. -/
theorem read_keeps {α β : Type} {f : Tables → List α} {g : List α → DbM β} {b : β}
    (hR : ∀ {w w' : World}, w'.db = w.db → R w w') (hg : ∀ l, Keeps R (g l)) :
    Keeps R (do
      let conn ← getConnection env
      beginWork env
      tryCatch
        (do
          let l ← query env f
          commit env
          returnConnection conn
          g l)
        fun _ => giveUp conn b) := by
  intro w
  refine wp_open (fun conn w₁ h₁ => ?_) fun e w' _ hu => hR hu.1
  simp only [wp_tryCatch, wp_bind]
  have hgive : ∀ {w'}, R w w' → wp (giveUp conn b) (fun _ => R w) (fun _ => R w) w' :=
    fun h => wp_mono (fun _ _ h' => trans_of R h h') (fun _ _ h' => trans_of R h h')
      (giveUp_keeps hR conn b _)
  refine wp_query h₁ (fun w₂ h₂ => ?_) fun e w' _ hw => hgive (hR hw.1.1)
  refine wp_commit h₂ (fun w₃ h₃ => wp_returnConnection fun pool => ?_) fun e w' _ hw => hgive (hR hw.1.1)
  have hsame : R w { w₃ with pool } := hR (Subtype.ext h₃.published.1)
  exact wp_mono (fun _ _ h => trans_of R hsame h)
    (fun _ _ h => hgive (trans_of R hsame h)) (hg _ _)

omit [IsPreorder World R] in
theorem field_keeps (hR : ∀ {w w' : World}, w'.db = w.db → R w w') {α : Type} (column : Option α) :
    Keeps R (field env column) := fun _ => wp_field_tick (fun _ _ _ => hR rfl) fun _ _ => hR rfl

theorem findAllOpen_keeps (hR : ∀ {w w' : World}, w'.db = w.db → R w w') : Keeps R (findAllOpen env) :=
  read_keeps hR fun _ => keeps_mapM (roomJson_keeps (field_keeps hR)) _

theorem getPlayerCount_keeps (hR : ∀ {w w' : World}, w'.db = w.db → R w w') (roomId : ℤ) :
    Keeps R (getPlayerCount env roomId) := by
  refine read_keeps hR fun result => ?_
  cases result with
  | nil => exact keeps_pure _
  | cons count _ => exact field_keeps hR _

end Read

end RoomRepository

namespace RoomService

open RoomRepository

/-- What a command does after it has read the user from the request. -/
theorem keeps_userId {R : World → World → Prop} {β : Type} {u : ℤ} {request : Json} {c : ℤ → DbM β}
    (hu : (request.value "userId").getInt = .ok u) (hc : Keeps R (c u)) :
    Keeps R (do let userId ← orThrow (request.value "userId").getInt; c userId) := by
  rw [hu]
  exact hc

section Keep

variable {R : World → World → Prop} [IsPreorder World R]

theorem countPlayers_keeps (hR : ∀ {w w' : World}, w'.db = w.db → R w w') :
    ∀ rooms listed : List Json, Keeps R (countPlayers env rooms listed)
  | [], _ => keeps_pure _
  | _ :: rooms, _ => keeps_tryCatch
      (keeps_bind (keeps_orThrow _) fun _ => keeps_bind (getPlayerCount_keeps hR _) fun _ =>
        countPlayers_keeps hR rooms _) fun _ => keeps_pure _

theorem listRooms_keeps (hR : ∀ {w w' : World}, w'.db = w.db → R w w') : Keeps R (listRooms env) :=
  keeps_tryCatch (keeps_bind (findAllOpen_keeps hR) fun rooms => countPlayers_keeps hR rooms []) fun _ => keeps_pure _

variable {u : ℤ} {request : Json}

theorem createRoom_keeps (hu : (request.value "userId").getInt = .ok u) (h : RoomRepository.Keep env u R) :
    Keeps R (createRoom env request) := by
  refine keeps_tryCatch (keeps_ite (fun _ => keeps_pure _) fun _ => ?_) fun _ => keeps_pure _
  refine keeps_bind (keeps_orThrow _) fun roomName => keeps_ite (fun _ => keeps_pure _) fun _ => ?_
  refine keeps_ite (fun _ => keeps_pure _) fun _ => keeps_userId hu ?_
  refine keeps_bind (keeps_orThrow _) fun maxPlayers => keeps_bind (h.createRoomWithHost _ _) fun _ => ?_
  exact keeps_ite (fun _ => keeps_pure _) fun _ => keeps_pure _

theorem joinRoom_keeps (hu : (request.value "userId").getInt = .ok u) (h : RoomRepository.Keep env u R) :
    Keeps R (joinRoom env request) := by
  refine keeps_tryCatch (keeps_ite (fun _ => keeps_pure _) fun _ => ?_) fun _ => keeps_pure _
  refine keeps_bind (keeps_orThrow _) fun roomId => keeps_userId hu ?_
  exact keeps_bind (h.addPlayer _) fun _ => keeps_ite (fun _ => keeps_pure _) fun _ => keeps_pure _

theorem exitRoom_keeps (hu : (request.value "userId").getInt = .ok u) (h : RoomRepository.Keep env u R) :
    Keeps R (exitRoom env request) := by
  refine keeps_tryCatch (keeps_ite (fun _ => keeps_pure _) fun _ => keeps_userId hu ?_) fun _ => keeps_pure _
  exact keeps_bind h.removePlayer fun _ => keeps_ite (fun _ => keeps_pure _) fun _ => keeps_pure _

end Keep

/-- Where no call fails, a user who has left is in no room. -/
theorem exitRoom_leaves (hs : env.Steady) {u : ℤ} {request : Json} (w : World)
    (hu : (request.value "userId").getInt = .ok u) :
    wp (exitRoom env request) (fun _ w' => ∀ r ∈ w'.db.1.roomUsers, r.userId ≠ u)
      (fun _ w' => ∀ r ∈ w'.db.1.roomUsers, r.userId ≠ u) w := by
  simp only [exitRoom, wp_tryCatch, Json.contains_of_getInt hu, not_true_eq_false, if_false, wp_bind, hu,
    orThrow_ok, wp_pure]
  refine wp_mono (fun b w' h => ?_) (fun _ _ h => h) (removePlayer_removes hs w u)
  exact (wp_ite _ _ _).2 ⟨fun _ => h, fun _ => h⟩

end RoomService

/-- What the repository of rooms keeps for the user of the request, the `room`
controller keeps. -/
theorem Controller.room_keeps_of {R : World → World → Prop} [IsPreorder World R] {u : ℤ} {request : Json}
    (hu : (request.value "userId").getInt = .ok u) (h : RoomRepository.Keep env u R) :
    Keeps R (Controller.room env request) := by
  refine keeps_bind (keeps_orThrow _) fun member => keeps_bind (keeps_orThrow _) fun action => ?_
  refine keeps_ite (fun _ => RoomService.createRoom_keeps hu h) fun _ => ?_
  refine keeps_ite (fun _ => RoomService.joinRoom_keeps hu h) fun _ => ?_
  refine keeps_ite (fun _ => RoomService.exitRoom_keeps hu h) fun _ => ?_
  exact keeps_ite (fun _ => RoomService.listRooms_keeps h.same) fun _ => keeps_pure _

theorem Controller.room_keeps {u : ℤ} {request : Json} (hu : (request.value "userId").getInt = .ok u) :
    Keeps (OnlyRowsOf u) (Controller.room env request) :=
  room_keeps_of hu (RoomRepository.keep_onlyRowsOf u)

end Footprint

end Matching
end SocketCommunication
