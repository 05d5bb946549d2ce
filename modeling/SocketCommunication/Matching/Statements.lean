/-
# One statement of a room transaction

What the stage of a transaction knows is of two kinds.  `Txn.Good` is safe whatever the
others do: the row of a room that it has locked, and the rows it deletes.
`Txn.Current` is not: what it has found elsewhere holds as long as nobody changes it
(`Txn.Current.of_same`).  A transaction that ends while all of it holds ends as a call
that runs alone (`Finishes.ended`).
-/

import SocketCommunication.Matching.Findings

namespace SocketCommunication
namespace Matching

open RoomRepository

/-! ### What a transaction keeps to itself -/

/-- What the stage of a transaction knows of the tables. -/
def Txn.Good (t : Tables) : Txn → Prop
  | createRoomWithHost _ _ _ _ (.roomResult roomId) => ∃ old ∈ t.rooms, old.roomId = roomId ∧ old.status = .terminated
  | createRoomWithHost hostId roomName maxPlayers began (.insertUser row)
  | createRoomWithHost hostId roomName maxPlayers began (.commit row) =>
    (∃ old ∈ t.rooms, old.status = .terminated ∧ row = old.reopened roomName hostId maxPlayers began) ∧
      hostId ∈ t.users.map (·.userId) ∧ Tables.charLength (Tables.varchar 100 (sqlText roomName)) ≤ 100
  | addPlayer roomId userId _ .commit => ¬ t.inRoom roomId userId ∧ userId ∈ t.users.map (·.userId)
  | removePlayer userId _ (.lockRows _ rows)
  | removePlayer userId _ (.countResult _ rows)
  | removePlayer userId _ (.terminate _ rows)
  | removePlayer userId _ (.commit _ rows none) => ∀ q ∈ rows, q.userId = userId
  | removePlayer userId _ (.completeGames roomId rows row)
  | removePlayer userId _ (.commit roomId rows (some row)) => (∀ q ∈ rows, q.userId = userId) ∧
    ∃ old ∈ t.rooms, old.roomId = roomId ∧ row = { old with status := .terminated }
  | _ => True

/-- The tables changed in the room `k` alone. -/
structure Tables.Frame (k : Option ℤ) (t t' : Tables) : Prop where
  users : t'.users = t.users
  pkey : t'.rooms.map (·.roomId) = t.rooms.map (·.roomId)
  rooms : ∀ r ∈ t.rooms, k ≠ some r.roomId → r ∈ t'.rooms
  members : ∀ roomId userId, k ≠ some roomId → t'.inRoom roomId userId → t.inRoom roomId userId

section Frames

variable {k : Option ℤ} {t t' t'' : Tables}

theorem Tables.Frame.refl : Frame k t t := ⟨rfl, rfl, fun _ h _ => h, fun _ _ _ h => h⟩

theorem Tables.Frame.trans (h : Frame k t t') (h' : Frame k t' t'') : Frame k t t'' where
  users := h'.users.trans h.users
  pkey := h'.pkey.trans h.pkey
  rooms r hr hk := h'.rooms r (h.rooms r hr hk) hk
  members roomId userId hk hin := h.members roomId userId hk (h'.members roomId userId hk hin)

theorem Tables.frame_setRoom (row : RoomRow) : Frame (some row.roomId) t (t.setRoom row) where
  users := rfl
  pkey := Rows.map_update fun _ hr => Eq.symm hr
  rooms _ hr hk := Rows.mem_update_of_not hr fun hid => hk (congrArg some (Eq.symm hid))
  members _ _ _ hin := hin

theorem Tables.frame_insertRoomUser (roomId userId : ℤ) (now : ℕ) :
    Frame (some roomId) t (t.insertRoomUser roomId userId now) where
  users := rfl
  pkey := rfl
  rooms _ hr _ := hr
  members k u hk hin := by
    obtain ⟨q, hq, hid, hu⟩ := hin
    rcases List.mem_append.1 hq with hq | hq
    · exact ⟨q, hq, hid, hu⟩
    · rw [List.mem_singleton.1 hq] at hid
      exact absurd (congrArg some hid) hk

theorem Tables.frame_deleteRows (rows : List RoomUserRow) : Frame k t (t.deleteRows rows) where
  users := rfl
  pkey := rfl
  rooms _ hr _ := hr
  members _ _ _ hin := by
    obtain ⟨q, hq, h⟩ := hin
    exact ⟨q, (Rows.mem_delete.1 hq).1, h⟩

theorem Tables.frame_completeGames (roomId : ℤ) (now : ℕ) : Frame k t (t.completeGames roomId now) :=
  ⟨rfl, rfl, fun _ hr _ => hr, fun _ _ _ hin => hin⟩

/-- What a stage knows is safe from transactions that have locked another room. -/
theorem Txn.Good.frame {x : Txn} (h : x.Good t) (hframe : Tables.Frame k t t')
    (hk : ∀ roomId, x.lock = some roomId → k ≠ some roomId) : x.Good t' := by
  have husers : t'.users = t.users := hframe.users
  cases x with
  | createRoomWithHost hostId roomName maxPlayers began stage =>
    cases stage with
    | roomResult roomId =>
      obtain ⟨old, hold, rfl, hst⟩ := h
      exact ⟨old, hframe.rooms old hold (hk _ rfl), rfl, hst⟩
    | insertUser row | commit row =>
      obtain ⟨⟨old, hold, hst, hrow⟩, hrest⟩ := h
      have hid : row.roomId = old.roomId := by rw [hrow, RoomRow.roomId_reopened]
      refine ⟨⟨old, hframe.rooms old hold (hid ▸ hk _ rfl), hst, hrow⟩, ?_⟩
      rwa [husers]
    | _ => exact trivial
  | addPlayer roomId userId began stage =>
    cases stage with
    | commit => exact ⟨fun hin => h.1 (hframe.members _ _ (hk _ rfl) hin), husers ▸ h.2⟩
    | _ => exact trivial
  | removePlayer userId began stage =>
    have hroom : ∀ {roomId row}, (∃ old ∈ t.rooms, old.roomId = roomId ∧ row = { old with status := .terminated }) →
        k ≠ some roomId → ∃ old ∈ t'.rooms, old.roomId = roomId ∧ row = { old with status := .terminated } := by
      rintro roomId row ⟨old, hold, rfl, hrow⟩ hne
      exact ⟨old, hframe.rooms old hold hne, rfl, hrow⟩
    cases stage with
    | completeGames roomId rows row => exact ⟨h.1, hroom h.2 (hk _ rfl)⟩
    | commit roomId rows row =>
      cases row with
      | none => exact h
      | some row => exact ⟨h.1, hroom h.2 (hk _ rfl)⟩
    | lockRows | countResult | terminate => exact h
    | _ => exact trivial

end Frames

/-! ### What a transaction has found -/

/-- What the transaction has found is so in the tables. -/
def Txn.Current (t : Tables) : Txn → Prop
  | createRoomWithHost hostId _ _ _ .idResult => t.rowsOf hostId = []
  | createRoomWithHost hostId _ _ _ (.lockRoom rooms) => t.rowsOf hostId = [] ∧ rooms.Pairwise (· ≤ ·) ∧
    ∀ r ∈ t.rooms, r.status = .terminated → r.roomId ∈ rooms
  | createRoomWithHost hostId _ _ _ (.roomResult roomId) => t.rowsOf hostId = [] ∧ freeRoom t = some roomId
  | createRoomWithHost hostId _ _ _ (.insertUser row)
  | createRoomWithHost hostId _ _ _ (.commit row) => t.rowsOf hostId = [] ∧ freeRoom t = some row.roomId
  | addPlayer roomId _ _ .checkResult
  | addPlayer roomId _ _ .maxPlayersResult => ∃ row ∈ t.room? roomId, row.status = .waiting
  | addPlayer roomId _ _ (.lockRoom currentPlayers) => ∃ row ∈ t.room? roomId, row.status = .waiting ∧
    (row.maxPlayers ≤ t.players roomId ↔ row.maxPlayers ≤ currentPlayers)
  | addPlayer roomId _ _ .insertUser
  | addPlayer roomId _ _ .commit => ∃ row ∈ t.room? roomId, row.status = .waiting ∧ ¬ row.maxPlayers ≤ t.players roomId
  | removePlayer userId _ (.deleteUser roomId) => ∃ q ∈ t.rowsOf userId, q.roomId = roomId
  | removePlayer userId _ (.lockRows roomId rows)
  | removePlayer userId _ (.countResult roomId rows) => (∃ q ∈ t.rowsOf userId, q.roomId = roomId) ∧ t.rowsOf userId = rows
  | removePlayer userId _ (.terminate roomId rows)
  | removePlayer userId _ (.completeGames roomId rows _) =>
    ((∃ q ∈ t.rowsOf userId, q.roomId = roomId) ∧ t.rowsOf userId = rows) ∧ t.only [userId] roomId
  | removePlayer userId _ (.commit roomId rows row) =>
    ((∃ q ∈ t.rowsOf userId, q.roomId = roomId) ∧ t.rowsOf userId = rows) ∧ (t.only [userId] roomId ↔ row.isSome)
  | _ => True

section Found

variable {t t' : Tables} {k roomId userId : ℤ}

/-- The first free room stays the first, as long as it is free and none before it becomes so. -/
theorem freeRoom_of_same (hfree : freeRoom t = some k) (hsame : Finding.first.Same t t')
    (hstill : ∃ old ∈ t'.rooms, old.roomId = k ∧ old.status = .terminated) : freeRoom t' = some k := by
  refine freeRoom_eq_some_iff.2 ⟨hstill, fun r hr hst => ?_⟩
  obtain ⟨k', hk', hle⟩ := hsame r hr hst
  rw [hfree] at hk'
  exact Option.some.inj hk' ▸ hle

/-- A room that was found open is open. -/
theorem waiting_of_same {P Q : RoomRow → Prop} (h : ∃ row ∈ t.room? roomId, row.status = .waiting ∧ P row)
    (hsame : (Finding.waiting roomId).Same t t') (hPQ : ∀ row ∈ t.room? roomId, P row → Q row) :
    ∃ row ∈ t'.room? roomId, row.status = .waiting ∧ Q row := by
  obtain ⟨row, hrow, hst, hP⟩ := h
  exact ⟨row, hsame row hrow hst, hst, hPQ row hrow hP⟩

/-- The rows of a user are as they were found. -/
theorem rows_of_same {rows : List RoomUserRow} (h : (∃ q ∈ t.rowsOf userId, q.roomId = roomId) ∧ t.rowsOf userId = rows)
    (hsame : t'.rowsOf userId = t.rowsOf userId) :
    (∃ q ∈ t'.rowsOf userId, q.roomId = roomId) ∧ t'.rowsOf userId = rows := by
  rwa [hsame]

theorem same_pair {f g : Finding} (h : ∀ x ∈ [f, g], x.Same t t') : f.Same t t' ∧ g.Same t t' :=
  ⟨h f List.mem_cons_self, h g (List.mem_cons_of_mem f List.mem_cons_self)⟩

/-- **What a transaction has found stays so as long as nobody changes it.** -/
theorem Txn.Current.of_same {x : Txn} (h : x.Current t) (hgood : x.Good t') (hsame : ∀ f ∈ x.findings, f.Same t t') :
    x.Current t' := by
  cases x with
  | createRoomWithHost hostId roomName maxPlayers began stage =>
    cases stage with
    | isJoined | ended => exact trivial
    | idResult => exact (hsame _ List.mem_cons_self).trans h
    | lockRoom rooms =>
      obtain ⟨hrows, hfree⟩ := same_pair hsame
      obtain ⟨hnone, hsorted, hall⟩ := h
      refine ⟨hrows.trans hnone, hsorted, fun r hr hst => ?_⟩
      obtain ⟨r', hr', hid, hst'⟩ := hfree r hr hst
      exact hid ▸ hall r' hr' hst'
    | roomResult roomId =>
      obtain ⟨hrows, hfirst⟩ := same_pair hsame
      exact ⟨hrows.trans h.1, freeRoom_of_same h.2 hfirst hgood⟩
    | insertUser row | commit row =>
      obtain ⟨hrows, hfirst⟩ := same_pair hsame
      obtain ⟨⟨old, hold, hst, rfl⟩, -⟩ := hgood
      exact ⟨hrows.trans h.1, freeRoom_of_same h.2 hfirst ⟨old, hold, (old.roomId_reopened ..).symm, hst⟩⟩
  | addPlayer roomId userId began stage =>
    cases stage with
    | roomCheck | ended => exact trivial
    | checkResult | maxPlayersResult =>
      obtain ⟨row, hrow, hst⟩ := h
      exact ⟨row, hsame _ List.mem_cons_self row hrow hst, hst⟩
    | lockRoom currentPlayers =>
      obtain ⟨hopen, hseat⟩ := same_pair hsame
      exact waiting_of_same h hopen fun row hrow hcount => (hseat row hrow).trans hcount
    | insertUser | commit =>
      obtain ⟨hopen, hseat⟩ := same_pair hsame
      exact waiting_of_same h hopen fun row hrow hroom hfull => hroom ((hseat row hrow).1 hfull)
  | removePlayer userId began stage =>
    have halone : ∀ {roomId rows}, (∃ q ∈ t.rowsOf userId, q.roomId = roomId) ∧ t.rowsOf userId = rows →
        (Finding.others userId).Same t t' → (t'.only [userId] roomId ↔ t.only [userId] roomId) := by
      rintro roomId rows ⟨⟨q, hq, rfl⟩, -⟩ hothers
      exact hothers q hq
    cases stage with
    | roomResult | ended => exact trivial
    | deleteUser roomId =>
      have hrows : t'.rowsOf userId = t.rowsOf userId := hsame _ List.mem_cons_self
      obtain ⟨q, hq, hid⟩ := h
      exact ⟨q, hrows ▸ hq, hid⟩
    | lockRows roomId rows | countResult roomId rows => exact rows_of_same h (hsame _ List.mem_cons_self)
    | terminate roomId rows | completeGames roomId rows row =>
      obtain ⟨hrows, hothers⟩ := same_pair hsame
      exact ⟨rows_of_same h.1 hrows, (halone h.1 hothers).2 h.2⟩
    | commit roomId rows row =>
      obtain ⟨hrows, hothers⟩ := same_pair hsame
      exact ⟨rows_of_same h.1 hrows, (halone h.1 hothers).trans h.2⟩

end Found

/-! ### One statement -/

/-- What a statement that goes on makes of its transaction. -/
structure Goes (p : Pool) (i : ℕ) (x y : Txn) : Prop where
  good : y.Good p.tables
  running : x.ended? = none ∧ y.ended? = none
  /-- A lock is kept until the end, and taken only when it is free. -/
  lock : ∀ roomId, y.lock = some roomId → x.lock = some roomId ∨ ¬ p.locked i roomId
  current : y.Current p.tables

/-- What a statement that ends its transaction leaves. -/
structure Finishes (p : Pool) (x y : Txn) (t : Tables) : Prop where
  lock : y.lock = none
  good : y.Good t
  current : y.Current t
  frame : Tables.Frame x.lock p.tables t
  /-- Only a commit changes the tables. -/
  commits : t = p.tables ∨ x.committing
  ended : ∃ e, x.ended? = none ∧ y.ended? = some e ∧ e.call = x.call ∧ Serial p.tables e t

/-- What a statement makes of its transaction. -/
def Proceeds (p : Pool) (i : ℕ) (x : Txn) : Outcome → Prop
  | .next y => Goes p i x y
  | .wait => True
  | .ends y t => Finishes p x y t

section Tables

variable {t : Tables}

/-- The row that was written is the one that `UPDATE` makes now. -/
theorem setRoom_reopened (hpkey : (t.rooms.map (·.roomId)).Nodup) {old : RoomRow} (hold : old ∈ t.rooms)
    (hst : old.status = .terminated) (roomName : String) (hostId maxPlayers : ℤ) (began : ℕ) :
    t.setRoom (old.reopened roomName hostId maxPlayers began) =
      t.reopenRoom old.roomId (sqlText roomName) hostId maxPlayers began := by
  have hone : ∀ r ∈ t.rooms, r.roomId = old.roomId → r = old := fun r hr hid => Rows.eq_of_key_eq hpkey hr hold hid
  have hrooms : Rows.update (fun r => r.roomId = old.roomId)
        (fun _ => old.reopened roomName hostId maxPlayers began) t.rooms =
      Rows.update (fun r => r.roomId = old.roomId ∧ r.status = .terminated)
        (fun r => r.reopened roomName hostId maxPlayers began) t.rooms := by
    refine Rows.update_congr (fun r hr => ⟨fun hid => ⟨hid, ?_⟩, fun h => h.1⟩) fun r hr hid => ?_
    · rw [hone r hr hid, hst]
    · rw [hone r hr hid]
  simp only [Tables.setRoom, RoomRow.roomId_reopened]
  exact congrArg (fun rooms => { t with rooms }) hrooms

theorem setRoom_terminated (hpkey : (t.rooms.map (·.roomId)).Nodup) {old : RoomRow} (hold : old ∈ t.rooms) :
    t.setRoom { old with status := .terminated } = t.setRoomStatus old.roomId .terminated := by
  unfold Tables.setRoom Tables.setRoomStatus
  congr 1
  exact Rows.update_congr (fun _ _ => Iff.rfl) fun r hr hid => by rw [Rows.eq_of_key_eq hpkey hr hold hid]

/-- Deleting all rows of a user, one by one. -/
theorem deleteRows_rowsOf {userId : ℤ} : t.deleteRows (t.rowsOf userId) = t.deleteRoomUsers userId := by
  unfold Tables.deleteRows Tables.deleteRoomUsers
  congr 1
  refine List.filter_congr fun q hq => ?_
  have hiff : q ∈ t.rowsOf userId ↔ q.userId = userId := mem_rowsOf.trans (and_iff_right hq)
  simp only [hiff]

end Tables

section Statements

variable {p : Pool} {i pick : ℕ}

theorem createRoomWithHost_moves (hpkey : (p.tables.rooms.map (·.roomId)).Nodup) {hostId maxPlayers : ℤ}
    {roomName : String} {began : ℕ} {stage : CreateStage}
    (h : (Txn.createRoomWithHost hostId roomName maxPlayers began stage).Good p.tables)
    (hc : (Txn.createRoomWithHost hostId roomName maxPlayers began stage).Current p.tables) :
    Proceeds p i (.createRoomWithHost hostId roomName maxPlayers began stage)
      (createRoomWithHost p i hostId roomName maxPlayers began stage) := by
  have hgiveUp : (Txn.createRoomWithHost hostId roomName maxPlayers began stage).ended? = none →
      (∀ roomId, ¬ CanOpen p.tables hostId roomName roomId) →
      Proceeds p i (.createRoomWithHost hostId roomName maxPlayers began stage)
        (createRoomWithHost.giveUp p hostId roomName maxPlayers began) :=
    fun hrun hno => ⟨rfl, trivial, trivial, .refl, .inl rfl, _, hrun, rfl, rfl, .noRoom hno⟩
  cases stage with
  | isJoined =>
    rw [createRoomWithHost]
    split_ifs with hjoined
    · exact hgiveUp rfl fun roomId hopen => hjoined (rowsOf_eq_nil.2 hopen.alone)
    · exact ⟨trivial, ⟨rfl, rfl⟩, fun _ hlock => (nomatch hlock), not_not.1 hjoined⟩
  | idResult =>
    refine ⟨trivial, ⟨rfl, rfl⟩, fun _ hlock => (nomatch hlock), hc, List.pairwise_insertionSort _ _, fun r hr hst => ?_⟩
    exact (List.mem_insertionSort _).2 (List.mem_map.2 ⟨r, List.mem_filter.2 ⟨hr, decide_eq_true hst⟩, rfl⟩)
  | lockRoom rooms =>
    obtain ⟨hnone, hsorted, hall⟩ := hc
    cases rooms with
    | nil =>
      refine hgiveUp rfl fun roomId hopen => ?_
      obtain ⟨r, hr, -, hst⟩ := freeRoom_mem hopen.free
      exact List.not_mem_nil (hall r hr hst)
    | cons roomId rooms =>
      obtain ⟨hfirst, hsorted⟩ := List.pairwise_cons.1 hsorted
      rw [createRoomWithHost]
      split_ifs with hlocked hfree
      · exact trivial
      · obtain ⟨row, hrow, hst⟩ := (Option.any_eq_true _ _).1 hfree
        obtain ⟨hmem, hid⟩ := room?_eq_some hrow
        have hstill : ∃ r ∈ p.tables.rooms, r.roomId = roomId ∧ r.status = .terminated :=
          ⟨row, hmem, hid, of_decide_eq_true hst⟩
        refine ⟨hstill, ⟨rfl, rfl⟩, fun k hlock => .inr ?_, hnone, freeRoom_eq_some_iff.2 ⟨hstill, fun r hr hst => ?_⟩⟩
        · rwa [← Option.some.inj hlock]
        · rcases List.mem_cons.1 (hall r hr hst) with hid | hlater
          · exact hid.ge
          · exact hfirst _ hlater
      · refine ⟨trivial, ⟨rfl, rfl⟩, fun _ hlock => (nomatch hlock), hnone, hsorted, fun r hr hst => ?_⟩
        -- the room that has been taken is not free
        refine (List.mem_cons.1 (hall r hr hst)).resolve_left fun hid => hfree ?_
        rw [← hid, room?_of_mem hpkey hr]
        exact decide_eq_true hst
  | roomResult roomId =>
    obtain ⟨old, hold, rfl, hst⟩ := h
    rw [createRoomWithHost, room?_of_mem hpkey hold]
    dsimp only
    split_ifs with hopen hbad
    · exact absurd hst hopen
    · refine hgiveUp rfl fun k hcan => ?_
      rcases hbad with hhost | hname
      · exact hhost hcan.host
      · exact absurd hcan.name (not_le.2 hname)
    · rw [not_or, not_not, not_lt] at hbad
      have hid := congrArg some (old.roomId_reopened roomName hostId maxPlayers began)
      exact ⟨⟨⟨old, hold, hst, rfl⟩, hbad⟩, ⟨rfl, rfl⟩, fun k hlock => .inl (hid.symm.trans hlock), hc.1, hc.2.trans hid.symm⟩
  | insertUser row =>
    rw [createRoomWithHost]
    split_ifs with hpending hin
    · exact trivial
    · obtain ⟨q, hq, -, hu⟩ := hin
      exact hgiveUp rfl fun _ hcan => hcan.alone q hq hu
    · exact ⟨h, ⟨rfl, rfl⟩, fun k hlock => .inl hlock, hc⟩
  | commit row =>
    obtain ⟨⟨old, hold, hst, hrow⟩, hhost, hname⟩ := h
    have hid : row.roomId = old.roomId := by rw [hrow, RoomRow.roomId_reopened]
    refine ⟨rfl, trivial, trivial, ?_, .inr rfl, _, rfl, rfl, rfl, ?_⟩
    · exact (Tables.frame_setRoom _).trans (Tables.frame_insertRoomUser _ _ _)
    · have hopened : (p.tables.setRoom row).insertRoomUser row.roomId hostId began =
          openRoom p.tables old.roomId hostId roomName maxPlayers began := by
        rw [hid, hrow, setRoom_reopened hpkey hold hst, openRoom]
      have hserial : Serial p.tables ⟨.createRoomWithHost hostId roomName maxPlayers, began,
            .room (some (old.reopened roomName hostId maxPlayers began)), false⟩
          (openRoom p.tables old.roomId hostId roomName maxPlayers began) :=
        .opens hold ⟨hid ▸ hc.2, rowsOf_eq_nil.1 hc.1, hhost, hname⟩
      rw [← hopened, ← hrow] at hserial
      exact hserial
  | ended => exact trivial

theorem addPlayer_moves (hpkey : (p.tables.rooms.map (·.roomId)).Nodup) {roomId userId : ℤ} {began : ℕ}
    {stage : AddStage} (h : (Txn.addPlayer roomId userId began stage).Good p.tables)
    (hc : (Txn.addPlayer roomId userId began stage).Current p.tables) :
    Proceeds p i (.addPlayer roomId userId began stage) (addPlayer p i roomId userId began stage) := by
  have hgiveUp : (Txn.addPlayer roomId userId began stage).ended? = none → ¬ CanJoin p.tables roomId userId →
      Proceeds p i (.addPlayer roomId userId began stage) (addPlayer.giveUp p roomId userId began) :=
    fun hrun hno => ⟨rfl, trivial, trivial, .refl, .inl rfl, _, hrun, rfl, rfl, .refused hno⟩
  -- the row of the room is the one that decides
  have hroom : ∀ {row}, p.tables.room? roomId = some row → CanJoin p.tables roomId userId →
      row.status = .waiting ∧ p.tables.players roomId < row.maxPlayers := by
    intro row hrow hjoin
    obtain ⟨r, hr, rfl, hwaiting, hseat⟩ := hjoin.room
    rw [room?_of_mem hpkey hr] at hrow
    exact Option.some.inj hrow ▸ ⟨hwaiting, hseat⟩
  cases stage with
  | roomCheck =>
    rw [addPlayer]
    split
    · rename_i hnone
      refine hgiveUp rfl fun hjoin => ?_
      obtain ⟨r, hr, hid, -⟩ := hjoin.room
      exact room?_eq_none hnone r hr hid
    · rename_i row hrow
      split_ifs with hst
      · exact hgiveUp rfl fun hjoin => hst (hroom hrow hjoin).1
      · exact ⟨trivial, ⟨rfl, rfl⟩, fun _ hlock => (nomatch hlock), row, hrow, not_not.1 hst⟩
  | checkResult =>
    rw [addPlayer]
    split_ifs with hin
    · obtain ⟨q, hq, hid, hu⟩ := hin
      exact hgiveUp rfl fun hjoin => hjoin.fresh q hq hid hu
    · exact ⟨trivial, ⟨rfl, rfl⟩, fun _ hlock => (nomatch hlock), hc⟩
  | maxPlayersResult =>
    obtain ⟨row, hrow, hst⟩ := hc
    exact ⟨trivial, ⟨rfl, rfl⟩, fun _ hlock => (nomatch hlock), row, hrow, hst, Iff.rfl⟩
  | lockRoom currentPlayers =>
    obtain ⟨row, hrow, hst, hcount⟩ := hc
    rw [addPlayer]
    split_ifs with hlocked
    · exact trivial
    · rw [Option.mem_def.1 hrow]
      dsimp only
      split_ifs with hfull
      · exact hgiveUp rfl fun hjoin => not_le.2 (hroom hrow hjoin).2 (hcount.2 hfull)
      · refine ⟨trivial, ⟨rfl, rfl⟩, fun k hlock => .inr ?_, row, hrow, hst, mt hcount.1 hfull⟩
        rwa [← Option.some.inj hlock]
  | insertUser =>
    rw [addPlayer]
    split_ifs with hpending hbad
    · exact trivial
    · refine hgiveUp rfl fun hjoin => ?_
      rcases hbad with ⟨q, hq, hid, hu⟩ | huser
      · exact hjoin.fresh q hq hid hu
      · exact huser hjoin.user
    · rw [not_or, not_not] at hbad
      exact ⟨hbad, ⟨rfl, rfl⟩, fun k hlock => .inl hlock, hc⟩
  | commit =>
    obtain ⟨row, hrow, hwaiting, hseat⟩ := hc
    obtain ⟨hmem, hid⟩ := room?_eq_some hrow
    refine ⟨rfl, trivial, trivial, Tables.frame_insertRoomUser _ _ _, .inr rfl, _, rfl, rfl, rfl, .joins ?_⟩
    exact ⟨⟨row, hmem, hid, hwaiting, not_le.1 hseat⟩, fun q hq hid hu => h.1 ⟨q, hq, hid, hu⟩, h.2⟩
  | ended => exact trivial

theorem removePlayer_moves (hpkey : (p.tables.rooms.map (·.roomId)).Nodup)
    (hfkey : ∀ q ∈ p.tables.roomUsers, q.roomId ∈ p.tables.rooms.map (·.roomId)) {userId : ℤ} {began : ℕ}
    {stage : RemoveStage} (h : (Txn.removePlayer userId began stage).Good p.tables)
    (hc : (Txn.removePlayer userId began stage).Current p.tables) :
    Proceeds p i (.removePlayer userId began stage) (removePlayer p i pick userId began stage) := by
  have hrowsOf : ∀ q ∈ p.tables.rowsOf userId, q.userId = userId := fun q hq => (mem_rowsOf.1 hq).2
  cases stage with
  | roomResult =>
    rw [removePlayer]
    split_ifs with hnone
    · exact ⟨rfl, trivial, trivial, .refl, .inl rfl, _, rfl, rfl, rfl, .absent (rowsOf_eq_nil.1 hnone)⟩
    · split
      · exact trivial
      · rename_i row hrow
        exact ⟨trivial, ⟨rfl, rfl⟩, fun _ hlock => (nomatch hlock), row, List.mem_of_getElem? hrow, rfl⟩
  | deleteUser roomId => exact ⟨hrowsOf, ⟨rfl, rfl⟩, fun _ hlock => (nomatch hlock), hc, rfl⟩
  | lockRows roomId rows =>
    obtain ⟨hin, rfl⟩ := hc
    rw [removePlayer]
    split_ifs with hpending
    · exact trivial
    · have hstay : (p.tables.rowsOf userId).filter (· ∈ p.tables.roomUsers) = p.tables.rowsOf userId :=
        List.filter_eq_self.2 fun q hq => decide_eq_true (mem_rowsOf.1 hq).1
      rw [hstay]
      exact ⟨hrowsOf, ⟨rfl, rfl⟩, fun _ hlock => (nomatch hlock), hin, rfl⟩
  | countResult roomId rows =>
    obtain ⟨hin, rfl⟩ := hc
    rw [removePlayer, deleteRows_rowsOf]
    split_ifs with hempty
    · exact ⟨hrowsOf, ⟨rfl, rfl⟩, fun _ hlock => (nomatch hlock), ⟨hin, rfl⟩, only_iff.2 hempty⟩
    · refine ⟨hrowsOf, ⟨rfl, rfl⟩, fun _ hlock => (nomatch hlock), ⟨hin, rfl⟩, ?_⟩
      exact iff_of_false (fun hall => hempty (only_iff.1 hall)) (by simp)
  | terminate roomId rows =>
    obtain ⟨⟨⟨q, hq, rfl⟩, rfl⟩, hall⟩ := hc
    rw [removePlayer]
    split_ifs with hlocked
    · exact trivial
    · obtain ⟨row, hrow, hid⟩ := List.mem_map.1 (hfkey q (mem_rowsOf.1 hq).1)
      rw [← hid, room?_of_mem hpkey hrow, hid]
      refine ⟨⟨hrowsOf, row, hrow, hid, rfl⟩, ⟨rfl, rfl⟩, fun k hlock => .inr ?_, ⟨⟨q, hq, rfl⟩, rfl⟩, hall⟩
      rwa [← Option.some.inj hlock]
  | completeGames roomId rows row =>
    exact ⟨h, ⟨rfl, rfl⟩, fun k hlock => .inl hlock, hc.1, iff_of_true hc.2 rfl⟩
  | commit roomId rows row =>
    obtain ⟨⟨hin, rfl⟩, hall⟩ := hc
    rw [← inRoom_iff] at hin
    cases row with
    | none =>
      refine ⟨rfl, trivial, trivial, Tables.frame_deleteRows _, .inr rfl, _, rfl, rfl, rfl, ?_⟩
      have hleft : leave p.tables userId roomId began = p.tables.deleteRoomUsers userId :=
        if_neg fun hempty => by simpa using hall.1 (only_iff.2 hempty)
      rw [deleteRows_rowsOf, ← hleft]
      exact .leaves hin
    | some row =>
      obtain ⟨-, old, hold, rfl, rfl⟩ := h
      refine ⟨rfl, trivial, trivial, ?_, .inr rfl, _, rfl, rfl, rfl, ?_⟩
      · refine (Tables.frame_deleteRows (p.tables.rowsOf userId)).trans ?_
        refine Tables.Frame.trans ?_ (Tables.frame_completeGames _ _)
        exact Tables.frame_setRoom { old with status := .terminated }
      · have hleft : leave p.tables userId old.roomId began =
            ((p.tables.deleteRoomUsers userId).setRoomStatus old.roomId .terminated).completeGames old.roomId began :=
          if_pos (only_iff.1 (hall.2 rfl))
        rw [deleteRows_rowsOf, setRoom_terminated (t := p.tables.deleteRoomUsers userId) hpkey hold, ← hleft]
        exact .leaves hin
  | ended => exact trivial

end Statements

/-- **One statement**, of a transaction for which all is as it has found it. -/
theorem Txn.moves {p : Pool} (hpkey : (p.tables.rooms.map (·.roomId)).Nodup)
    (hfkey : ∀ q ∈ p.tables.roomUsers, q.roomId ∈ p.tables.rooms.map (·.roomId)) (i pick : ℕ) {x : Txn}
    (h : x.Good p.tables) (hc : x.Current p.tables) : Proceeds p i x (x.move p i pick) := by
  cases x with
  | createRoomWithHost => exact createRoomWithHost_moves hpkey h hc
  | addPlayer => exact addPlayer_moves hpkey h hc
  | removePlayer => exact removePlayer_moves hpkey hfkey h hc

/-- A transaction that has ended stays as it is, and another one answers that it failed. -/
theorem Txn.abort_cases (x : Txn) : x.abort = x ∨
    x.ended? = none ∧ ∃ call began, x.abort.ended? = some ⟨call, began, call.refusal, true⟩ := by
  cases x with
  | createRoomWithHost hostId roomName maxPlayers began stage =>
    cases stage with
    | ended => exact .inl rfl
    | _ => exact .inr ⟨rfl, _, _, rfl⟩
  | addPlayer roomId userId began stage =>
    cases stage with
    | ended => exact .inl rfl
    | _ => exact .inr ⟨rfl, _, _, rfl⟩
  | removePlayer userId began stage =>
    cases stage with
    | ended => exact .inl rfl
    | _ => exact .inr ⟨rfl, _, _, rfl⟩

/-- A transaction that has ended knows nothing, and has locked nothing. -/
theorem Txn.of_ended {x : Txn} {e : Ended} (h : x.ended? = some e) (t : Tables) :
    x.Good t ∧ x.Current t ∧ x.lock = none := by
  cases x with
  | createRoomWithHost hostId roomName maxPlayers began stage =>
    cases stage <;> first | exact ⟨trivial, trivial, rfl⟩ | cases h
  | addPlayer roomId userId began stage => cases stage <;> first | exact ⟨trivial, trivial, rfl⟩ | cases h
  | removePlayer userId began stage => cases stage <;> first | exact ⟨trivial, trivial, rfl⟩ | cases h

end Matching
end SocketCommunication
