/-
# What `removePlayer` leaves behind

`removePlayer` deletes all rows of the user, but counts the members and closes the
room for the first row alone that its `SELECT` finds.

* `removePlayer_clean_iff`: the call leaves no open room empty just when each other
  room of the user keeps a member, or was closed before.
-/

import SocketCommunication.Matching.RoomRuns

namespace SocketCommunication
namespace Matching

open Effect

namespace RoomRepository

open RoomCall

/-- `userId` was in the room, in which nobody is now. -/
def Emptied (t t' : Tables) (userId roomId : ℤ) : Prop :=
  (∃ q ∈ t.roomUsers, q.roomId = roomId ∧ q.userId = userId) ∧ ∀ q ∈ t'.roomUsers, q.roomId ≠ roomId

instance (t t' : Tables) (userId roomId : ℤ) : Decidable (Emptied t t' userId roomId) :=
  inferInstanceAs (Decidable (_ ∧ _))

/-- `userId` has left all rooms, those that are empty now are closed and their games
over, and nothing else has changed. -/
structure LeavesNoEmptyRoom (t t' : Tables) (userId : ℤ) : Prop where
  gone : ∀ q ∈ t'.roomUsers, q.userId ≠ userId
  terminated : ∀ r ∈ t'.rooms, Emptied t t' userId r.roomId → r.status = .terminated
  completed : ∀ g ∈ t'.games, Emptied t t' userId g.roomId → g.status = .completed
  roomUsers : t'.roomUsers.filter (·.userId ≠ userId) = t.roomUsers.filter (·.userId ≠ userId)
  rooms : List.Forall₂ (fun r r' => r' = r ∨
    Emptied t t' userId r.roomId ∧ r' = { r with status := r'.status }) t.rooms t'.rooms
  games : List.Forall₂ (fun g g' => g' = g ∨
    Emptied t t' userId g.roomId ∧ g.status = .inProgress ∧
      g' = { g with status := g'.status, completedAt := g'.completedAt }) t.games t'.games
  users : t'.users = t.users
  maps : t'.maps = t.maps

instance (t t' : Tables) (userId : ℤ) : Decidable (LeavesNoEmptyRoom t t' userId) :=
  decidable_of_iff
    (((∀ q ∈ t'.roomUsers, q.userId ≠ userId) ∧
      (∀ r ∈ t'.rooms, Emptied t t' userId r.roomId → r.status = .terminated) ∧
      ∀ g ∈ t'.games, Emptied t t' userId g.roomId → g.status = .completed) ∧
    (t'.roomUsers.filter (·.userId ≠ userId) = t.roomUsers.filter (·.userId ≠ userId) ∧
      List.Forall₂ (fun r r' => r' = r ∨
        Emptied t t' userId r.roomId ∧ r' = { r with status := r'.status }) t.rooms t'.rooms ∧
      List.Forall₂ (fun g g' => g' = g ∨
        Emptied t t' userId g.roomId ∧ g.status = .inProgress ∧
          g' = { g with status := g'.status, completedAt := g'.completedAt }) t.games t'.games) ∧
    t'.users = t.users ∧ t'.maps = t.maps)
    ⟨fun ⟨⟨h₁, h₂, h₃⟩, ⟨h₄, h₅, h₆⟩, h₇, h₈⟩ => ⟨h₁, h₂, h₃, h₄, h₅, h₆, h₇, h₈⟩,
      fun ⟨h₁, h₂, h₃, h₄, h₅, h₆, h₇, h₈⟩ => ⟨⟨h₁, h₂, h₃⟩, ⟨h₄, h₅, h₆⟩, h₇, h₈⟩⟩

/-- Each room of `userId` but `roomId` keeps a member, or is closed and without games
that are on. -/
def OthersStay (t : Tables) (userId roomId : ℤ) : Prop :=
  ∀ q ∈ t.roomUsers, q.userId = userId → q.roomId ≠ roomId →
    (∃ q' ∈ t.roomUsers, q'.roomId = q.roomId ∧ q'.userId ≠ userId) ∨
      (∀ r ∈ t.rooms, r.roomId = q.roomId → r.status = .terminated) ∧
        ∀ g ∈ t.games, g.roomId = q.roomId → g.status = .completed

instance (t : Tables) (userId roomId : ℤ) : Decidable (OthersStay t userId roomId) :=
  inferInstanceAs (Decidable (∀ q ∈ t.roomUsers, _))

section Tables

variable {t : Tables} {userId roomId : ℤ} {now : ℕ}

/-- A room is emptied when only the user who leaves was in it. -/
theorem emptied_leave {id : ℤ} : Emptied t (leave t userId roomId now) userId id ↔
    (∃ q ∈ t.roomUsers, q.roomId = id ∧ q.userId = userId) ∧
      ∀ q ∈ t.roomUsers, q.roomId = id → q.userId = userId := by
  refine and_congr_right fun _ => ?_
  simp only [mem_roomUsers_leave, and_imp]
  exact forall₂_congr fun q _ => by rw [not_imp_comm, ne_eq, not_not]

/-- The tables after `leave`, by whether the room that is looked at is empty. -/
theorem leave_eq : leave t userId roomId now =
    if ∀ q ∈ t.roomUsers, q.roomId = roomId → q.userId = userId then
      ((t.deleteRoomUsers userId).setRoomStatus roomId .terminated).completeGames roomId now
    else t.deleteRoomUsers userId :=
  if_congr players_deleteRoomUsers_eq_zero rfl rfl

/-- The room that is looked at is closed when it is empty. -/
theorem terminated_leave (h : OthersStay t userId roomId) :
    ∀ r ∈ (leave t userId roomId now).rooms, Emptied t (leave t userId roomId now) userId r.roomId →
      r.status = .terminated := by
  refine forall_mem_rooms_leave.2 fun r hr => ?_
  split_ifs with hp
  · exact fun _ => rfl
  · rw [emptied_leave]
    rintro ⟨⟨q, hq, hid, hu⟩, hall⟩
    have hne : q.roomId ≠ roomId := fun hroom => hp ⟨hid.symm.trans hroom, by rwa [← hroom, hid]⟩
    rcases h q hq hu hne with ⟨q', hq', hid', hne'⟩ | ⟨hterm, -⟩
    · exact absurd (hall q' hq' (hid'.trans hid)) hne'
    · exact hterm r hr hid.symm

theorem completed_leave (h : OthersStay t userId roomId) :
    ∀ g ∈ (leave t userId roomId now).games, Emptied t (leave t userId roomId now) userId g.roomId →
      g.status = .completed := by
  simp only [emptied_leave]
  rw [leave_eq]
  -- a game of another room that is emptied was over before
  have hother : ∀ g ∈ t.games, g.roomId ≠ roomId →
      ((∃ q ∈ t.roomUsers, q.roomId = g.roomId ∧ q.userId = userId) ∧
        ∀ q ∈ t.roomUsers, q.roomId = g.roomId → q.userId = userId) → g.status = .completed := by
    rintro g hg hne ⟨⟨q, hq, hid, hu⟩, hall⟩
    rcases h q hq hu (hid ▸ hne) with ⟨q', hq', hid', hne'⟩ | ⟨-, hover⟩
    · exact absurd (hall q' hq' (hid'.trans hid)) hne'
    · exact hover g hg hid.symm
  split_ifs with hempty
  · refine Rows.forall_mem_update_iff.2 fun g hg => ⟨fun _ _ => rfl, fun hp hem => ?_⟩
    by_cases hroom : g.roomId = roomId
    · cases hst : g.status with
      | inProgress => exact absurd ⟨hst, hroom⟩ hp
      | completed => rfl
    · exact hother g hg hroom hem
  · intro g hg hem
    refine hother g hg (fun hroom => hempty ?_) hem
    rw [← hroom]
    exact hem.2

/-- What `leave` does to the rows of other rooms and users: nothing. -/
theorem leavesNoEmptyRoom_leave (hmem : ∃ q ∈ t.roomUsers, q.roomId = roomId ∧ q.userId = userId)
    (h : OthersStay t userId roomId) : LeavesNoEmptyRoom t (leave t userId roomId now) userId where
  gone q hq := (mem_roomUsers_leave.1 hq).2
  terminated := terminated_leave h
  completed := completed_leave h
  roomUsers := by
    rw [roomUsers_leave, Rows.delete, List.filter_filter]
    exact List.filter_congr fun q _ => by simp
  rooms := by
    simp only [emptied_leave]
    rw [leave_eq]
    split_ifs with hempty
    · refine Rows.forall₂_update.2 fun r _ => ⟨fun hp => .inr ⟨?_, rfl⟩, fun _ => .inl rfl⟩
      rw [hp]
      exact ⟨hmem, hempty⟩
    · exact List.forall₂_same.2 fun _ _ => .inl rfl
  games := by
    simp only [emptied_leave]
    rw [leave_eq]
    split_ifs with hempty
    · refine Rows.forall₂_update.2 fun g _ => ⟨fun hp => .inr ⟨?_, hp.1, rfl⟩, fun _ => .inl rfl⟩
      rw [hp.2]
      exact ⟨hmem, hempty⟩
    · exact List.forall₂_same.2 fun _ _ => .inl rfl
  users := users_leave t userId roomId now
  maps := by
    rw [leave_eq]
    split_ifs <;> rfl

/-- A room that is not looked at keeps its row. -/
theorem othersStay_of_leave (h : LeavesNoEmptyRoom t (leave t userId roomId now) userId) :
    OthersStay t userId roomId := by
  intro q hq hu hne
  by_contra hn
  rw [not_or, not_exists] at hn
  obtain ⟨hlast, hopen⟩ := hn
  have hem : Emptied t (leave t userId roomId now) userId q.roomId := by
    refine emptied_leave.2 ⟨⟨q, hq, rfl, hu⟩, fun q' hq' hid => ?_⟩
    by_contra hne'
    exact hlast q' ⟨hq', hid, hne'⟩
  refine hopen ⟨fun r hr hid => ?_, fun g hg hid => ?_⟩
  · have hr' := forall_mem_rooms_leave.1 h.terminated r hr
    rw [if_neg fun hp => hne (hid.symm.trans hp.1)] at hr'
    exact hr' (hid ▸ hem)
  · refine h.completed g ?_ (hid ▸ hem)
    rw [leave_eq]
    split_ifs
    · exact Rows.mem_update_of_not hg fun hp => hne (hid.symm.trans hp.2)
    · exact hg

end Tables

/-- When `removePlayer` commits, each room of the user but the one it has found keeps
a member, or is closed and without games that are on. -/
def ClosesAll (env : Env) (w : World) (userId : ℤ) : Prop :=
  ∀ roomId, Leaves env w userId roomId → OthersStay w.db.1 userId roomId

/-- What `removePlayer` should do: leave no empty room open if it returns `true`, and
change nothing otherwise. -/
def Clean (env : Env) (w : World) (userId : ℤ) : Prop :=
  wp (removePlayer env userId)
    (fun b w' => if b then LeavesNoEmptyRoom w.db.1 w'.db.1 userId else w'.db = w.db)
    (fun _ w' => w'.db = w.db) w

/-- **`removePlayer` leaves no empty open room just when no room but the one it has
found is emptied.** -/
theorem removePlayer_clean_iff (env : Env) (w : World) (userId : ℤ) :
    Clean env w userId ↔ ClosesAll env w userId := by
  have hspec := @removePlayer_spec env w userId
  constructor
  · intro h roomId hl
    by_contra hn
    refine wp_exclude hspec h (fun b w' hb hb' => ?_) fun _ w' he _ => he.1 roomId hl
    cases b with
    | true =>
      obtain ⟨roomId', hl', hp⟩ := hb
      obtain rfl := Option.some.inj (hl'.1.symm.trans hl.1)
      rw [if_pos rfl, hp.1] at hb'
      exact hn (othersStay_of_leave hb')
    | false => exact hb.1 roomId hl
  · intro hc
    refine wp_mono (fun b w' hb => ?_) (fun _ w' he => he.2.1) hspec
    cases b with
    | true =>
      obtain ⟨roomId, hl, hp⟩ := hb
      rw [if_pos rfl, hp.1]
      obtain ⟨q, hq, hid⟩ := hl.exists_row
      exact leavesNoEmptyRoom_leave ⟨q, hq, hid⟩ (hc roomId hl)
    | false => exact hb.2.1

/-- User 1 opens a room and joins that of user 2, who leaves it. -/
def twoRooms : World :=
  [RoomCall.createRoomWithHost 1 "one" 4, .createRoomWithHost 2 "two" 4, .addPlayer 2 1, .removePlayer 2].foldl
    (RoomCall.step .reliable) .init

/-- User 1 leaves both rooms, and only the first is closed. -/
theorem not_clean_twoRooms : ¬ Clean .reliable twoRooms 1 := by
  unfold Clean
  decide +kernel

end RoomRepository

end Matching
end SocketCommunication
