/-
# What a login leaves in `users`

A login should note its time in the row of the account that it answers with.  Both
services end in `updateLastLogin`, with a number that they come by differently:
`loginUser` takes it from the lookup, `registerCheckAndLogin` has only the number of
an account that it has just created, and −1 for one that was there.

`NotesRight` is said of the rows and of the calls that answer: the rows that are noted
are those that should be, or have this very time already.  `footprint_iff` says that
this is when both services leave what a login should.
-/

import SocketCommunication.Matching.Login

namespace SocketCommunication
namespace Matching

open Effect UserRepository

namespace AuthService

/-- There is an account under the name in the request. -/
def Known (env : Env) (w : World) (request : Json) : Prop :=
  ∃ userName, request.value "userName" = .str userName ∧ accounts env w.db.1 userName ≠ []

/-- **What a login as `u` may leave in `users`**: the time in the row of the account, or
under an unknown name a new row with the time. -/
def Footprint (env : Env) (w : World) (request : Json) (u : ℤ) (w' : World) : Prop :=
  (Known env w request ∧ u ∈ w.db.1.users.map (·.userId) ∧
    w'.db.1.users = (w.db.1.setLastLogin u w'.began).users) ∨
  (¬ Known env w request ∧ ∃ row : UserRow, row.userId = u ∧ row.lastLogin = some w'.began ∧
    w'.db.1.users = w.db.1.users ++ [row])

/-- Whenever a service answers with success, it leaves the footprint of the login. -/
def LeavesFootprint (env : Env) (w : World) (request : Json) (service : DbM Json) : Prop :=
  wp service (fun j w' => j.succeeds → ∀ u, j.value "userId" = .int u → Footprint env w request u w')
    (fun _ _ => True) w

/-- A lookup tells the number of the account that it finds, or −1. -/
def Tells (env : Env) (w : World) (userName : String) (u : ℤ) : Prop :=
  (∃ v, Finds env w userName v ∧ v.userId = u) ∨ ((∀ v, ¬ Finds env w userName v) ∧ u = -1)

/-- **When the logins of a request are noted right.** -/
structure NotesRight (env : Env) (w : World) (request : Json) : Prop where
  /-- `loginUser`: the UPDATE and the COMMIT answer. -/
  login : ∀ userName u, LogsIn env w request userName u → env.Answers (w.looked env userName) 1 →
    env.Answers (w.looked env userName) 3 ∨ u.lastLogin = some (env.now ((w.looked env userName).tick + 1))
  /-- `registerCheckAndLogin` of an account that was there notes the row −1, if any, and not
  that of the account. -/
  known : ∀ userName w₁ u, Arrives env w request userName none w₁ → env.Answers w₁ 1 →
    env.Answers (w₁.looked env userName) 1 → Tells env w₁ userName u → u ∈ w.db.1.users.map (·.userId) ∧
      ((u = -1 ∧ env.Answers (w₁.looked env userName) 3) ∨
        ∀ r ∈ w.db.1.users, r.userId = u ∨ (env.Answers (w₁.looked env userName) 3 ∧ r.userId = -1) →
          r.lastLogin = some (env.now ((w₁.looked env userName).tick + 1)))
  /-- `registerCheckAndLogin` of a new name: the second lookup finds the account that was
  created, and the UPDATE and the COMMIT answer. -/
  created : ∀ userName n w₁, Arrives env w request userName (some n) w₁ → env.Answers w₁ 1 →
    env.Answers (w₁.looked env userName) 1 → accounts env w.db.1 userName = [] ∧
      ∃ v, Finds env w₁ userName v ∧ v.userId = n ∧
        (env.Answers (w₁.looked env userName) 3 ∨
          v.lastLogin = some (env.now ((w₁.looked env userName).tick + 1)))

section Spec

variable {env : Env} {w w₁ w₂ w' : World} {request : Json} {userName : String} {userId u : ℤ}

theorem setLastLogin_row (r : UserRow) (now : ℕ) : { r with lastLogin := some now } = r ↔ r.lastLogin = some now := by
  constructor
  · intro h
    rw [← h]
  · intro h
    rw [← h]

/-- The login is noted in the row of the number, if the calls answer. -/
theorem users_noted (h : Noted env w₂ userId w') :
    w'.db.1.users = Rows.update (fun r => env.Answers w₂ 3 ∧ r.userId = userId)
      (fun r => { r with lastLogin := some (env.now (w₂.tick + 1)) }) w₂.db.1.users := by
  rw [h.db]
  split_ifs with ha
  · exact Rows.update_congr (fun r _ => (and_iff_right ha).symm) fun _ _ _ => rfl
  · exact (Rows.update_eq_self fun r _ h => ha h.1).symm

/-- The row of `u` has been noted, and no other, as far as one can tell. -/
theorem stamps_iff (h : Noted env w₂ userId w') :
    w'.db.1.users = (w₂.db.1.setLastLogin u w'.began).users ↔ ∀ r ∈ w₂.db.1.users,
      (r.userId = u ↔ env.Answers w₂ 3 ∧ r.userId = userId) ∨ r.lastLogin = some (env.now (w₂.tick + 1)) := by
  rw [users_noted h, h.began, Tables.setLastLogin, Rows.update_eq_update_iff]
  exact forall₂_congr fun r _ => or_congr_right (setLastLogin_row r _)

/-- A lookup that finds somebody has a known name. -/
theorem known_of_finds {r : UserRow} (hname : request.value "userName" = .str userName)
    (h : Finds env w userName r) : Known env w request := by
  refine ⟨userName, hname, fun hnone => ?_⟩
  have hfirst := h.first
  rw [hnone, Env.order_nil] at hfirst
  cases hfirst

theorem footprint_known_iff (hknown : Known env w request) : Footprint env w request u w' ↔
    u ∈ w.db.1.users.map (·.userId) ∧ w'.db.1.users = (w.db.1.setLastLogin u w'.began).users :=
  (or_iff_left fun h => h.1 hknown).trans (and_iff_right hknown)

/-- `loginUser` notes the row that it has found. -/
theorem footprint_login {row : UserRow} (hlogs : LogsIn env w request userName row)
    (hnoted : Noted env (w.looked env userName) row.userId w') :
    Footprint env w request row.userId w' ↔ env.Answers (w.looked env userName) 3 ∨
      row.lastLogin = some (env.now ((w.looked env userName).tick + 1)) := by
  have hmem : row ∈ w.db.1.users := hlogs.finds.mem
  rw [footprint_known_iff (known_of_finds hlogs.name hlogs.finds), and_iff_right (List.mem_map_of_mem hmem)]
  refine (stamps_iff hnoted).trans ⟨fun h => ?_, fun h r hr => ?_⟩
  · exact (h row hmem).imp_left fun hiff => (hiff.1 rfl).1
  · rcases h with ha | hsame
    · exact .inl (and_iff_right ha).symm
    · by_cases hid : r.userId = row.userId
      · rw [Rows.eq_of_key_eq w.db.2.users_pkey hr hmem hid]
        exact .inr hsame
      · exact .inl (iff_of_false hid fun h => hid h.2)

/-- `registerCheckAndLogin` notes the row −1. -/
theorem footprint_known (ha : Arrives env w request userName none w₁)
    (hnoted : Noted env (w₁.looked env userName) (-1) w') :
    Footprint env w request u w' ↔ u ∈ w.db.1.users.map (·.userId) ∧
      ((u = -1 ∧ env.Answers (w₁.looked env userName) 3) ∨
        ∀ r ∈ w.db.1.users, r.userId = u ∨ (env.Answers (w₁.looked env userName) 3 ∧ r.userId = -1) →
          r.lastLogin = some (env.now ((w₁.looked env userName).tick + 1))) := by
  obtain ⟨hknown, hdb⟩ : Known env w request ∧ w₁.db = w.db := by
    cases ha with
    | known hname _ hfinds => exact ⟨known_of_finds hname hfinds, rfl⟩
  rw [footprint_known_iff hknown]
  refine and_congr_right fun _ => ?_
  have hstamps := @stamps_iff env _ w' (-1) u hnoted
  rw [show (w₁.looked env userName).db = w₁.db from rfl, hdb] at hstamps
  refine hstamps.trans ⟨fun h => ?_, fun h r hr => ?_⟩
  · refine or_iff_not_imp_left.2 fun hno r hr hor => (h r hr).resolve_left fun hiff => hno ?_
    rcases hor with hid | hneg
    · obtain ⟨hans, hneg⟩ := hiff.1 hid
      exact ⟨hid.symm.trans hneg, hans⟩
    · exact ⟨(hiff.2 hneg).symm.trans hneg.2, hneg.1⟩
  · rcases h with ⟨rfl, hans⟩ | hsame
    · exact .inl (and_iff_right hans).symm
    · by_cases hor : r.userId = u ∨ (env.Answers (w₁.looked env userName) 3 ∧ r.userId = -1)
      · exact .inr (hsame r hr hor)
      · rw [not_or] at hor
        exact .inl (iff_of_false hor.1 hor.2)

/-- The number that was created is that of the last row. -/
theorem Arrives.created_row {n : ℤ} (ha : Arrives env w request userName (some n) w₁) :
    request.value "userName" = .str userName ∧ ∃ row : UserRow, row.userId = n ∧
      w₁.db.1.users = w.db.1.users ++ [row] := by
  cases ha with
  | created hname => exact ⟨hname, _, rfl, rfl⟩

/-- `registerCheckAndLogin` notes the row that it has created. -/
theorem footprint_created {n : ℤ} (ha : Arrives env w request userName (some n) w₁)
    (hnoted : Noted env (w₁.looked env userName) n w') (hu : Tells env w₁ userName u) :
    Footprint env w request u w' ↔ accounts env w.db.1 userName = [] ∧
      ∃ v, Finds env w₁ userName v ∧ v.userId = n ∧
        (env.Answers (w₁.looked env userName) 3 ∨
          v.lastLogin = some (env.now ((w₁.looked env userName).tick + 1))) := by
  obtain ⟨hname, row, hid, hnew⟩ := ha.created_row
  have hknown : Known env w request ↔ accounts env w.db.1 userName ≠ [] := by
    constructor
    · rintro ⟨n, hn, hsome⟩
      obtain rfl := Json.str.inj (hname.symm.trans hn)
      exact hsome
    · exact fun hsome => ⟨userName, hname, hsome⟩
  have hne : ∀ r ∈ w.db.1.users, r.userId ≠ n := fun r hr he => ha.fresh.2 (he ▸ List.mem_map_of_mem hr)
  have hrows := users_noted hnoted
  have hold : Rows.update (fun r => env.Answers (w₁.looked env userName) 3 ∧ r.userId = n)
      (fun r => { r with lastLogin := some (env.now ((w₁.looked env userName).tick + 1)) }) w.db.1.users = w.db.1.users :=
    Rows.update_eq_self fun r hr h => hne r hr h.2
  rw [show (w₁.looked env userName).db = w₁.db from rfl, hnew, Rows.update, List.map_append, ← Rows.update, hold,
    List.map_singleton] at hrows
  have hrow : ∀ v, Finds env w₁ userName v → v.userId = n → v = row := by
    intro v hv hvid
    have hmem : v ∈ w₁.db.1.users := hv.mem
    rw [hnew] at hmem
    rcases List.mem_append.1 hmem with hmem | hmem
    · exact absurd hvid (hne v hmem)
    · exact List.mem_singleton.1 hmem
  constructor
  · rintro (⟨-, -, hsame⟩ | ⟨hn, row', hid', hlast, hsame⟩)
    · -- an account too many
      have hlen := congrArg List.length (hrows.symm.trans hsame)
      rw [Tables.setLastLogin, Rows.update, List.length_append, List.length_map, List.length_singleton] at hlen
      omega
    · rw [hrows] at hsame
      have hstamped := List.singleton_inj.1 (List.append_cancel_left hsame)
      have hun : u = n := by
        rw [← hid', ← hstamped, ← hid]
        split_ifs <;> rfl
      obtain ⟨v, hv, hvid⟩ := hu.resolve_right fun hneg => by
        have := ha.fresh.1
        omega
      refine ⟨not_not.1 (mt hknown.2 hn), v, hv, hvid.trans hun, ?_⟩
      obtain rfl := hrow v hv (hvid.trans hun)
      by_cases hans : env.Answers (w₁.looked env userName) 3
      · exact .inl hans
      · rw [if_neg fun h => hans h.1] at hstamped
        rw [hstamped, ← hnoted.began]
        exact .inr hlast
  · rintro ⟨hnone, v, hv, hvid, hor⟩
    obtain rfl := hrow v hv hvid
    have hun : u = v.userId := by
      rcases hu with ⟨v', hv', rfl⟩ | ⟨hno, -⟩
      · rw [Option.some.inj (hv.first.symm.trans hv'.first)]
      · exact absurd hv (hno v)
    refine .inr ⟨fun hk => hknown.1 hk hnone, _, ?_, ?_, hrows⟩
    · rw [hun]
      split_ifs <;> rfl
    · rw [hnoted.began]
      split_ifs with hans
      · rfl
      · exact hor.resolve_left fun h => hans ⟨h, hvid⟩

theorem loginUser_footprint_iff (w : World) (request : Json) :
    LeavesFootprint env w request (loginUser env request) ↔ ∀ userName u, LogsIn env w request userName u →
      env.Answers (w.looked env userName) 1 → env.Answers (w.looked env userName) 3 ∨
        u.lastLogin = some (env.now ((w.looked env userName).tick + 1)) := by
  have hends := @loginUser_ends env w request
  constructor
  · intro h userName row hlogs hans
    by_contra hno
    refine wp_exclude h hends (fun j w' hfoot hcase => ?_) fun _ _ _ hfails => hfails userName row hlogs hans
    rcases hcase with ⟨-, hnone⟩ | ⟨n, r, _, _, _, hlogs', hnoted, rfl⟩
    · exact hnone userName row hlogs
    · obtain ⟨rfl, rfl⟩ := hlogs.unique hlogs'
      exact hno ((footprint_login hlogs hnoted).1 (hfoot rfl _ rfl))
  · intro h
    refine wp_mono (fun j w' hcase hs u hu => ?_) (fun _ _ _ => trivial) hends
    rcases hcase with ⟨hfails, -⟩ | ⟨userName, row, _, _, _, hlogs, hnoted, rfl⟩
    · exact absurd hs (by rw [hfails]; decide)
    · obtain rfl : row.userId = u := Json.int.inj hu
      exact (footprint_login hlogs hnoted).2 (h userName row hlogs hnoted.answers)

/-- A lookup tells something, and one thing. -/
theorem exists_tells (env : Env) (w : World) (userName : String) : ∃ u, Tells env w userName u := by
  by_cases hfound : ∃ v, Finds env w userName v
  · obtain ⟨v, hv⟩ := hfound
    exact ⟨v.userId, .inl ⟨v, hv, rfl⟩⟩
  · exact ⟨-1, .inr ⟨fun v hv => hfound ⟨v, hv⟩, rfl⟩⟩

/-- What the answer to the second lookup says. -/
theorem tells_iff_of_answer {j : Json}
    (hj : (∃ v nickName createdAt lastLogin, Finds env w₁ userName v ∧
        j = loginResponse (userJson env v nickName createdAt lastLogin)) ∨
      ((∀ v, ¬ Finds env w₁ userName v) ∧ j = loginResponse noUser)) :
    Tells env w₁ userName u ↔ j.value "userId" = .int u := by
  rcases hj with ⟨v, _, _, _, hv, rfl⟩ | ⟨hnone, rfl⟩
  · constructor
    · rintro (⟨v', hv', rfl⟩ | ⟨hnone, -⟩)
      · rw [Option.some.inj (hv'.first.symm.trans hv.first)]
        rfl
      · exact absurd hv (hnone v)
    · exact fun h => .inl ⟨v, hv, Json.int.inj h⟩
  · constructor
    · rintro (⟨v, hv, -⟩ | ⟨-, rfl⟩)
      · exact absurd hv (hnone v)
      · rfl
    · exact fun h => .inr ⟨hnone, (Json.int.inj h).symm⟩

/-- A service that leaves the footprint of a login notes the login that it gets to. -/
theorem exists_noted {created : Option ℤ} (h : LeavesFootprint env w request (registerCheckAndLogin env request))
    (ha : Arrives env w request userName created w₁) (hans : env.Answers w₁ 1)
    (hans₂ : env.Answers (w₁.looked env userName) 1) (hu : Tells env w₁ userName u) :
    ∃ w', Noted env (w₁.looked env userName) (created.getD (-1)) w' ∧ Footprint env w request u w' := by
  by_contra hno
  refine wp_exclude h (registerCheckAndLogin_ends w request) (fun j w' hfoot hcase => ?_) fun _ _ _ hfails =>
    hfails userName created w₁ ha ⟨hans, hans₂⟩
  rcases hcase with ⟨-, hnone⟩ | ⟨n, c, w₂, ha', -, hnoted, hj⟩
  · exact hnone userName created w₁ ha
  · obtain ⟨rfl, rfl, rfl⟩ := ha.unique ha'
    have hsuccess : j.succeeds := by
      rcases hj with ⟨_, _, _, _, -, rfl⟩ | ⟨-, rfl⟩ <;> rfl
    exact hno ⟨w', hnoted, hfoot hsuccess u ((tells_iff_of_answer hj).1 hu)⟩

/-- **Each service leaves the footprint of a login just when it notes it right.** -/
theorem footprint_iff (env : Env) (w : World) (request : Json) :
    (LeavesFootprint env w request (loginUser env request) ∧
      LeavesFootprint env w request (registerCheckAndLogin env request)) ↔ NotesRight env w request := by
  constructor
  · rintro ⟨hlogin, hregister⟩
    refine ⟨(loginUser_footprint_iff w request).1 hlogin, fun userName w₁ u ha hans hans₂ hu => ?_,
      fun userName n w₁ ha hans hans₂ => ?_⟩
    · obtain ⟨w', hnoted, hfoot⟩ := exists_noted hregister ha hans hans₂ hu
      exact (footprint_known ha hnoted).1 hfoot
    · obtain ⟨u, hu⟩ := exists_tells env w₁ userName
      obtain ⟨w', hnoted, hfoot⟩ := exists_noted hregister ha hans hans₂ hu
      exact (footprint_created ha hnoted hu).1 hfoot
  · intro h
    refine ⟨(loginUser_footprint_iff w request).2 h.login, ?_⟩
    refine wp_mono (fun j w' hcase hs u hu => ?_) (fun _ _ _ => trivial) (registerCheckAndLogin_ends w request)
    rcases hcase with ⟨hfails, -⟩ | ⟨userName, created, w₁, ha, hans, hnoted, hj⟩
    · exact absurd hs (by rw [hfails]; decide)
    have htells : Tells env w₁ userName u := (tells_iff_of_answer hj).2 hu
    cases created with
    | none => exact (footprint_known ha hnoted).2 (h.known userName w₁ u ha hans hnoted.answers htells)
    | some n => exact (footprint_created ha hnoted htells).2 (h.created userName n w₁ ha hans hnoted.answers)

/-- The second login of an account of `db-init.sql`. -/
def knownLogin : Json := .obj [("userName", .str "rnqhscjf3333"), ("password", .str "admin")]

/-- It is answered with the account 1, whose row is left as it was. -/
theorem knownLogin_unnoted : wp (AuthService.registerCheckAndLogin .reliable knownLogin)
    (fun j w' => j.succeeds ∧ j.value "userId" = .int 1 ∧
      w'.db.1.users ≠ (World.init.db.1.setLastLogin 1 w'.began).users) (fun _ _ => False) .init := by
  decide +kernel

theorem not_footprint_knownLogin :
    ¬ (LeavesFootprint .reliable .init knownLogin (AuthService.loginUser .reliable knownLogin) ∧
      LeavesFootprint .reliable .init knownLogin (AuthService.registerCheckAndLogin .reliable knownLogin)) := by
  unfold LeavesFootprint
  rintro ⟨-, h⟩
  obtain ⟨j, w', hrun, hsuccess, hid, hrows⟩ := wp_returns knownLogin_unnoted
  have hknown : Known .reliable .init knownLogin := ⟨"rnqhscjf3333", rfl, by decide +kernel⟩
  rcases wp_ok h hrun hsuccess 1 hid with ⟨-, -, hsame⟩ | ⟨hn, -⟩
  · exact hrows hsame
  · exact hn hknown

/-- The first login of somebody. -/
def newcomerLogin : Json := .obj [("userName", .str "newcomer"), ("password", .str "password")]

theorem valid_newcomer : (enrol .reliable (World.init.looked .reliable "newcomer") "newcomer"
    (PasswordUtil.hashPassword .reliable "password")).Valid := by
  decide +kernel

/-- The world in which the account is there. -/
def newcomerWorld : World :=
  (World.init.looked .reliable "newcomer").enrolled .reliable "newcomer" (PasswordUtil.hashPassword .reliable "password")
    valid_newcomer

/-- The second lookup finds it. -/
theorem newcomer_found : (Env.reliable.order (newcomerWorld.tick + 2)
    (accounts .reliable newcomerWorld.db.1 "newcomer")).head?.any (fun v => v.nickName.isSome && v.createdAt.isSome &&
      v.lastLogin.isSome && v.userId == (World.init.seqs.users : ℤ)) = true := by
  decide +kernel

theorem answers_newcomer : Env.reliable.Answers newcomerWorld 9 ∧
    Env.reliable.Answers (newcomerWorld.looked .reliable "newcomer") 3 := by
  decide +kernel

theorem exists_newcomer : ∃ v, Finds .reliable newcomerWorld "newcomer" v ∧ v.userId = World.init.seqs.users := by
  obtain ⟨v, hfirst, hv⟩ := (Option.any_eq_true _ _).1 newcomer_found
  simp only [Bool.and_eq_true, beq_iff_eq] at hv
  obtain ⟨⟨⟨hnick, hcreated⟩, hlast⟩, hid⟩ := hv
  exact ⟨v, ⟨answers_newcomer.1, hfirst, hnick, hcreated, hlast⟩, hid⟩

/-- It creates the account, and notes the login there; there is nothing to log in to with
the password yet. -/
theorem footprint_newcomerLogin :
    LeavesFootprint .reliable .init newcomerLogin (loginUser .reliable newcomerLogin) ∧
      LeavesFootprint .reliable .init newcomerLogin (registerCheckAndLogin .reliable newcomerLogin) := by
  have hnobody : accounts .reliable World.init.db.1 "newcomer" = [] := by decide +kernel
  have hnone : ∀ u, ¬ Finds .reliable .init "newcomer" u := by
    intro u hu
    have hfirst := hu.first
    rw [hnobody, Env.order_nil] at hfirst
    cases hfirst
  refine (footprint_iff .reliable .init newcomerLogin).2 ⟨fun n u h => ?_, fun n w₁ u ha => ?_, fun n m w₁ ha => ?_⟩
  · obtain rfl : "newcomer" = n := Json.str.inj h.name
    exact absurd h.finds (hnone u)
  · cases ha with
    | known hname _ hfinds =>
      obtain rfl : "newcomer" = n := Json.str.inj hname
      exact absurd hfinds (hnone _)
  · cases ha with
    | created hname hpass he =>
      obtain rfl : "newcomer" = n := Json.str.inj hname
      obtain rfl := Json.str.inj hpass
      obtain ⟨v, hfinds, hid⟩ := exists_newcomer
      exact fun _ _ => ⟨hnobody, v, hfinds, hid, .inl answers_newcomer.2⟩

end Spec

end AuthService

end Matching
end SocketCommunication
