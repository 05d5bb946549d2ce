/-
# What a login proves

`loginUser` answers with an account only to its password.  `registerCheckAndLogin`
compares no password: it answers with whatever the second lookup finds.

* `LogsIn`: the lookup of `loginUser` finds an account, and the request has its password
  (`loginUser_ends`).
* `Arrives`: `registerCheckAndLogin` gets to its second lookup, because the first has
  found an account or because one was created (`registerCheckAndLogin_ends`).
* `registerCheckAndLogin_sound_iff`: when that answers with an account to whose password.
-/

import SocketCommunication.Matching.Controller
import SocketCommunication.Matching.Lookups

namespace SocketCommunication
namespace Matching

open Effect UserRepository

/-- The password in a request is that of an account. -/
def Matches (env : Env) (request : Json) (u : UserRow) : Prop :=
  ∃ password, request.value "password" = .str password ∧ env.sha256 password = u.passwordHash

instance (env : Env) (request : Json) (u : UserRow) : Decidable (Matches env request u) :=
  match h : request.value "password" with
  | .str password => decidable_of_iff (env.sha256 password = u.passwordHash) (by simp [Matches, h])
  | .null | .bool _ | .int _ | .float _ | .arr _ | .obj _ => isFalse (by simp [Matches, h])

/-- The account `u` was created between `w` and `w'`, or the request has its password. -/
def Vouched (env : Env) (w : World) (request : Json) (u : ℤ) (w' : World) : Prop :=
  (u ∉ w.db.1.users.map (·.userId) ∧ u ∈ w'.db.1.users.map (·.userId)) ∨
    ∃ row ∈ w.db.1.users, row.userId = u ∧ Matches env request row

instance (env : Env) (w : World) (request : Json) (u : ℤ) (w' : World) : Decidable (Vouched env w request u w') :=
  inferInstanceAs (Decidable ((u ∉ w.db.1.users.map (·.userId) ∧ u ∈ w'.db.1.users.map (·.userId)) ∨
    ∃ row ∈ w.db.1.users, row.userId = u ∧ Matches env request row))

/-- Whoever is answered `success` is vouched for. -/
def Sound (env : Env) (w : World) (request : Json) (service : DbM Json) : Prop :=
  wp service
    (fun j w' => j.succeeds → ∀ u, j.value "userId" = .int u → Vouched env w request u w')
    (fun _ _ => True) w

namespace AuthService

/-! ### `loginUser` -/

/-- The lookup finds the account `u`, and the request has its password. -/
structure LogsIn (env : Env) (w : World) (request : Json) (userName : String) (u : UserRow) : Prop where
  name : request.value "userName" = .str userName
  finds : Finds env w userName u
  number : u.userId ≠ -1
  password : Matches env request u

section LoginUser

variable {env : Env} {w : World} {request : Json} {userName : String} {u : UserRow}

/-- One name, and the first row under it. -/
theorem LogsIn.unique {userName' : String} {u' : UserRow} (h : LogsIn env w request userName u)
    (h' : LogsIn env w request userName' u') : userName = userName' ∧ u = u' := by
  obtain rfl := Json.str.inj (h.name.symm.trans h'.name)
  exact ⟨rfl, Option.some.inj (h.finds.first.symm.trans h'.finds.first)⟩

/-- **How `loginUser` ends**: with an error, or with the account that it logs in. -/
theorem loginUser_ends (w : World) (request : Json) :
    wp (loginUser env request)
      (fun j w' =>
        (j.succeeds = false ∧ ∀ userName u, ¬ LogsIn env w request userName u) ∨
        ∃ userName u nickName createdAt lastLogin, LogsIn env w request userName u ∧
          Noted env (w.looked env userName) u.userId w' ∧
          j = loginResponse (userJson env u nickName createdAt lastLogin))
      (fun _ _ => ∀ userName u, LogsIn env w request userName u → ¬ env.Answers (w.looked env userName) 1) w := by
  simp only [loginUser, wp_ite, wp_pure, wp_bind, wp_orThrow]
  refine ⟨fun hmiss => .inl ⟨rfl, fun n u h => hmiss ?_⟩, fun _ => ⟨fun userName hname => ?_, fun e he n u h => ?_⟩⟩
  · obtain ⟨password, hpass, -⟩ := h.password
    exact ⟨Json.contains_of_value h.name, Json.contains_of_value hpass⟩
  swap
  · rw [h.name] at he
    cases he
  have honly : ∀ {n u}, LogsIn env w request n u → n = userName := fun h =>
    Json.str.inj (h.name.symm.trans (Json.getString_ok hname))
  refine wp_lookup (fun j w₁ hans h₁ hj => ⟨fun hid => .inl ⟨rfl, fun n u h => ?_⟩, fun hid => ?_⟩) fun e w₁ hn _ n u h _ => ?_
  · obtain rfl := honly h
    exact h.number ((eqInt_of_lookup hj).1 hid u h.finds)
  · obtain ⟨v, nickName, createdAt, lastLogin, hfinds, rfl⟩ := hj.resolve_right fun h => hid ((eqInt_of_lookup hj).2 fun u hu =>
      absurd hu (h.1 u))
    have hfound : ∀ {n u}, LogsIn env w request n u → u = v := by
      intro n u h
      obtain rfl := honly h
      exact Option.some.inj (h.finds.first.symm.trans hfinds.first)
    refine ⟨fun password hpass => ⟨fun hash hhash => ⟨fun hbad => .inl ⟨rfl, fun n u h => ?_⟩, fun hgood => ?_⟩,
      fun e he => ?_⟩, fun e he n u h => ?_⟩
    · obtain ⟨password', hpass', hsha⟩ := h.password
      obtain rfl := hfound h
      obtain rfl := Json.str.inj ((Json.getString_ok hpass).symm.trans hpass')
      obtain rfl : u.passwordHash = hash := Except.ok.inj hhash
      exact hbad (by simpa [PasswordUtil.verifyPassword, PasswordUtil.hashPassword] using hsha)
    · have hlogs : LogsIn env w request userName v := by
        obtain rfl : v.passwordHash = hash := Except.ok.inj hhash
        refine ⟨Json.getString_ok hname, hfinds, fun hneg => hid ?_, password, Json.getString_ok hpass, ?_⟩
        · exact (eqInt_of_lookup hj).2 fun u hu => Option.some.inj (hu.first.symm.trans hfinds.first) ▸ hneg
        · simpa [PasswordUtil.verifyPassword, PasswordUtil.hashPassword] using hgood
      refine ⟨fun userId huserId => ?_, fun e he => ?_⟩
      · obtain ⟨hlo, hhi⟩ := w.db.2.users_int4 v hfinds.mem
        obtain rfl : userId = v.userId := (Except.ok.inj huserId).symm.trans (Json.wrapInt_eq hlo hhi)
        refine wp_mono (fun _ w₂ hnoted => .inr ⟨userName, v, nickName, createdAt, lastLogin, hlogs, hnoted, rfl⟩)
          (fun _ _ hn n u h => ?_) (updateLastLogin_noted h₁ v.userId)
        obtain rfl := honly h
        exact hn
      · cases he
    · cases he
    · obtain ⟨password', hpass', -⟩ := h.password
      rw [hpass'] at he
      cases he
  · exact hn (h.finds.answers.mono (by decide))

/-- A password login is sound. -/
theorem loginUser_sound (w : World) (request : Json) : Sound env w request (loginUser env request) := by
  refine wp_mono (fun j w' h hs u hu => ?_) (fun _ _ _ => trivial) (loginUser_ends w request)
  rcases h with ⟨hfails, -⟩ | ⟨userName, row, nickName, createdAt, lastLogin, hlogs, -, rfl⟩
  · exact absurd hs (by rw [hfails]; decide)
  · exact .inr ⟨row, hlogs.finds.mem, Json.int.inj hu, hlogs.password⟩

end LoginUser

/-! ### `registerCheckAndLogin` -/

/-- The request gets to the second lookup, of `userName`, in a world as `w₁`: the first
has found an account, or one was created, with the number given. -/
inductive Arrives (env : Env) (w : World) (request : Json) (userName : String) : Option ℤ → World → Prop
  | known {u : UserRow} (hname : request.value "userName" = .str userName) (hpass : request.contains "password")
      (hfinds : Finds env w userName u) (hid : u.userId ≠ -1) :
      Arrives env w request userName none (w.looked env userName)
  | created {password : String} (hname : request.value "userName" = .str userName)
      (hpass : request.value "password" = .str password) (he : Enlists env w userName password)
      (hread : env.Answers (w.looked env userName) 4) :
      Arrives env w request userName (some w.seqs.users)
        ((w.looked env userName).enrolled env userName (PasswordUtil.hashPassword env password) he.creates.valid)

/-- The first half of `registerCheckAndLogin`: an error response, or the name to
log in under and the account created, −1 if none was. -/
def account (env : Env) (request : Json) : DbM (Json ⊕ String × ℤ) := do
  if ¬ (request.contains "userName" ∧ request.contains "password") then
    return .inl (errorResponse "회원가입 여부 확인 및 로그인 요청에 필수 필드가 누락되었습니다.")
  else
    let userName ← orThrow (request.value "userName").getString
    let userInfo ← findByUsername env userName
    if (userInfo.value "userId").eqInt (-1) then
      let password ← orThrow (request.value "password").getString
      let userId ← create env userName (PasswordUtil.hashPassword env password)
      if userId < 0 then return .inl (errorResponse "사용재 생성에 실패하였습니다.")
      else return .inr (userName, userId)
    else return .inr (userName, -1)

section RegisterCheckAndLogin

variable {env : Env} {w w₁ w₁' w' : World} {request : Json} {userName userName' : String} {created created' : Option ℤ}

theorem registerCheckAndLogin_eq (request : Json) :
    registerCheckAndLogin env request = (do
      let r ← account env request
      match r with
      | .inl response => return response
      | .inr (userName, userId) => loginRegistered env userName userId) := by
  unfold registerCheckAndLogin account
  split_ifs with hmiss
  · simp only [bind_assoc]
    refine bind_congr fun userName => bind_congr fun userInfo => ?_
    split_ifs with hid
    · simp only [bind_assoc]
      refine bind_congr fun password => bind_congr fun userId => ?_
      split_ifs <;> rfl
    · rfl
  · rfl

/-- A request arrives in one way. -/
theorem Arrives.unique (h : Arrives env w request userName created w₁)
    (h' : Arrives env w request userName' created' w₁') : userName = userName' ∧ created = created' ∧ w₁ = w₁' := by
  cases h with
  | known hname hpass hfinds hid =>
    cases h' with
    | known hname' =>
      obtain rfl := Json.str.inj (hname.symm.trans hname')
      exact ⟨rfl, rfl, rfl⟩
    | created hname' hpass' he =>
      obtain rfl := Json.str.inj (hname.symm.trans hname')
      exact absurd (he.absent _ hfinds) hid
  | created hname hpass he =>
    cases h' with
    | known hname' hpass' hfinds hid =>
      obtain rfl := Json.str.inj (hname.symm.trans hname')
      exact absurd (he.absent _ hfinds) hid
    | created hname' hpass' =>
      obtain rfl := Json.str.inj (hname.symm.trans hname')
      obtain rfl := Json.str.inj (hpass.symm.trans hpass')
      exact ⟨rfl, rfl, rfl⟩

/-- The numbers of the accounts at the second lookup. -/
theorem Arrives.mem_userId (h : Arrives env w request userName created w₁) {u : ℤ} :
    u ∈ w₁.db.1.users.map (·.userId) ↔ u ∈ w.db.1.users.map (·.userId) ∨ created = some u := by
  cases h with
  | known => exact (or_iff_left fun h => by cases h).symm
  | created hname hpass he =>
    simp only [World.enrolled, enrol, Tables.insertUser, List.map_append, List.map_singleton, List.mem_append,
      List.mem_singleton, Option.some.injEq]
    exact or_congr_right eq_comm

/-- An account that was created is new. -/
theorem Arrives.fresh {u : ℤ} (h : Arrives env w request userName (some u) w₁) :
    0 ≤ u ∧ u ∉ w.db.1.users.map (·.userId) := by
  cases h with
  | created hname hpass he =>
    exact ⟨Int.natCast_nonneg _, (Rows.nodup_map_append_singleton.1 he.creates.valid.users_pkey).2⟩

/-- The other accounts were there. -/
theorem Arrives.mem_of_ne (h : Arrives env w request userName created w₁) {v : UserRow} (hv : v ∈ w₁.db.1.users)
    (hne : created ≠ some v.userId) : v ∈ w.db.1.users := by
  cases h with
  | known => exact hv
  | created hname hpass he =>
    rcases List.mem_append.1 hv with hold | hnew
    · exact hold
    · rw [List.mem_singleton.1 hnew] at hne
      exact absurd rfl hne

/-- **How the first half ends.** -/
theorem account_ends (w : World) (request : Json) :
    wp (account env request)
      (fun r w' =>
        match r with
        | .inl j => j.succeeds = false ∧ ∀ userName created w₁, ¬ Arrives env w request userName created w₁
        | .inr (userName, userId) => ∃ created w₁, Arrives env w request userName created w₁ ∧ w₁.Alike w' ∧
          userId = created.getD (-1))
      (fun _ _ => ∀ userName created w₁, ¬ Arrives env w request userName created w₁) w := by
  simp only [account, wp_ite, wp_pure, wp_bind, wp_orThrow]
  refine ⟨fun hmiss => ⟨rfl, fun n c w₁ h => hmiss ?_⟩, fun hfields => ⟨fun userName hname => ?_, fun e he n c w₁ h => ?_⟩⟩
  · cases h with
    | known hname hpass => exact ⟨Json.contains_of_value hname, hpass⟩
    | created hname hpass => exact ⟨Json.contains_of_value hname, Json.contains_of_value hpass⟩
  swap
  · cases h with
    | known hname => rw [hname] at he; cases he
    | created hname => rw [hname] at he; cases he
  have hname' : request.value "userName" = .str userName := Json.getString_ok hname
  -- a request that arrives under this name has one of these
  have hcases : ∀ {n c w₁}, Arrives env w request n c w₁ → (∃ u, Finds env w userName u ∧ u.userId ≠ -1) ∨
      ∃ password, request.value "password" = .str password ∧ Enlists env w userName password ∧
        env.Answers (w.looked env userName) 4 := by
    intro n c w₁ h
    cases h with
    | known hn hpass hfinds hid =>
      obtain rfl := Json.str.inj (hname'.symm.trans hn)
      exact .inl ⟨_, hfinds, hid⟩
    | created hn hpass he hread =>
      obtain rfl := Json.str.inj (hname'.symm.trans hn)
      exact .inr ⟨_, hpass, he, hread⟩
  refine wp_lookup (fun j w₁ hans h₁ hj => ⟨fun hid => ?_, fun hid => ?_⟩) fun e w₁ hn _ n c w₂ h => ?_
  · have habs := (eqInt_of_lookup hj).1 hid
    have hnew : ∀ {n c w₁}, Arrives env w request n c w₁ → ∃ password, request.value "password" = .str password ∧
        Enlists env w userName password ∧ env.Answers (w.looked env userName) 4 := by
      intro n c w₁ h
      rcases hcases h with ⟨u, hu, hne⟩ | hcreated
      · exact absurd (habs u hu) hne
      · exact hcreated
    refine ⟨fun password hpass => ?_, fun e he n c w₂ h => ?_⟩
    swap
    · obtain ⟨password, hpass, -⟩ := hnew h
      rw [hpass] at he
      cases he
    have hpass' : request.value "password" = .str password := Json.getString_ok hpass
    refine wp_mono (fun userId w₂ h₂ => ⟨fun hneg => ⟨rfl, fun n c w₃ h => ?_⟩, fun hpos => ?_⟩) (fun e w₂ h₂ n c w₃ h => ?_)
      (create_alike h₁)
    · obtain ⟨password', hpw, he, -⟩ := hnew h
      obtain rfl := Json.str.inj (hpass'.symm.trans hpw)
      rcases h₂ with ⟨-, -, rfl, -⟩ | ⟨hn, -⟩
      · exact absurd hneg (by simp)
      · exact hn he.creates
    · rcases h₂ with ⟨hcr, hread, rfl, halike⟩ | ⟨-, rfl, -⟩
      · exact ⟨_, _, .created hname' hpass' ⟨hans, habs, hcr⟩ hread, halike, rfl⟩
      · exact absurd (by decide) hpos
    · obtain ⟨password', hpw, he, hread⟩ := hnew h
      obtain rfl := Json.str.inj (hpass'.symm.trans hpw)
      rcases h₂ with ⟨-, hn, -⟩ | ⟨hn, -⟩
      · exact hn hread
      · exact hn he.creates
  · obtain ⟨u, -, -, -, hfinds, -⟩ := hj.resolve_right fun h => hid ((eqInt_of_lookup hj).2 fun u hu => absurd hu (h.1 u))
    have hne : u.userId ≠ -1 := fun hneg => hid ((eqInt_of_lookup hj).2 fun v hv =>
      Option.some.inj (hv.first.symm.trans hfinds.first) ▸ hneg)
    exact ⟨none, _, .known hname' (not_not.1 hfields).2 hfinds hne, h₁, rfl⟩
  · rcases hcases h with ⟨u, hu, -⟩ | ⟨_, -, he, -⟩
    · exact hn (hu.answers.mono (by decide))
    · exact hn he.begins

/-- **How `registerCheckAndLogin` ends**: with an error before the second lookup, or with
what that finds. -/
theorem registerCheckAndLogin_ends (w : World) (request : Json) :
    wp (registerCheckAndLogin env request)
      (fun j w' =>
        (j.succeeds = false ∧ ∀ userName created w₁, ¬ Arrives env w request userName created w₁) ∨
        ∃ userName created w₁, Arrives env w request userName created w₁ ∧ env.Answers w₁ 1 ∧
          Noted env (w₁.looked env userName) (created.getD (-1)) w' ∧
          ((∃ v nickName createdAt lastLogin, Finds env w₁ userName v ∧
              j = loginResponse (userJson env v nickName createdAt lastLogin)) ∨
            ((∀ v, ¬ Finds env w₁ userName v) ∧ j = loginResponse noUser)))
      (fun _ _ => ∀ userName created w₁, Arrives env w request userName created w₁ →
        ¬ (env.Answers w₁ 1 ∧ env.Answers (w₁.looked env userName) 1)) w := by
  rw [registerCheckAndLogin_eq, wp_bind]
  refine wp_mono (fun r w₁' h => ?_) (fun _ _ h n c w₁ ha => absurd ha (h n c w₁)) (account_ends w request)
  rcases r with j | ⟨userName, userId⟩
  · exact .inl h
  obtain ⟨created, w₁, ha, halike, rfl⟩ := h
  have honly : ∀ {n c w₂}, Arrives env w request n c w₂ → n = userName ∧ w₂ = w₁ := fun h =>
    ⟨(h.unique ha).1, (h.unique ha).2.2⟩
  simp only [loginRegistered, wp_bind, wp_pure]
  refine wp_lookup (fun j w₂ hans h₂ hj => ?_) fun e w₂ hn _ n c w₃ h hboth => ?_
  · refine wp_mono (fun _ w₃ hnoted => .inr ⟨userName, created, w₁, ha, halike.answers.1 hans, hnoted, ?_⟩)
      (fun _ _ hn n c w₃ h hboth => ?_) (updateLastLogin_noted (halike.looked.trans h₂) _)
    · rcases hj with ⟨v, n, c, l, hfinds, rfl⟩ | ⟨hnone, rfl⟩
      · exact .inl ⟨v, n, c, l, halike.finds.1 hfinds, rfl⟩
      · exact .inr ⟨fun v hv => hnone v (halike.finds.2 hv), rfl⟩
    · obtain ⟨rfl, rfl⟩ := honly h
      exact hn hboth.2
  · obtain ⟨rfl, rfl⟩ := honly h
    exact hn (halike.answers.2 hboth.1)

/-- The request is answered with an account that it neither created nor has the
password of: the row that the second lookup finds under the name, or −1 for nobody. -/
def Unvouched (env : Env) (w : World) (request : Json) : Prop :=
  ∃ userName created w₁, Arrives env w request userName created w₁ ∧ env.Answers w₁ 1 ∧
    env.Answers (w₁.looked env userName) 1 ∧
    ((∃ v, Finds env w₁ userName v ∧ created ≠ some v.userId ∧ ¬ Matches env request v) ∨
      ((∀ v, ¬ Finds env w₁ userName v) ∧ ∀ row ∈ w.db.1.users, row.userId = -1 → ¬ Matches env request row))

/-- Who is vouched for in a run that gets to the second lookup. -/
theorem Arrives.vouched_iff (h : Arrives env w request userName created w₁) {userId u : ℤ}
    (hnoted : Noted env (w₁.looked env userName) userId w') :
    Vouched env w request u w' ↔ created = some u ∨ ∃ row ∈ w.db.1.users, row.userId = u ∧ Matches env request row := by
  refine or_congr_left ?_
  rw [hnoted.userIds, show (w₁.looked env userName).db = w₁.db from rfl, h.mem_userId]
  constructor
  · exact fun hu => hu.2.resolve_left hu.1
  · rintro rfl
    exact ⟨h.fresh.2, .inr rfl⟩

/-- The account that was found is vouched for. -/
theorem Arrives.vouched_found (h : Arrives env w request userName created w₁) {userId : ℤ} {v : UserRow}
    (hnoted : Noted env (w₁.looked env userName) userId w') (hv : Finds env w₁ userName v) :
    Vouched env w request v.userId w' ↔ created = some v.userId ∨ Matches env request v := by
  rw [h.vouched_iff hnoted]
  by_cases hnew : created = some v.userId
  · exact iff_of_true (.inl hnew) (.inl hnew)
  have hmem := h.mem_of_ne hv.mem hnew
  refine or_congr_right ⟨?_, fun hm => ⟨v, hmem, rfl, hm⟩⟩
  rintro ⟨row, hrow, hid, hm⟩
  rwa [← Rows.eq_of_key_eq w.db.2.users_pkey hrow hmem hid]

/-- **A login without password is sound just when the account that the second
lookup finds is vouched for.** -/
theorem registerCheckAndLogin_sound_iff (w : World) (request : Json) :
    Sound env w request (registerCheckAndLogin env request) ↔ ¬ Unvouched env w request := by
  have hends := @registerCheckAndLogin_ends env w request
  constructor
  · rintro h ⟨userName, created, w₁, ha, hans, hans₂, hstranger⟩
    refine wp_exclude h hends (fun j w' hsound hcase => ?_) fun _ _ _ hno => hno _ _ _ ha ⟨hans, hans₂⟩
    rcases hcase with ⟨-, hno⟩ | ⟨n, c, w₂, ha', -, hnoted, hj⟩
    · exact hno _ _ _ ha
    obtain ⟨rfl, rfl, rfl⟩ := ha.unique ha'
    rcases hstranger with ⟨v, hv, hne, hno⟩ | ⟨hnone, hno⟩
    · obtain ⟨v', _, _, _, hv', rfl⟩ := hj.resolve_right fun hn => hn.1 v hv
      obtain rfl := Option.some.inj (hv.first.symm.trans hv'.first)
      rcases (ha.vouched_found hnoted hv).1 (hsound rfl v.userId rfl) with hnew | hm
      · exact hne hnew
      · exact hno hm
    · obtain ⟨-, rfl⟩ := hj.resolve_left fun ⟨v, _, _, _, hv, _⟩ => hnone v hv
      rcases (ha.vouched_iff hnoted).1 (hsound rfl (-1) rfl) with rfl | ⟨row, hrow, hid, hm⟩
      · exact absurd ha.fresh.1 (by decide)
      · exact hno row hrow hid hm
  · intro hn
    refine wp_mono (fun j w' hcase hs u hu => ?_) (fun _ _ _ => trivial) hends
    rcases hcase with ⟨hfails, -⟩ | ⟨userName, created, w₁, ha, hans, hnoted, hj⟩
    · exact absurd hs (by rw [hfails]; decide)
    rcases hj with ⟨v, _, _, _, hv, rfl⟩ | ⟨hnone, rfl⟩
    · obtain rfl : v.userId = u := Json.int.inj hu
      rw [ha.vouched_found hnoted hv]
      by_contra hno
      rw [not_or] at hno
      exact hn ⟨userName, created, w₁, ha, hans, hnoted.answers, .inl ⟨v, hv, hno⟩⟩
    · obtain rfl : -1 = u := Json.int.inj hu
      rw [ha.vouched_iff hnoted]
      refine .inr ?_
      by_contra hno
      exact hn ⟨userName, created, w₁, ha, hans, hnoted.answers, .inr ⟨hnone, fun row hrow hid hm => hno ⟨row, hrow, hid, hm⟩⟩⟩

end RegisterCheckAndLogin

/-! ### The answers -/

section Spec

variable {env : Env}

/-- What a login that succeeds is answered with: the row of an account, or, by
`registerCheckAndLogin` alone, a lookup that found none. -/
inductive LoginAnswer (env : Env) : Json → Prop
  | account (u : UserRow) (nickName : String) (createdAt lastLogin : ℕ)
      (h : Json.wrapInt u.userId = u.userId) :
      LoginAnswer env (loginResponse (userJson env u nickName createdAt lastLogin))
  | missing : LoginAnswer env (loginResponse noUser)

theorem loginAnswer_account {w : World} {u : UserRow} (hu : u ∈ w.db.1.users) (nickName : String)
    (createdAt lastLogin : ℕ) :
    LoginAnswer env (loginResponse (userJson env u nickName createdAt lastLogin)) := by
  obtain ⟨hlo, hhi⟩ := w.db.2.users_int4 u hu
  exact .account u nickName createdAt lastLogin (Json.wrapInt_eq hlo hhi)

theorem loginUser_answer (w : World) (request : Json) :
    wp (loginUser env request) (fun j _ => j.succeeds → LoginAnswer env j) (fun _ _ => True) w := by
  refine wp_mono (fun j w' h hs => ?_) (fun _ _ _ => trivial) (loginUser_ends w request)
  rcases h with ⟨hfails, -⟩ | ⟨userName, u, nickName, createdAt, lastLogin, hlogs, -, rfl⟩
  · exact absurd hs (by rw [hfails]; decide)
  · exact loginAnswer_account hlogs.finds.mem nickName createdAt lastLogin

theorem registerCheckAndLogin_answer (w : World) (request : Json) :
    wp (registerCheckAndLogin env request) (fun j _ => j.succeeds → LoginAnswer env j)
      (fun _ _ => True) w := by
  refine wp_mono (fun j w' h hs => ?_) (fun _ _ _ => trivial) (registerCheckAndLogin_ends w request)
  rcases h with ⟨hfails, -⟩ | ⟨userName, created, w₁, -, -, -, ⟨v, n, c, l, hv, rfl⟩ | ⟨-, rfl⟩⟩
  · exact absurd hs (by rw [hfails]; decide)
  · exact loginAnswer_account hv.mem n c l
  · exact .missing

end Spec

end AuthService

/-- The actions that log in. -/
def isLogin (action : String) : Bool := action = "login" ∨ action = "SSAFYlogin"

theorem Controller.auth_answer {env : Env} (w : World) {request member : Json} {action : String}
    (haction : request.index "action" = .ok (.str action, member)) (hlogin : isLogin action) :
    wp (Controller.auth env request) (fun j _ => j.succeeds → AuthService.LoginAnswer env j)
      (fun _ _ => True) w := by
  simp only [Controller.auth, haction, orThrow_ok, Json.getString, pure_bind]
  simp only [isLogin, Bool.decide_or, Bool.or_eq_true, decide_eq_true_eq] at hlogin
  rcases hlogin with rfl | rfl
  · exact AuthService.loginUser_answer w request
  · exact AuthService.registerCheckAndLogin_answer w request

end Matching
end SocketCommunication
