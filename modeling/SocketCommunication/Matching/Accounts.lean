/-
# Accounts and their names

`users.user_name` is `UNIQUE` up to case alone.  That no two names differ in case
only rests on `findByUsername` being called before `create`, and a lookup that fails
is answered like one that finds nothing.

* `outcome_of_run`: what a request to `auth` makes of the tables, and exactly when it
  creates an account.
* `oneAccount_throughout_iff`: the names stay distinct under `LOWER` just when no
  request creates an account that its lookup has overlooked.
-/

import SocketCommunication.Lib.Run
import SocketCommunication.Matching.Lookups

namespace SocketCommunication
namespace Matching

open Effect

/-- A request to `auth`. -/
inductive AccountRequest where
  | register (request : Json)
  | login (request : Json)
  | SSAFYlogin (request : Json)
  | updateNickName (request : Json)

namespace AccountRequest

open UserRepository AuthService

def run (env : Env) : AccountRequest → DbM Json
  | register request => registerUser env request
  | login request => loginUser env request
  | SSAFYlogin request => registerCheckAndLogin env request
  | updateNickName request => AuthService.updateNickName env request

/-- The world after a request, whether it was answered or threw. -/
def step (env : Env) (w : World) (r : AccountRequest) : World := after (r.run env) w

/-- The name and the password in a request. -/
def credentials (request : Json) : Option (String × String) :=
  match request.value "userName", request.value "password" with
  | .str userName, .str password => some (userName, password)
  | _, _ => none

theorem credentials_eq_some {request : Json} {userName password : String} :
    credentials request = some (userName, password) ↔
      request.value "userName" = .str userName ∧ request.value "password" = .str password := by
  unfold credentials
  split
  next hname hpass =>
    rw [hname, hpass]
    simp only [Option.some.injEq, Prod.mk.injEq, Json.str.injEq]
  next hno =>
    refine iff_of_false (fun h => nomatch h) ?_
    rintro ⟨hname, hpass⟩
    exact hno _ _ hname hpass

/-- The name and the password of the account that a request creates if there is none
of this name: those of a request that passes the checks. -/
def candidate : AccountRequest → Option (String × String)
  | register request =>
    (credentials request).filter fun c => isValidUserName c.1 ∧ 6 ≤ c.2.utf8ByteSize
  | SSAFYlogin request => credentials request
  | login _ => none
  | updateNickName _ => none

theorem candidate_register {request : Json} {userName password : String} :
    (register request).candidate = some (userName, password) ↔
      (request.value "userName" = .str userName ∧ request.value "password" = .str password) ∧
        isValidUserName userName ∧ 6 ≤ password.utf8ByteSize := by
  rw [candidate, Option.filter_eq_some_iff, credentials_eq_some, decide_eq_true_eq]

theorem candidate_SSAFYlogin {request : Json} {userName password : String} :
    (SSAFYlogin request).candidate = some (userName, password) ↔
      request.value "userName" = .str userName ∧ request.value "password" = .str password :=
  credentials_eq_some

/-- The tables before a login is noted: with the new account, if one was created. -/
inductive Enrolment (env : Env) (w : World) (r : AccountRequest) : Tables → Prop
  | created {userName password : String} (hc : r.candidate = some (userName, password))
      (he : Enlists env w userName password) :
      Enrolment env w r (enrol env (w.looked env userName) userName (PasswordUtil.hashPassword env password))
  | same (hn : ∀ userName password, r.candidate = some (userName, password) → ¬ Enlists env w userName password) :
      Enrolment env w r w.db.1

/-- What a request makes of the tables. -/
inductive Outcome (env : Env) (w : World) (r : AccountRequest) : Tables → Prop
  | enrols {t : Tables} (h : Enrolment env w r t) : Outcome env w r t
  | logs {t : Tables} (h : Enrolment env w r t) (userId : ℤ) (now : ℕ) : Outcome env w r (t.setLastLogin userId now)
  | renames (hn : r.candidate = none) (userId : ℤ) (nickName : String) :
      Outcome env w r (w.db.1.setNickName userId nickName)

section Enrolment

variable {env : Env} {w w₁ : World} {r : AccountRequest} {userName password : String}

theorem enrolment_of_none (hdb : w₁.db = w.db) (hn : r.candidate = none) : Enrolment env w r w₁.db.1 := by
  rw [hdb]
  refine .same fun _ _ hc => ?_
  rw [hn] at hc
  cases hc

/-- A request whose lookup finds somebody, or does not begin, creates no account. -/
theorem enrolment_same (hname : ∀ n p, r.candidate = some (n, p) → n = userName) (hdb : w₁.db = w.db)
    (hn : ¬ env.Answers w 1 ∨ ¬ ∀ u, Finds env w userName u → u.userId = -1) : Enrolment env w r w₁.db.1 := by
  rw [hdb]
  refine .same fun n p hc he => ?_
  obtain rfl := hname n p hc
  exact hn.elim (fun hn => hn he.begins) fun hn => hn he.absent

theorem enrolment_create (hc : r.candidate = some (userName, password)) (hans : env.Answers w 1)
    (habs : ∀ u, Finds env w userName u → u.userId = -1) (h : (w.looked env userName).Alike w₁) :
    wp (create env userName (PasswordUtil.hashPassword env password)) (fun _ w₂ => Enrolment env w r w₂.db.1)
      (fun _ w₂ => Enrolment env w r w₂.db.1) w₁ := by
  have hnot : ¬ Creates env (w.looked env userName) userName (PasswordUtil.hashPassword env password) →
      Enrolment env w r w.db.1 := by
    refine fun hn => .same fun n p hc' he => hn ?_
    cases hc.symm.trans hc'
    exact he.creates
  refine wp_mono (fun userId w₂ h₂ => ?_) (fun e w₂ h₂ => ?_) (create_alike h)
  · rcases h₂ with ⟨hcr, -, -, halike⟩ | ⟨hn, -, hdb⟩
    · rw [halike.db]
      exact .created hc ⟨hans, habs, hcr⟩
    · rw [hdb]
      exact hnot hn
  · rcases h₂ with ⟨hcr, -, hdb⟩ | ⟨hn, hdb⟩
    · rw [hdb]
      exact .created hc ⟨hans, habs, hcr⟩
    · rw [hdb]
      exact hnot hn

end Enrolment

section Outcome

variable {env : Env} {w : World} {request : Json}

theorem registerUser_outcome (w : World) (request : Json) : wp (registerUser env request)
    (fun _ w' => Outcome env w (register request) w'.db.1)
    (fun _ w' => Outcome env w (register request) w'.db.1) w := by
  -- a request that fails a check creates nothing
  have hfails : (¬ ∃ userName password, (request.value "userName" = .str userName ∧
      request.value "password" = .str password) ∧ isValidUserName userName ∧ 6 ≤ password.utf8ByteSize) →
      Outcome env w (register request) w.db.1 := fun hn =>
    .enrols (enrolment_of_none rfl (Option.eq_none_iff_forall_ne_some.2 fun c hc =>
      hn ⟨c.1, c.2, candidate_register.1 hc⟩))
  simp only [registerUser, wp_ite, wp_pure, wp_bind, wp_orThrow]
  refine ⟨fun hmiss => hfails ?_, fun _ => ⟨fun userName hname => ⟨fun hbad => hfails ?_,
    fun hgood => ⟨fun password hpass => ⟨fun hshort => hfails ?_, fun hlong => ?_⟩, fun e he => hfails ?_⟩⟩,
    fun e he => hfails ?_⟩⟩
  · rintro ⟨n, p, ⟨hname, hpass⟩, -⟩
    exact hmiss ⟨Json.contains_of_value hname, Json.contains_of_value hpass⟩
  · rintro ⟨n, p, ⟨hname', -⟩, hvalid, -⟩
    rw [hname'] at hname
    cases hname
    exact hbad hvalid
  · rintro ⟨n, p, ⟨-, hpass'⟩, -, hsize⟩
    rw [hpass'] at hpass
    cases hpass
    omega
  · have hc : (register request).candidate = some (userName, password) :=
      candidate_register.2 ⟨⟨Json.getString_ok hname, Json.getString_ok hpass⟩, not_not.1 hgood, not_lt.1 hlong⟩
    have hname : ∀ n p, (register request).candidate = some (n, p) → n = userName := fun n p h => by
      cases hc.symm.trans h
      rfl
    refine wp_lookup (fun j w₁ hans h₁ hj => ⟨fun hid => .enrols ?_, fun hid => ?_⟩) fun e w₁ hn hdb =>
      .enrols (enrolment_same hname hdb (.inl hn))
    · exact enrolment_same hname h₁.db (.inr (mt (eqInt_of_lookup hj).2 hid))
    · exact wp_mono (fun _ _ h => ⟨fun _ => .enrols h, fun _ => .enrols h⟩) (fun _ _ h => .enrols h)
        (enrolment_create hc hans ((eqInt_of_lookup hj).1 (not_not.1 hid)) h₁)
  · rintro ⟨n, p, ⟨-, hpass'⟩, -⟩
    rw [hpass'] at he
    cases he
  · rintro ⟨n, p, ⟨hname', -⟩, -⟩
    rw [hname'] at he
    cases he

/-- The second half of `registerCheckAndLogin` notes a login. -/
theorem loginRegistered_outcome {r : AccountRequest} {w₁ : World} (h : Enrolment env w r w₁.db.1) (userName : String)
    (userId : ℤ) :
    wp (loginRegistered env userName userId) (fun _ w' => Outcome env w r w'.db.1)
      (fun _ w' => Outcome env w r w'.db.1) w₁ := by
  simp only [loginRegistered, wp_bind, wp_pure]
  refine wp_lookup (fun j w₂ _ h₂ _ => ?_) fun e w₂ _ hdb => by rw [hdb]; exact .enrols h
  have hdb : w₂.db = w₁.db := h₂.db
  refine wp_mono (fun _ w₃ h' => ?_) (fun _ w₃ h' => ?_) (updateLastLogin_spec w₂ userId)
  · rcases h'.2 with hp | hu
    · rw [hp.1, hdb]
      exact .logs h _ _
    · rw [hu.1, hdb]
      exact .enrols h
  · rw [h'.2.1, hdb]
    exact .enrols h

theorem registerCheckAndLogin_outcome (w : World) (request : Json) : wp (registerCheckAndLogin env request)
    (fun _ w' => Outcome env w (SSAFYlogin request) w'.db.1)
    (fun _ w' => Outcome env w (SSAFYlogin request) w'.db.1) w := by
  have hfails : (¬ ∃ userName password, request.value "userName" = .str userName ∧
      request.value "password" = .str password) → ∀ {w₁ : World}, w₁.db = w.db →
      Enrolment env w (SSAFYlogin request) w₁.db.1 := fun hn _ hdb =>
    enrolment_of_none hdb (Option.eq_none_iff_forall_ne_some.2 fun c hc => hn ⟨c.1, c.2, candidate_SSAFYlogin.1 hc⟩)
  simp only [registerCheckAndLogin, wp_ite, wp_pure, wp_bind, wp_orThrow]
  refine ⟨fun hmiss => .enrols (hfails ?_ rfl), fun _ => ⟨fun userName hname => ?_, fun e he => .enrols (hfails ?_ rfl)⟩⟩
  · rintro ⟨n, p, hname, hpass⟩
    exact hmiss ⟨Json.contains_of_value hname, Json.contains_of_value hpass⟩
  · have hname' : ∀ n p, (SSAFYlogin request).candidate = some (n, p) → n = userName := fun n p h => by
      rw [(candidate_SSAFYlogin.1 h).1] at hname
      cases hname
      rfl
    refine wp_lookup (fun j w₁ hans h₁ hj => ⟨fun hid => ⟨fun password hpass => ?_, fun e he => ?_⟩, fun hid => ?_⟩)
      fun e w₁ hn hdb => .enrols (enrolment_same hname' hdb (.inl hn))
    · have hc : (SSAFYlogin request).candidate = some (userName, password) :=
        candidate_SSAFYlogin.2 ⟨Json.getString_ok hname, Json.getString_ok hpass⟩
      exact wp_mono (fun userId _ h => ⟨fun _ => .enrols h, fun _ => loginRegistered_outcome h userName userId⟩)
        (fun _ _ h => .enrols h) (enrolment_create hc hans ((eqInt_of_lookup hj).1 hid) h₁)
    · refine .enrols (hfails ?_ h₁.db)
      rintro ⟨n, p, -, hpass⟩
      rw [hpass] at he
      cases he
    · have hsame := enrolment_same (w := w) hname' h₁.db (.inr (mt (eqInt_of_lookup hj).2 hid))
      exact loginRegistered_outcome hsame userName (-1)
  · rintro ⟨n, p, hname, -⟩
    rw [hname] at he
    cases he

theorem loginUser_outcome (w : World) (request : Json) : wp (loginUser env request)
    (fun _ w' => Outcome env w (login request) w'.db.1) (fun _ w' => Outcome env w (login request) w'.db.1) w := by
  have hsame : ∀ {w₁ : World}, w₁.db = w.db → Outcome env w (login request) w₁.db.1 := fun hdb =>
    .enrols (enrolment_of_none hdb rfl)
  simp only [loginUser, wp_ite, wp_pure, wp_bind, wp_orThrow]
  refine ⟨fun _ => hsame rfl, fun _ => ⟨fun userName _ => ?_, fun _ _ => hsame rfl⟩⟩
  refine wp_lookup (fun j w₁ _ h₁ _ => ⟨fun _ => hsame h₁.db, fun _ => ⟨fun _ _ => ⟨fun _ _ => ⟨fun _ => hsame h₁.db,
    fun _ => ⟨fun userId _ => ?_, fun _ _ => hsame h₁.db⟩⟩, fun _ _ => hsame h₁.db⟩, fun _ _ => hsame h₁.db⟩⟩)
    fun _ _ _ hdb => hsame hdb
  have hdb : w₁.db = w.db := h₁.db
  refine wp_mono (fun _ w₂ h => ?_) (fun _ w₂ h => hsame (h.2.1.trans hdb)) (updateLastLogin_spec w₁ userId)
  rcases h.2 with hp | hu
  · rw [hp.1, hdb]
    exact .logs (enrolment_of_none rfl rfl) _ _
  · exact hsame (hu.1.trans hdb)

theorem updateNickName_outcome (w : World) (request : Json) : wp (AuthService.updateNickName env request)
    (fun _ w' => Outcome env w (.updateNickName request) w'.db.1)
    (fun _ w' => Outcome env w (.updateNickName request) w'.db.1) w := by
  have hsame : ∀ {w₁ : World}, w₁.db = w.db → Outcome env w (.updateNickName request) w₁.db.1 := fun hdb =>
    .enrols (enrolment_of_none hdb rfl)
  simp only [AuthService.updateNickName, wp_ite, wp_pure, wp_bind, wp_orThrow]
  refine ⟨fun _ => hsame rfl, fun _ => ⟨fun nickName _ => ⟨fun _ => hsame rfl, fun _ => ⟨fun userId _ => ?_,
    fun _ _ => hsame rfl⟩⟩, fun _ _ => hsame rfl⟩⟩
  refine wp_mono (fun b w₁ h => ?_) (fun _ w₁ h => hsame h.2.1) (updateUserNickName_spec w userId nickName)
  have hout : Outcome env w (.updateNickName request) w₁.db.1 := by
    rcases h with ⟨-, hp, -⟩ | ⟨-, hu, -⟩
    · rw [hp.1]
      exact .renames rfl _ _
    · exact hsame hu.1
  exact ⟨fun _ => hout, fun _ => hout⟩

/-- **What a request to `auth` makes of the tables.** -/
theorem outcome_of_run (env : Env) (w : World) (r : AccountRequest) :
    wp (r.run env) (fun _ w' => Outcome env w r w'.db.1) (fun _ w' => Outcome env w r w'.db.1) w := by
  cases r with
  | register request => exact registerUser_outcome w request
  | login request => exact loginUser_outcome w request
  | SSAFYlogin request => exact registerCheckAndLogin_outcome w request
  | updateNickName request => exact updateNickName_outcome w request

end Outcome

/-! ### The names -/

/-- No two names are equal under `LOWER`. -/
def OneAccount (env : Env) (t : Tables) : Prop := (t.users.map fun u => env.lower u.userName).Nodup

instance (env : Env) (t : Tables) : Decidable (OneAccount env t) := inferInstanceAs (Decidable (List.Nodup _))

/-- What is stored of the name `userName`. -/
def storedName (userName : String) : String := Tables.varchar 50 (sqlText userName)

/-- An account with a name that is stored as, up to case, `userName` would be. -/
def Taken (env : Env) (t : Tables) (userName : String) : Prop :=
  ∃ u ∈ t.users, env.lower u.userName = env.lower (storedName userName)

instance (env : Env) (t : Tables) (userName : String) : Decidable (Taken env t userName) :=
  inferInstanceAs (Decidable (∃ u ∈ t.users, _))

/-- A row that the lookup can tell of: no column that it converts is `NULL`, and the
number is not the one that stands for no account. -/
def Readable (u : UserRow) : Prop :=
  u.nickName.isSome ∧ u.createdAt.isSome ∧ u.lastLogin.isSome ∧ u.userId ≠ -1

instance (u : UserRow) : Decidable (Readable u) := inferInstanceAs (Decidable (_ ∧ _ ∧ _ ∧ _))

/-- The lookup may miss an account: one of its calls throws, the column cuts the name,
or it comes upon a row that it cannot tell of. -/
def Blind (env : Env) (w : World) (userName : String) : Prop :=
  ¬ env.Answers w 9 ∨ storedName userName ≠ sqlText userName ∨ ∃ u ∈ accounts env w.db.1 userName, ¬ Readable u

instance (env : Env) (w : World) (userName : String) : Decidable (Blind env w userName) :=
  inferInstanceAs (Decidable (_ ∨ _ ∨ ∃ u ∈ accounts env w.db.1 userName, _))

/-- A lookup that may miss an account does, and the request creates another. -/
def Overlooks (env : Env) (w : World) (r : AccountRequest) : Prop :=
  ∃ userName password, r.candidate = some (userName, password) ∧ Blind env w userName ∧
    Taken env w.db.1 userName ∧ Enlists env w userName password

section Names

variable {env : Env} {w : World} {t : Tables}

theorem names_setLastLogin (t : Tables) (userId : ℤ) (now : ℕ) :
    (t.setLastLogin userId now).users.map (fun u => env.lower u.userName) =
      t.users.map fun u => env.lower u.userName :=
  Rows.map_update fun _ _ => rfl

theorem names_setNickName (t : Tables) (userId : ℤ) (nickName : String) :
    (t.setNickName userId nickName).users.map (fun u => env.lower u.userName) =
      t.users.map fun u => env.lower u.userName :=
  Rows.map_update fun _ _ => rfl

/-- A new account keeps the names distinct just when its name was not taken. -/
theorem oneAccount_enrol_iff (h : OneAccount env w.db.1) {userName hashedPassword : String} :
    OneAccount env (enrol env w userName hashedPassword) ↔ ¬ Taken env w.db.1 userName := by
  refine Rows.nodup_map_append_singleton.trans ?_
  simp only [List.mem_map, not_exists, not_and, Taken]
  exact and_iff_right h

/-- A lookup that is not blind finds an account under a name that is taken. -/
theorem finds_of_not_blind {userName : String} (hb : ¬ Blind env w userName) (ht : Taken env w.db.1 userName) :
    ∃ v, Finds env w userName v ∧ v.userId ≠ -1 := by
  simp only [Blind, not_or, not_not, not_exists, not_and] at hb
  obtain ⟨hans, hname, hread⟩ := hb
  obtain ⟨u, hu, hlow⟩ := ht
  rw [hname] at hlow
  have hmem : u ∈ accounts env w.db.1 userName := List.mem_filter.2 ⟨hu, by simpa using hlow⟩
  cases hrows : env.order (w.tick + 2) (accounts env w.db.1 userName) with
  | nil =>
    rw [Env.order_eq_nil] at hrows
    rw [hrows] at hmem
    cases hmem
  | cons v vs =>
    have hv : v ∈ accounts env w.db.1 userName := by
      rw [← @Env.mem_order env _ (w.tick + 2), hrows]
      exact List.mem_cons_self
    obtain ⟨hnick, hcreated, hlast, hid⟩ := hread v hv
    exact ⟨v, ⟨hans, by rw [hrows, List.head?_cons], hnick, hcreated, hlast⟩, hid⟩

/-- A request that enlists a name that is taken has overlooked the account. -/
theorem blind_of_enlists {userName password : String} (he : Enlists env w userName password)
    (ht : Taken env w.db.1 userName) : Blind env w userName := by
  by_contra hb
  obtain ⟨v, hv, hid⟩ := finds_of_not_blind hb ht
  exact hid (he.absent v hv)

theorem oneAccount_enrolment_iff {r : AccountRequest} (h : OneAccount env w.db.1) (hr : Enrolment env w r t) :
    OneAccount env t ↔ ¬ Overlooks env w r := by
  cases hr with
  | @created userName password hc he =>
    have henrol := @oneAccount_enrol_iff env (w.looked env userName) h userName (PasswordUtil.hashPassword env password)
    rw [henrol]
    refine not_congr ⟨fun ht => ⟨_, _, hc, blind_of_enlists he ht, ht, he⟩, ?_⟩
    rintro ⟨n, p, hc', -, ht, -⟩
    cases hc.symm.trans hc'
    exact ht
  | same hn =>
    refine iff_of_true h ?_
    rintro ⟨n, p, hc, -, -, he⟩
    exact hn n p hc he

/-- One request keeps the names distinct just when it overlooks no account. -/
theorem oneAccount_step_iff {r : AccountRequest} (h : OneAccount env w.db.1) :
    OneAccount env (step env w r).db.1 ↔ ¬ Overlooks env w r := by
  have hout : Outcome env w r (step env w r).db.1 :=
    wp_iff_after (P := fun w' : World => Outcome env w r w'.db.1).1 (outcome_of_run env w r)
  generalize (step env w r).db.1 = t at hout
  cases hout with
  | enrols hr => exact oneAccount_enrolment_iff h hr
  | logs hr userId now =>
    rw [OneAccount, names_setLastLogin]
    exact oneAccount_enrolment_iff h hr
  | renames hn userId nickName =>
    rw [OneAccount, names_setNickName]
    refine iff_of_true h ?_
    rintro ⟨n, p, hc, -⟩
    rw [hn] at hc
    cases hc

end Names

/-- **One account for each name.**  In a run of requests from tables whose names are
distinct under `LOWER` they stay distinct just when no lookup misses the account that
has the name, so that the request creates another. -/
theorem oneAccount_throughout_iff (env : Env) {w : World} (hw : OneAccount env w.db.1) (requests : List AccountRequest) :
    Run.Throughout (step env) (fun w => OneAccount env w.db.1) w requests ↔
      Run.Along (step env) (fun w r => ¬ Overlooks env w r) w requests :=
  Run.throughout_iff_along (C := fun w r => ¬ Overlooks env w r) (I := fun w => OneAccount env w.db.1)
    (fun _ h => h) (fun _ _ h => (oneAccount_step_iff h).2) (fun _ _ h hc hs => hc ((oneAccount_step_iff h).1 hs))
    hw requests

/-- The request of someone with the name of an account of `db-init.sql`, up to case. -/
def registerNamesake : AccountRequest :=
  register (.obj [("userName", .str "ZZZZ955"), ("password", .str "password")])

/-- The statement of the lookup fails. -/
theorem not_oneAccount_namesake :
    ¬ Run.Throughout (step { Env.reliable with throws := (· = 2) })
      (fun w => OneAccount { Env.reliable with throws := (· = 2) } w.db.1) .init [registerNamesake] := by
  decide +kernel

/-- Someone logs in for the first time, and then another registers under that name. -/
theorem oneAccount_login_init : Run.Throughout (step .reliable) (fun w => OneAccount .reliable w.db.1) .init
    [SSAFYlogin (.obj [("userName", .str "newcomer"), ("password", .str "password")]), registerNamesake] := by
  refine (oneAccount_throughout_iff .reliable (by decide +kernel) _).2 ⟨?_, ?_, trivial⟩
  · rintro ⟨n, p, hc, -, ht, -⟩
    cases hc
    exact absurd ht (by decide +kernel)
  · rintro ⟨n, p, hc, hb, -⟩
    cases hc
    exact absurd hb (by decide +kernel)

end AccountRequest

end Matching
end SocketCommunication
