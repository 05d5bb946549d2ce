/-
# What the methods of `UserDao` leave in the table

A method that reports success has done what it was called for, once and as a whole; one
that reports a failure has changed nothing.  So the table is what the reports make of
the one at the beginning (`replayed`), and the counters of a user are those he had and
the games that were reported (`recorded`).

* `findById_shows`, `getTopPlayers_top`: what the readers return of that table.
-/

import Mathlib.Data.List.Sort
import SocketCommunication.GameSocket.Pool
import SocketCommunication.GameSocket.Server

namespace SocketCommunication
namespace GameSocket

open Effect Matching

/-- A change that a method of `UserDao` reports. -/
inductive Change where
  | created (userId : ℤ) (username hashedPassword : String) (now : ℕ)
  | rated (userId newRating : ℤ)
  | played (userId : ℤ) (isWin : Bool)
  | loggedIn (userId : ℤ) (now : ℕ)

namespace Change

/-- What the change does to the table. -/
def apply (users : List UserRow) : Change → List UserRow
  | created userId username hashedPassword now =>
    Users.insert users userId (sqlText username) (sqlText hashedPassword) now
  | rated userId newRating => Users.setRating users userId newRating
  | played userId isWin => Users.addGame users userId isWin
  | loggedIn userId now => Users.setLastLogin users userId now

end Change

namespace Call

/-- The change that the answer of the call reports. -/
def report (env : Env) (w : World) : Call → Option Change
  | create username hashedPassword =>
    match UserDao.create env username hashedPassword w with
    | .ok userId w' => if userId = -1 then none else some (.created userId username hashedPassword w'.began)
    | .error _ _ => none
  | updateRating userId newRating =>
    match UserDao.updateRating env userId newRating w with
    | .ok true _ => some (.rated userId newRating)
    | _ => none
  | updateStats userId isWin =>
    match UserDao.updateStats env userId isWin w with
    | .ok true _ => some (.played userId isWin)
    | _ => none
  | updateLastLogin userId =>
    match UserDao.updateLastLogin env userId w with
    | .ok true w' => some (.loggedIn userId w'.began)
    | _ => none
  | register _ | login _ | findById _ | findByUsername _ | getTopPlayers _ => none

end Call

/-! ### A method -/

section Methods

variable {env : Env} {w : World} {α ρ : Type}

/-- What a statement does to the table that its transaction sees. -/
theorem exec_result (stmt : ℕ → List UserRow → ℕ × List ρ × List UserRow) :
    wp (exec env stmt)
      (fun result w' => result = (stmt w.nextUserId w.work.1).2.1 ∧ w'.work.1 = (stmt w.nextUserId w.work.1).2.2 ∧
        w'.began = w.began ∧ SameUsers w w')
      (fun _ => SameUsers w) w := by
  simp only [exec, attempt, wp_bind, wp_get, wp_set, wp_modify]
  cases env.fails w.tick with
  | some e => exact rfl
  | none =>
    dsimp only
    rw [wp_pure]
    split_ifs with hvalid
    · exact ⟨rfl, rfl, rfl, rfl⟩
    · exact rfl

/-- Some call on the database fails. -/
def Env.Failing (env : Env) : Prop := ∃ n, env.fails n ≠ none

/-- What a call throws is a failure of the database. -/
theorem attempt_calls (w : World) :
    wp (attempt env) (fun _ w' => w' = { w with tick := w.tick + 1 }) (fun _ w' => env.Failing ∧ SameUsers w w') w := by
  simp only [attempt, wp_bind, wp_get, wp_set]
  cases hfails : env.fails w.tick with
  | none => exact rfl
  | some e => exact ⟨⟨w.tick, by rw [hfails]; simp⟩, rfl⟩

theorem getConnection_calls (w : World) :
    wp (getConnection env) (fun _ => SameUsers w) (fun _ w' => env.Failing ∧ SameUsers w w') w := by
  refine wp_mono (fun _ _ h => h.2) (fun _ _ h => ⟨⟨w.tick, fun hworks => h.1.1 (.inr hworks)⟩, h.2⟩)
    (wp_and (getConnection_hands w) (sameUsers_getConnection w))

/-- `pqxx::work` begins with the committed table. -/
theorem beginWork_work (w : World) :
    wp (beginWork env) (fun _ w' => w'.work = w.users ∧ SameUsers w w') (fun _ w' => env.Failing ∧ SameUsers w w') w := by
  rw [beginWork, wp_bind, wp_get, wp_bind]
  refine wp_mono ?_ (fun _ _ h => h) (attempt_calls w)
  rintro _ _ rfl
  exact ⟨rfl, rfl⟩

/-- A commit publishes the work, and where it throws nothing unless it is in doubt. -/
theorem commit_calls (w : World) :
    wp (commit env) (fun _ w' => w'.users = w.work ∧ w'.began = w.began)
      (fun _ w' => env.Failing ∧ (SameUsers w w' ∨ ¬ env.Settled ∧ w'.users = w.work)) w := by
  rw [commit, wp_bind, wp_modify, wp_bind]
  cases hdoubt : env.inDoubt w.tick with
  | true =>
    rw [if_pos rfl]
    refine wp_mono ?_ (fun _ w' h => ⟨h.1, .inr ⟨fun hsettled => ?_, h.2⟩⟩) (attempt_calls _)
    · rintro _ _ rfl
      exact ⟨rfl, rfl⟩
    · rw [hsettled] at hdoubt
      cases hdoubt
  | false =>
    rw [if_neg Bool.false_ne_true]
    refine wp_mono ?_ (fun _ w' h => ⟨h.1, .inl h.2⟩) (attempt_calls w)
    rintro _ _ rfl
    exact ⟨rfl, rfl⟩

/-- **The rule of a method.**  Before the commit nothing of it is seen, and after it what was
read is returned, or the default where reading throws.  A commit in doubt is seen as well. -/
theorem wp_transaction {stmt : ApiM (List ρ)} {read : List ρ → ApiM α} {default : α} {Q : α → World → Prop}
    (hfails : ∀ w', env.Failing → SameUsers w w' → Q default w')
    (hstmt : ∀ w₁, w₁.work = w.users → SameUsers w w₁ →
      wp stmt
        (fun result w₂ => SameUsers w w₂ ∧
          (env.Failing → ¬ env.Settled → ∀ w₃, w₃.users = w₂.work → Q default w₃) ∧
          ∀ w₃, w₃.users = w₂.work → w₃.began = w₂.began → wp (read result) Q (fun _ => Q default) w₃)
        (fun _ => Q default) w₁) :
    wp (UserDao.transaction env default stmt read) Q (fun _ _ => False) w := by
  rw [UserDao.transaction, wp_tryCatch, wp_bind]
  refine wp_mono (fun _ w₁ h₁ => ?_) (fun _ w' h => hfails w' h.1 h.2) (getConnection_calls w)
  rw [wp_bind]
  refine wp_mono (fun _ w₂ h₂ => ?_) (fun _ w' h => hfails w' h.1 (trans_of SameUsers h₁ h.2)) (beginWork_work w₁)
  rw [wp_bind]
  refine wp_mono (fun result w₃ h₃ => ?_) (fun _ w' h => h) (hstmt w₂ (h₂.1.trans h₁) (trans_of SameUsers h₁ h₂.2))
  obtain ⟨hsame, hdoubt, hcommitted⟩ := h₃
  rw [wp_bind]
  refine wp_mono (fun _ w₄ h => hcommitted w₄ h.1 h.2) (fun _ w' h => ?_) (commit_calls w₃)
  rcases h.2 with h' | h'
  · exact hfails w' h.1 (trans_of SameUsers hsame h')
  · exact hdoubt h.1 h'.1 w' h'.2

/-- A query throws only where the database fails. -/
theorem query_calls (f : List UserRow → List ρ) (w : World) :
    wp (query env f) (fun result w' => result = f w.work.1 ∧ w'.work = w.work ∧ SameUsers w w')
      (fun _ w' => env.Failing ∧ SameUsers w w') w := by
  rw [query, wp_bind]
  refine wp_mono ?_ (fun _ _ h => h) (attempt_calls w)
  rintro _ _ rfl
  exact ⟨rfl, rfl, rfl⟩

end Methods

/-! ### What a call does -/

section Writers

variable {env : Env} {w : World}

/-- A method that updates a user: where it reports success it did, and it reports a failure
also where the user is not there. -/
theorem wp_update (hsettled : env.Settled) {stmt : ApiM (List ℤ)} {userId : ℤ} {f : ℕ → List UserRow → List UserRow}
    (hself : ∀ now users, Users.returning users userId = [] → f now users = users)
    (hstmt : ∀ w₁, wp stmt
      (fun result w₂ => result = Users.returning w₁.work.1 userId ∧ w₂.work.1 = f w₁.began w₁.work.1 ∧
        w₂.began = w₁.began ∧ SameUsers w₁ w₂) (fun _ => SameUsers w₁) w₁) :
    wp (UserDao.transaction env false stmt fun result => return ! result.isEmpty)
      (fun ok w' => w'.users.1 = if ok then f w'.began w.users.1 else w.users.1) (fun _ _ => False) w := by
  have hfails : ∀ w', SameUsers w w' → w'.users.1 = if false then f w'.began w.users.1 else w.users.1 :=
    fun _ h => congrArg Subtype.val h
  refine wp_transaction (fun w' _ => hfails w') fun w₁ hwork h₁ => ?_
  refine wp_mono ?_ (fun _ w' h => hfails w' (trans_of SameUsers h₁ h)) (hstmt w₁)
  rintro result w₂ ⟨rfl, htable, hbegan, h₂⟩
  refine ⟨trans_of SameUsers h₁ h₂, fun _ hn => absurd hsettled hn, fun w₃ husers hbegan' => ?_⟩
  rw [wp_pure, husers, htable, hbegan', hbegan, hwork]
  cases hnone : Users.returning w.users.1 userId with
  | nil => exact hself _ _ hnone
  | cons _ _ => rfl

/-- An update of a user who is not there. -/
theorem update_self {users : List UserRow} {userId : ℤ} (h : Users.returning users userId = []) (f : UserRow → UserRow) :
    Rows.update (fun u => u.userId = userId) f users = users := by
  refine Rows.update_eq_self fun u hu he => ?_
  have hmem : u ∈ users.filter fun u => u.userId = userId := List.mem_filter.2 ⟨hu, decide_eq_true he⟩
  rw [List.map_eq_nil_iff.1 h] at hmem
  exact absurd hmem List.not_mem_nil

theorem updateRating_users (hsettled : env.Settled) (userId newRating : ℤ) :
    wp (UserDao.updateRating env userId newRating)
      (fun ok w' => w'.users.1 = if ok then Users.setRating w.users.1 userId newRating else w.users.1)
      (fun _ _ => False) w :=
  wp_update hsettled (f := fun _ users => Users.setRating users userId newRating) (fun _ _ h => update_self h _)
    fun _ => exec_result _

theorem updateLastLogin_users (hsettled : env.Settled) (userId : ℤ) :
    wp (UserDao.updateLastLogin env userId)
      (fun ok w' => w'.users.1 = if ok then Users.setLastLogin w.users.1 userId w'.began else w.users.1)
      (fun _ _ => False) w := by
  refine wp_update hsettled (f := fun now users => Users.setLastLogin users userId now) (fun _ _ h => update_self h _) fun w₁ => ?_
  rw [wp_bind, wp_get]
  exact exec_result _

theorem updateStats_users (hsettled : env.Settled) (userId : ℤ) (isWin : Bool) :
    wp (UserDao.updateStats env userId isWin)
      (fun ok w' => w'.users.1 = if ok then Users.addGame w.users.1 userId isWin else w.users.1)
      (fun _ _ => False) w := by
  refine wp_update hsettled (f := fun _ users => Users.addGame users userId isWin) (fun _ _ h => update_self h _) fun w₁ => ?_
  rw [wp_bind]
  refine wp_mono (fun result w₂ h => ?_) (fun _ _ h => h) (exec_result _)
  rw [wp_bind, wp_get, wp_ite]
  exact ⟨fun _ => h, fun _ => h.2.2.2⟩

/-- The identifiers that the sequence gives are never the default. -/
theorem create_users (hsettled : env.Settled) (username hashedPassword : String) :
    wp (UserDao.create env username hashedPassword)
      (fun userId w' => w'.users.1 = if userId = -1 then w.users.1
        else Users.insert w.users.1 userId (sqlText username) (sqlText hashedPassword) w'.began)
      (fun _ _ => False) w := by
  refine wp_transaction (fun w' _ h => congrArg Subtype.val h) fun w₁ hwork h₁ => ?_
  rw [wp_bind, wp_get]
  refine wp_mono ?_ (fun _ _ h => congrArg Subtype.val (trans_of SameUsers h₁ h)) (exec_result _)
  rintro result w₂ ⟨rfl, htable, hbegan, h₂⟩
  refine ⟨trans_of SameUsers h₁ h₂, fun _ hn => absurd hsettled hn, fun w₃ husers hbegan' => ?_⟩
  rw [wp_pure, husers, htable, hbegan', hbegan, hwork, List.headD_cons, if_neg (by omega)]

/-- What is only read stays. -/
theorem wp_select {α : Type} {f : List UserRow → List UserRow} {read : List UserRow → ApiM α} {default : α}
    {Q : α → World → Prop} (hfails : ∀ w', SameUsers w w' → Q default w')
    (hread : ∀ w', SameUsers w w' → wp (read (f w.users.1)) Q (fun _ => Q default) w') :
    wp (UserDao.transaction env default (query env f) read) Q (fun _ _ => False) w := by
  refine wp_transaction (fun w' _ => hfails w') fun w₁ hwork h₁ => ?_
  refine wp_mono ?_ (fun _ w' h => hfails w' (trans_of SameUsers h₁ h.2)) (query_calls f w₁)
  rintro result w₂ ⟨rfl, hwork₂, h₂⟩
  -- the work of a transaction that only reads is the table
  have hsame : ∀ w₃ : World, w₃.users = w₂.work → SameUsers w w₃ := fun w₃ h => h.trans (hwork₂.trans hwork)
  refine ⟨trans_of SameUsers h₁ h₂, fun _ _ w₃ husers => hfails w₃ (hsame w₃ husers), fun w₃ husers _ => ?_⟩
  rw [hwork]
  exact hread w₃ (hsame w₃ husers)

end Writers

/-! ### A row that is read -/

/-- The fields of the row; `none` where a conversion throws. -/
def UserRow.info? (u : UserRow) : Option UserInfo :=
  match u.rating, u.totalGames, u.totalWins, u.createdAt with
  | some rating, some totalGames, some totalWins, some createdAt =>
    some ⟨u.userId, u.username, rating, totalGames, totalWins, createdAt, u.lastLogin⟩
  | _, _, _, _ => none

/-- The rows up to the first that cannot be read. -/
def readable : List UserRow → List UserInfo
  | [] => []
  | u :: rows =>
    match u.info? with
    | none => []
    | some user => user :: readable rows

section Readers

variable {env : Env} {w : World}

theorem wp_userInfo {Q : UserInfo → World → Prop} {E : Failure → World → Prop} (u : UserRow) :
    wp (UserDao.userInfo u) Q E w ↔
      match u.info? with
      | some user => Q user w
      | none => E (.exception "Attempt to convert SQL null") w := by
  unfold UserDao.userInfo UserRow.info? column
  cases u.rating with
  | none => rfl
  | some rating =>
    cases u.totalGames with
    | none => rfl
    | some totalGames =>
      cases u.totalWins with
      | none => rfl
      | some totalWins =>
        cases u.createdAt with
        | none => rfl
        | some createdAt => rfl

/-- What the loop of `get_top_players` collects. -/
theorem wp_userInfos {Q : List UserInfo → World → Prop} {E : Failure → World → Prop} (rows : List UserRow) :
    wp (UserDao.userInfos rows) Q E w ↔ Q (readable rows) w := by
  induction rows generalizing Q E with
  | nil => exact Iff.rfl
  | cons u rows ih =>
    rw [UserDao.userInfos, wp_tryCatch, wp_bind, wp_userInfo, readable]
    cases u.info? with
    | none => exact Iff.rfl
    | some user =>
      dsimp only
      rw [wp_bind, ih]
      exact Iff.rfl

/-- **`find_by_id` returns the row of the user**, or nothing. -/
theorem findById_shows (userId : ℤ) :
    wp (UserDao.findById env userId)
      (fun found w' => SameUsers w w' ∧ ∀ user, found = some user → ∃ u ∈ w.users.1, u.userId = userId ∧ u.info? = some user)
      (fun _ _ => False) w := by
  refine wp_select (fun w' h => ⟨h, fun _ hno => by cases hno⟩) fun w' h => ?_
  cases hrows : w.users.1.filter (fun u => u.userId = userId) with
  | nil => exact ⟨h, fun _ hno => by cases hno⟩
  | cons u rows =>
    have hu := List.mem_filter.1 (hrows ▸ List.mem_cons_self : u ∈ w.users.1.filter fun u => u.userId = userId)
    rw [UserDao.firstUser, wp_bind, wp_userInfo]
    cases hinfo : u.info? with
    | none => exact ⟨h, fun _ hno => by cases hno⟩
    | some user =>
      refine ⟨h, fun user' he => ⟨u, hu.1, of_decide_eq_true hu.2, ?_⟩⟩
      rw [hinfo, Option.some.inj he]

theorem findByUsername_users (username : String) :
    wp (UserDao.findByUsername env username) (fun _ => SameUsers w) (fun _ _ => False) w := by
  refine wp_select (fun w' h => h) fun w' h => ?_
  cases w.users.1.filter (fun u => u.username = sqlText username) with
  | nil => exact h
  | cons u rows =>
    rw [UserDao.firstUser, wp_bind, wp_userInfo]
    cases u.info? with
    | none => exact h
    | some user => exact h

/-- What the query of `get_top_players` finds. -/
def topRows (order : List UserRow → List UserRow) (users : List UserRow) (limit : ℤ) : List UserRow :=
  ((order users).mergeSort Users.rated).take limit.toNat

/-- The default is returned where the database fails or the limit is negative. -/
theorem getTopPlayers_users {order : ℕ → List UserRow → List UserRow} {limit : ℤ} :
    wp (UserDao.getTopPlayers env order limit)
      (fun users w' => SameUsers w w' ∧ ((users = [] ∧ (env.Failing ∨ limit < 0)) ∨
        ∃ n, users = readable (topRows (order n) w.users.1 limit)))
      (fun _ _ => False) w := by
  refine wp_transaction (fun w' hno h => ⟨h, .inl ⟨rfl, .inl hno⟩⟩) fun w₁ hwork h₁ => ?_
  rw [wp_bind, wp_get, wp_bind]
  refine wp_mono ?_ (fun _ w' h => ⟨trans_of SameUsers h₁ h.2, .inl ⟨rfl, .inl h.1⟩⟩) (query_calls _ w₁)
  rintro result w₂ ⟨rfl, hwork₂, h₂⟩
  have hsame : SameUsers w w₂ := trans_of SameUsers h₁ h₂
  have hpublished : ∀ w₃ : World, w₃.users = w₂.work → SameUsers w w₃ := fun w₃ h => h.trans (hwork₂.trans hwork)
  refine (wp_ite _ _ _).2 ⟨fun _ => ⟨hsame, fun hfailing _ w₃ husers => ⟨hpublished w₃ husers, .inl ⟨rfl, .inl hfailing⟩⟩,
    fun w₃ husers _ => ?_⟩, fun hlimit => ⟨hsame, .inl ⟨rfl, .inr (Int.not_le.1 hlimit)⟩⟩⟩
  rw [wp_userInfos, hwork]
  exact ⟨hpublished w₃ husers, .inr ⟨w₁.tick, rfl⟩⟩

end Readers

/-! ### Any run of calls -/

namespace Call

variable {env : Env} {order : ℕ → List UserRow → List UserRow}

/-- **A call does what it reports.** -/
theorem step_users (hsettled : env.Settled) (call : Call) (w : World) :
    (call.step env order w).users.1 = (call.report env w).elim w.users.1 (Change.apply w.users.1) := by
  have hsame : ∀ {α : Type} {c : ApiM α} {Q : α → World → Prop}, (∀ a w', Q a w' → SameUsers w w') →
      wp c Q (fun _ _ => False) w → (after c w).users.1 = w.users.1 := by
    intro α c Q hQ h
    have hkept : wp c (fun _ => SameUsers w) (fun _ => SameUsers w) w := wp_mono hQ (fun _ _ h => h.elim) h
    exact congrArg Subtype.val (wp_iff_after.1 hkept)
  cases call with
  | register request => exact hsame (fun _ _ h => h.2) (handleRegister_refusal request)
  | login request => exact hsame (fun _ _ h => h.2) (handleLogin_refusal request)
  | findById userId => exact hsame (fun _ _ h => h.1) (findById_shows userId)
  | findByUsername username => exact hsame (fun _ _ h => h) (findByUsername_users username)
  | getTopPlayers limit => exact hsame (fun _ _ h => h.1) getTopPlayers_users
  | create username hashedPassword =>
    obtain ⟨userId, w', hrun, h⟩ := wp_returns (@create_users env w hsettled username hashedPassword)
    rw [step, report, after, hrun]
    dsimp only
    rw [h]
    split_ifs <;> rfl
  | updateRating userId newRating =>
    obtain ⟨ok, w', hrun, h⟩ := wp_returns (@updateRating_users env w hsettled userId newRating)
    rw [step, report, after, hrun]
    cases ok <;> exact h
  | updateStats userId isWin =>
    obtain ⟨ok, w', hrun, h⟩ := wp_returns (@updateStats_users env w hsettled userId isWin)
    rw [step, report, after, hrun]
    cases ok <;> exact h
  | updateLastLogin userId =>
    obtain ⟨ok, w', hrun, h⟩ := wp_returns (@updateLastLogin_users env w hsettled userId)
    rw [step, report, after, hrun]
    cases ok <;> exact h

end Call

/-! ### What a user has after a run -/

namespace Change

/-- The user that the change makes. -/
def created? : Change → Option (ℤ × String × String)
  | created userId username hashedPassword _ =>
    some (userId, Tables.varchar 50 (sqlText username), Tables.varchar 50 (sqlText hashedPassword))
  | _ => none

/-- A game of the user. -/
def isGame (userId : ℤ) : Change → Bool
  | played u _ => u = userId
  | _ => false

/-- A game that the user has won. -/
def isWon (userId : ℤ) : Change → Bool
  | played u isWin => u = userId && isWin
  | _ => false

def rating? (userId : ℤ) : Change → Option ℤ
  | rated u newRating => if u = userId then some newRating else none
  | _ => none

def login? (userId : ℤ) : Change → Option ℕ
  | loggedIn u now => if u = userId then some now else none
  | _ => none

end Change

/-- The row of the user after the changes: every game is counted, and the last rating and
the last login are those that were reported last. -/
def UserRow.recorded (changes : List Change) (u : UserRow) : UserRow :=
  { u with
    totalGames := u.totalGames.map (· + (changes.countP (Change.isGame u.userId) : ℤ))
    totalWins := u.totalWins.map (· + (changes.countP (Change.isWon u.userId) : ℤ))
    rating := (changes.filterMap (Change.rating? u.userId)).getLast?.or u.rating
    lastLogin := (changes.filterMap (Change.login? u.userId)).getLast?.or u.lastLogin }

section Recorded

variable {changes : List Change} {u : UserRow}

theorem recorded_nil : u.recorded [] = u := by
  obtain ⟨userId, username, password, createdAt, lastLogin, totalGames, totalWins, rating⟩ := u
  simp [UserRow.recorded]

/-- A change that is not of the user. -/
theorem recorded_cons_of_ne {c : Change} (hgame : c.isGame u.userId = false) (hwon : c.isWon u.userId = false)
    (hrating : c.rating? u.userId = none) (hlogin : c.login? u.userId = none) :
    u.recorded (c :: changes) = u.recorded changes := by
  simp only [UserRow.recorded, List.countP_cons, hgame, hwon, List.filterMap_cons, hrating, hlogin]
  simp

/-- The last value of a column, where the first of the changes writes it. -/
theorem getLast?_or_cons {α : Type} (a : α) (l : List α) (old : Option α) :
    (a :: l).getLast?.or old = l.getLast?.or (some a) := by
  rw [List.getLast?_cons]
  cases l.getLast? <;> rfl

/-- The first of the changes, done to the row. -/
theorem recorded_rated (newRating : ℤ) :
    ({ u with rating := some newRating } : UserRow).recorded changes = u.recorded (.rated u.userId newRating :: changes) := by
  simp only [UserRow.recorded, List.countP_cons, List.filterMap_cons, Change.isGame, Change.isWon, Change.rating?,
    Change.login?, if_pos, getLast?_or_cons]
  simp

theorem recorded_loggedIn (now : ℕ) :
    ({ u with lastLogin := some now } : UserRow).recorded changes = u.recorded (.loggedIn u.userId now :: changes) := by
  simp only [UserRow.recorded, List.countP_cons, List.filterMap_cons, Change.isGame, Change.isWon, Change.rating?,
    Change.login?, if_pos, getLast?_or_cons]
  simp

theorem recorded_played (isWin : Bool) :
    ({ u with
        totalGames := u.totalGames.map (· + 1)
        totalWins := if isWin then u.totalWins.map (· + 1) else u.totalWins } : UserRow).recorded changes =
      u.recorded (.played u.userId isWin :: changes) := by
  have hadd : ∀ (x : Option ℤ) (n : ℕ), (x.map (· + 1)).map (· + (n : ℤ)) = x.map (· + ((n + 1 : ℕ) : ℤ)) := by
    intro x n
    cases x with
    | none => rfl
    | some a =>
      simp only [Option.map_some]
      congr 1
      omega
  cases isWin with
  | true =>
    simp only [UserRow.recorded, List.countP_cons, List.filterMap_cons, Change.isGame, Change.isWon, Change.rating?,
      Change.login?, decide_true, Bool.and_true, if_true, hadd]
  | false =>
    simp only [UserRow.recorded, List.countP_cons, List.filterMap_cons, Change.isGame, Change.isWon, Change.rating?,
      Change.login?, decide_true, Bool.and_false, if_true, hadd, Bool.false_eq_true, if_false, Nat.add_zero]

/-- **The changes one after another**: the users there were keep their names, with all that was
reported of them, and the new ones come behind, in the order of their creation. -/
theorem foldl_apply (changes : List Change) (users : List UserRow) :
    ∃ added, changes.foldl Change.apply users = users.map (·.recorded changes) ++ added ∧
      added.map (fun u => (u.userId, u.username, u.password)) = changes.filterMap Change.created? := by
  induction changes generalizing users with
  | nil => exact ⟨[], by simp [recorded_nil], rfl⟩
  | cons c changes ih =>
    rw [List.foldl_cons]
    obtain ⟨added, hfold, hadded⟩ := ih (Change.apply users c)
    rw [hfold]
    -- a change of the user `userId` writes the rows with that number
    have hupdate : ∀ {userId : ℤ} {f : UserRow → UserRow}, Change.apply users c = Rows.update (fun u => u.userId = userId) f users →
        (∀ u : UserRow, u.userId = userId → (f u).recorded changes = u.recorded (c :: changes)) →
        (∀ u : UserRow, u.userId ≠ userId → u.recorded (c :: changes) = u.recorded changes) →
        (Change.apply users c).map (·.recorded changes) = users.map (·.recorded (c :: changes)) := by
      intro userId f happly hsame hother
      rw [happly, Rows.update, List.map_map]
      refine List.map_congr_left fun u _ => ?_
      rw [Function.comp_apply]
      split_ifs with hu
      · exact hsame u hu
      · exact (hother u hu).symm
    cases c with
    | created userId username hashedPassword now =>
      have hold : users.map (·.recorded changes) = users.map (·.recorded (.created userId username hashedPassword now :: changes)) :=
        List.map_congr_left fun u _ => (recorded_cons_of_ne rfl rfl rfl rfl).symm
      rw [Change.apply, Users.insert, List.map_append, List.append_assoc, hold]
      refine ⟨_, rfl, ?_⟩
      rw [List.map_append, hadded]
      simp only [List.map_cons, List.map_nil, UserRow.recorded, List.singleton_append, List.filterMap_cons, Change.created?]
    | rated userId newRating =>
      refine ⟨added, congrArg (· ++ added) (hupdate rfl ?_ fun u hu => ?_), hadded⟩
      · rintro u rfl
        exact recorded_rated newRating
      · exact recorded_cons_of_ne rfl rfl (if_neg (Ne.symm hu)) rfl
    | played userId isWin =>
      refine ⟨added, congrArg (· ++ added) (hupdate rfl ?_ fun u hu => ?_), hadded⟩
      · rintro u rfl
        exact recorded_played isWin
      · have hne : decide (userId = u.userId) = false := decide_eq_false (Ne.symm hu)
        refine recorded_cons_of_ne hne ?_ rfl rfl
        rw [Change.isWon, hne, Bool.false_and]
    | loggedIn userId now =>
      refine ⟨added, congrArg (· ++ added) (hupdate rfl ?_ fun u hu => ?_), hadded⟩
      · rintro u rfl
        exact recorded_loggedIn now
      · exact recorded_cons_of_ne rfl rfl rfl (if_neg (Ne.symm hu))

end Recorded

/-! ### The best players -/

/-- The players are the `limit` best of the table: they come by rating, nobody who is left out
has a better one, and what is shown of a player is his row. -/
structure TopPlayers (users : List UserRow) (limit : ℤ) (players : List UserInfo) : Prop where
  best : ∃ rows rest : List UserRow, (rows ++ rest).Perm users ∧ rows.map UserRow.info? = players.map some ∧
    ∀ a ∈ players, ∀ b ∈ rest, ∃ rating, b.rating = some rating ∧ rating ≤ a.rating
  sorted : players.Pairwise fun a b => b.rating ≤ a.rating
  length_le : players.length ≤ limit.toNat

section Top

variable {users : List UserRow} {limit : ℤ}

theorem rated_trans (a b c : UserRow) (hab : Users.rated a b) (hbc : Users.rated b c) : Users.rated a c := by
  unfold Users.rated at *
  cases ha : a.rating with
  | none => rfl
  | some x =>
    cases hb : b.rating with
    | none => simp [ha, hb] at hab
    | some y =>
      cases hc : c.rating with
      | none => simp [hb, hc] at hbc
      | some z =>
        simp only [ha, hb, hc, decide_eq_true_eq] at hab hbc ⊢
        omega

theorem rated_total (a b : UserRow) : Users.rated a b || Users.rated b a := by
  unfold Users.rated
  cases a.rating with
  | none => rfl
  | some x =>
    cases b.rating with
    | none => rfl
    | some y =>
      simp only [Bool.or_eq_true, decide_eq_true_eq]
      omega

/-- What is read is the beginning of the rows. -/
theorem readable_prefix (rows : List UserRow) :
    ∃ shown rest, rows = shown ++ rest ∧ shown.map UserRow.info? = (readable rows).map some := by
  induction rows with
  | nil => exact ⟨[], [], rfl, rfl⟩
  | cons u rows ih =>
    obtain ⟨shown, rest, rfl, hshown⟩ := ih
    rw [readable]
    cases hinfo : u.info? with
    | none => exact ⟨[], u :: (shown ++ rest), rfl, rfl⟩
    | some user =>
      refine ⟨u :: shown, rest, rfl, ?_⟩
      rw [List.map_cons, List.map_cons, hinfo, hshown]

/-- The whole of it, where every row can be read. -/
theorem length_readable {rows : List UserRow} (h : ∀ u ∈ rows, u.info?.isSome) : (readable rows).length = rows.length := by
  induction rows with
  | nil => rfl
  | cons u rows ih =>
    obtain ⟨user, huser⟩ := Option.isSome_iff_exists.1 (h u List.mem_cons_self)
    rw [readable, huser, List.length_cons, List.length_cons, ih fun v hv => h v (List.mem_cons_of_mem u hv)]

/-- A row that was read has a rating, which is shown. -/
theorem rating_of_info {u : UserRow} {user : UserInfo} (h : u.info? = some user) : u.rating = some user.rating := by
  unfold UserRow.info? at h
  split at h
  · rw [‹u.rating = _›, ← Option.some.inj h]
  · cases h

/-- A row behind one that was read. -/
theorem rating_le_of_rated {a b : UserRow} {user : UserInfo} (ha : a.info? = some user) (h : Users.rated a b) :
    ∃ rating, b.rating = some rating ∧ rating ≤ user.rating := by
  rw [Users.rated, rating_of_info ha] at h
  cases hb : b.rating with
  | none => rw [hb] at h; cases h
  | some y =>
    rw [hb] at h
    exact ⟨y, rfl, of_decide_eq_true h⟩

/-- The query, and the rows up to the first that cannot be read. -/
theorem topPlayers_readable {order : List UserRow → List UserRow} (horder : (order users).Perm users) (limit : ℤ) :
    TopPlayers users limit (readable (topRows order users limit)) := by
  have hsorted : ((order users).mergeSort Users.rated).Pairwise fun a b => Users.rated a b :=
    List.pairwise_mergeSort rated_trans rated_total _
  obtain ⟨shown, rest, hrows, hshown⟩ := readable_prefix (topRows order users limit)
  -- the rows that are shown, those that are not read, and those beyond the limit
  have hall : (order users).mergeSort Users.rated =
      shown ++ (rest ++ ((order users).mergeSort Users.rated).drop limit.toNat) := by
    rw [← List.append_assoc, ← hrows, topRows, List.take_append_drop]
  rw [hall, List.pairwise_append] at hsorted
  have hinfo : ∀ user ∈ readable (topRows order users limit), ∃ a ∈ shown, a.info? = some user := by
    intro user huser
    have hmem := List.mem_map_of_mem (f := some) huser
    rw [← hshown] at hmem
    exact List.mem_map.1 hmem
  refine ⟨⟨shown, rest ++ ((order users).mergeSort Users.rated).drop limit.toNat, ?_, hshown,
    fun user huser b hb => ?_⟩, ?_, ?_⟩
  · rw [← hall]
    exact (List.mergeSort_perm _ _).trans horder
  · obtain ⟨a, ha, hau⟩ := hinfo user huser
    exact rating_le_of_rated hau (hsorted.2.2 a ha b hb)
  · have hpairs : (shown.map UserRow.info?).Pairwise fun x y => ∀ a b, x = some a → y = some b → b.rating ≤ a.rating := by
      rw [List.pairwise_map]
      refine hsorted.1.imp fun {u v} huv a b ha hb => ?_
      obtain ⟨rating, hrating, hle⟩ := rating_le_of_rated ha huv
      rw [rating_of_info hb] at hrating
      exact Option.some.inj hrating ▸ hle
    rw [hshown, List.pairwise_map] at hpairs
    exact hpairs.imp fun h => h _ _ rfl rfl
  · have hlen := congrArg List.length hshown
    have hle : (topRows order users limit).length ≤ limit.toNat := List.length_take_le _ _
    rw [hrows, List.length_append] at hle
    rw [List.length_map, List.length_map] at hlen
    omega

end Top

/-- **`get_top_players` lists the best.**  Whatever order the database gives players of one
rating, the list is a beginning of the ranking, and it is as long as the limit and the table
allow where the database answers and every row can be read. -/
theorem getTopPlayers_top (env : Env) {order : ℕ → List UserRow → List UserRow} (horder : ∀ n l, (order n l).Perm l)
    (limit : ℤ) (w : World) :
    wp (UserDao.getTopPlayers env order limit)
      (fun players w' => SameUsers w w' ∧ TopPlayers w.users.1 limit players ∧
        (¬ env.Failing → 0 ≤ limit → (∀ u ∈ w.users.1, u.info?.isSome) →
          players.length = min limit.toNat w.users.1.length))
      (fun _ _ => False) w := by
  refine wp_mono ?_ (fun _ _ h => h) getTopPlayers_users
  rintro players w' ⟨hsame, ⟨rfl, hwhy⟩ | ⟨n, rfl⟩⟩
  · refine ⟨hsame, ⟨⟨[], w.users.1, List.Perm.refl _, rfl, by simp⟩, List.Pairwise.nil, Nat.zero_le _⟩, ?_⟩
    intro hworks hlimit _
    exact absurd hwhy (not_or.2 ⟨hworks, Int.not_lt.2 hlimit⟩)
  · refine ⟨hsame, topPlayers_readable (horder n _) limit, fun _ _ hcomplete => ?_⟩
    have hperm : ((order n w.users.1).mergeSort Users.rated).Perm w.users.1 := (List.mergeSort_perm _ _).trans (horder n _)
    have hread : ∀ u ∈ topRows (order n) w.users.1 limit, u.info?.isSome := fun u hu =>
      hcomplete u (hperm.mem_iff.1 (List.mem_of_mem_take hu))
    rw [length_readable hread, topRows, List.length_take, hperm.length_eq]

/-- Three users, two of them with one rating. -/
def rankedUsers : World :=
  { AuthApi.start with
    users := ⟨[⟨1, "first", "", some 0, none, some 0, some 0, some 1000⟩,
      ⟨2, "second", "", some 0, none, some 4, some 3, some 1200⟩,
      ⟨3, "third", "", some 0, none, some 0, some 0, some 1000⟩], by decide⟩ }

/-- **Nothing that is reported is lost, and nothing else happens**, unless a `COMMIT` was in
doubt: of one that throws it is assumed that it was not executed.  After any calls each user
has the counters, the rating and the last login that the reports give him, the new users are
those that were reported, and `find_by_id` returns the row or nothing. -/
theorem recorded_run (env : Env) (hsettled : env.Settled) (order : ℕ → List UserRow → List UserRow) (w : World)
    (calls : List Call) :
    let changes := Run.reports (Call.step env order) (Call.report env) w calls
    let w' := calls.foldl (Call.step env order) w
    (∃ added, w'.users.1 = w.users.1.map (·.recorded changes) ++ added ∧
      added.map (fun u => (u.userId, u.username, u.password)) = changes.filterMap Change.created?) ∧
    ∀ u ∈ w.users.1, wp (UserDao.findById env u.userId)
      (fun found _ => found = none ∨ found = (u.recorded changes).info?) (fun _ _ => False) w' := by
  intro changes w'
  have hreplay : w'.users.1 = changes.foldl Change.apply w.users.1 :=
    @Run.replay _ _ (Call.step env order) _ _ (Call.report env) (·.users.1) _
      (fun w call => Call.step_users hsettled call w) w calls
  obtain ⟨added, hfold, hadded⟩ := foldl_apply changes w.users.1
  rw [← hreplay] at hfold
  refine ⟨⟨added, hfold, hadded⟩, fun u hu => ?_⟩
  refine wp_mono (fun found w'' h => ?_) (fun _ _ h => h) (findById_shows u.userId)
  cases found with
  | none => exact .inl rfl
  | some user =>
    obtain ⟨row, hrow, hid, hinfo⟩ := h.2 user rfl
    have hmem : u.recorded changes ∈ w'.users.1 :=
      hfold ▸ List.mem_append_left _ (List.mem_map_of_mem hu)
    obtain rfl := Rows.eq_of_key_eq w'.users.2.pkey hrow hmem hid
    exact .inr hinfo.symm

/-- The `COMMIT` of the second call fails. -/
def secondCommitFails : Env :=
  { AuthApi.reliable with fails := fun n => if n = 7 then some (.exception "connection lost") else none }

/-- Two games of one user, of which the second is not noted, and the rating of another. -/
theorem recorded_run_rankedUsers :
    let calls : List Call := [.updateStats 2 true, .updateStats 2 true, .updateRating 1 1100]
    let changes := Run.reports (Call.step secondCommitFails fun _ => id) (Call.report secondCommitFails) rankedUsers calls
    let w' := calls.foldl (Call.step secondCommitFails fun _ => id) rankedUsers
    (∃ added, w'.users.1 = rankedUsers.users.1.map (·.recorded changes) ++ added ∧
      added.map (fun u => (u.userId, u.username, u.password)) = changes.filterMap Change.created?) ∧
    ∀ u ∈ rankedUsers.users.1, wp (UserDao.findById secondCommitFails u.userId)
      (fun found _ => found = none ∨ found = (u.recorded changes).info?) (fun _ _ => False) w' :=
  recorded_run secondCommitFails (fun _ => rfl) (fun _ => id) rankedUsers _

theorem getTopPlayers_rankedUsers :
    wp (UserDao.getTopPlayers AuthApi.reliable (fun _ => List.reverse) 2)
      (fun players w' => SameUsers rankedUsers w' ∧ TopPlayers rankedUsers.users.1 2 players ∧
        (¬ AuthApi.reliable.Failing → (0 : ℤ) ≤ 2 → (∀ u ∈ rankedUsers.users.1, u.info?.isSome) →
          players.length = min (2 : ℤ).toNat rankedUsers.users.1.length))
      (fun _ _ => False) rankedUsers :=
  getTopPlayers_top AuthApi.reliable (fun _ => List.reverse_perm) 2 rankedUsers

end GameSocket
end SocketCommunication
