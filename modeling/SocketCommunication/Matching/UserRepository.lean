/-
# `UserRepositoryImpl`

The methods of `repository/user_repository.cpp`.  `findByUsername` compares names
without regard to case, though the column is unique only up to case: of several
accounts under one name it takes whichever row comes first.  A row with a `NULL`
column cannot be converted and counts as not found.

The two methods that update a row commit before they look whether there was one.
-/

import SocketCommunication.Matching.Database

namespace SocketCommunication
namespace Matching

open Effect

namespace UserRepository

/-- The answer of `findByUsername` when there is no such user. -/
def noUser : Json := .obj [("userId", .int (-1))]

section Methods

variable (env : Env)

/-- A row of `users` as JSON. -/
def userJson (u : UserRow) (nickName : String) (createdAt lastLogin : ℕ) : Json :=
  .obj [("userId", .int u.userId), ("userName", .str u.userName),
    ("passwordHash", .str u.passwordHash), ("nickName", .str nickName),
    ("createdAt", .str (env.timestampText createdAt)),
    ("lastLogin", .str (env.timestampText lastLogin))]

/-- The accounts under a name. -/
def accounts (t : Tables) (userName : String) : List UserRow :=
  t.users.filter fun u => env.lower u.userName = env.lower (sqlText userName)

/-- The first row, column by column. -/
def readUser (u : UserRow) : DbM Json := do
  let _ ← field env (some u.userId)
  let _ ← field env (some u.userName)
  let _ ← field env (some u.passwordHash)
  let nickName ← field env u.nickName
  let createdAt ← field env u.createdAt
  let lastLogin ← field env u.lastLogin
  return userJson env u nickName createdAt lastLogin

def findByUsername (userName : String) : DbM Json := do
  let conn ← getConnection env
  beginWork env
  tryCatch
    (do
      let result ← query env fun t => accounts env t userName
      match result with
      | [] => giveUp conn noUser
      | u :: _ =>
        let user ← readUser env u
        commit env
        returnConnection conn
        return user)
    fun _ => giveUp conn noUser

def create (userName hashedPassword : String) : DbM ℤ := do
  let conn ← getConnection env
  beginWork env
  tryCatch
    (do
      let w ← get
      let result ← exec env fun q t =>
        ({ q with users := q.users + 1 }, [(q.users : ℤ)],
          t.insertUser q.users (sqlText userName) (sqlText hashedPassword)
            (env.defaultNickName w.tick) w.began)
      commit env
      returnConnection conn
      match result with
      | [] => giveUp conn (-1)
      | userId :: _ => field env (some userId))
    fun _ => giveUp conn (-1)

def updateLastLogin (userId : ℤ) : DbM Bool := do
  let conn ← getConnection env
  beginWork env
  tryCatch
    (do
      let now := (← get).began
      let result ← update env fun t =>
        ((t.users.filter fun u => u.userId = userId).map (·.userId), t.setLastLogin userId now)
      commit env
      returnConnection conn
      return ¬ result = [])
    fun _ => giveUp conn false

def updateUserNickName (userId : ℤ) (nickName : String) : DbM Bool := do
  let conn ← getConnection env
  beginWork env
  tryCatch
    (do
      let result ← update env fun t =>
        ((t.users.filter fun u => u.userId = userId).map (·.userId),
          t.setNickName userId (sqlText nickName))
      commit env
      returnConnection conn
      return ¬ result = [])
    fun _ => giveUp conn false

end Methods

/-! ### What the methods publish -/

/-- `findByUsername` finds the account `u`. -/
structure Finds (env : Env) (w : World) (userName : String) (u : UserRow) : Prop where
  answers : env.Answers w 9
  first : (env.order (w.tick + 2) (accounts env w.db.1 userName)).head? = some u
  nickName : u.nickName.isSome
  createdAt : u.createdAt.isSome
  lastLogin : u.lastLogin.isSome

theorem Finds.mem {env : Env} {w : World} {userName : String} {u : UserRow}
    (h : Finds env w userName u) : u ∈ w.db.1.users := by
  have hmem := List.mem_of_mem_head? (Option.mem_def.2 h.first)
  exact (List.mem_filter.1 (Env.mem_order.1 hmem)).1

/-- The tables with a new account. -/
def enrol (env : Env) (w : World) (userName hashedPassword : String) : Tables :=
  w.db.1.insertUser w.seqs.users (sqlText userName) (sqlText hashedPassword)
    (env.defaultNickName (w.tick + 2)) (env.now (w.tick + 1))

/-- `create` commits. -/
structure Creates (env : Env) (w : World) (userName hashedPassword : String) : Prop where
  answers : env.Answers w 3
  valid : (enrol env w userName hashedPassword).Valid

/-- `create` has committed the account, and told its number. -/
structure Created (env : Env) (w : World) (userName hashedPassword : String) (w' : World) : Prop where
  creates : Creates env w userName hashedPassword
  answers : env.Answers w 4
  published : Published w w' (enrol env w userName hashedPassword)
  tick : w'.tick = w.tick + 1 + 4
  seqs : w'.seqs = { w.seqs with users := w.seqs.users + 1 }

section Spec

variable {env : Env}

/-- The row is read when the conversions answer and no column is `NULL`. -/
theorem wp_readUser {w₀ w : World} {k : ℕ} {t : Tables} {q : Seqs} {u : UserRow} {Q : Json → World → Prop}
    {E : Exn → World → Prop} (h : Within env w₀ k t q w)
    (hQ : ∀ nickName createdAt lastLogin w', u.nickName = some nickName → u.createdAt = some createdAt →
      u.lastLogin = some lastLogin → Within env w₀ (k + 6) t q w' →
      Q (userJson env u nickName createdAt lastLogin) w')
    (hE : ∀ e w', ¬ (env.Answers w₀ (k + 6) ∧ u.nickName.isSome ∧ u.createdAt.isSome ∧ u.lastLogin.isSome) →
      InWork w₀ w' → E e w') :
    wp (readUser env u) Q E w := by
  simp only [readUser, wp_bind, wp_pure]
  refine wp_field_some h (fun w₁ h₁ => ?_) fun e w' hn => hE e w' fun ha => hn (ha.1.mono (by omega))
  refine wp_field_some h₁ (fun w₂ h₂ => ?_) fun e w' hn => hE e w' fun ha => hn (ha.1.mono (by omega))
  refine wp_field_some h₂ (fun w₃ h₃ => ?_) fun e w' hn => hE e w' fun ha => hn (ha.1.mono (by omega))
  refine wp_field h₃ (fun nickName w₄ hnick h₄ => ?_) fun e w' hn => hE e w' fun ha => ?_
  swap
  · exact hn.elim (fun hn => by simp [hn] at ha) fun hn => hn (ha.1.mono (by omega))
  refine wp_field h₄ (fun createdAt w₅ hcreated h₅ => ?_) fun e w' hn => hE e w' fun ha => ?_
  swap
  · exact hn.elim (fun hn => by simp [hn] at ha) fun hn => hn (ha.1.mono (by omega))
  refine wp_field h₅ (fun lastLogin w₆ hlast h₆ => ?_) fun e w' hn => hE e w' fun ha => ?_
  · exact hQ nickName createdAt lastLogin w₆ hnick hcreated hlast h₆
  · exact hn.elim (fun hn => by simp [hn] at ha) fun hn => hn ha.1

/-- A lookup leaves the tables as they are. -/
theorem findByUsername_spec (w : World) (userName : String) :
    wp (findByUsername env userName)
      (fun j w' => w'.db = w.db ∧
        ((∃ u nickName createdAt lastLogin, Finds env w userName u ∧
            j = userJson env u nickName createdAt lastLogin) ∨
          ((∀ u, ¬ Finds env w userName u) ∧ j = noUser)))
      (fun _ w' => w'.db = w.db ∧ ¬ env.Answers w 1) w := by
  refine wp_open (fun conn w₁ h₁ => ?_) fun e w' hn hu => ⟨hu.1, hn⟩
  -- every way out of the block but the commit gives up
  have hout : ∀ {E : Exn → World → Prop} {w' : World}, InWork w w' →
      (∀ u, ¬ Finds env w userName u) → wp (giveUp conn noUser)
        (fun j w' => w'.db = w.db ∧
          ((∃ u nickName createdAt lastLogin, Finds env w userName u ∧
              j = userJson env u nickName createdAt lastLogin) ∨
            ((∀ u, ¬ Finds env w userName u) ∧ j = noUser))) E w' := fun hw hn =>
    wp_giveUp hw fun w' hw' => ⟨hw'.1, .inr ⟨hn, rfl⟩⟩
  simp only [wp_tryCatch, wp_bind]
  refine wp_query h₁ (fun w₂ h₂ => ?_) fun e w' hn hw =>
    hout hw fun _ h => hn (h.answers.mono (by decide))
  cases hrows : env.order (w.tick + 1 + 1) (accounts env w.db.1 userName) with
  | nil =>
    refine hout h₂.inWork fun u h => ?_
    have := h.first
    rw [show w.tick + 2 = w.tick + 1 + 1 from rfl, hrows] at this
    cases this
  | cons u rest =>
    have honly : ∀ {v}, Finds env w userName v → v = u := by
      intro v h
      have := h.first
      rw [show w.tick + 2 = w.tick + 1 + 1 from rfl, hrows] at this
      exact (Option.some.inj this).symm
    have hrow : (env.order (w.tick + 2) (accounts env w.db.1 userName)).head? = some u := by
      rw [show w.tick + 2 = w.tick + 1 + 1 from rfl, hrows, List.head?_cons]
    simp only [wp_bind]
    refine wp_readUser h₂ (fun nickName createdAt lastLogin w₃ hnick hcreated hlast h₃ => ?_) fun e w' hn hw =>
      hout hw fun v h => ?_
    swap
    · obtain rfl := honly h
      exact hn ⟨h.answers.mono (by decide), h.nickName, h.createdAt, h.lastLogin⟩
    refine wp_commit h₃ (fun w₄ h₄ => wp_returnConnection fun pool => ?_) fun e w' hn hw =>
      hout hw fun _ h => hn h.answers
    refine ⟨Subtype.ext h₄.published.1, .inl ⟨u, nickName, createdAt, lastLogin, ⟨h₄.answers, hrow, ?_, ?_, ?_⟩, rfl⟩⟩
    · rw [hnick, Option.isSome_some]
    · rw [hcreated, Option.isSome_some]
    · rw [hlast, Option.isSome_some]

/-- The new account is committed before its number is read. -/
theorem create_spec (w : World) (userName hashedPassword : String) :
    wp (create env userName hashedPassword)
      (fun userId w' =>
        (Created env w userName hashedPassword w' ∧ userId = w.seqs.users) ∨
        (¬ Creates env w userName hashedPassword ∧ userId = -1 ∧ Unpublished w w'))
      (fun _ w' =>
        (Creates env w userName hashedPassword ∧ ¬ env.Answers w 4 ∧
          Published w w' (enrol env w userName hashedPassword)) ∨
        (¬ Creates env w userName hashedPassword ∧ Unpublished w w')) w := by
  refine wp_open (fun conn w₁ h₁ => ?_) fun e w' hn hu => .inr ⟨fun h => hn (h.answers.mono (by decide)), hu⟩
  simp only [wp_tryCatch, wp_bind, wp_get, h₁.began, h₁.tick]
  refine wp_exec h₁ (fun w₂ hv h₂ => ?_) fun e w' hn hw => wp_giveUp hw fun w' hw' =>
    .inr ⟨fun h => hn.elim (fun hn => hn (h.answers.mono (by decide))) fun hn => hn h.valid, rfl, hw'⟩
  refine wp_commit h₂ (fun w₃ h₃ => wp_returnConnection_after h₃ fun w₄ h₄ => ?_) fun e w' hn hw =>
    wp_giveUp hw fun w' hw' => .inr ⟨fun h => hn h.answers, rfl, hw'⟩
  have hcreates : Creates env w userName hashedPassword := ⟨h₄.answers, hv⟩
  rw [Env.order_singleton]
  exact wp_field_after_some h₄ (fun w₅ h₅ => .inl ⟨⟨hcreates, h₅.answers, h₅.published, h₅.tick, h₅.seqs⟩, rfl⟩)
    fun e w' hn hp hc => wp_giveUp_committed hc fun e => .inl ⟨hcreates, hn, hp⟩

theorem updateLastLogin_spec (w : World) (userId : ℤ) :
    wp (updateLastLogin env userId)
      (fun _ w' => env.Answers w 1 ∧
        (Published w w' (w.db.1.setLastLogin userId (env.now (w.tick + 1))) ∨ Unpublished w w'))
      (fun _ w' => ¬ env.Answers w 1 ∧ Unpublished w w') w := by
  refine wp_open (fun conn w₁ h₁ => ?_) fun e w' hn hu => ⟨hn, hu⟩
  simp only [wp_tryCatch, wp_bind, wp_get, h₁.began]
  refine wp_update h₁ (fun w₂ _ h₂ => ?_) fun e w' _ hw => wp_giveUp hw fun w' hw' => ⟨h₁.answers, .inr hw'⟩
  refine wp_commit h₂ (fun w₃ h₃ => wp_returnConnection fun pool => ?_) fun e w' _ hw =>
    wp_giveUp hw fun w' hw' => ⟨h₁.answers, .inr hw'⟩
  exact ⟨h₁.answers, .inl h₃.published⟩

/-- `updateUserNickName` commits. -/
structure Renames (env : Env) (w : World) (userId : ℤ) (nickName : String) : Prop where
  answers : env.Answers w 3
  valid : (w.db.1.setNickName userId (sqlText nickName)).Valid

theorem updateUserNickName_spec (w : World) (userId : ℤ) (nickName : String) :
    wp (updateUserNickName env userId nickName)
      (fun b w' =>
        (Renames env w userId nickName ∧
          Published w w' (w.db.1.setNickName userId (sqlText nickName)) ∧
          b = decide (userId ∈ w.db.1.users.map (·.userId))) ∨
        (¬ Renames env w userId nickName ∧ Unpublished w w' ∧ b = false))
      (fun _ w' => ¬ Renames env w userId nickName ∧ Unpublished w w') w := by
  refine wp_open (fun conn w₁ h₁ => ?_) fun e w' hn hu => ⟨fun h => hn (h.answers.mono (by decide)), hu⟩
  simp only [wp_tryCatch, wp_bind]
  refine wp_update h₁ (fun w₂ hv h₂ => ?_) fun e w' hn hw => wp_giveUp hw fun w' hw' =>
    .inr ⟨fun h => hn.elim (fun hn => hn (h.answers.mono (by decide))) fun hn => hn h.valid, hw', rfl⟩
  refine wp_commit h₂ (fun w₃ h₃ => wp_returnConnection fun pool => ?_) fun e w' hn hw =>
    wp_giveUp hw fun w' hw' => .inr ⟨fun h => hn h.answers, hw', rfl⟩
  refine .inl ⟨⟨h₃.answers, hv⟩, h₃.published, ?_⟩
  have hsel : w.db.1.users.filter (fun u => u.userId = userId) = [] ↔
      userId ∉ w.db.1.users.map (·.userId) := by
    simp [List.filter_eq_nil_iff]
  simp [hsel]

end Spec

end UserRepository

end Matching
end SocketCommunication
