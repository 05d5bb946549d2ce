/-
# What a lookup leaves to the calls after it

A service calls one method of a repository after the other.  The next method finds the
tables and the sequences, a pool whose connection has come back, and a number of calls
that have been made.  `World.looked` is the world after a lookup, up to that
(`wp_lookup`), so that the conditions of a second method can be stated where the first
one starts.

* `Enlists`: a lookup finds nobody, and the account is created.
* `World.enrolled`: the world after the account is created (`create_alike`).
* `Noted`: what the last of the methods, `updateLastLogin`, leaves.
-/

import SocketCommunication.Matching.AuthService
import SocketCommunication.Matching.Connections

namespace SocketCommunication
namespace Matching

open Effect

/-- `n` calls answer one after the other, up to the first that throws; of those given,
`false` is the conversion of a `NULL`.  How many are made. -/
def Env.made (env : Env) (n : ℕ) : List Bool → ℕ
  | [] => 0
  | ok :: calls => if env.throws n ∨ ¬ ok then 1 else made env (n + 1) calls + 1

/-- The world once a method that leaves the tables alone has given its connection back,
after `k` calls on it. -/
def World.served (env : Env) (w : World) (k : ℕ) : World :=
  { w with tick := w.tick + 1 + k, pool := w.pool.lent (env.closed w.tick) }

/-- The next method finds the same in both worlds. -/
structure World.Alike (w w' : World) : Prop where
  db : w'.db = w.db
  seqs : w'.seqs = w.seqs
  tick : w'.tick = w.tick
  pool : w'.pool = w.pool

namespace UserRepository

variable {env : Env}

/-- The calls of a lookup after its `SELECT`: the conversions of the row, and `COMMIT`. -/
def rowCalls (u : UserRow) : List Bool :=
  [true, true, true, u.nickName.isSome, u.createdAt.isSome, u.lastLogin.isSome, true]

/-- The number of calls that a lookup makes on its connection. -/
def lookupCalls (env : Env) (w : World) (userName : String) : ℕ :=
  match env.order (w.tick + 2) (accounts env w.db.1 userName) with
  | [] => 2
  | u :: _ => if env.throws (w.tick + 2) then 2 else env.made (w.tick + 3) (rowCalls u) + 2

end UserRepository

/-- The world after a lookup that has begun its transaction. -/
def World.looked (env : Env) (w : World) (userName : String) : World :=
  w.served env (UserRepository.lookupCalls env w userName)

/-- The world after `create` has told the number of the account that it has committed. -/
def World.enrolled (env : Env) (w : World) (userName hashedPassword : String)
    (h : (UserRepository.enrol env w userName hashedPassword).Valid) : World :=
  { w.served env 4 with db := ⟨_, h⟩, seqs := { w.seqs with users := w.seqs.users + 1 } }

section Alike

variable {env : Env} {w w' : World}

open UserRepository

theorem World.Alike.answers (h : w.Alike w') {k : ℕ} : env.Answers w' k ↔ env.Answers w k := by
  simp only [Env.Answers, Env.Connects, h.tick, h.pool]

theorem World.Alike.finds (h : w.Alike w') {userName : String} {u : UserRow} :
    Finds env w' userName u ↔ Finds env w userName u := by
  have hfirst : env.order (w'.tick + 2) (accounts env w'.db.1 userName) =
      env.order (w.tick + 2) (accounts env w.db.1 userName) := by
    rw [h.tick, h.db]
  exact ⟨fun hf => ⟨h.answers.1 hf.answers, hfirst ▸ hf.first, hf.nickName, hf.createdAt, hf.lastLogin⟩,
    fun hf => ⟨h.answers.2 hf.answers, hfirst ▸ hf.first, hf.nickName, hf.createdAt, hf.lastLogin⟩⟩

theorem World.Alike.enrol (h : w.Alike w') {userName hashedPassword : String} :
    enrol env w' userName hashedPassword = enrol env w userName hashedPassword := by
  simp only [UserRepository.enrol, h.db, h.seqs, h.tick]

theorem World.Alike.creates (h : w.Alike w') {userName hashedPassword : String} :
    Creates env w' userName hashedPassword ↔ Creates env w userName hashedPassword :=
  ⟨fun hc => ⟨h.answers.1 hc.answers, h.enrol ▸ hc.valid⟩, fun hc => ⟨h.answers.2 hc.answers, h.enrol ▸ hc.valid⟩⟩

theorem World.Alike.looked (h : w.Alike w') {userName : String} :
    (w.looked env userName).Alike (w'.looked env userName) := by
  have hcalls : lookupCalls env w' userName = lookupCalls env w userName := by
    simp only [lookupCalls, h.tick, h.db]
  refine ⟨h.db, h.seqs, ?_, ?_⟩
  · simp only [World.looked, World.served, hcalls, h.tick]
  · simp only [World.looked, World.served, h.pool, h.tick]

theorem World.Alike.trans {w'' : World} (h : w.Alike w') (h' : w'.Alike w'') : w.Alike w'' :=
  ⟨h'.db.trans h.db, h'.seqs.trans h.seqs, h'.tick.trans h.tick, h'.pool.trans h.pool⟩

end Alike

namespace UserRepository

/-! ### The calls of a lookup -/

section Lookup

variable {env : Env} {w : World} {userName : String}

/-- A conversion, of `total` calls in a row the one after the first `j`, is the last if it
throws. -/
theorem wp_field_made {α : Type} {c : Option α} {calls : List Bool} {total j : ℕ} {Q : α → World → Prop}
    {E : Exn → World → Prop} (h : env.made w.tick (c.isSome :: calls) + j = total)
    (hQ : ∀ a, c = some a → env.made (w.tick + 1) calls + (j + 1) = total → Q a { w with tick := w.tick + 1 })
    (hE : ∀ e, total = j + 1 → E e { w with tick := w.tick + 1 }) : wp (field env c) Q E w := by
  rw [Env.made] at h
  refine wp_field_tick (fun a hc ht => hQ a hc ?_) fun e hn => hE e ?_
  · rw [if_neg (by simp [hc, ht])] at h
    omega
  · rw [if_pos] at h
    · omega
    · rcases hn with hnull | ht
      · exact .inr (by simp [hnull])
      · exact .inl (by simpa using ht)

/-- The first conversion that throws is the last call. -/
theorem readUser_made (w : World) (u : UserRow) :
    wp (readUser env u)
      (fun _ w' => w' = { w with tick := w.tick + 6 } ∧
        env.made (w.tick + 6) [true] + 6 = env.made w.tick (rowCalls u))
      (fun _ w' => w' = { w with tick := w.tick + env.made w.tick (rowCalls u) }) w := by
  simp only [readUser, wp_bind, wp_pure]
  have h₀ : env.made w.tick [true, true, true, u.nickName.isSome, u.createdAt.isSome, u.lastLogin.isSome, true] + 0 =
      env.made w.tick (rowCalls u) := rfl
  refine wp_field_made h₀ (fun _ _ h₁ => ?_) fun e h => by rw [h]
  refine wp_field_made h₁ (fun _ _ h₂ => ?_) fun e h => by rw [h]
  refine wp_field_made h₂ (fun _ _ h₃ => ?_) fun e h => by rw [h]
  refine wp_field_made h₃ (fun _ _ h₄ => ?_) fun e h => by rw [h]
  refine wp_field_made h₄ (fun _ _ h₅ => ?_) fun e h => by rw [h]
  exact wp_field_made h₅ (fun _ _ h₆ => ⟨rfl, h₆⟩) fun e h => by rw [h]

/-- Giving up takes no call. -/
theorem wp_giveUp_calls {α : Type} {conn : ℕ} {a : α} {Q : α → World → Prop} {E : Exn → World → Prop}
    (h : w.txn ≠ .committed) (hQ : ∀ w', w'.seqs = w.seqs → w'.tick = w.tick → Q a w') :
    wp (giveUp conn a) Q E w := by
  rw [giveUp, wp_bind]
  refine wp_abort h ?_
  rw [wp_bind]
  exact wp_returnConnection fun _ => hQ _ rfl rfl

/-- **The calls of a lookup** that has begun its transaction. -/
theorem findByUsername_calls (w : World) (userName : String) :
    wp (findByUsername env userName)
      (fun _ w' => w'.seqs = w.seqs ∧ w'.tick = w.tick + 1 + lookupCalls env w userName) (fun _ _ => True) w := by
  rw [findByUsername, wp_bind]
  refine wp_getConnection (fun _ => ?_) fun _ _ => trivial
  simp only [beginWork, wp_bind, wp_get, wp_set, wp_ite, wp_throw]
  refine ⟨fun _ => trivial, fun _ => ?_⟩
  -- whatever the block gives up on
  have hout : ∀ {E : Exn → World → Prop} {conn : ℕ} {w' : World}, w'.txn ≠ .committed → w'.seqs = w.seqs →
      w'.tick = w.tick + 1 + lookupCalls env w userName →
      wp (giveUp conn noUser) (fun _ w' => w'.seqs = w.seqs ∧ w'.tick = w.tick + 1 + lookupCalls env w userName) E w' :=
    fun htxn hseqs htick => wp_giveUp_calls htxn fun _ hs ht => ⟨hs.trans hseqs, ht.trans htick⟩
  simp only [wp_tryCatch, wp_bind, query, wp_get, wp_set, wp_ite, wp_throw, wp_pure]
  cases hrows : env.order (w.tick + 2) (accounts env w.db.1 userName) with
  | nil =>
    have hcalls : lookupCalls env w userName = 2 := by rw [lookupCalls, hrows]
    have htick : w.tick + 1 + 1 + 1 = w.tick + 1 + lookupCalls env w userName := by rw [hcalls]
    exact ⟨fun _ => hout (by simp) (by rfl) htick, fun _ => hout (by simp) (by rfl) htick⟩
  | cons u rest =>
    have hcalls : lookupCalls env w userName =
        if env.throws (w.tick + 1 + 1) then 2 else env.made (w.tick + 1 + 1 + 1) (rowCalls u) + 2 := by
      rw [lookupCalls, hrows]
    refine ⟨fun ht => hout (by simp) (by rfl) ?_, fun ht => ?_⟩
    · rw [hcalls, if_pos ht]
    rw [if_neg ht] at hcalls
    simp only [wp_bind]
    refine wp_mono (fun _ w' h => ?_) (fun _ w' h => ?_) (readUser_made _ u)
    · obtain ⟨rfl, hmade⟩ := h
      have htick : w.tick + 1 + 1 + 1 + 6 + 1 = w.tick + 1 + lookupCalls env w userName := by
        rw [hcalls, ← hmade, Env.made, Env.made]
        split_ifs <;> omega
      simp only [commit, wp_bind, wp_get, wp_set, wp_ite, wp_throw, wp_modify]
      exact ⟨fun _ => hout (by simp) (by rfl) htick, fun _ => wp_returnConnection fun _ => ⟨rfl, htick⟩⟩
    · rw [h]
      refine hout (by simp) (by rfl) ?_
      rw [hcalls]
      simp only
      omega

/-- **What a lookup leaves.** -/
theorem wp_lookup {Q : Json → World → Prop} {E : Exn → World → Prop}
    (hQ : ∀ j w₁, env.Answers w 1 → (w.looked env userName).Alike w₁ →
      ((∃ u nickName createdAt lastLogin, Finds env w userName u ∧ j = userJson env u nickName createdAt lastLogin) ∨
        ((∀ u, ¬ Finds env w userName u) ∧ j = noUser)) → Q j w₁)
    (hE : ∀ e w₁, ¬ env.Answers w 1 → w₁.db = w.db → E e w₁) : wp (findByUsername env userName) Q E w := by
  have hspec := wp_and (@findByUsername_spec env w userName)
    (wp_and (@findByUsername_calls env w userName) ((Connections.findByUsername_isMethod userName).pool w))
  refine wp_mono (fun j w₁ h => ?_) (fun e w₁ h => hE e w₁ h.1.2 h.1.1) hspec
  obtain ⟨⟨hdb, hj⟩, ⟨hseqs, htick⟩, hans, hpool⟩ := h
  exact hQ j w₁ hans ⟨hdb, hseqs, htick, hpool⟩ hj

/-- The number that a lookup tells is that of the account it finds, or −1. -/
theorem eqInt_of_lookup {j : Json}
    (hj : (∃ u nickName createdAt lastLogin, Finds env w userName u ∧ j = userJson env u nickName createdAt lastLogin) ∨
      ((∀ u, ¬ Finds env w userName u) ∧ j = noUser)) :
    (j.value "userId").eqInt (-1) ↔ ∀ u, Finds env w userName u → u.userId = -1 := by
  rcases hj with ⟨u, n, c, l, hf, rfl⟩ | ⟨hnone, rfl⟩
  · have hid : (((userJson env u n c l).value "userId").eqInt (-1) = true) ↔ u.userId = -1 := by
      change (u.userId == -1) = true ↔ _
      rw [beq_iff_eq]
    refine hid.trans ⟨fun h v hv => ?_, fun h => h u hf⟩
    rwa [← Option.some.inj (hf.first.symm.trans hv.first)]
  · exact iff_of_true rfl fun u hu => absurd hu (hnone u)

/-- A lookup of a name that finds nobody, or the account −1, after which the account is
committed. -/
structure Enlists (env : Env) (w : World) (userName password : String) : Prop where
  begins : env.Answers w 1
  absent : ∀ u, Finds env w userName u → u.userId = -1
  creates : Creates env (w.looked env userName) userName (PasswordUtil.hashPassword env password)

/-- `create`, up to what the next method finds. -/
theorem create_alike {hashedPassword : String} {w₁ : World} (h : w.Alike w₁) :
    wp (create env userName hashedPassword)
      (fun userId w₂ =>
        (∃ hc : Creates env w userName hashedPassword, env.Answers w 4 ∧ userId = w.seqs.users ∧
          (w.enrolled env userName hashedPassword hc.valid).Alike w₂) ∨
        (¬ Creates env w userName hashedPassword ∧ userId = -1 ∧ w₂.db = w.db))
      (fun _ w₂ =>
        (Creates env w userName hashedPassword ∧ ¬ env.Answers w 4 ∧ w₂.db.1 = enrol env w userName hashedPassword) ∨
        (¬ Creates env w userName hashedPassword ∧ w₂.db = w.db)) w₁ := by
  refine wp_mono (fun userId w₂ hw₂ => ?_) (fun e w₂ hw₂ => ?_)
    (wp_and (create_spec w₁ userName hashedPassword)
      ((Connections.create_isMethod userName hashedPassword).pool w₁))
  · obtain ⟨⟨hcr, rfl⟩ | ⟨hn, rfl, hu⟩, -, hpool⟩ := hw₂
    · refine .inl ⟨h.creates.1 hcr.creates, h.answers.1 hcr.answers, by rw [h.seqs], ?_, ?_, ?_, ?_⟩
      · refine Subtype.ext (hcr.published.1.trans ?_)
        exact h.enrol
      · rw [hcr.seqs, h.seqs]
        rfl
      · rw [hcr.tick, h.tick]
        rfl
      · rw [hpool, h.pool, h.tick]
        rfl
    · exact .inr ⟨mt h.creates.2 hn, rfl, hu.1.trans h.db⟩
  · obtain ⟨⟨hcr, hn, hp⟩ | ⟨hn, hu⟩, -⟩ := hw₂
    · exact .inl ⟨h.creates.1 hcr, mt h.answers.2 hn, hp.1.trans h.enrol⟩
    · exact .inr ⟨mt h.creates.2 hn, hu.1.trans h.db⟩

end Lookup

/-! ### The login is noted -/

/-- The login of `userId` has been noted, if the calls of `updateLastLogin` answer. -/
structure Noted (env : Env) (w : World) (userId : ℤ) (w' : World) : Prop where
  answers : env.Answers w 1
  db : w'.db.1 = if env.Answers w 3 then w.db.1.setLastLogin userId (env.now (w.tick + 1)) else w.db.1
  /-- The time of the last transaction is that of the login. -/
  began : w'.began = env.now (w.tick + 1)

/-- The time of the last transaction is as it was. -/
def SameClock (w w' : World) : Prop := w'.began = w.began

instance : IsPreorder World SameClock where
  refl _ := rfl
  trans _ _ _ h h' := Eq.trans h' h

section Note

variable {env : Env} {w w₁ : World}

theorem update_sameClock {α : Type} (f : Tables → List α × Tables) : Keeps SameClock (update env f) := by
  intro w
  simp only [update, exec, wp_bind, wp_get, wp_set, wp_ite, wp_throw, wp_modify]
  refine ⟨fun _ => rfl, fun _ => ?_⟩
  split_ifs
  · exact rfl
  · exact rfl

theorem commit_sameClock : Keeps SameClock (commit env) := by
  intro w
  simp only [commit, wp_bind, wp_get, wp_set, wp_ite, wp_throw, wp_modify]
  exact ⟨fun _ => rfl, fun _ => rfl⟩

theorem returnConnection_sameClock (conn : ℕ) : Keeps SameClock (returnConnection conn) :=
  fun _ => wp_returnConnection fun _ => rfl

theorem giveUp_sameClock {α : Type} (conn : ℕ) (a : α) : Keeps SameClock (giveUp conn a) := by
  refine keeps_bind (fun w => ?_) fun _ => keeps_bind (returnConnection_sameClock conn) fun _ => keeps_pure a
  simp only [abort, wp_bind, wp_get]
  cases w.txn with
  | committed => exact rfl
  | active => exact rfl
  | aborted => exact rfl

theorem updateLastLogin_began (w : World) (userId : ℤ) :
    wp (updateLastLogin env userId) (fun _ w' => w'.began = env.now (w.tick + 1)) (fun _ _ => True) w := by
  refine wp_open (fun conn w₁ h₁ => ?_) fun _ _ _ _ => trivial
  rw [← h₁.began]
  refine wp_mono (fun _ _ h => h) (fun _ _ _ => trivial) (keeps_tryCatch (R := SameClock) ?_ (fun _ => ?_) w₁)
  · refine keeps_bind keeps_get fun w => keeps_bind (update_sameClock _) fun result => ?_
    exact keeps_bind commit_sameClock fun _ => keeps_bind (returnConnection_sameClock conn) fun _ => keeps_pure _
  · exact giveUp_sameClock conn false

/-- **A login is noted when the three calls answer.** -/
theorem updateLastLogin_noted (h : w.Alike w₁) (userId : ℤ) :
    wp (updateLastLogin env userId) (fun _ w' => Noted env w userId w') (fun _ _ => ¬ env.Answers w 1) w₁ := by
  have hdb : wp (updateLastLogin env userId)
      (fun _ w' => env.Answers w₁ 1 ∧
        w'.db.1 = if env.Answers w₁ 3 then w₁.db.1.setLastLogin userId (env.now (w₁.tick + 1)) else w₁.db.1)
      (fun _ _ => ¬ env.Answers w₁ 1) w₁ := by
    refine wp_open (fun conn w₂ h₂ => ?_) fun e w' hn _ => hn
    simp only [wp_tryCatch, wp_bind, wp_get, h₂.began]
    refine wp_update h₂ (fun w₃ _ h₃ => ?_) fun e w' hn hw => wp_giveUp hw fun w' hw' => ⟨h₂.answers, ?_⟩
    · refine wp_commit h₃ (fun w₄ h₄ => wp_returnConnection fun pool => ⟨h₂.answers, ?_⟩) fun e w' hn hw =>
        wp_giveUp hw fun w' hw' => ⟨h₂.answers, ?_⟩
      · rw [if_pos h₄.answers]
        exact h₄.published.1
      · rw [if_neg hn, hw'.1]
    · have hfails : ¬ env.Answers w₁ 2 := hn.resolve_right fun hn => hn (w₁.db.2.setLastLogin userId _)
      rw [if_neg fun h => hfails (h.mono (by decide)), hw'.1]
  refine wp_mono (fun _ w' h' => ?_) (fun _ _ h' => mt h.answers.2 h'.1)
    (wp_and hdb (@updateLastLogin_began env w₁ userId))
  obtain ⟨⟨hans, ht⟩, hbegan⟩ := h'
  refine ⟨h.answers.1 hans, ?_, hbegan.trans (by rw [h.tick])⟩
  simp only [h.answers, h.db, h.tick] at ht
  exact ht

/-- The numbers of the accounts are as they were. -/
theorem Noted.userIds {userId : ℤ} {w' : World} (h : Noted env w userId w') :
    w'.db.1.users.map (·.userId) = w.db.1.users.map (·.userId) := by
  rw [h.db]
  split_ifs
  · exact Rows.map_update fun _ _ => rfl
  · rfl

end Note

end UserRepository

end Matching
end SocketCommunication
