/-
# The pool of the game socket server

No handler and no method of `UserDao` calls `return_connection`: what
`get_connection` has marked stays in use.  Between the calls the pool is as it was
created just when none of them takes a connection (`idle_throughout_iff`).

Every call is a part that does not touch the pool, `get_connection`, and another such
part (`Drawn`).
-/

import SocketCommunication.Lib.Run
import SocketCommunication.GameSocket.AuthApi
import SocketCommunication.GameSocket.UserDao

namespace SocketCommunication
namespace GameSocket

open Effect Matching

/-- The pool that the constructor makes. -/
def freshPool (k : ℕ) : DbPool := ⟨List.range k, List.replicate k false, k, []⟩

/-- No connection is in use, and there are `k`. -/
def Idle (k : ℕ) (p : DbPool) : Prop := p.connections.length = k ∧ true ∉ p.inUse

instance (k : ℕ) (p : DbPool) : Decidable (Idle k p) := inferInstanceAs (Decidable (_ ∧ _))

theorem idle_freshPool (k : ℕ) : Idle k (freshPool k) := by
  simp [Idle, freshPool]

/-- `get_connection` does not throw: there is a free connection that is open, or a new one
can be made. -/
def World.Connects (env : Env) (w : World) : Prop :=
  (w.pool.firstFree.isSome ∧ env.closed w.tick = false) ∨ env.fails w.tick = none

instance (env : Env) (w : World) : Decidable (w.Connects env) := inferInstanceAs (Decidable (_ ∨ _))

/-- The pool is as it was. -/
def SamePool (w w' : World) : Prop := w'.pool = w.pool

instance : IsPreorder World SamePool where
  refl _ := rfl
  trans _ _ _ h h' := h'.trans h

section Calls

variable {env : Env} {α β : Type}

theorem samePool_attempt : Keeps SamePool (attempt env) := by
  intro w
  simp only [attempt, wp_bind, wp_get, wp_set]
  cases env.fails w.tick with
  | none => exact rfl
  | some e => exact rfl

theorem samePool_beginWork : Keeps SamePool (beginWork env) :=
  keeps_bind keeps_get fun _ => keeps_bind samePool_attempt fun _ => keeps_modify fun _ => rfl

theorem samePool_query (f : List UserRow → List α) : Keeps SamePool (query env f) :=
  keeps_bind samePool_attempt fun _ => keeps_bind keeps_get fun _ => keeps_pure _

theorem samePool_exec (stmt : ℕ → List UserRow → ℕ × List α × List UserRow) : Keeps SamePool (exec env stmt) := by
  refine keeps_bind samePool_attempt fun _ => keeps_bind keeps_get fun w => keeps_bind (keeps_modify fun _ => rfl) fun _ => ?_
  split_ifs
  · exact keeps_bind (keeps_modify fun _ => rfl) fun _ => keeps_pure _
  · exact keeps_throw _

theorem samePool_commit : Keeps SamePool (commit env) := by
  refine keeps_bind (keeps_modify fun w => ?_) fun _ => keeps_bind samePool_attempt fun _ => keeps_modify fun _ => rfl
  split_ifs
  · exact rfl
  · exact rfl

theorem samePool_column (x : Option α) : Keeps SamePool (column x) := by
  cases x with
  | none => exact keeps_throw _
  | some a => exact keeps_pure a

/-! ### `get_connection` -/

/-- Where `P` holds a connection was taken and is in use; otherwise the pool is as it was. -/
def Drawn (P : Prop) (w w' : World) : Prop := (P → true ∈ w'.pool.inUse) ∧ (¬ P → SamePool w w')

/-- What leaves the pool comes after. -/
theorem Drawn.trans {P : Prop} {w w₁ w' : World} (h : Drawn P w w₁) (h' : SamePool w₁ w') : Drawn P w w' :=
  ⟨fun hp => h'.symm ▸ h.1 hp, fun hn => trans_of SamePool (h.2 hn) h'⟩

/-- **What `get_connection` does to the pool.** -/
theorem getConnection_hands (w : World) :
    wp (getConnection env) (fun conn w' => w.Connects env ∧ w.pool.Hands conn w'.pool)
      (fun _ w' => ¬ w.Connects env ∧ SamePool w w') w := by
  simp only [getConnection, wp_bind, wp_get]
  cases hfree : w.pool.firstFree with
  | some i =>
    simp only [wp_bind, wp_modify, wp_ite, wp_pure, wp_tryCatch, wp_throw, attempt, wp_get, wp_set]
    refine ⟨fun hclosed => ?_, fun hopen => ⟨.inl ⟨by rw [hfree]; rfl, Bool.eq_false_iff.2 hopen⟩, .found i hfree⟩⟩
    cases hfails : env.fails w.tick with
    | none => exact ⟨.inr hfails, .reconnected i hfree⟩
    | some e =>
      refine ⟨?_, DbPool.setInUse_back hfree⟩
      rintro (⟨-, hopen⟩ | hworks)
      · rw [hclosed] at hopen
        cases hopen
      · rw [hfails] at hworks
        cases hworks
  | none =>
    simp only [wp_bind, wp_modify, wp_pure, attempt, wp_get, wp_set]
    cases hfails : env.fails w.tick with
    | none => exact ⟨.inr hfails, .added hfree⟩
    | some e =>
      refine ⟨?_, rfl⟩
      rintro (⟨hsome, -⟩ | hworks)
      · rw [hfree] at hsome
        cases hsome
      · rw [hfails] at hworks
        cases hworks

/-- What comes after `get_connection` leaves the pool. -/
theorem getConnection_bind_drawn {f : ℕ → ApiM β} (hf : ∀ conn, Keeps SamePool (f conn)) (w : World) :
    wp (getConnection env >>= f) (fun _ => Drawn (w.Connects env) w) (fun _ => Drawn (w.Connects env) w) w := by
  rw [wp_bind]
  refine wp_mono (fun conn w₁ h => ?_) (fun _ w₁ h => ⟨fun hp => absurd hp h.1, fun _ => h.2⟩) (getConnection_hands w)
  have hdrawn : Drawn (w.Connects env) w w₁ := ⟨fun _ => h.2.inUse, fun hn => absurd h.1 hn⟩
  exact wp_mono (fun _ _ => hdrawn.trans) (fun _ _ => hdrawn.trans) (hf conn w₁)

/-! ### The calls -/

/-- Where something is caught the pool stays. -/
theorem drawn_tryCatch {P : Prop} {c : ApiM β} {h : Failure → ApiM β} (hh : ∀ e, Keeps SamePool (h e)) {w : World}
    (hc : wp c (fun _ => Drawn P w) (fun _ => Drawn P w) w) :
    wp (tryCatch c h) (fun _ => Drawn P w) (fun _ => Drawn P w) w := by
  rw [wp_tryCatch]
  exact wp_mono (fun _ _ h => h) (fun e w₁ hw₁ => wp_mono (fun _ _ => hw₁.trans) (fun _ _ => hw₁.trans) (hh e w₁)) hc

/-- **Every method of `UserDao` takes a connection.** -/
theorem transaction_drawn {ρ : Type} {stmt : ApiM (List ρ)} {read : List ρ → ApiM β} (default : β)
    (hstmt : Keeps SamePool stmt) (hread : ∀ rows, Keeps SamePool (read rows)) (w : World) :
    wp (UserDao.transaction env default stmt read) (fun _ => Drawn (w.Connects env) w)
      (fun _ => Drawn (w.Connects env) w) w := by
  refine drawn_tryCatch (fun _ => keeps_pure _) (getConnection_bind_drawn (fun _ => ?_) w)
  exact keeps_bind samePool_beginWork fun _ => keeps_bind hstmt fun result => keeps_bind samePool_commit fun _ => hread result

theorem samePool_userInfo (u : UserRow) : Keeps SamePool (UserDao.userInfo u) :=
  keeps_bind (samePool_column _) fun _ => keeps_bind (samePool_column _) fun _ =>
    keeps_bind (samePool_column _) fun _ => keeps_bind (samePool_column _) fun _ => keeps_pure _

theorem samePool_firstUser (rows : List UserRow) : Keeps SamePool (UserDao.firstUser rows) := by
  cases rows with
  | nil => exact keeps_pure _
  | cons u _ => exact keeps_bind (samePool_userInfo u) fun _ => keeps_pure _

theorem samePool_userInfos (rows : List UserRow) : Keeps SamePool (UserDao.userInfos rows) := by
  induction rows with
  | nil => exact keeps_pure _
  | cons u rows ih =>
    refine keeps_tryCatch ?_ fun _ => keeps_pure _
    exact keeps_bind (samePool_userInfo u) fun _ => keeps_bind ih fun _ => keeps_pure _

theorem samePool_errors {sqlMessage : String} {c : ApiM Json} {P : Prop} {w : World}
    (hc : wp c (fun _ => Drawn P w) (fun _ => Drawn P w) w) :
    wp (AuthApi.catching c sqlMessage) (fun _ => Drawn P w) (fun _ => Drawn P w) w := by
  refine drawn_tryCatch (fun e => ?_) hc
  cases e with
  | sqlError => exact keeps_pure _
  | exception => exact keeps_pure _

/-- A member that is not a string is an exception. -/
theorem wp_text {j : Json} {Q : String → World → Prop} {E : Failure → World → Prop} {w : World}
    (hQ : ∀ s, j = .str s → Q s w) (hE : (∀ s, j ≠ .str s) → ∀ e, E e w) : wp (text j) Q E w := by
  unfold text
  cases hj : j.getString with
  | ok s => exact hQ s (Json.getString_ok hj)
  | error e =>
    refine hE (fun s hs => ?_) _
    rw [hs] at hj
    cases hj

end Calls

/-- A call of a handler of `AuthApi` or of a method of `UserDao`. -/
inductive Call where
  | register (request : Json)
  | login (request : Json)
  | findById (userId : ℤ)
  | findByUsername (username : String)
  | create (username hashedPassword : String)
  | updateRating (userId newRating : ℤ)
  | updateStats (userId : ℤ) (isWin : Bool)
  | updateLastLogin (userId : ℤ)
  | getTopPlayers (limit : ℤ)

namespace Call

/-- The call is made, and its answer is not looked at. -/
def step (env : Env) (order : ℕ → List UserRow → List UserRow) (w : World) : Call → World
  | register request => after (AuthApi.handleRegister env request) w
  | login request => after (AuthApi.handleLogin env request) w
  | findById userId => after (UserDao.findById env userId) w
  | findByUsername username => after (UserDao.findByUsername env username) w
  | create username hashedPassword => after (UserDao.create env username hashedPassword) w
  | updateRating userId newRating => after (UserDao.updateRating env userId newRating) w
  | updateStats userId isWin => after (UserDao.updateStats env userId isWin) w
  | updateLastLogin userId => after (UserDao.updateLastLogin env userId) w
  | getTopPlayers limit => after (UserDao.getTopPlayers env order limit) w

/-- The name and the password of a request. -/
def credentialsOf (request : Json) : Option (String × String) :=
  match request.value "username", request.value "password" with
  | .str username, .str password => some (username, password)
  | _, _ => none

/-- The call asks for a connection: a request does unless it is refused for its form. -/
def asks : Call → Bool
  | register request => (credentialsOf request).any fun (username, password) =>
      3 ≤ username.utf8ByteSize && username.utf8ByteSize ≤ 20 && 6 ≤ password.utf8ByteSize
  | login request => (credentialsOf request).isSome
  | _ => true

/-- The call takes a connection. -/
def Takes (env : Env) (w : World) (call : Call) : Prop := call.asks ∧ w.Connects env

instance (env : Env) (w : World) (call : Call) : Decidable (call.Takes env w) := inferInstanceAs (Decidable (_ ∧ _))

section Pool

variable {env : Env} {order : ℕ → List UserRow → List UserRow}

theorem credentialsOf_eq {request : Json} {username password : String} (hu : request.value "username" = .str username)
    (hp : request.value "password" = .str password) : credentialsOf request = some (username, password) := by
  rw [credentialsOf, hu, hp]

theorem credentialsOf_eq_none {request : Json} (h : (∀ s, request.value "username" ≠ .str s) ∨
    ∀ s, request.value "password" ≠ .str s) : credentialsOf request = none := by
  unfold credentialsOf
  split
  · exact h.elim (fun hu => absurd ‹_› (hu _)) fun hp => absurd ‹_› (hp _)
  · rfl

/-- The name and the password are read first. -/
theorem wp_credentials {β : Type} {request : Json} {f : String → String → ApiM β} {P : Prop} {w : World}
    (hnone : credentialsOf request = none → ¬ P)
    (hf : ∀ username password, credentialsOf request = some (username, password) →
      wp (f username password) (fun _ => Drawn P w) (fun _ => Drawn P w) w) :
    wp (do
      let username ← text (request.value "username")
      let password ← text (request.value "password")
      f username password) (fun _ => Drawn P w) (fun _ => Drawn P w) w := by
  have hrefused : credentialsOf request = none → Drawn P w w := fun h => ⟨fun hp => absurd hp (hnone h), fun _ => rfl⟩
  rw [wp_bind]
  refine wp_text (fun username hu => ?_) fun hu _ => hrefused (credentialsOf_eq_none (.inl hu))
  rw [wp_bind]
  exact wp_text (fun password hp => hf _ _ (credentialsOf_eq hu hp)) fun hp _ => hrefused (credentialsOf_eq_none (.inr hp))

theorem register_drawn (request : Json) (w : World) :
    wp (AuthApi.handleRegister env request) (fun _ => Drawn ((register request).Takes env w) w)
      (fun _ => Drawn ((register request).Takes env w) w) w := by
  refine samePool_errors (wp_credentials (fun hnone htakes => ?_) fun username password hsome => ?_)
  · rw [Takes, asks, hnone] at htakes
    cases htakes.1
  have hasks : (register request).asks =
      (3 ≤ username.utf8ByteSize && username.utf8ByteSize ≤ 20 && 6 ≤ password.utf8ByteSize : Bool) := by
    rw [asks, hsome, Option.any_some]
  have hrefused : ¬ (register request).asks → Drawn ((register request).Takes env w) w w := fun h =>
    ⟨fun htakes => absurd htakes.1 h, fun _ => rfl⟩
  refine (wp_ite _ _ _).2 ⟨fun hname => hrefused ?_, fun hname => (wp_ite _ _ _).2 ⟨fun hshort => hrefused ?_, fun hlong => ?_⟩⟩
  · rw [hasks]
    simp
    omega
  · rw [hasks]
    simp
    omega
  · have htakes : (register request).Takes env w ↔ w.Connects env := by
      refine and_iff_right ?_
      rw [hasks]
      simp
      omega
    rw [htakes]
    refine getConnection_bind_drawn (fun _ => ?_) w
    refine keeps_bind samePool_beginWork fun _ => keeps_bind (samePool_query _) fun _ => ?_
    refine keeps_ite (fun _ => keeps_pure _) fun _ => ?_
    exact keeps_bind keeps_get fun _ => keeps_bind (samePool_exec _) fun _ => keeps_bind samePool_commit fun _ =>
      keeps_bind (samePool_column _) fun _ => keeps_pure _

theorem login_drawn (request : Json) (w : World) :
    wp (AuthApi.handleLogin env request) (fun _ => Drawn ((login request).Takes env w) w)
      (fun _ => Drawn ((login request).Takes env w) w) w := by
  refine samePool_errors (wp_credentials (fun hnone htakes => ?_) fun username password hsome => ?_)
  · rw [Takes, asks, hnone] at htakes
    cases htakes.1
  have htakes : (login request).Takes env w ↔ w.Connects env := and_iff_right (by rw [asks, hsome]; rfl)
  rw [htakes]
  refine getConnection_bind_drawn (fun _ => ?_) w
  refine keeps_bind samePool_beginWork fun _ => keeps_bind (samePool_query _) fun result => ?_
  cases result with
  | nil => exact keeps_pure _
  | cons u _ =>
    exact keeps_bind keeps_get fun _ => keeps_bind (samePool_exec _) fun _ => keeps_bind samePool_commit fun _ =>
      keeps_bind keeps_get fun _ => keeps_bind (samePool_column _) fun _ => keeps_bind (samePool_column _) fun _ =>
        keeps_bind (samePool_column _) fun _ => keeps_pure _

/-- **A call takes a connection and keeps it, or leaves the pool.** -/
theorem step_drawn (call : Call) (w : World) : Drawn (call.Takes env w) w (call.step env order w) := by
  -- every method of `UserDao` asks
  have htakes : call.asks → (call.Takes env w ↔ w.Connects env) := fun h => and_iff_right h
  cases call with
  | register request => exact wp_iff_after.1 (register_drawn request w)
  | login request => exact wp_iff_after.1 (login_drawn request w)
  | findById =>
    rw [htakes rfl]
    exact wp_iff_after.1 (transaction_drawn none (samePool_query _) samePool_firstUser w)
  | findByUsername =>
    rw [htakes rfl]
    exact wp_iff_after.1 (transaction_drawn none (samePool_query _) samePool_firstUser w)
  | create =>
    rw [htakes rfl]
    exact wp_iff_after.1 (transaction_drawn (-1) (keeps_bind keeps_get fun _ => samePool_exec _) (fun _ => keeps_pure _) w)
  | updateRating =>
    rw [htakes rfl]
    exact wp_iff_after.1 (transaction_drawn false (samePool_exec _) (fun _ => keeps_pure _) w)
  | updateStats =>
    rw [htakes rfl]
    refine wp_iff_after.1 (transaction_drawn false ?_ (fun _ => keeps_pure _) w)
    refine keeps_bind (samePool_exec _) fun _ => keeps_bind keeps_get fun _ => keeps_ite (fun _ => keeps_pure _) fun _ => ?_
    exact keeps_throw _
  | updateLastLogin =>
    rw [htakes rfl]
    exact wp_iff_after.1 (transaction_drawn false (keeps_bind keeps_get fun _ => samePool_exec _) (fun _ => keeps_pure _) w)
  | getTopPlayers =>
    rw [htakes rfl]
    refine wp_iff_after.1 (transaction_drawn [] ?_ samePool_userInfos w)
    refine keeps_bind keeps_get fun _ => keeps_bind (samePool_query _) fun _ => keeps_ite (fun _ => keeps_pure _) fun _ => ?_
    exact keeps_throw _

/-- **Between the calls the pool is idle just when none of them takes a connection.** -/
theorem idle_throughout_iff (env : Env) (order : ℕ → List UserRow → List UserRow) (w : World) (k : ℕ)
    (calls : List Call) :
    Run.Throughout (step env order) (fun w => Idle k w.pool) { w with pool := freshPool k } calls ↔
      Run.Along (step env order) (fun w call => ¬ call.Takes env w) { w with pool := freshPool k } calls := by
  have hfresh : Idle k ({ w with pool := freshPool k } : World).pool := idle_freshPool k
  refine Run.throughout_iff_along (I := fun w : World => Idle k w.pool) (fun _ h => h) (fun w call hidle hno => ?_)
    (fun w call _ htakes hidle => ?_) hfresh calls
  · have hsame : (call.step env order w).pool = w.pool := (step_drawn call w).2 hno
    rwa [hsame]
  · exact hidle.2 ((step_drawn call w).1 (not_not.1 htakes))

/-- A failed login leaves the only connection in use. -/
theorem not_idle_failedLogin : ¬ Run.Throughout (step AuthApi.reliable fun _ => id) (fun w => Idle 1 w.pool)
    { AuthApi.start with pool := freshPool 1 } [.login (AuthApi.credentials "nobody" "password")] := by
  decide +kernel

end Pool

end Call

end GameSocket
end SocketCommunication
