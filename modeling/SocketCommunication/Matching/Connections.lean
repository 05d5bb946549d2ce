/-
# The connections that the repositories take

Every method of a repository takes a connection, opens a transaction on it, and
gives it back by hand: before an early `return`, after the commit, and in the
`catch` block.  The transaction is opened before the `try` block.

* `RepositoryCall.pool`: what a method does to the pool.
* `returnsOnce_iff`: a method gives its connection back exactly once, whichever
  calls throw, just when its `BEGIN` does not.
-/

import SocketCommunication.Matching.RoomRepository
import SocketCommunication.Matching.GameRepository
import SocketCommunication.Matching.UserRepository

namespace SocketCommunication
namespace Matching

open Effect

/-- A call of a method of one of the three repositories. -/
inductive RepositoryCall where
  | findByUsername (userName : String)
  | create (userName hashedPassword : String)
  | updateLastLogin (userId : ℤ)
  | updateUserNickName (userId : ℤ) (nickName : String)
  | findAllOpen
  | createRoomWithHost (hostId : ℤ) (roomName : String) (maxPlayers : ℤ)
  | addPlayer (roomId userId : ℤ)
  | removePlayer (userId : ℤ)
  | getPlayerCount (roomId : ℤ)
  | getPlayersInRoom (roomId : ℤ)
  | createGame (request : Json)
  | endGame (gameId : ℤ)

/-- Make the call and drop what it returns. -/
def RepositoryCall.run (env : Env) : RepositoryCall → DbM Unit
  | findByUsername userName => (fun _ => ()) <$> UserRepository.findByUsername env userName
  | create userName hashedPassword => (fun _ => ()) <$> UserRepository.create env userName hashedPassword
  | updateLastLogin userId => (fun _ => ()) <$> UserRepository.updateLastLogin env userId
  | updateUserNickName userId nickName => (fun _ => ()) <$> UserRepository.updateUserNickName env userId nickName
  | findAllOpen => (fun _ => ()) <$> RoomRepository.findAllOpen env
  | createRoomWithHost hostId roomName maxPlayers =>
    (fun _ => ()) <$> RoomRepository.createRoomWithHost env hostId roomName maxPlayers
  | addPlayer roomId userId => (fun _ => ()) <$> RoomRepository.addPlayer env roomId userId
  | removePlayer userId => (fun _ => ()) <$> RoomRepository.removePlayer env userId
  | getPlayerCount roomId => (fun _ => ()) <$> RoomRepository.getPlayerCount env roomId
  | getPlayersInRoom roomId => (fun _ => ()) <$> RoomRepository.getPlayersInRoom env roomId
  | createGame request => (fun _ => ()) <$> GameRepository.createGame env request
  | endGame gameId => (fun _ => ()) <$> GameRepository.endGame env gameId

namespace Connections

/-! ### What a statement leaves alone -/

/-- The pool and the state of the transaction are as they were. -/
def Untouched (w w' : World) : Prop := w'.pool = w.pool ∧ w'.txn = w.txn

instance : IsPreorder World Untouched where
  refl _ := ⟨rfl, rfl⟩
  trans _ _ _ h h' := ⟨h'.1.trans h.1, h'.2.trans h.2⟩

section Statements

variable {env : Env} {α : Type}

theorem keeps_exec (stmt : Seqs → Tables → Seqs × List α × Tables) : Keeps Untouched (exec env stmt) := by
  intro w
  simp only [exec, wp_bind, wp_get, wp_set, wp_ite, wp_throw, wp_modify]
  refine ⟨fun _ => ⟨rfl, rfl⟩, fun _ => ?_⟩
  split_ifs
  · exact ⟨rfl, rfl⟩
  · exact ⟨rfl, rfl⟩

theorem keeps_update (f : Tables → List α × Tables) : Keeps Untouched (update env f) := keeps_exec _

theorem keeps_query (f : Tables → List α) : Keeps Untouched (query env f) := by
  intro w
  simp only [query, wp_bind, wp_get, wp_set, wp_ite, wp_throw, wp_pure]
  exact ⟨fun _ => ⟨rfl, rfl⟩, fun _ => ⟨rfl, rfl⟩⟩

theorem keeps_field (column : Option α) : Keeps Untouched (field env column) := fun _ =>
  wp_field_tick (fun _ _ _ => ⟨rfl, rfl⟩) fun _ _ => ⟨rfl, rfl⟩

/-- The columns of an account. -/
theorem keeps_readUser (u : UserRow) : Keeps Untouched (UserRepository.readUser env u) :=
  keeps_bind (keeps_field _) fun _ => keeps_bind (keeps_field _) fun _ => keeps_bind (keeps_field _) fun _ =>
    keeps_bind (keeps_field _) fun _ => keeps_bind (keeps_field _) fun _ => keeps_bind (keeps_field _) fun _ =>
    keeps_pure _

theorem keeps_readUsers : ∀ rows : List ℤ, Keeps Untouched (GameRepository.readUsers env rows)
  | [] => keeps_pure _
  | _ :: rows => by
    refine keeps_bind (keeps_tryCatch (keeps_map.2 (keeps_field _)) fun _ => keeps_pure _) fun read => ?_
    cases read with
    | none => exact keeps_pure _
    | some userId => exact keeps_bind (keeps_readUsers rows) fun _ => keeps_pure _

end Statements

/-! ### How a `try` block gives its connection back -/

/-- The method holds its connection, the pool being `p`, and can still abort its
transaction. -/
structure Lent (p : DbPool) (w : World) : Prop where
  pool : w.pool = p
  txn : w.txn ≠ .committed

/-- A block gives `conn` back once if it returns.  If it throws it still holds it, or has
given it back and the transaction is over. -/
def Lends {α : Type} (conn : ℕ) (c : DbM α) : Prop :=
  ∀ p w, Lent p w → wp c (fun _ w' => w'.pool = p.takeBack conn)
    (fun _ w' => Lent p w' ∨ w'.pool = p.takeBack conn ∧ w'.txn = .committed) w

/-- What follows a commit leaves the pool alone. -/
def Spares {α : Type} (c : DbM α) : Prop :=
  ∀ w, w.txn = .committed →
    wp c (fun _ w' => w'.pool = w.pool) (fun _ w' => w'.pool = w.pool ∧ w'.txn = .committed) w

section Blocks

variable {env : Env} {α β : Type} {conn : ℕ} {p : DbPool} {w : World}

theorem spares_of_keeps {c : DbM α} (hc : Keeps Untouched c) : Spares c := fun w hw =>
  wp_mono (fun _ _ h => h.1) (fun _ _ h => ⟨h.1, h.2.trans hw⟩) (hc w)

/-- The `abort` of a committed transaction throws. -/
theorem spares_giveUp (a : α) : Spares (giveUp conn a) := fun _ hw => wp_giveUp_committed hw fun _ => ⟨rfl, hw⟩

/-- `giveUp` gives the connection back before the commit, and throws after it. -/
theorem wp_giveUp_lent {Q : α → World → Prop} {E : Exn → World → Prop} {a : α} (h : Lent p w)
    (hQ : ∀ w', w'.pool = p.takeBack conn → Q a w') : wp (giveUp conn a) Q E w := by
  rw [giveUp, wp_bind]
  refine wp_abort h.txn ?_
  rw [wp_bind]
  refine wp_mono (fun _ w' hw' => hQ w' ?_) (fun _ _ h => h) returnConnection_takeBack
  rw [hw', ← h.pool]

theorem lends_giveUp (a : α) : Lends conn (giveUp conn a) := fun _ _ h => wp_giveUp_lent h fun _ h' => h'

theorem lends_bind {c : DbM β} {f : β → DbM α} (hc : Keeps Untouched c) (hf : ∀ b, Lends conn (f b)) :
    Lends conn (c >>= f) := by
  intro p w h
  have hstill : ∀ w', Untouched w w' → Lent p w' := fun w' hw' => ⟨hw'.1.trans h.pool, hw'.2 ▸ h.txn⟩
  rw [wp_bind]
  exact wp_mono (fun b w' hw' => hf b p w' (hstill w' hw')) (fun _ w' hw' => .inl (hstill w' hw')) (hc w)

theorem lends_ite {P : Prop} [Decidable P] {c d : DbM α} (hc : Lends conn c) (hd : Lends conn d) :
    Lends conn (if P then c else d) := by
  split_ifs
  · exact hc
  · exact hd

/-- A commit that fails leaves the connection to the `catch` block. -/
theorem lends_commit {k : DbM α} (hk : Spares k) : Lends conn (do commit env; returnConnection conn; k) := by
  intro p w h
  simp only [commit, wp_bind, wp_get, wp_set, wp_ite, wp_throw, wp_modify]
  refine ⟨fun _ => .inl ⟨h.pool, by simp⟩, fun _ => ?_⟩
  refine wp_mono (fun _ w' hw' => ?_) (fun _ _ h => h) returnConnection_takeBack
  have hback : w'.pool = p.takeBack conn := by
    rw [hw', ← h.pool]
  have htxn : w'.txn = .committed := by rw [hw']
  refine wp_mono (fun _ w'' hp => ?_) (fun _ w'' hp => .inr ⟨?_, hp.2⟩) (hk w' htxn)
  · rw [hp, hback]
  · rw [hp.1, hback]

/-- The `catch` block gives back what the `try` block has not. -/
theorem wp_catch_lent {Q : α → World → Prop} {E : Exn → World → Prop} {c : DbM α} {a : α} (hc : Lends conn c)
    (h : Lent p w) (hQ : ∀ a w', w'.pool = p.takeBack conn → Q a w')
    (hE : ∀ e w', w'.pool = p.takeBack conn → w'.txn = .committed → E e w') :
    wp (tryCatch c fun _ => giveUp conn a) Q E w := by
  rw [wp_tryCatch]
  refine wp_mono (fun b w' h' => hQ b w' h') (fun _ w' h' => ?_) (hc p w h)
  rcases h' with h' | ⟨hback, htxn⟩
  · exact wp_giveUp_lent h' (hQ a)
  · exact wp_giveUp_committed htxn fun e => hE e w' hback htxn

theorem lends_tryCatch {c : DbM α} (hc : Lends conn c) (a : α) : Lends conn (tryCatch c fun _ => giveUp conn a) :=
  fun _ _ h => wp_catch_lent hc h (fun _ _ h' => h') fun _ _ h' htxn => .inr ⟨h', htxn⟩

end Blocks

/-! ### The form of a method -/

/-- A method takes a connection, opens a transaction on it, and runs a block that gives the
connection back. -/
def IsMethod {α : Type} (env : Env) (c : DbM α) : Prop :=
  ∃ (block : ℕ → DbM α) (a : α), (∀ conn, Lends conn (block conn)) ∧ c = (do
    let conn ← getConnection env
    beginWork env
    tryCatch (block conn) fun _ => giveUp conn a)

section Method

variable {env : Env} {α : Type}

theorem isMethod {block : ℕ → DbM α} {a : α} (h : ∀ conn, Lends conn (block conn)) : IsMethod env (do
    let conn ← getConnection env
    beginWork env
    tryCatch (block conn) fun _ => giveUp conn a) :=
  ⟨block, a, h, rfl⟩

/-- **What a method does to the pool.**  If it begins its transaction, what it was handed
is back in the end, however it ends. -/
theorem IsMethod.pool {c : DbM α} (hc : IsMethod env c) (w : World) :
    wp c (fun _ w' => env.Answers w 1 ∧ w'.pool = w.pool.lent (env.closed w.tick))
      (fun _ w' => env.Answers w 1 ∧ w'.pool = w.pool.lent (env.closed w.tick) ∨
        ¬ env.Connects w ∧ w'.pool = w.pool ∨
        (env.Connects w ∧ env.throws (w.tick + 1)) ∧ w'.pool = (w.pool.handOut (env.closed w.tick)).2) w := by
  obtain ⟨block, a, hblock, rfl⟩ := hc
  rw [wp_bind]
  refine wp_getConnection (fun hconn => ?_) fun _ hn => .inr (.inl ⟨hn, rfl⟩)
  simp only [beginWork, wp_bind, wp_get, wp_set, wp_ite, wp_throw]
  refine ⟨fun ht => .inr (.inr ⟨⟨hconn, ht⟩, trivial⟩), fun ht => ?_⟩
  have hans : env.Answers w 1 := Env.answers_succ.2 ⟨⟨hconn, by simp⟩, by simpa using ht⟩
  exact wp_catch_lent (p := (w.pool.handOut (env.closed w.tick)).2) (hblock _) ⟨rfl, by simp⟩
    (fun _ w' hw' => ⟨hans, hw'⟩) fun _ w' hw' _ => .inl ⟨hans, hw'⟩

end Method

/-! ### The methods -/

section Methods

variable {env : Env}

open UserRepository RoomRepository GameRepository

theorem findByUsername_isMethod (userName : String) : IsMethod env (findByUsername env userName) := by
  refine isMethod fun conn => lends_bind (keeps_query _) fun result => ?_
  cases result with
  | nil => exact lends_giveUp _
  | cons u _ => exact lends_bind (keeps_readUser u) fun _ => lends_commit (spares_of_keeps (keeps_pure _))

/-- The branch for an empty result, which `INSERT … RETURNING` never gives, would
throw and not give the connection back again. -/
theorem create_isMethod (userName hashedPassword : String) : IsMethod env (create env userName hashedPassword) := by
  refine isMethod fun conn => lends_bind keeps_get fun _ => lends_bind (keeps_exec _) fun result => ?_
  refine lends_commit ?_
  cases result with
  | nil => exact spares_giveUp _
  | cons userId _ => exact spares_of_keeps (keeps_field _)

theorem updateLastLogin_isMethod (userId : ℤ) : IsMethod env (updateLastLogin env userId) :=
  isMethod fun _ => lends_bind keeps_get fun _ => lends_bind (keeps_update _) fun _ =>
    lends_commit (spares_of_keeps (keeps_pure _))

theorem updateUserNickName_isMethod (userId : ℤ) (nickName : String) :
    IsMethod env (updateUserNickName env userId nickName) :=
  isMethod fun _ => lends_bind (keeps_update _) fun _ => lends_commit (spares_of_keeps (keeps_pure _))

/-- The rows are converted after the connection was given back. -/
theorem findAllOpen_isMethod : IsMethod env (findAllOpen env) :=
  isMethod fun _ => lends_bind (keeps_query _) fun _ => lends_commit (spares_of_keeps (keeps_mapM (roomJson_keeps keeps_field) _))

theorem createRoomWithHost_isMethod (hostId : ℤ) (roomName : String) (maxPlayers : ℤ) :
    IsMethod env (RoomRepository.createRoomWithHost env hostId roomName maxPlayers) := by
  refine isMethod fun conn => lends_bind (keeps_query _) fun isJoined => ?_
  refine lends_ite (lends_giveUp _) (lends_bind (keeps_query _) fun idResult => ?_)
  cases idResult with
  | nil => exact lends_giveUp _
  | cons roomId _ =>
    refine lends_bind (keeps_field _) fun _ => lends_bind keeps_get fun _ => lends_bind (keeps_update _) fun roomResult => ?_
    cases roomResult with
    | nil => exact lends_giveUp _
    | cons row _ =>
      refine lends_bind (keeps_update _) fun _ => lends_commit (spares_of_keeps ?_)
      exact keeps_bind (keeps_field _) fun _ => keeps_bind (keeps_field _) fun _ => keeps_bind (keeps_field _) fun _ =>
        keeps_bind (keeps_field _) fun _ => keeps_bind (keeps_field _) fun _ => keeps_pure _

theorem addPlayer_isMethod (roomId userId : ℤ) : IsMethod env (RoomRepository.addPlayer env roomId userId) := by
  refine isMethod fun conn => lends_bind (keeps_query _) fun roomCheck => ?_
  cases roomCheck with
  | nil => exact lends_giveUp _
  | cons status _ =>
    refine lends_bind (keeps_field _) fun _ => lends_ite (lends_giveUp _) (lends_bind (keeps_query _) fun _ => ?_)
    refine lends_ite (lends_giveUp _) (lends_bind (keeps_query _) fun _ => ?_)
    refine lends_bind (keeps_field _) fun _ => lends_bind (keeps_field _) fun _ => lends_ite (lends_giveUp _) ?_
    refine lends_bind keeps_get fun _ => lends_bind (keeps_update _) fun _ => ?_
    exact lends_ite (lends_giveUp _) (lends_commit (spares_of_keeps (keeps_pure _)))

theorem removePlayer_isMethod (userId : ℤ) : IsMethod env (RoomRepository.removePlayer env userId) := by
  refine isMethod fun conn => lends_bind (keeps_query _) fun roomResult => ?_
  cases roomResult with
  | nil => exact lends_giveUp _
  | cons roomId _ =>
    refine lends_bind (keeps_field _) fun _ => lends_bind keeps_get fun _ => lends_bind (keeps_update _) fun _ => ?_
    refine lends_bind (keeps_query _) fun _ => lends_bind (keeps_field _) fun _ => ?_
    refine lends_ite ?_ (lends_commit (spares_of_keeps (keeps_pure _)))
    exact lends_bind (keeps_update _) fun _ => lends_bind (keeps_update _) fun _ =>
      lends_commit (spares_of_keeps (keeps_pure _))

theorem getPlayerCount_isMethod (roomId : ℤ) : IsMethod env (getPlayerCount env roomId) := by
  refine isMethod fun conn => lends_bind (keeps_query _) fun result => lends_commit ?_
  cases result with
  | nil => exact spares_of_keeps (keeps_pure _)
  | cons count _ => exact spares_of_keeps (keeps_field _)

theorem getPlayersInRoom_isMethod (roomId : ℤ) : IsMethod env (getPlayersInRoom env roomId) :=
  isMethod fun _ => lends_bind (keeps_query _) fun _ =>
    lends_commit (spares_of_keeps (keeps_mapM (fun _ => keeps_field _) _))

theorem createGame_isMethod (request : Json) : IsMethod env (createGame env request) := by
  refine isMethod fun conn => lends_bind (keeps_orThrow _) fun roomId => lends_bind (keeps_orThrow _) fun mapId => ?_
  refine lends_bind keeps_get fun _ => lends_bind (keeps_exec _) fun _ => lends_bind (keeps_update _) fun _ => ?_
  refine lends_ite (lends_giveUp _) (lends_bind (keeps_field _) fun _ => lends_bind (keeps_query _) fun _ => ?_)
  refine lends_bind (keeps_readUsers _) fun _ => lends_ite (lends_giveUp _) ?_
  exact lends_tryCatch (lends_commit (spares_of_keeps (keeps_pure _))) _

theorem endGame_isMethod (gameId : ℤ) : IsMethod env (endGame env gameId) := by
  refine isMethod fun conn => lends_bind keeps_get fun _ => lends_bind (keeps_update _) fun result => ?_
  cases result with
  | nil => exact lends_giveUp _
  | cons roomId _ =>
    refine lends_bind (keeps_field _) fun _ => lends_bind (keeps_query _) fun _ => ?_
    refine lends_bind (keeps_readUsers _) fun _ => lends_ite (lends_giveUp _) ?_
    exact lends_tryCatch (lends_commit (spares_of_keeps (keeps_pure _))) _

end Methods

end Connections

section Calls

variable {env : Env}

open Connections

/-- **Every method of a repository** does to the pool what a method does. -/
theorem RepositoryCall.pool (call : RepositoryCall) (w : World) :
    wp (call.run env) (fun _ w' => env.Answers w 1 ∧ w'.pool = w.pool.lent (env.closed w.tick))
      (fun _ w' => env.Answers w 1 ∧ w'.pool = w.pool.lent (env.closed w.tick) ∨
        ¬ env.Connects w ∧ w'.pool = w.pool ∨
        (env.Connects w ∧ env.throws (w.tick + 1)) ∧ w'.pool = (w.pool.handOut (env.closed w.tick)).2) w := by
  cases call with
  | findByUsername userName => exact (wp_map _ _).2 ((findByUsername_isMethod userName).pool w)
  | create userName hashedPassword => exact (wp_map _ _).2 ((create_isMethod userName hashedPassword).pool w)
  | updateLastLogin userId => exact (wp_map _ _).2 ((updateLastLogin_isMethod userId).pool w)
  | updateUserNickName userId nickName => exact (wp_map _ _).2 ((updateUserNickName_isMethod userId nickName).pool w)
  | findAllOpen => exact (wp_map _ _).2 (findAllOpen_isMethod.pool w)
  | createRoomWithHost hostId roomName maxPlayers =>
    exact (wp_map _ _).2 ((createRoomWithHost_isMethod hostId roomName maxPlayers).pool w)
  | addPlayer roomId userId => exact (wp_map _ _).2 ((addPlayer_isMethod roomId userId).pool w)
  | removePlayer userId => exact (wp_map _ _).2 ((removePlayer_isMethod userId).pool w)
  | getPlayerCount roomId => exact (wp_map _ _).2 ((getPlayerCount_isMethod roomId).pool w)
  | getPlayersInRoom roomId => exact (wp_map _ _).2 ((getPlayersInRoom_isMethod roomId).pool w)
  | createGame request => exact (wp_map _ _).2 ((createGame_isMethod request).pool w)
  | endGame gameId => exact (wp_map _ _).2 ((endGame_isMethod gameId).pool w)

end Calls

/-! ### Connections come back -/

namespace Connections

/-- What the method has done to the pool: taken no connection, or taken one and given
it back once. -/
def ReturnsOnce (w w' : World) : Prop :=
  w'.pool.calls = w.pool.calls ∨ ∃ conn, w'.pool.calls = .returned conn :: .taken conn :: w.pool.calls

/-- What was handed out and taken back was returned once. -/
theorem returnsOnce_lent {w w' : World} {closed : Bool} (h : w'.pool = w.pool.lent closed) : ReturnsOnce w w' := by
  have hhands := w.pool.hands_handOut closed
  refine .inr ⟨(w.pool.handOut closed).1, ?_⟩
  rw [h, DbPool.lent, DbPool.calls_takeBack hhands.mem, hhands.calls]

/-- A connection that was taken and not given back is lost. -/
theorem not_returnsOnce_handOut {w w' : World} {closed : Bool} (h : w'.pool = (w.pool.handOut closed).2) :
    ¬ ReturnsOnce w w' := by
  have hcalls : w'.pool.calls = .taken (w.pool.handOut closed).1 :: w.pool.calls := by
    rw [h, (w.pool.hands_handOut closed).calls]
  rintro (hsame | ⟨conn, hback⟩)
  · have hlen := congrArg List.length (hcalls.symm.trans hsame)
    simp at hlen
  · have hhead := List.head_eq_of_cons_eq (hcalls.symm.trans hback)
    cases hhead

/-- **Connections come back just when `BEGIN` does not throw.** -/
theorem returnsOnce_iff (env : Env) (call : RepositoryCall) (w : World) :
    wp (call.run env) (fun _ => ReturnsOnce w) (fun _ => ReturnsOnce w) w ↔
      (env.Connects w → env.throws (w.tick + 1) = false) := by
  have hpool := @RepositoryCall.pool env call w
  constructor
  · intro h hconn
    by_contra ht
    have hfails : ¬ env.Answers w 1 := fun ha => ht (ha.2 0 Nat.one_pos)
    refine wp_exclude h hpool (fun _ w' _ hlent => hfails hlent.1) fun _ w' hr hcases => ?_
    rcases hcases with hlent | hrefused | hlost
    · exact hfails hlent.1
    · exact hrefused.1 hconn
    · exact not_returnsOnce_handOut hlost.2 hr
  · intro h
    refine wp_mono (fun _ w' hlent => returnsOnce_lent hlent.2) (fun _ w' hcases => ?_) hpool
    rcases hcases with hlent | hrefused | ⟨⟨hconn, ht⟩, -⟩
    · exact returnsOnce_lent hlent.2
    · exact .inl (congrArg DbPool.calls hrefused.2)
    · rw [h hconn] at ht
      cases ht

/-- The server loses the connection between taking it and `BEGIN`. -/
theorem not_returnsOnce_begin :
    ¬ wp ((RepositoryCall.getPlayerCount 1).run { Env.reliable with throws := (· = 1) })
      (fun _ => ReturnsOnce .init) (fun _ => ReturnsOnce .init) .init := by
  intro h
  have hcalls : wp ((RepositoryCall.getPlayerCount 1).run { Env.reliable with throws := (· = 1) })
      (fun _ w' => w'.pool.calls = [.taken 0]) (fun _ w' => w'.pool.calls = [.taken 0]) .init := by
    decide +kernel
  refine wp_exclude h hcalls (fun _ w' hr hc => ?_) fun _ w' hr hc => ?_
  · rcases hr with hr | ⟨_, hr⟩ <;> rw [hc] at hr <;> cases hr
  · rcases hr with hr | ⟨_, hr⟩ <;> rw [hc] at hr <;> cases hr

end Connections

end Matching
end SocketCommunication
