/-
# Transactions on pooled connections

What a repository method does with the database: it takes a connection from
`DbPool`, opens a `pqxx::work` on it, runs statements, commits or aborts, and
returns the connection.

`Env` is everything outside the program: the failures of PostgreSQL and of the
network, the order in which a `SELECT` without `ORDER BY` returns its rows, the
clocks, and the functions of OpenSSL, PostgreSQL and Boost that the server only
calls.  Its choices are indexed by the number of the call, so that one `Env`
fixes a whole run and a statement about every `Env` is about every behaviour.

The conversion of a column of a result is such a call too, and may throw like one.

A transaction works on its own copy of the tables.  `commit` publishes the copy;
a `work` that is not committed never does, whether it is aborted or destroyed.
The two sequences are not part of the copy: a number once drawn stays drawn.

Assumed of `commit`: one that throws was not executed.  (`pqxx::in_doubt_error`, the
exception of a `COMMIT` whose answer was lost, leaves that open.)
-/

import SocketCommunication.Lib.Command
import SocketCommunication.Matching.Json
import SocketCommunication.Matching.Schema
import Mathlib.Data.List.TakeWhile

namespace SocketCommunication
namespace Matching

open Effect

structure Env where
  /-- SHA-256 of the bytes of a string, in hexadecimal. -/
  sha256 : String → String
  /-- `LOWER`. -/
  lower : String → String
  /-- A `TIMESTAMP WITH TIME ZONE` as text. -/
  timestampText : ℕ → String
  /-- The `n`-th call on the database, or on a row that it returned, throws. -/
  throws : ℕ → Bool
  /-- The text of its exception. -/
  what : ℕ → String
  /-- The pooled connection found by the `n`-th call is closed. -/
  closed : ℕ → Bool
  /-- The order in which the `n`-th call returns its rows. -/
  order : {α : Type} → ℕ → List α → List α
  order_perm : ∀ {α : Type} (n : ℕ) (l : List α), (order n l).Perm l
  /-- The time of the `n`-th call. -/
  now : ℕ → ℕ
  /-- `'user_' || substring(md5(random()::text), 1, 10)`. -/
  defaultNickName : ℕ → String
  /-- The `n`-th UUID of `boost::uuids::random_generator`, as text. -/
  uuid : ℕ → String
  uuid_ne : ∀ n, uuid n ≠ ""

/-! ### The pool -/

/-- A call on the pool that went through. -/
inductive PoolCall where
  | taken (conn : ℕ)
  | returned (conn : ℕ)
  deriving DecidableEq

/-- `DbPool`: the connections and, in a second vector, which are in use. -/
structure DbPool where
  connections : List ℕ
  inUse : List Bool
  /-- The number of connections made so far, which names the next one. -/
  made : ℕ
  /-- The calls on the pool so far, the latest first; no code reads them. -/
  calls : List PoolCall
  deriving DecidableEq

namespace DbPool

/-- The first index whose connection is not in use. -/
def firstFree (p : DbPool) : Option ℕ :=
  (p.inUse.take p.connections.length).findIdx? (! ·)

def setInUse (p : DbPool) (i : ℕ) (b : Bool) : DbPool :=
  { p with inUse := p.inUse.set i b }

/-- Put a new connection in the place of the `i`-th. -/
def replace (p : DbPool) (i : ℕ) : DbPool :=
  { p with connections := p.connections.set i p.made, made := p.made + 1 }

/-- Add a new connection, in use. -/
def grow (p : DbPool) : DbPool :=
  { p with connections := p.connections ++ [p.made], inUse := p.inUse ++ [true], made := p.made + 1 }

def note (p : DbPool) (call : PoolCall) : DbPool := { p with calls := call :: p.calls }

/-- The ways in which `get_connection` hands out a connection: one that is free and open,
one made in the place of a free one that is closed, or one made beside those in use. -/
inductive Hands (p : DbPool) : ℕ → DbPool → Prop where
  | found (i : ℕ) (hi : p.firstFree = some i) :
    Hands p (p.connections.getD i 0) ((p.setInUse i true).note (.taken (p.connections.getD i 0)))
  | reconnected (i : ℕ) (hi : p.firstFree = some i) :
    Hands p p.made (((p.setInUse i true).replace i).note (.taken p.made))
  | added (hfull : p.firstFree = none) : Hands p p.made (p.grow.note (.taken p.made))

/-- What `return_connection` does. -/
def takeBack (p : DbPool) (conn : ℕ) : DbPool :=
  match p.connections.findIdx? (· = conn) with
  | some i => (p.setInUse i false).note (.returned conn)
  | none => p

/-- What `get_connection` hands out if it can, and the pool after it; `closed` is the
connection that is free. -/
def handOut (p : DbPool) (closed : Bool) : ℕ × DbPool :=
  match p.firstFree with
  | some i =>
    if closed then (p.made, ((p.setInUse i true).replace i).note (.taken p.made))
    else (p.connections.getD i 0, (p.setInUse i true).note (.taken (p.connections.getD i 0)))
  | none => (p.made, p.grow.note (.taken p.made))

/-- The pool once what it has handed out has come back. -/
def lent (p : DbPool) (closed : Bool) : DbPool := (p.handOut closed).2.takeBack (p.handOut closed).1

section Slots

variable {p q : DbPool} {i conn : ℕ}

theorem hands_handOut (p : DbPool) (closed : Bool) : p.Hands (p.handOut closed).1 (p.handOut closed).2 := by
  unfold handOut
  cases hfree : p.firstFree with
  | none => exact .added hfree
  | some i =>
    cases closed with
    | true => exact .reconnected i hfree
    | false => exact .found i hfree

theorem firstFree_free (h : p.firstFree = some i) : p.inUse[i]? = some false := by
  obtain ⟨hi, hfree, -⟩ := List.findIdx?_eq_some_iff_getElem.1 h
  rw [List.length_take] at hi
  rw [List.getElem_take, Bool.not_eq_true'] at hfree
  rw [List.getElem?_eq_getElem (by omega), hfree]

theorem firstFree_slot (h : p.firstFree = some i) : p.connections[i]? = some (p.connections.getD i 0) := by
  obtain ⟨hi, -⟩ := List.findIdx?_eq_some_iff_getElem.1 h
  rw [List.length_take] at hi
  rw [List.getD_eq_getElem?_getD, List.getElem?_eq_getElem (by omega), Option.getD_some]

/-- The search goes through all slots. -/
theorem firstFree_none (hlen : p.inUse.length = p.connections.length) (h : p.firstFree = none) : false ∉ p.inUse := by
  rw [firstFree, List.take_of_length_le hlen.le, List.findIdx?_eq_none_iff] at h
  intro hfalse
  cases h false hfalse

/-- A mark that is taken back. -/
theorem setInUse_back (h : p.firstFree = some i) : (p.setInUse i true).setInUse i false = p := by
  obtain ⟨hi, hfree⟩ := List.getElem?_eq_some_iff.1 (firstFree_free h)
  have hlist : (p.inUse.set i true).set i false = p.inUse := by
    rw [List.set_set, ← hfree, List.set_getElem_self]
  rw [setInUse, setInUse, hlist]

/-- What is handed out is in the pool. -/
theorem Hands.mem (h : p.Hands conn q) : conn ∈ q.connections := by
  cases h with
  | found i hi =>
    have hslot := firstFree_slot hi
    exact List.mem_of_getElem? hslot
  | reconnected i hi => exact List.mem_set (List.getElem?_eq_some_iff.1 (firstFree_slot hi)).1 _
  | added => exact List.mem_append_right _ (List.mem_singleton_self _)

/-- It is in use. -/
theorem Hands.inUse (h : p.Hands conn q) : true ∈ q.inUse := by
  cases h with
  | found i hi => exact List.mem_set (List.getElem?_eq_some_iff.1 (firstFree_free hi)).1 _
  | reconnected i hi => exact List.mem_set (List.getElem?_eq_some_iff.1 (firstFree_free hi)).1 _
  | added => exact List.mem_append_right _ (List.mem_singleton_self _)

theorem Hands.calls (h : p.Hands conn q) : q.calls = .taken conn :: p.calls := by
  cases h <;> rfl

theorem calls_takeBack (h : conn ∈ p.connections) : (p.takeBack conn).calls = .returned conn :: p.calls := by
  unfold takeBack
  split
  next => rfl
  next hnone => exact absurd (List.findIdx?_eq_none_iff.1 hnone conn h) (by simp)

end Slots

end DbPool

/-! ### The state of a method -/

/-- The state of a `pqxx::work`. -/
inductive TxnStatus where
  | active
  | aborted
  | committed
  deriving DecidableEq

/-- The sequences behind the `SERIAL` columns that the server draws from. -/
structure Seqs where
  users : ℕ
  games : ℕ
  deriving DecidableEq

structure World where
  /-- The committed tables. -/
  db : Db
  /-- The tables as the open transaction sees them. -/
  work : Db
  txn : TxnStatus
  /-- `CURRENT_TIMESTAMP` of the open transaction. -/
  began : ℕ
  seqs : Seqs
  pool : DbPool
  /-- The number of transactions committed so far. -/
  commits : ℕ
  /-- The number of calls on the database so far, conversions included. -/
  tick : ℕ

abbrev DbM := EStateM Exn World

/-- An environment in which no call fails and rows come in the order in which
they are stored.  Of the digests it has two. -/
def Env.reliable : Env where
  sha256 s :=
    if s = "admin" then "8c6976e5b5410415bde908bd4dee15dfb167a9c873fc4bb8a81f6f2ab448a918"
    else if s = "password" then "5e884898da28047151d0e56f8dc6292773603d0d6aabbdd62a11ef721d1542d8"
    else ""
  lower s := String.ofList (s.toList.map Char.toLower)
  timestampText := toString
  throws _ := false
  what _ := ""
  closed _ := false
  order _ l := l
  order_perm _ l := .refl l
  now := id
  defaultNickName n := "user_" ++ toString n
  uuid n := "uuid" ++ toString n
  uuid_ne n := by simp

/-- The state of the database and of the pool when the server starts. -/
def World.init : World where
  db := ⟨.init, Tables.valid_init⟩
  work := ⟨.init, Tables.valid_init⟩
  txn := .aborted
  began := 0
  seqs := ⟨8, 1⟩
  pool := ⟨List.range 20, List.replicate 20 false, 20, []⟩
  commits := 0
  tick := 0

section Calls

variable (env : Env)

/-- `DbPool::get_connection`. -/
def getConnection : DbM ℕ := do
  let w ← get
  set { w with tick := w.tick + 1 }
  match w.pool.firstFree with
  | some i =>
    modify fun w => { w with pool := w.pool.setInUse i true }
    if env.closed w.tick then
      if env.throws w.tick then
        modify fun w => { w with pool := w.pool.setInUse i false }
        throw ⟨env.what w.tick⟩
      else
        modify fun w => { w with pool := (w.pool.replace i).note (.taken w.pool.made) }
        return w.pool.made
    else
      modify fun w => { w with pool := w.pool.note (.taken (w.pool.connections.getD i 0)) }
      return w.pool.connections.getD i 0
  | none =>
    if env.throws w.tick then
      throw ⟨env.what w.tick⟩
    else
      modify fun w => { w with pool := w.pool.grow.note (.taken w.pool.made) }
      return w.pool.made

/-- `DbPool::return_connection`. -/
def returnConnection (conn : ℕ) : DbM Unit :=
  modify fun w =>
    match w.pool.connections.findIdx? (· = conn) with
    | some i => { w with pool := (w.pool.setInUse i false).note (.returned conn) }
    | none => w

/-- `pqxx::work txn(*conn)`: `BEGIN`. -/
def beginWork : DbM Unit := do
  let w ← get
  set { w with tick := w.tick + 1 }
  if env.throws w.tick then
    throw ⟨env.what w.tick⟩
  else
    set { w with tick := w.tick + 1, work := w.db, txn := .active, began := env.now w.tick }

/-- `txn.exec`: run a statement; one that would violate a constraint raises an error. -/
def exec {α : Type} (stmt : Seqs → Tables → Seqs × List α × Tables) : DbM (List α) := do
  let w ← get
  set { w with tick := w.tick + 1 }
  if env.throws w.tick then
    throw ⟨env.what w.tick⟩
  else
    let r := stmt w.seqs w.work.1
    modify fun w => { w with seqs := r.1 }
    if h : r.2.2.Valid then do
      modify fun w => { w with work := ⟨r.2.2, h⟩ }
      return env.order w.tick r.2.1
    else
      throw ⟨env.what w.tick⟩

/-- A `SELECT`. -/
def query {α : Type} (f : Tables → List α) : DbM (List α) := do
  let w ← get
  set { w with tick := w.tick + 1 }
  if env.throws w.tick then
    throw ⟨env.what w.tick⟩
  else
    return env.order w.tick (f w.work.1)

/-- An `UPDATE`, `DELETE` or `INSERT`, with what it is `RETURNING`. -/
def update {α : Type} (f : Tables → List α × Tables) : DbM (List α) :=
  exec env fun q t => (q, f t)

/-- `txn.commit()`; one that throws was not executed. -/
def commit : DbM Unit := do
  let w ← get
  set { w with tick := w.tick + 1 }
  if env.throws w.tick then
    modify fun w => { w with txn := .aborted }
    throw ⟨env.what w.tick⟩
  else
    modify fun w => { w with db := w.work, txn := .committed, commits := w.commits + 1 }

/-- `txn.abort()`. -/
def abort : DbM Unit := do
  let w ← get
  match w.txn with
  | .committed => throw ⟨"Attempt to abort previously committed transaction"⟩
  | _ => set { w with txn := .aborted }

/-- `txn.abort(); dbPool_->return_connection(conn); return a;`. -/
def giveUp {α : Type} (conn : ℕ) (a : α) : DbM α := do
  abort
  returnConnection conn
  return a

/-- `row[…].as<T>()` of a column that may be `NULL`. -/
def field {α : Type} (column : Option α) : DbM α := do
  let w ← get
  set { w with tick := w.tick + 1 }
  if env.throws w.tick then
    throw ⟨env.what w.tick⟩
  else
    match column with
    | some a => return a
    | none => throw ⟨"Attempt to convert SQL null"⟩

/-- A `std::string` as a text parameter of a statement, which ends at the first
zero byte. -/
def sqlText (s : String) : String := String.ofList (s.toList.takeWhile (· ≠ '\x00'))

end Calls

/-! ### The order of the rows -/

section Order

variable {env : Env} {α : Type} {n : ℕ} {a : α} {l : List α}

theorem Env.mem_order : a ∈ env.order n l ↔ a ∈ l := (env.order_perm n l).mem_iff

@[simp] theorem Env.order_eq_nil : env.order n l = [] ↔ l = [] :=
  ⟨fun h => (h ▸ env.order_perm n l).symm.eq_nil, fun h => h ▸ (env.order_perm n []).eq_nil⟩

@[simp] theorem Env.order_nil : env.order n ([] : List α) = [] := Env.order_eq_nil.2 rfl

@[simp] theorem Env.order_singleton : env.order n [a] = [a] :=
  List.perm_singleton.1 (env.order_perm n [a])

end Order

/-! ### Texts that are stored as they are -/

theorem sqlText_eq {s : String} (h : '\x00' ∉ s.toList) : sqlText s = s := by
  have htake : s.toList.takeWhile (· ≠ '\x00') = s.toList :=
    List.takeWhile_eq_self_iff.2 fun c hc => decide_eq_true fun h0 => h (h0 ▸ hc)
  rw [sqlText, htake, String.ofList_toList]

theorem varchar_eq {n : ℕ} {s : String} (h : s.length ≤ n) : Tables.varchar n s = s := by
  rw [← String.length_toList] at h
  rw [Tables.varchar, List.take_of_length_le h, String.ofList_toList, ite_self]

/-- A text that is cut fills the column. -/
theorem length_varchar {n : ℕ} {s : String} (h : Tables.varchar n s ≠ s) : (Tables.varchar n s).length = n := by
  unfold Tables.varchar at h ⊢
  split_ifs at h ⊢ with hcut
  · have hlong : n < s.toList.length := by
      by_contra hle
      rw [List.take_of_length_le (not_lt.1 hle), String.ofList_toList] at h
      exact h rfl
    rw [String.length_ofList, List.length_take]
    omega
  · exact absurd rfl h

/-! ### What a method publishes -/

/-- Nothing was committed. -/
def Unpublished (w w' : World) : Prop := w'.db = w.db ∧ w'.commits = w.commits

/-- One transaction was committed, and the tables are now `t`. -/
def Published (w w' : World) (t : Tables) : Prop := w'.db.1 = t ∧ w'.commits = w.commits + 1

/-- Inside a `try` block: nothing is committed yet, so the `catch` block can abort. -/
def InWork (w w' : World) : Prop := Unpublished w w' ∧ w'.txn ≠ .committed

/-! ### What a call can do -/

section Spec

variable {env : Env} {w : World} {E : Exn → World → Prop}

/-- `get_connection` finds an open connection or can make one. -/
def Env.Connects (env : Env) (w : World) : Prop :=
  (w.pool.firstFree.isSome ∧ env.closed w.tick = false) ∨ env.throws w.tick = false

instance (env : Env) (w : World) : Decidable (env.Connects w) :=
  inferInstanceAs (Decidable (_ ∨ _))

/-- A connection is to be had, and the `k` calls after that do not throw. -/
def Env.Answers (env : Env) (w : World) (k : ℕ) : Prop :=
  env.Connects w ∧ ∀ i < k, env.throws (w.tick + 1 + i) = false

instance (env : Env) (w : World) (k : ℕ) : Decidable (env.Answers w k) :=
  inferInstanceAs (Decidable (_ ∧ _))

theorem Env.Answers.mono {j k : ℕ} (hjk : j ≤ k) (h : env.Answers w k) : env.Answers w j :=
  ⟨h.1, fun i hi => h.2 i (hi.trans_le hjk)⟩

theorem Env.answers_succ {k : ℕ} :
    env.Answers w (k + 1) ↔ env.Answers w k ∧ env.throws (w.tick + 1 + k) = false := by
  constructor
  · exact fun h => ⟨h.mono k.le_succ, h.2 k k.lt_succ_self⟩
  · rintro ⟨h, hk⟩
    refine ⟨h.1, fun i hi => ?_⟩
    rcases Nat.lt_succ_iff_lt_or_eq.1 hi with hi | rfl
    · exact h.2 i hi
    · exact hk

/-- No call fails. -/
def Env.Steady (env : Env) : Prop := ∀ n, env.throws n = false

theorem Env.Steady.answers {env : Env} (h : env.Steady) (w : World) (k : ℕ) : env.Answers w k :=
  ⟨.inr (h _), fun _ _ => h _⟩

/-- The transaction of a method called in `w₀` is open, after `k` calls that
answered: it sees the tables `t` and the sequences `q`, and nothing is committed. -/
structure Within (env : Env) (w₀ : World) (k : ℕ) (t : Tables) (q : Seqs) (w : World) : Prop where
  answers : env.Answers w₀ k
  tick : w.tick = w₀.tick + 1 + k
  db : w.db = w₀.db
  commits : w.commits = w₀.commits
  txn : w.txn = .active
  began : w.began = env.now (w₀.tick + 1)
  work : w.work.1 = t
  seqs : w.seqs = q

/-- The transaction of a method called in `w₀` is over, after `k` calls that answered:
it has published the tables `t`. -/
structure Done (env : Env) (w₀ : World) (k : ℕ) (t : Tables) (q : Seqs) (w : World) : Prop where
  answers : env.Answers w₀ k
  tick : w.tick = w₀.tick + 1 + k
  published : Published w₀ w t
  txn : w.txn = .committed
  seqs : w.seqs = q

variable {w₀ : World} {k : ℕ} {t : Tables} {q : Seqs}

theorem Within.inWork (h : Within env w₀ k t q w) : InWork w₀ w :=
  ⟨⟨h.db, h.commits⟩, by rw [h.txn]; decide⟩

/-- `get_connection` hands out a connection, or leaves the pool as it was. -/
theorem wp_getConnection {Q : ℕ → World → Prop}
    (hQ : env.Connects w → Q (w.pool.handOut (env.closed w.tick)).1
      { w with pool := (w.pool.handOut (env.closed w.tick)).2, tick := w.tick + 1 })
    (hE : ∀ e, ¬ env.Connects w → E e { w with tick := w.tick + 1 }) : wp (getConnection env) Q E w := by
  simp only [getConnection, wp_bind, wp_get, wp_set]
  unfold DbPool.handOut at hQ
  cases hf : w.pool.firstFree with
  | some i =>
    simp only [wp_bind, wp_modify, wp_ite, wp_pure, wp_throw]
    simp only [hf] at hQ
    refine ⟨fun hc => ⟨fun ht => ?_, fun ht => ?_⟩, fun hc => ?_⟩
    · rw [DbPool.setInUse_back hf]
      exact hE _ (by simp [Env.Connects, hc, ht])
    · rw [hc] at hQ
      exact hQ (.inr (by simpa using ht))
    · rw [Bool.eq_false_iff.2 hc] at hQ
      exact hQ (.inl ⟨by simp [hf], by simpa using hc⟩)
  | none =>
    simp only [wp_bind, wp_modify, wp_ite, wp_pure, wp_throw]
    simp only [hf] at hQ
    exact ⟨fun ht => hE _ (by simp [Env.Connects, hf, ht]), fun ht => hQ (.inr (by simpa using ht))⟩

/-- How every method starts: a connection, and a transaction on it. -/
theorem wp_open {α : Type} {f : ℕ → DbM α} {Q : α → World → Prop}
    (hQ : ∀ conn w', Within env w 1 w.db.1 w.seqs w' → wp (f conn) Q E w')
    (hE : ∀ e w', ¬ env.Answers w 1 → Unpublished w w' → E e w') :
    wp (do let conn ← getConnection env; beginWork env; f conn) Q E w := by
  rw [wp_bind]
  refine wp_getConnection (fun hc => ?_) fun e hc => hE e _ (fun h => hc h.1) ⟨rfl, rfl⟩
  simp only [beginWork, wp_bind, wp_get, wp_set, wp_ite, wp_throw]
  constructor
  · exact fun ht => hE _ _ (fun h => by simpa [ht] using h.2 0 Nat.one_pos) ⟨rfl, rfl⟩
  · exact fun ht => hQ _ _ ⟨Env.answers_succ.2 ⟨⟨hc, by simp⟩, by simpa using ht⟩, rfl, rfl, rfl, rfl,
      rfl, rfl, rfl⟩

theorem wp_exec {α : Type} {stmt : Seqs → Tables → Seqs × List α × Tables}
    {Q : List α → World → Prop} (h : Within env w₀ k t q w)
    (hQ : ∀ w', (stmt q t).2.2.Valid → Within env w₀ (k + 1) (stmt q t).2.2 (stmt q t).1 w' →
      Q (env.order (w₀.tick + 1 + k) (stmt q t).2.1) w')
    (hE : ∀ e w', ¬ env.Answers w₀ (k + 1) ∨ ¬ (stmt q t).2.2.Valid → InWork w₀ w' → E e w') :
    wp (exec env stmt) Q E w := by
  obtain ⟨ha, hk, hdb, hcm, htxn, hbg, rfl, rfl⟩ := h
  simp only [exec, wp_bind, wp_get, wp_set, wp_ite, wp_throw]
  have hin : ∀ {w' : World}, w'.db = w.db → w'.commits = w.commits → w'.txn = w.txn → InWork w₀ w' :=
    fun h₁ h₂ h₃ => ⟨⟨h₁.trans hdb, h₂.trans hcm⟩, by rw [h₃, htxn]; decide⟩
  refine ⟨fun ht => hE _ _ (.inl fun h => ?_) (hin rfl rfl rfl), fun ht => ?_⟩
  · rw [hk, (Env.answers_succ.1 h).2] at ht
    exact Bool.false_ne_true ht
  · rw [wp_modify]
    rw [hk] at ht
    by_cases hv : (stmt w.seqs w.work.1).2.2.Valid
    · rw [dif_pos hv]
      simp only [wp_bind, wp_modify, wp_pure]
      rw [hk]
      exact hQ _ hv ⟨Env.answers_succ.2 ⟨ha, by simpa using ht⟩, Nat.add_assoc .., hdb, hcm, htxn, hbg, rfl, rfl⟩
    · rw [dif_neg hv]
      exact hE _ _ (.inr hv) (hin rfl rfl rfl)

theorem wp_query {α : Type} {f : Tables → List α} {Q : List α → World → Prop}
    (h : Within env w₀ k t q w)
    (hQ : ∀ w', Within env w₀ (k + 1) t q w' → Q (env.order (w₀.tick + 1 + k) (f t)) w')
    (hE : ∀ e w', ¬ env.Answers w₀ (k + 1) → InWork w₀ w' → E e w') :
    wp (query env f) Q E w := by
  obtain ⟨ha, hk, hdb, hcm, htxn, hbg, rfl, rfl⟩ := h
  simp only [query, wp_bind, wp_get, wp_set, wp_ite, wp_throw, wp_pure]
  constructor
  · refine fun ht => hE _ _ (fun h => ?_) ⟨⟨hdb, hcm⟩, fun h => by rw [htxn] at h; cases h⟩
    rw [hk, (Env.answers_succ.1 h).2] at ht
    exact Bool.false_ne_true ht
  · intro ht
    rw [hk] at ht ⊢
    exact hQ _ ⟨Env.answers_succ.2 ⟨ha, by simpa using ht⟩, Nat.add_assoc .., hdb, hcm, htxn, hbg, rfl, rfl⟩

theorem wp_update {α : Type} {f : Tables → List α × Tables} {Q : List α → World → Prop}
    (h : Within env w₀ k t q w)
    (hQ : ∀ w', (f t).2.Valid → Within env w₀ (k + 1) (f t).2 q w' →
      Q (env.order (w₀.tick + 1 + k) (f t).1) w')
    (hE : ∀ e w', ¬ env.Answers w₀ (k + 1) ∨ ¬ (f t).2.Valid → InWork w₀ w' → E e w') :
    wp (update env f) Q E w :=
  wp_exec h hQ hE

theorem wp_commit {Q : Unit → World → Prop} (h : Within env w₀ k t q w)
    (hQ : ∀ w', Done env w₀ (k + 1) t q w' → Q () w')
    (hE : ∀ e w', ¬ env.Answers w₀ (k + 1) → InWork w₀ w' → E e w') :
    wp (commit env) Q E w := by
  obtain ⟨ha, hk, hdb, hcm, htxn, hbg, rfl, rfl⟩ := h
  simp only [commit, wp_bind, wp_get, wp_set, wp_ite, wp_throw, wp_modify]
  constructor
  · refine fun ht => hE _ _ (fun h => ?_) ⟨⟨hdb, hcm⟩, fun h => by cases h⟩
    rw [hk, (Env.answers_succ.1 h).2] at ht
    exact Bool.false_ne_true ht
  · intro ht
    rw [hk] at ht
    exact hQ _ ⟨Env.answers_succ.2 ⟨ha, by simpa using ht⟩, by simp only [hk, Nat.add_assoc], ⟨rfl, by simp [hcm]⟩, rfl,
      rfl⟩

/-- A conversion is a call. -/
theorem wp_field_tick {α : Type} {c : Option α} {Q : α → World → Prop}
    (hQ : ∀ a, c = some a → env.throws w.tick = false → Q a { w with tick := w.tick + 1 })
    (hE : ∀ e, (c = none ∨ ¬ env.throws w.tick = false) → E e { w with tick := w.tick + 1 }) :
    wp (field env c) Q E w := by
  simp only [field, wp_bind, wp_get, wp_set, wp_ite, wp_throw]
  refine ⟨fun ht => hE _ (.inr (by simp [ht])), fun ht => ?_⟩
  cases c with
  | none => exact hE _ (.inl rfl)
  | some a => exact hQ a rfl (by simpa using ht)

/-- A conversion in a transaction. -/
theorem wp_field {α : Type} {c : Option α} {Q : α → World → Prop} (h : Within env w₀ k t q w)
    (hQ : ∀ a w', c = some a → Within env w₀ (k + 1) t q w' → Q a w')
    (hE : ∀ e w', c = none ∨ ¬ env.Answers w₀ (k + 1) → InWork w₀ w' → E e w') :
    wp (field env c) Q E w := by
  refine wp_field_tick (fun a hc ht => ?_) fun e hn => ?_
  · rw [h.tick] at ht
    exact hQ a _ hc ⟨Env.answers_succ.2 ⟨h.answers, ht⟩, by simp only [h.tick, Nat.add_assoc], h.db, h.commits, h.txn,
      h.began, h.work, h.seqs⟩
  · rw [h.tick] at hn
    exact hE e _ (hn.imp_right (mt fun ha => (Env.answers_succ.1 ha).2)) h.inWork

/-- The conversion of a column that is not `NULL`. -/
theorem wp_field_some {α : Type} {a : α} {Q : α → World → Prop} (h : Within env w₀ k t q w)
    (hQ : ∀ w', Within env w₀ (k + 1) t q w' → Q a w')
    (hE : ∀ e w', ¬ env.Answers w₀ (k + 1) → InWork w₀ w' → E e w') : wp (field env (some a)) Q E w :=
  wp_field h (fun _ w' hb h' => Option.some.inj hb ▸ hQ w' h') fun e w' hn =>
    hE e w' (hn.resolve_left (Option.some_ne_none a))

/-- A conversion after the commit. -/
theorem wp_field_after {α : Type} {c : Option α} {Q : α → World → Prop} (h : Done env w₀ k t q w)
    (hQ : ∀ a w', c = some a → Done env w₀ (k + 1) t q w' → Q a w')
    (hE : ∀ e w', c = none ∨ ¬ env.Answers w₀ (k + 1) → Published w₀ w' t → w'.txn = .committed → E e w') :
    wp (field env c) Q E w := by
  refine wp_field_tick (fun a hc ht => ?_) fun e hn => ?_
  · rw [h.tick] at ht
    exact hQ a _ hc ⟨Env.answers_succ.2 ⟨h.answers, ht⟩, by simp only [h.tick, Nat.add_assoc], h.published, h.txn, h.seqs⟩
  · rw [h.tick] at hn
    exact hE e _ (hn.imp_right (mt fun ha => (Env.answers_succ.1 ha).2)) h.published h.txn

theorem returnConnection_takeBack {conn : ℕ} :
    wp (returnConnection conn) (fun _ w' => w' = { w with pool := w.pool.takeBack conn }) E w := by
  simp only [returnConnection, DbPool.takeBack, wp_modify]
  split
  · rfl
  · rfl

theorem wp_returnConnection {Q : Unit → World → Prop} {conn : ℕ}
    (hQ : ∀ pool, Q () { w with pool }) : wp (returnConnection conn) Q E w := by
  refine wp_mono (fun _ w' hw' => ?_) (fun _ _ h => h) returnConnection_takeBack
  rw [hw']
  exact hQ _

theorem wp_field_after_some {α : Type} {a : α} {Q : α → World → Prop} (h : Done env w₀ k t q w)
    (hQ : ∀ w', Done env w₀ (k + 1) t q w' → Q a w')
    (hE : ∀ e w', ¬ env.Answers w₀ (k + 1) → Published w₀ w' t → w'.txn = .committed → E e w') :
    wp (field env (some a)) Q E w :=
  wp_field_after h (fun _ w' hb h' => Option.some.inj hb ▸ hQ w' h') fun e w' hn =>
    hE e w' (hn.resolve_left (Option.some_ne_none a))

/-- The connection goes back after the commit. -/
theorem wp_returnConnection_after {Q : Unit → World → Prop} {conn : ℕ} (h : Done env w₀ k t q w)
    (hQ : ∀ w', Done env w₀ k t q w' → Q () w') : wp (returnConnection conn) Q E w :=
  wp_returnConnection fun _ => hQ _ ⟨h.answers, h.tick, h.published, h.txn, h.seqs⟩

theorem wp_abort {Q : Unit → World → Prop} (h : w.txn ≠ .committed)
    (hQ : Q () { w with txn := .aborted }) : wp abort Q E w := by
  simp only [abort, wp_bind, wp_get]
  cases ht : w.txn with
  | committed => exact absurd ht h
  | active => exact hQ
  | aborted => exact hQ

/-- A method that gives up publishes nothing. -/
theorem wp_giveUp {α : Type} {Q : α → World → Prop} {conn : ℕ} {a : α}
    (h : InWork w₀ w) (hQ : ∀ w', Unpublished w₀ w' → Q a w') :
    wp (giveUp conn a) Q E w := by
  rw [giveUp, wp_bind]
  refine wp_abort h.2 ?_
  rw [wp_bind]
  exact wp_returnConnection fun pool => hQ _ h.1

/-- After a commit a method that gives up throws instead. -/
theorem wp_giveUp_committed {α : Type} {Q : α → World → Prop} {conn : ℕ} {a : α}
    (h : w.txn = .committed) (hE : ∀ e, E e w) : wp (giveUp conn a) Q E w := by
  simp only [giveUp, abort, wp_bind, wp_get, h, wp_throw]
  exact hE _

end Spec

end Matching
end SocketCommunication
