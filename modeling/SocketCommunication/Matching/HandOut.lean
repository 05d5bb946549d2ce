/-
# Who holds which connection

`DbPool` keeps its connections in one vector and in a second one which of them are in
use.  A desk is a server with its pool, beside a list of who holds what, which no code
keeps: a caller of `get_connection` holds what it is given until it gives it back.

Callers are fair when they return only what they hold.  At a desk of fair callers the two
vectors are exact for what is held, whatever fails (`PoolCalls.kept_throughout`).  The two
servers have their `DbPool` in common, not the world that its calls fail in, so the desk
is over any calls that do to the pool what `DbPool` does.

A connection is known by its number, as by the address of a `shared_ptr`: what is held or
in the pool is alive, so a new connection has another address.
-/

import SocketCommunication.Lib.Lending
import SocketCommunication.Lib.Run
import SocketCommunication.Matching.Database

namespace SocketCommunication
namespace Matching

open Effect

/-! ### The two vectors -/

namespace DbPool

/-- The vectors are exact for what is held, and the next connection is a new one. -/
structure Sound (p : DbPool) (held : List ℕ) : Prop where
  exact : Lending.Exact p.connections p.inUse held
  made : ∀ conn ∈ p.connections, conn < p.made

/-- The constructor: `poolSize` connections are made one after another, and the exception
of one that cannot be made leaves it. -/
def construct (fails : ℕ → Bool) : ℕ → Option DbPool
  | 0 => some ⟨[], [], 0, []⟩
  | i + 1 => do
    let p ← construct fails i
    if fails i then none
    else return { p with connections := p.connections ++ [p.made], inUse := p.inUse ++ [false], made := p.made + 1 }

variable {p q : DbPool} {held : List ℕ} {conn : ℕ}

/-- A pool that is made has `poolSize` connections, and none is in use. -/
theorem construct_eq {fails : ℕ → Bool} {poolSize : ℕ} (h : construct fails poolSize = some p) :
    p = ⟨List.range poolSize, List.replicate poolSize false, poolSize, []⟩ := by
  induction poolSize generalizing p with
  | zero => exact (Option.some.inj h).symm
  | succ i ih =>
    rw [construct] at h
    obtain ⟨p₀, h₀, hp⟩ := Option.bind_eq_some_iff.1 h
    cases ih h₀
    split_ifs at hp
    rw [← Option.some.inj hp, List.range_succ, List.replicate_succ']

theorem sound_of_construct {fails : ℕ → Bool} {poolSize : ℕ} (h : construct fails poolSize = some p) : p.Sound [] := by
  rw [construct_eq h]
  have hexact := Lending.exact_replicate (List.nodup_range (n := poolSize))
  rw [List.length_range] at hexact
  exact ⟨hexact, fun conn hconn => List.mem_range.1 hconn⟩

theorem Sound.fresh (h : p.Sound held) : p.made ∉ p.connections := fun hmem => absurd (h.made _ hmem) (lt_irrefl _)

/-- **What is handed out was free.** -/
theorem Sound.hands (h : p.Sound held) (hq : p.Hands conn q) : q.Sound (conn :: held) := by
  cases hq with
  | found i hi => exact ⟨h.exact.lend (firstFree_slot hi) (firstFree_free hi), h.made⟩
  | reconnected i hi =>
    have hlt := (List.getElem?_eq_some_iff.1 (firstFree_slot hi)).1
    have hput := h.exact.replace (firstFree_slot hi) (firstFree_free hi) h.fresh
    refine ⟨hput.lend (List.getElem?_set_self hlt) (firstFree_free hi), fun c hc => ?_⟩
    rcases List.mem_or_eq_of_mem_set hc with hc | rfl
    · exact Nat.lt_succ_of_lt (h.made c hc)
    · exact Nat.lt_succ_self _
  | added =>
    refine ⟨h.exact.add h.fresh, fun c hc => ?_⟩
    rcases List.mem_append.1 hc with hc | hc
    · exact Nat.lt_succ_of_lt (h.made c hc)
    · rw [List.mem_singleton.1 hc]
      exact Nat.lt_succ_self _

/-- **What is given back is free.** -/
theorem Sound.takeBack (h : p.Sound (conn :: held)) : (p.takeBack conn).Sound held := by
  unfold DbPool.takeBack
  split
  next i hi =>
    obtain ⟨hlt, heq, -⟩ := List.findIdx?_eq_some_iff_getElem.1 hi
    have hslot : p.connections[i]? = some conn := by
      rw [List.getElem?_eq_getElem hlt, of_decide_eq_true heq]
    exact ⟨h.exact.takeBack hslot, h.made⟩
  next hnone =>
    have hmem := h.exact.mem conn List.mem_cons_self
    exact absurd (List.findIdx?_eq_none_iff.1 hnone conn hmem) (by simp)

/-- A pool grows where no connection is free. -/
theorem Hands.full (hq : p.Hands conn q) (hgrows : p.connections.length < q.connections.length) : p.firstFree = none := by
  cases hq with
  | found => exact absurd hgrows (lt_irrefl _)
  | reconnected => exact absurd hgrows (by simp [note, replace, setInUse])
  | added hfull => exact hfull

theorem length_takeBack : (p.takeBack conn).connections.length = p.connections.length := by
  unfold DbPool.takeBack
  split
  · rfl
  · rfl

end DbPool

/-! ### A desk -/

/-- A call of somebody on the pool. -/
inductive PoolEvent where
  | getConnection (caller : ℕ)
  | returnConnection (caller conn : ℕ)

/-- A server's two calls on its `DbPool`, which do to the pool what `DbPool` does. -/
structure PoolCalls (ε σ : Type) where
  pool : σ → DbPool
  getConnection : EStateM ε σ ℕ
  returnConnection : ℕ → EStateM ε σ Unit
  hands : ∀ s, wp getConnection (fun conn t => (pool s).Hands conn (pool t)) (fun _ t => pool t = pool s) s
  takesBack : ∀ conn s, wp (returnConnection conn) (fun _ t => pool t = (pool s).takeBack conn) (fun _ _ => False) s

/-- A server, and who holds which connection. -/
structure Desk (σ : Type) where
  server : σ
  /-- Callers and their connections. -/
  held : List (ℕ × ℕ)

/-- The connections held. -/
def Desk.out {σ : Type} (d : Desk σ) : List ℕ := d.held.map Prod.snd

/-- Callers return what they hold. -/
def PoolEvent.Fair {σ : Type} (d : Desk σ) : PoolEvent → Prop
  | getConnection _ => True
  | returnConnection caller conn => (caller, conn) ∈ d.held

instance {σ : Type} (d : Desk σ) : ∀ e : PoolEvent, Decidable (e.Fair d)
  | .getConnection _ => inferInstanceAs (Decidable True)
  | .returnConnection caller conn => inferInstanceAs (Decidable ((caller, conn) ∈ d.held))

namespace PoolCalls

variable {ε σ : Type} (c : PoolCalls ε σ)

/-- A caller that `get_connection` throws to holds nothing more. -/
def step (d : Desk σ) : PoolEvent → Desk σ
  | .getConnection caller =>
    match c.getConnection d.server with
    | .ok conn s => ⟨s, (caller, conn) :: d.held⟩
    | .error _ s => ⟨s, d.held⟩
  | .returnConnection caller conn => ⟨after (c.returnConnection conn) d.server, d.held.erase (caller, conn)⟩

/-- The discipline of a pool: how it is, and what the next call will do. -/
structure Kept (d : Desk σ) : Prop where
  exact : Lending.Exact (c.pool d.server).connections (c.pool d.server).inUse d.out
  unheld : ∀ conn s, c.getConnection d.server = .ok conn s → ∀ caller, (caller, conn) ∉ d.held
  grows : ∀ e, (c.pool d.server).connections.length < (c.pool (c.step d e).server).connections.length →
    ∀ conn ∈ (c.pool d.server).connections, ∃ caller, (caller, conn) ∈ d.held
  throws : ∀ ex s, c.getConnection d.server = .error ex s →
    (c.pool s).connections = (c.pool d.server).connections ∧ (c.pool s).inUse = (c.pool d.server).inUse

variable {c}

theorem mem_out {d : Desk σ} {conn : ℕ} : conn ∈ d.out ↔ ∃ caller, (caller, conn) ∈ d.held := by
  simp [Desk.out]

theorem hands_of_ok {s t : σ} {conn : ℕ} (hget : c.getConnection s = .ok conn t) : (c.pool s).Hands conn (c.pool t) := by
  have hhands := wp_ok (c.hands s) hget
  exact hhands

theorem pool_of_error {s t : σ} {ex : ε} (hget : c.getConnection s = .error ex t) : c.pool t = c.pool s := by
  have hpool := wp_error (c.hands s) hget
  exact hpool

/-- What a call does to the pool and to what is held. -/
theorem step_cases (d : Desk σ) (e : PoolEvent) :
    (∃ caller conn, e = .getConnection caller ∧ (c.step d e).held = (caller, conn) :: d.held ∧
      (c.pool d.server).Hands conn (c.pool (c.step d e).server)) ∨
    (∃ caller, e = .getConnection caller ∧ (c.step d e).held = d.held ∧
      c.pool (c.step d e).server = c.pool d.server) ∨
    ∃ caller conn, e = .returnConnection caller conn ∧ (c.step d e).held = d.held.erase (caller, conn) ∧
      c.pool (c.step d e).server = (c.pool d.server).takeBack conn := by
  cases e with
  | getConnection caller =>
    cases hget : c.getConnection d.server with
    | ok conn s =>
      refine .inl ⟨caller, conn, rfl, ?_, ?_⟩
      · simp only [step, hget]
      · simp only [step, hget]
        exact hands_of_ok hget
    | error ex s =>
      refine .inr (.inl ⟨caller, rfl, ?_, ?_⟩)
      · simp only [step, hget]
      · simp only [step, hget]
        exact pool_of_error hget
  | returnConnection caller conn =>
    refine .inr (.inr ⟨caller, conn, rfl, rfl, ?_⟩)
    have hback : wp (c.returnConnection conn) (fun _ t => c.pool t = (c.pool d.server).takeBack conn)
        (fun _ t => c.pool t = (c.pool d.server).takeBack conn) d.server :=
      wp_mono (fun _ _ h => h) (fun _ _ h => h.elim) (c.takesBack conn d.server)
    exact wp_iff_after.1 hback

/-- **A fair call keeps the pool sound.** -/
theorem sound_step {d : Desk σ} {e : PoolEvent} (h : (c.pool d.server).Sound d.out) (hfair : e.Fair d) :
    (c.pool (c.step d e).server).Sound (c.step d e).out := by
  obtain ⟨caller, conn, rfl, hheld, hq⟩ | ⟨caller, rfl, hheld, hq⟩ | ⟨caller, conn, rfl, hheld, hq⟩ :=
    step_cases (c := c) d e
  · rw [Desk.out, hheld]
    exact h.hands hq
  · rw [Desk.out, hheld, hq]
    exact h
  · have hperm : d.out.Perm (conn :: (d.held.erase (caller, conn)).map Prod.snd) :=
      (List.perm_cons_erase hfair).map Prod.snd
    have hsound : (c.pool d.server).Sound (conn :: (d.held.erase (caller, conn)).map Prod.snd) :=
      ⟨h.exact.perm hperm, h.made⟩
    rw [Desk.out, hheld, hq]
    exact hsound.takeBack

/-- **A sound pool is disciplined.** -/
theorem kept_of_sound {d : Desk σ} (h : (c.pool d.server).Sound d.out) : c.Kept d where
  exact := h.exact
  unheld conn s hget caller hmem := by
    have hsingle := (h.hands (hands_of_ok hget)).exact.single
    exact (List.nodup_cons.1 hsingle).1 (mem_out.2 ⟨caller, hmem⟩)
  grows e hgrows conn hconn := by
    obtain ⟨_, _, rfl, -, hq⟩ | ⟨_, rfl, -, hq⟩ | ⟨_, _, rfl, -, hq⟩ := step_cases (c := c) d e
    · have hfull := DbPool.firstFree_none h.exact.length (hq.full hgrows)
      exact mem_out.1 (h.exact.forall_mem hfull conn hconn)
    · rw [hq] at hgrows
      exact absurd hgrows (lt_irrefl _)
    · rw [hq, DbPool.length_takeBack] at hgrows
      exact absurd hgrows (lt_irrefl _)
  throws ex s hget := by
    rw [pool_of_error hget]
    exact ⟨rfl, rfl⟩

/-- **At a desk of fair callers the pool is disciplined throughout.** -/
theorem kept_throughout {d : Desk σ} {es : List PoolEvent} (h : (c.pool d.server).Sound d.out)
    (hfair : Run.Along c.step (fun d e => e.Fair d) d es) : Run.Throughout c.step c.Kept d es :=
  (Run.throughout_of_along (I := fun d => (c.pool d.server).Sound d.out) (fun _ _ => sound_step) h hfair).mono
    fun _ => kept_of_sound

end PoolCalls

/-- The calls of the matching server. -/
def poolCalls (env : Env) : PoolCalls Exn World where
  pool := World.pool
  getConnection := getConnection env
  returnConnection := returnConnection
  hands _ := wp_getConnection (fun _ => DbPool.hands_handOut _ _) fun _ _ => rfl
  takesBack conn w := by
    refine wp_mono (fun _ w' hw' => ?_) (fun _ _ h => h) (returnConnection_takeBack (w := w))
    rw [hw']

end Matching
end SocketCommunication
