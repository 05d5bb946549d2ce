/-
# The pool in a run of the server

One handler runs at a time, so between two events no connection is held by a method.  A
connection that is in use there was lost: its `BEGIN` has thrown, and nobody gives it
back.

* `pool_of_run`: in every run, whatever fails, the pool is exact for what was lost.  What
  is lost stays so, is never handed out again, and is what the pool grows by.
-/

import Mathlib.Logic.Relation
import SocketCommunication.Matching.Connections
import SocketCommunication.Matching.HandOut
import SocketCommunication.Matching.History

namespace SocketCommunication
namespace Matching

open Effect Connections

/-- The connections that were taken and have not come back. -/
def PoolCall.out : List PoolCall → List ℕ
  | [] => []
  | .taken conn :: calls => conn :: out calls
  | .returned conn :: calls => (out calls).erase conn

def DbPool.lost (p : DbPool) : List ℕ := PoolCall.out p.calls

/-! ### What a method does to the pool -/

/-- A method finds no connection, gives back the one it was handed, or loses it where a call
throws. -/
inductive DbPool.Visit (env : Env) (p : DbPool) : DbPool → Prop where
  | refused : Visit env p p
  | back {conn : ℕ} {q : DbPool} (h : p.Hands conn q) : Visit env p (q.takeBack conn)
  | lost {conn n : ℕ} {q : DbPool} (h : p.Hands conn q) (hthrows : env.throws n) : Visit env p q

/-- A method does that to the pool, whether it returns or throws. -/
def Visits (env : Env) (w w' : World) : Prop := DbPool.Visit env w.pool w'.pool

/-- **Every method of a repository visits the pool once**, and loses a connection only where
its `BEGIN` throws. -/
theorem RepositoryCall.visits {env : Env} (call : RepositoryCall) : Keeps (Visits env) (call.run env) := by
  intro w
  have hhands := w.pool.hands_handOut (env.closed w.tick)
  have hback : ∀ w' : World, w'.pool = w.pool.lent (env.closed w.tick) → Visits env w w' := by
    intro w' hw'
    rw [Visits, hw']
    exact .back hhands
  refine wp_mono (fun _ w' hlent => hback w' hlent.2) (fun _ w' hcases => ?_) (call.pool w)
  rcases hcases with hlent | hrefused | hlost
  · exact hback w' hlent.2
  · rw [Visits, hrefused.2]
    exact .refused
  · rw [Visits, hlost.2]
    exact .lost hhands hlost.1.2

/-! ### What a request does to the pool -/

section Requests

variable {env : Env} {R : World → World → Prop} [IsPreorder World R]

theorem countPlayers_keeps_of (h : ∀ roomId, Keeps R (RoomRepository.getPlayerCount env roomId)) :
    ∀ rooms listed : List Json, Keeps R (RoomService.countPlayers env rooms listed)
  | [], _ => keeps_pure _
  | _ :: rooms, _ => keeps_tryCatch
      (keeps_bind (keeps_orThrow _) fun _ => keeps_bind (h _) fun _ => countPlayers_keeps_of h rooms _) fun _ => keeps_pure _

/-- **What every method of a repository keeps, every request keeps.** -/
theorem Controller.keeps_of_calls (h : ∀ call : RepositoryCall, Keeps R (call.run env)) (type : ControllerType)
    (request : Json) : Keeps R (Controller.handleRequest env type request) := by
  cases type with
  | auth =>
    refine Controller.auth_keeps_of ⟨fun _ => ?_, fun _ _ => ?_, fun _ => ?_, fun _ _ => ?_⟩ request
    · exact keeps_map.1 (h (.findByUsername _))
    · exact keeps_map.1 (h (.create _ _))
    · exact keeps_map.1 (h (.updateLastLogin _))
    · exact keeps_map.1 (h (.updateUserNickName _ _))
  | room =>
    refine keeps_bind (keeps_orThrow _) fun _ => keeps_bind (keeps_orThrow _) fun action => ?_
    refine keeps_ite (fun _ => ?_) fun _ => keeps_ite (fun _ => ?_) fun _ => keeps_ite (fun _ => ?_) fun _ =>
      keeps_ite (fun _ => ?_) fun _ => keeps_pure _
    · refine keeps_tryCatch (keeps_ite (fun _ => keeps_pure _) fun _ => ?_) fun _ => keeps_pure _
      refine keeps_bind (keeps_orThrow _) fun _ => keeps_ite (fun _ => keeps_pure _) fun _ => ?_
      refine keeps_ite (fun _ => keeps_pure _) fun _ => keeps_bind (keeps_orThrow _) fun _ => ?_
      refine keeps_bind (keeps_orThrow _) fun _ => keeps_bind (keeps_map.1 (h (.createRoomWithHost _ _ _))) fun _ => ?_
      exact keeps_ite (fun _ => keeps_pure _) fun _ => keeps_pure _
    · refine keeps_tryCatch (keeps_ite (fun _ => keeps_pure _) fun _ => ?_) fun _ => keeps_pure _
      refine keeps_bind (keeps_orThrow _) fun _ => keeps_bind (keeps_orThrow _) fun _ => ?_
      refine keeps_bind (keeps_map.1 (h (.addPlayer _ _))) fun _ => ?_
      exact keeps_ite (fun _ => keeps_pure _) fun _ => keeps_pure _
    · refine keeps_tryCatch (keeps_ite (fun _ => keeps_pure _) fun _ => ?_) fun _ => keeps_pure _
      refine keeps_bind (keeps_orThrow _) fun _ => keeps_bind (keeps_map.1 (h (.removePlayer _))) fun _ => ?_
      exact keeps_ite (fun _ => keeps_pure _) fun _ => keeps_pure _
    · refine keeps_tryCatch (keeps_bind (keeps_map.1 (h .findAllOpen)) fun _ => ?_) fun _ => keeps_pure _
      exact countPlayers_keeps_of (fun roomId => keeps_map.1 (h (.getPlayerCount roomId))) _ _
  | game =>
    refine keeps_bind (keeps_orThrow _) fun _ => keeps_bind (keeps_orThrow _) fun action => ?_
    refine keeps_ite (fun _ => ?_) fun _ => keeps_ite (fun _ => ?_) fun _ => keeps_pure _
    · refine keeps_tryCatch (keeps_ite (fun _ => keeps_pure _) fun _ => ?_) fun _ => keeps_pure _
      refine keeps_bind (keeps_map.1 (h (.createGame _))) fun _ => ?_
      exact keeps_ite (fun _ => keeps_pure _) fun _ => keeps_pure _
    · refine keeps_tryCatch (keeps_ite (fun _ => keeps_pure _) fun _ => ?_) fun _ => keeps_pure _
      refine keeps_bind (keeps_orThrow _) fun _ => keeps_bind (keeps_map.1 (h (.endGame _))) fun _ => ?_
      exact keeps_ite (fun _ => keeps_pure _) fun _ => keeps_pure _

end Requests

/-! ### The pool of a run -/

section Runs

variable {env : Env} {p q : DbPool} {conn poolSize : ℕ}

/-- The pool is visited some times. -/
abbrev DbPool.Visited (env : Env) : DbPool → DbPool → Prop := Relation.ReflTransGen (DbPool.Visit env)

instance : IsPreorder World fun w w' => DbPool.Visited env w.pool w'.pool where
  refl _ := .refl
  trans _ _ _ h h' := h.trans h'

theorem serve_visited (w : World) (r : ControllerType × Json) : DbPool.Visited env w.pool (serve env w r).pool :=
  Keeps.after (Controller.keeps_of_calls (R := fun w w' => DbPool.Visited env w.pool w'.pool)
    (fun call => call.visits.mono fun _ _ h => .single h) r.1 r.2) w

namespace DbPool

theorem Hands.lost (h : p.Hands conn q) : q.lost = conn :: p.lost := by
  rw [DbPool.lost, h.calls]
  rfl

/-- What is handed out and given back is not lost. -/
theorem Hands.lost_takeBack (h : p.Hands conn q) : (q.takeBack conn).lost = p.lost := by
  rw [DbPool.lost, calls_takeBack h.mem, h.calls]
  exact List.erase_cons_head conn (PoolCall.out p.calls)

theorem Hands.length (h : p.Hands conn q) :
    q.connections.length = p.connections.length ∨
      q.connections.length = p.connections.length + 1 ∧ p.firstFree = none := by
  cases h with
  | found => exact .inl rfl
  | reconnected => exact .inl (List.length_set ..)
  | added hfull => exact .inr ⟨List.length_append, hfull⟩

/-- A pool that has grown to `poolSize` and one connection for each that was lost. -/
structure Lossy (poolSize : ℕ) (p : DbPool) : Prop where
  sound : p.Sound p.lost
  least : poolSize ≤ p.connections.length
  most : p.connections.length ≤ max poolSize (p.lost.length + 1)

/-- A pool grows when all its connections are lost. -/
theorem Lossy.hands (h : p.Lossy poolSize) (hq : p.Hands conn q) :
    poolSize ≤ q.connections.length ∧ q.connections.length ≤ max poolSize (p.lost.length + 1) := by
  have hleast := h.least
  have hmost := h.most
  rcases hq.length with hlen | ⟨hlen, hfull⟩
  · omega
  · have hheld := h.sound.exact.forall_mem (firstFree_none h.sound.exact.length hfull)
    have hle := (h.sound.exact.distinct.subperm hheld).length_le
    omega

theorem Visit.lossy (hq : Visit env p q) (h : p.Lossy poolSize) : q.Lossy poolSize := by
  cases hq with
  | refused => exact h
  | back hhands =>
    obtain ⟨hleast, hmost⟩ := h.hands hhands
    refine ⟨?_, ?_, ?_⟩
    · rw [hhands.lost_takeBack]
      exact (h.sound.hands hhands).takeBack
    · rwa [length_takeBack]
    · rwa [length_takeBack, hhands.lost_takeBack]
  | lost hhands hthrows =>
    obtain ⟨hleast, hmost⟩ := h.hands hhands
    refine ⟨?_, hleast, ?_⟩
    · rw [hhands.lost]
      exact h.sound.hands hhands
    · rw [hhands.lost, List.length_cons]
      omega

/-- What is lost stays lost. -/
theorem Visit.suffix (hq : Visit env p q) : p.lost <:+ q.lost := by
  cases hq with
  | refused => exact List.suffix_refl _
  | back hhands => rw [hhands.lost_takeBack]
  | lost hhands => rw [hhands.lost]; exact List.suffix_cons _ _

theorem Visit.lost_eq (hs : env.Steady) (hq : Visit env p q) : q.lost = p.lost := by
  cases hq with
  | refused => rfl
  | back hhands => exact hhands.lost_takeBack
  | lost hhands hthrows =>
    rw [hs _] at hthrows
    cases hthrows

theorem Visited.lossy (hq : Visited env p q) (h : p.Lossy poolSize) : q.Lossy poolSize := by
  induction hq with
  | refl => exact h
  | tail _ hvisit ih => exact hvisit.lossy ih

theorem Visited.suffix (hq : Visited env p q) : p.lost <:+ q.lost := by
  induction hq with
  | refl => exact List.suffix_refl _
  | tail _ hvisit ih => exact ih.trans hvisit.suffix

theorem Visited.lost_eq (hs : env.Steady) (hq : Visited env p q) : q.lost = p.lost := by
  induction hq with
  | refl => rfl
  | tail _ hvisit ih => exact (hvisit.lost_eq hs).trans ih

theorem lossy_of_construct {fails : ℕ → Bool} (h : construct fails poolSize = some p) : p.Lossy poolSize := by
  have hp := construct_eq h
  have hlost : p.lost = [] := by rw [hp]; rfl
  have hlen : p.connections.length = poolSize := by rw [hp]; exact List.length_range
  refine ⟨hlost ▸ sound_of_construct h, hlen.ge, ?_⟩
  rw [hlen]
  exact le_max_left _ _

end DbPool

namespace Server

theorem run_visited {s : Server} (hs : s.Sane) (es : List Event) :
    DbPool.Visited env s.world.pool (es.foldl (Server.step env) s).world.pool := by
  obtain ⟨rs, -, hw⟩ := run_serves env hs es
  rw [hw]
  exact Run.foldl_inv (I := fun w : World => DbPool.Visited env s.world.pool w.pool)
    (fun w r h => h.trans (serve_visited w r)) rs .refl

/-- **The pool of a run.**  Whatever fails, after every event exactly the connections are in use
that were lost, of which each was handed out once; what is lost stays lost, and the pool has
grown to its first size or, where all of that was lost, by one connection more than was lost.
Where no call fails nothing is lost. -/
theorem pool_of_run (env : Env) {s : Server} (hs : s.Init) {fails : ℕ → Bool} {poolSize : ℕ}
    (hpool : DbPool.construct fails poolSize = some s.world.pool) (es es' : List Event) :
    let p := (es.foldl (Server.step env) s).world.pool
    let q := ((es ++ es').foldl (Server.step env) s).world.pool
    q.Sound q.lost ∧ p.lost <:+ q.lost ∧ poolSize ≤ q.connections.length ∧
      q.connections.length ≤ max poolSize (q.lost.length + 1) ∧ (env.Steady → q.lost = []) := by
  intro p q
  have hlossy := DbPool.lossy_of_construct hpool
  have hvisited : DbPool.Visited env s.world.pool q := run_visited hs.sane (es ++ es')
  have hlater : DbPool.Visited env p q := by
    have hsane : (es.foldl (Server.step env) s).Sane := Run.foldl_inv (I := Server.Sane) (fun _ e h => step_sane h e) es hs.sane
    have hrun : DbPool.Visited env p (es'.foldl (Server.step env) (es.foldl (Server.step env) s)).world.pool :=
      run_visited hsane es'
    rwa [← List.foldl_append] at hrun
  have hq := hvisited.lossy hlossy
  refine ⟨hq.sound, hlater.suffix, hq.least, hq.most, fun hsteady => ?_⟩
  rw [hvisited.lost_eq hsteady, DbPool.lost, DbPool.construct_eq hpool]
  rfl

/-- The first `BEGIN` throws, and the first of twenty connections is lost. -/
theorem pool_hostRun :
    let env := { Env.reliable with throws := (· = 1) }
    (hostRun.foldl (Server.step env) init).world.pool.lost = [0] ∧
      (hostRun.foldl (Server.step env) init).world.pool.Sound (hostRun.foldl (Server.step env) init).world.pool.lost :=
  ⟨by decide +kernel, (@pool_of_run { Env.reliable with throws := (· = 1) } init init_init (fun _ => false) 20
    (by decide) hostRun []).1⟩

end Server

end Runs

end Matching
end SocketCommunication
