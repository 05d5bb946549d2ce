/-
# Who holds which connection of the game socket server

The `DbPool` of this server is that of the matching server, and makes the same desk.  At
both a connection that is held is handed out to nobody else, and the pool grows only
where all are held (`handOut_kept`).

Growth of the two vectors themselves is taken to succeed: what may throw is the attempt
to connect.
-/

import SocketCommunication.GameSocket.Pool
import SocketCommunication.Matching.HandOut

namespace SocketCommunication
namespace GameSocket

open Effect Matching

/-- The constructor makes the fresh pool, if it makes one. -/
theorem freshPool_of_construct {fails : ℕ → Bool} {poolSize : ℕ} {p : DbPool}
    (h : DbPool.construct fails poolSize = some p) : p = freshPool poolSize :=
  DbPool.construct_eq h

/-- The calls of the game socket server. -/
def poolCalls (env : Env) : PoolCalls Failure World where
  pool := World.pool
  getConnection := getConnection env
  returnConnection := returnConnection
  hands w := wp_mono (fun _ _ h => h.2) (fun _ _ h => h.2) (getConnection_hands w)
  takesBack conn w := by
    simp only [returnConnection, DbPool.takeBack, wp_modify]
    cases w.pool.connections.findIdx? (· = conn) with
    | some i => rfl
    | none => rfl

/-- **The discipline of `DbPool`.**  Callers that return only what they hold, once, find the
pool of either server as it should be, after any calls of theirs. -/
theorem handOut_kept {fails : ℕ → Bool} {poolSize : ℕ} {p : DbPool} (hp : DbPool.construct fails poolSize = some p)
    (es : List PoolEvent) :
    (∀ (env : Matching.Env) (w : Matching.World),
      Run.Along (Matching.poolCalls env).step (fun d e => e.Fair d) ⟨{ w with pool := p }, []⟩ es →
        Run.Throughout (Matching.poolCalls env).step (Matching.poolCalls env).Kept ⟨{ w with pool := p }, []⟩ es) ∧
    ∀ (env : Env) (w : World),
      Run.Along (poolCalls env).step (fun d e => e.Fair d) ⟨{ w with pool := p }, []⟩ es →
        Run.Throughout (poolCalls env).step (poolCalls env).Kept ⟨{ w with pool := p }, []⟩ es := by
  have hsound := DbPool.sound_of_construct hp
  exact ⟨fun _ _ => PoolCalls.kept_throughout hsound, fun _ _ => PoolCalls.kept_throughout hsound⟩

/-- Two callers at a pool of one connection, which was closed; a third is refused, and
served when the first has returned what it had. -/
def threeCallers : List PoolEvent :=
  [.getConnection 1, .getConnection 2, .getConnection 3, .returnConnection 1 1, .getConnection 3]

/-- The first connection is made again, the second is added, and the third call fails. -/
theorem handOut_kept_threeCallers :
    Run.Throughout (Matching.poolCalls { Matching.Env.reliable with closed := (· = 0), throws := (· = 2) }).step
      (Matching.poolCalls { Matching.Env.reliable with closed := (· = 0), throws := (· = 2) }).Kept
      ⟨{ Matching.World.init with pool := ⟨[0], [false], 1, []⟩ }, []⟩ threeCallers ∧
    Run.Throughout (poolCalls { AuthApi.reliable with
        closed := (· = 0), fails := fun n => if n = 2 then some (.exception "") else none }).step
      (poolCalls { AuthApi.reliable with
        closed := (· = 0), fails := fun n => if n = 2 then some (.exception "") else none }).Kept
      ⟨{ AuthApi.start with pool := ⟨[0], [false], 1, []⟩ }, []⟩ threeCallers := by
  have hp : DbPool.construct (fun _ => false) 1 = some ⟨[0], [false], 1, []⟩ := by decide
  exact ⟨(handOut_kept hp threeCallers).1 _ _ (by decide +kernel), (handOut_kept hp threeCallers).2 _ _ (by decide +kernel)⟩

end GameSocket
end SocketCommunication
