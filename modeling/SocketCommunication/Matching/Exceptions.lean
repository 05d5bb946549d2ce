/-
# Exceptions out of handlers

`io_context::run` calls the handlers; an exception that leaves one of them unwinds
it and ends the process.  The handlers of `Session` catch what they call, up to the
`catch` block of `process_request`, whose own exception the block around it catches
(`complete_completed`), and the timers and `stop` call nothing that throws.

The handler of `async_accept` has no such block, and the constructor of `Session`
asks for the address of a peer that may be gone.
-/

import SocketCommunication.Matching.Registry

namespace SocketCommunication
namespace Matching

open Effect

namespace Server

/-- The handler of `async_accept`: whether `do_accept` was called again.  For a
peer that is gone `remote_endpoint` throws. -/
def doAccept (remoteIp : Option String) (mirrorPort : ℤ) : ServerM Bool := do
  match remoteIp with
  | none => throw ⟨"remote_endpoint: Transport endpoint is not connected"⟩
  | some remoteIp =>
    modify (accept remoteIp mirrorPort)
    let s ← get
    return s.running

/-- The handler of the `i`-th pending operation of `sid`, if it may complete so. -/
def completion (env : Env) (s : Server) (sid i : ℕ) (result : Session.Completion) : ServerM Unit :=
  match s.completed sid i with
  | some p =>
    onlyIf (canComplete p result) do
      modify (take sid i)
      Session.complete env sid p.op result
  | none => return ()

/-- The handler that an event runs in the server `s`, and whether the acceptor
waits after it; only the handler of `async_accept` has to see to that. -/
def handler (env : Env) (s : Server) : Event → ServerM Bool
  | .accept remoteIp mirrorPort => if s.running then doAccept remoteIp mirrorPort else return true
  | .complete sid i result => do
    completion env s sid i result
    return true
  | .sessionCheck => do
    checkInactiveSessions env
    return true
  | .broadcast => do
    onlyIf s.running (broadcastCCU env)
    return true
  | .tick nanoseconds => do
    modify fun s => { s with clock := s.clock + nanoseconds }
    return true
  | .signal => do
    stop env
    return true

/-- What follows the handler: a session that nothing holds is destroyed, a signal
ends the process. -/
def settle (s : Server) : Event → Server → Server
  | .complete sid i result, t => if (s.completed sid i).any (canComplete · result) then t.reap sid else t
  | .signal, t => if s.running then t.halt else t
  | .accept .., t | .sessionCheck, t | .broadcast, t | .tick _, t => t

/-- No exception leaves the handler, and a server that runs has a waiting acceptor. -/
def Unharmed (env : Env) (s : Server) (e : Event) : Prop :=
  wp (handler env s e) (fun armed t => t.running → armed) (fun _ _ => False) s

/-- A connection is accepted whose peer is gone. -/
def PeerGone (s : Server) : Event → Prop
  | .accept none _ => s.running
  | _ => False

instance (s : Server) : ∀ e, Decidable (s.PeerGone e)
  | .accept none _ => inferInstanceAs (Decidable (s.running = true))
  | .accept (some _) _ | .complete .. | .sessionCheck | .broadcast | .tick _ | .signal =>
    inferInstanceAs (Decidable False)

section Handlers

variable {env : Env} {s : Server}

theorem run_andThen (c : ServerM Unit) (b : Bool) :
    run (Functor.discard (do c; return b)) s = run c s := by
  change run (EStateM.map (fun _ : Bool => ()) (EStateM.bind c fun _ => (EStateM.pure b : ServerM Bool))) s = _
  unfold run EStateM.map EStateM.bind
  cases c s <;> rfl

/-- **A step runs the handler of its event.** -/
theorem step_handler (e : Event) : step env s e = settle s e (run (Functor.discard (handler env s e)) s) := by
  cases e with
  | accept remoteIp mirrorPort =>
    by_cases hrunning : s.running
    · cases remoteIp <;> simp only [step, handler, settle, hrunning, if_true] <;> rfl
    · cases remoteIp <;> simp only [step, handler, settle, hrunning, if_false, Bool.false_eq_true] <;> rfl
  | complete sid i result =>
    rw [handler, run_andThen, completion, step, settle]
    cases s.completed sid i with
    | none => rfl
    | some p =>
      by_cases hcan : canComplete p result
      · simp only [hcan, if_true, Option.any_some, onlyIf]
        rfl
      · simp only [hcan, if_false, Option.any_some, onlyIf, Bool.false_eq_true]
        rfl
  | sessionCheck => exact (run_andThen _ _).symm
  | broadcast =>
    rw [handler, run_andThen, step, settle, onlyIf]
    split_ifs <;> rfl
  | tick => rfl
  | signal =>
    rw [handler, run_andThen, step, settle]
    by_cases hrunning : s.running
    · simp only [hrunning, if_true]
    · have hstop : stop env s = .ok () s := by
        simp only [stop]
        change (if s.running then _ else pure () : ServerM Unit) s = _
        rw [if_neg hrunning]
        rfl
      simp only [hrunning, if_false, Bool.false_eq_true, run, hstop]

theorem stop_returns : wp (stop env) (fun _ _ => True) (fun _ _ => False) s := by
  simp only [stop, wp_bind, wp_get, wp_onlyIf, wp_set, wp_modify]
  exact ⟨fun _ => wp_endSessions (I := fun _ => True) _ _ trivial fun _ _ _ _ _ _ => trivial, fun _ => trivial⟩

/-- **Exactly the address of a peer that is gone is an exception that leaves a handler.** -/
theorem unharmed_iff_here (hs : s.Sane) (e : Event) : s.Unharmed env e ↔ ¬ s.PeerGone e := by
  have hthen : ∀ {c : ServerM Unit}, wp c (fun _ _ => True) (fun _ _ => False) s →
      wp (do c; return true) (fun (armed : Bool) (t : Server) => t.running → armed) (fun _ _ => False) s := by
    intro c hc
    rw [wp_bind]
    exact wp_mono (fun _ _ _ _ => rfl) (fun _ _ h => h) hc
  cases e with
  | accept remoteIp mirrorPort =>
    by_cases hrunning : s.running
    · cases remoteIp with
      | none => simp [Unharmed, handler, doAccept, PeerGone, hrunning]
      | some remoteIp => simp [Unharmed, handler, doAccept, PeerGone, hrunning]
    · cases remoteIp <;> simp [Unharmed, handler, PeerGone, hrunning]
  | complete sid i result =>
    refine iff_of_true (hthen ?_) id
    unfold completion
    cases hp : s.completed sid i with
    | none => trivial
    | some p =>
      simp only [wp_onlyIf, wp_bind, wp_modify]
      refine ⟨fun hcan => ?_, fun _ => trivial⟩
      obtain ⟨x, hx, hi⟩ := completed_eq_some.1 hp
      have hfresh : p.op = .readHandshake → x.userId = 0 := hs.fresh hx hi
      exact wp_mono (fun _ _ _ => trivial) (fun _ _ h => h) (complete_completed (get?_take hx i) hfresh)
  | sessionCheck => exact iff_of_true (hthen (wp_mono (fun _ _ _ => trivial) (fun _ _ h => h) checkInactiveSessions_edits)) id
  | broadcast => exact iff_of_true (hthen ((wp_onlyIf _ _).2 ⟨fun _ => trivial, fun _ => trivial⟩)) id
  | tick => exact iff_of_true (hthen trivial) id
  | signal => exact iff_of_true (hthen stop_returns) id

/-- **No exception ends a run just when every peer is there when its connection is accepted.** -/
theorem unharmed_iff (h : Init s) (es : List Event) :
    Run.Along (step env) (Unharmed env) s es ↔ Run.Along (step env) (fun s e => ¬ s.PeerGone e) s es :=
  Run.along_congr (I := Sane) (fun _ e hs => step_sane hs e) (fun _ e hs => unharmed_iff_here hs e) h.sane es

/-- A client connects and is answered. -/
theorem unharmed_connects : Run.Along (step .reliable) (Unharmed .reliable) init (connects 0 "192.0.2.1") :=
  (unharmed_iff init_init (connects 0 "192.0.2.1")).2 (by decide +kernel)

/-- A peer resets its connection before the accept handler runs. -/
theorem not_unharmed_reset : ¬ Run.Along (step .reliable) (Unharmed .reliable) init [.accept none 0] := fun h => h.1

end Handlers

end Server

end Matching
end SocketCommunication
