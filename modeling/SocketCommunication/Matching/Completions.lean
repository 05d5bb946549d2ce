/-
# What a step does

`Completed` lists what the handler of a pending operation leaves, operation by
operation; no exception leaves a handler (`complete_completed`).  A step that
completes an operation runs the handler and destroys the session when nothing
holds it any more (`step_completed`).

`Stepped` lists what a step does, event by event (`step_stepped`).  The invariants
of registries and sockets are proved by its cases.
-/

import SocketCommunication.Matching.Events
import SocketCommunication.Matching.Handshakes

namespace SocketCommunication
namespace Matching

open Effect

/-- What a message starts. -/
def Heard (env : Env) (s : Server) (sid : ℕ) (sess : Session) : Option Json → Starts → Prop
  | none => Answers sid none
  | some request => Asked env s sid sess request

/-- What the handler of an operation of `sid` leaves. -/
inductive Completed (env : Env) (s : Server) (sid : ℕ) (sess : Session) : Op → Session.Completion → Server → Prop
  | failed {op : Op} : Completed env s sid sess op .error (s.ended env sid sess)
  | greeted {data : Option Json} {t : Server} (h : Greets env s sid sess data t) :
      Completed env s sid sess .readHandshake (.ok data) t
  | heard {data : Option Json} {l : Starts} {t : Server} (h : Edits env s l t) (hl : Heard env s sid sess data l) :
      Completed env s sid sess .readMessage (.ok data) t
  | welcomed {response : Json} {data : Option Json} :
      Completed env s sid sess (.writeHandshake response) (.ok data) (Server.start sid .readMessage s)
  | answered {response : Json} {data : Option Json} :
      Completed env s sid sess (.writeResponse response) (.ok data) (Server.start sid .readMessage s)
  | notified {response : Json} {data : Option Json} :
      Completed env s sid sess (.writeMirror response) (.ok data) (Server.start sid .readMessage s)
  | broadcast {response : Json} {data : Option Json} :
      Completed env s sid sess (.writeBroadcast response) (.ok data) s

section Completions

variable {env : Env} {s : Server} {sid : ℕ} {sess : Session}

/-- The handler of a message. -/
theorem readMessage_heard (hs : s.get? sid = some sess) (data : Option Json) :
    wp (Session.readMessage env sid data) (fun _ t => ∃ l, Edits env s l t ∧ Heard env s sid sess data l)
      (fun _ _ => False) s := by
  have hwrite : ∀ j, wp (Session.writeResponse sid j) (fun _ t => ∃ l, Edits env s l t ∧ Answers sid none l)
      (fun _ _ => False) s := fun j =>
    wp_mono (fun _ _ => answers_of_written) (fun _ _ h => h) (writeResponse_edits .refl (Option.isSome_of_mem hs) j)
  simp only [Session.readMessage, wp_tryCatch]
  cases data with
  | none => exact hwrite _
  | some request =>
    refine wp_mono (fun _ _ h => h) (fun _ t ht => ?_) (processRequest_edits hs)
    obtain ⟨rfl, hstr⟩ := ht
    exact wp_mono (fun _ _ h => h.imp fun l hl => ⟨hl.1, asked_of_misnamed hstr hl.2⟩) (fun _ _ h => h) (hwrite _)

/-- **What the handler of an operation leaves.** -/
theorem complete_completed {op : Op} {result : Session.Completion} (hs : s.get? sid = some sess)
    (hfresh : op = .readHandshake → sess.userId = 0) :
    wp (Session.complete env sid op result) (fun _ t => Completed env s sid sess op result t) (fun _ _ => False) s := by
  cases result with
  | error =>
    have herror : wp (Session.handleError env sid) (fun _ t => Completed env s sid sess op .error t)
        (fun _ _ => False) s := wp_handleError hs .failed
    cases op <;> exact herror
  | ok data =>
    cases op with
    | readHandshake =>
      exact wp_mono (fun _ _ h => .greeted h) (fun _ _ h => h) (readHandshake_greets hs (hfresh rfl) data)
    | readMessage => exact wp_mono (fun _ _ ⟨l, h, hl⟩ => .heard h hl) (fun _ _ h => h) (readMessage_heard hs data)
    | writeHandshake => exact .welcomed
    | writeResponse => exact .answered
    | writeMirror => exact .notified
    | writeBroadcast => exact .broadcast

/-- A session whose first message is still to be read has no user. -/
theorem Server.Sane.fresh (hsane : s.Sane) {i : ℕ} {p : PendingOp} (hs : s.get? sid = some sess)
    (hp : sess.pending[i]? = some p) (hop : p.op = .readHandshake) : sess.userId = 0 := by
  obtain ⟨-, -, hid⟩ := (hsane.session sid sess hs).fresh fun hg => hg p (List.mem_of_getElem? hp) hop
  exact congrArg Identity.userId hid

/-- **A step that completes an operation** runs its handler in the server without
the operation, and destroys the session if nothing holds it after that. -/
theorem step_completed {i : ℕ} {p : PendingOp} {result : Session.Completion} (hsane : s.Sane)
    (hs : s.get? sid = some sess) (hp : sess.pending[i]? = some p) (hcan : Server.canComplete p result) :
    ∃ t, Completed env (s.take sid i) sid { sess with pending := sess.pending.eraseIdx i } p.op result t ∧
      Server.step env s (.complete sid i result) = t.reap sid := by
  have hfresh : p.op = .readHandshake → sess.userId = 0 := hsane.fresh hs hp
  obtain ⟨_, t, ht, h⟩ := wp_returns (@complete_completed env _ sid _ p.op result (Server.get?_take hs i) hfresh)
  refine ⟨t, h, ?_⟩
  have hcompleted : s.completed sid i = some p := Server.completed_eq_some.2 ⟨sess, hs, hp⟩
  rw [Server.step_completes hcompleted hcan, Server.run, ht]

/-- The session and the operation that an event completes, if it can happen. -/
def Server.completing (s : Server) (sid i : ℕ) (result : Session.Completion) : Option (Session × PendingOp) :=
  (s.get? sid).bind fun sess => (sess.pending[i]?).bind fun p =>
    if Server.canComplete p result then some (sess, p) else none

theorem Server.completing_eq_some {i : ℕ} {p : PendingOp} {result : Session.Completion} :
    s.completing sid i result = some (sess, p) ↔
      s.get? sid = some sess ∧ sess.pending[i]? = some p ∧ Server.canComplete p result := by
  unfold Server.completing
  constructor
  · intro h
    obtain ⟨x, hx, h⟩ := Option.bind_eq_some_iff.1 h
    obtain ⟨q, hq, h⟩ := Option.bind_eq_some_iff.1 h
    split_ifs at h with hcan
    obtain ⟨rfl, rfl⟩ := Prod.mk.inj (Option.some.inj h)
    exact ⟨hx, hq, hcan⟩
  · rintro ⟨hx, hq, hcan⟩
    simp only [hx, hq, hcan, Option.bind_some, if_true]

/-- A completion that cannot happen changes nothing. -/
theorem step_not_completed {i : ℕ} {result : Session.Completion} (h : s.completing sid i result = none) :
    Server.step env s (.complete sid i result) = s := by
  refine Server.step_of_not_happens ?_
  rintro ⟨p, hp, hcan⟩
  obtain ⟨x, hx, hi⟩ := Server.completed_eq_some.1 hp
  rw [Server.completing_eq_some.2 ⟨hx, hi, hcan⟩] at h
  cases h

/-- Whom a broadcast is written to. -/
def Server.waiting (env : Env) (s : Server) : List ℕ :=
  ((s.users env).filter fun u => u.2.status = "대기중").map (·.1)

/-- What a step does. -/
inductive Stepped (env : Env) (s : Server) : Event → Server → Prop
  | idle {e : Event} (h : ∀ sid i result, e = .complete sid i result → s.completing sid i result = none) :
      Stepped env s e s
  | accepted {remoteIp : String} {mirrorPort : ℤ} (hrunning : s.running) :
      Stepped env s (.accept (some remoteIp) mirrorPort) (s.accept remoteIp mirrorPort)
  | completed {sid i : ℕ} {result : Session.Completion} {sess : Session} {p : PendingOp} {t : Server}
      (hs : s.get? sid = some sess) (hp : sess.pending[i]? = some p) (hcan : Server.canComplete p result)
      (h : Completed env (s.take sid i) sid { sess with pending := sess.pending.eraseIdx i } p.op result t) :
      Stepped env s (.complete sid i result) (t.reap sid)
  | checked {t : Server} (h : Edits env s [] t) : Stepped env s .sessionCheck t
  | broadcast {l : Starts} {t : Server} (hrunning : s.running) (h : Edits env s l t)
      (hl : l.map (·.1) = s.waiting env) (hop : ∀ p ∈ l, ∃ response, p.2.op = .writeBroadcast response) :
      Stepped env s .broadcast t
  | ticked {nanoseconds : ℕ} : Stepped env s (.tick nanoseconds) { s with clock := s.clock + nanoseconds }
  | unwound {mirrorPort : ℤ} : Stepped env s (.accept none mirrorPort) s.halt
  | stopped {t : Server} : Stepped env s .signal t.halt

theorem checkInactiveSessions_edits :
    wp (Server.checkInactiveSessions env) (fun _ => Edits env s []) (fun _ _ => False) s := by
  simp only [Server.checkInactiveSessions, wp_bind, wp_get, wp_onlyIf]
  refine ⟨fun _ => ?_, fun _ => .refl⟩
  refine wp_removeInactive (I := Edits env s []) _ s .refl fun token _ t k ht _ => ?_
  exact ⟨ht.edit .expire, fun x _ => (ht.edit .expire).ended x⟩

theorem step_checked : Edits env s [] (Server.step env s .sessionCheck) :=
  Server.run_of_wp checkInactiveSessions_edits

/-- The sessions that a broadcast is written to are there. -/
theorem isSome_of_waiting (h : sid ∈ s.waiting env) : (s.get? sid).isSome := by
  simp only [Server.waiting, Server.users, List.mem_map, List.mem_filter, List.mem_filterMap] at h
  obtain ⟨⟨k, x⟩, ⟨⟨⟨token, k'⟩, -, hx⟩, -⟩, rfl⟩ := h
  obtain ⟨y, hy, hyx⟩ := Option.bind_eq_some_iff.1 hx
  split_ifs at hyx
  obtain ⟨rfl, rfl⟩ := Prod.mk.inj (Option.some.inj hyx)
  exact Option.isSome_of_mem hy

theorem step_broadcast_edits (hrunning : s.running) :
    ∃ l, Edits env s l (Server.step env s .broadcast) ∧ l.map (·.1) = s.waiting env ∧
      ∀ p ∈ l, ∃ response, p.2.op = .writeBroadcast response := by
  have hstarts : ∀ (sids : List ℕ) (l : Starts) (t : Server), Edits env s l t → (∀ k ∈ sids, (s.get? k).isSome) →
      ∃ l', Edits env s (l ++ l')
        (sids.foldl (fun t sid => Server.start sid (.writeBroadcast (s.broadcastMessage env)) t) t) ∧
        l'.map (·.1) = sids ∧ ∀ p ∈ l', ∃ response, p.2.op = .writeBroadcast response := by
    intro sids
    induction sids with
    | nil => exact fun l t ht _ => ⟨[], (List.append_nil l).symm ▸ ht, rfl, fun _ h => nomatch h⟩
    | cons k sids ih =>
      intro l t ht hsome
      obtain ⟨x, hx⟩ := Option.isSome_iff_exists.1 ((ht.isSome k).trans (hsome k List.mem_cons_self))
      obtain ⟨l', h, hl, hop⟩ := ih _ _ (ht.start hx) fun k' hk' => hsome k' (List.mem_cons_of_mem _ hk')
      rw [List.append_assoc] at h
      refine ⟨_, h, congrArg (k :: ·) hl, fun p hp => ?_⟩
      rcases List.mem_cons.1 hp with rfl | hp
      · exact ⟨_, rfl⟩
      · exact hop p hp
  have hstep : Server.step env s .broadcast = (s.waiting env).foldl
      (fun t sid => Server.start sid (.writeBroadcast (s.broadcastMessage env)) t) s := if_pos hrunning
  rw [hstep]
  exact hstarts _ [] s .refl fun k hk => isSome_of_waiting hk

/-- **What a step of a server in order does.** -/
theorem step_stepped (hs : s.Sane) (e : Event) : Stepped env s e (Server.step env s e) := by
  cases e with
  | accept remoteIp mirrorPort =>
    cases remoteIp with
    | none =>
      rw [Server.step]
      split_ifs
      · exact .unwound
      · exact .idle fun _ _ _ h => Event.noConfusion h
    | some remoteIp =>
      rw [Server.step]
      split_ifs with hrunning
      · exact .accepted hrunning
      · exact .idle fun _ _ _ h => Event.noConfusion h
  | complete sid i result =>
    cases h : s.completing sid i result with
    | none =>
      rw [step_not_completed h]
      refine .idle fun _ _ _ he => ?_
      cases he
      exact h
    | some found =>
      obtain ⟨hx, hp, hcan⟩ := Server.completing_eq_some.1 h
      obtain ⟨t, ht, hstep⟩ := @step_completed env s sid found.1 i found.2 result hs hx hp hcan
      rw [hstep]
      exact .completed hx hp hcan ht
  | sessionCheck => exact .checked step_checked
  | broadcast =>
    by_cases hrunning : s.running
    · obtain ⟨l, h, hl, hop⟩ := @step_broadcast_edits env s hrunning
      exact .broadcast hrunning h hl hop
    · rw [Server.step, if_neg hrunning]
      exact .idle fun _ _ _ h => Event.noConfusion h
  | tick => exact .ticked
  | signal =>
    rw [Server.step]
    split_ifs
    · exact .stopped
    · exact .idle fun _ _ _ h => Event.noConfusion h

end Completions

end Matching
end SocketCommunication
