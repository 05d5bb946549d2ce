/-
# What an event does

A handler leads from the state an event finds, an operation taken out of it, to
the state before the session is reaped (`step_complete`).  All that an event does
is a chain of `Change`s: the moves of its handler, and what the loop of events
does around it (`step_changes`).  What every change keeps, every event keeps
(`step_inv`).
-/

import SocketCommunication.Matching.Handlers

namespace SocketCommunication
namespace Matching

open Effect

namespace Server

/-- Every deed of the event is licensed. -/
def Licensed (env : Env) (L : Licence) (s : Server) (e : Event) : Prop :=
  ∀ x ∈ s.deeds env e, L.Allows s x.1 x.2

end Server

/-- One change of the server. -/
inductive Change (env : Env) (L : Licence) : Server → Server → Prop
  | move {s t : Server} (h : Move env L s t) : Change env L s t
  | accept {s : Server} {remoteIp : String} {mirrorPort : ℤ} : Change env L s (s.accept remoteIp mirrorPort)
  | take {s : Server} {sid i : ℕ} : Change env L s (s.take sid i)
  | destroy {s : Server} {sid : ℕ} {sess : Session} (hs : s.get? sid = some sess) (hidle : sess.pending = []) :
      Change env L s (Session.destroy sid sess s)
  | tick {s : Server} {nanoseconds : ℕ} : Change env L s { s with clock := s.clock + nanoseconds }
  | halt {s : Server} : Change env L s s.halt

section Events

variable {env : Env} {L : Licence} {s t : Server} {sid : ℕ} {sess : Session}

/-! ### The loops -/

theorem Server.mem_entries {e : String × ℕ} : e ∈ s.entries env ↔ s.sessions.lookup e.1 = some e.2 := by
  obtain ⟨token, sid⟩ := e
  simp only [Server.entries, List.mem_map, (env.order_perm 0 s.sessions.entries).mem_iff, Prod.mk.injEq,
    ← AList.mem_lookup_iff (s := s.sessions), Option.mem_def]
  constructor
  · rintro ⟨e, he, rfl, rfl⟩
    exact he
  · exact fun h => ⟨⟨token, sid⟩, h, rfl, rfl⟩

theorem Identity.allows_teardown {who : Identity} :
    (∀ d ∈ who.teardown, L.Allows s sid d) ↔
      (0 < who.userId → L.call sid who .room (Session.exitRequest who.userId)) := by
  rw [Identity.teardown]
  split_ifs with h
  · simp [Licence.Allows, h]
  · simp [h]

/-- The loop of `check_inactive_sessions`. -/
theorem wp_removeInactive {I : Server → Prop} :
    ∀ (tokens : List String) (t : Server), I t →
      (∀ token ∈ tokens, ∀ t sid, I t → t.sessions.lookup token = some sid →
        I { t with sessions := t.sessions.erase token } ∧ ∀ sess, t.get? sid = some sess →
          I (Server.ended env sid sess { t with sessions := t.sessions.erase token })) →
      wp (Server.removeInactive env tokens) (fun _ => I) (fun _ _ => False) t
  | [], _, ht, _ => ht
  | token :: tokens, t, ht, h => by
    have hrest : ∀ r, I r → wp (Server.removeInactive env tokens) (fun _ => I) (fun _ _ => False) r :=
      fun r hr => wp_removeInactive tokens r hr fun k hk => h k (List.mem_cons_of_mem _ hk)
    simp only [Server.removeInactive, wp_bind, wp_get]
    cases hsid : t.sessions.lookup token with
    | none => exact hrest t ht
    | some sid =>
      obtain ⟨herase, hended⟩ := h token List.mem_cons_self t sid ht hsid
      simp only [wp_bind, wp_set, wp_onlyIf, Option.isSome_iff_exists]
      refine ⟨fun hthere => ?_, fun _ => hrest _ herase⟩
      obtain ⟨sess, hsess⟩ := hthere
      exact wp_handleError hsess (hrest _ (hended sess hsess))

/-- The loop of `stop`. -/
theorem wp_endSessions {I : Server → Prop} :
    ∀ (sids : List ℕ) (t : Server), I t →
      (∀ sid ∈ sids, ∀ t sess, I t → t.get? sid = some sess → I (t.ended env sid sess)) →
      wp (Server.endSessions env sids) (fun _ => I) (fun _ _ => False) t
  | [], _, ht, _ => ht
  | sid :: sids, t, ht, h => by
    have hrest : ∀ r, I r → wp (Server.endSessions env sids) (fun _ => I) (fun _ _ => False) r :=
      fun r hr => wp_endSessions sids r hr fun k hk => h k (List.mem_cons_of_mem _ hk)
    simp only [Server.endSessions, wp_bind, wp_get, wp_onlyIf, Option.isSome_iff_exists]
    refine ⟨fun hthere => ?_, fun _ => hrest _ ht⟩
    obtain ⟨sess, hsess⟩ := hthere
    exact wp_handleError hsess (hrest _ (h sid List.mem_cons_self t sess ht hsess))

/-- What the loops know of a state between two sessions: the sessions are who
they were, and no token is new. -/
structure Between (env : Env) (L : Licence) (s t : Server) : Prop where
  moves : Moves env L s t
  who : ∀ sid, (t.get? sid).map Session.identity = (s.get? sid).map Session.identity
  sessions : ∀ token sid, t.sessions.lookup token = some sid → s.sessions.lookup token = some sid

theorem Between.refl : Between env L s s := ⟨.refl, fun _ => rfl, fun _ _ h => h⟩

theorem Between.erase (h : Between env L s t) (token : String) :
    Between env L s { t with sessions := t.sessions.erase token } where
  moves := h.moves.tail (.registry (Server.registers_refl _) (Server.registers_erase _ _))
  who := h.who
  sessions token' sid' hlookup := h.sessions token' sid' (Server.lookup_of_erase hlookup)

theorem Between.ended (h : Between env L s t) (hs : t.get? sid = some sess)
    (hL : ∀ d ∈ s.ends sid, L.Allows s d.1 d.2) : Between env L s (t.ended env sid sess) where
  moves := by
    have hwho := h.who sid
    rw [hs, Option.map_some, eq_comm, Option.map_eq_some_iff] at hwho
    obtain ⟨x, hx, hid⟩ := hwho
    refine h.moves.trans (moves_ended hs ?_)
    refine (@Identity.allows_teardown L s sid sess.identity).1 fun d hd => hL (sid, d) ?_
    rw [Server.ends, hx]
    exact List.mem_map_of_mem (hid ▸ hd)
  who sid' := by
    rw [Server.get?_ended hs]
    split_ifs with hsid
    · rw [← h.who, hsid, hs]
      rfl
    · exact h.who sid'
  sessions token sid' hlookup := by
    rw [Server.ended, Server.modifySession_sessions] at hlookup
    refine h.sessions token sid' ?_
    split_ifs at hlookup <;> exact hlookup

/-! ### The events -/

theorem Server.Greeted.take {sid' : ℕ} (hg : s.Greeted sid') (sid i : ℕ) :
    (s.take sid i).Greeted sid' := by
  have hall : ∀ k x, s.get? k = some x → k = sid' → x.Greeted := fun k x hx hk => hg x (hk ▸ hx)
  refine fun x hx => Server.forall_modifySession hall (fun y _ hy hk q hq => ?_) sid' x hx rfl
  exact hy hk q (List.mem_of_mem_eraseIdx hq)

/-- `check_inactive_sessions` is a chain of moves. -/
theorem step_sessionCheck (hL : s.Licensed env L .sessionCheck) :
    Moves env L s (Server.step env s .sessionCheck) := by
  have hrun : wp (Server.checkInactiveSessions env) (fun _ => Moves env L s) (fun _ _ => False) s := by
    simp only [Server.checkInactiveSessions, wp_bind, wp_get, wp_onlyIf]
    refine ⟨fun _ => ?_, fun _ => .refl⟩
    refine wp_mono (fun _ _ h => h.moves) (fun _ _ h => h)
      (wp_removeInactive (I := Between env L s) _ s .refl fun token htoken t sid ht hsid => ?_)
    refine ⟨ht.erase token, fun sess hsess => (ht.erase token).ended hsess fun d hd => hL d ?_⟩
    refine List.mem_flatMap.2 ⟨sid, List.mem_filterMap.2 ⟨token, htoken, ht.sessions token sid hsid⟩, hd⟩
  exact Server.run_of_wp hrun

/-- A broadcast starts operations on registered sessions. -/
theorem step_broadcast (hs : s.Sane) : Moves env L s (Server.step env s .broadcast) := by
  rw [Server.step]
  split_ifs
  · have hstarts : ∀ (sids : List ℕ) (t : Server), Moves env L s t → (∀ sid ∈ sids, s.Greeted sid) →
        Moves env L s (sids.foldl
          (fun t sid => Server.start sid (.writeBroadcast (s.broadcastMessage env)) t) t) := by
      intro sids
      induction sids with
      | nil => exact fun t ht _ => ht
      | cons sid sids ih =>
        intro t ht hg
        refine ih _ (ht.tail (.start (Moves.greeted ht (hg sid List.mem_cons_self)) Op.noConfusion)) fun k hk => ?_
        exact hg k (List.mem_cons_of_mem _ hk)
    refine hstarts _ s .refl fun sid hsid => ?_
    simp only [Server.users, List.mem_map, List.mem_filter, List.mem_filterMap] at hsid
    obtain ⟨⟨sid', x⟩, ⟨⟨⟨token, sid''⟩, hentry, hx⟩, -⟩, rfl⟩ := hsid
    obtain ⟨y, -, hy⟩ := Option.bind_eq_some_iff.1 hx
    split_ifs at hy
    obtain rfl : sid'' = sid' := congrArg Prod.fst (Option.some.inj hy)
    exact (hs.sessions token sid'' (Server.mem_entries.1 hentry)).2
  · exact .refl

/-- `stop` is a chain of moves, and then the process ends. -/
theorem step_signal (hL : s.Licensed env L .signal) :
    Server.step env s .signal = s ∨ ∃ t, Moves env L s t ∧ Server.step env s .signal = t.halt := by
  rw [Server.step]
  split_ifs with hrunning
  · right
    have hrun : wp (Server.stop env) (fun _ => Moves env L s) (fun _ _ => False) s := by
      simp only [Server.stop, wp_bind, wp_get, wp_onlyIf, wp_set, wp_modify]
      refine ⟨fun _ => ?_, fun h => absurd hrunning h⟩
      have hstopped : Between env L s { s with running := false } :=
        ⟨.single (.registry (Server.registers_refl _) (Server.registers_refl _)), fun _ => rfl, fun _ _ h => h⟩
      refine wp_mono (fun _ t h => h.moves.tail (.registry (Server.registers_refl _) ?_)) (fun _ _ h => h)
        (wp_endSessions (I := Between env L s) _ _ hstopped fun sid hsid t sess ht hsess => ?_)
      · exact ht.ended hsess fun d hd => hL d (List.mem_flatMap.2 ⟨sid, hsid, hd⟩)
      · exact fun token sid h => absurd h (by simp)
    exact ⟨_, Server.run_of_wp hrun, rfl⟩
  · exact .inl rfl

/-- The server after an operation of `sid` was taken out. -/
theorem calm_take (sid i : ℕ) : Calm sid s (s.take sid i) where
  roomUsers := by rw [Server.take, Server.modifySession_world]
  tokens := Server.modifySession_tokens ..
  others _ hne := Server.get?_modifySession_of_ne hne

theorem Server.completes_take (who : Identity) (op : Op) (result : Session.Completion) (i : ℕ) :
    (s.take sid i).completes env who op result = s.completes env who op result := by
  cases op <;> cases result <;>
    simp only [Server.completes, Server.take, modifySession_world, modifySession_tokens, modifySession_version,
      modifySession_uuids]

theorem Server.completed_eq_some {i : ℕ} {p : PendingOp} :
    s.completed sid i = some p ↔ ∃ sess, s.get? sid = some sess ∧ sess.pending[i]? = some p :=
  Option.bind_eq_some_iff

/-- The session whose operation was taken out. -/
theorem Server.get?_take (hs : s.get? sid = some sess) (i : ℕ) :
    (s.take sid i).get? sid = some { sess with pending := sess.pending.eraseIdx i } :=
  get?_modifySession_self hs

theorem Server.Sane.take (h : s.Sane) (sid i : ℕ) : (s.take sid i).Sane where
  session := by
    refine forall_modifySession h.session fun x _ hx => ⟨hx.int, fun hn => ?_⟩
    have hg : ¬ x.Greeted := fun hg => hn fun q hq => hg q (List.mem_of_mem_eraseIdx hq)
    obtain ⟨p, hp, hid⟩ := hx.fresh hg
    rw [hp] at hn ⊢
    cases i with
    | zero => exact absurd (fun _ hq => absurd hq List.not_mem_nil) hn
    | succ i => exact ⟨p, rfl, hid⟩
  heap sid' hsome := by
    rw [Server.take, isSome_modifySession] at hsome
    rw [Server.take, modifySession_nextId]
    exact h.heap sid' hsome
  mirrors port sid' hlookup := by
    rw [Server.take, modifySession_mirrors] at hlookup
    rw [Server.take, modifySession_nextId]
    refine ⟨(h.mirrors port sid' hlookup).1, (h.mirrors port sid' hlookup).2.take sid i⟩
  sessions token sid' hlookup := by
    rw [Server.take, modifySession_sessions] at hlookup
    rw [Server.take, modifySession_nextId]
    refine ⟨(h.sessions token sid' hlookup).1, (h.sessions token sid' hlookup).2.take sid i⟩
  trace act hact := by
    rw [Server.take, modifySession_trace] at hact
    rw [Server.take, modifySession_nextId]
    exact h.trace act hact

/-- The handler of a pending operation, on a server that is in order. -/
theorem wp_complete {i : ℕ} {p : PendingOp} {result : Session.Completion} (hs : s.Sane)
    (hp : s.completed sid i = some p) (hcan : Server.canComplete p result)
    (hL : s.Licensed env L (.complete sid i result)) :
    wp (Session.complete env sid p.op result)
      (fun _ t => Handled env L sid (s.take sid i) t ∨ (∃ response, p.op = .writeBroadcast response) ∧ t = s.take sid i)
      (fun _ _ => False) (s.take sid i) := by
  obtain ⟨sess, hsess, hi⟩ := Server.completed_eq_some.1 hp
  have hget := Server.get?_take hsess i
  have hgreeted : (s.take sid i).Greeted sid := by
    intro x hx
    obtain rfl := Option.some.inj (hget.symm.trans hx)
    exact (hs.session sid sess hsess).greeted_take hi
  have hfresh : p.op = .readHandshake → sess.userId = 0 ∧ sess.token = "" := by
    intro hop
    obtain ⟨-, -, hid⟩ := (hs.session sid sess hsess).fresh fun hg => hg p (List.mem_of_getElem? hi) hop
    exact ⟨congrArg Identity.userId hid, congrArg Identity.token hid⟩
  have hdeeds : ∀ d ∈ (s.take sid i).completes env sess.identity p.op result, L.Allows s sid d := by
    intro d hd
    rw [Server.completes_take] at hd
    refine hL (sid, d) ?_
    simp only [Server.deeds, hsess, hp, hcan, if_true]
    exact List.mem_map_of_mem hd
  exact complete_handled (hs.take sid i) hget hgreeted hfresh (calm_take sid i) hdeeds

/-- **The completion of an operation.** -/
theorem step_complete {i : ℕ} {p : PendingOp} {result : Session.Completion} (hs : s.Sane)
    (hp : s.completed sid i = some p) (hcan : Server.canComplete p result)
    (hL : s.Licensed env L (.complete sid i result)) :
    ∃ t, Server.step env s (.complete sid i result) = t.reap sid ∧
      (Handled env L sid (s.take sid i) t ∨ (∃ response, p.op = .writeBroadcast response) ∧ t = s.take sid i) := by
  obtain ⟨_, t, ht, h⟩ := wp_returns (wp_complete hs hp hcan hL)
  refine ⟨t, ?_, h⟩
  rw [Server.step_completes hp hcan, Server.run, ht]

/-! ### The end of an object -/

namespace Server

theorem reap_cases (sid : ℕ) (t : Server) :
    (t.reap sid = t ∧ ∀ sess, t.get? sid = some sess → sess.pending ≠ []) ∨
      ∃ sess, t.get? sid = some sess ∧ sess.pending = [] ∧ t.reap sid = Session.destroy sid sess t := by
  unfold reap
  cases hget : t.get? sid with
  | none => exact .inl ⟨rfl, fun _ h => nomatch h⟩
  | some sess =>
    by_cases hidle : sess.pending = []
    · exact .inr ⟨sess, rfl, hidle, by simp [hidle]⟩
    · refine .inl ⟨by simp [hidle], fun x hx => ?_⟩
      obtain rfl := Option.some.inj hx
      exact hidle

/-- What `~Session` leaves. -/
theorem destroy_eq (sid : ℕ) (sess : Session) (s : Server) :
    ∃ mirrors sessions connectedIps, Session.destroy sid sess s =
      { s with
        heap := s.heap.erase sid, mirrors, sessions, connectedIps
        tokens := if sess.token ≠ "" then s.tokens.erase sess.userId else s.tokens } ∧
      s.Registers s.mirrors mirrors ∧ s.Registers s.sessions sessions := by
  by_cases hmirror : sess.isMirror <;> by_cases htoken : sess.token = "" <;> by_cases hip : sess.remoteIp = "" <;>
    simp only [Session.destroy, hmirror, htoken, hip, ne_eq, not_true_eq_false, not_false_eq_true, if_true,
      if_false, Bool.false_eq_true]
  all_goals
    refine ⟨_, _, _, rfl, ?_, ?_⟩
    all_goals first | exact registers_refl _ | exact registers_erase _ _

theorem reap_world (sid : ℕ) (t : Server) : (t.reap sid).world = t.world := by
  rcases reap_cases sid t with ⟨hreap, -⟩ | ⟨sess, -, -, hreap⟩
  · rw [hreap]
  · obtain ⟨mirrors, sessions, connectedIps, heq, -, -⟩ := destroy_eq sid sess t
    rw [hreap, heq]

section Destroy

variable (sid : ℕ) (sess : Session) (s : Server)

theorem destroy_sessions : (Session.destroy sid sess s).sessions =
    if sess.token ≠ "" then s.sessions.erase sess.token else s.sessions := by
  by_cases hmirror : sess.isMirror <;> by_cases htoken : sess.token = "" <;> by_cases hip : sess.remoteIp = "" <;>
    simp [Session.destroy, hmirror, htoken, hip, removeMirrorSession, removeSession, removeConnection]

theorem destroy_mirrors : (Session.destroy sid sess s).mirrors =
    if sess.isMirror then s.mirrors.erase sess.mirrorPort else s.mirrors := by
  by_cases hmirror : sess.isMirror <;> by_cases htoken : sess.token = "" <;> by_cases hip : sess.remoteIp = "" <;>
    simp [Session.destroy, hmirror, htoken, hip, removeMirrorSession, removeSession, removeConnection]

theorem destroy_connectedIps : (Session.destroy sid sess s).connectedIps =
    if sess.remoteIp ≠ "" then s.connectedIps.erase sess.remoteIp else s.connectedIps := by
  by_cases hmirror : sess.isMirror <;> by_cases htoken : sess.token = "" <;> by_cases hip : sess.remoteIp = "" <;>
    simp [Session.destroy, hmirror, htoken, hip, removeMirrorSession, removeSession, removeConnection]

end Destroy

theorem get?_destroy (sid sid' : ℕ) (sess : Session) (s : Server) :
    (Session.destroy sid sess s).get? sid' = if sid' = sid then none else s.get? sid' := by
  obtain ⟨mirrors, sessions, connectedIps, h, -, -⟩ := destroy_eq sid sess s
  rw [h]
  change (s.heap.erase sid).lookup sid' = _
  split_ifs with hsid
  · rw [hsid]
    exact AList.lookup_erase ..
  · exact AList.lookup_erase_ne hsid

theorem get?_of_destroy {sid sid' : ℕ} {sess x : Session} {s : Server}
    (h : (Session.destroy sid sess s).get? sid' = some x) : sid' ≠ sid ∧ s.get? sid' = some x := by
  rw [get?_destroy] at h
  split_ifs at h with hsid
  exact ⟨hsid, h⟩

theorem get?_of_reap {sid sid' : ℕ} {x : Session} {t : Server} (h : (t.reap sid).get? sid' = some x) :
    t.get? sid' = some x := by
  rcases reap_cases sid t with ⟨hreap, -⟩ | ⟨sess, -, -, hreap⟩
  · rwa [hreap] at h
  · rw [hreap] at h
    exact (get?_of_destroy h).2

theorem Sane.destroy {s : Server} (h : s.Sane) (sid : ℕ) (sess : Session) : (Session.destroy sid sess s).Sane := by
  have hg : ∀ {sid'}, s.Greeted sid' → (Session.destroy sid sess s).Greeted sid' :=
    fun hg x hx => hg x (get?_of_destroy hx).2
  have hsession : ∀ sid' x, (Session.destroy sid sess s).get? sid' = some x → x.Sane :=
    fun sid' x hx => h.session sid' x (get?_of_destroy hx).2
  have hheap : ∀ sid', ((Session.destroy sid sess s).get? sid').isSome → sid' < s.nextId := by
    intro sid' hsome
    obtain ⟨x, hx⟩ := Option.isSome_iff_exists.1 hsome
    exact h.heap sid' (Option.isSome_of_mem (get?_of_destroy hx).2)
  obtain ⟨mirrors, sessions, connectedIps, heq, hm, hr⟩ := destroy_eq sid sess s
  rw [heq] at hg hsession hheap ⊢
  refine ⟨hsession, hheap, fun port sid' hl => ?_, fun token sid' hl => ?_, h.trace⟩
  · obtain ⟨hlt, hgr⟩ := h.registers h.mirrors hm port sid' hl
    exact ⟨hlt, hg hgr⟩
  · obtain ⟨hlt, hgr⟩ := h.registers h.sessions hr token sid' hl
    exact ⟨hlt, hg hgr⟩

theorem Sane.accept {s : Server} (h : s.Sane) (remoteIp : String) (mirrorPort : ℤ) :
    (s.accept remoteIp mirrorPort).Sane := by
  have hlt : ∀ {n}, n < s.nextId → n < s.nextId + 1 := fun h => h.trans (Nat.lt_succ_self _)
  have hget : ∀ sid', (s.accept remoteIp mirrorPort).get? sid' =
      if sid' = s.nextId then some (Session.make remoteIp mirrorPort s.clock) else s.get? sid' :=
    get?_of_insert rfl
  have hold : ∀ {sid'}, sid' < s.nextId ∧ s.Greeted sid' →
      sid' < s.nextId + 1 ∧ (s.accept remoteIp mirrorPort).Greeted sid' := by
    rintro sid' ⟨hsid, hg⟩
    refine ⟨hlt hsid, fun x hx => ?_⟩
    rw [hget, if_neg hsid.ne] at hx
    exact hg x hx
  refine ⟨?_, fun sid' hsome => ?_, fun port sid' hl => hold (h.mirrors port sid' hl),
    fun token sid' hl => hold (h.sessions token sid' hl), fun act hact => hlt (h.trace act hact)⟩
  · refine forall_of_insert h.session rfl ⟨rfl, fun _ => ⟨_, rfl, rfl⟩⟩
  · rw [hget] at hsome
    split_ifs at hsome with hsid
    · exact hsid ▸ Nat.lt_succ_self _
    · exact hlt (h.heap sid' hsome)

theorem Sane.halt {s : Server} (h : s.Sane) : s.halt.Sane :=
  { session := fun _ _ hget => (nomatch hget)
    heap := fun _ hsome => (nomatch hsome)
    mirrors := fun _ _ hl => (nomatch hl)
    sessions := fun _ _ hl => (nomatch hl)
    trace := h.trace }

theorem Init.sane {s : Server} (h : Init s) : s.Sane := by
  have hget : ∀ sid, s.get? sid = none := get?_of_empty h.heap
  refine ⟨fun sid x hx => ?_, fun sid hsome => ?_, fun port sid hl => ?_, fun token sid hl => ?_, fun act hact => ?_⟩
  · rw [hget] at hx
    cases hx
  · rw [hget] at hsome
    cases hsome
  · rw [h.mirrors] at hl
    cases hl
  · rw [h.sessions] at hl
    cases hl
  · rw [h.trace] at hact
    cases hact

end Server

/-! ### Invariants -/

/-- **A change keeps the server in order.** -/
theorem Change.sane (h : Change env L s t) (hs : s.Sane) : t.Sane := by
  cases h with
  | move h => exact h.sane hs
  | accept => exact hs.accept ..
  | take => exact hs.take ..
  | destroy => exact hs.destroy ..
  | tick => exact ⟨hs.session, hs.heap, hs.mirrors, hs.sessions, hs.trace⟩
  | halt => exact hs.halt

theorem Moves.changes (h : Moves env L s t) : Relation.ReflTransGen (Change env L) s t :=
  h.lift id fun _ _ => Change.move

/-- **An event is a chain of changes.** -/
theorem step_changes (hs : s.Sane) (e : Event) (hL : s.Licensed env L e) :
    Relation.ReflTransGen (Change env L) s (Server.step env s e) := by
  by_cases he : s.Happens e
  swap
  · rw [Server.step_of_not_happens he]
  cases e with
  | accept remoteIp mirrorPort =>
    cases remoteIp with
    | none =>
      have hrunning : s.running := he
      rw [Server.step, if_pos hrunning]
      exact .single .halt
    | some remoteIp =>
      have hrunning : s.running := he
      rw [Server.step, if_pos hrunning]
      exact .single .accept
  | complete sid i result =>
    obtain ⟨p, hp, hcan⟩ := he
    obtain ⟨t, hstep, h⟩ := step_complete hs hp hcan hL
    have hmoves : Moves env L (s.take sid i) t := by
      rcases h with h | ⟨-, rfl⟩
      · exact h.1
      · exact .refl
    have ht : Relation.ReflTransGen (Change env L) s t := .head .take hmoves.changes
    rw [hstep]
    rcases Server.reap_cases sid t with ⟨hreap, -⟩ | ⟨sess, hget, hidle, hreap⟩
    · rwa [hreap]
    · rw [hreap]
      exact ht.tail (.destroy hget hidle)
  | sessionCheck => exact (step_sessionCheck hL).changes
  | broadcast => exact (step_broadcast hs).changes
  | tick => exact .single .tick
  | signal =>
    rcases step_signal hL with h | ⟨t, ht, h⟩
    · rw [h]
    · rw [h]
      exact ht.changes.tail .halt

/-- **What every licensed change keeps, every licensed event keeps.** -/
theorem step_inv {I : Server → Prop} (hI : ∀ s t, s.Sane → I s → Change env L s t → I t) {e : Event} (hs : s.Sane)
    (hIs : I s) (hL : s.Licensed env L e) : (Server.step env s e).Sane ∧ I (Server.step env s e) := by
  have hchanges : ∀ {t}, Relation.ReflTransGen (Change env L) s t → t.Sane ∧ I t := by
    intro t h
    induction h with
    | refl => exact ⟨hs, hIs⟩
    | tail _ hchange ih => exact ⟨hchange.sane ih.1, hI _ _ ih.1 ih.2 hchange⟩
  exact hchanges (step_changes hs e hL)

/-- Only a call changes the database. -/
theorem Change.world (h : Change env L s t) (hcall : ∀ sid i type request, ¬ L.call sid i type request) :
    t.world = s.world := by
  cases h with
  | move h =>
    cases h with
    | call _ _ hL => exact absurd hL (hcall _ _ _ _)
    | registry | answered | login => rfl
    | _ => exact Server.modifySession_world ..
  | take => exact Server.modifySession_world ..
  | @destroy sid sess =>
    obtain ⟨mirrors, sessions, connectedIps, heq, -, -⟩ := Server.destroy_eq sid sess s
    rw [heq]
  | accept | tick | halt => rfl

/-- An event without deeds leaves the database as it is. -/
theorem step_world_of_nil (hs : s.Sane) {e : Event} (h : s.deeds env e = []) :
    (Server.step env s e).world = s.world :=
  (step_inv (L := ⟨fun _ _ _ _ => False, fun _ _ _ _ => True⟩) (I := fun t => t.world = s.world)
    (fun _ _ _ hI hchange => (hchange.world fun _ _ _ _ => id).trans hI) hs rfl
    (fun x hx => by rw [h] at hx; cases hx)).2

/-- The licence of everything. -/
def Licence.free : Licence := ⟨fun _ _ _ _ => True, fun _ _ _ _ => True⟩

theorem Licence.allows_free (s : Server) (sid : ℕ) (d : Deed) : Licence.free.Allows s sid d := by
  cases d with
  | call => exact trivial
  | login => exact fun _ _ => trivial

theorem licensed_free (e : Event) : s.Licensed env .free e := fun x _ => Licence.allows_free s x.1 x.2

/-- Every event keeps the server in order. -/
theorem step_sane (hs : s.Sane) (e : Event) : (Server.step env s e).Sane :=
  (step_inv (I := fun _ => True) (fun _ _ _ _ _ => trivial) hs trivial (licensed_free e)).1

/-- A reachable server is in order. -/
theorem Server.Reachable.sane (h : Server.Reachable env s) : s.Sane :=
  Run.Reachable.inv (I := Server.Sane) (fun _ h => h.sane) (fun _ e hs => step_sane hs e) h

/-- Numbers of sessions are not given out twice. -/
theorem step_nextId (hs : s.Sane) (e : Event) : s.nextId ≤ (Server.step env s e).nextId := by
  refine (step_inv (I := fun t => s.nextId ≤ t.nextId) (fun r t _ hr hchange => hr.trans ?_) hs le_rfl
    (licensed_free e)).2
  cases hchange with
  | move h => rw [h.nextId]
  | accept => exact Nat.le_succ _
  | take => rw [Server.take, Server.modifySession_nextId]
  | @destroy sid sess =>
    obtain ⟨mirrors, sessions, connectedIps, heq, -, -⟩ := Server.destroy_eq sid sess r
    rw [heq]
  | tick => exact le_rfl
  | halt => exact le_rfl

end Events

end Matching
end SocketCommunication
