/-
# The timers

`check_inactive_sessions` runs every ten seconds.  It takes the sessions out of the
registry that were not active for twelve, ends them, and touches no others
(`swept_of_reachable`).

Activity is a ping: what else a client asks for does not count (`SameActivity`).  A
session that sends no ping is ended by the first check that comes twelve seconds after
its last one, however busy it is (`ended_iff_of_silent`).
-/

import SocketCommunication.Matching.Isolation
import SocketCommunication.Matching.Memberships
import SocketCommunication.Matching.Registry

namespace SocketCommunication
namespace Matching

open Effect Server

variable {env : Env} {s t : Server} {sid : ℕ} {sess : Session}

/-! ### The check of the sessions -/

/-- The session is registered, and was not active for `session_timeout_`. -/
def Server.Expired (s : Server) (sid : ℕ) (sess : Session) : Prop :=
  (∃ token, s.sessions.lookup token = some sid) ∧ ¬ sess.isActive s.clock sessionTimeout

/-- A session lives for twelve seconds. -/
theorem Session.not_isActive {now : ℕ} :
    ¬ sess.isActive now sessionTimeout ↔ sess.lastActivity + 12 * 10 ^ 9 ≤ now := by
  rw [Session.isActive, decide_eq_true_eq, Nat.div_lt_iff_lt_mul (by decide), sessionTimeout]
  omega

/-- The tokens have been removed, and the sessions ended that had them. -/
structure Server.Removed (env : Env) (tokens : List String) (s t : Server) : Prop where
  sessions : ∀ token sid, t.sessions.lookup token = some sid ↔ s.sessions.lookup token = some sid ∧ token ∉ tokens
  closed : ∀ token ∈ tokens, ∀ sid sess, s.sessions.lookup token = some sid → s.get? sid = some sess →
    t.get? sid = some { sess with isOpen := false }
  kept : ∀ sid, (∀ token ∈ tokens, s.sessions.lookup token ≠ some sid) → t.get? sid = s.get? sid
  others : ∃ world heap sessions trace, t = { s with world, heap, sessions, trace }
  rows : env.Steady → ∀ q, q ∈ t.world.db.1.roomUsers ↔ q ∈ s.world.db.1.roomUsers ∧ ∀ token ∈ tokens, ∀ sid sess,
    s.sessions.lookup token = some sid → s.get? sid = some sess → 0 < sess.userId → q.userId ≠ sess.userId

/-- No token is removed. -/
theorem Server.Removed.nil (s : Server) : Removed env [] s s where
  sessions _ _ := (and_iff_left List.not_mem_nil).symm
  closed _ h := absurd h List.not_mem_nil
  kept _ _ := rfl
  others := ⟨_, _, _, _, rfl⟩
  rows _ _ := (and_iff_left fun _ h => absurd h List.not_mem_nil).symm

/-- A token that is not there. -/
theorem Server.Removed.skip {tokens : List String} {token : String} (h : Removed env tokens s t)
    (hnone : s.sessions.lookup token = none) : Removed env (token :: tokens) s t where
  sessions token' sid := by
    rw [h.sessions, List.mem_cons, not_or]
    refine and_congr_right fun hsid => (and_iff_right ?_).symm
    rintro rfl
    rw [hnone] at hsid
    cases hsid
  closed := by
    refine List.forall_mem_cons.2 ⟨fun sid sess hsid => ?_, h.closed⟩
    rw [hnone] at hsid
    cases hsid
  kept sid hsid := h.kept sid fun token' htoken' => hsid token' (List.mem_cons_of_mem _ htoken')
  others := h.others
  rows hsteady q := by
    rw [h.rows hsteady, List.forall_mem_cons]
    refine and_congr_right fun _ => (and_iff_right fun sid sess hsid => ?_).symm
    rw [hnone] at hsid
    cases hsid

/-- The first token is that of a session that is there. -/
theorem Server.Removed.cons {tokens : List String} {token : String} (hs : s.Sane) (hlisted : s.Listed)
    (hnodup : token ∉ tokens) (hsid : s.sessions.lookup token = some sid) (hget : s.get? sid = some sess)
    (h : Removed env tokens (Server.ended env sid sess { s with sessions := s.sessions.erase token }) t) :
    Removed env (token :: tokens) s t := by
  have hobject := fun k => @Server.get?_ended env sid { s with sessions := s.sessions.erase token } sess hget k
  have hsessions : (Server.ended env sid sess { s with sessions := s.sessions.erase token }).sessions =
      s.sessions.erase token := by
    rw [Server.ended, modifySession_sessions]
    split_ifs <;> rfl
  -- the other tokens are those of other sessions
  have hlookup : ∀ {token'}, token' ≠ token →
      (Server.ended env sid sess { s with sessions := s.sessions.erase token }).sessions.lookup token' =
        s.sessions.lookup token' := fun hne => by rw [hsessions, AList.lookup_erase_ne hne]
  have hother : ∀ {token' k}, token' ∈ tokens → s.sessions.lookup token' = some k → token' ≠ token ∧ k ≠ sid := by
    intro token' k htoken' hk
    have hne : token' ≠ token := fun h => hnodup (h ▸ htoken')
    exact ⟨hne, fun hsame => hne (hlisted.unique (hsame ▸ hk) hsid)⟩
  constructor
  · intro token' k
    rw [h.sessions, List.mem_cons, not_or, hsessions]
    by_cases hne : token' = token
    · subst hne
      simp [AList.lookup_erase]
    · rw [AList.lookup_erase_ne hne, and_iff_right hne]
  · refine List.forall_mem_cons.2 ⟨fun k x hk hx => ?_, fun token' htoken' k x hk hx => ?_⟩
    · obtain rfl := Option.some.inj (hsid.symm.trans hk)
      obtain rfl := Option.some.inj (hget.symm.trans hx)
      rw [h.kept sid fun token' htoken' hk' => ?_, hobject, if_pos rfl]
      have hne : token' ≠ token := fun h => hnodup (h ▸ htoken')
      rw [hlookup hne] at hk'
      exact (hother htoken' hk').2 rfl
    · obtain ⟨hne, hksid⟩ := hother htoken' hk
      refine h.closed token' htoken' k x ?_ ?_
      · rw [hlookup hne, hk]
      · rw [hobject, if_neg hksid]
        exact hx
  · intro k hk
    obtain ⟨hne, hrest⟩ := List.forall_mem_cons.1 hk
    have hksid : k ≠ sid := fun h => hne (h ▸ hsid)
    rw [h.kept k fun token' htoken' hk' => ?_, hobject, if_neg hksid]
    · rfl
    · rw [hlookup fun h => hnodup (h ▸ htoken')] at hk'
      exact hrest token' htoken' hk'
  · obtain ⟨world, heap, sessions, trace, rfl⟩ := h.others
    obtain ⟨heap, hheap⟩ := modifySession_eq sid (fun x => { x with isOpen := false })
      (if 0 < sess.userId then Server.called env sid .room (Session.exitRequest sess.userId)
        { s with sessions := s.sessions.erase token } else { s with sessions := s.sessions.erase token })
    rw [Server.ended, hheap]
    split_ifs <;> exact ⟨_, _, _, _, rfl⟩
  · intro hsteady q
    rw [h.rows hsteady, mem_roomUsers_ended hsteady (hs.session sid sess hget).int, List.forall_mem_cons, and_assoc]
    refine and_congr_right fun _ => and_congr ⟨fun hpos k x hk hx => ?_, fun hall => hall sid sess hsid hget⟩ ?_
    · obtain rfl := Option.some.inj (hsid.symm.trans hk)
      obtain rfl := Option.some.inj (hget.symm.trans hx)
      exact hpos
    · refine forall₂_congr fun token' htoken' => forall₂_congr fun k x => ?_
      have hne : token' ≠ token := fun h => hnodup (h ▸ htoken')
      rw [hlookup hne]
      refine forall_congr' fun hk => ?_
      rw [hobject, if_neg (hother htoken' hk).2]
      exact Iff.rfl

theorem wp_removed :
    ∀ (tokens : List String), tokens.Nodup → ∀ s : Server, s.Sane → s.Listed →
      wp (removeInactive env tokens) (fun _ t => Removed env tokens s t) (fun _ _ => False) s
  | [], _, s, _, _ => .nil s
  | token :: tokens, hnodup, s, hs, hlisted => by
    obtain ⟨hnew, hrest⟩ := List.nodup_cons.1 hnodup
    simp only [removeInactive, wp_bind, wp_get]
    cases hsid : s.sessions.lookup token with
    | none => exact wp_mono (fun _ _ h => h.skip hsid) (fun _ _ h => h) (wp_removed tokens hrest s hs hlisted)
    | some sid =>
      obtain ⟨-, sess, hget, -⟩ := hlisted token sid hsid
      simp only [wp_bind, wp_set, wp_onlyIf, Option.isSome_iff_exists]
      refine ⟨fun _ => wp_handleError hget ?_, fun hgone => absurd ⟨sess, hget⟩ hgone⟩
      have hsane : Server.Sane { s with sessions := s.sessions.erase token } := hs.unlist (registers_erase _ _)
      have herased : Server.Listed { s with sessions := s.sessions.erase token } :=
        hlisted.of_le (fun _ _ => lookup_of_erase) fun _ _ x _ hx => ⟨x, hx, rfl⟩
      refine wp_mono (fun _ _ h => h.cons hs hlisted hnew hsid hget) (fun _ _ h => h)
        (wp_removed tokens hrest _ (hsane.ended hget) ?_)
      exact (@Edits.ended env _ _ _ _ .refl sess).listed herased

/-- `t` is `s` without the sessions that have expired: they are out of the registry,
their sockets are closed, and, where no call fails, their users are out of the rooms. -/
structure Server.Swept (env : Env) (s t : Server) : Prop where
  sessions : ∀ token sid, t.sessions.lookup token = some sid ↔
    s.sessions.lookup token = some sid ∧ ∀ sess, s.get? sid = some sess → ¬ s.Expired sid sess
  closed : ∀ sid sess, s.get? sid = some sess → s.Expired sid sess → t.get? sid = some { sess with isOpen := false }
  kept : ∀ sid, (∀ sess, s.get? sid = some sess → ¬ s.Expired sid sess) → t.get? sid = s.get? sid
  others : ∃ world heap sessions trace, t = { s with world, heap, sessions, trace }
  rows : env.Steady → ∀ q, q ∈ t.world.db.1.roomUsers ↔ q ∈ s.world.db.1.roomUsers ∧ ∀ sid sess,
    s.get? sid = some sess → s.Expired sid sess → 0 < sess.userId → q.userId ≠ sess.userId

/-- The tokens that are removed are those of the sessions that have expired. -/
theorem mem_sessionsToRemove (hlisted : s.Listed) {token : String} : token ∈ s.sessionsToRemove env ↔
    ∃ sid sess, s.sessions.lookup token = some sid ∧ s.get? sid = some sess ∧ s.Expired sid sess := by
  simp only [sessionsToRemove, List.mem_map, List.mem_filter, Prod.exists, mem_entries]
  constructor
  · rintro ⟨_, sid, ⟨hsid, hall⟩, rfl⟩
    obtain ⟨-, sess, hget, -⟩ := hlisted _ sid hsid
    rw [hget, Option.all_some, Bool.not_eq_true'] at hall
    exact ⟨sid, sess, hsid, hget, ⟨_, hsid⟩, by simp [hall]⟩
  · rintro ⟨sid, sess, hsid, hget, -, hinactive⟩
    refine ⟨token, sid, ⟨hsid, ?_⟩, rfl⟩
    rw [hget, Option.all_some, Bool.not_eq_true', Bool.eq_false_iff]
    exact hinactive

theorem nodup_sessionsToRemove : (s.sessionsToRemove env).Nodup := by
  have hkeys : ((s.entries env).map (·.1)).Nodup := by
    rw [entries, List.map_map]
    exact ((env.order_perm 0 s.sessions.entries).map _).nodup_iff.2 s.sessions.nodupKeys
  exact hkeys.sublist (List.filter_sublist.map _)

theorem sessionCheck_swept (hs : s.Sane) (hlisted : s.Listed) (hrunning : s.running) :
    Swept env s (Server.step env s .sessionCheck) := by
  have hrun : wp (checkInactiveSessions env) (fun _ t => Removed env (s.sessionsToRemove env) s t) (fun _ _ => False) s := by
    simp only [checkInactiveSessions, wp_bind, wp_get, wp_onlyIf]
    exact ⟨fun _ => wp_removed _ nodup_sessionsToRemove s hs hlisted, fun h => absurd hrunning h⟩
  have h : Removed env (s.sessionsToRemove env) s (Server.step env s .sessionCheck) := run_of_wp hrun
  constructor
  · intro token sid
    rw [h.sessions, mem_sessionsToRemove hlisted]
    refine and_congr_right fun hsid => ⟨fun hno sess hget hexp => hno ⟨sid, sess, hsid, hget, hexp⟩, ?_⟩
    rintro hno ⟨sid', sess, hsid', hget, hexp⟩
    obtain rfl := Option.some.inj (hsid.symm.trans hsid')
    exact hno sess hget hexp
  · rintro sid sess hget ⟨⟨token, hsid⟩, hinactive⟩
    exact h.closed token ((mem_sessionsToRemove hlisted).2 ⟨sid, sess, hsid, hget, ⟨token, hsid⟩, hinactive⟩) sid sess
      hsid hget
  · refine fun sid hno => h.kept sid fun token htoken hsid => ?_
    obtain ⟨sid', sess, hsid', hget, hexp⟩ := (mem_sessionsToRemove hlisted).1 htoken
    obtain rfl := Option.some.inj (hsid.symm.trans hsid')
    exact hno sess hget hexp
  · exact h.others
  · intro hsteady q
    rw [h.rows hsteady]
    refine and_congr_right fun _ => ⟨fun hall sid sess hget hexp => ?_, fun hall token htoken sid sess hsid hget => ?_⟩
    · obtain ⟨token, hsid⟩ := hexp.1
      exact hall token ((mem_sessionsToRemove hlisted).2 ⟨sid, sess, hsid, hget, hexp⟩) sid sess hsid hget
    · obtain ⟨sid', sess', hsid', hget', hexp⟩ := (mem_sessionsToRemove hlisted).1 htoken
      obtain rfl := Option.some.inj (hsid.symm.trans hsid')
      obtain rfl := Option.some.inj (hget.symm.trans hget')
      exact hall sid sess hget hexp

/-- **The check ends the sessions that have expired, and does nothing else**, in every
reachable state of a server that runs. -/
theorem Server.swept_of_reachable (h : Server.Reachable env s) (hrunning : s.running) :
    Swept env s (Server.step env s .sessionCheck) :=
  sessionCheck_swept h.sane (listed_of_reachable h) hrunning

/-- A user in a room, who does nothing for twelve seconds. -/
def idleRun : List Event := hostRun ++ [.tick (12 * 10 ^ 9)]

/-- The user is out of the room after the check. -/
theorem Server.swept_idleRun : Swept .reliable (idleRun.foldl (Server.step .reliable) init)
    (Server.step .reliable (idleRun.foldl (Server.step .reliable) init) .sessionCheck) :=
  swept_of_reachable ⟨init, init_init, idleRun, rfl⟩ (by decide +kernel)

/-! ### What counts as activity -/

/-- The event is a ping of `sid`. -/
def Event.Pings (sid : ℕ) : Event → Prop
  | .complete k _ (.ok (some message)) => k = sid ∧ (message.value "action").eqString "alivePing"
  | _ => False

instance (sid : ℕ) : ∀ e : Event, Decidable (e.Pings sid)
  | .complete k _ (.ok (some message)) =>
    inferInstanceAs (Decidable (k = sid ∧ (message.value "action").eqString "alivePing"))
  | .complete _ _ (.ok none) | .complete _ _ .error | .accept .. | .sessionCheck | .broadcast | .tick _ | .signal =>
    inferInstanceAs (Decidable False)

/-- The time of the last activity of `k` is what it was. -/
def SameActivity (k : ℕ) (s t : Server) : Prop :=
  ∀ y, t.get? k = some y → ∃ x, s.get? k = some x ∧ y.lastActivity = x.lastActivity

instance (k : ℕ) : IsPreorder Server (SameActivity k) where
  refl _ y hy := ⟨y, hy, rfl⟩
  trans _ _ _ h h' z hz := by
    obtain ⟨y, hy, hyz⟩ := h' z hz
    obtain ⟨x, hx, hxy⟩ := h y hy
    exact ⟨x, hx, hyz.trans hxy⟩

theorem sameActivity_modifySession {k : ℕ} {f : Session → Session}
    (hf : k = sid → ∀ x, (f x).lastActivity = x.lastActivity) (s : Server) :
    SameActivity k s (modifySession sid f s) := by
  intro y hy
  rw [get?_modifySession] at hy
  split_ifs at hy with hk
  · obtain ⟨x, hx, rfl⟩ := Option.map_eq_some_iff.1 hy
    exact ⟨x, hk ▸ hx, hf hk x⟩
  · exact ⟨y, hy, rfl⟩

theorem sameActivity_start (k sid : ℕ) (op : Op) (s : Server) : SameActivity k s (Server.start sid op s) :=
  sameActivity_modifySession (f := fun x => { x with pending := x.pending ++ [⟨op, x.isOpen⟩] }) (fun _ _ => rfl) s

theorem confined_sameActivity (k sid : ℕ) : Confined sid (SameActivity k) where
  registries hheap y hy := ⟨y, by rwa [Server.get?, hheap] at hy, rfl⟩
  own _ hf s := sameActivity_modifySession (fun _ => hf) s
  mirror mirror message s := sameActivity_start k mirror (.writeMirror message) s

/-- **Nothing but a ping is activity.** -/
theorem step_sameActivity (hs : s.Sane) {k : ℕ} (hk : k < s.nextId) {e : Event} (hno : ¬ e.Pings k) :
    SameActivity k s (Server.step env s e) := by
  have hgone : ∀ t : Server, t.heap = ∅ → SameActivity k s t := fun t hheap y hy => by
    rw [get?_of_empty hheap] at hy
    cases hy
  by_cases he : s.Happens e
  swap
  · rw [Server.step_of_not_happens he]
    exact refl_of _ s
  cases e with
  | accept remoteIp mirrorPort =>
    have hrunning : s.running := he
    cases remoteIp with
    | none =>
      rw [Server.step, if_pos hrunning]
      exact hgone _ rfl
    | some remoteIp =>
      rw [Server.step, if_pos hrunning]
      intro y hy
      rw [get?_of_insert (s := s) rfl, if_neg hk.ne] at hy
      exact ⟨y, hy, rfl⟩
  | complete sid i result =>
    have hping : ∀ message, result = .ok (some message) → message.value "action" = .str "alivePing" →
        Keeps (SameActivity k) (Session.handlePing sid) := by
      rintro message rfl haction
      refine (confined_sameActivity k sid).handlePing fun now s => sameActivity_modifySession (fun hsid => ?_) s
      exact absurd ⟨hsid.symm, by rw [haction]; rfl⟩ hno
    obtain ⟨t, ht, hstep | hstep⟩ := step_confined env (confined_sameActivity k sid) hs i hping
    · rwa [hstep]
    · rw [hstep]
      intro y hy
      rcases reap_cases sid t with ⟨hreap, -⟩ | ⟨sess, -, -, hreap⟩
      · exact ht y (hreap ▸ hy)
      · rw [hreap, get?_destroy] at hy
        split_ifs at hy
        exact ht y hy
  | sessionCheck =>
    have hrun : wp (checkInactiveSessions env) (fun _ => SameActivity k s) (fun _ _ => False) s := by
      simp only [checkInactiveSessions, wp_bind, wp_get, wp_onlyIf]
      refine ⟨fun _ => ?_, fun _ => refl_of _ s⟩
      refine wp_removeInactive (I := SameActivity k s) _ s (refl_of _ s) fun token _ r sid hr _ => ⟨hr, fun sess hget => ?_⟩
      refine trans_of _ hr fun y hy => ?_
      rw [Server.get?_ended (s := { r with sessions := r.sessions.erase token }) hget] at hy
      split_ifs at hy with hsid
      · obtain rfl := Option.some.inj hy
        exact ⟨sess, by rw [hsid, hget], rfl⟩
      · exact ⟨y, hy, rfl⟩
    exact run_of_wp hrun
  | broadcast =>
    have hrunning : s.running := he
    rw [Server.step, if_pos hrunning]
    have hstarts : ∀ (sids : List ℕ) (t : Server), SameActivity k s t →
        SameActivity k s (sids.foldl (fun t sid => Server.start sid (.writeBroadcast (s.broadcastMessage env)) t) t) := by
      intro sids
      induction sids with
      | nil => exact fun t ht => ht
      | cons sid sids ih => exact fun t ht => ih _ (trans_of _ ht (sameActivity_start k sid _ t))
    exact hstarts _ s (refl_of _ s)
  | tick nanoseconds => exact fun y hy => ⟨y, hy, rfl⟩
  | signal =>
    have hrunning : s.running := he
    rw [Server.step, if_pos hrunning]
    exact hgone _ rfl

theorem run_sameActivity (env : Env) {k : ℕ} :
    ∀ (es : List Event) (s : Server), s.Sane → k < s.nextId → (∀ e ∈ es, ¬ e.Pings k) →
      SameActivity k s (es.foldl (Server.step env) s)
  | [], s, _, _, _ => refl_of _ s
  | e :: es, s, hs, hk, hno => by
    obtain ⟨he, hes⟩ := List.forall_mem_cons.1 hno
    have hrest := run_sameActivity env es (Server.step env s e) (step_sane hs e) (hk.trans_le (step_nextId hs e)) hes
    exact trans_of (SameActivity k) (step_sameActivity hs hk he) hrest

/-- **The check and a session that has not pinged** since its state was `s`: if twelve
seconds have passed, the check takes it out of the registry, closes its socket and takes
its user out of the rooms; before that, it leaves the session alone. -/
theorem Server.ended_iff_of_silent (h : Server.Reachable env s) (hget : s.get? sid = some sess) {es : List Event}
    (hsilent : ∀ e ∈ es, ¬ e.Pings sid) (ht : es.foldl (Server.step env) s = t) (hrunning : t.running) {token : String}
    (htoken : t.sessions.lookup token = some sid) :
    ((Server.step env t .sessionCheck).sessions.lookup token = none ↔ sess.lastActivity + 12 * 10 ^ 9 ≤ t.clock) ∧
      ∃ x, t.get? sid = some x ∧
        if sess.lastActivity + 12 * 10 ^ 9 ≤ t.clock then
          (Server.step env t .sessionCheck).get? sid = some { x with isOpen := false } ∧
            (env.Steady → 0 < x.userId →
              ∀ q ∈ (Server.step env t .sessionCheck).world.db.1.roomUsers, q.userId ≠ x.userId)
        else (Server.step env t .sessionCheck).get? sid = some x := by
  have hreachable : Server.Reachable env t := ht ▸ h.foldl es
  have hswept := swept_of_reachable hreachable hrunning
  obtain ⟨-, x, hx, -⟩ := listed_of_reachable hreachable token sid htoken
  obtain ⟨y, hy, htime⟩ : ∃ y, s.get? sid = some y ∧ x.lastActivity = y.lastActivity :=
    run_sameActivity env es s h.sane (h.sane.heap sid (Option.isSome_of_mem hget)) hsilent x (ht ▸ hx)
  obtain rfl := Option.some.inj (hget.symm.trans hy)
  have hexpired : t.Expired sid x ↔ sess.lastActivity + 12 * 10 ^ 9 ≤ t.clock := by
    rw [Server.Expired, Session.not_isActive, htime]
    exact and_iff_right ⟨token, htoken⟩
  have hone : ∀ z, t.get? sid = some z → z = x := fun z hz => Option.some.inj (hz.symm.trans hx)
  refine ⟨?_, x, hx, ?_⟩
  · rw [Option.eq_none_iff_forall_ne_some, ← hexpired]
    constructor
    · intro hnone
      by_contra hlive
      exact hnone sid ((hswept.sessions token sid).2 ⟨htoken, fun z hz => hone z hz ▸ hlive⟩)
    · intro hexp k hk
      obtain ⟨hold, hlive⟩ := (hswept.sessions token k).1 hk
      obtain rfl := Option.some.inj (htoken.symm.trans hold)
      exact hlive x hx hexp
  · split_ifs with hdue
    · refine ⟨hswept.closed sid x hx (hexpired.2 hdue), fun hsteady hpos q hq => ?_⟩
      exact ((hswept.rows hsteady q).1 hq).2 sid x hx (hexpired.2 hdue) hpos
    · rw [hswept.kept sid fun z hz => hone z hz ▸ mt hexpired.1 hdue, hx]

/-- A client that asks for the rooms in between. -/
def busyRun : List Event :=
  sends 0 (credentials "login" "rnqhscjf3333" "admin") ++ .tick (6 * 10 ^ 9) ::
    sends 0 (.obj [("action", .str "listRooms")]) ++ [.tick (6 * 10 ^ 9)]

/-- The check ends it. -/
theorem Server.ended_busyRun : (Server.step .reliable
      (busyRun.foldl (Server.step .reliable) ((connects 0 "192.0.2.1").foldl (Server.step .reliable) init))
      .sessionCheck).sessions.lookup (Env.reliable.uuid 1) = none :=
  (ended_iff_of_silent ⟨init, init_init, _, rfl⟩ (Option.some_get (by decide +kernel)).symm
    (show ∀ e ∈ busyRun, ¬ e.Pings 0 by decide +kernel) rfl (by decide +kernel) (by decide +kernel)).1.2
    (by decide +kernel)

/-! ### The list of users -/

/-- The session is registered, and has a user. -/
def Server.Present (s : Server) (sid : ℕ) (sess : Session) : Prop :=
  s.get? sid = some sess ∧ (∃ token, s.sessions.lookup token = some sid) ∧ sess.userId ≠ 0

theorem mem_users {u : ℕ × Session} : u ∈ s.users env ↔ s.Present u.1 u.2 := by
  obtain ⟨sid, sess⟩ := u
  simp only [users, List.mem_filterMap, Prod.exists, mem_entries, Option.bind_eq_some_iff, Server.Present]
  constructor
  · rintro ⟨token, k, hk, x, hx, hu⟩
    split_ifs at hu with hne
    obtain ⟨rfl, rfl⟩ := Prod.mk.inj (Option.some.inj hu)
    exact ⟨hx, ⟨token, hk⟩, hne⟩
  · rintro ⟨hget, ⟨token, hk⟩, hne⟩
    exact ⟨token, sid, hk, sess, hget, by rw [if_pos hne]⟩

/-- One operation is started on each of the sessions. -/
theorem get?_foldl_start (op : Op) :
    ∀ (sids : List ℕ), sids.Nodup → ∀ (s : Server) (k : ℕ),
      (sids.foldl (fun t sid => Server.start sid op t) s).get? k =
        if k ∈ sids then (s.get? k).map fun x => { x with pending := x.pending ++ [⟨op, x.isOpen⟩] } else s.get? k
  | [], _, s, k => by rw [List.foldl_nil, if_neg List.not_mem_nil]
  | sid :: sids, hnodup, s, k => by
    obtain ⟨hnew, hrest⟩ := List.nodup_cons.1 hnodup
    rw [List.foldl_cons, get?_foldl_start op sids hrest, Server.start, get?_modifySession]
    by_cases hk : k = sid
    · subst hk
      rw [if_neg hnew, if_pos rfl, if_pos List.mem_cons_self]
    · rw [if_neg hk]
      simp only [List.mem_cons, hk, false_or]

theorem foldl_start_eq (op : Op) :
    ∀ (sids : List ℕ) (s : Server), ∃ heap, sids.foldl (fun t sid => Server.start sid op t) s = { s with heap }
  | [], s => ⟨s.heap, rfl⟩
  | sid :: sids, s => by
    obtain ⟨heap, hheap⟩ := modifySession_eq sid (fun x => { x with pending := x.pending ++ [⟨op, x.isOpen⟩] }) s
    rw [List.foldl_cons, Server.start, hheap]
    exact foldl_start_eq op sids _

/-- In `t` the list of users is on its way to each session that waits in the lobby, once,
and to nobody else; each user who is registered stands in it once. -/
structure Server.Told (env : Env) (s t : Server) : Prop where
  once : ((s.users env).map (·.1)).Nodup
  users : ∀ sid sess, (sid, sess) ∈ s.users env ↔ s.Present sid sess
  waiting : ∀ sid sess, s.Present sid sess → sess.status = "대기중" → t.get? sid = some { sess with
    pending := sess.pending ++ [⟨.writeBroadcast (s.broadcastMessage env), sess.isOpen⟩] }
  others : ∀ sid, (∀ sess, s.Present sid sess → sess.status ≠ "대기중") → t.get? sid = s.get? sid
  rest : ∃ heap, t = { s with heap }

/-- **A broadcast tells the lobby who is there**, in every reachable state of a server that
runs. -/
theorem Server.told_of_reachable (h : Server.Reachable env s) (hrunning : s.running) :
    Told env s (Server.step env s .broadcast) := by
  have hlisted := listed_of_reachable h
  have hmem : ∀ {sid}, sid ∈ ((s.users env).filter fun u => u.2.status = "대기중").map (·.1) ↔
      ∃ sess, s.Present sid sess ∧ sess.status = "대기중" := by
    intro sid
    simp only [List.mem_map, List.mem_filter, mem_users, decide_eq_true_eq, Prod.exists, exists_and_right,
      exists_eq_right]
  have hnodup : (((s.users env).filter fun u => u.2.status = "대기중").map (·.1)).Nodup :=
    hlisted.nodup_users.sublist (List.filter_sublist.map _)
  have hget := get?_foldl_start (.writeBroadcast (s.broadcastMessage env)) _ hnodup s
  rw [Server.step, if_pos hrunning]
  refine ⟨hlisted.nodup_users, fun sid sess => mem_users, fun sid sess hp hstatus => ?_, fun sid hno => ?_, ?_⟩
  · refine (hget sid).trans ?_
    rw [if_pos (hmem.2 ⟨sess, hp, hstatus⟩), hp.1, Option.map_some]
  · refine (hget sid).trans (if_neg fun hin => ?_)
    obtain ⟨sess, hp, hstatus⟩ := hmem.1 hin
    exact hno sess hp hstatus
  · exact foldl_start_eq _ _ s

/-- The user waits in the lobby. -/
theorem Server.told_lobby : Told .reliable ((hostRun.take 5).foldl (Server.step .reliable) init)
    (Server.step .reliable ((hostRun.take 5).foldl (Server.step .reliable) init) .broadcast) :=
  told_of_reachable ⟨init, init_init, hostRun.take 5, rfl⟩ (by decide +kernel)

/-! ### The end of the server -/

/-- A server that has stopped does nothing more. -/
structure Server.Stopped (w : World) (s : Server) : Prop where
  running : ¬ s.running
  heap : s.heap = ∅
  world : s.world = w

theorem Server.Stopped.step {w : World} (h : s.Stopped w) (e : Event) : (Server.step env s e).Stopped w := by
  by_cases he : s.Happens e
  swap
  · rwa [Server.step_of_not_happens he]
  cases e with
  | accept | broadcast | signal => exact absurd he h.running
  | complete sid i result =>
    obtain ⟨p, hp, -⟩ := he
    obtain ⟨sess, hget, -⟩ := completed_eq_some.1 hp
    rw [get?_of_empty h.heap] at hget
    cases hget
  | sessionCheck =>
    have hrun : wp (checkInactiveSessions env) (fun _ t => t.Stopped w) (fun _ _ => False) s := by
      simp only [checkInactiveSessions, wp_bind, wp_get, wp_onlyIf]
      exact ⟨fun hrunning => absurd hrunning h.running, fun _ => h⟩
    exact run_of_wp hrun
  | tick => exact ⟨h.running, h.heap, h.world⟩

/-- **A shutdown**: whatever happens after the signal, no object comes back and the
database stays as it is; where no call fails, the users of the registered sessions have
left their rooms, and nobody else has. -/
theorem Server.stopped_of_reachable (h : Server.Reachable env s) (hrunning : s.running) (es : List Event) :
    Stopped (Server.step env s .signal).world ((Event.signal :: es).foldl (Server.step env) s) ∧
      (env.Steady → ∀ q, q ∈ ((Event.signal :: es).foldl (Server.step env) s).world.db.1.roomUsers ↔
        q ∈ s.world.db.1.roomUsers ∧ ∀ sid sess, s.Present sid sess → 0 < sess.userId → q.userId ≠ sess.userId) := by
  have hstopped : Stopped (Server.step env s .signal).world ((Event.signal :: es).foldl (Server.step env) s) := by
    refine Run.foldl_inv (fun _ e h => h.step e) es ?_
    rw [Server.step, if_pos hrunning]
    exact ⟨Bool.false_ne_true, rfl, rfl⟩
  refine ⟨hstopped, fun hsteady q => ?_⟩
  rw [hstopped.world, mem_roomUsers_signal hsteady h.sane hrunning]
  refine and_congr_right fun _ => ⟨fun hall sid sess hp hpos => ?_, fun hall e he sess hget hpos => ?_⟩
  · obtain ⟨hget, ⟨token, hk⟩, -⟩ := hp
    exact hall (token, sid) (mem_entries.2 hk) sess hget hpos
  · exact hall e.2 sess ⟨hget, ⟨e.1, mem_entries.1 he⟩, hpos.ne'⟩ hpos

/-- The user of the room has left it, and a client who comes later finds nobody. -/
theorem Server.stopped_hostRun :
    Stopped (Server.step .reliable (hostRun.foldl (Server.step .reliable) init) .signal).world
      ((Event.signal :: connects 1 "192.0.2.2").foldl (Server.step .reliable)
        (hostRun.foldl (Server.step .reliable) init)) :=
  (stopped_of_reachable ⟨init, init_init, hostRun, rfl⟩ (by decide +kernel) _).1

end Matching
end SocketCommunication
