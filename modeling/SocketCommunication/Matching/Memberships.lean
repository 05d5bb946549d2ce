/-
# Members of rooms and their sessions

A row of `room_users` goes when its user leaves the room, or when `handle_error`
runs on a session whose `user_id_` is that of the row.  So long as it stays, a
session with that number has to wait for an operation that will call it again
(`Server.Housed`): a session that waits for nothing is destroyed, and its
destructor takes nobody out of a room.

A row is left behind when the session becomes somebody else while its user is in a
room, which `process_request` does not ask before it grants a login, and when the
process ends without `handle_error` of a session of that user.
-/

import SocketCommunication.Matching.RoomCallers

namespace SocketCommunication
namespace Matching

open Effect

instance (op : Op) : Decidable (∀ response, op ≠ .writeBroadcast response) :=
  match op with
  | .writeBroadcast response => isFalse fun h => h response rfl
  | .readHandshake | .readMessage | .writeHandshake _ | .writeResponse _ | .writeMirror _ =>
    isTrue fun _ h => nomatch h

instance (sess : Session) : Decidable sess.Armed :=
  inferInstanceAs (Decidable (∃ p ∈ sess.pending, ∀ response, p.op ≠ .writeBroadcast response))

namespace Server

/-- **Every member of a room is the user of a session.** -/
def NoGhosts (s : Server) : Prop :=
  ∀ r ∈ s.world.db.1.roomUsers, ∃ sid sess, s.get? sid = some sess ∧ sess.userId = r.userId

/-- A session of the user, of which `p` holds. -/
def Has (p : ℕ → Session → Prop) (s : Server) (u : ℤ) : Prop :=
  ∃ sid sess, s.get? sid = some sess ∧ sess.userId = u ∧ p sid sess

instance {p : ℕ → Session → Prop} [∀ sid sess, Decidable (p sid sess)] (s : Server) (u : ℤ) :
    Decidable (s.Has p u) :=
  decidable_of_iff (∃ e ∈ s.heap.entries, e.2.userId = u ∧ p e.1 e.2)
    ⟨fun ⟨e, he, h⟩ => ⟨e.1, e.2, AList.mem_lookup_iff.2 he, h⟩,
      fun ⟨sid, sess, hget, h⟩ => ⟨⟨sid, sess⟩, AList.mem_lookup_iff.1 hget, h⟩⟩

def InRoom (s : Server) (u : ℤ) : Prop := ∃ r ∈ s.world.db.1.roomUsers, r.userId = u

instance (s : Server) (u : ℤ) : Decidable (s.InRoom u) :=
  inferInstanceAs (Decidable (∃ r ∈ s.world.db.1.roomUsers, r.userId = u))

/-- A deed of `sid` that leaves members behind: a login of a session whose user is
in a room as somebody else, where no other session of the user waits; or a change
of rooms for an account with a negative number, which `handle_error` passes over. -/
def Forsakes (s : Server) (sid : ℕ) : Deed → Prop
  | .login i u => i.userId ≠ u ∧ s.InRoom i.userId ∧ ¬ s.Has (fun k sess => k ≠ sid ∧ sess.Armed) i.userId
  | .call i .room request => request.changesRooms ∧ i.userId < 0 ∧ i.userId ∈ s.world.db.1.users.map (·.userId)
  | .call .. => False

instance (s : Server) (sid : ℕ) : ∀ d, Decidable (s.Forsakes sid d)
  | .login i u => inferInstanceAs (Decidable (i.userId ≠ u ∧ s.InRoom i.userId ∧
      ¬ s.Has (fun k sess => k ≠ sid ∧ sess.Armed) i.userId))
  | .call i .room request => inferInstanceAs (Decidable (request.changesRooms ∧ i.userId < 0 ∧
      i.userId ∈ s.world.db.1.users.map (·.userId)))
  | .call _ .auth _ | .call _ .game _ => inferInstanceAs (Decidable False)

/-- The process ends, and a member is the user of no session of `sessions_`, the
only ones that `stop` ends; an exception ends none. -/
def Abandons (env : Env) (s : Server) : Event → Prop
  | .accept none _ => s.running ∧ s.world.db.1.roomUsers ≠ []
  | .signal => s.running ∧ ∃ r ∈ s.world.db.1.roomUsers,
      ∀ e ∈ s.entries env, (s.get? e.2).all fun sess => sess.userId ≠ r.userId
  | _ => False

instance (env : Env) (s : Server) : ∀ e, Decidable (s.Abandons env e)
  | .accept none _ => inferInstanceAs (Decidable (s.running = true ∧ s.world.db.1.roomUsers ≠ []))
  | .signal => inferInstanceAs (Decidable (s.running = true ∧ ∃ r ∈ s.world.db.1.roomUsers,
      ∀ e ∈ s.entries env, (s.get? e.2).all fun sess => sess.userId ≠ r.userId))
  | .accept (some _) _ | .complete .. | .sessionCheck | .broadcast | .tick _ => inferInstanceAs (Decidable False)

/-- The event leaves no member behind. -/
def Faithful (env : Env) (s : Server) (e : Event) : Prop :=
  (∀ x ∈ s.deeds env e, ¬ s.Forsakes x.1 x.2) ∧ ¬ s.Abandons env e

instance (env : Env) (s : Server) (e : Event) : Decidable (s.Faithful env e) :=
  inferInstanceAs (Decidable ((∀ x ∈ s.deeds env e, ¬ s.Forsakes x.1 x.2) ∧ ¬ s.Abandons env e))

/-- Every member has a session that waits for an operation that will call it. -/
def Housed (s : Server) : Prop :=
  ∀ r ∈ s.world.db.1.roomUsers, 0 < r.userId ∧ s.Has (fun _ sess => sess.Armed) r.userId

theorem Housed.noGhosts {s : Server} (h : s.Housed) : s.NoGhosts := by
  intro r hr
  obtain ⟨-, sid, sess, hget, hu, -⟩ := h r hr
  exact ⟨sid, sess, hget, hu⟩

/-! ### One change -/

/-- The deeds of an event that found `s`, of the sessions in `w`. -/
def lodging (w : ℕ → Prop) (s : Server) : Licence where
  call sid i type request := w sid ∧ (type = .room → request.changesRooms → 0 ≤ i.userId ∨
    i.userId ∉ s.world.db.1.users.map (·.userId))
  login t sid i u := i.userId ≠ u → t.InRoom i.userId → t.Has (fun k sess => k ≠ sid ∧ sess.Armed) i.userId

/-- Inside an event that found `s`: every member has a session that waits, or one in
`w`, whose handler runs. -/
structure Attended (w : ℕ → Prop) (s t : Server) : Prop where
  rows : ∀ r ∈ t.world.db.1.roomUsers, 0 < r.userId ∧ t.Has (fun sid sess => w sid ∨ sess.Armed) r.userId
  users : Enrols s.world t.world

variable {env : Env} {w : ℕ → Prop} {s t r : Server} {sid : ℕ}

theorem Attended.not_inRoom_zero (h : Attended w s t) : ¬ t.InRoom 0 := by
  rintro ⟨q, hq, hzero⟩
  have hpos := (h.rows q hq).1
  omega

/-- A session changes, and the others and the database do not. -/
theorem Attended.change (h : Attended w s t) (hworld : r.world = t.world) (hothers : ∀ k ≠ sid, r.get? k = t.get? k)
    (hsid : ∀ x, t.get? sid = some x → t.InRoom x.userId →
      (∃ y, r.get? sid = some y ∧ y.userId = x.userId ∧ (w sid ∨ x.Armed → w sid ∨ y.Armed)) ∨
        t.Has (fun k y => k ≠ sid ∧ y.Armed) x.userId) : Attended w s r := by
  refine ⟨fun q hq => ?_, hworld ▸ h.users⟩
  rw [hworld] at hq
  obtain ⟨hpos, k, x, hx, hu, hp⟩ := h.rows q hq
  refine ⟨hpos, ?_⟩
  by_cases hk : k = sid
  · subst hk
    rcases hsid x hx ⟨q, hq, hu.symm⟩ with ⟨y, hy, hyx, harmed⟩ | ⟨l, z, hz, hzu, hne, harmed⟩
    · exact ⟨k, y, hy, hyx.trans hu, harmed hp⟩
    · exact ⟨l, z, (hothers l hne).trans hz, hzu.trans hu, .inr harmed⟩
  · exact ⟨k, x, (hothers k hk).trans hx, hu, hp⟩

/-- A session is changed in place. -/
theorem Attended.modify (h : Attended w s t) {f : Session → Session}
    (hf : ∀ x, t.get? sid = some x → t.InRoom x.userId →
      ((f x).userId = x.userId ∧ (w sid ∨ x.Armed → w sid ∨ (f x).Armed)) ∨
        t.Has (fun k y => k ≠ sid ∧ y.Armed) x.userId) : Attended w s (modifySession sid f t) := by
  refine h.change (modifySession_world ..) (fun k hk => get?_modifySession_of_ne hk) fun x hx hin => ?_
  exact (hf x hx hin).imp_left fun hsame => ⟨f x, get?_modifySession_self hx, hsame⟩

/-- What a login makes of the sessions of the user that the session was. -/
theorem kept_of_login {x y : Session} {u : ℤ} (hy : y.userId = u) (hpending : y.pending = x.pending)
    (hL : x.userId ≠ u → t.InRoom x.userId → t.Has (fun k z => k ≠ sid ∧ z.Armed) x.userId) (hin : t.InRoom x.userId) :
    (y.userId = x.userId ∧ (w sid ∨ x.Armed → w sid ∨ y.Armed)) ∨
      t.Has (fun k z => k ≠ sid ∧ z.Armed) x.userId := by
  by_cases hu : x.userId = u
  · refine .inl ⟨hy.trans hu.symm, Or.imp_right fun harmed => ?_⟩
    rwa [Session.Armed, hpending]
  · exact .inr (hL hu hin)

theorem enrols_called (hs : t.Sane) {sess : Session} {type : ControllerType} {request : Json}
    (hget : t.get? sid = some sess) (hguard : Guarded sess.identity request type) :
    Enrols t.world (t.called env sid type request).world := by
  cases type with
  | auth => exact (Controller.auth_keeps_of UserRepository.keep_enrols request).after t.world
  | game => exact ((Controller.game_sameUsers request).after t.world).enrols
  | room =>
    have hu : (request.value "userId").getInt = .ok sess.userId := by
      rw [hguard.2]
      exact congrArg Except.ok (hs.session sid sess hget).int
    exact ((Controller.room_keeps_of hu (RoomRepository.keep_sameUsers sess.userId)).after t.world).enrols

theorem Attended.called (h : Attended w s t) (hs : t.Sane) {sess : Session} {type : ControllerType} {request : Json}
    (hget : t.get? sid = some sess) (hguard : Guarded sess.identity request type)
    (hL : (lodging w s).call sid sess.identity type request) : Attended w s (t.called env sid type request) := by
  have husers : Enrols s.world (t.called env sid type request).world :=
    trans_of Enrols h.users (enrols_called hs hget hguard)
  refine ⟨fun q hq => ?_, husers⟩
  rcases mem_roomUsers_called hs hget hguard q with hsame | ⟨rfl, hchanges, hq'⟩
  · exact h.rows q (hsame.1 hq)
  · refine ⟨?_, sid, sess, hget, hq'.symm, .inl hL.1⟩
    -- the account of the row was there before the event, or has got its number since
    obtain ⟨u, hu, huq⟩ := List.mem_map.1 ((t.called env sid .room request).world.db.2.roomUsers_userId_fkey q hq)
    have hne : sess.userId ≠ 0 := hguard.1
    have hnonneg : 0 ≤ sess.userId := by
      have hnew := husers u hu
      rw [huq, hq'] at hnew
      exact hnew.elim id fun hold => (hL.2 rfl hchanges).resolve_right fun hno => hno hold
    omega

theorem Attended.step (h : Attended w s t) (hs : t.Sane) (hmove : Move env (lodging w s) t r) : Attended w s r := by
  cases hmove with
  | call hget hguard hL => exact h.called hs hget hguard hL
  | registry => exact ⟨h.rows, h.users⟩
  | answered => exact ⟨h.rows, h.users⟩
  | start =>
    refine h.modify fun x _ _ => .inl ⟨rfl, Or.imp_right ?_⟩
    exact fun ⟨p, hp, hop⟩ => ⟨p, List.mem_append_left _ hp, hop⟩
  | revise hf =>
    refine h.modify fun x _ _ => .inl ⟨congrArg Identity.userId (hf x).1, Or.imp_right fun harmed => ?_⟩
    rwa [Session.Armed, (hf x).2]
  | mirror => exact h.modify fun x _ _ => .inl ⟨rfl, id⟩
  | token => exact h.modify fun x _ _ => .inl ⟨rfl, id⟩
  | port hget _ _ huser =>
    refine h.modify fun x hx hin => absurd hin ?_
    obtain rfl := Option.some.inj (hget.symm.trans hx)
    rw [huser]
    exact h.not_inRoom_zero
  | halfLogin hget _ hL =>
    refine h.modify fun x hx hin => ?_
    obtain rfl := Option.some.inj (hget.symm.trans hx)
    exact kept_of_login rfl rfl hL hin
  | login hget _ _ hL =>
    refine h.change rfl (fun k hk => (get?_of_insert rfl k).trans (if_neg hk)) fun x hx hin => ?_
    obtain rfl := Option.some.inj (hget.symm.trans hx)
    exact Or.imp_left (fun hsame => ⟨_, AList.lookup_insert _, hsame⟩) (kept_of_login rfl rfl hL hin)

theorem Attended.moves (h : Attended w s t) (hs : t.Sane) (hmoves : Moves env (lodging w s) t r) : Attended w s r := by
  induction hmoves with
  | refl => exact h
  | tail hmoves hmove ih => exact ih.step (Moves.sane hmoves hs) hmove

/-! ### The events -/

theorem Has.mono {p q : ℕ → Session → Prop} {u : ℤ} (h : t.Has p u) (hpq : ∀ k x, p k x → q k x) : t.Has q u := by
  obtain ⟨k, x, hx, hu, hp⟩ := h
  exact ⟨k, x, hx, hu, hpq k x hp⟩

theorem Housed.attended (h : s.Housed) (w : ℕ → Prop) : Attended w s s :=
  ⟨fun q hq => ⟨(h q hq).1, (h q hq).2.mono fun _ _ => .inr⟩, refl_of Enrols _⟩

/-- No handler runs. -/
theorem Attended.housed (h : Attended (fun _ => False) s t) : t.Housed :=
  fun q hq => ⟨(h.rows q hq).1, (h.rows q hq).2.mono fun _ _ hp => hp.resolve_left id⟩

/-- The handler has left its session as it should. -/
theorem Attended.settled (h : Attended (· = sid) s t) (hsettled : Settled sid t) : t.Housed := by
  intro q hq
  obtain ⟨hpos, k, x, hx, hu, hp⟩ := h.rows q hq
  refine ⟨hpos, k, x, hx, hu, ?_⟩
  rcases hp with rfl | harmed
  · exact (hsettled x hx).resolve_right fun hgone => hgone (hu ▸ hpos) q hq hu.symm
  · exact harmed

theorem Housed.reap (h : t.Housed) (sid : ℕ) : (t.reap sid).Housed := by
  rcases reap_cases sid t with ⟨hreap, -⟩ | ⟨y, hy, hidle, hreap⟩
  · rwa [hreap]
  · intro q hq
    obtain ⟨hpos, k, x, hx, hu, harmed⟩ := h q (reap_world sid t ▸ hq)
    have hk : k ≠ sid := by
      rintro rfl
      obtain rfl := Option.some.inj (hy.symm.trans hx)
      obtain ⟨p, hp, -⟩ := harmed
      rw [hidle] at hp
      cases hp
    refine ⟨hpos, k, x, ?_, hu, harmed⟩
    rw [hreap, get?_destroy, if_neg hk, hx]

theorem Housed.complete (hsteady : env.Steady) (hs : s.Sane) (h : s.Housed) {i : ℕ} {p : PendingOp}
    {result : Session.Completion} (hp : s.completed sid i = some p) (hcan : canComplete p result)
    (hL : s.Licensed env (lodging (· = sid) s) (.complete sid i result)) :
    (Server.step env s (.complete sid i result)).Housed := by
  obtain ⟨t, hstep, hend⟩ := step_complete hs hp hcan hL
  rw [hstep]
  refine Housed.reap ?_ sid
  obtain ⟨sess, hsess, hi⟩ := completed_eq_some.1 hp
  rcases hend with ⟨hmoves, hsettled⟩ | ⟨⟨response, hop⟩, rfl⟩
  · have htake : Attended (· = sid) s (s.take sid i) :=
      (h.attended _).modify fun x _ _ => .inl ⟨rfl, fun _ => .inl rfl⟩
    exact (htake.moves (hs.take sid i) hmoves).settled (hsettled hsteady)
  · -- the operation taken out is not what made the session wait
    suffices Attended (fun _ => False) s (s.take sid i) from this.housed
    refine (h.attended _).modify fun x hx _ => .inl ⟨rfl, Or.imp_right ?_⟩
    obtain rfl := Option.some.inj (hsess.symm.trans hx)
    rintro ⟨q, hq, hqop⟩
    obtain ⟨j, hj⟩ := List.mem_iff_getElem?.1 hq
    have hne : j ≠ i := by
      rintro rfl
      obtain rfl := Option.some.inj (hi.symm.trans hj)
      exact hqop response hop
    exact ⟨q, List.mem_eraseIdx_iff_getElem?.2 ⟨j, hne, hj⟩, hqop⟩

theorem Housed.accept (h : s.Housed) (hs : s.Sane) (remoteIp : String) (mirrorPort : ℤ) :
    (s.accept remoteIp mirrorPort).Housed := by
  intro q hq
  obtain ⟨hpos, k, x, hx, hu, harmed⟩ := h q hq
  have hk : k ≠ s.nextId := (hs.heap k (Option.isSome_of_mem hx)).ne
  refine ⟨hpos, k, x, ?_, hu, harmed⟩
  rw [get?_of_insert rfl, if_neg hk, hx]

/-- The rows after `handle_error`. -/
theorem mem_roomUsers_ended (hsteady : env.Steady) {sess : Session} (hint : Json.wrapInt sess.userId = sess.userId)
    (q : RoomUserRow) : q ∈ (t.ended env sid sess).world.db.1.roomUsers ↔
      q ∈ t.world.db.1.roomUsers ∧ (0 < sess.userId → q.userId ≠ sess.userId) := by
  by_cases hpos : 0 < sess.userId
  · have hu : ((Session.exitRequest sess.userId).value "userId").getInt = .ok sess.userId := congrArg Except.ok hint
    have hleft : ∀ q ∈ (t.ended env sid sess).world.db.1.roomUsers, q.userId ≠ sess.userId :=
      ended_leaves hsteady hint hpos
    by_cases hq : q.userId = sess.userId
    · exact iff_of_false (fun hmem => hleft q hmem hq) fun hmem => hmem.2 hpos hq
    · have hkept : Keeps (OnlyRowsOf sess.userId) (Controller.room env (Session.exitRequest sess.userId)) :=
        Controller.room_keeps hu
      rw [ended, if_pos hpos, modifySession_world]
      exact (hkept.after t.world q hq).trans ⟨fun hmem => ⟨hmem, fun _ => hq⟩, And.left⟩
  · rw [ended, if_neg hpos, modifySession_world]
    exact ⟨fun hmem => ⟨hmem, fun h => absurd h hpos⟩, And.left⟩

/-- What is done to `sessions_` and `running_` leaves the server in order. -/
theorem Sane.unlist (h : t.Sane) {sessions : AList fun _ : String => ℕ} {running : Bool}
    (hsessions : t.Registers t.sessions sessions) : Server.Sane { t with sessions, running } := by
  have hmove : Move .reliable .free t { t with sessions, running } := .registry (registers_refl _) hsessions
  exact hmove.sane h

theorem Sane.ended (h : t.Sane) {sess : Session} (hget : t.get? sid = some sess) : (t.ended env sid sess).Sane :=
  Moves.sane (moves_ended (L := .free) hget fun _ => trivial) h

theorem Housed.ended (hsteady : env.Steady) (hs : t.Sane) (h : t.Housed) {sess : Session}
    (hget : t.get? sid = some sess) : (t.ended env sid sess).Housed := by
  intro q hq
  have hold := ((mem_roomUsers_ended hsteady (hs.session sid sess hget).int q).1 hq).1
  obtain ⟨hpos, k, x, hx, hu, harmed⟩ := h q hold
  refine ⟨hpos, ?_⟩
  by_cases hk : k = sid
  · subst hk
    obtain rfl := Option.some.inj (hget.symm.trans hx)
    exact ⟨k, { sess with isOpen := false }, by rw [get?_ended hget, if_pos rfl], hu, harmed⟩
  · exact ⟨k, x, by rw [get?_ended hget, if_neg hk, hx], hu, harmed⟩

theorem Housed.sessionCheck (hsteady : env.Steady) (hs : s.Sane) (h : s.Housed) :
    (Server.step env s .sessionCheck).Housed := by
  have hrun : wp (checkInactiveSessions env) (fun _ t => t.Sane ∧ t.Housed) (fun _ _ => False) s := by
    simp only [checkInactiveSessions, wp_bind, wp_get, wp_onlyIf]
    refine ⟨fun _ => ?_, fun _ => ⟨hs, h⟩⟩
    refine wp_removeInactive (I := fun t => t.Sane ∧ t.Housed) _ s ⟨hs, h⟩ fun token _ t sid ht _ => ?_
    have herase : Server.Sane { t with sessions := t.sessions.erase token } ∧
        Server.Housed { t with sessions := t.sessions.erase token } :=
      ⟨ht.1.unlist (registers_erase _ _), ht.2⟩
    exact ⟨herase, fun sess hget => ⟨herase.1.ended hget, herase.2.ended hsteady herase.1 hget⟩⟩
  have hends := run_of_wp hrun
  exact hends.2

/-- The loop of `stop` takes the users of its sessions out of their rooms, and nobody else. -/
theorem endSessions_leaves (hsteady : env.Steady) :
    ∀ (sids : List ℕ) (t : Server), t.Sane →
      wp (endSessions env sids)
        (fun _ r => ∀ q, q ∈ r.world.db.1.roomUsers ↔ q ∈ t.world.db.1.roomUsers ∧
          ∀ sid ∈ sids, ∀ x, t.get? sid = some x → 0 < x.userId → q.userId ≠ x.userId)
        (fun _ _ => False) t
  | [], _, _ => fun q => ⟨fun hq => ⟨hq, fun _ h => absurd h List.not_mem_nil⟩, And.left⟩
  | sid :: sids, t, hs => by
    simp only [endSessions, wp_bind, wp_get, wp_onlyIf, Option.isSome_iff_exists]
    constructor
    · rintro ⟨sess, hget⟩
      refine wp_handleError hget (wp_mono (fun _ r hr q => ?_) (fun _ _ h => h)
        (endSessions_leaves hsteady sids _ (hs.ended hget)))
      rw [hr q, mem_roomUsers_ended hsteady (hs.session sid sess hget).int, and_assoc, List.forall_mem_cons]
      refine and_congr_right fun _ => and_congr ⟨fun hsid x hx => ?_, fun hsid => hsid sess hget⟩ ?_
      · obtain rfl := Option.some.inj (hget.symm.trans hx)
        exact hsid
      · -- the sessions that are still to be ended have the users they had
        refine forall₂_congr fun k _ => ?_
        rw [get?_ended hget]
        by_cases hk : k = sid
        · subst hk
          simp only [if_true, hget, Option.some.injEq, forall_eq']
        · rw [if_neg hk]
    · intro hnone
      refine wp_mono (fun _ r hr q => ?_) (fun _ _ h => h) (endSessions_leaves hsteady sids t hs)
      rw [hr q, List.forall_mem_cons]
      exact and_congr_right fun _ => ⟨fun hrest => ⟨fun x hx => absurd ⟨x, hx⟩ hnone, hrest⟩, And.right⟩

/-- The rows that a signal leaves. -/
theorem mem_roomUsers_signal (hsteady : env.Steady) (hs : s.Sane) (hrunning : s.running) (q : RoomUserRow) :
    q ∈ (Server.step env s .signal).world.db.1.roomUsers ↔ q ∈ s.world.db.1.roomUsers ∧
      ∀ e ∈ s.entries env, ∀ x, s.get? e.2 = some x → 0 < x.userId → q.userId ≠ x.userId := by
  have hrun : wp (stop env) (fun _ t => ∀ q, q ∈ t.world.db.1.roomUsers ↔ q ∈ s.world.db.1.roomUsers ∧
      ∀ sid ∈ (s.entries env).map (·.2), ∀ x, s.get? sid = some x → 0 < x.userId → q.userId ≠ x.userId)
      (fun _ _ => False) s := by
    simp only [stop, wp_bind, wp_get, wp_onlyIf, wp_set, wp_modify]
    refine ⟨fun _ => ?_, fun h => absurd hrunning h⟩
    have hsane : Server.Sane { s with running := false } := hs.unlist (registers_refl _)
    exact endSessions_leaves hsteady _ _ hsane
  have hrows := run_of_wp hrun
  have hstep : (Server.step env s .signal).world = (run (stop env) s).world := by
    rw [Server.step, if_pos hrunning]
    rfl
  rw [hstep, hrows q, List.forall_mem_map]

/-- Whom `stop` leaves in a room. -/
theorem stays_iff (h : s.Housed) {q : RoomUserRow} (hq : q ∈ s.world.db.1.roomUsers) :
    (∀ e ∈ s.entries env, ∀ x, s.get? e.2 = some x → 0 < x.userId → q.userId ≠ x.userId) ↔
      ∀ e ∈ s.entries env, (s.get? e.2).all fun x => x.userId ≠ q.userId := by
  refine forall₂_congr fun e _ => ?_
  cases s.get? e.2 with
  | none => simp
  | some x =>
    rw [Option.all_some, decide_eq_true_eq]
    constructor
    · exact fun hx hu => hx x rfl (hu ▸ (h q hq).1) hu.symm
    · rintro hne y hy - hu
      obtain rfl := Option.some.inj hy
      exact hne hu.symm

theorem Housed.signal (hsteady : env.Steady) (hs : s.Sane) (h : s.Housed) (hstay : ¬ s.Abandons env .signal) :
    (Server.step env s .signal).Housed := by
  by_cases hrunning : s.running
  · intro q hq
    obtain ⟨hold, hleft⟩ := (mem_roomUsers_signal hsteady hs hrunning q).1 hq
    exact absurd ⟨hrunning, q, hold, (stays_iff h hold).1 hleft⟩ hstay
  · have hstep : Server.step env s .signal = s := step_of_not_happens hrunning
    rwa [hstep]

/-- A process that ends so leaves a ghost. -/
theorem Abandons.ghost (hsteady : env.Steady) (hs : s.Sane) (h : s.Housed) {e : Event} (ha : s.Abandons env e) :
    ¬ (Server.step env s e).NoGhosts := by
  have hhalt : ∀ {t : Server} {q : RoomUserRow}, t.heap = ∅ → q ∈ t.world.db.1.roomUsers → ¬ t.NoGhosts := by
    intro t q hheap hq hno
    obtain ⟨sid, sess, hget, -⟩ := hno q hq
    rw [get?_of_empty hheap] at hget
    cases hget
  cases e with
  | accept remoteIp mirrorPort =>
    cases remoteIp with
    | none =>
      obtain ⟨hrunning, hne⟩ := ha
      obtain ⟨q, hq⟩ := List.exists_mem_of_ne_nil _ hne
      rw [Server.step, if_pos hrunning]
      exact hhalt rfl hq
    | some remoteIp => exact absurd ha id
  | signal =>
    obtain ⟨hrunning, q, hq, hall⟩ := ha
    have hheap : (Server.step env s .signal).heap = ∅ := by
      rw [Server.step, if_pos hrunning]
      rfl
    exact hhalt hheap ((mem_roomUsers_signal hsteady hs hrunning q).2 ⟨hq, (stays_iff h hq).2 hall⟩)
  | complete | sessionCheck | broadcast | tick => exact absurd ha id

theorem Faithful.licensed {e : Event} (h : s.Faithful env e) (he : ∀ x ∈ s.deeds env e, x.1 = sid) :
    s.Licensed env (lodging (· = sid) s) e := by
  rintro ⟨k, d⟩ hx
  have hd := h.1 _ hx
  obtain rfl : k = sid := he _ hx
  cases d with
  | call i type request =>
    refine ⟨rfl, fun htype hchanges => ?_⟩
    subst htype
    by_contra hn
    rw [not_or, not_le, not_not] at hn
    exact hd ⟨hchanges, hn⟩
  | login i u =>
    intro t hcalm hne hin
    -- the deed was judged in the state before the event, which had the same rows and other sessions
    have hin' : s.InRoom i.userId := by
      rwa [InRoom, hcalm.roomUsers] at hin
    by_contra hno
    refine hd ⟨hne, hin', fun ⟨l, x, hx, hu, hl, harmed⟩ => hno ⟨l, x, ?_, hu, hl, harmed⟩⟩
    rw [hcalm.others l hl, hx]

/-- **An event that leaves no member behind keeps every member's session waiting.** -/
theorem Faithful.step (hsteady : env.Steady) (hs : s.Sane) (h : s.Housed) {e : Event} (he : s.Faithful env e) :
    (Server.step env s e).Housed := by
  by_cases hhappens : s.Happens e
  swap
  · rwa [step_of_not_happens hhappens]
  cases e with
  | accept remoteIp mirrorPort =>
    cases remoteIp with
    | none =>
      have hrunning : s.running := hhappens
      rw [Server.step, if_pos hrunning]
      have hnil : s.world.db.1.roomUsers = [] := by
        by_contra hne
        exact he.2 ⟨hhappens, hne⟩
      intro q hq
      have hmem : q ∈ s.world.db.1.roomUsers := hq
      rw [hnil] at hmem
      cases hmem
    | some remoteIp =>
      have hrunning : s.running := hhappens
      rw [Server.step, if_pos hrunning]
      exact h.accept hs remoteIp mirrorPort
  | complete sid i result =>
    obtain ⟨p, hp, hcan⟩ := hhappens
    exact h.complete hsteady hs hp hcan (he.licensed fun x hx => deeds_runsOn hx sid i result rfl)
  | sessionCheck => exact h.sessionCheck hsteady hs
  | broadcast => exact ((h.attended _).moves hs (step_broadcast hs)).housed
  | tick => exact h
  | signal => exact h.signal hsteady hs he.2

/-- **Where no session becomes somebody else while its user is in a room, and no
process ends before the members are out, there are no ghosts.** -/
theorem noGhosts_throughout (hsteady : env.Steady) (h : Init s) (hempty : s.world.db.1.roomUsers = []) (es : List Event)
    (hes : Run.Along (step env) (Faithful env) s es) : Run.Throughout (step env) NoGhosts s es := by
  have hhoused : s.Housed := fun q hq => by
    rw [hempty] at hq
    cases hq
  have hinv := Run.throughout_of_along (I := fun t : Server => t.Sane ∧ t.Housed)
    (fun t e ht he => ⟨step_sane ht.1 e, Faithful.step hsteady ht.1 ht.2 he⟩) ⟨h.sane, hhoused⟩ hes
  exact hinv.mono fun _ ht => ht.2.noGhosts

theorem noGhosts_stopped : Run.Throughout (step .reliable) NoGhosts init (hostRun ++ [.signal]) :=
  noGhosts_throughout (fun _ => rfl) init_init rfl _ (by decide +kernel)

/-- A client that has opened a room logs in as somebody else. -/
def changelingRun : List Event := hostRun ++ sends 0 (credentials "SSAFYlogin" "newcomer" "password")

/-- The first account stays in the room. -/
theorem not_noGhosts_changelingRun : ¬ Run.Throughout (step .reliable) NoGhosts init changelingRun := by
  intro h
  have hlast : (∃ r ∈ (changelingRun.foldl (step .reliable) init).world.db.1.roomUsers, r.userId = 1) ∧
      (changelingRun.foldl (step .reliable) init).heap.entries.all fun e => e.2.userId ≠ 1 := by decide +kernel
  obtain ⟨⟨r, hr, hu⟩, hall⟩ := hlast
  obtain ⟨sid, sess, hget, hsess⟩ := h.last r hr
  have hne := List.all_eq_true.1 hall ⟨sid, sess⟩ (AList.mem_lookup_iff.1 hget)
  simp [hsess, hu] at hne

end Server

end Matching
end SocketCommunication
