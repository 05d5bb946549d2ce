/-
# Whose nickname a request changes

`updateNickName` renames the account that the `userId` of the request names.  The
dispatcher writes the `user_id_` of the session there, but only where that is not
0: a session that has not logged in names whom it likes.

`nickSound_iff`: a request changes no nickname but that of the account the session
is logged in as, unless it is `Stray`: its session has the user 0 and names another
account, or is one of those that have a user without a login, a mirror with its port
and the user −1 of a login that has failed.  All others are logged in as their
`user_id_` (`Accounted`), and the dispatcher names no other account for them.
-/

import SocketCommunication.Matching.Answers
import SocketCommunication.Matching.RoomCallers

namespace SocketCommunication
namespace Matching

open Effect UserRepository

/-- The request asks, in a form that the service accepts, to rename `u` to `nickName`. -/
structure Names (request : Json) (u : ℤ) (nickName : String) : Prop where
  text : request.value "nickName" = .str nickName
  valid : AuthService.isValidNickName nickName
  userId : (request.value "userId").getInt = .ok u

theorem Names.unique {request : Json} {u v : ℤ} {m n : String} (h : Names request u m) (h' : Names request v n) :
    u = v ∧ m = n :=
  ⟨Except.ok.inj (h.userId.symm.trans h'.userId), Json.str.inj (h.text.symm.trans h'.text)⟩

/-- The accounts after a request to rename one. -/
def RenamedBy (env : Env) (request : Json) (w w' : World) : Prop :=
  (∃ u nickName, Names request u nickName ∧ Renames env w u nickName ∧
    w'.db.1.users = (w.db.1.setNickName u (sqlText nickName)).users) ∨
  ((∀ u nickName, Names request u nickName → ¬ Renames env w u nickName) ∧ w'.db.1.users = w.db.1.users)

section Spec

variable {env : Env}

theorem AuthService.updateNickName_renames (w : World) (request : Json) :
    wp (AuthService.updateNickName env request) (fun _ => RenamedBy env request w)
      (fun _ => RenamedBy env request w) w := by
  have hnot : (∀ u nickName, ¬ Names request u nickName) → RenamedBy env request w w :=
    fun h => .inr ⟨fun u nickName hn => absurd hn (h u nickName), rfl⟩
  simp only [AuthService.updateNickName, wp_ite, wp_pure, wp_bind, wp_orThrow]
  refine ⟨fun hmiss => hnot fun u nickName hn => hmiss ⟨Json.contains_of_getInt hn.userId, ?_⟩, fun _ =>
    ⟨fun nickName hnick => ⟨fun hinvalid => hnot fun u n hn => hinvalid ?_, fun hvalid => ⟨fun u hu => ?_, fun e he =>
      hnot fun u n hn => ?_⟩⟩, fun e he => hnot fun u n hn => ?_⟩⟩
  · exact Json.contains_of_value hn.text
  · obtain rfl := Json.str.inj ((Json.getString_ok hnick).symm.trans hn.text)
    exact hn.valid
  · have hnames : Names request u nickName := ⟨Json.getString_ok hnick, not_not.1 hvalid, hu⟩
    have hrenamed : ∀ {w'}, ¬ Renames env w u nickName → Unpublished w w' → RenamedBy env request w w' := by
      intro w' hn hw
      refine .inr ⟨fun v m hm => ?_, by rw [hw.1]⟩
      obtain ⟨rfl, rfl⟩ := hm.unique hnames
      exact hn
    refine wp_mono (fun updated w' h => ?_) (fun _ w' h => hrenamed h.1 h.2) (updateUserNickName_spec w u nickName)
    have hpost : RenamedBy env request w w' := by
      rcases h with ⟨hren, hp, -⟩ | ⟨hn, hu', -⟩
      · exact .inl ⟨u, nickName, hnames, hren, by rw [hp.1]⟩
      · exact hrenamed hn hu'
    exact ⟨fun _ => hpost, fun _ => hpost⟩
  · rw [hn.userId] at he
    cases he
  · rw [hn.text] at he
    cases he

theorem Controller.auth_updateNickName {request : Json} (haction : request.value "action" = .str "updateNickName") :
    Controller.auth env request = AuthService.updateNickName env request := by
  simp only [Controller.auth, Json.index_of_value haction, orThrow_ok, Json.getString, pure_bind]
  rfl

end Spec

section Requests

variable {env : Env} {sid : ℕ} {s : Server} {sess : Session} {request : Json}

/-- A request to change a nickname goes to the `auth` controller, and nothing else
touches the database. -/
theorem processRequest_updateNickName (hs : s.get? sid = some sess)
    (haction : request.value "action" = .str "updateNickName") :
    wp (Session.processRequest env sid request)
      (fun _ t => t.world = after (Controller.auth env (sess.identity.sign request)) s.world)
      (fun _ _ => False) s := by
  have hwrite : ∀ t, t.world = after (Controller.auth env (sess.identity.sign request)) s.world →
      wp (Session.writeResponse sid (errorResponse "잘못된 요청 형식"))
        (fun _ t => t.world = after (Controller.auth env (sess.identity.sign request)) s.world)
        (fun _ _ => False) t :=
    fun t ht => (Server.modifySession_world ..).trans ht
  refine wp_processRequest_auth hs haction (by decide) ?_
  refine wp_call (fun response w hrun => ?_) fun _ _ _ => hwrite _ rfl
  exact wp_mono (fun _ _ h => h) (fun _ t ht => hwrite t ht)
    (Session.respond_keeps sid "updateNickName" response (s.called env sid .auth (sess.identity.sign request)))

/-- A handshake of a client that carries the request. -/
theorem clientHandshake_updateNickName (hs : s.get? sid = some sess) (hg : s.Greeted sid) (hzero : sess.userId = 0)
    (hversion : (request.value "version").eqString s.version)
    (haction : request.value "action" = .str "updateNickName") :
    wp (Session.clientHandshake env sid request)
      (fun _ t => t.world = after (Controller.auth env request) s.world) (fun _ _ => False) s := by
  have hstr : request.value "version" = .str s.version := Json.eq_of_eqString hversion
  rw [Session.clientHandshake, wp_bind]
  refine wp_mono (fun _ t ht => ?_) (fun _ _ h => h) (checkAddress_near (L := .free) hs hg hzero)
  obtain ⟨hmoves, hnear⟩ := ht
  obtain ⟨x, hx, hid⟩ := hnear.get? hs
  have hxzero : x.userId = 0 := (congrArg Identity.userId hid).trans hzero
  have hmiss : ¬ ¬ request.contains "version" = true := not_not.2 (Json.contains_of_value hstr)
  simp only [wp_bind, wp_get, wp_ite, hmiss, hstr, Json.getString, orThrow_ok, wp_pure, hnear.version, ne_eq,
    not_true_eq_false, false_implies, true_implies, not_false_eq_true, true_and]
  refine wp_mono (fun _ r hr => ?_) (fun _ _ h => h.elim) (initSession_moves (L := .free) hx (hmoves.greeted hg) hxzero)
  obtain ⟨-, -, hworld, hr⟩ := hr
  refine ⟨fun _ => ?_, fun hn => absurd (Json.contains_of_value haction) hn⟩
  have hask := @processRequest_updateNickName env sid r _ request hr haction
  have hsign : (Session.identity { x with token := env.uuid t.uuids }).sign request = request :=
    if_neg (not_not.2 hxzero)
  rwa [hsign, hworld, hnear.world] at hask

/-- What the handler of an operation leaves in the database, the step leaves. -/
theorem step_world_of_complete {k : ℕ} {p : PendingOp} {result : Session.Completion} {w : World}
    (hp : s.completed sid k = some p) (hcan : Server.canComplete p result)
    (h : wp (Session.complete env sid p.op result) (fun _ t => t.world = w) (fun _ _ => False) (s.take sid k)) :
    (Server.step env s (.complete sid k result)).world = w := by
  have hworld := Server.run_of_wp h
  rw [Server.step_completes hp hcan, Server.reap_world]
  exact hworld

/-- The request gets to `process_request`: as a message, or with the handshake of a client
of the right version. -/
def Server.Receives (s : Server) (sid k : ℕ) (request : Json) : Prop :=
  ∃ p, s.completed sid k = some p ∧ p.live ∧ (p.op = .readMessage ∨
    (p.op = .readHandshake ∧ ¬ Session.asksMirror request ∧ (request.value "version").eqString s.version))

/-- **A message that asks to change a nickname** goes to `auth`, with the user of its
session, if it is received. -/
theorem step_updateNickName (hs : s.Sane) {k : ℕ} (hget : s.get? sid = some sess)
    (haction : request.value "action" = .str "updateNickName") :
    (s.Receives sid k request ∧ (Server.step env s (.complete sid k (.ok (some request)))).world =
      after (Controller.auth env (sess.identity.sign request)) s.world) ∨
    (¬ s.Receives sid k request ∧ (Server.step env s (.complete sid k (.ok (some request)))).world = s.world) := by
  cases hp : s.completed sid k with
  | none =>
    refine .inr ⟨?_, step_world_of_nil hs (by simp [Server.deeds, hp])⟩
    rintro ⟨p, hp', -⟩
    cases hp.symm.trans hp'
  | some p =>
    obtain ⟨x, hx, hi⟩ := Server.completed_eq_some.1 hp
    obtain rfl := Option.some.inj (hget.symm.trans hx)
    have honly : ∀ {q}, s.completed sid k = some q → q = p := fun hq => Option.some.inj (hq.symm.trans hp)
    by_cases hcan : Server.canComplete p (.ok (some request))
    swap
    · refine .inr ⟨?_, step_world_of_nil hs (by simp [Server.deeds, hget, hp, hcan])⟩
      rintro ⟨q, hq, hlive, -⟩
      obtain rfl := honly hq
      exact hcan hlive
    have hdeeds : s.deeds env (.complete sid k (.ok (some request))) =
        (s.completes env sess.identity p.op (.ok (some request))).map (sid, ·) := by
      simp only [Server.deeds, hget, hp, hcan, if_true]
    have htake := Server.get?_take hget k
    have hworld : (s.take sid k).world = s.world := Server.modifySession_world ..
    cases hop : p.op with
    | readMessage =>
      refine .inl ⟨⟨p, hp, hcan, .inl hop⟩, step_world_of_complete hp hcan ?_⟩
      simp only [hop, Session.complete, Session.readMessage, wp_tryCatch]
      refine wp_mono (fun _ t ht => ?_) (fun _ _ h => h.elim) (processRequest_updateNickName htake haction)
      rwa [hworld] at ht
    | readHandshake =>
      by_cases hgo : ¬ Session.asksMirror request ∧ (request.value "version").eqString s.version
      · have hsess := hs.session sid sess hget
        obtain ⟨-, -, hid⟩ := hsess.fresh fun hg => hg p (List.mem_of_getElem? hi) hop
        have hzero : sess.userId = 0 := congrArg Identity.userId hid
        have hsign : sess.identity.sign request = request := if_neg (not_not.2 hzero)
        refine .inl ⟨⟨p, hp, hcan, .inr ⟨hop, hgo⟩⟩, step_world_of_complete hp hcan ?_⟩
        have hgreeted : (s.take sid k).Greeted sid := by
          intro x hx
          obtain rfl := Option.some.inj (htake.symm.trans hx)
          exact hsess.greeted_take hi
        have hversion : (request.value "version").eqString (s.take sid k).version := by
          rw [Server.take, Server.modifySession_version]
          exact hgo.2
        simp only [hop, Session.complete, Session.readHandshake, wp_tryCatch]
        refine (wp_ite _ _ _).2 ⟨fun hmirror => absurd hmirror hgo.1, fun _ => ?_⟩
        refine wp_mono (fun _ t ht => ?_) (fun _ _ h => h.elim)
          (clientHandshake_updateNickName htake hgreeted hzero hversion haction)
        rw [hsign, ht, hworld]
      · refine .inr ⟨?_, step_world_of_nil hs ?_⟩
        · rintro ⟨q, hq, -, hread | ⟨-, hgo'⟩⟩
          · obtain rfl := honly hq
            cases hop.symm.trans hread
          · exact hgo hgo'
        · rw [hdeeds, hop, Server.completes, if_neg fun h => hgo ⟨h.1, h.2.1⟩]
          rfl
    | _ =>
      refine .inr ⟨?_, step_world_of_nil hs (by rw [hdeeds, hop]; rfl)⟩
      rintro ⟨q, hq, -, hread | ⟨hread, -⟩⟩
      · obtain rfl := honly hq
        cases hop.symm.trans hread
      · obtain rfl := honly hq
        cases hop.symm.trans hread

/-- The account that the request names once the dispatcher has passed on `user_id_`, which
it does where that is not 0. -/
def Session.target (sess : Session) (request : Json) : Except Exn ℤ :=
  if sess.userId = 0 then (request.value "userId").getInt else .ok sess.userId

theorem getInt_sign (hobj : request.isObject) (hint : Json.wrapInt sess.userId = sess.userId) :
    ((sess.identity.sign request).value "userId").getInt = sess.target request := by
  rw [Session.target]
  by_cases hzero : sess.userId = 0
  · have hsign : sess.identity.sign request = request := if_neg (not_not.2 hzero)
    rw [hsign, if_pos hzero]
  · rw [value_sign_userId hobj hzero, if_neg hzero]
    exact congrArg Except.ok hint

/-- The nickname in the request is valid, the account `u` is there with another one, and the
calls of the `UPDATE` answer. -/
def Renaming (env : Env) (w : World) (request : Json) (u : ℤ) : Prop :=
  ∃ nickName, request.value "nickName" = .str nickName ∧ AuthService.isValidNickName nickName ∧
    Renames env w u nickName ∧
    ∃ row ∈ w.db.1.users, row.userId = u ∧ row.nickName ≠ some (Tables.varchar 16 (sqlText nickName))

theorem names_sign_iff (hobj : request.isObject) (hint : Json.wrapInt sess.userId = sess.userId) {u : ℤ}
    {nickName : String} :
    Names (sess.identity.sign request) u nickName ↔ sess.target request = .ok u ∧
      request.value "nickName" = .str nickName ∧ AuthService.isValidNickName nickName := by
  have hnick : (sess.identity.sign request).value "nickName" = request.value "nickName" := value_sign (by decide)
  constructor
  · exact fun h => ⟨(getInt_sign hobj hint).symm.trans h.userId, hnick ▸ h.text, h.valid⟩
  · exact fun ⟨htarget, htext, hvalid⟩ => ⟨hnick.trans htext, hvalid, (getInt_sign hobj hint).trans htarget⟩

/-- Whose nickname has changed after a request to rename an account. -/
theorem RenamedBy.changed_iff {w w' : World} (hobj : request.isObject)
    (hint : Json.wrapInt sess.userId = sess.userId) (h : RenamedBy env (sess.identity.sign request) w w')
    {row : UserRow} (hrow : row ∈ w.db.1.users) :
    (∃ row' ∈ w'.db.1.users, row'.userId = row.userId ∧ row'.nickName ≠ row.nickName) ↔
      sess.target request = .ok row.userId ∧ Renaming env w request row.userId := by
  have hkey : ∀ q ∈ w.db.1.users, q.userId = row.userId → q = row := fun q hq hid =>
    Rows.eq_of_key_eq w.db.2.users_pkey hq hrow hid
  rcases h with ⟨u, nickName, hnames, hren, husers⟩ | ⟨hnone, husers⟩
  · rw [husers]
    constructor
    · rintro ⟨row', hrow', hid, hnick⟩
      obtain ⟨q, hq, rfl⟩ := Rows.mem_update.1 hrow'
      split_ifs at hid hnick with hu
      · obtain rfl := hkey q hq hid
        obtain ⟨htarget, htext, hvalid⟩ := (names_sign_iff hobj hint).1 hnames
        exact hu ▸ ⟨htarget, nickName, htext, hvalid, hren, q, hq, hu, fun he => hnick he.symm⟩
      · exact absurd (congrArg UserRow.nickName (hkey q hq hid)) hnick
    · rintro ⟨htarget, n, htext, hvalid, -, q, hq, hid, hnick⟩
      obtain ⟨rfl, rfl⟩ := ((names_sign_iff hobj hint).2 ⟨htarget, htext, hvalid⟩).unique hnames
      obtain rfl := hkey q hq hid
      refine ⟨_, Rows.mem_update.2 ⟨q, hq, if_pos rfl⟩, rfl, fun he => hnick he.symm⟩
  · rw [husers]
    constructor
    · rintro ⟨row', hrow', hid, hnick⟩
      exact absurd (congrArg UserRow.nickName (hkey row' hrow' hid)) hnick
    · rintro ⟨htarget, n, htext, hvalid, hren, -⟩
      exact absurd hren (hnone _ _ ((names_sign_iff hobj hint).2 ⟨htarget, htext, hvalid⟩))

namespace Server

/-- The event changes no nickname but that of the account `sid` is logged in as. -/
def NickSound (env : Env) (s : Server) (sid : ℕ) (e : Event) : Prop :=
  ∀ row ∈ s.world.db.1.users, ∀ row' ∈ (step env s e).world.db.1.users, row'.userId = row.userId →
    row'.nickName ≠ row.nickName → s.LoggedIn sid row.userId

/-- The session acts for a user without a login: it is nobody, and the account is another
than 0; or a mirror that has its port for a user; or the user is 0 or −1 without such a login
(an account of either number is one that nobody has created). -/
def Usurps (s : Server) (sid : ℕ) (sess : Session) (u : ℤ) : Prop :=
  (sess.userId = 0 ∧ u ≠ 0) ∨ (sess.isMirror ∧ sess.token = "") ∨
    ((sess.userId = 0 ∨ sess.userId = -1) ∧ ¬ LoginAnswered s.trace sid sess.userId)

/-- The request renames an account for a session that acts without a login. -/
def Stray (env : Env) (s : Server) (sid k : ℕ) (request : Json) : Prop :=
  s.Receives sid k request ∧ ∃ sess, s.get? sid = some sess ∧
    ∃ u, sess.target request = .ok u ∧ Renaming env s.world request u ∧ s.Usurps sid sess u

/-- **Every session is nobody, acts without a login, or is logged in.** -/
theorem accounted_of_reachable (h : Reachable env s) : s.Accounted := by
  have hinv : s.Sane ∧ s.Accounted :=
    Run.Reachable.inv (I := fun s : Server => s.Sane ∧ s.Accounted) (fun _ h => ⟨h.sane, h.accounted⟩)
      (fun _ e hs => step_inv (I := Accounted) (fun _ _ hsane ha hchange => ha.step (hchange.whoChange hsane)) hs.1 hs.2
        (licensed_free e)) h
  exact hinv.2

/-- Of the accounts that a request may name, a session that acts without a login is not
logged in as one, and any other is. -/
theorem usurps_iff (hs : Reachable env s) (hget : s.get? sid = some sess) {u : ℤ}
    (htarget : sess.target request = .ok u) : s.Usurps sid sess u ↔ ¬ s.LoggedIn sid u := by
  have hwho := who_of_get? hget
  have hlogged : s.LoggedIn sid u ↔ sess.userId = u ∧ LoginAnswered s.trace sid u := by
    refine and_congr_left fun _ => ⟨?_, fun h => ⟨sess, hget, h⟩⟩
    rintro ⟨x, hx, hu⟩
    obtain rfl := Option.some.inj (hget.symm.trans hx)
    exact hu
  rw [hlogged]
  constructor
  · rintro (⟨hzero, hne⟩ | ⟨hmirror, htoken⟩ | ⟨-, hno⟩) ⟨rfl, hans⟩
    · exact hne hzero
    · exact (keyed_of_reachable hs).answered sid _ _ hwho hans htoken
    · exact hno hans
  · intro hno
    have hthere := accounted_of_reachable hs sid _ hwho
    by_cases hzero : sess.userId = 0
    · by_cases hu : u = 0
      · exact .inr (.inr ⟨.inl hzero, fun hans => hno ⟨hzero.trans hu.symm, by rwa [hu, ← hzero]⟩⟩)
      · exact .inl ⟨hzero, hu⟩
    · obtain rfl : sess.userId = u := by
        rw [Session.target, if_neg hzero] at htarget
        exact Except.ok.inj htarget
      have hnone : ¬ LoginAnswered s.trace sid sess.userId := fun hans => hno ⟨rfl, hans⟩
      rcases (hthere.resolve_left hzero).resolve_right hnone with hmirror | hhalf
      · exact .inr (.inl hmirror)
      · exact .inr (.inr ⟨.inr hhalf, hnone⟩)

/-- **A request to change a nickname keeps to the account of the session just when
it is not stray.** -/
theorem nickSound_iff (hs : Reachable env s) (sid k : ℕ) (request : Json)
    (haction : request.value "action" = .str "updateNickName") :
    s.NickSound env sid (.complete sid k (.ok (some request))) ↔ ¬ s.Stray env sid k request := by
  have hsame : (step env s (.complete sid k (.ok (some request)))).world = s.world →
      s.NickSound env sid (.complete sid k (.ok (some request))) := by
    intro hworld row hrow row' hrow' hid hnick
    rw [hworld] at hrow'
    exact absurd (congrArg UserRow.nickName (Rows.eq_of_key_eq s.world.db.2.users_pkey hrow' hrow hid)) hnick
  cases hget : s.get? sid with
  | none =>
    refine iff_of_true (hsame (step_world_of_nil hs.sane ?_)) ?_
    · simp [deeds, completed, hget]
    · rintro ⟨-, sess, hget', -⟩
      cases hget.symm.trans hget'
  | some sess =>
    have hint := (hs.sane.session sid sess hget).int
    have hobj : request.isObject := Json.isObject_of_value haction
    rcases @step_updateNickName env sid s sess request hs.sane k hget haction with ⟨hreceives, hworld⟩ | ⟨hno, hworld⟩
    swap
    · exact iff_of_true (hsame hworld) fun h => hno h.1
    have haction' : (sess.identity.sign request).value "action" = .str "updateNickName" :=
      (value_sign (by decide)).trans haction
    have hby : RenamedBy env (sess.identity.sign request) s.world
        (Server.step env s (.complete sid k (.ok (some request)))).world := by
      rw [hworld, Controller.auth_updateNickName haction']
      exact wp_iff_after.1 (AuthService.updateNickName_renames s.world (sess.identity.sign request))
    constructor
    · rintro h ⟨-, x, hx, u, htarget, hren, husurps⟩
      obtain rfl := Option.some.inj (hget.symm.trans hx)
      obtain ⟨nickName, -, -, -, row, hrow, rfl, -⟩ := id hren
      obtain ⟨row', hrow', hid, hnick⟩ := (hby.changed_iff hobj hint hrow).2 ⟨htarget, hren⟩
      exact (usurps_iff hs hget htarget).1 husurps (h row hrow row' hrow' hid hnick)
    · intro hn row hrow row' hrow' hid hnick
      obtain ⟨htarget, hren⟩ := (hby.changed_iff hobj hint hrow).1 ⟨row', hrow', hid, hnick⟩
      by_contra hnot
      exact hn ⟨hreceives, sess, hget, row.userId, htarget, hren, (usurps_iff hs hget htarget).2 hnot⟩

/-- A request to rename the account 2. -/
def renameRequest : Json :=
  .obj [("action", .str "updateNickName"), ("userId", .int 2), ("nickName", .str "intruder")]

/-- A session that is logged in asks to rename somebody else, and is renamed itself. -/
theorem nickSound_login : ((reloginRun.take 5).foldl (step .reliable) init).NickSound .reliable 0
    (.complete 0 0 (.ok (some renameRequest))) := by
  refine (nickSound_iff ⟨init, init_init, reloginRun.take 5, rfl⟩ 0 0 renameRequest rfl).2 ?_
  rintro ⟨-, sess, hget, u, -, -, husurps⟩
  have hlogged : ((reloginRun.take 5).foldl (step .reliable) init).get? 0 |>.any fun sess =>
    sess.userId = 1 ∧ sess.isMirror = false := by decide +kernel
  obtain ⟨x, hx, hxs⟩ := (Option.any_eq_true _ _).1 hlogged
  obtain rfl := Option.some.inj (hget.symm.trans hx)
  obtain ⟨hid, hmirror⟩ := of_decide_eq_true hxs
  rcases husurps with ⟨hzero, -⟩ | ⟨hyes, -⟩ | ⟨hzero | hneg, -⟩
  · omega
  · rw [hmirror] at hyes
    cases hyes
  · omega
  · omega

/-- A session that has not logged in renames the account. -/
theorem not_nickSound_connected :
    ¬ ((connects 0 "192.0.2.1").foldl (step .reliable) init).NickSound .reliable 0
      (.complete 0 0 (.ok (some renameRequest))) := by
  have hchanged : ∃ row ∈ ((connects 0 "192.0.2.1").foldl (step .reliable) init).world.db.1.users,
      ∃ row' ∈ (step .reliable ((connects 0 "192.0.2.1").foldl (step .reliable) init)
        (.complete 0 0 (.ok (some renameRequest)))).world.db.1.users,
        row'.userId = row.userId ∧ row'.nickName ≠ row.nickName := by decide +kernel
  have hstranger : ∀ u, ¬ LoginAnswered ((connects 0 "192.0.2.1").foldl (step .reliable) init).trace 0 u :=
    fun _ => not_loginAnswered (by decide +kernel)
  intro h
  obtain ⟨row, hrow, row', hrow', hid, hnick⟩ := hchanged
  exact hstranger _ (h row hrow row' hrow' hid hnick).2

end Server

end Requests

end Matching
end SocketCommunication
