/-
# Whose account a request logs in to

`process_request` makes a session the user that the answer of a login names, and
nobody else (`processRequest_logins`).  A login with the password is sound;
`SSAFYlogin` compares no password, and logs in to whichever account its second
lookup finds (`login_sound_iff`).
-/

import SocketCommunication.Matching.Answers
import SocketCommunication.Matching.Handlers

namespace SocketCommunication
namespace Matching

open Effect AuthService

/-- The users of the sessions are as they were, or the one that the response names. -/
def Admits (response : Json) (s t : Server) : Prop :=
  ∀ sid x, t.get? sid = some x → (∃ y, s.get? sid = some y ∧ y.userId = x.userId) ∨
    (response.value "userId").getInt = .ok x.userId

instance (response : Json) : IsPreorder Server (Admits response) where
  refl _ := fun _ x hx => .inl ⟨x, hx, rfl⟩
  trans _ _ _ h h' := fun sid x hx => by
    rcases h' sid x hx with ⟨y, hy, hyx⟩ | hresponse
    · rcases h sid y hy with ⟨z, hz, hzy⟩ | hresponse
      · exact .inl ⟨z, hz, hzy.trans hyx⟩
      · exact .inr (hyx ▸ hresponse)
    · exact .inr hresponse

/-- The users of the sessions are as they were, or were logged in by the request. -/
def Logins (env : Env) (w : World) (request : Json) (s t : Server) : Prop :=
  ∀ sid x, t.get? sid = some x → (∃ y, s.get? sid = some y ∧ y.userId = x.userId) ∨
    ∃ action response w', request.value "action" = .str action ∧ isLogin action ∧
      Controller.auth env request w = .ok response w' ∧ response.succeeds ∧
      (response.value "userId").getInt = .ok x.userId

theorem Quiet.admits {s t : Server} (h : Quiet s t) (response : Json) : Admits response s t :=
  fun sid x hx => .inl (h.users sid x hx)

theorem tolerates_admits (response : Json) : Tolerates (Admits response) where
  registries hworld hheap := (tolerates_quiet.registries hworld hheap).admits response
  start sid op s := (tolerates_quiet.start sid op s).admits response
  token sid token s := (tolerates_quiet.token sid token s).admits response
  lastActivity sid now s := (tolerates_quiet.lastActivity sid now s).admits response

namespace Session

open Server

variable {env : Env} {sid : ℕ}

theorem initCurrentUser_admits (response : Json) : Keeps (Admits response) (initCurrentUser sid response) := by
  have hquiet : ∀ {f : Session → Session}, (∀ x, (f x).userId = x.userId) →
      Keeps (Admits response) (modify (modifySession sid f) : ServerM Unit) :=
    fun hf => keeps_modify fun s => (quiet_modifySession (s := s) hf).admits response
  refine keeps_bind (keeps_member sid _ fun u hu => ?_) fun _ => ?_
  · refine keeps_modify fun s sid' x hx => ?_
    rw [get?_modifySession] at hx
    split_ifs at hx with hsid
    · obtain ⟨y, -, rfl⟩ := Option.map_eq_some_iff.1 hx
      exact .inr hu
    · exact .inl ⟨x, hx, rfl⟩
  · exact keeps_bind (keeps_member sid _ fun _ _ => hquiet fun _ => rfl) fun _ =>
      keeps_bind (keeps_member sid _ fun _ _ => hquiet fun _ => rfl) fun _ => hquiet fun _ => rfl

/-- A session becomes whom the answer names. -/
theorem respond_admits (action : String) (response : Json) :
    Keeps (Admits response) (respond env sid action response) := by
  by_cases h : (action = "login" ∨ action = "SSAFYlogin") ∧ response.succeeds
  · rw [respond, if_pos h]
    exact (tolerates_admits response).login sid (initCurrentUser_admits response)
  · exact (respond_quiet sid h).mono fun _ _ hq => hq.admits response

section Requests

variable {s : Server} {sess : Session}

theorem logins_of_quiet {r t : Server} {w : World} {request : Json} (hr : r.get? = s.get?) (h : Quiet r t) :
    Logins env w request s t := fun k x hx => .inl (hr ▸ h.users k x hx)

/-- What is done with the answer of a controller. -/
theorem respond_logins {type : ControllerType} {action : String} {request : Json}
    (haction : request.value "action" = .str action) (htype : isLogin action → type = .auth) :
    wp (call env sid type request)
      (fun response t => wp (respond env sid action response) (fun _ => Logins env s.world request s)
        (fun _ => Logins env s.world request s) t)
      (fun _ => Logins env s.world request s) s := by
  refine wp_call (fun response w hrun => ?_) fun _ _ _ => fun k x hx => .inl ⟨x, hx, rfl⟩
  by_cases h : (action = "login" ∨ action = "SSAFYlogin") ∧ response.succeeds
  · have hlogin : isLogin action := by simpa [isLogin] using h.1
    obtain rfl := htype hlogin
    have hall : ∀ t, Admits response (s.called env sid .auth request) t → Logins env s.world request s t :=
      fun t ht k x hx => (ht k x hx).imp id fun hu => ⟨action, response, w, haction, hlogin, hrun, h.2, hu⟩
    exact wp_mono (fun _ t => hall t) (fun _ t => hall t)
      (respond_admits action response (s.called env sid .auth request))
  · have hget : (s.called env sid type request).get? = s.get? := rfl
    exact wp_mono (fun _ _ ht => logins_of_quiet hget ht) (fun _ _ ht => logins_of_quiet hget ht)
      (respond_quiet sid h (s.called env sid type request))

/-- The end of a session leaves the users of the sessions as they are. -/
theorem handleError_logins (hs : s.get? sid = some sess) (w : World) (request : Json) :
    wp (handleError env sid) (fun _ => Logins env w request s) (fun _ => Logins env w request s) s := by
  refine wp_handleError hs fun sid' x hx => .inl ?_
  rw [get?_ended hs] at hx
  split_ifs at hx with hsid
  · obtain rfl := Option.some.inj hx
    exact ⟨sess, hsid ▸ hs, rfl⟩
  · exact ⟨x, hx, rfl⟩

theorem dispatch_logins {action : String} {request : Json} (hs : s.get? sid = some sess)
    (haction : request.value "action" = .str action) :
    wp (dispatch env sid action request) (fun _ => Logins env s.world (sess.identity.sign request) s)
      (fun _ => Logins env s.world (sess.identity.sign request) s) s := by
  have hsigned : (sess.identity.sign request).value "action" = .str action :=
    (value_sign (by decide)).trans haction
  have hquiet : ∀ {c : ServerM Unit}, Keeps Quiet c →
      wp c (fun _ => Logins env s.world (sess.identity.sign request) s)
        (fun _ => Logins env s.world (sess.identity.sign request) s) s := fun h =>
    wp_mono (fun _ _ ht => logins_of_quiet rfl ht) (fun _ _ ht => logins_of_quiet rfl ht) (h s)
  have hwrite : ∀ (j : Json), wp (writeResponse sid j) (fun _ => Logins env s.world (sess.identity.sign request) s)
      (fun _ => Logins env s.world (sess.identity.sign request) s) s := fun j => hquiet (tolerates_quiet.writeResponse sid j)
  have hother : ¬ (action = "register" ∨ action = "login" ∨ action = "SSAFYlogin" ∨ action = "updateNickName") →
      ¬ isLogin action := fun hauth hlogin => hauth (by simp_all [isLogin])
  refine wp_dispatch hs (fun _ => ?_) (fun hauth _ _ => ?_) (fun hauth _ _ _ => ?_)
    (fun _ => hquiet (tolerates_quiet.handlePing sid)) (fun _ => handleError_logins hs _ _) fun _ _ j => hwrite j
  · rw [wp_bind]
    exact respond_logins hsigned fun _ => rfl
  · rw [wp_bind]
    exact respond_logins hsigned fun hlogin => absurd hlogin (hother hauth)
  · rw [wp_bind]
    exact respond_logins hsigned fun hlogin => absurd hlogin (hother hauth)

/-- **A request makes a session the user that its login is answered with**, and
changes the user of no session otherwise. -/
theorem processRequest_logins (hs : s.get? sid = some sess) (request : Json) :
    wp (processRequest env sid request) (fun _ => Logins env s.world (sess.identity.sign request) s)
      (fun _ => Logins env s.world (sess.identity.sign request) s) s := by
  have hrefl : Logins env s.world (sess.identity.sign request) s s := fun _ x hx => .inl ⟨x, hx, rfl⟩
  have hwrite : ∀ {t} (j : Json), Logins env s.world (sess.identity.sign request) s t →
      wp (writeResponse sid j) (fun _ => Logins env s.world (sess.identity.sign request) s)
        (fun _ => Logins env s.world (sess.identity.sign request) s) t := by
    intro t j ht sid' x hx
    obtain ⟨y, hy, hyx⟩ := (tolerates_quiet.writeResponse sid j t).users sid' x hx
    exact hyx ▸ ht sid' y hy
  refine wp_processRequest (fun action haction => ?_) fun _ => ⟨hwrite _ hrefl, fun _ => hrefl⟩
  exact wp_mono (fun _ _ h => h) (fun _ _ ht => hwrite _ ht) (dispatch_logins hs haction)

end Requests

end Session

/-! ### Signed requests -/

section Signed

variable {env : Env} {w : World} {request : Json}

theorem contains_sign {who : Identity} {k : String} (hk : k ≠ "userId") :
    (who.sign request).contains k = request.contains k := by
  unfold Identity.sign
  split_ifs
  · cases request with
    | obj members =>
      rw [Json.contains_set _ _ _ _ rfl, decide_eq_false hk, Bool.false_or]
    | _ => rfl
  · rfl

theorem matches_sign (who : Identity) (row : UserRow) : Matches env (who.sign request) row ↔ Matches env request row := by
  rw [Matches, Matches, value_sign (by decide)]

/-- A login does not look at the `userId` of its request. -/
theorem arrives_sign (who : Identity) {userName : String} {created : Option ℤ} {w₁ : World} :
    Arrives env w (who.sign request) userName created w₁ ↔ Arrives env w request userName created w₁ := by
  have hname : (who.sign request).value "userName" = request.value "userName" := value_sign (by decide)
  have hpassword : (who.sign request).value "password" = request.value "password" := value_sign (by decide)
  have hcontains : (who.sign request).contains "password" = request.contains "password" := contains_sign (by decide)
  constructor
  · intro h
    cases h with
    | known hn hc hfinds hid => exact .known (hname ▸ hn) (hcontains ▸ hc) hfinds hid
    | created hn hp he hread => exact .created (hname ▸ hn) (hpassword ▸ hp) he hread
  · intro h
    cases h with
    | known hn hc hfinds hid => exact .known (hname.trans hn) (hcontains.trans hc) hfinds hid
    | created hn hp he hread => exact .created (hname.trans hn) (hpassword.trans hp) he hread

theorem unvouched_sign (who : Identity) : Unvouched env w (who.sign request) ↔ Unvouched env w request := by
  simp only [Unvouched, arrives_sign, matches_sign]

/-- The number in the answer to a login. -/
theorem AuthService.LoginAnswer.userId {response : Json} (h : LoginAnswer env response) {u : ℤ}
    (hu : (response.value "userId").getInt = .ok u) : response.value "userId" = .int u := by
  cases h with
  | account row nickName createdAt lastLogin hint =>
    have hrow : (Json.int row.userId).getInt = .ok u := hu
    rw [Json.getInt, hint] at hrow
    exact congrArg Json.int (Except.ok.inj hrow)
  | missing =>
    have hrow : (Json.int (-1)).getInt = .ok u := hu
    rw [Json.getInt, show Json.wrapInt (-1) = -1 by decide] at hrow
    exact congrArg Json.int (Except.ok.inj hrow)

/-- The service that answers a login. -/
theorem Controller.auth_login {action : String} (haction : request.value "action" = .str action)
    (hlogin : isLogin action) :
    Controller.auth env request = loginUser env request ∨ Controller.auth env request = registerCheckAndLogin env request := by
  simp only [Controller.auth, Json.index_of_value haction, orThrow_ok, Json.getString, pure_bind]
  simp only [isLogin, Bool.decide_or, Bool.or_eq_true, decide_eq_true_eq] at hlogin
  rcases hlogin with rfl | rfl
  · exact .inl rfl
  · exact .inr rfl

end Signed

/-! ### Accounts -/

/-- The request makes no session the user of an account that is there, but by its
password. -/
def KeepsOut (env : Env) (w : World) (request : Json) : Prop :=
  ∀ (s : Server) sid sess, s.world = w → s.get? sid = some sess →
    ∀ sid' x, (after (Session.processRequest env sid request) s).get? sid' = some x →
      (∀ y, s.get? sid' = some y → y.userId ≠ x.userId) →
      ∀ row ∈ w.db.1.users, row.userId = x.userId → Matches env request row

theorem keepsOut_of_sound {env : Env} {w : World} {request : Json}
    (h : ∀ who : Identity, Sound env w (who.sign request) (registerCheckAndLogin env (who.sign request))) :
    KeepsOut env w request := by
  rintro s sid sess rfl hs sid' x hx hnew row hrow hid
  have hlogins := wp_iff_after.1 (@Session.processRequest_logins env sid s sess hs request)
  rcases hlogins sid' x hx with ⟨y, hy, hyx⟩ | ⟨action, response, w', haction, hlogin, hrun, hsuccess, hu⟩
  · exact absurd hyx (hnew y hy)
  have hanswer := wp_ok (Controller.auth_answer s.world (Json.index_of_value haction) hlogin) hrun hsuccess
  have hsound : Sound env s.world (sess.identity.sign request) (Controller.auth env (sess.identity.sign request)) := by
    rcases @Controller.auth_login env _ action haction hlogin with hservice | hservice <;> rw [hservice]
    · exact loginUser_sound s.world _
    · exact h sess.identity
  rcases wp_ok hsound hrun hsuccess x.userId (hanswer.userId hu) with ⟨hno, -⟩ | ⟨row', hrow', hid', hm⟩
  · exact absurd (List.mem_map.2 ⟨row, hrow, hid⟩) hno
  · obtain rfl := Rows.eq_of_key_eq s.world.db.2.users_pkey hrow hrow' (hid.trans hid'.symm)
    exact (matches_sign _ _).1 hm

/-- **A login is sound just when the account that `SSAFYlogin` finds at its second
lookup is vouched for.** -/
theorem login_sound_iff (env : Env) (w : World) (request : Json) :
    (Sound env w request (loginUser env request) ∧ Sound env w request (registerCheckAndLogin env request) ∧
      KeepsOut env w request) ↔ ¬ Unvouched env w request := by
  constructor
  · exact fun h => (registerCheckAndLogin_sound_iff w request).1 h.2.1
  · intro hn
    refine ⟨loginUser_sound w request, (registerCheckAndLogin_sound_iff w request).2 hn, keepsOut_of_sound fun who => ?_⟩
    exact (registerCheckAndLogin_sound_iff w _).2 fun h => hn ((unvouched_sign who).1 h)

/-- A request for an account of `db-init.sql`, not with its password. -/
def strangerRequest : Json := Server.credentials "SSAFYlogin" "rnqhscjf3333" "password"

theorem not_login_sound_stranger :
    ¬ (Sound .reliable .init strangerRequest (loginUser .reliable strangerRequest) ∧
      Sound .reliable .init strangerRequest (registerCheckAndLogin .reliable strangerRequest) ∧
      KeepsOut .reliable .init strangerRequest) := by
  rintro ⟨-, h, -⟩
  have hstranger : wp (registerCheckAndLogin .reliable strangerRequest)
      (fun j w' => j.succeeds ∧ j.value "userId" = .int 1 ∧ ¬ Vouched .reliable .init strangerRequest 1 w')
      (fun _ _ => False) .init := by
    decide +kernel
  obtain ⟨j, w', hrun, hsuccess, hid, hnot⟩ := wp_returns hstranger
  exact hnot (wp_ok h hrun hsuccess 1 hid)

end Matching
end SocketCommunication
