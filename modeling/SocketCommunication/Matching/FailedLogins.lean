/-
# A failed login

`init_current_user` writes the fields of a session one after another, from an answer
whose members may be missing.  An exception on the way is answered with an error, and
what has been written stays.

`loginUser` refuses a lookup that found nobody.  `registerCheckAndLogin` answers it
with `success`, the user −1 and no name (`registerCheckAndLogin_vanishes`): the session
becomes the user −1 before the missing name throws (`failsCleanly_iff`).
-/

import SocketCommunication.Matching.Credentials
import SocketCommunication.Matching.Edits

namespace SocketCommunication
namespace Matching

open Effect AuthService UserRepository

/-! ### The service -/

/-- `registerCheckAndLogin` gets to its second lookup, which finds no account (it has
none under the name, a row with a `NULL`, or a call that fails), and there are connections
for it and for noting the login. -/
def Vanishes (env : Env) (w : World) (request : Json) : Prop :=
  ∃ userName created w₁, Arrives env w request userName created w₁ ∧ (∀ u, ¬ Finds env w₁ userName u) ∧
    env.Answers w₁ 1 ∧ env.Answers (w₁.looked env userName) 1

section Service

variable {env : Env} {w : World} {request : Json}

theorem loginResponse_account_ne (u : UserRow) (nickName : String) (createdAt lastLogin : ℕ) :
    loginResponse (userJson env u nickName createdAt lastLogin) ≠ loginResponse noUser := by
  intro h
  have hname : Json.str u.userName = .null := congrArg (Json.value · "userName") h
  cases hname

/-- **When `registerCheckAndLogin` answers with nobody.** -/
theorem registerCheckAndLogin_vanishes (w : World) (request : Json) :
    wp (registerCheckAndLogin env request)
      (fun j _ => (j.succeeds → LoginAnswer env j) ∧ (Vanishes env w request ↔ j = loginResponse noUser))
      (fun _ _ => ¬ Vanishes env w request) w := by
  refine wp_mono (fun j w' h => ⟨h.2, ?_⟩) (fun e w' h hv => ?_)
    (wp_and (registerCheckAndLogin_ends w request) (registerCheckAndLogin_answer w request))
  · rcases h.1 with ⟨hfails, hno⟩ | ⟨userName, created, w₁, ha, hans, hnoted, hj⟩
    · refine iff_of_false (fun ⟨n, c, w₁, ha, _⟩ => hno n c w₁ ha) ?_
      rintro rfl
      cases hfails
    · constructor
      · rintro ⟨n, c, w₂, ha', hnone, -⟩
        obtain ⟨rfl, rfl, rfl⟩ := ha.unique ha'
        exact (hj.resolve_left fun ⟨v, _, _, _, hv, _⟩ => hnone v hv).2
      · rintro rfl
        have hnone := (hj.resolve_left fun ⟨v, n, c, l, _, heq⟩ => loginResponse_account_ne v n c l heq.symm).1
        exact ⟨userName, created, w₁, ha, hnone, hans, hnoted.answers⟩
  · obtain ⟨n, c, w₁, ha, -, hboth⟩ := hv
    exact h.1 n c w₁ ha hboth

theorem loginUser_account (w : World) (request : Json) :
    wp (loginUser env request)
      (fun j _ => (j.succeeds → LoginAnswer env j) ∧ j ≠ loginResponse noUser) (fun _ _ => True) w := by
  refine wp_mono (fun j w' h => ⟨h.2, ?_⟩) (fun _ _ _ => trivial)
    (wp_and (loginUser_ends w request) (loginUser_answer w request))
  rintro rfl
  rcases h.1 with ⟨hfails, -⟩ | ⟨userName, u, nickName, createdAt, lastLogin, -, -, hj⟩
  · cases hfails
  · exact loginResponse_account_ne u nickName createdAt lastLogin hj.symm

/-- The request logs in without a password, and nobody is found to log in. -/
def LogsInNobody (env : Env) (w : World) (request : Json) : Prop :=
  request.value "action" = .str "SSAFYlogin" ∧ Vanishes env w request

/-- **When a login is granted to nobody.** -/
theorem Controller.auth_logsInNobody {action : String} (haction : request.value "action" = .str action)
    (hlogin : isLogin action) (w : World) :
    wp (Controller.auth env request)
      (fun j _ => (j.succeeds → LoginAnswer env j) ∧ (LogsInNobody env w request ↔ j = loginResponse noUser))
      (fun _ _ => ¬ LogsInNobody env w request) w := by
  simp only [isLogin, Bool.decide_or, Bool.or_eq_true, decide_eq_true_eq] at hlogin
  simp only [Controller.auth, Json.index_of_value haction, orThrow_ok, Json.getString, pure_bind, LogsInNobody, haction]
  rcases hlogin with rfl | rfl
  · have hother : ¬ (Json.str "login" = .str "SSAFYlogin" ∧ Vanishes env w request) := by simp
    exact wp_mono (fun j _ h => ⟨h.1, iff_of_false hother h.2⟩) (fun _ _ _ => hother) (loginUser_account w request)
  · simp only [true_and]
    exact registerCheckAndLogin_vanishes w request

end Service

/-! ### The session -/

/-- What a login writes to a session. -/
def Session.profile (x : Session) : ℤ × String × String × String × String :=
  (x.userId, x.userName, x.nickName, x.status, x.token)

/-- The session is who it was, and everyone is registered as before. -/
structure SameUser (sid : ℕ) (s t : Server) : Prop where
  profile : (t.get? sid).map Session.profile = (s.get? sid).map Session.profile
  sessions : t.sessions = s.sessions
  tokens : t.tokens = s.tokens

/-- The request is answered, and if with an error the session is who it was. -/
def FailsCleanly (env : Env) (s : Server) (sid : ℕ) (request : Json) : Prop :=
  wp (Session.processRequest env sid request)
    (fun _ t => ∃ response, t.Writes sid response ∧ (response.fails → SameUser sid s t)) (fun _ _ => False) s

/-- The session becomes the user −1: nobody is found to log in, and neither is the
session nobody yet nor another logged in as nobody. -/
def Server.MakesNobody (env : Env) (s : Server) (sess : Session) (request : Json) : Prop :=
  LogsInNobody env s.world request ∧ s.tokens.lookup (-1) = none ∧ sess.userId ≠ -1

/-- How the handler ends: with a response, and the session is who it was if that is an
error, unless the session was made nobody. -/
def LoginEnded (env : Env) (s : Server) (sid : ℕ) (sess : Session) (request : Json) (t : Server) : Prop :=
  ∃ response, t.Writes sid response ∧ (s.MakesNobody env sess request → response.fails ∧ ¬ SameUser sid s t) ∧
    (¬ s.MakesNobody env sess request → response.fails → SameUser sid s t)

section Session

variable {env : Env} {s t : Server} {sid : ℕ} {sess x : Session} {request : Json}

theorem logsInNobody_sign {w : World} (who : Identity) :
    LogsInNobody env w (who.sign request) ↔ LogsInNobody env w request := by
  simp only [LogsInNobody, Vanishes, arrives_sign]
  rw [value_sign (by decide)]

theorem SameUser.modifySession (h : SameUser sid s t) (k : ℕ) {f : Session → Session}
    (hf : ∀ x, (f x).profile = x.profile) : SameUser sid s (Server.modifySession k f t) where
  profile := by
    rw [← h.profile, Server.get?_modifySession]
    split_ifs with hk
    · rw [hk, Option.map_map]
      exact congrArg (Option.map · (t.get? k)) (funext hf)
    · rfl
  sessions := (Server.modifySession_sessions ..).trans h.sessions
  tokens := (Server.modifySession_tokens ..).trans h.tokens

/-- A response is written, and nobody is changed by that. -/
theorem writeResponse_ended (h : SameUser sid s t) (ht : t.get? sid = some x)
    (hno : ¬ s.MakesNobody env sess request) (response : Json) :
    wp (Session.writeResponse sid response) (fun _ => LoginEnded env s sid sess request) (fun _ _ => False) t :=
  ⟨response, Server.writes_start ht response, fun hn => absurd hn hno, fun _ _ => h.modifySession sid fun _ => rfl⟩

theorem answer_ended (h : SameUser sid s t) (ht : t.get? sid = some x)
    (hno : ¬ s.MakesNobody env sess request) (action : String) (response : Json) :
    wp (Session.answer sid action response) (fun _ => LoginEnded env s sid sess request) (fun _ _ => False) t := by
  simp only [Session.answer, wp_bind, wp_modify]
  exact writeResponse_ended (t := { t with trace := .answered sid action response :: t.trace })
    ⟨h.profile, h.sessions, h.tokens⟩ ht hno response

/-- **How a login ends.** -/
theorem processRequest_login (hs : s.get? sid = some sess) {action : String}
    (haction : request.value "action" = .str action) (hlogin : isLogin action) :
    wp (Session.processRequest env sid request) (fun _ => LoginEnded env s sid sess request) (fun _ _ => False) s := by
  have hauth : action = "register" ∨ action = "login" ∨ action = "SSAFYlogin" ∨ action = "updateNickName" := by
    simp only [isLogin, Bool.decide_or, Bool.or_eq_true, decide_eq_true_eq] at hlogin
    tauto
  have hservice := @Controller.auth_logsInNobody env (sess.identity.sign request) action
    ((value_sign (by decide)).trans haction) hlogin s.world
  simp only [logsInNobody_sign] at hservice
  have hcalled : SameUser sid s (s.called env sid .auth (sess.identity.sign request)) := ⟨rfl, rfl, rfl⟩
  refine wp_processRequest_auth hs haction hauth ?_
  refine wp_call (fun response w hrun => ?_) fun e w hrun => ?_
  swap
  · exact writeResponse_ended hcalled hs (fun hn => wp_error hservice hrun hn.1) _
  obtain ⟨hanswer, hnobody⟩ := wp_ok hservice hrun
  by_cases hsuccess : response.succeeds
  swap
  · have hno : ¬ s.MakesNobody env sess request := fun hn => hsuccess (by rw [hnobody.1 hn.1]; rfl)
    rw [Session.respond_eq_answer sid (Bool.eq_false_iff.2 hsuccess)]
    exact wp_mono (fun _ _ h => h) (fun _ _ h => h.elim) (answer_ended hcalled hs hno action response)
  have hrespond : Session.respond env sid action response = Session.login env sid action response :=
    if_pos ⟨by simpa [isLogin] using hlogin, hsuccess⟩
  rw [hrespond]
  refine wp_login (hanswer hsuccess) (fun v hv htaken => ?_) (fun u nickName createdAt lastLogin hint hrow _ => ?_)
    fun hmissing hfree e => ?_
  · refine wp_mono (fun _ _ h => h) (fun _ _ h => h.elim) (writeResponse_ended hcalled hs ?_ _)
    rintro ⟨hn, hfree, -⟩
    rw [hnobody.1 hn] at hv
    obtain rfl : -1 = v := Except.ok.inj hv
    rw [show (s.called env sid .auth (sess.identity.sign request)).tokens = s.tokens from rfl, hfree] at htaken
    cases htaken
  · have hno : ¬ s.MakesNobody env sess request := fun hn =>
      loginResponse_account_ne u nickName createdAt lastLogin (hrow.symm.trans (hnobody.1 hn.1))
    have hfails : ∀ token : String, (response.set "sessionToken" (.str token)).fails = false := by
      intro token
      rw [Json.fails, Json.value_set_ne (by decide), hrow]
      rfl
    have hentered := @Server.get?_modifySession_self sid (fun x =>
      { x with userId := u.userId, userName := u.userName, nickName, status := "대기중" }) _ _
      (show (s.called env sid .auth (sess.identity.sign request)).get? sid = some sess from hs)
    rw [wp_register hentered]
    refine wp_mono (fun _ t ht => ⟨_, ht, fun hn => absurd hn hno, fun _ hf => ?_⟩) (fun _ _ h => h.elim)
      (answer_writes ?_ action _)
    · rw [hfails] at hf
      cases hf
    · rw [Server.registered, Server.isSome_modifySession]
      exact Option.isSome_of_mem hentered
  · -- the user −1 is written before the name is missed
    have hentered := @Server.get?_modifySession_self sid (fun x => { x with userId := -1 }) _ _
      (show (s.called env sid .auth (sess.identity.sign request)).get? sid = some sess from hs)
    refine ⟨_, Server.writes_start hentered _, fun hn => ⟨rfl, fun hsame => hn.2.2 ?_⟩, fun hno _ => ?_⟩
    · have hprofile := hsame.profile
      rw [hs, Server.start, Server.get?_modifySession_self hentered] at hprofile
      exact (congrArg Prod.fst (Option.some.inj hprofile)).symm
    · have hid : sess.userId = -1 := by
        by_contra hne
        exact hno ⟨hnobody.2 hmissing, hfree, hne⟩
      refine SameUser.modifySession ?_ sid fun _ => rfl
      refine ⟨?_, Server.modifySession_sessions .., Server.modifySession_tokens ..⟩
      rw [hentered, hs]
      simp only [Option.map_some, Session.profile, hid]

/-- **A failed login leaves the session as it is just when it does not make it nobody.** -/
theorem failsCleanly_iff (hs : s.get? sid = some sess) {action : String}
    (haction : request.value "action" = .str action) (hlogin : isLogin action) :
    FailsCleanly env s sid request ↔ ¬ s.MakesNobody env sess request := by
  have hspec := @processRequest_login env s sid sess request hs action haction hlogin
  constructor
  · intro h hn
    refine wp_exclude h hspec (fun _ t hclean hended => ?_) fun _ _ h _ => h
    obtain ⟨response, hwrites, hsame⟩ := hclean
    obtain ⟨response', hwrites', hnobody, -⟩ := hended
    obtain rfl := hwrites.unique hwrites'
    exact (hnobody hn).2 (hsame (hnobody hn).1)
  · intro hn
    refine wp_mono (fun _ t hended => ?_) (fun _ _ h => h) hspec
    obtain ⟨response, hwrites, -, hsame⟩ := hended
    exact ⟨response, hwrites, hsame hn⟩

end Session

/-! ### A name that is longer than its column -/

/-- A client that has not logged in. -/
def guestSession : Session := { Session.make "192.0.2.1" 0 0 with token := "uuid0", pending := [] }

def guestServer : Server := { Server.init with heap := AList.singleton 0 guestSession }

theorem get?_guestServer : guestServer.get? 0 = some guestSession := rfl

/-- The same client, while another is logged in as the first account. -/
def takenServer : Server :=
  { guestServer with
    heap := guestServer.heap.insert 1 { guestSession with userId := 1, token := "uuid1" }
    tokens := AList.singleton 1 "uuid1" }

/-- A login as the first account. -/
def guestLogin : Json := Server.credentials "SSAFYlogin" "rnqhscjf3333" "admin"

theorem first_account_found : (Env.reliable.order ((World.init.looked .reliable "rnqhscjf3333").tick + 2)
    (accounts .reliable World.init.db.1 "rnqhscjf3333")).head?.any (fun v => v.nickName.isSome && v.createdAt.isSome &&
      v.lastLogin.isSome) = true := by
  decide +kernel

theorem first_account_enlisted : (Env.reliable.order (World.init.tick + 2)
    (accounts .reliable World.init.db.1 "rnqhscjf3333")).head?.any (fun v => v.nickName.isSome && v.createdAt.isSome &&
      v.lastLogin.isSome && v.userId != -1) = true := by
  decide +kernel

/-- The guest is told that the account is logged in, and stays a guest. -/
theorem failsCleanly_guestLogin : FailsCleanly .reliable takenServer 0 guestLogin := by
  refine (@failsCleanly_iff .reliable takenServer 0 guestSession guestLogin rfl "SSAFYlogin" rfl rfl).2 ?_
  rintro ⟨⟨-, n, created, w₁, ha, hnone, -⟩, -⟩
  cases ha with
  | known hname =>
    obtain rfl : "rnqhscjf3333" = n := Json.str.inj hname
    obtain ⟨v, hfirst, hv⟩ := (Option.any_eq_true _ _).1 first_account_found
    simp only [Bool.and_eq_true] at hv
    exact hnone v ⟨by decide +kernel, hfirst, hv.1.1, hv.1.2, hv.2⟩
  | created hname _ he =>
    obtain rfl : "rnqhscjf3333" = n := Json.str.inj hname
    obtain ⟨v, hfirst, hv⟩ := (Option.any_eq_true _ _).1 first_account_enlisted
    simp only [Bool.and_eq_true, bne_iff_ne] at hv
    exact hv.2 (he.absent v ⟨by decide +kernel, hfirst, hv.1.1.1, hv.1.1.2, hv.1.2⟩)

/-- Fifty letters and a blank: the column cuts the blank, so that the account that is
created is not found. -/
def longNameLogin : Json := Server.credentials "SSAFYlogin" "aaaaaaaaaaaaaaaaaaaaaaaaaaaaaaaaaaaaaaaaaaaaaaaaaa " "password"

/-- The last operation of a session writes an error. -/
def Session.writesError (x : Session) : Bool :=
  match x.pending.getLast? with
  | some ⟨.writeResponse response, _⟩ => response.fails
  | _ => false

/-- The client is answered with an error, and is the user −1. -/
theorem longNameLogin_nobody : wp (Session.processRequest .reliable 0 longNameLogin)
    (fun _ t => (t.get? 0).map (·.userId) = some (-1) ∧ (t.get? 0).map Session.writesError = some true)
    (fun _ _ => False) guestServer := by
  decide +kernel

theorem not_failsCleanly_longNameLogin : ¬ FailsCleanly .reliable guestServer 0 longNameLogin := by
  unfold FailsCleanly
  intro h
  obtain ⟨_, t, hrun, hid, hfails⟩ := wp_returns longNameLogin_nobody
  obtain ⟨response, ⟨x, live, hx, hlast⟩, hsame⟩ := wp_ok h hrun
  rw [hx] at hid hfails
  have herror : x.writesError = true := Option.some.inj hfails
  rw [Session.writesError, hlast] at herror
  have hprofile := (hsame herror).profile
  rw [hx, get?_guestServer] at hprofile
  have hzero : x.userId = 0 := congrArg Prod.fst (Option.some.inj hprofile)
  have hneg : x.userId = -1 := Option.some.inj hid
  omega

end Matching
end SocketCommunication
