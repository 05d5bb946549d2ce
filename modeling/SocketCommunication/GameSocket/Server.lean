/-
# The game socket server

`server.cpp` and the rest of `session.cpp`: a `Session` for each connection, which reads
a request, passes it on to `AuthApi`, writes the answer and reads again.  The sessions
share the database and the process.

* `refusing_throughout`: no request ever changes a row, nobody is logged in, and every
  request is answered once, with an error.
* `survives_iff`: which bytes of one client end the process for all.

A session is told of an event only while it waits for it.  `const json::operator[]`
asserts that the member is there.
-/

import SocketCommunication.Lib.Run
import SocketCommunication.GameSocket.AuthApi
import SocketCommunication.GameSocket.Session

namespace SocketCommunication
namespace GameSocket

open Effect Matching Search

/-- `AuthApi::handle_request`. -/
def AuthApi.handleRequest (env : Env) (request : Json) : ApiM Json := do
  let action ← text (request.value "action")
  if action = "register" then handleRegister env request
  else if action = "login" then handleLogin env request
  else return errorResponse "Unknown auth action"

/-- `Session`; the handlers it calls are those of the server. -/
structure Session where
  reader : Reader
  /-- `user_id_`, 0 where nobody is authenticated. -/
  userId : ℤ
  authToken : String
  /-- The arguments of the calls of `write_response` so far. -/
  responses : List Json
  /-- The last of them is being written. -/
  writing : Bool
  /-- `handle_error` has not closed the socket. -/
  isOpen : Bool

namespace Session

/-- The constructor, and `start`. -/
def start : Session := ⟨.start, 0, "", [], false, true⟩

/-- A read was started and has not returned. -/
def reads (s : Session) : Bool :=
  s.isOpen && !s.writing &&
    match s.reader.waiting with
    | .header | .body _ => true
    | .nothing | .thrown => false

/-- The methods of a session work on it and on the database. -/
abbrev SessionM := EStateM Failure (Session × World)

/-- A call of a handler of the API. -/
def api {α : Type} (c : ApiM α) : SessionM α := focus Prod.snd (fun w sw => (sw.1, w)) c

section Methods

variable (env : Env) (parse : List UInt8 → Option Json)

/-- `write_response`. -/
def writeResponse (response : Json) : SessionM Unit :=
  modify fun (s, w) => ({ s with responses := s.responses ++ [response], writing := true }, w)

/-- `request[…]` of a request that is not `const`; it is a `std::string`. -/
def action (request : Json) : Except Failure String :=
  match request.index "action" with
  | .error e => .error (.exception e.what)
  | .ok (j, _) =>
    match j.getString with
    | .error e => .error (.exception e.what)
    | .ok s => .ok s

/-- The answer to a login that succeeded authenticates the session. -/
def authenticate (response : Json) : SessionM Unit := do
  match (response.value "user_id").getInt with
  | .error e => throw (.exception e.what)
  | .ok userId => modify fun (s, w) => ({ s with userId }, w)
  onlyIf (response.contains "token") (
    match (response.value "token").getString with
    | .error e => throw (.exception e.what)
    | .ok authToken => modify fun (s, w) => ({ s with authToken }, w))

/-- `process_request`. -/
def processRequest (data : List UInt8) : SessionM Unit :=
  tryCatch
    (do
      match parse data with
      | none => throw (.exception "parse error")
      | some request =>
        let act ← orThrow (action request)
        if act = "register" ∨ act = "login" then
          let response ← api (AuthApi.handleRequest env request)
          onlyIf (act = "login" ∧ (response.value "status").eqString "success") (authenticate response)
          writeResponse response
        else writeResponse (AuthApi.errorResponse "Unknown action"))
    fun _ => writeResponse (AuthApi.errorResponse "Invalid request format")

end Methods

/-- The handler looks for a member that the request does not have: `username`, or after a
`username` that is a string `password`. -/
def asserts (parse : List UInt8 → Option Json) (data : List UInt8) : Bool :=
  match parse data with
  | none => false
  | some request =>
    match action request with
    | .error _ => false
    | .ok act =>
      (act = "register" || act = "login") &&
        (!request.contains "username" ||
          match request.value "username" with
          | .str _ => !request.contains "password"
          | _ => false)

end Session

/-- What happens at the server. -/
inductive Event where
  /-- A connection is accepted; `remote_endpoint` throws where the peer has gone. -/
  | accept (connected : Bool)
  /-- Accepting fails. -/
  | acceptError
  /-- A read of the session returns bytes, or fails. -/
  | read (i : ℕ) (data : List UInt8)
  | readError (i : ℕ)
  /-- The answer of the session has been written, or writing it fails. -/
  | written (i : ℕ)
  | writeError (i : ℕ)
  /-- `signal_handler`. -/
  | signal

/-- `Server`, with what it uses and the sessions it has made. -/
structure Server where
  /-- `running_`. -/
  running : Bool
  /-- The process has ended. -/
  ended : Bool
  sessions : List Session
  world : World

namespace Server

/-- The constructor, and `run`. -/
def start (w : World) : Server := ⟨true, false, [], w⟩

section Step

variable (env : Env) (parse : List UInt8 → Option Json)

/-- The state of the session changes. -/
def set (sv : Server) (i : ℕ) (s : Session) : Server := { sv with sessions := sv.sessions.set i s }

/-- An exception leaves the handler, and `io_context::run`. -/
def abort (sv : Server) : Server := { sv with ended := true }

/-- The handlers of `read_header` and `read_body`; what they collect may be a request. -/
def onRead (sv : Server) (i : ℕ) (s : Session) (data : List UInt8) : Server :=
  let reader := s.reader.step env.ulongBits data
  if reader.waiting = .thrown then sv.abort
  else
    match reader.requests.drop s.reader.requests.length with
    | [] => sv.set i { s with reader }
    | request :: _ =>
      if Session.asserts parse request then sv.abort
      else
        match Session.processRequest env parse request ({ s with reader }, sv.world) with
        | .ok _ (s', w) => { sv with world := w }.set i s'
        | .error _ (s', w) => ({ sv with world := w }.set i s').abort

/-- The event reaches the session, if it waits for it. -/
def onSession (sv : Server) (i : ℕ) (waits : Session → Bool) (f : Session → Server) : Server :=
  match sv.sessions[i]? with
  | none => sv
  | some s => if waits s then f s else sv

def step (sv : Server) (e : Event) : Server :=
  if sv.ended then sv
  else match e with
    | .accept connected =>
      if !sv.running then sv
      else if connected then { sv with sessions := sv.sessions ++ [.start] }
      else sv.abort
    | .acceptError => sv
    | .read i data => sv.onSession i Session.reads fun s => sv.onRead env parse i s data
    | .readError i => sv.onSession i Session.reads fun s => sv.set i { s with isOpen := false }
    | .written i => sv.onSession i Session.writing fun s => sv.set i { s with writing := false }
    | .writeError i =>
      sv.onSession i Session.writing fun s => sv.set i { s with writing := false, isOpen := false }
    -- `stop`, and then `exit`
    | .signal => { sv with running := false }.abort

end Step

end Server

/-! ### What the handlers of the API leave -/

/-- The committed table is as it was. -/
def SameUsers (w w' : World) : Prop := w'.users = w.users

instance : IsPreorder World SameUsers where
  refl _ := rfl
  trans _ _ _ h h' := Eq.trans h' h

/-- An error, and the table is as it was. -/
def Refusal (w : World) (j : Json) (w' : World) : Prop := j.value "status" = .str "error" ∧ SameUsers w w'

section Handlers

variable {env : Env} {w : World} {α β : Type}

theorem sameUsers_attempt : Keeps SameUsers (attempt env) := by
  intro w
  simp only [attempt, wp_bind, wp_get, wp_set]
  cases env.fails w.tick with
  | none => exact rfl
  | some e => exact rfl

theorem sameUsers_getConnection : Keeps SameUsers (getConnection env) := by
  refine keeps_bind keeps_get fun w => ?_
  cases w.pool.firstFree with
  | none => exact keeps_bind sameUsers_attempt fun _ => keeps_bind (keeps_modify fun _ => rfl) fun _ => keeps_pure _
  | some i =>
    refine keeps_bind (keeps_modify fun _ => rfl) fun _ => keeps_ite (fun _ => ?_) fun _ => ?_
    · refine keeps_bind (keeps_tryCatch sameUsers_attempt fun e => ?_) fun _ =>
        keeps_bind (keeps_modify fun _ => rfl) fun _ => keeps_pure _
      exact keeps_bind (keeps_modify fun _ => rfl) fun _ => keeps_throw _
    · exact keeps_bind (keeps_modify fun _ => rfl) fun _ => keeps_pure _

theorem sameUsers_beginWork : Keeps SameUsers (beginWork env) :=
  keeps_bind keeps_get fun _ => keeps_bind sameUsers_attempt fun _ => keeps_modify fun _ => rfl

theorem sameUsers_query (f : List UserRow → List α) : Keeps SameUsers (query env f) :=
  keeps_bind sameUsers_attempt fun _ => keeps_bind keeps_get fun _ => keeps_pure _

/-- What a `SELECT` finds. -/
theorem query_result (f : List UserRow → List α) :
    wp (query env f) (fun result w' => result = f w'.work.1 ∧ SameUsers w w') (fun _ => SameUsers w) w := by
  rw [query, wp_bind]
  exact wp_mono (fun _ _ h => ⟨rfl, h⟩) (fun _ _ h => h) (sameUsers_attempt w)

/-- A statement changes what its transaction sees. -/
theorem sameUsers_exec (stmt : ℕ → List UserRow → ℕ × List α × List UserRow) : Keeps SameUsers (exec env stmt) := by
  refine keeps_bind sameUsers_attempt fun _ => keeps_bind keeps_get fun w => keeps_bind (keeps_modify fun _ => rfl) fun _ => ?_
  split_ifs
  · exact keeps_bind (keeps_modify fun _ => rfl) fun _ => keeps_pure _
  · exact keeps_throw _

theorem sameUsers_text (j : Json) : Keeps SameUsers (text j) := by
  unfold text
  cases j.getString with
  | ok s => exact keeps_pure s
  | error e => exact keeps_throw _

/-- What is done before the rest changes no row. -/
theorem wp_bind_sameUsers {c : ApiM α} {f : α → ApiM β} {Q : β → World → Prop} {w₀ : World} (hc : Keeps SameUsers c)
    (hw : SameUsers w₀ w) (hf : ∀ a w', SameUsers w₀ w' → wp (f a) Q (fun _ => SameUsers w₀) w') :
    wp (c >>= f) Q (fun _ => SameUsers w₀) w := by
  rw [wp_bind]
  exact wp_mono (fun a w' h => hf a w' (trans_of SameUsers hw h)) (fun _ _ h => trans_of SameUsers hw h) (hc w)

/-- What the body throws is answered with an error. -/
theorem wp_catching_refusal {body : ApiM Json} {sqlMessage : String}
    (h : wp body (Refusal w) (fun _ => SameUsers w) w) :
    wp (AuthApi.catching body sqlMessage) (Refusal w) (fun _ _ => False) w := by
  rw [AuthApi.catching, wp_tryCatch]
  refine wp_mono (fun _ _ h => h) (fun e w' hw' => ?_) h
  cases e with
  | sqlError => exact ⟨rfl, hw'⟩
  | exception => exact ⟨rfl, hw'⟩

/-- **`handle_register` changes nothing.** -/
theorem handleRegister_refusal (request : Json) :
    wp (AuthApi.handleRegister env request) (Refusal w) (fun _ _ => False) w := by
  refine wp_catching_refusal ?_
  refine wp_bind_sameUsers (sameUsers_text _) (refl_of SameUsers w) fun username w₁ h₁ => ?_
  refine wp_bind_sameUsers (sameUsers_text _) h₁ fun password w₂ h₂ => ?_
  refine (wp_ite _ _ _).2 ⟨fun _ => ⟨rfl, h₂⟩, fun _ => (wp_ite _ _ _).2 ⟨fun _ => ⟨rfl, h₂⟩, fun _ => ?_⟩⟩
  refine wp_bind_sameUsers sameUsers_getConnection h₂ fun _ w₃ h₃ => ?_
  refine wp_bind_sameUsers sameUsers_beginWork h₃ fun _ w₄ h₄ => ?_
  refine wp_bind_sameUsers (sameUsers_query _) h₄ fun found w₅ h₅ => ?_
  refine (wp_ite _ _ _).2 ⟨fun _ => ⟨rfl, h₅⟩, fun _ => wp_bind_sameUsers keeps_get h₅ fun _ w₆ h₆ => ?_⟩
  -- no digest fits the column
  rw [wp_bind]
  exact wp_mono (fun _ _ h => h.1.elim) (fun _ _ h => trans_of SameUsers h₆ h.2)
    (wp_and (AuthApi.wp_exec_invalid (fun _ _ => AuthApi.not_valid_insert) w₆) (sameUsers_exec _ w₆))

/-- What a row is compared with is longer than the column. -/
theorem ne_sqlText_hash {u : UserRow} (hu : Tables.charLength u.password ≤ 50) (password : String) :
    u.password ≠ sqlText (AuthApi.hashPassword env password) := by
  intro h
  have hdigit : '\x00' ∉ (AuthApi.hashPassword env password).toList := fun h0 => absurd (Hex.mem_digits h0) (by decide)
  rw [h, sqlText_eq hdigit, AuthApi.hashPassword, AuthApi.charLength_hex, List.length_ofFn] at hu
  omega

/-- **`handle_login` changes nothing**: no row has a digest for a password. -/
theorem handleLogin_refusal (request : Json) :
    wp (AuthApi.handleLogin env request) (Refusal w) (fun _ _ => False) w := by
  refine wp_catching_refusal ?_
  refine wp_bind_sameUsers (sameUsers_text _) (refl_of SameUsers w) fun username w₁ h₁ => ?_
  refine wp_bind_sameUsers (sameUsers_text _) h₁ fun password w₂ h₂ => ?_
  refine wp_bind_sameUsers sameUsers_getConnection h₂ fun _ w₃ h₃ => ?_
  refine wp_bind_sameUsers sameUsers_beginWork h₃ fun _ w₄ h₄ => ?_
  rw [wp_bind]
  refine wp_mono ?_ (fun _ _ h => trans_of SameUsers h₄ h) (query_result _)
  rintro result w₅ ⟨rfl, h₅⟩
  have hnone : w₅.work.1.filter (fun u => u.username = sqlText username ∧
      u.password = sqlText (AuthApi.hashPassword env password)) = [] := by
    refine List.filter_eq_nil_iff.2 fun u hu hsame => ?_
    exact ne_sqlText_hash (w₅.work.2.varchar u hu).2 password (of_decide_eq_true hsame).2
  dsimp only
  rw [hnone]
  exact ⟨rfl, trans_of SameUsers h₄ h₅⟩

theorem handleRequest_refusal (request : Json) :
    wp (AuthApi.handleRequest env request) (Refusal w) (fun _ => SameUsers w) w := by
  refine wp_bind_sameUsers (sameUsers_text _) (refl_of SameUsers w) fun act w₁ h₁ => ?_
  have hrefusal : ∀ j w', Refusal w₁ j w' → Refusal w j w' := fun _ _ h => ⟨h.1, trans_of SameUsers h₁ h.2⟩
  refine (wp_ite _ _ _).2 ⟨fun _ => ?_, fun _ => (wp_ite _ _ _).2 ⟨fun _ => ?_, fun _ => ⟨rfl, h₁⟩⟩⟩
  · exact wp_mono hrefusal (fun _ _ h => h.elim) (handleRegister_refusal request)
  · exact wp_mono hrefusal (fun _ _ h => h.elim) (handleLogin_refusal request)

end Handlers

/-! ### A read -/

namespace Reader

variable {bits : ℕ} {r : Reader} {data : List UInt8}

/-- A read passes on one request at most. -/
theorem requests_step_cases (bits : ℕ) (r : Reader) (data : List UInt8) :
    (r.step bits data).requests = r.requests ∨ ∃ request, (r.step bits data).requests = r.requests ++ [request] := by
  unfold step readHeader readBody processRequest
  cases r.waiting with
  | header =>
    dsimp only
    cases contentLength bits data with
    | none => exact .inl rfl
    | some length =>
      dsimp only
      cases find separator data with
      | none => exact .inl rfl
      | some pos =>
        dsimp only
        split_ifs
        · exact .inr ⟨_, rfl⟩
        · exact .inl rfl
  | body remaining =>
    dsimp only
    split_ifs
    · exact .inr ⟨_, rfl⟩
    · exact .inl rfl
  | nothing => exact .inl rfl
  | thrown => exact .inl rfl

theorem step_thrown_iff (bits : ℕ) (data : List UInt8) (h : r.waiting ≠ .thrown) :
    (r.step bits data).waiting = .thrown ↔ r.waiting = .header ∧ contentLength bits data = none := by
  unfold step
  cases hw : r.waiting with
  | header => exact (readHeader_thrown_iff r data).trans (and_iff_right rfl).symm
  | body remaining =>
    unfold readBody processRequest
    dsimp only
    split_ifs <;> simp
  | nothing => simp [hw]
  | thrown => exact absurd hw h

end Reader

namespace Session

variable {env : Env} {parse : List UInt8 → Option Json} {s : Session} {w : World}

theorem waiting_of_reads (h : s.reads) : s.reader.waiting ≠ .thrown := by
  intro hw
  rw [reads, hw, Bool.and_false] at h
  cases h

/-- One answer more, which is an error; nobody is authenticated, and no row changes. -/
def Answered (s : Session) (w : World) (sw : Session × World) : Prop :=
  (∃ response, response.value "status" = .str "error" ∧
    sw.1 = { s with responses := s.responses ++ [response], writing := true }) ∧ SameUsers w sw.2

/-- **`process_request` answers once, with an error**, and throws nothing. -/
theorem processRequest_answered (data : List UInt8) :
    wp (processRequest env parse data) (fun _ => Answered s w) (fun _ _ => False) (s, w) := by
  -- where something is thrown, the session is as it was
  rw [processRequest, wp_tryCatch]
  suffices hbody : ∀ body : SessionM Unit, wp body (fun _ => Answered s w)
      (fun _ sw => sw.1 = s ∧ SameUsers w sw.2) (s, w) → wp body (fun _ => Answered s w)
        (fun _ sw => wp (writeResponse (AuthApi.errorResponse "Invalid request format")) (fun _ => Answered s w)
          (fun _ _ => False) sw) (s, w) by
    refine hbody _ ?_
    cases parse data with
    | none => exact ⟨rfl, rfl⟩
    | some request =>
      dsimp only
      rw [wp_bind, wp_orThrow]
      refine ⟨fun act _ => (wp_ite _ _ _).2 ⟨fun _ => ?_, fun _ => ⟨⟨_, rfl, rfl⟩, rfl⟩⟩, fun _ _ => ⟨rfl, rfl⟩⟩
      rw [wp_bind, api, wp_focus]
      refine wp_mono (fun response w' h => ?_) (fun _ _ h => ⟨rfl, h⟩) (handleRequest_refusal request)
      rw [wp_bind, wp_onlyIf]
      refine ⟨fun hsuccess => ?_, fun _ => ⟨⟨_, h.1, rfl⟩, h.2⟩⟩
      have hstatus := hsuccess.2
      rw [h.1] at hstatus
      exact absurd hstatus (by decide)
  intro body h
  refine wp_mono (fun _ _ h => h) ?_ h
  rintro _ ⟨s', w'⟩ ⟨rfl, hw⟩
  exact ⟨⟨_, rfl, rfl⟩, hw⟩

end Session

namespace Server

variable {env : Env} {parse : List UInt8 → Option Json} {sv : Server} {i : ℕ} {s : Session}

/-- The session waits for the event. -/
theorem onSession_of {waits : Session → Bool} {f : Session → Server} (hs : sv.sessions[i]? = some s) (hwaits : waits s) :
    sv.onSession i waits f = f s := by
  rw [onSession, hs]
  exact if_pos hwaits

/-- Nothing happens where no session waits for it. -/
theorem onSession_cases {waits : Session → Bool} {f : Session → Server} {P : Server → Prop} (hno : P sv)
    (hyes : ∀ s, sv.sessions[i]? = some s → waits s → P (f s)) : P (sv.onSession i waits f) := by
  unfold onSession
  cases hs : sv.sessions[i]? with
  | none => exact hno
  | some s =>
    dsimp only
    split_ifs with hwaits
    · exact hyes s hs hwaits
    · exact hno

/-! ### What the server never does -/

/-- Nobody is authenticated, and every request was answered once, with an error. -/
structure Unauthenticated (s : Session) : Prop where
  userId : s.userId = 0
  authToken : s.authToken = ""
  answered : s.responses.length = s.reader.requests.length
  errors : ∀ response ∈ s.responses, response.value "status" = .str "error"

/-- The table is `users`, and nobody has got anything from it. -/
structure Refusing (users : { l : List UserRow // Users.Valid l }) (sv : Server) : Prop where
  users : sv.world.users = users
  sessions : ∀ s ∈ sv.sessions, Unauthenticated s

section Refusing

variable {users : { l : List UserRow // Users.Valid l }}

theorem Refusing.set (h : Refusing users sv) (i : ℕ) (hs : Unauthenticated s) : Refusing users (sv.set i s) where
  users := h.users
  sessions s' hs' := (List.mem_or_eq_of_mem_set hs').elim (h.sessions s') fun he => he ▸ hs

theorem Refusing.session (h : Refusing users sv) (hs : sv.sessions[i]? = some s) : Unauthenticated s :=
  h.sessions s (List.mem_of_getElem? hs)

theorem Refusing.onRead (h : Refusing users sv) (hs : Unauthenticated s) (data : List UInt8) :
    Refusing users (sv.onRead env parse i s data) := by
  unfold Server.onRead
  dsimp only
  split_ifs
  · exact ⟨h.users, h.sessions⟩
  rcases s.reader.requests_step_cases env.ulongBits data with hsame | ⟨request, hone⟩
  · rw [hsame, List.drop_length]
    exact h.set i ⟨hs.userId, hs.authToken, hs.answered.trans (congrArg List.length hsame.symm), hs.errors⟩
  · rw [hone, List.drop_left]
    dsimp only
    split_ifs
    · exact ⟨h.users, h.sessions⟩
    have hwp := @Session.processRequest_answered env parse { s with reader := s.reader.step env.ulongBits data } sv.world request
    unfold wp at hwp
    cases hrun : Session.processRequest env parse request ({ s with reader := s.reader.step env.ulongBits data }, sv.world) with
    | error e sw => rw [hrun] at hwp; exact hwp.elim
    | ok a sw =>
      rw [hrun] at hwp
      obtain ⟨s', w⟩ := sw
      obtain ⟨⟨response, herror, rfl⟩, hsame⟩ := hwp
      have hrefusing : Refusing users { sv with world := w } := ⟨hsame.trans h.users, h.sessions⟩
      refine hrefusing.set i ⟨hs.userId, hs.authToken, ?_, ?_⟩
      · change (s.responses ++ [response]).length = (s.reader.step env.ulongBits data).requests.length
        rw [hone, List.length_append, List.length_append, hs.answered]
        rfl
      · intro j hj
        rcases List.mem_append.1 hj with hj | hj
        · exact hs.errors j hj
        · obtain rfl := List.mem_singleton.1 hj
          exact herror

/-- **No event changes a row or authenticates anybody.** -/
theorem Refusing.step (h : Refusing users sv) (e : Event) : Refusing users (sv.step env parse e) := by
  unfold Server.step
  by_cases hended : sv.ended
  · rwa [if_pos hended]
  rw [if_neg hended]
  cases e with
  | accept connected =>
    dsimp only
    split_ifs
    · exact h
    · refine ⟨h.users, fun s hs => ?_⟩
      rcases List.mem_append.1 hs with hs | hs
      · exact h.sessions s hs
      · obtain rfl := List.mem_singleton.1 hs
        exact ⟨rfl, rfl, rfl, fun _ hj => absurd hj List.not_mem_nil⟩
    · exact ⟨h.users, h.sessions⟩
  | acceptError => exact h
  | read i data => exact onSession_cases h fun s hs _ => h.onRead (h.session hs) data
  | readError i =>
    refine onSession_cases h fun s hs _ => h.set i ?_
    exact ⟨(h.session hs).userId, (h.session hs).authToken, (h.session hs).answered, (h.session hs).errors⟩
  | written i =>
    refine onSession_cases h fun s hs _ => h.set i ?_
    exact ⟨(h.session hs).userId, (h.session hs).authToken, (h.session hs).answered, (h.session hs).errors⟩
  | writeError i =>
    refine onSession_cases h fun s hs _ => h.set i ?_
    exact ⟨(h.session hs).userId, (h.session hs).authToken, (h.session hs).answered, (h.session hs).errors⟩
  | signal => exact ⟨h.users, h.sessions⟩

end Refusing

/-- **The server refuses everybody**: whatever the table holds and the clients send, no row
is changed, no session is authenticated, and every request gets one answer, an error. -/
theorem refusing_throughout (env : Env) (parse : List UInt8 → Option Json) (w : World) (es : List Event) :
    Run.Throughout (step env parse) (Refusing w.users) (start w) es :=
  Run.throughout_of_along (C := fun _ _ => True) (fun _ e h _ => h.step e)
    ⟨rfl, fun _ hs => absurd hs List.not_mem_nil⟩ (Run.along_of_forall (D := fun _ => True) fun _ _ => trivial)

/-! ### What ends the process -/

/-- What a read brings ends the process: a length that `std::stoul` does not take, or a
request without the members that the handler of its action reads. -/
def Session.Breaks (env : Env) (parse : List UInt8 → Option Json) (s : Session) (data : List UInt8) : Prop :=
  (s.reader.waiting = .header ∧ contentLength env.ulongBits data = none) ∨
    ∃ request, (s.reader.step env.ulongBits data).requests = s.reader.requests ++ [request] ∧ Session.asserts parse request

/-- The event ends the process: a signal, a peer that has gone before its session is made,
or what some session reads. -/
def Ends (env : Env) (parse : List UInt8 → Option Json) (sv : Server) : Event → Prop
  | .accept connected => connected = false
  | .signal => True
  | .read i data => ∃ s, sv.sessions[i]? = some s ∧ s.reads ∧ Session.Breaks env parse s data
  | .acceptError | .readError _ | .written _ | .writeError _ => False

/-- The process runs, and accepts connections. -/
def Up (sv : Server) : Prop := sv.ended = false ∧ sv.running = true

theorem onRead_running (data : List UInt8) : (sv.onRead env parse i s data).running = sv.running := by
  unfold onRead
  dsimp only
  split_ifs
  · rfl
  split
  · rfl
  split_ifs
  · rfl
  split <;> rfl

/-- No exception of the database and no malformed request leaves the handler. -/
theorem onRead_ended_iff (hsv : sv.ended = false) (hreads : s.reads) (data : List UInt8) :
    (sv.onRead env parse i s data).ended = true ↔ Session.Breaks env parse s data := by
  have hthrown := s.reader.step_thrown_iff env.ulongBits data (Session.waiting_of_reads hreads)
  unfold onRead Session.Breaks
  dsimp only
  split_ifs with hw
  · exact iff_of_true rfl (.inl (hthrown.1 hw))
  rw [or_iff_right (mt hthrown.2 hw)]
  rcases s.reader.requests_step_cases env.ulongBits data with hsame | ⟨request, hone⟩
  · rw [hsame, List.drop_length]
    refine iff_of_false (fun h => absurd (hsv.symm.trans h) (by decide)) ?_
    rintro ⟨request, hone, -⟩
    exact absurd (congrArg List.length hone) (by simp)
  · rw [hone, List.drop_left]
    have hasserts : (∃ request', s.reader.requests ++ [request] = s.reader.requests ++ [request'] ∧
        Session.asserts parse request') ↔ Session.asserts parse request := by
      refine ⟨?_, fun h => ⟨request, rfl, h⟩⟩
      rintro ⟨request', he, h⟩
      rwa [List.singleton_inj.1 (List.append_cancel_left he)]
    rw [hasserts]
    dsimp only
    split_ifs with hassert
    · exact iff_of_true rfl hassert
    refine iff_of_false (fun h => ?_) hassert
    have hwp := @Session.processRequest_answered env parse { s with reader := s.reader.step env.ulongBits data } sv.world request
    obtain ⟨a, sw, hrun, -⟩ := wp_returns hwp
    rw [hrun] at h
    exact absurd (hsv.symm.trans h) (by decide)

/-- An event that ends nothing. -/
theorem up_step (h : sv.Up) {e : Event} (he : ¬ Ends env parse sv e) : (sv.step env parse e).Up := by
  unfold step
  rw [if_neg (by rw [h.1]; decide)]
  cases e with
  | accept connected =>
    dsimp only
    rw [h.2, if_neg (by decide), if_pos ((Bool.not_eq_false connected).mp he)]
    exact ⟨h.1, rfl⟩
  | acceptError => exact h
  | read i data =>
    refine onSession_cases h fun s hs hreads => ⟨?_, (onRead_running data).trans h.2⟩
    refine Bool.eq_false_iff.2 fun hended => he ⟨s, hs, hreads, ?_⟩
    exact (onRead_ended_iff h.1 hreads data).1 hended
  | readError i => exact onSession_cases h fun s _ _ => h
  | written i => exact onSession_cases h fun s _ _ => h
  | writeError i => exact onSession_cases h fun s _ _ => h
  | signal => exact absurd trivial he

/-- An event that ends the process. -/
theorem ended_step (h : sv.Up) {e : Event} (he : Ends env parse sv e) : (sv.step env parse e).ended = true := by
  unfold step
  rw [if_neg (by rw [h.1]; decide)]
  cases e with
  | accept connected =>
    obtain rfl : connected = false := he
    dsimp only
    rw [h.2, if_neg (by decide), if_neg (by decide)]
    rfl
  | signal => rfl
  | read i data =>
    obtain ⟨s, hs, hreads, hbreaks⟩ := he
    dsimp only
    rw [onSession_of hs hreads]
    exact (onRead_ended_iff h.1 hreads data).2 hbreaks
  | acceptError => exact he.elim
  | readError => exact he.elim
  | written => exact he.elim
  | writeError => exact he.elim

/-- **What ends the server**: it runs for as long as no event ends it, whatever the database
does, and one such event of one client ends it for all. -/
theorem survives_iff (env : Env) (parse : List UInt8 → Option Json) (w : World) (es : List Event) :
    Run.Throughout (step env parse) (fun sv => sv.ended = false) (start w) es ↔
      Run.Along (step env parse) (fun sv e => ¬ Ends env parse sv e) (start w) es := by
  refine Run.throughout_iff_along (I := Up) (fun _ h => h.1) (fun sv e h he => up_step h he) (fun sv e h he hup => ?_)
    ⟨rfl, rfl⟩ es
  exact absurd (hup.symm.trans (ended_step h (not_not.1 he))) (by decide)

end Server

end GameSocket
end SocketCommunication
