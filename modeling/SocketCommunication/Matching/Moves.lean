/-
# What a handler can do

`deeds` lists what an event makes sessions do that matters to others: the calls
of controllers, each with the identity in whose name it is made, and the logins
that are granted.  It is computed from the state before the event.

`Move` is one change of the server that a handler makes: an invariant is proved
for each move, once, and not for each path through each handler.  The first such
invariant is `Server.Sane`.
-/

import SocketCommunication.Matching.Footprint
import SocketCommunication.Matching.Login
import SocketCommunication.Matching.Step

namespace SocketCommunication
namespace Matching

open Effect

/-- Who a session is: what it is called in the registries and in its requests. -/
structure Identity where
  userId : ℤ
  isMirror : Bool
  token : String
  deriving DecidableEq

def Session.identity (sess : Session) : Identity := ⟨sess.userId, sess.isMirror, sess.token⟩

/-- What an event makes a session do. -/
inductive Deed where
  /-- It gives a request to a controller. -/
  | call (who : Identity) (type : ControllerType) (request : Json)
  /-- It is logged in as `userId`. -/
  | login (who : Identity) (userId : ℤ)

namespace Identity

/-- A request as it goes to a controller. -/
def sign (who : Identity) (request : Json) : Json :=
  if who.userId ≠ 0 then request.set "userId" (.int who.userId) else request

/-- What the end of a session does. -/
def teardown (who : Identity) : List Deed :=
  if 0 < who.userId then [.call who .room (Session.exitRequest who.userId)] else []

/-- The login that `process_request` grants. -/
def granted (env : Env) (w : World) (tokens : AList fun _ : ℤ => String) (who : Identity)
    (action : String) (request : Json) : List Deed :=
  if isLogin action then
    match Controller.auth env (who.sign request) w with
    | .ok response _ =>
      match response.succeeds, (response.value "userId").getInt with
      | true, .ok userId => if (tokens.lookup userId).isSome then [] else [.login who userId]
      | _, _ => []
    | .error _ _ => []
  else []

/-- What a request makes a session do. -/
def asks (env : Env) (w : World) (tokens : AList fun _ : ℤ => String) (who : Identity)
    (request : Json) : List Deed :=
  match request.value "action" with
  | .str action =>
    if action = "register" ∨ action = "login" ∨ action = "SSAFYlogin" ∨ action = "updateNickName" then
      .call who .auth (who.sign request) :: granted env w tokens who action request
    else if action = "createRoom" ∨ action = "joinRoom" ∨ action = "exitRoom" ∨ action = "listRooms" then
      if who.userId = 0 then [] else [.call who .room (who.sign request)]
    else if action = "gameStart" ∨ action = "gameEnd" then
      if who.userId = 0 ∨ ¬ who.isMirror then [] else [.call who .game (who.sign request)]
    else if action = "logout" then who.teardown
    else []
  | _ => []

end Identity

namespace Server

/-- What the completion of an operation makes its session do. -/
def completes (env : Env) (s : Server) (who : Identity) : Op → Session.Completion → List Deed
  | _, .error => who.teardown
  | .readMessage, .ok (some request) => who.asks env s.world s.tokens request
  | .readHandshake, .ok (some handshake) =>
    if ¬ Session.asksMirror handshake ∧ (handshake.value "version").eqString s.version ∧
        handshake.contains "action" then
      { who with token := env.uuid s.uuids }.asks env s.world s.tokens handshake
    else []
  | _, _ => []

/-- What the end of a session does, if it is there. -/
def ends (s : Server) (sid : ℕ) : List (ℕ × Deed) :=
  match s.get? sid with
  | some sess => sess.identity.teardown.map (sid, ·)
  | none => []

/-- **What an event makes the sessions do.** -/
def deeds (env : Env) (s : Server) : Event → List (ℕ × Deed)
  | .complete sid i result =>
    match s.get? sid, s.completed sid i with
    | some sess, some p =>
      if canComplete p result then (s.completes env sess.identity p.op result).map (sid, ·) else []
    | _, _ => []
  | .sessionCheck => ((s.sessionsToRemove env).filterMap s.sessions.lookup).flatMap s.ends
  | .signal => ((s.entries env).map (·.2)).flatMap s.ends
  | _ => []

end Server

/-! ### Moves -/

/-- Which deeds are licensed; a login also by the server that grants it. -/
structure Licence where
  call : ℕ → Identity → ControllerType → Json → Prop
  login : Server → ℕ → Identity → ℤ → Prop

/-- Nothing has happened to members, tokens and the other sessions. -/
structure Calm (sid : ℕ) (s t : Server) : Prop where
  roomUsers : t.world.db.1.roomUsers = s.world.db.1.roomUsers
  tokens : t.tokens = s.tokens
  others : ∀ sid' ≠ sid, t.get? sid' = s.get? sid'

theorem Calm.refl (sid : ℕ) (s : Server) : Calm sid s s := ⟨rfl, rfl, fun _ _ => rfl⟩

theorem Calm.trans {sid : ℕ} {s t r : Server} (h : Calm sid s t) (h' : Calm sid t r) : Calm sid s r :=
  ⟨h'.roomUsers.trans h.roomUsers, h'.tokens.trans h.tokens, fun sid' hne =>
    (h'.others sid' hne).trans (h.others sid' hne)⟩

/-- A deed of `sid` in an event that found the server `s`. -/
def Licence.Allows (L : Licence) (s : Server) (sid : ℕ) : Deed → Prop
  | .call who type request => L.call sid who type request
  | .login who u => ∀ t, Calm sid s t → L.login t sid who u

/-- The first message of the session has been read. -/
def Session.Greeted (sess : Session) : Prop := ∀ p ∈ sess.pending, p.op ≠ .readHandshake

/-- The first message of the session `sid`, if there is one, has been read. -/
def Server.Greeted (s : Server) (sid : ℕ) : Prop := ∀ sess, s.get? sid = some sess → sess.Greeted

/-- A registry `l'` has entries of `l`, and others for sessions that are there and
greeted. -/
def Server.Registers {κ : Type} [DecidableEq κ] (s : Server) (l l' : AList fun _ : κ => ℕ) : Prop :=
  ∀ k sid, l'.lookup k = some sid → l.lookup k = some sid ∨ ((s.get? sid).isSome ∧ s.Greeted sid)

/-- The request of a call carries the identity of the caller. -/
def Guarded (who : Identity) (request : Json) : ControllerType → Prop
  | .room => who.userId ≠ 0 ∧ request.value "userId" = .int who.userId
  | .auth => who.userId ≠ 0 → request.value "userId" = .int who.userId
  | .game => who.isMirror

/-- The server after a call. -/
def Server.called (env : Env) (sid : ℕ) (type : ControllerType) (request : Json) (s : Server) : Server :=
  { s with
    trace := .handled sid type request :: s.trace
    world := after (Controller.handleRequest env type request) s.world }

open Server in
/-- One change that a handler makes. -/
inductive Move (env : Env) (L : Licence) : Server → Server → Prop
  | call {s : Server} {sid : ℕ} {sess : Session} {type : ControllerType} {request : Json}
      (hs : s.get? sid = some sess) (hguard : Guarded sess.identity request type)
      (hL : L.call sid sess.identity type request) : Move env L s (s.called env sid type request)
  | start {s : Server} {sid : ℕ} {op : Op} (hgreeted : s.Greeted sid) (hop : op ≠ .readHandshake) :
      Move env L s (start sid op s)
  /-- A change that touches neither the identity of the session nor its operations. -/
  | revise {s : Server} {sid : ℕ} {f : Session → Session}
      (hf : ∀ sess, (f sess).identity = sess.identity ∧ (f sess).pending = sess.pending) :
      Move env L s (modifySession sid f s)
  | registry {s : Server} {mirrors : AList fun _ : ℤ => ℕ} {sessions : AList fun _ : String => ℕ}
      {connectedIps : Finset String} {uuids : ℕ} {running : Bool} (hmirrors : s.Registers s.mirrors mirrors)
      (hsessions : s.Registers s.sessions sessions) :
      Move env L s { s with mirrors, sessions, connectedIps, uuids, running }
  | answered {s : Server} {sid : ℕ} {action : String} {response : Json} (hs : (s.get? sid).isSome)
      (h : ¬ (isLogin action ∧ response.succeeds)) :
      Move env L s { s with trace := .answered sid action response :: s.trace }
  | mirror {s : Server} {sid : ℕ} {sess : Session} (hs : s.get? sid = some sess) (hgreeted : sess.Greeted)
      (huser : sess.userId = 0) (htoken : sess.token = "") :
      Move env L s (modifySession sid (fun x => { x with isMirror := true }) s)
  | port {s : Server} {sid : ℕ} {sess : Session} {port : ℤ} (hs : s.get? sid = some sess)
      (hgreeted : sess.Greeted) (hmirror : sess.isMirror) (huser : sess.userId = 0) (htoken : sess.token = "")
      (hport : Json.wrapInt port = port) :
      Move env L s (modifySession sid (fun x => { x with userId := port }) s)
  | token {s : Server} {sid : ℕ} {sess : Session} {token : String} (hs : s.get? sid = some sess)
      (hgreeted : sess.Greeted) (huser : sess.userId = 0) (htoken : token ≠ "") :
      Move env L s (modifySession sid (fun x => { x with token }) s)
  /-- A login that ends after `user_id_` was written: the second lookup found nobody. -/
  | halfLogin {s : Server} {sid : ℕ} {sess : Session} (hs : s.get? sid = some sess)
      (hgreeted : sess.Greeted) (hL : L.login s sid sess.identity (-1)) :
      Move env L s (modifySession sid (fun x => { x with userId := -1 }) s)
  | login {s : Server} {sid : ℕ} {sess : Session} {u : ℤ} {userName nickName token action : String}
      {response : Json} {sessions : AList fun _ : String => ℕ} {uuids : ℕ}
      (hs : s.get? sid = some sess) (hgreeted : sess.Greeted) (hsessions : s.Registers s.sessions sessions)
      (hL : L.login s sid sess.identity u) (hu : Json.wrapInt u = u) (hfree : s.tokens.lookup u = none)
      (htoken : token ≠ "") (haction : isLogin action) (hsuccess : response.succeeds) (hid : response.value "userId" = .int u) :
      Move env L s
        { s with
          heap := s.heap.insert sid
            { sess with userId := u, userName, nickName, status := "대기중", token }
          sessions, uuids
          tokens := if u ≠ 0 then s.tokens.insert u token else s.tokens
          trace := .answered sid action response :: s.trace }

abbrev Moves (env : Env) (L : Licence) : Server → Server → Prop := Relation.ReflTransGen (Move env L)

namespace Server

variable {s : Server} {κ : Type} [DecidableEq κ]

theorem isSome_modifySession {sid sid' : ℕ} {f : Session → Session} :
    ((modifySession sid f s).get? sid').isSome = (s.get? sid').isSome := by
  rw [get?_modifySession]
  split_ifs with h
  · rw [h, Option.isSome_map]
  · rfl

theorem registers_refl (l : AList fun _ : κ => ℕ) : s.Registers l l := fun _ _ h => .inl h

/-- What is registered after an entry was erased. -/
theorem lookup_of_erase {l : AList fun _ : κ => ℕ} {k k' : κ} {sid : ℕ} (h : (l.erase k).lookup k' = some sid) :
    l.lookup k' = some sid := by
  by_cases hk : k' = k
  · subst hk
    rw [AList.lookup_erase] at h
    cases h
  · rwa [AList.lookup_erase_ne hk] at h

theorem registers_erase (l : AList fun _ : κ => ℕ) (k : κ) : s.Registers l (l.erase k) :=
  fun _ _ h => .inl (lookup_of_erase h)

theorem registers_dropEntry (env : Env) (l : AList fun _ : κ => ℕ) (sid : ℕ) :
    s.Registers l (dropEntry env l sid) := by
  unfold dropEntry
  split
  · exact registers_erase l _
  · exact registers_refl l

/-- A session that is there and greeted registers. -/
theorem Registers.insert {l l' : AList fun _ : κ => ℕ} (h : s.Registers l l') {sid : ℕ}
    (hs : (s.get? sid).isSome) (hg : s.Greeted sid) (k : κ) : s.Registers l (l'.insert k sid) := by
  intro k' sid' h'
  by_cases hk : k' = k
  · subst hk
    rw [AList.lookup_insert, Option.some.injEq] at h'
    exact .inr (h' ▸ ⟨hs, hg⟩)
  · exact h k' sid' (by rwa [AList.lookup_insert_ne hk] at h')

end Server

/-! ### What moves keep -/

section Keep

variable {env : Env} {L : Licence} {s t : Server}

/-- A handler neither makes nor destroys an object. -/
theorem Move.isSome (h : Move env L s t) (sid : ℕ) : (t.get? sid).isSome = (s.get? sid).isSome := by
  cases h with
  | call => rfl
  | registry => rfl
  | answered => rfl
  | @login sid' _ _ _ _ _ _ _ _ _ hs =>
    refine (congrArg Option.isSome (Server.get?_of_insert rfl sid)).trans ?_
    split_ifs with hsid
    · rw [hsid, hs]
      rfl
    · rfl
  | _ => exact Server.isSome_modifySession

theorem Moves.isSome (h : Moves env L s t) (sid : ℕ) : (t.get? sid).isSome = (s.get? sid).isSome := by
  induction h with
  | refl => rfl
  | tail _ hmove ih => rw [hmove.isSome, ih]

theorem Session.Greeted.append {sess : Session} (h : sess.Greeted) {p : PendingOp} (hp : p.op ≠ .readHandshake) :
    Session.Greeted { sess with pending := sess.pending ++ [p] } := by
  intro q hq
  rcases List.mem_append.1 hq with hq | hq
  · exact h q hq
  · rwa [List.mem_singleton.1 hq]

/-- What holds of the sessions that a write does not spoil holds after it. -/
theorem Server.forall_modifySession {P : ℕ → Session → Prop} {sid : ℕ} {f : Session → Session}
    (h : ∀ sid' sess, s.get? sid' = some sess → P sid' sess)
    (hf : ∀ sess, s.get? sid = some sess → P sid sess → P sid (f sess)) :
    ∀ sid' sess, (modifySession sid f s).get? sid' = some sess → P sid' sess := by
  intro sid' sess hsess
  rw [get?_modifySession] at hsess
  split_ifs at hsess with hsid
  · obtain ⟨x, hx, rfl⟩ := Option.map_eq_some_iff.1 hsess
    exact hsid ▸ hf x hx (h sid x hx)
  · exact h sid' sess hsess

theorem Server.forall_of_insert {P : ℕ → Session → Prop} {sid : ℕ} {x : Session}
    (h : ∀ sid' sess, s.get? sid' = some sess → P sid' sess) (ht : t.heap = s.heap.insert sid x) (hx : P sid x) :
    ∀ sid' sess, t.get? sid' = some sess → P sid' sess := by
  intro sid' sess hsess
  rw [get?_of_insert ht] at hsess
  split_ifs at hsess with hsid
  · obtain rfl := Option.some.inj hsess
    exact hsid ▸ hx
  · exact h sid' sess hsess

theorem Move.greeted (h : Move env L s t) {sid : ℕ} (hg : s.Greeted sid) : t.Greeted sid := by
  have hall : ∀ sid' sess, s.get? sid' = some sess → sid' = sid → sess.Greeted :=
    fun sid' sess hs hsid => hg sess (hsid ▸ hs)
  suffices ∀ sid' sess, t.get? sid' = some sess → sid' = sid → sess.Greeted from
    fun sess hs => this sid sess hs rfl
  cases h with
  | call => exact hall
  | registry => exact hall
  | answered => exact hall
  | start _ hop => exact Server.forall_modifySession hall fun _ _ hx hsid => (hx hsid).append hop
  | revise hf =>
    refine Server.forall_modifySession hall fun x _ hx hsid => ?_
    rw [Session.Greeted, (hf x).2]
    exact hx hsid
  | login _ hgreeted => exact Server.forall_of_insert hall rfl fun _ => hgreeted
  | _ => exact Server.forall_modifySession hall fun _ _ hx hsid => hx hsid

theorem Moves.greeted (h : Moves env L s t) {sid : ℕ} (hg : s.Greeted sid) : t.Greeted sid := by
  induction h with
  | refl => exact hg
  | tail _ hmove ih => exact hmove.greeted ih

end Keep

/-! ### Sessions and registries -/

/-- A session waits for its first message alone, and then is nobody yet. -/
structure Session.Sane (sess : Session) : Prop where
  int : Json.wrapInt sess.userId = sess.userId
  fresh : ¬ sess.Greeted → ∃ p, sess.pending = [p] ∧ sess.identity = ⟨0, false, ""⟩

def Act.sid : Act → ℕ
  | .handled sid _ _ => sid
  | .answered sid _ _ => sid

/-- **The sessions and the registries are in order**, and a number not yet given
to a session occurs nowhere. -/
structure Server.Sane (s : Server) : Prop where
  session : ∀ sid sess, s.get? sid = some sess → sess.Sane
  heap : ∀ sid, (s.get? sid).isSome → sid < s.nextId
  mirrors : ∀ port sid, s.mirrors.lookup port = some sid → sid < s.nextId ∧ s.Greeted sid
  sessions : ∀ token sid, s.sessions.lookup token = some sid → sid < s.nextId ∧ s.Greeted sid
  trace : ∀ act ∈ s.trace, act.sid < s.nextId

namespace Session.Sane

variable {sess : Session}

/-- A session that was greeted. -/
theorem of_greeted {sess' : Session} (hg : sess.Greeted) (hp : sess'.pending = sess.pending)
    (hint : Json.wrapInt sess'.userId = sess'.userId) : sess'.Sane :=
  ⟨hint, fun hn => absurd (by rwa [Session.Greeted, hp]) hn⟩

theorem revise (h : sess.Sane) {f : Session → Session} (hid : (f sess).identity = sess.identity)
    (hp : (f sess).pending = sess.pending) : (f sess).Sane where
  int := by
    have hu : (f sess).userId = sess.userId := congrArg Identity.userId hid
    rw [hu, h.int]
  fresh hn := by
    rw [Session.Greeted, hp] at hn
    rw [hp, hid]
    exact h.fresh hn

theorem start (h : sess.Sane) (hg : sess.Greeted) {p : PendingOp} (hp : p.op ≠ .readHandshake) :
    Session.Sane { sess with pending := sess.pending ++ [p] } :=
  ⟨h.int, fun hn => absurd (hg.append hp) hn⟩

/-- An operation is taken out: what waits afterwards is no first message. -/
theorem greeted_take (h : sess.Sane) {i : ℕ} {p : PendingOp} (hp : sess.pending[i]? = some p) :
    Session.Greeted { sess with pending := sess.pending.eraseIdx i } := by
  by_cases hg : sess.Greeted
  · exact fun q hq => hg q (List.mem_of_mem_eraseIdx hq)
  · obtain ⟨q, hq, -⟩ := h.fresh hg
    rw [hq, List.getElem?_eq_some_iff] at hp
    obtain ⟨hi, -⟩ := hp
    obtain rfl : i = 0 := by simpa using hi
    rw [hq]
    exact fun _ h => absurd h List.not_mem_nil

end Session.Sane

section Sane

variable {env : Env} {L : Licence} {s t : Server}

theorem Server.Sane.registers {κ : Type} [DecidableEq κ] (h : s.Sane) {l l' : AList fun _ : κ => ℕ}
    (hl : ∀ k sid, l.lookup k = some sid → sid < s.nextId ∧ s.Greeted sid) (hl' : s.Registers l l') :
    ∀ k sid, l'.lookup k = some sid → sid < s.nextId ∧ s.Greeted sid := by
  intro k sid hk
  rcases hl' k sid hk with hold | ⟨hs, hg⟩
  · exact hl k sid hold
  · exact ⟨h.heap sid hs, hg⟩

theorem Move.nextId (h : Move env L s t) : t.nextId = s.nextId := by
  cases h with
  | call => rfl
  | registry => rfl
  | answered => rfl
  | login => rfl
  | _ => exact Server.modifySession_nextId ..

theorem Move.mirrors (h : Move env L s t) : s.Registers s.mirrors t.mirrors := by
  cases h with
  | call => exact Server.registers_refl _
  | registry hm => exact hm
  | answered => exact Server.registers_refl _
  | login => exact Server.registers_refl _
  | start => rw [Server.start, Server.modifySession_mirrors]; exact Server.registers_refl _
  | _ => rw [Server.modifySession_mirrors]; exact Server.registers_refl _

theorem Move.sessions (h : Move env L s t) : s.Registers s.sessions t.sessions := by
  cases h with
  | call => exact Server.registers_refl _
  | registry _ hr => exact hr
  | answered => exact Server.registers_refl _
  | login _ _ hr => exact hr
  | start => rw [Server.start, Server.modifySession_sessions]; exact Server.registers_refl _
  | _ => rw [Server.modifySession_sessions]; exact Server.registers_refl _

/-- What a move does to the sessions. -/
theorem Move.session_sane (h : Move env L s t) (hs : s.Sane) : ∀ sid sess, t.get? sid = some sess → sess.Sane := by
  cases h with
  | call => exact hs.session
  | registry => exact hs.session
  | answered => exact hs.session
  | start hg hop => exact Server.forall_modifySession hs.session fun x hx h => h.start (hg x hx) hop
  | revise hf => exact Server.forall_modifySession hs.session fun x _ h => h.revise (hf x).1 (hf x).2
  | login hget hg _ _ hu => exact Server.forall_of_insert hs.session rfl (.of_greeted hg rfl hu)
  | mirror hget hg =>
    refine Server.forall_modifySession hs.session fun x hx h => ?_
    obtain rfl := Option.some.inj (hget.symm.trans hx)
    exact .of_greeted hg rfl h.int
  | port hget hg _ _ _ hport =>
    refine Server.forall_modifySession hs.session fun x hx h => ?_
    obtain rfl := Option.some.inj (hget.symm.trans hx)
    exact .of_greeted hg rfl hport
  | token hget hg =>
    refine Server.forall_modifySession hs.session fun x hx h => ?_
    obtain rfl := Option.some.inj (hget.symm.trans hx)
    exact .of_greeted hg rfl h.int
  | halfLogin hget hg =>
    refine Server.forall_modifySession hs.session fun x hx h => ?_
    obtain rfl := Option.some.inj (hget.symm.trans hx)
    exact .of_greeted hg rfl (show Json.wrapInt (-1) = -1 by decide)

/-- **A move keeps the server in order.** -/
theorem Move.sane (h : Move env L s t) (hs : s.Sane) : t.Sane where
  session := h.session_sane hs
  heap sid hsome := by
    rw [h.isSome] at hsome
    rw [h.nextId]
    exact hs.heap sid hsome
  mirrors port sid hport := by
    obtain ⟨hlt, hg⟩ := hs.registers hs.mirrors h.mirrors port sid hport
    exact ⟨h.nextId ▸ hlt, h.greeted hg⟩
  sessions token sid htoken := by
    obtain ⟨hlt, hg⟩ := hs.registers hs.sessions h.sessions token sid htoken
    exact ⟨h.nextId ▸ hlt, h.greeted hg⟩
  trace act hact := by
    rw [h.nextId]
    cases h with
    | call hget =>
      rcases List.mem_cons.1 hact with rfl | hact
      · exact hs.heap _ (Option.isSome_of_mem hget)
      · exact hs.trace act hact
    | answered hget =>
      rcases List.mem_cons.1 hact with rfl | hact
      · exact hs.heap _ hget
      · exact hs.trace act hact
    | login hget =>
      rcases List.mem_cons.1 hact with rfl | hact
      · exact hs.heap _ (Option.isSome_of_mem hget)
      · exact hs.trace act hact
    | registry => exact hs.trace act hact
    | start => exact hs.trace act (by rwa [Server.start, Server.modifySession_trace] at hact)
    | _ => exact hs.trace act (by rwa [Server.modifySession_trace] at hact)

theorem Moves.sane (h : Moves env L s t) (hs : s.Sane) : t.Sane := by
  induction h with
  | refl => exact hs
  | tail _ hmove ih => exact hmove.sane ih

end Sane

end Matching
end SocketCommunication
