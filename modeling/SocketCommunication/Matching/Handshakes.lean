/-
# What becomes of a first message

`Greets` lists the ways in which `read_handshake` ends, each with the server it
leaves (`readHandshake_greets`).

The check of the address does not end the handshake: `checked` is the server after
it, and whatever follows starts there.  A first message that is rejected has no
effect but on its own socket, unless it is rejected for its address, or by an
exception, and has the right version (`harmless_iff`).
-/

import SocketCommunication.Matching.Edits

namespace SocketCommunication
namespace Matching

open Effect

namespace Server

/-- The server with the socket of `sid` closed. -/
def closed (sid : ℕ) : Server → Server := modifySession sid fun x => { x with isOpen := false }

/-- The server after the check of the address of `sid`. -/
def checked (sid : ℕ) (sess : Session) (s : Server) : Server :=
  if sess.remoteIp ∈ s.connectedIps then
    closed sid (start sid (.writeHandshake (errorResponse "이미 접속 중인 IP입니다.")) s)
  else { s with connectedIps := insert sess.remoteIp s.connectedIps }

/-- The server after the handshake of a mirror on a port. -/
def mirrored (env : Env) (sid : ℕ) (port : ℤ) (s : Server) : Server :=
  let t := modifySession sid (fun x => { x with mirrorPort := port })
    (modifySession sid (fun x => { x with isMirror := true }) s)
  start sid (.writeHandshake (.obj [("status", .str "success"), ("message", .str "미러 서버가 연결되었습니다")]))
    (modifySession sid (fun x => { x with userId := port })
      { t with mirrors := (dropEntry env t.mirrors sid).insert port sid })

end Server

/-- How the first message of `sid` ends. -/
inductive Greets (env : Env) (s : Server) (sid : ℕ) (sess : Session) : Option Json → Server → Prop
  | malformed : Greets env s sid sess none (s.closed sid)
  /-- `is_mirror_` is set before the port is read. -/
  | portless {handshake : Json} (hmirror : Session.asksMirror handshake)
      (hport : ∀ port, (handshake.value "port").getInt ≠ .ok port) : Greets env s sid sess (some handshake)
        (Server.closed sid (Server.modifySession sid (fun x => { x with isMirror := true }) s))
  | mirror {handshake : Json} {port : ℤ} (hmirror : Session.asksMirror handshake)
      (hport : (handshake.value "port").getInt = .ok port) :
      Greets env s sid sess (some handshake) (s.mirrored env sid port)
  | refused {handshake : Json} (hclient : ¬ Session.asksMirror handshake)
      (hversion : (handshake.value "version").eqString s.version = false) :
      Greets env s sid sess (some handshake) ((s.checked sid sess).closed sid)
  | welcomed {handshake : Json} (hclient : ¬ Session.asksMirror handshake)
      (hversion : (handshake.value "version").eqString s.version) (haction : handshake.contains "action" = false) :
      Greets env s sid sess (some handshake)
        (Server.start sid
          (.writeHandshake (.obj [("status", .str "success"), ("message", .str "서버에 연결되었습니다")]))
          ((s.checked sid sess).registered env sid sess))
  | asked {handshake : Json} {action : String} {x : Session} {l : Starts} {t : Server}
      (hclient : ¬ Session.asksMirror handshake) (hversion : (handshake.value "version").eqString s.version)
      (haction : handshake.value "action" = .str action)
      (hx : ((s.checked sid sess).registered env sid sess).get? sid = some x) (hzero : x.userId = 0)
      (hedits : Edits env ((s.checked sid sess).registered env sid sess) l t)
      (hasked : Asked env ((s.checked sid sess).registered env sid sess) sid x handshake l) :
      Greets env s sid sess (some handshake) t
  /-- An action that is not a string is an exception out of `process_request`. -/
  | unreadable {handshake : Json} (hclient : ¬ Session.asksMirror handshake)
      (hversion : (handshake.value "version").eqString s.version) (haction : handshake.contains "action")
      (hstr : ∀ action, handshake.value "action" ≠ .str action) :
      Greets env s sid sess (some handshake)
        (((s.checked sid sess).registered env sid sess).closed sid)

section Handshake

variable {env : Env} {s : Server} {sid : ℕ} {sess : Session}

/-- How the first message of a mirror ends. -/
theorem Greets.of_mirror {handshake : Json} {t : Server} (h : Greets env s sid sess (some handshake) t)
    (hmirror : Session.asksMirror handshake) :
    ((∀ port, (handshake.value "port").getInt ≠ .ok port) ∧
      t = Server.closed sid (Server.modifySession sid (fun x => { x with isMirror := true }) s)) ∨
    ∃ port, (handshake.value "port").getInt = .ok port ∧ t = s.mirrored env sid port := by
  cases h with
  | portless _ hport => exact .inl ⟨hport, rfl⟩
  | mirror _ hport => exact .inr ⟨_, hport, rfl⟩
  | refused hclient => exact absurd hmirror hclient
  | welcomed hclient => exact absurd hmirror hclient
  | asked hclient => exact absurd hmirror hclient
  | unreadable hclient => exact absurd hmirror hclient

/-- The end of a session without a user. -/
theorem wp_handleError_zero {Q : Unit → Server → Prop} {E : Exn → Server → Prop} (hs : s.get? sid = some sess)
    (hzero : sess.userId = 0) (hQ : Q () (s.closed sid)) : wp (Session.handleError env sid) Q E s := by
  refine wp_handleError hs ?_
  rwa [Server.ended_zero hzero]

/-- The session after the check of its address. -/
theorem Server.get?_checked (hs : s.get? sid = some sess) :
    ∃ x, (s.checked sid sess).get? sid = some x ∧ x.identity = sess.identity := by
  unfold Server.checked
  split_ifs
  · exact ⟨_, get?_modifySession_self (get?_modifySession_self hs), rfl⟩
  · exact ⟨sess, hs, rfl⟩

theorem Server.checked_version : (s.checked sid sess).version = s.version := by
  unfold Server.checked
  split_ifs
  · rw [closed, modifySession_version, start, modifySession_version]
  · rfl

theorem wp_checkAddress {Q : Unit → Server → Prop} {E : Exn → Server → Prop} (hs : s.get? sid = some sess)
    (hzero : sess.userId = 0) (hQ : Q () (s.checked sid sess)) : wp (Session.checkAddress env sid) Q E s := by
  unfold Server.checked at hQ
  simp only [Session.checkAddress, Server.allowConnection, wp_bind, wp_this hs, wp_get, wp_ite, wp_pure,
    wp_set, wp_onlyIf, Bool.false_eq_true, not_false_eq_true, true_implies, not_true_eq_false, false_implies,
    and_true, true_and, wp_modify]
  refine ⟨fun hin => ?_, fun hout => ?_⟩
  · rw [if_pos hin] at hQ
    exact wp_handleError_zero (Server.get?_modifySession_self hs) hzero hQ
  · rwa [if_neg hout] at hQ

theorem Server.get?_registered {x : Session} (hs : s.get? sid = some x) :
    (s.registered env sid sess).get? sid = some { x with token := env.uuid s.uuids } := by
  have hbase : ∀ {sessions : AList fun _ : String => ℕ} {uuids : ℕ} {tokens : AList fun _ : ℤ => String},
      Server.get? { s with sessions, uuids, tokens } sid = some x := hs
  exact get?_modifySession_self hbase

theorem wp_initSession {Q : Unit → Server → Prop} {E : Exn → Server → Prop} (hs : s.get? sid = some sess) :
    wp (Session.initSession env sid) Q E s ↔ Q () (s.registered env sid sess) := by
  simp only [Session.initSession, Server.registerSession, wp_bind, wp_get, wp_this hs, wp_set, wp_pure, wp_modify]
  rfl

/-- The handshake of a client: it is refused for its version, or the client is
registered, and its request processed, if there is one. -/
theorem wp_clientHandshake {handshake : Json} {Q : Server → Prop} (hs : s.get? sid = some sess) (hzero : sess.userId = 0)
    (hrefused : (handshake.value "version").eqString s.version = false → Q ((s.checked sid sess).closed sid))
    (hwelcomed : (handshake.value "version").eqString s.version → handshake.contains "action" = false →
      Q (Server.start sid
        (.writeHandshake (.obj [("status", .str "success"), ("message", .str "서버에 연결되었습니다")]))
        ((s.checked sid sess).registered env sid sess)))
    (hasked : ∀ x, (handshake.value "version").eqString s.version → handshake.contains "action" →
      (s.checked sid sess).get? sid = some x → x.identity = sess.identity →
      wp (Session.processRequest env sid handshake) (fun _ => Q)
        (fun _ t => (∃ x, t.get? sid = some x ∧ x.userId = 0) ∧ Q (t.closed sid))
        ((s.checked sid sess).registered env sid sess)) :
    wp (Session.clientHandshake env sid handshake) (fun _ => Q)
      (fun _ t => (∃ x, t.get? sid = some x ∧ x.userId = 0) ∧ Q (t.closed sid)) s := by
  obtain ⟨x, hx, hid⟩ := Server.get?_checked hs
  have hxzero : x.userId = 0 := (congrArg Identity.userId hid).trans hzero
  -- without the version of the server the handshake is refused
  have hother : (∀ version, (handshake.value "version").getString = .ok version → version ≠ s.version) →
      Q ((s.checked sid sess).closed sid) := by
    refine fun h => hrefused (Bool.eq_false_iff.2 fun he => h s.version ?_ rfl)
    rw [Json.eq_of_eqString he]
    rfl
  rw [Session.clientHandshake, wp_bind]
  refine wp_checkAddress hs hzero ?_
  simp only [wp_bind, wp_get, wp_ite, wp_orThrow, Server.checked_version]
  refine ⟨fun hmiss => wp_handleError_zero hx hxzero (hother fun version hv => ?_), fun _ => ⟨fun version hv =>
    ⟨fun hne => wp_handleError_zero hx hxzero (hother fun v hv' => ?_), fun heq => ?_⟩,
      fun e he => ⟨⟨x, hx, hxzero⟩, hother fun v hv' => ?_⟩⟩⟩
  · exact absurd (Json.contains_of_value (Json.getString_ok hv)) hmiss
  · obtain rfl := Except.ok.inj (hv.symm.trans hv')
    exact hne.symm
  · have hversion : (handshake.value "version").eqString s.version := by
      rw [Json.getString_ok hv, not_not.1 heq]
      exact beq_self_eq_true _
    have hsame : (s.checked sid sess).registered env sid x = (s.checked sid sess).registered env sid sess := by
      simp only [Server.registered, hxzero, hzero]
    rw [wp_initSession hx, hsame]
    exact ⟨fun haction => hasked x hversion haction hx hid, fun hno => hwelcomed hversion (Bool.eq_false_iff.2 hno)⟩
  · rw [he] at hv'
    cases hv'

/-- The handler of the first message, which throws nothing. -/
theorem wp_readHandshake {data : Option Json} {Q : Server → Prop} (hs : s.get? sid = some sess) (hzero : sess.userId = 0)
    (hmalformed : data = none → Q (s.closed sid))
    (hportless : ∀ handshake, data = some handshake → Session.asksMirror handshake →
      (∀ port, (handshake.value "port").getInt ≠ .ok port) →
      Q (Server.closed sid (Server.modifySession sid (fun x => { x with isMirror := true }) s)))
    (hmirror : ∀ handshake port, data = some handshake → Session.asksMirror handshake →
      (handshake.value "port").getInt = .ok port → Q (s.mirrored env sid port))
    (hclient : ∀ handshake, data = some handshake → ¬ Session.asksMirror handshake →
      wp (Session.clientHandshake env sid handshake) (fun _ => Q)
        (fun _ t => (∃ x, t.get? sid = some x ∧ x.userId = 0) ∧ Q (t.closed sid)) s) :
    wp (Session.readHandshake env sid data) (fun _ => Q) (fun _ _ => False) s := by
  have hcatch : ∀ {t : Server}, (∃ x, t.get? sid = some x ∧ x.userId = 0) ∧ Q (t.closed sid) →
      wp (Session.handleError env sid) (fun _ => Q) (fun _ _ => False) t :=
    fun ⟨⟨_, hx, hxzero⟩, h⟩ => wp_handleError_zero hx hxzero h
  simp only [Session.readHandshake, wp_tryCatch]
  cases data with
  | none => exact wp_handleError_zero hs hzero (hmalformed rfl)
  | some handshake =>
    refine (wp_ite _ _ _).2 ⟨fun hasks => ?_, fun hno =>
      wp_mono (fun _ _ h => h) (fun _ _ h => hcatch h) (hclient handshake rfl hno)⟩
    simp only [Session.mirrorHandshake, Server.registerMirrorSession, wp_bind, wp_modify, wp_orThrow]
    refine ⟨fun port hport => hmirror handshake port rfl hasks hport, fun e he => hcatch ⟨?_, ?_⟩⟩
    · exact ⟨_, Server.get?_modifySession_self hs, hzero⟩
    · refine hportless handshake rfl hasks fun port hport => ?_
      rw [he] at hport
      cases hport

theorem clientHandshake_greets {handshake : Json} (hs : s.get? sid = some sess) (hzero : sess.userId = 0)
    (hclient : ¬ Session.asksMirror handshake) :
    wp (Session.clientHandshake env sid handshake) (fun _ t => Greets env s sid sess (some handshake) t)
      (fun _ t => (∃ x, t.get? sid = some x ∧ x.userId = 0) ∧ Greets env s sid sess (some handshake) (t.closed sid)) s := by
  refine wp_clientHandshake hs hzero (.refused hclient) (.welcomed hclient) fun x hversion haction hx hid => ?_
  have hxzero : x.userId = 0 := (congrArg Identity.userId hid).trans hzero
  have hget := @Server.get?_registered env _ sid sess x hx
  refine wp_mono (fun _ t ⟨⟨l, ht, hl⟩, hnamed⟩ => ?_) (fun _ t ⟨⟨ht, hstr⟩, _⟩ => ?_)
    (wp_and (processRequest_edits hget) (processRequest_named handshake))
  · obtain ⟨action, hstr⟩ := hnamed haction
    exact .asked hclient hversion hstr hget hxzero ht hl
  · rw [ht]
    exact ⟨⟨_, hget, hxzero⟩, .unreadable hclient hversion haction hstr⟩

/-- **How a first message ends.** -/
theorem readHandshake_greets (hs : s.get? sid = some sess) (hzero : sess.userId = 0) (data : Option Json) :
    wp (Session.readHandshake env sid data) (fun _ t => Greets env s sid sess data t) (fun _ _ => False) s := by
  refine wp_readHandshake hs hzero (fun hdata => ?_) (fun handshake hdata hmirror hport => ?_)
    (fun handshake port hdata hmirror hport => ?_) fun handshake hdata hno => ?_
  · exact hdata ▸ .malformed
  · exact hdata ▸ .portless hmirror hport
  · exact hdata ▸ .mirror hmirror hport
  · exact hdata ▸ clientHandshake_greets hs hzero hno

end Handshake

/-! ### Rejections -/

/-- The action of a request is not a string. -/
def Json.misnamed (request : Json) : Bool :=
  match request.value "action" with
  | .str _ => false
  | _ => true

theorem Json.misnamed_iff {request : Json} : request.misnamed ↔ ∀ action, request.value "action" ≠ .str action := by
  unfold Json.misnamed
  cases request.value "action" <;> simp

/-- The handler of the first message calls `handle_error`: for data that is not
JSON, a mirror without a port, a second client on the address, another version, or
an exception out of `process_request`. -/
def Session.rejects (s : Server) (sess : Session) : Option Json → Prop
  | none => True
  | some handshake =>
    if asksMirror handshake then ∀ port, (handshake.value "port").getInt ≠ .ok port
    else sess.remoteIp ∈ s.connectedIps ∨ (handshake.value "version").eqString s.version = false ∨
      (handshake.contains "action" ∧ handshake.misnamed)

/-- No token was registered, no controller asked; the registries of sessions and
mirrors and the tables are as they were. -/
structure Untouched (s t : Server) : Prop where
  uuids : t.uuids = s.uuids
  trace : t.trace = s.trace
  sessions : t.sessions = s.sessions
  tokens : t.tokens = s.tokens
  mirrors : t.mirrors = s.mirrors
  tables : t.world.db.1 = s.world.db.1

/-- If the first message is rejected, it has no effect. -/
def Harmless (env : Env) (s : Server) (sid : ℕ) (sess : Session) (data : Option Json) : Prop :=
  wp (Session.readHandshake env sid data) (fun _ t => Session.rejects s sess data → Untouched s t) (fun _ _ => False) s

/-- The first message has the right version, and is rejected for its address, or
because its action is not a string. -/
def Session.LateRejection (s : Server) (sess : Session) (data : Option Json) : Prop :=
  ∃ handshake, data = some handshake ∧ ¬ asksMirror handshake ∧ (handshake.value "version").eqString s.version ∧
    (sess.remoteIp ∈ s.connectedIps ∨ (handshake.contains "action" ∧ handshake.misnamed))

section Rejections

variable {env : Env} {s t : Server} {sid : ℕ} {sess : Session}

theorem untouched_modifySession (f : Session → Session) : Untouched s (Server.modifySession sid f s) where
  uuids := Server.modifySession_uuids ..
  trace := Server.modifySession_trace ..
  sessions := Server.modifySession_sessions ..
  tokens := Server.modifySession_tokens ..
  mirrors := Server.modifySession_mirrors ..
  tables := by rw [Server.modifySession_world]

theorem Untouched.trans {r : Server} (h : Untouched s t) (h' : Untouched t r) : Untouched s r :=
  ⟨h'.uuids.trans h.uuids, h'.trace.trans h.trace, h'.sessions.trans h.sessions, h'.tokens.trans h.tokens,
    h'.mirrors.trans h.mirrors, h'.tables.trans h.tables⟩

theorem untouched_checked : Untouched s (s.checked sid sess) := by
  unfold Server.checked
  split_ifs
  · exact (untouched_modifySession _).trans (untouched_modifySession _)
  · exact ⟨rfl, rfl, rfl, rfl, rfl, rfl⟩

theorem Server.uuids_registered : (s.registered env sid sess).uuids = s.uuids + 1 := modifySession_uuids ..

/-- Tokens are not given back. -/
theorem Edit.uuids_le (h : Edit env s t) : s.uuids ≤ t.uuids := by
  cases h with
  | database => exact le_refl _
  | forget => exact le_refl _
  | expire => exact le_refl _
  | revise => rw [Server.modifySession_uuids]
  | register => rw [Server.uuids_registered]; exact Nat.le_succ _

theorem Edits.uuids_le {l : Starts} (h : Edits env s l t) : s.uuids ≤ t.uuids := by
  induction h with
  | refl => exact le_refl _
  | edit _ hedit ih => exact ih.trans hedit.uuids_le
  | start _ _ ih => rwa [Server.start, Server.modifySession_uuids]

/-- **A rejected first message has no effect just when it is not rejected late.** -/
theorem harmless_iff (hs : s.get? sid = some sess) (hzero : sess.userId = 0) (data : Option Json) :
    Harmless env s sid sess data ↔ ¬ Session.LateRejection s sess data := by
  have hspec := @readHandshake_greets env s sid sess hs hzero data
  have hdrawn : (s.checked sid sess).uuids = s.uuids := (@untouched_checked s sid sess).uuids
  constructor
  · rintro h ⟨handshake, rfl, hclient, hversion, hlate⟩
    obtain ⟨_, t, -, huntouched, hgreets⟩ := wp_returns (wp_mono (fun _ _ h => h) (fun _ _ h => h.1) (wp_and h hspec))
    have hrejects : Session.rejects s sess (some handshake) := by
      rw [Session.rejects, if_neg hclient]
      exact hlate.imp_right .inr
    have huuids := (huntouched hrejects).uuids
    cases hgreets with
    | portless hmirror => exact hclient hmirror
    | mirror hmirror => exact hclient hmirror
    | refused _ hno => exact absurd hversion (Bool.eq_false_iff.1 hno)
    | welcomed =>
      rw [Server.start, Server.modifySession_uuids, Server.uuids_registered] at huuids
      omega
    | asked _ _ _ _ _ hedits =>
      have hle := hedits.uuids_le
      rw [Server.uuids_registered] at hle
      omega
    | unreadable =>
      rw [Server.closed, Server.modifySession_uuids, Server.uuids_registered] at huuids
      omega
  · intro hn
    refine wp_mono (fun _ t hgreets hrejects => ?_) (fun _ _ h => h) hspec
    have hlate : ∀ {handshake}, data = some handshake → ¬ Session.asksMirror handshake →
        (handshake.value "version").eqString s.version = false := by
      rintro handshake rfl hclient
      rw [Session.rejects, if_neg hclient] at hrejects
      by_contra hversion
      refine hn ⟨handshake, rfl, hclient, Bool.eq_true_of_not_eq_false hversion, ?_⟩
      exact hrejects.imp_right fun h => h.resolve_left hversion
    have hright : ∀ {handshake}, data = some handshake → ¬ Session.asksMirror handshake →
        ¬ (handshake.value "version").eqString s.version :=
      fun hdata hclient => Bool.eq_false_iff.1 (hlate hdata hclient)
    cases hgreets with
    | malformed => exact untouched_modifySession _
    | portless => exact (untouched_modifySession _).trans (untouched_modifySession _)
    | mirror hmirror hport =>
      rw [Session.rejects, if_pos hmirror] at hrejects
      exact absurd hport (hrejects _)
    | refused => exact untouched_checked.trans (untouched_modifySession _)
    | welcomed hclient hversion => exact absurd hversion (hright rfl hclient)
    | asked hclient hversion => exact absurd hversion (hright rfl hclient)
    | unreadable hclient hversion => exact absurd hversion (hright rfl hclient)

/-- The session of a connection whose first message is about to be handled. -/
def crowdedSession : Session := { Session.make "192.0.2.1" 0 0 with pending := [] }

/-- A client is connected, and that connection comes from its address. -/
def crowdedServer : Server :=
  { Server.init with
    heap := (AList.singleton 0 { Session.make "192.0.2.1" 0 0 with
      token := "uuid0", pending := [⟨.readMessage, true⟩] }).insert 1 crowdedSession
    nextId := 2
    sessions := AList.singleton "uuid0" 0
    connectedIps := {"192.0.2.1"}
    uuids := 1 }

theorem get?_crowdedServer : crowdedServer.get? 1 = some crowdedSession := rfl

/-- Another version is refused, and that is all. -/
theorem harmless_outdated :
    Harmless .reliable crowdedServer 1 crowdedSession (some (.obj [("version", .str "0.9.0")])) := by
  refine (harmless_iff get?_crowdedServer rfl _).2 ?_
  rintro ⟨handshake, hdata, -, hversion, -⟩
  obtain rfl := Option.some.inj hdata
  exact absurd hversion (by decide)

/-- A first message with the right version that registers an account. -/
def registerHandshake : Json :=
  .obj [("version", .str "1.0.0"), ("action", .str "register"), ("userName", .str "intruder"),
    ("password", .str "password")]

/-- A message that is rejected and creates an account. -/
theorem not_harmless {data : Option Json} (hrejects : Session.rejects s sess data)
    (heffect : wp (Session.readHandshake env sid data)
      (fun _ t => t.world.db.1.users.length ≠ s.world.db.1.users.length) (fun _ _ => False) s) :
    ¬ Harmless env s sid sess data := fun h =>
  wp_exclude h heffect (fun _ _ huntouched hne => hne (congrArg _ (congrArg _ (huntouched hrejects).tables)))
    fun _ _ h => h.elim

/-- The second client on the address is rejected, and its account created. -/
theorem not_harmless_crowded : ¬ Harmless .reliable crowdedServer 1 crowdedSession (some registerHandshake) :=
  not_harmless (.inl (by decide)) (by decide +kernel)

end Rejections

end Matching
end SocketCommunication
