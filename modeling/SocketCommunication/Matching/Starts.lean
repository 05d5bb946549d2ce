/-
# What the completion of an operation starts

`Begins` lists the operations that the handler of an operation starts, each with
its session, and `Grows` what becomes of the sessions meanwhile
(`Completed.begins`).  The invariants of sockets are proved by its cases.

A session is destroyed when its last operation completes and its handler starts no
other: `dismisses` computes it from the state before the event
(`Completed.reap_eq`).
-/

import SocketCommunication.Matching.Completions

namespace SocketCommunication
namespace Matching

open Effect

/-- The operation answers the session itself, and reads on when it is done. -/
def Op.isAnswer : Op → Bool
  | .writeHandshake _ | .writeResponse _ => true
  | _ => false

namespace Session

/-- The first message of a client is not answered: another version, an action that
is not a string, a logout. -/
def unanswered (version : String) (handshake : Json) : Bool :=
  ! (handshake.value "version").eqString version ||
    (handshake.contains "action" && (handshake.misnamed || (handshake.value "action").eqString "logout"))

/-- Nothing is written to a session for its first message. -/
def silent (s : Server) (sess : Session) : Option Json → Bool
  | none => true
  | some handshake =>
    if asksMirror handshake then ! (handshake.value "port").getInt.isOk
    else sess.remoteIp ∉ s.connectedIps && unanswered s.version handshake

/-- The second client on an address is told so, and answered all the same. -/
def answeredTwice (s : Server) (sess : Session) : Option Json → Bool
  | none => false
  | some handshake =>
    ! asksMirror handshake && decide (sess.remoteIp ∈ s.connectedIps) && ! unanswered s.version handshake

/-- The handler of the completion of an operation starts nothing on its session. -/
def silences (s : Server) (sess : Session) : Op → Completion → Bool
  | _, .error => true
  | .readHandshake, .ok data => silent s sess data
  | .readMessage, .ok (some request) => (request.value "action").eqString "logout"
  | .writeBroadcast _, .ok _ => true
  | _, .ok _ => false

end Session

/-- What a first message starts. -/
inductive Hailed (s : Server) (sid : ℕ) (sess : Session) (data : Option Json) : Starts → Prop
  | unanswered (h : Session.silent s sess data) : Hailed s sid sess data []
  | answered {op : Op} {live : Bool} (h : Session.silent s sess data = false)
      (honce : Session.answeredTwice s sess data = false) (hop : op.isAnswer) : Hailed s sid sess data [(sid, ⟨op, live⟩)]
  /-- The second answer is written to the closed socket. -/
  | warned {op op' : Op} {live : Bool} (h : Session.answeredTwice s sess data) (hop : op.isAnswer)
      (hop' : op'.isAnswer) : Hailed s sid sess data [(sid, ⟨op, live⟩), (sid, ⟨op', false⟩)]

/-- What the completion of an operation starts. -/
inductive Begins (env : Env) (s : Server) (sid : ℕ) (sess : Session) : Op → Session.Completion → Starts → Prop
  | failed {op : Op} : Begins env s sid sess op .error []
  | greeted {data : Option Json} {l : Starts} (h : Hailed s sid sess data l) :
      Begins env s sid sess .readHandshake (.ok data) l
  | heard {data : Option Json} {l : Starts} (h : Heard env s sid sess data l) :
      Begins env s sid sess .readMessage (.ok data) l
  | answered {op : Op} {data : Option Json} (hop : op.isAnswer) :
      Begins env s sid sess op (.ok data) [(sid, ⟨.readMessage, sess.isOpen⟩)]
  | notified {response : Json} {data : Option Json} :
      Begins env s sid sess (.writeMirror response) (.ok data) [(sid, ⟨.readMessage, sess.isOpen⟩)]
  | broadcast {response : Json} {data : Option Json} : Begins env s sid sess (.writeBroadcast response) (.ok data) []

/-- What becomes of the sessions while operations are started. -/
structure Grows (s t : Server) (l : Starts) : Prop where
  there : ∀ k, (t.get? k).isSome = (s.get? k).isSome
  session : ∀ k y, t.get? k = some y → ∃ x, s.get? k = some x ∧ y.remoteIp = x.remoteIp ∧ y.pending = x.pending ++ l.on k

namespace Starts

@[simp] theorem on_nil (k : ℕ) : on [] k = [] := rfl

@[simp] theorem on_cons (p : ℕ × PendingOp) (l : Starts) (k : ℕ) :
    on (p :: l) k = if p.1 = k then p.2 :: on l k else on l k := by
  by_cases hk : p.1 = k <;> simp [on, hk]

theorem mem_on {l : Starts} {k : ℕ} {p : PendingOp} : p ∈ on l k ↔ (k, p) ∈ l := by
  simp [on]

theorem countP_on_cons (f : PendingOp → Bool) (p : ℕ × PendingOp) (l : Starts) (k : ℕ) :
    (on (p :: l) k).countP f = (if p.1 = k ∧ f p.2 then 1 else 0) + (on l k).countP f := by
  rw [on_cons]
  by_cases hk : p.1 = k
  · rw [if_pos hk, List.countP_cons, Nat.add_comm]
    simp only [hk, true_and]
  · rw [if_neg hk, if_neg fun h => hk h.1, Nat.zero_add]

theorem countP_on_cons_le (f : PendingOp → Bool) (p : ℕ × PendingOp) (l : Starts) (k : ℕ) :
    (on (p :: l) k).countP f ≤ (if k = p.1 then 1 else 0) + (on l k).countP f := by
  rw [countP_on_cons]
  by_cases hk : p.1 = k
  · rw [if_pos hk.symm]
    have hle : (if p.1 = k ∧ f p.2 then 1 else 0) ≤ 1 := by split_ifs <;> omega
    omega
  · rw [if_neg fun h => hk h.1]
    omega

theorem countP_on_cons_of_not {f : PendingOp → Bool} {p : ℕ × PendingOp} (hp : f p.2 = false) (l : Starts) (k : ℕ) :
    (on (p :: l) k).countP f = (on l k).countP f := by
  rw [countP_on_cons, hp, if_neg (fun h => Bool.false_ne_true h.2), Nat.zero_add]

theorem on_map (ops : List PendingOp) (sid k : ℕ) : on (ops.map (sid, ·)) k = if sid = k then ops else [] := by
  induction ops with
  | nil => simp
  | cons p ops ih =>
    rw [List.map_cons, on_cons, ih]
    split_ifs <;> rfl

end Starts

section Growth

variable {env : Env} {s t : Server} {sid : ℕ} {sess : Session} {l : Starts}

theorem Edits.grows (h : Edits env s l t) : Grows s t l where
  there := h.isSome
  session k y hy := by
    obtain ⟨x, hx, hgrown⟩ := h.get? hy
    exact ⟨x, hx, hgrown.kin.remoteIp, hgrown.pending⟩

/-- Where only the sessions count. -/
theorem Grows.of_get? {r : Server} (h : Grows s t l) (hget : r.get? = s.get?) : Grows r t l := by
  refine ⟨fun k => ?_, fun k y hy => ?_⟩
  · rw [h.there, hget]
  · obtain ⟨x, hx, hgrown⟩ := h.session k y hy
    exact ⟨x, hget ▸ hx, hgrown⟩

/-- Where one session alone has changed. -/
theorem grows_of_get? {z : Session} {ops : List PendingOp} (hs : s.get? sid = some sess)
    (hget : ∀ k, t.get? k = if k = sid then some z else s.get? k) (hip : z.remoteIp = sess.remoteIp)
    (hops : z.pending = sess.pending ++ ops) : Grows s t (ops.map (sid, ·)) where
  there k := by
    rw [hget]
    split_ifs with hk
    · rw [hk, hs, Option.isSome_some, Option.isSome_some]
    · rfl
  session k y hy := by
    rw [hget] at hy
    rw [Starts.on_map]
    split_ifs at hy with hk
    · obtain rfl := Option.some.inj hy
      rw [if_pos hk.symm]
      exact ⟨sess, hk ▸ hs, hip, hops⟩
    · rw [if_neg (Ne.symm hk)]
      exact ⟨y, hy, rfl, (List.append_nil _).symm⟩

/-- A change of one session that starts nothing. -/
theorem grows_modifySession {f : Session → Session} (hs : s.get? sid = some sess)
    (hip : (f sess).remoteIp = sess.remoteIp) (hops : (f sess).pending = sess.pending) :
    Grows s (Server.modifySession sid f s) [] := by
  have hget : ∀ k, (Server.modifySession sid f s).get? k = if k = sid then some (f sess) else s.get? k := by
    intro k
    rw [Server.get?_modifySession, hs, Option.map_some]
  exact grows_of_get? hs hget hip (hops.trans (List.append_nil _).symm)

/-- What the check of the address starts. -/
def Server.warning (s : Server) (sid : ℕ) (sess : Session) : Starts :=
  if sess.remoteIp ∈ s.connectedIps then
    [(sid, ⟨.writeHandshake (errorResponse "이미 접속 중인 IP입니다."), sess.isOpen⟩)]
  else []

theorem checked_edits (hs : s.get? sid = some sess) :
    Edits env { s with connectedIps := insert sess.remoteIp s.connectedIps } (s.warning sid sess) (s.checked sid sess) := by
  unfold Server.warning Server.checked
  split_ifs with hin
  · rw [Finset.insert_eq_of_mem hin]
    exact (Edits.refl.start hs).edit (.revise (fun x => ⟨rfl, rfl, rfl, fun h => nomatch h⟩) fun _ => ⟨rfl, rfl⟩)
  · exact .refl

theorem Server.isOpen_closed {x : Session} (hx : (s.closed sid).get? sid = some x) : x.isOpen = false := by
  rw [Server.closed, Server.get?_modifySession, if_pos rfl] at hx
  obtain ⟨y, -, rfl⟩ := Option.map_eq_some_iff.1 hx
  rfl

/-- The socket of the second client on an address is closed. -/
theorem checked_closed (hin : sess.remoteIp ∈ s.connectedIps) {x : Session}
    (hx : (s.checked sid sess).get? sid = some x) : x.isOpen = false := by
  rw [Server.checked, if_pos hin] at hx
  exact Server.isOpen_closed hx

/-- A client that is not answered is told of the other one at most. -/
theorem hailed_unanswered {handshake : Json} (hclient : ¬ Session.asksMirror handshake)
    (hanswer : Session.unanswered s.version handshake) : Hailed s sid sess (some handshake) (s.warning sid sess) := by
  unfold Server.warning
  split_ifs with hin
  · exact .answered (by rw [Session.silent, if_neg hclient]; simp [hin]) (by simp [Session.answeredTwice, hanswer]) rfl
  · exact .unanswered (by rw [Session.silent, if_neg hclient]; simp [hin, hanswer])

theorem hailed_answered {handshake : Json} {op : Op} {live : Bool} (hclient : ¬ Session.asksMirror handshake)
    (hanswer : Session.unanswered s.version handshake = false) (hop : op.isAnswer)
    (hlive : sess.remoteIp ∈ s.connectedIps → live = false) :
    Hailed s sid sess (some handshake) (s.warning sid sess ++ [(sid, ⟨op, live⟩)]) := by
  unfold Server.warning
  split_ifs with hin
  · rw [hlive hin]
    exact .warned (by simp [Session.answeredTwice, hclient, hin, hanswer]) rfl hop
  · exact .answered (by rw [Session.silent, if_neg hclient]; simp [hanswer]) (by simp [Session.answeredTwice, hin]) hop

/-- The sessions after the handshake of a mirror. -/
theorem Server.get?_mirrored (hs : s.get? sid = some sess) (port : ℤ) (k : ℕ) :
    (s.mirrored env sid port).get? k = if k = sid then some { sess with
      isMirror := true
      mirrorPort := port
      userId := port
      pending := sess.pending ++ [⟨.writeHandshake (.obj [("status", .str "success"),
        ("message", .str "미러 서버가 연결되었습니다")]), sess.isOpen⟩] } else s.get? k := by
  have hmirrors : ∀ {r : Server} {mirrors : AList fun _ : ℤ => ℕ}, Server.get? { r with mirrors } = r.get? := rfl
  unfold Server.mirrored
  rw [Server.start, Server.get?_modifySession, Server.get?_modifySession, Server.get?_modifySession, hmirrors]
  by_cases hk : k = sid
  · subst hk
    simp only [if_true, Server.get?_modifySession, hs, Option.map_some]
  · simp only [hk, if_false, Server.get?_modifySession]

/-- The session is registered after the check of its address. -/
theorem registered_edits (hs : s.get? sid = some sess) :
    Edits env { s with connectedIps := insert sess.remoteIp s.connectedIps } (s.warning sid sess)
      ((s.checked sid sess).registered env sid sess) := by
  obtain ⟨x, hx, hid⟩ := Server.get?_checked hs
  have huser : x.userId = sess.userId := congrArg Identity.userId hid
  have hsame : (s.checked sid sess).registered env sid sess = (s.checked sid sess).registered env sid x := by
    simp only [Server.registered, huser]
  rw [hsame]
  exact (checked_edits hs).edit (.register hx)

/-- The handshake of a client takes its address, and edits. -/
theorem Greets.edits {handshake : Json} (h : Greets env s sid sess (some handshake) t) (hs : s.get? sid = some sess)
    (hclient : ¬ Session.asksMirror handshake) :
    ∃ l, Edits env { s with connectedIps := insert sess.remoteIp s.connectedIps } l t := by
  have hclosed : ∀ {l : Starts} {r : Server},
      Edits env { s with connectedIps := insert sess.remoteIp s.connectedIps } l r →
      ∃ l, Edits env { s with connectedIps := insert sess.remoteIp s.connectedIps } l (r.closed sid) :=
    fun hedits => ⟨_, hedits.edit (.revise (fun x => ⟨rfl, rfl, rfl, fun h => nomatch h⟩) fun _ => ⟨rfl, rfl⟩)⟩
  cases h with
  | portless hmirror => exact absurd hmirror hclient
  | mirror hmirror => exact absurd hmirror hclient
  | refused => exact hclosed (checked_edits hs)
  | welcomed =>
    obtain ⟨x, hx, -⟩ := Server.get?_checked hs
    exact ⟨_, Edits.start (registered_edits hs) (Server.get?_registered hx)⟩
  | asked _ _ _ _ _ hedits => exact ⟨_, (registered_edits hs).trans hedits⟩
  | unreadable => exact hclosed (registered_edits hs)

/-- **What a first message starts.** -/
theorem Greets.hailed {data : Option Json} (h : Greets env s sid sess data t) (hs : s.get? sid = some sess) :
    ∃ l, Hailed s sid sess data l ∧ Grows s t l := by
  have hgrows : ∀ {l : Starts} {t : Server},
      Edits env { s with connectedIps := insert sess.remoteIp s.connectedIps } l t → Grows s t l :=
    fun hedits => hedits.grows.of_get? rfl
  have hclosed : ∀ {l : Starts} {t : Server},
      Edits env { s with connectedIps := insert sess.remoteIp s.connectedIps } l t → Grows s (t.closed sid) l :=
    fun hedits => hgrows (hedits.edit (.revise (fun x => ⟨rfl, rfl, rfl, fun h => nomatch h⟩) fun _ => ⟨rfl, rfl⟩))
  cases h with
  | malformed => exact ⟨[], .unanswered rfl, grows_modifySession hs rfl rfl⟩
  | portless hmirror hport =>
    refine ⟨[], .unanswered ?_, ?_⟩
    · rw [Session.silent, if_pos hmirror]
      cases hint : (Json.value _ "port").getInt with
      | ok port => exact absurd hint (hport port)
      | error e => rfl
    · rw [Server.closed, Server.modifySession_modifySession]
      exact grows_modifySession hs rfl rfl
  | mirror hmirror hport =>
    refine ⟨_, .answered ?_ ?_ rfl, grows_of_get? hs (Server.get?_mirrored hs _) rfl rfl⟩
    · rw [Session.silent, if_pos hmirror, hport]
      rfl
    · rw [Session.answeredTwice, hmirror]
      rfl
  | refused hclient hversion =>
    exact ⟨_, hailed_unanswered hclient (by simp [Session.unanswered, hversion]), hclosed (checked_edits hs)⟩
  | welcomed hclient hversion haction =>
    obtain ⟨x, hx, -⟩ := Server.get?_checked hs
    have hget := @Server.get?_registered env _ sid sess x hx
    have hshut : sess.remoteIp ∈ s.connectedIps → x.isOpen = false := fun hin => checked_closed hin hx
    refine ⟨_, ?_, hgrows (Edits.start (registered_edits hs) hget)⟩
    exact hailed_answered hclient (by simp [Session.unanswered, hversion, haction]) rfl hshut
  | @asked handshake action x l _ hclient hversion haction hx hzero hedits hasked =>
    have hchain := (registered_edits hs).trans hedits
    have hnone : Server.announces env ((s.checked sid sess).registered env sid sess) x handshake = none :=
      if_neg fun h => h.2 hzero
    unfold Asked at hasked
    split_ifs at hasked with hlogout
    · rw [hasked, List.append_nil] at hchain
      refine ⟨_, hailed_unanswered hclient ?_, hgrows hchain⟩
      simp [Session.unanswered, Json.contains_of_value haction, hlogout]
    · rw [hnone] at hasked
      cases hasked with
      | alone =>
        refine ⟨_, hailed_answered hclient ?_ rfl fun hin => ?_, hgrows hchain⟩
        · have hmisnamed : handshake.misnamed = false := by rw [Json.misnamed, haction]
          simp [Session.unanswered, hversion, hmisnamed, hlogout]
        · obtain ⟨y, hy, -⟩ := Server.get?_checked hs
          have hshut : ∀ z, ((s.checked sid sess).registered env sid sess).get? sid = some z → z.isOpen = false := ?_
          · exact hedits.not_live hshut _ (by rw [Starts.on_cons, if_pos rfl]; exact List.mem_cons_self)
          intro z hz
          have hyclosed : y.isOpen = false := checked_closed hin hy
          rw [Server.get?_registered hy] at hz
          obtain rfl := Option.some.inj hz
          exact hyclosed
  | unreadable hclient hversion haction hstr =>
    refine ⟨_, hailed_unanswered hclient ?_, hclosed (registered_edits hs)⟩
    simp [Session.unanswered, haction, Json.misnamed_iff.2 hstr]

/-- **What the completion of an operation starts.** -/
theorem Completed.begins {op : Op} {result : Session.Completion} (h : Completed env s sid sess op result t)
    (hs : s.get? sid = some sess) : ∃ l, Begins env s sid sess op result l ∧ Grows s t l := by
  cases h with
  | failed => exact ⟨[], .failed, (Edits.refl.ended sess).grows⟩
  | greeted h =>
    obtain ⟨l, hl, hgrows⟩ := h.hailed hs
    exact ⟨l, .greeted hl, hgrows⟩
  | heard h hl => exact ⟨_, .heard hl, h.grows⟩
  | welcomed => exact ⟨_, .answered rfl, (@Edits.start env _ _ _ _ _ _ .refl hs).grows⟩
  | answered => exact ⟨_, .answered rfl, (@Edits.start env _ _ _ _ _ _ .refl hs).grows⟩
  | notified => exact ⟨_, .notified, (@Edits.start env _ _ _ _ _ _ .refl hs).grows⟩
  | broadcast => exact ⟨[], .broadcast, (@Edits.refl env _).grows⟩

theorem Answers.on_ne_nil {m : Option ℕ} (h : Answers sid m l) : l.on sid ≠ [] := by
  cases h with
  | alone => simp
  | notified =>
    rw [Starts.on_cons]
    split_ifs <;> simp

theorem Hailed.on_eq_nil {data : Option Json} (h : Hailed s sid sess data l) :
    l.on sid = [] ↔ Session.silent s sess data := by
  cases h with
  | unanswered h => simp [h]
  | answered h => simp [h]
  | warned h =>
    cases data with
    | none => cases h
    | some handshake =>
      simp only [Session.answeredTwice, Bool.and_eq_true, Bool.not_eq_true'] at h
      simp [Session.silent, h.1.1, h.2]

/-- Whether the handler starts an operation on its session is known before it runs. -/
theorem Begins.on_eq_nil {op : Op} {result : Session.Completion} (h : Begins env s sid sess op result l) :
    l.on sid = [] ↔ Session.silences s sess op result := by
  cases h with
  | failed => cases op <;> simp [Session.silences]
  | greeted h => exact h.on_eq_nil
  | @heard data _ h =>
    cases data with
    | none => exact iff_of_false (Answers.on_ne_nil h) Bool.false_ne_true
    | some request =>
      change Asked env s sid sess request l at h
      unfold Asked at h
      split_ifs at h with hlogout
      · exact iff_of_true (by rw [h, Starts.on_nil]) hlogout
      · exact iff_of_false h.on_ne_nil hlogout
  | answered hop => cases op <;> simp_all [Session.silences, Op.isAnswer]
  | notified => simp [Session.silences]
  | broadcast => simp [Session.silences]

/-! ### The end of a session -/

/-- The session that an event destroys: its last operation completes, and the
handler starts nothing on it. -/
def Server.dismisses (s : Server) : Event → Option ℕ
  | .complete sid i result =>
    (s.completing sid i result).bind fun found =>
      if found.1.pending.eraseIdx i = [] ∧ Session.silences s found.1 found.2.op result then some sid else none
  | _ => none

theorem silences_take (i : ℕ) (ops : List PendingOp) (op : Op) (result : Session.Completion) :
    Session.silences (s.take sid i) { sess with pending := ops } op result = Session.silences s sess op result := by
  have hips : (s.take sid i).connectedIps = s.connectedIps := Server.modifySession_connectedIps ..
  have hversion : (s.take sid i).version = s.version := Server.modifySession_version ..
  have hsilent : ∀ data, Session.silent (s.take sid i) { sess with pending := ops } data = Session.silent s sess data := by
    intro data
    cases data with
    | none => rfl
    | some handshake => simp only [Session.silent, hips, hversion]
  cases op with
  | readHandshake =>
    cases result with
    | error => rfl
    | ok data => exact hsilent data
  | readMessage =>
    cases result with
    | error => rfl
    | ok data => cases data <;> rfl
  | writeHandshake => cases result <;> rfl
  | writeResponse => cases result <;> rfl
  | writeBroadcast => cases result <;> rfl
  | writeMirror => cases result <;> rfl

/-- **Which events destroy a session is known before they happen.** -/
theorem Completed.reap {i : ℕ} {p : PendingOp} {result : Session.Completion} (hs : s.get? sid = some sess)
    (hp : sess.pending[i]? = some p) (hcan : Server.canComplete p result)
    (h : Completed env (s.take sid i) sid { sess with pending := sess.pending.eraseIdx i } p.op result t) :
    ∃ y, t.get? sid = some y ∧ y.remoteIp = sess.remoteIp ∧
      (s.dismisses (.complete sid i result) = some sid ∧ t.reap sid = Session.destroy sid y t ∨
        s.dismisses (.complete sid i result) = none ∧ t.reap sid = t) := by
  have hget := Server.get?_take hs i
  obtain ⟨l, hl, hgrows⟩ := h.begins hget
  have hthere : (t.get? sid).isSome := by
    rw [hgrows.there, hget]
    rfl
  obtain ⟨y, hy⟩ := Option.isSome_iff_exists.1 hthere
  obtain ⟨x, hx, hip, hpending⟩ := hgrows.session sid y hy
  obtain rfl := Option.some.inj (hx.symm.trans hget)
  have hidle : y.pending = [] ↔ sess.pending.eraseIdx i = [] ∧ Session.silences s sess p.op result := by
    rw [hpending, List.append_eq_nil_iff, hl.on_eq_nil, silences_take]
  have hdismisses : s.dismisses (.complete sid i result) = if y.pending = [] then some sid else none := by
    simp only [Server.dismisses, Server.completing_eq_some.2 ⟨hs, hp, hcan⟩, Option.bind_some, hidle]
  refine ⟨y, hy, hip, ?_⟩
  rw [hdismisses]
  by_cases hempty : y.pending = []
  · left
    simp only [Server.reap, hy, hempty, List.isEmpty_nil, if_true, and_self]
  · right
    simp only [Server.reap, hy, List.isEmpty_iff, hempty, if_false, and_self]

end Growth

end Matching
end SocketCommunication
