/-
# What a request edits and starts

`Edit` is one change that a request, the end of a session or a timer makes to
sessions and registries, `Edits` a chain of them together with the operations
started on the way, in their order.  Where `Move` records who does what, `Edit` records what
becomes of the registries and of the sockets.

A request starts its answer and nothing else on its own session, after the message
to a mirror when it announces a room; `logout` starts nothing
(`processRequest_edits`).
-/

import SocketCommunication.Matching.Credentials
import SocketCommunication.Matching.RoomCreation

namespace SocketCommunication
namespace Matching

open Effect

/-- What the life of a session does not change; a socket that was closed stays closed. -/
structure Kin (x y : Session) : Prop where
  isMirror : y.isMirror = x.isMirror
  mirrorPort : y.mirrorPort = x.mirrorPort
  remoteIp : y.remoteIp = x.remoteIp
  isOpen : y.isOpen → x.isOpen

theorem Kin.refl (x : Session) : Kin x x := ⟨rfl, rfl, rfl, id⟩

theorem Kin.trans {x y z : Session} (h : Kin x y) (h' : Kin y z) : Kin x z :=
  ⟨h'.isMirror.trans h.isMirror, h'.mirrorPort.trans h.mirrorPort, h'.remoteIp.trans h.remoteIp,
    fun hz => h.isOpen (h'.isOpen hz)⟩

namespace Server

/-- The server after `registerSession` and the token it returned. -/
def registered (env : Env) (sid : ℕ) (sess : Session) (s : Server) : Server :=
  modifySession sid (fun x => { x with token := env.uuid s.uuids })
    { s with
      sessions := (dropEntry env s.sessions sid).insert (env.uuid s.uuids) sid
      uuids := s.uuids + 1
      tokens := if sess.userId ≠ 0 then s.tokens.insert sess.userId (env.uuid s.uuids) else s.tokens }

end Server

open Server in
/-- One change to sessions and registries that starts nothing. -/
inductive Edit (env : Env) (s : Server) : Server → Prop
  | database {world : World} {trace : List Act} : Edit env s { s with world, trace }
  | revise {sid : ℕ} {f : Session → Session} (hkin : ∀ x, Kin x (f x))
      (hsame : ∀ x, (f x).token = x.token ∧ (f x).pending = x.pending) : Edit env s (modifySession sid f s)
  /-- An entry of a mirror that is gone is erased when it is looked up. -/
  | forget {port : ℤ} {mirror : ℕ} (hmirror : s.mirrors.lookup port = some mirror)
      (hgone : s.get? mirror = none) : Edit env s { s with mirrors := s.mirrors.erase port }
  /-- A token is removed when its session has been silent for too long. -/
  | expire {token : String} : Edit env s { s with sessions := s.sessions.erase token }
  | register {sid : ℕ} {sess : Session} (hs : s.get? sid = some sess) : Edit env s (s.registered env sid sess)

/-- The operations that are started, each with its session. -/
abbrev Starts := List (ℕ × PendingOp)

/-- Those on one session. -/
def Starts.on (l : Starts) (sid : ℕ) : List PendingOp := (l.filter fun p => p.1 = sid).map (·.2)

/-- A chain of changes that starts operations. -/
inductive Edits (env : Env) (s : Server) : Starts → Server → Prop
  | refl : Edits env s [] s
  | edit {l : Starts} {t r : Server} (h : Edits env s l t) (hedit : Edit env t r) : Edits env s l r
  | start {l : Starts} {t : Server} {sid : ℕ} {op : Op} {x : Session} (h : Edits env s l t)
      (ht : t.get? sid = some x) : Edits env s (l ++ [(sid, ⟨op, x.isOpen⟩)]) (Server.start sid op t)

section Chains

variable {env : Env} {s t r : Server} {l l' : Starts}

theorem Starts.on_append (l l' : Starts) (sid : ℕ) : (l ++ l').on sid = l.on sid ++ l'.on sid := by
  simp [Starts.on]

theorem Edits.trans (h : Edits env s l t) (h' : Edits env t l' r) : Edits env s (l ++ l') r := by
  induction h' with
  | refl => rwa [List.append_nil]
  | edit _ hedit ih => exact ih.edit hedit
  | start _ ht ih =>
    rw [← List.append_assoc]
    exact ih.start ht

/-- What a chain of changes makes of one session. -/
structure Grown (x y : Session) (ops : List PendingOp) : Prop where
  kin : Kin x y
  pending : y.pending = x.pending ++ ops

theorem Edit.get? (h : Edit env s t) {sid : ℕ} {y : Session} (hy : t.get? sid = some y) :
    ∃ x, s.get? sid = some x ∧ Grown x y [] := by
  have hsame : ∀ {x}, s.get? sid = some x → x = y → ∃ x, s.get? sid = some x ∧ Grown x y [] :=
    fun hx he => ⟨_, hx, he ▸ .refl _, by rw [he, List.append_nil]⟩
  have hrevise : ∀ {sid' : ℕ} {f : Session → Session} {s' : Server}, s'.get? = s.get? →
      (∀ x, Kin x (f x)) → (∀ x, (f x).pending = x.pending) →
      (Server.modifySession sid' f s').get? sid = some y → ∃ x, s.get? sid = some x ∧ Grown x y [] := by
    intro sid' f s' hget hkin hpending hy
    rw [Server.get?_modifySession, hget] at hy
    split_ifs at hy with hsid
    · obtain ⟨x, hx, rfl⟩ := Option.map_eq_some_iff.1 hy
      exact ⟨x, hsid ▸ hx, hkin x, by rw [hpending, List.append_nil]⟩
    · exact hsame hy rfl
  cases h with
  | database => exact hsame hy rfl
  | forget => exact hsame hy rfl
  | expire => exact hsame hy rfl
  | revise hkin hsame' => exact hrevise rfl hkin (fun x => (hsame' x).2) hy
  | register =>
    refine @hrevise _ (fun x => { x with token := env.uuid s.uuids }) _ ?_ (fun _ => ⟨rfl, rfl, rfl, id⟩)
      (fun _ => rfl) hy
    rfl

theorem Edit.isSome (h : Edit env s t) (sid : ℕ) : (t.get? sid).isSome = (s.get? sid).isSome := by
  cases h with
  | database => rfl
  | forget => rfl
  | expire => rfl
  | revise => exact Server.isSome_modifySession
  | register => exact Server.isSome_modifySession

theorem Edits.isSome (h : Edits env s l t) (sid : ℕ) : (t.get? sid).isSome = (s.get? sid).isSome := by
  induction h with
  | refl => rfl
  | edit _ hedit ih => rw [hedit.isSome, ih]
  | start _ _ ih => rw [Server.start, Server.isSome_modifySession, ih]

/-- **What a chain of changes makes of one session.** -/
theorem Edits.get? (h : Edits env s l t) {sid : ℕ} {y : Session} (hy : t.get? sid = some y) :
    ∃ x, s.get? sid = some x ∧ Grown x y (l.on sid) := by
  induction h generalizing y with
  | refl => exact ⟨y, hy, .refl y, (List.append_nil _).symm⟩
  | edit _ hedit ih =>
    obtain ⟨x, hx, hkin, hpending⟩ := hedit.get? hy
    obtain ⟨w, hw, hkin', hpending'⟩ := ih hx
    exact ⟨w, hw, hkin'.trans hkin, by rw [hpending, List.append_nil, hpending']⟩
  | @start l t k op z _ ht ih =>
    rw [Server.start, Server.get?_modifySession] at hy
    rw [Starts.on_append]
    split_ifs at hy with hk
    · obtain ⟨x, hx, rfl⟩ := Option.map_eq_some_iff.1 hy
      obtain rfl := Option.some.inj (hx.symm.trans ht)
      obtain ⟨w, hw, hkin, hpending⟩ := ih (hk ▸ hx)
      refine ⟨w, hw, ⟨hkin.isMirror, hkin.mirrorPort, hkin.remoteIp, hkin.isOpen⟩, ?_⟩
      simp only [hpending, List.append_assoc, Starts.on, hk, decide_true, List.filter_cons_of_pos, List.filter_nil,
        List.map_cons, List.map_nil]
    · obtain ⟨w, hw, hgrown⟩ := ih hy
      refine ⟨w, hw, hgrown.kin, ?_⟩
      rw [hgrown.pending, show Starts.on [(k, (⟨op, z.isOpen⟩ : PendingOp))] sid = [] by simp [Starts.on, Ne.symm hk],
        List.append_nil]

/-- What is started on a closed socket is not live. -/
theorem Edits.not_live (h : Edits env s l t) {sid : ℕ} (hs : ∀ x, s.get? sid = some x → x.isOpen = false) :
    ∀ p ∈ l.on sid, p.live = false := by
  induction h with
  | refl => exact fun _ hp => nomatch hp
  | edit _ _ ih => exact ih
  | @start l t k op z h ht ih =>
    intro p hp
    rw [Starts.on_append, List.mem_append] at hp
    refine hp.elim (ih p) fun hp => ?_
    simp only [Starts.on, List.mem_map, List.mem_filter, List.mem_singleton, decide_eq_true_eq] at hp
    obtain ⟨q, ⟨rfl, rfl⟩, rfl⟩ := hp
    obtain ⟨w, hw, hgrown⟩ := h.get? ht
    by_contra hlive
    have hopen := hgrown.kin.isOpen (Bool.eq_true_of_not_eq_false hlive)
    rw [hs w hw] at hopen
    cases hopen

end Chains

/-! ### Handlers -/

namespace Server

/-- The mirror that is told of a room that the controller has answered with. -/
def told (s : Server) (response : Json) : Option ℕ :=
  match (response.value "port").getInt, (response.value "roomId").getInt with
  | .ok port, .ok _ => s.mirrorOf port
  | _, _ => none

/-- The mirror that is told of the room that a request is granted. -/
def announces (env : Env) (s : Server) (sess : Session) (request : Json) : Option ℕ :=
  if (request.value "action").eqString "createRoom" ∧ sess.userId ≠ 0 then
    match Controller.room env (sess.withUser request) s.world with
    | .ok response _ => if response.succeeds then s.told response else none
    | .error _ _ => none
  else none

end Server

/-- A request starts its answer, after the message to a mirror. -/
inductive Answers (sid : ℕ) : Option ℕ → Starts → Prop
  | alone {response : Json} {live : Bool} : Answers sid none [(sid, ⟨.writeResponse response, live⟩)]
  | notified {mirror : ℕ} {message response : Json} {live live' : Bool} : Answers sid (some mirror)
      [(mirror, ⟨.writeMirror message, live⟩), (sid, ⟨.writeResponse response, live'⟩)]

section Handlers

variable {env : Env} {s t : Server} {sid : ℕ} {sess : Session} {l : Starts}

theorem writeResponse_edits (h : Edits env s l t) (ht : (t.get? sid).isSome) (response : Json) :
    wp (Session.writeResponse sid response)
      (fun _ r => ∃ live, Edits env s (l ++ [(sid, ⟨.writeResponse response, live⟩)]) r) (fun _ _ => False) t := by
  obtain ⟨x, hx⟩ := Option.isSome_iff_exists.1 ht
  exact ⟨x.isOpen, h.start hx⟩

/-- A response alone is written. -/
theorem answers_of_written {response : Json}
    (h : ∃ live, Edits env s ([] ++ [(sid, ⟨.writeResponse response, live⟩)]) t) :
    ∃ l, Edits env s l t ∧ Answers sid none l := by
  obtain ⟨live, h⟩ := h
  exact ⟨_, h, .alone⟩

theorem answer_edits (h : Edits env s l t) (ht : (t.get? sid).isSome) (action : String) (response : Json) :
    wp (Session.answer sid action response)
      (fun _ r => ∃ live, Edits env s (l ++ [(sid, ⟨.writeResponse response, live⟩)]) r) (fun _ _ => False) t := by
  simp only [Session.answer, wp_bind, wp_modify]
  exact writeResponse_edits (h.edit (@Edit.database env t t.world (.answered sid action response :: t.trace))) ht response

theorem Edits.ended (h : Edits env s l t) (sess : Session) : Edits env s l (t.ended env sid sess) := by
  refine Edits.edit ?_ (.revise (fun x => ⟨rfl, rfl, rfl, fun h => nomatch h⟩) fun _ => ⟨rfl, rfl⟩)
  split_ifs
  · exact h.edit .database
  · exact h

theorem getMirrorSession_edits (port : ℤ) :
    wp (Server.getMirrorSession port) (fun r t => r = s.mirrorOf port ∧ Edits env s [] t ∧
      ∀ mirror, r = some mirror → (t.get? mirror).isSome) (fun _ _ => False) s := by
  simp only [Server.getMirrorSession, wp_bind, wp_get, Server.mirrorOf]
  cases hmirror : s.mirrors.lookup port with
  | none => exact ⟨rfl, .refl, fun _ h => nomatch h⟩
  | some mirror =>
    refine (wp_ite _ _ _).2 ⟨fun h => ⟨?_, .refl, ?_⟩, fun h => ⟨?_, .edit .refl (.forget hmirror ?_), fun _ h => nomatch h⟩⟩
    · rw [Option.filter_some, if_pos h]
    · rintro _ ⟨⟩
      exact h
    · rw [Option.filter_some, if_neg h]
    · exact Option.not_isSome_iff_eq_none.1 h

/-- What is started for the mirror of a new room. -/
inductive Notified (sid : ℕ) : Bool → Option ℕ → Starts → Prop
  | missing {response : Json} {live : Bool} : Notified sid false none [(sid, ⟨.writeResponse response, live⟩)]
  | failed : Notified sid true none []
  | told {mirror : ℕ} {message : Json} {live : Bool} :
      Notified sid true (some mirror) [(mirror, ⟨.writeMirror message, live⟩)]

theorem notifyMirror_edits (hs : (s.get? sid).isSome) (response : Json) :
    wp (Session.notifyMirror sid response)
      (fun notified t => ∃ l, Edits env s l t ∧ Notified sid notified (s.told response) l) (fun _ _ => False) s := by
  simp only [Session.notifyMirror, wp_tryCatch, wp_bind, wp_orThrow, wp_pure]
  refine ⟨fun port hport => ?_, fun e he => ⟨[], .refl, ?_⟩⟩
  · refine wp_mono (fun r t ht => ?_) (fun _ _ h => h.elim) (@getMirrorSession_edits env s port)
    obtain ⟨rfl, ht, hthere⟩ := ht
    have hsid : (t.get? sid).isSome := by rw [ht.isSome, hs]
    cases hmirror : s.mirrorOf port with
    | none =>
      have htold : s.told response = none := by
        rw [Server.told, hport]
        cases (response.value "roomId").getInt with
        | error e => rfl
        | ok roomId => exact hmirror
      simp only [wp_bind, wp_pure, htold]
      refine wp_mono (fun _ r hr => ?_) (fun _ _ h => h.elim) (writeResponse_edits ht hsid _)
      obtain ⟨live, hr⟩ := hr
      exact ⟨_, hr, .missing⟩
    | some mirror =>
      simp only [wp_bind, wp_pure, wp_modify, wp_orThrow]
      refine ⟨fun roomId hroom => ?_, fun e he => ⟨[], ht, ?_⟩⟩
      · have hrevised : Edits env s [] (Server.modifySession sid
            (fun sess => { sess with status := toString roomId ++ "번 방" }) t) :=
          ht.edit (.revise (fun _ => ⟨rfl, rfl, rfl, id⟩) fun _ => ⟨rfl, rfl⟩)
        obtain ⟨x, hx⟩ := Option.isSome_iff_exists.1 (Server.isSome_modifySession.trans (hthere mirror hmirror))
        have htold : s.told response = some mirror := by rw [Server.told, hport, hroom]; exact hmirror
        rw [htold]
        exact ⟨_, hrevised.start hx, .told⟩
      · rw [Server.told, hport, he]
        exact .failed
  · rw [Server.told, he]
    exact .failed

/-- Changes that start nothing. -/
instance (env : Env) : IsPreorder Server fun s t => Edits env s [] t where
  refl _ := .refl
  trans _ _ _ h h' := h.trans h'

theorem initCurrentUser_edits (response : Json) :
    Keeps (fun s t => Edits env s [] t) (Session.initCurrentUser sid response) := by
  have hrevise : ∀ {f : Session → Session}, (∀ x, Kin x (f x)) →
      (∀ x, (f x).token = x.token ∧ (f x).pending = x.pending) →
      Keeps (fun s t => Edits env s [] t) (modify (Server.modifySession sid f) : ServerM Unit) :=
    fun hkin hsame => keeps_modify fun s => .edit .refl (.revise hkin hsame)
  have hkin : ∀ x : Session, x.isOpen → x.isOpen := fun _ => id
  refine keeps_bind (Session.keeps_member sid _ fun _ _ => ?_) fun _ => keeps_bind (Session.keeps_member sid _ fun _ _ => ?_)
    fun _ => keeps_bind (Session.keeps_member sid _ fun _ _ => ?_) fun _ => ?_
  all_goals exact hrevise (fun x => ⟨rfl, rfl, rfl, hkin x⟩) fun _ => ⟨rfl, rfl⟩

/-- `registerSession`, and the session with its token. -/
theorem wp_register {α : Type} {c : String → ServerM α} {Q : α → Server → Prop} {E : Exn → Server → Prop}
    (hs : s.get? sid = some sess) :
    wp (do
      let token ← Server.registerSession env sid
      modify (Server.modifySession sid fun sess => { sess with token })
      c token) Q E s ↔ wp (c (env.uuid s.uuids)) Q E (s.registered env sid sess) := by
  simp only [Server.registerSession, wp_bind, wp_get, wp_this hs, wp_set, wp_pure, wp_modify]
  rfl

theorem login_edits {action : String} {response : Json} (hs : s.get? sid = some sess) :
    wp (Session.login env sid action response)
      (fun _ t => ∃ l, Edits env s l t ∧ Answers sid none l) (fun _ t => Edits env s [] t) s := by
  have hsid : (s.get? sid).isSome := Option.isSome_of_mem hs
  simp only [Session.login, Server.checkAlreadyLogin, wp_bind, wp_orThrow, wp_get, wp_pure]
  refine ⟨fun u _ => (wp_ite _ _ _).2 ⟨fun _ => ?_, fun _ => ?_⟩, fun _ _ => .refl⟩
  · exact wp_mono (fun _ _ => answers_of_written) (fun _ _ h => h.elim) (writeResponse_edits .refl hsid _)
  · rw [wp_bind]
    refine wp_mono (fun _ t ht => ?_) (fun _ _ h => h) (initCurrentUser_edits response s)
    obtain ⟨x, hx⟩ := Option.isSome_iff_exists.1 ((ht.isSome sid).trans hsid)
    rw [wp_register hx]
    have hregister : Edits env s [] (t.registered env sid x) := ht.edit (.register hx)
    refine wp_mono (fun _ _ => answers_of_written) (fun _ _ h => h.elim) (answer_edits hregister ?_ action _)
    rw [hregister.isSome, hsid]

/-- What is done with the answer of a controller. -/
theorem respond_edits {action : String} {response : Json} (hs : s.get? sid = some sess)
    (hgame : action = "gameStart" ∨ action = "gameEnd" → response.succeeds = false) :
    wp (Session.respond env sid action response)
      (fun _ t => ∃ l, Edits env s l t ∧
        Answers sid (if action = "createRoom" ∧ response.succeeds then s.told response else none) l)
      (fun _ t => Edits env s [] t ∧ action ≠ "createRoom") s := by
  have hsid : (s.get? sid).isSome := Option.isSome_of_mem hs
  -- an answer after changes that started nothing
  have hanswer : ∀ {t m}, Edits env s [] t → m = none →
      wp (Session.answer sid action response) (fun _ r => ∃ l, Edits env s l r ∧ Answers sid m l)
        (fun _ r => Edits env s [] r ∧ action ≠ "createRoom") t := by
    rintro t m ht rfl
    refine wp_mono (fun _ _ => answers_of_written) (fun _ _ h => h.elim) (answer_edits ht ?_ action response)
    rw [ht.isSome, hsid]
  have hrevise : ∀ {f : Session → Session} {t}, (∀ x, Kin x (f x)) →
      (∀ x, (f x).token = x.token ∧ (f x).pending = x.pending) → Edits env s [] t →
      Edits env s [] (Server.modifySession sid f t) := fun hkin hf h => h.edit (.revise hkin hf)
  refine (wp_ite _ _ _).2 ⟨fun h => ?_, fun _ => (wp_ite _ _ _).2 ⟨fun h => ?_, fun hnot => ?_⟩⟩
  · have hcreate : action ≠ "createRoom" := by rcases h.1 with rfl | rfl <;> decide
    rw [if_neg fun h' => hcreate h'.1]
    exact wp_mono (fun _ _ h => h) (fun _ _ h => ⟨h, hcreate⟩) (login_edits hs)
  · rw [if_pos h, wp_bind]
    refine wp_mono (fun notified t ht => ?_) (fun _ _ h => h.elim) (@notifyMirror_edits env s sid hsid response)
    obtain ⟨l, ht, hnotified⟩ := ht
    have hthere : (t.get? sid).isSome := by rw [ht.isSome, hsid]
    generalize s.told response = mirror at hnotified ⊢
    cases hnotified with
    | missing => exact (wp_onlyIf _ _).2 ⟨fun h => absurd h Bool.false_ne_true, fun _ => ⟨_, ht, .alone⟩⟩
    | failed =>
      refine (wp_onlyIf _ _).2 ⟨fun _ => hanswer ht rfl, fun h => absurd rfl h⟩
    | told =>
      refine (wp_onlyIf _ _).2 ⟨fun _ => ?_, fun h => absurd rfl h⟩
      refine wp_mono (fun _ r hr => ?_) (fun _ _ h => h.elim) (answer_edits ht hthere action response)
      obtain ⟨live, hr⟩ := hr
      exact ⟨_, hr, .notified⟩
  · rw [if_neg hnot]
    refine (wp_ite _ _ _).2 ⟨fun h => ?_, fun _ => (wp_ite _ _ _).2 ⟨fun _ => ?_, fun _ =>
      (wp_ite _ _ _).2 ⟨fun h => ?_, fun _ => (wp_ite _ _ _).2 ⟨fun h => ?_, fun _ =>
        (wp_ite _ _ _).2 ⟨fun h => ?_, fun _ => hanswer .refl rfl⟩⟩⟩⟩⟩
    · simp only [wp_bind, wp_orThrow, wp_modify]
      refine ⟨fun _ _ => hanswer (hrevise (fun _ => ⟨rfl, rfl, rfl, id⟩) (fun _ => ⟨rfl, rfl⟩) .refl) rfl,
        fun _ _ => ⟨.refl, ?_⟩⟩
      rw [h.1]
      decide
    · simp only [wp_bind, wp_modify]
      exact hanswer (hrevise (fun _ => ⟨rfl, rfl, rfl, id⟩) (fun _ => ⟨rfl, rfl⟩) .refl) rfl
    · rw [hgame (.inl h.1)] at h
      exact absurd h.2 Bool.false_ne_true
    · rw [hgame (.inr h.1)] at h
      exact absurd h.2 Bool.false_ne_true
    · simp only [wp_bind, wp_orThrow, wp_modify]
      refine ⟨fun _ _ => hanswer (hrevise (fun _ => ⟨rfl, rfl, rfl, id⟩) (fun _ => ⟨rfl, rfl⟩) .refl) rfl,
        fun _ _ => ⟨.refl, ?_⟩⟩
      rw [h.1]
      decide

/-- A call and what is done with its answer. -/
theorem call_edits {type : ControllerType} {action : String} {request : Json} {m : Option ℕ}
    (hs : s.get? sid = some sess)
    (hgame : ∀ response w, Controller.handleRequest env type request s.world = .ok response w →
      action = "gameStart" ∨ action = "gameEnd" → response.succeeds = false)
    (hm : ∀ response w, Controller.handleRequest env type request s.world = .ok response w →
      m = if action = "createRoom" ∧ response.succeeds then s.told response else none)
    (herror : ∀ e w, Controller.handleRequest env type request s.world = .error e w → m = none) :
    wp (Server.call env sid type request)
      (fun response t => wp (Session.respond env sid action response)
        (fun _ r => ∃ l, Edits env s l r ∧ Answers sid m l) (fun _ r => Edits env s [] r ∧ m = none) t)
      (fun _ r => Edits env s [] r ∧ m = none) s := by
  have hcalled : Edits env s [] (s.called env sid type request) := .edit .refl .database
  refine wp_call (fun response w hrun => ?_) fun e w hrun => ⟨hcalled, herror e w hrun⟩
  have hspec := @respond_edits env (s.called env sid type request) sid sess action response hs (hgame response w hrun)
  refine wp_mono (fun _ r ⟨l, hr, hl⟩ => ⟨l, hcalled.trans hr, ?_⟩) (fun _ r ⟨hr, hne⟩ => ⟨hcalled.trans hr, ?_⟩) hspec
  · rw [hm response w hrun]
    exact hl
  · rw [hm response w hrun, if_neg fun h => hne h.1]

/-- What a request starts: nothing when it logs out, its answer otherwise. -/
def Asked (env : Env) (s : Server) (sid : ℕ) (sess : Session) (request : Json) (l : Starts) : Prop :=
  if (request.value "action").eqString "logout" then l = [] else Answers sid (s.announces env sess request) l

theorem Server.announces_eq_none {action : String} {request : Json} (haction : request.value "action" = .str action)
    (h : action ≠ "createRoom") : s.announces env sess request = none := by
  refine if_neg fun hcreate => h ?_
  have hstr := hcreate.1
  rw [haction] at hstr
  simpa [Json.eqString] using hstr

theorem Server.announces_createRoom {request : Json} (haction : request.value "action" = .str "createRoom")
    (hne : sess.userId ≠ 0) : s.announces env sess request =
      match Controller.room env (sess.identity.sign request) s.world with
      | .ok response _ => if response.succeeds then s.told response else none
      | .error _ _ => none := by
  have hstr : (request.value "action").eqString "createRoom" := by rw [haction]; rfl
  have hsign : sess.withUser request = sess.identity.sign request := (if_pos hne).symm
  rw [← hsign]
  exact if_pos ⟨hstr, hne⟩

theorem dispatch_edits {action : String} {request : Json} (hs : s.get? sid = some sess)
    (haction : request.value "action" = .str action) :
    wp (Session.dispatch env sid action request)
      (fun _ t => ∃ l, Edits env s l t ∧ Asked env s sid sess request l)
      (fun _ t => Edits env s [] t ∧ action ≠ "logout" ∧ s.announces env sess request = none) s := by
  have hsid : (s.get? sid).isSome := Option.isSome_of_mem hs
  have hlogout : (request.value "action").eqString "logout" ↔ action = "logout" := by simp [haction, Json.eqString]
  have hasked : ∀ {l}, action ≠ "logout" → Answers sid (s.announces env sess request) l → Asked env s sid sess request l := by
    intro l hne hl
    rwa [Asked, if_neg (mt hlogout.1 hne)]
  have hwrite : ∀ {t : Server} (j : Json), Edits env s [] t → action ≠ "logout" → s.announces env sess request = none →
      wp (Session.writeResponse sid j) (fun _ t => ∃ l, Edits env s l t ∧ Asked env s sid sess request l)
        (fun _ t => Edits env s [] t ∧ action ≠ "logout" ∧ s.announces env sess request = none) t := by
    intro t j ht hne hnone
    refine wp_mono (fun _ r hr => ?_) (fun _ _ h => h.elim) (writeResponse_edits ht ((ht.isSome sid).trans hsid) j)
    obtain ⟨l, hr, hl⟩ := answers_of_written hr
    exact ⟨l, hr, hasked hne (hnone ▸ hl)⟩
  -- a call of an action that announces no room
  have hcall : ∀ (type : ControllerType) (request' : Json), action ≠ "logout" → action ≠ "createRoom" →
      (∀ response w, Controller.handleRequest env type request' s.world = .ok response w →
        action = "gameStart" ∨ action = "gameEnd" → response.succeeds = false) →
      wp (do
        let response ← Server.call env sid type request'
        Session.respond env sid action response)
        (fun _ t => ∃ l, Edits env s l t ∧ Asked env s sid sess request l)
        (fun _ t => Edits env s [] t ∧ action ≠ "logout" ∧ s.announces env sess request = none) s := by
    intro type request' hne hcreate hgame
    have hnone : s.announces env sess request = none := Server.announces_eq_none haction hcreate
    rw [wp_bind]
    refine wp_mono (fun _ t ht => wp_mono (fun _ r hr => ?_) (fun _ r hr => ⟨hr.1, hne, hnone⟩) ht)
      (fun _ r hr => ⟨hr.1, hne, hnone⟩)
      (@call_edits env s sid sess type action request' none hs hgame (fun _ _ _ => ?_) fun _ _ _ => rfl)
    · obtain ⟨l, hr, hl⟩ := hr
      exact ⟨l, hr, hasked hne (hnone ▸ hl)⟩
    · rw [if_neg fun h => hcreate h.1]
  refine wp_dispatch hs (fun hauth => ?_) (fun _ hroom hne => ?_) (fun _ _ hgame _ => ?_) (fun hping => ?_)
    (fun hout => ?_) fun hne hzero j => hwrite j .refl hne (if_neg fun h => ?_)
  · have hother : action ≠ "logout" ∧ action ≠ "createRoom" ∧ ¬ (action = "gameStart" ∨ action = "gameEnd") := by
      rcases hauth with rfl | rfl | rfl | rfl <;> decide
    exact hcall .auth _ hother.1 hother.2.1 fun _ _ _ h => absurd h hother.2.2
  · have hother : action ≠ "logout" ∧ ¬ (action = "gameStart" ∨ action = "gameEnd") := by
      rcases hroom with rfl | rfl | rfl | rfl <;> decide
    by_cases hcreate : action = "createRoom"
    · subst hcreate
      have hann := @Server.announces_createRoom env s sess request haction hne
      rw [wp_bind]
      refine wp_mono (fun _ t ht => wp_mono (fun _ r hr => hr.imp fun l hl => ⟨hl.1, hasked hother.1 hl.2⟩)
        (fun _ r hr => ⟨hr.1, hother.1, hr.2⟩) ht) (fun _ r hr => ⟨hr.1, hother.1, hr.2⟩)
        (call_edits hs (fun _ _ _ h => absurd h hother.2) (fun response w hrun => ?_) fun e w hrun => ?_)
      · rw [hann, show Controller.room env (sess.identity.sign request) s.world = .ok response w from hrun]
        simp
      · rw [hann, show Controller.room env (sess.identity.sign request) s.world = .error e w from hrun]
    · exact hcall .room _ hother.1 hcreate fun _ _ _ h => absurd h hother.2
  · have hother : action ≠ "logout" ∧ action ≠ "createRoom" := by rcases hgame with rfl | rfl <;> decide
    refine hcall .game _ hother.1 hother.2 fun response w hrun _ => ?_
    have hrefused := wp_ok (Controller.game_refuses s.world _) hrun
    exact hrefused
  · have hother : action ≠ "logout" ∧ action ≠ "createRoom" := by rw [hping]; decide
    have hpinged : Edits env s [] (Server.modifySession sid (fun x => { x with lastActivity := s.clock }) s) :=
      .edit .refl (.revise (fun _ => ⟨rfl, rfl, rfl, id⟩) fun _ => ⟨rfl, rfl⟩)
    simp only [Session.handlePing, wp_bind, wp_modify]
    rw [wp_this (Server.get?_modifySession_self hs)]
    exact hwrite _ hpinged hother.1 (Server.announces_eq_none haction hother.2)
  · refine wp_handleError hs ⟨[], Edits.refl.ended sess, ?_⟩
    rw [Asked, if_pos (hlogout.2 hout)]
  · have hcreate := h.1
    rw [haction] at hcreate
    exact h.2 (hzero (by simpa [Json.eqString] using hcreate))

/-- A member that is no string is none of the actions. -/
theorem eqString_of_misnamed {request : Json} (h : ∀ action, request.value "action" ≠ .str action) (a : String) :
    (request.value "action").eqString a = false :=
  Bool.eq_false_iff.2 fun he => h a (Json.eq_of_eqString he)

/-- A request without an action is answered. -/
theorem asked_of_misnamed {request : Json} (h : ∀ action, request.value "action" ≠ .str action)
    (hl : Answers sid none l) : Asked env s sid sess request l := by
  have hnone : s.announces env sess request = none :=
    if_neg fun hc => absurd hc.1 (Bool.eq_false_iff.1 (eqString_of_misnamed h _))
  rw [Asked, if_neg (Bool.eq_false_iff.1 (eqString_of_misnamed h _)), hnone]
  exact hl

/-- **What a request starts.**  An exception leaves only where there is an action
that is not a string, and then nothing has happened. -/
theorem processRequest_edits {request : Json} (hs : s.get? sid = some sess) :
    wp (Session.processRequest env sid request)
      (fun _ t => ∃ l, Edits env s l t ∧ Asked env s sid sess request l)
      (fun _ t => t = s ∧ ∀ action, request.value "action" ≠ .str action) s := by
  have hsid : (s.get? sid).isSome := Option.isSome_of_mem hs
  have hwrite : ∀ {t : Server} (j : Json), Edits env s [] t →
      (∀ l, Answers sid none l → Asked env s sid sess request l) →
      wp (Session.writeResponse sid j) (fun _ t => ∃ l, Edits env s l t ∧ Asked env s sid sess request l)
        (fun _ t => t = s ∧ ∀ action, request.value "action" ≠ .str action) t := by
    intro t j ht hasked
    refine wp_mono (fun _ r hr => ?_) (fun _ _ h => h.elim) (writeResponse_edits ht ((ht.isSome sid).trans hsid) j)
    obtain ⟨l, hr, hl⟩ := answers_of_written hr
    exact ⟨l, hr, hasked l hl⟩
  refine wp_processRequest (fun action haction => ?_) fun hmisnamed => ?_
  · refine wp_mono (fun _ _ h => h) (fun _ t ht => ?_) (dispatch_edits hs haction)
    obtain ⟨ht, hne, hnone⟩ := ht
    refine hwrite _ ht fun l hl => ?_
    have hlogout : ¬ (request.value "action").eqString "logout" := by
      rw [haction]
      simpa [Json.eqString] using hne
    rwa [Asked, if_neg hlogout, hnone]
  · exact ⟨hwrite _ .refl fun _ => asked_of_misnamed hmisnamed, fun _ => ⟨rfl, hmisnamed⟩⟩

/-- A request whose action is there and not a string is an exception. -/
theorem processRequest_named (request : Json) :
    wp (Session.processRequest env sid request)
      (fun _ _ => request.contains "action" → ∃ action, request.value "action" = .str action) (fun _ _ => True) s := by
  by_cases hnamed : ∃ action, request.value "action" = .str action
  · exact wp_of_forall (fun _ _ _ => hnamed) fun _ _ => trivial
  by_cases haction : request.contains "action"
  · have hindex : request.index "action" = .ok (request.value "action", request) := Json.index_of_contains haction
    have hstr : ∀ a, (request.value "action").getString ≠ .ok a := fun a ha => hnamed ⟨a, Json.getString_ok ha⟩
    simp only [Session.processRequest, wp_tryCatch, wp_bind, hindex, orThrow_ok, wp_pure, wp_orThrow]
    exact ⟨fun a ha => absurd ha (hstr a), fun e _ => ⟨fun a ha => absurd ha (hstr a), fun _ _ => trivial⟩⟩
  · exact wp_of_forall (fun _ _ h => absurd h haction) fun _ _ => trivial

end Handlers

end Matching
end SocketCommunication
