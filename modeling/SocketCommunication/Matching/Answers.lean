/-
# What a session does with an answer

Once a controller has answered, `process_request` works on sessions and registries
alone.  `Tolerates R` collects what every such handler does to them; a relation that
tolerates this, and the changes of the single actions, is kept by the whole of
`respond` (`Tolerates.respond`).

The database stays as the controller left it (`respond_keeps`), and only a login
changes the user of a session (`respond_quiet`).
-/

import SocketCommunication.Matching.Session

namespace SocketCommunication
namespace Matching

open Effect Server

/-- A relation that holds of every change outside of the objects and the database, and
of the changes of an object that every handler makes. -/
structure Tolerates (R : Server → Server → Prop) : Prop where
  registries {s t : Server} (hworld : t.world = s.world) (hheap : t.heap = s.heap) : R s t
  start (sid : ℕ) (op : Op) (s : Server) : R s (Server.start sid op s)
  token (sid : ℕ) (token : String) (s : Server) : R s (modifySession sid (fun sess => { sess with token }) s)
  lastActivity (sid now : ℕ) (s : Server) :
    R s (modifySession sid (fun sess => { sess with lastActivity := now }) s)

/-- The status of any session may change. -/
def Restatus (R : Server → Server → Prop) : Prop :=
  ∀ sid status s, R s (modifySession sid (fun sess => { sess with status }) s)

namespace Session

variable {env : Env} (sid : ℕ)

/-- An answer that grants nothing is passed on. -/
theorem respond_eq_answer {action : String} {response : Json} (h : response.succeeds = false) :
    respond env sid action response = answer sid action response := by
  simp only [respond, h, Bool.false_eq_true, and_false, if_false]

/-- Where a member of the answer is there, it is written to the session. -/
theorem keeps_member {R : Server → Server → Prop} [IsPreorder Server R] {α : Type} {p : Prop} [Decidable p]
    (x : Except Exn α) {f : α → Session → Session}
    (h : ∀ a, x = .ok a → Keeps R (modify (modifySession sid (f a)) : ServerM Unit)) :
    Keeps R (onlyIf p do let a ← orThrow x; modify (modifySession sid (f a)) : ServerM Unit) := by
  refine keeps_ite (fun _ => ?_) fun _ => keeps_pure _
  cases x with
  | ok a => exact h a rfl
  | error e => exact keeps_throw e

end Session

namespace Tolerates

variable {env : Env} {R : Server → Server → Prop} (sid : ℕ)

/-! ### The methods of `Server` -/

theorem checkAlreadyLogin (h : Tolerates R) (userId : ℤ) : Keeps R (checkAlreadyLogin userId) := fun _ => h.registries rfl rfl

theorem registerSession (h : Tolerates R) : Keeps R (registerSession env sid) := fun _ => h.registries rfl rfl

theorem getMirrorSession [IsPreorder Server R] (h : Tolerates R) (port : ℤ) : Keeps R (getMirrorSession port) := by
  intro s
  simp only [Server.getMirrorSession, wp_bind, wp_get]
  cases s.mirrors.lookup port with
  | none => exact refl_of R s
  | some mirror => exact (wp_ite _ _ _).2 ⟨fun _ => refl_of R s, fun _ => h.registries rfl rfl⟩

/-! ### The handlers -/

theorem writeResponse (h : Tolerates R) (response : Json) : Keeps R (Session.writeResponse sid response) :=
  keeps_modify fun s => h.start sid _ s

variable [IsPreorder Server R]

theorem answer (h : Tolerates R) (action : String) (response : Json) : Keeps R (Session.answer sid action response) :=
  keeps_bind (keeps_modify fun _ => h.registries rfl rfl) fun _ => h.writeResponse sid response

theorem handlePing (h : Tolerates R) : Keeps R (Session.handlePing sid) := by
  have hthis : Keeps R (this sid) := fun s => refl_of R s
  exact keeps_bind (keeps_modify fun s => h.lastActivity sid s.clock s) fun _ =>
    keeps_bind hthis fun _ => h.writeResponse sid _

/-- The end of a login, once its user is known. -/
theorem register (h : Tolerates R) (action : String) (response : Json) :
    Keeps R (do
      let token ← Server.registerSession env sid
      modify (modifySession sid fun sess => { sess with token })
      Session.answer sid action (response.set "sessionToken" (.str token))) :=
  keeps_bind (h.registerSession sid) fun token => keeps_bind (keeps_modify fun s => h.token sid token s) fun _ =>
    h.answer sid _ _

theorem login (h : Tolerates R) {action : String} {response : Json} (hinit : Keeps R (Session.initCurrentUser sid response)) :
    Keeps R (Session.login env sid action response) := by
  refine keeps_bind (keeps_orThrow _) fun userId => keeps_bind (h.checkAlreadyLogin userId) fun already => ?_
  exact keeps_ite (fun _ => h.writeResponse sid _) fun _ => keeps_bind hinit fun _ => h.register sid action response

theorem notifyMirror (h : Tolerates R) (hstatus : Restatus R) (response : Json) : Keeps R (Session.notifyMirror sid response) := by
  refine keeps_tryCatch (keeps_bind (keeps_orThrow _) fun port => ?_) fun _ => keeps_pure _
  refine keeps_bind (h.getMirrorSession port) fun mirror => ?_
  cases mirror with
  | none => exact keeps_bind (h.writeResponse sid _) fun _ => keeps_pure _
  | some mirror =>
    refine keeps_bind (keeps_orThrow _) fun roomId => keeps_bind (keeps_modify (hstatus sid _)) fun _ => ?_
    exact keeps_bind (keeps_modify (h.start mirror _)) fun _ => keeps_pure _

/-- **What is kept by whatever is done with an answer**: a login enters its user, a new
nickname is entered, and a game that starts or ends changes statuses. -/
theorem respond (h : Tolerates R) (hstatus : Restatus R) {action : String} {response : Json}
    (hinit : (action = "login" ∨ action = "SSAFYlogin") ∧ response.succeeds → Keeps R (Session.initCurrentUser sid response))
    (hnick : ∀ nickName s, R s (modifySession sid (fun sess => { sess with nickName }) s))
    (hgame : (action = "gameStart" ∨ action = "gameEnd") → response.succeeds →
      ∀ flag, Keeps R (setSessionStatus response flag)) : Keeps R (Session.respond env sid action response) := by
  have hanswer : Keeps R (Session.answer sid action response) := h.answer sid action response
  refine keeps_ite (fun hlogin => h.login sid (hinit hlogin)) fun _ => ?_
  refine keeps_ite (fun _ => keeps_bind (h.notifyMirror sid hstatus response) fun _ =>
    keeps_ite (fun _ => hanswer) fun _ => keeps_pure _) fun _ => ?_
  refine keeps_ite (fun _ => keeps_bind (keeps_orThrow _) fun _ => keeps_bind (keeps_modify (hstatus sid _)) fun _ =>
    hanswer) fun _ => ?_
  refine keeps_ite (fun _ => keeps_bind (keeps_modify (hstatus sid _)) fun _ => hanswer) fun _ => ?_
  refine keeps_ite (fun hg => keeps_bind (hgame (.inl hg.1) hg.2 true) fun _ => hanswer) fun _ => ?_
  refine keeps_ite (fun hg => keeps_bind (hgame (.inr hg.1) hg.2 false) fun _ => hanswer) fun _ => ?_
  exact keeps_ite (fun _ => keeps_bind (keeps_orThrow _) fun nickName => keeps_bind (keeps_modify (hnick nickName)) fun _ =>
    hanswer) fun _ => hanswer

theorem tokensOf : ∀ users : List Json, Keeps R (tokensOf users)
  | [] => keeps_pure _
  | _ :: users => keeps_bind (keeps_orThrow _) fun _ => keeps_bind keeps_get fun _ =>
      keeps_bind (tokensOf users) fun _ => keeps_pure _

theorem setStatuses (hstatus : Restatus R) (hhalt : ∀ s : Server, R s s.halt) (status : String) :
    ∀ tokens : List String, Keeps R (setStatuses status tokens)
  | [] => keeps_pure _
  | token :: tokens => by
    refine keeps_bind keeps_get fun s => ?_
    split
    · exact setStatuses hstatus hhalt status tokens
    · exact keeps_ite (fun _ => keeps_bind (keeps_modify (hstatus _ _)) fun _ =>
        setStatuses hstatus hhalt status tokens) fun _ => keeps_modify hhalt

theorem setSessionStatus (hstatus : Restatus R) (hhalt : ∀ s : Server, R s s.halt) (users : Json) (flag : Bool) :
    Keeps R (setSessionStatus users flag) :=
  keeps_bind (tokensOf _) fun _ => setStatuses hstatus hhalt _ _

end Tolerates

/-! ### The database -/

/-- The database is as it was. -/
def SameWorld (s t : Server) : Prop := t.world = s.world

instance : IsPreorder Server SameWorld where
  refl _ := rfl
  trans _ _ _ h h' := Eq.trans h' h

theorem tolerates_sameWorld : Tolerates SameWorld where
  registries hworld _ := hworld
  start sid _ s := modifySession_world sid _ s
  token sid _ s := modifySession_world sid _ s
  lastActivity sid _ s := modifySession_world sid _ s

theorem initCurrentUser_keeps (sid : ℕ) (response : Json) : Keeps SameWorld (Session.initCurrentUser sid response) := by
  have hmodify : ∀ f, Keeps SameWorld (modify (modifySession sid f) : ServerM Unit) := fun f s => modifySession_world sid f s
  exact keeps_bind (Session.keeps_member sid _ fun _ _ => hmodify _) fun _ =>
    keeps_bind (Session.keeps_member sid _ fun _ _ => hmodify _) fun _ =>
      keeps_bind (Session.keeps_member sid _ fun _ _ => hmodify _) fun _ => hmodify _

/-- **An answer leaves the database as it is.** -/
theorem Session.respond_keeps {env : Env} (sid : ℕ) (action : String) (response : Json) :
    Keeps SameWorld (respond env sid action response) := by
  have hstatus : Restatus SameWorld := fun sid _ s => modifySession_world sid _ s
  exact tolerates_sameWorld.respond sid hstatus (fun _ => initCurrentUser_keeps sid response)
    (fun _ s => modifySession_world sid _ s) fun _ _ => Tolerates.setSessionStatus hstatus (fun _ => rfl) response

/-! ### The users -/

/-- The database is as it was, and whoever is there is the user it was. -/
structure Quiet (s t : Server) : Prop where
  world : t.world = s.world
  users : ∀ sid x, t.get? sid = some x → ∃ y, s.get? sid = some y ∧ y.userId = x.userId

instance : IsPreorder Server Quiet where
  refl _ := ⟨rfl, fun _ x hx => ⟨x, hx, rfl⟩⟩
  trans _ _ _ h h' := ⟨h'.world.trans h.world, fun sid x hx => by
    obtain ⟨y, hy, hyx⟩ := h'.users sid x hx
    obtain ⟨z, hz, hzy⟩ := h.users sid y hy
    exact ⟨z, hz, hzy.trans hyx⟩⟩

theorem quiet_modifySession {sid : ℕ} {f : Session → Session} {s : Server} (hf : ∀ x, (f x).userId = x.userId) :
    Quiet s (modifySession sid f s) := by
  refine ⟨modifySession_world sid f s, fun sid' x hx => ?_⟩
  rw [get?_modifySession] at hx
  split_ifs at hx with hsid
  · obtain ⟨y, hy, rfl⟩ := Option.map_eq_some_iff.1 hx
    exact ⟨y, hsid ▸ hy, (hf y).symm⟩
  · exact ⟨x, hx, rfl⟩

theorem tolerates_quiet : Tolerates Quiet where
  registries hworld hheap := ⟨hworld, fun sid x hx => ⟨x, by rwa [Server.get?, ← hheap], rfl⟩⟩
  start _ _ _ := quiet_modifySession fun _ => rfl
  token _ _ _ := quiet_modifySession fun _ => rfl
  lastActivity _ _ _ := quiet_modifySession fun _ => rfl

/-- **An answer leaves the users of the sessions as they are**, unless it grants a
login. -/
theorem Session.respond_quiet {env : Env} (sid : ℕ) {action : String} {response : Json}
    (h : ¬ ((action = "login" ∨ action = "SSAFYlogin") ∧ response.succeeds)) :
    Keeps Quiet (respond env sid action response) := by
  have hstatus : Restatus Quiet := fun _ _ _ => quiet_modifySession fun _ => rfl
  have hhalt : ∀ s : Server, Quiet s s.halt := fun s => ⟨rfl, fun _ _ hx => nomatch hx⟩
  exact tolerates_quiet.respond sid hstatus (fun hlogin => absurd hlogin h)
    (fun _ _ => quiet_modifySession fun _ => rfl) fun _ _ => Tolerates.setSessionStatus hstatus hhalt response

end Matching
end SocketCommunication
