/-
# Who the sessions are

`Server.who` is the identity of each session, and `WhoChange` all that a change
does to identities, to `tokens_` and to the history; what it does to operations,
sockets and registries does not show.  Invariants about logins are proved for
`WhoChange`.
-/

import SocketCommunication.Matching.Events

namespace SocketCommunication
namespace Matching

namespace Server

/-- Who the session `sid` is. -/
def who (s : Server) (sid : ℕ) : Option Identity := (s.get? sid).map Session.identity

theorem who_of_get? {s : Server} {sid : ℕ} {sess : Session} (h : s.get? sid = some sess) :
    s.who sid = some sess.identity := by
  rw [who, h, Option.map_some]

theorem who_eq_some {s : Server} {sid : ℕ} {i : Identity} :
    s.who sid = some i ↔ ∃ sess, s.get? sid = some sess ∧ sess.identity = i :=
  Option.map_eq_some_iff

theorem who_of_empty {s : Server} (h : s.heap = ∅) (sid : ℕ) : s.who sid = none := by
  rw [who, get?_of_empty h, Option.map_none]

theorem who_modifySession_same {sid : ℕ} {f : Session → Session} {s : Server}
    (hf : ∀ sess, (f sess).identity = sess.identity) : (modifySession sid f s).who = s.who := by
  funext sid'
  rw [who, get?_modifySession]
  split_ifs with hsid
  · rw [Option.map_map, show Session.identity ∘ f = Session.identity from funext hf, hsid]
    rfl
  · rfl

theorem who_modifySession {sid : ℕ} {f : Session → Session} {s : Server} {sess : Session}
    (hs : s.get? sid = some sess) :
    (modifySession sid f s).who = Function.update s.who sid (some (f sess).identity) := by
  refine map_get?_update (x := some (f sess)) Session.identity fun k => ?_
  rw [get?_modifySession, hs, Option.map_some]

theorem who_of_insert {s t : Server} {sid : ℕ} {sess : Session} {i : Identity}
    (h : t.heap = s.heap.insert sid sess) (hi : sess.identity = i) : t.who = Function.update s.who sid (some i) := by
  subst hi
  exact map_get?_update Session.identity (get?_of_insert h)

theorem who_destroy (sid : ℕ) (sess : Session) (s : Server) :
    (Session.destroy sid sess s).who = Function.update s.who sid none :=
  map_get?_update Session.identity fun k => get?_destroy sid k sess s

end Server

/-- How the identity of a session changes before its first request. -/
inductive Turns : Identity → Identity → Prop
  | mirror {i : Identity} (huser : i.userId = 0) (htoken : i.token = "") : Turns i { i with isMirror := true }
  | port {i : Identity} {port : ℤ} (hmirror : i.isMirror) (huser : i.userId = 0) (htoken : i.token = "") :
      Turns i { i with userId := port }
  | token {i : Identity} {token : String} (huser : i.userId = 0) (htoken : token ≠ "") : Turns i { i with token }

/-- What a change does to identities, tokens and the history. -/
inductive WhoChange (L : Licence) (s t : Server) : Prop
  | same (hwho : t.who = s.who) (htokens : t.tokens = s.tokens) (htrace : t.trace = s.trace)
  | called {sid : ℕ} {i : Identity} {type : ControllerType} {request : Json} (hs : s.who sid = some i)
      (hguard : Guarded i request type) (hL : L.call sid i type request) (hwho : t.who = s.who)
      (htokens : t.tokens = s.tokens) (htrace : t.trace = .handled sid type request :: s.trace)
  | answered {sid : ℕ} {action : String} {response : Json} (h : ¬ (isLogin action ∧ response.succeeds))
      (hwho : t.who = s.who) (htokens : t.tokens = s.tokens) (htrace : t.trace = .answered sid action response :: s.trace)
  | turned {sid : ℕ} {i j : Identity} (hs : s.who sid = some i) (h : Turns i j)
      (hwho : t.who = Function.update s.who sid (some j)) (htokens : t.tokens = s.tokens) (htrace : t.trace = s.trace)
  | halfLogin {sid : ℕ} {i : Identity} (hs : s.who sid = some i) (hL : L.login s sid i (-1))
      (hwho : t.who = Function.update s.who sid (some { i with userId := -1 })) (htokens : t.tokens = s.tokens)
      (htrace : t.trace = s.trace)
  | login {sid : ℕ} {i : Identity} {u : ℤ} {token action : String} {response : Json} (hs : s.who sid = some i)
      (hL : L.login s sid i u) (hfree : s.tokens.lookup u = none) (htoken : token ≠ "") (haction : isLogin action)
      (hsuccess : response.succeeds) (hid : response.value "userId" = .int u)
      (hwho : t.who = Function.update s.who sid (some { i with userId := u, token }))
      (htokens : t.tokens = if u ≠ 0 then s.tokens.insert u token else s.tokens)
      (htrace : t.trace = .answered sid action response :: s.trace)
  | accept {sid : ℕ} (hnew : s.who sid = none) (hpast : ∀ act ∈ s.trace, act.sid ≠ sid)
      (hwho : t.who = Function.update s.who sid (some ⟨0, false, ""⟩)) (htokens : t.tokens = s.tokens)
      (htrace : t.trace = s.trace)
  | destroy {sid : ℕ} {i : Identity} (hs : s.who sid = some i) (hwho : t.who = Function.update s.who sid none)
      (htokens : t.tokens = if i.token ≠ "" then s.tokens.erase i.userId else s.tokens) (htrace : t.trace = s.trace)
  | halt (hwho : ∀ sid, t.who sid = none) (htokens : t.tokens = ∅) (htrace : t.trace = s.trace)

/-- The history only grows. -/
theorem WhoChange.trace_subset {L : Licence} {s t : Server} (h : WhoChange L s t) : s.trace ⊆ t.trace := by
  cases h with
  | called _ _ _ _ _ htrace => exact htrace ▸ List.subset_cons_self _ _
  | answered _ _ _ htrace => exact htrace ▸ List.subset_cons_self _ _
  | login _ _ _ _ _ _ _ _ _ htrace => exact htrace ▸ List.subset_cons_self _ _
  | same _ _ htrace | turned _ _ _ _ htrace | halfLogin _ _ _ _ htrace | accept _ _ _ _ htrace
  | destroy _ _ _ htrace | halt _ _ htrace => exact htrace ▸ List.Subset.refl _

open Server in
theorem Move.whoChange {env : Env} {L : Licence} {s t : Server} (h : Move env L s t) : WhoChange L s t := by
  cases h with
  | call hs hguard hL => exact .called (who_of_get? hs) hguard hL rfl rfl rfl
  | start =>
    exact .same (who_modifySession_same fun _ => rfl) (modifySession_tokens ..) (modifySession_trace ..)
  | revise hf =>
    exact .same (who_modifySession_same fun x => (hf x).1) (modifySession_tokens ..) (modifySession_trace ..)
  | registry => exact .same rfl rfl rfl
  | answered _ h => exact .answered h rfl rfl rfl
  | mirror hs _ huser htoken =>
    exact .turned (who_of_get? hs) (.mirror huser htoken) (who_modifySession hs) (modifySession_tokens ..)
      (modifySession_trace ..)
  | port hs _ hmirror huser htoken =>
    exact .turned (who_of_get? hs) (.port hmirror huser htoken) (who_modifySession hs) (modifySession_tokens ..)
      (modifySession_trace ..)
  | token hs _ huser htoken =>
    exact .turned (who_of_get? hs) (.token huser htoken) (who_modifySession hs) (modifySession_tokens ..)
      (modifySession_trace ..)
  | halfLogin hs _ hL =>
    exact .halfLogin (who_of_get? hs) hL (who_modifySession hs) (modifySession_tokens ..) (modifySession_trace ..)
  | login hs _ _ hL _ hfree htoken haction hsuccess hid =>
    exact .login (who_of_get? hs) hL hfree htoken haction hsuccess hid (who_of_insert rfl rfl) rfl rfl

open Server in
/-- **What a change of a server in order does to identities.** -/
theorem Change.whoChange {env : Env} {L : Licence} {s t : Server} (h : Change env L s t) (hs : s.Sane) :
    WhoChange L s t := by
  cases h with
  | move h => exact h.whoChange
  | accept =>
    refine .accept (Option.map_eq_none_iff.2 ?_) (fun act hact => (hs.trace act hact).ne)
      (who_of_insert rfl rfl) rfl rfl
    by_contra hsome
    exact absurd (hs.heap s.nextId (Option.ne_none_iff_isSome.1 hsome)) (lt_irrefl _)
  | take => exact .same (who_modifySession_same fun _ => rfl) (modifySession_tokens ..) (modifySession_trace ..)
  | @destroy sid sess hget =>
    obtain ⟨mirrors, sessions, connectedIps, heq, -, -⟩ := destroy_eq sid sess s
    exact .destroy (who_of_get? hget) (who_destroy sid sess s) (by rw [heq]; rfl) (by rw [heq])
  | tick => exact .same rfl rfl rfl
  | halt => exact .halt (fun _ => rfl) rfl rfl

end Matching
end SocketCommunication
