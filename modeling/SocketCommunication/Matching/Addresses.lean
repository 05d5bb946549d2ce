/-
# One client for each address

`connected_ips_` is to hold the addresses of the sessions that `allowConnection`
let in.  `Hosting` is the server together with these sessions; the register is
right (`OneClient`) when it is exact in the sense of `Places.Exact`.

`allowConnection` is asked in the handshake of a client alone, while the destructor
gives the address of every session back.  So the register stays right just as long
as no other session of an address is destroyed while the client that was let in
from there exists (`oneClient_iff`).
-/

import SocketCommunication.Lib.Places
import SocketCommunication.Matching.Starts

namespace SocketCommunication
namespace Matching

open Effect

/-- The handler asks `allowConnection` for its address: it is that of the first
message of a client. -/
def Session.asksIn : Op → Completion → Bool
  | .readHandshake, .ok (some handshake) => ! asksMirror handshake
  | _, _ => false

namespace Server

/-- The address of the session `sid`. -/
def address (s : Server) (sid : ℕ) : Option String := (s.get? sid).map (·.remoteIp)

/-- The session that an event lets in. -/
def admits (s : Server) : Event → Finset ℕ
  | .complete sid i result =>
    match s.completing sid i result with
    | some (sess, p) => if Session.asksIn p.op result ∧ sess.remoteIp ∉ s.connectedIps then {sid} else ∅
    | none => ∅
  | _ => ∅

end Server

/-- The server, and the sessions that `allowConnection` has let in. -/
structure Hosting where
  server : Server
  guests : Finset ℕ

namespace Hosting

def step (env : Env) (g : Hosting) (e : Event) : Hosting :=
  ⟨Server.step env g.server e, g.guests ∪ g.server.admits e⟩

/-- The server as `run` starts it. -/
structure Init (g : Hosting) : Prop where
  server : Server.Init g.server
  guests : g.guests = ∅

/-- **`connected_ips_` holds the addresses of the sessions that are there and were
let in, one for each address.** -/
def OneClient (g : Hosting) : Prop := Places.Exact g.server.connectedIps g.server.address g.guests

/-- The event destroys a session that was not let in, while one from the same
address that was let in is there. -/
def Frees (g : Hosting) (e : Event) : Prop :=
  ∃ sid ∈ g.server.dismisses e, sid ∉ g.guests ∧
    ∃ k ∈ g.guests, (g.server.address k).isSome ∧ g.server.address k = g.server.address sid

instance (g : Hosting) (e : Event) : Decidable (g.Frees e) :=
  inferInstanceAs (Decidable (∃ sid ∈ g.server.dismisses e, sid ∉ g.guests ∧
    ∃ k ∈ g.guests, (g.server.address k).isSome ∧ g.server.address k = g.server.address sid))

end Hosting

/-- An address as text is not empty. -/
def Event.Addressed : Event → Prop
  | .accept (some remoteIp) _ => remoteIp ≠ ""
  | _ => True

instance : (e : Event) → Decidable e.Addressed
  | .accept (some remoteIp) _ => inferInstanceAs (Decidable (remoteIp ≠ ""))
  | .accept none _ | .complete .. | .sessionCheck | .broadcast | .tick _ | .signal => inferInstanceAs (Decidable True)

section Addresses

variable {env : Env} {s t : Server} {sid : ℕ} {sess : Session}

theorem Edit.connectedIps (h : Edit env s t) : t.connectedIps = s.connectedIps := by
  cases h with
  | database | forget | expire => rfl
  | revise => exact Server.modifySession_connectedIps ..
  | register => exact Server.modifySession_connectedIps ..

theorem Edits.connectedIps {l : Starts} (h : Edits env s l t) : t.connectedIps = s.connectedIps := by
  induction h with
  | refl => rfl
  | edit _ hedit ih => exact hedit.connectedIps.trans ih
  | start _ _ ih => exact (Server.modifySession_connectedIps ..).trans ih

theorem Grows.address {l : Starts} (h : Grows s t l) : t.address = s.address := by
  funext k
  unfold Server.address
  cases hy : t.get? k with
  | none =>
    have hthere := h.there k
    rw [hy, Option.isSome_none] at hthere
    rw [Option.not_isSome_iff_eq_none.1 (Bool.eq_false_iff.1 hthere.symm)]
  | some y =>
    obtain ⟨x, hx, hip, -⟩ := h.session k y hy
    rw [hx, Option.map_some, Option.map_some, hip]

theorem Greets.connectedIps {handshake : Json} (h : Greets env s sid sess (some handshake) t)
    (hs : s.get? sid = some sess) : t.connectedIps =
      if Session.asksMirror handshake then s.connectedIps else insert sess.remoteIp s.connectedIps := by
  split_ifs with hmirror
  · rcases h.of_mirror hmirror with ⟨-, rfl⟩ | ⟨port, -, rfl⟩
    · exact (Server.modifySession_connectedIps ..).trans (Server.modifySession_connectedIps ..)
    · rw [Server.mirrored, Server.start, Server.modifySession_connectedIps, Server.modifySession_connectedIps]
      exact (Server.modifySession_connectedIps ..).trans (Server.modifySession_connectedIps ..)
  · obtain ⟨l, hedits⟩ := h.edits hs hmirror
    exact hedits.connectedIps

/-- What a completion does to the register. -/
theorem Completed.connectedIps {op : Op} {result : Session.Completion} (h : Completed env s sid sess op result t)
    (hs : s.get? sid = some sess) : t.connectedIps =
      if Session.asksIn op result then insert sess.remoteIp s.connectedIps else s.connectedIps := by
  cases h with
  | failed =>
    rw [if_neg (by cases op <;> simp [Session.asksIn])]
    exact (@Edits.refl env s).ended sess |>.connectedIps
  | @greeted data t h =>
    cases data with
    | none =>
      cases h with
      | malformed => exact Server.modifySession_connectedIps ..
    | some handshake =>
      rw [h.connectedIps hs]
      by_cases hmirror : Session.asksMirror handshake <;> simp [Session.asksIn, hmirror]
  | heard h => exact h.connectedIps
  | welcomed => exact Server.modifySession_connectedIps ..
  | answered => exact Server.modifySession_connectedIps ..
  | notified => exact Server.modifySession_connectedIps ..
  | broadcast => rfl

theorem address_destroy (sid : ℕ) (sess : Session) (s : Server) :
    (Session.destroy sid sess s).address = Function.update s.address sid none :=
  Server.map_get?_update (·.remoteIp) fun k => Server.get?_destroy sid k sess s

theorem address_take (i : ℕ) : (s.take sid i).address = s.address := by
  funext k
  rw [Server.address, Server.take, Server.get?_modifySession]
  split_ifs with hk
  · rw [hk, Option.map_map]
    rfl
  · rfl

theorem admits_completing {i : ℕ} {p : PendingOp} {result : Session.Completion}
    (h : s.completing sid i result = some (sess, p)) : s.admits (.complete sid i result) =
      if Session.asksIn p.op result ∧ sess.remoteIp ∉ s.connectedIps then {sid} else ∅ := by
  simp only [Server.admits, h]

/-- A session that is let in is there. -/
theorem isSome_of_admits {e : Event} (h : sid ∈ s.admits e) : (s.get? sid).isSome := by
  cases e with
  | complete k i result =>
    rw [Server.admits] at h
    cases hfound : s.completing k i result with
    | none =>
      rw [hfound] at h
      cases h
    | some found =>
      rw [hfound] at h
      dsimp only at h
      split_ifs at h
      · obtain rfl := Finset.mem_singleton.1 h
        exact Option.isSome_of_mem (Server.completing_eq_some.1 hfound).1
      · cases h
  | _ => cases h

/-- Every session has an address. -/
theorem Stepped.named {e : Event} (h : Stepped env s e t) (he : e.Addressed) (hs : ∀ k, s.address k ≠ some "") :
    ∀ k, t.address k ≠ some "" := by
  cases h with
  | idle => exact hs
  | @accepted remoteIp mirrorPort =>
    intro k hk
    have hget := Server.get?_of_insert (s := s) (t := s.accept remoteIp mirrorPort) rfl k
    rw [Server.address, hget] at hk
    split_ifs at hk
    · exact he (Option.some.inj hk)
    · exact hs k hk
  | @completed sid i result sess p r hget hp hcan ht =>
    obtain ⟨l, -, hgrows⟩ := ht.begins (Server.get?_take hget i)
    have haddress : r.address = s.address := hgrows.address.trans (address_take i)
    intro k hk
    rcases Server.reap_cases sid r with ⟨hreap, -⟩ | ⟨x, -, -, hreap⟩
    · rw [hreap, haddress] at hk
      exact hs k hk
    · rw [hreap, address_destroy, haddress] at hk
      by_cases hsid : k = sid
      · rw [hsid, Function.update_self] at hk
        cases hk
      · rw [Function.update_of_ne hsid] at hk
        exact hs k hk
  | checked hedits => exact hedits.grows.address ▸ hs
  | broadcast _ hedits => exact hedits.grows.address ▸ hs
  | ticked => exact hs
  | unwound => exact fun k hk => nomatch hk
  | stopped => exact fun k hk => nomatch hk

end Addresses

namespace Hosting

/-- What holds of the server in every run of addressed events whose register is right. -/
structure Inv (g : Hosting) : Prop where
  sane : g.server.Sane
  exact : g.OneClient
  past : ∀ k ∈ g.guests, k < g.server.nextId
  named : ∀ k, g.server.address k ≠ some ""

section Steps

variable {env : Env} {g : Hosting}

/-- A handler that lets its session in, or does not. -/
theorem OneClient.completed {sid i : ℕ} {sess : Session} {p : PendingOp} {result : Session.Completion} {t : Server}
    (h : g.OneClient) (hfound : g.server.completing sid i result = some (sess, p))
    (ht : Completed env (g.server.take sid i) sid { sess with pending := sess.pending.eraseIdx i } p.op result t) :
    t.address = g.server.address ∧
      Places.Exact t.connectedIps t.address (g.guests ∪ g.server.admits (.complete sid i result)) := by
  obtain ⟨hs, -, -⟩ := Server.completing_eq_some.1 hfound
  have hget := Server.get?_take hs i
  obtain ⟨l, -, hgrows⟩ := ht.begins hget
  have haddress : t.address = g.server.address := hgrows.address.trans (address_take i)
  have hips := ht.connectedIps hget
  rw [show (g.server.take sid i).connectedIps = g.server.connectedIps from Server.modifySession_connectedIps ..] at hips
  refine ⟨haddress, ?_⟩
  rw [haddress, admits_completing hfound, hips]
  by_cases hasks : Session.asksIn p.op result
  · simp only [hasks, true_and, if_true]
    exact Places.Exact.admit h (by rw [Server.address, hs, Option.map_some])
  · simp only [hasks, false_and, if_false, Bool.false_eq_true, Finset.union_empty]
    exact h

/-- An event that ends a session frees its address if only others from there were let in. -/
theorem frees_iff {e : Event} {sid : ℕ} {sess : Session} (hs : g.server.get? sid = some sess)
    (hdismisses : g.server.dismisses e = some sid) :
    g.Frees e ↔ sid ∉ g.guests ∧ ∃ k ∈ g.guests, g.server.address k = some sess.remoteIp := by
  have hplace : g.server.address sid = some sess.remoteIp := by rw [Server.address, hs, Option.map_some]
  constructor
  · rintro ⟨j, hj, hout, k, hk, -, heq⟩
    rw [hdismisses] at hj
    obtain rfl := Option.some.inj hj
    exact ⟨hout, k, hk, heq.trans hplace⟩
  · rintro ⟨hout, k, hk, heq⟩
    exact ⟨sid, hdismisses, hout, k, hk, by rw [heq, Option.isSome_some], heq.trans hplace.symm⟩

/-- An event that ends no session frees nothing. -/
theorem iff_not_frees_of_quiet {e : Event} {P : Prop} (hnone : g.server.dismisses e = none) (hP : P) : P ↔ ¬ g.Frees e := by
  refine iff_of_true hP ?_
  rintro ⟨sid, hsid, -⟩
  rw [hnone] at hsid
  cases hsid

/-- **A completion**, which may let its session in or destroy it. -/
theorem Inv.completed_oneClient (h : g.Inv) {sid i : ℕ} {result : Session.Completion} {sess : Session} {p : PendingOp}
    {r : Server} (hs : g.server.get? sid = some sess) (hp : sess.pending[i]? = some p)
    (hcan : Server.canComplete p result)
    (ht : Completed env (g.server.take sid i) sid { sess with pending := sess.pending.eraseIdx i } p.op result r) :
    OneClient ⟨r.reap sid, g.guests ∪ g.server.admits (.complete sid i result)⟩ ↔ ¬ g.Frees (.complete sid i result) := by
  have hfound := Server.completing_eq_some.2 ⟨hs, hp, hcan⟩
  obtain ⟨haddress, hexact⟩ := OneClient.completed h.exact hfound ht
  obtain ⟨y, hy, hip, ⟨hdismisses, hreap⟩ | ⟨hnone, hreap⟩⟩ := ht.reap hs hp hcan
  · have hplace : g.server.address sid = some sess.remoteIp := by rw [Server.address, hs, Option.map_some]
    have hne : sess.remoteIp ≠ "" := fun he => h.named sid (he ▸ hplace)
    have hadmits := admits_completing hfound
    rw [hreap, frees_iff hs hdismisses]
    change Places.Exact (Session.destroy sid y r).connectedIps (Session.destroy sid y r).address _ ↔ _
    rw [address_destroy, Server.destroy_connectedIps, hip, if_pos hne]
    by_cases hguest : sid ∈ g.guests ∪ g.server.admits (.complete sid i result)
    · refine iff_of_true (hexact.leave hguest (haddress ▸ hplace)) ?_
      rintro ⟨hout, k, hk, hka⟩
      have htaken : sess.remoteIp ∈ g.server.connectedIps := (h.exact.taken_iff _).2 ⟨k, hk, hka⟩
      rw [hadmits, if_neg fun hasks => hasks.2 htaken, Finset.union_empty] at hguest
      exact hout hguest
    · have hnone : g.server.admits (.complete sid i result) = ∅ := by
        rw [hadmits]
        refine if_neg fun hasks => hguest ?_
        rw [hadmits, if_pos hasks]
        exact Finset.mem_union_right _ (Finset.mem_singleton_self sid)
      rw [Places.exact_erase_iff hexact hguest]
      rw [hnone, Finset.union_empty] at hguest ⊢
      rw [haddress]
      constructor
      · rintro hfree ⟨-, k, hk, hka⟩
        exact hfree k hk hka
      · exact fun hno k hk hka => hno ⟨hguest, k, hk, hka⟩
  · exact iff_not_frees_of_quiet hnone (hreap.symm ▸ hexact)

/-- **An event keeps the register right just when it frees no address that is taken.** -/
theorem Inv.step_oneClient {e : Event} {t : Server} (h : g.Inv) (hstepped : Stepped env g.server e t) :
    OneClient ⟨t, g.guests ∪ g.server.admits e⟩ ↔ ¬ g.Frees e := by
  have hkept : g.server.admits e = ∅ → t.connectedIps = g.server.connectedIps →
      Places.Exact g.server.connectedIps t.address g.guests → OneClient ⟨t, g.guests ∪ g.server.admits e⟩ := by
    intro hnone hips hexact
    rw [hnone, Finset.union_empty]
    change Places.Exact t.connectedIps t.address g.guests
    rwa [hips]
  have hgone : ∀ {r : Server}, t = r.halt → OneClient ⟨t, g.guests ∪ g.server.admits e⟩ := by
    rintro r rfl
    exact Places.exact_of_gone fun k => rfl
  cases hstepped with
  | idle hidle =>
    have hnone : g.server.dismisses e = none ∧ g.server.admits e = ∅ := by
      cases e with
      | complete sid i result => simp only [Server.dismisses, Server.admits, hidle sid i result rfl, Option.bind_none, and_self]
      | _ => exact ⟨rfl, rfl⟩
    exact iff_not_frees_of_quiet hnone.1 (hkept hnone.2 rfl h.exact)
  | @accepted remoteIp mirrorPort =>
    refine iff_not_frees_of_quiet rfl (hkept rfl rfl (h.exact.come (k := g.server.nextId) ?_ fun k hk => ?_))
    · exact fun hk => (h.past _ hk).false
    · have hget := Server.get?_of_insert (s := g.server) (t := g.server.accept remoteIp mirrorPort) rfl k
      rw [Server.address, hget, if_neg hk, Server.address]
  | @completed sid i result sess p r hs hp hcan ht =>
    exact h.completed_oneClient hs hp hcan ht
  | checked hedits => exact iff_not_frees_of_quiet rfl (hkept rfl hedits.connectedIps (hedits.grows.address ▸ h.exact))
  | broadcast _ hedits => exact iff_not_frees_of_quiet rfl (hkept rfl hedits.connectedIps (hedits.grows.address ▸ h.exact))
  | ticked => exact iff_not_frees_of_quiet rfl (hkept rfl rfl h.exact)
  | unwound => exact iff_not_frees_of_quiet rfl (hgone rfl)
  | stopped => exact iff_not_frees_of_quiet rfl (hgone rfl)

theorem Inv.step {e : Event} (h : g.Inv) (he : e.Addressed) (hfrees : ¬ g.Frees e) : (g.step env e).Inv where
  sane := step_sane h.sane e
  exact := (h.step_oneClient (step_stepped h.sane e)).2 hfrees
  past k hk := by
    refine lt_of_lt_of_le ?_ (step_nextId h.sane e)
    rcases Finset.mem_union.1 hk with hk | hk
    · exact h.past k hk
    · exact h.sane.heap k (isSome_of_admits hk)
  named := (step_stepped h.sane e).named he h.named

end Steps

/-- **The register of addresses is right throughout a run just when no event of it
destroys a session that was not let in, while one from its address is there that was.** -/
theorem oneClient_iff {env : Env} {g : Hosting} (h : g.Init) (es : List Event) (hes : ∀ e ∈ es, e.Addressed) :
    Run.Throughout (step env) OneClient g es ↔ Run.Along (step env) (fun g e => ¬ g.Frees e) g es := by
  have hgone : ∀ k, g.server.address k = none := fun k => by
    rw [Server.address, Server.get?_of_empty h.server.heap, Option.map_none]
  have hexact : g.OneClient := by
    rw [OneClient, h.server.connectedIps]
    exact Places.exact_of_gone hgone
  have hinv : g.Inv := by
    refine ⟨h.server.sane, hexact, fun k hk => ?_, fun k hk => ?_⟩
    · rw [h.guests] at hk
      cases hk
    · rw [hgone] at hk
      cases hk
  refine Run.throughout_iff_along_of (I := Inv) (D := Event.Addressed) (fun _ hg => hg.exact)
    (fun _ _ he hg hfrees => hg.step he hfrees) (fun g e _ hg hfrees hexact => hfrees ?_) hinv es hes
  exact (hg.step_oneClient (step_stepped hg.sane e)).1 hexact

def init : Hosting := ⟨.init, ∅⟩

theorem init_init : Init init := ⟨Server.init_init, rfl⟩

/-- Two connections from one address; the second is silent. -/
def silentRun : List Event := Server.connects 0 "192.0.2.1" ++ [.accept (some "192.0.2.1") 0]

/-- The silent connection ends. -/
def freedRun : List Event := silentRun ++ [.complete 1 0 .error]

theorem oneClient_silent : Run.Throughout (step .reliable) OneClient init silentRun :=
  (oneClient_iff init_init silentRun (by decide +kernel)).2 (by decide +kernel)

/-- The address of the first client is free. -/
theorem not_oneClient_freed : ¬ Run.Throughout (step .reliable) OneClient init freedRun := by
  intro h
  have hclient : 0 ∈ (freedRun.foldl (step .reliable) init).guests ∧
      (freedRun.foldl (step .reliable) init).server.address 0 = some "192.0.2.1" ∧
      "192.0.2.1" ∉ (freedRun.foldl (step .reliable) init).server.connectedIps := by decide +kernel
  exact hclient.2.2 ((h.last.taken_iff _).2 ⟨0, hclient.1, hclient.2.1⟩)

end Hosting

end Matching
end SocketCommunication
