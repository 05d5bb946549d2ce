/-
# The registry of mirrors

`mirrors_` maps a port to the mirror that hosts it.  `Mirroring` is the server
together with the mirror that last completed a handshake for each port; the
registry is accurate (`Accurate`) when it has that mirror as long as it exists.

A handshake overwrites the entry of its port.  The destructor of a session with
`is_mirror_` erases the entry of its `mirror_port_` without a look at whose it is:
an older mirror of the port, and one whose handshake failed and whose
`mirror_port_` was never written, erase that of the newest (`accurate_iff`).
-/

import SocketCommunication.Matching.Starts

namespace SocketCommunication
namespace Matching

open Effect

namespace Session

/-- The handler sets `is_mirror_`. -/
def turnsMirror : Op → Completion → Bool
  | .readHandshake, .ok (some handshake) => asksMirror handshake
  | _, _ => false

/-- The port for which the handler completes the handshake of a mirror. -/
def hostsPort : Op → Completion → Option ℤ
  | .readHandshake, .ok (some handshake) =>
    if asksMirror handshake then (handshake.value "port").getInt.toOption else none
  | _, _ => none

end Session

namespace Server

/-- The mirror that completes its handshake in an event, and its port. -/
def hosts (s : Server) : Event → Option (ℤ × ℕ)
  | .complete sid i result =>
    (s.completing sid i result).bind fun found => (Session.hostsPort found.2.op result).map (·, sid)
  | _ => none

/-- The mirror that an event destroys, and the port of which it erases the entry. -/
def clears (s : Server) : Event → Option (ℤ × ℕ)
  | .complete sid i result =>
    (s.completing sid i result).bind fun found =>
      if s.dismisses (.complete sid i result) = some sid ∧ (found.1.isMirror ∨ Session.turnsMirror found.2.op result) then
        some (found.1.mirrorPort, sid)
      else none
  | _ => none

end Server

/-- The server, and for each port the mirror that last completed a handshake. -/
structure Mirroring where
  server : Server
  latest : AList fun _ : ℤ => ℕ

namespace Mirroring

/-- The ports after an event. -/
def hosted (g : Mirroring) (e : Event) : AList fun _ : ℤ => ℕ :=
  match g.server.hosts e with
  | some (port, sid) => g.latest.insert port sid
  | none => g.latest

def step (env : Env) (g : Mirroring) (e : Event) : Mirroring := ⟨Server.step env g.server e, g.hosted e⟩

/-- The server as `run` starts it. -/
structure Init (g : Mirroring) : Prop where
  server : Server.Init g.server
  latest : g.latest = ∅

/-- **The mirror that last completed a handshake for a port is registered, and
found, as long as it exists.** -/
def Accurate (g : Mirroring) : Prop :=
  ∀ port sid, g.latest.lookup port = some sid → (g.server.get? sid).isSome →
    g.server.mirrors.lookup port = some sid ∧
      wp (Server.getMirrorSession port) (fun r t => r = some sid ∧ t = g.server) (fun _ _ => False) g.server

/-- The event destroys a mirror on whose `mirror_port_` another one is the latest
and exists. -/
def Erases (g : Mirroring) (e : Event) : Prop :=
  ∃ mirror ∈ g.server.clears e, ∃ k ∈ g.latest.lookup mirror.1, k ≠ mirror.2 ∧ (g.server.get? k).isSome

instance (g : Mirroring) (e : Event) : Decidable (g.Erases e) :=
  inferInstanceAs (Decidable (∃ mirror ∈ g.server.clears e, ∃ k ∈ g.latest.lookup mirror.1,
    k ≠ mirror.2 ∧ (g.server.get? k).isSome))

end Mirroring

section Mirrors

variable {env : Env} {s t : Server} {sid : ℕ} {sess : Session}

/-- An entry of a session that is there outlives changes. -/
theorem Edit.mirrors (h : Edit env s t) {port : ℤ} {k : ℕ} (hthere : (s.get? k).isSome)
    (hk : s.mirrors.lookup port = some k) : t.mirrors.lookup port = some k := by
  cases h with
  | database | expire => exact hk
  | revise => rwa [Server.modifySession_mirrors]
  | @forget port' mirror hmirror hgone =>
    refine (AList.lookup_erase_ne ?_).trans hk
    rintro rfl
    obtain rfl := Option.some.inj (hmirror.symm.trans hk)
    rw [hgone] at hthere
    cases hthere
  | register =>
    rw [Server.registered, Server.modifySession_mirrors]
    exact hk

theorem Edits.mirrors {l : Starts} (h : Edits env s l t) {port : ℤ} {k : ℕ} (hthere : (s.get? k).isSome)
    (hk : s.mirrors.lookup port = some k) : t.mirrors.lookup port = some k := by
  induction h with
  | refl => exact hk
  | edit hedits hedit ih => exact hedit.mirrors ((hedits.isSome k).trans hthere) ih
  | start _ _ ih => rwa [Server.start, Server.modifySession_mirrors]

/-- A registry without an entry of the session is left as it is. -/
theorem dropEntry_eq {κ : Type} [DecidableEq κ] {l : AList fun _ : κ => ℕ} (h : ∀ k, l.lookup k ≠ some sid) :
    Server.dropEntry env l sid = l := by
  have hnone : (env.order 0 l.entries).find? (fun e => e.2 = sid) = none := by
    refine List.find?_eq_none.2 fun e he hsid => h e.1 ?_
    rw [AList.mem_lookup_iff.2 (Env.mem_order.1 he)]
    exact congrArg some (of_decide_eq_true hsid)
  rw [Server.dropEntry, Server.entryOf, hnone]
  rfl

/-- What a completion does to the entries of sessions that are there. -/
theorem Completed.mirrors {op : Op} {result : Session.Completion} (h : Completed env s sid sess op result t)
    (hs : s.get? sid = some sess) (hnew : op = .readHandshake → ∀ port, s.mirrors.lookup port ≠ some sid)
    {port : ℤ} {k : ℕ} (hthere : (s.get? k).isSome)
    (hk : ((Session.hostsPort op result).elim s.mirrors (s.mirrors.insert · sid)).lookup port = some k) :
    t.mirrors.lookup port = some k := by
  have hsame : ∀ {f : Session → Session}, s.mirrors.lookup port = some k →
      (Server.modifySession sid f s).mirrors.lookup port = some k := fun h => by rwa [Server.modifySession_mirrors]
  cases h with
  | failed =>
    rw [show Session.hostsPort op .error = none by cases op <;> rfl] at hk
    exact ((@Edits.refl env s).ended sess).mirrors hthere hk
  | @greeted data t h =>
    cases data with
    | none =>
      cases h with
      | malformed => exact hsame hk
    | some handshake =>
      by_cases hmirror : Session.asksMirror handshake
      · rw [Session.hostsPort, if_pos hmirror] at hk
        rcases h.of_mirror hmirror with ⟨hport, rfl⟩ | ⟨port', hport, rfl⟩
        · cases hint : (handshake.value "port").getInt with
          | ok port => exact absurd hint (hport port)
          | error e =>
            rw [hint] at hk
            rw [Server.closed, Server.modifySession_mirrors]
            exact hsame hk
        · rw [hport] at hk
          have hdrop : ∀ {f g : Session → Session}, Server.dropEntry env
              (Server.modifySession sid g (Server.modifySession sid f s)).mirrors sid = s.mirrors := by
            intro f g
            rw [Server.modifySession_mirrors, Server.modifySession_mirrors]
            exact dropEntry_eq (hnew rfl)
          rw [Server.mirrored, Server.start, Server.modifySession_mirrors, Server.modifySession_mirrors]
          dsimp only
          rw [hdrop]
          exact hk
      · rw [Session.hostsPort, if_neg hmirror] at hk
        obtain ⟨l, hedits⟩ := h.edits hs hmirror
        exact hedits.mirrors hthere hk
  | heard h => exact h.mirrors hthere hk
  | welcomed => exact hsame hk
  | answered => exact hsame hk
  | notified => exact hsame hk
  | broadcast => exact hk

/-- What a completion does to the fields that the destructor reads. -/
theorem Completed.mirror {op : Op} {result : Session.Completion} (h : Completed env s sid sess op result t)
    (hs : s.get? sid = some sess) {y : Session} (hy : t.get? sid = some y) :
    y.isMirror = (sess.isMirror || Session.turnsMirror op result) ∧
      y.mirrorPort = (Session.hostsPort op result).getD sess.mirrorPort := by
  have hkin : ∀ {r : Server} {l : Starts}, r.get? sid = some sess → Edits env r l t →
      y.isMirror = (sess.isMirror || false) ∧ y.mirrorPort = sess.mirrorPort := by
    intro r l hr hedits
    obtain ⟨x, hx, hgrown⟩ := hedits.get? hy
    obtain rfl := Option.some.inj (hr.symm.trans hx)
    exact ⟨hgrown.kin.isMirror.trans (Bool.or_false _).symm, hgrown.kin.mirrorPort⟩
  have hstart : ∀ {op : Op}, t = Server.start sid op s →
      y.isMirror = (sess.isMirror || false) ∧ y.mirrorPort = sess.mirrorPort := by
    rintro op rfl
    exact hkin hs (@Edits.start env _ _ _ _ _ _ .refl hs)
  cases h with
  | failed =>
    have hnone : Session.turnsMirror op .error = false ∧ Session.hostsPort op .error = none := by cases op <;> exact ⟨rfl, rfl⟩
    rw [hnone.1, hnone.2]
    exact hkin hs ((@Edits.refl env s).ended sess)
  | @greeted data t h =>
    cases data with
    | none =>
      cases h with
      | malformed =>
        exact hkin hs (@Edits.edit env _ _ _ _ .refl (.revise (fun _ => ⟨rfl, rfl, rfl, fun h => nomatch h⟩) fun _ => ⟨rfl, rfl⟩))
    | some handshake =>
      by_cases hmirror : Session.asksMirror handshake
      · rw [Session.turnsMirror, hmirror, Bool.or_true, Session.hostsPort, if_pos hmirror]
        rcases h.of_mirror hmirror with ⟨hport, rfl⟩ | ⟨port, hport, rfl⟩
        · rw [Server.closed, Server.modifySession_modifySession, Server.get?_modifySession_self hs] at hy
          obtain rfl := Option.some.inj hy
          refine ⟨rfl, ?_⟩
          cases hint : (handshake.value "port").getInt with
          | ok port => exact absurd hint (hport port)
          | error e => rfl
        · rw [Server.get?_mirrored hs, if_pos rfl] at hy
          obtain rfl := Option.some.inj hy
          rw [hport]
          exact ⟨rfl, rfl⟩
      · rw [Session.turnsMirror, Bool.eq_false_iff.2 hmirror, Session.hostsPort, if_neg hmirror]
        obtain ⟨l, hedits⟩ := h.edits hs hmirror
        refine hkin ?_ hedits
        exact hs
  | heard h => exact hkin hs h
  | welcomed => exact hstart rfl
  | answered => exact hstart rfl
  | notified => exact hstart rfl
  | broadcast => exact hkin hs (@Edits.refl env _)

/-- The handshake of a mirror is answered. -/
theorem hostsPort_of_silences {op : Op} {result : Session.Completion} (h : Session.silences s sess op result) :
    Session.hostsPort op result = none := by
  cases op with
  | readHandshake =>
    cases result with
    | error => rfl
    | ok data =>
      cases data with
      | none => rfl
      | some handshake =>
        change Session.silent s sess (some handshake) at h
        rw [Session.hostsPort]
        split_ifs with hmirror
        · rw [Session.silent, if_pos hmirror] at h
          cases hint : (handshake.value "port").getInt with
          | ok port =>
            rw [hint] at h
            cases h
          | error e => rfl
        · rfl
  | _ => rfl

/-- A mirror that completes its handshake is there. -/
theorem isSome_of_hosts {e : Event} {port : ℤ} (h : s.hosts e = some (port, sid)) : (s.get? sid).isSome := by
  cases e with
  | complete k i result =>
    obtain ⟨⟨x, p⟩, hfound, hport⟩ := Option.bind_eq_some_iff.1 h
    obtain ⟨port', -, heq⟩ := Option.map_eq_some_iff.1 hport
    obtain ⟨-, rfl⟩ := Prod.mk.inj heq
    exact Option.isSome_of_mem (Server.completing_eq_some.1 hfound).1
  | _ => cases h

/-- A session whose first message is still to be read is not registered. -/
theorem Server.Sane.unregistered (h : s.Sane) {i : ℕ} {p : PendingOp} (hs : s.get? sid = some sess)
    (hp : sess.pending[i]? = some p) (hop : p.op = .readHandshake) (port : ℤ) : s.mirrors.lookup port ≠ some sid :=
  fun hlookup => (h.mirrors port sid hlookup).2 sess hs p (List.mem_of_getElem? hp) hop

end Mirrors

namespace Mirroring

/-- What holds of the server in every run whose registry is accurate. -/
structure Inv (g : Mirroring) : Prop where
  sane : g.server.Sane
  accurate : g.Accurate
  past : ∀ port k, g.latest.lookup port = some k → k < g.server.nextId

section Steps

variable {env : Env} {g : Mirroring}

theorem accurate_of_lookup (h : ∀ port sid, g.latest.lookup port = some sid → (g.server.get? sid).isSome →
    g.server.mirrors.lookup port = some sid) : g.Accurate := by
  intro port sid hlatest hthere
  have hlookup := h port sid hlatest hthere
  refine ⟨hlookup, ?_⟩
  simp only [Server.getMirrorSession, wp_bind, wp_get, hlookup]
  exact (wp_ite _ _ _).2 ⟨fun _ => ⟨rfl, rfl⟩, fun hgone => absurd hthere hgone⟩

/-- A completion leaves the entries right. -/
theorem Accurate.completed {sid i : ℕ} {sess : Session} {p : PendingOp} {result : Session.Completion} {t : Server}
    (h : g.Accurate) (hsane : g.server.Sane) (hfound : g.server.completing sid i result = some (sess, p))
    (ht : Completed env (g.server.take sid i) sid { sess with pending := sess.pending.eraseIdx i } p.op result t)
    {port : ℤ} {k : ℕ} (hk : (g.hosted (.complete sid i result)).lookup port = some k)
    (hthere : (g.server.get? k).isSome) : t.mirrors.lookup port = some k := by
  obtain ⟨hs, hp, -⟩ := Server.completing_eq_some.1 hfound
  have hmirrors : (g.server.take sid i).mirrors = g.server.mirrors := Server.modifySession_mirrors ..
  have hhosts : g.server.hosts (.complete sid i result) = (Session.hostsPort p.op result).map (·, sid) := by
    rw [Server.hosts, hfound, Option.bind_some]
  refine ht.mirrors (Server.get?_take hs i) (fun hop port' => ?_) (k := k) ?_ ?_
  · rw [hmirrors]
    exact hsane.unregistered hs hp hop port'
  · rwa [Server.take, Server.isSome_modifySession]
  · rw [hosted, hhosts] at hk
    rw [hmirrors]
    cases hport : Session.hostsPort p.op result with
    | none =>
      rw [hport] at hk
      exact (h port k hk hthere).1
    | some port' =>
      rw [hport] at hk
      by_cases heq : port = port'
      · subst heq
        exact (AList.lookup_insert _).trans ((AList.lookup_insert _).symm.trans hk)
      · exact (AList.lookup_insert_ne heq).trans (h port k ((AList.lookup_insert_ne heq).symm.trans hk) hthere).1

/-- What the destruction of a session leaves right: every entry but one of its port that
is another mirror's. -/
theorem accurate_destroy_iff {sid : ℕ} {y : Session} {r : Server}
    (hlookup : ∀ port k, g.latest.lookup port = some k → (g.server.get? k).isSome → r.mirrors.lookup port = some k)
    (hthere : ∀ k, (r.get? k).isSome = (g.server.get? k).isSome) :
    Accurate ⟨Session.destroy sid y r, g.latest⟩ ↔
      ¬ (y.isMirror ∧ ∃ k, g.latest.lookup y.mirrorPort = some k ∧ k ≠ sid ∧ (g.server.get? k).isSome) := by
  have hleft : ∀ {k}, ((Session.destroy sid y r).get? k).isSome → k ≠ sid ∧ (g.server.get? k).isSome := by
    intro k hk
    obtain ⟨x, hx⟩ := Option.isSome_iff_exists.1 hk
    obtain ⟨hne, hx⟩ := Server.get?_of_destroy hx
    exact ⟨hne, (hthere k).symm.trans (Option.isSome_of_mem hx)⟩
  by_cases hy : y.isMirror
  · have hmirrors : (Session.destroy sid y r).mirrors = r.mirrors.erase y.mirrorPort := by
      rw [Server.destroy_mirrors, if_pos hy]
    constructor
    · rintro haccurate ⟨-, k, hk, hne, hk'⟩
      have hthere' : ((Session.destroy sid y r).get? k).isSome := by
        rw [Server.get?_destroy, if_neg hne, hthere, hk']
      have hgone := (haccurate _ k hk hthere').1
      rw [hmirrors, AList.lookup_erase] at hgone
      cases hgone
    · refine fun hno => accurate_of_lookup fun port k hk hk' => ?_
      obtain ⟨hne, hk'⟩ := hleft hk'
      have hport : port ≠ y.mirrorPort := by
        rintro rfl
        exact hno ⟨hy, k, hk, hne, hk'⟩
      rw [hmirrors, AList.lookup_erase_ne hport]
      exact hlookup port k hk hk'
  · refine iff_of_true (accurate_of_lookup fun port k hk hk' => ?_) fun h => hy h.1
    rw [Server.destroy_mirrors, if_neg hy]
    exact hlookup port k hk (hleft hk').2

/-- An event that destroys no mirror erases nothing. -/
theorem iff_not_erases_of_quiet {e : Event} {P : Prop} (hnone : g.server.clears e = none) (hP : P) : P ↔ ¬ g.Erases e := by
  refine iff_of_true hP ?_
  rintro ⟨mirror, hmirror, -⟩
  rw [hnone] at hmirror
  cases hmirror

/-- **A completion**, which may destroy the session. -/
theorem Inv.completed_accurate (h : g.Inv) {sid i : ℕ} {result : Session.Completion} {sess : Session} {p : PendingOp}
    {r : Server} (hs : g.server.get? sid = some sess) (hp : sess.pending[i]? = some p)
    (hcan : Server.canComplete p result)
    (ht : Completed env (g.server.take sid i) sid { sess with pending := sess.pending.eraseIdx i } p.op result r) :
    Accurate ⟨r.reap sid, g.hosted (.complete sid i result)⟩ ↔ ¬ g.Erases (.complete sid i result) := by
  have hfound := Server.completing_eq_some.2 ⟨hs, hp, hcan⟩
  have hget := Server.get?_take hs i
  have hlookup : ∀ port k, (g.hosted (.complete sid i result)).lookup port = some k → (g.server.get? k).isSome →
      r.mirrors.lookup port = some k := fun _ _ => h.accurate.completed h.sane hfound ht
  have hthere : ∀ k, (r.get? k).isSome = (g.server.get? k).isSome := by
    obtain ⟨l, -, hgrows⟩ := ht.begins hget
    intro k
    rw [hgrows.there, Server.take, Server.isSome_modifySession]
  obtain ⟨y, hy, -, ⟨hdismisses, hreap⟩ | ⟨hnone, hreap⟩⟩ := ht.reap hs hp hcan
  · have hsilences : Session.silences g.server sess p.op result := by
      have hends := hdismisses
      rw [Server.dismisses, hfound, Option.bind_some] at hends
      split_ifs at hends with hend
      exact hend.2
    have hport := hostsPort_of_silences hsilences
    obtain ⟨hmirror, hmirrorPort⟩ := ht.mirror hget hy
    rw [hport, Option.getD_none] at hmirrorPort
    have hclears : g.server.clears (.complete sid i result) = if y.isMirror then some (sess.mirrorPort, sid) else none := by
      rw [Server.clears, hfound, Option.bind_some]
      simp only [hdismisses, true_and, hmirror, Bool.or_eq_true]
    have hhosted : g.hosted (.complete sid i result) = g.latest := by
      simp only [hosted, Server.hosts, hfound, Option.bind_some, hport, Option.map_none]
    have herases : g.Erases (.complete sid i result) ↔
        y.isMirror ∧ ∃ k, g.latest.lookup y.mirrorPort = some k ∧ k ≠ sid ∧ (g.server.get? k).isSome := by
      rw [Erases, hclears, hmirrorPort]
      constructor
      · rintro ⟨mirror, hcleared, hother⟩
        split_ifs at hcleared with hy
        · obtain rfl := Option.some.inj hcleared
          exact ⟨hy, hother⟩
        · cases hcleared
      · rintro ⟨hy, hother⟩
        exact ⟨_, by rw [if_pos hy]; rfl, hother⟩
    rw [hhosted] at hlookup ⊢
    rw [hreap, herases]
    exact accurate_destroy_iff hlookup hthere
  · refine iff_not_erases_of_quiet ?_ ?_
    · rw [Server.clears, hfound, Option.bind_some, hnone]
      exact if_neg fun hend => absurd hend.1.symm (Option.some_ne_none _)
    · rw [hreap]
      exact accurate_of_lookup fun port k hk hk' => hlookup port k hk ((hthere k).symm.trans hk')

/-- **An event keeps the registry accurate just when it erases no entry of another mirror.** -/
theorem Inv.step_accurate {e : Event} {t : Server} (h : g.Inv) (hstepped : Stepped env g.server e t) :
    Accurate ⟨t, g.hosted e⟩ ↔ ¬ g.Erases e := by
  have hkept : g.hosted e = g.latest → (∀ port k, g.latest.lookup port = some k → (t.get? k).isSome →
      (g.server.get? k).isSome ∧ (g.server.mirrors.lookup port = some k → t.mirrors.lookup port = some k)) →
      Accurate ⟨t, g.hosted e⟩ := by
    intro hsame hold
    rw [hsame]
    refine accurate_of_lookup fun port k hk hthere => ?_
    obtain ⟨hthere, hlookup⟩ := hold port k hk hthere
    exact hlookup (h.accurate port k hk hthere).1
  have hedited : ∀ {l : Starts}, Edits env g.server l t → ∀ port k, g.latest.lookup port = some k → (t.get? k).isSome →
      (g.server.get? k).isSome ∧ (g.server.mirrors.lookup port = some k → t.mirrors.lookup port = some k) := by
    intro l hedits port k _ hthere
    rw [hedits.isSome] at hthere
    exact ⟨hthere, hedits.mirrors hthere⟩
  cases hstepped with
  | idle hidle =>
    have hnone : g.server.clears e = none ∧ g.hosted e = g.latest := by
      cases e with
      | complete sid i result =>
        simp only [Server.clears, hosted, Server.hosts, hidle sid i result rfl, Option.bind_none, and_self]
      | _ => exact ⟨rfl, rfl⟩
    exact iff_not_erases_of_quiet hnone.1 (hkept hnone.2 fun _ _ _ hthere => ⟨hthere, id⟩)
  | @accepted remoteIp mirrorPort =>
    refine iff_not_erases_of_quiet rfl (hkept rfl fun port k hk hthere => ⟨?_, id⟩)
    have hget := Server.get?_of_insert (s := g.server) (t := g.server.accept remoteIp mirrorPort) rfl k
    rwa [hget, if_neg (h.past port k hk).ne] at hthere
  | @completed sid i result sess p r hs hp hcan ht =>
    exact h.completed_accurate hs hp hcan ht
  | checked hedits => exact iff_not_erases_of_quiet rfl (hkept rfl (hedited hedits))
  | broadcast _ hedits => exact iff_not_erases_of_quiet rfl (hkept rfl (hedited hedits))
  | ticked => exact iff_not_erases_of_quiet rfl (hkept rfl fun _ _ _ hthere => ⟨hthere, id⟩)
  | unwound => exact iff_not_erases_of_quiet rfl (hkept rfl fun _ _ _ hthere => absurd hthere Bool.false_ne_true)
  | stopped => exact iff_not_erases_of_quiet rfl (hkept rfl fun _ _ _ hthere => absurd hthere Bool.false_ne_true)

theorem Inv.step (h : g.Inv) {e : Event} (herases : ¬ g.Erases e) : (g.step env e).Inv where
  sane := step_sane h.sane e
  accurate := (h.step_accurate (step_stepped h.sane e)).2 herases
  past port k hk := by
    refine lt_of_lt_of_le ?_ (step_nextId h.sane e)
    change (g.hosted e).lookup port = some k at hk
    rw [hosted] at hk
    cases hhosts : g.server.hosts e with
    | none =>
      rw [hhosts] at hk
      exact h.past port k hk
    | some mirror =>
      obtain ⟨port', sid⟩ := mirror
      rw [hhosts] at hk
      by_cases heq : port = port'
      · subst heq
        obtain rfl := Option.some.inj ((AList.lookup_insert _).symm.trans hk)
        exact h.sane.heap _ (isSome_of_hosts hhosts)
      · exact h.past port k ((AList.lookup_insert_ne heq).symm.trans hk)

end Steps

/-- **The registry is accurate throughout a run just when no event of it destroys a
mirror on whose port another one is the latest and exists.** -/
theorem accurate_iff {env : Env} {g : Mirroring} (h : g.Init) (es : List Event) :
    Run.Throughout (step env) Accurate g es ↔ Run.Along (step env) (fun g e => ¬ g.Erases e) g es := by
  have hnew : ∀ port k, g.latest.lookup port ≠ some k := by
    intro port k hk
    rw [h.latest, AList.lookup_empty] at hk
    cases hk
  have hinv : g.Inv :=
    ⟨h.server.sane, fun port k hk => absurd hk (hnew port k), fun port k hk => absurd hk (hnew port k)⟩
  refine Run.throughout_iff_along (I := Inv) (fun _ hg => hg.accurate) (fun _ _ hg herases => hg.step herases)
    (fun g e hg herases haccurate => herases ?_) hinv es
  exact (hg.step_accurate (step_stepped hg.sane e)).1 haccurate

def init : Mirroring := ⟨.init, ∅⟩

theorem init_init : Init init := ⟨Server.init_init, rfl⟩

/-- A mirror connects, and then its successor on the same port. -/
def successorRun : List Event := Server.hostsAt 0 "192.0.2.1" 40000 ++ Server.hostsAt 1 "192.0.2.1" 40000

/-- The connection of the first mirror ends. -/
def erasedRun : List Event := successorRun ++ [.complete 0 0 .error]

theorem accurate_successor : Run.Throughout (step .reliable) Accurate init successorRun :=
  (accurate_iff init_init successorRun).2 (by decide +kernel)

/-- The successor is there and not registered. -/
theorem not_accurate_erased : ¬ Run.Throughout (step .reliable) Accurate init erasedRun := by
  intro h
  have hlast : (erasedRun.foldl (step .reliable) init).latest.lookup 40000 = some 1 ∧
      ((erasedRun.foldl (step .reliable) init).server.get? 1).isSome ∧
      (erasedRun.foldl (step .reliable) init).server.mirrors.lookup 40000 = none := by decide +kernel
  have hregistered := (h.last 40000 1 hlast.1 hlast.2.1).1
  rw [hlast.2.2] at hregistered
  cases hregistered

end Mirroring

end Matching
end SocketCommunication
