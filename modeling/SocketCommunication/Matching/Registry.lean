/-
# The registry of sessions

`sessions_` maps tokens to `weak_ptr`s.  `setSessionStatus` locks them without a
null check, and `getCCU` and `broadcastCCU` take their number for the number of
sessions.  All of that rests on `Listed`: every entry is that of a session that is
there and has its token.  An entry of a session is therefore the only one, so that
`registerSession` drops all there is, and the destructor, which knows the token,
leaves none (`Stepped.listed`).
-/

import SocketCommunication.Matching.Completions
import SocketCommunication.Matching.Tokens

namespace SocketCommunication
namespace Matching

open Effect

namespace Server

/-- **Every entry of `sessions_` is that of a session that is there and has its token.** -/
def Listed (s : Server) : Prop :=
  ∀ token sid, s.sessions.lookup token = some sid → token ≠ "" ∧ ∃ x, s.get? sid = some x ∧ x.token = token

/-- `getSession`; nothing calls it. -/
def getSession (token : String) : ServerM (Option ℕ) := do
  let s ← get
  match s.sessions.lookup token with
  | none => return none
  | some sid =>
    if (s.get? sid).isSome then return some sid
    else
      set { s with sessions := s.sessions.erase token }
      return none

section Registry

variable {env : Env} {s t : Server} {sid : ℕ} {sess : Session}

/-- No session has two entries. -/
theorem Listed.unique (h : s.Listed) {token token' : String} (htoken : s.sessions.lookup token = some sid)
    (htoken' : s.sessions.lookup token' = some sid) : token = token' := by
  obtain ⟨-, x, hx, rfl⟩ := h token sid htoken
  obtain ⟨-, y, hy, rfl⟩ := h token' sid htoken'
  rw [Option.some.inj (hx.symm.trans hy)]

/-- If a session has no two entries, none is left when one was dropped. -/
theorem lookup_dropEntry {κ : Type} [DecidableEq κ] {l : AList fun _ : κ => ℕ}
    (h : ∀ k k', l.lookup k = some sid → l.lookup k' = some sid → k = k') (k : κ) :
    (dropEntry env l sid).lookup k ≠ some sid := by
  intro hk
  have hmem : ∀ {e : Sigma fun _ : κ => ℕ}, e ∈ env.order 0 l.entries ↔ l.lookup e.1 = some e.2 := by
    intro e
    rw [Env.mem_order]
    exact AList.mem_lookup_iff.symm
  rw [dropEntry, entryOf] at hk
  cases hfind : (env.order 0 l.entries).find? fun e => e.2 = sid with
  | none =>
    rw [hfind] at hk
    have hno := List.find?_eq_none.1 hfind ⟨k, sid⟩ (hmem.2 hk)
    exact hno (decide_eq_true rfl)
  | some e =>
    rw [hfind] at hk
    have he : l.lookup e.1 = some sid := by
      have hsid : e.2 = sid := by simpa using List.find?_some hfind
      rw [hmem.1 (List.mem_of_find?_eq_some hfind), hsid]
    obtain rfl := h k e.1 (lookup_of_erase hk) he
    rw [Option.map_some, AList.lookup_erase] at hk
    cases hk

/-- Where no entry is new and no session has lost its token. -/
theorem Listed.of_le (h : s.Listed)
    (hsessions : ∀ token sid, t.sessions.lookup token = some sid → s.sessions.lookup token = some sid)
    (hget : ∀ token sid x, t.sessions.lookup token = some sid → s.get? sid = some x →
      ∃ y, t.get? sid = some y ∧ y.token = x.token) : t.Listed := by
  intro token sid htoken
  obtain ⟨hne, x, hx, rfl⟩ := h token sid (hsessions token sid htoken)
  obtain ⟨y, hy, hyx⟩ := hget _ sid x htoken hx
  exact ⟨hne, y, hy, hyx⟩

theorem Listed.modify (h : s.Listed) {f : Session → Session} (hf : ∀ x, (f x).token = x.token) :
    (modifySession sid f s).Listed := by
  refine h.of_le (fun token k hk => by rwa [modifySession_sessions] at hk) fun token k x _ hx => ?_
  by_cases hsid : k = sid
  · subst hsid
    exact ⟨f x, get?_modifySession_self hx, hf x⟩
  · exact ⟨x, by rw [get?_modifySession_of_ne hsid, hx], rfl⟩

/-- `registerSession` drops the entry of the session that it registers. -/
theorem Listed.registered (h : s.Listed) (hs : (s.get? sid).isSome) : (s.registered env sid sess).Listed := by
  obtain ⟨x, hx⟩ := Option.isSome_iff_exists.1 hs
  intro token k hk
  rw [Server.registered, modifySession_sessions] at hk
  by_cases htoken : token = env.uuid s.uuids
  · subst htoken
    rw [AList.lookup_insert, Option.some.injEq] at hk
    subst hk
    exact ⟨env.uuid_ne s.uuids, _, get?_registered hx, rfl⟩
  · rw [AList.lookup_insert_ne htoken] at hk
    have hne : k ≠ sid := fun hk' => lookup_dropEntry (fun _ _ => h.unique) token (hk' ▸ hk)
    have hold : s.sessions.lookup token = some k := by
      rw [dropEntry] at hk
      split at hk
      · exact lookup_of_erase hk
      · exact hk
    obtain ⟨hempty, y, hy, hyt⟩ := h token k hold
    refine ⟨hempty, y, ?_, hyt⟩
    rw [Server.registered, get?_modifySession_of_ne hne]
    exact hy

theorem Listed.start (h : s.Listed) (op : Op) : (Server.start sid op s).Listed := h.modify fun _ => rfl

theorem Listed.closed (h : s.Listed) : (s.closed sid).Listed := h.modify fun _ => rfl

theorem Listed.checked (h : s.Listed) : (s.checked sid sess).Listed := by
  unfold Server.checked
  split_ifs
  · exact (h.start _).closed
  · exact h

theorem Listed.mirrored {port : ℤ} (h : s.Listed) : (s.mirrored env sid port).Listed := by
  have hmirror : (modifySession sid (fun x => { x with isMirror := true }) s).Listed := h.modify fun _ => rfl
  have hported : (modifySession sid (fun x => { x with mirrorPort := port })
      (modifySession sid (fun x => { x with isMirror := true }) s)).Listed := hmirror.modify fun _ => rfl
  unfold Server.mirrored
  generalize modifySession sid (fun x => { x with mirrorPort := port })
    (modifySession sid (fun x => { x with isMirror := true }) s) = t at hported
  have hregistered : Listed { t with mirrors := (dropEntry env t.mirrors sid).insert port sid } := hported
  exact (hregistered.modify (f := fun x => { x with userId := port }) fun _ => rfl).start _

end Registry

end Server

/-! ### Steps -/

section Steps

open Server

variable {env : Env} {s t : Server} {sid : ℕ} {sess : Session}

theorem Edit.listed (h : Edit env s t) (hs : s.Listed) : t.Listed := by
  cases h with
  | database => exact hs
  | revise _ hsame => exact hs.modify fun x => (hsame x).1
  | forget => exact hs
  | expire => exact hs.of_le (fun _ _ => lookup_of_erase) fun _ _ x _ hx => ⟨x, hx, rfl⟩
  | register hget => exact hs.registered (Option.isSome_of_mem hget)

theorem Edits.listed {l : Starts} (h : Edits env s l t) (hs : s.Listed) : t.Listed := by
  induction h with
  | refl => exact hs
  | edit _ hedit ih => exact hedit.listed ih
  | start _ _ ih => exact ih.start _

theorem Greets.listed {data : Option Json} (h : Greets env s sid sess data t) (hget : s.get? sid = some sess)
    (hs : s.Listed) : t.Listed := by
  have hsome : ((s.checked sid sess).get? sid).isSome := by
    obtain ⟨x, hx, -⟩ := Server.get?_checked hget
    exact Option.isSome_of_mem hx
  have hregistered : ((s.checked sid sess).registered env sid sess).Listed := hs.checked.registered hsome
  cases h with
  | malformed => exact hs.closed
  | portless => exact Listed.closed (hs.modify fun _ => rfl)
  | mirror => exact hs.mirrored
  | refused => exact hs.checked.closed
  | welcomed => exact hregistered.start _
  | asked _ _ _ _ _ hedits => exact hedits.listed hregistered
  | unreadable => exact hregistered.closed

theorem Completed.listed {op : Op} {result : Session.Completion} (h : Completed env s sid sess op result t)
    (hget : s.get? sid = some sess) (hs : s.Listed) : t.Listed := by
  cases h with
  | failed => exact (Edits.refl.ended sess).listed hs
  | greeted h => exact h.listed hget hs
  | heard h => exact h.listed hs
  | welcomed => exact hs.start _
  | answered => exact hs.start _
  | notified => exact hs.start _
  | broadcast => exact hs

/-- The destructor erases the entry of the token of its session, which is all there is. -/
theorem Server.Listed.destroy (h : s.Listed) (hget : s.get? sid = some sess) :
    (Session.destroy sid sess s).Listed := by
  have hsessions := destroy_sessions sid sess s
  have hold : ∀ token k, (Session.destroy sid sess s).sessions.lookup token = some k →
      s.sessions.lookup token = some k := by
    intro token k hk
    rw [hsessions] at hk
    split_ifs at hk
    · exact lookup_of_erase hk
    · exact hk
  refine h.of_le hold fun token k x hk hx => ⟨x, ?_, rfl⟩
  rw [get?_destroy, if_neg, hx]
  rintro rfl
  obtain ⟨hne, y, hy, rfl⟩ := h token k (hold token k hk)
  obtain rfl := Option.some.inj (hy.symm.trans hget)
  rw [hsessions, if_pos hne, AList.lookup_erase] at hk
  cases hk

theorem Server.Listed.reap (h : s.Listed) (sid : ℕ) : (s.reap sid).Listed := by
  rcases reap_cases sid s with ⟨hreap, -⟩ | ⟨x, hx, -, hreap⟩
  · rwa [hreap]
  · rw [hreap]
    exact h.destroy hx

/-- A new session is not one of those that are listed. -/
theorem Server.Listed.accept (h : s.Listed) (hsane : s.Sane) (remoteIp : String) (mirrorPort : ℤ) :
    (s.accept remoteIp mirrorPort).Listed := by
  refine h.of_le (fun _ _ hk => hk) fun token k x _ hx => ⟨x, ?_, rfl⟩
  have hne : k ≠ s.nextId := (hsane.heap k (Option.isSome_of_mem hx)).ne
  have hget := get?_of_insert (s := s) (t := s.accept remoteIp mirrorPort) rfl k
  rwa [if_neg hne, hx] at hget

theorem Stepped.listed {e : Event} (h : Stepped env s e t) (hsane : s.Sane) (hs : s.Listed) : t.Listed := by
  cases h with
  | idle => exact hs
  | accepted => exact hs.accept hsane _ _
  | completed hget _ _ h => exact (h.listed (get?_take hget _) (hs.modify fun _ => rfl)).reap _
  | checked h => exact h.listed hs
  | broadcast _ h => exact h.listed hs
  | ticked => exact hs
  | unwound => exact fun token sid hk => nomatch hk
  | stopped => exact fun token sid hk => nomatch hk

theorem Server.Init.listed (h : Server.Init s) : s.Listed := by
  intro token sid hk
  rw [h.sessions] at hk
  cases hk

theorem listed_of_reachable (h : Reachable env s) : s.Listed := by
  have hinv : s.Sane ∧ s.Listed :=
    Run.Reachable.inv (I := fun s : Server => s.Sane ∧ s.Listed) (fun s₀ h₀ => ⟨h₀.sane, h₀.listed⟩)
      (fun s e hs => ⟨step_sane hs.1 e, (step_stepped hs.1 e).listed hs.1 hs.2⟩) h
  exact hinv.2

end Steps

/-! ### What rests on it -/

namespace Server

section Uses

variable {env : Env} {s t : Server}

/-- The entries are those of as many sessions. -/
theorem Listed.nodup (h : s.Listed) : (s.sessions.entries.map fun e => e.2).Nodup := by
  refine List.Nodup.map_on (fun e he e' he' hsid => ?_) s.sessions.nodupKeys.nodup
  have hlookup : s.sessions.lookup e.1 = some e.2 := AList.mem_lookup_iff.2 he
  have hlookup' : s.sessions.lookup e'.1 = some e.2 := hsid ▸ AList.mem_lookup_iff.2 he'
  exact Sigma.ext (h.unique hlookup hlookup') (heq_of_eq hsid)

/-- A broadcast lists a session once. -/
theorem Listed.nodup_users (h : s.Listed) : ((s.users env).map (·.1)).Nodup := by
  have hentries : ((s.entries env).map (·.2)).Nodup := by
    rw [entries, List.map_map]
    exact ((env.order_perm 0 s.sessions.entries).map _).nodup_iff.2 h.nodup
  have hpairs := List.pairwise_map.1 hentries
  have hfst : ∀ {e : String × ℕ} {u : ℕ × Session},
      ((s.get? e.2).bind fun sess => if sess.userId ≠ 0 then some (e.2, sess) else none) = some u → u.1 = e.2 := by
    intro e u hu
    obtain ⟨x, -, hx⟩ := Option.bind_eq_some_iff.1 hu
    split_ifs at hx
    rw [← Option.some.inj hx]
  rw [List.Nodup, List.pairwise_map, users, List.pairwise_filterMap]
  refine hpairs.imp fun hne u hu u' hu' heq => hne ?_
  rw [← hfst hu, ← hfst hu', heq]

/-- The registry is as it was, and the objects are there that were. -/
def SameEntries (s t : Server) : Prop :=
  t.sessions = s.sessions ∧ ∀ sid, (t.get? sid).isSome = (s.get? sid).isSome

theorem tokensOf_same (users : List Json) : wp (tokensOf users) (fun _ t => t = s) (fun _ t => t = s) s := by
  induction users with
  | nil => rfl
  | cons user users ih =>
    simp only [tokensOf, wp_bind, wp_orThrow, wp_get, wp_pure]
    exact ⟨fun u _ => ih, fun _ _ => trivial⟩

/-- **Where every entry is that of a session that is there, no null pointer is
dereferenced**: the process goes on. -/
theorem setStatuses_same (hs : ∀ token sid, s.sessions.lookup token = some sid → (s.get? sid).isSome) (status : String)
    (tokens : List String) (ht : SameEntries s t) :
    wp (setStatuses status tokens) (fun _ => SameEntries s) (fun _ _ => False) t := by
  induction tokens generalizing t with
  | nil => exact ht
  | cons token tokens ih =>
    simp only [setStatuses, wp_bind, wp_get]
    cases hlookup : t.sessions.lookup token with
    | none => exact ih ht
    | some sid =>
      have hthere : (t.get? sid).isSome := by
        rw [ht.2]
        exact hs token sid (ht.1 ▸ hlookup)
      simp only [hthere, if_true, wp_bind, wp_modify]
      refine ih ⟨?_, fun k => ?_⟩
      · rw [modifySession_sessions, ht.1]
      · rw [isSome_modifySession, ht.2]

/-- **The registry of sessions is in order.** -/
structure Registry (env : Env) (s : Server) : Prop where
  entry : ∀ token sid, s.sessions.lookup token = some sid → ∃ x, s.get? sid = some x ∧ x.token = token
  /-- No session has two entries. -/
  single : (s.sessions.entries.map fun e => e.2).Nodup
  /-- In a handler that has changed neither registry nor objects, and for every
  list of users, `setSessionStatus` does not end the process. -/
  status : ∀ t, SameEntries s t → ∀ users flag,
    wp (setSessionStatus users flag) (fun _ => SameEntries s) (fun _ => SameEntries s) t
  /-- No entry is stale. -/
  session : ∀ token, wp (getSession token) (fun r t => r = s.sessions.lookup token ∧ t = s) (fun _ _ => False) s
  /-- The number of sessions is that of some sessions that are there, each counted once. -/
  count : ∃ sids : List ℕ, sids.Nodup ∧ (∀ sid ∈ sids, (s.get? sid).isSome) ∧ getCCU s = .ok (sids.length : ℤ) s
  /-- A broadcast lists a session once. -/
  users : ((s.users env).map (·.1)).Nodup

theorem Listed.registry (h : s.Listed) : s.Registry env := by
  have hthere : ∀ token sid, s.sessions.lookup token = some sid → (s.get? sid).isSome := by
    intro token sid hlookup
    obtain ⟨-, x, hx, -⟩ := h token sid hlookup
    exact Option.isSome_of_mem hx
  refine ⟨fun token sid hlookup => (h token sid hlookup).2, h.nodup, fun t ht users flag => ?_, fun token => ?_,
    ⟨_, h.nodup, fun sid hsid => ?_, ?_⟩, h.nodup_users⟩
  · rw [setSessionStatus, wp_bind]
    refine wp_mono (fun tokens r hr => ?_) (fun _ r hr => ?_) (@tokensOf_same t _)
    · rw [hr]
      exact wp_mono (fun _ _ h => h) (fun _ _ h => h.elim) (setStatuses_same hthere _ tokens ht)
    · rw [hr]
      exact ht
  · simp only [getSession, wp_bind, wp_get]
    cases hlookup : s.sessions.lookup token with
    | none => exact ⟨rfl, rfl⟩
    | some sid =>
      exact (wp_ite _ _ _).2 ⟨fun _ => ⟨rfl, rfl⟩, fun hgone => absurd (hthere token sid hlookup) hgone⟩
  · obtain ⟨e, he, rfl⟩ := List.mem_map.1 hsid
    exact hthere e.1 e.2 (AList.mem_lookup_iff.2 he)
  · rw [List.length_map]
    rfl

/-- **The registry is in order in every reachable state.** -/
theorem registry_of_reachable (h : Reachable env s) : s.Registry env := (listed_of_reachable h).registry

/-- Two clients connect, and one of them logs in. -/
theorem registry_rivalRun : Registry .reliable (rivalRun.foldl (step .reliable) init) :=
  registry_of_reachable ⟨init, init_init, rivalRun, rfl⟩

end Uses

end Server

end Matching
end SocketCommunication
