/-
# `tokens_`, the table of logged in users

A login is refused while `tokens_` has an entry for the user; the entry is made
by the login and erased by the destructor of the session, under the `user_id_`
that the session has then.

At most one session is logged in as a user, and the entry is its token
(`exclusive_of_reachable`).  The entry outlives the session when the session is
logged in as somebody else in between (`not_noLockOut_relogin`); in a run
without such logins it does not (`noLockOut_throughout`).
-/

import SocketCommunication.Matching.Identities

namespace SocketCommunication
namespace Matching

open Effect

/-- The session `sid` has answered a login as `u` with success. -/
def LoginAnswered (trace : List Act) (sid : ℕ) (u : ℤ) : Prop :=
  ∃ action response, .answered sid action response ∈ trace ∧ isLogin action ∧ response.succeeds ∧
    response.value "userId" = .int u

section Answers

variable {trace : List Act} {sid sid' : ℕ} {u : ℤ}

theorem loginAnswered_handled {type : ControllerType} {request : Json} :
    LoginAnswered (.handled sid' type request :: trace) sid u ↔ LoginAnswered trace sid u := by
  simp [LoginAnswered]

theorem loginAnswered_answered {action : String} {response : Json} :
    LoginAnswered (.answered sid' action response :: trace) sid u ↔
      (sid = sid' ∧ isLogin action ∧ response.succeeds ∧ response.value "userId" = .int u) ∨
        LoginAnswered trace sid u := by
  simp only [LoginAnswered, List.mem_cons, Act.answered.injEq, or_and_right, exists_or]
  refine or_congr_left ⟨?_, fun ⟨hsid, h⟩ => ⟨action, response, ⟨hsid, rfl, rfl⟩, h⟩⟩
  rintro ⟨action', response', ⟨rfl, rfl, rfl⟩, h⟩
  exact ⟨rfl, h⟩

instance decidableLoginAnswered (sid : ℕ) (u : ℤ) : ∀ trace, Decidable (LoginAnswered trace sid u)
  | [] => isFalse (by simp [LoginAnswered])
  | .handled .. :: past =>
    have := decidableLoginAnswered sid u past
    decidable_of_iff _ loginAnswered_handled.symm
  | .answered .. :: past =>
    have := decidableLoginAnswered sid u past
    decidable_of_iff _ loginAnswered_answered.symm

/-- An answer that is no login adds none. -/
theorem loginAnswered_of_not {action : String} {response : Json} (h : ¬ (isLogin action ∧ response.succeeds)) :
    LoginAnswered (.answered sid' action response :: trace) sid u ↔ LoginAnswered trace sid u := by
  rw [loginAnswered_answered]
  exact or_iff_right fun hnew => h ⟨hnew.2.1, hnew.2.2.1⟩

theorem LoginAnswered.mono {trace' : List Act} (h : LoginAnswered trace sid u) (hsub : trace ⊆ trace') :
    LoginAnswered trace' sid u := by
  obtain ⟨action, response, hmem, hrest⟩ := h
  exact ⟨action, response, hsub hmem, hrest⟩

theorem not_loginAnswered (h : ∀ act ∈ trace, act.sid ≠ sid) : ¬ LoginAnswered trace sid u := by
  rintro ⟨action, response, hmem, -⟩
  exact h _ hmem rfl

/-- The sessions after one of them was written. -/
theorem update_eq_some {who : ℕ → Option Identity} {x : Option Identity} {i : Identity}
    (h : Function.update who sid x sid' = some i) : (sid' = sid ∧ x = some i) ∨ (sid' ≠ sid ∧ who sid' = some i) := by
  by_cases hsid : sid' = sid
  · rw [hsid, Function.update_self] at h
    exact .inl ⟨hsid, h⟩
  · rw [Function.update_of_ne hsid] at h
    exact .inr ⟨hsid, h⟩

/-- Nobody is somebody after a handshake. -/
theorem Turns.nobody {i j : Identity} (h : Turns i j) : j.userId = 0 ∨ j.token = "" := by
  cases h with
  | mirror huser => exact .inl huser
  | port _ _ htoken => exact .inr htoken
  | token huser => exact .inl huser

theorem Turns.fresh {i j : Identity} (h : Turns i j) : i.userId = 0 := by
  cases h <;> assumption

theorem Turns.keeps_token {i j : Identity} (h : Turns i j) (hi : i.token ≠ "") : j.token ≠ "" := by
  cases h with
  | mirror _ htoken => exact absurd htoken hi
  | port _ _ htoken => exact absurd htoken hi
  | token _ htoken => exact htoken

end Answers

/-! ### Exclusivity -/

namespace Server

/-- The session `sid` is there and logged in as `u`. -/
def LoggedIn (s : Server) (sid : ℕ) (u : ℤ) : Prop :=
  (∃ sess, s.get? sid = some sess ∧ sess.userId = u) ∧ LoginAnswered s.trace sid u

/-- **No two sessions are logged in as one user**, and `tokens_` has the token of
the one that is. -/
structure Exclusive (s : Server) : Prop where
  unique : ∀ u > 0, ∀ sid sid', s.LoggedIn sid u → s.LoggedIn sid' u → sid = sid'
  token : ∀ u > 0, ∀ sid sess, s.LoggedIn sid u → s.get? sid = some sess → s.tokens.lookup u = some sess.token

/-- A session with a token and a user has the entry of `tokens_`, alone; one that
has answered a login has a token. -/
structure Keyed (s : Server) : Prop where
  token : ∀ sid i, s.who sid = some i → 0 < i.userId → i.token ≠ "" → s.tokens.lookup i.userId = some i.token
  unique : ∀ sid sid' i j, s.who sid = some i → s.who sid' = some j → 0 < i.userId → i.userId = j.userId →
    i.token ≠ "" → j.token ≠ "" → sid = sid'
  answered : ∀ sid i u, s.who sid = some i → LoginAnswered s.trace sid u → i.token ≠ ""

theorem Init.keyed {s : Server} (h : Init s) : s.Keyed := by
  have hwho : ∀ sid i, s.who sid ≠ some i := by
    intro sid i hi
    rw [who_of_empty h.heap] at hi
    cases hi
  exact ⟨fun sid i hi => absurd hi (hwho sid i), fun sid _ i _ hi => absurd hi (hwho sid i),
    fun sid i _ hi => absurd hi (hwho sid i)⟩

variable {L : Licence} {s t : Server}

/-- A session becomes somebody without a token, or nobody with one. -/
theorem Keyed.nobody {sid : ℕ} {j : Identity} (h : s.Keyed) (hwho : t.who = Function.update s.who sid (some j))
    (htokens : t.tokens = s.tokens) (htrace : t.trace = s.trace) (hj : ¬ (0 < j.userId ∧ j.token ≠ ""))
    (hanswered : ∀ u, LoginAnswered s.trace sid u → j.token ≠ "") : t.Keyed where
  token sid' i hi hpos htoken := by
    rw [hwho] at hi
    rw [htokens]
    rcases update_eq_some hi with ⟨-, hj'⟩ | ⟨-, hi⟩
    · obtain rfl := Option.some.inj hj'
      exact absurd ⟨hpos, htoken⟩ hj
    · exact h.token sid' i hi hpos htoken
  unique sid₁ sid₂ i₁ i₂ h₁ h₂ hpos heq ht₁ ht₂ := by
    rw [hwho] at h₁ h₂
    rcases update_eq_some h₁ with ⟨-, hj'⟩ | ⟨-, h₁⟩
    · obtain rfl := Option.some.inj hj'
      exact absurd ⟨hpos, ht₁⟩ hj
    rcases update_eq_some h₂ with ⟨-, hj'⟩ | ⟨-, h₂⟩
    · obtain rfl := Option.some.inj hj'
      exact absurd ⟨heq ▸ hpos, ht₂⟩ hj
    exact h.unique sid₁ sid₂ i₁ i₂ h₁ h₂ hpos heq ht₁ ht₂
  answered sid' i u hi hans := by
    rw [hwho] at hi
    rw [htrace] at hans
    rcases update_eq_some hi with ⟨rfl, hj'⟩ | ⟨-, hi⟩
    · obtain rfl := Option.some.inj hj'
      exact hanswered u hans
    · exact h.answered sid' i u hi hans

/-- A user that is not in `tokens_` logs in. -/
theorem Keyed.login {sid : ℕ} {i : Identity} {u : ℤ} {token action : String} {response : Json} (h : s.Keyed)
    (hfree : s.tokens.lookup u = none) (htoken : token ≠ "")
    (hwho : t.who = Function.update s.who sid (some { i with userId := u, token }))
    (htokens : t.tokens = if u ≠ 0 then s.tokens.insert u token else s.tokens)
    (htrace : t.trace = .answered sid action response :: s.trace) : t.Keyed where
  token sid' j hj hpos ht := by
    rw [hwho] at hj
    rcases update_eq_some hj with ⟨-, hj⟩ | ⟨-, hj⟩
    · obtain rfl := Option.some.inj hj
      rw [htokens, if_pos (ne_of_gt hpos), AList.lookup_insert]
    · have hold := h.token sid' j hj hpos ht
      have hne : j.userId ≠ u := fun he => by rw [he, hfree] at hold; cases hold
      rw [htokens]
      split_ifs
      · rw [AList.lookup_insert_ne hne, hold]
      · exact hold
  unique sid₁ sid₂ i₁ i₂ h₁ h₂ hpos heq ht₁ ht₂ := by
    have hother : ∀ {k j}, s.who k = some j → 0 < j.userId → j.token ≠ "" → j.userId ≠ u := by
      intro k j hj hpos ht he
      have hold := h.token k j hj hpos ht
      rw [he, hfree] at hold
      cases hold
    rw [hwho] at h₁ h₂
    rcases update_eq_some h₁ with ⟨hsid₁, hj₁⟩ | ⟨-, k₁⟩ <;> rcases update_eq_some h₂ with ⟨hsid₂, hj₂⟩ | ⟨-, k₂⟩
    · rw [hsid₁, hsid₂]
    · obtain rfl := Option.some.inj hj₁
      exact absurd heq.symm (hother k₂ (heq ▸ hpos) ht₂)
    · obtain rfl := Option.some.inj hj₂
      exact absurd heq (hother k₁ hpos ht₁)
    · exact h.unique sid₁ sid₂ i₁ i₂ k₁ k₂ hpos heq ht₁ ht₂
  answered sid' j v hj hans := by
    rw [hwho] at hj
    rw [htrace, loginAnswered_answered] at hans
    rcases update_eq_some hj with ⟨-, hj⟩ | ⟨hne, hj⟩
    · obtain rfl := Option.some.inj hj
      exact htoken
    · exact h.answered sid' j v hj (hans.resolve_left fun hnew => hne hnew.1)

/-- A session is destroyed, and the entry of its user erased with it. -/
theorem Keyed.destroy {sid : ℕ} {i : Identity} (h : s.Keyed) (hs : s.who sid = some i)
    (hwho : t.who = Function.update s.who sid none)
    (htokens : t.tokens = if i.token ≠ "" then s.tokens.erase i.userId else s.tokens)
    (htrace : t.trace = s.trace) : t.Keyed := by
  have hold : ∀ {k j}, t.who k = some j → k ≠ sid ∧ s.who k = some j := by
    intro k j hj
    rw [hwho] at hj
    rcases update_eq_some hj with ⟨-, hj⟩ | hj
    · cases hj
    · exact hj
  refine ⟨fun k j hj hpos ht => ?_, fun k l j j' hj hj' => h.unique k l j j' (hold hj).2 (hold hj').2,
    fun k j u hj hans => h.answered k j u (hold hj).2 (htrace ▸ hans)⟩
  obtain ⟨hne, hj⟩ := hold hj
  rw [htokens]
  split_ifs with hi
  · have hdiff : j.userId ≠ i.userId := fun he => hne (h.unique k sid j i hj hs hpos he ht hi)
    rw [AList.lookup_erase_ne hdiff]
    exact h.token k j hj hpos ht
  · exact h.token k j hj hpos ht

theorem Keyed.step (h : s.Keyed) (hchange : WhoChange L s t) : t.Keyed := by
  cases hchange with
  | same hwho htokens htrace => exact ⟨hwho ▸ htokens ▸ h.token, hwho ▸ h.unique, hwho ▸ htrace ▸ h.answered⟩
  | called _ _ _ hwho htokens htrace =>
    refine ⟨hwho ▸ htokens ▸ h.token, hwho ▸ h.unique, fun sid i u hi hans => h.answered sid i u (hwho ▸ hi) ?_⟩
    rwa [htrace, loginAnswered_handled] at hans
  | answered hnot hwho htokens htrace =>
    refine ⟨hwho ▸ htokens ▸ h.token, hwho ▸ h.unique, fun sid i u hi hans => h.answered sid i u (hwho ▸ hi) ?_⟩
    rwa [htrace, loginAnswered_of_not hnot] at hans
  | turned hs hturn hwho htokens htrace =>
    refine h.nobody hwho htokens htrace ?_ fun u hans => hturn.keeps_token (h.answered _ _ u hs hans)
    rintro ⟨hpos, htoken⟩
    exact hturn.nobody.elim (fun hzero => absurd hzero hpos.ne') htoken
  | @halfLogin sid i hs _ hwho htokens htrace =>
    have hneg : ¬ (0 : ℤ) < -1 := by decide
    exact h.nobody hwho htokens htrace (fun hj => hneg hj.1) fun u hans => h.answered sid i u hs hans
  | login _ _ hfree htoken _ _ _ hwho htokens htrace => exact h.login hfree htoken hwho htokens htrace
  | accept _ hpast hwho htokens htrace =>
    exact h.nobody hwho htokens htrace (fun hj => hj.2 rfl) fun u hans => absurd hans (not_loginAnswered hpast)
  | destroy hs hwho htokens htrace => exact h.destroy hs hwho htokens htrace
  | halt hwho =>
    have hnone : ∀ {k j}, t.who k ≠ some j := fun {k j} hj => by rw [hwho] at hj; cases hj
    exact ⟨fun _ _ hj => absurd hj hnone, fun _ _ _ _ hj => absurd hj hnone, fun _ _ _ hj => absurd hj hnone⟩

theorem Keyed.exclusive (h : s.Keyed) : s.Exclusive where
  unique := by
    rintro u hpos sid sid' ⟨⟨x, hx, rfl⟩, hans⟩ ⟨⟨y, hy, hxy⟩, hans'⟩
    have hi := who_of_get? hx
    have hj := who_of_get? hy
    exact h.unique sid sid' _ _ hi hj hpos hxy.symm (h.answered sid _ _ hi hans) (h.answered sid' _ _ hj hans')
  token := by
    rintro u hpos sid sess ⟨⟨x, hx, rfl⟩, hans⟩ hget
    obtain rfl := Option.some.inj (hx.symm.trans hget)
    have hi := who_of_get? hx
    exact h.token sid _ hi hpos (h.answered sid _ _ hi hans)

theorem keyed_of_reachable {env : Env} {s : Server} (h : Reachable env s) : s.Keyed := by
  have hinv : s.Sane ∧ s.Keyed :=
    Run.Reachable.inv (I := fun s : Server => s.Sane ∧ s.Keyed) (fun _ h => ⟨h.sane, h.keyed⟩)
      (fun _ e hs => step_inv (I := Keyed) (fun _ _ hsane hk hchange => hk.step (hchange.whoChange hsane)) hs.1 hs.2
        (licensed_free e)) h
  exact hinv.2

/-- **Logins are exclusive in every reachable state.** -/
theorem exclusive_of_reachable {env : Env} {s : Server} (h : Reachable env s) : s.Exclusive :=
  (keyed_of_reachable h).exclusive

/-- Two clients ask for the same account, one after the other. -/
def rivalRun : List Event :=
  connects 0 "192.0.2.1" ++ connects 1 "192.0.2.2" ++ sends 0 (credentials "login" "rnqhscjf3333" "admin") ++
    sends 1 (credentials "login" "rnqhscjf3333" "admin")

theorem exclusive_rivalRun : (rivalRun.foldl (step .reliable) init).Exclusive :=
  exclusive_of_reachable ⟨init, init_init, rivalRun, rfl⟩

/-! ### Lock-out -/

/-- **Every entry of `tokens_` is that of a user who has a session.** -/
def TokensHeld (s : Server) : Prop :=
  ∀ u, (s.tokens.lookup u).isSome → ∃ sid sess, s.get? sid = some sess ∧ sess.userId = u

/-- A user without a session may log in. -/
theorem TokensHeld.checkAlreadyLogin {s : Server} (h : s.TokensHeld) {u : ℤ}
    (hgone : ∀ sid sess, s.get? sid = some sess → sess.userId ≠ u) :
    Server.checkAlreadyLogin u s = .ok false s := by
  have hnone : (s.tokens.lookup u).isSome = false := Bool.eq_false_iff.2 fun hsome => by
    obtain ⟨sid, sess, hget, hu⟩ := h u hsome
    exact hgone sid sess hget hu
  exact congrArg (EStateM.Result.ok · s) hnone

/-- Every entry of `tokens_` is held by a session with that token. -/
def Held (s : Server) : Prop :=
  ∀ u token, s.tokens.lookup u = some token → u ≠ 0 ∧ token ≠ "" ∧
    ∃ sid i, s.who sid = some i ∧ i.userId = u ∧ i.token = token

/-- A deed that makes the holder of an entry of `tokens_` somebody else. -/
def Relogs (s : Server) : Deed → Prop
  | .login i _ => s.tokens.lookup i.userId = some i.token
  | .call .. => False

instance (s : Server) : (d : Deed) → Decidable (s.Relogs d)
  | .login i _ => inferInstanceAs (Decidable (s.tokens.lookup i.userId = some i.token))
  | .call .. => inferInstanceAs (Decidable False)

/-- No login is granted to a session that holds an entry of `tokens_`. -/
def NoRelogin (env : Env) (s : Server) (e : Event) : Prop := ∀ x ∈ s.deeds env e, ¬ s.Relogs x.2

instance (env : Env) (s : Server) (e : Event) : Decidable (s.NoRelogin env e) :=
  inferInstanceAs (Decidable (∀ x ∈ s.deeds env e, ¬ s.Relogs x.2))

/-- Logins that leave `tokens_` in order. -/
def loginsOfOthers : Licence where
  call _ _ _ _ := True
  login t _ i _ := t.tokens.lookup i.userId ≠ some i.token

theorem NoRelogin.licensed {env : Env} {s : Server} {e : Event} (h : s.NoRelogin env e) :
    s.Licensed env loginsOfOthers e := by
  rintro ⟨sid, d⟩ hx
  have hd := h _ hx
  cases d with
  | call => exact trivial
  | login i u =>
    intro t hcalm
    change t.tokens.lookup i.userId ≠ some i.token
    rw [hcalm.tokens]
    exact hd

/-- The holder of an entry keeps it while another session changes. -/
theorem Held.of_others {s t : Server} (h : s.Held) {sid : ℕ} {x : Option Identity}
    (hwho : t.who = Function.update s.who sid x)
    (hsid : ∀ i, s.who sid = some i → ∀ u token, s.tokens.lookup u = some token → i.userId = u → i.token = token →
      t.tokens.lookup u ≠ some token)
    {u : ℤ} {token : String} (hu : s.tokens.lookup u = some token) (hu' : t.tokens.lookup u = some token) :
    u ≠ 0 ∧ token ≠ "" ∧ ∃ sid i, t.who sid = some i ∧ i.userId = u ∧ i.token = token := by
  obtain ⟨hne, htoken, k, i, hi, hiu, hit⟩ := h u token hu
  refine ⟨hne, htoken, k, i, ?_, hiu, hit⟩
  have hk : k ≠ sid := fun hk => hsid i (hk ▸ hi) u token hu hiu hit hu'
  rw [hwho, Function.update_of_ne hk, hi]

theorem Held.step {s t : Server} (h : s.Held) (hchange : WhoChange loginsOfOthers s t) : t.Held := by
  cases hchange with
  | same hwho htokens => exact fun u token hu => hwho ▸ h u token (htokens ▸ hu)
  | called _ _ _ hwho htokens => exact fun u token hu => hwho ▸ h u token (htokens ▸ hu)
  | answered _ hwho htokens => exact fun u token hu => hwho ▸ h u token (htokens ▸ hu)
  | turned hs hturn hwho htokens =>
    refine fun u token hu => h.of_others hwho (fun i hi u token hu hiu _ _ => ?_) (htokens ▸ hu) hu
    obtain rfl := Option.some.inj (hs.symm.trans hi)
    exact (h u token hu).1 (hiu ▸ hturn.fresh)
  | halfLogin hs hL hwho htokens =>
    refine fun u token hu => h.of_others hwho (fun i hi u token hu hiu hit _ => ?_) (htokens ▸ hu) hu
    obtain rfl := Option.some.inj (hs.symm.trans hi)
    exact hL (hiu ▸ hit ▸ hu)
  | @login sid i v token action response hs hL hfree htoken _ _ _ hwho htokens =>
    intro u tok hu
    have hmine : ∀ {u tok}, s.tokens.lookup u = some tok → t.tokens.lookup u = some tok →
        u ≠ 0 ∧ tok ≠ "" ∧ ∃ sid i, t.who sid = some i ∧ i.userId = u ∧ i.token = tok := by
      refine fun hold hu => h.of_others hwho (fun j hj u token hu hju hjt _ => ?_) hold hu
      obtain rfl := Option.some.inj (hs.symm.trans hj)
      exact hL (hju ▸ hjt ▸ hu)
    by_cases huv : u = v ∧ v ≠ 0
    · obtain ⟨rfl, hne⟩ := huv
      rw [htokens, if_pos hne, AList.lookup_insert, Option.some.injEq] at hu
      refine ⟨hne, hu ▸ htoken, sid, { i with userId := u, token }, ?_, rfl, hu⟩
      rw [hwho, Function.update_self]
    · refine hmine ?_ hu
      rw [htokens] at hu
      split_ifs at hu with hne
      · rwa [AList.lookup_insert_ne fun he => huv ⟨he, hne⟩] at hu
      · exact hu
  | accept hnew _ hwho htokens =>
    refine fun u token hu => h.of_others hwho (fun i hi => ?_) (htokens ▸ hu) hu
    rw [hnew] at hi
    cases hi
  | @destroy sid i hs hwho htokens =>
    have hgone : i.token ≠ "" → t.tokens.lookup i.userId = none := fun ht => by
      rw [htokens, if_pos ht, AList.lookup_erase]
    have hold : ∀ {u token}, t.tokens.lookup u = some token → s.tokens.lookup u = some token := by
      intro u token hu
      rw [htokens] at hu
      split_ifs at hu with ht
      · by_cases hui : u = i.userId
        · rw [hui, AList.lookup_erase] at hu
          cases hu
        · rwa [AList.lookup_erase_ne hui] at hu
      · exact hu
    refine fun u token hu => h.of_others hwho (fun j hj u token hu hju hjt hu' => ?_) (hold hu) hu
    obtain rfl := Option.some.inj (hs.symm.trans hj)
    rw [← hju, hgone (hjt ▸ (h u token hu).2.1)] at hu'
    cases hu'
  | halt hwho htokens =>
    intro u token hu
    rw [htokens, AList.lookup_empty] at hu
    cases hu

theorem Held.tokensHeld {s : Server} (h : s.Held) : s.TokensHeld := by
  intro u hsome
  obtain ⟨token, hu⟩ := Option.isSome_iff_exists.1 hsome
  obtain ⟨-, -, sid, i, hi, hiu, -⟩ := h u token hu
  obtain ⟨sess, hget, rfl⟩ := who_eq_some.1 hi
  exact ⟨sid, sess, hget, hiu⟩

/-- **Nobody is locked out for good**: an entry of `tokens_` is that of a user who
has a session, and a user without one may log in. -/
def NoLockOut (s : Server) : Prop :=
  s.TokensHeld ∧ ∀ u, (∀ sid sess, s.get? sid = some sess → sess.userId ≠ u) →
    Server.checkAlreadyLogin u s = .ok false s

/-- **Where no session that holds an entry is logged in again, nobody is locked
out for good.** -/
theorem noLockOut_throughout {env : Env} {s : Server} (h : Init s) (es : List Event)
    (hes : Run.Along (step env) (NoRelogin env) s es) : Run.Throughout (step env) NoLockOut s es := by
  have hheld : s.Held := fun u token hu => by
    rw [h.tokens, AList.lookup_empty] at hu
    cases hu
  have hinv := Run.throughout_of_along (I := fun s : Server => s.Sane ∧ s.Held)
    (fun _ _ hs hC => step_inv (I := Held) (fun _ _ hsane hk hchange => hk.step (hchange.whoChange hsane)) hs.1 hs.2
      (NoRelogin.licensed hC)) ⟨h.sane, hheld⟩ hes
  exact hinv.mono fun _ hs => ⟨hs.2.tokensHeld, fun u => hs.2.tokensHeld.checkAlreadyLogin⟩

/-- A client logs in, and then as somebody else on the same connection. -/
def reloginRun : List Event :=
  connects 0 "192.0.2.1" ++ sends 0 (credentials "login" "rnqhscjf3333" "admin") ++
    sends 0 (credentials "SSAFYlogin" "newcomer" "password")

theorem noLockOut_login : Run.Throughout (step .reliable) NoLockOut init (reloginRun.take 5) :=
  noLockOut_throughout init_init _ (by decide +kernel)

/-- The entry of the first account is held by nobody. -/
theorem not_noLockOut_relogin : ¬ Run.Throughout (step .reliable) NoLockOut init reloginRun := by
  intro h
  have hlast : ((reloginRun.foldl (step .reliable) init).tokens.lookup 1).isSome ∧
      (reloginRun.foldl (step .reliable) init).heap.entries.all fun e => e.2.userId ≠ 1 := by decide +kernel
  obtain ⟨sid, sess, hget, hu⟩ := h.last.1 1 hlast.1
  have hne := List.all_eq_true.1 hlast.2 ⟨sid, sess⟩ (AList.mem_lookup_iff.1 hget)
  simp [hu] at hne

end Server

end Matching
end SocketCommunication
