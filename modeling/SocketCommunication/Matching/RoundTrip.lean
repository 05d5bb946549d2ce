/-
# From registering to logging in

An account that `registerUser` has created stays the only one under its name, and
`loginUser` lets in whoever has its password, after any further requests to `auth`.

* `roundTrips`: where no call fails, and no account under the name of the request has a
  column that the lookup cannot tell of.

`SSAFYlogin` cuts blanks from names that are longer than the column; what it stores is
then fifty characters long, which no name that `registerUser` accepts is.
-/

import SocketCommunication.Lib.Utf8
import SocketCommunication.Matching.Accounts

namespace SocketCommunication
namespace Matching

open Effect

/-- `LOWER` maps a text character by character. -/
def Env.LowersChars (env : Env) : Prop := ∀ s, (env.lower s).length = s.length

/-- A digest is written with 64 hexadecimal digits. -/
def Env.HexDigests (env : Env) : Prop :=
  ∀ s, (env.sha256 s).length = 64 ∧ ∀ c ∈ (env.sha256 s).toList, c ∈ "0123456789abcdef".toList

namespace AccountRequest

open UserRepository AuthService

section Names

variable {env : Env} {userName hashedPassword : String} {w : World}

/-- A name that `registerUser` accepts is a short text without zero bytes. -/
theorem valid_userName (h : isValidUserName userName) :
    '\x00' ∉ userName.toList ∧ userName.length ≤ 30 := by
  have hlen := Utf8.length_le userName
  unfold isValidUserName at h
  simp only [Bool.if_false_left, Bool.and_eq_true, Bool.not_eq_true', decide_eq_false_iff_not] at h
  obtain ⟨-, hshort, -, hbytes⟩ := h
  refine ⟨fun h0 => ?_, by omega⟩
  have hzero := Utf8.zero_mem h0
  split_ifs at hbytes with hmail
  · exact absurd (List.all_eq_true.1 hbytes 0 hzero) (by decide)
  · exact absurd (List.all_eq_true.1 hbytes 0 hzero) (by decide)

theorem storedName_eq (h : isValidUserName userName) : sqlText userName = userName ∧ storedName userName = userName := by
  obtain ⟨h0, hlen⟩ := valid_userName h
  have hsql := sqlText_eq h0
  refine ⟨hsql, ?_⟩
  rw [storedName, hsql]
  exact varchar_eq (by omega)

/-- The row of a new account, read as the lookup reads it. -/
theorem exists_mem_enrol : ∃ r ∈ (enrol env w userName hashedPassword).users, r.userId = w.seqs.users ∧
    r.passwordHash = Tables.varchar 255 (sqlText hashedPassword) ∧ Readable r ∧ r.userName = storedName userName := by
  refine ⟨_, List.mem_append_right _ (List.mem_singleton_self _), ?_⟩
  simp only [Readable, Option.isSome_some, storedName, true_and, and_true]
  omega

theorem mem_enrol {r : UserRow} (hr : r ∈ (enrol env w userName hashedPassword).users) :
    r ∈ w.db.1.users ∨ r.userId = w.seqs.users ∧ r.userName = storedName userName := by
  rcases List.mem_append.1 hr with hold | hnew
  · exact .inl hold
  · rw [List.mem_singleton.1 hnew]
    exact .inr ⟨rfl, by rw [storedName]⟩

end Names

/-! ### The account stays -/

/-- The account `u` has the name, with the digest, and is the only one that has it. -/
structure Kept (env : Env) (u : ℤ) (userName digest : String) (t : Tables) : Prop where
  row : ∃ r ∈ t.users, r.userId = u ∧ r.passwordHash = digest ∧ Readable r ∧ env.lower r.userName = env.lower userName
  alone : ∀ r ∈ t.users, env.lower r.userName = env.lower userName → r.userId = u

section Kept

variable {env : Env} {u : ℤ} {userName digest : String} {t : Tables} {w : World}

theorem Kept.setLastLogin (h : Kept env u userName digest t) (userId : ℤ) (now : ℕ) :
    Kept env u userName digest (t.setLastLogin userId now) where
  row := by
    obtain ⟨r, hr, hid, hhash, ⟨hn, hc, hl, hne⟩, hname⟩ := h.row
    refine ⟨_, Rows.mem_update.2 ⟨r, hr, rfl⟩, ?_⟩
    split_ifs
    · exact ⟨hid, hhash, ⟨hn, hc, rfl, hne⟩, hname⟩
    · exact ⟨hid, hhash, ⟨hn, hc, hl, hne⟩, hname⟩
  alone := Rows.forall_mem_update h.alone fun r hr _ => h.alone r hr

theorem Kept.setNickName (h : Kept env u userName digest t) (userId : ℤ) (nickName : String) :
    Kept env u userName digest (t.setNickName userId nickName) where
  row := by
    obtain ⟨r, hr, hid, hhash, ⟨hn, hc, hl, hne⟩, hname⟩ := h.row
    refine ⟨_, Rows.mem_update.2 ⟨r, hr, rfl⟩, ?_⟩
    split_ifs
    · exact ⟨hid, hhash, ⟨rfl, hc, hl, hne⟩, hname⟩
    · exact ⟨hid, hhash, ⟨hn, hc, hl, hne⟩, hname⟩
  alone := Rows.forall_mem_update h.alone fun r hr _ => h.alone r hr

/-- An account under another name changes nothing. -/
theorem Kept.enrol (h : Kept env u userName digest w.db.1) {name hashedPassword : String}
    (hne : env.lower (storedName name) ≠ env.lower userName) :
    Kept env u userName digest (enrol env w name hashedPassword) where
  row := by
    obtain ⟨r, hr, hrow⟩ := h.row
    exact ⟨r, List.mem_append_left _ hr, hrow⟩
  alone := by
    intro r hr hlow
    rcases mem_enrol hr with hold | ⟨-, hstored⟩
    · exact h.alone r hold hlow
    · rw [hstored] at hlow
      exact absurd hlow hne

/-- The row of the account is the only one under its name. -/
theorem Kept.eq (h : Kept env u userName digest w.db.1) {r : UserRow} (hr : r ∈ w.db.1.users)
    (hlow : env.lower r.userName = env.lower userName) : r.userId = u ∧ r.passwordHash = digest ∧ Readable r := by
  obtain ⟨q, hq, hid, hhash, hread, -⟩ := h.row
  obtain rfl := Rows.eq_of_key_eq w.db.2.users_pkey hr hq ((h.alone r hr hlow).trans hid.symm)
  exact ⟨hid, hhash, hread⟩

/-- Where no call fails no request creates an account under a name that `registerUser`
has given away. -/
theorem Kept.enlists_ne (hsteady : env.Steady) (hlower : env.LowersChars) (hlen : userName.length ≤ 30)
    (h : Kept env u userName digest w.db.1) {name password : String} (he : Enlists env w name password) :
    env.lower (storedName name) ≠ env.lower userName := by
  intro hlow
  obtain ⟨r, hr, -, -, -, hrow⟩ := h.row
  rcases blind_of_enlists he ⟨r, hr, hrow.trans hlow.symm⟩ with hn | hcut | ⟨r', hr', hunread⟩
  · exact hn (hsteady.answers w 9)
  · have hfull : (storedName name).length = 50 := length_varchar hcut
    have hlens := congrArg String.length hlow
    rw [hlower, hlower] at hlens
    omega
  · obtain ⟨hr', hacc⟩ := List.mem_filter.1 hr'
    have hacc : env.lower r'.userName = env.lower (sqlText name) := of_decide_eq_true hacc
    by_cases hcut : storedName name = sqlText name
    · rw [← hcut, hlow] at hacc
      exact hunread (h.eq hr' hacc).2.2
    · have hfull : (storedName name).length = 50 := length_varchar hcut
      have hlens := congrArg String.length hlow
      rw [hlower, hlower] at hlens
      omega

theorem Kept.enrolment (hsteady : env.Steady) (hlower : env.LowersChars) (hlen : userName.length ≤ 30)
    (h : Kept env u userName digest w.db.1) {r : AccountRequest} (hr : Enrolment env w r t) :
    Kept env u userName digest t := by
  cases hr with
  | created hc he => exact Kept.enrol (w := w.looked env _) h (h.enlists_ne hsteady hlower hlen he)
  | same hn => exact h

/-- One request leaves the account as it is. -/
theorem Kept.step (hsteady : env.Steady) (hlower : env.LowersChars) (hlen : userName.length ≤ 30)
    (h : Kept env u userName digest w.db.1) (r : AccountRequest) :
    Kept env u userName digest (step env w r).db.1 := by
  have hout : Outcome env w r (AccountRequest.step env w r).db.1 :=
    wp_iff_after (P := fun w' : World => Outcome env w r w'.db.1).1 (outcome_of_run env w r)
  generalize (AccountRequest.step env w r).db.1 = t at hout ⊢
  cases hout with
  | enrols hr => exact h.enrolment hsteady hlower hlen hr
  | logs hr userId now => exact (h.enrolment hsteady hlower hlen hr).setLastLogin userId now
  | renames hn userId nickName => exact h.setNickName userId nickName

/-- **The account is kept by every run.** -/
theorem Kept.run (hsteady : env.Steady) (hlower : env.LowersChars) (hlen : userName.length ≤ 30)
    (h : Kept env u userName digest w.db.1) (requests : List AccountRequest) :
    Kept env u userName digest (requests.foldl (AccountRequest.step env) w).db.1 :=
  Run.foldl_inv (I := fun w : World => Kept env u userName digest w.db.1)
    (fun _ r hw => hw.step hsteady hlower hlen r) requests h

/-! ### The login -/

/-- The lookup finds the account. -/
theorem Kept.finds (hsteady : env.Steady) (h : Kept env u userName digest w.db.1) {name : String}
    (hlow : env.lower (sqlText name) = env.lower userName) :
    ∃ r ∈ w.db.1.users, r.userId = u ∧ r.passwordHash = digest ∧ u ≠ -1 ∧ Finds env w name r := by
  obtain ⟨q, hq, -, -, -, hname⟩ := h.row
  have hmem : q ∈ accounts env w.db.1 name := List.mem_filter.2 ⟨hq, by simpa [hlow] using hname⟩
  cases hrows : env.order (w.tick + 2) (accounts env w.db.1 name) with
  | nil =>
    rw [Env.order_eq_nil] at hrows
    rw [hrows] at hmem
    cases hmem
  | cons r rs =>
    have hr : r ∈ accounts env w.db.1 name := by
      rw [← @Env.mem_order env _ (w.tick + 2), hrows]
      exact List.mem_cons_self
    obtain ⟨hr, hacc⟩ := List.mem_filter.1 hr
    obtain ⟨hid, hhash, hnick, hcreated, hlast, hne⟩ := h.eq hr ((of_decide_eq_true hacc).trans hlow)
    exact ⟨r, hr, hid, hhash, hid ▸ hne, hsteady.answers w 9, by rw [hrows, List.head?_cons], hnick, hcreated, hlast⟩

/-- What a login with a password is answered: the account, if the password is its own. -/
def LogsIn (env : Env) (w : World) (request : Json) (u : ℤ) (right : Prop) : Prop :=
  wp (loginUser env request)
    (fun j _ => (right → j.succeeds ∧ j.value "userId" = .int u) ∧ (¬ right → j.value "status" = .str "error"))
    (fun _ _ => False) w

theorem Kept.logsIn (hsteady : env.Steady) (h : Kept env u userName digest w.db.1) {request : Json}
    {name password : String} (hname : request.value "userName" = .str name)
    (hpass : request.value "password" = .str password) (hlow : env.lower (sqlText name) = env.lower userName) :
    LogsIn env w request u (env.sha256 password = digest) := by
  obtain ⟨r, hr, hid, hhash, hne, hfinds⟩ := h.finds hsteady hlow
  have hint : Json.wrapInt r.userId = r.userId :=
    Json.wrapInt_eq (w.db.2.users_int4 r hr).1 (w.db.2.users_int4 r hr).2
  simp only [LogsIn, loginUser, wp_ite, wp_pure, wp_bind, hname, hpass, Json.getString, orThrow_ok,
    Json.contains_of_value hname, Json.contains_of_value hpass]
  refine ⟨fun hn => absurd ⟨trivial, trivial⟩ hn, fun _ => ?_⟩
  refine wp_mono (fun j w₁ hj => ?_) (fun _ _ he => he.2 (hsteady.answers w 1)) (findByUsername_spec w name)
  rcases hj.2 with ⟨r', n, c, l, hf, rfl⟩ | ⟨hn, -⟩
  swap
  · exact absurd hfinds (hn r)
  obtain rfl := Option.some.inj (hfinds.first.symm.trans hf.first)
  have hvalue : (userJson env r n c l).value "userId" = .int r.userId := rfl
  have hstored : (userJson env r n c l).value "passwordHash" = .str r.passwordHash := rfl
  rw [hvalue, hstored, Json.getInt, hint]
  simp only [orThrow_ok, wp_pure]
  refine ⟨fun hno => absurd hno ?_, fun _ => ⟨fun hwrong => ⟨fun hm => absurd hm ?_, fun _ => rfl⟩, fun hright => ?_⟩⟩
  · change ¬ (r.userId == -1) = true
    rw [hid]
    simpa using hne
  · rw [← hhash]
    simpa [PasswordUtil.verifyPassword, PasswordUtil.hashPassword] using hwrong
  · have hmatch : env.sha256 password = digest := by
      rw [← hhash]
      simpa [PasswordUtil.verifyPassword, PasswordUtil.hashPassword] using hright
    refine wp_mono (fun _ w₂ _ => ⟨fun _ => ⟨rfl, ?_⟩, fun hn => absurd hmatch hn⟩)
      (fun _ _ he => he.1 (hsteady.answers w₁ 1)) (updateLastLogin_spec w₁ r.userId)
    rw [← hid]
    rfl

end Kept

/-! ### The round trip -/

/-- `registerUser` succeeds by creating the account that it answers with. -/
theorem registerUser_created {env : Env} (w : World) (request : Json) :
    wp (registerUser env request)
      (fun j w' => j.succeeds → ∃ userName password, (register request).candidate = some (userName, password) ∧
        Enlists env w userName password ∧
        w'.db.1 = enrol env (w.looked env userName) userName (PasswordUtil.hashPassword env password) ∧
        j.value "userId" = .int w.seqs.users)
      (fun _ _ => True) w := by
  simp only [registerUser, wp_ite, wp_pure, wp_bind, wp_orThrow, succeeds_errorResponse, Bool.false_eq_true,
    false_implies, implies_true, and_true, true_and]
  refine fun _ userName hname hgood password hpass hlong => ?_
  have hc : (register request).candidate = some (userName, password) :=
    candidate_register.2 ⟨⟨Json.getString_ok hname, Json.getString_ok hpass⟩, not_not.1 hgood, not_lt.1 hlong⟩
  refine wp_lookup (fun j w₁ hans h₁ hj hid => ?_) fun _ _ _ _ => trivial
  refine wp_mono (fun userId w₂ h => ?_) (fun _ _ _ => trivial) (create_alike h₁)
  intro hpos _
  rcases h with ⟨hcr, -, rfl, halike⟩ | ⟨-, rfl, -⟩
  · exact ⟨userName, password, hc, ⟨hans, (eqInt_of_lookup hj).1 (not_not.1 hid), hcr⟩,
      congrArg Subtype.val halike.db, rfl⟩
  · exact absurd (by decide) hpos

/-- A created account is kept, when no other under its name was there that the lookup
could not tell of. -/
theorem kept_enrol {env : Env} {w : World} (hsteady : env.Steady) (hhex : env.HexDigests) {userName password : String}
    (hvalid : isValidUserName userName)
    (hread : ∀ r ∈ w.db.1.users, env.lower r.userName = env.lower userName → Readable r)
    (he : Enlists env w userName password) :
    Kept env w.seqs.users userName (env.sha256 password)
      (enrol env (w.looked env userName) userName (PasswordUtil.hashPassword env password)) := by
  obtain ⟨hsql, hstored⟩ := storedName_eq hvalid
  obtain ⟨hlen, hdigits⟩ := hhex password
  have hdigest : Tables.varchar 255 (sqlText (env.sha256 password)) = env.sha256 password := by
    rw [sqlText_eq fun h0 => absurd (hdigits _ h0) (by decide)]
    exact varchar_eq (by omega)
  constructor
  · obtain ⟨r, hr, hid, hhash, hrow, hname⟩ :=
      @exists_mem_enrol env userName (PasswordUtil.hashPassword env password) (w.looked env userName)
    refine ⟨r, hr, hid, ?_, hrow, ?_⟩
    · rw [hhash, PasswordUtil.hashPassword, hdigest]
    · rw [hname, hstored]
  · intro r hr hlow
    rcases mem_enrol hr with hold | ⟨hid, -⟩
    swap
    · exact hid
    rcases blind_of_enlists he ⟨r, hold, by rw [hlow, hstored]⟩ with hn | hcut | ⟨r', hr', hunread⟩
    · exact absurd (hsteady.answers w 9) hn
    · exact absurd (hstored.trans hsql.symm) hcut
    · obtain ⟨hr', hacc⟩ := List.mem_filter.1 hr'
      rw [hsql] at hacc
      exact absurd (hread r' hr' (of_decide_eq_true hacc)) hunread

/-- Whoever registers with the request in `w` can log in ever after: any name that is
equal up to case does, with any password of the same digest, and no other. -/
def RoundTrips (env : Env) (w : World) (request : Json) : Prop :=
  ∀ userName password, request.value "userName" = .str userName → request.value "password" = .str password →
  ∀ j w₁ u, registerUser env request w = .ok j w₁ → j.succeeds → j.value "userId" = .int u →
  ∀ (requests : List AccountRequest) (request' : Json) (userName' password' : String),
    request'.value "userName" = .str userName' → request'.value "password" = .str password' →
    env.lower (sqlText userName') = env.lower userName →
    LogsIn env (requests.foldl (step env) w₁) request' u (env.sha256 password' = env.sha256 password)

/-- **Register, then log in.**  The account can be logged in to after any run of
requests, if the accounts under its name could be read when it was created. -/
theorem roundTrips {env : Env} (hsteady : env.Steady) (hlower : env.LowersChars) (hhex : env.HexDigests) {w : World}
    {request : Json} (hread : ∀ userName, request.value "userName" = .str userName →
      ∀ r ∈ w.db.1.users, env.lower r.userName = env.lower userName → Readable r) :
    RoundTrips env w request := by
  intro userName password hname hpass j w₁ u hrun hok hu requests request' userName' password' hname' hpass' hlow
  obtain ⟨n, p, hc, he, ht, hid⟩ := wp_ok (registerUser_created w request) hrun hok
  obtain ⟨⟨hn, hp⟩, hvalid, -⟩ := candidate_register.1 hc
  cases hname.symm.trans hn
  cases hpass.symm.trans hp
  cases hu.symm.trans hid
  have hkept : Kept env w.seqs.users userName (env.sha256 password) w₁.db.1 := by
    rw [ht]
    exact kept_enrol hsteady hhex hvalid (hread userName hname) he
  exact (hkept.run hsteady hlower (valid_userName hvalid).2 requests).logsIn hsteady hname' hpass' hlow

/-- An environment with the digests of two passwords. -/
def digesting : Env :=
  { Env.reliable with
    sha256 := fun s =>
      if s = "password" then "5e884898da28047151d0e56f8dc6292773603d0d6aabbdd62a11ef721d1542d8"
      else "8c6976e5b5410415bde908bd4dee15dfb167a9c873fc4bb8a81f6f2ab448a918" }

theorem hexDigests_digesting : digesting.HexDigests := by
  have hdigest : ∀ digest ∈ ["5e884898da28047151d0e56f8dc6292773603d0d6aabbdd62a11ef721d1542d8",
      "8c6976e5b5410415bde908bd4dee15dfb167a9c873fc4bb8a81f6f2ab448a918"], digest.length = 64 ∧
        digest.toList.all fun c => c ∈ "0123456789abcdef".toList := by decide +kernel
  intro s
  have hmem : digesting.sha256 s ∈ ["5e884898da28047151d0e56f8dc6292773603d0d6aabbdd62a11ef721d1542d8",
      "8c6976e5b5410415bde908bd4dee15dfb167a9c873fc4bb8a81f6f2ab448a918"] := by
    unfold digesting
    dsimp only
    split_ifs
    · exact List.mem_cons_self
    · exact List.mem_cons_of_mem _ List.mem_cons_self
  obtain ⟨hlength, hall⟩ := hdigest _ hmem
  exact ⟨hlength, fun c hc => of_decide_eq_true (List.all_eq_true.1 hall c hc)⟩

theorem lowersChars_digesting : digesting.LowersChars := by
  intro s
  change (String.ofList (s.toList.map Char.toLower)).length = s.length
  rw [String.length_ofList, List.length_map, String.length_toList]

def registerNewcomer : Json := .obj [("userName", .str "newcomer"), ("password", .str "password")]

/-- On the database of `db-init.sql`. -/
theorem roundTrips_newcomer : RoundTrips digesting .init registerNewcomer :=
  roundTrips (fun _ => rfl) lowersChars_digesting hexDigests_digesting fun userName h => by
    cases h
    decide +kernel

/-- The accounts of `db-init.sql`, and one without a nickname. -/
def namelessTables : Tables :=
  { Tables.init with users := ⟨100, "Newcomer", none, "", none, none⟩ :: Tables.init.users }

def nameless : World := { World.init with db := ⟨namelessTables, by decide +kernel⟩ }

/-- The lookup takes the account without a nickname for none, before and after. -/
theorem not_roundTrips_nameless : OneAccount digesting nameless.db.1 ∧ ¬ RoundTrips digesting nameless registerNewcomer := by
  refine ⟨by decide +kernel, fun h => ?_⟩
  have hrun : wp (registerUser digesting registerNewcomer)
      (fun j w₁ => j.succeeds ∧ j.value "userId" = .int 8 ∧
        ¬ wp (loginUser digesting registerNewcomer) (fun j _ => j.succeeds = true) (fun _ _ => False) w₁)
      (fun _ _ => False) nameless := by
    decide +kernel
  obtain ⟨j, w₁, hrun, hok, hu, hno⟩ := wp_returns hrun
  have hlogin := h "newcomer" "password" rfl rfl j w₁ 8 hrun hok hu [] registerNewcomer "newcomer" "password" rfl rfl
    (by decide +kernel)
  exact hno (wp_mono (fun _ _ hj => (hj.1 rfl).1) (fun _ _ he => he) hlogin)

end AccountRequest

end Matching
end SocketCommunication
