/-
# The rules for new accounts

Accounts are created on two paths.  `registerUser` looks at the name and at the length
of the password first; `registerCheckAndLogin`, whose comment promises a check of the
name, looks only whether the fields are there.

* `rulesKept_throughout_iff`: in a run of requests every account created meets the
  rules just when no login creates one that `registerUser` would have refused.

The tables do not tell which accounts were created by a request, nor by what password.
`Ledger` carries that beside them.
-/

import SocketCommunication.Matching.RoundTrip

namespace SocketCommunication
namespace Matching

open Effect

/-- Every account with its name. -/
def Tables.entries (t : Tables) : List (ℤ × String) := t.users.map fun u => (u.userId, u.userName)

theorem Tables.map_fst_entries (t : Tables) : t.entries.map Prod.fst = t.users.map (·.userId) := by
  rw [entries, List.map_map]
  rfl

namespace AccountRequest

open UserRepository AuthService

/-- The JSON of a request. -/
def request : AccountRequest → Json
  | register request => request
  | login request => request
  | SSAFYlogin request => request
  | updateNickName request => request

/-- The world, and the accounts that requests have created, each with the password of
its request; no code reads the latter. -/
structure Ledger where
  world : World
  created : List (ℤ × Json)

/-- The accounts that are there after a request, but were not before. -/
def newIds (w w' : World) : List ℤ :=
  (w'.db.1.users.map (·.userId)).filter (· ∉ w.db.1.users.map (·.userId))

def Ledger.step (env : Env) (l : Ledger) (r : AccountRequest) : Ledger :=
  let w := AccountRequest.step env l.world r
  ⟨w, l.created ++ (newIds l.world w).map fun userId => (userId, r.request.value "password")⟩

/-- A password of six bytes or more. -/
def longPassword : Json → Bool
  | .str password => 6 ≤ password.utf8ByteSize
  | _ => false

/-- **The rules**: every account created has a name that `isValidUserName` accepts, and
was created with a password of six bytes or more. -/
def Ledger.RulesKept (l : Ledger) : Prop :=
  ∀ c ∈ l.created, longPassword c.2 ∧
    ∀ u ∈ l.world.db.1.users, u.userId = c.1 → isValidUserName u.userName

instance (l : Ledger) : Decidable l.RulesKept :=
  inferInstanceAs (Decidable (∀ c ∈ l.created, _ ∧ ∀ u ∈ l.world.db.1.users, _ → _))

/-- A login creates an account that `registerUser` refuses: its name is not valid as it
is stored, or the password is too short. -/
def Slips (env : Env) (w : World) (r : AccountRequest) : Prop :=
  ∃ request userName password, r = SSAFYlogin request ∧ credentials request = some (userName, password) ∧
    Enlists env w userName password ∧ ¬ (isValidUserName (storedName userName) ∧ 6 ≤ password.utf8ByteSize)

section Step

variable {env : Env} {w : World} {r : AccountRequest} {userName password : String}

theorem value_password (hc : r.candidate = some (userName, password)) :
    r.request.value "password" = .str password := by
  cases r with
  | register request => exact (candidate_register.1 hc).1.2
  | login request => cases hc
  | SSAFYlogin request => exact (candidate_SSAFYlogin.1 hc).2
  | updateNickName request => cases hc

/-- An account that is created meets the rules, unless the request slips. -/
theorem rules_iff (hc : r.candidate = some (userName, password)) (he : Enlists env w userName password) :
    (isValidUserName (storedName userName) ∧ 6 ≤ password.utf8ByteSize) ↔ ¬ Slips env w r := by
  constructor
  · rintro h ⟨request, n, p, rfl, hc', -, hbad⟩
    have hsame : some (n, p) = some (userName, password) := hc'.symm.trans hc
    cases hsame
    exact hbad h
  · intro hn
    cases r with
    | register request =>
      obtain ⟨-, hvalid, hlong⟩ := candidate_register.1 hc
      rw [(storedName_eq hvalid).2]
      exact ⟨hvalid, hlong⟩
    | login request => cases hc
    | SSAFYlogin request =>
      by_contra hbad
      exact hn ⟨request, userName, password, rfl, hc, he, hbad⟩
    | updateNickName request => cases hc

theorem entries_setLastLogin (t : Tables) (userId : ℤ) (now : ℕ) : (t.setLastLogin userId now).entries = t.entries :=
  Rows.map_update fun _ _ => rfl

theorem entries_setNickName (t : Tables) (userId : ℤ) (nickName : String) :
    (t.setNickName userId nickName).entries = t.entries :=
  Rows.map_update fun _ _ => rfl

/-- What a request adds to the entries: nothing, or the account that it creates. -/
inductive Entered (env : Env) (w : World) (r : AccountRequest) : List (ℤ × String) → Prop
  | none (hn : ∀ userName password, r.candidate = some (userName, password) →
      ¬ Enlists env w userName password) : Entered env w r w.db.1.entries
  | one {userName password : String} (hc : r.candidate = some (userName, password))
      (he : Enlists env w userName password) (hnew : (w.seqs.users : ℤ) ∉ w.db.1.users.map (·.userId)) :
      Entered env w r (w.db.1.entries ++ [((w.seqs.users : ℤ), storedName userName)])

theorem entered_enrolment {t : Tables} (h : Enrolment env w r t) : Entered env w r t.entries := by
  cases h with
  | @created userName password hc he =>
    have hnew := (Rows.nodup_map_append_singleton.1 he.creates.valid.users_pkey).2
    have hentries : (enrol env (w.looked env userName) userName (PasswordUtil.hashPassword env password)).entries =
        w.db.1.entries ++ [((w.seqs.users : ℤ), storedName userName)] := by
      rw [Tables.entries, enrol, Tables.insertUser, List.map_append]
      rfl
    rw [hentries]
    exact .one hc he hnew
  | same hn => exact .none hn

theorem entered_step (env : Env) (w : World) (r : AccountRequest) :
    Entered env w r (step env w r).db.1.entries := by
  have hout : Outcome env w r (step env w r).db.1 :=
    wp_iff_after (P := fun w' : World => Outcome env w r w'.db.1).1 (outcome_of_run env w r)
  generalize (step env w r).db.1 = t at hout
  cases hout with
  | enrols h => exact entered_enrolment h
  | logs h userId now =>
    rw [entries_setLastLogin]
    exact entered_enrolment h
  | renames hn userId nickName =>
    rw [entries_setNickName]
    refine .none fun n p hc => ?_
    rw [hn] at hc
    cases hc

end Step

namespace Ledger

/-- Every account created is there. -/
def Known (l : Ledger) : Prop := ∀ c ∈ l.created, c.1 ∈ l.world.db.1.users.map (·.userId)

theorem rulesKept_iff {l : Ledger} : l.RulesKept ↔
    ∀ c ∈ l.created, longPassword c.2 ∧ ∀ e ∈ l.world.db.1.entries, e.1 = c.1 → isValidUserName e.2 := by
  simp only [RulesKept, Tables.entries, List.forall_mem_map]

/-- The accounts that a request creates, by its entries. -/
theorem newIds_eq {w w' : World} : newIds w w' =
    (w'.db.1.entries.map Prod.fst).filter (· ∉ w.db.1.entries.map Prod.fst) := by
  simp only [newIds, Tables.map_fst_entries]

/-- One request keeps the rules just when it does not slip. -/
theorem rulesKept_step {env : Env} {l : Ledger} (hkept : l.RulesKept) (hknown : l.Known) (r : AccountRequest) :
    ((l.step env r).RulesKept ↔ ¬ Slips env l.world r) ∧ (l.step env r).Known := by
  have hentered := entered_step env l.world r
  rw [rulesKept_iff] at hkept
  simp only [Known, ← Tables.map_fst_entries] at hknown
  simp only [rulesKept_iff, Known, step, newIds_eq, ← Tables.map_fst_entries]
  generalize (AccountRequest.step env l.world r).db.1.entries = entries at hentered ⊢
  cases hentered with
  | none hn =>
    have hnone : (l.world.db.1.entries.map Prod.fst).filter (· ∉ l.world.db.1.entries.map Prod.fst) = [] :=
      List.filter_eq_nil_iff.2 fun userId hid => by simpa using hid
    rw [hnone, List.map_nil, List.append_nil]
    refine ⟨iff_of_true hkept ?_, hknown⟩
    rintro ⟨request, n, p, rfl, hc, he, -⟩
    exact hn n p hc he
  | @one userName password hc he hnew =>
    rw [← Tables.map_fst_entries] at hnew
    have hone : ((l.world.db.1.entries ++ [((l.world.seqs.users : ℤ), storedName userName)]).map Prod.fst).filter
        (· ∉ l.world.db.1.entries.map Prod.fst) = [(l.world.seqs.users : ℤ)] := by
      rw [List.map_append, List.filter_append, List.filter_eq_nil_iff.2 fun userId hid => by simpa using hid]
      simpa using hnew
    rw [hone, value_password hc, List.map_singleton, ← rules_iff hc he]
    simp only [List.forall_mem_append, List.forall_mem_singleton, List.map_append, List.map_singleton]
    refine ⟨⟨?_, ?_⟩, fun c hcm => List.mem_append_left _ (hknown c hcm),
      List.mem_append_right _ (List.mem_singleton_self _)⟩
    · rintro ⟨-, hlong, -, hvalid⟩
      exact ⟨hvalid trivial, of_decide_eq_true hlong⟩
    · rintro ⟨hvalid, hlong⟩
      refine ⟨fun c hcm => ⟨(hkept c hcm).1, (hkept c hcm).2, fun hid => ?_⟩, decide_eq_true hlong,
        fun e hem hid => ?_, fun _ => hvalid⟩
      · have hmem := hknown c hcm
        rw [← hid] at hmem
        exact absurd hmem hnew
      · have hmem : e.1 ∈ l.world.db.1.entries.map Prod.fst := List.mem_map_of_mem hem
        rw [hid] at hmem
        exact absurd hmem hnew

/-- **The rules for new accounts hold throughout a run just when no login slips.** -/
theorem rulesKept_throughout_iff (env : Env) (w : World) (requests : List AccountRequest) :
    Run.Throughout (step env) RulesKept ⟨w, []⟩ requests ↔
      Run.Along (step env) (fun l r => ¬ Slips env l.world r) ⟨w, []⟩ requests :=
  Run.throughout_iff_along (I := fun l : Ledger => l.RulesKept ∧ l.Known) (fun _ h => h.1)
    (fun _ r h hc => ⟨(rulesKept_step h.1 h.2 r).1.2 hc, (rulesKept_step h.1 h.2 r).2⟩)
    (fun _ r h hc hs => hc ((rulesKept_step h.1 h.2 r).1.1 hs))
    ⟨fun _ hc => absurd hc List.not_mem_nil, fun _ hc => absurd hc List.not_mem_nil⟩ requests

/-- A login with a name of three words and an empty password. -/
theorem not_rulesKept_SSAFYlogin : ¬ Run.Throughout (step .reliable) RulesKept ⟨.init, []⟩
    [SSAFYlogin (.obj [("userName", .str "not a name"), ("password", .str "")])] := by
  decide +kernel

end Ledger

end AccountRequest

end Matching
end SocketCommunication
