/-
# `AuthApi`

`api/auth_api.cpp`: registering and logging in on the game socket server.  The
handlers answer with the JSON value whose `dump()` the session sends.

`hash_password` writes a digest with 64 hexadecimal digits, and `Users.password` is a
`VARCHAR(50)`: no `INSERT` goes through (`handleRegister_refuses`).
-/

import SocketCommunication.GameSocket.Database

namespace SocketCommunication
namespace GameSocket

open Effect Matching

namespace AuthApi

section Methods

variable (env : Env)

/-- `hash_password`. -/
def hashPassword (password : String) : String :=
  Hex.ofBytes (List.ofFn (env.sha256 password.toUTF8.data.toList))

/-- `generate_auth_token`. -/
def generateAuthToken (userId : ℤ) (username : String) (now : ℕ) : String :=
  let payload := Json.obj [("user_id", .int userId), ("username", .str username),
    ("exp", .int (now + 3600)), ("iat", .int now)]
  env.dump payload ++ "." ++
    Hex.ofBytes (List.ofFn (env.hmac "your_secret_key_here".toUTF8.data.toList (env.dump payload).toUTF8.data.toList))

/-- `{"status": "error", "message": …}`. -/
def errorResponse (message : String) : Json := .obj [("status", .str "error"), ("message", .str message)]

/-- The two `catch` clauses. -/
def catching (body : ApiM Json) (sqlMessage : String) : ApiM Json :=
  tryCatch body fun e =>
    match e with
    | .sqlError _ => return errorResponse sqlMessage
    | .exception _ => return errorResponse "Internal server error"

def handleRegister (request : Json) : ApiM Json :=
  catching
    (do
      let username ← text (request.value "username")
      let password ← text (request.value "password")
      if username.utf8ByteSize < 3 ∨ 20 < username.utf8ByteSize then
        return errorResponse "Username must be between 3 and 20 characters"
      else if password.utf8ByteSize < 6 then
        return errorResponse "Password must be at least 6 characters"
      else
        let hashedPassword := hashPassword env password
        let _conn ← getConnection env
        beginWork env
        let checkUser ← query env fun users => (users.filter fun u => u.username = sqlText username).map (·.userId)
        if checkUser ≠ [] then return errorResponse "Username already exists"
        else
          let now := (← get).began
          let result ← exec env fun q users =>
            (q + 1, [(q : ℤ)], Users.insert users q (sqlText username) (sqlText hashedPassword) now)
          commit env
          let userId ← column result.head?
          return .obj [("status", .str "success"), ("message", .str "Registration successful"),
            ("user_id", .int userId), ("username", .str username)])
    "Database error during registration"

def handleLogin (request : Json) : ApiM Json :=
  catching
    (do
      let username ← text (request.value "username")
      let password ← text (request.value "password")
      let hashedPassword := hashPassword env password
      let _conn ← getConnection env
      beginWork env
      let result ← query env fun users =>
        users.filter fun u => u.username = sqlText username ∧ u.password = sqlText hashedPassword
      match result with
      | [] => return errorResponse "Invalid username or password"
      | u :: _ =>
        let now := (← get).began
        let _ ← exec env fun q users => (q, ([] : List ℤ), Users.setLastLogin users u.userId now)
        commit env
        let token := generateAuthToken env u.userId username (env.now (← get).tick)
        let rating ← column u.rating
        let totalGames ← column u.totalGames
        let totalWins ← column u.totalWins
        return .obj [("status", .str "success"), ("message", .str "Login successful"),
          ("user_id", .int u.userId), ("username", .str u.username), ("rating", .int rating),
          ("total_games", .int totalGames), ("total_wins", .int totalWins), ("token", .str token)])
    "Database error during login"

end Methods

/-! ### What is stored of a digest -/

/-- As many characters as digits. -/
theorem charLength_hex (bs : List UInt8) : Tables.charLength (Hex.ofBytes bs) = 2 * bs.length := by
  rw [Tables.charLength_eq, Hex.length_ofBytes]

/-- A digest is stored as it is, and is longer than the column. -/
theorem charLength_stored (env : Env) (password : String) :
    Tables.charLength (Tables.varchar 50 (sqlText (hashPassword env password))) = 64 := by
  have hlen : (hashPassword env password).length = 64 := by
    rw [hashPassword, Hex.length_ofBytes, List.length_ofFn]
  have hdigit : ∀ c ∈ (hashPassword env password).toList, c ∈ Hex.digits := fun c => Hex.mem_digits
  have hkept : Tables.varchar 50 (hashPassword env password) = hashPassword env password := by
    refine if_neg fun hblank => ?_
    rw [← String.length_toList] at hlen
    have hmem := List.getElem_mem (show 0 < ((hashPassword env password).toList.drop 50).length by
      rw [List.length_drop]; omega)
    have hspace := List.all_eq_true.1 hblank _ hmem
    have hd := hdigit _ (List.mem_of_mem_drop hmem)
    rw [eq_of_beq hspace] at hd
    exact absurd hd (by decide)
  rw [sqlText_eq fun h0 => absurd (hdigit _ h0) (by decide), hkept, hashPassword, charLength_hex, List.length_ofFn]

section Register

variable {env : Env} {w : World}

/-- What the body does not throw is the answer. -/
theorem wp_catching {body : ApiM Json} {sqlMessage : String} {Q : Json → World → Prop} {E : Failure → World → Prop}
    (h : wp body Q (fun _ _ => True) w) (herror : ∀ message w', Q (errorResponse message) w') :
    wp (catching body sqlMessage) Q E w := by
  rw [catching, wp_tryCatch]
  refine wp_mono (fun _ _ h => h) (fun e w' _ => ?_) h
  cases e with
  | sqlError what => exact herror _ w'
  | exception what => exact herror _ w'

/-- Whatever a call does before the next one. -/
theorem wp_then {α β : Type} {c : ApiM α} {f : α → ApiM β} {Q : β → World → Prop}
    (h : ∀ a w', wp (f a) Q (fun _ _ => True) w') : wp (c >>= f) Q (fun _ _ => True) w := by
  rw [wp_bind]
  exact wp_of_forall h fun _ _ => trivial

/-- No new row has a password that fits. -/
theorem not_valid_insert {users : List UserRow} {userId : ℤ} {username password : String} {now : ℕ} :
    ¬ Users.Valid (Users.insert users userId username (sqlText (hashPassword env password)) now) := by
  intro h
  have hrow := Users.mem_insert users userId username (sqlText (hashPassword env password)) now
  have hlong := charLength_stored env password
  have hfits := (h.varchar _ hrow).2
  dsimp only at hfits
  omega

/-- A statement that would violate a constraint does not return. -/
theorem wp_exec_invalid {α : Type} {stmt : ℕ → List UserRow → ℕ × List α × List UserRow}
    (h : ∀ q users, ¬ Users.Valid (stmt q users).2.2) (w : World) :
    wp (exec env stmt) (fun _ _ => False) (fun _ _ => True) w := by
  refine wp_then fun _ w₁ => ?_
  rw [wp_bind, wp_get, wp_bind, wp_modify, dif_neg (h _ _)]
  trivial

/-- **`handle_register` never succeeds**: no digest fits the column. -/
theorem handleRegister_refuses (env : Env) (request : Json) (w : World) :
    wp (handleRegister env request) (fun j _ => j.value "status" = .str "error") (fun _ _ => False) w := by
  refine wp_catching (wp_then fun username w₁ => wp_then fun password w₂ => ?_) fun _ _ => rfl
  refine (wp_ite _ _ _).2 ⟨fun _ => rfl, fun _ => (wp_ite _ _ _).2 ⟨fun _ => rfl, fun _ => ?_⟩⟩
  refine wp_then fun _ w₃ => wp_then fun _ w₄ => wp_then fun checkUser w₅ => ?_
  refine (wp_ite _ _ _).2 ⟨fun _ => rfl, fun _ => wp_then fun w₆ w₇ => ?_⟩
  rw [wp_bind]
  exact wp_mono (fun _ _ hno => hno.elim) (fun _ _ _ => trivial) (wp_exec_invalid (fun _ _ => not_valid_insert) w₇)

end Register

/-! ### The round trip -/

/-- A request with a name and a password. -/
def credentials (username password : String) : Json :=
  .obj [("username", .str username), ("password", .str password)]

/-- The answer is `success`, for the user `u`. -/
def Admits (j : Json) (u : ℤ) : Prop := j.value "status" = .str "success" ∧ j.value "user_id" = .int u

/-- Who registers is answered with a number, can log in as that user with the same
password, and is refused with a password of another digest. -/
def RoundTrips (env : Env) (w : World) (username password : String) : Prop :=
  wp (handleRegister env (credentials username password))
    (fun j w₁ => ∃ u, Admits j u ∧
      wp (handleLogin env (credentials username password)) (fun j' _ => Admits j' u) (fun _ _ => False) w₁ ∧
      ∀ password' : String, env.sha256 password'.toUTF8.data.toList ≠ env.sha256 password.toUTF8.data.toList →
        wp (handleLogin env (credentials username password')) (fun j' _ => j'.value "status" = .str "error")
          (fun _ _ => False) w₁)
    (fun _ _ => False) w

theorem not_admits_of_error {j : Json} {u : ℤ} (he : j.value "status" = .str "error") : ¬ Admits j u := by
  intro h
  have hstatus := h.1.symm.trans he
  exact absurd (Json.str.inj hstatus) (by decide)

/-- **No name and no password make the round trip.** -/
theorem not_roundTrips (env : Env) (w : World) (username password : String) : ¬ RoundTrips env w username password :=
  fun h => wp_exclude h (handleRegister_refuses env _ w) (fun _ _ ⟨_, hu, _⟩ he => not_admits_of_error he hu)
    fun _ _ hno _ => hno

/-- An environment in which no call fails, with the digest of one password. -/
def reliable : Env where
  sha256 bytes i :=
    if bytes = "password".toUTF8.data.toList then
      [0x5e, 0x88, 0x48, 0x98, 0xda, 0x28, 0x04, 0x71, 0x51, 0xd0, 0xe5, 0x6f, 0x8d, 0xc6, 0x29, 0x27, 0x73, 0x60,
        0x3d, 0x0d, 0x6a, 0xab, 0xbd, 0xd6, 0x2a, 0x11, 0xef, 0x72, 0x1d, 0x15, 0x42, 0xd8].getD i 0
    else 0
  hmac _ _ _ := 0
  dump _ := ""
  fails _ := none
  inDoubt _ := false
  closed _ := false
  now := id
  ulongBits := 32

/-- The table of `init.sql`, and a pool of one connection. -/
def start : World where
  users := ⟨[], by decide⟩
  work := ⟨[], by decide⟩
  began := 0
  nextUserId := 1
  pool := ⟨[0], [false], 1, []⟩
  tick := 0

/-- A name of eight bytes that nobody has, and a password of eight. -/
theorem not_roundTrips_newcomer :
    ("newcomer".utf8ByteSize = 8 ∧ "password".utf8ByteSize = 8 ∧ ∀ u ∈ start.users.1, u.username ≠ "newcomer") ∧
      ¬ RoundTrips reliable start "newcomer" "password" := by
  refine ⟨by decide, fun h => wp_exclude h (handleRegister_refuses reliable _ start) ?_ fun _ _ hno _ => hno⟩
  exact fun _ _ ⟨_, hu, _⟩ he => not_admits_of_error he hu

end AuthApi

end GameSocket
end SocketCommunication
