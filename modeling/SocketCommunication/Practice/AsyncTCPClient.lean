/-
# The asynchronous client of the exercises

`AsyncTCPClient` sends each request through three operations, a connect, a write and a
read, and ends it in `onRequestComplete`, which calls the callback.  The client with
several threads has the same handlers.  A handler and `cancelRequest` are one step each,
in the order in which they take `m_active_sessions_guard`.

The handlers test `!ec` where they mean `ec`: a success ends the request, and a failure
starts the next operation.  `m_ec` is never an error, so that the callback is only ever
called with success or with `operation_aborted`.

* `requestsComplete_iff`: every request is called back as it should be, throughout a run,
  just when every request that ends was cancelled before anything else happened to it.
-/

import Mathlib.Data.List.AList
import SocketCommunication.Lib.Run
import SocketCommunication.Lib.Slots

namespace SocketCommunication
namespace Practice
namespace AsyncTCPClient

/-- An `error_code` that is not a success. -/
inductive Error where
  | operationAborted
  | other (value : ℕ)
  deriving DecidableEq

/-- The operation of a request that is under way. -/
inductive Stage where
  | connect
  | write
  | read
  deriving DecidableEq

/-- What happens to a request: `cancelRequest`, or an operation completes, with what the
response buffer holds then. -/
inductive Item where
  | cancelled
  | completed (result : Option Error) (buffer : List UInt8)
  deriving DecidableEq

/-- `Session`; `history` is what has happened to the request, and no code reads it. -/
structure Session where
  id : ℕ
  /-- `m_was_cancelled`. -/
  wasCancelled : Bool
  /-- `m_ec`. -/
  ec : Option Error
  /-- `m_response`. -/
  response : List UInt8
  /-- The operation whose handler will be called. -/
  pending : Option Stage
  /-- The calls of `m_callback` so far. -/
  calls : List (List UInt8 × Option Error)
  history : List Item
  deriving DecidableEq, Inhabited

/-- `std::getline`. -/
def getline (buffer : List UInt8) : List UInt8 := buffer.takeWhile (· ≠ 0x0A)

namespace Session

/-- A request whose connect has been started. -/
def make (id : ℕ) : Session := ⟨id, false, none, [], some .connect, [], []⟩

/-- `onRequestComplete`, but for `m_active_sessions`. -/
def complete (x : Session) : Session :=
  { x with
    pending := none
    calls := x.calls ++ [(x.response, if x.ec = none ∧ x.wasCancelled then some .operationAborted else x.ec)] }

/-- The handlers of the connect and of the write, which start the `next` operation. -/
def proceed (x : Session) (result : Option Error) (next : Stage) : Session :=
  if result = none then { x with ec := result }.complete
  else if x.wasCancelled then x.complete
  else { x with pending := some next }

def onConnect (x : Session) (result : Option Error) : Session := x.proceed result .write

def onWrite (x : Session) (result : Option Error) : Session := x.proceed result .read

def onRead (x : Session) (result : Option Error) (buffer : List UInt8) : Session :=
  if result = none then { x with ec := result }.complete
  else { x with response := getline buffer }.complete

/-- The handler of an operation. -/
def handle (x : Session) (result : Option Error) (buffer : List UInt8) : Stage → Session
  | .connect => x.onConnect result
  | .write => x.onWrite result
  | .read => x.onRead result buffer

def note (x : Session) (item : Item) : Session := { x with history := x.history ++ [item] }

end Session

/-- The client, with the requests in the order in which they were made. -/
structure Client where
  sessions : List Session
  /-- `m_active_sessions`. -/
  active : AList fun _ : ℕ => ℕ

inductive Event where
  /-- `emulateLongComputationOp`. -/
  | start (id : ℕ)
  /-- The operation of the `i`-th request completes. -/
  | completed (i : ℕ) (result : Option Error) (buffer : List UInt8)
  | cancelRequest (id : ℕ)

namespace Client

def empty : Client := ⟨[], ∅⟩

/-- The `i`-th request and the operation it waits for. -/
def waiting (c : Client) (i : ℕ) : Option (Session × Stage) :=
  (c.sessions[i]?).bind fun x => x.pending.map fun stage => (x, stage)

def step (c : Client) : Event → Client
  | .start id => ⟨c.sessions ++ [.make id], c.active.insert id c.sessions.length⟩
  | .completed i result buffer =>
    match c.waiting i with
    | none => c
    | some (x, stage) =>
      let y := (x.note (.completed result buffer)).handle result buffer stage
      ⟨c.sessions.set i y, if y.pending = none then c.active.erase x.id else c.active⟩
  | .cancelRequest id =>
    match c.active.lookup id with
    | none => c
    | some i =>
      { c with sessions := c.sessions.modify i fun x => { x.note .cancelled with wasCancelled := true } }

end Client

/-! ### What a callback should be told -/

/-- What becomes of a request. -/
inductive Verdict where
  | success (line : List UInt8)
  | failure (error : Error)
  deriving DecidableEq

/-- What has happened decides about a request: the first of a cancel and of an operation
that fails, or three operations that succeed; `succeeded` have so far. -/
def verdict : ℕ → List Item → Option Verdict
  | _, [] => none
  | _, .cancelled :: _ => some (.failure .operationAborted)
  | _, .completed (some error) _ :: _ => some (.failure error)
  | succeeded, .completed none buffer :: items =>
    if succeeded = 2 then some (.success (getline buffer)) else verdict (succeeded + 1) items

/-- The callback was told that. -/
def Verdict.tells (v : Verdict) (call : List UInt8 × Option Error) : Bool :=
  match v with
  | .success line => call = (line, none)
  | .failure error => call.2 = some error

/-- The request has been called back once, as it should be. -/
def Session.calledBack (x : Session) : Bool :=
  match x.calls with
  | [call] => (verdict 0 x.history).any (·.tells call)
  | _ => false

/-- A request that has ended has been called back once, as it should be, and is not in
`m_active_sessions` any more; one that waits has not been called back yet. -/
def Client.RequestsComplete (c : Client) : Prop :=
  ∀ x ∈ c.sessions, if x.pending = none then x.calledBack ∧ x.id ∉ c.active else x.calls = []

instance (c : Client) : Decidable c.RequestsComplete := inferInstanceAs (Decidable (∀ x ∈ c.sessions, _))

/-! ### When they are -/

/-- The error that the item is. -/
def Item.error : Item → Option Error
  | .cancelled => some .operationAborted
  | .completed result _ => result

/-- The request was cancelled, and nothing came before that but a connect that was
aborted. -/
def Session.CancelledFirst (x : Session) : Prop :=
  x.wasCancelled ∧ x.history.head?.bind Item.error = some .operationAborted

instance (x : Session) : Decidable x.CancelledFirst := inferInstanceAs (Decidable (_ ∧ _))

/-- The handler ends the request. -/
def Session.Ends (x : Session) (stage : Stage) (result : Option Error) : Prop :=
  stage = .read ∨ result = none ∨ x.wasCancelled

instance (x : Session) (stage : Stage) (result : Option Error) : Decidable (x.Ends stage result) :=
  inferInstanceAs (Decidable (_ ∨ _ ∨ _))

/-- The event ends no request but one that was cancelled first. -/
def Client.EndsCancelled (c : Client) : Event → Prop
  | .completed i result _ => ∀ found ∈ c.waiting i, found.1.Ends found.2 result → found.1.CancelledFirst
  | _ => True

/-- The event starts no request under an id that was used before. -/
def Client.Distinct (c : Client) : Event → Prop
  | .start id => ∀ x ∈ c.sessions, x.id ≠ id
  | _ => True

instance (c : Client) : DecidablePred c.EndsCancelled
  | .completed i result _ =>
    inferInstanceAs (Decidable (∀ found ∈ c.waiting i, found.1.Ends found.2 result → found.1.CancelledFirst))
  | .start _ => inferInstanceAs (Decidable True)
  | .cancelRequest _ => inferInstanceAs (Decidable True)

instance (c : Client) : DecidablePred c.Distinct
  | .start id => inferInstanceAs (Decidable (∀ x ∈ c.sessions, x.id ≠ id))
  | .completed _ _ _ => inferInstanceAs (Decidable True)
  | .cancelRequest _ => inferInstanceAs (Decidable True)

namespace Session

variable {x : Session} {result : Option Error} {buffer : List UInt8} {stage : Stage}

/-- The request has not been called back, and no error is kept. -/
structure Silent (x : Session) : Prop where
  calls : x.calls = []
  ec : x.ec = none

/-- A request that waits: nothing has succeeded yet. -/
structure Waits (x : Session) : Prop extends Silent x where
  head : ∀ item, x.history.head? = some item → item.error ≠ none
  cancelled : x.wasCancelled → x.history ≠ []

theorem waits_make (id : ℕ) : (make id).Waits := ⟨⟨rfl, rfl⟩, fun _ h => (by cases h), fun h => (by cases h)⟩

theorem head?_note (x : Session) (item : Item) : (x.note item).history.head? = some (x.history.head?.getD item) := by
  cases hx : x.history <;> simp [note, hx]

/-- Something that is an error happens to a request that waits. -/
theorem Waits.note (h : x.Waits) {item : Item} (hitem : item.error ≠ none) : (x.note item).Waits where
  calls := h.calls
  ec := h.ec
  head first hfirst := by
    rw [head?_note, Option.some.injEq] at hfirst
    subst hfirst
    cases hx : x.history.head? with
    | none => exact hitem
    | some first => exact h.head first hx
  cancelled _ := List.append_ne_nil_of_right_ne_nil _ (List.cons_ne_nil _ _)

/-- What the callback is told. -/
theorem Silent.complete_eq (h : x.Silent) : x.complete =
    { x with pending := none, calls := [(x.response, if x.wasCancelled then some .operationAborted else none)] } := by
  simp only [complete, h.calls, h.ec, List.nil_append, true_and]

/-- Success leaves `m_ec`. -/
theorem Silent.succeeds_eq (h : x.Silent) (hresult : result = none) : ({ x with ec := result } : Session) = x := by
  rw [hresult, ← h.ec]

theorem Silent.proceed_eq (h : x.Silent) (hends : result = none ∨ x.wasCancelled) (next : Stage) :
    x.proceed result next = x.complete := by
  unfold proceed
  split_ifs with hresult hcancelled
  · rw [h.succeeds_eq hresult]
  · rfl
  · exact absurd hends (not_or.2 ⟨hresult, hcancelled⟩)

/-- **A handler that ends the request calls it back**, and never with an error of an
operation. -/
theorem Silent.handle_of_ends (h : x.Silent) (hends : x.Ends stage result) :
    ∃ response, x.handle result buffer stage =
      { x with
        response
        pending := none
        calls := [(response, if x.wasCancelled then some .operationAborted else none)] } := by
  cases stage with
  | connect =>
    have hends' : result = none ∨ x.wasCancelled := hends.resolve_left (by decide)
    exact ⟨x.response, (h.proceed_eq hends' .write).trans h.complete_eq⟩
  | write =>
    have hends' : result = none ∨ x.wasCancelled := hends.resolve_left (by decide)
    exact ⟨x.response, (h.proceed_eq hends' .read).trans h.complete_eq⟩
  | read =>
    by_cases hresult : result = none
    · have hdone : x.onRead result buffer = x.complete := by rw [onRead, if_pos hresult, h.succeeds_eq hresult]
      exact ⟨x.response, hdone.trans h.complete_eq⟩
    · have hdone : x.onRead result buffer = { x with response := getline buffer }.complete := if_neg hresult
      have hread : ({ x with response := getline buffer } : Session).Silent := ⟨h.calls, h.ec⟩
      exact ⟨getline buffer, hdone.trans hread.complete_eq⟩

/-- A handler that does not end the request starts the next operation. -/
theorem handle_of_not_ends (hends : ¬ x.Ends stage result) :
    result ≠ none ∧ ∃ next, x.handle result buffer stage = { x with pending := some next } := by
  simp only [Ends, not_or] at hends
  obtain ⟨hread, hresult, hlive⟩ := hends
  refine ⟨hresult, ?_⟩
  cases stage with
  | connect => exact ⟨.write, (if_neg hresult).trans (if_neg hlive)⟩
  | write => exact ⟨.read, (if_neg hresult).trans (if_neg hlive)⟩
  | read => exact absurd rfl hread

/-- The completions that the request still waits for, at the most. -/
def left (x : Session) : ℕ :=
  match x.pending with
  | none => 0
  | some .connect => 3
  | some .write => 2
  | some .read => 1

/-- **A handler brings the request nearer to its end.** -/
theorem left_handle (hx : x.pending = some stage) : (x.handle result buffer stage).left < x.left := by
  have hproceed : ∀ next, (x.proceed result next).left ≤ ({ x with pending := some next } : Session).left := by
    intro next
    unfold proceed
    split_ifs
    · exact Nat.zero_le _
    · exact Nat.zero_le _
    · exact Nat.le_refl _
  cases stage with
  | connect =>
    rw [show x.left = 3 by rw [left, hx]]
    exact Nat.lt_succ_of_le (hproceed .write)
  | write =>
    rw [show x.left = 2 by rw [left, hx]]
    exact Nat.lt_succ_of_le (hproceed .read)
  | read =>
    have hdone : (x.onRead result buffer).left = 0 := by
      unfold onRead
      split_ifs <;> rfl
    rw [show x.left = 1 by rw [left, hx]]
    exact Nat.lt_succ_of_le (Nat.le_of_eq hdone)

theorem verdict_cons {item : Item} {error : Error} (h : item.error = some error) (items : List Item) :
    verdict 0 (item :: items) = some (.failure error) := by
  cases item with
  | cancelled =>
    obtain rfl := Option.some.inj h
    rfl
  | completed result buffer =>
    obtain rfl : result = some error := h
    rfl

/-- **A request that ends is called back as it should be just when it was cancelled first.** -/
theorem Waits.calledBack_iff (h : x.Waits) {y : Session} {response : List UInt8}
    (hcalls : y.calls = [(response, if x.wasCancelled then some .operationAborted else none)])
    (hhistory : y.history = x.history ++ [.completed result buffer]) : y.calledBack ↔ x.CancelledFirst := by
  rw [calledBack, hcalls]
  dsimp only
  cases hx : x.history with
  | nil =>
    have hlive : ¬ x.wasCancelled := fun hc => h.cancelled hc hx
    rw [hhistory, hx, if_neg hlive]
    refine iff_of_false ?_ fun hc => hlive hc.1
    cases result with
    | none => simp [verdict]
    | some error => simp [verdict, Verdict.tells]
  | cons item items =>
    obtain ⟨error, herror⟩ := Option.ne_none_iff_exists'.1 (h.head item (by rw [hx]; rfl))
    rw [hhistory, hx, List.cons_append, verdict_cons herror, CancelledFirst, hx, List.head?_cons, Option.bind_some, herror,
      Option.any_some, Verdict.tells, decide_eq_true_eq]
    by_cases hcancelled : x.wasCancelled
    · rw [if_pos hcancelled, and_iff_right hcancelled]
      exact eq_comm
    · rw [if_neg hcancelled]
      exact iff_of_false (Option.some_ne_none error).symm fun hc => hcancelled hc.1

end Session

namespace Client

variable {c : Client} {i : ℕ} {x : Session} {stage : Stage} {result : Option Error} {buffer : List UInt8} {id : ℕ}

theorem waiting_eq_some : c.waiting i = some (x, stage) ↔ c.sessions[i]? = some x ∧ x.pending = some stage := by
  rw [waiting, Option.bind_eq_some_iff]
  constructor
  · rintro ⟨y, hy, hmap⟩
    obtain ⟨stage', hstage, heq⟩ := Option.map_eq_some_iff.1 hmap
    obtain ⟨rfl, rfl⟩ := Prod.mk.inj heq
    exact ⟨hy, hstage⟩
  · rintro ⟨hx, hstage⟩
    exact ⟨x, hx, by rw [hstage]; rfl⟩

/-- The invariant of the runs that meet the condition. -/
structure Inv (c : Client) : Prop where
  /-- No two requests have one id. -/
  ids : ∀ (i j : ℕ) (x y : Session), c.sessions[i]? = some x → c.sessions[j]? = some y → x.id = y.id → i = j
  /-- The requests in `m_active_sessions` are those that wait. -/
  active : ∀ id i, c.active.lookup id = some i ↔ ∃ x, c.sessions[i]? = some x ∧ x.id = id ∧ x.pending ≠ none
  waits : ∀ x ∈ c.sessions, x.pending ≠ none → x.Waits
  calledBack : ∀ x ∈ c.sessions, x.pending = none → x.calledBack

theorem inv_empty : Inv empty where
  ids _ _ _ _ hx := by cases hx
  active id i := iff_of_false (by rw [empty, AList.lookup_empty]; exact (Option.some_ne_none i).symm) fun ⟨_, hx, _⟩ => by cases hx
  waits _ hx := absurd hx List.not_mem_nil
  calledBack _ hx := absurd hx List.not_mem_nil

/-- A request that has ended is not in `m_active_sessions`. -/
theorem Inv.not_mem_active (h : c.Inv) (hx : x ∈ c.sessions) (hpending : x.pending = none) : x.id ∉ c.active := by
  intro hmem
  obtain ⟨i, hi⟩ := Option.isSome_iff_exists.1 (AList.lookup_isSome.2 hmem)
  obtain ⟨y, hy, hid, hwaits⟩ := (h.active _ _).1 hi
  obtain ⟨j, hj⟩ := List.mem_iff_getElem?.1 hx
  obtain rfl := h.ids i j y x hy hj hid
  obtain rfl := Option.some.inj (hy.symm.trans hj)
  exact hwaits hpending

theorem Inv.requestsComplete (h : c.Inv) : c.RequestsComplete := by
  intro x hx
  split_ifs with hpending
  · exact ⟨h.calledBack x hx hpending, h.not_mem_active hx hpending⟩
  · exact (h.waits x hx hpending).calls

/-- A new request. -/
theorem Inv.start (h : c.Inv) (hid : ∀ x ∈ c.sessions, x.id ≠ id) : (c.step (.start id)).Inv := by
  have hsome : ∀ (j : ℕ) (z : Session), (c.sessions ++ [Session.make id])[j]? = some z ↔
      c.sessions[j]? = some z ∨ (j = c.sessions.length ∧ z = .make id) := fun _ _ => Slots.getElem?_append_iff
  have hold : ∀ {j : ℕ} {z : Session}, c.sessions[j]? = some z → z.id ≠ id := fun hz => hid _ (List.mem_of_getElem? hz)
  refine ⟨fun i j x y hx hy hxy => ?_, fun id' i => ?_, fun x hx hpending => ?_, fun x hx hpending => ?_⟩
  · rcases (hsome i x).1 hx with hx | ⟨rfl, rfl⟩ <;> rcases (hsome j y).1 hy with hy | ⟨rfl, rfl⟩
    · exact h.ids i j x y hx hy hxy
    · exact absurd hxy (hold hx)
    · exact absurd hxy.symm (hold hy)
    · rfl
  · show (c.active.insert id c.sessions.length).lookup id' = some i ↔ _
    by_cases hsame : id' = id
    · subst hsame
      rw [AList.lookup_insert, Option.some.injEq]
      constructor
      · rintro rfl
        exact ⟨.make id', (hsome _ _).2 (.inr ⟨rfl, rfl⟩), rfl, Option.some_ne_none _⟩
      · rintro ⟨x, hx, hxid, -⟩
        rcases (hsome i x).1 hx with hx | ⟨rfl, rfl⟩
        · exact absurd hxid (hold hx)
        · rfl
    · rw [AList.lookup_insert_ne hsame, h.active]
      constructor
      · rintro ⟨x, hx, hrest⟩
        exact ⟨x, (hsome i x).2 (.inl hx), hrest⟩
      · rintro ⟨x, hx, hxid, hpending⟩
        rcases (hsome i x).1 hx with hx | ⟨rfl, rfl⟩
        · exact ⟨x, hx, hxid, hpending⟩
        · exact absurd hxid.symm hsame
  · rcases List.mem_append.1 hx with hx | hx
    · exact h.waits x hx hpending
    · rw [List.mem_singleton.1 hx]
      exact Session.waits_make id
  · rcases List.mem_append.1 hx with hx | hx
    · exact h.calledBack x hx hpending
    · rw [List.mem_singleton.1 hx] at hpending
      cases hpending

/-- What happens to one request that waits. -/
theorem Inv.update (h : c.Inv) {y : Session} (hx : c.sessions[i]? = some x) (hpending : x.pending ≠ none)
    (hid : y.id = x.id) (hwaits : y.pending ≠ none → y.Waits) (hcalled : y.pending = none → y.calledBack) :
    Inv ⟨c.sessions.set i y, if y.pending = none then c.active.erase x.id else c.active⟩ := by
  obtain ⟨hlt, -⟩ := List.getElem?_eq_some_iff.1 hx
  have hsome : ∀ (j : ℕ) (z : Session), (c.sessions.set i y)[j]? = some z ↔ (j = i ∧ z = y) ∨ (j ≠ i ∧ c.sessions[j]? = some z) :=
    fun _ _ => Slots.getElem?_set_iff hlt
  -- every request was there under its id
  have hback : ∀ {j : ℕ} {z : Session}, (c.sessions.set i y)[j]? = some z → ∃ w, c.sessions[j]? = some w ∧ w.id = z.id := by
    intro j z hz
    rcases (hsome j z).1 hz with ⟨rfl, rfl⟩ | ⟨-, hz⟩
    · exact ⟨x, hx, hid.symm⟩
    · exact ⟨z, hz, rfl⟩
  refine ⟨fun j k z w hz hw hzw => ?_, fun id' j => ?_, fun z hz hwait => ?_, fun z hz hend => ?_⟩
  · obtain ⟨z', hz', hzid⟩ := hback hz
    obtain ⟨w', hw', hwid⟩ := hback hw
    exact h.ids j k z' w' hz' hw' (hzid.trans (hzw.trans hwid.symm))
  · -- `m_active_sessions` has lost the request when it has ended
    have hactive : (if y.pending = none then c.active.erase x.id else c.active).lookup id' = some j ↔
        c.active.lookup id' = some j ∧ (j = i → y.pending ≠ none) := by
      have hlookup : c.active.lookup x.id = some i := (h.active _ _).2 ⟨x, hx, rfl, hpending⟩
      split_ifs with hend
      · by_cases hsame : id' = x.id
        · rw [hsame, AList.lookup_erase, hlookup, Option.some.injEq]
          exact iff_of_false (Option.some_ne_none j).symm fun hj => hj.2 hj.1.symm hend
        · rw [AList.lookup_erase_ne hsame]
          refine (and_iff_left_of_imp fun hj hji => ?_).symm
          obtain ⟨z, hz, hzid, -⟩ := (h.active _ _).1 hj
          rw [hji, hx, Option.some.injEq] at hz
          rw [hz] at hsame
          exact absurd hzid.symm hsame
      · exact (and_iff_left fun _ => hend).symm
    show (if y.pending = none then c.active.erase x.id else c.active).lookup id' = some j ↔ _
    rw [hactive, h.active]
    constructor
    · rintro ⟨⟨z, hz, hzid, hwait⟩, hnot⟩
      by_cases hj : j = i
      · rw [hj, hx, Option.some.injEq] at hz
        exact ⟨y, (hsome j y).2 (.inl ⟨hj, rfl⟩), by rw [hid, hz, hzid], hnot hj⟩
      · exact ⟨z, (hsome j z).2 (.inr ⟨hj, hz⟩), hzid, hwait⟩
    · rintro ⟨z, hz, hzid, hwait⟩
      rcases (hsome j z).1 hz with ⟨rfl, rfl⟩ | ⟨hj, hz⟩
      · exact ⟨⟨x, hx, hid.symm.trans hzid, hpending⟩, fun _ => hwait⟩
      · exact ⟨⟨z, hz, hzid, hwait⟩, fun hji => absurd hji hj⟩
  · obtain ⟨j, hj⟩ := List.mem_iff_getElem?.1 hz
    rcases (hsome j z).1 hj with ⟨-, rfl⟩ | ⟨-, hj⟩
    · exact hwaits hwait
    · exact h.waits z (List.mem_of_getElem? hj) hwait
  · obtain ⟨j, hj⟩ := List.mem_iff_getElem?.1 hz
    rcases (hsome j z).1 hj with ⟨-, rfl⟩ | ⟨-, hj⟩
    · exact hcalled hend
    · exact h.calledBack z (List.mem_of_getElem? hj) hend

theorem step_completed (hwaiting : c.waiting i = some (x, stage)) : c.step (.completed i result buffer) =
    ⟨c.sessions.set i ((x.note (.completed result buffer)).handle result buffer stage),
      if ((x.note (.completed result buffer)).handle result buffer stage).pending = none then c.active.erase x.id
      else c.active⟩ := by
  simp only [step, hwaiting]

/-- **A completion**, of a request that goes on or was cancelled first. -/
theorem Inv.completed (h : c.Inv) (hC : c.EndsCancelled (.completed i result buffer)) :
    (c.step (.completed i result buffer)).Inv := by
  cases hwaiting : c.waiting i with
  | none =>
    rw [show c.step (.completed i result buffer) = c by simp only [step, hwaiting]]
    exact h
  | some found =>
    obtain ⟨x, stage⟩ := found
    obtain ⟨hx, hstage⟩ := waiting_eq_some.1 hwaiting
    have hpending : x.pending ≠ none := by rw [hstage]; exact Option.some_ne_none stage
    have hwaits : x.Waits := h.waits x (List.mem_of_getElem? hx) hpending
    rw [step_completed hwaiting]
    by_cases hends : x.Ends stage result
    · have hsilent : (x.note (.completed result buffer)).Silent := ⟨hwaits.calls, hwaits.ec⟩
      obtain ⟨response, heq⟩ := @Session.Silent.handle_of_ends _ result buffer stage hsilent hends
      refine h.update hx hpending (by rw [heq]; rfl) (fun hwait => absurd (by rw [heq]) hwait) fun _ => ?_
      exact (hwaits.calledBack_iff (by rw [heq]; rfl) (by rw [heq]; rfl)).2 (hC _ hwaiting hends)
    · obtain ⟨hfails, next, heq⟩ := @Session.handle_of_not_ends (x.note (.completed result buffer)) result buffer stage hends
      have hnote : (x.note (.completed result buffer)).Waits := hwaits.note hfails
      refine h.update hx hpending (by rw [heq]; rfl) (fun _ => ?_) fun hend => ?_
      · rw [heq]
        exact ⟨⟨hnote.calls, hnote.ec⟩, hnote.head, hnote.cancelled⟩
      · rw [heq] at hend
        cases hend

/-- A cancel of a request that waits. -/
theorem Inv.cancelRequest (h : c.Inv) : (c.step (.cancelRequest id)).Inv := by
  cases hlookup : c.active.lookup id with
  | none =>
    rw [show c.step (.cancelRequest id) = c by simp only [step, hlookup]]
    exact h
  | some i =>
    obtain ⟨x, hx, -, hpending⟩ := (h.active _ _).1 hlookup
    have hwaits : x.Waits := h.waits x (List.mem_of_getElem? hx) hpending
    have hnote : (x.note .cancelled).Waits := hwaits.note (Option.some_ne_none _)
    have hstep : c.step (.cancelRequest id) = ⟨c.sessions.set i { x.note .cancelled with wasCancelled := true },
        if ({ x.note .cancelled with wasCancelled := true } : Session).pending = none then c.active.erase x.id
        else c.active⟩ := by
      have hwait : ({ x.note .cancelled with wasCancelled := true } : Session).pending ≠ none := hpending
      simp only [step, hlookup, List.modify_eq_set, hx, Option.getD_some]
      rw [if_neg hwait]
    rw [hstep]
    refine h.update hx hpending rfl (fun _ => ⟨⟨hnote.calls, hnote.ec⟩, hnote.head, fun _ => ?_⟩) fun hend => absurd hend hpending
    exact List.append_ne_nil_of_right_ne_nil _ (List.cons_ne_nil _ _)

/-- **The condition keeps the invariant.** -/
theorem Inv.step (h : c.Inv) {e : Event} (hdistinct : c.Distinct e) (hC : c.EndsCancelled e) : (c.step e).Inv := by
  cases e with
  | start id => exact h.start hdistinct
  | completed i result buffer => exact h.completed hC
  | cancelRequest id => exact h.cancelRequest

/-- **A request that ends and was not cancelled first is called back as it should not be.** -/
theorem Inv.not_requestsComplete (h : c.Inv) {e : Event} (hC : ¬ c.EndsCancelled e) : ¬ (c.step e).RequestsComplete := by
  cases e with
  | start id => exact absurd trivial hC
  | cancelRequest id => exact absurd trivial hC
  | completed i result buffer =>
    intro hcomplete
    refine hC fun found hwaiting hends => ?_
    obtain ⟨x, stage⟩ := found
    obtain ⟨hx, hstage⟩ := waiting_eq_some.1 hwaiting
    have hwaits : x.Waits := h.waits x (List.mem_of_getElem? hx) (by rw [hstage]; exact Option.some_ne_none stage)
    have hsilent : (x.note (.completed result buffer)).Silent := ⟨hwaits.calls, hwaits.ec⟩
    obtain ⟨response, heq⟩ := @Session.Silent.handle_of_ends _ result buffer stage hsilent hends
    rw [step_completed hwaiting] at hcomplete
    obtain ⟨hlt, -⟩ := List.getElem?_eq_some_iff.1 hx
    have hy := hcomplete _ (List.mem_set hlt _)
    rw [if_pos (by rw [heq])] at hy
    exact (hwaits.calledBack_iff (by rw [heq]; rfl) (by rw [heq]; rfl)).1 hy.1

/-- **Every request is called back as it should be, throughout a run, just when every
request that ends was cancelled first.** -/
theorem requestsComplete_iff {es : List Event} (hes : Run.Along step Distinct empty es) :
    Run.Throughout step RequestsComplete empty es ↔ Run.Along step EndsCancelled empty es :=
  Run.throughout_iff_along_in (I := Inv) (fun _ h => h.requestsComplete) (fun _ _ hdistinct h hC => h.step hdistinct hC)
    (fun _ _ _ h hC => h.not_requestsComplete hC) inv_empty hes

/-- Three requests: one is cancelled while it connects and the connect is aborted, one is
cancelled and connects all the same, and one waits for its read. -/
theorem requestsComplete_cancelled :
    Run.Throughout step RequestsComplete empty [.start 1, .start 2, .cancelRequest 1, .start 3,
      .completed 2 (some (.other 111)) [], .completed 0 (some .operationAborted) [], .cancelRequest 2,
      .completed 2 (some (.other 32)) [], .completed 1 none []] := by
  have hdistinct : Run.Along step Distinct empty [.start 1, .start 2, .cancelRequest 1, .start 3,
      .completed 2 (some (.other 111)) [], .completed 0 (some .operationAborted) [], .cancelRequest 2,
      .completed 2 (some (.other 32)) [], .completed 1 none []] := by
    decide +kernel
  exact (requestsComplete_iff hdistinct).2 (by decide +kernel)

/-- A request that has only been connected is called back with success. -/
theorem not_requestsComplete_connected :
    ¬ Run.Throughout step RequestsComplete empty [.start 1, .completed 0 none []] := by
  decide +kernel

end Client

end AsyncTCPClient
end Practice
end SocketCommunication
