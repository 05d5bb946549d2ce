/-
# The locks of the asynchronous client

`cancelRequest` takes `m_active_sessions_guard` and, with it, the `m_cancel_guard` of the
request that it finds.  The handler of a connect or of a write that has failed takes the
`m_cancel_guard` of its request and, with it, `m_active_sessions_guard` in
`onRequestComplete` if the request was cancelled.  Here a thread makes one step from one
lock to the next, and the steps of all threads come in any order.

* `replays`: in every interleaving the requests are those of a run of `Client.step`, whose
  handlers and `cancelRequest` are one step each.
* `stuck_iff`: `m_active_sessions_guard` is never released just where `cancelRequest` waits
  for the guard of a request that was cancelled before and whose handler has it.
-/

import SocketCommunication.Practice.ActiveSessions

namespace SocketCommunication
namespace Practice
namespace AsyncTCPClient

/-- Where a handler stands that was called with `result`. -/
inductive Handler where
  /-- The connect or the write has failed, and the handler waits for `m_cancel_guard`. -/
  | failed (stage : Stage) (result : Option Error) (buffer : List UInt8)
  /-- It has `m_cancel_guard`, and has not read `m_was_cancelled`. -/
  | guarded (stage : Stage) (result : Option Error) (buffer : List UInt8)
  /-- In `onRequestComplete`, waiting for `m_active_sessions_guard`; `held` if it has
  `m_cancel_guard`. -/
  | completing (stage : Stage) (result : Option Error) (buffer : List UInt8) (held : Bool)
  /-- In `onRequestComplete`, about to call back. -/
  | calling (held : Bool)
  deriving DecidableEq

/-- The handler has the `m_cancel_guard` of its request. -/
def Handler.holds : Handler → Bool
  | .failed _ _ _ => false
  | .guarded _ _ _ => true
  | .completing _ _ _ held => held
  | .calling held => held

/-- A session and its handler that runs; it has one at most. -/
structure Request where
  session : Session
  handler : Option Handler
  deriving DecidableEq

/-- The operation that the handler of the connect or of the write starts. -/
def Stage.next : Stage → Stage
  | .connect => .write
  | .write | .read => .read

namespace Request

def holds (r : Request) : Bool := r.handler.any Handler.holds

/-- An operation has completed, and its handler gets to its first lock. -/
def complete (x : Session) (stage : Stage) (result : Option Error) (buffer : List UInt8) : Request :=
  if result = none then ⟨{ x with pending := none, ec := result }, some (.completing stage result buffer false)⟩
  else if stage = .read then
    ⟨{ x with pending := none, response := getline buffer }, some (.completing stage result buffer false)⟩
  else ⟨{ x with pending := none }, some (.failed stage result buffer)⟩

end Request

/-- Who has `m_active_sessions_guard` beyond one step: a `cancelRequest` that has found the
`i`-th request, without or with the `m_cancel_guard` of it. -/
inductive Holder where
  | free
  | found (i : ℕ)
  | locked (i : ℕ)
  deriving DecidableEq

/-- The client with its locks. -/
structure Locked where
  requests : List Request
  /-- `m_active_sessions`. -/
  active : AList fun _ : ℕ => ℕ
  holder : Holder

/-- The steps of the threads. -/
inductive Move where
  /-- `emulateLongComputationOp`. -/
  | start (id : ℕ)
  /-- The operation of the `i`-th request completes, and its handler is called. -/
  | completed (i : ℕ) (result : Option Error) (buffer : List UInt8)
  /-- The handler takes `m_cancel_guard`. -/
  | takeGuard (i : ℕ)
  /-- The handler reads `m_was_cancelled`. -/
  | readCancelled (i : ℕ)
  /-- `onRequestComplete` takes `m_active_sessions_guard`, erases, and releases it. -/
  | erase (i : ℕ)
  /-- `onRequestComplete` calls back, and the handler returns. -/
  | call (i : ℕ)
  /-- `cancelRequest` takes `m_active_sessions_guard` and looks for the request. -/
  | find (id : ℕ)
  /-- `cancelRequest` takes `m_cancel_guard`. -/
  | lock
  /-- `cancelRequest` sets `m_was_cancelled`, and releases both. -/
  | cancel

namespace Locked

def empty : Locked := ⟨[], ∅, .free⟩

def set (s : Locked) (i : ℕ) (r : Request) : Locked := { s with requests := s.requests.set i r }

/-- A thread that cannot take its lock waits. -/
def step (s : Locked) : Move → Locked
  | .start id =>
    if s.holder = .free then
      { s with requests := s.requests ++ [⟨.make id, none⟩], active := s.active.insert id s.requests.length }
    else s
  | .completed i result buffer =>
    match s.requests[i]? with
    | some ⟨x, none⟩ => x.pending.elim s fun stage => s.set i (.complete x stage result buffer)
    | _ => s
  | .takeGuard i =>
    match s.requests[i]? with
    | some ⟨x, some (.failed stage result buffer)⟩ =>
      if s.holder = .locked i then s else s.set i ⟨x, some (.guarded stage result buffer)⟩
    | _ => s
  | .readCancelled i =>
    match s.requests[i]? with
    | some ⟨x, some (.guarded stage result buffer)⟩ =>
      if x.wasCancelled then s.set i ⟨x, some (.completing stage result buffer true)⟩
      else s.set i ⟨{ x.note (.completed result buffer) with pending := some stage.next }, none⟩
    | _ => s
  | .erase i =>
    match s.requests[i]? with
    | some ⟨x, some (.completing _ result buffer held)⟩ =>
      if s.holder = .free then
        { s.set i ⟨x.note (.completed result buffer), some (.calling held)⟩ with active := s.active.erase x.id }
      else s
    | _ => s
  | .call i =>
    match s.requests[i]? with
    | some ⟨x, some (.calling _)⟩ => s.set i ⟨x.complete, none⟩
    | _ => s
  | .find id =>
    if s.holder = .free then (s.active.lookup id).elim s fun i => { s with holder := .found i } else s
  | .lock =>
    match s.holder with
    | .found i => if (s.requests[i]?).any Request.holds then s else { s with holder := .locked i }
    | _ => s
  | .cancel =>
    match s.holder with
    | .locked i =>
      (s.requests[i]?).elim { s with holder := .free } fun r =>
        { s.set i { r with session := { r.session.note .cancelled with wasCancelled := true } } with holder := .free }
    | _ => s

/-! ### The client whose handlers are one step -/

/-- What a move does in the client whose handlers and `cancelRequest` are one step each: they
happen where they read or write `m_was_cancelled`, or where the request is erased. -/
def report (s : Locked) : Move → Option Event
  | .start id => if s.holder = .free then some (.start id) else none
  | .readCancelled i =>
    match s.requests[i]? with
    | some ⟨x, some (.guarded _ result buffer)⟩ => if x.wasCancelled then none else some (.completed i result buffer)
    | _ => none
  | .erase i =>
    match s.requests[i]? with
    | some ⟨_, some (.completing _ result buffer _)⟩ =>
      if s.holder = .free then some (.completed i result buffer) else none
    | _ => none
  | .find id => if s.holder = .free ∧ s.active.lookup id = none then some (.cancelRequest id) else none
  | .cancel =>
    match s.holder with
    | .locked i => (s.requests[i]?).map fun r => .cancelRequest r.session.id
    | _ => none
  | .completed _ _ _ | .takeGuard _ | .call _ | .lock => none

end Locked

/-- The request as it is there: its handler has run in whole, or not at all. -/
def Request.view (r : Request) : Session :=
  match r.handler with
  | none => r.session
  | some (.failed stage _ _) | some (.guarded stage _ _) | some (.completing stage _ _ _) =>
    { r.session with pending := some stage, response := [] }
  | some (.calling _) => r.session.complete

def Locked.view (s : Locked) : Client := ⟨s.requests.map Request.view, s.active⟩

/-! ### What a move does -/

namespace Locked

/-- What a move does, and what it is in the client whose handlers are one step. -/
inductive Does (s : Locked) : Move → Option Event → Locked → Prop where
  /-- The thread waits, or there is none that could make the move. -/
  | idle (e : Move) : Does s e none s
  | start (id : ℕ) (hfree : s.holder = .free) : Does s (.start id) (some (.start id))
      { s with requests := s.requests ++ [⟨.make id, none⟩], active := s.active.insert id s.requests.length }
  | completed {i : ℕ} {x : Session} {stage : Stage} (result : Option Error) (buffer : List UInt8)
      (hi : s.requests[i]? = some ⟨x, none⟩) (hstage : x.pending = some stage) :
      Does s (.completed i result buffer) none (s.set i (.complete x stage result buffer))
  | takeGuard {i : ℕ} {x : Session} {stage : Stage} {result : Option Error} {buffer : List UInt8}
      (hi : s.requests[i]? = some ⟨x, some (.failed stage result buffer)⟩) (hholder : s.holder ≠ .locked i) :
      Does s (.takeGuard i) none (s.set i ⟨x, some (.guarded stage result buffer)⟩)
  | ends {i : ℕ} {x : Session} {stage : Stage} {result : Option Error} {buffer : List UInt8}
      (hi : s.requests[i]? = some ⟨x, some (.guarded stage result buffer)⟩) (hcancelled : x.wasCancelled = true) :
      Does s (.readCancelled i) none (s.set i ⟨x, some (.completing stage result buffer true)⟩)
  | goesOn {i : ℕ} {x : Session} {stage : Stage} {result : Option Error} {buffer : List UInt8}
      (hi : s.requests[i]? = some ⟨x, some (.guarded stage result buffer)⟩) (hlive : x.wasCancelled = false) :
      Does s (.readCancelled i) (some (.completed i result buffer))
        (s.set i ⟨{ x.note (.completed result buffer) with pending := some stage.next }, none⟩)
  | erase {i : ℕ} {x : Session} {stage : Stage} {result : Option Error} {buffer : List UInt8} {held : Bool}
      (hi : s.requests[i]? = some ⟨x, some (.completing stage result buffer held)⟩) (hfree : s.holder = .free) :
      Does s (.erase i) (some (.completed i result buffer))
        { s.set i ⟨x.note (.completed result buffer), some (.calling held)⟩ with active := s.active.erase x.id }
  | call {i : ℕ} {x : Session} {held : Bool} (hi : s.requests[i]? = some ⟨x, some (.calling held)⟩) :
      Does s (.call i) none (s.set i ⟨x.complete, none⟩)
  | missed {id : ℕ} (hfree : s.holder = .free) (hnone : s.active.lookup id = none) :
      Does s (.find id) (some (.cancelRequest id)) s
  | find {id i : ℕ} (hfree : s.holder = .free) (hfound : s.active.lookup id = some i) :
      Does s (.find id) none { s with holder := .found i }
  | lock {i : ℕ} (hfound : s.holder = .found i) (hunheld : ¬ (s.requests[i]?).any Request.holds = true) :
      Does s .lock none { s with holder := .locked i }
  | cancel {i : ℕ} {r : Request} (hlocked : s.holder = .locked i) (hi : s.requests[i]? = some r) :
      Does s .cancel (some (.cancelRequest r.session.id))
        { s.set i { r with session := { r.session.note .cancelled with wasCancelled := true } } with holder := .free }
  /-- The request that is found is there in every run. -/
  | lost {i : ℕ} (hlocked : s.holder = .locked i) (hnone : s.requests[i]? = none) :
      Does s .cancel none { s with holder := .free }

theorem does_step (s : Locked) (e : Move) : Does s e (s.report e) (s.step e) := by
  cases e with
  | start id =>
    simp only [report, step]
    split_ifs with hfree
    · exact .start id hfree
    · exact .idle _
  | completed i result buffer =>
    simp only [report, step]
    split
    case h_1 x hi =>
      cases hstage : x.pending with
      | none => exact .idle _
      | some stage => exact .completed result buffer hi hstage
    case h_2 => exact .idle _
  | takeGuard i =>
    simp only [report, step]
    split
    case h_1 hi =>
      split_ifs with hholder
      · exact .idle _
      · exact .takeGuard hi hholder
    case h_2 => exact .idle _
  | readCancelled i =>
    simp only [report, step]
    split
    case h_1 x stage result buffer hi =>
      cases hcancelled : x.wasCancelled with
      | true => simpa [hi, hcancelled] using Does.ends hi hcancelled
      | false => simpa [hi, hcancelled] using Does.goesOn hi hcancelled
    case h_2 => exact .idle _
  | erase i =>
    simp only [report, step]
    split
    case h_1 x stage result buffer held hi =>
      split_ifs with hfree
      · simpa [hi] using Does.erase hi hfree
      · simpa [hi] using Does.idle _
    case h_2 => exact .idle _
  | call i =>
    simp only [report, step]
    split
    case h_1 hi => exact .call hi
    case h_2 => exact .idle _
  | find id =>
    simp only [report, step]
    by_cases hfree : s.holder = .free
    · cases hfound : s.active.lookup id with
      | none => simpa [hfree] using Does.missed hfree hfound
      | some i => simpa [hfree] using Does.find hfree hfound
    · rw [if_neg hfree, if_neg fun h => hfree h.1]
      exact .idle _
  | lock =>
    simp only [report, step]
    split
    case h_1 i hfound =>
      split_ifs with hheld
      · exact .idle _
      · exact .lock hfound hheld
    case h_2 => exact .idle _
  | cancel =>
    simp only [report, step]
    split
    case h_1 i hlocked =>
      cases hi : s.requests[i]? with
      | none => exact .lost hlocked hi
      | some r => exact .cancel hlocked hi
    case h_2 => exact .idle _

end Locked

/-! ### A handler and its session -/

/-- What a handler that runs has made of its session. -/
def Handler.Sound (x : Session) : Handler → Prop
  | .failed stage result _ | .guarded stage result _ => x.response = [] ∧ stage ≠ .read ∧ result ≠ none
  | .completing stage result buffer held =>
    x.response = (if stage = .read ∧ result ≠ none then getline buffer else []) ∧ x.Ends stage result ∧
      (held = true → x.wasCancelled = true)
  | .calling _ => True

structure Request.Sound (r : Request) : Prop where
  ec : r.session.ec = none
  waits : r.handler = none → r.session.pending ≠ none → r.session.response = []
  runs : ∀ handler, r.handler = some handler → r.session.pending = none ∧ handler.Sound r.session

namespace Request

variable {r : Request} {x : Session} {stage : Stage} {result : Option Error} {buffer : List UInt8} {held : Bool}

theorem sound_make (id : ℕ) : Sound ⟨.make id, none⟩ where
  ec := rfl
  waits _ _ := rfl
  runs _ hno := by cases hno

theorem sound_of_runs {handler : Handler} (hec : x.ec = none) (hpending : x.pending = none) (h : handler.Sound x) :
    Sound ⟨x, some handler⟩ where
  ec := hec
  waits hno := by cases hno
  runs _ hh := Option.some.inj hh ▸ ⟨hpending, h⟩

/-- An operation completes. -/
theorem Sound.complete (h : Sound ⟨x, none⟩) (hstage : x.pending = some stage) :
    (Request.complete x stage result buffer).Sound := by
  have hresponse : x.response = [] := h.waits rfl (by rw [hstage]; exact Option.some_ne_none stage)
  unfold Request.complete
  split_ifs with hresult hread
  · refine sound_of_runs hresult rfl ⟨?_, .inr (.inl hresult), fun hno => by cases hno⟩
    rw [if_neg fun hfails => hfails.2 hresult]
    exact hresponse
  · exact sound_of_runs h.ec rfl ⟨(if_pos ⟨hread, hresult⟩).symm, .inl hread, fun hno => by cases hno⟩
  · exact sound_of_runs h.ec rfl ⟨hresponse, hread, hresult⟩

/-- The handler has not touched anything yet that the client shows. -/
theorem Sound.view_complete (h : Sound ⟨x, none⟩) (hstage : x.pending = some stage) :
    (Request.complete x stage result buffer).view = x := by
  have hresponse : x.response = [] := h.waits rfl (by rw [hstage]; exact Option.some_ne_none stage)
  have hec : x.ec = none := h.ec
  unfold Request.complete
  split_ifs with hresult hread
  · simp [view, hresult, ← hec, ← hstage, ← hresponse]
  · simp [view, ← hstage, ← hresponse]
  · simp [view, ← hstage, ← hresponse]

/-- `cancelRequest` of a request that has not ended. -/
theorem Sound.cancel (h : r.Sound) :
    Sound { r with session := { r.session.note .cancelled with wasCancelled := true } } where
  ec := h.ec
  waits hnone hpending := h.waits hnone hpending
  runs handler hhandler := by
    obtain ⟨hpending, hsound⟩ := h.runs handler hhandler
    refine ⟨hpending, ?_⟩
    cases handler with
    | failed | guarded | calling => exact hsound
    | completing => exact ⟨hsound.1, hsound.2.1.imp_right fun hends => .inr rfl, fun _ => rfl⟩

theorem view_cancel (hwaits : r.view.pending ≠ none) :
    view { r with session := { r.session.note .cancelled with wasCancelled := true } } =
      { r.view.note .cancelled with wasCancelled := true } := by
  obtain ⟨x, _ | ⟨_ | _ | _ | held⟩⟩ := r
  · rfl
  · rfl
  · rfl
  · rfl
  · exact absurd rfl hwaits

theorem view_id (r : Request) : r.view.id = r.session.id := by
  obtain ⟨x, _ | ⟨_ | _ | _ | held⟩⟩ := r <;> rfl

/-- A request that has not ended shows its callbacks as they are. -/
theorem calls_view (hwaits : r.view.pending ≠ none) : r.view.calls = r.session.calls := by
  obtain ⟨x, _ | ⟨_ | _ | _ | held⟩⟩ := r
  · rfl
  · rfl
  · rfl
  · rfl
  · exact absurd rfl hwaits

/-- The handler goes on to the next operation. -/
theorem Sound.handle_goesOn (h : Sound ⟨x, some (.guarded stage result buffer)⟩) (hlive : x.wasCancelled = false) :
    ((view ⟨x, some (.guarded stage result buffer)⟩).note (.completed result buffer)).handle result buffer stage =
      { x.note (.completed result buffer) with pending := some stage.next } := by
  obtain ⟨id, wasCancelled, ec, response, pending, calls, history⟩ := x
  obtain rfl : wasCancelled = false := hlive
  obtain ⟨-, hresponse, hread, hresult⟩ := h.runs _ rfl
  obtain rfl : response = [] := hresponse
  cases stage with
  | connect => simp [view, Session.handle, Session.onConnect, Session.proceed, Session.note, hresult, Stage.next]
  | write => simp [view, Session.handle, Session.onWrite, Session.proceed, Session.note, hresult, Stage.next]
  | read => exact absurd rfl hread

/-- The handler ends the request. -/
theorem Sound.handle_ends (h : Sound ⟨x, some (.completing stage result buffer held)⟩) :
    ((view ⟨x, some (.completing stage result buffer held)⟩).note (.completed result buffer)).handle result buffer
      stage = (x.note (.completed result buffer)).complete := by
  obtain ⟨id, wasCancelled, ec, response, pending, calls, history⟩ := x
  obtain rfl : ec = none := h.ec
  obtain ⟨-, hresponse, hends, -⟩ := h.runs _ rfl
  have hproceed : stage ≠ .read → ∀ next,
      Session.proceed ⟨id, wasCancelled, none, [], some stage, calls, history ++ [.completed result buffer]⟩ result
          next =
        Session.complete ⟨id, wasCancelled, none, response, pending, calls, history ++ [.completed result buffer]⟩ := by
    intro hread next
    obtain rfl : response = [] := hresponse.trans (if_neg fun hfails => hread hfails.1)
    have hends' : result = none ∨ wasCancelled = true := hends.resolve_left hread
    unfold Session.proceed
    split_ifs with hresult hcancelled
    · simp [Session.complete, hresult]
    · simp [Session.complete]
    · exact absurd hends' (not_or.2 ⟨hresult, hcancelled⟩)
  cases stage with
  | connect => exact hproceed (by decide) .write
  | write => exact hproceed (by decide) .read
  | read =>
    by_cases hresult : result = none
    · obtain rfl : response = [] := hresponse.trans (if_neg fun hfails => hfails.2 hresult)
      simp [view, Session.handle, Session.onRead, Session.complete, Session.note, hresult]
    · obtain rfl : response = getline buffer := hresponse.trans (if_pos ⟨rfl, hresult⟩)
      simp [view, Session.handle, Session.onRead, Session.complete, Session.note, hresult]

end Request

/-! ### The interleavings -/

namespace Locked

variable {s t : Locked} {i : ℕ} {r : Request} {e : Move} {d : Option Event}

/-- `cancelRequest` has `m_active_sessions_guard`. -/
theorem not_free (hholder : s.holder = .found i ∨ s.holder = .locked i) : s.holder ≠ .free := by
  rcases hholder with hholder | hholder <;> rw [hholder] <;> exact fun hno => by cases hno

/-- The invariant: that of the client whose handlers are one step, and what `cancelRequest`
has found is still in `m_active_sessions`. -/
structure Inv (s : Locked) : Prop where
  requests : ∀ r ∈ s.requests, r.Sound
  orderly : s.view.Orderly
  holder : ∀ i, s.holder = .found i ∨ s.holder = .locked i → ∃ id, s.active.lookup id = some i

theorem inv_empty : Inv empty where
  requests _ hr := absurd hr List.not_mem_nil
  orderly := Client.orderly_empty
  holder _ hholder := absurd rfl (not_free hholder)

theorem view_set (s : Locked) (i : ℕ) (r : Request) : (s.set i r).view = ⟨s.view.sessions.set i r.view, s.active⟩ := by
  simp only [view, set, List.map_set]

theorem getElem?_view (hi : s.requests[i]? = some r) : s.view.sessions[i]? = some r.view := by
  simp only [view, List.getElem?_map, hi, Option.map_some]

/-- The client shows nothing of it. -/
theorem view_set_of_eq {q : Request} (hi : s.requests[i]? = some r) (hview : q.view = r.view) :
    (s.set i q).view = s.view := by
  obtain ⟨hlt, hget⟩ := List.getElem?_eq_some_iff.1 (getElem?_view hi)
  rw [view_set, hview, ← hget, List.set_getElem_self]
  rfl

theorem Inv.sound (h : s.Inv) (hi : s.requests[i]? = some r) : r.Sound := h.requests r (List.mem_of_getElem? hi)

/-- What `cancelRequest` has found waits, under its id. -/
theorem Inv.target (h : s.Inv) (hholder : s.holder = .found i ∨ s.holder = .locked i) :
    ∃ r, s.requests[i]? = some r ∧ s.active.lookup r.session.id = some i ∧ r.view.pending ≠ none := by
  obtain ⟨id, hid⟩ := h.holder i hholder
  obtain ⟨x, hx, hxid, hpending⟩ := h.orderly.active id i hid
  obtain ⟨r, hr, rfl⟩ := Option.map_eq_some_iff.1 ((List.getElem?_map ..).symm.trans hx)
  exact ⟨r, hr, by rw [← Request.view_id, hxid]; exact hid, hpending⟩

/-- **A move is a step of the client whose handlers are one step, or none.** -/
theorem Inv.step_view (h : s.Inv) (hdoes : s.Does e d t) : t.view = d.elim s.view s.view.step := by
  cases hdoes with
  | idle => rfl
  | start id => simp [view, Client.step, Request.view]
  | completed result buffer hi hstage => exact view_set_of_eq hi ((h.sound hi).view_complete hstage)
  | takeGuard hi => exact view_set_of_eq hi rfl
  | ends hi => exact view_set_of_eq hi rfl
  | goesOn hi hlive =>
    have hwaiting := Client.waiting_eq_some.2 ⟨getElem?_view hi, rfl⟩
    rw [view_set, Option.elim_some, Client.step_completed hwaiting, (h.sound hi).handle_goesOn hlive]
    rfl
  | erase hi =>
    have hwaiting := Client.waiting_eq_some.2 ⟨getElem?_view hi, rfl⟩
    rw [Option.elim_some, Client.step_completed hwaiting, (h.sound hi).handle_ends]
    simp only [view, set, List.map_set]
    rfl
  | call hi => exact view_set_of_eq hi rfl
  | missed hfree hnone => simp only [Option.elim_some, Client.step, view, hnone]
  | find => rfl
  | lock => rfl
  | cancel hlocked hi =>
    obtain ⟨r, hr, hactive, hpending⟩ := h.target (.inr hlocked)
    obtain rfl := Option.some.inj (hi.symm.trans hr)
    have hcancel : s.view.step (.cancelRequest _) = _ := Client.step_cancelRequest hactive (getElem?_view hi)
    rw [Option.elim_some, hcancel, ← Request.view_cancel hpending]
    exact view_set s _ _
  | lost => rfl

/-- A move writes one request, or adds one. -/
theorem Inv.step_requests (h : s.Inv) (hdoes : s.Does e d t) : ∀ r ∈ t.requests, r.Sound := by
  have hset : ∀ {i : ℕ} {q : Request}, q.Sound → ∀ r ∈ (s.set i q).requests, r.Sound := by
    intro i q hq r hr
    rcases List.mem_or_eq_of_mem_set hr with hr | rfl
    · exact h.requests r hr
    · exact hq
  cases hdoes with
  | idle | missed | find | lock | lost => exact h.requests
  | start id =>
    intro r hr
    rcases List.mem_append.1 hr with hr | hr
    · exact h.requests r hr
    · rw [List.mem_singleton.1 hr]
      exact Request.sound_make id
  | completed result buffer hi hstage => exact hset ((h.sound hi).complete hstage)
  | takeGuard hi =>
    obtain ⟨hpending, hsound⟩ := (h.sound hi).runs _ rfl
    exact hset (Request.sound_of_runs (h.sound hi).ec hpending hsound)
  | ends hi hcancelled =>
    obtain ⟨hpending, hresponse, hread, hresult⟩ := (h.sound hi).runs _ rfl
    refine hset (Request.sound_of_runs (h.sound hi).ec hpending ⟨?_, .inr (.inr hcancelled), fun _ => hcancelled⟩)
    rw [if_neg fun hfails => hread hfails.1]
    exact hresponse
  | goesOn hi hlive =>
    obtain ⟨-, hresponse, -⟩ := (h.sound hi).runs _ rfl
    exact hset ⟨(h.sound hi).ec, fun _ _ => hresponse, fun _ hno => by cases hno⟩
  | erase hi => exact hset (Request.sound_of_runs (h.sound hi).ec ((h.sound hi).runs _ rfl).1 trivial)
  | call hi => exact hset ⟨(h.sound hi).ec, fun _ hno => absurd rfl hno, fun _ hno => by cases hno⟩
  | cancel hlocked hi => exact hset (h.sound hi).cancel

/-- `m_active_sessions` is not touched while `cancelRequest` has its guard. -/
theorem Inv.step_holder (h : s.Inv) (hdoes : s.Does e d t) (hholder : t.holder = .found i ∨ t.holder = .locked i) :
    ∃ id, t.active.lookup id = some i := by
  cases hdoes with
  | idle | completed | takeGuard | ends | goesOn | call | missed => exact h.holder i hholder
  | start id hfree => exact absurd hfree (not_free hholder)
  | erase hi hfree => exact absurd hfree (not_free hholder)
  | find hfree hfound =>
    rcases hholder with heq | hno
    · exact Holder.found.inj heq ▸ ⟨_, hfound⟩
    · cases hno
  | lock hfound =>
    rcases hholder with hno | heq
    · cases hno
    · exact h.holder i (.inl (Holder.locked.inj heq ▸ hfound))
  | cancel | lost => exact absurd rfl (not_free hholder)

theorem Inv.step (h : s.Inv) (e : Move) : (s.step e).Inv where
  requests := h.step_requests (s.does_step e)
  orderly := by
    rw [h.step_view (s.does_step e)]
    cases s.report e with
    | none => exact h.orderly
    | some event => exact h.orderly.step event
  holder _ hholder := h.step_holder (s.does_step e) hholder

/-- **The locks make the handlers and `cancelRequest` one step each.**  After every run of the
threads, in any interleaving, the requests and `m_active_sessions` are those of the run of
`Client.step` that makes what the threads have reported. -/
theorem replays (es : List Move) :
    (es.foldl step empty).view = (Run.reports step report empty es).foldl Client.step .empty :=
  @Run.replay_in _ _ step _ _ report view _ Inv (fun _ e h => h.step e) (fun s e h => h.step_view (s.does_step e)) _
    inv_empty es

/-! ### When nobody gets on -/

/-- `m_active_sessions_guard` is never released, whatever the threads do. -/
def Stuck (s : Locked) : Prop := ∀ es : List Move, (es.foldl step s).holder ≠ .free

/-- `cancelRequest` waits for the `m_cancel_guard` of a request that was cancelled before, and
whose handler has it. -/
def DoomedAt (s : Locked) (i : ℕ) : Prop :=
  s.holder = .found i ∧ ∃ r, s.requests[i]? = some r ∧ r.holds = true ∧ r.session.wasCancelled = true

/-- The move does not cancel a request for the second time. -/
def CancelsOnce (s : Locked) : Move → Prop
  | .find id =>
    s.holder = .free → ∀ i r, s.active.lookup id = some i → s.requests[i]? = some r → r.session.wasCancelled = false
  | _ => True

/-- What lies in a slot after a write. -/
theorem getElem?_set {j : ℕ} {q p : Request} (hi : s.requests[i]? = some r) (hp : (s.set i q).requests[j]? = some p) :
    (j = i ∧ p = q) ∨ (j ≠ i ∧ s.requests[j]? = some p) :=
  (Slots.getElem?_set_iff (List.getElem?_eq_some_iff.1 hi).1).1 hp

theorem getElem?_set_self {q : Request} (hi : s.requests[i]? = some r) : (s.set i q).requests[i]? = some q :=
  List.getElem?_set_self (List.getElem?_eq_some_iff.1 hi).1

theorem getElem?_set_of_ne {j : ℕ} {q : Request} (hij : i ≠ j) : (s.set j q).requests[i]? = s.requests[i]? :=
  List.getElem?_set_ne hij.symm

/-- A handler that has `m_cancel_guard` of a cancelled request, while that is waited for, keeps it. -/
theorem DoomedAt.set {j : ℕ} {q : Request} (h : s.DoomedAt i) (hj : s.requests[j]? = some r)
    (hq : r.holds = true → r.session.wasCancelled = true → q.holds = true ∧ q.session.wasCancelled = true) :
    (s.set j q).DoomedAt i := by
  obtain ⟨hfound, p, hi, hholds, hcancelled⟩ := h
  refine ⟨hfound, ?_⟩
  by_cases hij : i = j
  · subst hij
    obtain rfl := Option.some.inj (hi.symm.trans hj)
    exact ⟨q, getElem?_set_self hi, hq hholds hcancelled⟩
  · exact ⟨p, (getElem?_set_of_ne hij).trans hi, hholds, hcancelled⟩

/-- **Who waits so waits for ever.** -/
theorem DoomedAt.does (h : s.DoomedAt i) (hs : s.Inv) (hdoes : s.Does e d t) : t.DoomedAt i := by
  have hfound := h.1
  cases hdoes with
  | idle | missed => exact h
  | start id hfree => exact absurd hfree (not_free (.inl hfound))
  | erase hi hfree => exact absurd hfree (not_free (.inl hfound))
  | find hfree => exact absurd hfree (not_free (.inl hfound))
  | cancel hlocked | lost hlocked => rw [hfound] at hlocked; cases hlocked
  | completed result buffer hi => exact h.set hi fun hno => by cases hno
  | takeGuard hi => exact h.set hi fun hno => by cases hno
  | ends hi hcancelled => exact h.set hi fun _ _ => ⟨rfl, hcancelled⟩
  | goesOn hi hlive =>
    refine h.set hi fun _ hcancelled => ?_
    exact absurd (hlive.symm.trans hcancelled) (by decide)
  | @call j x held hi =>
    -- a request that is waited for has not been erased
    obtain ⟨r, hr, -, hpending⟩ := hs.target (.inl hfound)
    by_cases hij : i = j
    · subst hij
      obtain rfl := Option.some.inj (hi.symm.trans hr)
      exact absurd rfl hpending
    · obtain ⟨-, p, hp, hrest⟩ := h
      exact ⟨hfound, p, (getElem?_set_of_ne hij).trans hp, hrest⟩
  | lock hfound' hunheld =>
    obtain ⟨-, r, hr, hholds, -⟩ := h
    obtain rfl := Holder.found.inj (hfound.symm.trans hfound')
    rw [hr] at hunheld
    exact absurd hholds hunheld

theorem DoomedAt.forever (h : s.DoomedAt i) (hs : s.Inv) (es : List Move) : (es.foldl step s).DoomedAt i :=
  have hboth : (es.foldl step s).DoomedAt i ∧ (es.foldl step s).Inv :=
    Run.foldl_inv (I := fun s : Locked => s.DoomedAt i ∧ s.Inv)
      (fun s e h => ⟨h.1.does h.2 (s.does_step e), h.2.step e⟩) es ⟨h, hs⟩
  hboth.1

/-- It has not been called back. -/
theorem DoomedAt.calls (h : s.DoomedAt i) (hs : s.Inv) (hi : s.requests[i]? = some r) : r.session.calls = [] := by
  obtain ⟨q, hq, -, hpending⟩ := hs.target (.inl h.1)
  obtain rfl := Option.some.inj (hi.symm.trans hq)
  have hsound := hs.orderly.requests r.view (List.mem_of_getElem? (getElem?_view hi))
  rw [← Request.calls_view hpending]
  exact (hsound.waits hpending).1.calls

theorem step_lock (hfound : s.holder = .found i) (hi : s.requests[i]? = some r) (hunheld : r.holds = false) :
    s.step .lock = { s with holder := .locked i } := by
  simp only [step, hfound, hi, Option.any_some, hunheld, Bool.false_eq_true, if_false]

theorem holder_cancel (hlocked : s.holder = .locked i) : (s.step .cancel).holder = .free := by
  simp only [step, hlocked]
  cases s.requests[i]? <;> rfl

/-- `cancelRequest` gets `m_cancel_guard` where no handler has it. -/
theorem released_of_unheld (hfound : s.holder = .found i) (hi : s.requests[i]? = some r) (hunheld : r.holds = false) :
    ([Move.lock, .cancel].foldl step s).holder = .free := by
  rw [List.foldl_cons, step_lock hfound hi hunheld]
  exact @holder_cancel { s with holder := .locked i } i rfl

/-- **In every other case the guard can be released.** -/
theorem Inv.released (h : s.Inv) (hnot : ∀ i, ¬ s.DoomedAt i) :
    ∃ es : List Move, (es.foldl Locked.step s).holder = .free := by
  cases hholder : s.holder with
  | free => exact ⟨[], hholder⟩
  | locked i => exact ⟨[.cancel], holder_cancel hholder⟩
  | found i =>
    obtain ⟨r, hi, -, hpending⟩ := h.target (.inl hholder)
    obtain ⟨x, handler⟩ := r
    by_cases hholds : Request.holds ⟨x, handler⟩ = true
    swap
    · exact ⟨[.lock, .cancel], released_of_unheld hholder hi (Bool.not_eq_true _ ▸ hholds)⟩
    have hlive : x.wasCancelled = false :=
      Bool.eq_false_iff.2 fun hcancelled => hnot i ⟨hholder, _, hi, hholds, hcancelled⟩
    obtain ⟨hec, -, hruns⟩ := h.sound hi
    rcases handler with _ | ⟨_ | ⟨stage, result, buffer⟩ | ⟨stage, result, buffer, held⟩ | held⟩
    · cases hholds
    · cases hholds
    · -- the handler reads that the request was not cancelled, and returns
      have hread : s.step (.readCancelled i) =
          s.set i ⟨{ x.note (.completed result buffer) with pending := some stage.next }, none⟩ := by
        simp only [Locked.step, hi, hlive, Bool.false_eq_true, if_false]
      refine ⟨[.readCancelled i, .lock, .cancel], ?_⟩
      rw [List.foldl_cons, hread]
      exact released_of_unheld hholder (getElem?_set_self hi) rfl
    · obtain ⟨-, -, -, hcancelled⟩ := hruns _ rfl
      exact absurd (hlive.symm.trans (hcancelled hholds)) (by decide)
    · exact absurd rfl hpending

/-- What is kept while no request is cancelled for the second time. -/
structure Once (s : Locked) : Prop where
  inv : s.Inv
  live : ∀ i r, s.holder = .found i → s.requests[i]? = some r → r.session.wasCancelled = false

theorem complete_wasCancelled (x : Session) (stage : Stage) (result : Option Error) (buffer : List UInt8) :
    (Request.complete x stage result buffer).session.wasCancelled = x.wasCancelled := by
  unfold Request.complete
  split_ifs <;> rfl

/-- A handler leaves the flag. -/
theorem Once.set {j : ℕ} {q : Request} (h : s.Once) (hj : s.requests[j]? = some r)
    (hq : q.session.wasCancelled = r.session.wasCancelled) :
    ∀ i p, s.holder = .found i → (s.set j q).requests[i]? = some p → p.session.wasCancelled = false := by
  intro i p hfound hp
  rcases getElem?_set hj hp with ⟨rfl, rfl⟩ | ⟨-, hp⟩
  · exact hq.trans (h.live i r hfound hj)
  · exact h.live i p hfound hp

theorem Once.does (h : s.Once) (he : s.CancelsOnce e) (hdoes : s.Does e d t) :
    ∀ i r, t.holder = .found i → t.requests[i]? = some r → r.session.wasCancelled = false := by
  cases hdoes with
  | idle | missed => exact h.live
  | start id hfree => exact fun i r hfound => absurd hfree (not_free (.inl hfound))
  | erase hi hfree => exact fun i r hfound => absurd hfree (not_free (.inl hfound))
  | completed result buffer hi => exact h.set hi (complete_wasCancelled ..)
  | takeGuard hi | ends hi | goesOn hi | call hi => exact h.set hi rfl
  | find hfree hlookup =>
    intro i r hfound hi
    exact he hfree i r (Holder.found.inj hfound ▸ hlookup) hi
  | lock | cancel | lost => exact fun i r hno => by cases hno

/-- **When `m_active_sessions_guard` is never released**: just where a `cancelRequest` waits for
the guard of a request that was cancelled before and whose handler has it.  Then that request
is never called back, and no run that cancels each request once comes to that. -/
theorem stuck_iff (es : List Move) :
    let s := es.foldl step empty
    (s.Stuck ↔ ∃ i, s.DoomedAt i) ∧
      (∀ i, s.DoomedAt i → ∀ es' : List Move, (es'.foldl step s).DoomedAt i ∧
        ∀ r, (es'.foldl step s).requests[i]? = some r → r.session.calls = []) ∧
      (Run.Along step CancelsOnce empty es → ¬ s.Stuck) := by
  intro s
  have hs : s.Inv := Run.foldl_inv (fun _ e h => h.step e) es inv_empty
  have hstuck : s.Stuck ↔ ∃ i, s.DoomedAt i := by
    constructor
    · intro hstuck
      by_contra hnot
      obtain ⟨es', hfree⟩ := hs.released (not_exists.1 hnot)
      exact hstuck es' hfree
    · rintro ⟨i, hdoomed⟩ es' hfree
      exact not_free (.inl (hdoomed.forever hs es').1) hfree
  refine ⟨hstuck, fun i hdoomed es' => ⟨hdoomed.forever hs es', fun r hr => ?_⟩, fun hes hno => ?_⟩
  · exact (hdoomed.forever hs es').calls (Run.foldl_inv (fun _ e h => h.step e) es' hs) hr
  obtain ⟨i, hfound, r, hi, -, hcancelled⟩ := hstuck.1 hno
  have honce : s.Once := (Run.throughout_of_along (I := Once)
    (fun s e h he => ⟨h.inv.step e, h.does he (s.does_step e)⟩) ⟨inv_empty, fun _ _ hfound => by cases hfound⟩ hes).last
  exact absurd ((honce.live i r hfound hi).symm.trans hcancelled) (by decide)

/-- The connect of a request that is cancelled has failed, and the handler has the guard when
the request is cancelled again. -/
def cancelledTwice : List Move :=
  [.start 7, .find 7, .lock, .cancel, .completed 0 (some .operationAborted) [], .takeGuard 0, .find 7,
    .readCancelled 0]

theorem stuck_cancelledTwice : (cancelledTwice.foldl step empty).Stuck :=
  (stuck_iff cancelledTwice).1.2 ⟨0, rfl, _, rfl, rfl, rfl⟩

end Locked

end AsyncTCPClient
end Practice
end SocketCommunication
