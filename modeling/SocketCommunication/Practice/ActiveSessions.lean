/-
# The requests of the asynchronous client, under any ids

`m_active_sessions` has a request under its id until it ends.  A request that is started
under the id of one that waits takes its place.

* `calledOnce_of_run`: every request is called back once, after three completions at the
  latest, and with an error just when it was cancelled.
* `listsWaiting_iff`: `m_active_sessions` has all the requests that wait just when no id is
  used again too early.
-/

import SocketCommunication.Practice.AsyncTCPClient

namespace SocketCommunication
namespace Practice
namespace AsyncTCPClient

/-- An operation has completed. -/
def Item.isCompletion : Item → Bool
  | .completed _ _ => true
  | .cancelled => false

namespace Session

variable {x : Session} {result : Option Error} {buffer : List UInt8} {stage : Stage}

/-- The operations of the request that have completed. -/
def completions (x : Session) : ℕ := x.history.countP Item.isCompletion

/-- Where the response comes from: the buffer of a read that has failed. -/
def Answered (x : Session) (response : List UInt8) : Prop :=
  response = [] ∨ ∃ error buffer, Item.completed (some error) buffer ∈ x.history ∧ response = getline buffer

/-- A request that has ended has been called back once, with `operation_aborted` if it was
cancelled and with success otherwise; one that waits has not been called back. -/
def CalledOnce (x : Session) : Prop :=
  if x.pending = none then
    x.completions ≤ 3 ∧ ∃ response, x.Answered response ∧
      x.calls = [(response, if .cancelled ∈ x.history then some .operationAborted else none)]
  else x.completions < 3 ∧ x.calls = []

/-- The invariant of a request. -/
structure Sound (x : Session) : Prop where
  cancelled : x.wasCancelled = true ↔ .cancelled ∈ x.history
  completions : x.left + x.completions ≤ 3
  waits : x.pending ≠ none → x.Silent ∧ x.response = []
  ended : x.pending = none → ∃ response, x.Answered response ∧
    x.calls = [(response, if x.wasCancelled then some .operationAborted else none)]

theorem left_pos (h : x.pending ≠ none) : 0 < x.left := by
  unfold left
  cases hx : x.pending with
  | none => exact absurd hx h
  | some stage => cases stage <;> exact Nat.succ_pos _

theorem Sound.calledOnce (h : x.Sound) : x.CalledOnce := by
  have hle := h.completions
  unfold CalledOnce
  by_cases hpending : x.pending = none
  · obtain ⟨response, hanswered, hcalls⟩ := h.ended hpending
    rw [if_pos hpending]
    refine ⟨by omega, response, hanswered, ?_⟩
    simp only [hcalls, h.cancelled]
  · have hpos := left_pos hpending
    rw [if_neg hpending]
    exact ⟨by omega, (h.waits hpending).1.calls⟩

theorem sound_make (id : ℕ) : (make id).Sound where
  cancelled := by simp [make]
  completions := Nat.le_refl 3
  waits _ := ⟨⟨rfl, rfl⟩, rfl⟩
  ended h := by cases h

/-- `cancelRequest` of a request that waits. -/
theorem Sound.cancel (h : x.Sound) (hpending : x.pending ≠ none) : Sound { x.note .cancelled with wasCancelled := true } where
  cancelled := by simp [note]
  completions := by
    have hle := h.completions
    show x.left + (x.history ++ [Item.cancelled]).countP Item.isCompletion ≤ 3
    rwa [List.countP_append]
  waits _ := ⟨⟨(h.waits hpending).1.calls, (h.waits hpending).1.ec⟩, (h.waits hpending).2⟩
  ended hend := absurd hend hpending

/-- The response is written by a read that fails. -/
theorem handle_response (x : Session) (result : Option Error) (buffer : List UInt8) (stage : Stage) :
    (x.handle result buffer stage).response = if stage = .read ∧ result ≠ none then getline buffer else x.response := by
  have hproceed : ∀ next, (x.proceed result next).response = x.response := by
    intro next
    unfold proceed
    split_ifs <;> rfl
  cases stage with
  | connect => exact hproceed .write
  | write => exact hproceed .read
  | read =>
    show (x.onRead result buffer).response = _
    unfold onRead
    by_cases hresult : result = none
    · rw [if_pos hresult, if_neg fun h => h.2 hresult]
      rfl
    · rw [if_neg hresult, if_pos ⟨rfl, hresult⟩]
      rfl

/-- **A completion.** -/
theorem Sound.completed (h : x.Sound) (hstage : x.pending = some stage) :
    ((x.note (.completed result buffer)).handle result buffer stage).Sound := by
  have hpending : x.pending ≠ none := by rw [hstage]; exact Option.some_ne_none stage
  obtain ⟨⟨hcalls, hec⟩, hresponse⟩ := h.waits hpending
  have hcancelled : x.wasCancelled = true ↔ Item.cancelled ∈ (x.note (.completed result buffer)).history := by
    rw [h.cancelled, note]
    simp
  have hcount : (x.note (.completed result buffer)).completions = x.completions + 1 := by
    show (x.history ++ [Item.completed result buffer]).countP Item.isCompletion = _
    rw [List.countP_append]
    rfl
  have hleft : ((x.note (.completed result buffer)).handle result buffer stage).left < x.left :=
    @left_handle (x.note (.completed result buffer)) result buffer stage hstage
  have hle := h.completions
  by_cases hends : x.Ends stage result
  · have hsilent : (x.note (.completed result buffer)).Silent := ⟨hcalls, hec⟩
    obtain ⟨response, heq⟩ := @Silent.handle_of_ends _ result buffer stage hsilent hends
    have hanswer := handle_response (x.note (.completed result buffer)) result buffer stage
    rw [heq] at hleft hanswer ⊢
    refine ⟨hcancelled, ?_, fun hwait => absurd rfl hwait, fun _ => ⟨response, ?_, rfl⟩⟩
    · show _ + (x.note (.completed result buffer)).completions ≤ 3
      omega
    · -- the response is new only where the read has failed
      have hanswer' : response = if stage = .read ∧ result ≠ none then getline buffer else x.response := hanswer
      by_cases hread : stage = .read ∧ result ≠ none
      · obtain ⟨error, herror⟩ := Option.ne_none_iff_exists'.1 hread.2
        rw [if_pos hread] at hanswer'
        refine .inr ⟨error, buffer, ?_, hanswer'⟩
        show _ ∈ x.history ++ [Item.completed result buffer]
        simp [herror]
      · rw [if_neg hread, hresponse] at hanswer'
        exact .inl hanswer'
  · obtain ⟨hfails, next, heq⟩ := @handle_of_not_ends (x.note (.completed result buffer)) result buffer stage hends
    rw [heq] at hleft ⊢
    refine ⟨hcancelled, ?_, fun _ => ⟨⟨hcalls, hec⟩, hresponse⟩, fun hend => by cases hend⟩
    show _ + (x.note (.completed result buffer)).completions ≤ 3
    omega

end Session

namespace Client

variable {c : Client} {i : ℕ} {x : Session} {stage : Stage} {result : Option Error} {buffer : List UInt8} {id : ℕ}

/-- The request waits, in that slot. -/
def WaitsAt (c : Client) (id i : ℕ) : Prop := ∃ x, c.sessions[i]? = some x ∧ x.id = id ∧ x.pending ≠ none

/-- Every request is called back once, and none that has ended is in `m_active_sessions`. -/
structure CalledOnce (c : Client) : Prop where
  requests : ∀ x ∈ c.sessions, x.CalledOnce
  active : ∀ id i, c.active.lookup id = some i → c.WaitsAt id i

/-- The requests are sound, and those in `m_active_sessions` wait. -/
structure Orderly (c : Client) : Prop where
  requests : ∀ x ∈ c.sessions, x.Sound
  active : ∀ id i, c.active.lookup id = some i → c.WaitsAt id i

theorem Orderly.calledOnce (h : c.Orderly) : c.CalledOnce := ⟨fun x hx => (h.requests x hx).calledOnce, h.active⟩

/-! ### What a step does to the requests that wait -/

theorem waitsAt_start {id' : ℕ} :
    (c.step (.start id)).WaitsAt id' i ↔ c.WaitsAt id' i ∨ (i = c.sessions.length ∧ id' = id) := by
  unfold WaitsAt
  show (∃ x, (c.sessions ++ [Session.make id])[i]? = some x ∧ _) ↔ _
  constructor
  · rintro ⟨x, hx, hid, hpending⟩
    rcases Slots.getElem?_append_iff.1 hx with hx | ⟨hi, rfl⟩
    · exact .inl ⟨x, hx, hid, hpending⟩
    · exact .inr ⟨hi, hid.symm⟩
  · rintro (⟨x, hx, hid, hpending⟩ | ⟨hi, rfl⟩)
    · exact ⟨x, Slots.getElem?_append_iff.2 (.inl hx), hid, hpending⟩
    · exact ⟨.make id', Slots.getElem?_append_iff.2 (.inr ⟨hi, rfl⟩), rfl, Option.some_ne_none _⟩

theorem not_waitsAt_length (c : Client) (id : ℕ) : ¬ c.WaitsAt id c.sessions.length := by
  rintro ⟨x, hx, -⟩
  rw [List.getElem?_eq_none (Nat.le_refl _)] at hx
  cases hx

/-- A request that waits is written in its slot. -/
theorem waitsAt_set {y : Session} {active : AList fun _ : ℕ => ℕ} {id' j : ℕ} (hx : c.sessions[i]? = some x)
    (hpending : x.pending ≠ none) (hid : y.id = x.id) :
    WaitsAt ⟨c.sessions.set i y, active⟩ id' j ↔ c.WaitsAt id' j ∧ (j = i → y.pending ≠ none) := by
  obtain ⟨hlt, -⟩ := List.getElem?_eq_some_iff.1 hx
  unfold WaitsAt
  constructor
  · rintro ⟨z, hz, hzid, hwait⟩
    rcases (Slots.getElem?_set_iff hlt).1 hz with ⟨rfl, rfl⟩ | ⟨hj, hz⟩
    · exact ⟨⟨x, hx, hid.symm.trans hzid, hpending⟩, fun _ => hwait⟩
    · exact ⟨⟨z, hz, hzid, hwait⟩, fun hji => absurd hji hj⟩
  · rintro ⟨⟨z, hz, hzid, hwait⟩, hnot⟩
    by_cases hj : j = i
    · rw [hj, hx, Option.some.injEq] at hz
      exact ⟨y, (Slots.getElem?_set_iff hlt).2 (.inl ⟨hj, rfl⟩), by rw [hid, hz, hzid], hnot hj⟩
    · exact ⟨z, (Slots.getElem?_set_iff hlt).2 (.inr ⟨hj, hz⟩), hzid, hwait⟩

/-- A request that is cancelled is written in its slot. -/
theorem step_cancelRequest (hactive : c.active.lookup id = some i) (hx : c.sessions[i]? = some x) :
    c.step (.cancelRequest id) = ⟨c.sessions.set i { x.note .cancelled with wasCancelled := true }, c.active⟩ := by
  simp only [step, hactive, List.modify_eq_set, hx, Option.getD_some]

/-- A handler leaves the id. -/
theorem handle_id (x : Session) (result : Option Error) (buffer : List UInt8) (stage : Stage) :
    (x.handle result buffer stage).id = x.id := by
  have hproceed : ∀ next, (x.proceed result next).id = x.id := by
    intro next
    unfold Session.proceed
    split_ifs <;> rfl
  cases stage with
  | connect => exact hproceed .write
  | write => exact hproceed .read
  | read =>
    show (x.onRead result buffer).id = _
    unfold Session.onRead
    split_ifs <;> rfl

/-! ### In every run -/

theorem orderly_empty : Orderly empty where
  requests _ hx := absurd hx List.not_mem_nil
  active id i h := by rw [empty, AList.lookup_empty] at h; cases h

theorem Orderly.start (h : c.Orderly) (id : ℕ) : (c.step (.start id)).Orderly := by
  refine ⟨fun x hx => ?_, fun id' i hi => waitsAt_start.2 ?_⟩
  · rcases List.mem_append.1 hx with hx | hx
    · exact h.requests x hx
    · rw [List.mem_singleton.1 hx]
      exact Session.sound_make id
  · have hi' : (c.active.insert id c.sessions.length).lookup id' = some i := hi
    by_cases hsame : id' = id
    · rw [hsame, AList.lookup_insert, Option.some.injEq] at hi'
      exact .inr ⟨hi'.symm, hsame⟩
    · rw [AList.lookup_insert_ne hsame] at hi'
      exact .inl (h.active id' i hi')

/-- A request that is written stays sound, and where it ends its entry is erased. -/
theorem Orderly.set (h : c.Orderly) {y : Session} (hx : c.sessions[i]? = some x) (hpending : x.pending ≠ none)
    (hid : y.id = x.id) (hy : y.Sound) :
    Orderly ⟨c.sessions.set i y, if y.pending = none then c.active.erase x.id else c.active⟩ := by
  refine ⟨fun z hz => ?_, fun id' j hj => (waitsAt_set hx hpending hid).2 ?_⟩
  · rcases List.mem_or_eq_of_mem_set hz with hz | rfl
    · exact h.requests z hz
    · exact hy
  · have hj' : (if y.pending = none then c.active.erase x.id else c.active).lookup id' = some j := hj
    split_ifs at hj' with hend
    · have hne : id' ≠ x.id := by
        rintro rfl
        rw [AList.lookup_erase] at hj'
        cases hj'
      rw [AList.lookup_erase_ne hne] at hj'
      refine ⟨h.active id' j hj', fun hji => ?_⟩
      obtain ⟨z, hz, hzid, -⟩ := h.active id' j hj'
      rw [hji, hx, Option.some.injEq] at hz
      exact absurd (by rw [← hzid, hz]) hne
    · exact ⟨h.active id' j hj', fun _ => hend⟩

theorem Orderly.completed (h : c.Orderly) (i : ℕ) (result : Option Error) (buffer : List UInt8) :
    (c.step (.completed i result buffer)).Orderly := by
  cases hwaiting : c.waiting i with
  | none =>
    rw [show c.step (.completed i result buffer) = c by simp only [step, hwaiting]]
    exact h
  | some found =>
    obtain ⟨x, stage⟩ := found
    obtain ⟨hx, hstage⟩ := waiting_eq_some.1 hwaiting
    have hpending : x.pending ≠ none := by rw [hstage]; exact Option.some_ne_none stage
    rw [step_completed hwaiting]
    exact h.set hx hpending (handle_id _ result buffer stage) ((h.requests x (List.mem_of_getElem? hx)).completed hstage)

theorem Orderly.cancelRequest (h : c.Orderly) (id : ℕ) : (c.step (.cancelRequest id)).Orderly := by
  cases hlookup : c.active.lookup id with
  | none =>
    rw [show c.step (.cancelRequest id) = c by simp only [step, hlookup]]
    exact h
  | some i =>
    obtain ⟨x, hx, -, hpending⟩ := h.active id i hlookup
    rw [step_cancelRequest hlookup hx]
    have hset := h.set (y := { x.note .cancelled with wasCancelled := true }) hx hpending rfl
      ((h.requests x (List.mem_of_getElem? hx)).cancel hpending)
    rwa [if_neg (show ¬ ({ x.note .cancelled with wasCancelled := true } : Session).pending = none from hpending)] at hset

theorem Orderly.step (h : c.Orderly) (e : Event) : (c.step e).Orderly := by
  cases e with
  | start id => exact h.start id
  | completed i result buffer => exact h.completed i result buffer
  | cancelRequest id => exact h.cancelRequest id

/-- **Every request is called back once**, whatever ids are used and whatever fails: with
`operation_aborted` if `cancelRequest` has found it before it ended, and with success
otherwise. -/
theorem calledOnce_of_run (es : List Event) : (es.foldl step empty).CalledOnce := by
  have h : (es.foldl step empty).Orderly := Run.foldl_inv (I := Orderly) (fun _ e h => h.step e) es orderly_empty
  exact h.calledOnce

/-! ### When all that wait are listed -/

/-- `m_active_sessions` has the requests that wait, each under its id. -/
def ListsWaiting (c : Client) : Prop := ∀ id i, c.active.lookup id = some i ↔ c.WaitsAt id i

/-- The event starts no request under the id of one that waits. -/
def Fresh (c : Client) : Event → Prop
  | .start id => ∀ i, ¬ c.WaitsAt id i
  | _ => True

theorem listsWaiting_empty : ListsWaiting empty := fun id i =>
  ⟨orderly_empty.active id i, fun ⟨_, hx, _⟩ => by cases hx⟩

theorem ListsWaiting.start (h : c.ListsWaiting) (hfresh : ∀ i, ¬ c.WaitsAt id i) : (c.step (.start id)).ListsWaiting := by
  intro id' i
  rw [waitsAt_start]
  show (c.active.insert id c.sessions.length).lookup id' = some i ↔ _
  by_cases hsame : id' = id
  · rw [hsame, AList.lookup_insert, Option.some.injEq]
    constructor
    · exact fun hi => .inr ⟨hi.symm, rfl⟩
    · exact fun hi => (hi.resolve_left (hfresh i)).1.symm
  · rw [AList.lookup_insert_ne hsame, h]
    exact (or_iff_left fun hi => hsame hi.2).symm

/-- A request that waits takes the place of one of its id. -/
theorem not_listsWaiting_start (hwaits : c.WaitsAt id i) : ¬ (c.step (.start id)).ListsWaiting := by
  intro h
  have hold : (c.active.insert id c.sessions.length).lookup id = some i := (h id i).2 (waitsAt_start.2 (.inl hwaits))
  rw [AList.lookup_insert, Option.some.injEq] at hold
  exact not_waitsAt_length c id (hold ▸ hwaits)

theorem ListsWaiting.set (h : c.ListsWaiting) {y : Session} (hx : c.sessions[i]? = some x) (hpending : x.pending ≠ none)
    (hid : y.id = x.id) :
    ListsWaiting ⟨c.sessions.set i y, if y.pending = none then c.active.erase x.id else c.active⟩ := by
  intro id' j
  rw [waitsAt_set hx hpending hid, ← h id' j]
  show (if y.pending = none then c.active.erase x.id else c.active).lookup id' = some j ↔ _
  have hlookup : c.active.lookup x.id = some i := (h _ _).2 ⟨x, hx, rfl, hpending⟩
  split_ifs with hend
  · by_cases hsame : id' = x.id
    · rw [hsame, AList.lookup_erase, hlookup, Option.some.injEq]
      exact iff_of_false (Option.some_ne_none j).symm fun hj => hj.2 hj.1.symm hend
    · rw [AList.lookup_erase_ne hsame]
      refine (and_iff_left_of_imp fun hj hji => ?_).symm
      obtain ⟨z, hz, hzid, -⟩ := (h _ _).1 hj
      rw [hji, hx, Option.some.injEq] at hz
      exact absurd (by rw [← hzid, hz]) hsame
  · exact (and_iff_left fun _ => hend).symm

theorem ListsWaiting.step (h : c.ListsWaiting) {e : Event} (hfresh : c.Fresh e) : (c.step e).ListsWaiting := by
  cases e with
  | start id => exact h.start hfresh
  | completed i result buffer =>
    cases hwaiting : c.waiting i with
    | none =>
      rw [show c.step (.completed i result buffer) = c by simp only [Client.step, hwaiting]]
      exact h
    | some found =>
      obtain ⟨x, stage⟩ := found
      obtain ⟨hx, hstage⟩ := waiting_eq_some.1 hwaiting
      rw [step_completed hwaiting]
      exact h.set hx (by rw [hstage]; exact Option.some_ne_none stage) (handle_id _ result buffer stage)
  | cancelRequest id =>
    cases hlookup : c.active.lookup id with
    | none =>
      rw [show c.step (.cancelRequest id) = c by simp only [Client.step, hlookup]]
      exact h
    | some i =>
      obtain ⟨x, hx, -, hpending⟩ := (h id i).1 hlookup
      rw [step_cancelRequest hlookup hx]
      have hset := h.set (y := { x.note .cancelled with wasCancelled := true }) hx hpending rfl
      rwa [if_neg (show ¬ ({ x.note .cancelled with wasCancelled := true } : Session).pending = none from hpending)] at hset

/-- **`m_active_sessions` has exactly the requests that wait, throughout a run, just when no
request is started under the id of one that waits.** -/
theorem listsWaiting_iff (es : List Event) :
    Run.Throughout step ListsWaiting empty es ↔ Run.Along step Fresh empty es := by
  refine Run.throughout_iff_along (I := ListsWaiting) (fun _ h => h) (fun _ _ h hfresh => h.step hfresh)
    (fun c e _ hused => ?_) listsWaiting_empty es
  cases e with
  | start id =>
    have hwaits : ∃ i, c.WaitsAt id i := not_forall_not.1 hused
    obtain ⟨i, hi⟩ := hwaits
    exact not_listsWaiting_start hi
  | completed i result buffer => exact absurd trivial hused
  | cancelRequest id => exact absurd trivial hused

end Client

end AsyncTCPClient
end Practice
end SocketCommunication
