/-
# The server that serves one client after the other

`IterativeSyncTCPServer.cpp`: the thread of the server reads `m_stop`, accepts a
connection, reads a line, answers, and begins again.  `Stop` sets the flag and waits for
the thread, which does not look at it in `accept`.

* `serial_of_run`: the clients are served in the order in which they have connected, one
  at a time, and answered when their line is there.
* `accepted_after_stop`: after `Stop` the thread takes one more client if it was in
  `accept`, and does not end without it.

A client that sends no line so keeps all the others waiting, and a server that waits for
a client is not stopped before one comes.
-/

import Mathlib.Data.List.Basic
import Mathlib.Logic.Function.Basic
import Mathlib.Tactic.SplitIfs
import SocketCommunication.Lib.Run

namespace SocketCommunication
namespace Practice
namespace IterativeSyncTCPServer

def newline : UInt8 := 0x0A

/-- `Response\n`. -/
def response : List UInt8 := [0x52, 0x65, 0x73, 0x70, 0x6F, 0x6E, 0x73, 0x65, 0x0A]

/-- A connection, in the backlog or accepted. -/
structure Connection where
  /-- What has arrived and was not read. -/
  incoming : List UInt8
  request : List UInt8
  /-- What was written of the response. -/
  written : List UInt8
  /-- `HandleClient` has caught an error. -/
  failed : Bool
  /-- `Accept` has returned, and its socket is gone. -/
  closed : Bool

/-- Where the thread of the server is. -/
inductive Phase where
  /-- About to read `m_stop`. -/
  | looping
  | accepting
  | reading (i : ℕ)
  | writing (i : ℕ) (left : List UInt8)
  | finished
  /-- `accept` has thrown, and nothing catches that. -/
  | terminated
  deriving DecidableEq

/-- The connection that is handled. -/
def Phase.current : Phase → Option ℕ
  | .reading i => some i
  | .writing i _ => some i
  | _ => none

/-- `Server` and its connections, which are numbered as they come. -/
structure Server where
  stop : Bool
  phase : Phase
  connected : ℕ
  accepted : ℕ
  conn : ℕ → Connection

inductive Event where
  | connect
  | send (i : ℕ) (bytes : List UInt8)
  /-- The thread reads `m_stop`. -/
  | load
  | accept
  | acceptError
  /-- `read_until` reads some bytes, at least one. -/
  | read (n : ℕ)
  | readError
  /-- `asio::write` writes some bytes, at least one. -/
  | write (n : ℕ)
  | writeError
  /-- `Stop` sets the flag. -/
  | stop

namespace Server

def start : Server := ⟨false, .looping, 0, 0, fun _ => ⟨[], [], [], false, false⟩⟩

/-- The thread still runs. -/
def running (s : Server) : Prop := s.phase ≠ .finished ∧ s.phase ≠ .terminated

instance (s : Server) : Decidable s.running := inferInstanceAs (Decidable (_ ∧ _))

def modify (s : Server) (i : ℕ) (f : Connection → Connection) (phase : Phase) : Server :=
  { s with phase, conn := Function.update s.conn i (f (s.conn i)) }

/-- `HandleClient` returns, and `Accept` with it. -/
def leave (s : Server) (i : ℕ) (f : Connection → Connection) : Server :=
  s.modify i (fun c => { f c with closed := true }) .looping

/-- The error is caught. -/
def fail (s : Server) (i : ℕ) : Server := s.leave i fun c => { c with failed := true }

def step (s : Server) : Event → Server
  | .connect => if s.running then { s with connected := s.connected + 1 } else s
  | .send i bytes =>
    if i < s.connected then
      { s with conn := Function.update s.conn i { s.conn i with incoming := (s.conn i).incoming ++ bytes } }
    else s
  | .load => if s.phase = .looping then { s with phase := if s.stop then .finished else .accepting } else s
  | .accept =>
    if s.phase = .accepting ∧ s.accepted < s.connected then
      { s with phase := .reading s.accepted, accepted := s.accepted + 1 }
    else s
  | .acceptError => if s.phase = .accepting then { s with phase := .terminated } else s
  | .read n =>
    match s.phase with
    | .reading i =>
      let c := s.conn i
      if 0 < n ∧ n ≤ c.incoming.length then
        let request := c.request ++ c.incoming.take n
        s.modify i (fun c => { c with incoming := c.incoming.drop n, request })
          (if newline ∈ request then .writing i response else .reading i)
      else s
    | _ => s
  | .readError =>
    match s.phase with
    | .reading i => s.fail i
    | _ => s
  | .write n =>
    match s.phase with
    | .writing i left =>
      if 0 < n ∧ n ≤ left.length then
        let write := fun c : Connection => { c with written := c.written ++ left.take n }
        if left.drop n = [] then s.leave i write else s.modify i write (.writing i (left.drop n))
      else s
    | _ => s
  | .writeError =>
    match s.phase with
    | .writing i _ => s.fail i
    | _ => s
  | .stop => { s with stop := true }

/-! ### One after the other -/

end Server

/-- The server has read from the connection, written to it or closed it. -/
def Connection.Touched (c : Connection) : Prop := c.request ≠ [] ∨ c.written ≠ [] ∨ c.closed

/-- The answer comes after the line, and is there as a whole when the connection is closed,
if nothing has failed. -/
structure Connection.Sound (c : Connection) : Prop where
  answers : c.written <+: response
  asked : c.written ≠ [] → newline ∈ c.request
  served : c.closed → c.failed ∨ c.written = response

/-- The clients are served in their order, and one that has been served has got its answer. -/
structure Server.Serial (s : Server) : Prop where
  order : ∀ i j, i < j → (s.conn j).Touched → (s.conn i).closed
  sound : ∀ i, (s.conn i).Sound

namespace Server

variable {s : Server}

/-- The invariant of every run. -/
structure Inv (s : Server) : Prop where
  fresh : ∀ i, s.accepted ≤ i → ¬ (s.conn i).Touched
  done : ∀ i, i < s.accepted → s.phase.current ≠ some i → (s.conn i).closed
  current : ∀ i, s.phase.current = some i → i + 1 = s.accepted ∧ ¬ (s.conn i).closed
  reading : ∀ i, s.phase = .reading i → (s.conn i).written = []
  writing : ∀ i left, s.phase = .writing i left →
    (s.conn i).written ++ left = response ∧ newline ∈ (s.conn i).request ∧ left ≠ []
  sound : ∀ i, (s.conn i).Sound

theorem Inv.serial (h : s.Inv) : s.Serial where
  order i j hij hj := by
    have hlt : j < s.accepted := by
      by_contra hge
      exact h.fresh j (Nat.not_lt.1 hge) hj
    refine h.done i (by omega) fun hi => ?_
    have hlast := (h.current i hi).1
    omega
  sound := h.sound

theorem inv_start : start.Inv where
  fresh _ _ h := by rcases h with h | h | h <;> simp [start] at h
  done i hi := absurd hi (Nat.not_lt_zero i)
  current _ h := by cases h
  reading _ h := by cases h
  writing _ _ h := by cases h
  sound _ := ⟨List.nil_prefix, fun h => absurd rfl h, fun h => by cases h⟩

/-- A step of the thread that touches no connection. -/
theorem Inv.free (h : s.Inv) {stop : Bool} {phase : Phase} {connected : ℕ} (hold : s.phase.current = none)
    (hnew : phase.current = none) : Inv { s with stop, phase, connected } where
  fresh := h.fresh
  done i hi _ := h.done i hi (by rw [hold]; exact (Option.some_ne_none i).symm)
  current i hi := by rw [hnew] at hi; cases hi
  reading i hi := by rw [show phase = _ from hi] at hnew; cases hnew
  writing i left hi := by rw [show phase = _ from hi] at hnew; cases hnew
  sound := h.sound

theorem modify_conn (s : Server) (i j : ℕ) (f : Connection → Connection) (phase : Phase) :
    (s.modify i f phase).conn j = if j = i then f (s.conn i) else s.conn j := Function.update_apply ..

/-- A step of the handler. -/
theorem Inv.modify (h : s.Inv) {i : ℕ} {f : Connection → Connection} {phase : Phase} (hi : s.phase.current = some i)
    (hphase : phase.current = some i ∧ ¬ (f (s.conn i)).closed ∨ phase.current = none ∧ (f (s.conn i)).closed)
    (hreading : phase = .reading i → (f (s.conn i)).written = [])
    (hwriting : ∀ left, phase = .writing i left →
      (f (s.conn i)).written ++ left = response ∧ newline ∈ (f (s.conn i)).request ∧ left ≠ [])
    (hsound : (f (s.conn i)).Sound) : (s.modify i f phase).Inv := by
  obtain ⟨hlast, hopen⟩ := h.current i hi
  have hcurrent : ∀ j, phase.current = some j → j = i := by
    intro j hj
    rcases hphase with ⟨hp, -⟩ | ⟨hp, -⟩
    · exact Option.some.inj (hj.symm.trans hp)
    · rw [hp] at hj
      cases hj
  have hother : ∀ {j}, j ≠ i → (s.modify i f phase).conn j = s.conn j := fun hj => by rw [modify_conn, if_neg hj]
  have hself : (s.modify i f phase).conn i = f (s.conn i) := by rw [modify_conn, if_pos rfl]
  refine ⟨fun j hj => ?_, fun j hj hne => ?_, fun j hj => ?_, fun j hj => ?_, fun j left hj => ?_, fun j => ?_⟩
  · have hji : s.accepted ≤ j := hj
    rw [hother (by omega)]
    exact h.fresh j hji
  · have hne' : phase.current ≠ some j := hne
    by_cases hji : j = i
    · subst hji
      rw [hself]
      exact (hphase.resolve_left fun hp => hne' hp.1).2
    · rw [hother hji]
      refine h.done j hj fun hold => hji ?_
      exact Option.some.inj (hold.symm.trans hi)
  · obtain rfl := hcurrent j hj
    have hp : phase.current = some j := hj
    rw [hself]
    rcases hphase with ⟨-, hcl⟩ | ⟨hnone, -⟩
    · exact ⟨hlast, hcl⟩
    · rw [hnone] at hp
      cases hp
  · have hp : phase = .reading j := hj
    obtain rfl := hcurrent j (by rw [hp]; rfl)
    rw [hself]
    exact hreading hp
  · have hp : phase = .writing j left := hj
    obtain rfl := hcurrent j (by rw [hp]; rfl)
    rw [hself]
    exact hwriting left hp
  · by_cases hji : j = i
    · rw [hji, hself]
      exact hsound
    · rw [hother hji]
      exact h.sound j

/-- A client writes, whether it is handled or not. -/
theorem Inv.send (h : s.Inv) (i : ℕ) (bytes : List UInt8) : (s.step (.send i bytes)).Inv := by
  rw [step]
  split_ifs with hi
  swap
  · exact h
  have hconn : ∀ j, ∃ incoming, Function.update s.conn i { s.conn i with incoming := (s.conn i).incoming ++ bytes } j =
      { s.conn j with incoming } := by
    intro j
    by_cases hji : j = i
    · rw [hji, Function.update_self]
      exact ⟨_, rfl⟩
    · rw [Function.update_of_ne hji]
      exact ⟨_, rfl⟩
  refine ⟨fun j hj => ?_, fun j hj hne => ?_, fun j hj => ?_, fun j hj => ?_, fun j left hj => ?_, fun j => ?_⟩
  all_goals
    obtain ⟨incoming, heq⟩ := hconn j
    simp only [heq]
  · exact h.fresh j hj
  · exact h.done j hj hne
  · exact h.current j hj
  · exact h.reading j hj
  · exact h.writing j left hj
  · exact ⟨(h.sound j).answers, (h.sound j).asked, (h.sound j).served⟩

/-- The next client. -/
theorem Inv.accept (h : s.Inv) (hphase : s.phase = .accepting) :
    Inv { s with phase := .reading s.accepted, accepted := s.accepted + 1 } := by
  have hnew := h.fresh s.accepted (Nat.le_refl _)
  simp only [Connection.Touched, not_or, not_not] at hnew
  refine ⟨fun j hj => ?_, fun j hj hne => ?_, fun j hj => ?_, fun j hj => ?_, fun j left hj => (by cases hj), h.sound⟩
  · have hle : s.accepted + 1 ≤ j := hj
    exact h.fresh j (by omega)
  · have hlt : j < s.accepted + 1 := hj
    have hlast : j ≠ s.accepted := fun heq => hne (by rw [heq]; rfl)
    exact h.done j (by omega) (by rw [hphase]; exact (Option.some_ne_none j).symm)
  · obtain rfl : s.accepted = j := Option.some.inj hj
    exact ⟨rfl, hnew.2.2⟩
  · obtain rfl : s.accepted = j := Phase.reading.inj hj
    exact hnew.2.1

theorem Inv.fail (h : s.Inv) {i : ℕ} (hi : s.phase.current = some i) : (s.fail i).Inv := by
  have hsound := h.sound i
  show (s.modify i (fun c => { c with failed := true, closed := true }) .looping).Inv
  refine h.modify hi (.inr ⟨rfl, rfl⟩) (fun hp => by cases hp) (fun left hp => by cases hp) ?_
  exact ⟨hsound.answers, hsound.asked, fun _ => .inl rfl⟩

theorem Inv.read (h : s.Inv) (n : ℕ) : (s.step (.read n)).Inv := by
  rw [step]
  split
  case h_2 => exact h
  case h_1 i hphase =>
    have hi : s.phase.current = some i := by rw [hphase]; rfl
    have hempty := h.reading i hphase
    obtain ⟨-, hopen⟩ := h.current i hi
    dsimp only
    split_ifs with hn hline
    · refine h.modify hi (.inl ⟨rfl, hopen⟩) (fun hp => by cases hp) (fun left hp => ?_) ?_
      · obtain ⟨-, rfl⟩ := Phase.writing.inj hp
        refine ⟨?_, hline, by decide⟩
        show (s.conn i).written ++ response = response
        rw [hempty, List.nil_append]
      · exact ⟨(h.sound i).answers, fun hne => absurd hempty hne, (h.sound i).served⟩
    · refine h.modify hi (.inl ⟨rfl, hopen⟩) (fun _ => hempty) (fun left hp => by cases hp) ?_
      exact ⟨(h.sound i).answers, fun hne => absurd hempty hne, (h.sound i).served⟩
    · exact h

theorem Inv.write (h : s.Inv) (n : ℕ) : (s.step (.write n)).Inv := by
  rw [step]
  split
  case h_2 => exact h
  case h_1 i left hphase =>
    have hi : s.phase.current = some i := by rw [hphase]; rfl
    obtain ⟨hwhole, hline, -⟩ := h.writing i left hphase
    obtain ⟨-, hopen⟩ := h.current i hi
    have hjoin : (s.conn i).written ++ left.take n ++ left.drop n = response := by
      rw [List.append_assoc, List.take_append_drop, hwhole]
    dsimp only
    split_ifs with hn hlast
    · rw [hlast, List.append_nil] at hjoin
      refine h.modify hi (.inr ⟨rfl, rfl⟩) (fun hp => by cases hp) (fun left hp => by cases hp) ?_
      exact ⟨hjoin ▸ List.prefix_refl _, fun _ => hline, fun _ => .inr hjoin⟩
    · refine h.modify hi (.inl ⟨rfl, hopen⟩) (fun hp => by cases hp) (fun left' hp => ?_) ?_
      · obtain ⟨-, rfl⟩ := Phase.writing.inj hp
        exact ⟨hjoin, hline, hlast⟩
      · exact ⟨⟨_, hjoin⟩, fun _ => hline, fun hcl => absurd hcl hopen⟩
    · exact h

/-- **A step keeps the invariant.** -/
theorem Inv.step (h : s.Inv) (e : Event) : (s.step e).Inv := by
  cases e with
  | send i bytes => exact h.send i bytes
  | read n => exact h.read n
  | write n => exact h.write n
  | connect =>
    rw [Server.step]
    split_ifs
    · exact ⟨h.fresh, h.done, h.current, h.reading, h.writing, h.sound⟩
    · exact h
  | stop => exact ⟨h.fresh, h.done, h.current, h.reading, h.writing, h.sound⟩
  | load =>
    rw [Server.step]
    split_ifs with hphase
    · refine h.free (by rw [hphase]; rfl) rfl
    · refine h.free (by rw [hphase]; rfl) rfl
    · exact h
  | accept =>
    rw [Server.step]
    split_ifs with hphase
    · exact h.accept hphase.1
    · exact h
  | acceptError =>
    rw [Server.step]
    split_ifs with hphase
    · exact h.free (by rw [hphase]; rfl) rfl
    · exact h
  | readError =>
    rw [Server.step]
    split
    case h_1 i hphase => exact h.fail (by rw [hphase]; rfl)
    case h_2 => exact h
  | writeError =>
    rw [Server.step]
    split
    case h_1 i left hphase => exact h.fail (by rw [hphase]; rfl)
    case h_2 => exact h

/-- **The clients are served one after the other**, in the order in which they have connected.
None is read from or written to before each one that came first is closed: that has got the
whole response, or failed. -/
theorem serial_of_run (es : List Event) : (es.foldl step start).Serial := by
  have h : (es.foldl step start).Inv := Run.foldl_inv (I := Inv) (fun _ e h => h.step e) es inv_start
  exact h.serial

/-! ### The end of the server -/

/-- The clients that the server has accepted, and the one that it waits for. -/
def taken (s : Server) : ℕ := s.accepted + if s.phase = .accepting then 1 else 0

/-- What is kept once the flag is set: no other client is taken. -/
structure Stopped (n : ℕ) (s : Server) : Prop where
  stop : s.stop = true
  taken : s.phase ≠ .terminated → s.taken = n
  accepted : s.accepted ≤ n

theorem Stopped.quiet {n : ℕ} (h : Stopped n s) {t : Server} (hstop : t.stop = s.stop) (haccepted : t.accepted = s.accepted)
    (hold : s.phase ≠ .accepting ∧ s.phase ≠ .terminated) (hnew : t.phase ≠ .accepting) : Stopped n t where
  stop := hstop.trans h.stop
  taken _ := by
    have htaken := h.taken hold.2
    rw [Server.taken, if_neg hold.1] at htaken
    rw [Server.taken, if_neg hnew, haccepted, htaken]
  accepted := haccepted ▸ h.accepted

theorem Stopped.step {n : ℕ} (h : Stopped n s) (e : Event) : Stopped n (s.step e) := by
  cases e with
  | connect =>
    rw [Server.step]
    split_ifs
    · exact ⟨h.stop, h.taken, h.accepted⟩
    · exact h
  | send i bytes =>
    rw [Server.step]
    split_ifs
    · exact ⟨h.stop, h.taken, h.accepted⟩
    · exact h
  | stop => exact ⟨rfl, h.taken, h.accepted⟩
  | load =>
    rw [Server.step, if_pos h.stop]
    split_ifs with hphase
    · exact h.quiet rfl rfl (by rw [hphase]; decide) fun hp => by cases hp
    · exact h
  | accept =>
    rw [Server.step]
    split_ifs with hphase
    · have htaken := h.taken (by rw [hphase.1]; decide)
      rw [Server.taken, if_pos hphase.1] at htaken
      exact ⟨h.stop, fun _ => htaken, Nat.le_of_eq htaken⟩
    · exact h
  | acceptError =>
    rw [Server.step]
    split_ifs with hphase
    · exact ⟨h.stop, fun hne => absurd rfl hne, h.accepted⟩
    · exact h
  | read k =>
    rw [Server.step]
    split
    case h_2 => exact h
    case h_1 i hphase =>
      dsimp only
      split_ifs
      · exact h.quiet rfl rfl (by simp [hphase]) (by simp [Server.modify])
      · exact h.quiet rfl rfl (by simp [hphase]) (by simp [Server.modify])
      · exact h
  | readError =>
    rw [Server.step]
    split
    case h_1 i hphase => exact h.quiet rfl rfl (by simp [hphase]) (by simp [fail, leave, Server.modify])
    case h_2 => exact h
  | write k =>
    rw [Server.step]
    split
    case h_2 => exact h
    case h_1 i left hphase =>
      dsimp only
      split_ifs
      · exact h.quiet rfl rfl (by simp [hphase]) (by simp [leave, Server.modify])
      · exact h.quiet rfl rfl (by simp [hphase]) (by simp [Server.modify])
      · exact h
  | writeError =>
    rw [Server.step]
    split
    case h_1 i left hphase => exact h.quiet rfl rfl (by simp [hphase]) (by simp [fail, leave, Server.modify])
    case h_2 => exact h

/-- The thread can do nothing, unless something fails. -/
def Blocked (s : Server) : Prop := s.step .load = s ∧ s.step .accept = s ∧ ∀ n, s.step (.read n) = s ∧ s.step (.write n) = s

/-- What the thread waits for. -/
inductive Waits (s : Server) : Prop where
  | nothing (h : ¬ s.running)
  | client (h : s.phase = .accepting) (hnone : s.connected ≤ s.accepted)
  | line (i : ℕ) (h : s.phase = .reading i) (hnone : (s.conn i).incoming = [])

theorem Inv.blocked_iff (h : s.Inv) : s.Blocked ↔ s.Waits := by
  constructor
  · rintro ⟨hload, haccept, hbytes⟩
    cases hphase : s.phase with
    | looping =>
      have hnext := congrArg phase hload
      rw [Server.step, if_pos hphase, hphase] at hnext
      split_ifs at hnext
    | accepting =>
      refine .client hphase (Nat.le_of_not_lt fun hlt => ?_)
      have hnext := congrArg accepted haccept
      rw [Server.step, if_pos ⟨hphase, hlt⟩] at hnext
      exact absurd hnext (Nat.succ_ne_self _)
    | reading i =>
      refine .line i hphase (by_contra fun hne => ?_)
      have hnext := congrArg (fun t : Server => (t.conn i).request) (hbytes 1).1
      have hpos := List.length_pos_of_ne_nil hne
      simp only [Server.step, hphase, if_pos (show 0 < 1 ∧ 1 ≤ (s.conn i).incoming.length from ⟨Nat.one_pos, hpos⟩),
        modify_conn, if_true] at hnext
      have hlen := congrArg List.length hnext
      rw [List.length_append, List.length_take] at hlen
      omega
    | writing i left =>
      obtain ⟨-, -, hne⟩ := h.writing i left hphase
      have hpos := List.length_pos_of_ne_nil hne
      have hnext := congrArg (fun t : Server => (t.conn i).written) (hbytes 1).2
      simp only [Server.step, hphase, if_pos (show 0 < 1 ∧ 1 ≤ left.length from ⟨Nat.one_pos, hpos⟩)] at hnext
      have hlen := congrArg List.length hnext
      split_ifs at hlen
      · simp only [leave, modify_conn, if_true, List.length_append, List.length_take] at hlen
        omega
      · simp only [modify_conn, if_true, List.length_append, List.length_take] at hlen
        omega
    | finished => exact .nothing fun hrun => hrun.1 hphase
    | terminated => exact .nothing fun hrun => hrun.2 hphase
  · intro hwaits
    cases hwaits with
    | nothing hover =>
      rw [running, not_and_or, not_not, not_not] at hover
      rcases hover with hphase | hphase
      · simp [Blocked, Server.step, hphase]
      · simp [Blocked, Server.step, hphase]
    | client hphase hnone => simp [Blocked, Server.step, hphase, Nat.not_lt.2 hnone]
    | line i hphase hnone =>
      simp only [Blocked, Server.step, hphase, hnone]
      simp
      omega

/-- **What `Stop` waits for.**  After it the thread takes the client that it is waiting for and no
other, and does not end without it; it waits only for that client, or for the line of the one
that it serves. -/
theorem accepted_after_stop (es es' : List Event) :
    let s := es.foldl step start
    let t := es'.foldl step (s.step .stop)
    t.accepted ≤ s.taken ∧ (t.phase = .finished → t.accepted = s.taken) ∧ (t.Blocked ↔ t.Waits) := by
  intro s t
  have hstopped : Stopped s.taken (s.step .stop) := ⟨rfl, fun _ => rfl, Nat.le_add_right _ _⟩
  have ht : Stopped s.taken t := Run.foldl_inv (I := Stopped s.taken) (fun _ e h => h.step e) es' hstopped
  have hs : s.Inv := Run.foldl_inv (I := Inv) (fun _ e h => h.step e) es inv_start
  have hinv : t.Inv := Run.foldl_inv (I := Inv) (fun _ e h => h.step e) es' (hs.step .stop)
  refine ⟨ht.accepted, fun hfinished => ?_, hinv.blocked_iff⟩
  have htaken := ht.taken (by rw [hfinished]; decide)
  rwa [taken, if_neg (by rw [hfinished]; decide)] at htaken

end Server
end IterativeSyncTCPServer
end Practice
end SocketCommunication
