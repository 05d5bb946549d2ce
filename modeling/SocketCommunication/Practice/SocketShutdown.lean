/-
# The end of a request without a length

`SocketShutdownClient.cpp` and `SocketShutdownServer.cpp`: the client writes its request
and shuts down its side, the server reads until the end of the stream, answers and shuts
down its own.  Neither message carries a length.

`asio::write` and `asio::read` take several steps, as many bytes each as the stream
takes or has.  A party that throws closes its socket: the other one reads the end of the
stream there, or fails.

* `whole_of_reachable`: who has read the end has the whole message, unless the other one
  threw.
* `completes`: a run in which nobody fails ends, and where it cannot go on both have
  the whole message of the other.
-/

import Mathlib.Data.List.Basic
import Mathlib.Tactic.Common
import SocketCommunication.Lib.Run

namespace SocketCommunication
namespace Practice
namespace SocketShutdown

/-- `request_buf` of the client. -/
def request : List UInt8 := [0x48, 0x65, 0x00, 0x6C, 0x6C, 0x6F]

/-- `response_buf` of the server. -/
def response : List UInt8 := [0x48, 0x69, 0x21]

/-- One direction of the connection: what was written and not read, and whether its end
comes after that. -/
structure Pipe where
  bytes : List UInt8
  ended : Bool
  deriving DecidableEq

/-- Where a party is: the client writes and then reads, the server the other way. -/
inductive Phase where
  | writing
  | reading
  | finished
  /-- `communicate` or `processRequest` has thrown, and the socket is closed. -/
  | thrown
  deriving DecidableEq

structure Party where
  phase : Phase
  /-- What `asio::write` has not written yet. -/
  left : List UInt8
  /-- What `asio::read` has put into the `streambuf`. -/
  got : List UInt8
  deriving DecidableEq

structure Exchange where
  client : Party
  server : Party
  toServer : Pipe
  toClient : Pipe
  deriving DecidableEq

/-- A step of one of the parties. -/
inductive Event where
  /-- `asio::write` writes some bytes, at least one. -/
  | clientWrite (n : ℕ)
  | clientShutdown
  /-- `asio::read` reads some bytes, at least one. -/
  | clientRead (n : ℕ)
  | clientEof
  | clientError
  | serverRead (n : ℕ)
  | serverEof
  | serverWrite (n : ℕ)
  | serverShutdown
  | serverError
  deriving DecidableEq

/-- Nothing has failed. -/
def Event.isError : Event → Bool
  | .clientError => true
  | .serverError => true
  | _ => false

namespace Exchange

def start : Exchange := ⟨⟨.writing, request, []⟩, ⟨.reading, response, []⟩, ⟨[], false⟩, ⟨[], false⟩⟩

def step (s : Exchange) : Event → Exchange
  | .clientWrite n =>
    if s.client.phase = .writing ∧ 0 < n ∧ n ≤ s.client.left.length then
      { s with
        client := { s.client with left := s.client.left.drop n }
        toServer := { s.toServer with bytes := s.toServer.bytes ++ s.client.left.take n } }
    else s
  | .clientShutdown =>
    if s.client.phase = .writing ∧ s.client.left = [] then
      { s with client := { s.client with phase := .reading }, toServer := { s.toServer with ended := true } }
    else s
  | .clientRead n =>
    if s.client.phase = .reading ∧ 0 < n ∧ n ≤ s.toClient.bytes.length then
      { s with
        client := { s.client with got := s.client.got ++ s.toClient.bytes.take n }
        toClient := { s.toClient with bytes := s.toClient.bytes.drop n } }
    else s
  | .clientEof =>
    if s.client.phase = .reading ∧ s.toClient.bytes = [] ∧ s.toClient.ended then
      { s with client := { s.client with phase := .finished } }
    else s
  | .clientError =>
    if s.client.phase = .writing ∨ s.client.phase = .reading then
      { s with client := { s.client with phase := .thrown }, toServer := { s.toServer with ended := true } }
    else s
  | .serverRead n =>
    if s.server.phase = .reading ∧ 0 < n ∧ n ≤ s.toServer.bytes.length then
      { s with
        server := { s.server with got := s.server.got ++ s.toServer.bytes.take n }
        toServer := { s.toServer with bytes := s.toServer.bytes.drop n } }
    else s
  | .serverEof =>
    if s.server.phase = .reading ∧ s.toServer.bytes = [] ∧ s.toServer.ended then
      { s with server := { s.server with phase := .writing } }
    else s
  | .serverWrite n =>
    if s.server.phase = .writing ∧ 0 < n ∧ n ≤ s.server.left.length then
      { s with
        server := { s.server with left := s.server.left.drop n }
        toClient := { s.toClient with bytes := s.toClient.bytes ++ s.server.left.take n } }
    else s
  | .serverShutdown =>
    if s.server.phase = .writing ∧ s.server.left = [] then
      { s with server := { s.server with phase := .finished }, toClient := { s.toClient with ended := true } }
    else s
  | .serverError =>
    if s.server.phase = .reading ∨ s.server.phase = .writing then
      { s with server := { s.server with phase := .thrown }, toClient := { s.toClient with ended := true } }
    else s

/-- What one party writes is what the other one has, what is on its way and what is left. -/
def Carries (pipe : Pipe) (message got left : List UInt8) : Prop := got ++ pipe.bytes ++ left = message

section Carries

variable {pipe : Pipe} {message got left : List UInt8}

theorem Carries.write (h : Carries pipe message got left) (n : ℕ) :
    Carries { pipe with bytes := pipe.bytes ++ left.take n } message got (left.drop n) := by
  rw [Carries, ← h]
  show got ++ (pipe.bytes ++ left.take n) ++ left.drop n = _
  rw [List.append_assoc, List.append_assoc, List.take_append_drop, List.append_assoc]

theorem Carries.read (h : Carries pipe message got left) (n : ℕ) :
    Carries { pipe with bytes := pipe.bytes.drop n } message (got ++ pipe.bytes.take n) left := by
  rw [Carries, ← h]
  show got ++ pipe.bytes.take n ++ pipe.bytes.drop n ++ left = _
  rw [List.append_assoc got, List.take_append_drop]

/-- At the end of what was written as a whole. -/
theorem Carries.whole (h : Carries pipe message got left) (hbytes : pipe.bytes = []) (hleft : left = []) : got = message := by
  rw [Carries, hbytes, hleft, List.append_nil, List.append_nil] at h
  exact h

end Carries

/-- The invariant of every run. -/
structure Inv (s : Exchange) : Prop where
  requests : Carries s.toServer request s.server.got s.client.left
  responses : Carries s.toClient response s.client.got s.server.left
  /-- The client ends its stream when it has written the request. -/
  clientEnded : s.toServer.ended → s.client.phase = .thrown ∨ (s.client.phase ≠ .writing ∧ s.client.left = [])
  clientOpen : s.client.phase ≠ .writing → s.toServer.ended
  /-- The server answers when it has read the end of the request. -/
  serverRead : s.server.phase = .writing ∨ s.server.phase = .finished → s.toServer.ended ∧ s.toServer.bytes = []
  serverEnded : s.toClient.ended → s.server.phase = .thrown ∨ (s.server.phase = .finished ∧ s.server.left = [])
  serverOpen : s.server.phase = .finished ∨ s.server.phase = .thrown → s.toClient.ended
  clientRead : s.client.phase = .finished → s.toClient.ended ∧ s.toClient.bytes = []

theorem Inv.start : Exchange.start.Inv where
  requests := rfl
  responses := rfl
  clientEnded h := by cases h
  clientOpen h := absurd rfl h
  serverRead h := by rcases h with h | h <;> cases h
  serverEnded h := by cases h
  serverOpen h := by rcases h with h | h <;> cases h
  clientRead h := by cases h

variable {s : Exchange}

/-- **A step keeps the invariant.** -/
theorem Inv.step (h : s.Inv) (e : Event) : (s.step e).Inv := by
  obtain ⟨hrequests, hresponses, hclientEnded, hclientOpen, hserverRead, hserverEnded, hserverOpen, hclientRead⟩ := h
  have hs : s.Inv := ⟨hrequests, hresponses, hclientEnded, hclientOpen, hserverRead, hserverEnded, hserverOpen, hclientRead⟩
  cases e with
  | clientWrite n =>
    rw [Exchange.step]
    split_ifs with hstep
    · refine ⟨hrequests.write n, hresponses, ?_, hclientOpen, ?_, hserverEnded, hserverOpen, hclientRead⟩
      all_goals grind
    · exact hs
  | clientShutdown =>
    rw [Exchange.step]
    split_ifs with hstep
    · refine ⟨hrequests, hresponses, ?_, ?_, ?_, hserverEnded, hserverOpen, ?_⟩
      all_goals grind
    · exact hs
  | clientRead n =>
    rw [Exchange.step]
    split_ifs with hstep
    · refine ⟨hrequests, hresponses.read n, hclientEnded, hclientOpen, hserverRead, hserverEnded, hserverOpen, ?_⟩
      all_goals grind
    · exact hs
  | clientEof =>
    rw [Exchange.step]
    split_ifs with hstep
    · refine ⟨hrequests, hresponses, ?_, ?_, hserverRead, hserverEnded, hserverOpen, ?_⟩
      all_goals grind
    · exact hs
  | clientError =>
    rw [Exchange.step]
    split_ifs with hstep
    · refine ⟨hrequests, hresponses, ?_, ?_, ?_, hserverEnded, hserverOpen, ?_⟩
      all_goals grind
    · exact hs
  | serverRead n =>
    rw [Exchange.step]
    split_ifs with hstep
    · refine ⟨hrequests.read n, hresponses, hclientEnded, hclientOpen, ?_, hserverEnded, hserverOpen, hclientRead⟩
      all_goals grind
    · exact hs
  | serverEof =>
    rw [Exchange.step]
    split_ifs with hstep
    · refine ⟨hrequests, hresponses, hclientEnded, hclientOpen, ?_, ?_, ?_, hclientRead⟩
      all_goals grind
    · exact hs
  | serverWrite n =>
    rw [Exchange.step]
    split_ifs with hstep
    · refine ⟨hrequests, hresponses.write n, hclientEnded, hclientOpen, hserverRead, ?_, hserverOpen, ?_⟩
      all_goals grind
    · exact hs
  | serverShutdown =>
    rw [Exchange.step]
    split_ifs with hstep
    · refine ⟨hrequests, hresponses, hclientEnded, hclientOpen, ?_, ?_, ?_, ?_⟩
      all_goals grind
    · exact hs
  | serverError =>
    rw [Exchange.step]
    split_ifs with hstep
    · refine ⟨hrequests, hresponses, hclientEnded, hclientOpen, ?_, ?_, ?_, ?_⟩
      all_goals grind
    · exact hs

/-! ### What a party has that has read the end -/

/-- What was read is a part of what the other one writes.  A party that has read the end of the
stream has all of it, unless the other one threw. -/
structure Whole (s : Exchange) : Prop where
  parts : s.server.got <+: request ∧ s.client.got <+: response
  asked : s.server.phase = .writing ∨ s.server.phase = .finished → s.server.got = request ∨ s.client.phase = .thrown
  answered : s.client.phase = .finished →
    (s.client.got = response ∧ s.server.got = request ∧ s.server.phase = .finished) ∨ s.server.phase = .thrown

theorem Inv.whole (h : s.Inv) : s.Whole where
  parts := by
    refine ⟨⟨s.toServer.bytes ++ s.client.left, ?_⟩, s.toClient.bytes ++ s.server.left, ?_⟩
    · rw [← List.append_assoc]
      exact h.requests
    · rw [← List.append_assoc]
      exact h.responses
  asked hserver := by
    obtain ⟨hended, hbytes⟩ := h.serverRead hserver
    rcases h.clientEnded hended with hthrown | ⟨-, hleft⟩
    · exact .inr hthrown
    · exact .inl (h.requests.whole hbytes hleft)
  answered hclient := by
    obtain ⟨hended, hbytes⟩ := h.clientRead hclient
    rcases h.serverEnded hended with hthrown | ⟨hfinished, hleft⟩
    · exact .inr hthrown
    · obtain ⟨hended', hbytes'⟩ := h.serverRead (.inr hfinished)
      rcases h.clientEnded hended' with hthrown | ⟨-, hleft'⟩
      · rw [hclient] at hthrown
        cases hthrown
      · exact .inl ⟨h.responses.whole hbytes hleft, h.requests.whole hbytes' hleft', hfinished⟩

/-- **The end of the stream stands for the length**, in every interleaving and however the
streams are cut. -/
theorem whole_of_reachable (es : List Event) : (es.foldl step start).Whole := by
  have hinv : (es.foldl step start).Inv := Run.foldl_inv (I := Inv) (fun _ e h => h.step e) es Inv.start
  exact hinv.whole

/-! ### The exchange comes to its end -/

/-- What a party still has to do beside its bytes. -/
def Phase.weight (first : Phase) (p : Phase) : ℕ :=
  if p = first then 2
  else match p with
    | .writing | .reading => 1
    | .finished | .thrown => 0

/-- Each byte has to be written and read. -/
def measure (s : Exchange) : ℕ :=
  2 * s.client.left.length + s.toServer.bytes.length + (2 * s.server.left.length + s.toClient.bytes.length) +
    (Phase.weight .writing s.client.phase + Phase.weight .reading s.server.phase)

/-- The event is no failure, and happens. -/
def Happens (s : Exchange) (e : Event) : Prop := e.isError = false ∧ s.step e ≠ s

instance (s : Exchange) (e : Event) : Decidable (s.Happens e) := inferInstanceAs (Decidable (_ ∧ _))

/-- **Every step is one fewer.** -/
theorem measure_step {e : Event} (h : s.Happens e) : (s.step e).measure < s.measure := by
  obtain ⟨hok, hne⟩ := h
  cases e with
  | clientError => cases hok
  | serverError => cases hok
  | clientWrite n =>
    rw [step] at hne ⊢
    split_ifs at hne ⊢
    · simp only [measure, List.length_drop, List.length_append, List.length_take]
      omega
    · exact absurd rfl hne
  | clientRead n =>
    rw [step] at hne ⊢
    split_ifs at hne ⊢
    · simp only [measure, List.length_drop]
      omega
    · exact absurd rfl hne
  | serverRead n =>
    rw [step] at hne ⊢
    split_ifs at hne ⊢
    · simp only [measure, List.length_drop]
      omega
    · exact absurd rfl hne
  | serverWrite n =>
    rw [step] at hne ⊢
    split_ifs at hne ⊢
    · simp only [measure, List.length_drop, List.length_append, List.length_take]
      omega
    · exact absurd rfl hne
  | clientShutdown =>
    rw [step] at hne ⊢
    split_ifs at hne ⊢ with hstep
    · simp [measure, hstep.1, Phase.weight]
    · exact absurd rfl hne
  | clientEof =>
    rw [step] at hne ⊢
    split_ifs at hne ⊢ with hstep
    · simp [measure, hstep.1, Phase.weight]
    · exact absurd rfl hne
  | serverEof =>
    rw [step] at hne ⊢
    split_ifs at hne ⊢ with hstep
    · simp [measure, hstep.1, Phase.weight]
    · exact absurd rfl hne
  | serverShutdown =>
    rw [step] at hne ⊢
    split_ifs at hne ⊢ with hstep
    · simp [measure, hstep.1, Phase.weight]
    · exact absurd rfl hne

/-- Nobody throws who does not fail. -/
theorem not_thrown_step {e : Event} (he : e.isError = false) (h : s.client.phase ≠ .thrown ∧ s.server.phase ≠ .thrown) :
    (s.step e).client.phase ≠ .thrown ∧ (s.step e).server.phase ≠ .thrown := by
  cases e with
  | clientError => cases he
  | serverError => cases he
  | _ =>
    simp only [step]
    split_ifs
    · simp_all
    · exact h

/-- **Where nothing can happen, both have finished.** -/
theorem finished_of_stuck (h : s.Inv) (hthrown : s.client.phase ≠ .thrown ∧ s.server.phase ≠ .thrown)
    (hstuck : ∀ e, ¬ s.Happens e) : s.client.phase = .finished ∧ s.server.phase = .finished := by
  have hsame : ∀ e : Event, e.isError = false → s.step e = s := fun e he => by
    by_contra hne
    exact hstuck e ⟨he, hne⟩
  -- a byte that is left can be moved
  have hmove : ∀ {l : List UInt8}, l ≠ [] → 0 < 1 ∧ 1 ≤ l.length := fun hl => ⟨Nat.one_pos, List.length_pos_of_ne_nil hl⟩
  have hdrop : ∀ {l : List UInt8}, l ≠ [] → l.drop 1 ≠ l := by
    intro l hl heq
    have hlen := congrArg List.length heq
    have hpos := List.length_pos_of_ne_nil hl
    rw [List.length_drop] at hlen
    omega
  have hclientWriting : s.client.phase ≠ .writing := by
    intro hp
    by_cases hleft : s.client.left = []
    · have heq := hsame .clientShutdown rfl
      rw [step, if_pos ⟨hp, hleft⟩] at heq
      have hphase := congrArg (·.client.phase) heq
      rw [hp] at hphase
      cases hphase
    · have heq := hsame (.clientWrite 1) rfl
      rw [step, if_pos ⟨hp, hmove hleft⟩] at heq
      exact hdrop hleft (congrArg (·.client.left) heq)
  have hserverWriting : s.server.phase ≠ .writing := by
    intro hp
    by_cases hleft : s.server.left = []
    · have heq := hsame .serverShutdown rfl
      rw [step, if_pos ⟨hp, hleft⟩] at heq
      have hphase := congrArg (·.server.phase) heq
      rw [hp] at hphase
      cases hphase
    · have heq := hsame (.serverWrite 1) rfl
      rw [step, if_pos ⟨hp, hmove hleft⟩] at heq
      exact hdrop hleft (congrArg (·.server.left) heq)
  -- the client has ended its stream, so the server reads to its end
  have hserverReading : s.server.phase ≠ .reading := by
    intro hp
    by_cases hbytes : s.toServer.bytes = []
    · have heq := hsame .serverEof rfl
      rw [step, if_pos ⟨hp, hbytes, h.clientOpen hclientWriting⟩] at heq
      have hphase := congrArg (·.server.phase) heq
      rw [hp] at hphase
      cases hphase
    · have heq := hsame (.serverRead 1) rfl
      rw [step, if_pos ⟨hp, hmove hbytes⟩] at heq
      exact hdrop hbytes (congrArg (·.toServer.bytes) heq)
  have hserver : s.server.phase = .finished := by
    cases hp : s.server.phase with
    | finished => rfl
    | writing => exact absurd hp hserverWriting
    | reading => exact absurd hp hserverReading
    | thrown => exact absurd hp hthrown.2
  have hclientReading : s.client.phase ≠ .reading := by
    intro hp
    by_cases hbytes : s.toClient.bytes = []
    · have heq := hsame .clientEof rfl
      rw [step, if_pos ⟨hp, hbytes, h.serverOpen (.inl hserver)⟩] at heq
      have hphase := congrArg (·.client.phase) heq
      rw [hp] at hphase
      cases hphase
    · have heq := hsame (.clientRead 1) rfl
      rw [step, if_pos ⟨hp, hmove hbytes⟩] at heq
      exact hdrop hbytes (congrArg (·.toClient.bytes) heq)
  refine ⟨?_, hserver⟩
  cases hp : s.client.phase with
  | finished => rfl
  | writing => exact absurd hp hclientWriting
  | reading => exact absurd hp hclientReading
  | thrown => exact absurd hp hthrown.1

/-- **The exchange completes.**  Of the steps that happen where nobody fails there are at most 22,
in whatever order and however the streams are cut, and where no more can happen each party has the
whole message of the other. -/
theorem completes (es : List Event) (hes : Run.Along step Happens start es) :
    es.length ≤ 22 ∧ ((∀ e, ¬ (es.foldl step start).Happens e) →
      (es.foldl step start).client.phase = .finished ∧ (es.foldl step start).server.phase = .finished ∧
        (es.foldl step start).client.got = response ∧ (es.foldl step start).server.got = request) := by
  have hlen := (Run.Along.mono (I := fun _ => True) (fun _ _ _ _ => trivial) (fun _ _ _ h => measure_step h) trivial hes).length_le
  have hthrown : (es.foldl step start).client.phase ≠ .thrown ∧ (es.foldl step start).server.phase ≠ .thrown :=
    (Run.throughout_of_along (I := fun s : Exchange => s.client.phase ≠ .thrown ∧ s.server.phase ≠ .thrown)
      (fun _ _ hs he => not_thrown_step he.1 hs) ⟨by decide, by decide⟩ hes).last
  have hinv : (es.foldl step start).Inv := Run.foldl_inv (I := Inv) (fun _ e h => h.step e) es Inv.start
  refine ⟨hlen, fun hstuck => ?_⟩
  obtain ⟨hclient, hserver⟩ := finished_of_stuck hinv hthrown hstuck
  rcases hinv.whole.answered hclient with ⟨hgot, hasked, -⟩ | hno
  · exact ⟨hclient, hserver, hgot, hasked⟩
  · exact absurd hno hthrown.2

/-- The request in two parts, which are read in three. -/
def inParts : List Event :=
  [.clientWrite 4, .serverRead 3, .clientWrite 2, .serverRead 1, .clientShutdown, .serverRead 2, .serverEof, .serverWrite 3,
    .clientRead 3, .serverShutdown, .clientEof]

theorem completes_inParts : inParts.length ≤ 22 ∧ ((∀ e, ¬ (inParts.foldl step start).Happens e) →
    (inParts.foldl step start).client.phase = .finished ∧ (inParts.foldl step start).server.phase = .finished ∧
      (inParts.foldl step start).client.got = response ∧ (inParts.foldl step start).server.got = request) :=
  completes inParts (by decide)

end Exchange

end SocketShutdown
end Practice
end SocketCommunication
