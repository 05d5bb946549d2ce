/-
# How long the chat server keeps a nickname

`registerClient` puts a nickname into `m_clients`; nothing takes it out again.  A
connection stops when a read of it fails and when a nickname of it is refused.

* `namesLive_iff`: the table names only connections that are still read, throughout a
  run, just when no connection stops that has registered a nickname.
-/

import SocketCommunication.ChatServer.Service

namespace SocketCommunication
namespace ChatServer
namespace Server

open Run

/-- A nickname is in the table while the connection that registered it is read; it can
be registered just when no open connection holds it; writes go to open connections. -/
structure NamesLive (s : Server) : Prop where
  live : ∀ p ∈ s.clients, (s.services p.2).phase.isOpen
  free_iff : ∀ nickname, s.Free nickname ↔
    ∀ i, (s.services i).phase.isOpen → nickname ∉ (s.services i).held
  writes : ∀ b ∈ s.broadcasts, ∀ w ∈ b.writes, b.live w.socket

/-- The event stops no connection that has registered a nickname. -/
def SparesRegistered (s : Server) : Event → Prop
  | .accept => True
  | .line _ _ => True
  | .readError i => (s.services i).phase = .reading → (s.services i).held = []
  | .resume i => (s.services i).phase = .registering → ¬ s.Free (s.services i).nickname → (s.services i).held = []

instance (s : Server) : ∀ e, Decidable (s.SparesRegistered e)
  | .accept => inferInstanceAs (Decidable True)
  | .line _ _ => inferInstanceAs (Decidable True)
  | .readError _ => inferInstanceAs (Decidable (_ → _))
  | .resume _ => inferInstanceAs (Decidable (_ → _ → _))

/-- The invariant of the runs that meet the condition. -/
structure Live (s : Server) : Prop where
  wf : s.Wf
  live : ∀ i, (s.services i).held ≠ [] → (s.services i).phase.isOpen
  writes : ∀ b ∈ s.broadcasts, ∀ w ∈ b.writes, b.live w.socket

namespace Live

theorem empty : Live .empty where
  wf := .empty
  live _ h := absurd rfl h
  writes _ hb := absurd hb List.not_mem_nil

variable {s : Server} {i : ℕ}

theorem client (h : s.Live) {p : List UInt8 × ℕ} (hp : p ∈ s.clients) : (s.services p.2).phase.isOpen :=
  h.live p.2 (List.ne_nil_of_mem (h.wf.mem_clients_iff.1 hp))

theorem namesLive (h : s.Live) : s.NamesLive where
  live _ := h.client
  writes := h.writes
  free_iff nickname := by
    rw [h.wf.free_iff]
    constructor
    · intro hheld i _
      exact hheld i
    · intro hopen i hi
      exact hopen i (h.live i (List.ne_nil_of_mem hi)) hi

/-- A broadcast writes to the clients of the table. -/
theorem writes_broadcast (h : s.Live) (notice : Notice) :
    ∀ b ∈ (s.broadcastMessage i notice).broadcasts, ∀ w ∈ b.writes, b.live w.socket := by
  intro b hb w hw
  rcases List.mem_append.1 hb with hb | hb
  · exact h.writes b hb w hw
  · obtain rfl := List.mem_singleton.1 hb
    obtain ⟨p, hp, rfl⟩ := List.mem_map.1 hw
    exact h.client hp

/-- **An event that stops no registered connection.** -/
theorem step (h : s.Live) (e : Event) (he : s.SparesRegistered e) : (s.step e).Live := by
  have hopen : ∀ {i c}, (c.held ≠ [] → c.phase.isOpen) → ∀ j, ((s.setService i c).services j).held ≠ [] →
      ((s.setService i c).services j).phase.isOpen := fun hc =>
    forall_setService (P := fun _ c => c.held ≠ [] → c.phase.isOpen) (fun j _ => h.live j) hc
  have hlive : s.SparesRegistered e → (∀ i, ((s.step e).services i).held ≠ [] → ((s.step e).services i).phase.isOpen) ∧
      ∀ b ∈ (s.step e).broadcasts, ∀ w ∈ b.writes, b.live w.socket := by
    refine step_cases (Q := fun e t => s.SparesRegistered e → (∀ i, (t.services i).held ≠ [] →
      (t.services i).phase.isOpen) ∧ ∀ b ∈ t.broadcasts, ∀ w ∈ b.writes, b.live w.socket) ?_ ?_ ?_ ?_ ?_ ?_ ?_ e
    · intro _
      exact ⟨hopen fun hheld => absurd rfl hheld, h.writes⟩
    · intro i m _ _
      refine ⟨hopen fun _ => ?_, h.writes⟩
      unfold Service.onRequestReceived
      dsimp only
      split_ifs <;> rfl
    · intro i hi hspare
      exact ⟨hopen fun hheld => absurd (hspare hi) hheld, h.writes⟩
    · intro i _ _ _
      exact ⟨hopen fun _ => rfl, h.writes⟩
    · intro i hi htaken hspare
      exact ⟨hopen fun hheld => absurd (hspare hi htaken) hheld, h.writes⟩
    · intro i notice _ _
      exact ⟨hopen fun _ => rfl, h.writes_broadcast notice⟩
    · intro e _ _
      exact ⟨h.live, h.writes⟩
  exact ⟨h.wf.step e, (hlive he).1, (hlive he).2⟩

end Live

/-- A connection of the table that is not open. -/
theorem not_namesLive_of_stopped {s : Server} (h : s.Wf) {i : ℕ} (hheld : (s.services i).held ≠ [])
    (hstopped : (s.services i).phase.isOpen = false) : ¬ s.NamesLive := by
  intro hlive
  obtain ⟨nickname, hmem⟩ := List.exists_mem_of_ne_nil _ hheld
  have hopen := hlive.live _ (h.mem_clients_iff.2 hmem)
  rw [hstopped] at hopen
  cases hopen

/-- **An event that stops a registered connection** leaves its nickname in the table. -/
theorem not_namesLive_step {s : Server} (h : s.Wf) (e : Event) (he : ¬ s.SparesRegistered e) :
    ¬ (s.step e).NamesLive := by
  have hstep := h.step e
  cases e with
  | accept => exact absurd trivial he
  | line i m => exact absurd trivial he
  | readError i =>
    obtain ⟨hi, hheld⟩ := Classical.not_imp.1 he
    rw [Server.step, if_pos hi] at hstep ⊢
    refine not_namesLive_of_stopped (i := i) hstep ?_ ?_
    · rw [services_setService_self]
      exact hheld
    · rw [services_setService_self]
      rfl
  | resume i =>
    obtain ⟨hi, he⟩ := Classical.not_imp.1 he
    obtain ⟨htaken, hheld⟩ := Classical.not_imp.1 he
    have heq : s.step (.resume i) = s.refuseClient i := by
      rw [Server.step, hi]
      exact if_neg htaken
    rw [heq] at hstep ⊢
    refine not_namesLive_of_stopped (i := i) hstep ?_ ?_
    · rw [refuseClient, services_setService_self]
      exact hheld
    · rw [refuseClient, services_setService_self]
      rfl

/-- **The lifetime of a nickname.**  Throughout a run of the server, whatever its
connections send and whenever they fail, the table names only connections that are
still read, a nickname is free just when no open connection holds it, and broadcasts
are written to open connections, just when the run stops no registered connection. -/
theorem namesLive_iff (es : List Event) :
    Throughout step NamesLive .empty es ↔ Along step SparesRegistered .empty es :=
  throughout_iff_along (I := Live) (fun _ h => h.namesLive) (fun _ e h => h.step e)
    (fun _ e h => not_namesLive_step h.wf e) .empty es

/-- A connection that has entered as `a` goes. -/
theorem not_namesLive_gone : ¬ Throughout step NamesLive .empty
    [.accept, .line 0 [0x61], .resume 0, .resume 0, .readError 0] :=
  not_throughout_of_last fun h => absurd h.live (by decide +kernel)

end Server
end ChatServer
end SocketCommunication
