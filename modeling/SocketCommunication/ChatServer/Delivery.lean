/-
# What the chat server broadcasts

Whether a line is a nickname or a message is decided by `m_nickname` being empty; after
an empty line has been registered it still is.

* `deliversOnce_iff`: a connection has one nickname, a broadcast reaches each registered
  open connection once and nobody else, and the lines of a registered connection are
  messages, throughout a run, just when no line comes from a connection that is
  registered with an empty nickname and no broadcast comes after the read of a
  registered connection has failed.
-/

import SocketCommunication.ChatServer.Service

namespace SocketCommunication
namespace ChatServer

open Run

/-- The number of writes that a broadcast started on a connection. -/
def Broadcast.writesTo (b : Broadcast) (i : ℕ) : ℕ := b.writes.countP fun w => w.socket = i

/-- One write to each registered open connection, none to any other. -/
def Broadcast.Once (b : Broadcast) : Prop :=
  ∀ i, b.writesTo i = if b.registered i ∧ b.live i then 1 else 0

namespace Server

structure DeliversOnce (s : Server) : Prop where
  single : ∀ i, (s.namesOf i).length ≤ 1
  once : ∀ b ∈ s.broadcasts, b.Once
  /-- A line of a registered connection is no nickname. -/
  never : ∀ i, (s.services i).held ≠ [] → (s.services i).phase ≠ .registering
  /-- A line of a registered connection is a message: it was broadcast or is about to be. -/
  messages : ∀ i, (s.services i).said = s.messagesOf i ++ (s.services i).phase.pending

/-- No line comes from a connection that is registered with an empty nickname, and no
broadcast after the read of a registered connection has failed. -/
def Delivers (s : Server) : Event → Prop
  | .accept => True
  | .line i _ => (s.services i).phase = .reading → (s.services i).held ≠ [] → (s.services i).nickname ≠ []
  | .readError _ => True
  | .resume i => (s.services i).phase.isBroadcasting →
      ∀ p ∈ s.clients, (s.services p.2).phase ≠ .failed

instance (s : Server) : ∀ e, Decidable (s.Delivers e)
  | .accept => inferInstanceAs (Decidable True)
  | .line _ _ => inferInstanceAs (Decidable (_ → _ → _))
  | .readError _ => inferInstanceAs (Decidable True)
  | .resume _ => inferInstanceAs (Decidable (_ → _))

/-- The invariant of the runs that meet the condition. -/
structure Delivering (s : Server) : Prop where
  wf : s.Wf
  held : ∀ i, (s.services i).held.length ≤ 1
  never : ∀ i, (s.services i).held ≠ [] → (s.services i).phase ≠ .registering
  /-- A registered connection was not refused. -/
  live : ∀ i, (s.services i).held ≠ [] → (s.services i).phase ≠ .failed → (s.services i).phase.isOpen
  once : ∀ b ∈ s.broadcasts, b.Once
  messages : ∀ i, (s.services i).said = s.messagesOf i ++ (s.services i).phase.pending

/-- A broadcast writes to a connection once for each of its nicknames. -/
theorem writesTo_broadcastOf (s : Server) (i j : ℕ) (notice : Notice) :
    (s.broadcastOf i notice).writesTo j = (s.namesOf j).length := by
  show List.countP _ (s.clients.map _) = _
  rw [List.countP_map, List.countP_eq_length_filter, namesOf, List.length_map]
  rfl

namespace Delivering

theorem empty : Delivering .empty where
  wf := .empty
  held _ := Nat.zero_le _
  never _ h := absurd rfl h
  live _ h := absurd rfl h
  once _ hb := absurd hb List.not_mem_nil
  messages _ := rfl

variable {s : Server} {i : ℕ}

theorem deliversOnce (h : s.Delivering) : s.DeliversOnce where
  single i := by
    rw [h.wf.namesOf_eq]
    exact h.held i
  once := h.once
  never := h.never
  messages := h.messages

/-- A broadcast while no read of a registered connection has failed. -/
theorem once_broadcastOf (h : s.Delivering) (hfailed : ∀ p ∈ s.clients, (s.services p.2).phase ≠ .failed)
    (notice : Notice) : (s.broadcastOf i notice).Once := by
  intro j
  have hheld := h.wf.namesOf_eq j
  rw [writesTo_broadcastOf]
  have hregistered : (s.broadcastOf i notice).registered j = true ↔ s.namesOf j ≠ [] := decide_eq_true_iff
  by_cases hj : s.namesOf j = []
  · rw [hj, if_neg fun hand => hregistered.1 hand.1 hj]
    rfl
  · have hheld' : (s.services j).held ≠ [] := by
      rw [← hheld]
      exact hj
    obtain ⟨nickname, hmem⟩ := List.exists_mem_of_ne_nil _ hheld'
    have hopen := h.live j hheld' (hfailed _ (h.wf.mem_clients_iff.2 hmem))
    have hone := h.held j
    have hpos := List.length_pos_iff.2 hj
    rw [if_pos ⟨hregistered.2 hj, hopen⟩]
    rw [← hheld] at hone
    omega

/-- A connection gets a new state and nothing is broadcast. -/
theorem setService (h : s.Delivering) {t : Server} {c : Service} (hwf : (t.setService i c).Wf)
    (hservices : t.services = s.services) (hbroadcasts : t.broadcasts = s.broadcasts) (hheld : c.held.length ≤ 1)
    (hnever : c.held ≠ [] → c.phase ≠ .registering) (hlive : c.held ≠ [] → c.phase ≠ .failed → c.phase.isOpen)
    (hmessages : c.said = s.messagesOf i ++ c.phase.pending) : (t.setService i c).Delivering := by
  have hsame : t.messagesOf = s.messagesOf := by
    funext j
    rw [messagesOf, messagesOf, hbroadcasts]
  constructor
  · exact hwf
  · exact forall_setService (P := fun _ c => c.held.length ≤ 1) (fun j _ => hservices ▸ h.held j) hheld
  · exact forall_setService (P := fun _ c => c.held ≠ [] → c.phase ≠ .registering)
      (fun j _ => hservices ▸ h.never j) hnever
  · exact forall_setService (P := fun _ c => c.held ≠ [] → c.phase ≠ .failed → c.phase.isOpen)
      (fun j _ => hservices ▸ h.live j) hlive
  · show ∀ b ∈ t.broadcasts, b.Once
    rw [hbroadcasts]
    exact h.once
  · refine forall_setService (P := fun j c => c.said = t.messagesOf j ++ c.phase.pending) (fun j _ => ?_) ?_
    · rw [hsame, hservices]
      exact h.messages j
    · rw [hsame]
      exact hmessages

theorem broadcastMessage (h : s.Delivering) {notice : Notice} (hi : (s.services i).phase = .broadcasting notice)
    (hwf : (s.broadcastMessage i notice).Wf) (hfailed : ∀ p ∈ s.clients, (s.services p.2).phase ≠ .failed) :
    (s.broadcastMessage i notice).Delivering := by
  constructor
  · exact hwf
  · exact forall_setService (P := fun _ c => c.held.length ≤ 1) (fun j _ => h.held j) (h.held i)
  · exact forall_setService (P := fun _ c => c.held ≠ [] → c.phase ≠ .registering) (fun j _ => h.never j)
      fun _ => Phase.noConfusion
  · exact forall_setService (P := fun _ c => c.held ≠ [] → c.phase ≠ .failed → c.phase.isOpen)
      (fun j _ => h.live j) fun _ _ => rfl
  · intro b hb
    rcases List.mem_append.1 hb with hb | hb
    · exact h.once b hb
    · obtain rfl := List.mem_singleton.1 hb
      exact h.once_broadcastOf hfailed notice
  · refine forall_setService (P := fun j c => c.said = (s.broadcastMessage i notice).messagesOf j ++ c.phase.pending)
      (fun j hj => ?_) ?_
    · rw [messagesOf_broadcastMessage, if_neg (Ne.symm hj), List.append_nil]
      exact h.messages j
    · have hsaid := h.messages i
      rw [hi] at hsaid
      rw [messagesOf_broadcastMessage, if_pos rfl]
      show (s.services i).said = _ ++ []
      rw [List.append_nil, hsaid]

/-- A line of a connection that is not registered with an empty nickname. -/
theorem line (h : s.Delivering) (hi : (s.services i).phase = .reading)
    (hnick : (s.services i).held ≠ [] → (s.services i).nickname ≠ []) (m : List UInt8)
    (hwf : (s.setService i ((s.services i).onRequestReceived m)).Wf) :
    (s.setService i ((s.services i).onRequestReceived m)).Delivering := by
  have hsaid := h.messages i
  rw [hi] at hsaid
  have hheld : ((s.services i).onRequestReceived m).held = (s.services i).held := Service.held_onRequestReceived _ _
  by_cases hnew : (s.services i).nickname = []
  · -- the line is the nickname of a connection that has none
    have hnone : (s.services i).held = [] := by
      by_contra hne
      exact hnick hne hnew
    refine h.setService hwf rfl rfl (hheld ▸ h.held i) (fun hne => absurd (hheld.trans hnone) hne)
      (fun hne => absurd (hheld.trans hnone) hne) ?_
    rw [Service.onRequestReceived, if_pos hnone, if_neg (not_not.2 hnew)]
    exact hsaid
  · have hsome : (s.services i).held ≠ [] :=
      h.wf.held i hnew (by rw [hi]; decide) (by rw [hi]; decide)
    have heq : (s.services i).onRequestReceived m =
        { s.services i with
          said := (s.services i).said ++ [m]
          phase := .broadcasting (.message (s.services i).nickname m) } := by
      rw [Service.onRequestReceived, if_neg hsome, if_pos hnew]
    rw [heq] at hwf ⊢
    refine h.setService hwf rfl rfl (h.held i) (fun _ => Phase.noConfusion) (fun _ _ => rfl) ?_
    show (s.services i).said ++ [m] = s.messagesOf i ++ [m]
    rw [hsaid]
    exact congrArg (· ++ [m]) (List.append_nil _)

/-- **An event that meets the condition.** -/
theorem step (h : s.Delivering) (e : Event) (he : s.Delivers e) : (s.step e).Delivering := by
  refine step_cases (Q := fun e t => s.Delivers e → t.Wf → t.Delivering) ?_ ?_ ?_ ?_ ?_ ?_ ?_ e he (h.wf.step e)
  · intro _ hwf
    have hsaid := h.messages s.accepted
    rw [h.wf.absent _ (Nat.le_refl _)] at hsaid
    exact h.setService hwf rfl rfl (Nat.zero_le _) (fun hne => absurd rfl hne) (fun hne => absurd rfl hne) hsaid
  · intro i m hi he hwf
    exact h.line hi (he hi) m hwf
  · intro i hi _ hwf
    have hsaid := h.messages i
    rw [hi] at hsaid
    exact h.setService hwf rfl rfl (h.held i) (fun _ => Phase.noConfusion) (fun _ hfailed => absurd rfl hfailed) hsaid
  · intro i hi _ _ hwf
    have hsaid := h.messages i
    rw [hi] at hsaid
    have hnone : (s.services i).held = [] := by
      by_contra hne
      exact h.never i hne hi
    refine h.setService hwf rfl rfl ?_ (fun _ => Phase.noConfusion) (fun _ _ => rfl) hsaid
    show ((s.services i).held ++ [_]).length ≤ 1
    rw [hnone]
    exact Nat.le_refl _
  · intro i hi _ _ hwf
    have hsaid := h.messages i
    rw [hi] at hsaid
    have hnone : ¬ (s.services i).held ≠ [] := fun hne => h.never i hne hi
    exact h.setService hwf rfl rfl (h.held i) (fun hne => absurd hne hnone) (fun hne => absurd hne hnone) hsaid
  · intro i notice hi he hwf
    exact h.broadcastMessage hi hwf (he (congrArg Phase.isBroadcasting hi))
  · intro e _ _ _
    exact h

end Delivering

section Breaks

variable {s : Server} {i : ℕ}

/-- A line of a connection registered with an empty nickname is taken for a nickname. -/
theorem not_deliversOnce_line {m : List UInt8} (hi : (s.services i).phase = .reading)
    (hheld : (s.services i).held ≠ []) (hnick : (s.services i).nickname = []) :
    ¬ (s.step (.line i m)).DeliversOnce := by
  intro h
  have hnever := h.never i
  rw [Server.step, if_pos hi, services_setService_self, Service.held_onRequestReceived] at hnever
  refine hnever hheld ?_
  rw [Service.onRequestReceived, if_neg (not_not.2 hnick)]

/-- A broadcast writes to a client whose read has failed. -/
theorem not_deliversOnce_resume {notice : Notice} (hi : (s.services i).phase = .broadcasting notice)
    {p : List UInt8 × ℕ} (hp : p ∈ s.clients) (hfailed : (s.services p.2).phase = .failed) :
    ¬ (s.step (.resume i)).DeliversOnce := by
  intro h
  have heq : s.step (.resume i) = s.broadcastMessage i notice := by
    rw [Server.step, hi]
  rw [heq] at h
  have honce := h.once _ (List.mem_append_right _ (List.mem_singleton_self _)) p.2
  have hnames : s.namesOf p.2 ≠ [] :=
    List.ne_nil_of_mem (List.mem_map.2 ⟨p, List.mem_filter.2 ⟨hp, decide_eq_true rfl⟩, rfl⟩)
  have hpos := List.length_pos_iff.2 hnames
  have hclosed : ¬ ((s.broadcastOf i notice).registered p.2 = true ∧ (s.broadcastOf i notice).live p.2 = true) := by
    rintro ⟨_, hlive⟩
    have hlive' : (s.services p.2).phase.isOpen = true := hlive
    rw [hfailed] at hlive'
    cases hlive'
  rw [writesTo_broadcastOf, if_neg hclosed] at honce
  omega

theorem not_deliversOnce_step (s : Server) (e : Event) (he : ¬ s.Delivers e) : ¬ (s.step e).DeliversOnce := by
  cases e with
  | accept => exact absurd trivial he
  | readError i => exact absurd trivial he
  | line i m =>
    obtain ⟨hi, he⟩ := Classical.not_imp.1 he
    obtain ⟨hheld, hnick⟩ := Classical.not_imp.1 he
    exact not_deliversOnce_line hi hheld (not_not.1 hnick)
  | resume i =>
    obtain ⟨hbroadcasting, he⟩ := Classical.not_imp.1 he
    obtain ⟨notice, hi⟩ := Phase.eq_broadcasting hbroadcasting
    push Not at he
    obtain ⟨p, hp, hfailed⟩ := he
    exact not_deliversOnce_resume hi hp hfailed

end Breaks

/-- **The delivery of the chat.**  Throughout a run of the server, whatever lines its
connections send and whenever they fail, each connection has one nickname, each
broadcast was written once to each registered open connection and to nobody else, and
the lines of registered connections are messages, just when no line comes from a
connection that is registered with an empty nickname and no broadcast after the read of
a registered connection has failed. -/
theorem deliversOnce_iff (es : List Event) :
    Throughout step DeliversOnce .empty es ↔ Along step Delivers .empty es :=
  throughout_iff_along (I := Delivering) (fun _ h => h.deliversOnce) (fun _ e h => h.step e)
    (fun s e _ => not_deliversOnce_step s e) .empty es

/-- A connection sends an empty line, and then `a`: it has two nicknames. -/
theorem not_deliversOnce_emptyLine : ¬ Throughout step DeliversOnce .empty
    [.accept, .line 0 [], .resume 0, .resume 0, .line 0 [0x61], .resume 0] :=
  not_throughout_of_last fun h => absurd (h.single 0) (by decide +kernel)

end Server
end ChatServer
end SocketCommunication
