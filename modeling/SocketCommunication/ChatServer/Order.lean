/-
# The order of what the chat server broadcasts

The handlers of the connections run side by side; the mutex of the table puts the
broadcasts in one order.  For a connection whose first line is not empty:

* `fifo_of_received`: it broadcasts that it has entered and then its messages, in the
  order in which it sent them, under the nickname of its first line.
* `total_order`: what is written to it are all broadcasts made since it registered, in their
  order, so of two such connections the one is written the last part of what the other is.

Both hold for every interleaving of the handlers and every way the streams are cut.
-/

import SocketCommunication.ChatServer.Wire

namespace SocketCommunication
namespace ChatServer

open Lines

/-- The notice that the connection still has to broadcast. -/
def Phase.notices : Phase → List Notice
  | .broadcasting notice => [notice]
  | _ => []

/-- What a connection of the nickname has to broadcast that sends the messages. -/
def script (nickname : List UInt8) (messages : List (List UInt8)) : List Notice :=
  .entry nickname :: messages.map (.message nickname)

/-- The text that a broadcast writes. -/
def Broadcast.text (b : Broadcast) : List UInt8 := b.notice.text ++ [newline]

namespace Server

/-- What a connection has broadcast. -/
def noticesOf (s : Server) (i : ℕ) : List Notice := (s.broadcasts.filter fun b => b.sender = i).map (·.notice)

/-- The texts of the writes that broadcasts have started on a connection. -/
def textsTo (s : Server) (i : ℕ) : List (List UInt8) :=
  s.broadcasts.flatMap fun b => (b.writes.filter fun w => w.socket = i).map (·.text)

/-- A connection that has sent nothing yet. -/
structure Silent (s : Server) (i : ℕ) : Prop where
  unnamed : (s.services i).nickname = []
  held : (s.services i).held = []
  phase : (s.services i).phase = .absent ∨ (s.services i).phase = .reading ∨ (s.services i).phase = .failed
  notices : s.noticesOf i = []

/-- A connection that has sent a nickname, which was not registered yet or is refused. -/
structure Asking (s : Server) (i : ℕ) (nickname : List UInt8) : Prop where
  named : (s.services i).nickname = nickname
  held : (s.services i).held = []
  phase : (s.services i).phase = .registering ∨ (s.services i).phase = .closed
  notices : s.noticesOf i = []

/-- A connection that has registered its nickname. -/
structure Talking (s : Server) (i : ℕ) (nickname : List UInt8) (messages : List (List UInt8)) : Prop where
  named : (s.services i).nickname = nickname
  held : (s.services i).held = [nickname]
  phase : (s.services i).phase ≠ .registering ∧ (s.services i).phase ≠ .closed
  notices : s.noticesOf i ++ (s.services i).phase.notices = script nickname messages

/-- Where a connection is after the lines that it has sent. -/
def Spoken (s : Server) (i : ℕ) : List (List UInt8) → Prop
  | [] => s.Silent i
  | nickname :: messages =>
    nickname ≠ [] → (messages = [] ∧ s.Asking i nickname) ∨ s.Talking i nickname messages

section Step

variable {s t : Server} {i j : ℕ} {lines : List (List UInt8)}

/-- Another connection. -/
theorem Spoken.congr (h : s.Spoken i lines) (hservice : t.services i = s.services i)
    (hbroadcasts : t.broadcasts = s.broadcasts) : t.Spoken i lines := by
  have hnotices : t.noticesOf i = s.noticesOf i := by rw [noticesOf, hbroadcasts, noticesOf]
  cases lines with
  | nil => exact ⟨by rw [hservice, h.unnamed], by rw [hservice, h.held], by rw [hservice]; exact h.phase,
      hnotices.trans h.notices⟩
  | cons nickname messages =>
    intro hne
    rcases h hne with ⟨hnone, h⟩ | h
    · exact .inl ⟨hnone, by rw [hservice, h.named], by rw [hservice, h.held], by rw [hservice]; exact h.phase,
        hnotices.trans h.notices⟩
    · refine .inr ⟨by rw [hservice, h.named], by rw [hservice, h.held], by rw [hservice]; exact h.phase, ?_⟩
      rw [hnotices, hservice, h.notices]

theorem noticesOf_broadcastMessage (s : Server) (i j : ℕ) (notice : Notice) :
    (s.broadcastMessage i notice).noticesOf j = s.noticesOf j ++ if i = j then [notice] else [] := by
  show ((s.broadcasts ++ [s.broadcastOf i notice]).filter _).map _ = _
  rw [List.filter_append, List.map_append, noticesOf]
  by_cases h : i = j <;> simp [broadcastOf, h]

/-- A broadcast writes once for each nickname of a connection. -/
theorem textsTo_broadcastMessage (s : Server) (i j : ℕ) (notice : Notice) :
    (s.broadcastMessage i notice).textsTo j =
      s.textsTo j ++ (s.namesOf j).map fun _ => (s.broadcastOf i notice).text := by
  show (s.broadcasts ++ [s.broadcastOf i notice]).flatMap _ = _
  rw [List.flatMap_append, textsTo, List.flatMap_singleton]
  refine congrArg _ ?_
  show ((s.clients.map _).filter _).map _ = _
  rw [namesOf, List.map_map, List.filter_map, List.map_map]
  rfl

/-- The lines of a connection after an event that brings none. -/
theorem Spoken.of_append_nil (h : s.Spoken i lines) : s.Spoken i (lines ++ []) := by
  rwa [List.append_nil]

/-- A broadcast of the connection itself or of another. -/
theorem Spoken.broadcast {notice : Notice} (hi : (s.services i).phase = .broadcasting notice)
    (h : s.Spoken j lines) : (s.broadcastMessage i notice).Spoken j lines := by
  have hne {p : Phase} (hp : p.notices = []) (hj : (s.services j).phase = p) : i ≠ j := by
    rintro rfl
    rw [hi] at hj
    rw [← hj] at hp
    exact absurd hp (List.cons_ne_nil _ _)
  have hother (hij : i ≠ j) : (s.broadcastMessage i notice).services j = s.services j :=
    services_setService_of_ne _ (Ne.symm hij) _
  have hnotices (hij : i ≠ j) : (s.broadcastMessage i notice).noticesOf j = s.noticesOf j := by
    rw [noticesOf_broadcastMessage, if_neg hij, List.append_nil]
  cases lines with
  | nil =>
    have hij : i ≠ j := by
      rcases h.phase with hp | hp | hp
      · exact hne rfl hp
      · exact hne rfl hp
      · exact hne rfl hp
    exact ⟨by rw [hother hij, h.unnamed], by rw [hother hij, h.held], by rw [hother hij]; exact h.phase,
      (hnotices hij).trans h.notices⟩
  | cons nickname messages =>
    intro hnick
    rcases h hnick with ⟨hnone, h⟩ | h
    · have hij : i ≠ j := by
        rcases h.phase with hp | hp
        · exact hne rfl hp
        · exact hne rfl hp
      exact .inl ⟨hnone, by rw [hother hij, h.named], by rw [hother hij, h.held], by rw [hother hij]; exact h.phase,
        (hnotices hij).trans h.notices⟩
    · right
      by_cases hij : i = j
      · subst hij
        have hself : (s.broadcastMessage i notice).services i = (s.services i).startHandling :=
          services_setService_self _ i _
        refine ⟨by rw [hself]; exact h.named, by rw [hself]; exact h.held, ?_, ?_⟩
        · rw [hself]
          exact ⟨fun h => (by cases h), fun h => (by cases h)⟩
        have hscript := h.notices
        rw [hi] at hscript
        rw [noticesOf_broadcastMessage, if_pos rfl, hself, ← hscript, List.append_assoc]
        rfl
      · exact ⟨by rw [hother hij, h.named], by rw [hother hij, h.held], by rw [hother hij]; exact h.phase,
          by rw [hnotices hij, hother hij, h.notices]⟩

/-- A line of the connection. -/
theorem Spoken.line (hi : (s.services i).phase = .reading) (line : List UInt8) (h : s.Spoken i lines) :
    (s.setService i ((s.services i).onRequestReceived line)).Spoken i (lines ++ [line]) := by
  have hself := s.services_setService_self i ((s.services i).onRequestReceived line)
  cases lines with
  | nil =>
    intro _
    have hname : (s.services i).onRequestReceived line = { s.services i with nickname := line, phase := .registering } := by
      rw [Service.onRequestReceived, if_neg (not_not.2 h.unnamed), if_pos h.held]
    rw [hname] at hself
    refine .inl ⟨rfl, ?_, ?_, ?_, h.notices⟩
    · rw [hname, hself]
    · rw [hname, hself]
      exact h.held
    · rw [hname, hself]
      exact .inl rfl
  | cons nickname messages =>
    intro hne
    have htalking : s.Talking i nickname messages := by
      rcases h hne with ⟨-, h⟩ | h
      · refine absurd h.phase (not_or.2 ?_)
        rw [hi]
        decide
      · exact h
    have hmessage : (s.services i).onRequestReceived line = ⟨nickname, .broadcasting (.message nickname line),
        [nickname], (s.services i).said ++ [line]⟩ := by
      rw [Service.onRequestReceived, if_pos (htalking.named ▸ hne), if_neg (by rw [htalking.held]; exact List.cons_ne_nil _ _),
        htalking.named, htalking.held]
    have hscript := htalking.notices
    rw [hi] at hscript
    rw [hmessage] at hself ⊢
    refine .inr ⟨by rw [hself], by rw [hself], ?_, ?_⟩
    · rw [hself]
      exact ⟨fun h => (by cases h), fun h => (by cases h)⟩
    · have hnotices : script nickname (messages ++ [line]) = script nickname messages ++ [.message nickname line] := by
        rw [script, script, List.map_append]
        rfl
      rw [hself]
      refine Eq.trans ?_ hnotices.symm
      rw [← hscript]
      exact congrArg (· ++ [Notice.message nickname line]) (List.append_nil _).symm

/-- The read of the connection fails. -/
theorem Spoken.fail (hi : (s.services i).phase = .reading) (h : s.Spoken i lines) :
    (s.setService i (s.services i).fail).Spoken i lines := by
  have hself := s.services_setService_self i (s.services i).fail
  cases lines with
  | nil => exact ⟨by rw [hself]; exact h.unnamed, by rw [hself]; exact h.held, by rw [hself]; exact .inr (.inr rfl),
      h.notices⟩
  | cons nickname messages =>
    intro hne
    rcases h hne with ⟨-, h⟩ | h
    · refine absurd h.phase (not_or.2 ?_)
      rw [hi]
      decide
    · have hscript := h.notices
      rw [hi] at hscript
      refine .inr ⟨by rw [hself]; exact h.named, by rw [hself]; exact h.held, ?_, ?_⟩
      · rw [hself]
        exact ⟨fun h => (by cases h), fun h => (by cases h)⟩
      · rw [hself]
        exact hscript

/-- What a connection was that asks for its nickname. -/
theorem Spoken.asking (hi : (s.services i).phase = .registering) (h : s.Spoken i lines) :
    ∃ nickname, lines.head? = some nickname ∧ (nickname ≠ [] → lines = [nickname] ∧ s.Asking i nickname) := by
  cases lines with
  | nil =>
    rcases h.phase with hp | hp | hp
    · rw [hi] at hp
      cases hp
    · rw [hi] at hp
      cases hp
    · rw [hi] at hp
      cases hp
  | cons nickname messages =>
    refine ⟨nickname, rfl, fun hne => ?_⟩
    rcases h hne with ⟨rfl, hasking⟩ | htalking
    · exact ⟨rfl, hasking⟩
    · exact absurd hi htalking.phase.1

/-- The nickname of the connection is registered. -/
theorem Spoken.insert (hi : (s.services i).phase = .registering) (h : s.Spoken i lines) : (s.insertClient i).Spoken i lines := by
  obtain ⟨nickname, hhead, hif⟩ := h.asking hi
  obtain ⟨messages, rfl⟩ : ∃ messages, lines = nickname :: messages := List.head?_eq_some_iff.1 hhead
  intro hne
  obtain ⟨heq, hasking⟩ := hif hne
  obtain ⟨-, rfl⟩ := List.cons.inj heq
  have hself : (s.insertClient i).services i = (s.services i).register := services_setService_self _ i _
  refine .inr ⟨by rw [hself]; exact hasking.named, ?_, ?_, ?_⟩
  · rw [hself, Service.register, hasking.held, hasking.named]
    rfl
  · rw [hself]
    exact ⟨fun h => (by cases h), fun h => (by cases h)⟩
  · rw [hself, Service.register, hasking.named]
    exact congrArg (· ++ [Notice.entry nickname]) hasking.notices

/-- The nickname of the connection is taken. -/
theorem Spoken.refuse (hi : (s.services i).phase = .registering) (h : s.Spoken i lines) : (s.refuseClient i).Spoken i lines := by
  obtain ⟨nickname, hhead, hif⟩ := h.asking hi
  obtain ⟨messages, rfl⟩ : ∃ messages, lines = nickname :: messages := List.head?_eq_some_iff.1 hhead
  intro hne
  obtain ⟨heq, hasking⟩ := hif hne
  obtain ⟨-, rfl⟩ := List.cons.inj heq
  have hself : (s.refuseClient i).services i = (s.services i).close := services_setService_self _ i _
  exact .inl ⟨rfl, by rw [hself]; exact hasking.named, by rw [hself]; exact hasking.held, by rw [hself]; exact .inr rfl,
    hasking.notices⟩

/-- **An event, of any connection.** -/
theorem spoken_step {e : Event} {lines : ℕ → List (List UInt8)} (hwf : s.Wf) (h : ∀ j, s.Spoken j (lines j))
    (he : ¬ s.Idle e) (j : ℕ) : (s.step e).Spoken j (lines j ++ Wire.linesOf j [e]) := by
  have hother : ∀ {i j : ℕ} {c : Service}, j ≠ i → (s.setService i c).Spoken j (lines j) := fun hj =>
    (h _).congr (s.services_setService_of_ne hj _) rfl
  refine step_cases (Q := fun e t => ¬ s.Idle e → t.Spoken j (lines j ++ Wire.linesOf j [e])) ?_ ?_ ?_ ?_ ?_ ?_
    (fun _ hidle hno => absurd hidle hno) e he
  · intro _
    refine Spoken.of_append_nil ?_
    by_cases hj : j = s.accepted
    · subst hj
      have hself : ({ s with accepted := s.accepted + 1 }.setService s.accepted .accept).services s.accepted = .accept :=
        services_setService_self _ _ _
      have habsent := hwf.absent s.accepted (Nat.le_refl _)
      have hold := h s.accepted
      cases hlines : lines s.accepted with
      | nil =>
        rw [hlines] at hold
        exact ⟨by rw [hself]; rfl, by rw [hself]; rfl, by rw [hself]; exact .inr (.inl rfl), hold.notices⟩
      | cons nickname messages =>
        rw [hlines] at hold
        intro hne
        have hnamed : (s.services s.accepted).nickname = nickname := by
          rcases hold hne with ⟨-, h⟩ | h
          · exact h.named
          · exact h.named
        rw [habsent] at hnamed
        exact absurd hnamed.symm hne
    · exact (h j).congr (services_setService_of_ne _ hj _) rfl
  · intro i line hi _
    rw [Wire.linesOf, Wire.linesOf]
    by_cases hj : j = i
    · subst hj
      rw [if_pos rfl]
      exact (h j).line hi line
    · rw [if_neg (Ne.symm hj)]
      exact Spoken.of_append_nil (hother hj)
  · intro i hi _
    refine Spoken.of_append_nil ?_
    by_cases hj : j = i
    · subst hj
      exact (h j).fail hi
    · exact hother hj
  · intro i hi _ _
    refine Spoken.of_append_nil ?_
    by_cases hj : j = i
    · subst hj
      exact (h j).insert hi
    · exact (h j).congr (services_setService_of_ne _ hj _) rfl
  · intro i hi _ _
    refine Spoken.of_append_nil ?_
    by_cases hj : j = i
    · subst hj
      exact (h j).refuse hi
    · exact (h j).congr (services_setService_of_ne _ hj _) rfl
  · intro i notice hi _
    exact Spoken.of_append_nil ((h j).broadcast hi)

end Step

end Server

namespace Wire

open Server

/-- Nothing waits for the event. -/
theorem step_of_idle {s : Server} {e : Event} (h : s.Idle e) : s.step e = s := by
  cases e with
  | accept => exact h.elim
  | line i m => exact if_neg h
  | readError i => exact if_neg h
  | resume i =>
    rw [Server.step]
    split
    · next hp => exact absurd hp h.1
    · next notice hp => exact absurd hp (h.2 notice)
    · rfl

/-- The handlers are called with a line of a connection that they wait for. -/
theorem linesOf_of_idle {s : Wire} {e : WireEvent} {e' : Event} (hreport : s.report e = some e') (h : s.server.Idle e')
    (i : ℕ) : linesOf i [e'] = [] := by
  have hline : ∀ {t : Wire} {j : ℕ}, (s.server.services j).phase = .reading → t.lineOf j = some e' → linesOf i [e'] = [] := by
    intro t j hj hsome
    obtain ⟨p, -, rfl⟩ := Option.map_eq_some_iff.1 hsome
    exact absurd hj h
  cases e with
  | accept =>
    obtain rfl := Option.some.inj hreport
    exact h.elim
  | data j bytes =>
    rw [report] at hreport
    split_ifs at hreport with hwaits
    exact hline hwaits.1 hreport
  | found j =>
    rw [report] at hreport
    split_ifs at hreport with hreading
    exact hline hreading hreport
  | readError j =>
    rw [report] at hreport
    split_ifs at hreport with hwaits
    obtain rfl := Option.some.inj hreport
    exact absurd hwaits.1 h
  | resume j =>
    obtain rfl := Option.some.inj hreport
    rfl

/-- What the run that the handlers make leaves of each connection. -/
theorem spoken (es : List WireEvent) :
    (es.foldl step empty).server.Wf ∧
      ∀ i, (es.foldl step empty).server.Spoken i (linesOf i (Run.reports step report empty es)) := by
  suffices h : ∀ (es : List WireEvent) (s : Wire) (lines : ℕ → List (List UInt8)), s.server.Wf →
      (∀ i, s.server.Spoken i (lines i)) → (es.foldl step s).server.Wf ∧
        ∀ i, (es.foldl step s).server.Spoken i (lines i ++ linesOf i (Run.reports step report s es)) by
    have hstart : ∀ i, empty.server.Spoken i [] := fun _ => ⟨rfl, rfl, .inl rfl, rfl⟩
    exact h es empty (fun _ => []) Wf.empty hstart
  intro es
  induction es with
  | nil =>
    intro s lines hwf h
    exact ⟨hwf, fun i => (h i).of_append_nil⟩
  | cons e es ih =>
    intro s lines hwf h
    have hnext : (s.step e).server.Wf ∧ ∀ i, (s.step e).server.Spoken i (lines i ++ linesOf i (s.report e).toList) := by
      rw [server_step]
      cases hreport : s.report e with
      | none => exact ⟨hwf, fun i => (h i).of_append_nil⟩
      | some e' =>
        refine ⟨hwf.step e', fun i => ?_⟩
        by_cases hidle : s.server.Idle e'
        · rw [Option.elim_some, step_of_idle hidle, Option.toList_some, linesOf_of_idle hreport hidle]
          exact (h i).of_append_nil
        · exact spoken_step hwf h hidle i
    have hrest := ih (s.step e) _ hnext.1 hnext.2
    refine ⟨hrest.1, fun i => ?_⟩
    rw [Run.reports, linesOf_append, ← List.append_assoc]
    exact hrest.2 i

/-- **Each connection is heard in its order.**  Of what has arrived from a connection that sends
a nickname and messages the server has broadcast a first part: the entry, then the messages one
after the other, each once and under that nickname. -/
theorem fifo_of_received (es : List WireEvent) (i : ℕ) (nickname : List UInt8) (messages : List (List UInt8))
    (hnick : nickname ≠ []) (hsent : ∀ line ∈ nickname :: messages, newline ∉ line)
    (hreceived : (es.foldl step empty).received i <+: text newline (nickname :: messages)) :
    (es.foldl step empty).server.noticesOf i <+: .entry nickname :: messages.map (.message nickname) := by
  obtain ⟨-, hlines, -⟩ := refines es i (nickname :: messages) hsent hreceived
  have hspoken := (spoken es).2 i
  cases heard : linesOf i (Run.reports step report empty es) with
  | nil =>
    rw [heard] at hspoken
    exact hspoken.notices ▸ List.nil_prefix
  | cons nickname' messages' =>
    rw [heard] at hspoken hlines
    obtain ⟨rfl, hmessages⟩ := List.cons_prefix_cons.1 hlines
    rcases hspoken hnick with ⟨-, h⟩ | h
    · exact h.notices ▸ List.nil_prefix
    · have hscript : script nickname' messages' <+: script nickname' messages :=
        List.cons_prefix_cons.2 ⟨rfl, hmessages.map _⟩
      exact (h.notices ▸ List.prefix_append _ _ : _ <+: script nickname' messages').trans hscript

/-- The nickname and the two messages have been broadcast. -/
theorem fifo_of_received_threeReads :
    (threeReads.foldl step empty).server.noticesOf 0 <+:
      .entry [0x61, 0x62] :: [[0x63], [0x64]].map (.message [0x61, 0x62]) :=
  fifo_of_received threeReads 0 [0x61, 0x62] [[0x63], [0x64]] (by decide) (by decide) (by decide +kernel)

/-! ### What is written to a connection -/

/-- The broadcasts that the run from `s` makes while the connection is in the table. -/
def broadcastsSince (i : ℕ) : Wire → List WireEvent → List Broadcast
  | _, [] => []
  | s, e :: es =>
    (if s.server.namesOf i = [] then [] else (s.step e).server.broadcasts.drop s.server.broadcasts.length) ++
      broadcastsSince i (s.step e) es

section Since

variable {s : Wire} {i : ℕ}

/-- An event broadcasts at the end, to those who are in the table. -/
theorem broadcasts_step (s : Wire) (e : WireEvent) : ∃ made, (s.step e).server.broadcasts = s.server.broadcasts ++ made ∧
    ∀ i, (s.server.namesOf i).length ≤ 1 → (s.step e).server.textsTo i =
      s.server.textsTo i ++ if s.server.namesOf i = [] then [] else made.map Broadcast.text := by
  have hnone : ∀ {t : Server}, t.broadcasts = s.server.broadcasts → ∃ made, t.broadcasts = s.server.broadcasts ++ made ∧
      ∀ i, (s.server.namesOf i).length ≤ 1 → t.textsTo i =
        s.server.textsTo i ++ if s.server.namesOf i = [] then [] else made.map Broadcast.text := by
    intro t ht
    refine ⟨[], by rw [ht, List.append_nil], fun i _ => ?_⟩
    rw [List.map_nil, ite_self, List.append_nil, textsTo, ht, textsTo]
  rw [server_step]
  cases s.report e with
  | none => exact hnone rfl
  | some e' =>
    rw [Option.elim_some]
    refine step_cases (Q := fun _ t => ∃ made, t.broadcasts = s.server.broadcasts ++ made ∧
      ∀ i, (s.server.namesOf i).length ≤ 1 → t.textsTo i =
        s.server.textsTo i ++ if s.server.namesOf i = [] then [] else made.map Broadcast.text)
      (hnone rfl) (fun _ _ _ => hnone rfl) (fun _ _ => hnone rfl) (fun _ _ _ => hnone rfl) (fun _ _ _ => hnone rfl)
      (fun i notice _ => ⟨[s.server.broadcastOf i notice], rfl, fun j hj => ?_⟩) (fun _ _ => hnone rfl) e'
    rw [textsTo_broadcastMessage, List.map_singleton]
    cases hnames : s.server.namesOf j with
    | nil => rfl
    | cons nickname rest =>
      rw [hnames, List.length_cons] at hj
      rw [List.eq_nil_of_length_eq_zero (l := rest) (by omega)]
      rfl

/-- A connection stays in the table. -/
theorem namesOf_step (h : s.server.namesOf i ≠ []) (e : WireEvent) : (s.step e).server.namesOf i ≠ [] := by
  rw [server_step]
  cases s.report e with
  | none => exact h
  | some e' =>
    rw [Option.elim_some]
    refine step_cases (Q := fun _ t => t.namesOf i ≠ []) h (fun _ _ _ => h) (fun _ _ => h) (fun j _ _ => ?_)
      (fun _ _ _ => h) (fun _ _ _ => h) (fun _ _ => h) e'
    rw [namesOf_insertClient]
    exact List.append_ne_nil_of_left_ne_nil h _

/-- **It is written what is broadcast while it is in the table.** -/
theorem textsTo_since {es : List WireEvent}
    (h : Run.Throughout step (fun s => (s.server.namesOf i).length ≤ 1) s es) :
    (es.foldl step s).server.textsTo i = s.server.textsTo i ++ (broadcastsSince i s es).map Broadcast.text := by
  induction es generalizing s with
  | nil => exact (List.append_nil _).symm
  | cons e es ih =>
    obtain ⟨made, hmade, htexts⟩ := broadcasts_step s e
    rw [List.foldl_cons, ih h.2, htexts i h.1, broadcastsSince, hmade, List.drop_left, List.map_append, List.append_assoc]
    split_ifs <;> rfl

/-- Those are the broadcasts made since it was registered. -/
theorem broadcastsSince_suffix (s : Wire) (es : List WireEvent) :
    (s.server.namesOf i ≠ [] → (es.foldl step s).server.broadcasts = s.server.broadcasts ++ broadcastsSince i s es) ∧
      broadcastsSince i s es <:+ (es.foldl step s).server.broadcasts := by
  induction es generalizing s with
  | nil => exact ⟨fun _ => (List.append_nil _).symm, List.nil_suffix⟩
  | cons e es ih =>
    obtain ⟨made, hmade, -⟩ := broadcasts_step s e
    rw [List.foldl_cons, broadcastsSince, hmade, List.drop_left]
    by_cases hnames : s.server.namesOf i = []
    · rw [if_pos hnames, List.nil_append]
      exact ⟨fun h => absurd hnames h, (ih _).2⟩
    · have hall : (es.foldl step (s.step e)).server.broadcasts =
          s.server.broadcasts ++ (made ++ broadcastsSince i (s.step e) es) := by
        rw [(ih _).1 (namesOf_step hnames e), hmade, List.append_assoc]
      rw [if_neg hnames, hall]
      exact ⟨fun _ => rfl, List.suffix_append _ _⟩

/-- A connection whose first line is not empty has one nickname. -/
theorem names_le_one {es : List WireEvent}
    (hfirst : ∀ line, (linesOf i (Run.reports step report empty es)).head? = some line → line ≠ []) :
    Run.Throughout step (fun s => (s.server.namesOf i).length ≤ 1) empty es := by
  refine Run.throughout_iff_prefix.2 ?_
  rintro es' ⟨rest, rfl⟩
  obtain ⟨hwf, hspoken⟩ := spoken es'
  have hspoken := hspoken i
  rw [Run.reports_append, linesOf_append] at hfirst
  rw [hwf.namesOf_eq]
  cases hlines : linesOf i (Run.reports step report empty es') with
  | nil =>
    rw [hlines] at hspoken
    rw [hspoken.held]
    exact Nat.zero_le _
  | cons nickname messages =>
    rw [hlines] at hspoken hfirst
    rcases hspoken (hfirst nickname rfl) with ⟨-, h⟩ | h
    · rw [h.held]
      exact Nat.zero_le _
    · rw [h.held]
      exact Nat.le_refl _

/-- The texts of a connection that sends a nickname and messages. -/
theorem textsTo_of_received {es : List WireEvent} {nickname : List UInt8} {messages : List (List UInt8)}
    (hnick : nickname ≠ []) (hsent : ∀ line ∈ nickname :: messages, newline ∉ line)
    (hreceived : (es.foldl step empty).received i <+: text newline (nickname :: messages)) :
    (es.foldl step empty).server.textsTo i = (broadcastsSince i empty es).map Broadcast.text := by
  obtain ⟨-, hlines, -⟩ := refines es i (nickname :: messages) hsent hreceived
  refine textsTo_since (names_le_one fun line hline => ?_)
  obtain ⟨rest, hrest⟩ := List.head?_eq_some_iff.1 hline
  rw [hrest] at hlines
  obtain ⟨rfl, -⟩ := List.cons_prefix_cons.1 hlines
  exact hnick

end Since

/-- **All connections hear the same order.**  Two connections that have each sent a nickname
that is not empty are written every broadcast made since they were registered, in the order of
all broadcasts, and nothing else by a broadcast; so the one is written the last part of what is
written to the other. -/
theorem total_order (es : List WireEvent) (i j : ℕ) {nickname nickname' : List UInt8} {messages messages' : List (List UInt8)}
    (hnick : nickname ≠ [] ∧ nickname' ≠ [])
    (hsent : (∀ line ∈ nickname :: messages, newline ∉ line) ∧ ∀ line ∈ nickname' :: messages', newline ∉ line)
    (hreceived : (es.foldl step empty).received i <+: text newline (nickname :: messages) ∧
      (es.foldl step empty).received j <+: text newline (nickname' :: messages')) :
    (∀ k ∈ [i, j], (es.foldl step empty).server.textsTo k = (broadcastsSince k empty es).map Broadcast.text ∧
      broadcastsSince k empty es <:+ (es.foldl step empty).server.broadcasts) ∧
    ((es.foldl step empty).server.textsTo i <:+ (es.foldl step empty).server.textsTo j ∨
      (es.foldl step empty).server.textsTo j <:+ (es.foldl step empty).server.textsTo i) := by
  have hi := textsTo_of_received hnick.1 hsent.1 hreceived.1
  have hj := textsTo_of_received hnick.2 hsent.2 hreceived.2
  have hsuffix (k : ℕ) := (broadcastsSince_suffix (i := k) empty es).2
  constructor
  · intro k hk
    rcases List.mem_pair.1 hk with rfl | rfl
    · exact ⟨hi, hsuffix k⟩
    · exact ⟨hj, hsuffix k⟩
  · rw [hi, hj]
    rcases List.suffix_or_suffix_of_suffix (hsuffix i) (hsuffix j) with h | h
    · exact .inl (h.map _)
    · exact .inr (h.map _)

/-- Two connections; the second enters while the first one talks. -/
def twoTalkers : List WireEvent :=
  [.accept, .data 0 [0x61, 0x0A], .resume 0, .resume 0, .accept, .data 1 [0x62, 0x0A, 0x63], .data 0 [0x64, 0x0A],
    .resume 1, .resume 0, .resume 1, .data 1 [0x0A], .resume 1]

theorem total_order_twoTalkers :
    (∀ k ∈ [0, 1], (twoTalkers.foldl step empty).server.textsTo k = (broadcastsSince k empty twoTalkers).map Broadcast.text ∧
      broadcastsSince k empty twoTalkers <:+ (twoTalkers.foldl step empty).server.broadcasts) ∧
    ((twoTalkers.foldl step empty).server.textsTo 0 <:+ (twoTalkers.foldl step empty).server.textsTo 1 ∨
      (twoTalkers.foldl step empty).server.textsTo 1 <:+ (twoTalkers.foldl step empty).server.textsTo 0) :=
  @total_order twoTalkers 0 1 [0x61] [0x62] [[0x64]] [[0x63]] (by decide) (by decide) (by decide +kernel)

end Wire

end ChatServer
end SocketCommunication
