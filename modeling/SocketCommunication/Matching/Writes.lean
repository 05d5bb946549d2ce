/-
# One write at a time

`async_write` is composed of partial writes: two of them on one socket may
interleave their bytes.  `SingleWrite` says that no session has two pending.

Three things start a write on a session without a look at whether one is pending:
a broadcast, the answer to a message, since a broadcast may be under way when it
is read, and the message of a new room to its mirror.  The second client on an
address is written two messages.  `Overlaps` collects these, and a run writes one
message at a time just when none of its events does any of them
(`singleWrite_iff`).
-/

import SocketCommunication.Matching.Sockets

namespace SocketCommunication
namespace Matching

open Effect

def Op.isWrite (op : Op) : Bool := ! op.isRead

namespace Server

/-- **Every session has at most one write pending.** -/
def SingleWrite (s : Server) : Prop := ∀ k, s.count (fun p => p.op.isWrite) k ≤ 1

/-- A write to the session `k` is pending. -/
def Writing (s : Server) (k : ℕ) : Prop := 0 < s.count (fun p => p.op.isWrite) k

instance (s : Server) (k : ℕ) : Decidable (s.Writing k) :=
  inferInstanceAs (Decidable (0 < s.count (fun p => p.op.isWrite) k))

/-- The handler writes to a session to which a write is pending, or twice to one. -/
def Interleaves (env : Env) (s : Server) (sid : ℕ) (sess : Session) : Op → Session.Completion → Prop
  | .readHandshake, .ok data => Session.answeredTwice s sess data
  | .readMessage, .ok none => s.Writing sid
  | .readMessage, .ok (some request) => ¬ (request.value "action").eqString "logout" ∧
      (s.Writing sid ∨ ∃ mirror ∈ s.announces env sess request, mirror = sid ∨ s.Writing mirror)
  | _, _ => False

/-- The event writes to a session to which a write is pending, or twice to one. -/
def Overlaps (env : Env) (s : Server) : Event → Prop
  | .complete sid i result => ∃ found ∈ s.completing sid i result, s.Interleaves env sid found.1 found.2.op result
  | .broadcast => s.running ∧ ∃ k ∈ s.waiting env, s.Writing k
  | _ => False

instance decidableInterleaves (env : Env) (s : Server) (sid : ℕ) (sess : Session) :
    ∀ op result, Decidable (s.Interleaves env sid sess op result)
  | .readHandshake, .ok data => inferInstanceAs (Decidable (Session.answeredTwice s sess data = true))
  | .readMessage, .ok none => inferInstanceAs (Decidable (s.Writing sid))
  | .readMessage, .ok (some request) => inferInstanceAs (Decidable (¬ (request.value "action").eqString "logout" ∧
      (s.Writing sid ∨ ∃ mirror ∈ s.announces env sess request, mirror = sid ∨ s.Writing mirror)))
  | .readHandshake, .error | .readMessage, .error | .writeHandshake _, _ | .writeResponse _, _ | .writeBroadcast _, _
  | .writeMirror _, _ => inferInstanceAs (Decidable False)

instance (env : Env) (s : Server) : ∀ e, Decidable (s.Overlaps env e)
  | .complete sid i result => inferInstanceAs (Decidable (∃ found ∈ s.completing sid i result,
      s.Interleaves env sid found.1 found.2.op result))
  | .broadcast => inferInstanceAs (Decidable (s.running = true ∧ ∃ k ∈ s.waiting env, s.Writing k))
  | .accept .. | .sessionCheck | .tick _ | .signal => inferInstanceAs (Decidable False)

end Server

section Writes

variable {env : Env} {s t : Server} {sid k : ℕ} {sess : Session} {l : Starts}

/-- What is announced does not depend on the operations that are pending. -/
theorem announces_take (i : ℕ) (ops : List PendingOp) (request : Json) :
    (s.take sid i).announces env { sess with pending := ops } request = s.announces env sess request := by
  have hmirror : (s.take sid i).mirrorOf = s.mirrorOf := by
    funext port
    simp only [Server.mirrorOf, Server.take, Server.modifySession_mirrors, Server.isSome_modifySession]
  have hworld : (s.take sid i).world = s.world := Server.modifySession_world ..
  simp only [Server.announces, Server.told, hmirror, hworld]
  rfl

theorem answeredTwice_take (i : ℕ) (ops : List PendingOp) (data : Option Json) :
    Session.answeredTwice (s.take sid i) { sess with pending := ops } data = Session.answeredTwice s sess data := by
  have hips : (s.take sid i).connectedIps = s.connectedIps := Server.modifySession_connectedIps ..
  have hversion : (s.take sid i).version = s.version := Server.modifySession_version ..
  cases data with
  | none => rfl
  | some handshake => simp only [Session.answeredTwice, hips, hversion]

theorem not_answeredTwice_of_silent {data : Option Json} (h : Session.silent s sess data) :
    Session.answeredTwice s sess data = false := by
  cases data with
  | none => rfl
  | some handshake =>
    rw [Session.silent] at h
    split_ifs at h with hmirror
    · simp [Session.answeredTwice, hmirror]
    · simp only [Bool.and_eq_true, decide_eq_true_eq] at h
      simp [Session.answeredTwice, h.1]

theorem isWrite_of_isAnswer {op : Op} (hop : op.isAnswer) : op.isWrite := by
  cases op <;> simp_all [Op.isWrite, Op.isRead, Op.isAnswer]

/-- One write to a session. -/
theorem countP_one {p : PendingOp} (hp : p.op.isWrite) :
    (Starts.on [(sid, p)] k).countP (fun p => p.op.isWrite) = if sid = k then 1 else 0 := by
  rw [Starts.countP_on_cons, Starts.on_nil, List.countP_nil, Nat.add_zero]
  simp only [hp, and_true]

theorem Answers.writes {m : Option ℕ} (h : Answers sid m l) :
    (l.on k).countP (fun p => p.op.isWrite) = (if sid = k then 1 else 0) + if m = some k then 1 else 0 := by
  cases h with
  | alone =>
    rw [countP_one rfl, if_neg (Option.some_ne_none k ∘ Eq.symm), Nat.add_zero]
  | notified =>
    rw [Starts.countP_on_cons, countP_one rfl, Nat.add_comm]
    simp [Op.isWrite, Op.isRead]

theorem Hailed.writes_le {data : Option Json} (h : Hailed s sid sess data l)
    (honce : Session.answeredTwice s sess data = false) :
    (l.on k).countP (fun p => p.op.isWrite) ≤ if sid = k then 1 else 0 := by
  cases h with
  | unanswered => exact Nat.zero_le _
  | answered _ _ hop => exact (countP_one (isWrite_of_isAnswer hop)).le
  | warned h =>
    rw [honce] at h
    cases h

theorem Hailed.writes_twice {data : Option Json} (h : Hailed s sid sess data l)
    (htwice : Session.answeredTwice s sess data) : (l.on sid).countP (fun p => p.op.isWrite) = 2 := by
  cases h with
  | unanswered h =>
    rw [not_answeredTwice_of_silent h] at htwice
    cases htwice
  | answered _ h =>
    rw [h] at htwice
    cases htwice
  | warned _ hop hop' =>
    rw [Starts.countP_on_cons, countP_one (isWrite_of_isAnswer hop'), if_pos rfl, if_pos ⟨rfl, isWrite_of_isAnswer hop⟩]

theorem isSome_of_count {f : PendingOp → Bool} (h : 0 < s.count f k) : (s.get? k).isSome := by
  by_contra hnone
  rw [count_of_none (Option.not_isSome_iff_eq_none.1 hnone)] at h
  exact absurd h (Nat.lt_irrefl 0)

/-- A broadcast writes once to each session that waits. -/
theorem writes_broadcast (hwrite : ∀ p ∈ l, ∃ response, p.2.op = .writeBroadcast response) :
    (l.on k).countP (fun p => p.op.isWrite) = (l.map (·.1)).count k := by
  induction l with
  | nil => rfl
  | cons p l ih =>
    obtain ⟨response, hp⟩ := hwrite p List.mem_cons_self
    have hop : p.2.op.isWrite := by rw [hp]; rfl
    rw [Starts.countP_on_cons, ih fun q hq => hwrite q (List.mem_cons_of_mem _ hq), List.map_cons, List.count_cons,
      Nat.add_comm]
    simp only [hop, and_true, beq_iff_eq]

/-- A session whose first message is still to be read writes nothing. -/
theorem Server.Sane.not_writing (hsane : s.Sane) {i : ℕ} {p : PendingOp} (hs : s.get? sid = some sess)
    (hp : sess.pending[i]? = some p) (hop : p.op = .readHandshake) : s.count (fun p => p.op.isWrite) sid = 0 := by
  obtain ⟨q, hq, -⟩ := (hsane.session sid sess hs).fresh fun hg => hg p (List.mem_of_getElem? hp) hop
  rw [hq] at hp
  obtain rfl : p = q := List.mem_singleton.1 (List.mem_of_getElem? hp)
  rw [count_of_get? hs, hq, List.countP_cons, hop]
  rfl

namespace Server

/-- The handler of a read leaves one write to each session just when those it
starts find no other. -/
theorem SingleWrite.read_iff {e : Event} (hstepped : Stepped env s e t) (hcount : ∀ k, (s.get? k).isSome →
      t.count (fun p => p.op.isWrite) k = s.count (fun p => p.op.isWrite) k + (l.on k).countP fun p => p.op.isWrite) :
    SingleWrite t ↔ ∀ k, (s.get? k).isSome →
      s.count (fun p => p.op.isWrite) k + ((l.on k).countP fun p => p.op.isWrite) ≤ 1 := by
  constructor
  · intro hafter k hk
    rw [← hcount k hk]
    exact hafter k
  · intro hsum k
    cases hk : (s.get? k).isSome with
    | false => exact hstepped.count_new hk
    | true => exact (hcount k hk).trans_le (hsum k hk)

/-- What a first message starts, beside no other write. -/
theorem SingleWrite.greeted_iff (h : s.SingleWrite) (hzero : s.count (fun p => p.op.isWrite) sid = 0)
    (hthere : (s.get? sid).isSome) {r : Server} {data : Option Json} (hl : Hailed r sid sess data l) :
    (∀ k, (s.get? k).isSome → s.count (fun p => p.op.isWrite) k + ((l.on k).countP fun p => p.op.isWrite) ≤ 1) ↔
      ¬ Session.answeredTwice r sess data := by
  constructor
  · intro hsum htwice
    have htwo := hl.writes_twice htwice
    have hle := hsum sid hthere
    omega
  · intro honce k _
    have hle := hl.writes_le (k := k) (Bool.eq_false_iff.2 honce)
    have hk := h k
    split_ifs at hle with hsid
    · subst hsid
      omega
    · omega

/-- The answer to a message, beside what is being written. -/
theorem SingleWrite.heard_iff (h : s.SingleWrite) (hthere : (s.get? sid).isSome) {m : Option ℕ} (hl : Answers sid m l) :
    (∀ k, (s.get? k).isSome → s.count (fun p => p.op.isWrite) k + ((l.on k).countP fun p => p.op.isWrite) ≤ 1) ↔
      ¬ (s.Writing sid ∨ ∃ mirror ∈ m, mirror = sid ∨ s.Writing mirror) := by
  have hwrites := fun k => hl.writes (k := k)
  simp only [Writing]
  constructor
  · rintro hsum (hbusy | ⟨mirror, hmirror, hsame⟩)
    · have hle := hsum sid hthere
      rw [hwrites, if_pos rfl] at hle
      omega
    · have hle : (s.get? mirror).isSome → s.count (fun p => p.op.isWrite) mirror + ((if sid = mirror then 1 else 0) + 1) ≤ 1 := by
        intro hm
        have hle := hsum mirror hm
        rwa [hwrites, if_pos (Option.mem_def.1 hmirror)] at hle
      rcases hsame with rfl | hbusy
      · have hone := hle hthere
        rw [if_pos rfl] at hone
        omega
      · have hone := hle (isSome_of_count hbusy)
        omega
  · intro hidle k _
    have hk := h k
    rw [hwrites]
    by_cases hmirror : m = some k
    · have hne : sid ≠ k := fun hsid => hidle (.inr ⟨k, hmirror, .inl hsid.symm⟩)
      have hquiet : ¬ 0 < s.count (fun p => p.op.isWrite) k := fun hbusy => hidle (.inr ⟨k, hmirror, .inr hbusy⟩)
      rw [if_pos hmirror, if_neg hne]
      omega
    · rw [if_neg hmirror]
      split_ifs with hsid
      · subst hsid
        have hquiet : ¬ 0 < s.count (fun p => p.op.isWrite) sid := fun hbusy => hidle (.inl hbusy)
        omega
      · omega

/-- A completion writes one message at a time just when it does not interleave. -/
theorem SingleWrite.complete_iff (h : s.SingleWrite) (hsane : s.Sane) {i : ℕ} {p : PendingOp}
    {result : Session.Completion} (hfound : s.completing sid i result = some (sess, p)) :
    SingleWrite (step env s (.complete sid i result)) ↔ ¬ s.Interleaves env sid sess p.op result := by
  obtain ⟨hs, hp, -⟩ := completing_eq_some.1 hfound
  have hthere : (s.get? sid).isSome := Option.isSome_of_mem hs
  have hstepped := @step_stepped env s hsane (.complete sid i result)
  obtain ⟨l, hl, hcount⟩ := @step_count env s sid sess hsane i p result hfound
  have hquiet : (∀ k, ((l.on k).countP fun p => p.op.isWrite) = 0) → ¬ s.Interleaves env sid sess p.op result →
      (SingleWrite (step env s (.complete sid i result)) ↔ ¬ s.Interleaves env sid sess p.op result) := by
    refine fun hnone hno => iff_of_true (fun k => ?_) hno
    cases hk : (s.get? k).isSome with
    | false => exact hstepped.count_new hk
    | true =>
      have hold := hcount (fun p => p.op.isWrite) k hk
      have hle := h k
      have hnew := hnone k
      omega
  have hreads : ∀ {live : Bool} (k : ℕ),
      ((Starts.on [(sid, ⟨.readMessage, live⟩)] k).countP fun p => p.op.isWrite) = 0 :=
    fun k => Starts.countP_on_cons_of_not rfl [] k
  obtain ⟨op, live⟩ := p
  have hread : op.isRead → (SingleWrite (step env s (.complete sid i result)) ↔ ∀ k, (s.get? k).isSome →
      s.count (fun p => p.op.isWrite) k + ((l.on k).countP fun p => p.op.isWrite) ≤ 1) := by
    refine fun hop => SingleWrite.read_iff hstepped fun k hk => ?_
    have hold := hcount (fun p => p.op.isWrite) k hk
    simp only [Op.isWrite, hop, Bool.not_true, Bool.false_eq_true, and_false, if_false] at hold
    exact hold
  cases hl with
  | failed =>
    refine hquiet (fun k => rfl) fun hno => ?_
    cases op <;> exact hno
  | answered hop =>
    refine hquiet hreads fun hno => ?_
    cases op with
    | readHandshake | readMessage => cases hop
    | _ => exact hno
  | notified => exact hquiet hreads id
  | broadcast => exact hquiet (fun k => rfl) id
  | greeted hhailed =>
    rw [hread rfl, h.greeted_iff (hsane.not_writing hs hp rfl) hthere hhailed, answeredTwice_take]
    exact Iff.rfl
  | @heard data _ hheard =>
    cases data with
    | none =>
      rw [hread rfl, h.heard_iff hthere hheard]
      exact not_congr (or_iff_left fun hmirror => nomatch hmirror.choose_spec.1)
    | some request =>
      change Asked env (s.take sid i) sid { sess with pending := sess.pending.eraseIdx i } request l at hheard
      rw [Asked, announces_take] at hheard
      split_ifs at hheard with hlogout
      · exact hquiet (fun k => by rw [hheard]; rfl) fun hno => hno.1 hlogout
      · rw [hread rfl, h.heard_iff hthere hheard]
        exact not_congr (iff_and_self.2 fun _ => hlogout)

theorem SingleWrite.broadcast_iff (h : s.SingleWrite) (hsane : s.Sane) (hlisted : s.Listed) (hrunning : s.running) :
    SingleWrite (step env s .broadcast) ↔ ∀ k ∈ s.waiting env, ¬ s.Writing k := by
  obtain ⟨l, hedits, hl, hop⟩ := @step_broadcast_edits env s hrunning
  have hnodup : (s.waiting env).Nodup := hlisted.nodup_users.sublist (List.filter_sublist.map _)
  have hcount : ∀ {k}, (s.get? k).isSome → (step env s .broadcast).count (fun p => p.op.isWrite) k =
      s.count (fun p => p.op.isWrite) k + (s.waiting env).count k := by
    intro k hk
    rw [hedits.grows.count hk, writes_broadcast hop, hl]
  constructor
  · intro hafter k hk hwriting
    have hone : (s.waiting env).count k = 1 := List.count_eq_one_of_mem hnodup hk
    have hle := hafter k
    rw [hcount (isSome_of_waiting hk), hone] at hle
    exact absurd hwriting (by rw [Writing]; omega)
  · intro hidle k
    cases hk : (s.get? k).isSome with
    | false => exact (step_stepped hsane _).count_new hk
    | true =>
      rw [hcount hk]
      by_cases hwaits : k ∈ s.waiting env
      · have hzero := hidle k hwaits
        rw [Writing] at hzero
        have hone := List.nodup_iff_count_le_one.1 hnodup k
        omega
      · rw [List.count_eq_zero.2 hwaits]
        exact h k

/-- **An event leaves one write to each session just when it does not overlap another.** -/
theorem SingleWrite.step_iff (h : s.SingleWrite) (hsane : s.Sane) (hlisted : s.Listed) (e : Event) :
    SingleWrite (step env s e) ↔ ¬ s.Overlaps env e := by
  have hstepped := @step_stepped env s hsane e
  have hidle : (∀ sid i result, e = .complete sid i result → s.completing sid i result = none) →
      (e = .broadcast → s.running = false) → SingleWrite (step env s e) := by
    intro hcomplete hbroadcast k
    cases hk : (s.get? k).isSome with
    | false => exact hstepped.count_new hk
    | true => exact (hstepped.count_le hsane hcomplete hbroadcast hk).trans (h k)
  cases e with
  | complete sid i result =>
    cases hfound : s.completing sid i result with
    | none =>
      refine iff_of_true (hidle (fun _ _ _ he => ?_) fun he => nomatch he) fun ⟨found, hmem, _⟩ => ?_
      · cases he
        exact hfound
      · rw [hfound] at hmem
        cases hmem
    | some found =>
      rw [h.complete_iff hsane hfound]
      simp only [Overlaps, hfound, Option.mem_some_iff, exists_eq_left']
  | broadcast =>
    cases hrunning : s.running with
    | false =>
      refine iff_of_true (hidle (fun _ _ _ he => nomatch he) fun _ => hrunning) fun hno => ?_
      rw [hno.1] at hrunning
      cases hrunning
    | true =>
      rw [h.broadcast_iff hsane hlisted hrunning]
      simp only [Overlaps, hrunning, true_and, not_exists, not_and]
  | accept | sessionCheck | tick | signal =>
    exact iff_of_true (hidle (fun _ _ _ he => nomatch he) fun he => nomatch he) id

/-- **A run writes one message at a time to each session just when none of its
events writes to a session that is being written to.** -/
theorem singleWrite_iff {s : Server} (h : Init s) (es : List Event) :
    Run.Throughout (step env) SingleWrite s es ↔ Run.Along (step env) (fun s e => ¬ s.Overlaps env e) s es := by
  have hsingle : SingleWrite s := by
    intro k
    rw [count_of_none (get?_of_empty h.heap k)]
    exact Nat.zero_le 1
  refine Run.throughout_iff_along (I := fun r : Server => r.Sane ∧ r.Listed ∧ r.SingleWrite) (fun s hs => hs.2.2) ?_ ?_
    ⟨h.sane, h.listed, hsingle⟩ es
  · rintro s e ⟨hsane, hlisted, hs⟩ hno
    exact ⟨step_sane hsane e, (step_stepped hsane e).listed hsane hlisted, (hs.step_iff hsane hlisted e).2 hno⟩
  · rintro s e ⟨hsane, hlisted, hs⟩ hover hafter
    exact hover ((hs.step_iff hsane hlisted e).1 hafter)

/-- A client is told how many are connected, one message after the other. -/
def countedRun : List Event :=
  connects 0 "192.0.2.1" ++ sends 0 (credentials "login" "rnqhscjf3333" "admin") ++
    [.broadcast, .complete 0 1 (.ok none), .broadcast]

/-- The client has not taken the second message when the third is written. -/
def crowdedRun : List Event := countedRun ++ [.broadcast]

theorem singleWrite_counted : Run.Throughout (step .reliable) SingleWrite init countedRun :=
  (singleWrite_iff init_init countedRun).2 (by decide +kernel)

theorem not_singleWrite_crowded : ¬ Run.Throughout (step .reliable) SingleWrite init crowdedRun := by
  intro h
  have hwrites : (crowdedRun.foldl (step .reliable) init).count (fun p => p.op.isWrite) 0 = 2 := by decide +kernel
  have hle := h.last 0
  omega

end Server

end Writes

end Matching
end SocketCommunication
