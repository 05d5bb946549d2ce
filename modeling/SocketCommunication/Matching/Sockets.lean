/-
# Operations pending on a socket

`count f` counts the pending operations of a session that `f` picks.  A completion
takes one operation away and adds those that its handler starts (`step_count`); a
broadcast adds one write for each waiting session.  The bounds on reads and on
writes are sums of these.
-/

import SocketCommunication.Lib.Slots
import SocketCommunication.Matching.Registry
import SocketCommunication.Matching.Starts

namespace SocketCommunication
namespace Matching

open Effect

/-- The operation reads into `buffer_`. -/
def Op.isRead : Op → Bool
  | .readHandshake | .readMessage => true
  | _ => false

/-- The pending operations of the session `k` that `f` picks. -/
def Server.count (f : PendingOp → Bool) (s : Server) (k : ℕ) : ℕ := (s.get? k).elim 0 fun x => x.pending.countP f

section Counts

variable {env : Env} {s t : Server} {sid k : ℕ} {sess : Session} {f : PendingOp → Bool}

theorem count_of_get? {x : Session} (hx : s.get? k = some x) : s.count f k = x.pending.countP f := by
  rw [Server.count, hx, Option.elim_some]

theorem count_of_none (hk : s.get? k = none) : s.count f k = 0 := by
  rw [Server.count, hk, Option.elim_none]

theorem Grows.count {l : Starts} (h : Grows s t l) (hk : (s.get? k).isSome) :
    t.count f k = s.count f k + (l.on k).countP f := by
  obtain ⟨y, hy⟩ := Option.isSome_iff_exists.1 ((h.there k).trans hk)
  obtain ⟨x, hx, -, hpending⟩ := h.session k y hy
  rw [count_of_get? hy, count_of_get? hx, hpending, List.countP_append]

/-- **What a completion makes of the pending operations of a session that is there.** -/
theorem step_count (hsane : s.Sane) {i : ℕ} {p : PendingOp} {result : Session.Completion}
    (hfound : s.completing sid i result = some (sess, p)) :
    ∃ l, Begins env (s.take sid i) sid { sess with pending := sess.pending.eraseIdx i } p.op result l ∧
      ∀ f k, (s.get? k).isSome → (Server.step env s (.complete sid i result)).count f k +
        (if k = sid ∧ f p then 1 else 0) = s.count f k + (l.on k).countP f := by
  obtain ⟨hs, hp, hcan⟩ := Server.completing_eq_some.1 hfound
  obtain ⟨t, ht, hstep⟩ := @step_completed env s sid sess i p result hsane hs hp hcan
  have hget := Server.get?_take hs i
  obtain ⟨l, hl, hgrows⟩ := ht.begins hget
  refine ⟨l, hl, fun f k hk => ?_⟩
  have htake : (s.take sid i).count f k + (if k = sid ∧ f p then 1 else 0) = s.count f k := by
    by_cases hsid : k = sid
    · subst hsid
      rw [count_of_get? hget, count_of_get? hs, Slots.countP_eraseIdx hp]
      simp only [true_and]
    · rw [if_neg fun h => hsid h.1, Server.count, Server.take, Server.get?_modifySession_of_ne hsid]
      rfl
  have hcount : t.count f k = (s.take sid i).count f k + (l.on k).countP f :=
    hgrows.count (by rwa [Server.take, Server.isSome_modifySession])
  have hreap : (t.reap sid).count f k = t.count f k := by
    rcases Server.reap_cases sid t with ⟨hreap, -⟩ | ⟨x, hx, hidle, hreap⟩
    · rw [hreap]
    · rw [hreap, Server.count, Server.get?_destroy]
      split_ifs with hsid
      · rw [hsid, count_of_get? hx, hidle]
        rfl
      · rfl
  rw [hstep, hreap]
  omega

/-- The sessions that are there after an event were there before it, or are new. -/
theorem Stepped.there {e : Event} (h : Stepped env s e t) (hk : (t.get? k).isSome) :
    (s.get? k).isSome ∨ ∃ remoteIp mirrorPort, e = .accept (some remoteIp) mirrorPort ∧ k = s.nextId ∧
      t = s.accept remoteIp mirrorPort := by
  cases h with
  | idle => exact .inl hk
  | @accepted remoteIp mirrorPort =>
    have hget := Server.get?_of_insert (s := s) (t := s.accept remoteIp mirrorPort) rfl k
    rw [hget] at hk
    split_ifs at hk with hnew
    · exact .inr ⟨remoteIp, mirrorPort, rfl, hnew, rfl⟩
    · exact .inl hk
  | @completed sid i result sess p r hs hp hcan ht =>
    obtain ⟨l, -, hgrows⟩ := ht.begins (Server.get?_take hs i)
    have hthere : (r.get? k).isSome → (s.get? k).isSome := fun h => by
      rwa [hgrows.there, Server.take, Server.isSome_modifySession] at h
    obtain ⟨y, hy⟩ := Option.isSome_iff_exists.1 hk
    exact .inl (hthere (Option.isSome_of_mem (Server.get?_of_reap hy)))
  | checked hedits => exact .inl ((hedits.isSome k).symm.trans hk)
  | broadcast _ hedits => exact .inl ((hedits.isSome k).symm.trans hk)
  | ticked => exact .inl hk
  | unwound => exact absurd hk Bool.false_ne_true
  | stopped => exact absurd hk Bool.false_ne_true

theorem count_accept (remoteIp : String) (mirrorPort : ℤ) (f : PendingOp → Bool) (k : ℕ) :
    (s.accept remoteIp mirrorPort).count f k =
      if k = s.nextId then [(⟨.readHandshake, true⟩ : PendingOp)].countP f else s.count f k := by
  have hget := Server.get?_of_insert (s := s) (t := s.accept remoteIp mirrorPort) rfl k
  rw [Server.count, hget]
  split_ifs <;> rfl

/-- A session that is new has one operation pending. -/
theorem Stepped.count_new {e : Event} (h : Stepped env s e t) (hk : (s.get? k).isSome = false) : t.count f k ≤ 1 := by
  by_cases hthere : (t.get? k).isSome
  · rcases h.there hthere with hold | ⟨remoteIp, mirrorPort, -, rfl, rfl⟩
    · rw [hk] at hold
      cases hold
    · rw [count_accept, if_pos rfl]
      exact List.countP_le_length
  · rw [count_of_none (Option.not_isSome_iff_eq_none.1 hthere)]
    exact Nat.zero_le 1

/-- Events other than completions and broadcasts start nothing on the sessions that are there. -/
theorem Stepped.count_le {e : Event} (h : Stepped env s e t) (hsane : s.Sane)
    (hcomplete : ∀ sid i result, e = .complete sid i result → s.completing sid i result = none)
    (hbroadcast : e = .broadcast → s.running = false) (hk : (s.get? k).isSome) : t.count f k ≤ s.count f k := by
  cases h with
  | idle => exact le_rfl
  | accepted =>
    rw [count_accept]
    split_ifs with hnew
    · exact absurd hnew (hsane.heap k hk).ne
    · exact le_rfl
  | completed hs hp hcan =>
    have hfound := Server.completing_eq_some.2 ⟨hs, hp, hcan⟩
    rw [hcomplete _ _ _ rfl] at hfound
    cases hfound
  | checked hedits => exact (hedits.grows.count hk).le
  | broadcast hrunning =>
    rw [hbroadcast rfl] at hrunning
    cases hrunning
  | ticked => exact le_rfl
  | unwound => exact Nat.zero_le _
  | stopped => exact Nat.zero_le _

end Counts

/-! ### Reads -/

/-- The operation reads, or its handler will. -/
def PendingOp.loops (p : PendingOp) : Bool := p.op.isRead || (p.live && p.op.isAnswer)

/-- The operation writes the message of a new room to a mirror. -/
def Op.isNotice : Op → Bool
  | .writeMirror _ => true
  | _ => false

def Session.Completion.isOk : Session.Completion → Bool
  | .ok _ => true
  | .error => false

namespace Server

/-- **Every session has at most one read pending.** -/
def SingleRead (s : Server) : Prop := ∀ k, s.count (fun p => p.op.isRead) k ≤ 1

/-- Every session reads once, or will. -/
def Looped (s : Server) : Prop := ∀ k, s.count PendingOp.loops k ≤ 1

/-- The event completes the message of a new room on a mirror that reads, or will. -/
def Doubles (s : Server) : Event → Prop
  | .complete sid i result =>
    ∃ found ∈ s.completing sid i result, found.2.op.isNotice ∧ result.isOk ∧ 0 < s.count PendingOp.loops sid
  | _ => False

instance (s : Server) : ∀ e, Decidable (s.Doubles e)
  | .complete sid i result => inferInstanceAs (Decidable (∃ found ∈ s.completing sid i result,
      found.2.op.isNotice ∧ result.isOk ∧ 0 < s.count PendingOp.loops sid))
  | .accept .. | .sessionCheck | .broadcast | .tick _ | .signal => inferInstanceAs (Decidable False)

end Server

section Reads

variable {env : Env} {s : Server} {sid k : ℕ} {sess : Session} {l : Starts}

theorem loops_of_isAnswer {op : Op} {live : Bool} (hop : op.isAnswer) : PendingOp.loops ⟨op, live⟩ = live := by
  cases op <;> simp_all [PendingOp.loops, Op.isRead, Op.isAnswer]

theorem Answers.loops {m : Option ℕ} (h : Answers sid m l) :
    (l.on k).countP PendingOp.loops ≤ if k = sid then 1 else 0 := by
  have hnotice : ∀ {message : Json} {live : Bool}, PendingOp.loops ⟨.writeMirror message, live⟩ = false := by
    intro message live
    simp [PendingOp.loops, Op.isRead, Op.isAnswer]
  cases h with
  | alone => exact Starts.countP_on_cons_le ..
  | notified =>
    rw [Starts.countP_on_cons_of_not hnotice]
    exact Starts.countP_on_cons_le ..

theorem Hailed.loops {data : Option Json} (h : Hailed s sid sess data l) :
    (l.on k).countP PendingOp.loops ≤ if k = sid then 1 else 0 := by
  cases h with
  | unanswered => exact Nat.zero_le _
  | answered => exact Starts.countP_on_cons_le ..
  | warned _ hop hop' =>
    -- the second write is on a closed socket, and will not read on
    have hclosed : (Starts.on [(sid, ⟨_, false⟩)] k).countP PendingOp.loops = 0 :=
      Starts.countP_on_cons_of_not (loops_of_isAnswer hop') [] k
    refine (Starts.countP_on_cons_le ..).trans ?_
    rw [hclosed, Nat.add_zero]

/-- A handler reads on when it was called by what reads on, or by the write to a mirror. -/
theorem Begins.loops {p : PendingOp} {result : Session.Completion} (h : Begins env s sid sess p.op result l)
    (hcan : Server.canComplete p result) : (l.on k).countP PendingOp.loops ≤
      if k = sid ∧ (p.loops ∨ p.op.isNotice ∧ result.isOk) then 1 else 0 := by
  obtain ⟨op, live⟩ := p
  have hone : ∀ {q : PendingOp} {P : Prop} [Decidable P], P →
      (Starts.on [(sid, q)] k).countP PendingOp.loops ≤ if k = sid ∧ P then 1 else 0 := by
    intro q P _ hP
    simp only [hP, and_true]
    exact Starts.countP_on_cons_le ..
  cases h with
  | failed => exact Nat.zero_le _
  | greeted h =>
    have hread : PendingOp.loops ⟨.readHandshake, live⟩ := by simp [PendingOp.loops, Op.isRead]
    simp only [hread, true_or, and_true]
    exact h.loops
  | @heard data _ h =>
    have hread : PendingOp.loops ⟨.readMessage, live⟩ := by simp [PendingOp.loops, Op.isRead]
    simp only [hread, true_or, and_true]
    cases data with
    | none => exact Answers.loops h
    | some request =>
      change Asked env s sid sess request l at h
      unfold Asked at h
      split_ifs at h
      · rw [h]
        exact Nat.zero_le _
      · exact h.loops
  | answered hop =>
    refine hone (.inl ?_)
    rw [loops_of_isAnswer hop]
    exact hcan
  | notified => exact hone (.inr ⟨rfl, rfl⟩)
  | broadcast => exact Nat.zero_le _

/-- **Every session reads once, or will, as long as no message of a new room is
completed on a mirror that does.** -/
theorem Server.Looped.step {e : Event} (h : s.Looped) (hsane : s.Sane) (hdoubles : ¬ s.Doubles e) :
    (Server.step env s e).Looped := by
  intro k
  have hstepped := @step_stepped env s hsane e
  cases hthere : (s.get? k).isSome with
  | false => exact hstepped.count_new hthere
  | true =>
    by_cases hbroadcast : e = .broadcast ∧ s.running
    · obtain ⟨rfl, hrunning⟩ := hbroadcast
      obtain ⟨l, hedits, -, hop⟩ := @step_broadcast_edits env s hrunning
      have hnone : (l.on k).countP PendingOp.loops = 0 := by
        refine List.countP_eq_zero.2 fun p hp hloops => ?_
        obtain ⟨response, hwrite⟩ : ∃ response, p.op = .writeBroadcast response := hop _ (Starts.mem_on.1 hp)
        simp [PendingOp.loops, hwrite, Op.isRead, Op.isAnswer] at hloops
      rw [hedits.grows.count hthere, hnone]
      exact h k
    · by_cases hcomplete : ∃ sid i result found, e = .complete sid i result ∧ s.completing sid i result = some found
      · obtain ⟨sid, i, result, ⟨sess, p⟩, rfl, hfound⟩ := hcomplete
        obtain ⟨l, hl, hcount⟩ := @step_count env s sid sess hsane i p result hfound
        have hnew := hl.loops (k := k) (Server.completing_eq_some.1 hfound).2.2
        have hold := hcount PendingOp.loops k hthere
        have hk := h k
        have hidle : p.op.isNotice → result.isOk → s.count PendingOp.loops sid = 0 := by
          intro hnotice hok
          by_contra hne
          exact hdoubles ⟨_, hfound, hnotice, hok, Nat.pos_of_ne_zero hne⟩
        by_cases hnotice : p.op.isNotice ∧ result.isOk
        · have hzero := hidle hnotice.1 hnotice.2
          by_cases hsid : k = sid
          · subst hsid
            have hle : (l.on k).countP PendingOp.loops ≤ 1 := hnew.trans (by split_ifs <;> omega)
            omega
          · rw [if_neg fun hc => hsid hc.1] at hnew hold
            omega
        · simp only [hnotice, or_false] at hnew
          omega
      · refine (hstepped.count_le hsane ?_ ?_ hthere).trans (h k)
        · intro sid i result he
          cases hfound : s.completing sid i result with
          | none => rfl
          | some found => exact absurd ⟨sid, i, result, found, he, hfound⟩ hcomplete
        · intro he
          exact Bool.eq_false_iff.2 fun hrunning => hbroadcast ⟨he, hrunning⟩

theorem Begins.of_isAnswer {op : Op} {data : Option Json} (h : Begins env s sid sess op (.ok data) l) (hop : op.isAnswer) :
    l = [(sid, ⟨.readMessage, sess.isOpen⟩)] := by
  cases h with
  | answered => rfl
  | _ => cases hop

theorem Begins.of_isNotice {op : Op} {result : Session.Completion} (h : Begins env s sid sess op result l)
    (hop : op.isNotice) (hok : result.isOk) : l = [(sid, ⟨.readMessage, sess.isOpen⟩)] := by
  cases h with
  | answered => rfl
  | notified => rfl
  | failed => cases hok
  | _ => cases hop

namespace Server

theorem Looped.singleRead (h : s.Looped) : s.SingleRead := by
  intro k
  refine le_trans ?_ (h k)
  cases hx : s.get? k with
  | none => rw [count_of_none hx, count_of_none hx]
  | some x =>
    rw [count_of_get? hx, count_of_get? hx]
    exact List.countP_mono_left fun p _ hp => by rw [PendingOp.loops, hp, Bool.true_or]

/-- A session that reads and is about to read on can be made to read twice. -/
theorem exists_second_read {s : Server} (hsane : s.Sane) (hread : 0 < s.count (fun p => p.op.isRead) k)
    (hloops : 1 < s.count PendingOp.loops k) : ∃ es, ¬ Run.Throughout (step env) SingleRead s es := by
  by_cases hsecond : 1 < s.count (fun p => p.op.isRead) k
  · exact ⟨[], fun h => absurd (h.head k) (Nat.not_le.2 hsecond)⟩
  · cases hx : s.get? k with
    | none =>
      rw [count_of_none hx] at hread
      exact absurd hread (Nat.lt_irrefl 0)
    | some x =>
      rw [count_of_get? hx] at hread hloops hsecond
      -- one of the operations that will read on is a write
      obtain ⟨q, hq, hqloops, hqread⟩ : ∃ q ∈ x.pending, q.loops ∧ q.op.isRead = false := by
        by_contra hno
        have hle : x.pending.countP PendingOp.loops ≤ x.pending.countP fun p => p.op.isRead := by
          refine List.countP_mono_left fun q hq hqloops => ?_
          by_contra hqread
          exact hno ⟨q, hq, hqloops, Bool.eq_false_iff.2 hqread⟩
        omega
      obtain ⟨i, hi⟩ := List.getElem?_of_mem hq
      obtain ⟨op, live⟩ := q
      rw [PendingOp.loops, hqread, Bool.false_or, Bool.and_eq_true] at hqloops
      have hfound : s.completing k i (.ok none) = some (x, ⟨op, live⟩) :=
        completing_eq_some.2 ⟨hx, hi, hqloops.1⟩
      obtain ⟨l, hl, hcount⟩ := @step_count env s k x hsane i _ _ hfound
      have hreads := hcount (fun p => p.op.isRead) k (Option.isSome_of_mem hx)
      have hstarted : (l.on k).countP (fun p => p.op.isRead) = 1 := by
        rw [hl.of_isAnswer hqloops.2, Starts.countP_on_cons, if_pos ⟨rfl, rfl⟩]
        rfl
      refine ⟨[.complete k i (.ok none)], fun h => ?_⟩
      have hle := h.last k
      simp only [List.foldl_cons, List.foldl_nil] at hle
      rw [count_of_get? hx, hqread] at hreads
      simp only [Bool.false_eq_true, and_false, if_false] at hreads
      omega

/-- The invariant of the runs without such a message. -/
theorem looped_along {s : Server} (h : Init s) {es : List Event}
    (hes : Run.Along (step env) (fun s e => ¬ s.Doubles e) s es) :
    Run.Throughout (step env) (fun s => s.Sane ∧ s.Looped) s es := by
  refine Run.throughout_of_along (fun s e hs hdoubles => ⟨step_sane hs.1 e, hs.2.step hs.1 hdoubles⟩) ⟨h.sane, fun k => ?_⟩ hes
  rw [count_of_none (get?_of_empty h.heap k)]
  exact Nat.zero_le 1

/-- **One read at a time, as long as no message of a new room is completed on a
mirror that reads, or will**; from any such completion on, a run reads twice. -/
theorem singleRead_along {s : Server} (h : Init s) (es : List Event) :
    (Run.Along (step env) (fun s e => ¬ s.Doubles e) s es → Run.Throughout (step env) SingleRead s es) ∧
      ∀ e, Run.Along (step env) (fun s e => ¬ s.Doubles e) s es → (es.foldl (step env) s).Doubles e →
        ∃ es', ¬ Run.Throughout (step env) SingleRead s (es ++ e :: es') := by
  refine ⟨fun hes => (looped_along h hes).mono fun _ hs => hs.2.singleRead, fun e hes hdoubles => ?_⟩
  obtain ⟨hsane, -⟩ := (looped_along h hes).last
  generalize hr : es.foldl (step env) s = r at hsane hdoubles
  cases e with
  | complete sid i result =>
    obtain ⟨⟨sess, p⟩, hfound, hnotice, hok, hloops⟩ := hdoubles
    obtain ⟨l, hl, hcount⟩ := @step_count env r sid sess hsane i p result hfound
    have hthere : (r.get? sid).isSome := Option.isSome_of_mem (completing_eq_some.1 hfound).1
    have hstarted : ∀ f : PendingOp → Bool, (∀ live, f ⟨.readMessage, live⟩) → (l.on sid).countP f = 1 := by
      intro f hf
      rw [hl.of_isNotice hnotice hok, Starts.countP_on_cons, if_pos ⟨rfl, hf _⟩]
      rfl
    have hread := hcount (fun p => p.op.isRead) sid hthere
    have hloop := hcount PendingOp.loops sid hthere
    have hp : p.op.isRead = false ∧ p.loops = false := by
      obtain ⟨op, live⟩ := p
      cases op with
      | writeMirror => simp [PendingOp.loops, Op.isRead, Op.isAnswer]
      | _ => cases hnotice
    rw [hstarted _ fun _ => rfl, if_neg (fun hc => Bool.false_ne_true (hp.1.symm.trans hc.2))] at hread
    rw [hstarted _ fun _ => rfl, if_neg (fun hc => Bool.false_ne_true (hp.2.symm.trans hc.2))] at hloop
    obtain ⟨es', hes'⟩ := @exists_second_read env sid (step env r (.complete sid i result)) (step_sane hsane _)
      (by omega) (by omega)
    exact ⟨es', fun h => hes' (hr ▸ h.of_append.2)⟩
  | _ => exact hdoubles.elim

/-- A mirror waits for requests, and a client opens a room. -/
def announceRun : List Event :=
  hostsAt 0 "192.0.2.2" 40000 ++ connects 1 "192.0.2.1" ++ sends 1 (credentials "login" "rnqhscjf3333" "admin") ++
    sends 1 roomRequest

/-- The mirror has been told of the room. -/
def toldRun : List Event := announceRun ++ [.complete 0 1 (.ok none)]

theorem singleRead_announce : Run.Throughout (step .reliable) SingleRead init announceRun :=
  (singleRead_along init_init announceRun).1 (by decide +kernel)

/-- The mirror reads twice. -/
theorem not_singleRead_told : ¬ Run.Throughout (step .reliable) SingleRead init toldRun := by
  intro h
  have hreads : (toldRun.foldl (step .reliable) init).count (fun p => p.op.isRead) 0 = 2 := by decide +kernel
  have hle := h.last 0
  omega

end Server

end Reads

end Matching
end SocketCommunication
