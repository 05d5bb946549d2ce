/-
# Serial and overlapping room transactions

The transactions that have ended are equivalent to serial calls, in the order in
which they ended, as long as no commit changes what another open transaction has
found (`serialisable_along`): no join takes the last seat that another join has
counted, no leave closes the room that a join found open, or frees a room after a host
has looked for one.

A lock on the row of a room guards that row (`Inv.exclusive`, `Txn.Good.frame`), and
nothing else that the transaction has read: the count of the members is older than
the lock (`not_serialisable_twoSeats`).
-/

import SocketCommunication.Lib.Slots
import SocketCommunication.Matching.Statements

namespace SocketCommunication
namespace Matching

open RoomRepository

/-! ### Overtaking commits -/

namespace Pool

/-- The event commits a call that changes what another open transaction has found. -/
def Overtakes (p : Pool) : Event → Prop
  | .run i _ => ∃ x ∈ p.txns[i]?, x.committing ∧ ∃ y ∈ p.txns.eraseIdx i, ∃ f ∈ y.findings, x.call.Changes p.tables f
  | .abort _ => False

instance (p : Pool) : ∀ e, Decidable (p.Overtakes e)
  | .run i _ => inferInstanceAs (Decidable (∃ x ∈ p.txns[i]?, x.committing ∧
      ∃ y ∈ p.txns.eraseIdx i, ∃ f ∈ y.findings, x.call.Changes p.tables f))
  | .abort _ => inferInstanceAs (Decidable False)

/-- The transactions that have ended. -/
def ended (p : Pool) : List Ended := p.txns.filterMap Txn.ended?

/-- The transactions that have ended are, in some order, calls that run one after the
other from the tables `t`, with the answers that were given; the committed tables are
what those calls leave. -/
def Serialisable (t : Tables) (p : Pool) : Prop :=
  ∃ order : List Ended, order.Perm p.ended ∧ Run.Path Serial t order p.tables

end Pool

/-! ### Runs -/

/-- The rows of `room_users` have rooms, after a call that runs alone too. -/
theorem Serial.fkey {t t' : Tables} {e : Ended} (hfkey : ∀ q ∈ t.roomUsers, q.roomId ∈ t.rooms.map (·.roomId))
    (h : Serial t e t') : ∀ q ∈ t'.roomUsers, q.roomId ∈ t'.rooms.map (·.roomId) := by
  have hinsert : ∀ {roomId userId now}, roomId ∈ t.rooms.map (·.roomId) →
      ∀ q ∈ (t.insertRoomUser roomId userId now).roomUsers, q.roomId ∈ t.rooms.map (·.roomId) := by
    intro roomId userId now hroom q hq
    rcases List.mem_append.1 hq with hq | hq
    · exact hfkey q hq
    · rwa [List.mem_singleton.1 hq]
  cases h with
  | opens hrow hcan =>
    rw [pkey_openRoom]
    exact hinsert (List.mem_map_of_mem hrow)
  | joins hjoin =>
    obtain ⟨r, hr, hid, -⟩ := hjoin.room
    exact hinsert (hid ▸ List.mem_map_of_mem hr)
  | leaves hin =>
    rw [pkey_leave]
    exact fun q hq => hfkey q (mem_roomUsers_leave.1 hq).1
  | noRoom | refused | absent | aborted => exact hfkey

namespace Pool

/-- **The invariant of the pool**: every stage is right about the tables, and a row
has one lock. -/
structure Inv (p : Pool) : Prop where
  pkey : (p.tables.rooms.map (·.roomId)).Nodup
  fkey : ∀ q ∈ p.tables.roomUsers, q.roomId ∈ p.tables.rooms.map (·.roomId)
  good : ∀ (i : ℕ) (x : Txn), p.txns[i]? = some x → x.Good p.tables
  current : ∀ (i : ℕ) (x : Txn), p.txns[i]? = some x → x.Current p.tables
  exclusive : ∀ (i j : ℕ) (x y : Txn) (roomId : ℤ), p.txns[i]? = some x → p.txns[j]? = some y →
    x.lock = some roomId → y.lock = some roomId → i = j

/-- The transactions have begun, and done nothing yet. -/
structure Start (p : Pool) : Prop where
  valid : p.tables.Valid
  begun : ∀ x ∈ p.txns, (∃ hostId roomName maxPlayers began, x = .createRoomWithHost hostId roomName maxPlayers began .isJoined) ∨
    (∃ roomId userId began, x = .addPlayer roomId userId began .roomCheck) ∨
    ∃ userId began, x = .removePlayer userId began .roomResult

section Runs

variable {p : Pool} {i : ℕ} {x y : Txn} {t t₀ : Tables}

theorem lock_ne_of_not_locked {roomId : ℤ} (h : ¬ p.locked i roomId) {j : ℕ} (hj : j ≠ i) (hy : p.txns[j]? = some y) :
    y.lock ≠ some roomId :=
  fun hlock => h ⟨y, List.mem_eraseIdx_iff_getElem?.2 ⟨j, hj, hy⟩, hlock⟩

/-- One transaction goes on and changes what it has locked, and nothing that the others have found. -/
theorem Inv.set (h : p.Inv) (hx : p.txns[i]? = some x) (hgood : y.Good t) (hcurrent : y.Current t)
    (hframe : Tables.Frame x.lock p.tables t) (hfkey : ∀ q ∈ t.roomUsers, q.roomId ∈ t.rooms.map (·.roomId))
    (hlock : ∀ roomId, y.lock = some roomId → x.lock = some roomId ∨ ¬ p.locked i roomId)
    (hsame : ∀ z ∈ p.txns.eraseIdx i, ∀ f ∈ z.findings, f.Same p.tables t) : Inv ⟨t, p.txns.set i y⟩ := by
  have hslot : ∀ {j z}, (p.txns.set i y)[j]? = some z → (j = i ∧ z = y) ∨ (j ≠ i ∧ p.txns[j]? = some z) :=
    (Slots.getElem?_set_iff (List.getElem?_eq_some_iff.1 hx).1).1
  -- the lock of the transaction and that of another one
  have hapart : ∀ {j z roomId}, j ≠ i → p.txns[j]? = some z → y.lock = some roomId → z.lock ≠ some roomId := by
    intro j z roomId hj hz hy hzlock
    rcases hlock roomId hy with hxlock | hfree
    · exact hj (h.exclusive j i z x roomId hz hx hzlock hxlock)
    · exact lock_ne_of_not_locked hfree hj hz hzlock
  have hothers : ∀ {j z}, j ≠ i → p.txns[j]? = some z → z.Good t := by
    refine fun {j z} hj hz => (h.good j z hz).frame hframe fun roomId hzlock hxlock => hj ?_
    exact h.exclusive j i z x roomId hz hx hzlock hxlock
  refine ⟨hframe.pkey.symm ▸ h.pkey, hfkey, fun j z hz => ?_, fun j z hz => ?_, fun j k z z' roomId hz hz' hl hl' => ?_⟩
  · rcases hslot hz with ⟨-, rfl⟩ | ⟨hj, hold⟩
    · exact hgood
    · exact hothers hj hold
  · rcases hslot hz with ⟨-, rfl⟩ | ⟨hj, hold⟩
    · exact hcurrent
    · exact (h.current j z hold).of_same (hothers hj hold) (hsame z (List.mem_eraseIdx_iff_getElem?.2 ⟨j, hj, hold⟩))
  · rcases hslot hz with ⟨rfl, rfl⟩ | ⟨hj, hold⟩ <;> rcases hslot hz' with ⟨rfl, rfl⟩ | ⟨hk, hold'⟩
    · rfl
    · exact absurd hl' (hapart hk hold' hl)
    · exact absurd hl (hapart hj hold hl')
    · exact h.exclusive j k z z' roomId hold hold' hl hl'

/-- The transactions that have ended, once one more has. -/
theorem Serialisable.ends (h : p.Serialisable t₀) (hx : p.txns[i]? = some x) (hrun : x.ended? = none) {e : Ended}
    (hy : y.ended? = some e) (hserial : Serial p.tables e t) : Serialisable t₀ ⟨t, p.txns.set i y⟩ := by
  obtain ⟨order, hperm, hpath⟩ := h
  exact ⟨order ++ [e], (hperm.append_right [e]).trans (Slots.filterMap_set_perm hx hrun hy), hpath.snoc hserial⟩

theorem Serialisable.goes (h : p.Serialisable t₀) (hx : p.txns[i]? = some x) (hy : y.ended? = x.ended?) :
    Serialisable t₀ ⟨p.tables, p.txns.set i y⟩ := by
  obtain ⟨order, hperm, hpath⟩ := h
  refine ⟨order, ?_, hpath⟩
  rwa [ended, Slots.filterMap_set_of_eq hx hy]

/-- **One event.** -/
theorem step_serialisable (h : p.Inv) (hs : p.Serialisable t₀) {e : Event} (hnot : ¬ p.Overtakes e) :
    (p.step e).Inv ∧ (p.step e).Serialisable t₀ := by
  have hrefl : ∀ {i z f}, z ∈ p.txns.eraseIdx i → f ∈ z.findings → f.Same p.tables p.tables :=
    fun _ _ => Finding.same_refl _
  cases e with
  | run i pick =>
    rw [step]
    cases hx : p.txns[i]? with
    | none => exact ⟨h, hs⟩
    | some x =>
      have hmoves := x.moves h.pkey h.fkey i pick (h.good i x hx) (h.current i x hx)
      dsimp only
      cases hmove : x.move p i pick with
      | wait => exact ⟨h, hs⟩
      | next y =>
        rw [hmove] at hmoves
        have hended : y.ended? = x.ended? := hmoves.running.2.trans hmoves.running.1.symm
        exact ⟨h.set hx hmoves.good hmoves.current .refl h.fkey hmoves.lock fun _ hz _ => hrefl hz, hs.goes hx hended⟩
      | ends y t =>
        rw [hmove] at hmoves
        obtain ⟨e, hrun, hended, hcall, hserial⟩ := hmoves.ended
        have hlock : ∀ roomId, y.lock = some roomId → x.lock = some roomId ∨ ¬ p.locked i roomId := by
          intro roomId hy
          rw [hmoves.lock] at hy
          cases hy
        -- a commit leaves what the others have found, and nothing else changes the tables
        have hsame : ∀ z ∈ p.txns.eraseIdx i, ∀ f ∈ z.findings, f.Same p.tables t := by
          intro z hz f hf
          rcases hmoves.commits with rfl | hcommits
          · exact hrefl hz hf
          · exact hserial.same h.pkey fun hchanges => hnot ⟨x, hx, hcommits, z, hz, f, hf, hcall ▸ hchanges⟩
        exact ⟨h.set hx hmoves.good hmoves.current hmoves.frame (hserial.fkey h.fkey) hlock hsame,
          hs.ends hx hrun hended hserial⟩
  | abort i =>
    rw [step]
    cases hx : p.txns[i]? with
    | none => exact ⟨h, hs⟩
    | some x =>
      dsimp only
      rcases x.abort_cases with hsame | ⟨hrun, call, began, hended⟩
      · rw [hsame]
        exact ⟨h.set hx (h.good i x hx) (h.current i x hx) .refl h.fkey (fun roomId hlock => .inl hlock)
          fun _ hz _ => hrefl hz, hs.goes hx rfl⟩
      · obtain ⟨hgood, hcurrent, hlock⟩ := Txn.of_ended hended p.tables
        refine ⟨h.set hx hgood hcurrent .refl h.fkey (fun roomId hy => ?_) fun _ hz _ => hrefl hz,
          hs.ends hx hrun hended .aborted⟩
        rw [hlock] at hy
        cases hy

theorem Start.inv (h : p.Start) : p.Inv ∧ p.Serialisable p.tables := by
  have hstart : ∀ {x}, x ∈ p.txns → x.Good p.tables ∧ x.Current p.tables ∧ x.lock = none ∧ x.ended? = none := by
    intro x hx
    rcases h.begun x hx with ⟨_, _, _, _, rfl⟩ | ⟨_, _, _, rfl⟩ | ⟨_, _, rfl⟩ <;> exact ⟨trivial, trivial, rfl, rfl⟩
  refine ⟨⟨h.valid.rooms_pkey, h.valid.roomUsers_roomId_fkey, fun i x hx => (hstart (List.mem_of_getElem? hx)).1,
    fun i x hx => (hstart (List.mem_of_getElem? hx)).2.1, ?_⟩, [], ?_, rfl⟩
  · intro i j x y roomId hx _ hlock _
    rw [(hstart (List.mem_of_getElem? hx)).2.2.1] at hlock
    cases hlock
  · rw [ended, List.filterMap_eq_nil_iff.2 fun x hx => (hstart hx).2.2.2]

/-- **Transactions that overlap are serialisable as long as no commit changes what
another open transaction has found.** -/
theorem serialisable_along (h : p.Start) (es : List Event) (hes : Run.Along step (fun p e => ¬ p.Overtakes e) p es) :
    Run.Throughout step (Serialisable p.tables) p es :=
  (Run.throughout_of_along (I := fun q : Pool => q.Inv ∧ q.Serialisable p.tables)
    (fun _ _ hq hnot => step_serialisable hq.1 hq.2 hnot) h.inv hes).mono fun _ hq => hq.2

end Runs

/-- Two users join a room that its host has opened. -/
def twoJoins (maxPlayers : ℤ) : Pool where
  tables := openRoom .init 1 1 "one" maxPlayers 0
  txns := [.addPlayer 1 2 1 .roomCheck, .addPlayer 1 3 1 .roomCheck]

/-- The second transaction counts the members before the first commits, and has the
row of the room after that. -/
def countedEarly : List Event :=
  List.replicate 5 (.run 0 0) ++ List.replicate 3 (.run 1 0) ++ .run 0 0 :: List.replicate 3 (.run 1 0)

theorem start_twoJoins {maxPlayers : ℤ} (h : (twoJoins maxPlayers).tables.Valid) : Start (twoJoins maxPlayers) := by
  refine ⟨h, fun x hx => .inr (.inl ?_)⟩
  rcases List.mem_pair.1 hx with rfl | rfl
  · exact ⟨_, _, _, rfl⟩
  · exact ⟨_, _, _, rfl⟩

/-- There are seats for both. -/
theorem serialisable_threeSeats : Run.Throughout step (Serialisable (twoJoins 3).tables) (twoJoins 3) countedEarly :=
  serialisable_along (start_twoJoins (by decide +kernel)) countedEarly (by decide +kernel)

/-- A join that succeeds finds a seat, and takes it. -/
theorem serial_join {t t' : Tables} {roomId userId : ℤ} {began : ℕ}
    (h : Serial t ⟨.addPlayer roomId userId, began, .verdict true, false⟩ t') :
    (∃ row ∈ t.rooms, row.roomId = roomId ∧ t.players roomId < row.maxPlayers) ∧ t'.rooms = t.rooms ∧
      t'.players roomId = t.players roomId + 1 := by
  cases h with
  | joins hjoin =>
    obtain ⟨row, hrow, hid, -, hseat⟩ := hjoin.room
    refine ⟨⟨row, hrow, hid, hseat⟩, rfl, ?_⟩
    rw [players_insertRoomUser, if_pos rfl]

/-- Two joins that both succeed find two seats, in either order. -/
theorem seats_of_two_joins {t t' : Tables} {roomId u v : ℤ} {began : ℕ} {order : List Ended}
    (hperm : order.Perm [⟨.addPlayer roomId u, began, .verdict true, false⟩,
      ⟨.addPlayer roomId v, began, .verdict true, false⟩]) (hpath : Run.Path Serial t order t') :
    ∃ row ∈ t.rooms, row.roomId = roomId ∧ t.players roomId + 1 < row.maxPlayers := by
  have hjoin : ∀ e ∈ order, ∃ w, e = ⟨.addPlayer roomId w, began, .verdict true, false⟩ := by
    intro e he
    rcases List.mem_pair.1 (hperm.mem_iff.1 he) with rfl | rfl
    · exact ⟨u, rfl⟩
    · exact ⟨v, rfl⟩
  obtain ⟨a, b, rfl⟩ := List.length_eq_two.1 hperm.length_eq
  obtain ⟨t₁, ha, t₂, hb, -⟩ := hpath
  obtain ⟨_, rfl⟩ := hjoin a List.mem_cons_self
  obtain ⟨_, rfl⟩ := hjoin b (List.mem_cons_of_mem _ List.mem_cons_self)
  obtain ⟨-, hrooms, hplayers⟩ := serial_join ha
  obtain ⟨⟨row, hrow, hid, hseat⟩, -⟩ := serial_join hb
  refine ⟨row, hrooms ▸ hrow, hid, ?_⟩
  rw [hplayers] at hseat
  exact_mod_cast hseat

/-- There is one seat, and both get it. -/
theorem not_serialisable_twoSeats :
    ¬ Run.Throughout step (Serialisable (twoJoins 2).tables) (twoJoins 2) countedEarly := by
  intro h
  obtain ⟨order, hperm, hpath⟩ := h.last
  have hended : (countedEarly.foldl step (twoJoins 2)).ended =
      [⟨.addPlayer 1 2, 1, .verdict true, false⟩, ⟨.addPlayer 1 3, 1, .verdict true, false⟩] := rfl
  rw [hended] at hperm
  have hfull : ∀ row ∈ (twoJoins 2).tables.rooms, row.roomId = 1 →
      row.maxPlayers ≤ (twoJoins 2).tables.players 1 + 1 := by decide +kernel
  obtain ⟨row, hrow, hid, hseat⟩ := seats_of_two_joins hperm hpath
  exact absurd hseat (not_lt.2 (hfull row hrow hid))

end Pool


end Matching
end SocketCommunication
