/-
# In whose name the rooms are changed

The dispatcher and `handle_error` give the `room` controller the `user_id_` of the
session.  A mirror writes its port there, and a login whose second lookup fails
leaves −1: such a session acts for a user it never logged in as
(`Identity.masquerades`).

In a run in which no such session changes rooms, every change is made by a
session that has answered a login of that user (`roomCalls_throughout`).
-/

import SocketCommunication.Matching.Tokens

namespace SocketCommunication
namespace Matching

open Effect

/-- The request is for more than the list of rooms. -/
def Json.changesRooms (request : Json) : Bool := ! (request.value "action").eqString "listRooms"

theorem Controller.listRooms_keeps {env : Env} {request : Json} (h : request.changesRooms = false) :
    Keeps SameRooms (Controller.room env request) := by
  have haction : request.value "action" = .str "listRooms" := by
    rw [Json.changesRooms, Bool.not_eq_false'] at h
    exact Json.eq_of_eqString h
  have hroom : Controller.room env request = RoomService.listRooms env := Controller.room_of_action haction
  rw [hroom]
  exact RoomService.listRooms_keeps sameRooms_of_db

/-- The session acts for a user it has not logged in as: a mirror without a login,
or a session whose login stopped half way. -/
def Identity.masquerades (i : Identity) : Prop := (i.isMirror ∧ i.token = "") ∨ i.userId = -1

instance (i : Identity) : Decidable i.masquerades :=
  inferInstanceAs (Decidable ((i.isMirror ∧ i.token = "") ∨ i.userId = -1))

/-- Every change of rooms in the history was asked for by a session that had
answered a login of the user. -/
def Justified : List Act → Prop
  | [] => True
  | .handled sid .room request :: past =>
    (request.changesRooms → ∃ u, request.value "userId" = .int u ∧ LoginAnswered past sid u) ∧ Justified past
  | _ :: past => Justified past

instance decidableJustified : ∀ trace, Decidable (Justified trace)
  | [] => isTrue trivial
  | .handled sid .room request :: past =>
    have := decidableJustified past
    inferInstanceAs (Decidable ((request.changesRooms →
      ∃ u, request.value "userId" = .int u ∧ LoginAnswered past sid u) ∧ Justified past))
  | .handled _ .auth _ :: past | .handled _ .game _ :: past | .answered _ _ _ :: past => decidableJustified past

/-- What the history says of one of its calls. -/
theorem Justified.of_mem {sid : ℕ} {request : Json} (hchanges : request.changesRooms) :
    ∀ {trace : List Act}, Justified trace → .handled sid .room request ∈ trace →
      ∃ u, request.value "userId" = .int u ∧ LoginAnswered trace sid u
  | .handled sid' type request' :: past, h, hmem => by
    have hpast : Justified past := by
      cases type with
      | room => exact h.2
      | auth => exact h
      | game => exact h
    rcases List.mem_cons.1 hmem with heq | hmem
    · cases heq
      obtain ⟨u, hu, hans⟩ := h.1 hchanges
      exact ⟨u, hu, loginAnswered_handled.2 hans⟩
    · obtain ⟨u, hu, hans⟩ := hpast.of_mem hchanges hmem
      exact ⟨u, hu, loginAnswered_handled.2 hans⟩
  | .answered _ _ _ :: past, h, hmem => by
    obtain ⟨u, hu, hans⟩ := @Justified.of_mem sid request hchanges past h ((List.mem_cons.1 hmem).resolve_left nofun)
    exact ⟨u, hu, loginAnswered_answered.2 (.inr hans)⟩

namespace Server

/-- A change of rooms in the name of a user that the session is not logged in as. -/
def Masked : Deed → Prop
  | .call i .room request => request.changesRooms ∧ i.masquerades
  | _ => False

instance : (d : Deed) → Decidable (Masked d)
  | .call i .room request => inferInstanceAs (Decidable (request.changesRooms ∧ i.masquerades))
  | .call _ .auth _ => inferInstanceAs (Decidable False)
  | .call _ .game _ => inferInstanceAs (Decidable False)
  | .login .. => inferInstanceAs (Decidable False)

/-- No session that masquerades changes rooms. -/
def NoMasquerade (env : Env) (s : Server) (e : Event) : Prop := ∀ x ∈ s.deeds env e, ¬ Masked x.2

instance (env : Env) (s : Server) (e : Event) : Decidable (s.NoMasquerade env e) :=
  inferInstanceAs (Decidable (∀ x ∈ s.deeds env e, ¬ Masked x.2))

/-- The handler of the event runs on `sid`, if it runs on one session. -/
def RunsOn (e : Event) (sid : ℕ) : Prop := ∀ sid' i result, e = .complete sid' i result → sid = sid'

/-- The calls of an event by sessions that do not masquerade. -/
def openCalls (e : Event) : Licence where
  call sid i type request := RunsOn e sid ∧ (type = .room → request.changesRooms → ¬ i.masquerades)
  login _ _ _ _ := True

theorem deeds_runsOn {env : Env} {s : Server} {e : Event} {x : ℕ × Deed} (h : x ∈ s.deeds env e) : RunsOn e x.1 := by
  rintro sid' i result rfl
  simp only [deeds] at h
  split at h
  · split_ifs at h
    · obtain ⟨d, -, rfl⟩ := List.mem_map.1 h
      rfl
    · cases h
  · cases h

theorem NoMasquerade.licensed {env : Env} {s : Server} {e : Event} (h : s.NoMasquerade env e) :
    s.Licensed env (openCalls e) e := by
  rintro ⟨sid, d⟩ hx
  cases d with
  | call i type request =>
    refine ⟨deeds_runsOn hx, fun htype hchanges hi => ?_⟩
    subst htype
    exact h _ hx ⟨hchanges, hi⟩
  | login => exact fun _ _ => trivial

/-- A session is nobody, masquerades, or has answered a login. -/
def Accounted (s : Server) : Prop :=
  ∀ sid i, s.who sid = some i → i.userId = 0 ∨ i.masquerades ∨ LoginAnswered s.trace sid i.userId

/-- The history is justified too. -/
structure Honest (s : Server) : Prop where
  who : s.Accounted
  trace : Justified s.trace

section Sessions

variable {L : Licence} {s t : Server}

theorem Accounted.update {sid : ℕ} {x : Option Identity} (h : s.Accounted) (hwho : t.who = Function.update s.who sid x)
    (hx : ∀ i, x = some i → i.userId = 0 ∨ i.masquerades ∨ LoginAnswered t.trace sid i.userId)
    (hsub : s.trace ⊆ t.trace) : t.Accounted := by
  intro sid' i hi
  rw [hwho] at hi
  rcases update_eq_some hi with ⟨rfl, hxi⟩ | ⟨-, hold⟩
  · exact hx i hxi
  · exact (h sid' i hold).imp_right (Or.imp_right fun hans => hans.mono hsub)

theorem Accounted.step (h : s.Accounted) (hchange : WhoChange L s t) : t.Accounted := by
  cases hchange with
  | same hwho _ htrace => exact fun sid i hi => htrace ▸ h sid i (hwho ▸ hi)
  | called _ _ _ hwho _ htrace =>
    intro sid i hi
    rw [htrace, loginAnswered_handled]
    exact h sid i (hwho ▸ hi)
  | answered hnot hwho _ htrace =>
    intro sid i hi
    rw [htrace, loginAnswered_of_not hnot]
    exact h sid i (hwho ▸ hi)
  | turned hs hturn hwho _ htrace =>
    refine h.update hwho (fun k hk => ?_) (htrace ▸ List.Subset.refl _)
    obtain rfl := Option.some.inj hk
    cases hturn with
    | mirror huser => exact .inl huser
    | port hmirror _ htoken => exact .inr (.inl (.inl ⟨hmirror, htoken⟩))
    | token huser => exact .inl huser
  | halfLogin hs _ hwho _ htrace =>
    refine h.update hwho (fun k hk => ?_) (htrace ▸ List.Subset.refl _)
    obtain rfl := Option.some.inj hk
    exact .inr (.inl (.inr rfl))
  | login hs _ _ _ haction hsuccess hid hwho _ htrace =>
    refine h.update hwho (fun k hk => ?_) (htrace ▸ List.subset_cons_self _ _)
    obtain rfl := Option.some.inj hk
    rw [htrace, loginAnswered_answered]
    exact .inr (.inr (.inl ⟨rfl, haction, hsuccess, hid⟩))
  | accept _ _ hwho _ htrace =>
    refine h.update hwho (fun k hk => ?_) (htrace ▸ List.Subset.refl _)
    obtain rfl := Option.some.inj hk
    exact .inl rfl
  | destroy _ hwho _ htrace => exact h.update hwho (fun k hk => nomatch hk) (htrace ▸ List.Subset.refl _)
  | halt hwho =>
    intro sid i hi
    rw [hwho] at hi
    cases hi

end Sessions

variable {e : Event} {s t : Server}

theorem Honest.step (h : s.Honest) (hchange : WhoChange (openCalls e) s t) : t.Honest := by
  refine ⟨h.who.step hchange, ?_⟩
  cases hchange with
  | @called sid i type request hs hguard hL _ _ htrace =>
    rw [htrace]
    cases type with
    | auth => exact h.trace
    | game => exact h.trace
    | room =>
      refine ⟨fun hchanges => ⟨i.userId, hguard.2, ?_⟩, h.trace⟩
      exact ((h.who sid i hs).resolve_left hguard.1).resolve_left (hL.2 rfl hchanges)
  | same _ _ htrace | answered _ _ _ htrace | turned _ _ _ _ htrace | halfLogin _ _ _ _ htrace
  | login _ _ _ _ _ _ _ _ _ htrace | accept _ _ _ _ htrace | destroy _ _ _ htrace | halt _ _ htrace =>
    exact htrace ▸ h.trace

theorem Init.accounted (h : Init s) : s.Accounted := by
  intro sid i hi
  rw [who_of_empty h.heap] at hi
  cases hi

theorem Init.honest (h : Init s) : s.Honest := ⟨h.accounted, by rw [h.trace]; trivial⟩

/-! ### The rows -/

/-- A row that a change of rooms may have touched. -/
def Touched (L : Licence) (t : Server) (r : RoomUserRow) : Prop :=
  ∃ sid i request, L.call sid i .room request ∧ request.changesRooms ∧ request.value "userId" = .int r.userId ∧
    .handled sid .room request ∈ t.trace

variable {env : Env} {L : Licence}

/-- What a call does to the rows: it changes rooms, and only rows of its user. -/
theorem mem_roomUsers_called (hs : s.Sane) {sid : ℕ} {sess : Session} {type : ControllerType} {request : Json}
    (hget : s.get? sid = some sess) (hguard : Guarded sess.identity request type) (r : RoomUserRow) :
    (r ∈ (s.called env sid type request).world.db.1.roomUsers ↔ r ∈ s.world.db.1.roomUsers) ∨
      type = .room ∧ request.changesRooms ∧ r.userId = sess.userId := by
  have hsame : ∀ {w : World}, SameMembers s.world w → (r ∈ w.db.1.roomUsers ↔ r ∈ s.world.db.1.roomUsers) :=
    fun h => by rw [h]
  cases type with
  | auth => exact .inl (hsame ((Controller.auth_keeps request).after s.world).2)
  | game => exact .inl (hsame ((Controller.game_keeps request).after s.world))
  | room =>
    by_cases hchanges : request.changesRooms
    · by_cases hr : r.userId = sess.userId
      · exact .inr ⟨rfl, hchanges, hr⟩
      · have hu : (request.value "userId").getInt = .ok sess.userId := by
          rw [hguard.2]
          exact congrArg Except.ok (hs.session sid sess hget).int
        exact .inl ((Controller.room_keeps hu).after s.world r hr)
    · have hlist := @Controller.listRooms_keeps env request (Bool.eq_false_iff.2 hchanges)
      exact .inl (hsame (hlist.after s.world).2)

/-- **A row comes or goes only by a change of rooms for its user.** -/
theorem rows_of_change (h : Change env L s t) (hs : s.Sane) (r : RoomUserRow) :
    (r ∈ t.world.db.1.roomUsers ↔ r ∈ s.world.db.1.roomUsers) ∨ Touched L t r := by
  have hsame : ∀ {w : World}, SameMembers s.world w → (r ∈ w.db.1.roomUsers ↔ r ∈ s.world.db.1.roomUsers) :=
    fun h => by rw [h]
  cases h with
  | move h =>
    cases h with
    | @call sid sess type request hget hguard hL =>
      refine (mem_roomUsers_called hs hget hguard r).imp id ?_
      rintro ⟨rfl, hchanges, hr⟩
      exact ⟨sid, _, request, hL, hchanges, hr ▸ hguard.2, List.mem_cons_self⟩
    | registry | answered | login => exact .inl Iff.rfl
    | _ => exact .inl (hsame (congrArg (fun w : World => w.db.1.roomUsers) (modifySession_world ..)))
  | take => exact .inl (hsame (congrArg (fun w : World => w.db.1.roomUsers) (modifySession_world ..)))
  | @destroy sid sess =>
    obtain ⟨mirrors, sessions, connectedIps, heq, -, -⟩ := destroy_eq sid sess s
    rw [heq]
    exact .inl Iff.rfl
  | accept | tick | halt => exact .inl Iff.rfl

theorem Touched.mono {r : RoomUserRow} (h : Touched L s r) (hsub : s.trace ⊆ t.trace) : Touched L t r := by
  obtain ⟨sid, i, request, hL, hchanges, hu, hmem⟩ := h
  exact ⟨sid, i, request, hL, hchanges, hu, hsub hmem⟩

/-- Whoever loses or gains a row in an event has been logged in by a session that
makes the change, which is the session of the event, if it has one. -/
def RowsOwned (env : Env) (s : Server) (e : Event) : Prop :=
  ∀ r : RoomUserRow, (r ∈ (step env s e).world.db.1.roomUsers ↔ r ∈ s.world.db.1.roomUsers) ∨
    ∃ sid, LoginAnswered (step env s e).trace sid r.userId ∧ RunsOn e sid

theorem NoMasquerade.step (hs : s.Sane) (hh : s.Honest) (h : s.NoMasquerade env e) :
    (Server.step env s e).Sane ∧ (Server.step env s e).Honest ∧ s.RowsOwned env e := by
  have hI := step_inv (I := fun t : Server => t.Honest ∧ ∀ r : RoomUserRow,
      (r ∈ t.world.db.1.roomUsers ↔ r ∈ s.world.db.1.roomUsers) ∨ Touched (openCalls e) t r)
    (fun a b ha hIa hchange => ⟨hIa.1.step (hchange.whoChange ha), fun r => ?_⟩) hs ⟨hh, fun _ => .inl Iff.rfl⟩
    h.licensed
  · refine ⟨hI.1, hI.2.1, fun r => (hI.2.2 r).imp_right ?_⟩
    rintro ⟨sid, i, request, hL, hchanges, hu, hmem⟩
    obtain ⟨u, hu', hans⟩ := hI.2.1.trace.of_mem hchanges hmem
    obtain rfl := Json.int.inj (hu.symm.trans hu')
    exact ⟨sid, hans, hL.1⟩
  · rcases rows_of_change hchange ha r with hsame | hnew
    · rcases hIa.2 r with hold | htouched
      · exact .inl (hsame.trans hold)
      · exact .inr (htouched.mono (hchange.whoChange ha).trace_subset)
    · exact .inr hnew

/-- **Where no session that masquerades changes rooms, rooms are changed only for
users who have logged in, by their own sessions.** -/
theorem roomCalls_throughout (h : Init s) (es : List Event) (hes : Run.Along (step env) (NoMasquerade env) s es) :
    Run.Throughout (step env) (fun t => Justified t.trace) s es ∧ Run.Along (step env) (RowsOwned env) s es := by
  have hinv : ∀ {s es}, s.Sane ∧ s.Honest → Run.Along (step env) (NoMasquerade env) s es →
      Run.Throughout (step env) (fun t => Justified t.trace) s es ∧ Run.Along (step env) (RowsOwned env) s es := by
    intro s es
    induction es generalizing s with
    | nil => exact fun hs _ => ⟨hs.2.trace, trivial⟩
    | cons e es ih =>
      rintro hs ⟨he, hes⟩
      obtain ⟨hsane, hhonest, hrows⟩ := he.step hs.1 hs.2
      obtain ⟨htrace, hall⟩ := ih ⟨hsane, hhonest⟩ hes
      exact ⟨⟨hs.2.trace, htrace⟩, hrows, hall⟩
  exact hinv ⟨h.sane, h.honest⟩ hes

/-- A client logs in and opens a room. -/
def hostRun : List Event :=
  connects 0 "192.0.2.1" ++ sends 0 (credentials "login" "rnqhscjf3333" "admin") ++
    sends 0 (.obj [("action", .str "createRoom"), ("roomName", .str "room"), ("maxPlayers", .int 4)])

theorem roomCalls_hostRun :
    Run.Throughout (step .reliable) (fun t => Justified t.trace) init hostRun ∧
      Run.Along (step .reliable) (RowsOwned .reliable) init hostRun :=
  roomCalls_throughout init_init _ (by decide +kernel)

/-- A mirror names the number of the user as its port, and disconnects. -/
def mirrorRun : List Event :=
  hostRun ++ .accept (some "192.0.2.2") 0 ::
    sends 1 (.obj [("connectionType", .str "mirror"), ("port", .int 1)]) ++ [.complete 1 0 .error]

/-- The mirror takes the user out of the room. -/
theorem not_roomCalls_mirrorRun :
    ¬ (Run.Throughout (step .reliable) (fun t => Justified t.trace) init mirrorRun ∧
      Run.Along (step .reliable) (RowsOwned .reliable) init mirrorRun) :=
  mt And.left (Run.not_throughout_of_last (by decide +kernel))

end Server

end Matching
end SocketCommunication
