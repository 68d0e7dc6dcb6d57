import Mathlib.Data.Fintype.Basic
import TriviaServer.Interaction.Discipline
import TriviaServer.Verification.Departure
import TriviaServer.Verification.Reading
import TriviaServer.Verification.Replays
import TriviaServer.Verification.Rooms

/-! # Starting a game while users join and leave the room

The players of a game are copied from the room before the room becomes active. They are the
users of the room at that moment if nobody joins or leaves in between. -/

namespace TriviaServer

open Interaction
open Program (Only)

variable {P : Platform} {d : Bool} {room : String} {admin : LoggedUser} {s s' : Managers}

/-! ## The calls around one room -/

inductive RoomCall where
  | startGame
  | joinRoom (user : LoggedUser) (request : RequestInfo)
  | leaveRoom (roomName : String) (user : LoggedUser)
  deriving DecidableEq

/-- The admin of a room starts its game; others join any room, or leave this one. -/
def roomCalls (P : Platform) (room : String) (admin : LoggedUser) :
    Service operations Unit RoomCall RequestResult Unit :=
  Service.pool fun
    | .startGame => RoomAdminRequestHandler.startGame room admin
    | .joinRoom user request => MenuRequestHandler.joinRoom P user request
    | .leaveRoom roomName user => RoomMemberRequestHandler.leaveRoom room roomName user

/-- Where a call is: the admin's before and behind the count of the users, behind the copy of
them, and behind the new game; another one with what it last read of the room's flag. -/
inductive StartStanding where
  | fresh
  | starting
  | counted
  | copied (users : List LoggedUser)
  | created (users : List LoggedUser)
  | visiting (isActive : Bool)
  | ended
  deriving DecidableEq

namespace StartStanding

def observe (st : StartStanding) (o : Observation operations Unit RoomCall RequestResult) :
    StartStanding :=
  match st, o with
  | fresh, .received _ .startGame => starting
  | fresh, .received _ _ => visiting false
  | starting, .called ⟨.room (.getAllUsers _), _⟩ => counted
  | counted, .called ⟨.room (.getAllUsers _), users⟩ => copied users
  | copied users, .called ⟨.game (.pushGame ..), _⟩ => created users
  | created _, .called ⟨.room (.setIsActive ..), _⟩ => ended
  | visiting _, .called ⟨.room (.getRoomState _), roomState⟩ =>
      visiting ((roomState : Option RoomState).any fun roomState => roomState.roomData.isActive)
  | _, .finished .. => ended
  | st, _ => st

theorem observe_finished (st : StartStanding) (call : RoomCall) (r : RequestResult)
    (next : Option Unit) : st.observe (.finished () call r next) = ended := by
  cases st <;> rfl

/-- The call is the admin's, and the room is not yet active. -/
def Starts : StartStanding → Prop
  | starting => True
  | counted => True
  | copied _ => True
  | created _ => True
  | _ => False

theorem not_starts_visiting (isActive : Bool) (e : Event operations) :
    ¬ ((visiting isActive).observe (.called e)).Starts := by
  obtain ⟨o, r⟩ := e
  cases o with
  | room o => cases o <;> exact id
  | _ => exact id

/-- The players are copied, and the room is not yet active. -/
def InWindow : StartStanding → Prop
  | copied _ => True
  | created _ => True
  | _ => False

instance : DecidablePred InWindow
  | copied _ | created _ => .isTrue trivial
  | fresh | starting | counted | visiting _ | ended => .isFalse id

end StartStanding

/-- What a visitor does that has not found the room active. -/
def Op.Visits (room : String) : Op → Prop
  | .room (.findRoom _) => True
  | .room (.addUser ..) => True
  | .room (.getMetadata _) => True
  | .room (.removeUser id _) => id = room
  | .external (.throw _) => True
  | _ => False

/-- The admin creates the game with the users that it has copied; a visitor that has not found
the room active uses rooms only. -/
def startDiscipline (room : String) :
    Discipline operations Unit RoomCall RequestResult StartStanding where
  initial := .fresh
  observe := StartStanding.observe
  allowed st o :=
    match st with
    | .starting => o = .room (.getAllUsers room)
    | .counted => o.Reads (fun _ => True) ∨ o = .room (.getMetadata room) ∨
        o = .room (.getAllUsers room)
    | .copied users => o = .room (.getMetadata room) ∨
        ∃ questions time, o = .game (.pushGame questions users room time)
    | .created _ => o = .room (.setIsActive room true)
    | .visiting false => o.Visits room ∨ o = .room (.getRoomState room)
    | .visiting true => o.Leaving room ∨ ∃ user, o = .room (.removeUser room user)
    | .fresh => False
    | .ended => False
  assumed st e :=
    match st, e with
    | .copied _, ⟨.room (.getMetadata _), metadata⟩ => (metadata : RoomData).uuid = room
    | _, _ => True
  mayFinish _ _ _ _ := True

theorem startDiscipline_observe (room : String) :
    (startDiscipline room).observe = StartStanding.observe := rfl

theorem joinRoom_visits (user : LoggedUser) (request : RequestInfo) :
    (MenuRequestHandler.joinRoom P user request).Only (Op.Visits room) := by
  refine Only.bind ?_ fun details => ?_
  · cases JsonDeserializer.deserializeJoinRoomRequest (P.parse request.buffer) with
    | error e => exact ⟨trivial, fun r => nomatch r⟩
    | ok details => trivial
  · cases details with
    | error e => trivial
    | ok details =>
        refine Only.bind ⟨trivial, fun found => ?_⟩ fun found => ?_
        · cases found <;> trivial
        · cases found with
          | error e => trivial
          | ok id =>
              refine ⟨trivial, fun refused => ?_⟩
              cases refused with
              | some e => trivial
              | none => exact ⟨trivial, fun metadata => trivial⟩

namespace StartStanding

theorem neutralAt_of_visits {o : Op} (ho : o.Visits room) :
    (startDiscipline room).NeutralAt (visiting false) o := by
  refine ⟨.inl ho, fun r => ?_⟩
  cases o with
  | room o =>
      cases o with
      | getRoomState => exact ho.elim
      | _ => rfl
  | _ => rfl

theorem neutralAt_of_reads {o : Op} (ho : o.Reads fun _ => True) :
    (startDiscipline room).NeutralAt counted o := by
  refine ⟨.inl ho, fun r => ?_⟩
  cases o with
  | room o => exact ho.elim
  | _ => rfl

theorem neutralAt_of_leaving {o : Op} (ho : o.Leaving room) :
    (startDiscipline room).NeutralAt (visiting true) o := by
  refine ⟨.inl ho, fun r => ?_⟩
  cases o with
  | room o => exact ho.elim
  | _ => rfl

/-- Only the admin's call makes the room active, with the game created. -/
theorem created_of_flag {st : StartStanding}
    (h : (startDiscipline room).allowed st (.room (.setIsActive room true))) :
    ∃ users, st = created users := by
  cases st with
  | created users => exact ⟨users, rfl⟩
  | fresh | ended => exact h.elim
  | starting => exact nomatch (show Op.room _ = Op.room _ from h)
  | counted =>
      rcases h with h | h | h
      · exact h.elim
      · exact nomatch h
      · exact nomatch h
  | copied users =>
      rcases h with h | ⟨_, _, h⟩
      · exact nomatch h
      · exact nomatch h
  | visiting isActive =>
      cases isActive with
      | true =>
          rcases h with h | ⟨_, h⟩
          · exact h.elim
          · exact nomatch h
      | false =>
          rcases h with h | h
          · exact h.elim
          · exact nomatch h

end StartStanding

section Obeying

variable {Q : List (Event operations) → RequestResult → StartStanding → Prop}

theorem wp_startGame (h : ∀ t r st, Q t r st) :
    wp (startDiscipline room).machine (fun _ => False)
      (RoomAdminRequestHandler.startGame room admin) Q .starting := by
  unfold RoomAdminRequestHandler.startGame GameManager.createGame
  simp only [wp_bind]
  refine Discipline.wp_call (D := startDiscipline room) rfl fun users _ => ?_
  show wp _ _ _ _ StartStanding.counted
  split_ifs
  · exact (wp_pure ..).mpr (h _ _ _)
  · simp only [wp_bind]
    refine Discipline.wp_call (D := startDiscipline room) (.inr (.inl rfl)) fun metadata _ => ?_
    show wp _ _ _ _ StartStanding.counted
    refine Discipline.wp_neutralAt (D := startDiscipline room)
      ((SqliteDatabase.getQuestions_reads _).mono fun _ =>
        StartStanding.neutralAt_of_reads) fun _ questions => ?_
    cases questions with
    | error e =>
        simp only [wp_pure]
        exact h _ _ _
    | ok questions =>
        simp only [wp_bind]
        refine Discipline.wp_call (D := startDiscipline room) (.inr (.inl rfl)) fun metadata _ => ?_
        show wp _ _ _ _ StartStanding.counted
        split_ifs
        · simp only [wp_pure]
          exact h _ _ _
        · simp only [wp_bind]
          refine Discipline.wp_neutralAt (D := startDiscipline room)
            ((GameManager.toQuestions_reads _).mono fun _ =>
              StartStanding.neutralAt_of_reads) fun _ questions => ?_
          refine Discipline.wp_call (D := startDiscipline room) (.inr (.inr rfl)) fun users _ => ?_
          show wp _ _ _ _ (StartStanding.copied users)
          refine Discipline.wp_call (D := startDiscipline room) (.inl rfl) fun metadata huuid => ?_
          show wp _ _ _ _ (StartStanding.copied users)
          refine Discipline.wp_call (D := startDiscipline room)
            (.inr ⟨questions, _, by rw [show (metadata : RoomData).uuid = room from huuid]⟩)
            fun _ _ => ?_
          simp only [wp_pure, wp_bind]
          exact Discipline.wp_call (D := startDiscipline room) rfl fun _ _ => h _ _ _

theorem wp_joinRoom (h : ∀ t r st, Q t r st) {user : LoggedUser} {request : RequestInfo} :
    wp (startDiscipline room).machine (fun _ => False)
      (MenuRequestHandler.joinRoom P user request) Q (.visiting false) :=
  Discipline.wp_neutralAt ((joinRoom_visits user request).mono fun _ =>
    StartStanding.neutralAt_of_visits) fun t r => h t r _

theorem wp_leaveRoom (h : ∀ t r st, Q t r st) {roomName : String} {user : LoggedUser} :
    wp (startDiscipline room).machine (fun _ => False)
      (RoomMemberRequestHandler.leaveRoom room roomName user) Q (.visiting false) := by
  unfold RoomMemberRequestHandler.leaveRoom RoomManager.getRoomState
  simp only [wp_bind]
  refine Discipline.wp_call (D := startDiscipline room) (.inr rfl) fun roomState _ => ?_
  match roomState with
  | none => exact (wp_pure ..).mpr (h _ _ _)
  | some roomState =>
      have hread : (startDiscipline room).observe (.visiting false)
          (.called ⟨.room (.getRoomState room), some roomState⟩) =
          .visiting roomState.roomData.isActive := rfl
      rw [hread]
      cases hactive : roomState.roomData.isActive with
      | true =>
          unfold GameManager.removePlayerFromGameById GameManager.getGameById
          simp only [hactive, if_true, bind_assoc, pure_bind, wp_bind]
          refine Discipline.wp_call (D := startDiscipline room) (.inl trivial) fun _ _ => ?_
          refine Discipline.wp_neutralAt (D := startDiscipline room)
            ((GameManager.leaving_removePlayerFromGame user).mono fun _ =>
              StartStanding.neutralAt_of_leaving) fun _ _ => ?_
          refine Discipline.wp_call (D := startDiscipline room) (.inr ⟨user, rfl⟩) fun _ _ => ?_
          exact (wp_pure ..).mpr (h _ _ _)
      | false =>
          simp only [hactive, Bool.false_eq_true, if_false, wp_bind]
          refine Discipline.wp_call (D := startDiscipline room) (.inl rfl) fun _ _ => ?_
          exact (wp_pure ..).mpr (h _ _ _)

end Obeying

theorem roomCalls_obey (P : Platform) (room : String) (admin : LoggedUser) :
    (startDiscipline room).ObeyedBy (roomCalls P room admin) (fun _ st => st = .fresh)
      fun st => st = .ended where
  start := rfl
  serve := by
    rintro _ call _ - rfl
    cases call with
    | startGame =>
        exact wp_startGame fun _ _ _ => ⟨trivial, fun _ => StartStanding.observe_finished ..⟩
    | joinRoom user request =>
        exact wp_joinRoom fun _ _ _ => ⟨trivial, fun _ => StartStanding.observe_finished ..⟩
    | leaveRoom roomName user =>
        exact wp_leaveRoom fun _ _ _ => ⟨trivial, fun _ => StartStanding.observe_finished ..⟩

/-! ## The room before it becomes active -/

/-- The operation makes the users of the room others than they are. -/
def Op.Changes (room : String) (s : Managers) : Op → Bool
  | .room (.addUser id user) => id = room && (s.rooms[room]?).any fun r => (r.addUser user).isOk
  | .room (.removeUser id user) => id = room && (s.rooms[room]?).any fun r => user ∈ r.users
  | _ => false

/-- A visitor leaves the games alone, and of the room it changes the users at most. -/
theorem Op.Visits.step {o : Op} {a : o.Answer} {r : Room} (ho : o.Visits room)
    (hr : s.rooms[room]? = some r) (hs : (machine d).Step o s a s') :
    s'.games = s.games ∧ ∃ r', s'.rooms[room]? = some r' ∧ r'.metadata = r.metadata ∧
      (o.Changes room s = false → r'.users = r.users) := by
  have hsame : s' = s → s'.games = s.games ∧ ∃ r', s'.rooms[room]? = some r' ∧
      r'.metadata = r.metadata ∧ (o.Changes room s = false → r'.users = r.users) := by
    rintro rfl
    exact ⟨rfl, r, hr, rfl, fun _ => rfl⟩
  cases o with
  | login | database | game => exact ho.elim
  | external o => exact hsame (ExternalOp.step_eq hs)
  | room o =>
      obtain ⟨choice, -, hx⟩ := hs
      cases o with
      | findRoom id =>
          cases hx
          exact hsame rfl
      | getMetadata id => exact hsame (readRoom_eq hx)
      | addUser id user =>
          simp only [Op.exec, RoomOp.exec] at hx
          split at hx
          · cases hx
          · next r₀ hr₀ =>
              split at hx
              · cases hx
                exact hsame rfl
              · next r' hadd =>
                  cases hx
                  refine ⟨rfl, ?_⟩
                  simp only [getElem?_insert_room]
                  by_cases hid : room = id
                  · subst hid
                    obtain rfl : r = r₀ := Option.some.inj (hr.symm.trans hr₀)
                    refine ⟨r', if_pos rfl, (Room.addUser_ok hadd).2.2 ▸ rfl, fun hno => ?_⟩
                    simp [Op.Changes, hr, hadd, Except.isOk, Except.toBool] at hno
                  · exact ⟨r, by rw [if_neg hid, hr], rfl, fun _ => rfl⟩
      | removeUser id user =>
          obtain rfl : id = room := ho
          simp only [Op.exec, RoomOp.exec, RoomOp.writeRoom, hr] at hx
          cases hx
          refine ⟨rfl, r.removeUser user, by rw [getElem?_insert_room, if_pos rfl], rfl,
            fun hno => ?_⟩
          have hnot : user ∉ r.users := by simpa [Op.Changes, hr] using hno
          refine List.filter_eq_self.mpr fun p hp => ?_
          exact decide_eq_true fun heq => hnot (heq ▸ hp)
      | _ => exact ho.elim

/-- The room is not active, and its users are the ones copied, if any are; the game, once
created, has these players. -/
structure Waiting (room : String) (s : Managers) (st : StartStanding) : Prop where
  found : ∃ r, s.rooms[room]? = some r ∧ r.metadata.uuid = room ∧ r.metadata.isActive = false ∧
    ∀ users, (st = .copied users ∨ st = .created users) → r.users = users
  none_created : (∀ users, st ≠ .created users) → s.game? room = none
  created : ∀ users, st = .created users →
    ∃ gm, s.game? room = some gm ∧ gm.onlinePlayers = users

namespace Waiting

variable {st st' : StartStanding}

theorem same (h : Waiting room s st) (hrooms : s'.rooms = s.rooms) (hgames : s'.games = s.games) :
    Waiting room s' st where
  found := by rw [hrooms]; exact h.found
  none_created := by rw [Managers.game?, hgames]; exact h.none_created
  created := by rw [Managers.game?, hgames]; exact h.created

/-- Nothing is copied or created yet, and nothing will be by the step. -/
theorem outside (h : Waiting room s st) (hst : ¬ st.InWindow) (hst' : ¬ st'.InWindow) :
    Waiting room s st' where
  found := by
    obtain ⟨r, hr, huuid, hactive, -⟩ := h.found
    refine ⟨r, hr, huuid, hactive, ?_⟩
    rintro users (rfl | rfl) <;> exact absurd trivial hst'
  none_created _ := h.none_created fun users heq => hst (heq ▸ trivial)
  created users heq := absurd (heq ▸ trivial) hst'

theorem visit (h : Waiting room s st) {o : Op} {a : o.Answer} (ho : o.Visits room)
    (hs : (machine d).Step o s a s') (hquiet : o.Changes room s = true → ¬ st.InWindow) :
    Waiting room s' st := by
  obtain ⟨r, hr, huuid, hactive, husers⟩ := h.found
  obtain ⟨hgames, r', hr', hmetadata, hkept⟩ := ho.step hr hs
  refine ⟨⟨r', hr', hmetadata ▸ huuid, hmetadata ▸ hactive, fun users heq => ?_⟩, ?_, ?_⟩
  · have hwindow : st.InWindow := by
      rcases heq with rfl | rfl <;> trivial
    have hno : o.Changes room s = false :=
      Bool.eq_false_iff.mpr fun hyes => hquiet hyes hwindow
    rw [hkept hno]
    exact husers users heq
  · rw [Managers.game?, hgames]
    exact h.none_created
  · rw [Managers.game?, hgames]
    exact h.created

/-- The admin copies the users. -/
theorem copy (h : Waiting room s .counted) {r : Room} (hr : s.rooms[room]? = some r) :
    Waiting room s (.copied r.users) where
  found := by
    obtain ⟨r', hr', huuid, hactive, -⟩ := h.found
    obtain rfl : r = r' := Option.some.inj (hr.symm.trans hr')
    refine ⟨r, hr, huuid, hactive, ?_⟩
    rintro users (heq | heq) <;> cases heq
    rfl
  none_created _ := h.none_created fun _ => nofun
  created _ := nofun

/-- The admin creates the game with the copied users. -/
theorem create {users : List LoggedUser} (h : Waiting room s (.copied users))
    {questions : List Question} {time : UInt32} {now : ℕ} :
    Waiting room { s with games := s.games ++ [.new questions users room time now], clock := now }
      (.created users) where
  found := by
    obtain ⟨r, hr, huuid, hactive, husers⟩ := h.found
    refine ⟨r, hr, huuid, hactive, ?_⟩
    rintro users' (heq | heq) <;> cases heq
    exact husers users (.inl rfl)
  none_created hno := absurd rfl (hno users)
  created users' heq := by
    cases heq
    have hnone : s.games.find? (·.uuid = room) = none := h.none_created fun _ => nofun
    refine ⟨.new questions users room time now, ?_, rfl⟩
    rw [Managers.game?, List.find?_append, hnone]
    simp [Game.new]

end Waiting

/-! ## Runs -/

section Runs

variable {ι : Type} {a : ι}

abbrev StartConfig (ι : Type) : Type := Config operations Managers ι Unit RoomCall RequestResult

section Conditions

variable [DecidableEq ι]

/-- The admin's connection starts the game, once; the others join and leave. -/
def OneStart (a : ι) (_ : StartConfig ι) : Service.Label ι RoomCall Unit → Prop
  | .receive c call => c = a ↔ call = .startGame
  | _ => True

/-- Nobody joins or leaves the room between the copy of its users and the flag. -/
def QuietWindow (room : String) (a : ι) (cfg : StartConfig ι) : Service.Label ι RoomCall Unit → Prop
  | .perform c => (cfg.clients c).nextOp.any (Op.Changes room cfg.shared) = true →
      ¬ ((startDiscipline room).standing a cfg.trace).InWindow
  | _ => True

instance {cfg : StartConfig ι} :
    DecidablePred fun l : Service.Label ι RoomCall Unit => OneStart a cfg l
  | .receive .. => inferInstanceAs (Decidable (_ ↔ _))
  | .connect _ | .perform _ | .finish .. => .isTrue trivial

instance {cfg : StartConfig ι} :
    DecidablePred fun l : Service.Label ι RoomCall Unit => QuietWindow room a cfg l
  | .perform _ => inferInstanceAs (Decidable (_ → _))
  | .connect _ | .receive .. | .finish .. => .isTrue trivial

end Conditions

/-- The online players of the room's game are the users that the room lists. -/
def StartsWithRoom (room : String) (s : Managers) : Prop :=
  ∃ gm r, s.game? room = some gm ∧ s.rooms[room]? = some r ∧
    ∀ p, p ∈ gm.onlinePlayers ↔ p ∈ r.users

/-- Only the admin's call starts the game; until it is over the room waits, and no visitor has
found it active. -/
structure Gathering (room : String) (a : ι) (s : Managers) (standing : ι → StartStanding) :
    Prop where
  starts : ∀ c, (standing c).Starts → c = a
  admin : ∀ isActive, standing a ≠ .visiting isActive
  waiting : standing a = .ended ∨
    (Waiting room s (standing a) ∧ ∀ c, standing c ≠ .visiting true)

namespace Gathering

variable {standing : ι → StartStanding} {c : ι} {st : StartStanding}

theorem start {r : Room} (hr : s.rooms[room]? = some r) (huuid : r.metadata.uuid = room)
    (hactive : r.metadata.isActive = false) (hg : s.game? room = none) :
    Gathering room a s fun _ => .fresh where
  starts _ h := h.elim
  admin _ := nofun
  waiting := .inr ⟨⟨⟨r, hr, huuid, hactive, by rintro _ (h | h) <;> cases h⟩, fun _ => hg,
    fun _ => nofun⟩, fun _ => nofun⟩

variable [DecidableEq ι]

/-- The admin's call goes on. -/
theorem admin_step (h : Gathering room a s standing) (hst : ∀ isActive, st ≠ .visiting isActive)
    (hwaiting : st = .ended ∨ standing a ≠ .ended ∧ Waiting room s' st) :
    Gathering room a s' (Function.update standing a st) where
  starts c hc := by
    by_cases hca : c = a
    · exact hca
    · rw [Function.update_of_ne hca] at hc
      exact h.starts c hc
  admin := by rwa [Function.update_self]
  waiting := by
    rw [Function.update_self]
    refine hwaiting.imp_right fun ⟨hended, hwaiting⟩ => ⟨hwaiting, fun c => ?_⟩
    by_cases hca : c = a
    · subst hca
      rw [Function.update_self]
      exact hst true
    · rw [Function.update_of_ne hca]
      exact (h.waiting.resolve_left hended).2 c

/-- Another call goes on. -/
theorem other_step (h : Gathering room a s standing) (hc : c ≠ a) (hst : ¬ st.Starts)
    (hwaiting : standing a ≠ .ended → Waiting room s' (standing a) ∧ st ≠ .visiting true) :
    Gathering room a s' (Function.update standing c st) where
  starts c' hc' := by
    by_cases hcc : c' = c
    · subst hcc
      rw [Function.update_self] at hc'
      exact absurd hc' hst
    · rw [Function.update_of_ne hcc] at hc'
      exact h.starts c' hc'
  admin := by
    rw [Function.update_of_ne hc.symm]
    exact h.admin
  waiting := by
    rw [Function.update_of_ne hc.symm]
    refine Classical.or_iff_not_imp_left.mpr fun hended => ?_
    obtain ⟨hwaiting, hactive⟩ := hwaiting hended
    refine ⟨hwaiting, fun c' => ?_⟩
    by_cases hcc : c' = c
    · subst hcc
      rwa [Function.update_self]
    · rw [Function.update_of_ne hcc]
      exact (h.waiting.resolve_left hended).2 c'

theorem called (h : Gathering room a s standing) {o : Op} {r : o.Answer}
    (hallowed : (startDiscipline room).allowed (standing c) o) (hs : (machine d).Step o s r s')
    (hquiet : o.Changes room s = true → ¬ (standing a).InWindow) :
    (startDiscipline room).assumed (standing c) ⟨o, r⟩ ∧
      Gathering room a s' (Function.update standing c ((standing c).observe (.called ⟨o, r⟩))) := by
  -- in the standings of the admin's call, the client is the admin's and the room waits
  have hadmin : (standing c).Starts →
      c = a ∧ standing a ≠ .ended ∧ Waiting room s (standing a) := by
    intro hstarts
    obtain rfl := h.starts c hstarts
    have hended : standing c ≠ .ended := fun heq => by simp [heq, StartStanding.Starts] at hstarts
    exact ⟨rfl, hended, (h.waiting.resolve_left hended).1⟩
  cases hst : standing c with
  | fresh | ended =>
      rw [hst] at hallowed
      exact hallowed.elim
  | starting =>
      obtain ⟨rfl, hended, hwaiting⟩ := hadmin (by rw [hst]; trivial)
      rw [hst] at hallowed hwaiting
      cases (show o = .room (.getAllUsers room) from hallowed)
      obtain ⟨choice, -, hx⟩ := hs
      obtain rfl := readRoom_eq hx
      exact ⟨trivial, h.admin_step (fun _ heq => by cases heq)
        (.inr ⟨hended, hwaiting.outside id id⟩)⟩
  | counted =>
      obtain ⟨rfl, hended, hwaiting⟩ := hadmin (by rw [hst]; trivial)
      rw [hst] at hallowed hwaiting
      rcases hallowed with hreads | rfl | rfl
      · obtain ⟨db, rfl, -⟩ := hreads.quiet.step hs
        have hkept : StartStanding.counted.observe (.called ⟨o, r⟩) = .counted :=
          (StartStanding.neutralAt_of_reads hreads : (startDiscipline room).NeutralAt _ o).2 r
        rw [hkept]
        exact ⟨trivial, h.admin_step (fun _ heq => by cases heq)
          (.inr ⟨hended, hwaiting.same rfl rfl⟩)⟩
      · obtain ⟨choice, -, hx⟩ := hs
        obtain rfl := readRoom_eq hx
        exact ⟨trivial, h.admin_step (fun _ heq => by cases heq) (.inr ⟨hended, hwaiting⟩)⟩
      · obtain ⟨choice, -, hx⟩ := hs
        obtain rfl := readRoom_eq hx
        obtain ⟨r', hr', -⟩ := hwaiting.found
        simp only [Op.exec, RoomOp.exec, RoomOp.readRoom, hr', Except.ok.injEq, Prod.mk.injEq,
          and_true] at hx
        refine ⟨trivial, h.admin_step (fun _ heq => by cases heq) (.inr ⟨hended, ?_⟩)⟩
        rw [← hx]
        exact hwaiting.copy hr'
  | copied users =>
      obtain ⟨rfl, hended, hwaiting⟩ := hadmin (by rw [hst]; trivial)
      rw [hst] at hallowed hwaiting
      rcases hallowed with rfl | ⟨questions, time, rfl⟩
      · obtain ⟨choice, -, hx⟩ := hs
        obtain rfl := readRoom_eq hx
        obtain ⟨r', hr', huuid, -⟩ := hwaiting.found
        simp only [Op.exec, RoomOp.exec, RoomOp.readRoom, hr', Except.ok.injEq, Prod.mk.injEq,
          and_true] at hx
        exact ⟨hx ▸ huuid, h.admin_step (fun _ heq => by cases heq) (.inr ⟨hended, hwaiting⟩)⟩
      · obtain ⟨choice, -, hx⟩ := hs
        cases hx
        exact ⟨trivial, h.admin_step (fun _ heq => by cases heq) (.inr ⟨hended, hwaiting.create⟩)⟩
  | created users =>
      obtain ⟨rfl, hended, hwaiting⟩ := hadmin (by rw [hst]; trivial)
      rw [hst] at hallowed hwaiting
      cases (show o = .room (.setIsActive room true) from hallowed)
      exact ⟨trivial, h.admin_step (fun _ heq => by cases heq) (.inl rfl)⟩
  | visiting isActive =>
      have hc : c ≠ a := fun heq => h.admin isActive (heq ▸ hst)
      rw [hst] at hallowed
      refine ⟨trivial, ?_⟩
      cases isActive with
      | true =>
          -- the room has become active, so the admin's call is over
          have hended : standing a = .ended :=
            h.waiting.resolve_right fun hwaiting => hwaiting.2 c hst
          exact h.other_step hc (StartStanding.not_starts_visiting true _) fun hnot =>
            absurd hended hnot
      | false =>
          rcases hallowed with hvisits | rfl
          · have hkept :
                (StartStanding.visiting false).observe (.called ⟨o, r⟩) = .visiting false :=
              (StartStanding.neutralAt_of_visits hvisits).2 r
            rw [hkept]
            refine h.other_step hc id fun hended => ⟨?_, fun heq => by cases heq⟩
            exact (h.waiting.resolve_left hended).1.visit hvisits hs hquiet
          · obtain ⟨choice, -, hx⟩ := hs
            cases hx
            refine h.other_step hc id fun hended => ?_
            obtain ⟨hwaiting, -⟩ := h.waiting.resolve_left hended
            obtain ⟨r', hr', -, hactive, -⟩ := hwaiting.found
            refine ⟨hwaiting, ?_⟩
            simp [StartStanding.observe, hr', hactive]

end Gathering

variable [DecidableEq ι]

theorem gathering_of_run {r : Room} (hr : s.rooms[room]? = some r) (huuid : r.metadata.uuid = room)
    (hactive : r.metadata.isActive = false) (hg : s.game? room = none) {cfg : StartConfig ι}
    (hrun : Service.Reachable (roomCalls P room admin) (machine d)
      (fun cfg l => OneStart a cfg l ∧ QuietWindow room a cfg l) (Service.start s) cfg) :
    Gathering room a cfg.shared (fun c => (startDiscipline room).standing c cfg.trace) ∧
      ∀ c, (startDiscipline room).Keeps (roomCalls P room admin) (fun _ st => st = .fresh)
        (fun st => st = .ended) cfg c := by
  refine (roomCalls_obey P room admin).reachable (I := fun s trace =>
    Gathering room a s fun c => (startDiscipline room).standing c trace) ?_ ?_ ?_ hrun
    ⟨.start hr huuid hactive hg, fun _ => rfl⟩
  · rintro cfg c _ call h _ ⟨hone, -⟩ hfresh
    rw [Discipline.standing_snoc, startDiscipline_observe,
      show (startDiscipline room).standing c cfg.trace = _ from hfresh]
    by_cases hca : c = a
    · subst hca
      obtain rfl := hone.mp rfl
      have hended : (startDiscipline room).standing c cfg.trace ≠ .ended := by
        rw [show (startDiscipline room).standing c cfg.trace = _ from hfresh]
        exact nofun
      have hwaiting := (h.waiting.resolve_left hended).1
      rw [show (startDiscipline room).standing c cfg.trace = _ from hfresh] at hwaiting
      exact h.admin_step nofun (.inr ⟨hended, hwaiting.outside id id⟩)
    · have hvisits : StartStanding.fresh.observe (.received () call) = .visiting false := by
        cases call with
        | startGame => exact absurd (hone.mpr rfl) hca
        | _ => rfl
      rw [show StartStanding.fresh.observe _ = _ from hvisits]
      exact h.other_step hca id fun hended => ⟨(h.waiting.resolve_left hended).1, nofun⟩
  · rintro cfg c _ _ o next r s' h hc ⟨-, hK⟩ hallowed hs
    rw [Discipline.standing_snoc, startDiscipline_observe]
    refine h.called hallowed hs fun hchanges => hK ?_
    rw [hc]
    exact hchanges
  · rintro s trace c _ call result o h -
    rw [Discipline.standing_snoc, startDiscipline_observe, StartStanding.observe_finished]
    by_cases hca : c = a
    · subst hca
      exact h.admin_step nofun (.inl rfl)
    · exact h.other_step hca id fun hended => ⟨(h.waiting.resolve_left hended).1, nofun⟩

/-- If nobody joins or leaves the room between the copy of its users and the flag, then right
behind the flag the online players of the game are the users of the room. -/
theorem startsWithRoom_of_quietWindow {r : Room} (hr : s.rooms[room]? = some r)
    (huuid : r.metadata.uuid = room) (hactive : r.metadata.isActive = false)
    (hg : s.game? room = none) {cfg cfg' : StartConfig ι}
    (hrun : Service.Reachable (roomCalls P room admin) (machine d)
      (fun cfg l => OneStart a cfg l ∧ QuietWindow room a cfg l) (Service.start s) cfg) {c : ι}
    (hnext : (cfg.clients c).nextOp = some (.room (.setIsActive room true)))
    (hstep : Service.Step (roomCalls P room admin) (machine d) cfg (.perform c) cfg') :
    StartsWithRoom room cfg'.shared := by
  obtain ⟨h, hkeeps⟩ := gathering_of_run hr huuid hactive hg hrun
  cases hstep with
  | @perform _ _ _ o next answer s' hc hs =>
      rw [hc] at hnext
      cases hnext
      obtain ⟨users, hst⟩ := StartStanding.created_of_flag ((hkeeps c).allowed hc)
      obtain rfl : c = a := h.starts c (by rw [hst]; trivial)
      have hended : (startDiscipline room).standing c cfg.trace ≠ .ended := by
        rw [hst]
        exact nofun
      obtain ⟨hwaiting, -⟩ := h.waiting.resolve_left hended
      obtain ⟨gm, hgm, honline⟩ := hwaiting.created users hst
      obtain ⟨r', hr', -, -, husers⟩ := hwaiting.found
      obtain ⟨choice, -, hx⟩ := hs
      simp only [Op.exec, RoomOp.exec, RoomOp.writeRoom, hr'] at hx
      cases hx
      refine ⟨gm, r'.setIsActive true, hgm, ?_, fun p => ?_⟩
      · rw [getElem?_insert_room, if_pos rfl]
      · rw [honline, ← husers users (.inr hst)]
        rfl

end Runs

/-! ## A joiner -/

/-- `ann` and `bob` are in a waiting room for four. -/
def waitingRoom : Managers where
  database := sampleDatabase
  rooms := (∅ : Std.TreeMap String Room).insert "room"
    ⟨⟨"room", "quiz", 4, 2, 5, false⟩, [⟨"ann"⟩, ⟨"bob"⟩]⟩

/-- `ann` starts the game, and `eve` joins the room, in this order of their steps. -/
def replayStart (plays : List (Service.Play (Fin 2) RoomCall Unit Choice))
    (check : StartConfig (Fin 2) → Service.Label (Fin 2) RoomCall Unit → Bool) :
    Option (StartConfig (Fin 2)) :=
  Service.replayIf (roomCalls lobbyPlatform "room" ⟨"ann"⟩) interpreter (Op.admits true)
    (fun play _ => play.label) check
    ([.connect 0, .receive 0 .startGame, .connect 1,
      .receive 1 (.joinRoom ⟨"eve"⟩ (lobbyRequest .joinRoomRequest 5))] ++ plays)
    (Service.start waitingRoom)

/-- The next section of the call makes the room active. -/
def flagsNext (client : Client operations Unit RoomCall RequestResult) : Bool :=
  match client.nextOp with
  | some (.room (.setIsActive id isActive)) => id = "room" && isActive
  | _ => false

theorem nextOp_of_flagsNext {client : Client operations Unit RoomCall RequestResult}
    (h : flagsNext client = true) : client.nextOp = some (.room (.setIsActive "room" true)) := by
  unfold flagsNext at h
  split at h
  · next id isActive heq =>
      obtain ⟨rfl, rfl⟩ : id = "room" ∧ isActive = true := by simpa using h
      exact heq
  · cases h

/-- `eve` has joined before the users are copied. -/
theorem startsWithRoom_joined : ∃ cfg' : StartConfig (Fin 2),
    StartsWithRoom "room" cfg'.shared ∧
    (cfg'.shared.rooms["room"]?.map Room.users) = some [⟨"ann"⟩, ⟨"bob"⟩, ⟨"eve"⟩] := by
  have hrun : ((replayStart (List.replicate 5 (.perform 0 usual) ++
      List.replicate 2 (.perform 1 usual) ++ List.replicate 5 (.perform 0 usual))
      fun cfg l => decide (OneStart 0 cfg l ∧ QuietWindow "room" 0 cfg l)).any fun cfg =>
      flagsNext (cfg.clients 0) &&
      (Service.replayOne (roomCalls lobbyPlatform "room" ⟨"ann"⟩) interpreter (Op.admits true)
        (.perform 0 usual) cfg).any fun cfg' =>
        (cfg'.shared.rooms["room"]?.map Room.users) =
          some [⟨"ann"⟩, ⟨"bob"⟩, ⟨"eve"⟩]) = true := by
    decide +kernel
  obtain ⟨cfg, hcfg, hcheck⟩ := (Option.any_eq_true _ _).mp hrun
  rw [Bool.and_eq_true] at hcheck
  obtain ⟨hnext, hstep⟩ := hcheck
  obtain ⟨cfg', hcfg', husers⟩ := (Option.any_eq_true _ _).mp hstep
  have hreachable := Service.reachable_of_replayIf
    (K := fun cfg l => OneStart 0 cfg l ∧ QuietWindow "room" 0 cfg l)
    (fun _ _ h => of_decide_eq_true h) hcfg
  have hwaiting : waitingRoom.rooms["room"]? =
      some ⟨⟨"room", "quiz", 4, 2, 5, false⟩, [⟨"ann"⟩, ⟨"bob"⟩]⟩ := by decide +kernel
  exact ⟨cfg', startsWithRoom_of_quietWindow hwaiting rfl rfl rfl hreachable
    (nextOp_of_flagsNext hnext) (Service.step_of_replayOne rfl hcfg'), of_decide_eq_true husers⟩

/-- `eve` joins behind the copy: she is in the active room and not in its game. -/
theorem not_startsWithRoom_between : ∃ cfg cfg' : StartConfig (Fin 2),
    Service.Reachable (roomCalls lobbyPlatform "room" ⟨"ann"⟩) (machine true) (OneStart 0)
      (Service.start waitingRoom) cfg ∧
    (cfg.clients 0).nextOp = some (.room (.setIsActive "room" true)) ∧
    Service.Step (roomCalls lobbyPlatform "room" ⟨"ann"⟩) (machine true) cfg (.perform 0) cfg' ∧
    ¬ StartsWithRoom "room" cfg'.shared := by
  have hrun : ((replayStart (List.replicate 8 (.perform 0 usual) ++
      List.replicate 2 (.perform 1 usual) ++ List.replicate 2 (.perform 0 usual))
      fun cfg l => decide (OneStart 0 cfg l)).any fun cfg =>
      flagsNext (cfg.clients 0) &&
      (Service.replayOne (roomCalls lobbyPlatform "room" ⟨"ann"⟩) interpreter (Op.admits true)
        (.perform 0 usual) cfg).any fun cfg' =>
        ((cfg'.shared.rooms["room"]?).all fun r => ⟨"eve"⟩ ∈ r.users) &&
        (cfg'.shared.game? "room").all fun gm => ⟨"eve"⟩ ∉ gm.onlinePlayers) = true := by
    decide +kernel
  obtain ⟨cfg, hcfg, hcheck⟩ := (Option.any_eq_true _ _).mp hrun
  rw [Bool.and_eq_true] at hcheck
  obtain ⟨hnext, hstep⟩ := hcheck
  obtain ⟨cfg', hcfg', heve⟩ := (Option.any_eq_true _ _).mp hstep
  rw [Bool.and_eq_true] at heve
  refine ⟨cfg, cfg', Service.reachable_of_replayIf (fun _ _ h => of_decide_eq_true h) hcfg,
    nextOp_of_flagsNext hnext, Service.step_of_replayOne rfl hcfg', ?_⟩
  rintro ⟨gm, r, hgm, hr, hsame⟩
  rw [hgm, hr] at heve
  have hlisted : (⟨"eve"⟩ : LoggedUser) ∈ r.users := of_decide_eq_true heve.1
  have habsent : (⟨"eve"⟩ : LoggedUser) ∉ gm.onlinePlayers := of_decide_eq_true heve.2
  exact habsent ((hsame _).mpr hlisted)

end TriviaServer
