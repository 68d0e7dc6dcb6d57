import TriviaServer.Model.Mutexes
import TriviaServer.Verification.Confinement
import TriviaServer.Verification.Connections

/-! # The mutexes are taken in an order

`_gamesMutex` and `_roomsMutex` come first and the others behind them, one at most. Without its
locks the server is the one of the other modules, so whatever holds there holds with the locks.
Nobody waits forever unless a mutex keeps those who share it waiting behind those who want it
alone: then a member who leaves the room of a running game may be one to wait forever. -/

namespace TriviaServer

open Interaction
open Program (Only)

variable {P : Platform} {d : Bool}

/-! ## Without the locks -/

@[simp] theorem erase_sharedLock {α : Type} (mutex : Mutex) (scope : LockingAction α) :
    (sharedLock mutex scope).erase = scope.erase := Program.erase_within ..

namespace Locking

end Locking

/-! ## The order -/

def Mutex.rank : Mutex → ℕ
  | .gamesMutex => 0
  | .roomsMutex => 0
  | _ => 1

/-- The connection of a member of a room. -/
def Session.IsMember (session : Session) : Prop :=
  ∃ roomUuid roomName user, session.handler = .roomMember roomUuid roomName user

/-- The mutex that guards some data. The flag of a room has none, `_playersMutex` is not taken
by all that write the players' data, and what never changes needs none. -/
@[simp] def SharedData.guard : SharedData → Option Mutex
  | .loggedUsers => some .loggedUsersMutex
  | .database => some .dbMutex
  | .rooms => some .roomsMutex
  | .users id => some (.usersMutex id)
  | .games => some .gamesMutex
  | .onlinePlayers id => some (.onlinePlayersMutex id)
  | .isActive _ | .players _ _ | .room _ | .game _ => none

/-- An operation needs the mutexes of the data that it touches, but for what it destroys. -/
def Op.Needs (o : Op) (mutex : Mutex) : LockMode → Prop
  | .exclusive => ∃ data, data.guard = some mutex ∧ o.Stores data ∧ ¬ o.Destroys data
  | .shared => ∃ data, data.guard = some mutex ∧ o.Loads data

/-- Only a member, who leaves the room of a running game, shares `_gamesMutex` once more. -/
def mutexRules : LockRules operations Mutex Session where
  rank := Mutex.rank
  bound := 2
  rank_lt mutex := by cases mutex <;> simp [Mutex.rank]
  reenters session mutex := mutex = .gamesMutex ∧ session.IsMember
  needs := Op.Needs

/-- Code that keeps to the rules and leaves as many mutexes taken as before. -/
abbrev InOrder {α : Type} (session : Session) (held : List (Mutex × LockMode))
    (p : LockingAction α) : Prop :=
  KeepsRules mutexRules session held held p

variable {session : Session} {held : List (Mutex × LockMode)} {mode : LockMode} {α : Type}

theorem inOrder_lockGuard {mutex : Mutex} {scope : LockingAction α}
    (hrank : ∀ e ∈ held, e.1.rank < mutex.rank)
    (h : InOrder session ((mutex, .exclusive) :: held) scope) :
    InOrder session held (lockGuard mutex scope) :=
  KeepsRules.within (.inl hrank) h

theorem inOrder_sharedLock {mutex : Mutex} {scope : LockingAction α}
    (hrank : ∀ e ∈ held, e.1.rank < mutex.rank)
    (h : InOrder session ((mutex, .shared) :: held) scope) :
    InOrder session held (sharedLock mutex scope) :=
  KeepsRules.within (.inl hrank) h

/-- The mutexes of all that an operation touches are held. -/
theorem inOrder_act {o : Op}
    (hstores : ∀ data, o.Stores data → ¬ o.Destroys data → ∀ mutex, data.guard = some mutex →
      (mutex, .exclusive) ∈ held)
    (hloads : ∀ data, o.Loads data → ∀ mutex, data.guard = some mutex →
      (mutex, .shared) ∈ held ∨ (mutex, .exclusive) ∈ held) :
    InOrder session held (Program.act (S := operations) o) := by
  apply keepsRules_act (S := operations)
  intro mutex mode hneeds
  cases mode with
  | shared =>
      obtain ⟨data, hguard, hdata⟩ := hneeds
      exact hloads data hdata mutex hguard
  | exclusive =>
      obtain ⟨data, hguard, hdata, hkept⟩ := hneeds
      exact .inr (hstores data hdata hkept mutex hguard)

/-- Nothing is held at the first mutex. -/
theorem rank_nil (mutex : Mutex) :
    ∀ e ∈ ([] : List (Mutex × LockMode)), e.1.rank < mutex.rank := by
  simp

/-- One mutex of the first rank is held at one of the second. -/
theorem rank_single {mutex mutex' : Mutex} (h : mutex.rank < mutex'.rank) :
    ∀ e ∈ [(mutex, mode)], e.1.rank < mutex'.rank := by
  simpa using h

/-- A room is destroyed under the mutex of the map alone. -/
theorem inOrder_act_erase {o : RoomOp} {id : String}
    (ho : o = .deleteRoom id ∨ o = .eraseRoom id) :
    InOrder session [(.roomsMutex, .exclusive)] (Program.act (S := operations) (.room o)) := by
  apply inOrder_act
  · intro data hstores hkept
    obtain rfl : data = .rooms := by
      rcases ho with rfl | rfl
      · exact hstores.resolve_right hkept
      · exact hstores.resolve_right hkept
    simp
  · rcases ho with rfl | rfl <;> simp

/-- An operation that is no part of another takes its mutexes in order. -/
theorem Op.Alone.inOrder {o : Op} (ho : o.Alone) : InOrder session [] o.inLocks := by
  cases o with
  | login o => exact inOrder_lockGuard (rank_nil _) (inOrder_act (by simp) (by simp))
  | database o => exact inOrder_lockGuard (rank_nil _) (inOrder_act (by simp) (by simp))
  | external o => exact inOrder_act (by simp) (by simp)
  | room o =>
      cases o with
      | generateRoomUUID =>
          apply inOrder_sharedLock (rank_nil _)
          exact inOrder_act (by simp) (by simp)
      | emplaceRoom =>
          apply inOrder_lockGuard (rank_nil _)
          exact inOrder_act (by simp) (by simp)
      | deleteRoom =>
          apply inOrder_lockGuard (rank_nil _)
          exact inOrder_act_erase (.inl rfl)
      | getRooms =>
          apply inOrder_sharedLock (rank_nil _)
          apply inOrder_act (by simp)
          rintro _ (rfl | ⟨room, rfl | rfl⟩) <;> simp
      | findRoom =>
          apply inOrder_sharedLock (rank_nil _)
          exact inOrder_act (by simp) (by simp)
      | getRoomState =>
          apply inOrder_sharedLock (rank_nil _)
          exact inOrder_sharedLock (rank_single Nat.one_pos) (inOrder_act (by simp) (by simp))
      | removeUserAt => exact ho.elim
      | getAllUsersAt => exact ho.elim
      | eraseRoom => exact ho.elim
      | addUser =>
          apply inOrder_lockGuard (rank_nil _)
          exact inOrder_act (by simp) (by simp)
      | removeUser =>
          apply inOrder_lockGuard (rank_nil _)
          exact inOrder_act (by simp) (by simp)
      | getAllUsers =>
          apply inOrder_sharedLock (rank_nil _)
          exact inOrder_act (by simp) (by simp)
      | getMetadata => exact inOrder_act (by simp) (by simp)
      | setIsActive => exact inOrder_act (by simp) (by simp)
  | game o =>
      cases o with
      | getGameById =>
          apply inOrder_sharedLock (rank_nil _)
          exact inOrder_act (by simp) (by simp)
      | punishPlayer =>
          apply inOrder_lockGuard (rank_nil _)
          exact inOrder_act (by simp) (by simp)
      | removePlayer =>
          apply inOrder_lockGuard (rank_nil _)
          exact inOrder_act (by simp) (by simp)
      | markUserResultsAsSubmittedToDB =>
          apply inOrder_lockGuard (rank_nil _)
          exact inOrder_act (by simp) (by simp)
      | getPlayersResults =>
          apply inOrder_sharedLock (rank_nil _)
          apply inOrder_act (by simp)
          rintro _ (⟨user, rfl⟩ | rfl) <;> simp
      | getOnlinePlayers =>
          apply inOrder_sharedLock (rank_nil _)
          exact inOrder_act (by simp) (by simp)
      | pushGame =>
          apply inOrder_lockGuard (rank_nil _)
          exact inOrder_act (by simp) (by simp)
      | eraseGame =>
          apply inOrder_lockGuard (rank_nil _)
          apply inOrder_act
          · rintro data (rfl | hgame) hkept
            · simp
            · exact absurd hgame hkept
          · rintro _ ⟨game, -, rfl⟩
            simp
      | _ => exact inOrder_act (by simp) (by simp)

theorem inOrder_locked {p : Action α} (hp : p.Only Op.Alone) : InOrder session [] (locked p) :=
  keepsRules_locked (hp.mono fun _ ho => ho.inOrder)

theorem inOrder_locked_room {o : RoomOp} (ho : (Op.room o).Alone) :
    InOrder session [] (locked (Action.room o)) :=
  inOrder_locked (Program.only_call (S := operations) ho)

theorem inOrder_locked_game (o : GameOp) : InOrder session [] (locked (Action.game o)) :=
  inOrder_locked (Program.only_call (S := operations) trivial)

theorem inOrder_leaving {g : String} {p : Action α} (hp : p.Only (Op.Leaving g)) :
    InOrder session [] (locked p) :=
  inOrder_locked (hp.mono fun _ ho => ho.alone)

theorem inOrder_reads {p : Action α} (hp : p.Only (Op.Reads fun _ => True)) :
    InOrder session [] (locked p) :=
  inOrder_locked (alone_of_reads hp)

/-- The operations that are made while `_gamesMutex` is held. -/
def Op.Inner : Op → Prop
  | .database _ => True
  | .external _ => True
  | .room (.getAllUsers _) => True
  | .room (.getMetadata _) => True
  | .game (.getGameById _) => False
  | .game (.pushGame ..) => False
  | .game (.eraseGame _) => False
  | .game _ => True
  | _ => False

theorem Op.Inner.inOrder {o : Op} (ho : o.Inner) :
    InOrder session [(.gamesMutex, mode)] o.inLocks := by
  cases o with
  | login o => exact ho.elim
  | database o =>
      apply inOrder_lockGuard
      · exact rank_single Nat.one_pos
      · exact inOrder_act (by simp) (by simp)
  | external o => exact inOrder_act (by simp) (by simp)
  | room o =>
      cases o with
      | getAllUsers =>
          apply inOrder_sharedLock
          · exact rank_single Nat.one_pos
          · exact inOrder_act (by simp) (by simp)
      | getMetadata => exact inOrder_act (by simp) (by simp)
      | _ => exact ho.elim
  | game o =>
      cases o with
      | getGameById => exact ho.elim
      | pushGame => exact ho.elim
      | eraseGame => exact ho.elim
      | punishPlayer =>
          apply inOrder_lockGuard
          · exact rank_single Nat.one_pos
          · exact inOrder_act (by simp) (by simp)
      | removePlayer =>
          apply inOrder_lockGuard
          · exact rank_single Nat.one_pos
          · exact inOrder_act (by simp) (by simp)
      | markUserResultsAsSubmittedToDB =>
          exact inOrder_lockGuard (rank_single Nat.one_pos) (inOrder_act (by simp) (by simp))
      | getPlayersResults =>
          apply inOrder_sharedLock
          · exact rank_single Nat.one_pos
          · apply inOrder_act (by simp)
            rintro _ (⟨user, rfl⟩ | rfl) <;> simp
      | getOnlinePlayers =>
          apply inOrder_sharedLock
          · exact rank_single Nat.one_pos
          · exact inOrder_act (by simp) (by simp)
      | _ => exact inOrder_act (by simp) (by simp)

theorem inOrder_inner {p : Action α} (hp : p.Only Op.Inner) :
    InOrder session [(.gamesMutex, mode)] (locked p) :=
  keepsRules_locked (hp.mono fun _ ho => ho.inOrder)

theorem inOrder_inner_room {o : RoomOp} (ho : (Op.room o).Inner) :
    InOrder session [(.gamesMutex, mode)] (locked (Action.room o)) :=
  inOrder_inner (Program.only_call (S := operations) ho)

theorem inOrder_inner_game {o : GameOp} (ho : (Op.game o).Inner) :
    InOrder session [(.gamesMutex, mode)] (locked (Action.game o)) :=
  inOrder_inner (Program.only_call (S := operations) ho)

theorem Op.Books.inner {o : Op} (h : o.Books) : o.Inner := by
  cases o with
  | database o => trivial
  | external o => trivial
  | _ => exact h.elim

theorem inner_submitResults (g : String) (results : List (LoggedUser × GameData)) :
    (GameManager.submitResults g results).Only Op.Inner := by
  induction results with
  | nil => trivial
  | cons entry rest ih =>
      unfold GameManager.submitResults
      split_ifs
      · exact ih
      · refine ⟨trivial, fun _ => ⟨trivial, fun _ => ?_⟩⟩
        apply ((books_submitGameStatistics _ _).mono fun _ => Op.Books.inner).bind
        intro _
        exact ih

namespace Locking

theorem inOrder_createGame (room : String) : InOrder session [] (createGame room) := by
  apply (inOrder_locked_room (o := .getMetadata room) trivial).bind
  intro metadata
  apply (inOrder_reads (SqliteDatabase.getQuestions_reads _)).bind
  intro questions
  cases questions with
  | error e => exact keepsRules_pure _
  | ok questionsDb =>
      apply (inOrder_locked_room (o := .getMetadata room) trivial).bind
      intro metadata
      split_ifs
      · exact keepsRules_pure _
      · apply (inOrder_reads (GameManager.toQuestions_reads _)).bind
        intro questions
        apply inOrder_lockGuard (rank_nil _)
        apply (inOrder_inner_room (o := .getAllUsers room) trivial).bind
        intro players
        apply (inOrder_inner_room (o := .getMetadata room) trivial).bind
        intro metadata
        apply KeepsRules.bind
        · exact inOrder_act (by simp) (by simp)
        · intro _
          exact keepsRules_pure _

theorem inOrder_submitAllGameStatsToDB (gameId : String) :
    InOrder session [] (submitAllGameStatsToDB gameId) := by
  apply (inOrder_locked (p := GameManager.getGameById gameId) ⟨trivial, fun _ => trivial⟩).bind
  intro g
  apply inOrder_sharedLock (rank_nil _)
  apply (inOrder_inner_game (o := .getPlayersResults g) trivial).bind
  intro results
  exact inOrder_inner (inner_submitResults g _)

theorem inOrder_submitIfFinished (g : String) : InOrder session [] (submitIfFinished g) := by
  apply (inOrder_locked_game (.isFinished g)).bind
  intro finished
  split_ifs
  · exact inOrder_submitAllGameStatsToDB g
  · exact keepsRules_pure _

theorem inOrder_removePlayerFromGame (g : String) (user : LoggedUser) :
    InOrder session [] (removePlayerFromGame g user) := by
  have hpunish := (GameManager.works_punishLeaver (g := g) user).mono fun _ ho => ho.leaving
  have hsubmit := (GameManager.works_submitLeaver (g := g) user).mono fun _ ho => ho.leaving
  apply (inOrder_leaving hpunish).bind
  intro _
  apply (inOrder_locked_game (.removePlayer g user)).bind
  intro _
  apply (inOrder_leaving hsubmit).bind
  intro submitResult
  apply (inOrder_submitIfFinished g).bind
  intro _
  apply (inOrder_leaving GameManager.leaving_eraseIfEmpty).bind
  intro _
  exact keepsRules_pure _

/-- Each part of it takes the mutex of the users, and its last part only needs the one that is
held over all of it. -/
theorem inOrder_removePlayerFromRoom (roomUUID : String) (user : LoggedUser) :
    InOrder session [] (removePlayerFromRoom roomUUID user) := by
  apply inOrder_lockGuard (rank_nil _)
  apply KeepsRules.bind
  · apply keepsRules_locked
    apply Program.only_call (S := operations)
    show InOrder session _ (lockGuard (.usersMutex roomUUID) _)
    apply inOrder_lockGuard
    · exact rank_single Nat.one_pos
    · exact inOrder_act (by simp) (by simp)
  · intro _
    apply KeepsRules.bind
    · apply keepsRules_locked
      apply Program.only_call (S := operations)
      show InOrder session _ (sharedLock (.usersMutex roomUUID) _)
      apply inOrder_sharedLock
      · exact rank_single Nat.one_pos
      · exact inOrder_act (by simp) (by simp)
    · intro users
      split_ifs
      · apply keepsRules_locked
        apply Program.only_call (S := operations)
        exact inOrder_act_erase (.inr rfl)
      · exact keepsRules_pure _

/-- `_gamesMutex` is shared when `getGameById` shares it. -/
theorem inOrder_removePlayerFromGameById (hsession : session.IsMember) (gameId : String)
    (user : LoggedUser) : InOrder session [] (removePlayerFromGameById gameId user) := by
  apply KeepsRules.bind
  · apply inOrder_sharedLock (rank_nil _)
    apply keepsRules_locked
    refine ⟨KeepsRules.within (.inr ⟨rfl, List.mem_singleton_self _, rfl, hsession⟩) ?_,
      fun _ => trivial⟩
    exact inOrder_act (by simp) (by simp)
  · intro g
    exact inOrder_removePlayerFromGame g user

theorem inOrder_leaveRoom (hsession : session.IsMember) (roomUuid roomName : String)
    (user : LoggedUser) :
    InOrder session [] (RoomMemberRequestHandler.leaveRoom roomUuid roomName user) := by
  apply (inOrder_locked_room (o := .getRoomState roomUuid) trivial).bind
  intro state
  cases state with
  | none => exact keepsRules_pure _
  | some state =>
      simp only
      split_ifs
      · apply (inOrder_removePlayerFromGameById hsession roomUuid user).bind
        intro _
        apply (inOrder_locked_room (o := .removeUser roomUuid user) trivial).bind
        intro _
        exact keepsRules_pure _
      · apply (inOrder_locked_room (o := .removeUser roomUuid user) trivial).bind
        intro _
        exact keepsRules_pure _

theorem inOrder_startGame (room : String) (user : LoggedUser) :
    InOrder session [] (RoomAdminRequestHandler.startGame room user) := by
  apply (inOrder_locked_room (o := .getAllUsers room) trivial).bind
  intro users
  split_ifs
  · exact keepsRules_pure _
  · apply (inOrder_createGame room).bind
    intro game
    cases game with
    | error e => exact keepsRules_pure _
    | ok game =>
        apply (inOrder_locked_room (o := .setIsActive room true) trivial).bind
        intro _
        exact keepsRules_pure _

theorem inOrder_leaveGame (game : String) (user : LoggedUser) :
    InOrder session [] (GameRequestHandler.leaveGame game user) := by
  apply (inOrder_locked_game (.isFinished game)).bind
  intro _
  apply (inOrder_removePlayerFromGame game user).bind
  intro error
  cases error with
  | some e => exact keepsRules_pure _
  | none =>
      apply (inOrder_removePlayerFromRoom game user).bind
      intro _
      exact keepsRules_pure _

theorem inOrder_logout (username : String) :
    InOrder session [] (locked (LoginManager.logout username)) :=
  inOrder_locked (Program.only_call (S := operations) trivial)

/-- No handler takes the mutexes out of order. -/
theorem inOrder_handleRequest (session : Session) (request : RequestInfo) :
    InOrder session [] (handleRequest P session.handler request) := by
  cases hhandler : session.handler with
  | login =>
      have hcalls := LoginRequestHandler.mayCall_handleRequest (P := P) request
      exact inOrder_locked (hcalls.mono fun _ => Handler.alone_of_mayCall (by simp))
  | verification tries email code username =>
      have hcalls := VerificationRequestHandler.mayCall_handleRequest (P := P) tries email code
        username request
      exact inOrder_locked (hcalls.mono fun _ => Handler.alone_of_mayCall (by simp))
  | menu user =>
      have hcalls := MenuRequestHandler.mayCall_handleRequest (P := P) user request
      exact inOrder_locked (hcalls.mono fun _ => Handler.alone_of_mayCall (by simp))
  | roomMember roomUuid roomName user =>
      have hsession : session.IsMember := ⟨roomUuid, roomName, user, hhandler⟩
      simp only [handleRequest, RoomMemberRequestHandler.handleRequest]
      split_ifs
      · exact keepsRules_pure _
      · cases request.requestId with
        | leaveRoomRequest => exact inOrder_leaveRoom hsession roomUuid roomName user
        | getRoomStateRequest =>
            have hcalls := TriviaServer.RoomMemberRequestHandler.mayCall_getRoomState (P := P)
              roomUuid roomName user
            exact inOrder_locked (hcalls.mono fun _ => Handler.alone_of_mayCall (by simp))
        | exit =>
            apply (inOrder_logout user.username).bind
            intro _
            exact inOrder_leaveRoom hsession roomUuid roomName user
        | _ => exact keepsRules_pure _
  | roomAdmin room user =>
      simp only [handleRequest, RoomAdminRequestHandler.handleRequest]
      split_ifs
      · exact keepsRules_pure _
      · cases request.requestId with
        | closeRoomRequest =>
            have hcalls := TriviaServer.RoomAdminRequestHandler.administers_closeRoom room user
            exact inOrder_locked (hcalls.mono fun _ => Op.Administers.alone)
        | startGameRequest => exact inOrder_startGame room user
        | getRoomStateRequest =>
            have hcalls := TriviaServer.RoomAdminRequestHandler.administers_getRoomState room user
            exact inOrder_locked (hcalls.mono fun _ => Op.Administers.alone)
        | exit =>
            have hcalls := TriviaServer.RoomAdminRequestHandler.administers_closeRoom room user
            exact inOrder_locked ⟨trivial, fun _ => hcalls.mono fun _ => Op.Administers.alone⟩
        | _ => exact keepsRules_pure _
  | game game user =>
      simp only [handleRequest, GameRequestHandler.handleRequest]
      split_ifs
      · exact keepsRules_pure _
      · cases request.requestId with
        | leaveGameRequest => exact inOrder_leaveGame game user
        | getQuestionRequest =>
            have hcalls := TriviaServer.GameRequestHandler.played_getQuestion game user
            exact inOrder_locked (hcalls.mono fun _ => Op.Played.alone)
        | submitAnswerRequest =>
            have hcalls := TriviaServer.GameRequestHandler.played_submitAnswer (P := P) game user
              request
            exact inOrder_locked (hcalls.mono fun _ => Op.Played.alone)
        | getGameResultsRequest =>
            have hcalls := TriviaServer.GameRequestHandler.played_getGameResults game user
            exact inOrder_locked (hcalls.mono fun _ => Op.Played.alone)
        | exit =>
            apply (inOrder_logout user.username).bind
            intro _
            exact inOrder_leaveGame game user
        | _ => exact keepsRules_pure _

end Locking

/-! ## Runs -/

variable {policy : LockPolicy} {cfg : LockingConfig}

theorem LockingRun.readers (hrun : LockingRun P d policy cfg) : LockingRun P d .readers cfg := by
  obtain ⟨database, hrun⟩ := hrun
  exact ⟨database, hrun.mono fun _ _ hfree => hfree.readers⟩

theorem LockingRun.locksKept (hrun : LockingRun P d policy cfg) :
    LocksKept mutexRules (Locking.handleClient P) cfg := by
  obtain ⟨database, hrun⟩ := hrun
  apply locksKept_of_reachable (fun session request _ =>
    Locking.inOrder_handleRequest session request) (fun _ _ hfree => hfree.readers) hrun

/-- The policies with which a request in progress can always go on, or another one can. -/
def NeverStuck (policy : LockPolicy) : Prop :=
  ∀ (P : Platform) (d : Bool) (cfg : LockingConfig), LockingRun P d policy cfg → ∀ c,
    (cfg.clients c).isBusy = true →
      ∃ c', GoesOn (Locking.handleClient P) (machine d) policy cfg c'

/-- A member leaves the room of a running game, shares `_gamesMutex` and is about to share it
once more, while somebody waits for it alone. -/
def MemberReenters (cfg : LockingConfig) : Prop :=
  ∃ c session request p c', cfg.clients c = .busy session request p ∧ session.IsMember ∧
    (.gamesMutex, .shared) ∈ heldBy c cfg.trace ∧
    (cfg.clients c).nextOp = some (.acquire .gamesMutex .shared) ∧ Awaits cfg c' .gamesMutex

/-- Whoever is let in first during a run, requests in progress can be stuck at its end only
with a policy that prefers those who wait for a mutex alone, and if a member leaves. -/
theorem stuck_by_reentering (hrun : LockingRun P d .readers cfg) (policy : LockPolicy) {c : ℕ}
    (hbusy : (cfg.clients c).isBusy = true) :
    (∃ c', GoesOn (Locking.handleClient P) (machine d) policy cfg c') ∨
      policy = .writers ∧ MemberReenters cfg := by
  by_cases hgoes : ∃ c', GoesOn (Locking.handleClient P) (machine d) policy cfg c'
  · exact .inl hgoes
  · right
    obtain ⟨hpolicy, c₁, session, request, p, c₂, mutex, hc₁, ⟨rfl, hmember⟩, hheld, hnext,
      hawaits⟩ := hrun.locksKept.reentering_of_stuck (Communicator.step_or_fault d) hbusy
        (not_exists.mp hgoes)
    exact ⟨hpolicy, c₁, session, request, p, c₂, hc₁, hmember, hheld, hnext, hawaits⟩

/-- The mutex of the map or list with the room or game that some data belongs to. -/
def SharedData.keeper : SharedData → Option Mutex
  | .users _ | .isActive _ | .room _ => some .roomsMutex
  | .onlinePlayers _ | .players _ _ | .game _ => some .gamesMutex
  | .loggedUsers | .database | .rooms | .games => none

theorem SharedData.OfRoom.keeper {data : SharedData} {id : String} (h : data.OfRoom id) :
    data.keeper = some .roomsMutex := by
  cases data with
  | users | isActive | room => rfl
  | _ => exact h.elim

theorem SharedData.OfGame.keeper {data : SharedData} {id : String} (h : data.OfGame id) :
    data.keeper = some .gamesMutex := by
  cases data with
  | onlinePlayers | players | game => rfl
  | _ => exact h.elim

/-- Nothing is destroyed without the mutex of the map or list that it is taken from. -/
theorem Op.Destroys.needs {o : Op} {data : SharedData} (h : o.Destroys data) :
    ∃ mutex, data.keeper = some mutex ∧ mutexRules.needs o mutex .exclusive := by
  cases o with
  | room o =>
      cases o with
      | deleteRoom | eraseRoom =>
          exact ⟨.roomsMutex, SharedData.OfRoom.keeper h, .rooms, rfl, .inl rfl, id⟩
      | _ => exact h.elim
  | game o =>
      cases o with
      | eraseGame => exact ⟨.gamesMutex, SharedData.OfGame.keeper h, .games, rfl, .inl rfl, id⟩
      | _ => exact h.elim
  | _ => exact h.elim

/-- Of what has no mutex, only flags and the data of players are written. -/
theorem Op.Stores.unguarded {o : Op} {data : SharedData} (h : o.Stores data)
    (hguard : data.guard = none) (hkept : ¬ o.Destroys data) :
    (∃ id, data = .isActive id) ∨ ∃ id user, data = .players id user := by
  cases data with
  | isActive id => exact .inl ⟨id, rfl⟩
  | players id user => exact .inr ⟨id, user, rfl⟩
  | room id =>
      refine absurd ?_ hkept
      cases o with
      | room o => cases o <;> simp_all
      | game o => cases o <;> simp_all
      | _ => cases h
  | game id =>
      refine absurd ?_ hkept
      cases o with
      | room o => cases o <;> simp_all
      | game o => cases o <;> simp_all
      | _ => cases h
  | _ => cases hguard

/-- A connection is about to write data that another one is about to write or to read. -/
def Race (cfg : LockingConfig) (c c' : ℕ) (data : SharedData) : Prop :=
  c' ≠ c ∧ ∃ o o', (cfg.clients c).nextOp = some (.act o) ∧
    (cfg.clients c').nextOp = some (.act o') ∧ o.Stores data ∧ (o'.Stores data ∨ o'.Loads data)

/-- A connection is about to destroy data together with the room or game it belongs to. It has
locked the map or list for that, and nobody else has. -/
def IsDestroying (cfg : LockingConfig) (c : ℕ) (data : SharedData) : Prop :=
  ∃ o mutex, (cfg.clients c).nextOp = some (.act o) ∧ o.Destroys data ∧
    data.keeper = some mutex ∧ (mutex, .exclusive) ∈ heldBy c cfg.trace ∧
    ∀ c' mode, c' ≠ c → (mutex, mode) ∉ heldBy c' cfg.trace

theorem LockingRun.isDestroying (hrun : LockingRun P d policy cfg) {c : ℕ} {o : Op}
    {data : SharedData} (hnext : (cfg.clients c).nextOp = some (.act o)) (ho : o.Destroys data) :
    IsDestroying cfg c data := by
  obtain ⟨mutex, hkeeper, hneeds⟩ := ho.needs
  have hheld : (mutex, .exclusive) ∈ heldBy c cfg.trace :=
    (hrun.locksKept.mayAct hnext mutex _ hneeds).elim id id
  refine ⟨o, mutex, hnext, ho, hkeeper, hheld, fun c' mode hne hheld' => hne ?_⟩
  exact (hrun.locksKept.excluding c mutex hheld c' mode hheld').1

/-- The connections race for the flags of rooms, for the data of players, and for what one of
them destroys while the other still has a reference to it. -/
theorem races_listed (hrun : LockingRun P d policy cfg) {c c' : ℕ} {data : SharedData}
    (hrace : Race cfg c c' data) :
    (∃ id, data = .isActive id) ∨ (∃ id user, data = .players id user) ∨
      IsDestroying cfg c data ∨ IsDestroying cfg c' data := by
  obtain ⟨hne, o, o', hnext, hnext', hstores, htouches⟩ := hrace
  by_cases ho : o.Destroys data
  · exact .inr (.inr (.inl (hrun.isDestroying hnext ho)))
  by_cases ho' : o'.Destroys data
  · exact .inr (.inr (.inr (hrun.isDestroying hnext' ho')))
  cases hguard : data.guard with
  | none => exact (hstores.unguarded hguard ho).imp_right .inl
  | some mutex =>
      have hneeds : mutexRules.needs o mutex .exclusive := ⟨data, hguard, hstores, ho⟩
      rcases htouches with hstores' | hloads'
      · have hneeds' : mutexRules.needs o' mutex .exclusive := ⟨data, hguard, hstores', ho'⟩
        exact absurd (hrun.locksKept.apart hnext hnext' hneeds hneeds') hne
      · have hneeds' : mutexRules.needs o' mutex .shared := ⟨data, hguard, hloads'⟩
        exact absurd (hrun.locksKept.apart hnext hnext' hneeds hneeds') hne

/-! ## A member leaves while the game is erased -/

/-- Three accounts and two questions. -/
def threeAccounts : Database where
  users := sampleDatabase.users ++ [⟨3, "eve", "Aa1!aaaa", "eve@mail.com", "", "", "", 0, 0⟩]
  statistics := sampleDatabase.statistics ++ [⟨3, 0, 0, 0, 0, 0⟩]
  questions := sampleDatabase.questions
  nextUserId := 4
  usernames_nodup := by decide
  ids_sorted := by decide
  ids_lt := by decide
  rows_eq := rfl

/-- A whole request that takes this many steps. -/
def lockingRequest (c : ℕ) (request : RequestInfo) (steps : ℕ) (choice : Choice := usual) :
    List ServerPlay :=
  .receive c request :: calls c (List.replicate steps choice) ++ [.finish c true]

/-- `ann` creates a room, `bob` joins and they start to play; `eve` joins the room, and `ann`
leaves. Then `eve` leaves the room, up to `getGameById`, and `bob` the game, up to its erasure. -/
def eveLeaves : List ServerPlay :=
  [.connect 0, .connect 1, .connect 2] ++
  lockingRequest 0 (lobbyRequest .loginRequest 0) 9 ++
  lockingRequest 1 (lobbyRequest .loginRequest 1) 9 ++
  lockingRequest 2 (lobbyRequest .loginRequest 3) 9 ++
  lockingRequest 0 (lobbyRequest .createRoomRequest 4) 6 { text := "room" } ++
  lockingRequest 1 (lobbyRequest .joinRoomRequest 5) 7 ++
  lockingRequest 0 ⟨.startGameRequest, []⟩ 21 ++
  lockingRequest 1 ⟨.getRoomStateRequest, []⟩ 20 ++
  lockingRequest 2 (lobbyRequest .joinRoomRequest 5) 7 ++
  lockingRequest 0 ⟨.leaveGameRequest, []⟩ 34 ++
  .receive 2 ⟨.leaveRoomRequest, []⟩ :: calls 2 (List.replicate 6 usual) ++
  .receive 1 ⟨.leaveGameRequest, []⟩ :: calls 1 (List.replicate 26 usual)

def replayLocking (policy : LockPolicy) (plays : List ServerPlay) : Option LockingConfig :=
  Service.replayIf (Locking.handleClient lobbyPlatform) (interpreter.locking Mutex)
    (admitsLocking (Op.admits true) Mutex) (fun play _ => play.label)
    (locksFreeAmong policy [0, 1, 2]) plays (Service.start (.init threeAccounts))

theorem lockingRun_of_replay {plays : List ServerPlay}
    (h : replayLocking policy plays = some cfg) : LockingRun lobbyPlatform true policy cfg := by
  have hrun := Service.reachable_of_replayIf (fun _ _ hcheck => hcheck) h
  have : Nonempty Choice := ⟨usual⟩
  rw [Interpreter.machine_locking] at hrun
  exact ⟨threeAccounts, reachable_of_among hrun⟩

/-- `bob` waits for `_gamesMutex` alone, and `eve` shares it and is to share it once more. -/
theorem replay_eveLeaves : ∃ cfg, replayLocking .writers eveLeaves = some cfg ∧
    (∀ e ∈ cfg.trace, e.1 ∈ [0, 1, 2]) ∧ (cfg.clients 0).isBusy = false ∧
    (cfg.clients 1).nextLock = some (.gamesMutex, .exclusive) ∧
    (cfg.clients 2).nextLock = some (.gamesMutex, .shared) ∧
    (.gamesMutex, .shared) ∈ heldBy 2 cfg.trace := by
  have hrun : ((replayLocking .writers eveLeaves).any fun cfg =>
      (cfg.trace.all fun e => e.1 ∈ [0, 1, 2]) && ((cfg.clients 0).isBusy = false &&
      ((cfg.clients 1).nextLock = some (.gamesMutex, .exclusive) &&
      ((cfg.clients 2).nextLock = some (.gamesMutex, .shared) &&
      (.gamesMutex, .shared) ∈ heldBy 2 cfg.trace)))) = true := by
    decide +kernel
  obtain ⟨cfg, hreplay, hcheck⟩ := (Option.any_eq_true _ _).mp hrun
  simp only [Bool.and_eq_true, decide_eq_true_eq, List.all_eq_true] at hcheck
  exact ⟨cfg, hreplay, hcheck⟩

/-- Nobody can go on there with a mutex that prefers those who wait for it alone. -/
theorem eveLeaves_stuck {cfg : LockingConfig}
    (hreplay : replayLocking .writers eveLeaves = some cfg)
    (htrace : ∀ e ∈ cfg.trace, e.1 ∈ [0, 1, 2]) (hann : (cfg.clients 0).isBusy = false)
    (hbob : (cfg.clients 1).nextLock = some (.gamesMutex, .exclusive))
    (heve : (cfg.clients 2).nextLock = some (.gamesMutex, .shared))
    (hheld : (.gamesMutex, .shared) ∈ heldBy 2 cfg.trace) (c : ℕ) :
    ¬ GoesOn (Locking.handleClient lobbyPlatform) (machine true) .writers cfg c := by
  obtain ⟨database, hrun⟩ := lockingRun_of_replay hreplay
  intro hgoes
  have hbusy := hgoes.isBusy
  obtain ⟨e, he, rfl⟩ := observed_of_busy hrun hbusy
  have hclient := htrace e he
  simp only [List.mem_cons, List.not_mem_nil, or_false] at hclient
  rcases hclient with h₀ | h₁ | h₂
  · rw [h₀, hann] at hbusy
    cases hbusy
  · rw [h₁] at hgoes
    exact hgoes.toBeHad (nextLock_eq_some.mp hbob) 2 _ hheld
  · rw [h₂] at hgoes
    exact (hgoes.toBeHad (nextLock_eq_some.mp heve)).2 rfl 1 (nextLock_eq_some.mp hbob)

/-- The server never gets stuck if and only if those who share a mutex are let in first. -/
theorem neverStuck_iff : NeverStuck policy ↔ policy = .readers := by
  constructor
  · intro hnever
    cases policy with
    | readers => rfl
    | writers =>
        obtain ⟨cfg, hreplay, htrace, hann, hbob, heve, hheld⟩ := replay_eveLeaves
        have hbusy : (cfg.clients 1).isBusy = true := isBusy_of_nextLock hbob
        obtain ⟨c, hgoes⟩ := hnever _ _ cfg (lockingRun_of_replay hreplay) 1 hbusy
        exact absurd hgoes (eveLeaves_stuck hreplay htrace hann hbob heve hheld c)
  · rintro rfl P d cfg hrun c hbusy
    by_contra hstuck
    obtain ⟨hpolicy, -⟩ := hrun.locksKept.reentering_of_stuck (Communicator.step_or_fault d)
      hbusy (not_exists.mp hstuck)
    cases hpolicy

theorem stuck_by_reentering_eve : ∃ cfg : LockingConfig,
    LockingRun lobbyPlatform true .readers cfg ∧ MemberReenters cfg := by
  obtain ⟨cfg, hreplay, htrace, hann, hbob, heve, hheld⟩ := replay_eveLeaves
  have hrun := (lockingRun_of_replay hreplay).readers
  have hbusy : (cfg.clients 1).isBusy = true := isBusy_of_nextLock hbob
  rcases stuck_by_reentering hrun .writers hbusy with ⟨c, hgoes⟩ | ⟨-, hreenters⟩
  · exact absurd hgoes (eveLeaves_stuck hreplay htrace hann hbob heve hheld c)
  · exact ⟨cfg, hrun, hreenters⟩

/-- `ann` and `bob` leave their game; `ann` is about to be marked, and `bob` to copy the results
of all players. -/
def bothLeave : List ServerPlay :=
  [.connect 0, .connect 1] ++
  lockingRequest 0 (lobbyRequest .loginRequest 0) 9 ++
  lockingRequest 1 (lobbyRequest .loginRequest 1) 9 ++
  lockingRequest 0 (lobbyRequest .createRoomRequest 4) 6 { text := "room" } ++
  lockingRequest 1 (lobbyRequest .joinRoomRequest 5) 7 ++
  lockingRequest 0 ⟨.startGameRequest, []⟩ 21 ++
  lockingRequest 1 ⟨.getRoomStateRequest, []⟩ 20 ++
  .receive 0 ⟨.leaveGameRequest, []⟩ :: calls 0 (List.replicate 9 usual) ++
  .receive 1 ⟨.leaveGameRequest, []⟩ :: calls 1 (List.replicate 13 usual) ++
  calls 0 [usual]

/-- The operation on a game that a connection makes next. -/
def nextGameOp (client : Client (operations.locking Mutex) Session RequestInfo RequestResult) :
    Option GameOp :=
  match client.nextOp with
  | some (.act (.game o)) => some o
  | _ => none

theorem nextOp_of_nextGameOp
    {client : Client (operations.locking Mutex) Session RequestInfo RequestResult} {o : GameOp}
    (h : nextGameOp client = some o) : client.nextOp = some (.act (.game o)) := by
  unfold nextGameOp at h
  split at h
  · next hnext =>
      cases h
      exact hnext
  · cases h

/-- The operation on a room that a connection makes next. -/
def nextRoomOp (client : Client (operations.locking Mutex) Session RequestInfo RequestResult) :
    Option RoomOp :=
  match client.nextOp with
  | some (.act (.room o)) => some o
  | _ => none

theorem nextOp_of_nextRoomOp
    {client : Client (operations.locking Mutex) Session RequestInfo RequestResult} {o : RoomOp}
    (h : nextRoomOp client = some o) : client.nextOp = some (.act (.room o)) := by
  unfold nextRoomOp at h
  split at h
  · next hnext =>
      cases h
      exact hnext
  · cases h

theorem replay_bothLeave : ∃ cfg, replayLocking .writers bothLeave = some cfg ∧
    Race cfg 0 1 (.players "room" ⟨"ann"⟩) := by
  have hrun : ((replayLocking .writers bothLeave).any fun cfg =>
      nextGameOp (cfg.clients 0) = some (.markUserResultsAsSubmittedToDB "room" ⟨"ann"⟩) &&
      nextGameOp (cfg.clients 1) = some (.getPlayersResults "room")) = true := by
    decide +kernel
  obtain ⟨cfg, hreplay, hcheck⟩ := (Option.any_eq_true _ _).mp hrun
  simp only [Bool.and_eq_true, decide_eq_true_eq] at hcheck
  exact ⟨cfg, hreplay, Nat.one_ne_zero, _, _, nextOp_of_nextGameOp hcheck.1,
    nextOp_of_nextGameOp hcheck.2, rfl, .inr (.inl ⟨_, rfl⟩)⟩

/-- `ann` creates a room; `bob` has a reference to it and is about to enter it when `ann` closes
the room. -/
def closedOnBob : List ServerPlay :=
  [.connect 0, .connect 1] ++
  lockingRequest 0 (lobbyRequest .loginRequest 0) 9 ++
  lockingRequest 1 (lobbyRequest .loginRequest 1) 9 ++
  lockingRequest 0 (lobbyRequest .createRoomRequest 4) 6 { text := "room" } ++
  .receive 1 (lobbyRequest .joinRoomRequest 5) :: calls 1 (List.replicate 4 usual) ++
  .receive 0 ⟨.closeRoomRequest, []⟩ :: calls 0 (List.replicate 2 usual)

theorem replay_closedOnBob : ∃ cfg, replayLocking .writers closedOnBob = some cfg ∧
    Race cfg 0 1 (.users "room") := by
  have hrun : ((replayLocking .writers closedOnBob).any fun cfg =>
      nextRoomOp (cfg.clients 0) = some (.deleteRoom "room") &&
      nextRoomOp (cfg.clients 1) = some (.addUser "room" ⟨"bob"⟩)) = true := by
    decide +kernel
  obtain ⟨cfg, hreplay, hcheck⟩ := (Option.any_eq_true _ _).mp hrun
  simp only [Bool.and_eq_true, decide_eq_true_eq] at hcheck
  exact ⟨cfg, hreplay, Nat.one_ne_zero, _, _, nextOp_of_nextRoomOp hcheck.1,
    nextOp_of_nextRoomOp hcheck.2, .inr rfl, .inl rfl⟩

theorem races_listed_ann : ∃ cfg cfg' : LockingConfig,
    Race cfg 0 1 (.players "room" ⟨"ann"⟩) ∧ Race cfg' 0 1 (.users "room") ∧
    ((∃ id, SharedData.players "room" ⟨"ann"⟩ = .isActive id) ∨
      (∃ id user, SharedData.players "room" ⟨"ann"⟩ = .players id user) ∨
      IsDestroying cfg 0 (.players "room" ⟨"ann"⟩) ∨
      IsDestroying cfg 1 (.players "room" ⟨"ann"⟩)) ∧
    (IsDestroying cfg' 0 (.users "room") ∨ IsDestroying cfg' 1 (.users "room")) := by
  obtain ⟨cfg, hreplay, hrace⟩ := replay_bothLeave
  obtain ⟨cfg', hreplay', hrace'⟩ := replay_closedOnBob
  have hlisted' := races_listed (lockingRun_of_replay hreplay') hrace'
  exact ⟨cfg, cfg', hrace, hrace', races_listed (lockingRun_of_replay hreplay) hrace,
    by simpa using hlisted'⟩

end TriviaServer
