import TriviaServer.Verification.Confinement

/-! # Where a game is submitted

The operation `submitting` is none of the source's: it marks a call of `submitGameStatistics`.
It stands directly before each of these calls and names the data that the call is made with, and
nothing else updates the statistics. -/

namespace TriviaServer

open Interaction
open Program (Only)
open SqliteDatabase (submitGameStatistics)

variable {P : Platform}

/-- A program in which each mark is followed by the call that it marks, and statistics are
updated in such calls only. -/
inductive Marked {α : Type} : Action α → Prop
  | pure (a : α) : Marked (.pure a)
  | submits {g : String} {user : LoggedUser} {data : GameData} {k : Option Error → Action α} :
      (∀ e, Marked (k e)) →
      Marked (.perform (.game (.submitting g user data))
        fun _ => submitGameStatistics data user.username >>= k)
  | performs {o : Op} {next : o.Answer → Action α} :
      (∀ g user data, o ≠ .game (.submitting g user data)) →
      (∀ row, o ≠ .database (.updateStatistics row)) →
      (∀ r, Marked (next r)) → Marked (.perform o next)

section Marked

variable {α β : Type} {p : Action α} {g : String} {user : LoggedUser}

theorem Marked.bind (hp : Marked p) {f : α → Action β} (hf : ∀ a, Marked (f a)) :
    Marked (p >>= f) := by
  induction hp with
  | pure a => exact hf a
  | submits _ ih =>
      rw [Program.perform_bind]
      simp only [bind_assoc]
      exact .submits ih
  | performs hmark hupdate _ ih => exact .performs hmark hupdate ih

/-- The operations that neither mark a call nor update statistics. -/
def Op.Unbooked : Op → Prop
  | .game (.submitting ..) => False
  | .database (.updateStatistics _) => False
  | _ => True

theorem marked_of_unbooked (hp : p.Only Op.Unbooked) : Marked p := by
  induction p with
  | pure a => exact .pure a
  | perform o next ih =>
      refine .performs ?_ ?_ fun r => ih r (hp.2 r)
      · rintro g user data rfl
        exact hp.1
      · rintro row rfl
        exact hp.1

theorem marked_game {o : GameOp} {f : o.Answer → Action α} (ho : (Op.game o).Unbooked)
    (hf : ∀ r, Marked (f r)) : Marked (Action.game o >>= f) :=
  (marked_of_unbooked (Program.only_call (S := operations) ho)).bind hf

theorem marked_room {o : RoomOp} {f : o.Answer → Action α} (hf : ∀ r, Marked (f r)) :
    Marked (Action.room o >>= f) :=
  (marked_of_unbooked (Program.only_call (S := operations)
    (show (Op.room o).Unbooked from trivial))).bind hf

theorem marked_submit (g : String) (user : LoggedUser) (data : GameData)
    {k : Option Error → Action α} (hk : ∀ e, Marked (k e)) :
    Marked (Action.game (.submitting g user data) >>= fun _ =>
      submitGameStatistics data user.username >>= k) :=
  .submits hk

theorem Op.Reads.unbooked {o : Op} (h : o.Reads fun _ => True) : o.Unbooked := by
  cases o with
  | database o =>
      cases o with
      | updateStatistics => exact h.elim
      | _ => trivial
  | game o => exact h.elim
  | _ => trivial

/-- Only those who play may submit. -/
theorem Handler.unbooked_of_mayCall {h : Handler} (hh : ∀ g user, ¬ h.InGame g user) {o : Op}
    (ho : h.MayCall P o) : o.Unbooked := by
  cases o with
  | database o =>
      cases o with
      | updateStatistics =>
          obtain ⟨g, user, hin⟩ := ho
          exact hh g user hin
      | _ => trivial
  | game o =>
      cases o with
      | submitting g =>
          obtain ⟨user, hin⟩ := ho
          exact hh g user hin
      | _ => trivial
  | _ => trivial

end Marked

namespace GameManager

variable (g : String) (user : LoggedUser)

theorem marked_submitResults (results : List (LoggedUser × GameData)) :
    Marked (submitResults g results) := by
  induction results with
  | nil => exact .pure ()
  | cons result rest ih =>
      unfold submitResults
      split_ifs
      · exact ih
      · exact marked_game trivial fun _ => marked_submit g _ _ fun _ => ih

theorem marked_punishLeaver : Marked (punishLeaver g user) := by
  refine marked_game trivial fun finished => ?_
  split_ifs
  · exact marked_of_unbooked (Program.only_call (S := operations) trivial)
  · exact .pure ()

theorem marked_submitLeaver : Marked (submitLeaver g user) := by
  refine marked_game trivial fun finished => ?_
  split_ifs
  · refine marked_game trivial fun _ => marked_game trivial fun results => ?_
    split
    · exact marked_of_unbooked (only_throw fun _ => trivial)
    · next data _ =>
        have h := marked_submit g user data fun e => Marked.pure e
        rwa [show (Program.pure : Option Error → Action (Option Error)) = pure from rfl,
          funext fun _ => bind_pure _] at h
  · exact .pure none

theorem marked_submitIfFinished : Marked (submitIfFinished g) := by
  refine marked_game trivial fun finished => ?_
  split_ifs
  · unfold submitAllGameStatsToDB getGameById
    simp only [bind_assoc, pure_bind]
    exact marked_game trivial fun _ => marked_game trivial fun results =>
      marked_submitResults g _
  · exact .pure ()

theorem marked_eraseIfEmpty : Marked (eraseIfEmpty g) := by
  refine marked_game trivial fun online => ?_
  split_ifs
  · exact marked_of_unbooked (Program.only_call (S := operations) trivial)
  · exact .pure ()

theorem marked_removePlayerFromGame : Marked (removePlayerFromGame g user) := by
  apply (marked_punishLeaver g user).bind
  intro _
  refine marked_game trivial fun _ => ?_
  apply (marked_submitLeaver g user).bind
  intro submitResult
  apply (marked_submitIfFinished g).bind
  intro _
  exact (marked_eraseIfEmpty g).bind fun _ => .pure submitResult

end GameManager

theorem marked_logout (username : String) : Marked (LoginManager.logout username) :=
  marked_of_unbooked (Program.only_call (S := operations) trivial)

theorem RoomMemberRequestHandler.marked_leaveRoom (roomUuid roomName : String)
    (user : LoggedUser) : Marked (leaveRoom roomUuid roomName user) := by
  refine marked_room fun roomState => ?_
  cases roomState with
  | none => exact .pure _
  | some roomState =>
      dsimp only
      split_ifs
      · refine marked_game (o := .getGameById roomUuid) trivial fun _ => ?_
        apply (GameManager.marked_removePlayerFromGame roomUuid user).bind
        intro _
        exact marked_room fun _ => .pure _
      · exact marked_room fun _ => .pure _

theorem RoomMemberRequestHandler.marked_getRoomState (roomUuid roomName : String)
    (user : LoggedUser) : Marked (getRoomState roomUuid roomName user) := by
  refine marked_room fun roomState => ?_
  cases roomState with
  | none => exact .pure _
  | some roomState =>
      have hreads := UsersManager.transformLoggedUsersToPlayers_reads (E := fun _ => True)
      apply (marked_of_unbooked ((hreads _).mono fun _ => Op.Reads.unbooked)).bind
      intro players
      cases players with
      | error e => exact .pure _
      | ok players =>
          dsimp only
          split_ifs
          · exact marked_game (o := .getGameById roomUuid) trivial fun _ => .pure _
          · exact .pure _

theorem GameRequestHandler.marked_leaveGame (game : String) (user : LoggedUser) :
    Marked (leaveGame game user) := by
  refine marked_game trivial fun _ => ?_
  apply (GameManager.marked_removePlayerFromGame game user).bind
  intro submitResult
  cases submitResult with
  | some e => exact .pure _
  | none =>
      have hremove : (RoomManager.removePlayerFromRoom game user).Only Op.Unbooked :=
        RoomManager.removePlayerFromRoom_only trivial trivial trivial
      exact (marked_of_unbooked hremove).bind fun _ => .pure _

theorem Op.Played.unbooked {game : String} {user : LoggedUser} {o : Op}
    (h : o.Played game user) : o.Unbooked := by
  cases o with
  | game o =>
      cases o with
      | submitting => exact h.elim
      | _ => trivial
  | _ => exact Op.Reads.unbooked h

theorem Op.Administers.unbooked {o : Op} (h : o.Administers) : o.Unbooked := by
  cases o with
  | login | room => trivial
  | game o =>
      cases o with
      | submitting => exact h.elim
      | _ => trivial
  | _ => exact Op.Reads.unbooked h

/-- Every handler marks the games that it submits. -/
theorem Handler.marked_handleRequest (h : Handler) (request : RequestInfo) :
    Marked (h.handleRequest P request) := by
  cases h with
  | login =>
      exact marked_of_unbooked ((LoginRequestHandler.mayCall_handleRequest request).mono
        fun _ => unbooked_of_mayCall (by simp [InGame]))
  | verification tries email code username =>
      exact marked_of_unbooked ((VerificationRequestHandler.mayCall_handleRequest tries email
        code username request).mono fun _ => unbooked_of_mayCall (by simp [InGame]))
  | menu user =>
      exact marked_of_unbooked ((MenuRequestHandler.mayCall_handleRequest user request).mono
        fun _ => unbooked_of_mayCall (by simp [InGame]))
  | roomMember roomUuid roomName user =>
      simp only [handleRequest, RoomMemberRequestHandler.handleRequest]
      split_ifs
      · exact .pure _
      · split
        · exact RoomMemberRequestHandler.marked_leaveRoom roomUuid roomName user
        · exact RoomMemberRequestHandler.marked_getRoomState roomUuid roomName user
        · exact (marked_logout user.username).bind
            fun _ => RoomMemberRequestHandler.marked_leaveRoom roomUuid roomName user
        · exact .pure _
  | roomAdmin room user =>
      exact marked_of_unbooked ((RoomAdminRequestHandler.administers_handleRequest room user
        request).mono fun _ => Op.Administers.unbooked)
  | game game user =>
      simp only [handleRequest, GameRequestHandler.handleRequest]
      split_ifs
      · exact .pure _
      · split
        · exact GameRequestHandler.marked_leaveGame game user
        · exact marked_of_unbooked ((GameRequestHandler.played_getQuestion game user).mono
            fun _ => Op.Played.unbooked)
        · exact marked_of_unbooked ((GameRequestHandler.played_submitAnswer game user
            request).mono fun _ => Op.Played.unbooked)
        · exact marked_of_unbooked ((GameRequestHandler.played_getGameResults game user).mono
            fun _ => Op.Played.unbooked)
        · exact (marked_logout user.username).bind
            fun _ => GameRequestHandler.marked_leaveGame game user
        · exact .pure _

end TriviaServer
