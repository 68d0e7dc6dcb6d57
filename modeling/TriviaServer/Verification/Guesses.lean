import TriviaServer.Verification.ErrorAnswers
import TriviaServer.Verification.Standing

/-! # Guessing the verification code

What one request does to a `VerificationRequestHandler`, and from it how many codes the handler
of a signup compares, and with which code, whatever it is sent and whatever becomes of its mails. -/

namespace TriviaServer

open Interaction

variable {P : Platform} {d : Bool} {E : Fault → Prop}

/-! ## Codes mailed and codes compared -/

/-- The code of a verification mail that was sent successfully. -/
def codeMailed : Event operations → Option String
  | ⟨.external (.sendEmailVerification _ code _), none⟩ => some code
  | _ => none

/-- The code of the latest of these mails. -/
def latestCode (calls : List (Event operations)) : Option String :=
  (calls.filterMap codeMailed).getLast?

theorem latestCode_append (calls calls' : List (Event operations)) :
    latestCode (calls ++ calls') = (latestCode calls').or (latestCode calls) := by
  rw [latestCode, latestCode, latestCode, List.filterMap_append, List.getLast?_append]

/-! ## One request -/

/-- The signup is given up: the name is logged out, and unless a call of the database has thrown,
nobody has an account of that name. -/
structure GivenUp (username : String) (calls : List (Event operations)) (answer : RequestResult)
    (after : Managers) : Prop where
  handler_eq : answer.handler = .login
  loggedOut : ∀ user ∈ after.loggedUsers, user.username ≠ username
  removed : calls.any failsCall = false → username ∉ after.database.users.map User.username

/-- What a handler does with a request: an exit gives the signup up, a request without a code
leaves the tries as they are, the right code moves to the menu, and a wrong one costs a try or
was the last. -/
inductive Guessed (P : Platform) (tries : UInt32) (email code username : String)
    (request : RequestInfo) (calls : List (Event operations)) (answer : RequestResult)
    (after : Managers) : Prop
  | exit (hid : request.requestId = .exit) (hgivenUp : GivenUp username calls answer after)
  | waiting (hnone : submittedCode P request = none)
      (hr : answer.handler = .verification tries email ((latestCode calls).getD code) username)
  | right (hcode : submittedCode P request = some code) (hr : answer.handler = .menu ⟨username⟩)
  | wrong (hcode : ∃ code', submittedCode P request = some code' ∧ code' ≠ code)
      (htries : ¬ 5 ≤ tries + 1) (hlatest : latestCode calls = none)
      (hr : answer.handler = .verification (tries + 1) email code username)
  | last (hcode : ∃ code', submittedCode P request = some code' ∧ code' ≠ code)
      (htries : 5 ≤ tries + 1) (hgivenUp : GivenUp username calls answer after)

section Request

variable {tries : UInt32} {email code username : String} {request : RequestInfo} {s : Managers}

/-- A user that is found by the name is the only one of that name. -/
theorem Database.username_notMem_removeUser {db : Database} {user : User} {rest : List User}
    (h : (db.users.filter (·.username = username)).take 1 = user :: rest) :
    username ∉ (db.removeUser user.id).users.map User.username := by
  intro hmem
  obtain ⟨other, hother, hname⟩ := List.mem_map.mp hmem
  obtain ⟨hother, hid⟩ := List.mem_filter.mp hother
  obtain ⟨huser, hname'⟩ := List.mem_filter.mp
    (List.mem_of_mem_take (h ▸ List.mem_cons_self))
  have hsame := db.user_unique hother huser (hname.trans (of_decide_eq_true hname').symm)
  exact of_decide_eq_true hid (congrArg User.id hsame)

/-- Behind the removal the account is gone, if no call throws. -/
theorem wp_removeUnverified_gone {Q : List (Event operations) → Unit → Managers → Prop}
    (h : ∀ t db, (t.any failsCall = false → username ∉ db.users.map User.username) →
      Q t () (s.setDatabase db)) :
    wp (machine d) E (UsersManager.removeUserUnverifiedUser username) Q s := by
  unfold UsersManager.removeUserUnverifiedUser SqliteDatabase.removeUser SqliteDatabase.getUser
  simp only [wp_bind]
  apply wp_db
  intro c found db _ hx
  rcases DbOp.exec_cases hx with ⟨-, rfl, rfl⟩ | ⟨-, hx⟩
  · exact h _ _ (by simp [failsCall, event])
  · cases hx
    cases hfound : (s.database.users.filter (·.username = username)).take 1 with
    | nil =>
        refine h _ _ fun _ hmem => ?_
        obtain ⟨user, huser, hname⟩ := List.mem_map.mp hmem
        have hfilter := (List.take_eq_nil_iff.mp hfound).resolve_left one_ne_zero
        exact List.filter_eq_nil_iff.mp hfilter user huser (decide_eq_true hname)
    | cons user rest =>
        simp only [wp_pure, wp_bind]
        apply wp_db
        intro c removed db' _ hx
        rcases DbOp.exec_cases hx with ⟨-, rfl, rfl⟩ | ⟨-, hx⟩
        · exact h _ _ (by simp [failsCall, event])
        · cases hx
          exact h _ _ fun _ => Database.username_notMem_removeUser hfound

theorem wp_giveUp {r : RequestResult} (hr : r.handler = .login) :
    wp (machine d) E
      (UsersManager.removeUserUnverifiedUser username >>= fun _ =>
        LoginManager.logout username >>= fun _ => pure r)
      (fun t r s' => GivenUp username t r s') s := by
  rw [wp_bind]
  apply wp_removeUnverified_gone
  intro t db hgone
  rw [wp_bind]
  refine (wp_login _ _).mpr ⟨hr, ?_, ?_⟩
  · intro user huser
    exact of_decide_eq_true (List.mem_filter.mp huser).2
  · intro hfails
    rw [List.any_append, Bool.or_eq_false_iff] at hfails
    exact hgone hfails.1

theorem submittedCode_of_ne (hid : request.requestId ≠ .submitVerificationCodeRequest) :
    submittedCode P request = none :=
  if_neg hid

theorem guessed_submitVerificationCode (hid : request.requestId = .submitVerificationCodeRequest) :
    wp (machine d) (fun _ => submittedCode P request = none)
      (VerificationRequestHandler.submitVerificationCode P tries email code username request)
      (Guessed P tries email code username request) s := by
  unfold VerificationRequestHandler.submitVerificationCode
  simp only [wp_bind]
  refine (wp_lift _ _).mpr ?_
  cases hparsed : JsonDeserializer.deserializeSubmitVerificationCodeRequest
      (P.parse request.buffer) with
  | error e => exact (by simp [submittedCode, hparsed] : submittedCode P request = none)
  | ok parsed =>
      rw [ensures_ok]
      cases parsed with
      | error e => exact .waiting (by simp [submittedCode, hparsed]) rfl
      | ok requestJson =>
          have hsubmitted : submittedCode P request = some requestJson.code := by
            simp [submittedCode, hid, hparsed]
          dsimp only
          split_ifs with hcode htries
          · exact .right (hcode ▸ hsubmitted) rfl
          · exact wp_imp (wp_giveUp rfl) fun t r s' h => .last ⟨_, hsubmitted, hcode⟩ htries h
          · exact .wrong ⟨_, hsubmitted, hcode⟩ htries rfl rfl

theorem guessed_resendVerificationCode (hid : request.requestId = .resendVerificationCodeRequest) :
    wp (machine d) (fun _ => submittedCode P request = none)
      (VerificationRequestHandler.resendVerificationCode tries email code username)
      (Guessed P tries email code username request) s := by
  have hnone : submittedCode P request = none := submittedCode_of_ne (by simp [hid])
  unfold VerificationRequestHandler.resendVerificationCode
  simp only [wp_bind]
  refine (wp_external _ _).mpr fun c => ?_
  simp only [ExternalOp.exec, ensures_ok]
  refine (wp_external _ _).mpr fun c' => ?_
  simp only [ExternalOp.exec, ensures_ok]
  cases c'.fails with
  | false => exact .waiting hnone rfl
  | true => exact .waiting hnone rfl

/-- Every request is a guess, leaves the guesses as they are, or is an exit, and one that throws
has compared nothing. -/
theorem guessed_handleRequest :
    wp (machine d) (fun _ => submittedCode P request = none)
      (VerificationRequestHandler.handleRequest P tries email code username request)
      (Guessed P tries email code username request) s := by
  unfold VerificationRequestHandler.handleRequest
  dsimp only
  split_ifs with hrelevant
  · refine .waiting (submittedCode_of_ne ?_) rfl
    rintro hid
    simp [VerificationRequestHandler.isRequestRelevant, hid] at hrelevant
  · split
    · next hid => exact guessed_submitVerificationCode hid
    · next hid => exact guessed_resendVerificationCode hid
    · next hid => exact wp_imp (wp_giveUp rfl) fun t r s' h => .exit hid h
    · next hsubmit _ _ => exact .waiting (submittedCode_of_ne hsubmit) rfl

end Request

/-! ## The life of a handler -/

/-- A signup that moves to the verification starts without a try, and with the code it mailed. -/
theorem wp_signup_verification (request : RequestInfo) (s : Managers) :
    wp (machine d) (fun _ => True) (LoginRequestHandler.signup P request)
      (fun t r _ => ∀ tries email code username,
        r.handler = .verification tries email code username →
        tries = 0 ∧ latestCode t = some code) s := by
  unfold LoginRequestHandler.signup
  simp only [wp_bind]
  apply wp_anything
  intro t₁ parsed s₁
  cases parsed with
  | error e => nofun
  | ok signupRequest =>
      simp only [wp_bind]
      apply wp_anything
      intro t₂ signupRes s₂
      rcases signupRes with e | ⟨_ | _, message⟩
      · nofun
      · nofun
      · simp only [wp_bind]
        refine wp_answer fun code s₃ => wp_answer fun sent s₄ => ?_
        cases sent with
        | none =>
            intro tries email code' username hr
            cases hr
            refine ⟨rfl, ?_⟩
            rw [latestCode_append, latestCode_append]
            rfl
        | some e =>
            simp only [wp_bind]
            refine wp_anything fun t₅ _ s₅ => wp_anything fun t₆ _ s₆ => ?_
            nofun

/-- A request that a verification handler has answered. -/
structure Turn (P : Platform) (d : Bool) where
  tries : UInt32
  email : String
  currentVerificationCode : String
  username : String
  request : RequestInfo
  before : Managers
  calls : List (Event operations)
  answer : RequestResult
  after : Managers
  exec : Exec (machine d) (VerificationRequestHandler.handleRequest P tries email
    currentVerificationCode username request) before calls answer after

def Turn.handler (turn : Turn P d) : Handler :=
  .verification turn.tries turn.email turn.currentVerificationCode turn.username

/-- All calls from a signup on, the requests of its verification handler, and the handler that
comes next. In between, the others may do to the managers what they want. -/
inductive VerificationLife (P : Platform) (d : Bool) :
    List (Event operations) → List (Turn P d) → Handler → Prop
  | signup {request : RequestInfo} {s s' : Managers} {calls : List (Event operations)}
      {answer : RequestResult} :
      Exec (machine d) (LoginRequestHandler.signup P request) s calls answer s' →
      VerificationLife P d calls [] answer.handler
  | turn {calls : List (Event operations)} {turns : List (Turn P d)} (turn : Turn P d) :
      VerificationLife P d calls turns turn.handler →
      VerificationLife P d (calls ++ turn.calls) (turns ++ [turn]) turn.answer.handler

/-- The submitted codes that have been compared with the current one. -/
def comparedCodes (turns : List (Turn P d)) : List String :=
  turns.filterMap fun turn => submittedCode P turn.request

/-- What holds before every request: the tries are the comparisons so far, there are more to come,
and the current code is the one that was mailed last. -/
structure InTime (calls : List (Event operations)) (turns : List (Turn P d)) (tries : UInt32)
    (code : String) : Prop where
  tries_eq : tries.toNat = (comparedCodes turns).length
  tries_lt : tries.toNat < 5
  latest : latestCode calls = some code

theorem toNat_next_try {tries : UInt32} (h : tries.toNat < 5) :
    (tries + 1).toNat = tries.toNat + 1 := by
  rw [UInt32.toNat_add]
  exact Nat.mod_eq_of_lt (show tries.toNat + 1 < 2 ^ 32 by omega)

theorem last_try_iff {tries : UInt32} (h : tries.toNat < 5) :
    5 ≤ tries + 1 ↔ tries.toNat = 4 := by
  rw [UInt32.le_iff_toNat_le, toNat_next_try h]
  change 5 ≤ tries.toNat + 1 ↔ _
  omega

theorem comparedCodes_append (turns : List (Turn P d)) (turn : Turn P d) :
    comparedCodes (turns ++ [turn]) =
      comparedCodes turns ++ (submittedCode P turn.request).toList := by
  rw [comparedCodes, List.filterMap_append]
  cases h : submittedCode P turn.request <;> simp [comparedCodes, h]

theorem InTime.turn {calls : List (Event operations)} {turns : List (Turn P d)} {turn : Turn P d}
    (h : InTime calls turns turn.tries turn.currentVerificationCode) {tries : UInt32}
    {email code username : String}
    (hr : turn.answer.handler = .verification tries email code username) :
    InTime (calls ++ turn.calls) (turns ++ [turn]) tries code := by
  have hlt := h.tries_lt
  cases turn.exec.of_wp guessed_handleRequest with
  | exit _ hgivenUp => cases hgivenUp.handler_eq.symm.trans hr
  | waiting hnone hr' =>
      cases hr'.symm.trans hr
      refine ⟨?_, hlt, ?_⟩
      · rw [comparedCodes_append, hnone, h.tries_eq, Option.toList_none, List.append_nil]
      · rw [latestCode_append, h.latest]
        cases latestCode turn.calls <;> rfl
  | right _ hr' => cases hr'.symm.trans hr
  | wrong hcode htries hlatest hr' =>
      obtain ⟨code', hsubmitted, -⟩ := hcode
      cases hr'.symm.trans hr
      rw [last_try_iff hlt] at htries
      refine ⟨?_, ?_, ?_⟩
      · rw [comparedCodes_append, hsubmitted, toNat_next_try hlt, h.tries_eq]
        simp
      · rw [toNat_next_try hlt]
        omega
      · rw [latestCode_append, hlatest]
        exact h.latest
  | last _ _ hgivenUp => cases hgivenUp.handler_eq.symm.trans hr

theorem VerificationLife.inTime {calls : List (Event operations)} {turns : List (Turn P d)}
    {handler : Handler} (h : VerificationLife P d calls turns handler) :
    ∀ tries email code username, handler = .verification tries email code username →
      InTime calls turns tries code := by
  induction h with
  | signup hx =>
      intro tries email code username hr
      obtain ⟨rfl, hlatest⟩ := hx.of_wp (wp_signup_verification _ _) tries email code username hr
      exact ⟨rfl, by decide, hlatest⟩
  | turn turn hlife ih =>
      intro tries email code username hr
      exact (ih _ _ _ _ rfl).turn hr

/-- A request in a life: at most five codes have been compared with it, it moves to the menu
exactly with the code that was mailed last, a fifth mismatch gives the signup up, and a resend
keeps the tries and, if it fails, the code. One that throws instead has compared nothing. -/
structure FiveGuesses (calls : List (Event operations)) (turns : List (Turn P d))
    (turn : Turn P d) : Prop where
  atMostFive : (comparedCodes (turns ++ [turn])).length ≤ 5
  current : latestCode calls = some turn.currentVerificationCode
  menu_iff : ∀ user, turn.answer.handler = .menu user ↔ user = ⟨turn.username⟩ ∧
    ∃ code, submittedCode P turn.request = some code ∧ latestCode calls = some code
  fifth : (comparedCodes turns).length = 4 → ∀ code, submittedCode P turn.request = some code →
    latestCode calls ≠ some code → GivenUp turn.username turn.calls turn.answer turn.after
  resend : turn.request.requestId = .resendVerificationCodeRequest →
    turn.answer.handler = .verification turn.tries turn.email
      ((latestCode turn.calls).getD turn.currentVerificationCode) turn.username
  throws : ∀ request s e, Faults (machine d) (VerificationRequestHandler.handleRequest P turn.tries
    turn.email turn.currentVerificationCode turn.username request) s e →
    submittedCode P request = none

section Guessed

variable {tries : UInt32} {email code username : String} {request : RequestInfo}
  {calls : List (Event operations)} {answer : RequestResult} {after : Managers}
  (h : Guessed P tries email code username request calls answer after)

include h

theorem Guessed.menu_iff (user : LoggedUser) : answer.handler = .menu user ↔
    user = ⟨username⟩ ∧ submittedCode P request = some code := by
  cases h with
  | exit hid hgivenUp =>
      have hnone : submittedCode P request = none := submittedCode_of_ne (by simp [hid])
      simp [hgivenUp.handler_eq, hnone]
  | waiting hnone hr => simp [hr, hnone]
  | right hcode hr => simp [hr, hcode, eq_comm]
  | wrong hcode _ _ hr =>
      obtain ⟨code', hsubmitted, hne⟩ := hcode
      simp [hr, hsubmitted, hne]
  | last hcode _ hgivenUp =>
      obtain ⟨code', hsubmitted, hne⟩ := hcode
      simp [hgivenUp.handler_eq, hsubmitted, hne]

theorem Guessed.givenUp (htries : 5 ≤ tries + 1) {code' : String}
    (hsubmitted : submittedCode P request = some code') (hne : code' ≠ code) :
    GivenUp username calls answer after := by
  cases h with
  | exit _ hgivenUp => exact hgivenUp
  | waiting hnone _ => cases hnone.symm.trans hsubmitted
  | right hcode _ => exact absurd (Option.some.inj (hsubmitted.symm.trans hcode)) hne
  | wrong _ hmore _ _ => exact absurd htries hmore
  | last _ _ hgivenUp => exact hgivenUp

theorem Guessed.resend (hid : request.requestId = .resendVerificationCodeRequest) :
    answer.handler = .verification tries email ((latestCode calls).getD code) username := by
  have hnone : submittedCode P request = none := submittedCode_of_ne (by simp [hid])
  cases h with
  | exit hexit _ => cases hexit.symm.trans hid
  | waiting _ hr => exact hr
  | right hcode _ => cases hnone.symm.trans hcode
  | wrong hcode _ _ _ | last hcode _ _ =>
      obtain ⟨code', hsubmitted, -⟩ := hcode
      cases hnone.symm.trans hsubmitted

end Guessed

/-- Every request to every handler of a signup, whatever becomes of its mails. -/
theorem fiveGuesses_throughout {calls : List (Event operations)} {turns : List (Turn P d)}
    {turn : Turn P d} (h : VerificationLife P d calls turns turn.handler) :
    FiveGuesses calls turns turn := by
  have htime := h.inTime _ _ _ _ rfl
  have hturn := turn.exec.of_wp guessed_handleRequest
  have hlt := htime.tries_lt
  have hcompared := htime.tries_eq
  constructor
  · rw [comparedCodes_append, List.length_append]
    have hone := Option.length_toList_le (o := submittedCode P turn.request)
    omega
  · exact htime.latest
  · intro user
    rw [hturn.menu_iff, htime.latest]
    simp only [Option.some.injEq, exists_eq_right']
  · intro hfour code hsubmitted hne
    have hcode : code ≠ turn.currentVerificationCode := fun heq => hne (heq ▸ htime.latest)
    exact hturn.givenUp ((last_try_iff hlt).mpr (by omega)) hsubmitted hcode
  · exact hturn.resend
  · exact fun request s e hfault => hfault.of_wp guessed_handleRequest

/-- A turn in which the environment decides as given. -/
theorem exists_turn {tries : UInt32} {email code username : String} {request : RequestInfo}
    {handler : Handler} (outcomes : List Choice)
    (h : (interpreter.run (Op.admits true) (VerificationRequestHandler.handleRequest guessPlatform
      tries email code username request) outcomes (.init .empty)).any
        (fun out => out.2.1.handler = handler) = true) :
    ∃ turn : Turn guessPlatform true, turn.handler = .verification tries email code username ∧
      turn.request = request ∧ turn.answer.handler = handler := by
  obtain ⟨⟨t, r, s'⟩, hrun, hhandler⟩ := (Option.any_eq_true _ _).mp h
  exact ⟨⟨tries, email, code, username, request, _, t, r, s', Interpreter.exec_of_run hrun⟩, rfl,
    rfl, of_decide_eq_true hhandler⟩

/-- The first code is still the right one behind a resend that fails. -/
theorem fiveGuesses_failedResend : ∃ (calls : List (Event operations))
    (turns : List (Turn guessPlatform true)) (turn : Turn guessPlatform true),
    turns.map (·.request.requestId) = [.resendVerificationCodeRequest] ∧
    turn.answer.handler = .menu ⟨"eve"⟩ ∧ FiveGuesses calls turns turn := by
  have hsignup : ((interpreter.run (Op.admits true) (LoginRequestHandler.signup guessPlatform
      (sampleRequest .signupRequest 2)) (List.replicate 10 usual) (.init .empty)).any
        fun out => out.2.1.handler = .verification 0 "eve@mail.com" "000000" "eve") = true := by
    decide +kernel
  obtain ⟨⟨calls, r, s'⟩, hrun, hhandler⟩ := (Option.any_eq_true _ _).mp hsignup
  have hlife := VerificationLife.signup (Interpreter.exec_of_run hrun)
  rw [of_decide_eq_true hhandler] at hlife
  obtain ⟨resend, hresend, hid, hnext⟩ := @exists_turn 0 "eve@mail.com" "000000" "eve"
    ⟨.resendVerificationCodeRequest, []⟩ (.verification 0 "eve@mail.com" "000000" "eve")
    [usual, failing] (by decide +kernel)
  obtain ⟨submit, hsubmit, -, hmenu⟩ := @exists_turn 0 "eve@mail.com" "000000" "eve"
    ⟨.submitVerificationCodeRequest, []⟩ (.menu ⟨"eve"⟩) [] (by decide +kernel)
  have hlife' := VerificationLife.turn resend (hresend ▸ hlife)
  rw [hnext, ← hsubmit] at hlife'
  exact ⟨_, _, submit, by simp [hid], hmenu, fiveGuesses_throughout hlife'⟩

end TriviaServer
