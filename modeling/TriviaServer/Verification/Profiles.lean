import TriviaServer.Verification.Authority
import TriviaServer.Verification.Emails

/-! # The accounts that are stored

What the validator accepts once is kept in the tables: no request writes anything else. -/

namespace TriviaServer

open Interaction

variable {P : Platform} {d : Bool} {s s' : Managers} {h : Handler} {cfg : ServerConfig}
  {database : Database} {user : User}

/-- An account as the messages of the validator describe it. -/
structure User.WellFormed (user : User) : Prop where
  username : 3 ≤ user.username.utf8ByteSize
  password : StrongPassword user.password.toByteArray.data.toList
  email : EmailAddress (user.email.toList.map Char.toLower)
  address : ∃ street apartment city, StreetAddress street apartment city user.address.toList
  phoneNumber : PhoneNumber user.phoneNumber.toList
  avatarColor : ∃ color : AvatarColor, user.avatarColor = color.toByte

/-! ## The checks -/

namespace Validator

theorem isValidUsername_iff {username : String} :
    (isValidUsername username).1 = true ↔ 3 ≤ username.utf8ByteSize := by
  unfold isValidUsername minUsernameLength
  split_ifs with hlength <;> simp [hlength]

theorem isValidPassword_iff {password : String} :
    (isValidPassword P.withExpressions password).1 = true ↔
      StrongPassword password.toByteArray.data.toList := by
  rw [← regexMatch_password]
  unfold isValidPassword minPasswordLength
  constructor
  · intro hvalid
    split_ifs at hvalid with hshort hnot
    simpa [Platform.withExpressions] using hnot
  · intro hmatch
    have hlength : ¬ password.utf8ByteSize < 8 :=
      Nat.not_lt.mpr (regexMatch_password.mp hmatch).length
    have hmatches : P.withExpressions.regexMatch .password password = true := hmatch
    simp [hlength, hmatches]

/-- A check that is a match only. -/
theorem matched_fst {isMatch : Prop} [Decidable isMatch] (message : String) :
    (if isMatch then (true, "") else (false, message)).1 = true ↔ isMatch := by
  split_ifs with h <;> simp [h]

theorem isValidEmail_iff {email : String} : (isValidEmail P.withExpressions email).1 = true ↔
    EmailAddress (email.toList.map Char.toLower) := by
  rw [← String.toList_ofList (l := email.toList.map Char.toLower), ← regexMatch_email,
    isValidEmail, matched_fst, Platform.withExpressions]

theorem isValidAddress_iff {address : String} :
    (isValidAddress P.withExpressions address).1 = true ↔
      ∃ street apartment city, StreetAddress street apartment city address.toList := by
  rw [← regexMatch_address, isValidAddress, matched_fst, Platform.withExpressions]

theorem isValidPhoneNumber_iff {phoneNumber : String} :
    (isValidPhoneNumber P.withExpressions phoneNumber).1 = true ↔
      PhoneNumber phoneNumber.toList := by
  rw [← regexMatch_phoneNumber, isValidPhoneNumber, matched_fst, Platform.withExpressions]

end Validator

/-- The validator accepts the well-formed accounts. -/
theorem User.accepted_iff : user.Accepted P.withExpressions ↔ user.WellFormed := by
  constructor
  · intro haccepted
    constructor
    · exact Validator.isValidUsername_iff.mp haccepted.username
    · exact Validator.isValidPassword_iff.mp (haccepted.password _ rfl)
    · exact Validator.isValidEmail_iff.mp haccepted.email
    · exact Validator.isValidAddress_iff.mp haccepted.address
    · exact Validator.isValidPhoneNumber_iff.mp haccepted.phoneNumber
    · exact haccepted.avatarColor
  · intro hwell
    constructor
    · constructor
      · exact Validator.isValidAddress_iff.mpr hwell.address
      · exact Validator.isValidPhoneNumber_iff.mpr hwell.phoneNumber
      · rintro _ ⟨⟩
        exact Validator.isValidPassword_iff.mpr hwell.password
      · exact hwell.avatarColor
    · exact Validator.isValidUsername_iff.mpr hwell.username
    · exact Validator.isValidEmail_iff.mpr hwell.email

/-! ## Runs -/

theorem AccountChange.accepted {before : Option User}
    (hchange : AccountChange P h before (some user)) (hbefore : ∀ u ∈ before, u.Accepted P) :
    user.Accepted P := by
  cases hchange with
  | signedUp haccepted => exact haccepted
  | @updated u address phoneNumber password avatarColor hupdate =>
      have hu := hbefore u rfl
      refine ⟨⟨hupdate.address, hupdate.phoneNumber, ?_, hupdate.avatarColor⟩, hu.username,
        hu.email⟩
      rintro _ ⟨⟩
      cases password with
      | none => exact hu.password _ rfl
      | some text => exact hupdate.password text rfl

theorem Database.user?_of_mem (hmem : user ∈ database.users) :
    database.user? user.id = some user := by
  cases hfound : database.user? user.id with
  | none =>
      simp only [Database.user?, List.find?_eq_none] at hfound
      exact absurd (beq_self_eq_true user.id) (by simpa using hfound user hmem)
  | some other =>
      simp only [Database.user?] at hfound
      have hid : other.id = user.id := by simpa using List.find?_some hfound
      rw [Database.user_eq_of_id (List.mem_of_find?_eq_some hfound) hmem hid]

/-- A call that a handler may make keeps every account accepted. -/
theorem accepted_step {o : Op} {r : o.Answer} (hs : ∀ user ∈ s.database.users, user.Accepted P)
    (ho : h.MayCall P o) (hstep : (machine d).Step o s r s') :
    ∀ user ∈ s'.database.users, user.Accepted P := by
  intro user hmem
  have hfound := Database.user?_of_mem hmem
  rcases accountChange_of_step ho hstep user.id with hsame | hchange
  · rw [hsame] at hfound
    exact hs user (List.mem_of_find?_eq_some hfound)
  · rw [hfound] at hchange
    exact hchange.accepted fun u hu => hs u (List.mem_of_find?_eq_some hu)

/-- What the tables hold at the start and whatever is done later, every account is accepted. -/
theorem accounts_accepted (hstart : ∀ user ∈ database.users, user.Accepted P)
    (hrun : Service.Reachable (handleClient P) (machine d) (fun _ _ => True)
      (ServerConfig.init database) cfg) : ∀ user ∈ cfg.shared.database.users, user.Accepted P := by
  induction hrun with
  | refl => exact hstart
  | tail hprev hs ih =>
      obtain ⟨l, -, hstep⟩ := hs
      rcases shared_change ⟨database, hprev⟩ hstep with hsame | ⟨h, o, r, -, ho, hcall⟩
      · rwa [hsame]
      · exact accepted_step ih ho hcall

/-- If the accounts of the tables are well formed, they are so in every run. -/
theorem accounts_wellFormed (hstart : ∀ user ∈ database.users, user.WellFormed)
    (hrun : Service.Reachable (handleClient P.withExpressions) (machine d) (fun _ _ => True)
      (ServerConfig.init database) cfg) :
    ∀ user ∈ cfg.shared.database.users, user.WellFormed := by
  intro user hmem
  have haccepted := accounts_accepted (fun u hu => User.accepted_iff.mpr (hstart u hu)) hrun
  exact User.accepted_iff.mp (haccepted user hmem)

/-- `eve` signs up, up to the moment when her account is in the tables. -/
def signupStored : List ServerPlay :=
  [.connect 0, .receive 0 (sampleRequest .signupRequest 2)] ++ calls 0 (List.replicate 5 usual)

theorem accounts_wellFormed_eve : ∃ (cfg : ServerConfig) (user : User),
    user ∈ cfg.shared.database.users ∧ user.username = "eve" ∧ user.WellFormed := by
  have hrun : ((replayServer samplePlatform.withExpressions true .empty signupStored).any fun cfg =>
      cfg.shared.database.users.head?.any (·.username = "eve")) = true := by decide +kernel
  obtain ⟨cfg, hcfg, hcheck⟩ := (Option.any_eq_true _ _).mp hrun
  obtain ⟨user, hhead, hname⟩ := (Option.any_eq_true _ _).mp hcheck
  have hmem := List.mem_of_mem_head? hhead
  exact ⟨cfg, user, hmem, of_decide_eq_true hname,
    accounts_wellFormed (fun _ h => absurd h List.not_mem_nil)
      (reachable_of_replay hcfg fun _ _ _ => trivial) user hmem⟩

end TriviaServer
