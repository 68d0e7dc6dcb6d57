import TriviaServer.Model.Managers
import TriviaServer.Regex.Spans

/-! # The birthdays that are accepted

The three formats differ in their separator only. A birthday is at least 16 and at most 150 years
old in the sense of the code if it is that many times 365 days old, which is less at both ends by
the leap days. -/

namespace TriviaServer

open Calendar Regex

/-! ## The formats -/

/-- A number of this many digits. -/
structure Digits (least most : ℕ) (text : List Char) : Prop where
  isDigit : ∀ c ∈ text, c.isDigit = true
  least_le : least ≤ text.length
  le_most : text.length ≤ most

instance (least most : ℕ) (text : List Char) : Decidable (Digits least most text) :=
  decidable_of_iff
    (text.all Char.isDigit = true ∧ least ≤ text.length ∧ text.length ≤ most)
    ⟨fun h => ⟨List.all_eq_true.mp h.1, h.2.1, h.2.2⟩,
      fun h => ⟨List.all_eq_true.mpr h.isDigit, h.least_le, h.le_most⟩⟩

/-- A day, a month and a year with this separator between them. -/
structure Formatted (separator : Char) (text day month year : List Char) : Prop where
  day_digits : Digits 1 2 day
  month_digits : Digits 1 2 month
  year_digits : Digits 4 4 year
  text_eq : text = day ++ separator :: (month ++ separator :: year)

/-- A birthday names a date in one of the formats. -/
def Names (birthday : String) (date : YearMonthDay) : Prop :=
  ∃ separator ∈ ['.', '/', '-'], ∃ day month year,
    Formatted separator birthday.toList day month year ∧
      date = ⟨Validator.stoi year, Validator.stoi month, Validator.stoi day⟩

/-- What stands before the first character that is not one of a class. -/
theorem split_unique {α : Type} {p : α → Bool} {l l' r r' : List α} {a a' : α}
    (hl : ∀ c ∈ l, p c = true) (hl' : ∀ c ∈ l', p c = true) (ha : p a = false)
    (ha' : p a' = false) (h : l ++ a :: r = l' ++ a' :: r') : l = l' ∧ a = a' ∧ r = r' := by
  have htake (l r : List α) (a : α) (hl : ∀ c ∈ l, p c = true) (ha : p a = false) :
      (l ++ a :: r).takeWhile p = l := by
    rw [List.takeWhile_append_of_pos hl, List.takeWhile_cons_of_neg (by simp [ha]), List.append_nil]
  have heq : l = l' := by rw [← htake l r a hl ha, h, htake l' r' a' hl' ha']
  subst heq
  exact ⟨rfl, List.cons.inj (List.append_cancel_left h)⟩

/-- A text has one format at most, and is read in one way. -/
theorem Formatted.unique {separator separator' : Char}
    {text day month year day' month' year' : List Char}
    (h : Formatted separator text day month year)
    (h' : Formatted separator' text day' month' year') (hseparator : separator.isDigit = false)
    (hseparator' : separator'.isDigit = false) :
    separator = separator' ∧ day = day' ∧ month = month' ∧ year = year' := by
  obtain ⟨rfl, rfl, hrest⟩ := split_unique h.day_digits.isDigit h'.day_digits.isDigit hseparator
    hseparator' (h.text_eq.symm.trans h'.text_eq)
  obtain ⟨rfl, -, rfl⟩ := split_unique h.month_digits.isDigit h'.month_digits.isDigit hseparator
    hseparator hrest
  exact ⟨rfl, rfl, rfl, rfl⟩

namespace Validator

variable {separator : Char} {seen text rest : List Char}

theorem spans_digits_iff {required more : ℕ} :
    (Pattern.repeated digit required more).Spans seen text rest ↔
      Digits required (required + more) text := by
  rw [digit, Pattern.spans_repeated_char]
  exact ⟨fun ⟨h, hle, hge⟩ => ⟨h, hle, hge⟩, fun ⟨h, hle, hge⟩ => ⟨h, hle, hge⟩⟩

/-- A match captures the three numbers. -/
theorem regexMatch_date {groups : List (ℕ × List Char)}
    (h : (dateRegex separator).regexMatch text = some groups) :
    ∃ day month year, Formatted separator text day month year ∧
      groups = [(3, year), (2, month), (1, day)] := by
  obtain ⟨y, hy, hend, rfl⟩ := Pattern.exists_run_of_regexMatch h
  simp only [dateRegex, Pattern.mem_run_seq] at hy
  obtain ⟨x₁, h₁, x₂, h₂, x₃, h₃, x₄, h₄, x₅, h₅, x₆, h₆, h₇⟩ := hy
  obtain ⟨_, ⟨-, hrest₁⟩, ⟨rfl, -⟩, hgroups₁⟩ := Pattern.mem_run rfl h₁
  obtain ⟨day, ⟨-, hrest₂⟩, hday, hgroups₂⟩ := Pattern.mem_run_group rfl h₂
  obtain ⟨_, ⟨-, hrest₃⟩, hseparator, hgroups₃⟩ := Pattern.mem_run rfl h₃
  obtain ⟨month, ⟨-, hrest₄⟩, hmonth, hgroups₄⟩ := Pattern.mem_run_group rfl h₄
  obtain ⟨_, ⟨-, hrest₅⟩, hseparator', hgroups₅⟩ := Pattern.mem_run rfl h₅
  obtain ⟨year, ⟨-, hrest₆⟩, hyear, hgroups₆⟩ := Pattern.mem_run_group rfl h₆
  obtain ⟨_, ⟨-, hrest₇⟩, ⟨rfl, -⟩, hgroups₇⟩ := Pattern.mem_run rfl h₇
  obtain rfl := spans_single.mp hseparator
  obtain rfl := spans_single.mp hseparator'
  refine ⟨day, month, year, ⟨spans_digits_iff.mp hday, spans_digits_iff.mp hmonth,
    spans_digits_iff.mp hyear, ?_⟩, ?_⟩
  · change text = _ at hrest₁
    rw [hrest₁, hrest₂, hrest₃, hrest₄, hrest₅, hrest₆, hrest₇, hend]
    simp
  · rw [hgroups₇, hgroups₆, hgroups₅, hgroups₄, hgroups₃, hgroups₂, hgroups₁]

theorem regexMatch_date_isSome {day month year : List Char}
    (h : Formatted separator text day month year) :
    ((dateRegex separator).regexMatch text).isSome = true := by
  rw [Pattern.regexMatch_isSome_iff, h.text_eq]
  refine ⟨[], _, rfl, ⟨rfl, rfl⟩, day, _, rfl, spans_digits_iff.mpr h.day_digits,
    [separator], _, rfl, spans_single.mpr rfl, month, _, rfl, spans_digits_iff.mpr h.month_digits,
    [separator], _, rfl, spans_single.mpr rfl, year, [], (List.append_nil _).symm,
    spans_digits_iff.mpr h.year_digits, rfl, rfl⟩

/-- As many days old as the limits have years of 365 days. -/
def AgedInDays (today : ℤ) (date : YearMonthDay) : Prop :=
  date.dayNumber ≤ today - 365 * 16 ∧ today - 365 * 150 ≤ date.dayNumber

variable {today : ℤ} {birthday : String}

/-- A birthday in the format is matched, and valid if it is a date of the right age in days. -/
theorem isValidBirthdayMatch_of_formatted {day month year : List Char}
    (h : Formatted separator birthday.toList day month year)
    (hseparator : separator.isDigit = false) :
    (isValidBirthdayMatch today (dateRegex separator) birthday).1 = true ∧
      ((isValidBirthdayMatch today (dateRegex separator) birthday).2.1 = true ↔
        YearMonthDay.ok ⟨stoi year, stoi month, stoi day⟩ = true ∧
          AgedInDays today ⟨stoi year, stoi month, stoi day⟩) := by
  obtain ⟨groups, hmatch⟩ := Option.isSome_iff_exists.mp (regexMatch_date_isSome h)
  obtain ⟨day', month', year', h', rfl⟩ := regexMatch_date hmatch
  obtain ⟨-, rfl, rfl, rfl⟩ := h.unique h' hseparator hseparator
  generalize hdate : (⟨stoi year, stoi month, stoi day⟩ : YearMonthDay) = date
  have hresult : isValidBirthdayMatch today (dateRegex separator) birthday =
      if !date.ok then (true, false, "Invalid birthday. Date should be a legal date.")
      else if date.dayNumber > today - 365 * 16 then
        (true, false, "Invalid birthday. Must be older than 16 years.")
      else if date.dayNumber < today - 365 * 150 then
        (true, false, "Invalid birthday. Must be younger than 150 years.")
      else (true, true, "") := by
    rw [isValidBirthdayMatch, hmatch, ← hdate]
    rfl
  rw [hresult, AgedInDays]
  split_ifs with hok hyoung hold
  · exact ⟨rfl, iff_of_false not_false fun h => by simp [h.1] at hok⟩
  · exact ⟨rfl, iff_of_false not_false fun h => absurd h.2.1 (not_le.mpr hyoung)⟩
  · exact ⟨rfl, iff_of_false not_false fun h => absurd h.2.2 (not_le.mpr hold)⟩
  · exact ⟨rfl, iff_of_true rfl ⟨by simpa using hok, not_lt.mp hyoung, not_lt.mp hold⟩⟩

theorem isValidBirthdayMatch_of_not_formatted
    (h : ∀ day month year, ¬ Formatted separator birthday.toList day month year) :
    (isValidBirthdayMatch today (dateRegex separator) birthday).1 = false := by
  cases hmatch : (dateRegex separator).regexMatch birthday.toList with
  | none => rw [isValidBirthdayMatch, hmatch]
  | some groups =>
      obtain ⟨day, month, year, hformatted, -⟩ := regexMatch_date hmatch
      exact absurd hformatted (h day month year)

theorem isDigit_separator (h : separator ∈ ['.', '/', '-']) : separator.isDigit = false := by
  simp only [List.mem_cons, List.not_mem_nil, or_false] at h
  rcases h with rfl | rfl | rfl <;> rfl

/-- Of the three matches that of the birthday's format decides. -/
theorem isValidBirthday_of_formatted {day month year : List Char}
    (hmem : separator ∈ ['.', '/', '-'])
    (h : Formatted separator birthday.toList day month year) :
    (isValidBirthday today birthday).1 =
      (isValidBirthdayMatch today (dateRegex separator) birthday).2.1 := by
  have hmatched : (isValidBirthdayMatch today (dateRegex separator) birthday).1 = true :=
    (isValidBirthdayMatch_of_formatted h (isDigit_separator hmem)).1
  have hothers (separator' : Char) (hmem' : separator' ∈ ['.', '/', '-'])
      (hne : separator' ≠ separator) :
      (isValidBirthdayMatch today (dateRegex separator') birthday).1 = false :=
    isValidBirthdayMatch_of_not_formatted fun _ _ _ h' =>
      hne (h'.unique h (isDigit_separator hmem') (isDigit_separator hmem)).1
  have hdecides (valid : Bool) (message : String) :
      (if valid then (true, "") else (false, message)).1 = valid := by
    cases valid <;> rfl
  unfold isValidBirthday dateRegex1 dateRegex2 dateRegex3
  dsimp only
  simp only [List.mem_cons, List.not_mem_nil, or_false] at hmem
  rcases hmem with rfl | rfl | rfl
  · rw [hmatched, if_pos rfl, hdecides]
  · rw [hothers '.' (by simp) (by decide), hmatched, if_neg Bool.false_ne_true, if_pos rfl,
      hdecides]
  · rw [hothers '.' (by simp) (by decide), hothers '/' (by simp) (by decide), hmatched,
      if_neg Bool.false_ne_true, if_neg Bool.false_ne_true, if_pos rfl, hdecides]

theorem isValidBirthday_of_not_formatted (h : ∀ separator ∈ ['.', '/', '-'],
    ∀ day month year, ¬ Formatted separator birthday.toList day month year) :
    (isValidBirthday today birthday).1 = false := by
  have hnone (separator : Char) (hmem : separator ∈ ['.', '/', '-']) :
      (isValidBirthdayMatch today (dateRegex separator) birthday).1 = false :=
    isValidBirthdayMatch_of_not_formatted (h separator hmem)
  unfold isValidBirthday dateRegex1 dateRegex2 dateRegex3
  dsimp only
  rw [hnone '.' (by simp), hnone '/' (by simp), hnone '-' (by simp)]
  rfl

/-- A birthday is accepted if it names a date of the right age in days. -/
theorem isValidBirthday_accepts : (isValidBirthday today birthday).1 = true ↔
    ∃ date, Names birthday date ∧ date.ok = true ∧ AgedInDays today date := by
  by_cases hformat : ∃ separator ∈ ['.', '/', '-'], ∃ day month year,
      Formatted separator birthday.toList day month year
  · obtain ⟨separator, hmem, day, month, year, h⟩ := hformat
    rw [isValidBirthday_of_formatted hmem h,
      (isValidBirthdayMatch_of_formatted h (isDigit_separator hmem)).2]
    constructor
    · exact fun haged => ⟨_, ⟨separator, hmem, day, month, year, h, rfl⟩, haged⟩
    · rintro ⟨_, ⟨separator', hmem', day', month', year', h', rfl⟩, haged⟩
      obtain ⟨rfl, rfl, rfl, rfl⟩ :=
        h.unique h' (isDigit_separator hmem) (isDigit_separator hmem')
      exact haged
  · rw [isValidBirthday_of_not_formatted fun separator hmem day month year h =>
      hformat ⟨separator, hmem, day, month, year, h⟩]
    refine iff_of_false Bool.false_ne_true ?_
    rintro ⟨_, ⟨separator, hmem, day, month, year, h, -⟩, -⟩
    exact hformat ⟨separator, hmem, day, month, year, h⟩

end Validator

theorem firstInvalid_valid {checks : List (Bool × String)} (h : (firstInvalid checks).1 = true) :
    ∀ check ∈ checks, check.1 = true := by
  induction checks with
  | nil => exact List.forall_mem_nil _
  | cons check checks ih =>
      obtain ⟨valid, message⟩ := check
      cases valid with
      | true => exact List.forall_mem_cons.mpr ⟨rfl, ih h⟩
      | false => cases h

/-- Where birthdays are checked on this day, a signup whose credentials are valid has one of the
right age in days. -/
theorem isValidSignupCredentials_aged {P : Platform} {today : ℤ}
    (hP : P.isValidBirthday = Validator.isValidBirthday today)
    {username password email address phoneNumber birthday : String}
    (h : (LoginManager.isValidSignupCredentials P username password email address phoneNumber
      birthday).1 = true) :
    ∃ date, Names birthday date ∧ date.ok = true ∧ Validator.AgedInDays today date := by
  have hvalid := firstInvalid_valid h (P.isValidBirthday birthday) (by simp)
  rw [hP] at hvalid
  exact Validator.isValidBirthday_accepts.mp hvalid

/-! ## Ages in calendar years -/

/-- The sixteenth birthday has been reached, and the hundred and fiftieth has not been passed. -/
def AgedInYears (today : ℤ) (date : YearMonthDay) : Prop :=
  date.anniversary 16 ≤ today ∧ today ≤ date.anniversary 150

/-- The birthdays that are accepted are the dates of people between 16 and 150 years old. -/
def AcceptsByYears (today : ℤ) (birthday : String) : Prop :=
  (Validator.isValidBirthday today birthday).1 = true ↔
    ∃ date, Names birthday date ∧ date.ok = true ∧ AgedInYears today date

/-- Neither is the sixteenth birthday ahead by at most the leap days of sixteen years, nor the
hundred and fiftieth by less than those of so many years. -/
structure ClearOfLimits (today : ℤ) (date : YearMonthDay) : Prop where
  sixteen : ¬ (today < date.anniversary 16 ∧ date.anniversary 16 ≤ today + date.leapDays 16)
  hundredFifty :
    ¬ (today ≤ date.anniversary 150 ∧ date.anniversary 150 < today + date.leapDays 150)

variable {today : ℤ} {birthday : String}

theorem aged_iff (date : YearMonthDay) :
    (Validator.AgedInDays today date ↔ AgedInYears today date) ↔ ClearOfLimits today date := by
  have hsixteen := date.leapDays_sixteen
  have hhundredFifty := date.leapDays_hundredFifty
  have hlimit : date.anniversary 16 = date.dayNumber + 365 * 16 + date.leapDays 16 := by
    rw [YearMonthDay.leapDays]
    omega
  have hlimit' : date.anniversary 150 = date.dayNumber + 365 * 150 + date.leapDays 150 := by
    rw [YearMonthDay.leapDays]
    omega
  rw [Validator.AgedInDays, AgedInYears]
  constructor
  · intro h
    constructor
    · omega
    · omega
  · rintro ⟨hyoung, hold⟩
    omega

theorem Names.unique {date date' : YearMonthDay} (h : Names birthday date)
    (h' : Names birthday date') : date = date' := by
  obtain ⟨separator, hmem, day, month, year, hformatted, rfl⟩ := h
  obtain ⟨separator', hmem', day', month', year', hformatted', rfl⟩ := h'
  obtain ⟨-, rfl, rfl, rfl⟩ := hformatted.unique hformatted' (Validator.isDigit_separator hmem)
    (Validator.isDigit_separator hmem')
  rfl

/-- The ages are those in years, except for the dates whose limits are only some leap days away. -/
theorem acceptsByYears_iff (today : ℤ) (birthday : String) : AcceptsByYears today birthday ↔
    ∀ date, Names birthday date → date.ok = true → ClearOfLimits today date := by
  rw [AcceptsByYears, Validator.isValidBirthday_accepts]
  constructor
  · intro h date hnames hok
    rw [← aged_iff]
    constructor
    · intro haged
      obtain ⟨date', hnames', -, haged'⟩ := h.mp ⟨date, hnames, hok, haged⟩
      exact hnames.unique hnames' ▸ haged'
    · intro haged
      obtain ⟨date', hnames', -, haged'⟩ := h.mpr ⟨date, hnames, hok, haged⟩
      exact hnames.unique hnames' ▸ haged'
  · intro h
    refine exists_congr fun date => and_congr_right fun hnames => and_congr_right fun hok => ?_
    exact (aged_iff date).mpr (h date hnames hok)

/-- On 1 January 2024 somebody is accepted who turns 16 four days later. -/
theorem not_acceptsByYears :
    ¬ ∀ (today : ℤ) (birthday : String), AcceptsByYears today birthday := by
  intro h
  have hnames : Names "5.1.2008" ⟨2008, 1, 5⟩ :=
    ⟨'.', by simp, ['5'], ['1'], ['2', '0', '0', '8'],
      ⟨by decide, by decide, by decide, by decide⟩, by decide⟩
  obtain ⟨date, hnames', -, hsixteen, -⟩ :=
    (h (YearMonthDay.dayNumber ⟨2024, 1, 1⟩) "5.1.2008").mp (by decide +kernel)
  rw [← hnames.unique hnames'] at hsixteen
  exact absurd hsixteen (by decide)

end TriviaServer
