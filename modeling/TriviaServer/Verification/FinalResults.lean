import TriviaServer.Verification.Lobby
import TriviaServer.Verification.Replays

/-! # A booked result is final

The booking of a player who leaves a running game does not ask whether the result is booked
already. While nobody with a booked result leaves the running game again or answers in it,
every result is booked at most once and stays what was booked. -/

namespace TriviaServer

open Interaction

variable {P : Platform} {s s' : Managers} {t : List (Event operations)} {g : String}
  {user : LoggedUser}

/-! ## The bookings of a run -/

/-- A new game of the uuid starts without bookings. -/
def bookedAfter (g : String) (user : LoggedUser) (booked : List GameData)
    (e : Event operations) : List GameData :=
  match e with
  | ⟨.game (.pushGame _ _ uuid _), _⟩ => if uuid = g then [] else booked
  | ⟨.game (.submitting g' user' data), _⟩ =>
      if g' = g ∧ user' = user then booked ++ [data] else booked
  | _ => booked

/-- What has been booked for the user in the last game of the uuid. -/
def bookedResults (g : String) (user : LoggedUser) (trace : ServerTrace) : List GameData :=
  trace.foldl (fun booked e =>
    match e.2 with
    | .called e => bookedAfter g user booked e
    | _ => booked) []

theorem bookedResults_request (trace : ServerTrace) (c : ℕ) (session : Session)
    (request : RequestInfo) (r : RequestResult) (next : Option Session) :
    bookedResults g user (trace ++ ((c, .received session request) ::
        t.map fun e => (c, .called e)) ++ [(c, .finished session request r next)]) =
      t.foldl (bookedAfter g user) (bookedResults g user trace) := by
  simp only [bookedResults, List.foldl_append, List.foldl_cons, List.foldl_nil, List.foldl_map]

theorem bookedAfter_silent {e : Event operations} (he : e.1.Silent) (booked : List GameData) :
    bookedAfter g user booked e = booked := by
  unfold bookedAfter
  split
  · exact he.elim
  · exact he.elim
  · rfl

theorem foldl_silent (ht : Silent t) (booked : List GameData) :
    t.foldl (bookedAfter g user) booked = booked := by
  induction t with
  | nil => rfl
  | cons e t ih =>
      rw [List.foldl_cons, bookedAfter_silent (ht e List.mem_cons_self)]
      exact ih fun e' he' => ht e' (List.mem_cons_of_mem _ he')

/-- Calls that only book in one game. -/
theorem foldl_silentBut {g' : String} (ht : SilentBut g' t) (booked : List GameData) :
    t.foldl (bookedAfter g user) booked =
      booked ++ if g' = g then submissionsOf g user t else [] := by
  induction t generalizing booked with
  | nil => simp
  | cons e t ih =>
      have hrest := ih (fun e' he' => ht e' (List.mem_cons_of_mem _ he'))
        (bookedAfter g user booked e)
      rw [List.foldl_cons, hrest]
      rcases ht e List.mem_cons_self with he | ⟨p, data, he⟩
      · have hnone : submissionsOf g user (e :: t) = submissionsOf g user t := by
          refine List.filterMap_cons_none ?_
          split
          · exact he.elim
          · rfl
        rw [bookedAfter_silent he, hnone]
      · obtain ⟨o, r⟩ := e
        obtain rfl : o = _ := he
        by_cases hg : g' = g
        · subst hg
          by_cases hp : p = user <;>
            simp [bookedAfter, submissionsOf, hp]
        · simp [bookedAfter, hg]

/-! ## One player's bookings -/

/-- The bookings of a player and its entry: none while it is not marked, then the one that the
entry repeats, of a player who is punished or in a game that has ended. -/
inductive Booked (ended : Bool) (data : GameData) : List GameData → Prop
  | unmarked : data.isScoreSubmittedToDB = false → Booked ended data []
  | marked (x : GameData) : data.isScoreSubmittedToDB = true → data.answers = x.answers →
      data.isPunished = x.isPunished → (data.isPunished = true ∨ ended = true) →
      Booked ended data [x]

namespace Booked

variable {ended ended' : Bool} {data : GameData} {booked : List GameData}

theorem length_le_one (h : Booked ended data booked) : booked.length ≤ 1 := by
  cases h <;> simp

theorem final (h : Booked ended data booked) :
    ∀ x ∈ booked, data.answers = x.answers ∧ data.isPunished = x.isPunished := by
  cases h with
  | unmarked => exact nofun
  | marked x _ hanswers hpunished _ =>
      intro y hy
      rw [List.mem_singleton.mp hy]
      exact ⟨hanswers, hpunished⟩

theorem mono (h : Booked ended data booked) (hended : ended = true → ended' = true) :
    Booked ended' data booked := by
  cases h with
  | unmarked hmark => exact .unmarked hmark
  | marked x hmark hanswers hpunished hlast =>
      exact .marked x hmark hanswers hpunished (hlast.imp_right hended)

/-- A removal of somebody from the game, with its three readings. -/
theorem depart {leaver f₁ f₂ f₃ : Bool} (h : Booked ended data booked)
    (h₁ : ended = true → f₁ = true) (h₂ : f₁ = true → f₂ = true) (h₃ : f₂ = true → f₃ = true)
    (hagain : leaver = true → data.isScoreSubmittedToDB = true → f₂ = true) :
    Booked f₃ (data.flag (leaver && !f₁) ((leaver && !f₂) || f₃))
      (booked ++ data.booked leaver f₁ f₂ f₃) := by
  cases h with
  | unmarked hmark =>
      rw [List.nil_append]
      cases hrunning : leaver && !f₂ with
      | true =>
          -- the leaver's own booking, of an entry that was punished before
          obtain ⟨rfl, hf₂⟩ : leaver = true ∧ f₂ = false := by simpa using hrunning
          have hf₁ : f₁ = false := Bool.eq_false_iff.mpr fun hf => by simp [h₂ hf] at hf₂
          simp only [GameData.booked, hf₁, hf₂, Bool.not_false, Bool.and_self, if_true,
            Bool.true_or]
          exact .marked _ (by simp [GameData.flag]) rfl rfl (.inl (by simp [GameData.flag]))
      | false =>
          cases f₃ with
          | true =>
              simp only [GameData.booked, hrunning, Bool.false_eq_true, if_false, if_true,
                Bool.or_true, GameData.due, GameData.flag, hmark, Bool.or_false]
              exact .marked _ rfl rfl rfl (.inr rfl)
          | false =>
              simp only [GameData.booked, hrunning, Bool.false_eq_true, if_false, Bool.or_false]
              exact .unmarked (by simp [GameData.flag, hmark])
  | marked x hmark hanswers hpunished hlast =>
      have hnone : data.booked leaver f₁ f₂ f₃ = [] := by
        have hleft : (leaver && !f₂) = false := by
          cases leaver with
          | true => simp [hagain rfl hmark]
          | false => rfl
        cases f₃ <;> simp [GameData.booked, hleft, GameData.due, GameData.flag, hmark]
      rw [hnone, List.append_nil]
      have hkept : (data.isPunished || (leaver && !f₁)) = data.isPunished := by
        rcases hlast with hlast | hlast
        · simp [hlast]
        · simp [h₁ hlast]
      refine .marked x (by simp [GameData.flag, hmark]) hanswers (hkept.trans hpunished) ?_
      exact hlast.imp (fun hlast => hkept.trans hlast) fun hlast => h₃ (h₂ (h₁ hlast))

theorem answered {answerIndex answerTime : UInt32} {questionIndex : ℕ}
    (h : Booked ended data booked) (hmark : data.isScoreSubmittedToDB = false) :
    Booked ended (data.submitAnswer answerIndex questionIndex answerTime) booked := by
  cases h with
  | unmarked => exact .unmarked hmark
  | marked x hmarked => exact nomatch hmark.symm.trans hmarked

end Booked

/-! ## One move -/

/-- What a departure does to the players' entries, whoever is left. -/
theorem Leaves.spec {gm : Game} (h : Leaves s g user gm t s')
    (hnodup : (s.games.map Game.uuid).Nodup) :
    ∃ k₁ k₂ players, s.clock ≤ k₁ ∧ k₁ ≤ k₂ ∧ k₂ ≤ s'.clock ∧
      [gm.isFinished k₁, gm.isFinished k₂, gm.isFinished s'.clock] <:+ readingsOf t ∧
      Flagged gm.players players (fun p => decide (p = user) && !gm.isFinished k₁)
        (fun p => (decide (p = user) && !gm.isFinished k₂) || gm.isFinished s'.clock) ∧
      (∀ p, submissionsOf g p t = (gm.players[p]?.map fun data =>
        data.booked (decide (p = user)) (gm.isFinished k₁) (gm.isFinished k₂)
          (gm.isFinished s'.clock)).getD []) ∧
      ∀ gm', s'.game? g = some gm' → gm' = (gm.removePlayer user).setPlayers players := by
  obtain ⟨s₀, k₁, k₂, k₃, players, db, t₀, r, hgames, hclock, hd, hgames', rfl, hsubs, hsuffix⟩ :=
    h.departure
  refine ⟨k₁, k₂, players, hclock.trans hd.clock₁, hd.clock₂, hd.clock₃, hd.readings ▸ hsuffix,
    hd.flags, fun p => (hsubs p).trans (hd.submissions p), fun gm' hgm' => ?_⟩
  rw [game?_of_games hgames'] at hgm'
  by_cases hleft : (gm.removePlayer user).onlinePlayers = []
  · have hgone := depart_gone (game?_uuid h.found) (hgames ▸ hnodup) hleft gm'
      (List.mem_of_find?_eq_some hgm')
    exact absurd (game?_uuid hgm') hgone
  · have hfound : s₀.game? g = some gm := (game?_of_games hgames g).trans h.found
    exact Option.some.inj (hgm'.symm.trans (depart_present hfound hleft))

/-- The bookings so far and the entries of the games that are there. -/
structure ResultBook (s : Managers) (booked : String → LoggedUser → List GameData) : Prop where
  once : ∀ g user, (booked g user).length ≤ 1
  entries : ∀ g gm user data, s.game? g = some gm → gm.players[user]? = some data →
    Booked (gm.isFinished s.clock) data (booked g user)

/-- The result of the seat's user in the room's game is marked as booked. -/
def isBooked (s : Managers) : Seat → Bool
  | .member g user | .player g user => (s.game? g).any fun gm =>
      (gm.players[user]?).any (·.isScoreSubmittedToDB)
  | _ => false

/-- A call of `checkAnswer` that accepts the answer. -/
def acceptsAnswer (e : Event operations) : Bool :=
  match e with
  | ⟨.game (.checkAnswer ..), .ok _⟩ => true
  | _ => false

/-- No answer is accepted in the request, and the last reading of the clock but one, which a
removal from a game makes before its own booking, does not find a game running. -/
def keepsResult (calls : List (Event operations)) : Bool :=
  (readingsOf calls).dropLast.getLast? ≠ some false && calls.all (!acceptsAnswer ·)

theorem keepsResult_iff : keepsResult t = true ↔
    (readingsOf t).dropLast.getLast? ≠ some false ∧ ∀ e ∈ t, acceptsAnswer e = false := by
  simp [keepsResult]

namespace ResultBook

variable {booked : String → LoggedUser → List GameData}

/-- Nothing is booked in games that stay as they are. -/
theorem same (h : ResultBook s booked) (hgames : s'.games = s.games) (hclock : s.clock ≤ s'.clock)
    (ht : ∀ g user booked, t.foldl (bookedAfter g user) booked = booked) :
    ResultBook s' fun g user => t.foldl (bookedAfter g user) (booked g user) where
  once g user := by
    rw [ht]
    exact h.once g user
  entries g gm user data hg hp := by
    rw [ht]
    rw [game?_of_games hgames] at hg
    exact (h.entries g gm user data hg hp).mono (Game.isFinished_mono hclock)

theorem leaves {g : String} {user : LoggedUser} {gm : Game} (h : ResultBook s booked)
    (hnodup : (s.games.map Game.uuid).Nodup) (hclock : s.clock ≤ s'.clock)
    (hl : Leaves s g user gm t s')
    (hkeeps : ∀ data, gm.players[user]? = some data → data.isScoreSubmittedToDB = true →
      keepsResult t = true) :
    ResultBook s' fun g user => t.foldl (bookedAfter g user) (booked g user) := by
  obtain ⟨k₁, k₂, players, hk₁, hk₂, hk₃, ⟨before, hreadings⟩, hflags, hsubs, hgame⟩ :=
    hl.spec hnodup
  have hother : ∀ g' user', g' ≠ g →
      t.foldl (bookedAfter g' user') (booked g' user') = booked g' user' := by
    intro g' user' hne
    rw [foldl_silentBut hl.silent, if_neg (Ne.symm hne), List.append_nil]
  have hown : ∀ p, t.foldl (bookedAfter g p) (booked g p) = booked g p ++ submissionsOf g p t := by
    intro p
    rw [foldl_silentBut hl.silent, if_pos rfl]
  have hsecond : (readingsOf t).dropLast.getLast? = some (gm.isFinished k₂) := by
    rw [← hreadings, List.dropLast_append_of_ne_nil (List.cons_ne_nil _ _)]
    simp
  have hstep : ∀ p data, gm.players[p]? = some data → ∃ data', players[p]? = some data' ∧
      Booked (gm.isFinished s'.clock) data' (booked g p ++ submissionsOf g p t) := by
    intro p data hp
    have hflag := hflags p
    rw [hp, Option.map_some] at hflag
    refine ⟨_, hflag, ?_⟩
    rw [hsubs p, hp, Option.map_some, Option.getD_some]
    refine (h.entries g gm p data hl.found hp).depart (Game.isFinished_mono hk₁)
      (Game.isFinished_mono hk₂) (Game.isFinished_mono hk₃) fun hpu hmark => ?_
    have hpu : p = user := of_decide_eq_true hpu
    have hkept := (keepsResult_iff.mp (hkeeps data (hpu ▸ hp) hmark)).1
    rw [hsecond] at hkept
    exact Bool.eq_true_of_not_eq_false fun hrunning => hkept (congrArg some hrunning)
  refine ⟨fun g' p => ?_, fun g' gm' p data hg' hp => ?_⟩
  · by_cases hg : g' = g
    · subst hg
      rw [hown p]
      cases hp : gm.players[p]? with
      | none =>
          rw [hsubs p, hp]
          simpa using h.once g' p
      | some data =>
          obtain ⟨_, -, hbooked⟩ := hstep p data hp
          exact hbooked.length_le_one
    · rw [hother g' p hg]
      exact h.once g' p
  · by_cases hg : g' = g
    · subst hg
      obtain rfl := hgame gm' hg'
      rw [hown p]
      have hkey : gm.players[p]? ≠ none := fun hnone =>
        nomatch hp.symm.trans (hflags.eq_none.mpr hnone)
      obtain ⟨data₀, hdata₀⟩ := Option.ne_none_iff_exists'.mp hkey
      obtain ⟨data', hdata', hbooked⟩ := hstep p data₀ hdata₀
      obtain rfl := Option.some.inj (hdata'.symm.trans hp)
      exact hbooked
    · rw [hother g' p hg]
      rw [hl.others hg] at hg'
      exact (h.entries g' gm' p data hg' hp).mono (Game.isFinished_mono hclock)

/-- An answer of a player whose result is not booked. -/
theorem answered {g : String} {user : LoggedUser} {gm gm' : Game}
    {answerIndex questionIndex answerTime answer : UInt32} (h : ResultBook s booked)
    (hclock : s.clock ≤ s'.clock) (hg : s.game? g = some gm)
    (hanswer : gm.recordAnswer user answerIndex questionIndex answerTime = .ok (answer, gm'))
    (hgames : s'.games = (s.setGame g gm').games) (ht : Silent t)
    (hopen : ∀ data, gm.players[user]? = some data → data.isScoreSubmittedToDB = false) :
    ResultBook s' fun g user => t.foldl (bookedAfter g user) (booked g user) := by
  obtain ⟨data, hdata, hself, hother, -⟩ := game?_answered hg hanswer hgames
  refine ⟨fun g' p => ?_, fun g' gm₁ p data₁ hg' hp => ?_⟩
  · rw [foldl_silent ht]
    exact h.once g' p
  · rw [foldl_silent ht]
    by_cases heq : g' = g
    · subst heq
      obtain rfl := Option.some.inj (hself.symm.trans hg')
      rw [Game.setPlayers_players, Std.TreeMap.getElem?_insert] at hp
      split_ifs at hp with hcmp
      · obtain rfl := Std.LawfulEqCmp.eq_of_compare hcmp
        obtain rfl := Option.some.inj hp
        exact ((h.entries g' gm user data hg hdata).answered (hopen data hdata)).mono
          (Game.isFinished_mono hclock)
      · exact (h.entries g' gm p data₁ hg hp).mono (Game.isFinished_mono hclock)
    · rw [hother g' heq] at hg'
      exact (h.entries g' gm₁ p data₁ hg' hp).mono (Game.isFinished_mono hclock)

/-- A new game of a uuid that has none. -/
theorem started {g : String} {questions : List Question} {users : List LoggedUser} {time : UInt32}
    {now : ℕ} {t₁ t₂ : List (Event operations)} (h : ResultBook s booked)
    (hclock : s.clock ≤ s'.clock)
    (hnone : s.game? g = none) (hgames : s'.games = s.games ++ [.new questions users g time now])
    (ht : t = t₁ ++ event (.game (.pushGame questions users g time)) () :: t₂) (ht₁ : Silent t₁)
    (ht₂ : Silent t₂) :
    ResultBook s' fun g user => t.foldl (bookedAfter g user) (booked g user) := by
  have hafter : ∀ g' p, t.foldl (bookedAfter g' p) (booked g' p) =
      if g = g' then [] else booked g' p := by
    intro g' p
    rw [ht, List.foldl_append, foldl_silent ht₁, List.foldl_cons, foldl_silent ht₂]
    rfl
  have hpush : ∀ g', s'.game? g' =
      if g' = g then some (.new questions users g time now) else s.game? g' :=
    fun g' => game?_push hnone hgames g'
  refine ⟨fun g' p => ?_, fun g' gm p data hg' hp => ?_⟩
  · rw [hafter]
    split_ifs
    · exact Nat.zero_le 1
    · exact h.once g' p
  · rw [hafter]
    have hfound := (hpush g').symm.trans hg'
    by_cases hg : g' = g
    · rw [if_pos hg] at hfound
      obtain rfl := Option.some.inj hfound
      rw [if_pos hg.symm]
      rw [Game.new_players] at hp
      split_ifs at hp
      cases hp
      exact .unmarked rfl
    · rw [if_neg hg] at hfound
      rw [if_neg (Ne.symm hg)]
      exact (h.entries g' gm p data hfound hp).mono (Game.isFinished_mono hclock)

/-- Every move keeps the book, if a booked result is kept by its user's requests. -/
theorem move {seats : ℕ → Seat} {c : ℕ} {y : Seat} (h : ResultBook s booked) (hl : Lobby s seats)
    (hnamed : ∀ user, (seats c).user = some user → user.username ∈ s.names)
    (hclock : s.clock ≤ s'.clock)
    (hkeeps : isBooked s (seats c) = true → keepsResult t = true) (hm : Move s t s' (seats c) y) :
    ResultBook s' fun g user => t.foldl (bookedAfter g user) (booked g user) := by
  generalize hc : seats c = x at hm hkeeps
  have hsilent : Silent t → ∀ g user booked, t.foldl (bookedAfter g user) booked = booked :=
    fun ht _ _ => foldl_silent ht
  cases hm with
  | stay _ heq ht => exact h.same heq hclock (hsilent ht)
  | created _ _ _ _ _ _ heq ht => exact h.same heq hclock fun _ _ _ => by rw [ht]; rfl
  | joined _ _ _ heq ht => exact h.same heq hclock (hsilent ht)
  | dismissed _ _ heq ht => exact h.same heq hclock (hsilent ht)
  | left _ _ _ heq ht => exact h.same heq hclock (hsilent ht)
  | entered _ _ _ _ heq ht => exact h.same heq hclock (hsilent ht)
  | closed _ _ heq ht => exact h.same heq hclock (hsilent ht)
  | deserted _ _ hleaves _ =>
      refine h.leaves hl.nodup hclock hleaves fun data hp hmark => hkeeps ?_
      simp [isBooked, hleaves.found, hp, hmark]
  | quit _ hleaves _ =>
      refine h.leaves hl.nodup hclock hleaves fun data hp hmark => hkeeps ?_
      simp [isBooked, hleaves.found, hp, hmark]
  | @unbooked g user gm _ hno _ => exact absurd (hnamed user (by rw [hc]; rfl)) hno
  | @started uuid user r questions time now hr _ heq _ ht =>
      obtain ⟨t₁, t₂, ht, ht₁, ht₂⟩ := ht
      obtain ⟨r₀, hr₀, hactive, -⟩ := (hl.rooms uuid).admin c user hc
      cases hr.symm.trans hr₀
      exact h.started hclock (hl.no_game hr hactive) heq ht ht₁ ht₂
  | @answered g user gm gm' answerIndex questionIndex answerTime answer hg hanswer _ heq ht
      haccepted =>
      refine h.answered hclock hg hanswer heq ht fun data hp =>
        Bool.eq_false_iff.mpr fun hmark => ?_
      obtain ⟨x, hx⟩ := haccepted
      have hkept := hkeeps (by simp [isBooked, hg, hp, hmark])
      exact nomatch (keepsResult_iff.mp hkept).2 _ hx

end ResultBook

/-! ## Runs -/

/-- The condition on the requests of a run: whose result is booked, that user keeps it. -/
def KeepsResults (cfg : ServerConfig) : AtomicServerLabel → Prop
  | .connect _ => True
  | .request c _ _ calls => isBooked cfg.shared (seatOf cfg c) = true → keepsResult calls = true

instance {cfg : ServerConfig} : DecidablePred (KeepsResults cfg)
  | .connect _ => .isTrue trivial
  | .request .. => inferInstanceAs (Decidable (_ → _))

/-- Every result is booked at most once, and a booked one is what the game still says. -/
structure ResultsFinal (cfg : ServerConfig) : Prop where
  once : ∀ g user, (bookedResults g user cfg.trace).length ≤ 1
  final : ∀ g gm user data, cfg.shared.game? g = some gm → gm.players[user]? = some data →
    ∀ x ∈ bookedResults g user cfg.trace, data.answers = x.answers ∧ data.isPunished = x.isPunished

theorem resultBook_of_run {cfg : ServerConfig} {database : Database}
    (hrun : Service.AtomicReachable (handleClient P) (machine true) KeepsResults
      (ServerConfig.init database) cfg) :
    ResultBook cfg.shared fun g user => bookedResults g user cfg.trace := by
  refine seats_along
    (I := fun cfg => ResultBook cfg.shared fun g user => bookedResults g user cfg.trace) hrun
    ⟨fun g user => Nat.zero_le 1, nofun⟩ fun cfg l cfg' hfit _ h hk hstep => ?_
  cases hstep with
  | connected hshared htrace _ =>
      rw [hshared, htrace]
      exact h
  | @moved c session request sent t r _ _ hx hmove _ htrace =>
      have hafter : ∀ g user, bookedResults g user cfg'.trace =
          t.foldl (bookedAfter g user) (bookedResults g user cfg.trace) := fun g user =>
        htrace ▸ bookedResults_request cfg.trace c session request r _
      simp only [hafter]
      exact h.move hfit.lobby (hfit.named c) (clock_le_of_exec hx) hk hmove

theorem resultsFinal_of_keepsResults {cfg : ServerConfig} (hrun : AtomicRun P KeepsResults cfg) :
    ResultsFinal cfg := by
  obtain ⟨database, hrun⟩ := hrun
  have hbook := resultBook_of_run hrun
  exact ⟨hbook.once, fun g gm user data hg hp => (hbook.entries g gm user data hg hp).final⟩

/-- `bob` leaves the active room and joins it again. -/
theorem resultsFinal_rejoined : ∃ cfg, replayAtomic lobbyPlatform sampleDatabase
    (pairInGame ++ [wholeRequest 1 ⟨.leaveRoomRequest, []⟩,
      wholeRequest 1 (lobbyRequest .joinRoomRequest 5)])
    (fun cfg l => decide (KeepsResults cfg l)) = some cfg ∧ ResultsFinal cfg ∧
    (bookedResults "room" ⟨"bob"⟩ cfg.trace).length = 1 := by
  have hrun : ((replayAtomic lobbyPlatform sampleDatabase
    (pairInGame ++ [wholeRequest 1 ⟨.leaveRoomRequest, []⟩,
      wholeRequest 1 (lobbyRequest .joinRoomRequest 5)])
    fun cfg l => decide (KeepsResults cfg l)).any fun cfg =>
      (bookedResults "room" ⟨"bob"⟩ cfg.trace).length = 1) = true := by
    decide +kernel
  obtain ⟨cfg, hcfg, hbooked⟩ := (Option.any_eq_true _ _).mp hrun
  exact ⟨cfg, hcfg, resultsFinal_of_keepsResults
    (atomicRun_of_replay hcfg fun _ _ h => of_decide_eq_true h), of_decide_eq_true hbooked⟩

/-- And leaves it once more while the game runs: his result is booked twice. -/
theorem not_resultsFinal_leftAgain : ∃ cfg, AtomicRun lobbyPlatform FreshRooms cfg ∧
    ¬ ResultsFinal cfg := by
  have hrun : ((replayAtomic lobbyPlatform sampleDatabase
    (pairInGame ++ [wholeRequest 1 ⟨.leaveRoomRequest, []⟩,
      wholeRequest 1 (lobbyRequest .joinRoomRequest 5),
      wholeRequest 1 ⟨.leaveRoomRequest, []⟩]) fun cfg l => decide (FreshRooms cfg l)).any
      fun cfg => (bookedResults "room" ⟨"bob"⟩ cfg.trace).length = 2) = true := by
    decide +kernel
  obtain ⟨cfg, hcfg, hbooked⟩ := (Option.any_eq_true _ _).mp hrun
  refine ⟨cfg, atomicRun_of_replay hcfg fun _ _ h => of_decide_eq_true h, fun h => ?_⟩
  have honce := h.once "room" ⟨"bob"⟩
  rw [of_decide_eq_true hbooked] at honce
  exact absurd honce (by decide)

end TriviaServer
