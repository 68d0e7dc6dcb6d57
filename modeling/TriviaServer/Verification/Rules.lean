import Mathlib.Tactic.SplitIfs
import TriviaServer.Model.Server

/-! # Proof rules for the operations

What one operation guarantees is what every outcome of it computes. Operations that touch
only the tables, the clock of the outside world or the questions are quiet: a program made of
them keeps the rooms, the games, the list of logged users and the accounts. -/

namespace TriviaServer

open Interaction

variable {d : Bool} {E : Fault → Prop} {s : Managers}

/-! ## States that differ in one component -/

namespace Managers

def setDatabase (s : Managers) (database : Database) : Managers := { s with database }

def setClock (s : Managers) (clock : ℕ) : Managers := { s with clock }

@[simp] theorem setDatabase_self (s : Managers) : s.setDatabase s.database = s := rfl

@[simp] theorem setDatabase_setDatabase (s : Managers) (db db' : Database) :
    (s.setDatabase db).setDatabase db' = s.setDatabase db' := rfl

@[simp] theorem setClock_setClock (s : Managers) (k k' : ℕ) :
    (s.setClock k).setClock k' = s.setClock k' := rfl

@[simp] theorem setDatabase_setClock (s : Managers) (db : Database) (k : ℕ) :
    (s.setDatabase db).setClock k = (s.setClock k).setDatabase db := rfl

end Managers

/-! ## One operation -/

/-- A call of the server with its answer. -/
def event (o : Op) (r : o.Answer) : Event operations := ⟨o, r⟩

@[simp] theorem event_fst (o : Op) (r : o.Answer) : (event o r).1 = o := rfl

theorem wp_login (o : LoginOp) (Q : List (Event operations) → o.Answer → Managers → Prop) :
    wp (machine d) E (Action.login o) Q s ↔
      Q [event (.login o) (o.exec s).1] (o.exec s).1 (o.exec s).2 := by
  refine (Interpreter.wp_call_iff (S := operations) (.login o) Q s).trans ?_
  exact ⟨fun h => h {} rfl, fun h _ _ => h⟩

theorem wp_db {o : DbOp} {Q : List (Event operations) → o.Answer → Managers → Prop}
    (h : ∀ c r db, (d && c.fails) = false → o.exec c s.database = (r, db) →
      Q [event (.database o) r] r (s.setDatabase db)) : wp (machine d) E (Action.db o) Q s := by
  refine (Interpreter.wp_call_iff (S := operations) (.database o) Q s).mpr fun c hc => ?_
  refine h c _ _ ?_ rfl
  simpa only [Op.admits, Bool.not_eq_eq_eq_not, Bool.not_true] using hc

theorem wp_room (o : RoomOp) (ho : o ≠ .generateRoomUUID)
    (Q : List (Event operations) → o.Answer → Managers → Prop) :
    wp (machine d) E (Action.room o) Q s ↔
      Ensures E (fun x => Q [event (.room o) x.1] x.1 x.2) (o.exec {} s) := by
  refine (Interpreter.wp_call_iff (S := operations) (.room o) Q s).trans ?_
  cases o with
  | generateRoomUUID => exact absurd rfl ho
  | _ => exact ⟨fun h => h {} rfl, fun h _ _ => h⟩

theorem wp_generateRoomUUID (Q : List (Event operations) → String → Managers → Prop) :
    wp (machine d) E (Action.room .generateRoomUUID) Q s ↔
      ∀ uuid, s.rooms[uuid]? = none → Q [event (.room .generateRoomUUID) uuid] uuid s := by
  refine (Interpreter.wp_call_iff (S := operations) (.room .generateRoomUUID) Q s).trans ?_
  simp only [Op.admits, Op.exec, RoomOp.exec, Bool.not_eq_eq_eq_not, Bool.not_true, ensures_ok]
  constructor
  · intro h uuid hu
    exact h { text := uuid } (by rw [Std.TreeMap.contains_eq_isSome_getElem?, hu]; rfl)
  · intro h c hc
    rw [Std.TreeMap.contains_eq_isSome_getElem?] at hc
    exact h c.text (Option.isNone_iff_eq_none.mp (Option.isSome_eq_false_iff.mp hc))

theorem wp_game (o : GameOp) (Q : List (Event operations) → o.Answer → Managers → Prop) :
    wp (machine d) E (Action.game o) Q s ↔
      ∀ c : Choice, Ensures E (fun x => Q [event (.game o) x.1] x.1 x.2) (o.exec c s) := by
  refine (Interpreter.wp_call_iff (S := operations) (.game o) Q s).trans ?_
  simp only [Op.admits, Op.exec, true_imp_iff]
  exact Iff.rfl

theorem wp_external (o : ExternalOp)
    (Q : List (Event operations) → o.Answer → Managers → Prop) :
    wp (machine d) E (Action.external o) Q s ↔
      ∀ c : Choice, Ensures E (fun r => Q [event (.external o) r] r s) (o.exec c) := by
  refine (Interpreter.wp_call_iff (S := operations) (.external o) Q s).trans ?_
  simp only [Op.admits, Op.exec, true_imp_iff, ensures_map]
  exact Iff.rfl

/-- Whatever a call answers. -/
theorem wp_answer {o : Op} {Q : List (Event operations) → o.Answer → Managers → Prop}
    (h : ∀ r s', Q [event o r] r s') :
    wp (machine d) (fun _ => True) (Program.call (S := operations) o) Q s :=
  (wp_call (S := operations) o Q s).mpr ⟨fun _ _ => trivial, fun r s' _ => h r s'⟩

theorem wp_anything {α : Type} {p : Action α} {Q : List (Event operations) → α → Managers → Prop}
    (h : ∀ t a s', Q t a s') : wp (machine d) (fun _ => True) p Q s :=
  wp_of_exec fun t a s' _ => h t a s'

theorem wp_throw {α : Type} (fault : Fault)
    (Q : List (Event operations) → α → Managers → Prop) :
    wp (machine d) E (Action.throw fault) Q s ↔ E fault := by
  unfold Action.throw
  rw [wp_bind, wp_external]
  exact ⟨fun h => h {}, fun h _ => h⟩

theorem wp_lift {α : Type} (x : Except Fault α)
    (Q : List (Event operations) → α → Managers → Prop) :
    wp (machine d) E (Action.lift x) Q s ↔ Ensures E (fun a => Q [] a s) x := by
  cases x with
  | error e => exact wp_throw e Q
  | ok a => exact Iff.rfl

theorem DbOp.exec_succeeds {o : DbOp} {c : Choice} {db : Database} (hd : d = true)
    (hc : (d && c.fails) = false) : o.exec c db = o.apply c db := by
  have hf : c.fails = false := by simpa [hd] using hc
  simp [DbOp.exec, hf]

/-! ## What an operation leaves alone -/

theorem LoginOp.step_eq {o : LoginOp} {s s' : Managers} {r : o.Answer}
    (h : (machine d).Step (.login o) s r s') : o.exec s = (r, s') := by
  obtain ⟨_, -, hx⟩ := h
  exact Except.ok.inj hx

theorem DbOp.step_eq {o : DbOp} {s s' : Managers} {r : o.Answer}
    (h : (machine d).Step (.database o) s r s') :
    ∃ c db, (d && c.fails) = false ∧ o.exec c s.database = (r, db) ∧ s' = s.setDatabase db := by
  obtain ⟨c, hc, hx⟩ := h
  cases hx
  refine ⟨c, _, ?_, rfl, rfl⟩
  simpa only [Op.admits, Bool.not_eq_eq_eq_not, Bool.not_true] using hc

theorem ExternalOp.step_eq {o : ExternalOp} {s s' : Managers} {r : o.Answer}
    (h : (machine d).Step (.external o) s r s') : s' = s := by
  obtain ⟨c, -, hx⟩ := h
  simp only [Op.exec] at hx
  cases hr : o.exec c with
  | error e => simp [hr, Except.map] at hx
  | ok r' =>
      simp only [hr, Except.map, Except.ok.injEq, Prod.mk.injEq] at hx
      exact hx.2.symm

theorem readRoom_eq {α : Type} {s s' : Managers} {room : String} {f : Room → α} {a : α}
    (h : RoomOp.readRoom s room f = .ok (a, s')) : s' = s := by
  unfold RoomOp.readRoom at h
  split at h <;> cases h
  rfl

theorem getAllUsersAt_eq {s s' : Managers} {roomUUID : String} {c : Choice}
    {users : List LoggedUser}
    (h : RoomOp.exec (.getAllUsersAt roomUUID) c s = .ok (users, s')) : s' = s := by
  simp only [RoomOp.exec] at h
  split at h <;> cases h
  rfl

theorem writeRoom_eq {s s' : Managers} {room : String} {f : Room → Room} {a : Unit}
    (h : RoomOp.writeRoom s room f = .ok (a, s')) : s' = { s with rooms := s'.rooms } := by
  unfold RoomOp.writeRoom at h
  split at h <;> cases h
  rfl

theorem readGame_eq {α : Type} {s s' : Managers} {game : String} {f : Game → Except Fault α}
    {a : α} (h : GameOp.readGame s game f = .ok (a, s')) : s' = s := by
  unfold GameOp.readGame at h
  split at h
  · cases h
  · next g _ =>
      cases hf : f g with
      | error e => simp [hf, Except.map] at h
      | ok b =>
          simp only [hf, Except.map, Except.ok.injEq, Prod.mk.injEq] at h
          exact h.2.symm

theorem writeGame_eq {α : Type} {s s' : Managers} {game : String}
    {f : Game → Except Fault (α × Game)} {a : α} (h : GameOp.writeGame s game f = .ok (a, s')) :
    s' = { s with games := s'.games } := by
  unfold GameOp.writeGame at h
  split at h
  · cases h
  · next g _ =>
      cases hf : f g with
      | error e => simp [hf, Except.map] at h
      | ok b =>
          simp only [hf, Except.map, Except.ok.injEq, Prod.mk.injEq] at h
          rw [← h.2]

theorem sleepUntilReleased_eq {game : String} {time : UInt32} {c : Choice} {s s' : Managers}
    {r : Unit} (h : GameOp.exec (.sleepUntilReleased game time) c s = .ok (r, s')) :
    ∃ k, s.clock ≤ k ∧ s' = { s with clock := k } := by
  simp only [GameOp.exec] at h
  cases hr : GameOp.readGame s game fun g => .ok (g.releasedAt time) with
  | error e => simp [hr, Except.map] at h
  | ok r' =>
      simp only [hr, Except.map, Except.ok.injEq, Prod.mk.injEq] at h
      exact ⟨_, (le_max_left _ _).trans (Nat.le_add_right _ _), h.2.symm⟩

/-- A room operation changes nothing but the rooms. -/
theorem RoomOp.frame {o : RoomOp} {s s' : Managers} {r : o.Answer}
    (h : (machine d).Step (.room o) s r s') : s' = { s with rooms := s'.rooms } := by
  obtain ⟨c, -, hx⟩ := h
  cases o with
  | getAllUsers | getMetadata => rw [readRoom_eq hx]
  | getAllUsersAt => rw [getAllUsersAt_eq (c := c) hx]
  | removeUser | setIsActive => rw [writeRoom_eq hx]
  | removeUserAt | addUser =>
      simp only [Op.exec, RoomOp.exec] at hx
      repeat' split at hx
      all_goals
        cases hx
        try rfl
  | _ =>
      cases hx
      rfl

/-- A game operation changes nothing but the games and the clock, which moves forward. -/
theorem GameOp.frame {o : GameOp} {s s' : Managers} {r : o.Answer}
    (h : (machine d).Step (.game o) s r s') :
    s' = { s with games := s'.games, clock := s'.clock } ∧ s.clock ≤ s'.clock := by
  obtain ⟨c, -, hx⟩ := h
  cases o with
  | pushGame =>
      cases hx
      exact ⟨rfl, Nat.le_add_right _ _⟩
  | isFinished | getCurrentQuestion | checkAnswer =>
      rw [readGame_eq hx]
      exact ⟨rfl, Nat.le_add_right _ _⟩
  | getPlayersResults | getOnlinePlayers =>
      rw [readGame_eq hx]
      exact ⟨rfl, le_rfl⟩
  | punishPlayer | removePlayer | markUserResultsAsSubmittedToDB | recordAnswer =>
      rw [writeGame_eq hx]
      exact ⟨rfl, le_rfl⟩
  | getGameById | eraseGame =>
      simp only [Op.exec, GameOp.exec] at hx
      split_ifs at hx
      cases hx
      exact ⟨rfl, le_rfl⟩
  | sleepUntilReleased =>
      obtain ⟨k, hk, rfl⟩ := sleepUntilReleased_eq hx
      exact ⟨rfl, hk⟩
  | submitting =>
      cases hx
      exact ⟨rfl, le_rfl⟩

/-- The clock never runs backwards. -/
theorem clock_le_of_step {o : Op} {s s' : Managers} {r : o.Answer}
    (h : (machine d).Step o s r s') : s.clock ≤ s'.clock := by
  cases o with
  | login o =>
      have hx := LoginOp.step_eq h
      cases o with
      | tryLogin name =>
          simp only [LoginOp.exec] at hx
          split_ifs at hx <;> cases hx <;> exact le_rfl
      | logout name =>
          cases hx
          exact le_rfl
  | database o =>
      obtain ⟨_, db, -, -, rfl⟩ := DbOp.step_eq h
      exact le_rfl
  | room o =>
      rw [RoomOp.frame h]
  | game o => exact (GameOp.frame h).2
  | external o =>
      rw [ExternalOp.step_eq h]

theorem clock_le_of_exec {α : Type} {p : Action α} {s s' : Managers} {t : List (Event operations)}
    {a : α} (hx : Exec (machine d) p s t a s') : s.clock ≤ s'.clock :=
  hx.keeps (R := fun s s' => s.clock ≤ s'.clock) (fun _ => le_rfl) (fun _ _ _ => le_trans)
    fun _ _ _ _ => clock_le_of_step

/-! ## Quiet operations -/

/-- The accounts: the ids and names in the table of users. -/
def Database.accounts (db : Database) : List (ℕ × String) :=
  db.users.map fun u => (u.id, u.username)

theorem Database.accounts_updateUser (db : Database) (username address phoneNumber : String)
    (password : Option String) (avatarColor : UInt8) :
    (db.updateUser username address phoneNumber password avatarColor).accounts = db.accounts := by
  unfold Database.accounts Database.updateUser
  simp only [List.map_map]
  refine List.map_congr_left fun u _ => ?_
  by_cases h : u.username = username <;> simp [h]

/-- Neither a lock of a manager nor an insert or removal of an account; an exception only if
`E` admits it. -/
def Op.Quiet (E : Fault → Prop) : Op → Prop
  | .database (.insertUser _) => False
  | .database (.removeUser _) => False
  | .database _ => True
  | .external (.throw e) => E e
  | .external _ => True
  | _ => False

theorem DbOp.accounts_of_exec {o : DbOp} (ho : (Op.database o).Quiet E) {c : Choice}
    {db db' : Database} {r : o.Answer} (h : o.exec c db = (r, db')) :
    db'.accounts = db.accounts := by
  unfold DbOp.exec at h
  split_ifs at h
  · cases h
    rfl
  · cases o with
    | insertUser row => exact ho.elim
    | removeUser id => exact ho.elim
    | updateUser =>
        cases h
        exact Database.accounts_updateUser ..
    | _ =>
        cases h
        rfl

/-- Only the tables differ, and not in the accounts. -/
def SameButTables (s s' : Managers) : Prop :=
  ∃ db, s' = s.setDatabase db ∧ db.accounts = s.database.accounts

theorem Op.Quiet.step {o : Op} (ho : o.Quiet E) {s s' : Managers} {r : o.Answer}
    (h : (machine d).Step o s r s') : SameButTables s s' := by
  cases o with
  | database o =>
      obtain ⟨c, db, -, hx, rfl⟩ := DbOp.step_eq h
      exact ⟨db, rfl, DbOp.accounts_of_exec ho hx⟩
  | external o => exact ⟨s.database, ExternalOp.step_eq h, rfl⟩
  | login o => exact ho.elim
  | room o => exact ho.elim
  | game o => exact ho.elim

theorem Op.Quiet.fault {o : Op} (ho : o.Quiet E) {s : Managers} {e : Fault}
    (h : (machine d).Fault o s e) : E e := by
  obtain ⟨c, -, hx⟩ := h
  cases o with
  | database o => cases hx
  | external o =>
      cases o with
      | throw fault =>
          cases hx
          exact ho
      | _ => cases hx
  | login o => exact ho.elim
  | room o => exact ho.elim
  | game o => exact ho.elim

/-- The rule for quiet programs: nothing is known of the value, and everything but the tables
is as before. -/
theorem wp_quiet {α : Type} {p : Action α} (hp : p.Only (Op.Quiet E))
    {Q : List (Event operations) → α → Managers → Prop}
    (h : ∀ t a db, (∀ e ∈ t, e.1.Quiet E) → db.accounts = s.database.accounts →
      Q t a (s.setDatabase db)) :
    wp (machine d) E p Q s := by
  have hwp := Program.Only.wp_rel (M := machine d) (E := E) (R := SameButTables)
    (fun s => ⟨s.database, rfl, rfl⟩)
    (fun a b c => by
      rintro ⟨db, rfl, hdb⟩ ⟨db', rfl, hdb'⟩
      exact ⟨db', rfl, hdb'.trans hdb⟩)
    (fun o s r s' ho hs => ho.step hs) (fun o s e ho he => ho.fault he) hp s
  refine wp_imp hwp ?_
  rintro t a s' ⟨⟨db, rfl, hdb⟩, ht⟩
  exact h t a db ht hdb

end TriviaServer
