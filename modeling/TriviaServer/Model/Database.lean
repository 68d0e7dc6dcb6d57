import TriviaServer.Model.Game
import Mathlib.Data.List.Nodup

/-! # The SQLite tables and single calls on them

Each operation is one section under `_dbMutex`. It either throws, changing nothing, or
reads and writes the three tables as the statement says. -/

namespace TriviaServer

/-- What the environment decides when an operation takes effect: how much time has passed,
whether an external call fails and with which error, and what random or remote sources
deliver. -/
structure Choice where
  delay : ℕ := 0
  fails : Bool := false
  error : Error := {}
  text : String := ""
  texts : List String := []
  questions : List QuestionDb := []
  color : AvatarColor := .red
  number : ℕ := 0
  time : ℤ := 0

structure User where
  id : ℕ := 0
  username : String
  password : String
  email : String
  address : String
  phoneNumber : String
  birthday : String
  avatarColor : UInt8
  memberSince : ℤ
  deriving DecidableEq, Repr

structure Statistics where
  userId : ℕ
  wrongAnswers : UInt32
  correctAnswers : UInt32
  avgAnswerTime : UInt32
  totalGames : UInt32
  score : UInt32
  deriving DecidableEq, Repr

/-- The tables. Usernames are unique, ids are handed out in increasing order and never again,
and every user has the statistics row that was inserted in the same transaction. -/
structure Database where
  users : List User
  statistics : List Statistics
  questions : List QuestionDb
  nextUserId : ℕ
  usernames_nodup : (users.map User.username).Nodup
  ids_sorted : (users.map User.id).Pairwise (· < ·)
  ids_lt : ∀ u ∈ users, u.id < nextUserId
  rows_eq : statistics.map Statistics.userId = users.map User.id

namespace Database

/-- `insert(user)` and the insert of its statistics, in one transaction. A taken username or
email violates a constraint and rolls back. -/
def insertUser (db : Database) (row : User) : Option (ℕ × Database) :=
  if h : row.username ∉ db.users.map User.username ∧ row.email ∉ db.users.map User.email then
    some (db.nextUserId,
      { db with
        users := db.users ++ [{ row with id := db.nextUserId }]
        statistics := db.statistics ++ [⟨db.nextUserId, 0, 0, 0, 0, 0⟩]
        nextUserId := db.nextUserId + 1
        usernames_nodup := by
          rw [List.map_append, List.nodup_append]
          refine ⟨db.usernames_nodup, by simp, ?_⟩
          intro name hname other hother
          rw [List.map_singleton, List.mem_singleton] at hother
          subst hother
          exact fun he => h.1 (he ▸ hname)
        ids_sorted := by
          rw [List.map_append, List.pairwise_append]
          refine ⟨db.ids_sorted, by simp, ?_⟩
          intro id hid other hother
          obtain ⟨u, hu, rfl⟩ := List.mem_map.mp hid
          rw [List.map_singleton, List.mem_singleton] at hother
          subst hother
          exact db.ids_lt u hu
        ids_lt := by
          intro u hu
          rcases List.mem_append.mp hu with hu | hu
          · exact (db.ids_lt u hu).trans (Nat.lt_succ_self _)
          · rw [List.mem_singleton.mp hu]
            exact Nat.lt_succ_self _
        rows_eq := by
          rw [List.map_append, List.map_append, db.rows_eq]
          rfl })
  else
    none

/-- `remove<User>(id)`; the foreign key cascades to the statistics. -/
def removeUser (db : Database) (id : ℕ) : Database :=
  { db with
    users := db.users.filter (·.id ≠ id)
    statistics := db.statistics.filter (·.userId ≠ id)
    usernames_nodup := db.usernames_nodup.sublist (List.filter_sublist.map _)
    ids_sorted := db.ids_sorted.sublist (List.filter_sublist.map _)
    ids_lt := fun u hu => db.ids_lt u (List.mem_of_mem_filter hu)
    rows_eq := by
      have h := congrArg (List.filter (fun i => decide (i ≠ id))) db.rows_eq
      rw [List.filter_map, List.filter_map] at h
      exact h }

/-- `update_all(set(...), where(user_id == userId))` on the five counters. -/
def updateStatistics (db : Database) (row : Statistics) : Database :=
  { db with
    statistics := db.statistics.map fun st => if st.userId = row.userId then row else st
    rows_eq := by
      rw [List.map_map, ← db.rows_eq]
      refine List.map_congr_left fun st _ => ?_
      by_cases h : st.userId = row.userId <;> simp [h] }

/-- `update_all(set(...), where(username == username))`. -/
def updateUser (db : Database) (username address phoneNumber : String)
    (password : Option String) (avatarColor : UInt8) : Database :=
  let update (u : User) : User :=
    if u.username = username then
      { u with
        address := address
        phoneNumber := phoneNumber
        password := password.getD u.password
        avatarColor := avatarColor }
    else u
  have hname : ∀ u, (update u).username = u.username := by
    intro u
    by_cases h : u.username = username <;> simp [update, h]
  have hid : ∀ u, (update u).id = u.id := by
    intro u
    by_cases h : u.username = username <;> simp [update, h]
  have hids : (db.users.map update).map User.id = db.users.map User.id := by
    rw [List.map_map]
    exact List.map_congr_left fun u _ => hid u
  have hnames : (db.users.map update).map User.username = db.users.map User.username := by
    rw [List.map_map]
    exact List.map_congr_left fun u _ => hname u
  { db with
    users := db.users.map update
    usernames_nodup := hnames ▸ db.usernames_nodup
    ids_sorted := hids ▸ db.ids_sorted
    ids_lt := by
      intro u hu
      obtain ⟨v, hv, rfl⟩ := List.mem_map.mp hu
      exact hid v ▸ db.ids_lt v hv
    rows_eq := db.rows_eq.trans hids.symm }

/-- The inner join of the users with their statistics. -/
def joined (db : Database) : List (User × Statistics) :=
  db.users.flatMap fun u => (db.statistics.filter (·.userId = u.id)).map (u, ·)

end Database

/-! ## The calls -/

inductive DbOp where
  | selectUserIds (username : String)
  | getUsers (username : String)
  | insertUser (row : User)
  | selectUserIdsByEmail (email : String)
  | countQuestions
  | getRandomQuestions (amount : UInt32)
  | insertQuestion (question : QuestionDb)
  | selectHighScores
  | updateUser (username address phoneNumber : String) (password : Option String)
      (avatarColor : UInt8)
  | selectUserData (username : String)
  | selectPlayer (id : ℕ)
  | selectStatistics (username : String)
  | updateStatistics (row : Statistics)
  | removeUser (id : ℕ)
  | getUsersByEmail (email : String)

namespace DbOp

/-- What a call that does not throw returns. -/
abbrev Value : DbOp → Type
  | selectUserIds _ => List ℕ
  | getUsers _ => List User
  | insertUser _ => ℕ
  | selectUserIdsByEmail _ => List ℕ
  | countQuestions => ℕ
  | getRandomQuestions _ => List QuestionDb
  | insertQuestion _ => Unit
  | selectHighScores => List (String × UInt8 × UInt32)
  | updateUser .. => Unit
  | selectUserData _ => List User
  | selectPlayer _ => List (String × UInt8 × UInt32)
  | selectStatistics _ => List (Statistics × ℕ)
  | updateStatistics _ => Unit
  | removeUser _ => Unit
  | getUsersByEmail _ => List User

/-- An exception is `none`. -/
abbrev Answer (o : DbOp) : Type := Option o.Value

def numOfTopPlayers : ℕ := 50

/-- A call the database carries out; only the insert can still be refused. -/
def apply : (o : DbOp) → Choice → Database → o.Answer × Database
  | selectUserIds username, _, db =>
      (some ((db.users.filter (·.username = username)).map User.id), db)
  | getUsers username, _, db =>
      (some ((db.users.filter (·.username = username)).take 1), db)
  | insertUser row, _, db =>
      match db.insertUser row with
      | some (id, db') => (some id, db')
      | none => (none, db)
  | selectUserIdsByEmail email, _, db =>
      (some ((db.users.filter (·.email = email)).map User.id), db)
  | countQuestions, _, db => (some db.questions.length, db)
  | getRandomQuestions amount, c, db =>
      let order := if c.questions.isPerm db.questions then c.questions else db.questions
      (some (order.take amount.toNat), db)
  | insertQuestion question, _, db =>
      (some (), { db with
        questions := db.questions ++ [{ question with id := db.questions.length + 1 }] })
  | selectHighScores, _, db =>
      let players := db.joined.map fun r => (r.1.username, r.1.avatarColor, r.2.score)
      (some ((players.mergeSort fun a b => b.2.2 ≤ a.2.2).take numOfTopPlayers), db)
  | updateUser username address phoneNumber password avatarColor, _, db =>
      (some (), db.updateUser username address phoneNumber password avatarColor)
  | selectUserData username, _, db => (some (db.users.filter (·.username = username)), db)
  | selectPlayer id, _, db =>
      let players := (db.joined.filter (·.1.id = id)).map fun r =>
        (r.1.username, r.1.avatarColor, r.2.score)
      (some (players.take 1), db)
  | selectStatistics username, _, db =>
      let rows := (db.joined.filter (·.1.username = username)).map fun r => (r.2, r.1.id)
      (some (rows.take 1), db)
  | updateStatistics row, _, db => (some (), db.updateStatistics row)
  | removeUser id, _, db => (some (), db.removeUser id)
  | getUsersByEmail email, _, db => (some ((db.users.filter (·.email = email)).take 1), db)

/-- A failing call throws and changes nothing. -/
def exec (o : DbOp) (c : Choice) (db : Database) : o.Answer × Database :=
  if c.fails then (none, db) else o.apply c db

end DbOp

end TriviaServer
