import TriviaServer.Verification.Rules

/-! # Inserting, finding and removing an account -/

namespace TriviaServer

/-- A call either throws and changes nothing or is carried out. -/
theorem DbOp.exec_cases {o : DbOp} {c : Choice} {db db' : Database} {r : o.Answer}
    (h : o.exec c db = (r, db')) :
    (c.fails = true ∧ r = none ∧ db' = db) ∨ (c.fails = false ∧ o.apply c db = (r, db')) := by
  unfold DbOp.exec at h
  cases hf : c.fails with
  | true =>
      rw [hf] at h
      cases h
      exact .inl ⟨rfl, rfl, rfl⟩
  | false =>
      rw [hf] at h
      exact .inr ⟨rfl, h⟩

/-- An exception, or a refused insert, changes nothing. -/
theorem DbOp.exec_none {o : DbOp} {c : Choice} {db db' : Database}
    (h : o.exec c db = (none, db')) : db' = db := by
  rcases DbOp.exec_cases h with ⟨-, -, hdb⟩ | ⟨-, h⟩
  · exact hdb
  · cases o with
    | insertUser row =>
        simp only [DbOp.apply] at h
        split at h <;> cases h
        rfl
    | _ => cases h

namespace Database

variable {db db' : Database} {row : User}

/-- The tables after an insert. -/
structure Inserted (db : Database) (row : User) (db' : Database) : Prop where
  fresh : row.username ∉ db.users.map User.username
  users : db'.users = db.users ++ [{ row with id := db.nextUserId }]
  statistics : db'.statistics = db.statistics ++ [⟨db.nextUserId, 0, 0, 0, 0, 0⟩]
  nextUserId : db'.nextUserId = db.nextUserId + 1

theorem insertUser_eq_some {id : ℕ} (h : db.insertUser row = some (id, db')) :
    id = db.nextUserId ∧ db.Inserted row db' := by
  unfold insertUser at h
  split_ifs at h with hfresh
  simp only [Option.some.injEq, Prod.mk.injEq] at h
  obtain ⟨rfl, rfl⟩ := h
  exact ⟨rfl, hfresh.1, rfl, rfl, rfl⟩

theorem filter_username_of_fresh {name : String} (h : name ∉ db.users.map User.username) :
    db.users.filter (·.username = name) = [] := by
  refine List.filter_eq_nil_iff.mpr fun u hu hname => h ?_
  exact of_decide_eq_true hname ▸ List.mem_map_of_mem hu

/-- The new account is the only one of its name. -/
theorem Inserted.filter_username (h : db.Inserted row db') :
    db'.users.filter (·.username = row.username) = [{ row with id := db.nextUserId }] := by
  rw [h.users, List.filter_append, filter_username_of_fresh h.fresh]
  simp

theorem filter_id_ne_next (db : Database) :
    db.users.filter (fun u => decide (u.id ≠ db.nextUserId)) = db.users := by
  refine List.filter_eq_self.mpr fun u hu => ?_
  have hlt := db.ids_lt u hu
  exact decide_eq_true (by omega)

theorem filter_userId_ne_next (db : Database) :
    db.statistics.filter (fun st => decide (st.userId ≠ db.nextUserId)) = db.statistics := by
  refine List.filter_eq_self.mpr fun st hst => ?_
  have hid : st.userId ∈ db.users.map User.id := by
    rw [← db.rows_eq]
    exact List.mem_map_of_mem hst
  obtain ⟨u, hu, hu'⟩ := List.mem_map.mp hid
  have hlt := db.ids_lt u hu
  exact decide_eq_true (by omega)

/-- Removing the new account leaves the tables as they were before the insert. -/
theorem Inserted.removeUser_users (h : db.Inserted row db') :
    (db'.removeUser db.nextUserId).users = db.users := by
  simp only [removeUser, h.users, List.filter_append, filter_id_ne_next]
  simp

theorem Inserted.removeUser_statistics (h : db.Inserted row db') :
    (db'.removeUser db.nextUserId).statistics = db.statistics := by
  simp only [removeUser, h.statistics, List.filter_append, filter_userId_ne_next]
  simp

theorem Inserted.accounts (h : db.Inserted row db') :
    db'.accounts = db.accounts ++ [(db.nextUserId, row.username)] := by
  rw [Database.accounts, h.users, List.map_append]
  rfl

theorem account_ne_next (db : Database) : ∀ a ∈ db.accounts, a.1 ≠ db.nextUserId := by
  intro a ha
  obtain ⟨u, hu, rfl⟩ := List.mem_map.mp ha
  exact (db.ids_lt u hu).ne

theorem mem_accounts_removeUser {id : ℕ} {a : ℕ × String} :
    a ∈ (db.removeUser id).accounts ↔ a ∈ db.accounts ∧ a.1 ≠ id := by
  constructor
  · intro ha
    obtain ⟨u, hu, rfl⟩ := List.mem_map.mp ha
    obtain ⟨hu, hid⟩ := List.mem_filter.mp hu
    exact ⟨List.mem_map_of_mem hu, of_decide_eq_true hid⟩
  · rintro ⟨ha, hid⟩
    obtain ⟨u, hu, rfl⟩ := List.mem_map.mp ha
    exact List.mem_map.mpr ⟨u, List.mem_filter.mpr ⟨hu, decide_eq_true hid⟩, rfl⟩

/-- Users of one name are one. -/
theorem user_unique {u v : User} (hu : u ∈ db.users) (hv : v ∈ db.users)
    (h : u.username = v.username) : u = v :=
  List.inj_on_of_nodup_map db.usernames_nodup hu hv h

/-- Users of one id are one. -/
theorem user_eq_of_id {u v : User} (hu : u ∈ db.users) (hv : v ∈ db.users) (h : u.id = v.id) :
    u = v :=
  List.inj_on_of_nodup_map (db.ids_sorted.imp fun hlt => hlt.ne) hu hv h

/-- The only user found under a user's name is that user. -/
theorem filter_username_of_mem (h : row ∈ db.users) :
    db.users.filter (·.username = row.username) = [row] := by
  have hmem : row ∈ db.users.filter (·.username = row.username) :=
    List.mem_filter.mpr ⟨h, decide_eq_true rfl⟩
  have hall : ∀ u ∈ db.users.filter (·.username = row.username), u = row := by
    intro u hu
    obtain ⟨hu, hname⟩ := List.mem_filter.mp hu
    exact user_unique hu h (of_decide_eq_true hname)
  have hrep := List.eq_replicate_of_mem hall
  have hnodup : (db.users.filter (·.username = row.username)).Nodup :=
    db.usernames_nodup.of_map.filter _
  rw [hrep, List.nodup_replicate] at hnodup
  have hpos := List.length_pos_of_mem hmem
  rw [hrep, show (db.users.filter (·.username = row.username)).length = 1 by omega]
  rfl

theorem account_unique {id id' : ℕ} {name : String} (h : (id, name) ∈ db.accounts)
    (h' : (id', name) ∈ db.accounts) : id = id' := by
  obtain ⟨u, hu, hua⟩ := List.mem_map.mp h
  obtain ⟨v, hv, hva⟩ := List.mem_map.mp h'
  rw [Prod.mk.injEq] at hua hva
  rw [← hua.1, ← hva.1, user_unique hu hv (hua.2.trans hva.2.symm)]

theorem Inserted.users_ne (h : db.Inserted row db') : db'.users ≠ db.users := by
  rw [h.users]
  simp

end Database

end TriviaServer
