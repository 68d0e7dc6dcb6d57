import Mathlib.Data.List.Basic
import TriviaServer.Regex.Pattern

/-! # What a pattern matches

A pattern matches a text between what has been seen and what comes after, which its assertions
may look at. Backtracking finds every text that is matched in this sense, and no other. -/

namespace Regex

variable {α : Type}

/-- Texts one after the other, each with what is around it. -/
def Iterated (M : List α → List α → List α → Prop) : ℕ → List α → List α → List α → Prop
  | 0, _, text, _ => text = []
  | n + 1, seen, text, rest =>
      ∃ u v, text = u ++ v ∧ M seen u (v ++ rest) ∧ Iterated M n (u.reverse ++ seen) v rest

/-- The text between what has been seen, the last character first, and what comes after. -/
def Pattern.Spans : Pattern α → List α → List α → List α → Prop
  | .empty, _, text, _ => text = []
  | .char p, _, text, _ => ∃ a, text = [a] ∧ p a = true
  | .seq r₁ r₂, seen, text, rest =>
      ∃ u v, text = u ++ v ∧ r₁.Spans seen u (v ++ rest) ∧ r₂.Spans (u.reverse ++ seen) v rest
  | .alt r₁ r₂, seen, text, rest => r₁.Spans seen text rest ∨ r₂.Spans seen text rest
  | .repeated r required more, seen, text, rest =>
      ∃ n, required ≤ n ∧ n ≤ required + more ∧ Iterated r.Spans n seen text rest
  | .group _ r, seen, text, rest => r.Spans seen text rest
  | .start, seen, text, _ => text = [] ∧ seen = []
  | .stop, _, text, rest => text = [] ∧ rest = []
  | .boundary word, seen, text, rest => text = [] ∧ seen.head?.any word ≠ rest.head?.any word

/-! ## Reading on -/

/-- One state is further on than another by a text. -/
structure Reads (x : State α) (text : List α) (y : State α) : Prop where
  seen_eq : y.seen = text.reverse ++ x.seen
  rest_eq : x.rest = text ++ y.rest

namespace Reads

variable {x y z : State α} {u v text rest : List α}

theorem refl (x : State α) : Reads x [] x := ⟨rfl, rfl⟩

theorem trans (h : Reads x u y) (h' : Reads y v z) : Reads x (u ++ v) z where
  seen_eq := by rw [h'.seen_eq, h.seen_eq, List.reverse_append, List.append_assoc]
  rest_eq := by rw [h.rest_eq, h'.rest_eq, List.append_assoc]

theorem rest_eq_of_append (h : Reads x text y) (hrest : x.rest = text ++ rest) : y.rest = rest :=
  List.append_cancel_left (h.rest_eq.symm.trans hrest)

theorem textTo_eq (h : Reads x text y) : x.textTo y = text := by
  rw [State.textTo, h.rest_eq, List.length_append, Nat.add_sub_cancel, List.take_left']
  rfl

/-- Nothing has been read if as much is left as before. -/
theorem length_eq_iff (h : Reads x text y) : y.rest.length = x.rest.length ↔ text = [] := by
  rw [h.rest_eq, List.length_append, ← List.length_eq_zero_iff]
  omega

end Reads

/-- The outcomes of a step are what a relation allows. -/
structure Finds (step : State α → List (State α)) (M : List α → List α → List α → Prop) :
    Prop where
  sound : ∀ x, ∀ y ∈ step x, ∃ text, Reads x text y ∧ M x.seen text y.rest
  complete : ∀ x text rest, x.rest = text ++ rest → M x.seen text rest →
    ∃ y ∈ step x, Reads x text y

namespace Finds

variable {step step' : State α → List (State α)} {M M' : List α → List α → List α → Prop}

theorem flatMap (h : Finds step M) (h' : Finds step' M') :
    Finds (fun x => (step x).flatMap step') fun seen text rest =>
      ∃ u v, text = u ++ v ∧ M seen u (v ++ rest) ∧ M' (u.reverse ++ seen) v rest where
  sound x z hz := by
    obtain ⟨y, hy, hz⟩ := List.mem_flatMap.mp hz
    obtain ⟨u, hxy, hu⟩ := h.sound x y hy
    obtain ⟨v, hyz, hv⟩ := h'.sound y z hz
    rw [hyz.rest_eq] at hu
    rw [hxy.seen_eq] at hv
    exact ⟨u ++ v, hxy.trans hyz, u, v, rfl, hu, hv⟩
  complete x text rest hrest := by
    rintro ⟨u, v, rfl, hu, hv⟩
    rw [List.append_assoc] at hrest
    obtain ⟨y, hy, hxy⟩ := h.complete x u (v ++ rest) hrest hu
    rw [← hxy.seen_eq] at hv
    obtain ⟨z, hz, hyz⟩ := h'.complete y v rest (hxy.rest_eq_of_append hrest) hv
    exact ⟨z, List.mem_flatMap.mpr ⟨y, hy, hz⟩, hxy.trans hyz⟩

theorem append (h : Finds step M) (h' : Finds step' M') :
    Finds (fun x => step x ++ step' x) fun seen text rest =>
      M seen text rest ∨ M' seen text rest where
  sound x y hy := by
    rcases List.mem_append.mp hy with hy | hy
    · obtain ⟨text, hreads, htext⟩ := h.sound x y hy
      exact ⟨text, hreads, .inl htext⟩
    · obtain ⟨text, hreads, htext⟩ := h'.sound x y hy
      exact ⟨text, hreads, .inr htext⟩
  complete x text rest hrest := by
    rintro (htext | htext)
    · obtain ⟨y, hy, hreads⟩ := h.complete x text rest hrest htext
      exact ⟨y, List.mem_append_left _ hy, hreads⟩
    · obtain ⟨y, hy, hreads⟩ := h'.complete x text rest hrest htext
      exact ⟨y, List.mem_append_right _ hy, hreads⟩

/-- What is captured before a step is none of its business. -/
theorem forget (h : Finds step M) (groups : List ℕ) :
    Finds (fun x => step (x.forget groups)) M where
  sound x y hy := by
    obtain ⟨text, hreads, htext⟩ := h.sound _ y hy
    exact ⟨text, ⟨hreads.seen_eq, hreads.rest_eq⟩, htext⟩
  complete x text rest hrest htext := by
    obtain ⟨y, hy, hreads⟩ := h.complete (x.forget groups) text rest hrest htext
    exact ⟨y, hy, hreads.seen_eq, hreads.rest_eq⟩

theorem capture (h : Finds step M) (index : ℕ) :
    Finds (fun x => (step x).map fun y => y.capture index (x.textTo y)) M where
  sound x z hz := by
    obtain ⟨y, hy, rfl⟩ := List.mem_map.mp hz
    obtain ⟨text, hreads, htext⟩ := h.sound x y hy
    exact ⟨text, ⟨hreads.seen_eq, hreads.rest_eq⟩, htext⟩
  complete x text rest hrest htext := by
    obtain ⟨y, hy, hreads⟩ := h.complete x text rest hrest htext
    exact ⟨_, List.mem_map_of_mem hy, hreads.seen_eq, hreads.rest_eq⟩

/-- A step that reads nothing, but looks at what is around. -/
theorem test (P : List α → List α → Prop) [∀ seen rest, Decidable (P seen rest)] :
    Finds (fun x => if P x.seen x.rest then [x] else []) fun seen text rest =>
      text = [] ∧ P seen rest where
  sound x y hy := by
    split at hy
    · next hP =>
        obtain rfl := List.mem_singleton.mp hy
        exact ⟨[], .refl _, rfl, hP⟩
    · cases hy
  complete := by
    rintro x _ rest hrest ⟨rfl, hP⟩
    rw [← show x.rest = rest from hrest] at hP
    exact ⟨x, by rw [if_pos hP]; exact List.mem_singleton_self x, .refl x⟩

theorem of_iff (h : Finds step M) (hM : ∀ seen text rest, M seen text rest ↔ M' seen text rest) :
    Finds step M' where
  sound x y hy := by
    obtain ⟨text, hreads, htext⟩ := h.sound x y hy
    exact ⟨text, hreads, (hM _ _ _).mp htext⟩
  complete x text rest hrest htext := h.complete x text rest hrest ((hM _ _ _).mpr htext)

theorem nothing : Finds (fun x : State α => [x]) fun _ text _ => text = [] where
  sound x y hy := by
    obtain rfl := List.mem_singleton.mp hy
    exact ⟨[], .refl _, rfl⟩
  complete := by
    rintro x _ rest hrest rfl
    exact ⟨x, List.mem_singleton_self x, .refl x⟩

theorem times (h : Finds step M) (n : ℕ) : Finds (times step n) (Iterated M n) := by
  induction n with
  | zero => exact nothing
  | succ n ih => exact h.flatMap ih

/-- Iterations that read nothing can be left out. -/
theorem upTo_complete (h : Finds step M) {n more : ℕ} (hn : n ≤ more) (x : State α)
    {text rest : List α} (hrest : x.rest = text ++ rest) (hM : Iterated M n x.seen text rest) :
    ∃ y ∈ upTo step more x, Reads x text y := by
  induction n generalizing more x text with
  | zero =>
      obtain rfl := hM
      refine ⟨x, ?_, .refl x⟩
      cases more with
      | zero => exact List.mem_singleton_self x
      | succ more => exact List.mem_append_right _ (List.mem_singleton_self x)
  | succ n ih =>
      obtain ⟨u, v, rfl, hu, hv⟩ := hM
      by_cases hnil : u = []
      · subst hnil
        exact ih (Nat.le_of_succ_le hn) x hrest hv
      · cases more with
        | zero => exact absurd hn (Nat.not_succ_le_zero n)
        | succ more =>
            rw [List.append_assoc] at hrest
            obtain ⟨y, hy, hxy⟩ := h.complete x u (v ++ rest) hrest hu
            rw [← hxy.seen_eq] at hv
            obtain ⟨z, hz, hyz⟩ :=
              ih (Nat.le_of_succ_le_succ hn) y (hxy.rest_eq_of_append hrest) hv
            refine ⟨z, List.mem_append_left _ (List.mem_flatMap.mpr ⟨y, ?_, hz⟩), hxy.trans hyz⟩
            exact List.mem_filter.mpr ⟨hy, decide_eq_true (mt hxy.length_eq_iff.mp hnil)⟩

theorem upTo (h : Finds step M) (more : ℕ) :
    Finds (upTo step more) fun seen text rest => ∃ n ≤ more, Iterated M n seen text rest where
  complete x text rest hrest := fun ⟨_, hn, hM⟩ => h.upTo_complete hn x hrest hM
  sound := by
    induction more with
    | zero =>
        intro x y hy
        obtain rfl := List.mem_singleton.mp hy
        exact ⟨[], .refl _, 0, Nat.le_refl 0, rfl⟩
    | succ more ih =>
        intro x z hz
        rcases List.mem_append.mp hz with hz | hz
        · obtain ⟨y, hy, hz⟩ := List.mem_flatMap.mp hz
          obtain ⟨u, hxy, hu⟩ := h.sound x y (List.mem_filter.mp hy).1
          obtain ⟨v, hyz, n, hn, hv⟩ := ih y z hz
          rw [hyz.rest_eq] at hu
          rw [hxy.seen_eq] at hv
          exact ⟨u ++ v, hxy.trans hyz, n + 1, Nat.succ_le_succ hn, u, v, rfl, hu, hv⟩
        · obtain rfl := List.mem_singleton.mp hz
          exact ⟨[], .refl _, 0, Nat.zero_le _, rfl⟩

end Finds

/-! ## Backtracking -/

/-- Iterations after iterations. -/
theorem iterated_add {M : List α → List α → List α → Prop} {m n : ℕ} {seen text rest : List α} :
    Iterated M (m + n) seen text rest ↔ ∃ u v, text = u ++ v ∧ Iterated M m seen u (v ++ rest) ∧
      Iterated M n (u.reverse ++ seen) v rest := by
  induction m generalizing seen text with
  | zero =>
      rw [Nat.zero_add]
      constructor
      · exact fun h => ⟨[], text, rfl, rfl, h⟩
      · rintro ⟨_, v, rfl, rfl, hv⟩
        exact hv
  | succ m ih =>
      rw [Nat.succ_add]
      constructor
      · rintro ⟨u, _, rfl, hu, hrest⟩
        obtain ⟨v, w, rfl, hv, hw⟩ := ih.mp hrest
        rw [List.append_assoc] at hu
        refine ⟨u ++ v, w, (List.append_assoc u v w).symm, ⟨u, v, rfl, hu, hv⟩, ?_⟩
        rwa [List.reverse_append, List.append_assoc]
      · rintro ⟨_, w, rfl, ⟨u, v, rfl, hu, hv⟩, hw⟩
        rw [List.reverse_append, List.append_assoc] at hw
        refine ⟨u, v ++ w, List.append_assoc u v w, ?_, ih.mpr ⟨v, w, rfl, hv, hw⟩⟩
        rwa [List.append_assoc]

namespace Pattern

theorem finds_char (p : α → Bool) : Finds (char p).run (char p).Spans where
  sound x y hy := by
    unfold run at hy
    split at hy
    · next a rest hrest =>
        split at hy
        · next hp =>
            obtain rfl := List.mem_singleton.mp hy
            exact ⟨[a], ⟨rfl, hrest⟩, a, rfl, hp⟩
        · cases hy
    · cases hy
  complete := by
    rintro x _ rest hrest ⟨a, rfl, hp⟩
    rw [List.singleton_append] at hrest
    exact ⟨x.read a rest, by simp [run, hrest, hp], rfl, hrest⟩

/-- The outcomes of the matcher are what the pattern matches. -/
theorem run_finds (r : Pattern α) : Finds r.run r.Spans := by
  induction r with
  | empty => exact .nothing
  | char p => exact finds_char p
  | seq r₁ r₂ ih₁ ih₂ => exact ih₁.flatMap ih₂
  | alt r₁ r₂ ih₁ ih₂ => exact ih₁.append ih₂
  | repeated r required more ih =>
      have hstep := ih.forget r.groups
      have hall := (hstep.times required).flatMap (hstep.upTo more)
      refine hall.of_iff fun seen text rest => ?_
      constructor
      · rintro ⟨u, v, rfl, hu, n, hn, hv⟩
        exact ⟨required + n, Nat.le_add_right _ _, Nat.add_le_add_left hn _,
          iterated_add.mpr ⟨u, v, rfl, hu, hv⟩⟩
      · rintro ⟨n, hle, hn, htext⟩
        obtain ⟨k, rfl⟩ := Nat.exists_eq_add_of_le hle
        obtain ⟨u, v, rfl, hu, hv⟩ := iterated_add.mp htext
        exact ⟨u, v, rfl, hu, k, Nat.le_of_add_le_add_left hn, hv⟩
  | group index r ih => exact ih.capture index
  | start =>
      refine (Finds.test fun seen _ => seen.isEmpty = true).of_iff fun seen text rest => ?_
      rw [List.isEmpty_iff, Spans]
  | stop =>
      refine (Finds.test fun _ rest => rest.isEmpty = true).of_iff fun seen text rest => ?_
      rw [List.isEmpty_iff, Spans]
  | boundary word => exact Finds.test fun seen rest => seen.head?.any word ≠ rest.head?.any word

/-- A text matches as a whole exactly if the pattern spans it. -/
theorem regexMatch_isSome_iff (r : Pattern α) (text : List α) :
    (r.regexMatch text).isSome = true ↔ r.Spans [] text [] := by
  rw [regexMatch, Option.isSome_map, List.find?_isSome]
  constructor
  · rintro ⟨y, hy, hrest⟩
    obtain ⟨text', hreads, htext⟩ := r.run_finds.sound _ y hy
    have heq : text = text' ++ y.rest := hreads.rest_eq
    rw [List.isEmpty_iff.mp hrest] at htext heq
    rw [heq, List.append_nil]
    exact htext
  · intro htext
    have hrest : text = text ++ [] := (List.append_nil text).symm
    obtain ⟨y, hy, hreads⟩ := r.run_finds.complete ⟨[], text, []⟩ text [] hrest htext
    exact ⟨y, hy, List.isEmpty_iff.mpr (hreads.rest_eq_of_append hrest)⟩

/-! ## Patterns in use -/

variable {r : Pattern α} {p : α → Bool} {seen text rest : List α}

theorem spans_optional :
    r.optional.Spans seen text rest ↔ text = [] ∨ r.Spans seen text rest := by
  constructor
  · rintro ⟨n, -, hn, htext⟩
    match n, hn, htext with
    | 0, _, htext => exact .inl htext
    | 1, _, ⟨u, v, hsplit, hu, hv⟩ =>
        obtain rfl := hv
        rw [List.append_nil] at hsplit
        exact .inr (hsplit ▸ hu)
  · rintro (htext | htext)
    · exact ⟨0, Nat.le_refl 0, Nat.zero_le _, htext⟩
    · exact ⟨1, Nat.zero_le _, Nat.le_refl _, text, [], (List.append_nil _).symm, htext, rfl⟩

theorem spans_exactly {n : ℕ} :
    (repeated r n 0).Spans seen text rest ↔ Iterated r.Spans n seen text rest := by
  constructor
  · rintro ⟨k, hle, hge, htext⟩
    exact Nat.le_antisymm hle hge ▸ htext
  · exact fun htext => ⟨n, Nat.le_refl n, Nat.le_refl n, htext⟩

theorem iterated_char {n : ℕ} : Iterated (char p).Spans n seen text rest ↔
    text.length = n ∧ ∀ a ∈ text, p a = true := by
  induction n generalizing seen text with
  | zero =>
      rw [List.length_eq_zero_iff]
      exact ⟨fun h => ⟨h, by simp [show text = [] from h]⟩, And.left⟩
  | succ n ih =>
      simp only [Iterated, ih]
      constructor
      · rintro ⟨_, v, rfl, ⟨a, rfl, ha⟩, rfl, hv⟩
        exact ⟨rfl, List.forall_mem_cons.mpr ⟨ha, hv⟩⟩
      · rintro ⟨hlength, htext⟩
        obtain ⟨a, v, rfl⟩ := List.exists_cons_of_length_eq_add_one hlength
        obtain ⟨ha, hv⟩ := List.forall_mem_cons.mp htext
        exact ⟨[a], v, rfl, ⟨a, rfl, ha⟩, Nat.succ.inj hlength, hv⟩

theorem spans_repeated_char {required more : ℕ} :
    (repeated (char p) required more).Spans seen text rest ↔
      (∀ a ∈ text, p a = true) ∧ required ≤ text.length ∧ text.length ≤ required + more := by
  constructor
  · rintro ⟨n, hle, hge, hiterated⟩
    obtain ⟨rfl, htext⟩ := iterated_char.mp hiterated
    exact ⟨htext, hle, hge⟩
  · rintro ⟨htext, hle, hge⟩
    exact ⟨text.length, hle, hge, iterated_char.mpr ⟨rfl, htext⟩⟩

/-! ## Groups -/

theorem times_captures {step : State α → List (State α)}
    (h : ∀ x, ∀ y ∈ step x, y.captures = x.captures) (n : ℕ) :
    ∀ x, ∀ y ∈ times step n x, y.captures = x.captures := by
  induction n with
  | zero =>
      intro x y hy
      rw [List.mem_singleton.mp hy]
  | succ n ih =>
      intro x z hz
      obtain ⟨y, hy, hz⟩ := List.mem_flatMap.mp hz
      rw [ih y z hz, h x y hy]

theorem upTo_captures {step : State α → List (State α)}
    (h : ∀ x, ∀ y ∈ step x, y.captures = x.captures) (n : ℕ) :
    ∀ x, ∀ y ∈ upTo step n x, y.captures = x.captures := by
  induction n with
  | zero =>
      intro x y hy
      rw [List.mem_singleton.mp hy]
  | succ n ih =>
      intro x z hz
      rcases List.mem_append.mp hz with hz | hz
      · obtain ⟨y, hy, hz⟩ := List.mem_flatMap.mp hz
        rw [ih y z hz, h x y (List.mem_filter.mp hy).1]
      · rw [List.mem_singleton.mp hz]

/-- A pattern without groups captures nothing. -/
theorem run_captures (hgroups : r.groups = []) :
    ∀ x, ∀ y ∈ r.run x, y.captures = x.captures := by
  induction r with
  | empty =>
      intro x y hy
      rw [List.mem_singleton.mp hy]
  | char p =>
      intro x y hy
      unfold run at hy
      split at hy
      · split at hy
        · rw [List.mem_singleton.mp hy]
          rfl
        · cases hy
      · cases hy
  | seq r₁ r₂ ih₁ ih₂ =>
      obtain ⟨h₁, h₂⟩ := List.append_eq_nil_iff.mp hgroups
      intro x z hz
      obtain ⟨y, hy, hz⟩ := List.mem_flatMap.mp hz
      rw [ih₂ h₂ y z hz, ih₁ h₁ x y hy]
  | alt r₁ r₂ ih₁ ih₂ =>
      obtain ⟨h₁, h₂⟩ := List.append_eq_nil_iff.mp hgroups
      intro x y hy
      rcases List.mem_append.mp hy with hy | hy
      · exact ih₁ h₁ x y hy
      · exact ih₂ h₂ x y hy
  | repeated r required more ih =>
      have hnone : r.groups = [] := hgroups
      have hstep (x : State α) : ∀ y ∈ r.run (x.forget r.groups), y.captures = x.captures := by
        intro y hy
        rw [ih hnone _ y hy, hnone]
        simp [State.forget]
      intro x z hz
      obtain ⟨y, hy, hz⟩ := List.mem_flatMap.mp hz
      rw [upTo_captures hstep more y z hz, times_captures hstep required x y hy]
  | group index r ih => cases hgroups
  | start | stop | boundary word =>
      intro x y hy
      unfold run at hy
      split at hy
      · rw [List.mem_singleton.mp hy]
      · cases hy

theorem mem_run_seq {r₁ r₂ : Pattern α} {x z : State α} :
    z ∈ (seq r₁ r₂).run x ↔ ∃ y ∈ r₁.run x, z ∈ r₂.run y := List.mem_flatMap

/-- An outcome of a pattern without groups. -/
theorem mem_run {x y : State α} (hgroups : r.groups = []) (hy : y ∈ r.run x) :
    ∃ text, Reads x text y ∧ r.Spans x.seen text y.rest ∧ y.captures = x.captures := by
  obtain ⟨text, hreads, htext⟩ := r.run_finds.sound x y hy
  exact ⟨text, hreads, htext, run_captures hgroups x y hy⟩

/-- A group captures the text that it matches. -/
theorem mem_run_group {x z : State α} {index : ℕ} (hgroups : r.groups = [])
    (hz : z ∈ (group index r).run x) : ∃ text, Reads x text z ∧ r.Spans x.seen text z.rest ∧
      z.captures = (index, text) :: x.captures := by
  obtain ⟨y, hy, rfl⟩ := List.mem_map.mp hz
  obtain ⟨text, hreads, htext, hcaptures⟩ := mem_run hgroups hy
  refine ⟨text, ⟨hreads.seen_eq, hreads.rest_eq⟩, htext, ?_⟩
  rw [State.capture, hreads.textTo_eq, hcaptures]

/-- The groups that are returned belong to an outcome with nothing left to read. -/
theorem exists_run_of_regexMatch {captures : List (ℕ × List α)}
    (h : r.regexMatch text = some captures) :
    ∃ y ∈ r.run ⟨[], text, []⟩, y.rest = [] ∧ y.captures = captures := by
  obtain ⟨y, hy, rfl⟩ := Option.map_eq_some_iff.mp h
  have hrest := List.find?_some (p := fun y : State α => y.rest.isEmpty) hy
  exact ⟨y, List.mem_of_find?_eq_some hy, List.isEmpty_iff.mp hrest, rfl⟩

end Pattern

/-! ## Digits -/

theorem digitChar_le_iff {first last : ℕ} (hfirst : first < 10) (hlast : last < 10) {c : Char} :
    first.digitChar ≤ c ∧ c ≤ last.digitChar ↔
      ∃ n, (first ≤ n ∧ n ≤ last) ∧ c = n.digitChar := by
  have hle (c d : Char) : c ≤ d ↔ c.toNat ≤ d.toNat := UInt32.le_iff_toNat_le
  rw [hle, hle, Nat.toNat_digitChar_of_lt_ten hfirst, Nat.toNat_digitChar_of_lt_ten hlast]
  constructor
  · intro h
    refine ⟨c.toNat - 48, by omega, Char.toNat_inj.mp ?_⟩
    rw [Nat.toNat_digitChar_of_lt_ten (by omega)]
    omega
  · rintro ⟨n, hn, rfl⟩
    rw [Nat.toNat_digitChar_of_lt_ten (by omega)]
    omega

theorem isDigit_iff {c : Char} : c.isDigit = true ↔ ∃ n, (0 ≤ n ∧ n ≤ 9) ∧ c = n.digitChar := by
  rw [← digitChar_le_iff (by decide) (by decide), Char.isDigit_iff_toNat]
  exact and_congr UInt32.le_iff_toNat_le.symm UInt32.le_iff_toNat_le.symm

variable {seen text rest : List Char}

theorem spans_single {c : Char} : (single c).Spans seen text rest ↔ text = [c] := by
  simp [single, Pattern.Spans]

/-- A class of digits. -/
theorem spans_digits {p : Char → Bool} {P : ℕ → Prop}
    (hp : ∀ c, p c = true ↔ ∃ n, P n ∧ c = n.digitChar) :
    (Pattern.char p).Spans seen text rest ↔ ∃ n, P n ∧ text = [n.digitChar] := by
  simp only [Pattern.Spans, hp]
  constructor
  · rintro ⟨_, rfl, n, hn, rfl⟩
    exact ⟨n, hn, rfl⟩
  · rintro ⟨n, hn, rfl⟩
    exact ⟨n.digitChar, rfl, n, hn, rfl⟩

theorem spans_digit : digit.Spans seen text rest ↔ ∃ n, (0 ≤ n ∧ n ≤ 9) ∧ text = [n.digitChar] :=
  spans_digits fun _ => isDigit_iff

theorem spans_range {first last : ℕ} (hfirst : first < 10) (hlast : last < 10) :
    (range first.digitChar last.digitChar).Spans seen text rest ↔
      ∃ n, (first ≤ n ∧ n ≤ last) ∧ text = [n.digitChar] :=
  spans_digits fun c => by
    rw [Bool.and_eq_true, decide_eq_true_iff, decide_eq_true_iff, digitChar_le_iff hfirst hlast]

end Regex
