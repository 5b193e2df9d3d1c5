import Mathlib.Data.List.Basic

/-!
# Scans

A checker that goes through named checks and stops at the first one that fails
reports the head of the list of all violations.  A checker that lacks a check
reports the head of that list without the name.
-/

namespace Scan

variable {ε : Type}

/-- The names of the checks that fail, in order. -/
def violated (checks : List (ε × Bool)) : List ε :=
  (checks.filter fun check => !check.2).map Prod.fst

/-- Report the first of some violations. -/
def report : List ε → Except ε Unit
  | [] => .ok ()
  | first :: _ => .error first

@[simp] theorem violated_nil : violated ([] : List (ε × Bool)) = [] := rfl

@[simp] theorem violated_cons (check : ε × Bool) (checks : List (ε × Bool)) :
    violated (check :: checks) =
      if check.2 then violated checks else check.1 :: violated checks := by
  cases holds : check.2 <;> simp [violated, holds]

@[simp] theorem violated_append (left right : List (ε × Bool)) :
    violated (left ++ right) = violated left ++ violated right := by
  simp [violated]

theorem mem_violated {name : ε} {checks : List (ε × Bool)} :
    name ∈ violated checks ↔ (name, false) ∈ checks := by
  simp [violated]

theorem violated_eq_nil_iff {checks : List (ε × Bool)} :
    violated checks = [] ↔ ∀ check ∈ checks, check.2 = true := by
  simp [violated]

theorem mem_of_report {violations : List ε} {name : ε}
    (reported : report violations = .error name) :
    name ∈ violations := by
  cases violations with
  | nil => cases reported
  | cons first rest =>
      obtain rfl := Except.error.inj reported
      exact List.mem_cons_self

/-- The first violation fails after checks that all hold. -/
theorem report_violated_eq_error_iff {name : ε} {checks : List (ε × Bool)} :
    report (violated checks) = .error name ↔
      ∃ before after, checks = before ++ (name, false) :: after ∧
        ∀ check ∈ before, check.2 = true := by
  constructor
  · intro reported
    induction checks with
    | nil => cases reported
    | cons check rest ih =>
        obtain ⟨first, holds⟩ := check
        cases holds with
        | false =>
            obtain rfl := Except.error.inj reported
            exact ⟨[], rest, rfl, by simp⟩
        | true =>
            obtain ⟨before, after, rfl, earlier⟩ := ih (by simpa using reported)
            exact ⟨(first, true) :: before, after, rfl, by simpa using earlier⟩
  · rintro ⟨before, after, rfl, earlier⟩
    rw [violated_append, violated_eq_nil_iff.mpr earlier]
    rfl

/-- Dropping a check drops its name from the violations. -/
theorem violated_filter [DecidableEq ε] (dropped : ε) (checks : List (ε × Bool)) :
    violated (checks.filter fun check => check.1 ≠ dropped) =
      (violated checks).filter fun name => name ≠ dropped := by
  rw [violated, violated, List.filter_map, List.filter_comm]
  rfl

/-! ## Checks on every item -/

variable {α : Type} (checks : ℕ → α → List (ε × Bool))

/-- The checks on the items of a list, from a position on. -/
def each : ℕ → List α → List (ε × Bool)
  | _, [] => []
  | i, item :: rest => checks i item ++ each (i + 1) rest

theorem each_append (left right : List α) (i : ℕ) :
    each checks i (left ++ right) = each checks i left ++ each checks (i + left.length) right := by
  induction left generalizing i with
  | nil => rfl
  | cons item left ih =>
      rw [List.cons_append, each, each, ih, List.append_assoc, List.length_cons, Nat.add_assoc,
        Nat.add_comm 1]

theorem mem_each {items : List α} {start : ℕ} {check : ε × Bool} :
    check ∈ each checks start items ↔
      ∃ k item, items[k]? = some item ∧ check ∈ checks (start + k) item := by
  induction items generalizing start with
  | nil => simp [each]
  | cons item rest ih =>
      rw [each, List.mem_append, ih]
      constructor
      · rintro (here | ⟨k, other, found, there⟩)
        · exact ⟨0, item, rfl, here⟩
        · exact ⟨k + 1, other, found, by rwa [Nat.add_assoc, Nat.add_comm 1] at there⟩
      · rintro ⟨k, other, found, member⟩
        cases k with
        | zero =>
            obtain rfl : item = other := by simpa using found
            exact .inl member
        | succ k =>
            exact .inr ⟨k, other, found, by rwa [Nat.add_assoc, Nat.add_comm 1]⟩

/-- Nothing is violated on the items of a list if nothing is on each of them. -/
theorem violated_each_eq_nil {items : List α} {start : ℕ}
    (clean : ∀ k item, items[k]? = some item → violated (checks (start + k) item) = []) :
    violated (each checks start items) = [] := by
  rw [violated_eq_nil_iff]
  intro check member
  obtain ⟨k, item, found, checked⟩ := (mem_each checks).mp member
  exact violated_eq_nil_iff.mp (clean k item found) check checked

/-- The first item with a violation comes first among the violations. -/
theorem violated_each_of_first {items : List α} {i : ℕ} {item : α} (found : items[i]? = some item)
    (clean : ∀ k < i, ∀ item, items[k]? = some item → violated (checks k item) = []) :
    violated (each checks 0 items) =
      violated (checks i item) ++ violated (each checks (i + 1) (items.drop (i + 1))) := by
  obtain ⟨inside, rfl⟩ := List.getElem?_eq_some_iff.mp found
  have before : violated (each checks 0 (items.take i)) = [] := by
    apply violated_each_eq_nil
    intro k other earlier
    rw [List.getElem?_take] at earlier
    split at earlier
    · rename_i below
      rw [Nat.zero_add]
      exact clean k below other earlier
    · cases earlier
  conv_lhs => rw [← List.take_append_drop i items, List.drop_eq_getElem_cons inside]
  rw [each_append, violated_append, before, List.nil_append, each, violated_append, Nat.zero_add,
    List.length_take_of_le (Nat.le_of_lt inside)]

end Scan
