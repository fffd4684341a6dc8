/- Tables: keys with values, in the order in which the keys were first set. -/
namespace NotebookKernels

/-- Keys with values, oldest key first. -/
abbrev Table (κ α : Type) := List (κ × α)

namespace Table

variable {κ α : Type} [DecidableEq κ]

/-- The value of a key. -/
def get? (k : κ) : Table κ α → Option α
  | [] => none
  | (l, a) :: r => if l = k then some a else get? k r

/-- Sets the value of a key. A key that is there keeps its place, a new one comes last. -/
def set (k : κ) (a : α) : Table κ α → Table κ α
  | [] => [(k, a)]
  | (l, b) :: r => if l = k then (k, a) :: r else (l, b) :: set k a r

/-- Removes a key. -/
def erase (k : κ) : Table κ α → Table κ α
  | [] => []
  | (l, b) :: r => if l = k then erase k r else (l, b) :: erase k r

/-- The keys, oldest first. -/
def keys (t : Table κ α) : List κ := t.map (·.1)

@[simp] theorem get?_nil (k : κ) : get? k ([] : Table κ α) = none := rfl

theorem mem_of_get?_eq_some {k : κ} {a : α} {t : Table κ α} (h : get? k t = some a) : (k, a) ∈ t := by
  induction t with
  | nil => cases h
  | cons p r ih =>
    obtain ⟨l, b⟩ := p
    by_cases hl : l = k
    · obtain rfl : b = a := by simpa [get?, hl] using h
      exact hl ▸ List.mem_cons_self ..
    · exact List.mem_cons_of_mem _ (ih (by simpa [get?, hl] using h))

@[simp] theorem get?_set_self (k : κ) (a : α) (t : Table κ α) : get? k (set k a t) = some a := by
  induction t with
  | nil => simp [set, get?]
  | cons p r ih =>
    obtain ⟨l, b⟩ := p
    by_cases h : l = k <;> simp [set, get?, h, ih]

theorem get?_set_of_ne {k l : κ} (h : l ≠ k) (a : α) (t : Table κ α) :
    get? l (set k a t) = get? l t := by
  induction t with
  | nil => simp [set, get?, Ne.symm h]
  | cons p r ih =>
    obtain ⟨m, b⟩ := p
    by_cases hk : m = k
    · subst hk
      simp [set, get?, Ne.symm h]
    · simp only [set, hk, if_false, get?, ih]

@[simp] theorem get?_erase_self (k : κ) (t : Table κ α) : get? k (erase k t) = none := by
  induction t with
  | nil => rfl
  | cons p r ih =>
    obtain ⟨l, b⟩ := p
    by_cases h : l = k <;> simp [erase, get?, h, ih]

theorem get?_erase_of_ne {k l : κ} (h : l ≠ k) (t : Table κ α) :
    get? l (erase k t) = get? l t := by
  induction t with
  | nil => rfl
  | cons p r ih =>
    obtain ⟨m, b⟩ := p
    by_cases hk : m = k
    · subst hk
      simp [erase, get?, Ne.symm h, ih]
    · simp only [erase, hk, if_false, get?, ih]

end Table
end NotebookKernels
