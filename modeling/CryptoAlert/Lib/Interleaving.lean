import Mathlib.Data.List.Basic
import Mathlib.Order.Lattice

/-!
# Taking turns

The lists take turns: first the first items of all lists, then the second items, with the lists
that are exhausted left out. From the sequence of items a collector keeps those whose key it has
not met, up to a limit.
-/

namespace CryptoAlert.Interleaving

variable {α κ : Type}

/-- The items at one offset, in the order of the lists. -/
def turn (lists : List (List α)) (offset : ℕ) : List α := lists.filterMap fun l => l[offset]?

def longest (lists : List (List α)) : ℕ := (lists.map List.length).foldr max 0

theorem length_le_longest {lists : List (List α)} {l : List α} (h : l ∈ lists) :
    l.length ≤ longest lists := by
  induction lists with
  | nil => cases h
  | cons first rest ih =>
    rcases List.mem_cons.mp h with rfl | hrest
    · exact le_max_left _ _
    · exact (ih hrest).trans (le_max_right _ _)

/-- The turns from an offset on. -/
def turnsFrom (lists : List (List α)) (offset : ℕ) : List α :=
  (List.range' offset (longest lists - offset)).flatMap (turn lists)

/-- All items of all lists. -/
def interleave (lists : List (List α)) : List α := turnsFrom lists 0

theorem turnsFrom_of_exhausted {lists : List (List α)} {offset : ℕ}
    (h : ∀ l ∈ lists, l.length ≤ offset) : turnsFrom lists offset = [] := by
  have hlongest : longest lists ≤ offset := by
    induction lists with
    | nil => exact Nat.zero_le _
    | cons first rest ih =>
      exact max_le (h first List.mem_cons_self) (ih fun l hl => h l (List.mem_cons_of_mem _ hl))
  rw [turnsFrom, Nat.sub_eq_zero_of_le hlongest]
  rfl

theorem turnsFrom_of_lt {lists : List (List α)} {l : List α} {offset : ℕ} (hmem : l ∈ lists)
    (hlt : offset < l.length) :
    turnsFrom lists offset = turn lists offset ++ turnsFrom lists (offset + 1) := by
  have hlongest := length_le_longest hmem
  have hcount : longest lists - offset = longest lists - (offset + 1) + 1 := by omega
  rw [turnsFrom, hcount, List.range'_succ, List.flatMap_cons]
  rfl

theorem mem_turnsFrom {lists : List (List α)} {offset : ℕ} {a : α}
    (h : a ∈ turnsFrom lists offset) : ∃ l ∈ lists, a ∈ l := by
  obtain ⟨i, -, hi⟩ := List.mem_flatMap.mp h
  obtain ⟨l, hl, ha⟩ := List.mem_filterMap.mp hi
  exact ⟨l, hl, List.mem_of_getElem? ha⟩

variable [DecidableEq κ] (key : α → κ)

/-- The items whose key occurs neither before them nor among the keys met already. -/
def fresh : List κ → List α → List α
  | _, [] => []
  | seen, a :: rest => if key a ∈ seen then fresh seen rest else a :: fresh (key a :: seen) rest

theorem notMem_seen_of_mem_fresh {seen : List κ} {items : List α} {a : α}
    (h : a ∈ fresh key seen items) : key a ∉ seen := by
  induction items generalizing seen with
  | nil => cases h
  | cons first rest ih =>
    unfold fresh at h
    by_cases hseen : key first ∈ seen
    · rw [if_pos hseen] at h
      exact ih h
    rw [if_neg hseen] at h
    rcases List.mem_cons.mp h with rfl | hrest
    · exact hseen
    · exact fun hmem => ih hrest (List.mem_cons_of_mem _ hmem)

theorem nodup_fresh (seen : List κ) (items : List α) : ((fresh key seen items).map key).Nodup := by
  induction items generalizing seen with
  | nil => exact List.nodup_nil
  | cons first rest ih =>
    unfold fresh
    by_cases hseen : key first ∈ seen
    · rw [if_pos hseen]
      exact ih seen
    rw [if_neg hseen, List.map_cons, List.nodup_cons]
    refine ⟨fun hmem => ?_, ih (key first :: seen)⟩
    obtain ⟨a, ha, hkey⟩ := List.mem_map.mp hmem
    exact notMem_seen_of_mem_fresh key ha (hkey ▸ List.mem_cons_self)

theorem fresh_ne_nil {items : List α} (h : items ≠ []) : fresh key [] items ≠ [] := by
  cases items with
  | nil => exact absurd rfl h
  | cons first rest =>
    rw [fresh, if_neg List.not_mem_nil]
    exact List.cons_ne_nil _ _

end CryptoAlert.Interleaving
