import Mathlib.Data.List.Nodup

/-!
# Dictionaries

A dictionary keeps its items in the order in which their keys were first set; setting a key
again exchanges the value in its place.
-/

namespace CryptoAlert

variable {κ ν : Type*} [DecidableEq κ]

/-- Sets one key of a list of items. -/
def setItem (k : κ) (v : ν) : List (κ × ν) → List (κ × ν)
  | [] => [(k, v)]
  | item :: items => if item.1 = k then (k, v) :: items else item :: setItem k v items

theorem mem_keys_setItem {k k' : κ} {v : ν} {items : List (κ × ν)} :
    k' ∈ (setItem k v items).map Prod.fst ↔ k' = k ∨ k' ∈ items.map Prod.fst := by
  induction items with
  | nil => simp [setItem]
  | cons item items ih =>
      by_cases h : item.1 = k
      · rw [setItem, if_pos h, List.map_cons, List.map_cons, List.mem_cons, List.mem_cons, h]
        exact or_self_left.symm
      · rw [setItem, if_neg h, List.map_cons, List.map_cons, List.mem_cons, List.mem_cons, ih]
        exact or_left_comm

theorem nodup_setItem (k : κ) (v : ν) {items : List (κ × ν)}
    (h : (items.map Prod.fst).Nodup) : ((setItem k v items).map Prod.fst).Nodup := by
  induction items with
  | nil => exact List.nodup_singleton k
  | cons item items ih =>
      rw [List.map_cons, List.nodup_cons] at h
      by_cases hk : item.1 = k
      · rw [setItem, if_pos hk, List.map_cons, List.nodup_cons, ← hk]
        exact h
      · rw [setItem, if_neg hk, List.map_cons, List.nodup_cons, mem_keys_setItem, not_or]
        exact ⟨⟨hk, h.1⟩, ih h.2⟩

structure Dict (κ ν : Type*) where
  items : List (κ × ν)
  nodup : (items.map Prod.fst).Nodup

namespace Dict

def empty : Dict κ ν := ⟨[], List.nodup_nil⟩

def get (d : Dict κ ν) (k : κ) : Option ν := d.items.lookup k

def set (d : Dict κ ν) (k : κ) (v : ν) : Dict κ ν := ⟨setItem k v d.items, nodup_setItem k v d.nodup⟩

/-- Equality of dictionaries, which ignores the order of the items. -/
def same [DecidableEq ν] (d e : Dict κ ν) : Bool :=
  d.items.length == e.items.length && d.items.all fun item => e.get item.1 == some item.2

variable {d e : Dict κ ν} {k k' : κ} {v w : ν}

theorem get_empty : (empty : Dict κ ν).get k = none := rfl

theorem get_set : (d.set k v).get k' = if k' = k then some v else d.get k' := by
  change (setItem k v d.items).lookup k' = if k' = k then some v else d.items.lookup k'
  generalize d.items = items
  induction items with
  | nil =>
      by_cases hk : k' = k
      · rw [if_pos hk, hk, setItem, List.lookup_cons_self]
      · rw [if_neg hk, setItem, List.lookup_cons, beq_false_of_ne hk]
  | cons item items ih =>
      by_cases hitem : item.1 = k
      · rw [setItem, if_pos hitem]
        by_cases hk : k' = k
        · rw [if_pos hk, hk, List.lookup_cons_self]
        · rw [if_neg hk, List.lookup_cons, List.lookup_cons, hitem, beq_false_of_ne hk]
      · rw [setItem, if_neg hitem, List.lookup_cons, List.lookup_cons, ih]
        by_cases hk : k' = k
        · rw [if_pos hk, if_pos hk, beq_false_of_ne (hk.trans_ne (Ne.symm hitem))]
        · rw [if_neg hk, if_neg hk]

theorem get_set_self : (d.set k v).get k = some v := get_set.trans (if_pos rfl)

theorem get_set_of_ne (h : k' ≠ k) : (d.set k v).get k' = d.get k' := get_set.trans (if_neg h)

theorem get_eq_some_iff : d.get k = some v ↔ (k, v) ∈ d.items := by
  obtain ⟨items, hn⟩ := d
  change items.lookup k = some v ↔ (k, v) ∈ items
  induction items with
  | nil => simp
  | cons item items ih =>
      rw [List.map_cons, List.nodup_cons] at hn
      rw [List.lookup_cons, List.mem_cons]
      by_cases hk : k = item.1
      · subst hk
        rw [beq_self_eq_true]
        constructor
        · intro h
          exact .inl (by rw [← Option.some.inj h])
        · rintro (h | h)
          · rw [← h]
          · exact absurd (List.mem_map_of_mem h) hn.1
      · rw [beq_false_of_ne hk]
        refine (ih hn.2).trans ⟨.inr, ?_⟩
        rintro (h | h)
        · exact absurd (congrArg Prod.fst h) hk
        · exact h

/-- Dictionaries with the same values have the same items. -/
theorem perm_items (h : ∀ k, d.get k = e.get k) : d.items.Perm e.items := by
  rw [List.perm_ext_iff_of_nodup (List.Nodup.of_map _ d.nodup) (List.Nodup.of_map _ e.nodup)]
  rintro ⟨k, v⟩
  rw [← get_eq_some_iff, ← get_eq_some_iff, h]

end Dict

end CryptoAlert
