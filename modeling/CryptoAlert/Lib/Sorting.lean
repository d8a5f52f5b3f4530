import Mathlib.Data.List.Sort

/-!
# Sorting by a key

Python's `sorted(items, key=…)`. The sort keeps the order of items with equal keys. Where no two
items have the same key, the result does not depend on the order in which they were given.
-/

namespace CryptoAlert.Sorting

variable {α κ : Type} [LinearOrder κ]

def sortBy (key : α → κ) (items : List α) : List α :=
  items.insertionSort fun a b => key a ≤ key b

theorem perm_sortBy (key : α → κ) (items : List α) : (sortBy key items).Perm items :=
  List.perm_insertionSort _ items

theorem pairwise_sortBy (key : α → κ) (items : List α) :
    (sortBy key items).Pairwise fun a b => key a ≤ key b := by
  have htotal : Std.Total fun a b : α => key a ≤ key b := ⟨fun a b => le_total (key a) (key b)⟩
  have htrans : IsTrans α fun a b => key a ≤ key b := ⟨fun _ _ _ => le_trans⟩
  exact List.pairwise_insertionSort _ items

theorem nodup_sortBy {key : α → κ} {items : List α} (hkeys : (items.map key).Nodup) :
    ((sortBy key items).map key).Nodup :=
  ((perm_sortBy key items).map key).nodup_iff.mpr hkeys

theorem sortBy_eq_of_perm {key : α → κ} {items items' : List α} (h : items'.Perm items)
    (hkeys : (items.map key).Nodup) : sortBy key items' = sortBy key items := by
  have hperm : (sortBy key items').Perm (sortBy key items) :=
    ((perm_sortBy key items').trans h).trans (perm_sortBy key items).symm
  have hinjective := List.inj_on_of_nodup_map (nodup_sortBy hkeys)
  apply hperm.eq_of_pairwise ?_ (pairwise_sortBy key items') (pairwise_sortBy key items)
  intro a b ha hb hab hba
  exact hinjective (hperm.subset ha) hb (le_antisymm hab hba)

end CryptoAlert.Sorting
