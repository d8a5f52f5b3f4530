import Mathlib.Data.List.Sort

/-!
# Keyset pagination

A listing shows the rows of a table in descending order of a key. A page asks for one row more
than it shows; if that row is there, the next page begins after the key of the last row shown.
The pages of a table whose keys are distinct are the listing, cut into pieces.
-/

namespace CryptoAlert.Keyset

variable {ρ κ : Type*} (key : ρ → κ)

/-- The position of the page that follows a fetch. -/
def next (fetched : List ρ) (limit : ℕ) : Option κ :=
  if limit < fetched.length then (fetched.take limit).getLast?.map key else none

/-- What a fetch shows, and where the next page begins. -/
theorem next_cases {limit : ℕ} (hlimit : 1 ≤ limit) (l : List ρ) :
    (l.length ≤ limit ∧ next key (l.take (limit + 1)) limit = none) ∨
    ∃ before r, l.take limit = before ++ [r] ∧ l = before ++ r :: l.drop limit ∧
      next key (l.take (limit + 1)) limit = some (key r) := by
  by_cases hlong : limit < l.length
  · right
    have hlen : (l.take (limit + 1)).length = limit + 1 := by
      rw [List.length_take]
      omega
    have htake : (l.take (limit + 1)).take limit = l.take limit := by
      rw [List.take_take, Nat.min_eq_left (Nat.le_succ limit)]
    have hne : l.take limit ≠ [] := by
      rw [← List.length_pos_iff, List.length_take]
      omega
    have hsplit := List.dropLast_append_getLast hne
    refine ⟨(l.take limit).dropLast, (l.take limit).getLast hne, hsplit.symm, ?_, ?_⟩
    · conv_lhs => rw [← List.take_append_drop limit l, ← hsplit]
      rw [List.append_assoc, List.singleton_append]
    · rw [next, if_pos (by omega), htake, List.getLast?_eq_some_getLast hne]
      rfl
  · left
    have hlen : (l.take (limit + 1)).length = l.length := by
      rw [List.length_take]
      omega
    refine ⟨by omega, ?_⟩
    rw [next, if_neg (by omega)]

variable [LinearOrder κ]

/-- The rows in descending order of their keys. -/
def listing (rows : List ρ) : List ρ := rows.insertionSort fun a b => key b ≤ key a

/-- The rows after a position. -/
def after (rows : List ρ) : Option κ → List ρ
  | none => rows
  | some k => rows.filter fun r => key r < k

/-- The rows that a query for one page reads. -/
def fetch (rows : List ρ) (limit : ℕ) (position : Option κ) : List ρ :=
  (listing key (after key rows position)).take (limit + 1)

/-- The pages from a position on; `none` if the fuel does not suffice. -/
def pages (rows : List ρ) (limit : ℕ) : ℕ → Option κ → Option (List (List ρ))
  | 0, _ => none
  | fuel + 1, position =>
      let fetched := fetch key rows limit position
      match next key fetched limit with
      | none => some [fetched.take limit]
      | some k => (pages rows limit fuel (some k)).map (fetched.take limit :: ·)

variable {key} {rows : List ρ} {limit : ℕ} {position : Option κ}

theorem perm_listing (rows : List ρ) : (listing key rows).Perm rows :=
  List.perm_insertionSort _ _

theorem pairwise_listing (rows : List ρ) :
    (listing key rows).Pairwise fun a b => key b ≤ key a := by
  have htotal : Std.Total fun a b : ρ => key b ≤ key a := ⟨fun a b => le_total (key b) (key a)⟩
  have htrans : IsTrans ρ fun a b => key b ≤ key a := ⟨fun _ _ _ hab hbc => hbc.trans hab⟩
  exact List.pairwise_insertionSort _ _

/-- With distinct keys the listing descends strictly. -/
theorem pairwise_listing_lt (hn : (rows.map key).Nodup) :
    (listing key rows).Pairwise fun a b => key b < key a := by
  have hkeys : ((listing key rows).map key).Nodup := ((perm_listing rows).map key).nodup_iff.mpr hn
  have hne : (listing key rows).Pairwise fun a b => key a ≠ key b := List.pairwise_map.mp hkeys
  exact (pairwise_listing rows).imp₂ (fun a b hle hne => lt_of_le_of_ne hle hne.symm) hne

theorem listing_filter (hn : (rows.map key).Nodup) (p : ρ → Bool) :
    listing key (rows.filter p) = (listing key rows).filter p := by
  refine List.Perm.eq_of_pairwise ?_ (pairwise_listing _) ((pairwise_listing _).filter p)
    ((perm_listing _).trans ((perm_listing rows).symm.filter p))
  intro a b ha hb hba hab
  have hmem : a ∈ rows := (List.mem_filter.mp ((perm_listing _).subset ha)).1
  have hmem' : b ∈ rows := (perm_listing rows).subset (List.mem_of_mem_filter hb)
  exact List.inj_on_of_nodup_map hn hmem hmem' (le_antisymm hab hba)

/-- What comes after a row of a descending list. -/
theorem filter_lt_append {before rest : List ρ} {r : ρ}
    (h : (before ++ r :: rest).Pairwise fun a b => key b < key a) :
    (before ++ r :: rest).filter (fun a => key a < key r) = rest := by
  obtain ⟨-, hrest, hbefore⟩ := List.pairwise_append.mp h
  have hnone : before.filter (fun a => key a < key r) = [] := by
    rw [List.filter_eq_nil_iff]
    intro a ha
    simpa using (hbefore a ha r List.mem_cons_self).le
  have hall : rest.filter (fun a => key a < key r) = rest := by
    rw [List.filter_eq_self]
    intro a ha
    simpa using (List.pairwise_cons.mp hrest).1 a ha
  rw [List.filter_append, hnone, List.nil_append, List.filter_cons_of_neg (by simp), hall]

theorem nodup_after (hn : (rows.map key).Nodup) (position : Option κ) :
    ((after key rows position).map key).Nodup := by
  cases position with
  | none => exact hn
  | some k => exact hn.sublist (List.filter_sublist.map key)

/-- The rows after a row that a page shows do not depend on where the page began. -/
theorem listing_after_next (hn : (rows.map key).Nodup) {before rest : List ρ} {r : ρ}
    (h : listing key (after key rows position) = before ++ r :: rest) :
    listing key (after key rows (some (key r))) = rest := by
  have hdesc := pairwise_listing_lt (nodup_after hn position)
  rw [h] at hdesc
  have hrest := filter_lt_append hdesc
  rw [← h] at hrest
  rw [← hrest]
  change listing key (rows.filter fun a => key a < key r) = _
  rw [listing_filter hn]
  cases position with
  | none => rfl
  | some k =>
      have hmem : r ∈ rows.filter (fun a => key a < k) := by
        have hperm : (listing key (rows.filter fun a => key a < k)).Perm _ := perm_listing _
        apply hperm.subset
        change listing key (rows.filter fun a => key a < k) = _ at h
        rw [h]
        exact List.mem_append_right _ List.mem_cons_self
      have hr : key r < k := by simpa using (List.mem_filter.mp hmem).2
      change _ = (listing key (rows.filter fun a => key a < k)).filter _
      rw [listing_filter hn, List.filter_filter]
      apply List.filter_congr
      intro a _
      by_cases ha : key a < key r
      · simp [ha, ha.trans hr]
      · simp [ha]

/-- Following the pages to the end shows every row after the position once, in order. -/
theorem pages_eq (hn : (rows.map key).Nodup) (hlimit : 1 ≤ limit) {fuel : ℕ}
    (hfuel : (listing key (after key rows position)).length < fuel) :
    ∃ ps, pages key rows limit fuel position = some ps ∧
      ps.flatten = listing key (after key rows position) := by
  induction fuel generalizing position with
  | zero => omega
  | succ fuel ih =>
      have hpage : (fetch key rows limit position).take limit =
          (listing key (after key rows position)).take limit := by
        rw [fetch, List.take_take, Nat.min_eq_left (Nat.le_succ limit)]
      obtain ⟨hshort, hnext⟩ | ⟨before, r, htake, hsplit, hnext⟩ :=
        next_cases key hlimit (listing key (after key rows position))
      · refine ⟨[(listing key (after key rows position)).take limit], ?_, ?_⟩
        · simp only [pages, fetch, hnext] at hpage ⊢
          rw [hpage]
        · rw [List.flatten_singleton, List.take_of_length_le hshort]
      · have hrest := listing_after_next hn hsplit
        have hlt : (listing key (after key rows (some (key r)))).length < fuel := by
          rw [hrest]
          have hlen := congrArg List.length hsplit
          rw [List.length_append, List.length_cons] at hlen
          omega
        obtain ⟨ps, hps, hflat⟩ := ih hlt
        refine ⟨(listing key (after key rows position)).take limit :: ps, ?_, ?_⟩
        · simp only [pages, fetch, hnext] at hpage ⊢
          rw [hpage, hps]
          rfl
        · rw [List.flatten_cons, hflat, hrest, List.take_append_drop]

end CryptoAlert.Keyset
