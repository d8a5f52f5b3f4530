import Mathlib.Data.List.Nodup

/-!
# Tables of rows with a primary key

A table is a list of rows; a function gives the key of a row. Writing a row back replaces the
row with its key and leaves the others and their order alone.
-/

namespace CryptoAlert.Table

variable {ρ : Type*} (key : ρ → ℕ)

/-- The row with a key. -/
def find (rows : List ρ) (k : ℕ) : Option ρ :=
  rows.find? fun r => key r == k

/-- Writes a row back. -/
def put (rows : List ρ) (row : ρ) : List ρ :=
  rows.map fun r => if key r = key row then row else r

/-- Adds a row, unless its key is taken. -/
def insert (rows : List ρ) (row : ρ) : Option (List ρ) :=
  if rows.any fun r => key r == key row then none else some (rows ++ [row])

/-- The largest value of a column, `0` for a table without rows. -/
def maxOf (column : ρ → ℕ) (rows : List ρ) : ℕ :=
  (rows.map column).foldr max 0

variable {key} {rows : List ρ} {row r : ρ} {k : ℕ}

theorem find_eq_some (h : find key rows k = some r) : r ∈ rows ∧ key r = k := by
  have hfound := List.find?_some h
  exact ⟨List.mem_of_find?_eq_some h, by simpa using hfound⟩

theorem find_eq_none : find key rows k = none ↔ ∀ r ∈ rows, key r ≠ k := by
  simp [find]

theorem find_of_mem (hn : (rows.map key).Nodup) (hr : r ∈ rows) :
    find key rows (key r) = some r := by
  cases hfind : find key rows (key r) with
  | none => exact absurd rfl (find_eq_none.mp hfind r hr)
  | some r' =>
      obtain ⟨hmem, hkey⟩ := find_eq_some hfind
      rw [List.inj_on_of_nodup_map hn hmem hr hkey]

theorem map_key_put (rows : List ρ) (row : ρ) : (put key rows row).map key = rows.map key := by
  rw [put, List.map_map]
  apply List.map_congr_left
  intro r _
  by_cases h : key r = key row
  · rw [Function.comp_apply, if_pos h, h]
  · rw [Function.comp_apply, if_neg h]

theorem mem_put : r ∈ put key rows row ↔
    (r ∈ rows ∧ key r ≠ key row) ∨ (r = row ∧ ∃ r' ∈ rows, key r' = key row) := by
  rw [put, List.mem_map]
  constructor
  · rintro ⟨r', hr', rfl⟩
    by_cases h : key r' = key row
    · rw [if_pos h]
      exact .inr ⟨rfl, r', hr', h⟩
    · rw [if_neg h]
      exact .inl ⟨hr', h⟩
  · rintro (⟨hr, h⟩ | ⟨rfl, r', hr', h⟩)
    · exact ⟨r, hr, if_neg h⟩
    · exact ⟨r', hr', if_pos h⟩

/-- A property of all rows survives a write whose row has it. -/
theorem forall_put {p : ρ → Prop} (h : ∀ r ∈ rows, p r) (hrow : p row) :
    ∀ r ∈ put key rows row, p r := by
  intro r hr
  obtain ⟨hr, -⟩ | ⟨rfl, -⟩ := mem_put.mp hr
  · exact h r hr
  · exact hrow

theorem mem_put_self (h : r ∈ rows) (hkey : key r = key row) : row ∈ put key rows row :=
  mem_put.mpr (.inr ⟨rfl, r, h, hkey⟩)

theorem mem_put_other (h : r ∈ rows) (hkey : key r ≠ key row) : r ∈ put key rows row :=
  mem_put.mpr (.inl ⟨h, hkey⟩)

/-- Writing back a row that is related to its old version relates the tables row by row. -/
theorem forall₂_put {R : ρ → ρ → Prop} (hrefl : ∀ r, R r r) (hn : (rows.map key).Nodup)
    (hr : r ∈ rows) (hkey : key row = key r) (h : R r row) :
    List.Forall₂ R rows (put key rows row) := by
  rw [put, List.forall₂_map_right_iff, List.forall₂_same]
  intro r' hr'
  by_cases hrow : key r' = key row
  · rw [if_pos hrow, List.inj_on_of_nodup_map hn hr' hr (hrow.trans hkey)]
    exact h
  · rw [if_neg hrow]
    exact hrefl r'

/-- Writing back the row that was just added. -/
theorem put_append_fresh (hfresh : ∀ r ∈ rows, key r ≠ key row) (hr : key r = key row) :
    put key (rows ++ [r]) row = rows ++ [row] := by
  have hrows : rows.map (fun r => if key r = key row then row else r) = rows.map id :=
    List.map_congr_left fun r' hr' => if_neg (hfresh r' hr')
  rw [put, List.map_append, List.map_singleton, if_pos hr, hrows, List.map_id]

/-- Writing back a row as it is. -/
theorem put_of_mem (hn : (rows.map key).Nodup) (hr : r ∈ rows) : put key rows r = rows := by
  have hrows : rows.map (fun r' => if key r' = key r then r else r') = rows.map id := by
    refine List.map_congr_left fun r' hr' => ?_
    by_cases hkey : key r' = key r
    · rw [if_pos hkey, List.inj_on_of_nodup_map hn hr' hr hkey, id]
    · rw [if_neg hkey, id]
  rw [put, hrows, List.map_id]

/-- Writing a row back exchanges it in its place. -/
theorem exists_put_eq (hn : (rows.map key).Nodup) (hr : r ∈ rows) (hkey : key row = key r) :
    ∃ l₁ l₂, rows = l₁ ++ r :: l₂ ∧ put key rows row = l₁ ++ row :: l₂ := by
  obtain ⟨l₁, l₂, rfl⟩ := List.append_of_mem hr
  have hkeep : ∀ l : List ρ, (∀ r' ∈ l, key r' ≠ key r) →
      l.map (fun r' => if key r' = key row then row else r') = l := by
    intro l hl
    calc l.map (fun r' => if key r' = key row then row else r') = l.map id :=
          List.map_congr_left fun r' hr' => if_neg (by rw [hkey]; exact hl r' hr')
      _ = l := List.map_id l
  rw [List.map_append, List.map_cons] at hn
  have hafter : key r ∉ l₂.map key := (List.nodup_cons.mp hn.of_append_right).1
  have hbefore : ∀ r' ∈ l₁, key r' ≠ key r := fun r' hr' =>
    (List.nodup_append.mp hn).2.2 _ (List.mem_map_of_mem hr') _ List.mem_cons_self
  refine ⟨l₁, l₂, rfl, ?_⟩
  rw [put, List.map_append, List.map_cons, if_pos hkey.symm, hkeep l₁ hbefore, hkeep l₂]
  intro r' hr' heq
  exact hafter (heq ▸ List.mem_map_of_mem hr')

/-- Tables that are related row by row agree on every column that the relation keeps. -/
theorem map_eq_of_forall₂ {σ β : Type*} {R : ρ → σ → Prop} {f : ρ → β} {g : σ → β}
    {rows : List ρ} {rows' : List σ} (hf : ∀ r r', R r r' → g r' = f r)
    (h : List.Forall₂ R rows rows') : rows'.map g = rows.map f := by
  induction h with
  | nil => rfl
  | cons hr _ ih => rw [List.map_cons, List.map_cons, ih, hf _ _ hr]

/-- Every row of the second table has its row in the first one. -/
theorem exists_of_forall₂ {σ : Type*} {R : ρ → σ → Prop} {rows : List ρ} {rows' : List σ} {r' : σ}
    (h : List.Forall₂ R rows rows') (hr : r' ∈ rows') : ∃ r ∈ rows, R r r' := by
  induction h with
  | nil => cases hr
  | cons hrel _ ih =>
      obtain rfl | hr := List.mem_cons.mp hr
      · exact ⟨_, List.mem_cons_self, hrel⟩
      · obtain ⟨r, hmem, hr⟩ := ih hr
        exact ⟨r, List.mem_cons_of_mem _ hmem, hr⟩

theorem exists_of_forall₂' {σ : Type*} {R : ρ → σ → Prop} {rows : List ρ} {rows' : List σ}
    (h : List.Forall₂ R rows rows') (hr : r ∈ rows) : ∃ r' ∈ rows', R r r' := by
  induction h with
  | nil => cases hr
  | cons hrel _ ih =>
      obtain rfl | hr := List.mem_cons.mp hr
      · exact ⟨_, List.mem_cons_self, hrel⟩
      · obtain ⟨r', hmem, hr'⟩ := ih hr
        exact ⟨r', List.mem_cons_of_mem _ hmem, hr'⟩

theorem find_put_other (h : k ≠ key row) : find key (put key rows row) k = find key rows k := by
  induction rows with
  | nil => rfl
  | cons r rows ih =>
      rw [find, find] at ih
      by_cases hr : key r = key row
      · have hrow : (key row == k) = false := by simpa using Ne.symm h
        have hrk : (key r == k) = false := by rw [hr]; exact hrow
        simp only [find, put, List.map_cons, if_pos hr, List.find?_cons, hrow, hrk] at ih ⊢
        exact ih
      · simp only [find, put, List.map_cons, if_neg hr, List.find?_cons] at ih ⊢
        cases key r == k <;> simp only [ih]

theorem find_put_self (h : ∃ r ∈ rows, key r = key row) :
    find key (put key rows row) (key row) = some row := by
  induction rows with
  | nil => simp at h
  | cons r rows ih =>
      by_cases hr : key r = key row
      · simp [find, put, hr]
      · have hrow : (key r == key row) = false := by simpa using hr
        obtain ⟨r', hmem, hkey⟩ := h
        obtain rfl | hmem := List.mem_cons.mp hmem
        · exact absurd hkey hr
        · have ih := ih ⟨r', hmem, hkey⟩
          simp only [find, put, List.map_cons, if_neg hr, List.find?_cons, hrow] at ih ⊢
          exact ih

theorem insert_eq_some {rows' : List ρ} (h : insert key rows row = some rows') :
    rows' = rows ++ [row] ∧ ∀ r ∈ rows, key r ≠ key row := by
  rw [insert] at h
  split_ifs at h with hany
  cases h
  refine ⟨rfl, ?_⟩
  simpa using hany

theorem nodup_insert (hn : (rows.map key).Nodup) (hfresh : ∀ r ∈ rows, key r ≠ key row) :
    ((rows ++ [row]).map key).Nodup := by
  rw [List.map_append, List.map_singleton]
  apply List.Nodup.append hn (List.nodup_singleton _)
  simpa using hfresh

theorem le_maxOf {column : ρ → ℕ} (h : r ∈ rows) : column r ≤ maxOf column rows := by
  induction rows with
  | nil => simp at h
  | cons r' rows ih =>
      have hcons : maxOf column (r' :: rows) = max (column r') (maxOf column rows) := rfl
      obtain rfl | h := List.mem_cons.mp h
      · omega
      · have := ih h
        omega

theorem maxOf_le {column : ρ → ℕ} {n : ℕ} (h : ∀ r ∈ rows, column r ≤ n) :
    maxOf column rows ≤ n := by
  induction rows with
  | nil => exact Nat.zero_le n
  | cons r rows ih =>
      have hcons : maxOf column (r :: rows) = max (column r) (maxOf column rows) := rfl
      have hr := h r List.mem_cons_self
      have hrows := ih fun r' hr' => h r' (List.mem_cons_of_mem _ hr')
      omega

theorem getElem?_append_of_ne {α : Type*} {l : List α} {a : α} {i : ℕ} (h : i ≠ l.length) :
    (l ++ [a])[i]? = l[i]? := by
  by_cases hlt : i < l.length
  · exact List.getElem?_append_left hlt
  · rw [List.getElem?_eq_none (show l.length ≤ i by omega), List.getElem?_eq_none]
    rw [List.length_append, List.length_singleton]
    omega

end CryptoAlert.Table

namespace CryptoAlert

/-- A traversal that succeeds relates the two lists element by element. -/
theorem mapM_eq_some_iff {α β : Type} {f : α → Option β} {l : List α} {l' : List β} :
    l.mapM f = some l' ↔ List.Forall₂ (fun a b => f a = some b) l l' := by
  induction l generalizing l' with
  | nil => simp [eq_comm]
  | cons a l ih =>
      rw [List.forall₂_cons_left_iff, List.mapM_cons, Option.bind_eq_bind,
        Option.bind_eq_some_iff]
      constructor
      · rintro ⟨b, hb, h⟩
        obtain ⟨tail, htail, h⟩ := Option.bind_eq_some_iff.mp h
        cases h
        exact ⟨b, tail, hb, ih.mp htail, rfl⟩
      · rintro ⟨b, tail, hb, htail, rfl⟩
        rw [ih.mpr htail]
        exact ⟨b, hb, rfl⟩

theorem isSome_mapM_iff {α β : Type} {f : α → Option β} {l : List α} :
    (l.mapM f).isSome ↔ ∀ a ∈ l, (f a).isSome := by
  constructor
  · intro h a ha
    obtain ⟨l', hl'⟩ := Option.isSome_iff_exists.mp h
    have hall := mapM_eq_some_iff.mp hl'
    clear h hl'
    induction hall with
    | nil => cases ha
    | cons hb hrest ih =>
        obtain rfl | ha := List.mem_cons.mp ha
        · rw [hb]
          rfl
        · exact ih ha
  · intro h
    induction l with
    | nil => rfl
    | cons a l ih =>
        obtain ⟨b, hb⟩ := Option.isSome_iff_exists.mp (h a List.mem_cons_self)
        obtain ⟨bs, hbs⟩ := Option.isSome_iff_exists.mp
          (ih fun c hc => h c (List.mem_cons_of_mem a hc))
        rw [mapM_eq_some_iff.mpr (.cons hb (mapM_eq_some_iff.mp hbs))]
        rfl

end CryptoAlert
