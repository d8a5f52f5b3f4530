import CryptoAlert.Lib.Table
import Mathlib.Data.List.Forall2

/-!
# Clashes among labelled entries

Entries carry a key, a level and a place. Two entries of one key clash when they stand at the
same level in different places. In a list that is read from left to right a clash shows up
unless an entry of the key at a higher level comes before it.
-/

namespace CryptoAlert

structure Labelling (α κ π : Type*) where
  key : α → κ
  level : α → ℕ
  place : α → π

namespace Labelling

variable {α β κ κ' π π' : Type*} (L : Labelling α κ π)

structure Clash (a b : α) : Prop where
  key : L.key a = L.key b
  level : L.level a = L.level b
  place : L.place a ≠ L.place b

/-- No entry of the key of `b` has a higher level than `b`. -/
def Bounded (l : List α) (b : α) : Prop := ∀ c ∈ l, L.key c = L.key b → L.level c ≤ L.level b

/-- The clash of `a` and `b` shows up when the list is read as far as `b`. -/
def Exposes (l : List α) (a b : α) : Prop :=
  ∃ pre post, l = pre ++ b :: post ∧ a ∈ pre ∧ L.Clash a b ∧ L.Bounded pre b

variable {L} {l l' : List α} {a b : α}

theorem Clash.symm (h : L.Clash a b) : L.Clash b a :=
  ⟨h.key.symm, h.level.symm, h.place.symm⟩

theorem Exposes.clash (h : L.Exposes l a b) : L.Clash a b := by
  obtain ⟨pre, post, -, -, hclash, -⟩ := h
  exact hclash

theorem Exposes.mem (h : L.Exposes l a b) : a ∈ l ∧ b ∈ l := by
  obtain ⟨pre, post, rfl, ha, -, -⟩ := h
  exact ⟨List.mem_append_left _ ha, List.mem_append_right _ List.mem_cons_self⟩

theorem Exposes.append_right (h : L.Exposes l a b) (l' : List α) : L.Exposes (l ++ l') a b := by
  obtain ⟨pre, post, rfl, ha, hclash, hbounded⟩ := h
  exact ⟨pre, post ++ l', by rw [List.append_assoc, List.cons_append], ha, hclash, hbounded⟩

theorem Exposes.append_left (h : L.Exposes l' a b) (hl : L.Bounded l b) :
    L.Exposes (l ++ l') a b := by
  obtain ⟨pre, post, rfl, ha, hclash, hbounded⟩ := h
  refine ⟨l ++ pre, post, (List.append_assoc _ _ _).symm, List.mem_append_right _ ha, hclash, ?_⟩
  intro c hc
  rcases List.mem_append.mp hc with hc | hc
  · exact hl c hc
  · exact hbounded c hc

theorem exposes_singleton (ha : a ∈ l) (hclash : L.Clash a b) (hbounded : L.Bounded l b) :
    L.Exposes (l ++ [b]) a b :=
  ⟨l, [], rfl, ha, hclash, hbounded⟩

/-- A clash shows up in one of two parts of a list or between them. -/
theorem Exposes.append_cases (h : L.Exposes (l ++ l') a b) :
    L.Exposes l a b ∨ L.Exposes l' a b ∨
      (a ∈ l ∧ b ∈ l' ∧ L.Clash a b ∧ L.Bounded l b) := by
  obtain ⟨pre, post, heq, ha, hclash, hbounded⟩ := h
  rcases List.append_eq_append_iff.mp heq with ⟨mid, rfl, rfl⟩ | ⟨mid, rfl, hmid⟩
  · rcases List.mem_append.mp ha with ha | ha
    · refine .inr (.inr ⟨ha, List.mem_append_right _ List.mem_cons_self, hclash, ?_⟩)
      exact fun c hc => hbounded c (List.mem_append_left _ hc)
    · exact .inr (.inl ⟨mid, post, rfl, ha, hclash,
        fun c hc => hbounded c (List.mem_append_right _ hc)⟩)
  · cases mid with
    | nil =>
        rw [List.nil_append] at hmid
        rw [List.append_nil] at heq ⊢
        refine .inr (.inr ⟨ha, ?_, hclash, hbounded⟩)
        rw [← hmid]
        exact List.mem_cons_self
    | cons c mid =>
        rw [List.cons_append] at hmid
        cases hmid
        exact .inl ⟨pre, mid, rfl, ha, hclash, hbounded⟩

/-- Lists whose entries correspond, with equal levels and with the same keys and places told
apart, expose the same clashes. -/
theorem Exposes.transfer {M : Labelling β κ' π'} {R : α → β → Prop} {m : List β}
    (hlevel : ∀ a x, R a x → M.level x = L.level a)
    (hkey : ∀ a x b y, R a x → R b y → (M.key x = M.key y ↔ L.key a = L.key b))
    (hplace : ∀ a x b y, R a x → R b y → (M.place x = M.place y ↔ L.place a = L.place b))
    (hl : List.Forall₂ R l m) (h : L.Exposes l a b) : ∃ x y, R a x ∧ R b y ∧ M.Exposes m x y := by
  obtain ⟨pre, post, rfl, ha, hclash, hbounded⟩ := h
  have hpre := List.forall₂_take_append _ _ _ hl.flip
  have hrest := List.forall₂_drop_append _ _ _ hl.flip
  obtain ⟨y, post', hy, -, hdrop⟩ := List.forall₂_cons_right_iff.mp hrest
  obtain ⟨x, hx, hax⟩ := Table.exists_of_forall₂ hpre ha
  refine ⟨x, y, hax, hy, m.take pre.length, post', ?_, hx, ⟨?_, ?_, ?_⟩, ?_⟩
  · rw [← hdrop, List.take_append_drop]
  · exact (hkey a x b y hax hy).mpr hclash.key
  · rw [hlevel a x hax, hlevel b y hy, hclash.level]
  · exact mt (hplace a x b y hax hy).mp hclash.place
  · intro z hz hz'
    obtain ⟨c, hc, hcz⟩ := Table.exists_of_forall₂' hpre hz
    rw [hlevel c z hcz, hlevel b y hy]
    exact hbounded c hc ((hkey c z b y hcz hy).mp hz')

end Labelling

end CryptoAlert
