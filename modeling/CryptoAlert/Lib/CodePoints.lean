import Mathlib.Data.List.DropRight
import Mathlib.Data.Int.Notation

/-!
# Texts of code points

A Python text is a list of code points, which may be surrogates. It can be encoded in UTF-8 if it
holds none, and be stored in a column if it holds no null character either and is not too long;
spaces that do not fit into a column are cut off.
-/

namespace CryptoAlert

abbrev CodePoint := Fin 0x110000

abbrev CodeText := List CodePoint

instance lawfulCodeTexts : LawfulBEq (List CodePoint) := inferInstance

namespace CodePoint

variable (c : CodePoint)

def ofChar (c : Char) : CodePoint := Fin.ofNat _ c.toNat

def isSurrogate : Bool := 0xD800 ≤ c.val && c.val ≤ 0xDFFF

def isAscii : Bool := c.val < 128

/-- White space in the sense of `str.isspace`. -/
def isSpace : Bool :=
  let n := c.val
  (9 ≤ n && n ≤ 13) || (28 ≤ n && n ≤ 32) || n == 0x85 || n == 0xA0 || n == 0x1680 ||
    (0x2000 ≤ n && n ≤ 0x200A) || n == 0x2028 || n == 0x2029 || n == 0x202F ||
    n == 0x205F || n == 0x3000

/-- `[A-Za-z0-9]`. -/
def isAlnum : Bool :=
  let n := c.val
  (65 ≤ n && n ≤ 90) || (97 ≤ n && n ≤ 122) || (48 ≤ n && n ≤ 57)

def newline : CodePoint := ofChar '\n'

theorem ofChar_injective : Function.Injective ofChar := by
  have hlt : ∀ c : Char, c.toNat < 0x110000 := by
    intro c
    rcases c.valid with hlow | ⟨-, hhigh⟩
    · exact Nat.lt_trans hlow (by decide)
    · exact hhigh
  intro c d h
  have hval : c.toNat % 0x110000 = d.toNat % 0x110000 := congrArg Fin.val h
  rw [Nat.mod_eq_of_lt (hlt c), Nat.mod_eq_of_lt (hlt d)] at hval
  exact Char.toNat_inj.mp hval

end CodePoint

namespace CodeText

def ofChars (s : List Char) : CodeText := s.map CodePoint.ofChar

def strip (s : CodeText) : CodeText :=
  (s.dropWhile CodePoint.isSpace).rdropWhile CodePoint.isSpace

/-- `str.encode("utf-8")` does not raise. -/
def Encodable (s : CodeText) : Prop := ∀ c ∈ s, c.isSurrogate = false

def IsAscii (s : CodeText) : Prop := ∀ c ∈ s, c.isAscii = true

instance (s : CodeText) : Decidable s.Encodable := List.decidableBAll _ s

instance (s : CodeText) : Decidable s.IsAscii := List.decidableBAll _ s

/-- What a column of type `varchar(n)` holds of a text; `none` where the database raises. -/
def store (n : ℕ) (s : CodeText) : Option CodeText :=
  if s.Encodable ∧ 0 ∉ s ∧ (s.drop n).all (· == CodePoint.ofChar ' ') then
    some (s.take n)
  else none

/-- `str(n)`. -/
def decimal (n : ℤ) : CodeText :=
  let digits := ofChars (Nat.toDigits 10 n.natAbs)
  if n < 0 then CodePoint.ofChar '-' :: digits else digits

theorem mem_digits {c : CodePoint} {n : ℕ} (h : c ∈ ofChars (Nat.toDigits 10 n)) :
    48 ≤ c.val ∧ c.val ≤ 57 := by
  obtain ⟨d, hd, rfl⟩ := List.mem_map.mp h
  have hdigit := Nat.isDigit_of_mem_toDigits (by decide) (by decide) hd
  simp only [Char.isDigit, Bool.and_eq_true, decide_eq_true_eq] at hdigit
  have hlow : 48 ≤ d.toNat := hdigit.1
  have hhigh : d.toNat ≤ 57 := hdigit.2
  have hval : (CodePoint.ofChar d).val = d.toNat := Nat.mod_eq_of_lt (by omega)
  rw [hval]
  exact ⟨hlow, hhigh⟩

theorem ofChars_injective : Function.Injective ofChars :=
  List.map_injective_iff.mpr CodePoint.ofChar_injective

theorem digits_injective {m n : ℕ}
    (h : ofChars (Nat.toDigits 10 m) = ofChars (Nat.toDigits 10 n)) : m = n := by
  have hdigits := ofChars_injective h
  rw [← @Nat.ofDigitChars_ten_toDigits m, hdigits, Nat.ofDigitChars_ten_toDigits]

theorem newline_notMem_decimal (n : ℤ) : CodePoint.newline ∉ decimal n := by
  have hdigits : CodePoint.newline ∉ ofChars (Nat.toDigits 10 n.natAbs) := by
    intro h
    have hlow := (mem_digits h).1
    exact absurd hlow (by decide)
  rw [decimal]
  split_ifs
  · intro h
    rcases List.mem_cons.mp h with hsign | hdigit
    · exact absurd hsign (by decide)
    · exact hdigits hdigit
  · exact hdigits

theorem decimal_injective : Function.Injective decimal := by
  have hsign : ∀ m n : ℕ, CodePoint.ofChar '-' :: ofChars (Nat.toDigits 10 m) ≠
      ofChars (Nat.toDigits 10 n) := by
    intro m n h
    have hmem : CodePoint.ofChar '-' ∈ ofChars (Nat.toDigits 10 n) := by
      rw [← h]
      exact List.mem_cons_self
    exact absurd (mem_digits hmem).1 (by decide)
  intro m n h
  simp only [decimal] at h
  by_cases hm : m < 0
  · by_cases hn : n < 0
    · rw [if_pos hm, if_pos hn] at h
      have habs := digits_injective (List.cons.inj h).2
      omega
    · rw [if_pos hm, if_neg hn] at h
      exact absurd h (hsign _ _)
  · by_cases hn : n < 0
    · rw [if_neg hm, if_pos hn] at h
      exact absurd h.symm (hsign _ _)
    · rw [if_neg hm, if_neg hn] at h
      have habs := digits_injective h
      omega

end CodeText

section Separators

variable {α : Type*} {sep : α}

/-- A text is cut in one way at the first separator. -/
theorem append_separator_inj {a a' b b' : List α} (ha : sep ∉ a) (ha' : sep ∉ a')
    (h : a ++ sep :: b = a' ++ sep :: b') : a = a' ∧ b = b' := by
  induction a generalizing a' with
  | nil =>
      cases a' with
      | nil => exact ⟨rfl, (List.cons.inj h).2⟩
      | cons x a' =>
          have hx := (List.cons.inj h).1
          exact absurd (hx ▸ List.mem_cons_self) ha'
  | cons x a ih =>
      cases a' with
      | nil =>
          have hx := (List.cons.inj h).1
          exact absurd (hx ▸ List.mem_cons_self) ha
      | cons y a' =>
          obtain ⟨hxy, hrest⟩ := List.cons.inj h
          obtain ⟨htail, hb⟩ := ih (fun hmem => ha (List.mem_cons_of_mem _ hmem))
            (fun hmem => ha' (List.mem_cons_of_mem _ hmem)) hrest
          exact ⟨by rw [hxy, htail], hb⟩

/-- A text is cut in one way at the last separator. -/
theorem append_last_separator_inj {a a' b b' : List α} (hb : sep ∉ b) (hb' : sep ∉ b')
    (h : a ++ sep :: b = a' ++ sep :: b') : a = a' ∧ b = b' := by
  have hreverse : b.reverse ++ sep :: a.reverse = b'.reverse ++ sep :: a'.reverse := by
    have hboth := congrArg List.reverse h
    simpa using hboth
  have hnot : ∀ {l : List α}, sep ∉ l → sep ∉ l.reverse := fun hl hmem =>
    hl (List.mem_reverse.mp hmem)
  obtain ⟨hright, hleft⟩ := append_separator_inj (hnot hb) (hnot hb') hreverse
  exact ⟨List.reverse_injective hleft, List.reverse_injective hright⟩

end Separators

end CryptoAlert
