import Mathlib.Data.List.DropRight

/-!
# White space in texts

Two notions of white space are in use: the one of `str.isspace`, which counts the four
information separators, and the Unicode property `White_Space`, by which validators trim.
-/

namespace CryptoAlert.Text

instance lawfulTexts : LawfulBEq (List Char) := inferInstance

/-- Membership in the Unicode property `White_Space`. -/
def isWhiteSpace (c : Char) : Bool :=
  let n := c.toNat
  (9 ≤ n && n ≤ 13) || n == 32 || n == 0x85 || n == 0xA0 || n == 0x1680 ||
    (0x2000 ≤ n && n ≤ 0x200A) || n == 0x2028 || n == 0x2029 || n == 0x202F ||
    n == 0x205F || n == 0x3000

/-- White space in the sense of `str.isspace` and of the class `\s`. -/
def isSpace (c : Char) : Bool :=
  isWhiteSpace c || (28 ≤ c.toNat && c.toNat ≤ 31)

/-- Nothing but white space in the sense of `str.isspace`, so that `strip` leaves nothing. -/
def isBlank (s : List Char) : Bool := s.all isSpace

/-- What a run over a list finds of every member. -/
theorem forall_of_all {α : Type*} {p : α → Prop} [DecidablePred p] {l : List α}
    (h : (l.all fun a => decide (p a)) = true) : ∀ a ∈ l, p a := by
  simpa using h

/-- Removes leading and trailing white space. -/
def trim (s : List Char) : List Char :=
  (s.dropWhile isWhiteSpace).rdropWhile isWhiteSpace

/-- A text with at least one character that is not white space. -/
def HasInk (s : List Char) : Prop :=
  ∃ c ∈ s, isWhiteSpace c = false

theorem hasInk_append_left {s : List Char} (h : HasInk s) (t : List Char) : HasInk (s ++ t) := by
  obtain ⟨c, hc, hw⟩ := h
  exact ⟨c, List.mem_append_left t hc, hw⟩

theorem hasInk_append_right (s : List Char) {t : List Char} (h : HasInk t) : HasInk (s ++ t) := by
  obtain ⟨c, hc, hw⟩ := h
  exact ⟨c, List.mem_append_right s hc, hw⟩

theorem mem_dropWhile_of_not {p : Char → Bool} {s : List Char} {c : Char} (hc : c ∈ s)
    (hp : p c = false) : c ∈ s.dropWhile p := by
  induction s with
  | nil => simp at hc
  | cons d s ih =>
      rw [List.dropWhile_cons]
      split
      · rename_i hd
        rcases List.mem_cons.mp hc with rfl | hs
        · simp [hp] at hd
        · exact ih hs
      · exact hc

theorem mem_rdropWhile_of_not {p : Char → Bool} {s : List Char} {c : Char} (hc : c ∈ s)
    (hp : p c = false) : c ∈ s.rdropWhile p := by
  unfold List.rdropWhile
  rw [List.mem_reverse]
  exact mem_dropWhile_of_not (List.mem_reverse.mpr hc) hp

/-- Trimming keeps every character that is not white space. -/
theorem hasInk_trim_iff (s : List Char) : HasInk (trim s) ↔ HasInk s := by
  constructor
  · rintro ⟨c, hc, hw⟩
    refine ⟨c, ?_, hw⟩
    exact (List.dropWhile_sublist _).subset ((List.rdropWhile_prefix _ _).subset hc)
  · rintro ⟨c, hc, hw⟩
    exact ⟨c, mem_rdropWhile_of_not (mem_dropWhile_of_not hc hw) hw, hw⟩

theorem trim_ne_nil_iff (s : List Char) : trim s ≠ [] ↔ HasInk s := by
  rw [← hasInk_trim_iff]
  constructor
  · intro h
    by_contra hno
    have hall : ∀ c ∈ trim s, isWhiteSpace c = true := by
      intro c hc
      by_contra hw
      exact hno ⟨c, hc, by simpa using hw⟩
    exact (List.rdropWhile_last_not _ _ h) (hall _ (List.getLast_mem h))
  · rintro ⟨c, hc, _⟩ h
    simp [h] at hc

theorem trim_eq_self {s : List Char} (h : ∀ c ∈ s, isWhiteSpace c = false) : trim s = s := by
  unfold trim
  cases s with
  | nil => rfl
  | cons c s =>
      rw [List.dropWhile_cons_of_neg (by simp [h c List.mem_cons_self]),
        List.rdropWhile_eq_self_iff]
      intro hne
      simp [h _ (List.getLast_mem hne)]

/-- What is left behind the ends that satisfy a predicate does not begin with it. -/
theorem dropWhile_stripped (p : Char → Bool) (s : List Char) :
    ((s.dropWhile p).rdropWhile p).dropWhile p = (s.dropWhile p).rdropWhile p := by
  cases ht : (s.dropWhile p).rdropWhile p with
  | nil => rfl
  | cons c t =>
      have hpre : (s.dropWhile p).rdropWhile p <+: s.dropWhile p := List.rdropWhile_prefix _ _
      rw [ht] at hpre
      obtain ⟨r, hr⟩ := hpre
      have hc : p c = false := by
        have hne : s.dropWhile p ≠ [] := by simp [← hr]
        have hhead := List.head_dropWhile_not p hne
        simpa [← hr] using hhead
      simp [hc]

@[simp] theorem trim_trim (s : List Char) : trim (trim s) = trim s := by
  unfold trim
  rw [dropWhile_stripped, List.rdropWhile_idempotent]

theorem trim_length_le (s : List Char) : (trim s).length ≤ s.length :=
  le_trans (List.rdropWhile_prefix _ _).length_le (List.dropWhile_sublist _).length_le

/-- The character data that only the Unicode database holds. On ASCII it is what every
version of the database says; elsewhere a development is about every choice of it. -/
structure UnicodeData where
  isAlnum : Char → Bool
  decimal : Char → Option Nat
  lower : List Char → List Char
  casefold : List Char → List Char
  nfkc : List Char → List Char
  isAlnum_ascii : ∀ c, c.toNat < 128 → isAlnum c = c.isAlphanum
  decimal_ascii : ∀ c, c.toNat < 128 →
    decimal c = if c.isDigit then some (c.toNat - 48) else none
  decimal_not_whiteSpace : ∀ c, (decimal c).isSome → isWhiteSpace c = false
  lower_ascii : ∀ s : List Char, (∀ c ∈ s, c.toNat < 128) → lower s = s.map Char.toLower
  casefold_ascii : ∀ s : List Char, (∀ c ∈ s, c.toNat < 128) → casefold s = s.map Char.toLower

/-- The data of a text model whose only letters and digits are the ASCII ones. -/
def UnicodeData.ascii : UnicodeData where
  isAlnum c := c.isAlphanum
  decimal c := if c.isDigit then some (c.toNat - 48) else none
  lower s := s.map Char.toLower
  casefold s := s.map Char.toLower
  nfkc s := s
  isAlnum_ascii _ _ := rfl
  decimal_ascii _ _ := rfl
  decimal_not_whiteSpace c hc := by
    have hd : c.isDigit = true := by
      by_contra hno
      simp [hno] at hc
    simp only [Char.isDigit, Bool.and_eq_true, decide_eq_true_eq, UInt32.le_iff_toNat_le] at hd
    have hlow : 48 ≤ c.toNat := hd.1
    have hhigh : c.toNat ≤ 57 := hd.2
    simp only [isWhiteSpace, Bool.or_eq_false_iff, Bool.and_eq_false_iff, decide_eq_false_iff_not,
      beq_eq_false_iff_ne]
    omega
  lower_ascii _ _ := rfl
  casefold_ascii _ _ := rfl

namespace UnicodeData

variable (u : UnicodeData)

/-- The class `\d`. -/
def isDecimal (c : Char) : Bool := (u.decimal c).isSome

/-- The class `\w`. -/
def isWord (c : Char) : Bool := u.isAlnum c || c == '_'

end UnicodeData

/-- The ASCII letter that a case-insensitive pattern takes the character for. -/
def foldCase (c : Char) : Char :=
  if c.toNat == 0x130 || c.toNat == 0x131 then 'i'
  else if c.toNat == 0x17F then 's'
  else if c.toNat == 0x212A then 'k'
  else c.toLower

/-- A class of lower-case letters and characters without case, read case-insensitively. -/
def ignoreCase (p : Char → Bool) (c : Char) : Bool := p (foldCase c)

end CryptoAlert.Text
