import CryptoAlert.Lib.Codec
import Mathlib.Data.List.TakeWhile
import Mathlib.Tactic.Ring

/-!
# Finite decimal numbers and their text form

A decimal is a sign, a coefficient and a power of ten, so `1.0` and `1.00` are different
decimals with one value. Its text form is the scientific string of the decimal arithmetic
specification: plain notation for small exponents and an exponent otherwise.
-/

namespace CryptoAlert

structure Decimal where
  negative : Bool
  coefficient : ℕ
  exponent : ℤ
deriving DecidableEq, Repr

namespace Decimal

def ofNat (n : ℕ) : Decimal := ⟨false, n, 0⟩

def value (d : Decimal) : ℚ :=
  (if d.negative then -1 else 1) * d.coefficient * (10 : ℚ) ^ d.exponent

def digits (d : Decimal) : List Char := Nat.toDigits 10 d.coefficient

/-- The position of the point counted from the left of the digits, before any exponent. -/
def leftDigits (d : Decimal) : ℤ := d.exponent + d.digits.length

def dotPlace (d : Decimal) : ℤ :=
  if d.exponent ≤ 0 ∧ -6 < d.leftDigits then d.leftDigits else 1

def integerPart (d : Decimal) : List Char :=
  if d.dotPlace ≤ 0 then ['0'] else d.digits.take d.dotPlace.toNat

def fractionPart (d : Decimal) : List Char :=
  if d.dotPlace ≤ 0 then List.replicate (-d.dotPlace).toNat '0' ++ d.digits
  else d.digits.drop d.dotPlace.toNat

def exponentText (e : ℤ) : List Char :=
  if e = 0 then []
  else 'E' :: (if e < 0 then '-' else '+') :: Nat.toDigits 10 e.natAbs

def toText (d : Decimal) : List Char :=
  (if d.negative then ['-'] else []) ++ d.integerPart ++
    (if d.fractionPart.isEmpty then [] else '.' :: d.fractionPart) ++
    exponentText (d.leftDigits - d.dotPlace)

/-- Reads a non-empty run of digits. -/
def readNat (s : List Char) : Option ℕ :=
  if !s.isEmpty && s.all Char.isDigit then some (Nat.ofDigitChars 10 s 0) else none

def readExponent : List Char → Option ℤ
  | [] => some 0
  | e :: s =>
      if e == 'E' || e == 'e' then
        match s with
        | '-' :: s => (readNat s).map fun n => -(n : ℤ)
        | '+' :: s => (readNat s).map fun n => (n : ℤ)
        | s => (readNat s).map fun n => (n : ℤ)
      else none

/-- Reads the part behind the sign. -/
def readUnsigned (negative : Bool) (s : List Char) : Option Decimal :=
  let whole := s.takeWhile Char.isDigit
  let rest := s.dropWhile Char.isDigit
  let fraction := match rest with
    | '.' :: r => r.takeWhile Char.isDigit
    | _ => []
  let tail := match rest with
    | '.' :: r => r.dropWhile Char.isDigit
    | r => r
  do
    let coefficient ← readNat (whole ++ fraction)
    let e ← readExponent tail
    return ⟨negative, coefficient, e - fraction.length⟩

def ofText : List Char → Option Decimal
  | '-' :: s => readUnsigned true s
  | '+' :: s => readUnsigned false s
  | s => readUnsigned false s

theorem isDigit_digits (d : Decimal) : ∀ c ∈ d.digits, c.isDigit = true :=
  fun _ hc => Nat.isDigit_of_mem_toDigits (by decide) (by decide) hc

theorem digits_length_pos (d : Decimal) : 0 < d.digits.length := Nat.length_toDigits_pos

theorem isDigit_integerPart (d : Decimal) : ∀ c ∈ d.integerPart, c.isDigit = true := by
  intro c hc
  unfold integerPart at hc
  split_ifs at hc
  · rw [List.mem_singleton] at hc
    subst hc
    decide
  · exact d.isDigit_digits c (List.mem_of_mem_take hc)

theorem isDigit_fractionPart (d : Decimal) : ∀ c ∈ d.fractionPart, c.isDigit = true := by
  intro c hc
  unfold fractionPart at hc
  split_ifs at hc
  · rcases List.mem_append.mp hc with hc | hc
    · rw [List.eq_of_mem_replicate hc]
      decide
    · exact d.isDigit_digits c hc
  · exact d.isDigit_digits c (List.mem_of_mem_drop hc)

/-- The digits around the point spell the coefficient. -/
theorem readNat_parts (d : Decimal) :
    readNat (d.integerPart ++ d.fractionPart) = some d.coefficient := by
  have hall : (d.integerPart ++ d.fractionPart).all Char.isDigit = true := by
    rw [List.all_eq_true]
    intro c hc
    rcases List.mem_append.mp hc with hc | hc
    · exact d.isDigit_integerPart c hc
    · exact d.isDigit_fractionPart c hc
  have hvalue : Nat.ofDigitChars 10 (d.integerPart ++ d.fractionPart) 0 = d.coefficient := by
    unfold integerPart fractionPart
    split_ifs
    · rw [Nat.ofDigitChars_append, Nat.ofDigitChars_append]
      simp [Nat.ofDigitChars_cons, Nat.ofDigitChars_replicate_zero, digits,
        Nat.ofDigitChars_ten_toDigits]
    · rw [List.take_append_drop]
      exact Nat.ofDigitChars_ten_toDigits
  have hne : (d.integerPart ++ d.fractionPart).isEmpty = false := by
    have hpos := d.digits_length_pos
    simp only [List.isEmpty_eq_false_iff, ne_eq, List.append_eq_nil_iff, not_and]
    unfold integerPart fractionPart
    split_ifs
    · simp
    · intro ht hdrop
      have happ := List.take_append_drop d.dotPlace.toNat d.digits
      rw [ht, hdrop] at happ
      rw [← happ] at hpos
      simp at hpos
  simp [readNat, hall, hvalue, hne]

theorem fractionPart_length (d : Decimal) :
    (d.fractionPart.length : ℤ) = d.digits.length - d.dotPlace := by
  have hpos := d.digits_length_pos
  have hle : d.dotPlace ≤ d.digits.length := by
    unfold dotPlace leftDigits
    split_ifs with h <;> omega
  unfold fractionPart
  split_ifs with h
  · rw [List.length_append, List.length_replicate]
    omega
  · rw [List.length_drop]
    omega

theorem readExponent_exponentText (e : ℤ) : readExponent (exponentText e) = some e := by
  have hread : readNat (Nat.toDigits 10 e.natAbs) = some e.natAbs := by
    have hall : (Nat.toDigits 10 e.natAbs).all Char.isDigit = true := by
      rw [List.all_eq_true]
      exact fun c hc => Nat.isDigit_of_mem_toDigits (by decide) (by decide) hc
    have hne : (Nat.toDigits 10 e.natAbs).isEmpty = false := by
      simp [Nat.toDigits_ne_nil]
    simp [readNat, hall, hne, Nat.ofDigitChars_ten_toDigits]
  unfold exponentText
  by_cases h0 : e = 0
  · simp [h0, readExponent]
  · by_cases hneg : e < 0
    · have habs : -(e.natAbs : ℤ) = e := by omega
      simp only [h0, hneg, if_true, if_false, readExponent, hread]
      change some (-(e.natAbs : ℤ)) = some e
      rw [habs]
    · have habs : (e.natAbs : ℤ) = e := by omega
      simp only [h0, hneg, if_false, readExponent, hread]
      change some (e.natAbs : ℤ) = some e
      rw [habs]

/-- Text that does not go on with a digit. -/
def NoDigitNext (s : List Char) : Prop := ∀ c ∈ s.head?, c.isDigit = false

theorem takeWhile_isDigit_append {a b : List Char} (ha : ∀ c ∈ a, c.isDigit = true)
    (hb : NoDigitNext b) : (a ++ b).takeWhile Char.isDigit = a := by
  rw [List.takeWhile_append_of_pos ha]
  cases b with
  | nil => simp
  | cons c b =>
      have hc := hb c (by simp)
      simp [hc]

theorem dropWhile_isDigit_append {a b : List Char} (ha : ∀ c ∈ a, c.isDigit = true)
    (hb : NoDigitNext b) : (a ++ b).dropWhile Char.isDigit = b := by
  rw [List.dropWhile_append_of_pos ha]
  cases b with
  | nil => simp
  | cons c b =>
      have hc := hb c (by simp)
      simp [hc]

theorem noDigitNext_exponentText (e : ℤ) : NoDigitNext (exponentText e) := by
  intro c hc
  unfold exponentText at hc
  split_ifs at hc
  · simp at hc
  all_goals
    simp only [List.head?_cons, Option.mem_some_iff] at hc
    subst hc
    decide

theorem readUnsigned_toText (d : Decimal) (negative : Bool) :
    readUnsigned negative (d.integerPart ++
      (if d.fractionPart.isEmpty then [] else '.' :: d.fractionPart) ++
      exponentText (d.leftDigits - d.dotPlace)) =
    some ⟨negative, d.coefficient, d.exponent⟩ := by
  have hint := d.isDigit_integerPart
  have hfrac := d.isDigit_fractionPart
  have hnext := noDigitNext_exponentText (d.leftDigits - d.dotPlace)
  have hparts := d.readNat_parts
  have hlen := d.fractionPart_length
  have hexp : d.leftDigits - d.dotPlace - d.fractionPart.length = d.exponent := by
    unfold leftDigits
    omega
  unfold readUnsigned
  by_cases hempty : d.fractionPart = []
  · simp only [hempty, List.isEmpty_nil, if_true, List.append_nil,
      takeWhile_isDigit_append hint hnext, dropWhile_isDigit_append hint hnext]
    rw [hempty, List.append_nil] at hparts
    rw [hempty] at hexp
    have hdot : ∀ r, exponentText (d.leftDigits - d.dotPlace) ≠ '.' :: r := by
      intro r h
      unfold exponentText at h
      split_ifs at h <;> simp at h
    split
    · rename_i r heq
      exact absurd heq (hdot r)
    · rename_i hno
      simp only [List.append_nil, hparts, readExponent_exponentText]
      simpa using hexp
  · have hne : d.fractionPart.isEmpty = false := by simpa using hempty
    have hpoint : NoDigitNext ('.' :: (d.fractionPart ++
        exponentText (d.leftDigits - d.dotPlace))) := by
      intro c hc
      simp only [List.head?_cons, Option.mem_some_iff] at hc
      subst hc
      decide
    simp only [hne, Bool.false_eq_true, if_false, List.append_assoc,
      takeWhile_isDigit_append hint hpoint, dropWhile_isDigit_append hint hpoint,
      List.cons_append, takeWhile_isDigit_append hfrac hnext,
      dropWhile_isDigit_append hfrac hnext, hparts, readExponent_exponentText]
    simpa using hexp

theorem integerPart_ne_nil (d : Decimal) : d.integerPart ≠ [] := by
  have hpos := d.digits_length_pos
  unfold integerPart
  split_ifs with h
  · simp
  · rw [ne_eq, List.take_eq_nil_iff, not_or]
    constructor
    · omega
    · exact List.ne_nil_of_length_pos hpos

theorem ofText_of_digit {s : List Char} {c : Char} (hc : c.isDigit = true) :
    ofText (c :: s) = readUnsigned false (c :: s) := by
  have hminus : c ≠ '-' := by
    rintro rfl
    exact absurd hc (by decide)
  have hplus : c ≠ '+' := by
    rintro rfl
    exact absurd hc (by decide)
  unfold ofText
  split
  · rename_i heq
    exact absurd (List.cons.inj heq).1 hminus
  · rename_i heq
    exact absurd (List.cons.inj heq).1 hplus
  · rfl

/-- The text form of a decimal denotes exactly that decimal. -/
theorem ofText_toText (d : Decimal) : ofText d.toText = some d := by
  have hread := d.readUnsigned_toText d.negative
  unfold toText
  cases hneg : d.negative with
  | true =>
      rw [hneg] at hread
      simp only [if_true, List.cons_append, List.nil_append, ofText]
      rw [hread, ← hneg]
  | false =>
      rw [hneg] at hread
      cases hi : d.integerPart with
      | nil => exact absurd hi d.integerPart_ne_nil
      | cons c rest =>
          have hc := d.isDigit_integerPart c (by simp [hi])
          rw [hi] at hread
          simp only [Bool.false_eq_true, if_false, List.nil_append, List.cons_append] at hread ⊢
          rw [ofText_of_digit hc, hread, ← hneg]

def codec : Codec Decimal :=
  Codec.text.refine (fun s => ofText s.toList) (fun d => String.ofList d.toText)
    (fun d => by rw [String.toList_ofList, ofText_toText])

end Decimal

end CryptoAlert
