import CryptoAlert.Lib.Numerals
import Mathlib.Algebra.GroupWithZero.Nat
import Mathlib.Data.Option.Basic

/-!
# UUIDs and their texts

A UUID is written as thirty-two hexadecimal digits in five groups.
-/

namespace CryptoAlert

instance uuidsExist : NeZero (2 ^ 128) := ⟨by decide⟩

abbrev Uuid := Fin (2 ^ 128)

namespace Uuid

/-- `str(uuid)`. -/
def text (u : Uuid) : List Char :=
  let hex := Numerals.write 16 32 u.val
  hex.take 8 ++ '-' :: ((hex.drop 8).take 4 ++ '-' :: ((hex.drop 12).take 4 ++
    '-' :: ((hex.drop 16).take 4 ++ '-' :: hex.drop 20)))

/-- `UUID(text)`, without the prefixes and braces that it also removes. -/
def ofText (s : List Char) : Option Uuid := do
  let hex := s.filter (· != '-')
  guard (hex.length = 32)
  let n ← Numerals.read 16 hex
  if h : n < 2 ^ 128 then some ⟨n, h⟩ else none

variable (u : Uuid)

theorem length_text : u.text.length = 36 := by
  simp [text]

theorem filter_text : u.text.filter (· != '-') = Numerals.write 16 32 u.val := by
  have hkeep : ∀ l : List Char, (∀ c ∈ l, c ∈ Numerals.write 16 32 u.val) →
      l.filter (· != '-') = l := by
    intro l hl
    rw [List.filter_eq_self]
    intro c hc
    obtain ⟨d, hd, rfl⟩ := Numerals.mem_write (by decide) (hl c hc)
    have hall : ∀ i : Fin 16, (Nat.digitChar i.val != '-') = true := by decide +kernel
    exact hall ⟨d, hd⟩
  have hdash : ('-' != '-') = false := by decide
  rw [text]
  simp only [List.filter_append, List.filter_cons, hdash, Bool.false_eq_true, if_false]
  rw [hkeep _ fun c hc => List.mem_of_mem_take hc,
    hkeep _ fun c hc => List.mem_of_mem_drop (List.mem_of_mem_take hc),
    hkeep _ fun c hc => List.mem_of_mem_drop (List.mem_of_mem_take hc),
    hkeep _ fun c hc => List.mem_of_mem_drop (List.mem_of_mem_take hc),
    hkeep _ fun c hc => List.mem_of_mem_drop hc]
  have hsplit : ∀ (l : List Char) (a b : ℕ), (l.drop a).take b ++ l.drop (a + b) = l.drop a := by
    intro l a b
    rw [← List.drop_drop, List.take_append_drop]
  rw [hsplit _ 16 4, hsplit _ 12 4, hsplit _ 8 4, List.take_append_drop]

/-- Reading the text of an identifier gives it back. -/
theorem ofText_text : ofText u.text = some u := by
  have hread : Numerals.read 16 (Numerals.write 16 32 u.val) = some u.val :=
    Numerals.read_write (Nat.le_refl 16) u.isLt
  rw [ofText]
  simp only [filter_text, Numerals.length_write, hread, Option.bind_eq_bind, Option.bind_some]
  rw [dif_pos u.isLt]
  rfl

end Uuid

end CryptoAlert
