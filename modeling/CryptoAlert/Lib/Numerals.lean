import Mathlib.Algebra.Group.Nat.Defs
import Mathlib.Data.List.Basic
import Mathlib.Data.Nat.Notation
import Mathlib.Tactic.SplitIfs

/-!
# Numerals of a fixed width

A numeral is written in lower case and read in either case. Scanners take a text apart from the
left; each returns what it has read and the rest.
-/

namespace CryptoAlert.Numerals

/-- The numeral of `n` with the given width in base `b`. -/
def write (b : ℕ) : ℕ → ℕ → List Char
  | 0, _ => []
  | width + 1, n => write b width (n / b) ++ [Nat.digitChar (n % b)]

def digitValue (c : Char) : Option ℕ :=
  if '0' ≤ c ∧ c ≤ '9' then some (c.toNat - '0'.toNat)
  else if 'a' ≤ c ∧ c ≤ 'z' then some (c.toNat - 'a'.toNat + 10)
  else if 'A' ≤ c ∧ c ≤ 'Z' then some (c.toNat - 'A'.toNat + 10)
  else none

/-- Reads a digit in base `b` behind a number. -/
def push (b n : ℕ) (c : Char) : Option ℕ :=
  (digitValue c).bind fun d => if d < b then some (n * b + d) else none

def read (b : ℕ) (s : List Char) : Option ℕ := s.foldlM (push b) 0

/-- Reads a numeral of the given width. -/
def scan (b width : ℕ) (s : List Char) : Option (ℕ × List Char) :=
  if width ≤ s.length then (read b (s.take width)).map fun n => (n, s.drop width) else none

/-- Reads one given character. -/
def expect (c : Char) : List Char → Option (List Char)
  | d :: s => if d = c then some s else none
  | [] => none

theorem digitValue_digitChar {d : ℕ} (h : d < 16) : digitValue (Nat.digitChar d) = some d := by
  have hall : ∀ i : Fin 16, digitValue (Nat.digitChar i.val) = some i.val := by decide +kernel
  exact hall ⟨d, h⟩

@[simp] theorem length_write (b width n : ℕ) : (write b width n).length = width := by
  induction width generalizing n with
  | zero => rfl
  | succ width ih => rw [write, List.length_append, ih, List.length_singleton]

theorem read_write {b width n : ℕ} (hb : b ≤ 16) (h : n < b ^ width) :
    read b (write b width n) = some n := by
  induction width generalizing n with
  | zero =>
      rw [Nat.pow_zero, Nat.lt_one_iff] at h
      rw [h]
      rfl
  | succ width ih =>
      have hpos : 0 < b := Nat.pos_of_ne_zero fun hzero => by
        rw [hzero, Nat.zero_pow (Nat.succ_pos width)] at h
        exact Nat.not_lt_zero n h
      have hquot : n / b < b ^ width := by
        rw [Nat.div_lt_iff_lt_mul hpos, ← Nat.pow_succ]
        exact h
      have hdigit : n % b < b := Nat.mod_lt n hpos
      have hlast : push b (n / b) (Nat.digitChar (n % b)) = some n := by
        rw [push, digitValue_digitChar (Nat.lt_of_lt_of_le hdigit hb), Option.bind_some, if_pos hdigit,
          Nat.mul_comm, Nat.div_add_mod]
      have hinit := ih hquot
      rw [read] at hinit ⊢
      rw [write, List.foldlM_append, hinit]
      simp only [Option.bind_eq_bind, Option.bind_some, List.foldlM_cons, List.foldlM_nil, hlast]
      rfl

theorem scan_write {b width n : ℕ} (hb : b ≤ 16) (h : n < b ^ width) (rest : List Char) :
    scan b width (write b width n ++ rest) = some (n, rest) := by
  have hlen : width ≤ (write b width n ++ rest).length := by
    rw [List.length_append, length_write]
    exact Nat.le_add_right _ _
  rw [scan, if_pos hlen, List.take_left' (length_write b width n),
    List.drop_left' (length_write b width n), read_write hb h]
  rfl

@[simp] theorem expect_cons (c : Char) (s : List Char) : expect c (c :: s) = some s := if_pos rfl

/-- The characters that numerals are written with. -/
theorem mem_write {b width n : ℕ} (hpos : 0 < b) {c : Char}
    (h : c ∈ write b width n) : ∃ d < b, c = Nat.digitChar d := by
  induction width generalizing n with
  | zero => cases h
  | succ width ih =>
      obtain h | h := List.mem_append.mp h
      · exact ih h
      · exact ⟨n % b, Nat.mod_lt n hpos, List.mem_singleton.mp h⟩

end CryptoAlert.Numerals
