import CryptoAlert.Lib.Text

/-!
# Integers in the notation that a general reader accepts

White space around the number, one sign, decimal digits of any script and single underscores
between digits.
-/

namespace CryptoAlert.Text

variable (u : UnicodeData)

/-- Reads the digits behind a digit. -/
def readDigits (n : ℕ) : List Char → Option ℕ
  | [] => some n
  | '_' :: c :: s => (u.decimal c).bind fun d => readDigits (10 * n + d) s
  | c :: s => (u.decimal c).bind fun d => readDigits (10 * n + d) s

/-- An unsigned number. -/
def readUnsigned : List Char → Option ℕ
  | [] => none
  | c :: s => (u.decimal c).bind fun d => readDigits u d s

/-- Removes the white space around a text. -/
def stripText (s : List Char) : List Char := (s.dropWhile isSpace).rdropWhile isSpace

theorem stripText_stripText (s : List Char) : stripText (stripText s) = stripText s := by
  unfold stripText
  rw [dropWhile_stripped, List.rdropWhile_idempotent]

/-- `int(s)`. -/
def readInteger (s : List Char) : Option ℤ :=
  match stripText s with
  | '+' :: s => (readUnsigned u s).map Int.ofNat
  | '-' :: s => (readUnsigned u s).map fun n => -Int.ofNat n
  | s => (readUnsigned u s).map Int.ofNat

end CryptoAlert.Text
