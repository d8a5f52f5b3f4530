import CryptoAlert.Lib.Rounding
import CryptoAlert.Lib.Scanning
import CryptoAlert.Lib.Text
import Mathlib.Data.List.TakeWhile

/-!
# The numbers of a quote

`_NUMBER_PATTERN` finds the numbers of a quote from left to right, each with a scale that may
follow it. It has one way to match at a place: a sign, a run of digits with its thousands groups,
a fraction, white space, and the first of the scales that the text goes on with. The last part of
the pattern has no boundary behind it, and neither has a group of three digits.
-/

namespace CryptoAlert.WebMarket

open Text Scanning

/-- The digits of a number as they are written. -/
structure Figure where
  whole : List Char
  groups : List (List Char)
  fraction : List Char
deriving DecidableEq

namespace Figure

def groupText (groups : List (List Char)) : List Char := groups.flatMap (',' :: ·)

def fractionText (fraction : List Char) : List Char :=
  if fraction = [] then [] else '.' :: fraction

def text (f : Figure) : List Char := f.whole ++ (groupText f.groups ++ fractionText f.fraction)

def digits (f : Figure) : List Char := f.whole ++ f.groups.flatten ++ f.fraction

/-- The number that `Decimal` reads once the commas are removed. -/
def number (u : UnicodeData) (f : Figure) : ℚ :=
  (f.digits.foldl (fun n c => 10 * n + (u.decimal c).getD 0) 0 : ℕ) / 10 ^ f.fraction.length

end Figure

section Reading

variable (u : UnicodeData)

/-- `(?:,\d{3})+`, where a group counts only if what comes behind it is `closed`. -/
def readGroups (closed : Option Char → Bool) : List Char → List (List Char)
  | s :: a :: b :: c :: text =>
      if s == ',' && u.isDecimal a && u.isDecimal b && u.isDecimal c && closed text.head? then
        [a, b, c] :: readGroups closed text
      else []
  | _ => []

/-- `(?:\.\d+)?` -/
def readFraction : List Char → List Char
  | s :: text => if s == '.' then text.takeWhile u.isDecimal else []
  | [] => []

def readFigure (closed : Option Char → Bool) (text : List Char) : Option Figure :=
  let whole := text.takeWhile u.isDecimal
  let rest := text.dropWhile u.isDecimal
  let groups := if whole.length ≤ 3 then readGroups u closed rest else []
  if whole = [] then none
  else some ⟨whole, groups, readFraction u (rest.drop (Figure.groupText groups).length)⟩

/-- `[-+]?` -/
def signOf : List Char → List Char
  | c :: _ => if c == '-' || c == '+' then [c] else []
  | [] => []

def signed (sign : List Char) (q : ℚ) : ℚ := if sign = ['-'] then -q else q

/-- The nearest character before a place is a word character or a point: `[\w.]`. -/
def isGlued (before : List Char) : Bool := before.head?.any fun c => u.isWord c || c == '.'

def thousand : List Char := ['t', 'h', 'o', 'u', 's', 'a', 'n', 'd']

def million : List Char := ['m', 'i', 'l', 'l', 'i', 'o', 'n']

def billion : List Char := ['b', 'i', 'l', 'l', 'i', 'o', 'n']

/-- The alternatives of the last group, in their order. -/
def suffixes : List (List Char) :=
  [['%'], ['k'], ['m'], ['b'], thousand, million, billion]

/-- `_SCALES`. -/
def scales : List (List Char × ℚ) :=
  [([], 1), (['k'], 1000), (thousand, 1000), (['m'], 1000000),
    (million, 1000000), (['b'], 1000000000), (billion, 1000000000)]

def readSuffix (text : List Char) : List Char :=
  match suffixes.find? fun s => (text.take s.length).map foldCase == s with
  | some s => text.take s.length
  | none => []

/-- What a match of the pattern captures. -/
structure NumberMatch where
  sign : List Char
  figure : Figure
  suffix : List Char
deriving DecidableEq

/-- `_NUMBER_PATTERN` at one place. -/
def readMatch : Reader Char NumberMatch := fun before text =>
  let sign := signOf text
  if isGlued u before then none
  else
    (readFigure u (fun _ => true) (text.drop sign.length)).map fun figure =>
      let rest := text.drop (sign ++ figure.text).length
      let spaces := rest.takeWhile isSpace
      let suffix := readSuffix (rest.dropWhile isSpace)
      (⟨sign, figure, suffix⟩, (sign ++ figure.text ++ spaces ++ suffix).length)

/-- `_NUMBER_PATTERN.finditer`. -/
def numberMatches (text : List Char) : List NumberMatch := scan (readMatch u) 0 [] text

namespace NumberMatch

variable (m : NumberMatch)

/-- The captured number, read without rounding. -/
def number : ℚ := signed m.sign (m.figure.number u)

/-- The value that the match stands for, in the default context of 28 digits. A suffix that the
pattern takes regardless of case and `_SCALES` does not have is a `KeyError`. -/
def candidate : Option ℚ :=
  let suffix := u.lower m.suffix
  if suffix = ['%'] then some (Rounding.significant 28 (m.number u / 100))
  else (scales.lookup suffix).map fun scale => Rounding.significant 28 (m.number u * scale)

end NumberMatch

/-- `_quote_supports_value`. -/
def quoteSupportsValue (value : ℚ) (quote : List Char) : Option Bool :=
  go (numberMatches u quote)
where
  go : List NumberMatch → Option Bool
    | [] => some false
    | m :: matches' =>
        match m.candidate u with
        | none => none
        | some candidate => if candidate = value then some true else go matches'

end Reading

/-- `text.split()`. -/
def words (text : List Char) : List (List Char) := (text.splitOnP isSpace).filter (!·.isEmpty)

/-- `" ".join(text.split())`. -/
def joinWords (text : List Char) : List Char := [' '].intercalate (words text)

end CryptoAlert.WebMarket
