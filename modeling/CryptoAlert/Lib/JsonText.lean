import CryptoAlert.Lib.Numerals
import Mathlib.Data.Int.Notation
import Mathlib.Tactic.IntervalCases

/-!
# The text of a flat JSON object

Objects whose members are texts, integers, booleans or null, read with the white space and the
escapes that JSON allows. The escape of a surrogate is refused, as is everything nested and every
number with a fraction or an exponent. A key may occur twice; the last member counts.
-/

namespace CryptoAlert.JsonText

open Numerals

inductive Scalar where
  | text (s : List Char)
  | int (n : ℤ)
  | bool (b : Bool)
  | null
deriving DecidableEq

/-- The members of an object, in their order. -/
abbrev Members := List (List Char × Scalar)

/-- The value of a key. -/
def Members.get? (members : Members) (k : List Char) : Option Scalar := members.reverse.lookup k

def isBlank (c : Char) : Bool := c == ' ' || c == '\t' || c == '\n' || c == '\r'

def skip (s : List Char) : List Char := s.dropWhile isBlank

/-- The characters that a string holds as they are. -/
def isPlain (c : Char) : Bool := decide (32 ≤ c.toNat) && c != '"' && c != '\\'

/-- The character that a short escape stands for. -/
def unescape : Char → Option Char
  | '"' => some '"'
  | '\\' => some '\\'
  | '/' => some '/'
  | 'b' => some '\x08'
  | 'f' => some '\x0c'
  | 'n' => some '\n'
  | 'r' => some '\r'
  | 't' => some '\t'
  | _ => none

/-- The character with the code of a long escape; none for a surrogate. -/
def ofCode (n : ℕ) : Option Char := if n < 0xD800 ∨ 0xE000 ≤ n then some (Char.ofNat n) else none

/-- Reads a string behind its first quotation mark. -/
def scanString : List Char → Option (List Char × List Char)
  | [] => none
  | '"' :: s => some ([], s)
  | '\\' :: 'u' :: a :: b :: c :: d :: s => do
      let x ← (read 16 [a, b, c, d]).bind ofCode
      let (t, s) ← scanString s
      some (x :: t, s)
  | '\\' :: e :: s => do
      let x ← unescape e
      let (t, s) ← scanString s
      some (x :: t, s)
  | c :: s =>
      if isPlain c then do
        let (t, s) ← scanString s
        some (c :: t, s)
      else none

def isDigit (c : Char) : Bool := '0' ≤ c && c ≤ '9'

/-- Reads a natural number without leading zeros. -/
def scanNatural : List Char → Option (ℕ × List Char)
  | '0' :: s => some (0, s)
  | s =>
      if s.takeWhile isDigit = [] then none
      else (read 10 (s.takeWhile isDigit)).map fun n => (n, s.dropWhile isDigit)

def scanScalar : List Char → Option (Scalar × List Char)
  | '"' :: s => (scanString s).map fun r => (.text r.1, r.2)
  | 't' :: 'r' :: 'u' :: 'e' :: s => some (.bool true, s)
  | 'f' :: 'a' :: 'l' :: 's' :: 'e' :: s => some (.bool false, s)
  | 'n' :: 'u' :: 'l' :: 'l' :: s => some (.null, s)
  | '-' :: s => (scanNatural s).map fun r => (.int (-r.1), r.2)
  | s => (scanNatural s).map fun r => (.int r.1, r.2)

/-- Reads members up to the closing brace. -/
def scanMembers : ℕ → List Char → Option (Members × List Char)
  | 0, _ => none
  | fuel + 1, s => do
      let (k, s) ← scanString (← expect '"' (skip s))
      let (v, s) ← scanScalar (skip (← expect ':' (skip s)))
      match skip s with
      | c :: s =>
          if c = ',' then do
            let (members, s) ← scanMembers fuel s
            some ((k, v) :: members, s)
          else if c = '\x7d' then some ([(k, v)], s)
          else none
      | [] => none

/-- `json.loads`. -/
def loads (s : List Char) : Option Members := do
  let s ← expect '\x7b' (skip s)
  let (members, s) ← match expect '\x7d' (skip s) with
    | some s => some ([], s)
    | none => scanMembers s.length s
  if skip s = [] then some members else none

/-- The text of a scalar whose text needs no escape. -/
def Scalar.dump : Scalar → List Char
  | text s => '"' :: (s ++ ['"'])
  | int n => (toString n).toList
  | bool b => if b then "true".toList else "false".toList
  | null => "null".toList

def dumpMember (m : List Char × Scalar) : List Char := '"' :: (m.1 ++ '"' :: ':' :: m.2.dump)

def dumpMembers : Members → List Char
  | [] => ['\x7d']
  | [m] => dumpMember m ++ ['\x7d']
  | m :: ms => dumpMember m ++ ',' :: dumpMembers ms

/-- `json.dumps` with the separators `,` and `:`. -/
def dumps (members : Members) : List Char := '\x7b' :: dumpMembers members

/-- A scalar that is written without escapes; an integer of one digit. -/
def Scalar.IsSimple : Scalar → Prop
  | text s => ∀ c ∈ s, isPlain c
  | int n => 0 ≤ n ∧ n < 10
  | bool _ | null => True

theorem isPlain_iff {c : Char} : isPlain c ↔ 32 ≤ c.toNat ∧ c ≠ '"' ∧ c ≠ '\\' := by
  simp only [isPlain, Bool.and_eq_true, decide_eq_true_eq, bne_iff_ne, and_assoc]

theorem scanString_plain {s : List Char} (h : ∀ c ∈ s, isPlain c) (rest : List Char) :
    scanString (s ++ '"' :: rest) = some (s, rest) := by
  induction s with
  | nil => rfl
  | cons c s ih =>
      obtain ⟨hc, hs⟩ := List.forall_mem_cons.mp h
      obtain ⟨-, hquote, hslash⟩ := isPlain_iff.mp hc
      rw [List.cons_append, scanString]
      · rw [if_pos hc, ih hs]
        rfl
      · exact hquote
      · intro a b c d s hslash'
        exact absurd hslash' hslash
      · intro e s hslash'
        exact absurd hslash' hslash

theorem scanScalar_dump {v : Scalar} (h : v.IsSimple) {c : Char} (hc : c = ',' ∨ c = '\x7d')
    (rest : List Char) : scanScalar (v.dump ++ c :: rest) = some (v, c :: rest) := by
  cases v with
  | text s =>
      have htext : (Scalar.text s).dump ++ c :: rest = '"' :: (s ++ '"' :: c :: rest) := by
        simp [Scalar.dump]
      rw [htext, scanScalar, scanString_plain h]
      rfl
  | int n =>
      obtain ⟨hpos, hlt⟩ := h
      interval_cases n <;> obtain rfl | rfl := hc <;> rfl
  | bool b => cases b <;> rfl
  | null => rfl

theorem skip_cons_of_not_blank {c : Char} (h : isBlank c = false) (s : List Char) :
    skip (c :: s) = c :: s := by
  rw [skip, List.dropWhile_cons, h]
  rfl

theorem skip_dump {v : Scalar} (h : v.IsSimple) (rest : List Char) :
    skip (v.dump ++ rest) = v.dump ++ rest := by
  cases v with
  | text s => exact skip_cons_of_not_blank rfl _
  | int n =>
      obtain ⟨hpos, hlt⟩ := h
      interval_cases n <;> rfl
  | bool b => cases b <;> rfl
  | null => rfl

/-- What a scan of members does with the first one. -/
theorem scanMembers_dumpMember {m : List Char × Scalar} (hk : ∀ c ∈ m.1, isPlain c)
    (hv : m.2.IsSimple) {c : Char} (hc : c = ',' ∨ c = '\x7d') (fuel : ℕ) (rest : List Char) :
    scanMembers (fuel + 1) (dumpMember m ++ c :: rest) =
      if c = ',' then (scanMembers fuel rest).map fun r => (m :: r.1, r.2)
      else some ([m], rest) := by
  have hmember : dumpMember m ++ c :: rest = '"' :: (m.1 ++ '"' :: ':' :: (m.2.dump ++ c :: rest)) :=
    by simp [dumpMember]
  have hblank : isBlank c = false := by obtain rfl | rfl := hc <;> rfl
  have hquote : isBlank '"' = false := rfl
  have hcolon : isBlank ':' = false := rfl
  rw [hmember, scanMembers]
  simp only [skip_cons_of_not_blank hquote, skip_cons_of_not_blank hcolon, expect_cons,
    Option.bind_eq_bind, Option.bind_some, scanString_plain hk, skip_dump hv,
    scanScalar_dump hv hc, skip_cons_of_not_blank hblank]
  by_cases hcomma : c = ','
  · rw [if_pos hcomma, if_pos hcomma]
    cases scanMembers fuel rest <;> rfl
  · rw [if_neg hcomma, if_neg hcomma, if_pos (hc.resolve_left hcomma)]

theorem scanMembers_dumpMembers {members : Members} (hne : members ≠ [])
    (h : ∀ m ∈ members, (∀ c ∈ m.1, isPlain c) ∧ m.2.IsSimple) {fuel : ℕ}
    (hfuel : members.length ≤ fuel) (rest : List Char) :
    scanMembers fuel (dumpMembers members ++ rest) = some (members, rest) := by
  induction members generalizing fuel with
  | nil => exact absurd rfl hne
  | cons m ms ih =>
      obtain ⟨⟨hk, hv⟩, hms⟩ := List.forall_mem_cons.mp h
      obtain ⟨fuel, rfl⟩ : ∃ n, fuel = n + 1 := ⟨fuel - 1, by rw [List.length_cons] at hfuel; omega⟩
      have hrest : ms.length ≤ fuel := by
        rw [List.length_cons] at hfuel
        omega
      cases ms with
      | nil =>
          have htext : dumpMembers [m] ++ rest = dumpMember m ++ '\x7d' :: rest := by
            simp [dumpMembers]
          rw [htext, scanMembers_dumpMember hk hv (.inr rfl)]
          exact if_neg (by decide)
      | cons m' ms =>
          have htext : dumpMembers (m :: m' :: ms) ++ rest =
              dumpMember m ++ ',' :: (dumpMembers (m' :: ms) ++ rest) := by
            simp [dumpMembers]
          rw [htext, scanMembers_dumpMember hk hv (.inl rfl), if_pos rfl,
            ih (List.cons_ne_nil _ _) hms hrest]
          rfl

theorem length_le_dumpMembers (members : Members) :
    members.length ≤ (dumpMembers members).length := by
  induction members with
  | nil => exact Nat.zero_le _
  | cons m ms ih =>
      cases ms with
      | nil =>
          rw [dumpMembers, List.length_append]
          exact Nat.le_add_left _ _
      | cons m' ms =>
          have htail : (',' :: dumpMembers (m' :: ms)).length =
              (dumpMembers (m' :: ms)).length + 1 := List.length_cons
          have hsplit : dumpMembers (m :: m' :: ms) =
              dumpMember m ++ ',' :: dumpMembers (m' :: ms) := rfl
          rw [hsplit, List.length_append, htail, List.length_cons]
          omega

/-- Reading undoes writing. -/
theorem loads_dumps {members : Members} (hne : members ≠ [])
    (h : ∀ m ∈ members, (∀ c ∈ m.1, isPlain c) ∧ m.2.IsSimple) :
    loads (dumps members) = some members := by
  have hopen : isBlank '\x7b' = false := rfl
  have hscan := scanMembers_dumpMembers hne h (length_le_dumpMembers members) []
  rw [List.append_nil] at hscan
  obtain ⟨m, ms, rfl⟩ := List.exists_cons_of_ne_nil hne
  obtain ⟨s, hs⟩ : ∃ s, dumpMembers (m :: ms) = '"' :: s := by
    cases ms with
    | nil => exact ⟨_, rfl⟩
    | cons m' ms => exact ⟨_, rfl⟩
  have hquote : isBlank '"' = false := rfl
  rw [loads, dumps, skip_cons_of_not_blank hopen]
  simp only [expect_cons, Option.bind_eq_bind, Option.bind_some]
  rw [hs] at hscan ⊢
  rw [skip_cons_of_not_blank hquote]
  have hclose : expect '\x7d' ('"' :: s) = none := by
    rw [expect, if_neg (by decide)]
  rw [hclose]
  simp only [hscan, Option.bind_some]
  rfl

end CryptoAlert.JsonText
