import Mathlib.Algebra.GroupWithZero.Nat
import Mathlib.Data.List.GetD
import Mathlib.Data.Nat.Notation

/-!
# Base64 for URLs

The alphabet that replaces `+` and `/` by `-` and `_`, without padding. Bytes are numbers below
256. Decoding drops the bits that the last character has too many, as `b64decode` does.
-/

namespace CryptoAlert.Base64

abbrev Byte := Fin 256

instance bytesExist : NeZero 256 := ⟨by decide⟩

def alphabet : List Char :=
  "ABCDEFGHIJKLMNOPQRSTUVWXYZabcdefghijklmnopqrstuvwxyz0123456789-_".toList

/-- The character of a number below 64. -/
def digit (n : ℕ) : Char := alphabet.getD n 'A'

/-- The number of a character. -/
def value (c : Char) : Option ℕ :=
  if c ∈ alphabet then some (alphabet.idxOf c) else none

/-- `urlsafe_b64encode(data).rstrip("=")`. -/
def encode : List Byte → List Char
  | a :: b :: c :: rest =>
      let n := a.val * 65536 + b.val * 256 + c.val
      digit (n / 262144) :: digit (n / 4096 % 64) :: digit (n / 64 % 64) :: digit (n % 64) ::
        encode rest
  | [a, b] =>
      let n := a.val * 1024 + b.val * 4
      [digit (n / 4096), digit (n / 64 % 64), digit (n % 64)]
  | [a] =>
      let n := a.val * 16
      [digit (n / 64), digit (n % 64)]
  | [] => []

def byte (n : ℕ) : Byte := Fin.ofNat 256 n

/-- `b64decode` of a text, after its padding has been added. -/
def decode : List Char → Option (List Byte)
  | a :: b :: c :: d :: rest => do
      let n := (← value a) * 262144 + (← value b) * 4096 + (← value c) * 64 + (← value d)
      let tail ← decode rest
      some (byte (n / 65536) :: byte (n / 256) :: byte n :: tail)
  | [a, b, c] => do
      let n := (← value a) * 4096 + (← value b) * 64 + (← value c)
      some [byte (n / 1024), byte (n / 4)]
  | [a, b] => do
      let n := (← value a) * 64 + (← value b)
      some [byte (n / 16)]
  | [_] => none
  | [] => some []

theorem value_digit {n : ℕ} (h : n < 64) : value (digit n) = some n := by
  have hall : ∀ i : Fin 64, value (digit i.val) = some i.val := by decide +kernel
  exact hall ⟨n, h⟩

theorem byte_eq {a : Byte} {n : ℕ} (h : n % 256 = a.val) : byte n = a := Fin.ext h

/-- Decoding undoes encoding. -/
theorem decode_encode (data : List Byte) : decode (encode data) = some data := by
  induction data using encode.induct with
  | case1 a b c rest ih =>
      have ha := a.isLt
      have hb := b.isLt
      have hc := c.isLt
      rw [encode, decode, value_digit (by omega), value_digit (by omega), value_digit (by omega),
        value_digit (by omega), ih]
      simp only [Option.bind_eq_bind, Option.bind_some]
      rw [byte_eq (a := a) (by omega), byte_eq (a := b) (by omega), byte_eq (a := c) (by omega)]
  | case2 a b =>
      have ha := a.isLt
      have hb := b.isLt
      rw [encode, decode, value_digit (by omega), value_digit (by omega), value_digit (by omega)]
      simp only [Option.bind_eq_bind, Option.bind_some]
      rw [byte_eq (a := a) (by omega), byte_eq (a := b) (by omega)]
  | case3 a =>
      have ha := a.isLt
      rw [encode, decode, value_digit (by omega), value_digit (by omega)]
      simp only [Option.bind_eq_bind, Option.bind_some]
      rw [byte_eq (a := a) (by omega)]
  | case4 => rfl

theorem digit_mem (n : ℕ) : digit n ∈ alphabet := by
  rw [digit]
  by_cases h : n < alphabet.length
  · rw [List.getD_eq_getElem _ _ h]
    exact List.getElem_mem h
  · rw [List.getD_eq_default _ _ (by omega)]
    decide +kernel

theorem encode_subset (data : List Byte) : ∀ c ∈ encode data, c ∈ alphabet := by
  induction data using encode.induct with
  | case1 a b c rest ih =>
      rw [encode]
      simp only [List.forall_mem_cons]
      exact ⟨digit_mem _, digit_mem _, digit_mem _, digit_mem _, ih⟩
  | case2 a b =>
      rw [encode]
      simp only [List.forall_mem_cons]
      exact ⟨digit_mem _, digit_mem _, digit_mem _, fun _ h => absurd h List.not_mem_nil⟩
  | case3 a =>
      rw [encode]
      simp only [List.forall_mem_cons]
      exact ⟨digit_mem _, digit_mem _, fun _ h => absurd h List.not_mem_nil⟩
  | case4 => exact fun _ h => absurd h List.not_mem_nil

/-- Four characters stand for three bytes. -/
theorem length_encode_le (data : List Byte) : (encode data).length * 3 ≤ data.length * 4 + 2 := by
  induction data using encode.induct with
  | case1 a b c rest ih =>
      simp only [encode, List.length_cons]
      omega
  | case2 a b => simp [encode]
  | case3 a => simp [encode]
  | case4 => simp [encode]

end CryptoAlert.Base64
