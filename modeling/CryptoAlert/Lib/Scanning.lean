import Mathlib.Data.List.Basic

/-!
# Scanning a text from left to right

A scanner tries to read something at every place of a text; what it reads is passed over, so
that the hits do not overlap. What stands before a place is given with its nearest element
first.
-/

namespace CryptoAlert.Scanning

variable {α τ : Type}

/-- Reads at a place, from what is before it and what is behind it, and says how much of the
text was read. -/
abbrev Reader (α τ : Type) := List α → List α → Option (τ × ℕ)

/-- What is read from a place on, after the next `skip` elements are passed over. -/
def scan (read : Reader α τ) : ℕ → List α → List α → List τ
  | _, _, [] => []
  | skip + 1, before, a :: text => scan read skip (a :: before) text
  | 0, before, a :: text =>
      match read before (a :: text) with
      | some (x, length) => x :: scan read (length - 1) (a :: before) text
      | none => scan read 0 (a :: before) text

variable {read : Reader α τ}

@[simp] theorem scan_nil (skip : ℕ) (before : List α) : scan read skip before [] = [] := by
  cases skip <;> rfl

theorem scan_skip (text rest before : List α) :
    scan read text.length before (text ++ rest) = scan read 0 (text.reverse ++ before) rest := by
  induction text generalizing before with
  | nil => rfl
  | cons a text ih =>
      simp only [List.length_cons, List.cons_append, scan, ih, List.reverse_cons,
        List.append_assoc, List.nil_append]

theorem scan_hit {before text rest : List α} {x : τ} (hne : text ≠ [])
    (h : read before (text ++ rest) = some (x, text.length)) :
    scan read 0 before (text ++ rest) = x :: scan read 0 (text.reverse ++ before) rest := by
  obtain ⟨a, text, rfl⟩ := List.exists_cons_of_ne_nil hne
  rw [List.cons_append] at h ⊢
  rw [scan, h]
  simp only [List.length_cons, Nat.add_sub_cancel, scan_skip, List.reverse_cons,
    List.append_assoc, List.cons_append, List.nil_append]

theorem scan_miss {before rest : List α} {a : α} (h : read before (a :: rest) = none) :
    scan read 0 before (a :: rest) = scan read 0 (a :: before) rest := by
  rw [scan, h]

/-- A stretch of text in which nothing can be read is passed over. -/
theorem scan_dull {text : List α} (rest : List α) (before : List α)
    (h : ∀ l a r, text = l ++ a :: r → read (l.reverse ++ before) (a :: (r ++ rest)) = none) :
    scan read 0 before (text ++ rest) = scan read 0 (text.reverse ++ before) rest := by
  induction text generalizing before with
  | nil => rfl
  | cons a text ih =>
      have hmiss : read before (a :: (text ++ rest)) = none := h [] a text rfl
      rw [List.cons_append, scan_miss hmiss, ih]
      · simp
      · intro l b r htext
        simpa using h (a :: l) b r (by simp [htext])

/-- Whatever is found was read at some place of the text. -/
theorem exists_of_mem_scan {before text : List α} {skip : ℕ} {x : τ}
    (h : x ∈ scan read skip before text) :
    ∃ l r n, text = l ++ r ∧ read (l.reverse ++ before) r = some (x, n) := by
  induction text generalizing before skip with
  | nil => simp at h
  | cons a text ih =>
      have hlater : ∀ skip, x ∈ scan read skip (a :: before) text →
          ∃ l r n, a :: text = l ++ r ∧ read (l.reverse ++ before) r = some (x, n) := by
        intro skip hx
        obtain ⟨l, r, n, htext, hread⟩ := ih hx
        exact ⟨a :: l, r, n, by rw [htext, List.cons_append], by simpa using hread⟩
      cases skip with
      | succ skip => exact hlater skip (by simpa only [scan] using h)
      | zero =>
          rw [scan] at h
          split at h
          · rename_i y length hread
            rcases List.mem_cons.mp h with rfl | hx
            · exact ⟨[], a :: text, length, rfl, hread⟩
            · exact hlater _ hx
          · exact hlater 0 h

/-- Where nothing that is read before a cut reaches over it, all that is found behind the cut is
found in the whole text. -/
theorem mem_scan_of_cut {x : τ} {rest : List α} (text before : List α)
    (huncut : ∀ l m, text = l ++ m → m ≠ [] → ∀ y n,
      read (l.reverse ++ before) (m ++ rest) = some (y, n) → n ≤ m.length)
    (hx : x ∈ scan read 0 (text.reverse ++ before) rest) :
    x ∈ scan read 0 before (text ++ rest) := by
  induction hlen : text.length using Nat.strongRecOn generalizing text before with
  | ind k ih =>
  cases text with
  | nil => simpa using hx
  | cons a text =>
      cases hread : read before (a :: text ++ rest) with
      | none =>
          rw [List.cons_append] at hread ⊢
          rw [scan_miss hread]
          apply ih text.length (by simp only [List.length_cons] at hlen; omega) text (a :: before)
          · intro l m htext hne y n hy
            exact huncut (a :: l) m (by simp [htext]) hne y n (by simpa using hy)
          · simpa using hx
          · rfl
      | some hit =>
          obtain ⟨y, n⟩ := hit
          have hle : n ≤ (a :: text).length := huncut [] (a :: text) rfl (by simp) y n hread
          rw [List.length_cons] at hle
          -- the part of the text behind the hit
          have hpassed : scan read 0 before (a :: text ++ rest) =
              y :: scan read (n - 1) (a :: before) (text ++ rest) := by
            rw [List.cons_append, scan, ← List.cons_append, hread]
          rw [hpassed]
          apply List.mem_cons_of_mem
          have hskip : scan read (n - 1) (a :: before) (text ++ rest) =
              scan read 0 ((text.take (n - 1)).reverse ++ a :: before)
                (text.drop (n - 1) ++ rest) := by
            have htake : (text.take (n - 1)).length = n - 1 := by
              rw [List.length_take]
              omega
            rw [← scan_skip, htake, ← List.append_assoc, List.take_append_drop]
          rw [hskip]
          apply ih (text.drop (n - 1)).length
            (by simp only [List.length_cons] at hlen; rw [List.length_drop]; omega)
          · intro l m hdrop hne z w hz
            apply huncut (a :: text.take (n - 1) ++ l) m _ hne z w
            · simpa using hz
            · rw [List.append_assoc, ← hdrop, List.cons_append, List.take_append_drop]
          · rw [← List.append_assoc, ← List.reverse_append, List.take_append_drop]
            simpa using hx
          · rfl

end CryptoAlert.Scanning
