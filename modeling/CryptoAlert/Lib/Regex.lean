import Mathlib.Data.List.Basic

/-!
# A backtracking regular-expression matcher

The matcher lists all ways in which an expression matches at a position, in the order in
which a backtracking engine tries them, so its first element is the engine's answer. A
replacement scans a text from left to right and continues behind each match.

Repetition without a bound is restricted to one character class; a bounded repetition of a
group unfolds into sequences. Expressions that match the empty text are outside the scope of
the replacement: an empty match is passed over.
-/

namespace CryptoAlert

inductive Regex where
  | eps
  | chr (p : Char → Bool)
  | many (p : Char → Bool)
  | seq (r s : Regex)
  | alt (r s : Regex)
  | group (k : Nat) (r : Regex)
  | notAfter (p : Char → Bool)
  | notBefore (p : Char → Bool)
  | boundary (w : Char → Bool)

namespace Regex

/-- One way to match: the text taken, what follows it and the groups closed on the way. -/
structure Hit where
  taken : List Char
  rest : List Char
  groups : List (Nat × List Char)

def Hit.prev (h : Hit) (prev : Option Char) : Option Char :=
  h.taken.getLast?.or prev

def Hit.group (h : Hit) (k : Nat) : List Char := (h.groups.lookup k).getD []

/-- The greedy iterations of one class, the longest first. -/
def manyHits (p : Char → Bool) : List Char → List Hit
  | [] => [⟨[], [], []⟩]
  | c :: cs =>
      if p c then
        (manyHits p cs).map (fun h => ⟨c :: h.taken, h.rest, []⟩) ++ [⟨[], c :: cs, []⟩]
      else [⟨[], c :: cs, []⟩]

def isAt (p : Char → Bool) : Option Char → Bool
  | none => false
  | some c => p c

def hits : Regex → Option Char → List Char → List Hit
  | eps, _, s => [⟨[], s, []⟩]
  | chr p, _, s =>
      match s with
      | [] => []
      | c :: cs => if p c then [⟨[c], cs, []⟩] else []
  | many p, _, s => manyHits p s
  | seq r t, prev, s =>
      (hits r prev s).flatMap fun h =>
        (hits t (h.prev prev) h.rest).map fun g =>
          ⟨h.taken ++ g.taken, g.rest, h.groups ++ g.groups⟩
  | alt r t, prev, s => hits r prev s ++ hits t prev s
  | group k r, prev, s => (hits r prev s).map fun h => ⟨h.taken, h.rest, (k, h.taken) :: h.groups⟩
  | notAfter p, prev, s => if isAt p prev then [] else [⟨[], s, []⟩]
  | notBefore p, _, s => if isAt p s.head? then [] else [⟨[], s, []⟩]
  | boundary w, prev, s => if isAt w prev = isAt w s.head? then [] else [⟨[], s, []⟩]

def opt (r : Regex) : Regex := alt r eps

def many1 (p : Char → Bool) : Regex := seq (chr p) (many p)

def alts : List Regex → Regex
  | [] => alt (chr fun _ => false) (chr fun _ => false)
  | [r] => r
  | r :: rs => alt r (alts rs)

def seqs : List Regex → Regex
  | [] => eps
  | [r] => r
  | r :: rs => seq r (seqs rs)

/-- Exactly `n` copies of an expression. -/
def times : Nat → Regex → Regex
  | 0, _ => eps
  | n + 1, r => seq r (times n r)

/-- At most `n` copies of an expression, preferring more. -/
def upTo : Nat → Regex → Regex
  | 0, _ => eps
  | n + 1, r => opt (seq r (upTo n r))

def between (m n : Nat) (r : Regex) : Regex := seq (times m r) (upTo (n - m) r)

section Rules

variable {q r : Regex} {rs : List Regex} {n : Nat}

@[simp] theorem alts_singleton : alts [r] = r := rfl

@[simp] theorem alts_cons_cons : alts (q :: r :: rs) = alt q (alts (r :: rs)) := rfl

@[simp] theorem seqs_singleton : seqs [r] = r := rfl

@[simp] theorem seqs_cons_cons : seqs (q :: r :: rs) = seq q (seqs (r :: rs)) := rfl

@[simp] theorem times_zero : times 0 r = eps := rfl

@[simp] theorem times_succ : times (n + 1) r = seq r (times n r) := rfl

@[simp] theorem upTo_zero : upTo 0 r = eps := rfl

@[simp] theorem upTo_succ : upTo (n + 1) r = opt (seq r (upTo n r)) := rfl

end Rules

/-- The engine's answer at one position, an empty match passed over. -/
def firstHit (r : Regex) (prev : Option Char) (s : List Char) : Option Hit :=
  (r.hits prev s).find? fun h => !h.taken.isEmpty

/-- Replacement from one position; the counter holds the characters of a match still to skip. -/
def subFrom (r : Regex) (f : Hit → List Char) : Nat → Option Char → List Char → List Char
  | _, _, [] => []
  | k + 1, _, c :: cs => subFrom r f k (some c) cs
  | 0, prev, c :: cs =>
      match r.firstHit prev (c :: cs) with
      | some h => f h ++ subFrom r f (h.taken.length - 1) (some c) cs
      | none => c :: subFrom r f 0 (some c) cs

/-- Replaces every match, found from left to right. -/
def sub (r : Regex) (f : Hit → List Char) (s : List Char) : List Char :=
  subFrom r f 0 none s

theorem manyHits_split {p : Char → Bool} {s : List Char} {h : Hit} (hm : h ∈ manyHits p s) :
    h.taken ++ h.rest = s := by
  induction s generalizing h with
  | nil => simp [manyHits] at hm; simp [hm]
  | cons c cs ih =>
      rw [manyHits] at hm
      split at hm
      · rcases List.mem_append.mp hm with hl | hr
        · obtain ⟨g, hg, rfl⟩ := List.mem_map.mp hl
          simp [ih hg]
        · rw [List.mem_singleton] at hr
          simp [hr]
      · rw [List.mem_singleton] at hm
        simp [hm]

/-- A hit divides the text at the position into the part taken and what follows. -/
theorem hits_split {r : Regex} {prev : Option Char} {s : List Char} {h : Hit}
    (hm : h ∈ r.hits prev s) : h.taken ++ h.rest = s := by
  induction r generalizing prev s h with
  | eps => simp [hits] at hm; simp [hm]
  | chr p =>
      cases s with
      | nil => simp [hits] at hm
      | cons c cs =>
          simp only [hits] at hm
          split at hm
          · simp at hm; simp [hm]
          · simp at hm
  | many p => exact manyHits_split hm
  | seq r t ihr iht =>
      simp only [hits, List.mem_flatMap, List.mem_map] at hm
      obtain ⟨a, ha, b, hb, rfl⟩ := hm
      have hsplit := ihr ha
      have hrest := iht hb
      simp only [List.append_assoc, hrest, hsplit]
  | alt r t ihr iht =>
      simp only [hits, List.mem_append] at hm
      rcases hm with hl | hr
      · exact ihr hl
      · exact iht hr
  | group k r ih =>
      simp only [hits, List.mem_map] at hm
      obtain ⟨a, ha, rfl⟩ := hm
      have hsplit := ih ha
      exact hsplit
  | notAfter p =>
      simp only [hits] at hm
      split at hm <;> simp at hm
      simp [hm]
  | notBefore p =>
      simp only [hits] at hm
      split at hm <;> simp at hm
      simp [hm]
  | boundary w =>
      simp only [hits] at hm
      split at hm <;> simp at hm
      simp [hm]

theorem firstHit_mem {r : Regex} {prev : Option Char} {s : List Char} {h : Hit}
    (hf : r.firstHit prev s = some h) : h ∈ r.hits prev s :=
  List.mem_of_find?_eq_some hf

theorem firstHit_taken_ne_nil {r : Regex} {prev : Option Char} {s : List Char} {h : Hit}
    (hf : r.firstHit prev s = some h) : h.taken ≠ [] := by
  have hp := List.find?_some hf
  simpa using hp

/-- An expression that cannot match within any text over the given characters. -/
def stuck (cs : List Char) : Regex → Bool
  | chr p => cs.all fun c => !p c
  | seq r t => stuck cs r || stuck cs t
  | alt r t => stuck cs r && stuck cs t
  | group _ r => stuck cs r
  | _ => false

theorem hits_eq_nil_of_stuck {cs : List Char} {r : Regex} (hr : r.stuck cs = true)
    (prev : Option Char) {s : List Char} (hs : ∀ c ∈ s, c ∈ cs) : r.hits prev s = [] := by
  induction r generalizing prev s with
  | chr p =>
      cases s with
      | nil => rfl
      | cons c s =>
          have hp : p c = false := by
            simp only [stuck, List.all_eq_true] at hr
            simpa using hr c (hs c List.mem_cons_self)
          simp [hits, hp]
  | seq r t ihr iht =>
      simp only [stuck, Bool.or_eq_true] at hr
      rcases hr with hr | ht
      · simp [hits, ihr hr prev hs]
      · simp only [hits, List.flatMap_eq_nil_iff, List.map_eq_nil_iff]
        intro h hm
        apply iht ht
        intro c hc
        exact hs c (by rw [← hits_split hm]; exact List.mem_append_right _ hc)
  | alt r t ihr iht =>
      simp only [stuck, Bool.and_eq_true] at hr
      simp [hits, ihr hr.1 prev hs, iht hr.2 prev hs]
  | group k r ih => simp [hits, ih hr prev hs]
  | eps | many | notAfter | notBefore | boundary => simp [stuck] at hr

/-- A text over characters on which the expression is stuck is left as it is. -/
theorem sub_eq_self_of_stuck {cs : List Char} {r : Regex} (hr : r.stuck cs = true)
    (f : Hit → List Char) {s : List Char} (hs : ∀ c ∈ s, c ∈ cs) : r.sub f s = s := by
  suffices h : ∀ prev, subFrom r f 0 prev s = s from h none
  intro prev
  induction s generalizing prev with
  | nil => rfl
  | cons c s ih =>
      have hnone : r.firstHit prev (c :: s) = none := by
        simp [firstHit, hits_eq_nil_of_stuck hr prev hs]
      rw [subFrom, hnone]
      simp only
      rw [ih (fun d hd => hs d (List.mem_cons_of_mem c hd))]

/-- Every match of the expression takes a character with the property. -/
def Takes (P : Char → Prop) : Regex → Prop
  | chr p => ∀ c, p c = true → P c
  | seq r t => Takes P r ∨ Takes P t
  | alt r t => Takes P r ∧ Takes P t
  | group _ r => Takes P r
  | _ => False

theorem exists_mem_of_takes {P : Char → Prop} {r : Regex} (hr : r.Takes P)
    {prev : Option Char} {s : List Char} {h : Hit} (hm : h ∈ r.hits prev s) :
    ∃ c ∈ h.taken, P c := by
  induction r generalizing prev s h with
  | chr p =>
      cases s with
      | nil => simp [hits] at hm
      | cons c cs =>
          simp only [hits] at hm
          split at hm
          · rename_i hp
            rw [List.mem_singleton] at hm
            subst hm
            exact ⟨c, List.mem_singleton_self c, hr c hp⟩
          · simp at hm
  | seq r t ihr iht =>
      simp only [hits, List.mem_flatMap, List.mem_map] at hm
      obtain ⟨a, ha, b, hb, rfl⟩ := hm
      rcases hr with hr | ht
      · obtain ⟨c, hc, hP⟩ := ihr hr ha
        exact ⟨c, List.mem_append_left _ hc, hP⟩
      · obtain ⟨c, hc, hP⟩ := iht ht hb
        exact ⟨c, List.mem_append_right _ hc, hP⟩
  | alt r t ihr iht =>
      simp only [hits, List.mem_append] at hm
      rcases hm with hl | hl
      · exact ihr hr.1 hl
      · exact iht hr.2 hl
  | group k r ih =>
      simp only [hits, List.mem_map] at hm
      obtain ⟨a, ha, rfl⟩ := hm
      have htaken := ih hr ha
      exact htaken
  | eps | many | notAfter | notBefore | boundary => exact hr.elim

/-- A kind of character that occurs in the text, and in every replacement, occurs in the result. -/
theorem exists_mem_sub {r : Regex} {f : Hit → List Char} {p : Char → Bool}
    (hf : ∀ prev s h, r.firstHit prev s = some h → ∃ c ∈ f h, p c = true)
    {s : List Char} (hs : ∃ c ∈ s, p c = true) : ∃ c ∈ r.sub f s, p c = true := by
  suffices h : ∀ prev, ∃ c ∈ subFrom r f 0 prev s, p c = true from h none
  intro prev
  induction s generalizing prev with
  | nil => simp at hs
  | cons d s ih =>
      rw [subFrom]
      cases hh : r.firstHit prev (d :: s) with
      | some h =>
          obtain ⟨c, hc, hp⟩ := hf prev (d :: s) h hh
          exact ⟨c, List.mem_append_left _ hc, hp⟩
      | none =>
          obtain ⟨c, hc, hp⟩ := hs
          rcases List.mem_cons.mp hc with rfl | hmem
          · exact ⟨c, List.mem_cons_self, hp⟩
          · obtain ⟨e, he, hpe⟩ := ih ⟨c, hmem, hp⟩ (some d)
            exact ⟨e, List.mem_cons_of_mem d he, hpe⟩

end Regex

end CryptoAlert
