import CryptoAlert.Providers.CitedNumbers
import Mathlib.Tactic.NormNum

/-!
# The numbers that a text states

A number is stated by a maximal run of digits with its thousands groups and its fraction, its
sign, and the scale that the next word names. Here the end of a group and of a word is where the
next character is no more of it, which is what the pattern leaves out. Under the condition that
the two readings have nothing to disagree about, they find one value in the same texts; and a
number of a quote that is not joined to what stands around the quote is a number of the excerpt.
-/

namespace CryptoAlert.WebMarket

open Text Scanning Rounding

section Stating

variable (u : UnicodeData)

/-- The words that name a scale. -/
def scaleWords : List (List Char × ℚ) :=
  [(['%'], 1 / 100), (['k'], 1000), (['m'], 1000000), (['b'], 1000000000),
    (thousand, 1000), (million, 1000000), (billion, 1000000000)]

/-- The next word of a text: a percent sign, or a run of word characters. -/
def nextWord (text : List Char) : List Char :=
  match text.dropWhile isSpace with
  | '%' :: _ => ['%']
  | text => text.takeWhile u.isWord

def namedScale (text : List Char) : Option ℚ :=
  scaleWords.lookup ((nextWord u text).map Char.toLower)

/-- The end of a run of digits. -/
def endsDigits (next : Option Char) : Bool := !next.any u.isDecimal

/-- A number of a text, with the text on both sides of it. -/
structure Occurrence where
  before : List Char
  sign : List Char
  figure : Figure
  rest : List Char
deriving DecidableEq

def readStated : Reader Char Occurrence := fun before text =>
  let sign := if isGlued u before then [] else signOf text
  (readFigure u (endsDigits u) (text.drop sign.length)).map fun figure =>
    let length := (sign ++ figure.text).length
    (⟨before, sign, figure, text.drop length⟩, length)

def occurrences (text : List Char) : List Occurrence := scan (readStated u) 0 [] text

namespace Occurrence

variable (o : Occurrence)

def number : ℚ := signed o.sign (o.figure.number u)

def value : ℚ := o.number u * (namedScale u o.rest).getD 1

/-- What the pattern takes for the scale of the number. -/
def suffix : List Char := readSuffix (o.rest.dropWhile isSpace)

/-- Under no scale is the number the value, rounded or not. -/
def IsApart (v : ℚ) : Prop :=
  ∀ scale ∈ [1, 1 / 100, 1000, 1000000, 1000000000],
    o.number u * scale ≠ v ∧ significant 28 (o.number u * scale) ≠ v

/-- Nothing about the number can be read in two ways, as far as the value is concerned. -/
def IsPlain (v : ℚ) : Prop :=
  if isGlued u o.before then o.figure.groups = [] ∧ o.value u ≠ v
  else
    (o.figure.whole.length ≤ 3 → o.figure.fraction = [] →
      readGroups u (fun _ => true) o.rest = []) ∧
    (∀ c ∈ o.suffix, c.toNat < 128) ∧
    ((o.suffix ≠ [] → (namedScale u o.rest).isSome) ∧ HasDigits 28 (o.number u) ∨ o.IsApart u v)

end Occurrence

/-- The first character is a digit. -/
def startsDigit (text : List Char) : Bool := text.head?.any u.isDecimal

def startsGroup : List Char → Bool
  | a :: b :: c :: _ => u.isDecimal a && u.isDecimal b && u.isDecimal c
  | _ => false

/-- A cut between two texts goes through a number: between two digits, before or behind the point
or comma between digits, or behind a sign. -/
def isJoined (before text : List Char) : Bool :=
  match before, text with
  | a :: before, b :: text =>
      (u.isDecimal a && u.isDecimal b) ||
        (u.isDecimal a && b == '.' && startsDigit u text) ||
        (u.isDecimal a && b == ',' && startsGroup u text) ||
        (a == '.' && startsDigit u before && u.isDecimal b) ||
        (a == ',' && startsDigit u before && startsGroup u (b :: text)) ||
        ((a == '-' || a == '+') && !isGlued u before && u.isDecimal b)
  | _, _ => false

/-- A number of a quote is not cut off at either end of the quote, where `left` and `right` stand
around the quote. -/
structure Occurrence.IsWhole (o : Occurrence) (left right : List Char) : Prop where
  left_end : isJoined u (o.before ++ left.reverse) (o.sign ++ o.figure.text ++ (o.rest ++ right)) =
    false
  right_end : isJoined u ((o.sign ++ o.figure.text).reverse ++ (o.before ++ left.reverse))
    (o.rest ++ right) = false
  signed_end : o.sign ≠ [] → isGlued u (o.before ++ left.reverse) = false
  scale_end : namedScale u (o.rest ++ right) = namedScale u o.rest

end Stating

section Figures

variable {u : UnicodeData}

theorem not_isDecimal {c : Char} (hc : c.toNat < 128) (hd : c.isDigit = false) :
    u.isDecimal c = false := by
  rw [UnicodeData.isDecimal, u.decimal_ascii c hc, hd]
  rfl

@[simp] theorem not_isDecimal_comma : u.isDecimal ',' = false := not_isDecimal (by decide) rfl

@[simp] theorem not_isDecimal_point : u.isDecimal '.' = false := not_isDecimal (by decide) rfl

@[simp] theorem not_isDecimal_minus : u.isDecimal '-' = false := not_isDecimal (by decide) rfl

@[simp] theorem not_isDecimal_plus : u.isDecimal '+' = false := not_isDecimal (by decide) rfl

@[simp] theorem endsDigits_comma : endsDigits u (some ',') = true := by simp [endsDigits]

/-- Three digits. -/
def IsGroup (u : UnicodeData) (g : List Char) : Prop :=
  ∃ a b c, g = [a, b, c] ∧ u.isDecimal a ∧ u.isDecimal b ∧ u.isDecimal c

theorem groupText_cons (g : List Char) (gs : List (List Char)) :
    Figure.groupText (g :: gs) = ',' :: (g ++ Figure.groupText gs) := by
  simp [Figure.groupText]

theorem readGroups_isGroup {closed : Option Char → Bool} (text : List Char) :
    (∀ g ∈ readGroups u closed text, IsGroup u g) ∧
      ∃ rest, text = Figure.groupText (readGroups u closed text) ++ rest := by
  fun_induction readGroups u closed text with
  | case1 s a b c text hread ih =>
      simp only [Bool.and_eq_true, beq_iff_eq] at hread
      obtain ⟨⟨⟨⟨rfl, ha⟩, hb⟩, hc⟩, _⟩ := hread
      obtain ⟨hgroups, rest, htext⟩ := ih
      refine ⟨?_, rest, ?_⟩
      · intro g hg
        rcases List.mem_cons.mp hg with rfl | hg
        · exact ⟨a, b, c, rfl, ha, hb, hc⟩
        · exact hgroups g hg
      · rw [groupText_cons]
        conv_lhs => rw [htext]
        rfl
  | case2 s a b c text hread => exact ⟨by simp, _, rfl⟩
  | case3 text htext => exact ⟨by simp, _, rfl⟩

theorem readGroups_of_ne_comma {closed : Option Char → Bool} {s : Char} (hs : s ≠ ',')
    (text : List Char) : readGroups u closed (s :: text) = [] := by
  rcases text with _ | ⟨a, _ | ⟨b, _ | ⟨c, text⟩⟩⟩ <;> simp [readGroups, hs]

/-- When groups are read, and nothing behind them. -/
theorem readGroups_groupText_iff {closed : Option Char → Bool} (hcomma : closed (some ',') = true)
    (gs : List (List Char)) (tail : List Char) :
    readGroups u closed (Figure.groupText gs ++ tail) = gs ↔
      (∀ g ∈ gs, IsGroup u g) ∧ (gs ≠ [] → closed tail.head? = true) ∧
        readGroups u closed tail = [] := by
  induction gs with
  | nil => simp [Figure.groupText]
  | cons g gs ih =>
      have hhead : gs ≠ [] → closed (Figure.groupText gs ++ tail).head? = true := by
        intro hne
        obtain ⟨g', gs, rfl⟩ := List.exists_cons_of_ne_nil hne
        rw [groupText_cons]
        exact hcomma
      rw [groupText_cons]
      constructor
      · intro h
        have hfirst : IsGroup u g := by
          have hall : ∀ g' ∈ readGroups u closed (',' :: (g ++ Figure.groupText gs) ++ tail),
              IsGroup u g' := (readGroups_isGroup _).1
          rw [h] at hall
          exact hall g List.mem_cons_self
        obtain ⟨a, b, c, rfl, ha, hb, hc⟩ := hfirst
        simp only [List.cons_append, List.nil_append, readGroups, beq_self_eq_true, ha, hb, hc,
          Bool.and_true, Bool.true_and] at h
        by_cases hclosed : closed (Figure.groupText gs ++ tail).head? = true
        · rw [if_pos hclosed, List.cons.injEq] at h
          obtain ⟨hgroups, hend, htail⟩ := ih.mp h.2
          refine ⟨?_, ?_, htail⟩
          · intro g hg
            rcases List.mem_cons.mp hg with rfl | hg
            · exact ⟨a, b, c, rfl, ha, hb, hc⟩
            · exact hgroups g hg
          · intro _
            by_cases hgs : gs = []
            · simpa [hgs, Figure.groupText] using hclosed
            · exact hend hgs
        · rw [if_neg hclosed] at h
          exact absurd h (by simp)
      · rintro ⟨hgroups, hend, htail⟩
        obtain ⟨a, b, c, rfl, ha, hb, hc⟩ := hgroups g List.mem_cons_self
        have hclosed : closed (Figure.groupText gs ++ tail).head? = true := by
          by_cases hgs : gs = []
          · simpa [hgs, Figure.groupText] using hend (by simp)
          · exact hhead hgs
        have hrest : readGroups u closed (Figure.groupText gs ++ tail) = gs :=
          ih.mpr ⟨fun g hg => hgroups g (List.mem_cons_of_mem _ hg),
            fun _ => hend (by simp), htail⟩
        simp only [List.cons_append, List.nil_append, readGroups, beq_self_eq_true, ha, hb, hc,
          Bool.and_true, hclosed, if_true, hrest]

theorem readFraction_fractionText (text : List Char) :
    (∀ c ∈ readFraction u text, u.isDecimal c = true) ∧
      ∃ rest, text = Figure.fractionText (readFraction u text) ++ rest := by
  cases text with
  | nil => exact ⟨by simp [readFraction], [], by simp [readFraction, Figure.fractionText]⟩
  | cons s text =>
      by_cases hs : s = '.'
      · subst hs
        refine ⟨fun c hc => List.mem_takeWhile_imp hc, ?_⟩
        by_cases hnone : text.takeWhile u.isDecimal = []
        · exact ⟨'.' :: text, by simp [readFraction, Figure.fractionText, hnone]⟩
        · refine ⟨text.dropWhile u.isDecimal, ?_⟩
          simp [readFraction, Figure.fractionText, hnone, List.takeWhile_append_dropWhile]
      · exact ⟨by simp [readFraction, hs], s :: text,
          by simp [readFraction, hs, Figure.fractionText]⟩

namespace Figure

/-- The figure is all that can be read before the rest. -/
structure Fits (u : UnicodeData) (closed : Option Char → Bool) (f : Figure) (rest : List Char) :
    Prop where
  whole_ne : f.whole ≠ []
  whole_digits : ∀ c ∈ f.whole, u.isDecimal c = true
  whole_end : endsDigits u (groupText f.groups ++ (fractionText f.fraction ++ rest)).head? = true
  groups : ∀ g ∈ f.groups, IsGroup u g
  short : f.groups ≠ [] → f.whole.length ≤ 3
  group_end : f.groups ≠ [] → closed (fractionText f.fraction ++ rest).head? = true
  no_group : f.whole.length ≤ 3 → readGroups u closed (fractionText f.fraction ++ rest) = []
  fraction_digits : ∀ c ∈ f.fraction, u.isDecimal c = true
  fraction : readFraction u (fractionText f.fraction ++ rest) = f.fraction

end Figure

theorem takeWhile_isDecimal {whole rest : List Char} (hwhole : ∀ c ∈ whole, u.isDecimal c = true)
    (hend : endsDigits u rest.head? = true) :
    (whole ++ rest).takeWhile u.isDecimal = whole ∧
      (whole ++ rest).dropWhile u.isDecimal = rest := by
  rw [List.takeWhile_append_of_pos hwhole, List.dropWhile_append_of_pos hwhole]
  cases rest with
  | nil => simp
  | cons c rest =>
      have hc : u.isDecimal c = false := by simpa [endsDigits] using hend
      simp [hc]

theorem endsDigits_dropWhile (text : List Char) :
    endsDigits u (text.dropWhile u.isDecimal).head? = true := by
  cases hdrop : text.dropWhile u.isDecimal with
  | nil => rfl
  | cons c rest =>
      have hc := List.head_dropWhile_not u.isDecimal (l := text) (by simp [hdrop])
      simp only [hdrop, List.head_cons] at hc
      simp [endsDigits, hc]

theorem readFigure_eq_some_iff {closed : Option Char → Bool} (hcomma : closed (some ',') = true)
    {text : List Char} {f : Figure} :
    readFigure u closed text = some f ↔ ∃ rest, text = f.text ++ rest ∧ f.Fits u closed rest := by
  constructor
  · intro h
    simp only [readFigure] at h
    split at h
    · cases h
    · rename_i hwhole
      cases h
      generalize hgroups : (if (text.takeWhile u.isDecimal).length ≤ 3 then
        readGroups u closed (text.dropWhile u.isDecimal) else []) = groups
      have hread : (∀ g ∈ groups, IsGroup u g) ∧
          ∃ rest, text.dropWhile u.isDecimal = Figure.groupText groups ++ rest := by
        split at hgroups
        · exact hgroups ▸ readGroups_isGroup _
        · exact hgroups ▸ ⟨by simp, _, rfl⟩
      obtain ⟨hall, tail, htail⟩ := hread
      have hdrop : (text.dropWhile u.isDecimal).drop (Figure.groupText groups).length = tail := by
        rw [htail, List.drop_left]
      rw [hdrop]
      obtain ⟨hdigits, rest, hrest⟩ := readFraction_fractionText (u := u) tail
      have hends := endsDigits_dropWhile (u := u) text
      have htext : text = text.takeWhile u.isDecimal ++ text.dropWhile u.isDecimal :=
        List.takeWhile_append_dropWhile.symm
      refine ⟨rest, ?_, hwhole, fun c hc => List.mem_takeWhile_imp hc, ?_, hall, ?_, ?_, ?_,
        hdigits, ?_⟩
      · simp only [Figure.text, List.append_assoc, ← hrest, ← htail, ← htext]
      · rw [← hrest, ← htail]
        exact hends
      · intro hne
        by_contra hlong
        rw [if_neg hlong] at hgroups
        exact hne hgroups.symm
      · intro hne
        have hshort : (text.takeWhile u.isDecimal).length ≤ 3 := by
          by_contra hlong
          rw [if_neg hlong] at hgroups
          exact hne hgroups.symm
        rw [if_pos hshort, htail] at hgroups
        rw [← hrest]
        exact ((readGroups_groupText_iff hcomma _ _).mp hgroups).2.1 hne
      · intro hshort
        rw [if_pos hshort, htail] at hgroups
        rw [← hrest]
        exact ((readGroups_groupText_iff hcomma _ _).mp hgroups).2.2
      · rw [← hrest]
  · rintro ⟨rest, rfl, hfits⟩
    obtain ⟨htake, hdrop⟩ := takeWhile_isDecimal hfits.whole_digits hfits.whole_end
    have hgroups : (if f.whole.length ≤ 3 then readGroups u closed (Figure.groupText f.groups ++
        (Figure.fractionText f.fraction ++ rest)) else []) = f.groups := by
      split
      · rename_i hshort
        exact (readGroups_groupText_iff hcomma _ _).mpr
          ⟨hfits.groups, hfits.group_end, hfits.no_group hshort⟩
      · rename_i hlong
        by_contra hne
        exact hlong (hfits.short (Ne.symm hne))
    simp only [readFigure, Figure.text, List.append_assoc, htake, hdrop, hgroups, List.drop_left,
      hfits.fraction, if_neg hfits.whole_ne]

/-- No digit stands behind a figure of a text. -/
theorem Figure.Fits.ends {f : Figure} {rest : List Char} (h : f.Fits u (endsDigits u) rest) :
    endsDigits u rest.head? = true := by
  by_cases hf : f.fraction = []
  · by_cases hg : f.groups = []
    · simpa [hf, hg, groupText, fractionText] using h.whole_end
    · simpa [hf, fractionText] using h.group_end hg
  · have hread := h.fraction
    rw [fractionText, if_neg hf, List.cons_append, readFraction] at hread
    simp only [BEq.rfl, if_true, List.takeWhile_append_of_pos h.fraction_digits] at hread
    have hnone : rest.takeWhile u.isDecimal = [] := by simpa using hread
    cases rest with
    | nil => rfl
    | cons c rest =>
        by_cases hc : u.isDecimal c = true
        · simp [hc] at hnone
        · simp [endsDigits, hc]

/-- What may follow a figure can be exchanged as long as it does not continue the figure. -/
theorem Figure.Fits.congr_rest {closed closed' : Option Char → Bool} {f : Figure}
    {rest rest' : List Char} (h : f.Fits u closed rest) (hpoint : closed' (some '.') = true)
    (hends : endsDigits u rest'.head? = true) (hclosed : closed' rest'.head? = true)
    (hfraction : f.fraction = [] → readFraction u rest' = [])
    (hgroup : f.whole.length ≤ 3 → f.fraction = [] → readGroups u closed' rest' = []) :
    f.Fits u closed' rest' := by
  have hwhole : endsDigits u
      (groupText f.groups ++ (fractionText f.fraction ++ rest')).head? = true := by
    have hold := h.whole_end
    cases hg : f.groups with
    | cons g gs => simp [groupText_cons]
    | nil =>
        by_cases hf : f.fraction = []
        · simpa [groupText, hf, fractionText] using hends
        · simp [groupText, hf, fractionText, endsDigits]
  refine ⟨h.whole_ne, h.whole_digits, hwhole, h.groups, h.short, ?_, ?_, h.fraction_digits, ?_⟩
  · intro _
    by_cases hf : f.fraction = []
    · simpa [hf, fractionText] using hclosed
    · simpa [hf, fractionText] using hpoint
  · intro hshort
    by_cases hf : f.fraction = []
    · simpa [hf, fractionText] using hgroup hshort hf
    · rw [fractionText, if_neg hf, List.cons_append]
      exact readGroups_of_ne_comma (by decide) _
  · by_cases hf : f.fraction = []
    · simpa [hf, fractionText] using hfraction hf
    · rw [fractionText, if_neg hf, List.cons_append, readFraction]
      exact (takeWhile_isDecimal h.fraction_digits hends).1

end Figures

section Places

variable {u : UnicodeData}

def IsSign (sign : List Char) : Prop := sign = [] ∨ sign = ['-'] ∨ sign = ['+']

theorem isSign_signOf (text : List Char) : IsSign (signOf text) := by
  cases text with
  | nil => exact .inl rfl
  | cons c text =>
      by_cases hminus : c = '-'
      · exact .inr (.inl (by simp [signOf, hminus]))
      · by_cases hplus : c = '+'
        · exact .inr (.inr (by simp [signOf, hplus]))
        · exact .inl (by simp [signOf, hminus, hplus])

theorem signOf_append_drop (text : List Char) :
    signOf text ++ text.drop (signOf text).length = text := by
  cases text with
  | nil => rfl
  | cons c text =>
      by_cases hsign : (c == '-' || c == '+') = true
      · simp [signOf, hsign]
      · simp [signOf, hsign]

theorem Figure.Fits.startsDigit {closed : Option Char → Bool} {f : Figure} {rest : List Char}
    (h : f.Fits u closed rest) (tail : List Char) : ∃ c t, f.text ++ tail = c :: t ∧
      u.isDecimal c = true := by
  obtain ⟨c, whole, hwhole⟩ := List.exists_cons_of_ne_nil h.whole_ne
  exact ⟨c, whole ++ (groupText f.groups ++ fractionText f.fraction) ++ tail,
    by simp [Figure.text, hwhole], h.whole_digits c (by simp [hwhole])⟩

theorem signOf_of_isDecimal {c : Char} (hc : u.isDecimal c = true) (text : List Char) :
    signOf (c :: text) = [] := by
  have hminus : c ≠ '-' := by
    rintro rfl
    simp at hc
  have hplus : c ≠ '+' := by
    rintro rfl
    simp at hc
  simp [signOf, hminus, hplus]

/-- A sign is read off a text that goes on with a figure. -/
theorem signOf_append {closed : Option Char → Bool} {f : Figure} {rest : List Char}
    (h : f.Fits u closed rest) {sign : List Char} (hsign : IsSign sign) (tail : List Char) :
    signOf (sign ++ (f.text ++ tail)) = sign := by
  rcases hsign with rfl | rfl | rfl
  · obtain ⟨c, t, ht, hc⟩ := h.startsDigit tail
    rw [List.nil_append, ht, signOf_of_isDecimal hc]
  · rfl
  · rfl

theorem readStated_eq_some_iff {before text : List Char} {o : Occurrence} {n : ℕ} :
    readStated u before text = some (o, n) ↔
      text = o.sign ++ (o.figure.text ++ o.rest) ∧ o.figure.Fits u (endsDigits u) o.rest ∧
        o.before = before ∧ n = (o.sign ++ o.figure.text).length ∧ IsSign o.sign ∧
        (o.sign ≠ [] → isGlued u before = false) := by
  constructor
  · intro h
    simp only [readStated, Option.map_eq_some_iff] at h
    obtain ⟨f, hf, hpair⟩ := h
    generalize hsign : (if isGlued u before then [] else signOf text) = sign at hf hpair
    rw [readFigure_eq_some_iff endsDigits_comma] at hf
    obtain ⟨rest, hrest, hfits⟩ := hf
    have hsigned : IsSign sign ∧ (sign ≠ [] → isGlued u before = false) ∧
        sign ++ text.drop sign.length = text := by
      split at hsign
      · subst hsign
        exact ⟨.inl rfl, fun hne => absurd rfl hne, rfl⟩
      · rename_i hglued
        subst hsign
        exact ⟨isSign_signOf text, fun _ => by simpa using hglued, signOf_append_drop text⟩
    obtain ⟨hsign, hfree, htext⟩ := hsigned
    rw [hrest] at htext
    have hdrop : text.drop (sign ++ f.text).length = rest := by
      rw [← htext, ← List.append_assoc, List.drop_left]
    rw [hdrop] at hpair
    cases hpair
    exact ⟨htext.symm, hfits, rfl, rfl, hsign, hfree⟩
  · rintro ⟨rfl, hfits, rfl, rfl, hsign, hfree⟩
    have hread : (if isGlued u o.before then []
        else signOf (o.sign ++ (o.figure.text ++ o.rest))) = o.sign := by
      split
      · rename_i hglued
        by_contra hne
        rw [hfree (Ne.symm hne)] at hglued
        cases hglued
      · exact signOf_append hfits hsign o.rest
    have hfigure : readFigure u (endsDigits u) (o.figure.text ++ o.rest) = some o.figure :=
      (readFigure_eq_some_iff endsDigits_comma).mpr ⟨o.rest, rfl, hfits⟩
    simp only [readStated, hread, List.drop_left, hfigure, Option.map_some]
    rw [← List.append_assoc, List.drop_left]

/-- What the pattern matches where it finds a figure that fits. -/
theorem readMatch_of_fits {before sign rest : List Char} {f : Figure} (hsign : IsSign sign)
    (hfits : f.Fits u (fun _ => true) rest) (hfree : isGlued u before = false) :
    readMatch u before (sign ++ (f.text ++ rest)) =
      some (⟨sign, f, readSuffix (rest.dropWhile isSpace)⟩,
        (sign ++ f.text ++ rest.takeWhile isSpace ++
          readSuffix (rest.dropWhile isSpace)).length) := by
  have hfigure : readFigure u (fun _ => true) (f.text ++ rest) = some f :=
    (readFigure_eq_some_iff rfl).mpr ⟨rest, rfl, hfits⟩
  have hdrop : (sign ++ (f.text ++ rest)).drop (sign ++ f.text).length = rest := by
    rw [← List.append_assoc, List.drop_left]
  simp only [readMatch, hfree, signOf_append hfits hsign, List.drop_left, hfigure,
    Option.map_some, hdrop, Bool.false_eq_true, if_false]

theorem readFigure_eq_none_iff {closed : Option Char → Bool} {text : List Char} :
    readFigure u closed text = none ↔ startsDigit u text = false := by
  cases text with
  | nil => simp [readFigure, startsDigit]
  | cons c text => by_cases hc : u.isDecimal c = true <;> simp [readFigure, startsDigit, hc]

theorem readMatch_of_glued {before : List Char} (h : isGlued u before = true) (text : List Char) :
    readMatch u before text = none := by
  simp [readMatch, h]

/-- Where no number is stated the pattern does not match. -/
theorem readMatch_eq_none {before text : List Char} (h : readStated u before text = none) :
    readMatch u before text = none := by
  by_cases hglued : isGlued u before = true
  · exact readMatch_of_glued hglued text
  · simp only [readStated, readMatch, hglued, if_false, Option.map_eq_none_iff,
      Bool.false_eq_true] at h ⊢
    exact readFigure_eq_none_iff.mpr (readFigure_eq_none_iff.mp h)

/-- Nothing is stated at a character that is neither a digit nor a sign. -/
theorem readStated_eq_none {before text : List Char} {c : Char} (hdigit : u.isDecimal c = false)
    (hminus : c ≠ '-') (hplus : c ≠ '+') : readStated u before (c :: text) = none := by
  have hsign : (if isGlued u before then [] else signOf (c :: text)) = [] := by
    simp [signOf, hminus, hplus]
  simp only [readStated, hsign, Option.map_eq_none_iff]
  exact readFigure_eq_none_iff.mpr (by simp [startsDigit, hdigit])

end Places

section Scales

variable {u : UnicodeData}

theorem toNat_lt_of_toLower {c : Char} (h : c.toLower.toNat < 128) : c.toNat < 128 := by
  unfold Char.toLower at h
  split at h
  · rename_i hc
    have hle : c.toNat ≤ 90 := UInt32.le_iff_toNat_le.mp hc.2
    omega
  · exact h

theorem foldCase_eq_toLower {c : Char} (h : c.toNat < 128) : foldCase c = c.toLower := by
  have hdotted : c.toNat ≠ 0x130 := by omega
  have hdotless : c.toNat ≠ 0x131 := by omega
  have hlong : c.toNat ≠ 0x17F := by omega
  have hkelvin : c.toNat ≠ 0x212A := by omega
  simp [foldCase, hdotted, hdotless, hlong, hkelvin]

theorem map_foldCase_of_map_toLower {w name : List Char} (hname : ∀ c ∈ name, c.toNat < 128)
    (h : w.map Char.toLower = name) : w.map foldCase = name := by
  rw [← h]
  apply List.map_congr_left
  intro c hc
  apply foldCase_eq_toLower
  apply toNat_lt_of_toLower
  exact hname _ (h ▸ List.mem_map_of_mem hc)

/-- The factor of a suffix in lower case. -/
def suffixScale (suffix : List Char) : Option ℚ :=
  if suffix = ['%'] then some (1 / 100) else scales.lookup suffix

theorem readSuffix_cases (text : List Char) :
    (readSuffix text = [] ∧ ∀ s ∈ suffixes, (text.take s.length).map foldCase ≠ s) ∨
      ∃ s ∈ suffixes, (readSuffix text).map foldCase = s ∧
        readSuffix text = text.take s.length := by
  unfold readSuffix
  split
  · rename_i s hs
    exact .inr ⟨s, List.mem_of_find?_eq_some hs, by simpa using List.find?_some hs, rfl⟩
  · rename_i hnone
    refine .inl ⟨rfl, fun s hs => ?_⟩
    simpa using List.find?_eq_none.mp hnone s hs

/-- What the pattern takes for a scale has a factor when it is ASCII. -/
theorem exists_suffixScale {text : List Char} (hascii : ∀ c ∈ readSuffix text, c.toNat < 128) :
    ∃ scale ∈ [1, 1 / 100, 1000, 1000000, 1000000000],
      suffixScale (u.lower (readSuffix text)) = some scale ∧
        suffixScale ((readSuffix text).map foldCase) = some scale ∧
          (readSuffix text = [] → scale = 1) := by
  have hlower : u.lower (readSuffix text) = (readSuffix text).map foldCase := by
    rw [u.lower_ascii _ hascii]
    apply List.map_congr_left
    intro c hc
    exact (foldCase_eq_toLower (hascii c hc)).symm
  rw [hlower]
  rcases readSuffix_cases text with ⟨hnil, _⟩ | ⟨s, hs, hfold, _⟩
  · rw [hnil]
    exact ⟨1, by simp, rfl, rfl, fun _ => rfl⟩
  · have hne : readSuffix text ≠ [] := by
      intro hnil
      rw [hnil] at hfold
      subst hfold
      simp [suffixes, thousand, million, billion] at hs
    rw [hfold]
    simp only [suffixes, List.mem_cons, List.not_mem_nil, or_false] at hs
    rcases hs with rfl | rfl | rfl | rfl | rfl | rfl | rfl
    · exact ⟨1 / 100, by simp, rfl, rfl, fun h => absurd h hne⟩
    · exact ⟨1000, by simp, rfl, rfl, fun h => absurd h hne⟩
    · exact ⟨1000000, by simp, rfl, rfl, fun h => absurd h hne⟩
    · exact ⟨1000000000, by simp, rfl, rfl, fun h => absurd h hne⟩
    · exact ⟨1000, by simp, rfl, rfl, fun h => absurd h hne⟩
    · exact ⟨1000000, by simp, rfl, rfl, fun h => absurd h hne⟩
    · exact ⟨1000000000, by simp, rfl, rfl, fun h => absurd h hne⟩

/-- The pattern takes one letter where the text goes on with it. -/
theorem readSuffix_letter {c letter : Char} {text : List Char}
    (hletter : letter = 'k' ∨ letter = 'm' ∨ letter = 'b') (hc : foldCase c = letter) :
    readSuffix (c :: text) = [c] := by
  rcases hletter with rfl | rfl | rfl <;> simp [readSuffix, suffixes, hc]

/-- On a word that names a scale the pattern takes a suffix of the same factor. -/
theorem suffixScale_of_word {w name : List Char} {scale : ℚ} (hname : (name, scale) ∈ scaleWords)
    (hfold : w.map foldCase = name) (rest : List Char) :
    readSuffix (w ++ rest) ≠ [] ∧
      suffixScale ((readSuffix (w ++ rest)).map foldCase) = some scale := by
  have hletter : ∀ {letter : Char} {name' : List Char}, w.map foldCase = letter :: name' →
      letter = 'k' ∨ letter = 'm' ∨ letter = 'b' →
        ∃ c, foldCase c = letter ∧ readSuffix (w ++ rest) = [c] := by
    intro letter name' hw hcases
    obtain ⟨c, w, rfl, hc, _⟩ := List.map_eq_cons_iff.mp hw
    exact ⟨c, hc, readSuffix_letter hcases hc⟩
  simp only [scaleWords, List.mem_cons, List.not_mem_nil, or_false, Prod.mk.injEq] at hname
  rcases hname with ⟨rfl, rfl⟩ | ⟨rfl, rfl⟩ | ⟨rfl, rfl⟩ | ⟨rfl, rfl⟩ | ⟨rfl, rfl⟩ | ⟨rfl, rfl⟩ |
    ⟨rfl, rfl⟩
  · obtain ⟨c, w, rfl, hc, hw⟩ := List.map_eq_cons_iff.mp hfold
    have hread : readSuffix (c :: w ++ rest) = [c] := by simp [readSuffix, suffixes, hc]
    rw [hread]
    exact ⟨by simp, by rw [List.map_singleton, hc]; rfl⟩
  · obtain ⟨c, hc, hread⟩ := hletter hfold (.inl rfl)
    rw [hread]
    exact ⟨by simp, by rw [List.map_singleton, hc]; rfl⟩
  · obtain ⟨c, hc, hread⟩ := hletter hfold (.inr (.inl rfl))
    rw [hread]
    exact ⟨by simp, by rw [List.map_singleton, hc]; rfl⟩
  · obtain ⟨c, hc, hread⟩ := hletter hfold (.inr (.inr rfl))
    rw [hread]
    exact ⟨by simp, by rw [List.map_singleton, hc]; rfl⟩
  · have hlength : w.length = 8 := by simpa [thousand] using congrArg List.length hfold
    have hread : readSuffix (w ++ rest) = w := by
      have htake : (w ++ rest).take 8 = w := by rw [← hlength, List.take_left]
      obtain ⟨c, w', rfl, hc, _⟩ := List.map_eq_cons_iff.mp hfold
      have hwhole : ((c :: w' ++ rest).take thousand.length).map foldCase =
          thousand := by
        rw [show thousand.length = 8 from rfl, htake, hfold]
      have hfind : suffixes.find? (fun s => ((c :: w' ++ rest).take s.length).map foldCase == s) =
          some thousand := by
        rw [suffixes, List.find?_cons_of_neg (by simp [hc]), List.find?_cons_of_neg (by simp [hc]),
          List.find?_cons_of_neg (by simp [hc]), List.find?_cons_of_neg (by simp [hc]),
          List.find?_cons]
        simp only [hwhole, BEq.rfl]
      simp only [readSuffix, hfind]
      exact htake
    have hne : w ≠ [] := by
      rintro rfl
      cases hlength
    rw [hread, hfold]
    exact ⟨hne, rfl⟩
  · obtain ⟨c, hc, hread⟩ := hletter hfold (.inr (.inl rfl))
    rw [hread]
    exact ⟨by simp, by rw [List.map_singleton, hc]; rfl⟩
  · obtain ⟨c, hc, hread⟩ := hletter hfold (.inr (.inr rfl))
    rw [hread]
    exact ⟨by simp, by rw [List.map_singleton, hc]; rfl⟩

/-- The pattern takes a suffix of the factor that the next word names. -/
theorem suffixScale_of_namedScale {text : List Char} {scale : ℚ}
    (h : namedScale u text = some scale) :
    readSuffix (text.dropWhile isSpace) ≠ [] ∧
      suffixScale ((readSuffix (text.dropWhile isSpace)).map foldCase) = some scale := by
  obtain ⟨l₁, l₂, hmem, _⟩ := List.lookup_eq_some_iff.mp h
  have hname : ((nextWord u text).map Char.toLower, scale) ∈ scaleWords := by
    rw [hmem]
    simp
  have hascii : ∀ c ∈ (nextWord u text).map Char.toLower, c.toNat < 128 := by
    have hall : ∀ p ∈ scaleWords, (p.1.all fun c => c.toNat < 128) = true := by decide
    exact forall_of_all (hall _ hname)
  have hfold := map_foldCase_of_map_toLower hascii rfl
  have hprefix : ∃ rest, text.dropWhile isSpace = nextWord u text ++ rest := by
    unfold nextWord
    split
    · rename_i rest hrest
      exact ⟨rest, by rw [hrest]; rfl⟩
    · exact ⟨_, List.takeWhile_append_dropWhile.symm⟩
  obtain ⟨rest, hrest⟩ := hprefix
  rw [hrest]
  exact suffixScale_of_word hname hfold rest

theorem candidate_of_suffixScale {m : NumberMatch} {scale : ℚ}
    (h : suffixScale (u.lower m.suffix) = some scale) :
    m.candidate u = some (significant 28 (m.number u * scale)) := by
  unfold suffixScale at h
  unfold NumberMatch.candidate
  dsimp only
  by_cases hpercent : u.lower m.suffix = ['%']
  · rw [if_pos hpercent] at h ⊢
    cases h
    rw [mul_one_div]
  · rw [if_neg hpercent] at h ⊢
    rw [h, Option.map_some]

/-- The factors are powers of ten. -/
theorem exists_zpow_of_scale {scale : ℚ}
    (h : scale ∈ [1, 1 / 100, 1000, 1000000, 1000000000]) : ∃ k : ℤ, scale = 10 ^ k := by
  simp only [List.mem_cons, List.not_mem_nil, or_false] at h
  rcases h with rfl | rfl | rfl | rfl | rfl
  · exact ⟨0, by norm_num⟩
  · exact ⟨-2, by norm_num⟩
  · exact ⟨3, by norm_num⟩
  · exact ⟨6, by norm_num⟩
  · exact ⟨9, by norm_num⟩

theorem namedScale_mem (text : List Char) :
    (namedScale u text).getD 1 ∈ [1, 1 / 100, 1000, 1000000, 1000000000] := by
  cases h : namedScale u text with
  | none => simp
  | some scale =>
      obtain ⟨l₁, l₂, hmem, _⟩ := List.lookup_eq_some_iff.mp h
      have hall : ∀ p ∈ scaleWords, p.2 ∈ [1, 1 / 100, 1000, 1000000, 1000000000] := by
        simp [scaleWords]
      exact hall ((nextWord u text).map Char.toLower, scale) (by rw [hmem]; simp)

/-- What is read at a number that stands free: the pattern's value is the stated one, or neither
is the value looked for. -/
theorem candidate_iff {o : Occurrence} {v : ℚ} (hascii : ∀ c ∈ o.suffix, c.toNat < 128)
    (hread : (o.suffix ≠ [] → (namedScale u o.rest).isSome) ∧ HasDigits 28 (o.number u) ∨
      o.IsApart u v) :
    ∃ q, (NumberMatch.mk o.sign o.figure o.suffix).candidate u = some q ∧
      (q = v ↔ o.value u = v) := by
  obtain ⟨scale, hmem, hlower, hfold, hnil⟩ := exists_suffixScale (u := u) hascii
  refine ⟨_, candidate_of_suffixScale hlower, ?_⟩
  change significant 28 (o.number u * scale) = v ↔ o.value u = v
  rcases hread with ⟨hnamed, hdigits⟩ | hapart
  · obtain ⟨k, hk⟩ := exists_zpow_of_scale hmem
    have hexact : significant 28 (o.number u * scale) = o.number u * scale := by
      apply significant_of_hasDigits
      rw [hk]
      exact hdigits.scaled k
    have hscale : (namedScale u o.rest).getD 1 = scale := by
      cases h : namedScale u o.rest with
      | none =>
          have hempty : o.suffix = [] := by
            by_contra hne
            simpa [h] using hnamed hne
          exact (hnil hempty).symm
      | some named =>
          have hsame := (suffixScale_of_namedScale h).2
          exact Option.some.inj (hsame.symm.trans hfold)
    rw [hexact, Occurrence.value, hscale]
  · have hstated : o.value u ≠ v := (hapart _ (namedScale_mem o.rest)).1
    exact iff_of_false (hapart scale hmem).2 hstated

end Scales

section Agreement

variable {u : UnicodeData}

/-- The characters of a figure without groups: digits and a point behind a digit. -/
theorem glued_in_figure (hwords : ∀ c, u.isDecimal c = true → u.isAlnum c = true)
    {closed : Option Char → Bool} {f : Figure} {rest : List Char} (hfits : f.Fits u closed rest)
    (hgroups : f.groups = []) {l r : List Char} {a b : Char} (htext : f.text = l ++ a :: b :: r)
    (before : List Char) : isGlued u (a :: (l.reverse ++ before)) = true := by
  have hmem : a ∈ f.text := by simp [htext]
  have hcases : u.isDecimal a = true ∨ a = '.' := by
    simp only [Figure.text, hgroups, Figure.groupText, List.flatMap_nil, List.nil_append,
      List.mem_append, Figure.fractionText] at hmem
    rcases hmem with hwhole | hfraction
    · exact .inl (hfits.whole_digits a hwhole)
    · split at hfraction
      · cases hfraction
      · rcases List.mem_cons.mp hfraction with rfl | hdigits
        · exact .inr rfl
        · exact .inl (hfits.fraction_digits a hdigits)
  rcases hcases with hdigit | rfl
  · simp [isGlued, UnicodeData.isWord, hwords a hdigit]
  · simp [isGlued]

/-- The pattern passes over a number without groups that it may not begin to read. -/
theorem scan_glued (hwords : ∀ c, u.isDecimal c = true → u.isAlnum c = true)
    {closed : Option Char → Bool} {f : Figure} {rest before : List Char}
    (hfits : f.Fits u closed rest) (hgroups : f.groups = []) (hglued : isGlued u before = true) :
    scan (readMatch u) 0 before (f.text ++ rest) =
      scan (readMatch u) 0 (f.text.reverse ++ before) rest := by
  apply scan_dull
  intro l a r htext
  apply readMatch_of_glued
  cases hl : l.reverse with
  | nil => simpa using hglued
  | cons b l' =>
      have hsplit : f.text = l'.reverse ++ b :: a :: r := by
        rw [htext, ← List.reverse_reverse l, hl]
        simp
      simpa using glued_in_figure hwords hfits hgroups hsplit before

theorem unstated_of_isSpace {c : Char} (hc : isSpace c = true) :
    u.isDecimal c = false ∧ c ≠ '-' ∧ c ≠ '+' := by
  refine ⟨?_, ?_, ?_⟩
  · by_contra hdigit
    have hsome : (u.decimal c).isSome = true := by
      simpa only [UnicodeData.isDecimal, Bool.not_eq_false] using hdigit
    have hwhite := u.decimal_not_whiteSpace c hsome
    simp only [isSpace, hwhite, Bool.false_or, Bool.and_eq_true, decide_eq_true_eq] at hc
    have hnodigit : c.isDigit = false := by
      simp only [Char.isDigit, Bool.and_eq_false_iff, decide_eq_false_iff_not]
      left
      intro hge
      have hle : 48 ≤ c.toNat := UInt32.le_iff_toNat_le.mp hge
      omega
    rw [not_isDecimal (by omega) hnodigit] at hdigit
    exact hdigit rfl
  · rintro rfl
    revert hc
    decide
  · rintro rfl
    revert hc
    decide

theorem toLower_of_isDigit {c : Char} (hc : c.isDigit = true) : c.toLower = c := by
  simp only [Char.isDigit, Bool.and_eq_true, decide_eq_true_eq] at hc
  have hle : c.toNat ≤ 57 := UInt32.le_iff_toNat_le.mp hc.2
  unfold Char.toLower
  rw [dif_neg]
  rintro ⟨hge, _⟩
  have hge' : 65 ≤ c.toNat := UInt32.le_iff_toNat_le.mp hge
  omega

theorem unstated_of_suffix {c : Char} {text : List Char} (hc : c ∈ readSuffix text)
    (hascii : c.toNat < 128) : u.isDecimal c = false ∧ c ≠ '-' ∧ c ≠ '+' := by
  have hlower : c.toLower.isDigit = false ∧ c.toLower ≠ '-' ∧ c.toLower ≠ '+' := by
    rcases readSuffix_cases text with ⟨hnil, _⟩ | ⟨s, hs, hfold, _⟩
    · rw [hnil] at hc
      cases hc
    · have hmem : c.toLower ∈ s := by
        rw [← foldCase_eq_toLower hascii, ← hfold]
        exact List.mem_map_of_mem hc
      have hall : ∀ s ∈ suffixes,
          (s.all fun x => x.isDigit = false ∧ x ≠ '-' ∧ x ≠ '+') = true := by decide
      exact forall_of_all (hall s hs) _ hmem
  refine ⟨not_isDecimal hascii ?_, ?_, ?_⟩
  · by_contra hdigit
    have hdigit' : c.isDigit = true := by simpa using hdigit
    rw [toLower_of_isDigit hdigit', hdigit'] at hlower
    cases hlower.1
  · rintro rfl
    exact hlower.2.1 rfl
  · rintro rfl
    exact hlower.2.2 rfl

/-- Nothing is stated by white space and by a scale. -/
theorem scan_scale {text : List Char} (before : List Char)
    (hascii : ∀ c ∈ readSuffix (text.dropWhile isSpace), c.toNat < 128) :
    ∃ rest, text = text.takeWhile isSpace ++ readSuffix (text.dropWhile isSpace) ++ rest ∧
      scan (readStated u) 0 before text = scan (readStated u) 0
        ((text.takeWhile isSpace ++ readSuffix (text.dropWhile isSpace)).reverse ++ before)
        rest := by
  have hprefix : ∃ rest, text.dropWhile isSpace =
      readSuffix (text.dropWhile isSpace) ++ rest := by
    rcases readSuffix_cases (text.dropWhile isSpace) with ⟨hnil, _⟩ | ⟨s, _, _, htake⟩
    · exact ⟨text.dropWhile isSpace, by rw [hnil, List.nil_append]⟩
    · refine ⟨(text.dropWhile isSpace).drop s.length, ?_⟩
      conv_lhs => rw [← List.take_append_drop s.length (text.dropWhile isSpace)]
      rw [← htake]
  obtain ⟨rest, hrest⟩ := hprefix
  have htext : text = text.takeWhile isSpace ++ readSuffix (text.dropWhile isSpace) ++ rest := by
    rw [List.append_assoc, ← hrest, List.takeWhile_append_dropWhile]
  refine ⟨rest, htext, ?_⟩
  conv_lhs => rw [htext]
  apply scan_dull
  intro l c r hsplit
  have hmem : c ∈ text.takeWhile isSpace ++ readSuffix (text.dropWhile isSpace) := by
    simp [hsplit]
  have hc : u.isDecimal c = false ∧ c ≠ '-' ∧ c ≠ '+' := by
    rcases List.mem_append.mp hmem with hspace | hsuffix
    · exact unstated_of_isSpace (List.mem_takeWhile_imp hspace)
    · exact unstated_of_suffix hsuffix (hascii c hsuffix)
  exact readStated_eq_none hc.1 hc.2.1 hc.2.2

/-- In a text whose numbers are plain, the pattern finds the value where it is stated. -/
theorem candidates_iff (hwords : ∀ c, u.isDecimal c = true → u.isAlnum c = true) {v : ℚ}
    (before text : List Char)
    (hplain : ∀ o ∈ scan (readStated u) 0 before text, o.IsPlain u v) :
    (∀ m ∈ scan (readMatch u) 0 before text, (m.candidate u).isSome) ∧
      ((∃ m ∈ scan (readMatch u) 0 before text, m.candidate u = some v) ↔
        ∃ o ∈ scan (readStated u) 0 before text, o.value u = v) := by
  induction hlen : text.length using Nat.strongRecOn generalizing before text with
  | ind k ih =>
  cases text with
  | nil => simp
  | cons c text =>
      cases hread : readStated u before (c :: text) with
      | none =>
          rw [scan_miss hread] at hplain ⊢
          rw [scan_miss (readMatch_eq_none hread)]
          have hshort : text.length < k := by
            rw [← hlen, List.length_cons]
            omega
          exact ih text.length hshort (c :: before) text hplain rfl
      | some hit =>
          obtain ⟨o, n⟩ := hit
          obtain ⟨htext, hfits, rfl, rfl, hsign, hfree⟩ := readStated_eq_some_iff.mp hread
          have hne : o.sign ++ o.figure.text ≠ [] := by
            have := hfits.whole_ne
            simp [Figure.text, this]
          rw [htext, ← List.append_assoc] at hread hplain ⊢
          rw [scan_hit hne hread] at hplain ⊢
          have hshort : o.rest.length < k := by
            have hpos := List.length_pos_of_ne_nil hne
            rw [← hlen, htext, ← List.append_assoc, List.length_append]
            omega
          have hfirst := hplain o List.mem_cons_self
          have hrest := fun x hx => hplain x (List.mem_cons_of_mem _ hx)
          by_cases hglued : isGlued u o.before = true
          · rw [Occurrence.IsPlain, if_pos hglued] at hfirst
            have hempty : o.sign = [] := by
              by_contra hne
              rw [hfree hne] at hglued
              cases hglued
            rw [hempty, List.nil_append] at hrest ⊢
            rw [scan_glued hwords hfits hfirst.1 hglued]
            obtain ⟨hsome, hiff⟩ := ih _ hshort _ o.rest hrest rfl
            refine ⟨hsome, hiff.trans ?_⟩
            simp [hfirst.2]
          · rw [Occurrence.IsPlain, if_neg hglued] at hfirst
            obtain ⟨hgroup, hascii, hscale⟩ := hfirst
            have hglued' : isGlued u o.before = false := by simpa using hglued
            have hfraction : o.figure.fraction = [] → readFraction u o.rest = [] := by
              intro hnone
              have hold := hfits.fraction
              simpa [hnone, Figure.fractionText] using hold
            have hopen : o.figure.Fits u (fun _ => true) o.rest :=
              hfits.congr_rest rfl hfits.ends rfl hfraction hgroup
            have hmatch := readMatch_of_fits hsign hopen hglued'
            obtain ⟨rest, hsplit, hscan⟩ := scan_scale (u := u)
              ((o.sign ++ o.figure.text).reverse ++ o.before) hascii
            have hconsumed : o.sign ++ o.figure.text ++ o.rest =
                o.sign ++ o.figure.text ++ o.rest.takeWhile isSpace ++ o.suffix ++ rest := by
              conv_lhs => rw [hsplit]
              simp only [Occurrence.suffix, List.append_assoc]
            have hmatched : scan (readMatch u) 0 o.before (o.sign ++ o.figure.text ++ o.rest) =
                NumberMatch.mk o.sign o.figure o.suffix ::
                  scan (readMatch u) 0 ((o.sign ++ o.figure.text ++ o.rest.takeWhile isSpace ++
                    o.suffix).reverse ++ o.before) rest := by
              rw [hconsumed]
              apply scan_hit
              · simp [hfits.whole_ne, Figure.text]
              · rw [← hconsumed, List.append_assoc]
                exact hmatch
            have hplace : (o.sign ++ o.figure.text ++ o.rest.takeWhile isSpace ++
                o.suffix).reverse ++ o.before = (o.rest.takeWhile isSpace ++ o.suffix).reverse ++
                  ((o.sign ++ o.figure.text).reverse ++ o.before) := by
              simp only [List.append_assoc, List.reverse_append]
            rw [hmatched, hplace]
            rw [hscan] at hrest ⊢
            have hlater : rest.length < k := by
              have hle := congrArg List.length hsplit
              simp only [List.length_append] at hle
              omega
            obtain ⟨hsome, hiff⟩ := ih _ hlater _ rest hrest rfl
            obtain ⟨q, hq, hqv⟩ := candidate_iff (u := u) (v := v) hascii hscale
            simp only [List.mem_cons, forall_eq_or_imp, exists_eq_or_imp, hq, Option.isSome_some,
              true_and, Option.some.injEq, hqv]
            exact ⟨hsome, or_congr_right hiff⟩

end Agreement

section Cuts

variable {u : UnicodeData}

theorem isJoined_digits {a b : Char} (ha : u.isDecimal a = true) (hb : u.isDecimal b = true)
    (before text : List Char) : isJoined u (a :: before) (b :: text) = true := by
  simp [isJoined, ha, hb]

theorem isJoined_run {run : List Char} (hdigits : ∀ c ∈ run, u.isDecimal c = true)
    (hne : run ≠ []) {b : Char} (hb : u.isDecimal b = true) (before text : List Char) :
    isJoined u (run.reverse ++ before) (b :: text) = true := by
  obtain ⟨a, l, hl⟩ := List.exists_cons_of_ne_nil (List.reverse_ne_nil_iff.mpr hne)
  have ha : u.isDecimal a = true := hdigits a (List.mem_reverse.mp (by rw [hl]; simp))
  rw [hl]
  exact isJoined_digits ha hb _ _

/-- A cut through a fraction or in front of it. -/
theorem isJoined_fraction {fraction : List Char} (hdigits : ∀ c ∈ fraction, u.isDecimal c = true)
    {a : Char} (ha : u.isDecimal a = true) {l r : List Char} (hr : r ≠ [])
    (htext : Figure.fractionText fraction = l ++ r) (before rest : List Char) :
    isJoined u (l.reverse ++ a :: before) (r ++ rest) = true := by
  obtain ⟨b, r, rfl⟩ := List.exists_cons_of_ne_nil hr
  unfold Figure.fractionText at htext
  split at htext
  · simp at htext
  · rename_i hne
    obtain ⟨d, fraction, rfl⟩ := List.exists_cons_of_ne_nil hne
    rcases l with _ | ⟨p, _ | ⟨q, l⟩⟩
    · -- in front of the point
      simp only [List.nil_append, List.cons.injEq] at htext
      obtain ⟨rfl, rfl⟩ := htext
      simp [isJoined, startsDigit, ha, hdigits d List.mem_cons_self]
    · -- behind the point
      simp only [List.cons_append, List.nil_append, List.cons.injEq] at htext
      obtain ⟨rfl, rfl, rfl⟩ := htext
      simp [isJoined, startsDigit, ha, hdigits d List.mem_cons_self]
    · simp only [List.cons_append, List.cons.injEq] at htext
      obtain ⟨_, rfl, rfl⟩ := htext
      have hrun : ∀ c ∈ d :: l, u.isDecimal c = true := by
        intro c hc
        rcases List.mem_cons.mp hc with rfl | hc
        · exact hdigits c List.mem_cons_self
        · exact hdigits c (List.mem_cons_of_mem _ (List.mem_append_left _ hc))
      have hb : u.isDecimal b = true := hdigits b (by simp)
      have hjoined := isJoined_run hrun (by simp) hb (p :: a :: before) (r ++ rest)
      simpa using hjoined

/-- A cut through the groups and the fraction or in front of them. -/
theorem isJoined_groups {fraction : List Char} (hdigits : ∀ c ∈ fraction, u.isDecimal c = true)
    {gs : List (List Char)} (hgroups : ∀ g ∈ gs, IsGroup u g) {a : Char}
    (ha : u.isDecimal a = true) {l r : List Char} (hr : r ≠ [])
    (htext : Figure.groupText gs ++ Figure.fractionText fraction = l ++ r)
    (before rest : List Char) : isJoined u (l.reverse ++ a :: before) (r ++ rest) = true := by
  induction gs generalizing a l before with
  | nil => exact isJoined_fraction hdigits ha hr htext before rest
  | cons g gs ih =>
      obtain ⟨x, y, z, rfl, hx, hy, hz⟩ := hgroups g List.mem_cons_self
      have hgroups' : ∀ g ∈ gs, IsGroup u g := fun g hg => hgroups g (List.mem_cons_of_mem _ hg)
      obtain ⟨b, r, rfl⟩ := List.exists_cons_of_ne_nil hr
      rw [groupText_cons] at htext
      rcases l with _ | ⟨p, _ | ⟨q, _ | ⟨s, _ | ⟨t, l⟩⟩⟩⟩ <;>
        simp only [List.cons_append, List.nil_append, List.cons.injEq] at htext
      · -- in front of the comma
        obtain ⟨rfl, rfl⟩ := htext
        simp [isJoined, startsGroup, ha, hx, hy, hz]
      · -- behind the comma
        obtain ⟨rfl, rfl, rfl⟩ := htext
        simp [isJoined, startsDigit, startsGroup, ha, hx, hy, hz]
      · obtain ⟨rfl, rfl, rfl, rfl⟩ := htext
        exact isJoined_digits hx hy _ _
      · obtain ⟨rfl, rfl, rfl, rfl, rfl⟩ := htext
        exact isJoined_digits hy hz _ _
      · obtain ⟨rfl, rfl, rfl, rfl, htext⟩ := htext
        have hjoined := ih hgroups' hz htext (y :: x :: ',' :: a :: before)
        simpa using hjoined

/-- A cut through a figure. -/
theorem Figure.Fits.isJoined {closed : Option Char → Bool} {f : Figure} {rest : List Char}
    (h : f.Fits u closed rest) {l r : List Char} (hl : l ≠ []) (hr : r ≠ [])
    (htext : f.text = l ++ r) (before tail : List Char) :
    isJoined u (l.reverse ++ before) (r ++ tail) = true := by
  rw [Figure.text, List.append_eq_append_iff] at htext
  rcases htext with ⟨m, rfl, hm⟩ | ⟨m, hwhole, rfl⟩
  · -- behind the first digits
    obtain ⟨a, w, hw⟩ := List.exists_cons_of_ne_nil (List.reverse_ne_nil_iff.mpr h.whole_ne)
    have ha : u.isDecimal a = true := h.whole_digits a (List.mem_reverse.mp (by rw [hw]; simp))
    have hjoined := isJoined_groups h.fraction_digits h.groups ha hr hm (w ++ before) tail
    simpa [hw] using hjoined
  · -- between the first digits
    cases m with
    | nil =>
        obtain ⟨a, w, hw⟩ := List.exists_cons_of_ne_nil (List.reverse_ne_nil_iff.mpr hl)
        have hla : a ∈ f.whole := by
          rw [hwhole, List.append_nil]
          exact List.mem_reverse.mp (by rw [hw]; simp)
        have hjoined := isJoined_groups h.fraction_digits h.groups (h.whole_digits a hla)
          (l := []) (by simpa using hr) rfl (w ++ before) tail
        simpa [hw] using hjoined
    | cons b m =>
        have hrun : ∀ c ∈ l, u.isDecimal c = true :=
          fun c hc => h.whole_digits c (by rw [hwhole]; exact List.mem_append_left _ hc)
        have hb : u.isDecimal b = true := h.whole_digits b (by simp [hwhole])
        simpa using isJoined_run hrun hl hb before _

/-- A cut through a number that is stated. -/
theorem isJoined_of_readStated {l r before : List Char} {o : Occurrence} {n : ℕ}
    (h : readStated u before (l ++ r) = some (o, n)) (hl : l ≠ []) (hlong : l.length < n) :
    isJoined u (l.reverse ++ before) r = true := by
  obtain ⟨htext, hfits, rfl, rfl, hsign, hfree⟩ := readStated_eq_some_iff.mp h
  rw [← List.append_assoc, List.append_eq_append_iff] at htext
  obtain ⟨m, hm, rfl⟩ : ∃ m, o.sign ++ o.figure.text = l ++ m ∧ r = m ++ o.rest := by
    rcases htext with ⟨m, hm, hr⟩ | ⟨m, rfl, hm⟩
    · exact ⟨m, hm, hr⟩
    · have hnil : m = [] := by
        rw [List.length_append] at hlong
        exact List.length_eq_zero_iff.mp (by omega)
      exact ⟨[], by simp [hnil], by simpa [hnil] using hm.symm⟩
  have hne : m ≠ [] := by
    rintro rfl
    rw [List.append_nil] at hm
    rw [hm] at hlong
    omega
  obtain ⟨c, t, ht, hc⟩ := hfits.startsDigit o.rest
  have hsigned : ∀ s, o.sign = [s] → (s == '-' || s == '+') = true →
      isJoined u (l.reverse ++ o.before) (m ++ o.rest) = true := by
    intro s hs hminus
    have hfree' := hfree (by rw [hs]; simp)
    rw [hs] at hm
    obtain ⟨d, l, rfl⟩ := List.exists_cons_of_ne_nil hl
    simp only [List.cons_append, List.nil_append, List.cons.injEq] at hm
    obtain ⟨rfl, hm⟩ := hm
    by_cases hempty : l = []
    · subst hempty
      rw [List.nil_append] at hm
      rw [← hm, ht]
      simp [isJoined, hminus, hfree', hc]
    · simpa using hfits.isJoined hempty hne hm (s :: o.before) o.rest
  rcases hsign with hs | hs | hs
  · rw [hs, List.nil_append] at hm
    exact hfits.isJoined hl hne hm o.before o.rest
  · exact hsigned _ hs rfl
  · exact hsigned _ hs rfl

theorem exists_reverse_eq_cons {run : List Char} (hdigits : ∀ c ∈ run, u.isDecimal c = true)
    (hne : run ≠ []) : ∃ a t, run.reverse = a :: t ∧ u.isDecimal a = true := by
  obtain ⟨a, t, ht⟩ := List.exists_cons_of_ne_nil (List.reverse_ne_nil_iff.mpr hne)
  exact ⟨a, t, ht, hdigits a (List.mem_reverse.mp (by rw [ht]; simp))⟩

/-- A figure ends in a digit. -/
theorem Figure.Fits.endsDigit {closed : Option Char → Bool} {f : Figure} {rest : List Char}
    (h : f.Fits u closed rest) : ∃ a t, f.text.reverse = a :: t ∧ u.isDecimal a = true := by
  by_cases hf : f.fraction = []
  · rcases List.eq_nil_or_concat f.groups with hg | ⟨gs, g, hg⟩
    · obtain ⟨a, t, ht, ha⟩ := exists_reverse_eq_cons h.whole_digits h.whole_ne
      exact ⟨a, t, by simpa [Figure.text, hg, hf, groupText, fractionText] using ht, ha⟩
    · obtain ⟨x, y, z, rfl, hx, hy, hz⟩ := h.groups g (by simp [hg])
      exact ⟨z, y :: x :: ',' :: ((groupText gs).reverse ++ f.whole.reverse),
        by simp [Figure.text, hg, hf, groupText, fractionText], hz⟩
  · obtain ⟨a, t, ht, ha⟩ := exists_reverse_eq_cons h.fraction_digits hf
    exact ⟨a, t ++ '.' :: ((groupText f.groups).reverse ++ f.whole.reverse),
      by simp [Figure.text, hf, fractionText, ht], ha⟩

/-- What does not go on behind a digit. -/
theorem ends_of_not_isJoined {a : Char} {before text : List Char} (ha : u.isDecimal a = true)
    (h : isJoined u (a :: before) text = false) (closed : Option Char → Bool) :
    endsDigits u text.head? = true ∧ readFraction u text = [] ∧ readGroups u closed text = [] := by
  cases text with
  | nil => exact ⟨rfl, rfl, by simp [readGroups]⟩
  | cons b text =>
      simp only [isJoined, ha, Bool.true_and, Bool.or_eq_false_iff] at h
      obtain ⟨⟨⟨⟨⟨hdigit, hpoint⟩, hcomma⟩, _⟩, _⟩, _⟩ := h
      refine ⟨by simp [endsDigits, hdigit], ?_, ?_⟩
      · by_cases hb : b = '.'
        · subst hb
          cases text with
          | nil => rfl
          | cons d text =>
              have hd : u.isDecimal d = false := by simpa [startsDigit] using hpoint
              simp [readFraction, hd]
        · simp [readFraction, hb]
      · by_cases hb : b = ','
        · subst hb
          rcases text with _ | ⟨x, _ | ⟨y, _ | ⟨z, text⟩⟩⟩
          · simp [readGroups]
          · simp [readGroups]
          · simp [readGroups]
          · have hgroup : (u.isDecimal x && u.isDecimal y && u.isDecimal z) = false := by
              simpa [startsGroup] using hcomma
            have hnone : (',' == ',' && u.isDecimal x && u.isDecimal y && u.isDecimal z &&
                closed text.head?) = false := by
              rw [BEq.rfl, Bool.true_and, hgroup, Bool.false_and]
            rw [readGroups, hnone]
            rfl
        · exact readGroups_of_ne_comma hb text

/-- A number of a quote that is not cut off is a number of the whole text. -/
theorem exists_occurrence_of_isWhole {quote left right : List Char} {o : Occurrence}
    (ho : o ∈ occurrences u quote) (hwhole : o.IsWhole u left right) :
    ∃ o' ∈ occurrences u (left ++ quote ++ right), o'.value u = o.value u := by
  obtain ⟨l, r, n, rfl, hread⟩ := exists_of_mem_scan ho
  obtain ⟨rfl, hfits, hbefore, _, hsign, _⟩ := readStated_eq_some_iff.mp hread
  rw [List.append_nil] at hbefore
  have hplace : o.before ++ left.reverse = (left ++ l).reverse := by
    rw [hbefore, List.reverse_append]
  obtain ⟨hleft, hright, hsigned, hscale⟩ := hwhole
  rw [hplace] at hleft hright hsigned
  obtain ⟨a, t, hend, ha⟩ := hfits.endsDigit
  rw [List.reverse_append, hend, List.cons_append, List.cons_append] at hright
  obtain ⟨hends, hfraction, hgroup⟩ := ends_of_not_isJoined ha hright (endsDigits u)
  have hfits' : o.figure.Fits u (endsDigits u) (o.rest ++ right) :=
    hfits.congr_rest (by simp [endsDigits]) hends hends (fun _ => hfraction) (fun _ _ => hgroup)
  have hthere : readStated u (left ++ l).reverse
      (o.sign ++ o.figure.text ++ (o.rest ++ right)) =
        some (⟨(left ++ l).reverse, o.sign, o.figure, o.rest ++ right⟩,
          (o.sign ++ o.figure.text).length) :=
    readStated_eq_some_iff.mpr ⟨by rw [List.append_assoc], hfits', rfl, rfl, hsign, hsigned⟩
  have hne : o.sign ++ o.figure.text ≠ [] := by simp [Figure.text, hfits.whole_ne]
  have hsplit : left ++ (l ++ (o.sign ++ (o.figure.text ++ o.rest))) ++ right =
      (left ++ l) ++ (o.sign ++ o.figure.text ++ (o.rest ++ right)) := by
    simp only [List.append_assoc]
  refine ⟨⟨(left ++ l).reverse, o.sign, o.figure, o.rest ++ right⟩, ?_, ?_⟩
  · rw [hsplit]
    apply mem_scan_of_cut
    · intro l₁ m htext hm y n hy
      by_contra hlong
      have hjoined := isJoined_of_readStated hy hm (not_le.mp hlong)
      rw [List.append_nil, ← List.reverse_append, ← htext, hleft] at hjoined
      cases hjoined
    · rw [List.append_nil, scan_hit hne hthere]
      exact List.mem_cons_self
  · simp only [Occurrence.value, Occurrence.number, hscale]

end Cuts

end CryptoAlert.WebMarket
