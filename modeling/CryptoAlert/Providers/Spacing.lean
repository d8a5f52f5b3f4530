import CryptoAlert.Providers.StatedNumbers

/-!
# Numbers and white space

Quotes and excerpts are compared with one space between their words. That does not change the
numbers that they state: a number lies within a word, and its scale is the next word however far
away it is.
-/

namespace CryptoAlert.WebMarket

open Text Scanning

/-- Two texts that differ in nothing but white space between and behind their words. -/
inductive Respaced : List Char → List Char → Prop
  | letter {c : Char} {x y : List Char} (hc : isSpace c = false) (h : Respaced x y) :
      Respaced (c :: x) (c :: y)
  | gap {s t x y : List Char} (hs : s ≠ []) (ht : t ≠ []) (hs' : ∀ c ∈ s, isSpace c = true)
      (ht' : ∀ c ∈ t, isSpace c = true) (h : Respaced x y) : Respaced (s ++ x) (t ++ y)
  | blank {s t : List Char} (hs : ∀ c ∈ s, isSpace c = true) (ht : ∀ c ∈ t, isSpace c = true) :
      Respaced s t

namespace Respaced

theorem symm {x y : List Char} (h : Respaced x y) : Respaced y x := by
  induction h with
  | letter hc _ ih => exact .letter hc ih
  | gap hs ht hs' ht' _ ih => exact .gap ht hs ht' hs' ih
  | blank hs ht => exact .blank ht hs

theorem exists_of_cons {c : Char} {x y : List Char} (h : Respaced (c :: x) y)
    (hc : isSpace c = false) : ∃ y', y = c :: y' ∧ Respaced x y' := by
  generalize hx : c :: x = text at h
  cases h with
  | letter _ h =>
      cases hx
      exact ⟨_, rfl, h⟩
  | gap hs _ hs' _ _ =>
      obtain ⟨d, s, rfl⟩ := List.exists_cons_of_ne_nil hs
      cases hx
      rw [hs' c List.mem_cons_self] at hc
      cases hc
  | blank hs _ =>
      subst hx
      rw [hs c List.mem_cons_self] at hc
      cases hc

theorem exists_of_append {w x y : List Char} (hw : ∀ c ∈ w, isSpace c = false)
    (h : Respaced (w ++ x) y) : ∃ y', y = w ++ y' ∧ Respaced x y' := by
  induction w generalizing y with
  | nil => exact ⟨y, rfl, h⟩
  | cons c w ih =>
      rw [List.cons_append] at h
      obtain ⟨z, rfl, hz⟩ := h.exists_of_cons (hw c List.mem_cons_self)
      obtain ⟨y', rfl, h'⟩ := ih (fun d hd => hw d (List.mem_cons_of_mem _ hd)) hz
      exact ⟨y', rfl, h'⟩

theorem dropWhile {x y : List Char} (h : Respaced x y) :
    Respaced (x.dropWhile isSpace) (y.dropWhile isSpace) := by
  induction h with
  | letter hc h _ =>
      rw [List.dropWhile_cons_of_neg (by simp [hc]), List.dropWhile_cons_of_neg (by simp [hc])]
      exact .letter hc h
  | gap _ _ hs' ht' _ ih =>
      rw [List.dropWhile_append_of_pos hs', List.dropWhile_append_of_pos ht']
      exact ih
  | blank hs ht =>
      rw [List.dropWhile_eq_nil_iff.mpr hs, List.dropWhile_eq_nil_iff.mpr ht]
      exact .blank (by simp) (by simp)

theorem blank_of_nil {x : List Char} (h : Respaced x []) : ∀ c ∈ x, isSpace c = true := by
  generalize hy : ([] : List Char) = y at h
  cases h with
  | letter _ _ => cases hy
  | gap _ ht _ _ _ => exact absurd (List.append_eq_nil_iff.mp hy.symm).1 ht
  | blank hs _ => exact hs

theorem append_left {w x y : List Char} (hw : ∀ c ∈ w, isSpace c = false) (h : Respaced x y) :
    Respaced (w ++ x) (w ++ y) := by
  induction w with
  | nil => exact h
  | cons c w ih =>
      exact .letter (hw c List.mem_cons_self) (ih fun d hd => hw d (List.mem_cons_of_mem _ hd))

end Respaced

section Words

theorem words_append_of_space {s : List Char} (hs : ∀ c ∈ s, isSpace c = true) (x : List Char) :
    words (s ++ x) = words x := by
  induction s with
  | nil => rfl
  | cons c s ih =>
      have hc := hs c List.mem_cons_self
      rw [← ih fun d hd => hs d (List.mem_cons_of_mem _ hd)]
      simp [words, List.splitOnP_cons_eq_if_modifyHead, hc]

theorem words_append_word {w : List Char} (hne : w ≠ []) (hw : ∀ c ∈ w, isSpace c = false)
    {c : Char} (hc : isSpace c = true) (x : List Char) :
    words (w ++ c :: x) = w :: words x := by
  rw [words, List.splitOnP_append_cons _ _ hc, List.splitOnP_eq_singleton hw]
  simp [words, hne]

theorem words_word {w : List Char} (hne : w ≠ []) (hw : ∀ c ∈ w, isSpace c = false) :
    words w = [w] := by
  rw [words, List.splitOnP_eq_singleton hw]
  simp [hne]

theorem words_of_blank {s : List Char} (hs : ∀ c ∈ s, isSpace c = true) : words s = [] := by
  have hwords := words_append_of_space hs []
  simpa [words] using hwords

/-- Joining the words changes the white space only. -/
theorem respaced_joinWords (x : List Char) :
    Respaced (x.dropWhile isSpace) (joinWords x) := by
  induction hlen : x.length using Nat.strongRecOn generalizing x with
  | ind k ih =>
  have hspaces : ∀ c ∈ x.takeWhile isSpace, isSpace c = true :=
    fun c hc => List.mem_takeWhile_imp hc
  have hwords : words x = words (x.dropWhile isSpace) := by
    conv_lhs => rw [← List.takeWhile_append_dropWhile (p := isSpace) (l := x)]
    exact words_append_of_space hspaces _
  have hle : (x.dropWhile isSpace).length ≤ k := by
    rw [← hlen]
    exact (List.dropWhile_sublist _).length_le
  have hstart := List.head?_dropWhile_not isSpace x
  rw [joinWords, hwords]
  generalize x.dropWhile isSpace = z at hle hstart ⊢
  by_cases hz : z = []
  · subst hz
    exact .blank (by simp) (by simp [words])
  -- the first word and what is behind it
  have hsplit := List.takeWhile_append_dropWhile (p := fun c => !isSpace c) (l := z)
  have hletters : ∀ c ∈ z.takeWhile (fun c => !isSpace c), isSpace c = false := by
    intro c hc
    simpa using List.mem_takeWhile_imp hc
  have hword : z.takeWhile (fun c => !isSpace c) ≠ [] := by
    obtain ⟨c, z, rfl⟩ := List.exists_cons_of_ne_nil hz
    have hc : isSpace c = false := by simpa using hstart
    simp [hc]
  have hbehind := List.head?_dropWhile_not (fun c => !isSpace c) z
  generalize z.takeWhile (fun c => !isSpace c) = w at hsplit hletters hword
  generalize z.dropWhile (fun c => !isSpace c) = r at hsplit hbehind
  subst hsplit
  cases r with
  | nil =>
      rw [List.append_nil, words_word hword hletters]
      have hsame := Respaced.append_left hletters (.blank (s := []) (t := []) (by simp) (by simp))
      simpa using hsame
  | cons d r =>
      have hd : isSpace d = true := by simpa using hbehind
      have hshorter : r.length < k := by
        have hpos := List.length_pos_of_ne_nil hword
        simp only [List.length_append, List.length_cons] at hle
        omega
      have hrest := ih r.length hshorter r rfl
      have hgap : ∀ c ∈ d :: r.takeWhile isSpace, isSpace c = true := by
        intro c hc
        rcases List.mem_cons.mp hc with rfl | hc
        · exact hd
        · exact List.mem_takeWhile_imp hc
      rw [words_append_word hword hletters hd]
      rw [joinWords] at hrest
      cases hr : words r with
      | nil =>
          rw [hr] at hrest
          have hnone : r.dropWhile isSpace = [] := by
            by_contra hne
            obtain ⟨c, q, hq⟩ := List.exists_cons_of_ne_nil hne
            have hc := Respaced.blank_of_nil hrest c (by simp [hq])
            have hhead := List.head?_dropWhile_not isSpace r
            rw [hq] at hhead
            simp [hc] at hhead
          have hblank : ∀ c ∈ d :: r, isSpace c = true := by
            intro c hc
            rcases List.mem_cons.mp hc with rfl | hc
            · exact hd
            · exact List.dropWhile_eq_nil_iff.mp hnone c hc
          have hsame := Respaced.append_left hletters (.blank (t := []) hblank (by simp))
          simpa using hsame
      | cons v vs =>
          rw [hr] at hrest
          have hjoin : [' '].intercalate (w :: v :: vs) =
              w ++ ([' '] ++ [' '].intercalate (v :: vs)) := by
            simp [List.intercalate, List.intersperse]
          have htext : d :: r = (d :: r.takeWhile isSpace) ++ r.dropWhile isSpace := by
            rw [List.cons_append, List.takeWhile_append_dropWhile]
          rw [hjoin, htext]
          exact Respaced.append_left hletters
            (.gap (by simp) (by simp) hgap (by simp; decide) hrest)

end Words

section Readings

variable {u : UnicodeData} {x y : List Char}

theorem not_isSpace_of_isDecimal {c : Char} (hc : u.isDecimal c = true) : isSpace c = false := by
  by_contra hspace
  rw [(unstated_of_isSpace (u := u) (by simpa using hspace)).1] at hc
  cases hc

theorem Figure.Fits.not_isSpace {closed : Option Char → Bool} {f : Figure} {rest : List Char}
    (h : f.Fits u closed rest) : ∀ c ∈ f.text, isSpace c = false := by
  intro c hc
  rcases List.mem_append.mp hc with hwhole | hc
  · exact not_isSpace_of_isDecimal (h.whole_digits c hwhole)
  rcases List.mem_append.mp hc with hgroup | hfraction
  · obtain ⟨g, hg, hc⟩ := List.mem_flatMap.mp hgroup
    obtain ⟨a, b, d, rfl, ha, hb, hd⟩ := h.groups g hg
    simp only [List.mem_cons, List.not_mem_nil, or_false] at hc
    rcases hc with rfl | rfl | rfl | rfl
    · decide
    · exact not_isSpace_of_isDecimal ha
    · exact not_isSpace_of_isDecimal hb
    · exact not_isSpace_of_isDecimal hd
  · unfold Figure.fractionText at hfraction
    split at hfraction
    · cases hfraction
    · rcases List.mem_cons.mp hfraction with rfl | hdigit
      · decide
      · exact not_isSpace_of_isDecimal (h.fraction_digits c hdigit)

theorem IsSign.not_isSpace {sign : List Char} (h : IsSign sign) :
    ∀ c ∈ sign, isSpace c = false := by
  rcases h with rfl | rfl | rfl
  · simp
  · simp; decide
  · simp; decide

/-- White space is passed over. -/
theorem scan_spaces {s : List Char} (hs : ∀ c ∈ s, isSpace c = true) (before text : List Char) :
    scan (readStated u) 0 before (s ++ text) =
      scan (readStated u) 0 (s.reverse ++ before) text := by
  apply scan_dull
  intro l c r hsplit
  obtain ⟨hdigit, hminus, hplus⟩ := unstated_of_isSpace (u := u) (hs c (by simp [hsplit]))
  exact readStated_eq_none hdigit hminus hplus

/-- Behind white space a sign may stand. -/
theorem isGlued_spaces (hspaces : ∀ c, isSpace c = true → u.isAlnum c = false) {s : List Char}
    (hne : s ≠ []) (hs : ∀ c ∈ s, isSpace c = true) (before : List Char) :
    isGlued u (s.reverse ++ before) = false := by
  obtain ⟨c, l, hl⟩ := List.exists_cons_of_ne_nil (List.reverse_ne_nil_iff.mpr hne)
  have hc : isSpace c = true := hs c (List.mem_reverse.mp (by rw [hl]; simp))
  have hunder : c ≠ '_' := by
    rintro rfl
    revert hc
    decide
  have hpoint : c ≠ '.' := by
    rintro rfl
    revert hc
    decide
  rw [hl]
  simp [isGlued, UnicodeData.isWord, hspaces c hc, hunder, hpoint]

namespace Respaced

theorem endsDigits (h : Respaced x y) (hx : endsDigits u x.head? = true) :
    WebMarket.endsDigits u y.head? = true := by
  cases y with
  | nil => rfl
  | cons c y =>
      by_contra hc
      have hdigit : u.isDecimal c = true := by simpa [WebMarket.endsDigits] using hc
      obtain ⟨x, rfl, _⟩ := h.symm.exists_of_cons (not_isSpace_of_isDecimal hdigit)
      simp [WebMarket.endsDigits, hdigit] at hx

theorem readFraction (h : Respaced x y) (hx : readFraction u x = []) :
    WebMarket.readFraction u y = [] := by
  rcases y with _ | ⟨s, _ | ⟨d, y⟩⟩
  · rfl
  · simp [WebMarket.readFraction]
  · by_contra hne
    have hread : s = '.' ∧ u.isDecimal d = true := by
      by_cases hs : s = '.'
      · by_cases hd : u.isDecimal d = true
        · exact ⟨hs, hd⟩
        · simp [WebMarket.readFraction, hd] at hne
      · simp [WebMarket.readFraction, hs] at hne
    obtain ⟨rfl, hd⟩ := hread
    obtain ⟨x, rfl, hx'⟩ := h.symm.exists_of_cons (by decide)
    obtain ⟨x, rfl, _⟩ := hx'.exists_of_cons (not_isSpace_of_isDecimal hd)
    simp [WebMarket.readFraction, hd] at hx

theorem readGroups (h : Respaced x y) (hx : readGroups u (WebMarket.endsDigits u) x = []) :
    WebMarket.readGroups u (WebMarket.endsDigits u) y = [] := by
  rcases y with _ | ⟨s, _ | ⟨a, _ | ⟨b, _ | ⟨c, y⟩⟩⟩⟩
  · simp [WebMarket.readGroups]
  · simp [WebMarket.readGroups]
  · simp [WebMarket.readGroups]
  · simp [WebMarket.readGroups]
  · by_contra hne
    have hread : (s == ',' && u.isDecimal a && u.isDecimal b && u.isDecimal c &&
        WebMarket.endsDigits u y.head?) = true := by
      by_contra hno
      exact hne (by rw [WebMarket.readGroups, if_neg hno])
    simp only [Bool.and_eq_true, beq_iff_eq] at hread
    obtain ⟨⟨⟨⟨rfl, ha⟩, hb⟩, hc⟩, hend⟩ := hread
    obtain ⟨x, rfl, hx₁⟩ := h.symm.exists_of_cons (by decide)
    obtain ⟨x, rfl, hx₂⟩ := hx₁.exists_of_cons (not_isSpace_of_isDecimal ha)
    obtain ⟨x, rfl, hx₃⟩ := hx₂.exists_of_cons (not_isSpace_of_isDecimal hb)
    obtain ⟨x, rfl, hx₄⟩ := hx₃.exists_of_cons (not_isSpace_of_isDecimal hc)
    have hend' := hx₄.endsDigits hend
    simp [WebMarket.readGroups, ha, hb, hc, hend'] at hx

theorem takeWhile_isWord (hspaces : ∀ c, isSpace c = true → u.isAlnum c = false)
    (h : Respaced x y) : x.takeWhile u.isWord = y.takeWhile u.isWord := by
  have hword : ∀ {c}, isSpace c = true → u.isWord c = false := by
    intro c hc
    have hne : c ≠ '_' := by
      rintro rfl
      revert hc
      decide
    simp [UnicodeData.isWord, hspaces c hc, hne]
  have hnone : ∀ {s t : List Char}, s ≠ [] → (∀ c ∈ s, isSpace c = true) →
      (s ++ t).takeWhile u.isWord = [] := by
    intro s t hs hs'
    obtain ⟨c, s, rfl⟩ := List.exists_cons_of_ne_nil hs
    simp [hword (hs' c List.mem_cons_self)]
  induction h with
  | letter hc _ ih => simp only [List.takeWhile_cons, ih]
  | gap hs ht hs' ht' _ _ => rw [hnone hs hs', hnone ht ht']
  | blank hs ht =>
      have hempty : ∀ {s : List Char}, (∀ c ∈ s, isSpace c = true) →
          s.takeWhile u.isWord = [] := by
        intro s hs
        cases s with
        | nil => rfl
        | cons c s => simp [hword (hs c List.mem_cons_self)]
      rw [hempty hs, hempty ht]

theorem nextWord (hspaces : ∀ c, isSpace c = true → u.isAlnum c = false) (h : Respaced x y) :
    nextWord u x = WebMarket.nextWord u y := by
  have hdrop := h.dropWhile
  unfold WebMarket.nextWord
  split
  · rename_i rest hrest
    rw [hrest] at hdrop
    obtain ⟨y', hy, _⟩ := hdrop.exists_of_cons (by decide)
    simp only [hy]
  · rename_i hno
    split
    · rename_i rest hrest
      rw [hrest] at hdrop
      obtain ⟨x', hx, _⟩ := hdrop.symm.exists_of_cons (by decide)
      exact absurd hx (hno x')
    · exact hdrop.takeWhile_isWord hspaces

/-- A number that is read in one text is read at the same place of the other. -/
theorem readStated (hspaces : ∀ c, isSpace c = true → u.isAlnum c = false) (h : Respaced x y)
    {before before' : List Char} (hglued : isGlued u before = isGlued u before')
    {o : Occurrence} {n : ℕ} (hread : readStated u before x = some (o, n)) :
    ∃ rest, y = o.sign ++ (o.figure.text ++ rest) ∧ Respaced o.rest rest ∧
      WebMarket.readStated u before' y = some (⟨before', o.sign, o.figure, rest⟩, n) ∧
        (Occurrence.mk before' o.sign o.figure rest).value u = o.value u := by
  obtain ⟨rfl, hfits, rfl, rfl, hsign, hfree⟩ := readStated_eq_some_iff.mp hread
  rw [← List.append_assoc] at h
  have hletters : ∀ c ∈ o.sign ++ o.figure.text, isSpace c = false := by
    intro c hc
    rcases List.mem_append.mp hc with hc | hc
    · exact hsign.not_isSpace c hc
    · exact hfits.not_isSpace c hc
  obtain ⟨rest, rfl, hrest⟩ := h.exists_of_append hletters
  have hends := hrest.endsDigits hfits.ends
  have hfits' : o.figure.Fits u (WebMarket.endsDigits u) rest := by
    apply hfits.congr_rest (by simp [WebMarket.endsDigits]) hends hends
    · intro hf
      have hold := hfits.fraction
      rw [hf, Figure.fractionText, if_pos rfl, List.nil_append] at hold
      exact hrest.readFraction hold
    · intro hshort hf
      have hold := hfits.no_group hshort
      rw [hf, Figure.fractionText, if_pos rfl, List.nil_append] at hold
      exact hrest.readGroups hold
  refine ⟨rest, by rw [List.append_assoc], hrest, ?_, ?_⟩
  · rw [List.append_assoc]
    exact readStated_eq_some_iff.mpr ⟨rfl, hfits', rfl, rfl, hsign, fun hne => hglued ▸ hfree hne⟩
  · simp only [Occurrence.value, Occurrence.number, namedScale, hrest.nextWord hspaces]

@[refl] theorem refl (x : List Char) : Respaced x x := by
  induction x with
  | nil => exact .blank (by simp) (by simp)
  | cons c x ih =>
      by_cases hc : isSpace c = true
      · have hone : ∀ d ∈ [c], isSpace d = true := by simpa using hc
        exact .gap (by simp) (by simp) hone hone ih
      · exact .letter (by simpa using hc) ih

/-- The value is found in the one text where it is found in the other. -/
theorem exists_value (hspaces : ∀ c, isSpace c = true → u.isAlnum c = false) {v : ℚ}
    {before before' : List Char} (h : Respaced x y)
    (hglued : isGlued u before = isGlued u before')
    (hx : ∃ o ∈ scan (WebMarket.readStated u) 0 before x, o.value u = v) :
    ∃ o ∈ scan (WebMarket.readStated u) 0 before' y, o.value u = v := by
  induction hlen : x.length using Nat.strongRecOn generalizing x y before before' with
  | ind k ih =>
  cases h with
  | blank hs _ =>
      obtain ⟨o, ho, _⟩ := hx
      rw [← List.append_nil x, scan_spaces hs] at ho
      simp at ho
  | gap hs ht hs' ht' h =>
      rw [scan_spaces hs'] at hx
      rw [scan_spaces ht']
      apply ih _ _ h _ hx rfl
      · have hpos := List.length_pos_of_ne_nil hs
        rw [← hlen, List.length_append]
        omega
      · rw [isGlued_spaces hspaces hs hs', isGlued_spaces hspaces ht ht']
  | letter hc h =>
      rename_i c x y
      have hwhole : Respaced (c :: x) (c :: y) := .letter hc h
      cases hread : WebMarket.readStated u before (c :: x) with
      | none =>
          have hread' : WebMarket.readStated u before' (c :: y) = none := by
            cases hread' : WebMarket.readStated u before' (c :: y) with
            | none => rfl
            | some hit =>
                obtain ⟨_, _, _, hthere, _⟩ :=
                  hwhole.symm.readStated hspaces hglued.symm hread'
                rw [hread] at hthere
                cases hthere
          rw [scan_miss hread] at hx
          rw [scan_miss hread']
          have hplace : isGlued u (c :: before) = isGlued u (c :: before') := rfl
          exact ih x.length (by rw [← hlen, List.length_cons]; omega) h hplace hx rfl
      | some hit =>
          obtain ⟨o, n⟩ := hit
          obtain ⟨rest, hy, hrest, hthere, hvalue⟩ := hwhole.readStated hspaces hglued hread
          obtain ⟨hxtext, hfits, _, rfl, _, _⟩ := readStated_eq_some_iff.mp hread
          have hne : o.sign ++ o.figure.text ≠ [] := by simp [Figure.text, hfits.whole_ne]
          have hshort : o.rest.length < k := by
            have hpos := List.length_pos_of_ne_nil hne
            rw [← hlen, hxtext, ← List.append_assoc, List.length_append]
            omega
          rw [hxtext, ← List.append_assoc] at hread hx
          rw [hy, ← List.append_assoc] at hthere ⊢
          rw [scan_hit hne hread] at hx
          rw [scan_hit hne hthere]
          obtain ⟨o', ho', hv⟩ := hx
          rcases List.mem_cons.mp ho' with rfl | ho'
          · exact ⟨_, List.mem_cons_self, hvalue.trans hv⟩
          · have hplace : isGlued u ((o.sign ++ o.figure.text).reverse ++ before) =
                isGlued u ((o.sign ++ o.figure.text).reverse ++ before') := by
              obtain ⟨a, t, ht⟩ := List.exists_cons_of_ne_nil (List.reverse_ne_nil_iff.mpr hne)
              rw [ht]
              rfl
            obtain ⟨o'', ho'', hv''⟩ := ih o.rest.length hshort hrest hplace ⟨o', ho', hv⟩ rfl
            exact ⟨o'', List.mem_cons_of_mem _ ho'', hv''⟩

end Respaced

/-- The number is one that the text states. -/
def IsStated (u : UnicodeData) (text : List Char) (v : ℚ) : Prop :=
  ∃ o ∈ occurrences u text, o.value u = v

instance (u : UnicodeData) (text : List Char) (v : ℚ) : Decidable (IsStated u text v) :=
  inferInstanceAs (Decidable (∃ o ∈ _, _))

/-- A text states the same numbers once its words are one space apart. -/
theorem isStated_joinWords_iff (hspaces : ∀ c, isSpace c = true → u.isAlnum c = false)
    (text : List Char) (v : ℚ) : IsStated u (joinWords text) v ↔ IsStated u text v := by
  have hspaced := respaced_joinWords text
  have hstart : IsStated u (text.dropWhile isSpace) v ↔ IsStated u text v := by
    by_cases hnone : text.takeWhile isSpace = []
    · have hsame := List.takeWhile_append_dropWhile (p := isSpace) (l := text)
      rw [hnone, List.nil_append] at hsame
      rw [hsame]
    · have hspaces' : ∀ c ∈ text.takeWhile isSpace, isSpace c = true :=
        fun c hc => List.mem_takeWhile_imp hc
      have hscan := scan_spaces (u := u) hspaces' [] (text.dropWhile isSpace)
      have hplace : isGlued u [] = isGlued u ((text.takeWhile isSpace).reverse ++ []) :=
        (isGlued_spaces hspaces hnone hspaces' []).symm
      rw [List.takeWhile_append_dropWhile] at hscan
      unfold IsStated occurrences
      rw [hscan]
      exact ⟨(Respaced.refl _).exists_value hspaces hplace,
        (Respaced.refl _).exists_value hspaces hplace.symm⟩
  rw [← hstart]
  exact ⟨hspaced.symm.exists_value hspaces rfl, hspaced.exists_value hspaces rfl⟩

end Readings

end CryptoAlert.WebMarket
