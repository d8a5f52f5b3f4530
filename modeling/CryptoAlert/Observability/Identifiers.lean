import CryptoAlert.Lib.Marks
import CryptoAlert.Observability.Credentials
import Mathlib

/-!
# Personal identifiers in redacted texts

An e-mail address or a dotted address stands in a text between white space and the end of a
sentence. The redaction runs on marked text, so that what is left of the identifier in its place
can be told from an occurrence elsewhere. The patterns refuse a full stop behind their matches,
hence an identifier in front of one is not found.
-/

namespace CryptoAlert.Redaction

open Regex Text

section Marked

variable (u : UnicodeData)

/-- The substitutions of `redact_text`. -/
def allPasses : List Pass :=
  piiPasses u ++ [headerPass u, assignmentPass u, bearerPass u, markerPass (knownTokenPattern u)]

theorem redactChars_eq_runAll_allPasses (text : List Char) :
    redactChars u text = runAll (allPasses u) text := rfl

def Pass.runMarked (pass : Pass) (text : List (Char × Bool)) : List (Char × Bool) :=
  marked pass.pattern pass.replace text

/-- `redact_text` on a marked text. -/
def redactMarked (text : List (Char × Bool)) : List (Char × Bool) :=
  (allPasses u).foldl (fun text pass => pass.runMarked text) text

/-- Without the marks it is the redaction. -/
theorem map_fst_redactMarked (text : List (Char × Bool)) :
    (redactMarked u text).map Prod.fst = redactChars u (text.map Prod.fst) := by
  rw [redactChars_eq_runAll_allPasses, redactMarked, runAll]
  induction allPasses u generalizing text with
  | nil => rfl
  | cons pass passes ih =>
      rw [List.foldl_cons, List.foldl_cons, ih, Pass.runMarked, map_fst_marked]
      rfl

theorem survivors_foldl (passes : List Pass) (text : List (Char × Bool)) :
    (survivors (passes.foldl (fun text pass => pass.runMarked text) text)).Sublist
      (survivors text) := by
  induction passes generalizing text with
  | nil => exact List.Sublist.refl _
  | cons pass passes ih => exact (ih _).trans survivors_markedFrom

/-- What was taken away by the first passes does not come back. -/
theorem survivors_ne_of_passes (before after : List Pass) {p x s : List Char}
    (hsplit : allPasses u = before ++ after)
    (h : survivors (before.foldl (fun text pass => pass.runMarked text) (block p x s)) ≠ x) :
    survivors (redactMarked u (block p x s)) ≠ x := by
  intro hsame
  have hrest := survivors_foldl after
    (before.foldl (fun text pass => pass.runMarked text) (block p x s))
  rw [← List.foldl_append, ← hsplit] at hrest
  have hfirst := survivors_foldl before (block p x s)
  rw [survivors_block] at hfirst
  rw [redactMarked] at hsame
  rw [hsame] at hrest
  exact h (hfirst.antisymm hrest)

end Marked

/-- What identifies a person. -/
inductive Identifier where
  | email (localPart domain tld : List Char)
  | address (a b c d : List Char)

namespace Identifier

def text : Identifier → List Char
  | email localPart domain tld => localPart ++ '@' :: (domain ++ '.' :: tld)
  | address a b c d => a ++ '.' :: (b ++ '.' :: (c ++ '.' :: d))

/-- A number from 0 to 255 in decimal digits. -/
def IsByte (octet : List Char) : Prop :=
  octet ≠ [] ∧ (∀ c ∈ octet, c.isDigit = true) ∧
    octet.foldl (fun n c => 10 * n + (c.toNat - 48)) 0 ≤ 255

/-- Letters, digits and the usual signs in the local part, a domain, and letters behind its last
dot; or four numbers. -/
def WellFormed : Identifier → Prop
  | email localPart domain tld => localPart ≠ [] ∧
      (∀ c ∈ localPart, (c.isAlphanum || among "._%+-" c) = true) ∧ domain ≠ [] ∧
      (∀ c ∈ domain, (c.isAlphanum || among ".-" c) = true) ∧ tld ≠ [] ∧
      ∀ c ∈ tld, c.isAlpha = true
  | address a b c d => ∀ octet ∈ [a, b, c, d], IsByte octet

/-- A top-level domain has two letters at least, and no octet is filled up with zeros. -/
def Plain : Identifier → Prop
  | email _ _ tld => 2 ≤ tld.length
  | address a b c d => ∀ octet ∈ [a, b, c, d], octet = ['0'] ∨ octet.head? ≠ some '0'

end Identifier

/-- An identifier between white space and white space, or the end of a part of a sentence. -/
structure Delimited (p s : List Char) : Prop where
  front : ∀ w ∈ p.getLast?, isSpace w = true
  behind : ∀ e ∈ s.head?, isSpace e = true ∨ (among ".,;:!?" e = true ∧
    ∀ d ∈ s.tail.head?, isSpace d = true)

section Characters

variable (u : UnicodeData)

/-- What stands behind an identifier, unless it is a full stop. -/
theorem not_starts_of_edge {e : Char} (h : isSpace e = true ∨ among ",;:!?" e = true) :
    isLetter e = false ∧ alnumOr "._%+-" e = false ∧ u.isDecimal e = false ∧ e ≠ '.' := by
  obtain hspace | hsign := h
  · have hstop : isStop e = true := by rw [isStop, hspace, Bool.true_or]
    obtain ⟨hletter, -, halnum, -, hdecimal⟩ := not_starts_of_isStop u hstop
    refine ⟨hletter, halnum, hdecimal, ?_⟩
    rintro rfl
    cases hspace
  · have hall : ∀ d ∈ ",;:!?".toList, isLetter d = false ∧ alnumOr "._%+-" d = false ∧
        (d.toNat < 128 ∧ d.isDigit = false) ∧ d ≠ '.' := forall_of_all (by decide +kernel)
    obtain ⟨hletter, halnum, ⟨hascii, hdigit⟩, hdot⟩ := hall e (List.contains_iff_mem.mp hsign)
    refine ⟨hletter, halnum, ?_, hdot⟩
    rw [UnicodeData.isDecimal, u.decimal_ascii e hascii, hdigit]
    rfl

theorem not_isSpace {c : Char} (h : isLetter c = true ∨ alnumOr "._%+-" c = true ∨
    u.isDecimal c = true) : isSpace c = false := by
  by_contra hspace
  have hstop : isStop c = true := by
    rw [isStop, (Bool.not_eq_false _).mp hspace, Bool.true_or]
  obtain ⟨hletter, -, halnum, -, hdecimal⟩ := not_starts_of_isStop u hstop
  rw [hletter, halnum, hdecimal] at h
  obtain h | h | h := h <;> cases h

theorem alnumOr_of_domain {c : Char} (h : alnumOr ".-" c = true) : alnumOr "._%+-" c = true := by
  have hsub : ∀ d ∈ ".-".toList, among "._%+-" d = true := forall_of_all (by decide)
  rw [alnumOr, ignoreCase, Bool.or_eq_true] at h ⊢
  exact h.imp_right fun hsign => hsub _ (List.contains_iff_mem.mp hsign)

theorem toNat_lt_of_isAlphanum {c : Char} (h : c.isAlphanum = true) : c.toNat < 128 := by
  simp only [Char.isAlphanum, Char.isAlpha, Char.isUpper, Char.isLower, Char.isDigit,
    Bool.or_eq_true, Bool.and_eq_true, decide_eq_true_eq, UInt32.le_iff_toNat_le, ge_iff_le] at h
  have hval : c.toNat = c.val.toNat := rfl
  have hZ : 'Z'.val.toNat = 90 := rfl
  have hz : 'z'.val.toNat = 122 := rfl
  have h9 : '9'.val.toNat = 57 := rfl
  omega

theorem alnumOr_of_isAlphanum {signs : String} {c : Char}
    (h : (c.isAlphanum || among signs c) = true)
    (hsigns : ∀ d ∈ signs.toList, foldCase d = d) : alnumOr signs c = true := by
  rw [alnumOr, ignoreCase, Bool.or_eq_true]
  obtain halnum | hsign := Bool.or_eq_true_iff.mp h
  · have hall : ∀ n ∈ List.range 128, (Char.ofNat n).isAlphanum = true →
        (lowerAlpha (foldCase (Char.ofNat n)) || digit (foldCase (Char.ofNat n))) = true := by
      decide +kernel
    have hc := hall c.toNat (List.mem_range.mpr (toNat_lt_of_isAlphanum halnum))
    rw [Char.ofNat_toNat] at hc
    exact .inl (hc halnum)
  · rw [hsigns c (List.contains_iff_mem.mp hsign)]
    exact .inr hsign

theorem isLetter_of_isAlpha {c : Char} (h : c.isAlpha = true) : isLetter c = true := by
  have hall : ∀ n ∈ List.range 128, (Char.ofNat n).isAlpha = true →
      isLetter (Char.ofNat n) = true := by
    decide +kernel
  have halnum : c.isAlphanum = true := by rw [Char.isAlphanum, h, Bool.true_or]
  have hc := hall c.toNat (List.mem_range.mpr (toNat_lt_of_isAlphanum halnum))
  rw [Char.ofNat_toNat] at hc
  exact hc h

theorem isDecimal_of_isDigit {c : Char} (h : c.isDigit = true) : u.isDecimal c = true := by
  have halnum : c.isAlphanum = true := by rw [Char.isAlphanum, h, Bool.or_true]
  rw [UnicodeData.isDecimal, u.decimal_ascii c (toNat_lt_of_isAlphanum halnum), h]
  rfl

theorem not_isDecimal_dot : u.isDecimal '.' = false := by
  rw [UnicodeData.isDecimal, u.decimal_ascii '.' (by decide)]
  rfl

end Characters

section Patterns

variable (u : UnicodeData)

theorem urlPattern_ends : (urlPattern u).Ends fun c => isSpace c = false := by
  simp +contextual [urlPattern, seqs, many1, Ends, nullable]

theorem emailPattern_ends : emailPattern.Ends fun c => isSpace c = false := by
  have hletter : ∀ c, ignoreCase lowerAlpha c = true → isSpace c = false :=
    fun c hc => not_isSpace .ascii (.inl hc)
  simp only [emailPattern, seqs, atLeast, times, Ends, nullable]
  simpa using hletter

theorem emailPattern_only : emailPattern.Only fun c => isSpace c = false := by
  have hlocal : ∀ c, alnumOr "._%+-" c = true → isSpace c = false :=
    fun c hc => not_isSpace .ascii (.inr (.inl hc))
  have hdomain : ∀ c, alnumOr ".-" c = true → isSpace c = false :=
    fun c hc => hlocal c (alnumOr_of_domain hc)
  have hletter : ∀ c, ignoreCase lowerAlpha c = true → isSpace c = false :=
    fun c hc => not_isSpace .ascii (.inl hc)
  have hsign : ∀ d : Char, isSpace d = false → ∀ c, (c == d) = true → isSpace c = false := by
    intro d hd c hc
    rw [beq_iff_eq.mp hc]
    exact hd
  exact ⟨trivial, ⟨hlocal, hlocal⟩, hsign '@' rfl, ⟨hdomain, hdomain⟩, hsign '.' rfl,
    ⟨⟨hletter, hletter, trivial⟩, hletter⟩, trivial⟩

theorem creditCardPattern_ends : (creditCardPattern u).Ends fun c => isSpace c = false := by
  have hdecimal : ∀ c, u.isDecimal c = true → isSpace c = false :=
    fun c hc => not_isSpace u (.inr (.inr hc))
  simp only [creditCardPattern, seqs, Ends, nullable]
  simpa using hdecimal

theorem ipv4Pattern_only : (ipv4Pattern u).Only fun c => isSpace c = false := by
  have hdecimal : ∀ c, u.isDecimal c = true → isSpace c = false :=
    fun c hc => not_isSpace u (.inr (.inr hc))
  have hdot : isSpace '.' = false := rfl
  simpa [ipv4Pattern, seqs, times, between, upTo, opt, lit, Only] using
    ⟨⟨hdecimal, hdot⟩, hdecimal⟩

end Patterns

section Redacted

variable {u : UnicodeData} {p x s : List Char}

/-- What every pass before the own one preserves, unless it takes part of the identifier away:
white space in front of it, and an edge that no match begins with behind it. -/
structure Standing (p s : List Char) : Prop where
  front : ∀ w ∈ p.getLast?, isSpace w = true
  edge : ∀ e ∈ s.head?, isSpace e = true ∨ among ",;:!?" e = true

theorem Delimited.standing (h : Delimited p s) (hdot : s.head? ≠ some '.') : Standing p s := by
  refine ⟨h.front, fun e he => ?_⟩
  obtain hspace | ⟨hsign, -⟩ := h.behind e he
  · exact .inl hspace
  · right
    have hall : ∀ d ∈ ".,;:!?".toList, d = '.' ∨ among ",;:!?" d = true :=
      forall_of_all (by decide)
    obtain rfl | hsign := hall e (List.contains_iff_mem.mp hsign)
    · exact absurd he hdot
    · exact hsign

/-- A pass leaves the identifier standing, or takes part of it away. -/
theorem Standing.pass (h : Standing p s) (hx : x ≠ []) {pass : Pass} {P : Char → Prop}
    (hstarts : pass.pattern.Starts P)
    (hP : ∀ e, isSpace e = true ∨ among ",;:!?" e = true → ¬ P e)
    (hends : pass.pattern.Ends fun c => isSpace c = false) :
    survivors (pass.runMarked (block p x s)) ≠ x ∨
      ∃ p' s', pass.runMarked (block p x s) = block p' x s' ∧ Standing p' s' := by
  by_cases hlost : survivors (pass.runMarked (block p x s)) = x
  · have hfront : ∀ w ∈ p.getLast?, ¬ isSpace w = false := by
      intro w hw
      rw [h.front w hw]
      exact Bool.noConfusion
    obtain ⟨p', s', hblock, hlast, hhead⟩ :=
      block_of_survivors hstarts hends hx hfront (fun e he => hP e (h.edge e he)) hlost
    refine .inr ⟨p', s', hblock, fun w hw => h.front w ?_, fun e he => h.edge e ?_⟩
    · rwa [← hlast]
    · rwa [← hhead]
  · exact .inl hlost

theorem Standing.behind_front (h : Standing p s) (q : Char → Bool)
    (hq : ∀ w, isSpace w = true → q w = false) : isAt q (behind none p) = false := by
  cases hlast : p.getLast? with
  | none =>
      rw [behind, hlast]
      rfl
  | some w =>
      rw [behind, hlast]
      exact hq w (h.front w hlast)

theorem Standing.isAt_head (h : Standing p s) (q : Char → Bool)
    (hq : ∀ e, isSpace e = true ∨ among ",;:!?" e = true → q e = false) :
    isAt q s.head? = false := by
  cases hhead : s.head? with
  | none => rfl
  | some e => exact hq e (h.edge e hhead)

theorem urlPass_pass (h : Standing p s) (hx : x ≠ []) :
    survivors ((urlPass u).runMarked (block p x s)) ≠ x ∨
      ∃ p' s', (urlPass u).runMarked (block p x s) = block p' x s' ∧ Standing p' s' := by
  refine h.pass hx (urlPattern_starts u) (fun e he => ?_) (urlPattern_ends u)
  rw [(not_starts_of_edge u he).1]
  exact Bool.false_ne_true

theorem emailPass_pass (h : Standing p s) (hx : x ≠ []) :
    survivors ((markerPass emailPattern).runMarked (block p x s)) ≠ x ∨
      ∃ p' s', (markerPass emailPattern).runMarked (block p x s) = block p' x s' ∧
        Standing p' s' := by
  refine h.pass hx emailPattern_starts (fun e he => ?_) emailPattern_ends
  rw [(not_starts_of_edge .ascii he).2.1]
  exact Bool.false_ne_true

theorem creditCardPass_pass (h : Standing p s) (hx : x ≠ []) :
    survivors ((validatedPass (creditCardPattern u) (isCreditCard u)).runMarked (block p x s)) ≠
        x ∨
      ∃ p' s', (validatedPass (creditCardPattern u) (isCreditCard u)).runMarked (block p x s) =
        block p' x s' ∧ Standing p' s' := by
  refine h.pass hx (creditCardPattern_starts u) (fun e he => ?_) (creditCardPattern_ends u)
  rw [(not_starts_of_edge u he).2.2.1]
  exact Bool.false_ne_true

/-- The own pattern matches an e-mail address. -/
theorem emailPattern_matches (h : Standing p s) {localPart domain tld : List Char}
    (hw : (Identifier.email localPart domain tld).WellFormed)
    (hplain : (Identifier.email localPart domain tld).Plain) :
    emailPattern.Matches (behind none p) (Identifier.email localPart domain tld).text s := by
  obtain ⟨hlocal, hlocals, hdomain, hdomains, -, htlds⟩ := hw
  have hlocals' : ∀ c ∈ localPart, alnumOr "._%+-" c = true := fun c hc =>
    alnumOr_of_isAlphanum (hlocals c hc) (forall_of_all (by decide))
  have hdomains' : ∀ c ∈ domain, alnumOr ".-" c = true := fun c hc =>
    alnumOr_of_isAlphanum (hdomains c hc) (forall_of_all (by decide))
  have hletters : ∀ c ∈ tld, ignoreCase lowerAlpha c = true := fun c hc =>
    isLetter_of_isAlpha (htlds c hc)
  have hfront : isAt (alnumOr "._%+-") (behind none p) = false := by
    refine h.behind_front _ fun w hw => ?_
    exact (not_starts_of_edge .ascii (.inl hw)).2.1
  have hedge : isAt (alnumOr "._%+-") s.head? = false :=
    h.isAt_head _ fun e he => (not_starts_of_edge .ascii he).2.1
  have htop : (atLeast 2 (ignoreCase lowerAlpha)).Matches (some '.') tld ([] ++ s) := by
    have hfirst : (times (tld.take 2).length (chr (ignoreCase lowerAlpha))).Matches (some '.')
        (tld.take 2) (tld.drop 2 ++ s) := .times fun c hc => hletters c (List.mem_of_mem_take hc)
    rw [List.length_take_of_le hplain] at hfirst
    have hwhole := hfirst.seq (.many fun c hc => hletters c (List.mem_of_mem_drop hc))
    rwa [List.take_append_drop] at hwhole
  have hdot : (lit '.').Matches (behind (some '@') domain) ['.'] ((tld ++ []) ++ s) := .chr rfl
  have hat : (lit '@').Matches (behind (behind none p) localPart) ['@']
      ((domain ++ (['.'] ++ (tld ++ []))) ++ s) := .chr rfl
  have hwhole := Matches.seq (.notAfter hfront) (Matches.seq (.many1 hlocal hlocals')
    (hat.seq (Matches.seq (.many1 hdomain hdomains') (hdot.seq (htop.seq (.notBefore hedge))))))
  rw [List.append_nil] at hwhole
  exact hwhole

theorem emailPass_takes (h : Standing p s) {localPart domain tld : List Char}
    (hw : (Identifier.email localPart domain tld).WellFormed)
    (hplain : (Identifier.email localPart domain tld).Plain) :
    survivors ((markerPass emailPattern).runMarked
        (block p (Identifier.email localPart domain tld).text s)) ≠
      (Identifier.email localPart domain tld).text := by
  have hne : (Identifier.email localPart domain tld).text ≠ [] := by simp [Identifier.text]
  obtain ⟨hit, hfound⟩ := exists_firstHit (emailPattern_matches h hw hplain) hne
  refine survivors_ne_of_firstHit emailPattern_only (fun w hw => ?_) hne hfound ?_
  · rw [h.front w hw]
    exact Bool.noConfusion
  · -- No match begins with a bracket.
    intro hsame
    have hhead := head_of_starts emailPattern_starts (firstHit_mem hfound)
    rw [← hsame] at hhead
    have hbracket := hhead '[' rfl
    revert hbracket
    decide

/-- Two divisions of a text behind all characters of a class are the same. -/
theorem append_inj_of_class {q : Char → Bool} {a b y z : List Char} (ha : ∀ c ∈ a, q c = true)
    (hb : ∀ c ∈ b, q c = true) (hy : isAt q y.head? = false) (hz : isAt q z.head? = false)
    (h : a ++ y = b ++ z) : a = b ∧ y = z := by
  have hstop : ∀ {y : List Char}, isAt q y.head? = false → y.takeWhile q = [] := by
    intro y hy
    cases y with
    | nil => rfl
    | cons c cs => exact List.takeWhile_cons_of_neg (by simpa [isAt] using hy)
  have htake := congrArg (List.takeWhile q) h
  rw [List.takeWhile_append_of_pos ha, List.takeWhile_append_of_pos hb, hstop hy, hstop hz,
    List.append_nil, List.append_nil] at htake
  rw [htake, List.append_cancel_left_eq] at h
  exact ⟨htake, h⟩

/-- What the pattern for dotted addresses takes. -/
theorem taken_of_ipv4 {prev : Option Char} {y : List Char} {hit : Hit}
    (hm : hit ∈ (ipv4Pattern u).hits prev y) :
    ∃ a b c d, hit.taken = (Identifier.address a b c d).text ∧
      (∀ octet ∈ [a, b, c, d], ∀ e ∈ octet, u.isDecimal e = true) ∧
      isAt (fun e => u.isDecimal e || e == '.') hit.rest.head? = false := by
  have hone : (chr u.isDecimal).Only fun c => u.isDecimal c = true := fun _ hc => hc
  have hdigits := hone.between 1 3
  have hpart : ∀ {prev : Option Char} {y : List Char} {g : Hit},
      g ∈ (seq (between 1 3 (chr u.isDecimal)) (lit '.')).hits prev y →
        ∃ a, g.taken = a ++ ['.'] ∧ ∀ e ∈ a, u.isDecimal e = true := by
    intro prev y g hg
    obtain ⟨a, ha, b, hb, htaken, -⟩ := exists_of_seq hg
    obtain ⟨c, hc, hdot⟩ := taken_of_chr hb
    rw [hc, beq_iff_eq.mp hdot] at htaken
    exact ⟨a.taken, htaken, all_of_only hdigits ha⟩
  obtain ⟨start, hstart, hits, hhits, htaken, hrest⟩ := exists_of_seq hm
  obtain ⟨three, hthree, last, hlast, htaken', hrest'⟩ := exists_of_seq hhits
  obtain ⟨first, hfirst, two, htwo, hthreeTaken, -⟩ := exists_of_seq hthree
  obtain ⟨second, hsecond, one, hone, htwoTaken, -⟩ := exists_of_seq htwo
  obtain ⟨third, hthird, none, hnone, honeTaken, -⟩ := exists_of_seq hone
  obtain ⟨fourth, hfourth, stop, hstop, hlastTaken, hlastRest⟩ := exists_of_seq hlast
  obtain ⟨a, ha, hadigits⟩ := hpart hfirst
  obtain ⟨b, hb, hbdigits⟩ := hpart hsecond
  obtain ⟨c, hc, hcdigits⟩ := hpart hthird
  obtain ⟨hstopTaken, hstopRest, hedge⟩ := rest_of_notBefore hstop
  have hempty : start.taken = [] := taken_of_assertion (.inr (.inl ⟨_, rfl⟩)) hstart
  have hnothing : none.taken = [] := taken_of_assertion (.inl rfl) hnone
  refine ⟨a, b, c, fourth.taken, ?_, ?_, ?_⟩
  · rw [htaken, hempty, htaken', hthreeTaken, htwoTaken, honeTaken, hnothing, hlastTaken,
      hstopTaken, ha, hb, hc]
    simp [Identifier.text]
  · simp only [List.mem_cons, List.not_mem_nil, or_false, forall_eq_or_imp, forall_eq]
    exact ⟨hadigits, hbdigits, hcdigits, all_of_only hdigits hfourth⟩
  · rw [hrest, hrest', hlastRest, hstopRest]
    exact hedge

/-- The address is the only match at its place. -/
theorem taken_eq_address {prev : Option Char} {a b c d : List Char} {hit : Hit}
    (hw : ∀ octet ∈ [a, b, c, d], ∀ e ∈ octet, u.isDecimal e = true)
    (hs : isAt (fun e => u.isDecimal e || e == '.') s.head? = false)
    (hm : hit ∈ (ipv4Pattern u).hits prev ((Identifier.address a b c d).text ++ s)) :
    hit.taken = (Identifier.address a b c d).text := by
  have hsplit := hits_split hm
  obtain ⟨a', b', c', d', htaken, hdigits, hrest⟩ := taken_of_ipv4 hm
  simp only [List.mem_cons, List.not_mem_nil, or_false, forall_eq_or_imp, forall_eq] at hw hdigits
  have hdot : ∀ y : List Char, isAt u.isDecimal ('.' :: y).head? = false :=
    fun _ => not_isDecimal_dot u
  have hend : ∀ {y : List Char}, isAt (fun e => u.isDecimal e || e == '.') y.head? = false →
      isAt u.isDecimal y.head? = false := by
    intro y hy
    cases hhead : y.head? with
    | none => rfl
    | some e =>
        rw [hhead] at hy
        exact (Bool.or_eq_false_iff.mp hy).1
  rw [htaken] at hsplit ⊢
  simp only [Identifier.text, List.append_assoc, List.cons_append] at hsplit
  obtain ⟨rfl, hsecond⟩ := append_inj_of_class hdigits.1 hw.1 (hdot _) (hdot _) hsplit
  obtain ⟨rfl, hthird⟩ := append_inj_of_class hdigits.2.1 hw.2.1 (hdot _) (hdot _)
    (List.cons.inj hsecond).2
  obtain ⟨rfl, hfourth⟩ := append_inj_of_class hdigits.2.2.1 hw.2.2.1 (hdot _) (hdot _)
    (List.cons.inj hthird).2
  obtain ⟨rfl, -⟩ := append_inj_of_class hdigits.2.2.2 hw.2.2.2 (hend hrest) (hend hs)
    (List.cons.inj hfourth).2
  rfl

theorem splitOn_append {part : List Char} (h : ∀ c ∈ part, c ≠ '.') (rest : List Char) :
    splitOn '.' (part ++ '.' :: rest) = part :: splitOn '.' rest := by
  have hcons : ∀ text, ∃ first parts, splitOn '.' text = first :: parts := by
    intro text
    induction text with
    | nil => exact ⟨[], [], rfl⟩
    | cons d ds ih =>
        obtain ⟨first, parts, hds⟩ := ih
        rw [splitOn, hds]
        dsimp only
        split_ifs <;> exact ⟨_, _, rfl⟩
  induction part with
  | nil =>
      obtain ⟨first, parts, hrest⟩ := hcons rest
      rw [List.nil_append, splitOn, hrest]
      rfl
  | cons c cs ih =>
      have hc : (c == '.') = false := by simpa using h c List.mem_cons_self
      rw [List.cons_append, splitOn, ih fun d hd => h d (List.mem_cons_of_mem c hd)]
      dsimp only
      rw [hc]
      rfl

theorem splitOn_self {part : List Char} (h : ∀ c ∈ part, c ≠ '.') : splitOn '.' part = [part] := by
  induction part with
  | nil => rfl
  | cons c cs ih =>
      have hc : (c == '.') = false := by simpa using h c List.mem_cons_self
      rw [splitOn, ih fun d hd => h d (List.mem_cons_of_mem c hd)]
      dsimp only
      rw [hc]
      rfl

theorem mul_pow_le_foldl (n : ℕ) (digits : List Char) :
    n * 10 ^ digits.length ≤ digits.foldl (fun n c => 10 * n + (c.toNat - 48)) n := by
  induction digits generalizing n with
  | nil => simp
  | cons c cs ih =>
      have hrest := ih (10 * n + (c.toNat - 48))
      rw [List.foldl_cons, List.length_cons, Nat.pow_succ]
      calc n * (10 ^ cs.length * 10) = 10 * n * 10 ^ cs.length := by
            rw [Nat.mul_comm 10 n, Nat.mul_assoc, Nat.mul_comm 10]
        _ ≤ (10 * n + (c.toNat - 48)) * 10 ^ cs.length :=
            Nat.mul_le_mul_right _ (Nat.le_add_right _ _)
        _ ≤ _ := hrest

/-- A byte that is not filled up with zeros has three digits at most. -/
theorem isOctet_of_isByte {octet : List Char} (h : Identifier.IsByte octet)
    (hplain : octet = ['0'] ∨ octet.head? ≠ some '0') : isOctet octet = true := by
  obtain ⟨hne, hdigits, hvalue⟩ := h
  have hlength : octet.length ≤ 3 := by
    obtain rfl | hhead := hplain
    · decide
    · obtain ⟨c, cs, rfl⟩ := List.exists_cons_of_ne_nil hne
      have hc := hdigits c List.mem_cons_self
      have hpos : 1 ≤ c.toNat - 48 := by
        have hzero : c ≠ '0' := fun hc => hhead (by rw [hc]; rfl)
        simp only [Char.isDigit, Bool.and_eq_true, decide_eq_true_eq, UInt32.le_iff_toNat_le] at hc
        have hlow : 48 ≤ c.toNat := hc.1
        have hother : c.toNat ≠ 48 := fun h => hzero (Char.toNat_inj.mp h)
        omega
      have hle := mul_pow_le_foldl (c.toNat - 48) cs
      rw [List.foldl_cons, Nat.mul_zero, Nat.zero_add] at hvalue
      by_contra hlong
      rw [List.length_cons] at hlong
      have hpow : 10 ^ 3 ≤ 10 ^ cs.length := Nat.pow_le_pow_right (by decide) (by omega)
      have hmul := Nat.mul_le_mul hpos hpow
      omega
  have hempty : octet.isEmpty = false := List.isEmpty_eq_false_iff.mpr hne
  have hzeros : (octet == ['0'] || octet.head? != some '0') = true := by simpa using hplain
  rw [isOctet, hempty, hzeros, List.all_eq_true.mpr hdigits, decide_eq_true hlength,
    decide_eq_true hvalue]
  rfl

theorem Identifier.WellFormed.ne_dot {a b c d : List Char}
    (hw : (Identifier.address a b c d).WellFormed) :
    ∀ octet ∈ [a, b, c, d], ∀ e ∈ octet, e ≠ '.' := by
  intro octet hmem e he hdot
  have hdigit := (hw octet hmem).2.1 e he
  rw [hdot] at hdigit
  cases hdigit

theorem splitOn_text {a b c d : List Char} (hw : (Identifier.address a b c d).WellFormed) :
    splitOn '.' (Identifier.address a b c d).text = [a, b, c, d] := by
  have hdots := hw.ne_dot
  rw [Identifier.text, splitOn_append (hdots a (by simp)), splitOn_append (hdots b (by simp)),
    splitOn_append (hdots c (by simp)), splitOn_self (hdots d (by simp))]

theorem isIpAddress_text {a b c d : List Char} (hw : (Identifier.address a b c d).WellFormed)
    (hplain : (Identifier.address a b c d).Plain) :
    isIpAddress (Identifier.address a b c d).text = true := by
  have hoctets : ∀ octet ∈ [a, b, c, d], isOctet octet = true := fun octet hmem =>
    isOctet_of_isByte (hw octet hmem) (hplain octet hmem)
  rw [isIpAddress, splitOn_text hw]
  exact List.all_eq_true.mpr hoctets

/-- The own pattern matches a dotted address. -/
theorem ipv4Pattern_matches (h : Standing p s) {a b c d : List Char}
    (hw : (Identifier.address a b c d).WellFormed)
    (hplain : (Identifier.address a b c d).Plain) :
    (ipv4Pattern u).Matches (behind none p) (Identifier.address a b c d).text s := by
  have hdecimal : ∀ octet ∈ [a, b, c, d], ∀ e ∈ octet, u.isDecimal e = true :=
    fun octet hmem e he => isDecimal_of_isDigit u ((hw octet hmem).2.1 e he)
  have hoctet : ∀ octet ∈ [a, b, c, d], ∀ prev rest,
      (between 1 3 (chr u.isDecimal)).Matches prev octet rest := by
    intro octet hmem prev rest
    have hfits := isOctet_of_isByte (hw octet hmem) (hplain octet hmem)
    simp only [isOctet, Bool.and_eq_true, decide_eq_true_eq] at hfits
    exact .between (List.length_pos_of_ne_nil (hw octet hmem).1) hfits.1.1.2
      (hdecimal octet hmem)
  have hpart : ∀ octet ∈ [a, b, c, d], ∀ prev rest,
      (seq (between 1 3 (chr u.isDecimal)) (lit '.')).Matches prev (octet ++ ['.']) rest :=
    fun octet hmem prev rest => (hoctet octet hmem prev _).seq (.chr rfl)
  have hfront : isAt (fun e => u.isDecimal e || e == '.') (behind none p) = false := by
    refine h.behind_front _ fun w hw => ?_
    obtain ⟨-, -, hdecimal, hdot⟩ := not_starts_of_edge u (.inl hw)
    rw [hdecimal, beq_eq_false_iff_ne.mpr hdot]
    rfl
  have hedge : isAt (fun e => u.isDecimal e || e == '.') s.head? = false := by
    refine h.isAt_head _ fun e he => ?_
    obtain ⟨-, -, hdecimal, hdot⟩ := not_starts_of_edge u he
    rw [hdecimal, beq_eq_false_iff_ne.mpr hdot]
    rfl
  have hwhole := Matches.seq (.notAfter hfront) (Matches.seq ((hpart a (by simp) _ _).seq
    ((hpart b (by simp) _ _).seq ((hpart c (by simp) _ _).seq .eps)))
      ((hoctet d (by simp) _ _).seq (.notBefore hedge)))
  simpa [ipv4Pattern, seqs, times, Identifier.text] using hwhole

theorem ipv4Pass_takes (h : Standing p s) {a b c d : List Char}
    (hw : (Identifier.address a b c d).WellFormed)
    (hplain : (Identifier.address a b c d).Plain) :
    survivors ((validatedPass (ipv4Pattern u) isIpAddress).runMarked
        (block p (Identifier.address a b c d).text s)) ≠ (Identifier.address a b c d).text := by
  have hne : (Identifier.address a b c d).text ≠ [] := by simp [Identifier.text]
  obtain ⟨hit, hfound⟩ := exists_firstHit (ipv4Pattern_matches (u := u) h hw hplain) hne
  have htaken : hit.taken = (Identifier.address a b c d).text := by
    refine taken_eq_address (fun octet hmem e he => ?_) ?_ (firstHit_mem hfound)
    · exact isDecimal_of_isDigit u ((hw octet hmem).2.1 e he)
    · refine h.isAt_head _ fun e he => ?_
      obtain ⟨-, -, hdecimal, hdot⟩ := not_starts_of_edge u he
      rw [hdecimal, beq_eq_false_iff_ne.mpr hdot]
      rfl
  refine survivors_ne_of_firstHit (ipv4Pattern_only u) (fun w hw => ?_) hne hfound ?_
  · rw [h.front w hw]
    exact Bool.noConfusion
  · -- An address does not begin with a bracket.
    have hvalid : replaceValidated isIpAddress hit = redactedMarker := by
      rw [replaceValidated, htaken, isIpAddress_text hw hplain, if_pos rfl]
    intro hsame
    have hmarker : redactedMarker = (Identifier.address a b c d).text :=
      hvalid.symm.trans (hsame.trans htaken)
    obtain ⟨e, es, rfl⟩ := List.exists_cons_of_ne_nil (hw a (by simp)).1
    have hdigit := (hw (e :: es) (by simp)).2.1 e List.mem_cons_self
    have hbracket : '[' = e := (List.cons.inj hmarker).1
    rw [← hbracket] at hdigit
    cases hdigit

/-- One pass after the other up to the own one. -/
theorem survivors_ne_of_step {pass : Pass} {passes : List Pass}
    (h : survivors (pass.runMarked (block p x s)) ≠ x ∨
      ∃ p' s', pass.runMarked (block p x s) = block p' x s' ∧ Standing p' s')
    (hrest : ∀ p' s', Standing p' s' →
      survivors (passes.foldl (fun text pass => pass.runMarked text) (block p' x s')) ≠ x) :
    survivors ((pass :: passes).foldl (fun text pass => pass.runMarked text) (block p x s)) ≠
      x := by
  obtain hlost | ⟨p', s', hblock, hstanding⟩ := h
  · intro hsame
    have hfirst : (survivors (pass.runMarked (block p x s))).Sublist x := by
      have hsub : (survivors (pass.runMarked (block p x s))).Sublist (survivors (block p x s)) :=
        survivors_markedFrom
      rwa [survivors_block] at hsub
    have hothers := survivors_foldl passes (pass.runMarked (block p x s))
    rw [List.foldl_cons] at hsame
    rw [hsame] at hothers
    exact hlost (hfirst.antisymm hothers)
  · rw [List.foldl_cons, hblock]
    exact hrest p' s' hstanding

end Redacted

/-- An identifier that no full stop follows never survives in its place, whatever surrounds it. -/
theorem identifier_redacted (u : UnicodeData) (x : Identifier) (p s : List Char)
    (hw : x.WellFormed) (hplain : x.Plain) (hdelimited : Delimited p s)
    (hdot : s.head? ≠ some '.') :
    survivors (redactMarked u (block p x.text s)) ≠ x.text := by
  have hne : x.text ≠ [] := by cases x <;> simp [Identifier.text]
  have hstanding := hdelimited.standing hdot
  cases x with
  | email localPart domain tld =>
      refine survivors_ne_of_passes u [urlPass u, markerPass emailPattern] _ rfl ?_
      refine survivors_ne_of_step (urlPass_pass hstanding hne) fun p₁ s₁ h₁ => ?_
      exact emailPass_takes h₁ hw hplain
  | address a b c d =>
      refine survivors_ne_of_passes u [urlPass u, markerPass emailPattern,
        validatedPass (creditCardPattern u) (isCreditCard u),
        validatedPass (ipv4Pattern u) isIpAddress] _ rfl ?_
      refine survivors_ne_of_step (urlPass_pass hstanding hne) fun p₁ s₁ h₁ => ?_
      refine survivors_ne_of_step (emailPass_pass h₁ hne) fun p₂ s₂ h₂ => ?_
      refine survivors_ne_of_step (creditCardPass_pass h₂ hne) fun p₃ s₃ h₃ => ?_
      exact ipv4Pass_takes h₃ hw hplain

/-- Nothing in the identifier looks like a secret of another kind. -/
def Identifier.Quiet : Identifier → Prop
  | email localPart domain tld => ∀ c ∈ (email localPart domain tld).text,
      c.isAlpha = true ∨ among "._%+@" c = true
  | address a b c d => ∀ octet ∈ [a, b, c, d], octet.length ≤ 3

section Survives

variable {u : UnicodeData} {pass : Pass} {x s : List Char}

theorem redactMarked_eq_self {text : List (Char × Bool)}
    (h : ∀ pass ∈ allPasses u, pass.runMarked text = text) : redactMarked u text = text := by
  rw [redactMarked]
  generalize allPasses u = passes at h
  induction passes with
  | nil => rfl
  | cons pass passes ih =>
      rw [List.foldl_cons, h pass List.mem_cons_self]
      exact ih fun other hother => h other (List.mem_cons_of_mem pass hother)

/-- A pass that finds nothing leaves the text alone. -/
theorem Pass.runMarked_eq_self (h : ∀ front y, x ++ s = front ++ y → ∀ hit,
    pass.pattern.firstHit (behind none front) y = some hit → pass.replace hit = hit.taken) :
    pass.runMarked (block [] x s) = block [] x s := by
  refine markedFrom_eq_self fun front y hit hsplit hfound => h front y ?_ hit hfound
  rw [← hsplit, map_fst_block]
  rfl

theorem Pass.runMarked_of_stuck {cs : List Char} (hstuck : pass.pattern.stuck cs = true)
    (hx : ∀ c ∈ x ++ s, c ∈ cs) : pass.runMarked (block [] x s) = block [] x s := by
  refine Pass.runMarked_eq_self fun front y hy hit hfound => ?_
  have hnone := hits_eq_nil_of_stuck hstuck (behind none front) fun c hc =>
    hx c (by rw [hy]; exact List.mem_append_right _ hc)
  rw [firstHit, hnone] at hfound
  cases hfound

/-- The characters of a quiet e-mail address. -/
def quietChars : List Char := (List.range 26).flatMap (fun n =>
  [Char.ofNat (65 + n), Char.ofNat (97 + n)]) ++ "._%+@".toList

theorem mem_quietChars {c : Char} (h : c.isAlpha = true ∨ among "._%+@" c = true) :
    c ∈ quietChars := by
  obtain halpha | hsign := h
  · refine List.mem_append_left _ ?_
    have hall : ∀ n ∈ List.range 128, (Char.ofNat n).isAlpha = true → Char.ofNat n ∈
        (List.range 26).flatMap fun n => [Char.ofNat (65 + n), Char.ofNat (97 + n)] := by
      decide +kernel
    have halnum : c.isAlphanum = true := by rw [Char.isAlphanum, halpha, Bool.true_or]
    have hc := hall c.toNat (List.mem_range.mpr (toNat_lt_of_isAlphanum halnum))
    rw [Char.ofNat_toNat] at hc
    exact hc halpha
  · exact List.mem_append_right _ (List.contains_iff_mem.mp hsign)

theorem stuck_quietChars : ∀ r ∈ [urlPattern u, creditCardPattern u, ipv4Pattern u, macPattern,
    phonePattern u, headerPattern u, assignmentPattern u, bearerPattern u, knownTokenPattern u],
    r.stuck quietChars = true := by
  have hdecimal : quietChars.all (fun c => !u.isDecimal c) = true := by
    have hall : ∀ c ∈ quietChars, c.toNat < 128 ∧ c.isDigit = false :=
      forall_of_all (by decide +kernel)
    rw [List.all_eq_true]
    intro c hc
    rw [UnicodeData.isDecimal, u.decimal_ascii c (hall c hc).1, (hall c hc).2]
    rfl
  simp only [List.mem_cons, List.not_mem_nil, or_false, forall_eq_or_imp, forall_eq]
  refine ⟨rfl, ?_, ?_, rfl, ?_, rfl, rfl, rfl, rfl⟩
  · simp [creditCardPattern, stuck, seqs, hdecimal]
  · simp [ipv4Pattern, stuck, seqs, between, times, hdecimal]
  · have hone : quietChars.all (fun c => !(c == '1')) = true := by decide +kernel
    simp [phonePattern, stuck, seqs, between, times, lit, hone, hdecimal]

/-- An e-mail match ends with two letters, and no character that goes on an address follows. -/
theorem taken_of_email {prev : Option Char} {y : List Char} {hit : Hit}
    (hm : hit ∈ emailPattern.hits prev y) : ∃ front c d, hit.taken = front ++ [c, d] ∧
      isLetter c = true ∧ isLetter d = true ∧ '@' ∈ hit.taken ∧
      isAt (alnumOr "._%+-") hit.rest.head? = false := by
  have hat : emailPattern.Takes (· = '@') := by
    simp [emailPattern, seqs, Takes, lit]
  obtain ⟨sign, hsign, rfl⟩ := exists_mem_of_takes hat hm
  obtain ⟨h₁, -, r₁, hr₁, ht₁, hrest₁⟩ := exists_of_seq hm
  obtain ⟨h₂, -, r₂, hr₂, ht₂, hrest₂⟩ := exists_of_seq hr₁
  obtain ⟨h₃, -, r₃, hr₃, ht₃, hrest₃⟩ := exists_of_seq hr₂
  obtain ⟨h₄, -, r₄, hr₄, ht₄, hrest₄⟩ := exists_of_seq hr₃
  obtain ⟨h₅, -, r₅, hr₅, ht₅, hrest₅⟩ := exists_of_seq hr₄
  obtain ⟨top, htop, stop, hstop, ht₆, hrest₆⟩ := exists_of_seq hr₅
  obtain ⟨hstopTaken, hstopRest, hedge⟩ := rest_of_notBefore hstop
  have hletters : ∀ c ∈ top.taken, isLetter c = true := by
    refine all_of_only (r := atLeast 2 (ignoreCase lowerAlpha)) ?_ htop
    simp [atLeast, times, Only, isLetter, ignoreCase]
  have hlength : 2 ≤ top.taken.length := least_le htop
  obtain ⟨init, d, hinit⟩ := (List.eq_nil_or_concat' top.taken).resolve_left fun hempty => by
    rw [hempty] at hlength
    cases hlength
  obtain ⟨front, c, hfront⟩ := (List.eq_nil_or_concat' init).resolve_left fun hempty => by
    rw [hinit, hempty, List.nil_append, List.length_singleton] at hlength
    omega
  have htopTaken : top.taken = front ++ [c, d] := by
    rw [hinit, hfront, List.append_assoc]
    rfl
  refine ⟨h₁.taken ++ (h₂.taken ++ (h₃.taken ++ (h₄.taken ++ (h₅.taken ++ front)))), c, d, ?_, ?_,
    ?_, hsign, ?_⟩
  · rw [ht₁, ht₂, ht₃, ht₄, ht₅, ht₆, hstopTaken, htopTaken]
    simp
  · exact hletters c (by rw [htopTaken]; simp)
  · exact hletters d (by rw [htopTaken]; simp)
  · rw [hrest₁, hrest₂, hrest₃, hrest₄, hrest₅, hrest₆, hstopRest]
    exact hedge

/-- What is left of a text behind a match that takes its only at sign. -/
theorem suffix_of_at {localPart behindAt front taken rest : List Char}
    (hlocal : ∀ c ∈ localPart, c ≠ '@') (hat : '@' ∈ taken)
    (h : localPart ++ '@' :: behindAt = front ++ (taken ++ rest)) : rest <:+ behindAt := by
  have hrest : rest <:+ localPart ++ '@' :: behindAt := ⟨front ++ taken, by
    rw [h, List.append_assoc]⟩
  have hbehind : behindAt <:+ localPart ++ '@' :: behindAt := ⟨localPart ++ ['@'], by
    rw [List.append_assoc]
    rfl⟩
  obtain hle | hle := Nat.le_total rest.length behindAt.length
  · exact List.suffix_of_suffix_length_le hrest hbehind hle
  · -- A longer rest would begin in front of the sign that was taken.
    obtain ⟨z, rfl⟩ := List.suffix_of_suffix_length_le hbehind hrest hle
    have hfront : localPart ++ ['@'] = front ++ taken ++ z := by
      refine (List.append_left_inj behindAt).mp ?_
      rw [List.append_assoc, List.append_assoc, List.append_assoc]
      exact h
    cases z.eq_nil_or_concat' with
    | inl hz =>
        rw [hz]
        exact List.suffix_refl _
    | inr hz =>
        obtain ⟨z', e, rfl⟩ := hz
        rw [← List.append_assoc] at hfront
        have hsame := (List.append_inj' hfront rfl).1
        exact absurd rfl (hlocal '@' (by
          rw [hsame]
          exact List.mem_append_left _ (List.mem_append_right _ hat)))

/-- In front of a full stop, or with one letter behind the last dot, an e-mail address is not
found. -/
theorem emailPass_spares {localPart domain tld : List Char}
    (hw : (Identifier.email localPart domain tld).WellFormed)
    (hs : s = ['.'] ∨ s = [] ∧ tld.length = 1) :
    (markerPass emailPattern).runMarked
        (block [] (Identifier.email localPart domain tld).text s) =
      block [] (Identifier.email localPart domain tld).text s := by
  obtain ⟨-, hlocals, -, hdomains, htop, htlds⟩ := hw
  refine Pass.runMarked_eq_self fun front y hy hit hfound => ?_
  obtain ⟨init, c, d, htaken, hc, hd, hat, hedge⟩ := taken_of_email (firstHit_mem hfound)
  have hsplit := hits_split (firstHit_mem hfound)
  have hlocal : ∀ c ∈ localPart, c ≠ '@' := by
    rintro c hc rfl
    exact absurd (hlocals '@' hc) (by decide)
  have hwhole : localPart ++ '@' :: (domain ++ '.' :: (tld ++ s)) =
      front ++ (hit.taken ++ hit.rest) := by
    rw [hsplit, ← hy]
    simp [Identifier.text]
  have hclass : ∀ e ∈ domain ++ '.' :: (tld ++ s), alnumOr "._%+-" e = true := by
    intro e he
    obtain he | he := List.mem_append.mp he
    · exact alnumOr_of_domain (alnumOr_of_isAlphanum (hdomains e he) (forall_of_all (by decide)))
    · obtain rfl | he := List.mem_cons.mp he
      · decide
      · obtain he | he := List.mem_append.mp he
        · have hletter : lowerAlpha (foldCase e) = true := isLetter_of_isAlpha (htlds e he)
          rw [alnumOr, ignoreCase, hletter]
          rfl
        · obtain rfl | ⟨rfl, -⟩ := hs
          · rw [List.mem_singleton.mp he]
            decide
          · cases he
  have hrest : hit.rest = [] := by
    have hsub := (suffix_of_at hlocal hat hwhole).subset
    cases hcase : hit.rest with
    | nil => rfl
    | cons e es =>
        rw [hcase] at hsub hedge
        have hmem : alnumOr "._%+-" e = true := hclass e (hsub List.mem_cons_self)
        exact absurd (hmem.symm.trans hedge) (by decide)
  -- The last two characters of the text are not both letters.
  have hdot : ∃ (t : List Char) (e g : Char), localPart ++ '@' :: (domain ++ '.' :: (tld ++ s)) =
      t ++ [e, g] ∧ (e = '.' ∨ g = '.') := by
    obtain rfl | ⟨rfl, hone⟩ := hs
    · obtain ⟨t, e, rfl⟩ := (List.eq_nil_or_concat' tld).resolve_left htop
      exact ⟨localPart ++ '@' :: (domain ++ '.' :: t), e, '.', by simp, .inr rfl⟩
    · obtain ⟨g, rfl⟩ := List.length_eq_one_iff.mp hone
      exact ⟨localPart ++ '@' :: domain, '.', g, by simp, .inl rfl⟩
  obtain ⟨t, e, g, htail, hdot⟩ := hdot
  rw [htail, hrest, List.append_nil, htaken, ← List.append_assoc] at hwhole
  obtain ⟨-, hlast⟩ := List.append_inj' hwhole rfl
  obtain ⟨hce, htwo⟩ := List.cons.inj hlast
  obtain ⟨hgd, -⟩ := List.cons.inj htwo
  obtain he | hg := hdot
  · rw [← hce, he] at hc
    exact absurd hc (by decide)
  · rw [← hgd, hg] at hd
    exact absurd hd (by decide)

/-- The characters of a dotted address. -/
def dottedChars : List Char := "0123456789.".toList

theorem mem_dottedChars {c : Char} (h : c.isDigit = true ∨ c = '.') : c ∈ dottedChars := by
  obtain hdigit | rfl := h
  · have hall : ∀ n ∈ List.range 128, (Char.ofNat n).isDigit = true →
        Char.ofNat n ∈ dottedChars := by
      decide +kernel
    have halnum : c.isAlphanum = true := by rw [Char.isAlphanum, hdigit, Bool.or_true]
    have hc := hall c.toNat (List.mem_range.mpr (toNat_lt_of_isAlphanum halnum))
    rw [Char.ofNat_toNat] at hc
    exact hc hdigit
  · decide

theorem stuck_dottedChars : ∀ r ∈ [urlPattern u, emailPattern, macPattern, headerPattern u,
    assignmentPattern u, bearerPattern u, knownTokenPattern u], r.stuck dottedChars = true := by
  simp only [List.mem_cons, List.not_mem_nil, or_false, forall_eq_or_imp, forall_eq]
  exact ⟨rfl, rfl, rfl, rfl, rfl, rfl, rfl⟩

theorem digit_or_dot {a b c d : List Char} (hw : (Identifier.address a b c d).WellFormed)
    (hs : s = [] ∨ s = ['.']) :
    ∀ e ∈ (Identifier.address a b c d).text ++ s, e.isDigit = true ∨ e = '.' := by
  intro e he
  have hdigits : ∀ octet ∈ [a, b, c, d], e ∈ octet → e.isDigit = true :=
    fun octet hmem => (hw octet hmem).2.1 e
  simp only [List.mem_cons, List.not_mem_nil, or_false, forall_eq_or_imp, forall_eq] at hdigits
  have hbehind : e ∈ s → e = '.' := by
    obtain rfl | rfl := hs
    · intro h
      cases h
    · exact List.mem_singleton.mp
  simp only [Identifier.text, List.mem_append, List.mem_cons] at he
  tauto

/-- A run of characters between full stops is not longer than the parts are. -/
theorem length_le_of_part {part rest : List Char} {n : ℕ} (hpart : part.length ≤ n)
    (hrest : ∀ t, t <:+: rest → '.' ∉ t → t.length ≤ n) :
    ∀ t, t <:+: part ++ '.' :: rest → '.' ∉ t → t.length ≤ n := by
  have hcut : ∀ t, t <+: '.' :: rest → '.' ∉ t → t = [] := by
    intro t ht hdot
    cases t with
    | nil => rfl
    | cons c cs =>
        obtain ⟨rfl, -⟩ := List.cons_prefix_cons.mp ht
        exact absurd List.mem_cons_self hdot
  intro t ht hdot
  obtain hinside | hbehind | ⟨t₁, t₂, rfl, hsuffix, hstart⟩ := List.infix_append_iff.mp ht
  · exact Nat.le_trans hinside.length_le hpart
  · obtain hstart | hafter := List.infix_cons_iff.mp hbehind
    · rw [hcut t hstart hdot]
      exact Nat.zero_le n
    · exact hrest t hafter hdot
  · rw [hcut t₂ hstart fun hmem => hdot (List.mem_append_right t₁ hmem), List.append_nil]
    exact Nat.le_trans hsuffix.length_le hpart

/-- No run of digits of a quiet address has four. -/
theorem length_le_of_address {a b c d t : List Char} (hquiet : (Identifier.address a b c d).Quiet)
    (hs : s = [] ∨ s = ['.']) (ht : t <:+: (Identifier.address a b c d).text ++ s)
    (hdot : '.' ∉ t) : t.length ≤ 3 := by
  have hlast : ∀ t, t <:+: d ++ s → '.' ∉ t → t.length ≤ 3 := by
    obtain rfl | rfl := hs
    · intro t ht hdot
      rw [List.append_nil] at ht
      exact Nat.le_trans ht.length_le (hquiet d (by simp))
    · refine length_le_of_part (hquiet d (by simp)) fun t ht _ => ?_
      rw [List.infix_nil.mp ht]
      exact Nat.zero_le 3
  refine length_le_of_part (hquiet a (by simp)) (length_le_of_part (hquiet b (by simp))
    (length_le_of_part (hquiet c (by simp)) hlast)) t ?_ hdot
  simpa [Identifier.text] using ht

theorem ne_dot_of_isDecimal {c : Char} (h : u.isDecimal c = true) : c ≠ '.' := by
  rintro rfl
  rw [not_isDecimal_dot] at h
  cases h

theorem creditCardPattern_only : (creditCardPattern u).Only (· ≠ '.') := by
  have hsign : ∀ c, among " -" c = true → c ≠ '.' := by
    rintro c hc rfl
    exact absurd hc (by decide)
  have hdecimal : ∀ c, u.isDecimal c = true → c ≠ '.' := fun c => ne_dot_of_isDecimal
  have hdigit : (seq (chr u.isDecimal) (opt (chr (among " -")))).Only (· ≠ '.') :=
    ⟨hdecimal, hsign, trivial⟩
  exact ⟨trivial, hdigit.between 12 18, hdecimal, trivial⟩

theorem least_creditCardPattern : (creditCardPattern u).least = 13 := by
  simp [creditCardPattern, seqs, between, times, upTo, opt, least]

/-- A card number has thirteen digits. -/
theorem creditCardPass_spares {a b c d : List Char}
    (hquiet : (Identifier.address a b c d).Quiet) (hs : s = [] ∨ s = ['.']) :
    (validatedPass (creditCardPattern u) (isCreditCard u)).runMarked
        (block [] (Identifier.address a b c d).text s) =
      block [] (Identifier.address a b c d).text s := by
  refine Pass.runMarked_eq_self fun front y hy hit hfound => ?_
  have hlong : 13 ≤ hit.taken.length := by
    have hleast : (creditCardPattern u).least ≤ hit.taken.length := least_le (firstHit_mem hfound)
    rwa [least_creditCardPattern] at hleast
  have hinside : hit.taken <:+: (Identifier.address a b c d).text ++ s :=
    ⟨front, hit.rest, by rw [hy, ← hits_split (firstHit_mem hfound), List.append_assoc]⟩
  have hshort := length_le_of_address hquiet hs hinside fun hmem =>
    all_of_only creditCardPattern_only (firstHit_mem hfound) '.' hmem rfl
  omega

/-- A phone number ends with four digits. -/
theorem taken_of_phone {prev : Option Char} {y : List Char} {hit : Hit}
    (hm : hit ∈ (phonePattern u).hits prev y) :
    ∃ t, t <:+: hit.taken ∧ '.' ∉ t ∧ 4 ≤ t.length := by
  have hdecimal : ∀ c, u.isDecimal c = true → c ≠ '.' := fun c => ne_dot_of_isDecimal
  obtain hmobile | hother := List.mem_append.mp hm
  · have honly : (seqs [boundary u.isWord, lit '1', chr (fun c => '3' ≤ c && c ≤ '9'),
        times 9 (chr u.isDecimal), boundary u.isWord]).Only (· ≠ '.') := by
      have hone : ∀ c, (c == '1') = true → c ≠ '.' := by
        rintro c hc rfl
        exact absurd hc (by decide)
      have htwo : ∀ c, (decide ('3' ≤ c) && decide (c ≤ '9')) = true → c ≠ '.' := by
        rintro c hc rfl
        exact absurd hc (by decide)
      have hnine : (chr u.isDecimal).Only (· ≠ '.') := hdecimal
      exact ⟨trivial, hone, htwo, hnine.times 9, trivial⟩
    refine ⟨hit.taken, List.infix_refl _, fun hmem => all_of_only honly hmobile '.' hmem rfl, ?_⟩
    have hlong : 11 ≤ hit.taken.length := least_le hmobile
    omega
  · obtain ⟨h₁, -, r₁, hr₁, ht₁, -⟩ := exists_of_seq hother
    obtain ⟨h₂, -, r₂, hr₂, ht₂, -⟩ := exists_of_seq hr₁
    obtain ⟨h₃, -, r₃, hr₃, ht₃, -⟩ := exists_of_seq hr₂
    obtain ⟨h₄, -, r₄, hr₄, ht₄, -⟩ := exists_of_seq hr₃
    obtain ⟨h₅, -, r₅, hr₅, ht₅, -⟩ := exists_of_seq hr₄
    obtain ⟨h₆, -, r₆, hr₆, ht₆, -⟩ := exists_of_seq hr₅
    obtain ⟨h₇, -, r₇, hr₇, ht₇, -⟩ := exists_of_seq hr₆
    obtain ⟨four, hfour, last, -, ht₈, -⟩ := exists_of_seq hr₇
    have hone : (chr u.isDecimal).Only (· ≠ '.') := hdecimal
    have honly := hone.times 4
    refine ⟨four.taken, ⟨h₁.taken ++ (h₂.taken ++ (h₃.taken ++ (h₄.taken ++ (h₅.taken ++
      (h₆.taken ++ h₇.taken))))), last.taken, ?_⟩, fun hmem => all_of_only honly hfour '.' hmem rfl,
      least_le hfour⟩
    rw [ht₁, ht₂, ht₃, ht₄, ht₅, ht₆, ht₇, ht₈]
    simp

theorem phonePass_spares {a b c d : List Char}
    (hquiet : (Identifier.address a b c d).Quiet) (hs : s = [] ∨ s = ['.']) :
    (markerPass (phonePattern u)).runMarked (block [] (Identifier.address a b c d).text s) =
      block [] (Identifier.address a b c d).text s := by
  refine Pass.runMarked_eq_self fun front y hy hit hfound => ?_
  obtain ⟨t, hpart, hdot, hlong⟩ := taken_of_phone (firstHit_mem hfound)
  have hinside : hit.taken <:+: (Identifier.address a b c d).text ++ s :=
    ⟨front, hit.rest, by rw [hy, ← hits_split (firstHit_mem hfound), List.append_assoc]⟩
  have hshort := length_le_of_address hquiet hs (hpart.trans hinside) hdot
  omega

/-- With a full stop behind it, or with an octet filled up with zeros, a dotted address is not an
address for the validator. -/
theorem not_isIpAddress {a b c d : List Char} (hw : (Identifier.address a b c d).WellFormed)
    (hs : s = ['.'] ∨ s = [] ∧ ¬ (Identifier.address a b c d).Plain) :
    isIpAddress ((Identifier.address a b c d).text ++ s) = false := by
  have hdots := hw.ne_dot
  obtain rfl | ⟨rfl, hplain⟩ := hs
  · have hsplit : splitOn '.' ((Identifier.address a b c d).text ++ ['.']) = [a, b, c, d, []] := by
      simp only [Identifier.text, List.append_assoc, List.cons_append]
      rw [splitOn_append (hdots a (by simp)), splitOn_append (hdots b (by simp)),
        splitOn_append (hdots c (by simp)), splitOn_append (hdots d (by simp))]
      rfl
    rw [isIpAddress, hsplit]
    rfl
  · rw [List.append_nil, isIpAddress, splitOn_text hw, Bool.and_eq_false_iff]
    refine .inr (Bool.eq_false_iff.mpr fun hall => hplain fun octet hmem => ?_)
    have hfits := List.all_eq_true.mp hall octet hmem
    simp only [isOctet, Bool.and_eq_true, Bool.or_eq_true, beq_iff_eq, bne_iff_ne] at hfits
    exact hfits.1.2

/-- The own pattern finds nothing but the whole text, which the validator refuses. -/
theorem ipv4Pass_spares {a b c d : List Char} (hw : (Identifier.address a b c d).WellFormed)
    (hs : s = ['.'] ∨ s = [] ∧ ¬ (Identifier.address a b c d).Plain) :
    (validatedPass (ipv4Pattern u) isIpAddress).runMarked
        (block [] (Identifier.address a b c d).text s) =
      block [] (Identifier.address a b c d).text s := by
  refine Pass.runMarked_eq_self fun front y hy hit hfound => ?_
  have hclass : ∀ e ∈ front ++ y, (u.isDecimal e || e == '.') = true := by
    intro e he
    rw [← hy] at he
    obtain hdigit | rfl := digit_or_dot hw (hs.elim .inr fun h => .inl h.1) e he
    · rw [isDecimal_of_isDigit u hdigit]
      rfl
    · exact Bool.or_true _
  have hsplit := hits_split (firstHit_mem hfound)
  obtain ⟨-, -, -, -, -, -, hedge⟩ := taken_of_ipv4 (firstHit_mem hfound)
  obtain ⟨start, hstart, -⟩ := exists_of_seq (firstHit_mem hfound)
  have hbehind := prev_of_notAfter hstart
  have hrest : hit.rest = [] := by
    cases hcase : hit.rest with
    | nil => rfl
    | cons e es =>
        rw [hcase] at hedge hsplit
        have hmem := hclass e (by rw [← hsplit]; simp)
        exact absurd (hmem.symm.trans hedge) (by decide)
  have hfront : front = [] := by
    cases hcase : front.getLast? with
    | none => exact List.getLast?_eq_none_iff.mp hcase
    | some e =>
        rw [behind, hcase] at hbehind
        have hmem := hclass e (List.mem_append_left y (List.mem_of_getLast? hcase))
        exact absurd (hmem.symm.trans hbehind) (by decide)
  rw [hrest, List.append_nil] at hsplit
  rw [hfront, List.nil_append, ← hsplit] at hy
  have hvalid : replaceValidated isIpAddress hit = hit.taken := by
    rw [replaceValidated, ← hy, not_isIpAddress hw hs]
    rfl
  exact hvalid

/-- In its own place a quiet identifier stays, when a full stop follows or when it is not plain. -/
theorem redactMarked_spares {x : Identifier} (hw : x.WellFormed) (hquiet : x.Quiet)
    (hs : s = ['.'] ∨ s = [] ∧ ¬ x.Plain) :
    redactMarked u (block [] x.text s) = block [] x.text s := by
  have hstop : s = [] ∨ s = ['.'] := hs.elim .inr fun h => .inl h.1
  refine redactMarked_eq_self ?_
  simp only [allPasses, piiPasses, List.cons_append, List.nil_append, List.mem_cons,
    List.not_mem_nil, or_false, forall_eq_or_imp, forall_eq]
  cases x with
  | email localPart domain tld =>
      have hchars : ∀ c ∈ (Identifier.email localPart domain tld).text ++ s, c ∈ quietChars := by
        intro c hc
        obtain hc | hc := List.mem_append.mp hc
        · exact mem_quietChars (hquiet c hc)
        · obtain rfl | rfl := hstop
          · cases hc
          · rw [List.mem_singleton.mp hc]
            exact mem_quietChars (.inr (by decide))
      have hspared : ∀ pass : Pass, pass.pattern.stuck quietChars = true →
          pass.runMarked (block [] (Identifier.email localPart domain tld).text s) =
            block [] (Identifier.email localPart domain tld).text s :=
        fun pass hstuck => Pass.runMarked_of_stuck hstuck hchars
      have hstuck := stuck_quietChars (u := u)
      simp only [List.mem_cons, List.not_mem_nil, or_false, forall_eq_or_imp, forall_eq] at hstuck
      obtain ⟨hurl, hcard, hip, hmac, hphone, hheader, hassignment, hbearer, hknown⟩ := hstuck
      have hown : s = ['.'] ∨ s = [] ∧ tld.length = 1 := by
        obtain hdot | ⟨hempty, hshort⟩ := hs
        · exact .inl hdot
        · have hpos := List.length_pos_of_ne_nil hw.2.2.2.2.1
          have hless := Nat.not_le.mp hshort
          exact .inr ⟨hempty, by omega⟩
      exact ⟨hspared _ hurl, emailPass_spares hw hown, hspared _ hcard, hspared _ hip,
        hspared _ hmac, hspared _ hphone, hspared _ hheader, hspared _ hassignment,
        hspared _ hbearer, hspared _ hknown⟩
  | address a b c d =>
      have hspared : ∀ pass : Pass, pass.pattern.stuck dottedChars = true →
          pass.runMarked (block [] (Identifier.address a b c d).text s) =
            block [] (Identifier.address a b c d).text s :=
        fun pass hstuck => Pass.runMarked_of_stuck hstuck fun c hc =>
          mem_dottedChars (digit_or_dot hw hstop c hc)
      have hstuck := stuck_dottedChars (u := u)
      simp only [List.mem_cons, List.not_mem_nil, or_false, forall_eq_or_imp, forall_eq] at hstuck
      obtain ⟨hurl, hemail, hmac, hheader, hassignment, hbearer, hknown⟩ := hstuck
      exact ⟨hspared _ hurl, hspared _ hemail, creditCardPass_spares hquiet hstop,
        ipv4Pass_spares hw hs, hspared _ hmac, phonePass_spares hquiet hstop, hspared _ hheader,
        hspared _ hassignment, hspared _ hbearer, hspared _ hknown⟩

/-- Well-formed identifiers that are plain go wherever no full stop follows; of the others, those
that look like nothing else stay, and so do all of these in front of a full stop. -/
theorem identifier_redacted_unless_stop (u : UnicodeData) (x : Identifier) (hw : x.WellFormed) :
    (x.Plain → ∀ p s, Delimited p s → s.head? ≠ some '.' →
      survivors (redactMarked u (block p x.text s)) ≠ x.text) ∧
    (x.Quiet → ∀ s, s = ['.'] ∨ s = [] ∧ ¬ x.Plain →
      survivors (redactMarked u (block [] x.text s)) = x.text) := by
  refine ⟨fun hplain p s hdelimited hdot => identifier_redacted u x p s hw hplain hdelimited hdot,
    fun hquiet s hs => ?_⟩
  rw [redactMarked_spares hw hquiet hs, survivors_block]

def plainEmail : Identifier := .email "a".toList "b".toList "com".toList

theorem plainEmail_wellFormed : plainEmail.WellFormed := by
  have hlocal : ∀ c ∈ "a".toList, (c.isAlphanum || among "._%+-" c) = true :=
    forall_of_all (by decide)
  have hdomain : ∀ c ∈ "b".toList, (c.isAlphanum || among ".-" c) = true :=
    forall_of_all (by decide)
  have htld : ∀ c ∈ "com".toList, c.isAlpha = true := forall_of_all (by decide)
  exact ⟨by decide, hlocal, by decide, hdomain, by decide, htld⟩

theorem plainEmail_quiet : plainEmail.Quiet := by
  have hchars : ∀ c ∈ plainEmail.text, (c.isAlpha || among "._%+@" c) = true :=
    forall_of_all (by decide)
  intro c hc
  exact (Bool.or_eq_true _ _).mp (hchars c hc)

theorem plainEmail_plain : plainEmail.Plain := Nat.le_succ 2

theorem identifier_redacted_unless_stop_email :
    survivors (redactMarked .ascii (block [] plainEmail.text [' '])) ≠ plainEmail.text ∧
      survivors (redactMarked .ascii (block [] plainEmail.text ['.'])) = plainEmail.text := by
  have hexact := identifier_redacted_unless_stop .ascii plainEmail plainEmail_wellFormed
  have hdelimited : Delimited [] [' '] := by
    refine ⟨(by rintro w ⟨⟩), ?_⟩
    rintro e ⟨⟩
    exact .inl (by decide)
  exact ⟨hexact.1 plainEmail_plain [] [' '] hdelimited (by decide),
    hexact.2 plainEmail_quiet ['.'] (.inl rfl)⟩

/-- An address at the end of a sentence stays in the text. -/
theorem identifier_survives_at_stop : ∃ x : Identifier, ∃ p s, x.WellFormed ∧ x.Plain ∧
    Delimited p s ∧ survivors (redactMarked .ascii (block p x.text s)) = x.text := by
  have hdelimited : Delimited [] ['.'] := by
    refine ⟨(by rintro w ⟨⟩), ?_⟩
    rintro e ⟨⟩
    exact .inr ⟨by decide, by rintro d ⟨⟩⟩
  refine ⟨plainEmail, [], ['.'], plainEmail_wellFormed, plainEmail_plain, hdelimited, ?_⟩
  rw [redactMarked_spares plainEmail_wellFormed plainEmail_quiet (.inl rfl), survivors_block]

end Survives

end CryptoAlert.Redaction
