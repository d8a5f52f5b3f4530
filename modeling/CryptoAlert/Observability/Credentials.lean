import CryptoAlert.Lib.Passes
import CryptoAlert.Observability.Redaction

/-!
# Credentials in redacted texts

The substitutions of `redact_text` run one after the other, each on the text that the one before
it leaves. Where none of them touches a credential and its introducer before the one that is
meant for them, the redacted text does not depend on the credential.
-/

namespace CryptoAlert.Redaction

open Regex Text

/-- A substitution with its pattern; the replacement reads the match and its groups. -/
structure Pass where
  pattern : Regex
  replace : Hit → List Char
  reads : Local replace

namespace Pass

variable (pass : Pass)

def run (text : List Char) : List Char := pass.pattern.sub pass.replace text

/-- What a pass makes of `before`; `none` where a match found there reaches into `after`. -/
def within (prev : Option Char) (before after : List Char) : Option (List Char) :=
  subWithin pass.pattern pass.replace 0 prev before after

/-- What a pass makes of the texts around a part; `none` where a match overlaps the part, unless
it lies in the part and is left as it is. -/
def around (before part after : List Char) : Option (List Char × List Char) := do
  let before' ← pass.within none before (part ++ after)
  let part' ← pass.within (behind none before) part after
  if part' = part then
    some (before', subFrom pass.pattern pass.replace 0 (behind (behind none before) part) after)
  else none

end Pass

section Passes

variable (u : UnicodeData)

def urlPass : Pass where
  pattern := urlPattern u
  replace := replaceUrl u
  reads h h' htaken _ := by rw [replaceUrl, replaceUrl, htaken]

/-- A pass that puts the marker in the place of every match. -/
def markerPass (pattern : Regex) : Pass := ⟨pattern, constantly redactedMarker, fun _ _ _ _ => rfl⟩

/-- A pass that puts the marker in the place of the matches that are found valid. -/
def validatedPass (pattern : Regex) (validator : List Char → Bool) : Pass where
  pattern := pattern
  replace := replaceValidated validator
  reads h h' htaken _ := by rw [replaceValidated, replaceValidated, htaken]

def headerPass : Pass where
  pattern := headerPattern u
  replace m := m.group 1 ++ m.group 2 ++ redactedMarker
  reads h h' _ hgroups := by simp only [Hit.group, hgroups]

def assignmentPass : Pass where
  pattern := assignmentPattern u
  replace m := m.group 1 ++ redactedMarker
  reads h h' _ hgroups := by simp only [Hit.group, hgroups]

def bearerPass : Pass where
  pattern := bearerPattern u
  replace m := m.group 1 ++ ' ' :: redactedMarker
  reads h h' _ hgroups := by simp only [Hit.group, hgroups]

/-- The passes that run before any of those for credentials. -/
def piiPasses : List Pass :=
  [urlPass u, markerPass emailPattern, validatedPass (creditCardPattern u) (isCreditCard u),
    validatedPass (ipv4Pattern u) isIpAddress, markerPass macPattern, markerPass (phonePattern u)]

def runAll (passes : List Pass) (text : List Char) : List Char :=
  passes.foldl (fun text pass => pass.run text) text

theorem runAll_append (passes passes' : List Pass) (text : List Char) :
    runAll (passes ++ passes') text = runAll passes' (runAll passes text) :=
  List.foldl_append

end Passes

/-- The three ways in which a text introduces a credential. -/
inductive Introducer where
  | header | assignment | bearer
deriving DecidableEq

/-- A word in whatever case. -/
def Spells (w : String) (text : List Char) : Prop := text.map foldCase = w.toList

/-- The names of secrets: a word, or two words with at most one of `_`, blank and `-` between. -/
def secretNames : List (String × Option String) :=
  [("api", some "key"), ("access", some "token"), ("refresh", some "token"),
    ("client", some "secret"), ("device", some "key"), ("local", some "token"),
    ("passphrase", none), ("password", none), ("private", some "key"), ("secret", none),
    ("token", none)]

def headerNames : List (String × Option String) :=
  [("authorization", none), ("proxy-authorization", none), ("cookie", none),
    ("set-cookie", none), ("x-api-key", none)]

/-- The text is one of the names. -/
def Names (names : List (String × Option String)) (text : List Char) : Prop :=
  ∃ name ∈ names,
    match name.2 with
    | none => Spells name.1 text
    | some last => ∃ first between second, text = first ++ (between ++ second) ∧
        Spells name.1 first ∧ Spells last second ∧
          (between = [] ∨ ∃ c, between = [c] ∧ among "_ -" c = true)

namespace Introducer

/-- What a credential behind the introducer consists of. -/
def credential : Introducer → Char → Bool
  | header => fun c => !(among "\r\n,\x7d" c)
  | assignment => fun c => !(isSpace c || among "\"',;\x7d" c)
  | bearer => alnumOr "._~+/=-"

variable (u : UnicodeData)

/-- The texts that introduce a credential: a header name with a colon, the name of a secret with
`=` or `:` and at most a quote, the word bearer with white space. -/
def Introduces : Introducer → List Char → Prop
  | header, text => ∃ name blanks blanks', text = name ++ (blanks ++ ':' :: blanks') ∧
      Names headerNames name ∧ (∀ c ∈ blanks, isSpace c = true) ∧
        ∀ c ∈ blanks', isSpace c = true
  | assignment, text => ∃ name blanks sign blanks' quote,
      text = name ++ (blanks ++ sign :: (blanks' ++ quote)) ∧ Names secretNames name ∧
        isAt u.isWord name.getLast? ≠ isAt u.isWord (blanks ++ [sign]).head? ∧
          (∀ c ∈ blanks, isSpace c = true) ∧ among "=:" sign = true ∧
            (∀ c ∈ blanks', isSpace c = true) ∧
              (quote = [] ∨ ∃ c, quote = [c] ∧ among "\"'" c = true)
  | bearer, text => ∃ name blanks, text = name ++ blanks ∧ Spells "bearer" name ∧
      blanks ≠ [] ∧ ∀ c ∈ blanks, isSpace c = true

def passesBefore : Introducer → List Pass
  | header => piiPasses u
  | assignment => piiPasses u ++ [headerPass u]
  | bearer => piiPasses u ++ [headerPass u, assignmentPass u]

/-- The pass that is meant for the introducer. -/
def pass : Introducer → Pass
  | header => headerPass u
  | assignment => assignmentPass u
  | bearer => bearerPass u

def passesAfter : Introducer → List Pass
  | header => [assignmentPass u, bearerPass u, markerPass (knownTokenPattern u)]
  | assignment => [bearerPass u, markerPass (knownTokenPattern u)]
  | bearer => [markerPass (knownTokenPattern u)]

variable (k c₁ c₂ : List Char)

/-- Up to its own pass no match overlaps the introducer or either credential, unless it lies within
and is left as it is; behind both credentials each pass finds the same, and no match of the own
pass that starts before the introducer reaches into it. -/
def Spared (own : Pass) : List Pass → List Char → List Char → Prop
  | [], p, s => (own.within none p (k ++ c₁ ++ s)).isSome ∧
      (own.within none p (k ++ c₂ ++ s)).isSome
  | pass :: passes, p, s =>
      pass.pattern.firstHit (behind (behind none p) (k ++ c₁)) s =
        pass.pattern.firstHit (behind (behind none p) (k ++ c₂)) s ∧
      (pass.around p (k ++ c₂) s).isSome ∧
        ∃ around ∈ pass.around p (k ++ c₁) s, Spared own passes around.1 around.2

instance Spared.decide (own : Pass) : ∀ passes p s, Decidable (Spared k c₁ c₂ own passes p s)
  | [], _, _ => inferInstanceAs (Decidable (_ ∧ _))
  | _ :: passes, _, _ =>
      have := Spared.decide own passes
      inferInstanceAs (Decidable (_ ∧ _ ∧ ∃ _ ∈ _, _))

/-- The condition for a text to be redacted alike for both credentials. -/
structure Undisturbed (kind : Introducer) (p s : List Char) : Prop where
  inked : ∀ c ∈ [c₁, c₂], isAt isSpace c.head? = false
  passes : Spared k c₁ c₂ (kind.pass u) (kind.passesBefore u) p s

end Introducer

theorem redactChars_eq_runAll (u : UnicodeData) (kind : Introducer) (text : List Char) :
    redactChars u text = runAll (kind.passesAfter u)
      ((kind.pass u).run (runAll (kind.passesBefore u) text)) := by
  cases kind <;> rfl

section Around

variable {pass : Pass} {p m s p' s' : List Char}

theorem around_eq_some (h : pass.around p m s = some (p', s')) :
    pass.within none p (m ++ s) = some p' ∧ pass.within (behind none p) m s = some m ∧
      s' = subFrom pass.pattern pass.replace 0 (behind (behind none p) m) s := by
  obtain ⟨before, hbefore, h⟩ := Option.bind_eq_some_iff.mp h
  obtain ⟨part, hpart, h⟩ := Option.bind_eq_some_iff.mp h
  split_ifs at h with hsame
  cases h
  exact ⟨hbefore, hsame ▸ hpart, rfl⟩

theorem run_of_around (h : pass.around p m s = some (p', s')) :
    pass.run (p ++ (m ++ s)) = p' ++ (m ++ s') := by
  obtain ⟨hp, hm, rfl⟩ := around_eq_some h
  rw [Pass.run, sub, subFrom_append hp, subFrom_append hm]

/-- A pass makes the same of what is around either part. -/
theorem around_congr {m₁ m₂ : List Char} {ps : List Char × List Char}
    (hhead : (m₁ ++ s).head? = (m₂ ++ s).head?)
    (hfirst : pass.pattern.firstHit (behind (behind none p) m₁) s =
      pass.pattern.firstHit (behind (behind none p) m₂) s)
    (h₁ : pass.around p m₁ s = some (p', s')) (h₂ : pass.around p m₂ s = some ps) :
    ps = (p', s') := by
  obtain ⟨p₂, s₂⟩ := ps
  obtain ⟨hp₁, -, rfl⟩ := around_eq_some h₁
  obtain ⟨hp₂, -, rfl⟩ := around_eq_some h₂
  rw [subWithin_congr pass.reads hhead.symm hp₂ hp₁, subFrom_prev hfirst]

end Around

section Characters

/-- The letters of patterns that ignore case. -/
def isLetter (c : Char) : Bool := lowerAlpha (foldCase c)

/-- Characters that no pattern begins with. -/
def isStop (c : Char) : Bool := isSpace c || among "\r\n\"',;\x7d" c

variable (u : UnicodeData)

theorem isWord_bracket : u.isWord ']' = false := by
  have hascii := u.isAlnum_ascii ']' (by decide)
  rw [UnicodeData.isWord, hascii]
  decide

/-- The code points of the stops. -/
def stopCodes : List ℕ :=
  List.range' 9 5 ++ List.range' 28 5 ++ [34, 39, 44, 59, 125, 0x85, 0xA0, 0x1680] ++
    List.range' 0x2000 11 ++ [0x2028, 0x2029, 0x202F, 0x205F, 0x3000]

theorem mem_stopCodes {c : Char} (h : isStop c = true) : c.toNat ∈ stopCodes := by
  rw [isStop, Bool.or_eq_true] at h
  rcases h with hspace | hsign
  · simp only [isSpace, isWhiteSpace, Bool.or_eq_true, Bool.and_eq_true, decide_eq_true_eq,
      beq_iff_eq] at hspace
    simp only [stopCodes, List.mem_append, List.mem_range'_1, List.mem_cons, List.not_mem_nil]
    omega
  · have hall : ∀ d ∈ "\r\n\"',;\x7d".toList, d.toNat ∈ stopCodes :=
      forall_of_all (by decide +kernel)
    exact hall c (List.contains_iff_mem.mp hsign)

/-- No pattern begins with a stop. -/
theorem not_starts_of_isStop {c : Char} (h : isStop c = true) :
    isLetter c = false ∧ hexDigit (foldCase c) = false ∧ alnumOr "._%+-" c = false ∧
      among "1+(" c = false ∧ u.isDecimal c = false := by
  have hmem := mem_stopCodes h
  have hall : ∀ n ∈ stopCodes, isLetter (Char.ofNat n) = false ∧
      hexDigit (foldCase (Char.ofNat n)) = false ∧ alnumOr "._%+-" (Char.ofNat n) = false ∧
        among "1+(" (Char.ofNat n) = false ∧
          ((Char.ofNat n).isDigit = false ∧ n < 128 ∨ isWhiteSpace (Char.ofNat n) = true) := by
    decide +kernel
  have hc := hall c.toNat hmem
  rw [Char.ofNat_toNat] at hc
  obtain ⟨hletter, hhex, halnum, hsign, hdigit⟩ := hc
  refine ⟨hletter, hhex, halnum, hsign, ?_⟩
  rcases hdigit with ⟨hdigit, hascii⟩ | hspace
  · rw [UnicodeData.isDecimal, u.decimal_ascii c hascii, hdigit]
    rfl
  · by_contra hdecimal
    rw [Bool.not_eq_false] at hdecimal
    have hno := u.decimal_not_whiteSpace c hdecimal
    rw [hspace] at hno
    cases hno

/-- A letter may go on a URL. -/
theorem not_url_of_isLetter {c : Char} (h : isLetter c = true)
    (hurl : (!(isSpace c || among "<>'\"[]\x7b\x7d" c)) = false) : False := by
  rw [Bool.not_eq_false', Bool.or_eq_true] at hurl
  rcases hurl with hspace | hsign
  · have hstop : isStop c = true := by rw [isStop, hspace, Bool.true_or]
    rw [(not_starts_of_isStop .ascii hstop).1] at h
    cases h
  · have hall : ∀ d ∈ "<>'\"[]\x7b\x7d".toList, isLetter d = false :=
      forall_of_all (by decide +kernel)
    rw [hall c (List.contains_iff_mem.mp hsign)] at h
    cases h

end Characters

section Starts

variable (u : UnicodeData)

theorem urlPattern_starts : (urlPattern u).Starts fun c => isLetter c = true := by
  simp [urlPattern, isLetter, ignoreCase]

theorem emailPattern_starts : emailPattern.Starts fun c => alnumOr "._%+-" c = true := by
  simp [emailPattern, many1]

theorem creditCardPattern_starts :
    (creditCardPattern u).Starts fun c => u.isDecimal c = true := by
  simp [creditCardPattern, between]

theorem ipv4Pattern_starts : (ipv4Pattern u).Starts fun c => u.isDecimal c = true := by
  simp [ipv4Pattern, between]

theorem macPattern_starts : macPattern.Starts fun c => hexDigit (foldCase c) = true := by
  simp [macPattern, ignoreCase]

theorem phonePattern_starts :
    (phonePattern u).Starts fun c => among "1+(" c = true ∨ u.isDecimal c = true := by
  simp +contextual [phonePattern, between, lit, opt, among]

theorem headerPattern_starts : (headerPattern u).Starts fun c => isLetter c = true := by
  simp +contextual [headerPattern, word, isLetter, ignoreCase, lowerAlpha]

theorem assignmentPattern_starts : (assignmentPattern u).Starts fun c => isLetter c = true := by
  simp +contextual [assignmentPattern, word, joined, isLetter, ignoreCase, lowerAlpha]

theorem bearerPattern_starts : (bearerPattern u).Starts fun c => isLetter c = true := by
  simp +contextual [bearerPattern, word, isLetter, ignoreCase, lowerAlpha]

end Starts

section Keeps

variable (u : UnicodeData)

/-- What a pass keeps at the edges of a part that begins with a letter: in front of it no word
goes on, and what follows does not begin with a character of the class. -/
structure Pass.Keeps (pass : Pass) (inClass : Char → Bool) : Prop where
  last : ∀ after, isAt isLetter after.head? = true → ∀ prev x found,
    pass.pattern.firstHit prev (x ++ after) = some found → found.taken = x →
      isAt u.isWord x.getLast? = false → ∃ y d, pass.replace found = y ++ [d] ∧ u.isWord d = false
  head : ∀ prev s found, isAt inClass s.head? = false →
    pass.pattern.firstHit prev s = some found → ∃ d y, pass.replace found = d :: y ∧
      inClass d = false

variable {u} {pass : Pass} {inClass : Char → Bool}

/-- A replacement that ends with the marker. -/
theorem Pass.last_of_marker {m : Hit} (h : ∃ y, pass.replace m = y ++ redactedMarker) :
    ∃ y d, pass.replace m = y ++ [d] ∧ u.isWord d = false := by
  obtain ⟨y, hy⟩ := h
  refine ⟨y ++ "[REDACTED".toList, ']', ?_, isWord_bracket u⟩
  rw [hy, List.append_assoc]
  rfl

theorem exists_concat {x : List Char} (hne : x ≠ []) (hx : isAt u.isWord x.getLast? = false) :
    ∃ y d, x = y ++ [d] ∧ u.isWord d = false := by
  obtain ⟨y, d, rfl⟩ := (List.eq_nil_or_concat' x).resolve_left hne
  rw [List.getLast?_concat] at hx
  exact ⟨y, d, rfl, hx⟩

/-- A URL does not end where a letter follows. -/
theorem urlPass_last {after : List Char} (hafter : isAt isLetter after.head? = true)
    {prev : Option Char} {x : List Char} {found : Hit}
    (hfound : (urlPattern u).firstHit prev (x ++ after) = some found) : found.taken ≠ x := by
  intro htaken
  have htakes : (urlPattern u).Takes (· = ':') := by
    simp [urlPattern, seqs, Takes, lit]
  have hends : (urlPattern u).EndsMany fun c => !(isSpace c || among "<>'\"[]\x7b\x7d" c) := by
    simp [urlPattern, seqs, many1, EndsMany]
  have hrest := rest_of_endsMany hends (head?_of_firstHit htakes hfound)
  have hsplit := hits_split (firstHit_mem hfound)
  rw [htaken, List.append_cancel_left_eq] at hsplit
  rw [hsplit] at hrest
  cases hhead : after.head? with
  | none =>
      rw [hhead] at hafter
      cases hafter
  | some c =>
      rw [hhead] at hafter hrest
      exact not_url_of_isLetter hafter hrest

theorem validatedPass_last {pattern : Regex} {validator : List Char → Bool} {prev : Option Char}
    {s x : List Char} {found : Hit} (hfound : pattern.firstHit prev s = some found)
    (htaken : found.taken = x) (hx : isAt u.isWord x.getLast? = false) :
    ∃ y d, replaceValidated validator found = y ++ [d] ∧ u.isWord d = false := by
  unfold replaceValidated
  split_ifs
  · exact ⟨"[REDACTED".toList, ']', rfl, isWord_bracket u⟩
  · rw [htaken]
    exact exists_concat (htaken ▸ firstHit_taken_ne_nil hfound) hx

variable (pass) in
/-- Nothing is found where the text begins with none of the characters a pattern begins with. -/
theorem Pass.head_of_starts {P : Char → Prop} (hstarts : pass.pattern.Starts P)
    (hno : ∀ c, inClass c = false → ¬ P c) {prev : Option Char} {s : List Char} {found : Hit}
    (hs : isAt inClass s.head? = false) (hfound : pass.pattern.firstHit prev s = some found) :
    ∃ d y, pass.replace found = d :: y ∧ inClass d = false := by
  obtain ⟨c, hc, hP⟩ := exists_head_of_firstHit hstarts hfound
  rw [Option.mem_def.mp hc] at hs
  exact absurd hP (hno c hs)

/-- A match that is found valid is replaced by the marker, another is left as it is. -/
theorem validatedPass_head {pattern : Regex} {validator : List Char → Bool}
    (hmarker : inClass '[' = false) {prev : Option Char} {s : List Char} {found : Hit}
    (hs : isAt inClass s.head? = false) (hfound : pattern.firstHit prev s = some found) :
    ∃ d y, replaceValidated validator found = d :: y ∧ inClass d = false := by
  unfold replaceValidated
  split_ifs
  · exact ⟨'[', "REDACTED]".toList, rfl, hmarker⟩
  · obtain ⟨c, cs, htaken⟩ := List.exists_cons_of_ne_nil (firstHit_taken_ne_nil hfound)
    have hsplit := hits_split (firstHit_mem hfound)
    rw [htaken, List.cons_append] at hsplit
    rw [← hsplit] at hs
    exact ⟨c, cs, htaken, hs⟩

theorem markerPass_keeps {pattern : Regex}
    (hhead : inClass '[' = false ∨ ∃ P, pattern.Starts P ∧ ∀ c, inClass c = false → ¬ P c) :
    (markerPass pattern).Keeps u inClass where
  last _ _ _ _ _ _ _ _ := Pass.last_of_marker ⟨[], rfl⟩
  head prev s found hs hfound := by
    rcases hhead with hmarker | ⟨P, hstarts, hno⟩
    · exact ⟨'[', "REDACTED]".toList, rfl, hmarker⟩
    · exact Pass.head_of_starts (markerPass pattern) hstarts hno hs hfound

theorem validatedPass_keeps {pattern : Regex} {validator : List Char → Bool}
    (hhead : inClass '[' = false ∨ ∃ P, pattern.Starts P ∧ ∀ c, inClass c = false → ¬ P c) :
    (validatedPass pattern validator).Keeps u inClass where
  last _ _ _ _ _ hfound htaken hx := validatedPass_last hfound htaken hx
  head prev s found hs hfound := by
    rcases hhead with hmarker | ⟨P, hstarts, hno⟩
    · exact validatedPass_head hmarker hs hfound
    · exact Pass.head_of_starts (validatedPass pattern validator) hstarts hno hs hfound

theorem urlPass_keeps (hno : ∀ c, inClass c = false → isLetter c ≠ true) :
    (urlPass u).Keeps u inClass where
  last _ hafter _ _ _ hfound htaken _ := absurd htaken (urlPass_last hafter hfound)
  head _ _ _ hs hfound := Pass.head_of_starts _ (urlPattern_starts u) hno hs hfound

theorem headerPass_keeps (hno : ∀ c, inClass c = false → isLetter c ≠ true) :
    (headerPass u).Keeps u inClass where
  last _ _ _ _ _ _ _ _ := Pass.last_of_marker ⟨_, rfl⟩
  head _ _ _ hs hfound := Pass.head_of_starts _ (headerPattern_starts u) hno hs hfound

theorem assignmentPass_keeps (hno : ∀ c, inClass c = false → isLetter c ≠ true) :
    (assignmentPass u).Keeps u inClass where
  last _ _ _ _ _ _ _ _ := Pass.last_of_marker ⟨_, rfl⟩
  head _ _ _ hs hfound := Pass.head_of_starts _ (assignmentPattern_starts u) hno hs hfound

variable (u) in
/-- Where only stops end a credential, no pass finds anything behind it. -/
theorem piiPasses_keeps_of_stop (hstop : ∀ c, inClass c = false → isStop c = true) :
    ∀ pass ∈ piiPasses u, pass.Keeps u inClass := by
  have hno := fun c hc => not_starts_of_isStop u (hstop c hc)
  have hphone : ∀ c, inClass c = false → ¬ (among "1+(" c = true ∨ u.isDecimal c = true) := by
    intro c hc
    obtain ⟨-, -, -, hsign, hdecimal⟩ := hno c hc
    simp [hsign, hdecimal]
  simp only [piiPasses, List.mem_cons, List.not_mem_nil, or_false, forall_eq_or_imp, forall_eq]
  refine ⟨urlPass_keeps fun c hc => ?_, markerPass_keeps (.inr ⟨_, emailPattern_starts, ?_⟩),
    validatedPass_keeps (.inr ⟨_, creditCardPattern_starts u, ?_⟩),
    validatedPass_keeps (.inr ⟨_, ipv4Pattern_starts u, ?_⟩),
    markerPass_keeps (.inr ⟨_, macPattern_starts, ?_⟩),
    markerPass_keeps (.inr ⟨_, phonePattern_starts u, hphone⟩)⟩
  · simp [(hno c hc).1]
  · intro c hc
    simp [(hno c hc).2.2.1]
  · intro c hc
    simp [(hno c hc).2.2.2.2]
  · intro c hc
    simp [(hno c hc).2.2.2.2]
  · intro c hc
    simp [(hno c hc).2.1]

variable (u) in
/-- Where neither a letter nor the marker goes on a credential, nor does a replacement. -/
theorem piiPasses_keeps_of_bracket (hno : ∀ c, inClass c = false → isLetter c ≠ true)
    (hmarker : inClass '[' = false) : ∀ pass ∈ piiPasses u, pass.Keeps u inClass := by
  simp only [piiPasses, List.mem_cons, List.not_mem_nil, or_false, forall_eq_or_imp, forall_eq]
  exact ⟨urlPass_keeps hno, markerPass_keeps (.inl hmarker), validatedPass_keeps (.inl hmarker),
    validatedPass_keeps (.inl hmarker), markerPass_keeps (.inl hmarker),
    markerPass_keeps (.inl hmarker)⟩

theorem isStop_of_not_credential {kind : Introducer} (hkind : kind ≠ .bearer) {c : Char}
    (hc : kind.credential c = false) : isStop c = true := by
  have hsign : ∀ signs : String, (∀ d ∈ signs.toList, isStop d = true) → among signs c = true →
      isStop c = true := fun signs hall hmem => hall c (List.contains_iff_mem.mp hmem)
  cases kind with
  | header =>
      have hc' : among "\r\n,\x7d" c = true := by simpa [Introducer.credential] using hc
      exact hsign _ (forall_of_all (by decide +kernel)) hc'
  | assignment =>
      have hc' : isSpace c = true ∨ among "\"',;\x7d" c = true := by
        simpa [Introducer.credential, or_iff_not_imp_left] using hc
      rcases hc' with hspace | hc'
      · rw [isStop, hspace, Bool.true_or]
      · exact hsign _ (forall_of_all (by decide +kernel)) hc'
  | bearer => exact absurd rfl hkind

/-- Every letter goes on a credential. -/
theorem not_isLetter_of_not_credential {kind : Introducer} {c : Char}
    (hc : kind.credential c = false) : isLetter c ≠ true := by
  intro hletter
  by_cases hkind : kind = .bearer
  · subst hkind
    simp only [Introducer.credential, alnumOr, ignoreCase, Bool.or_eq_false_iff] at hc
    rw [isLetter, hc.1.1] at hletter
    cases hletter
  · rw [(not_starts_of_isStop .ascii (isStop_of_not_credential hkind hc)).1] at hletter
    cases hletter

variable (u) in
/-- No pass before the own one disturbs the edges of a credential. -/
theorem passesBefore_keeps (kind : Introducer) :
    ∀ pass ∈ kind.passesBefore u, pass.Keeps u kind.credential := by
  have hno : ∀ c, kind.credential c = false → isLetter c ≠ true :=
    fun c => not_isLetter_of_not_credential
  cases kind with
  | header => exact piiPasses_keeps_of_stop u fun c => isStop_of_not_credential (by decide)
  | assignment =>
      intro pass hpass
      rcases List.mem_append.mp hpass with hpii | hheader
      · have hstop : ∀ c, Introducer.assignment.credential c = false → isStop c = true :=
          fun c => isStop_of_not_credential (by decide)
        exact piiPasses_keeps_of_stop u hstop pass hpii
      · rw [List.mem_singleton.mp hheader]
        exact headerPass_keeps hno
  | bearer =>
      intro pass hpass
      rcases List.mem_append.mp hpass with hpii | hlast
      · exact piiPasses_keeps_of_bracket u hno (by decide) pass hpii
      · rcases List.mem_cons.mp hlast with rfl | hassignment
        · exact headerPass_keeps hno
        · rw [List.mem_singleton.mp hassignment]
          exact assignmentPass_keeps hno

end Keeps

section Names

variable {prev : Option Char} {text rest : List Char}

theorem leads_word {w : String} (h : Spells w text) : (word w).Leads prev text rest [] := by
  unfold word
  unfold Spells at h
  generalize w.toList = ds at h
  induction ds generalizing text prev with
  | nil =>
      obtain rfl := List.map_eq_nil_iff.mp h
      rfl
  | cons d ds ih =>
      obtain ⟨c, cs, rfl, hfold, hcs⟩ := List.map_eq_cons_iff.mp h
      have hc : (chr (ignoreCase (· == d))).Leads prev [c] (cs ++ rest) [] :=
        .chr (by rw [ignoreCase, hfold, beq_self_eq_true])
      cases ds with
      | nil =>
          obtain rfl := List.map_eq_nil_iff.mp hcs
          exact hc
      | cons d' ds => exact Leads.seq hc (ih hcs)

theorem spells_of_hit {w : String} {h : Hit} (hm : h ∈ (word w).hits prev text) :
    Spells w h.taken := by
  unfold word at hm
  unfold Spells
  generalize w.toList = ds at hm
  induction ds generalizing text prev h with
  | nil =>
      rw [List.mem_singleton.mp hm]
      rfl
  | cons d ds ih =>
      have hchr : ∀ {prev s g}, g ∈ (chr (ignoreCase (· == d))).hits prev s →
          g.taken.map foldCase = [d] := by
        intro prev s g hg
        cases s with
        | nil => cases hg
        | cons c cs =>
            simp only [hits] at hg
            split_ifs at hg with hc
            · rw [List.mem_singleton.mp hg, List.map_singleton]
              rw [ignoreCase, beq_iff_eq] at hc
              rw [hc]
            · cases hg
      cases ds with
      | nil => exact hchr hm
      | cons d' ds =>
          obtain ⟨a, ha, htail⟩ := List.mem_flatMap.mp hm
          obtain ⟨b, hb, rfl⟩ := List.mem_map.mp htail
          have hrest := ih hb
          rw [List.map_append, hchr ha, hrest]
          rfl

theorem hits_word_eq_nil {w : String} (h : ¬ w.toList <+: text.map foldCase) :
    (word w).hits prev text = [] := by
  rw [List.eq_nil_iff_forall_not_mem]
  intro a ha
  apply h
  rw [← hits_split ha, List.map_append, spells_of_hit ha]
  exact List.prefix_append _ _

/-- The expression for one of several names. -/
def nameRegex : String × Option String → Regex
  | (w, none) => word w
  | (first, some last) => joined first last

/-- No name begins with another one, and second words begin with a letter. -/
structure Apart (names : List (String × Option String)) : Prop where
  first : names.Pairwise fun a b => ¬ a.1.toList <+: b.1.toList ∧ ¬ b.1.toList <+: a.1.toList
  second : ∀ name ∈ names, ∀ last ∈ name.2, isAt lowerAlpha last.toList.head? = true

theorem leads_nameRegex {first second between : List Char} {w last : String}
    (hlast : isAt lowerAlpha last.toList.head? = true) (hfirst : Spells w first)
    (hsecond : Spells last second)
    (hbetween : between = [] ∨ ∃ c, between = [c] ∧ among "_ -" c = true) :
    (joined w last).Leads prev (first ++ (between ++ second)) rest [] := by
  have hopt : (opt (chr (among "_ -"))).Leads (first.getLast?.or prev) between (second ++ rest)
      [] := ?_
  · have htail := Leads.seq hopt (leads_word hsecond)
    exact Leads.seq (leads_word hfirst) htail
  rcases hbetween with rfl | ⟨c, rfl, hc⟩
  · apply Leads.opt_none
    apply hits_chr_eq_nil
    rw [← hsecond, List.head?_map] at hlast
    cases second with
    | nil => cases hlast
    | cons c cs =>
        have hletter : lowerAlpha (foldCase c) = true := hlast
        have hall : ∀ d ∈ "_ -".toList, lowerAlpha (foldCase d) = false :=
          forall_of_all (by decide +kernel)
        show among "_ -" c = false
        by_contra hc
        rw [Bool.not_eq_false] at hc
        rw [hall c (List.contains_iff_mem.mp hc)] at hletter
        cases hletter
  · exact .alt_left (.chr hc)

/-- The alternatives of a pattern find the name that a text begins with. -/
theorem leads_names {names : List (String × Option String)} (hapart : Apart names)
    (h : Names names text) : (alts (names.map nameRegex)).Leads prev text rest [] := by
  obtain ⟨name, hname, hspells⟩ := h
  have hletter := hapart.second name hname
  obtain ⟨before, after, rfl⟩ := List.append_of_mem hname
  have hpair := (List.pairwise_append.mp hapart.first).2.2
  rw [List.map_append, List.map_cons]
  have hprefix : name.1.toList <+: (text ++ rest).map foldCase := by
    obtain ⟨w, last⟩ := name
    cases last with
    | none =>
        have hw : Spells w text := hspells
        rw [List.map_append, hw]
        exact List.prefix_append _ _
    | some last =>
        obtain ⟨first, between, second, rfl, hfirst, -⟩ := hspells
        rw [List.append_assoc, List.map_append, hfirst]
        exact List.prefix_append _ _
  apply Leads.alts
  · intro t ht
    obtain ⟨other, hother, rfl⟩ := List.mem_map.mp ht
    have hnone := hpair other hother name List.mem_cons_self
    have hword : (word other.1).hits prev (text ++ rest) = [] := by
      apply hits_word_eq_nil
      intro hother
      rcases List.prefix_or_prefix_of_prefix hother hprefix with hle | hle
      · exact hnone.1 hle
      · exact hnone.2 hle
    obtain ⟨w, last⟩ := other
    cases last with
    | none => exact hword
    | some last => exact hits_seq_eq_nil hword
  · obtain ⟨w, last⟩ := name
    cases last with
    | none => exact leads_word hspells
    | some last =>
        obtain ⟨first, between, second, rfl, hfirst, hsecond, hbetween⟩ := hspells
        exact leads_nameRegex (hletter last rfl) hfirst hsecond hbetween

theorem secretNames_apart : Apart secretNames := ⟨by decide, by decide⟩

theorem headerNames_apart : Apart headerNames := ⟨by decide, by decide⟩

end Names

section OwnPass

variable (u : UnicodeData) {prev : Option Char} {k c s : List Char}

/-- A credential behind an introducer of a kind. -/
structure Introducer.IsCredential (kind : Introducer) (c : List Char) : Prop where
  nonempty : c ≠ []
  inClass : ∀ d ∈ c, kind.credential d = true

/-- The character in front of which the white space of an introducer ends. -/
theorem isAt_append (w : Char → Bool) (hne : c ≠ []) : isAt w (c ++ s).head? = isAt w c.head? := by
  obtain ⟨d, ds, rfl⟩ := List.exists_cons_of_ne_nil hne
  rfl

theorem not_isSpace_of_among {signs : String} (hall : ∀ d ∈ signs.toList, isSpace d = false)
    {d : Char} (hd : among signs d = true) : isSpace d = false :=
  hall d (List.contains_iff_mem.mp hd)

theorem Introducer.Introduces.ne_nil {kind : Introducer} (h : kind.Introduces u k) : k ≠ [] := by
  cases kind with
  | header =>
      obtain ⟨name, blanks, blanks', rfl, -⟩ := h
      simp
  | assignment =>
      obtain ⟨name, blanks, sign, blanks', quote, rfl, -⟩ := h
      simp
  | bearer =>
      obtain ⟨name, blanks, rfl, -, hne, -⟩ := h
      simp [hne]

/-- The pattern of a kind takes the introducer and the credential and no more, and its groups are
parts of the introducer. -/
theorem Introducer.Introduces.leads {kind : Introducer} (h : kind.Introduces u k)
    (hword : isAt u.isWord k.head? = true) (hprev : isAt u.isWord prev = false) :
    ∃ groups, ∀ c s, kind.IsCredential c → isAt isSpace c.head? = false →
      isAt kind.credential s.head? = false →
        (kind.pass u).pattern.Leads prev (k ++ c) s groups := by
  have hboundary : ∀ rest, (boundary u.isWord).Leads prev [] (k ++ rest) [] := by
    intro rest
    apply Leads.boundary
    rw [isAt_append _ h.ne_nil, hprev, hword]
    exact Bool.false_ne_true
  cases kind with
  | header =>
      obtain ⟨name, blanks, blanks', rfl, hname, hblanks, hblanks'⟩ := h
      refine ⟨[(1, name), (2, blanks ++ ':' :: blanks')], fun c s hc hink hs => ?_⟩
      have hbefore : (many isSpace).Leads (name.getLast?.or prev) blanks
          ([':'] ++ blanks' ++ (c ++ s)) [] := .many hblanks (by rfl)
      have hcolon : (lit ':').Leads (blanks.getLast?.or (name.getLast?.or prev)) [':']
          (blanks' ++ (c ++ s)) [] := .chr (beq_self_eq_true ':')
      have hafter : (many isSpace).Leads (some ':') blanks' (c ++ s) [] :=
        .many hblanks' (by rw [isAt_append _ hc.nonempty, hink])
      have hvalue : (many1 (Introducer.credential .header)).Leads
          ((blanks ++ ':' :: blanks').getLast?.or (name.getLast?.or prev)) c s [] :=
        .many1 hc.nonempty hc.inClass hs
      have hsign : (group 2 (seqs [many isSpace, lit ':', many isSpace])).Leads
          (name.getLast?.or prev) (blanks ++ ':' :: blanks') (c ++ s)
            [(2, blanks ++ ':' :: blanks')] :=
        .group (Leads.seq hbefore (Leads.seq hcolon hafter))
      have hgroup : (group 1 (alts (headerNames.map nameRegex))).Leads prev name
          (blanks ++ ':' :: blanks' ++ c ++ s) [(1, name)] :=
        .group (leads_names headerNames_apart hname)
      have hstart := hboundary (c ++ s)
      rw [← List.append_assoc, List.append_assoc name] at hstart
      rw [List.append_assoc]
      exact Leads.seq hstart (Leads.seq hgroup (Leads.seq hsign hvalue))
  | assignment =>
      obtain ⟨name, blanks, sign, blanks', quote, rfl, hname, hend, hblanks, hsign, hblanks',
        hquote⟩ := h
      refine ⟨[(1, name ++ (blanks ++ sign :: (blanks' ++ quote)))], fun c s hc hink hs => ?_⟩
      have hopen : (opt (chr (among "\"'"))).Leads
          (blanks'.getLast?.or (some sign)) quote (c ++ s) [] := by
        rcases hquote with rfl | ⟨q, rfl, hq⟩
        · apply Leads.opt_none
          apply hits_chr_eq_nil
          obtain ⟨d, ds, rfl⟩ := List.exists_cons_of_ne_nil hc.nonempty
          have hd := hc.inClass d List.mem_cons_self
          rw [Introducer.credential, Bool.not_eq_true', Bool.or_eq_false_iff] at hd
          have hall : ∀ q ∈ "\"'".toList, among "\"',;\x7d" q = true :=
            forall_of_all (by decide +kernel)
          show among "\"'" d = false
          by_contra hq
          rw [Bool.not_eq_false] at hq
          rw [hall d (List.contains_iff_mem.mp hq)] at hd
          cases hd.2
        · exact .alt_left (.chr hq)
      have hnospace : isAt isSpace (quote ++ (c ++ s)).head? = false := by
        rcases hquote with rfl | ⟨q, rfl, hq⟩
        · rw [List.nil_append, isAt_append _ hc.nonempty, hink]
        · exact not_isSpace_of_among (forall_of_all (by decide +kernel)) hq
      have hafter : (many isSpace).Leads (some sign) blanks' (quote ++ (c ++ s)) [] :=
        .many hblanks' hnospace
      have hsign' : (chr (among "=:")).Leads (blanks.getLast?.or (name.getLast?.or prev)) [sign]
          (blanks' ++ quote ++ (c ++ s)) [] := .chr hsign
      have hbefore : (many isSpace).Leads (name.getLast?.or prev) blanks
          ([sign] ++ (blanks' ++ quote) ++ (c ++ s)) [] :=
        .many hblanks (not_isSpace_of_among (forall_of_all (by decide +kernel)) hsign)
      have hnames : (alts (secretNames.map nameRegex)).Leads prev name
          (blanks ++ ([sign] ++ (blanks' ++ quote)) ++ (c ++ s)) [] :=
        leads_names secretNames_apart hname
      have hedge : (boundary u.isWord).Leads (name.getLast?.or prev) []
          (blanks ++ ([sign] ++ (blanks' ++ quote)) ++ (c ++ s)) [] := by
        apply Leads.boundary
        have hlast : isAt u.isWord (name.getLast?.or prev) = isAt u.isWord name.getLast? := by
          cases name.getLast? with
          | none => exact hprev
          | some d => rfl
        have hhead : (blanks ++ ([sign] ++ (blanks' ++ quote)) ++ (c ++ s)).head? =
            (blanks ++ [sign]).head? := by
          cases blanks <;> rfl
        rw [hlast, hhead]
        exact hend
      have hvalue : (many1 (Introducer.credential .assignment)).Leads
          ((name ++ (blanks ++ sign :: (blanks' ++ quote))).getLast?.or prev) c s [] :=
        .many1 hc.nonempty hc.inClass hs
      have htail : (Regex.seq _ _).Leads (name.getLast?.or prev)
          (blanks ++ ([sign] ++ (blanks' ++ quote))) (c ++ s) [] :=
        Leads.seq hbefore (Leads.seq hsign' (Leads.seq hafter hopen))
      have hrest : (Regex.seq _ _).Leads (name.getLast?.or prev)
          (blanks ++ ([sign] ++ (blanks' ++ quote))) (c ++ s) [] := Leads.seq hedge htail
      have hgroup : (Regex.seq _ _).Leads prev (name ++ (blanks ++ ([sign] ++ (blanks' ++ quote))))
          (c ++ s) [] := Leads.seq (hboundary (c ++ s)) (Leads.seq hnames hrest)
      exact Leads.seq (.group hgroup) hvalue
  | bearer =>
      obtain ⟨name, blanks, rfl, hname, hne, hblanks⟩ := h
      refine ⟨[(1, name)], fun c s hc hink hs => ?_⟩
      have hvalue : (many1 (Introducer.credential .bearer)).Leads
          (blanks.getLast?.or (name.getLast?.or prev)) c s [] := .many1 hc.nonempty hc.inClass hs
      have hblank : (many1 isSpace).Leads (name.getLast?.or prev) blanks (c ++ s) [] :=
        .many1 hne hblanks (by rw [isAt_append _ hc.nonempty, hink])
      have hgroup : (group 1 (word "bearer")).Leads prev name (blanks ++ c ++ s) [(1, name)] :=
        .group (leads_word hname)
      have hstart := hboundary (c ++ s)
      rw [← List.append_assoc, List.append_assoc name] at hstart
      rw [List.append_assoc]
      exact Leads.seq hstart (Leads.seq hgroup (Leads.seq hblank hvalue))

end OwnPass

section Alike

variable {u : UnicodeData} {kind : Introducer} {p k c₁ c₂ s : List Char}

/-- The introducer and a credential behind `p`. -/
structure Introducer.At (u : UnicodeData) (kind : Introducer) (p k : List Char) : Prop where
  introduces : kind.Introduces u k
  behind : isAt u.isWord p.getLast? = false
  word : isAt u.isWord k.head? = true

theorem isLetter_of_spells {w : String} (hw : isAt lowerAlpha w.toList.head? = true)
    {text : List Char} (h : Spells w text) : isAt isLetter text.head? = true := by
  rw [← h, List.head?_map] at hw
  cases text with
  | nil => cases hw
  | cons c cs => exact hw

theorem isLetter_of_names {names : List (String × Option String)}
    (hletters : ∀ name ∈ names, isAt lowerAlpha name.1.toList.head? = true) {text : List Char}
    (h : Names names text) : isAt isLetter text.head? = true := by
  obtain ⟨⟨w, last⟩, hname, hspells⟩ := h
  have hw := hletters _ hname
  cases last with
  | none => exact isLetter_of_spells hw hspells
  | some last =>
      obtain ⟨first, between, second, rfl, hfirst, -⟩ := hspells
      have hletter := isLetter_of_spells hw hfirst
      cases first with
      | nil => cases hletter
      | cons c cs => exact hletter

/-- Introducers begin with a letter. -/
theorem Introducer.Introduces.letter (h : kind.Introduces u k) :
    isAt isLetter k.head? = true := by
  have happend : ∀ name rest : List Char, isAt isLetter name.head? = true →
      isAt isLetter (name ++ rest).head? = true := by
    intro name rest hname
    cases name with
    | nil => cases hname
    | cons c cs => exact hname
  cases kind with
  | header =>
      obtain ⟨name, blanks, blanks', rfl, hname, -⟩ := h
      exact happend _ _ (isLetter_of_names (by decide) hname)
  | assignment =>
      obtain ⟨name, blanks, sign, blanks', quote, rfl, hname, -⟩ := h
      exact happend _ _ (isLetter_of_names (by decide) hname)
  | bearer =>
      obtain ⟨name, blanks, rfl, hname, -⟩ := h
      exact happend _ _ (isLetter_of_spells (by decide) hname)

/-- One pass leaves the introducer and the credentials, and what is around them is the same for
both. -/
theorem exists_around {pass : Pass} {own : Pass} {passes : List Pass}
    (hkeeps : pass.Keeps u kind.credential) (hk : kind.At u p k)
    (hs : isAt kind.credential s.head? = false)
    (h : Introducer.Spared k c₁ c₂ own (pass :: passes) p s) :
    ∃ p' s', pass.run (p ++ (k ++ c₁ ++ s)) = p' ++ (k ++ c₁ ++ s') ∧
      pass.run (p ++ (k ++ c₂ ++ s)) = p' ++ (k ++ c₂ ++ s') ∧ kind.At u p' k ∧
        isAt kind.credential s'.head? = false ∧ Introducer.Spared k c₁ c₂ own passes p' s' := by
  obtain ⟨hfirst, hsome, ⟨p', s'⟩, haround, hrest⟩ := h
  obtain ⟨found, hfound⟩ := Option.isSome_iff_exists.mp hsome
  have hne := hk.introduces.ne_nil
  have hhead : ∀ c, (k ++ c ++ s).head? = k.head? := by
    intro c
    obtain ⟨d, ds, rfl⟩ := List.exists_cons_of_ne_nil hne
    rfl
  obtain rfl := around_congr ((hhead c₁).trans (hhead c₂).symm) hfirst haround hfound
  obtain ⟨hp', -, hs'⟩ := around_eq_some haround
  have hletter : isAt Redaction.isLetter (k ++ c₁ ++ s).head? = true := by
    rw [hhead]
    exact hk.introduces.letter
  have hlast : isAt u.isWord (behind none p') = false := by
    apply isAt_behind_of_subWithin hp'
    · rw [behind, Option.or_none]
      exact hk.behind
    · exact hkeeps.last _ hletter
  rw [behind, Option.or_none] at hlast
  refine ⟨p', s', run_of_around haround, run_of_around hfound, ⟨hk.introduces, hlast, hk.word⟩, ?_,
    hrest⟩
  rw [hs']
  exact isAt_head_subFrom hs fun found hfound => hkeeps.head _ _ found hs hfound

/-- The passes before the own one leave the introducer and the credentials. -/
theorem exists_runAll {own : Pass} {passes : List Pass}
    (hkeeps : ∀ pass ∈ passes, pass.Keeps u kind.credential) (hk : kind.At u p k)
    (hs : isAt kind.credential s.head? = false)
    (h : Introducer.Spared k c₁ c₂ own passes p s) :
    ∃ p' s', runAll passes (p ++ (k ++ c₁ ++ s)) = p' ++ (k ++ c₁ ++ s') ∧
      runAll passes (p ++ (k ++ c₂ ++ s)) = p' ++ (k ++ c₂ ++ s') ∧ kind.At u p' k ∧
        isAt kind.credential s'.head? = false ∧ Introducer.Spared k c₁ c₂ own [] p' s' := by
  induction passes generalizing p s with
  | nil => exact ⟨p, s, rfl, rfl, hk, hs, h⟩
  | cons pass passes ih =>
      obtain ⟨p₁, s₁, hrun₁, hrun₂, hk₁, hs₁, hrest⟩ :=
        exists_around (hkeeps pass List.mem_cons_self) hk hs h
      have hlater := fun later hmem => hkeeps later (List.mem_cons_of_mem pass hmem)
      obtain ⟨p', s', hall₁, hall₂, hfinal⟩ := ih hlater hk₁ hs₁ hrest
      refine ⟨p', s', ?_, ?_, hfinal⟩
      · rw [← hall₁, ← hrun₁]
        rfl
      · rw [← hall₂, ← hrun₂]
        rfl

variable (u) in
theorem pass_starts (kind : Introducer) :
    (kind.pass u).pattern.Starts fun c => isLetter c = true := by
  cases kind with
  | header => exact headerPattern_starts u
  | assignment => exact assignmentPattern_starts u
  | bearer => exact bearerPattern_starts u

/-- The own pass puts the same in the place of both credentials. -/
theorem run_pass_congr (hk : kind.At u p k) (hc₁ : kind.IsCredential c₁)
    (hc₂ : kind.IsCredential c₂) (hink : ∀ c ∈ [c₁, c₂], isAt isSpace c.head? = false)
    (hs : isAt kind.credential s.head? = false)
    (h : Introducer.Spared k c₁ c₂ (kind.pass u) [] p s) :
    (kind.pass u).run (p ++ (k ++ c₁ ++ s)) = (kind.pass u).run (p ++ (k ++ c₂ ++ s)) := by
  have hbehind : isAt u.isWord (behind none p) = false := by
    rw [behind, Option.or_none]
    exact hk.behind
  obtain ⟨groups, hleads⟩ := hk.introduces.leads u hk.word hbehind
  have hnone : ∀ prev, (kind.pass u).pattern.firstHit prev s = none := by
    intro prev
    apply firstHit_eq_none_of_starts (pass_starts u kind)
    intro c hc
    rw [Option.mem_def.mp hc] at hs
    exact not_isLetter_of_not_credential hs
  have hrun : ∀ c ∈ [c₁, c₂], kind.IsCredential c → ∀ p',
      (kind.pass u).within none p (k ++ c ++ s) = some p' →
        (kind.pass u).run (p ++ (k ++ c ++ s)) =
          p' ++ ((kind.pass u).replace ⟨k, [], groups⟩ ++
            subFrom (kind.pass u).pattern (kind.pass u).replace 0 none s) := by
    intro c hmem hc p' hp'
    have hne : k ++ c ≠ [] := by simp [hc.nonempty]
    have hfirst := firstHit_of_head? hne (hleads c s hc (hink c hmem) hs)
    rw [Pass.run, sub, subFrom_append hp', subFrom_of_firstHit hne hfirst,
      subFrom_prev ((hnone _).trans (hnone none).symm)]
    have hgroups : (kind.pass u).replace ⟨k ++ c, s, groups⟩ =
        (kind.pass u).replace ⟨k, [], groups⟩ := by
      cases kind <;> rfl
    rw [hgroups]
  obtain ⟨h₁, h₂⟩ := h
  obtain ⟨p₁, hp₁⟩ := Option.isSome_iff_exists.mp h₁
  obtain ⟨p₂, hp₂⟩ := Option.isSome_iff_exists.mp h₂
  have hhead : (k ++ c₁ ++ s).head? = (k ++ c₂ ++ s).head? := by
    obtain ⟨d, ds, rfl⟩ := List.exists_cons_of_ne_nil hk.introduces.ne_nil
    rfl
  have hsame : p₁ = p₂ := subWithin_congr (kind.pass u).reads hhead hp₁ hp₂
  rw [hrun c₁ (by simp) hc₁ p₁ hp₁, hrun c₂ (by simp) hc₂ p₂ hp₂, hsame]

theorem bearer_at : Introducer.bearer.At .ascii [] "Bearer ".toList where
  introduces := ⟨"Bearer".toList, [' '], rfl, rfl, by decide, forall_of_all (by decide)⟩
  behind := rfl
  word := rfl

end Alike

end CryptoAlert.Redaction
