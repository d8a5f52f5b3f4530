import CryptoAlert.Lib.Regex
import CryptoAlert.Lib.Text
import CryptoAlert.Lib.Url

/-!
# Redaction of free text

The patterns and the order of substitutions of `redact_text`. Every substitution replaces a
match by a text that is not blank, so redaction never turns a text with content into a blank
one; it may, however, make a text longer.
-/

namespace CryptoAlert.Redaction

open Regex Text Url

/-- The marker that stands for removed text. -/
def redactedMarker : List Char := "[REDACTED]".toList

def among (s : String) (c : Char) : Bool := s.toList.contains c

def lowerAlpha (c : Char) : Bool := 'a' ≤ c && c ≤ 'z'

def digit (c : Char) : Bool := '0' ≤ c && c ≤ '9'

def hexDigit (c : Char) : Bool := digit c || ('a' ≤ c && c ≤ 'f')

/-- A literal under the case-insensitive flag. -/
def word (s : String) : Regex :=
  seqs (s.toList.map fun d => chr (ignoreCase (· == d)))

def lit (c : Char) : Regex := chr (· == c)

/-- The class `[a-z0-9…]` under the case-insensitive flag. -/
def alnumOr (s : String) : Char → Bool :=
  ignoreCase fun c => lowerAlpha c || digit c || among s c

section Patterns

variable (u : UnicodeData)

def urlPattern : Regex :=
  seqs [boundary u.isWord, chr (ignoreCase lowerAlpha), many (alnumOr "+.-"),
    lit ':', lit '/', lit '/', many1 fun c => !(isSpace c || among "<>'\"[]\x7b\x7d" c)]

def bearerPattern : Regex :=
  seqs [boundary u.isWord, group 1 (word "bearer"), many1 isSpace, many1 (alnumOr "._~+/=-")]

def headerPattern : Regex :=
  seqs [boundary u.isWord,
    group 1 (alts (["authorization", "proxy-authorization", "cookie", "set-cookie",
      "x-api-key"].map word)),
    group 2 (seqs [many isSpace, lit ':', many isSpace]),
    many1 fun c => !(among "\r\n,\x7d" c)]

/-- Two words with at most one of `_`, blank and `-` between them. -/
def joined (a b : String) : Regex := seqs [word a, opt (chr (among "_ -")), word b]

def assignmentPattern : Regex :=
  seqs [
    group 1 (seqs [boundary u.isWord,
      alts [joined "api" "key", joined "access" "token", joined "refresh" "token",
        joined "client" "secret", joined "device" "key", joined "local" "token",
        word "passphrase", word "password", joined "private" "key", word "secret",
        word "token"],
      boundary u.isWord, many isSpace, chr (among "=:"), many isSpace, opt (chr (among "\"'"))]),
    many1 fun c => !(isSpace c || among "\"',;\x7d" c)]

def atLeast (n : Nat) (p : Char → Bool) : Regex := seq (times n (chr p)) (many p)

def knownTokenPattern : Regex :=
  alt
    (seqs [boundary u.isWord, alt (word "sk") (word "pk"), lit '-', opt (word "lf-"),
      atLeast 8 (alnumOr "_-"), boundary u.isWord])
    (seqs [boundary u.isWord, word "lsv2_", atLeast 8 (alnumOr "_-"), boundary u.isWord])

def emailPattern : Regex :=
  seqs [notAfter (alnumOr "._%+-"), many1 (alnumOr "._%+-"), lit '@', many1 (alnumOr ".-"),
    lit '.', atLeast 2 (ignoreCase lowerAlpha), notBefore (alnumOr "._%+-")]

def creditCardPattern : Regex :=
  seqs [notAfter u.isDecimal,
    between 12 18 (seq (chr u.isDecimal) (opt (chr (among " -")))), chr u.isDecimal,
    notBefore u.isDecimal]

def ipv4Pattern : Regex :=
  let digitOrDot := fun c => u.isDecimal c || c == '.'
  let octet := between 1 3 (chr u.isDecimal)
  seqs [notAfter digitOrDot, times 3 (seq octet (lit '.')), octet, notBefore digitOrDot]

def macPattern : Regex :=
  let pair := times 2 (chr (ignoreCase hexDigit))
  seqs [notAfter (ignoreCase hexDigit), times 5 (seq pair (chr (among ":-"))), pair,
    notBefore (ignoreCase hexDigit)]

def phonePattern : Regex :=
  alt
    (seqs [boundary u.isWord, lit '1', chr (fun c => '3' ≤ c && c ≤ '9'),
      times 9 (chr u.isDecimal), boundary u.isWord])
    (seqs [opt (seqs [lit '+', between 1 3 (chr u.isDecimal), opt (chr (among " .-"))]),
      opt (lit '('), between 2 4 (chr u.isDecimal), opt (lit ')'), chr (among " .-"),
      between 3 4 (chr u.isDecimal), chr (among " .-"), times 4 (chr u.isDecimal),
      boundary u.isWord])

end Patterns

section Redact

variable (u : UnicodeData)

def cleanNetloc (parts : SplitResult) : List Char :=
  match parts.hostname u with
  | none => []
  | some hostname =>
      let rendered := if hostname.contains ':' then '[' :: hostname ++ [']'] else hostname
      match parts.port with
      | some port => rendered ++ ':' :: (toString port).toList
      | none => rendered

def redactUrl (value : List Char) : List Char :=
  match urlsplit u value with
  | none => redactedMarker
  | some parts =>
      if parts.scheme.isEmpty || parts.netloc.isEmpty then value
      else
        let hidden := u.casefold ((parts.hostname u).getD []) == "api.day.app".toList &&
          !(["", "/", "/push"].contains (String.ofList parts.path))
        let path := if hidden then '/' :: redactedMarker else parts.path
        urlunsplit parts.scheme (cleanNetloc u parts) path

/-- Trailing punctuation is not part of the URL. -/
def replaceUrl (m : Hit) : List Char :=
  let trailing := among ".),;"
  redactUrl u (m.taken.rdropWhile trailing) ++ m.taken.rtakeWhile trailing

/-- The Luhn checksum; `parity` says whether the head of the list is doubled. -/
def luhnSum : Bool → List Nat → Nat
  | _, [] => 0
  | true, d :: ds => (if 2 * d > 9 then 2 * d - 9 else 2 * d) + luhnSum false ds
  | false, d :: ds => d + luhnSum true ds

def isCreditCard (value : List Char) : Bool :=
  let digits := value.filterMap u.decimal
  13 ≤ digits.length && digits.length ≤ 19 &&
    luhnSum (digits.length % 2 == 0) digits % 10 == 0

def splitOn (c : Char) : List Char → List (List Char)
  | [] => [[]]
  | d :: ds =>
      match splitOn c ds with
      | [] => [[]]
      | part :: parts => if d == c then [] :: part :: parts else (d :: part) :: parts

def isOctet (octet : List Char) : Bool :=
  !octet.isEmpty && octet.all Char.isDigit && octet.length ≤ 3 &&
    (octet == ['0'] || octet.head? != some '0') &&
    octet.foldl (fun n c => 10 * n + (c.toNat - 48)) 0 ≤ 255

/-- The candidates hold no colon, so only the dotted form can be an address. -/
def isIpAddress (value : List Char) : Bool :=
  let octets := splitOn '.' value
  octets.length == 4 && octets.all isOctet

def replaceValidated (validator : List Char → Bool) (m : Hit) : List Char :=
  if validator m.taken then redactedMarker else m.taken

def constantly (text : List Char) (_ : Hit) : List Char := text

def redactPii (value : List Char) : List Char :=
  let redacted := emailPattern.sub (constantly redactedMarker) value
  let redacted := (creditCardPattern u).sub (replaceValidated (isCreditCard u)) redacted
  let redacted := (ipv4Pattern u).sub (replaceValidated isIpAddress) redacted
  let redacted := macPattern.sub (constantly redactedMarker) redacted
  (phonePattern u).sub (constantly redactedMarker) redacted

def redactChars (value : List Char) : List Char :=
  let redacted := (urlPattern u).sub (replaceUrl u) value
  let redacted := redactPii u redacted
  let redacted := (headerPattern u).sub
    (fun m => m.group 1 ++ m.group 2 ++ redactedMarker) redacted
  let redacted := (assignmentPattern u).sub (fun m => m.group 1 ++ redactedMarker) redacted
  let redacted := (bearerPattern u).sub (fun m => m.group 1 ++ ' ' :: redactedMarker) redacted
  (knownTokenPattern u).sub (constantly redactedMarker) redacted

def redactText (value : String) : String := String.ofList (redactChars u value.toList)

theorem redactUrl_cases (value : List Char) :
    redactUrl u value = redactedMarker ∨ redactUrl u value = value ∨
      ':' ∈ redactUrl u value := by
  unfold redactUrl
  cases hu : urlsplit u value with
  | none => exact Or.inl rfl
  | some parts =>
      by_cases hn : (parts.scheme.isEmpty || parts.netloc.isEmpty) = true
      · exact Or.inr (Or.inl (if_pos hn))
      · have hscheme : parts.scheme ≠ [] := by
          intro h
          simp [h] at hn
        apply Or.inr
        apply Or.inr
        simp only [hn, Bool.false_eq_true, if_false]
        obtain ⟨rest, hrest⟩ := urlunsplit_scheme hscheme (cleanNetloc u parts) _
        rw [hrest]
        simp

theorem creditCardPattern_takes :
    (creditCardPattern u).Takes fun c => isWhiteSpace c = false := by
  simp only [creditCardPattern, seqs, Takes]
  exact Or.inr (Or.inr (Or.inl u.decimal_not_whiteSpace))

theorem ipv4Pattern_takes :
    (ipv4Pattern u).Takes fun c => isWhiteSpace c = false := by
  simp only [ipv4Pattern, seqs, Takes, between, times]
  exact Or.inr (Or.inr (Or.inl (Or.inl (Or.inl u.decimal_not_whiteSpace))))

section Content

/-! A kind of character that includes everything but white space survives redaction. -/

variable {u} {p : Char → Bool} (hp : ∀ c, isWhiteSpace c = false → p c = true)

include hp

theorem exists_mem_redactedMarker : ∃ c ∈ redactedMarker, p c = true :=
  ⟨'R', by decide, hp 'R' (by decide)⟩

theorem exists_mem_replaceUrl {prev : Option Char} {s : List Char} {m : Hit}
    (hm : (urlPattern u).firstHit prev s = some m) : ∃ c ∈ replaceUrl u m, p c = true := by
  have hcolon : ':' ∈ m.taken := by
    have htakes : (urlPattern u).Takes (· = ':') := by
      simp [urlPattern, seqs, Takes, lit]
    obtain ⟨c, hc, rfl⟩ := exists_mem_of_takes htakes (firstHit_mem hm)
    exact hc
  have hraw : ':' ∈ m.taken.rdropWhile (among ".),;") := mem_rdropWhile_of_not hcolon (by decide)
  unfold replaceUrl
  rcases redactUrl_cases u (m.taken.rdropWhile (among ".),;")) with hr | hr | hr
  · obtain ⟨c, hc, hpc⟩ := exists_mem_redactedMarker hp
    exact ⟨c, List.mem_append_left _ (hr ▸ hc), hpc⟩
  · exact ⟨':', List.mem_append_left _ (hr.symm ▸ hraw), hp ':' (by decide)⟩
  · exact ⟨':', List.mem_append_left _ hr, hp ':' (by decide)⟩

theorem exists_mem_replaceValidated {r : Regex} (hr : r.Takes fun c => isWhiteSpace c = false)
    (validator : List Char → Bool) {prev : Option Char} {s : List Char} {m : Hit}
    (hm : r.firstHit prev s = some m) : ∃ c ∈ replaceValidated validator m, p c = true := by
  unfold replaceValidated
  split_ifs
  · exact exists_mem_redactedMarker hp
  · obtain ⟨c, hc, hw⟩ := exists_mem_of_takes hr (firstHit_mem hm)
    exact ⟨c, hc, hp c hw⟩

theorem exists_mem_redactPii {s : List Char} (hs : ∃ c ∈ s, p c = true) :
    ∃ c ∈ redactPii u s, p c = true := by
  have hmarker := exists_mem_redactedMarker hp
  unfold redactPii
  apply exists_mem_sub (fun _ _ _ _ => hmarker)
  apply exists_mem_sub (fun _ _ _ _ => hmarker)
  apply exists_mem_sub (fun _ _ _ hm => exists_mem_replaceValidated hp (ipv4Pattern_takes u) _ hm)
  apply exists_mem_sub (fun _ _ _ hm => exists_mem_replaceValidated hp (creditCardPattern_takes u) _ hm)
  exact exists_mem_sub (fun _ _ _ _ => hmarker) hs

theorem exists_mem_redactChars {s : List Char} (hs : ∃ c ∈ s, p c = true) :
    ∃ c ∈ redactChars u s, p c = true := by
  obtain ⟨c, hc, hpc⟩ := exists_mem_redactedMarker hp
  unfold redactChars
  apply exists_mem_sub (fun _ _ _ _ => ⟨c, hc, hpc⟩)
  apply exists_mem_sub (fun _ _ _ _ =>
    ⟨c, List.mem_append_right _ (List.mem_cons_of_mem _ hc), hpc⟩)
  apply exists_mem_sub (fun _ _ _ _ => ⟨c, List.mem_append_right _ hc, hpc⟩)
  apply exists_mem_sub (fun _ _ _ _ => ⟨c, List.mem_append_right _ hc, hpc⟩)
  apply exists_mem_redactPii hp
  exact exists_mem_sub (fun _ _ _ hm => exists_mem_replaceUrl hp hm) hs

end Content

/-- Redaction leaves no text empty. -/
theorem redactText_length_pos {value : String} (h : 1 ≤ value.length) :
    1 ≤ (redactText u value).length := by
  have hne : value.toList ≠ [] := by
    intro h0
    rw [← String.length_toList, h0] at h
    simp at h
  obtain ⟨c, hc⟩ := List.exists_mem_of_ne_nil _ hne
  obtain ⟨d, hd, _⟩ := exists_mem_redactChars (u := u) (p := fun _ => true) (fun _ _ => rfl)
    ⟨c, hc, rfl⟩
  have hpos : 0 < (redactChars u value.toList).length := List.length_pos_of_mem hd
  simpa [redactText, Nat.one_le_iff_ne_zero, Nat.pos_iff_ne_zero] using hpos

/-- Redaction leaves no text blank. -/
theorem hasInk_redactChars {s : List Char} (hs : HasInk s) : HasInk (redactChars u s) := by
  obtain ⟨c, hc, hw⟩ := hs
  obtain ⟨d, hd, hp⟩ := exists_mem_redactChars (u := u) (p := fun c => !isWhiteSpace c)
    (fun c hc => by simp [hc]) ⟨c, hc, by simp [hw]⟩
  exact ⟨d, hd, by simpa using hp⟩

/-- Text on which no pattern can match is left as it is. -/
theorem redactChars_eq_self (cs : List Char)
    (hstuck : ∀ r ∈ [urlPattern u, emailPattern, creditCardPattern u, ipv4Pattern u, macPattern,
      phonePattern u, headerPattern u, assignmentPattern u, bearerPattern u,
      knownTokenPattern u], r.stuck cs = true)
    {s : List Char} (hs : ∀ c ∈ s, c ∈ cs) : redactChars u s = s := by
  have hsub : ∀ r ∈ [urlPattern u, emailPattern, creditCardPattern u, ipv4Pattern u, macPattern,
      phonePattern u, headerPattern u, assignmentPattern u, bearerPattern u,
      knownTokenPattern u], ∀ f, r.sub f s = s :=
    fun r hr f => sub_eq_self_of_stuck (hstuck r hr) f hs
  simp only [List.mem_cons, List.not_mem_nil, or_false, forall_eq_or_imp, forall_eq] at hsub
  obtain ⟨h1, h2, h3, h4, h5, h6, h7, h8, h9, h10⟩ := hsub
  simp only [redactChars, redactPii, h1, h2, h3, h4, h5, h6, h7, h8, h9, h10]

end Redact

end CryptoAlert.Redaction
