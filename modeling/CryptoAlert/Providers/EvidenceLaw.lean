import CryptoAlert.Providers.Search
import Mathlib.Data.List.Dedup

/-!
# When the parsed evidence is lawful

Every piece of evidence stands for a URL whose text passed the check, and no text was taken twice.
What is asked of the URLs themselves, public hosts and no page twice, therefore holds exactly when
`HttpUrl` carries it over: no two of the texts are read as one URL, and no text is read as a URL
with a host that the check would have refused.
-/

namespace CryptoAlert.Search

open Collecting
open Decoded (Value Fields valueAt)
open Refusals
open Text (stripText)
open Url (urlsplit)

variable {U : Type} {lib : Library U}

/-- The host is no reserved name, lies under none and is no address of a private network. -/
def HostAllowed (lib : Library U) (host : List Char) : Prop :=
  isReserved host = false ∧ ∀ a ∈ lib.ipAddress host, a.isGlobal = true

structure IsVerified (lib : Library U) (item : WebEvidence U) : Prop where
  scheme : lib.scheme item.finalUrl = "https".toList
  host : HostAllowed lib (lib.host item.finalUrl)
  excerpt : item.excerpt.length ≤ 1000

/-- Verified evidence, each page once and not nothing, or no evidence and a refusal. -/
def Lawful (lib : Library U) (result : Read (List (WebEvidence U))) : Prop :=
  (∃ evidence, result = .ok evidence ∧ evidence ≠ [] ∧ (evidence.map (·.finalUrl)).Nodup ∧
    ∀ item ∈ evidence, IsVerified lib item) ∨ ∃ exc, result = .error (.unavailable exc)

/-- `HttpUrl` reads the scheme that `urlsplit` reads. -/
def Library.KeepsScheme (lib : Library U) : Prop :=
  ∀ raw parts url, urlsplit lib.unicode raw = some parts → lib.httpUrl raw = some url →
    lib.scheme url = parts.scheme

/-- What the URLs of the texts have to be like. A page that was opened replaces its citations. -/
structure Agrees (lib : Library U) (texts : List (List Char)) (opened : List U) : Prop where
  hosts : ∀ url, (url ∈ opened ∨ ∃ raw ∈ texts, lib.httpUrl raw = some url) →
    HostAllowed lib (lib.host url)
  apart : ∀ raw ∈ texts, ∀ raw' ∈ texts, ∀ url ∉ opened, lib.httpUrl raw = some url →
    lib.httpUrl raw' = some url → raw = raw'

section Collected

theorem scheme_of_public {raw : List Char} {url : U} (hscheme : lib.KeepsScheme)
    (hpublic : isPublicHttpsUrl lib raw = true) (hurl : lib.httpUrl raw = some url) :
    lib.scheme url = "https".toList := by
  unfold isPublicHttpsUrl at hpublic
  cases hparts : urlsplit lib.unicode raw with
  | none =>
      rw [hparts] at hpublic
      cases hpublic
  | some parts =>
      rw [hparts] at hpublic
      dsimp only at hpublic
      split at hpublic
      · cases hpublic
      · split at hpublic
        · cases hpublic
        · simp only [Bool.and_eq_true, beq_iff_eq] at hpublic
          rw [hscheme raw parts url hparts hurl]
          exact hpublic.1.1.1

/-- What is common to the pieces of evidence that one loop makes. -/
structure Makes {α : Type} (lib : Library U) (key : α → List Char)
    (make : α → Read (Option (WebEvidence U))) (items : List α) : Prop where
  names : Names key make (·.finalUrl) lib.httpUrl
  isPublic : ∀ a ∈ items, isPublicHttpsUrl lib (key a) = true
  excerpt : ∀ a ∈ items, ∀ item, make a = .ok (some item) → item.excerpt.length ≤ 1000

variable {α : Type} {early : Bool} {key : α → List Char}
  {make : α → Read (Option (WebEvidence U))} {items : List α} {evidence : List (WebEvidence U)}

/-- But for its host, what a loop collects is verified. -/
theorem Makes.verified (h : Makes lib key make items) (hscheme : lib.KeepsScheme)
    (hcollect : collect early key make [] items = .ok evidence) :
    ∀ item ∈ evidence, lib.scheme item.finalUrl = "https".toList ∧ item.excerpt.length ≤ 1000 := by
  intro item hitem
  obtain ⟨a, ha, hmade⟩ := exists_of_mem_collect hcollect hitem
  have hurl := h.names a (some item) hmade
  exact ⟨scheme_of_public hscheme (h.isPublic a ha) hurl.symm, h.excerpt a ha item hmade⟩

theorem lawful_bind {β : Type} {x : Read β} {a : β} {f : β → Read (List (WebEvidence U))}
    (hx : x = .ok a) : Lawful lib (x >>= f) ↔ Lawful lib (f a) := by
  rw [hx]
  rfl

/-- The end of a parser: no evidence is a refusal. -/
theorem lawful_end_iff {result : Read (List (WebEvidence U))} (exc : ResearchUnavailable)
    (hresult : result = if evidence.isEmpty then .error (.unavailable exc) else .ok evidence) :
    Lawful lib result ↔
      (evidence.map (·.finalUrl)).Nodup ∧ ∀ item ∈ evidence, IsVerified lib item := by
  rw [hresult]
  cases evidence with
  | nil => exact ⟨fun _ => ⟨List.nodup_nil, nofun⟩, fun _ => .inr ⟨exc, rfl⟩⟩
  | cons item rest =>
      constructor
      · rintro (⟨found, hfound, -, hlaw⟩ | ⟨exc, hexc⟩)
        · cases hfound
          exact hlaw
        · cases hexc
      · intro hlaw
        exact .inl ⟨item :: rest, rfl, List.cons_ne_nil _ _, hlaw⟩

/-- An exception of another kind is against the law. -/
theorem not_lawful_error {e : Raised} (h : ∀ exc, e ≠ .unavailable exc) :
    ¬ Lawful lib (.error e) := by
  rintro (⟨found, hfound, -⟩ | ⟨exc, hexc⟩)
  · cases hfound
  · cases hexc
    exact h exc rfl

end Collected

section Replaced

variable [DecidableEq U] {α : Type} {early : Bool} {key : α → List Char}
  {make : α → Read (Option (WebEvidence U))} {items : List α} {evidence : List (WebEvidence U)}

theorem mem_foldl_replaceCitation {opened : List (WebEvidence U)} {item : WebEvidence U}
    (h : item ∈ opened.foldl replaceCitation evidence) : item ∈ evidence ∨ item ∈ opened := by
  induction opened generalizing evidence with
  | nil => exact .inl h
  | cons page opened ih =>
      obtain hmem | hmem := ih h
      · obtain hmem | hmem := List.mem_append.mp hmem
        · exact .inl (List.mem_filter.mp hmem).1
        · exact .inr (List.mem_cons.mpr (.inl (List.mem_singleton.mp hmem)))
      · exact .inr (List.mem_cons_of_mem page hmem)

theorem mem_urls_foldl_replaceCitation {opened : List (WebEvidence U)} {url : U} :
    url ∈ (opened.foldl replaceCitation evidence).map (·.finalUrl) ↔
      url ∈ evidence.map (·.finalUrl) ∨ url ∈ opened.map (·.finalUrl) := by
  induction opened generalizing evidence with
  | nil => simp
  | cons page opened ih =>
      rw [List.foldl_cons, ih]
      by_cases hurl : url = page.finalUrl
      · simp [replaceCitation, hurl]
      · simp only [replaceCitation, List.map_append, List.mem_append, List.map_cons, List.mem_cons,
          List.map_nil, List.not_mem_nil, or_false, hurl, false_or]
        refine or_congr_left ?_
        simp only [List.mem_map, List.mem_filter, decide_eq_true_eq]
        constructor
        · rintro ⟨item, ⟨hitem, -⟩, hsame⟩
          exact ⟨item, hitem, hsame⟩
        · rintro ⟨item, hitem, rfl⟩
          exact ⟨item, ⟨hitem, hurl⟩, rfl⟩

/-- The opened pages are there once; the citations that they do not replace decide. -/
theorem nodup_foldl_replaceCitation_iff {opened : List (WebEvidence U)} :
    ((opened.foldl replaceCitation evidence).map (·.finalUrl)).Nodup ↔
      ((evidence.map (·.finalUrl)).filter fun url => url ∉ opened.map (·.finalUrl)).Nodup := by
  induction opened generalizing evidence with
  | nil => simp
  | cons page opened ih =>
      have hurls : (replaceCitation evidence page).map (·.finalUrl) =
          (evidence.map (·.finalUrl)).filter (· ≠ page.finalUrl) ++ [page.finalUrl] := by
        rw [replaceCitation, List.map_append, List.filter_map]
        rfl
      rw [List.foldl_cons, ih, hurls, List.filter_append, List.filter_filter]
      have hkept : ((evidence.map (·.finalUrl)).filter fun url =>
            decide (url ∉ opened.map (·.finalUrl)) && decide (url ≠ page.finalUrl)) =
          (evidence.map (·.finalUrl)).filter fun url =>
            decide (url ∉ (page :: opened).map (·.finalUrl)) := by
        refine List.filter_congr fun url _ => ?_
        rw [List.map_cons, Bool.and_comm, ← Bool.decide_and, decide_eq_decide, List.mem_cons,
          not_or]
      rw [hkept]
      by_cases hpage : page.finalUrl ∈ opened.map (·.finalUrl)
      · rw [List.filter_singleton, decide_eq_false (not_not.mpr hpage), cond_false,
          List.append_nil]
      · rw [List.filter_singleton, decide_eq_true hpage, cond_true]
        constructor
        · intro h
          exact (List.nodup_append.mp h).1
        · intro h
          refine List.nodup_append.mpr ⟨h, List.nodup_singleton _, ?_⟩
          intro url hurl other hother
          rw [List.mem_singleton.mp hother]
          have hnew := of_decide_eq_true (List.mem_filter.mp hurl).2
          rintro rfl
          exact hnew (List.mem_map_of_mem List.mem_cons_self)

/-- The law of the evidence is a matter of the texts and their URLs. -/
theorem verified_iff_agrees {opened : List (WebEvidence U)} (h : Makes lib key make items)
    (hscheme : lib.KeepsScheme) (hcollect : collect early key make [] items = .ok evidence)
    (hopened : ∀ item ∈ opened,
      lib.scheme item.finalUrl = "https".toList ∧ item.excerpt.length ≤ 1000) :
    (((opened.foldl replaceCitation evidence).map (·.finalUrl)).Nodup ∧
      ∀ item ∈ opened.foldl replaceCitation evidence, IsVerified lib item) ↔
      Agrees lib (items.map key) (opened.map (·.finalUrl)) := by
  have hapart := nodup_collect_iff h.names (fun url => url ∉ opened.map (·.finalUrl)) hcollect
  have hurls : ∀ url, url ∈ (opened.foldl replaceCitation evidence).map (·.finalUrl) ↔
      url ∈ opened.map (·.finalUrl) ∨ ∃ raw ∈ items.map key, lib.httpUrl raw = some url := by
    intro url
    rw [mem_urls_foldl_replaceCitation, mem_names_iff h.names hcollect, or_comm]
    simp only [List.mem_map, exists_exists_and_eq_and]
  rw [nodup_foldl_replaceCitation_iff, hapart]
  constructor
  · rintro ⟨hdistinct, hverified⟩
    refine ⟨fun url hurl => ?_, fun raw hraw raw' hraw' url hnew hurl hurl' => ?_⟩
    · obtain ⟨item, hitem, rfl⟩ := List.mem_map.mp ((hurls url).mpr hurl)
      exact (hverified item hitem).host
    · obtain ⟨a, ha, rfl⟩ := List.mem_map.mp hraw
      obtain ⟨a', ha', rfl⟩ := List.mem_map.mp hraw'
      exact hdistinct a ha a' ha' url (decide_eq_true hnew) hurl hurl'
  · intro hagrees
    refine ⟨fun a ha a' ha' url hnew hurl hurl' => ?_, fun item hitem => ?_⟩
    · exact hagrees.apart (key a) (List.mem_map_of_mem ha) (key a') (List.mem_map_of_mem ha') url
        (of_decide_eq_true hnew) hurl hurl'
    · have hhost := hagrees.hosts item.finalUrl ((hurls _).mp (List.mem_map_of_mem hitem))
      obtain ⟨hs, he⟩ := (mem_foldl_replaceCitation hitem).elim
        (h.verified hscheme hcollect item) (hopened item)
      exact ⟨hs, hhost, he⟩

end Replaced

section Results

variable {query : String} {fetchedAt : ℤ}

theorem webEvidence_finalUrl {url title excerpt hashed : List Char} {publishedAt : Option ℤ}
    {author : Option (List Char)} {parserVersion source : String} :
    (webEvidence lib query fetchedAt url title excerpt publishedAt author hashed parserVersion
      source).map (·.finalUrl) = lib.httpUrl url := by
  rw [webEvidence, Option.map_map]
  exact Option.map_id'

theorem webEvidence_excerpt {url title excerpt hashed : List Char} {publishedAt : Option ℤ}
    {author : Option (List Char)} {parserVersion source : String} {item : WebEvidence U}
    (h : webEvidence lib query fetchedAt url title excerpt publishedAt author hashed parserVersion
      source = some item) : item.excerpt.length = excerpt.length := by
  obtain ⟨finalUrl, -, rfl⟩ := Option.map_eq_some_iff.mp h
  exact String.length_ofList

/-- The texts of the results that are looked at. -/
def tavilyTexts (lib : Library U) (response : TavilyResponse) : List (List Char) :=
  match tavilyResults response with
  | .ok results => (results.filterMap (tavilyResult lib)).map (·.url)
  | .error _ => []

theorem tavily_makes (results : List Value) :
    Makes lib Citation.url (tavilyEvidence lib query fetchedAt)
      (results.filterMap (tavilyResult lib)) := by
  refine ⟨?_, ?_, ?_⟩
  · rintro result m hmade
    cases hmade
    exact webEvidence_finalUrl
  · intro result hresult
    obtain ⟨value, -, hvalue⟩ := List.mem_filterMap.mp hresult
    unfold tavilyResult at hvalue
    split at hvalue
    · dsimp only at hvalue
      split at hvalue
      · next hpasses =>
          cases hvalue
          simp only [Bool.and_eq_true] at hpasses
          exact hpasses.1.1
      · cases hvalue
    · cases hvalue
  · intro result _ item hmade
    have hitem := webEvidence_excerpt (Except.ok.inj hmade)
    rw [hitem, List.length_take]
    exact Nat.min_le_left _ _

theorem tavilyResults_unavailable {response : TavilyResponse} {e : Raised}
    (h : tavilyResults response = .error e) : ∃ exc, e = .unavailable exc := by
  unfold tavilyResults at h
  split at h
  · cases h
    exact ⟨_, rfl⟩
  · split at h
    · split at h
      · cases h
      · cases h
        exact ⟨_, rfl⟩
    · cases h
      exact ⟨_, rfl⟩
  · cases h
    exact ⟨_, rfl⟩

theorem agrees_nil : Agrees lib [] [] :=
  ⟨fun url hurl => by simp at hurl, nofun⟩

/-- The results that are looked at. -/
def ddgsResults (lib : Library U) (response : Value) : List DdgsResult :=
  match response with
  | .list results => results.filterMap (ddgsResult lib)
  | _ => []

/-- No date that is read lies beyond the calendar at Greenwich. The date of a page that was taken
before is not read. -/
def DatesFit (lib : Library U) (fetchedAt : ℤ) (results : List DdgsResult) : Prop :=
  ∀ before result after, results = before ++ result :: after →
    (∃ d, providerDatetime lib fetchedAt result.date = .ok d) ∨
      ∃ other ∈ before, other.url = result.url ∧ (lib.httpUrl result.url).isSome = true

theorem ddgsEvidence_eq_ok_iff {result : DdgsResult} :
    (∃ m, ddgsEvidence lib query fetchedAt result = .ok m) ↔
      ∃ d, providerDatetime lib fetchedAt result.date = .ok d := by
  constructor
  · rintro ⟨m, hm⟩
    obtain ⟨d, hd, -⟩ := bind_eq_ok_iff.mp hm
    exact ⟨d, hd⟩
  · rintro ⟨d, hd⟩
    exact ⟨_, bind_eq_ok_iff.mpr ⟨d, hd, rfl⟩⟩

theorem ddgs_makes (results : List Value) :
    Makes lib (·.url) (ddgsEvidence lib query fetchedAt)
      (results.filterMap (ddgsResult lib)) := by
  refine ⟨?_, ?_, ?_⟩
  · rintro result m hmade
    obtain ⟨d, -, hmade⟩ := bind_eq_ok_iff.mp hmade
    cases hmade
    exact webEvidence_finalUrl
  · intro result hresult
    obtain ⟨value, -, hvalue⟩ := List.mem_filterMap.mp hresult
    unfold ddgsResult at hvalue
    split at hvalue
    · dsimp only at hvalue
      split at hvalue
      · next hpasses =>
          cases hvalue
          simp only [Bool.and_eq_true] at hpasses
          exact hpasses.1
      · cases hvalue
    · cases hvalue
  · intro result _ item hmade
    obtain ⟨d, -, hmade⟩ := bind_eq_ok_iff.mp hmade
    have hitem := webEvidence_excerpt (Except.ok.inj hmade)
    rw [hitem, List.length_take]
    exact Nat.min_le_left _ _

theorem providerDatetime_raises (value : Value) :
    Raises (fun e => ∀ exc, e ≠ .unavailable exc) (providerDatetime lib fetchedAt value) := by
  unfold providerDatetime
  split
  · dsimp only
    split
    · exact raises_ok
    · split
      · exact raises_ok
      · split
        · exact raises_error fun exc => by rintro ⟨⟩
        · exact raises_ok
  · exact raises_ok

variable [DecidableEq U]

theorem tavily_lawful_iff (hscheme : lib.KeepsScheme) (response : TavilyResponse) :
    Lawful lib (parseTavilyResponse lib query fetchedAt response) ↔
      Agrees lib (tavilyTexts lib response) [] := by
  cases hresults : tavilyResults response with
  | error e =>
      obtain ⟨exc, rfl⟩ := tavilyResults_unavailable hresults
      rw [parseTavilyResponse, tavilyTexts, hresults]
      exact ⟨fun _ => agrees_nil, fun _ => .inr ⟨exc, rfl⟩⟩
  | ok results =>
      have hmakes : Makes lib Citation.url (tavilyEvidence lib query fetchedAt)
          (results.filterMap (tavilyResult lib)) := tavily_makes results
      obtain ⟨evidence, hevidence⟩ : ∃ evidence, collect true Citation.url
          (tavilyEvidence lib query fetchedAt) [] (results.filterMap (tavilyResult lib)) =
            .ok evidence :=
        (collect_eq_ok_iff_forall hmakes.names fun _ _ _ _ => ⟨_, rfl⟩).mpr fun _ _ => ⟨_, rfl⟩
      have hlaw := verified_iff_agrees hmakes hscheme hevidence (@List.forall_mem_nil _ _)
      rw [List.foldl_nil, List.map_nil] at hlaw
      rw [tavilyTexts, hresults]
      refine (lawful_bind hresults).trans ((lawful_bind hevidence).trans ?_)
      exact (lawful_end_iff _ (by cases evidence <;> rfl)).trans hlaw

theorem ddgs_lawful_iff (hscheme : lib.KeepsScheme) (response : Value) :
    Lawful lib (parseDdgsMetasearchResponse lib query fetchedAt response) ↔
      DatesFit lib fetchedAt (ddgsResults lib response) ∧
        Agrees lib ((ddgsResults lib response).map (·.url)) [] := by
  cases response with
  | list results =>
      have hmakes : Makes lib (·.url) (ddgsEvidence lib query fetchedAt)
          (results.filterMap (ddgsResult lib)) := ddgs_makes results
      have hends : (∃ evidence, collect false (·.url) (ddgsEvidence lib query fetchedAt) []
          (results.filterMap (ddgsResult lib)) = .ok evidence) ↔
            DatesFit lib fetchedAt (ddgsResults lib (.list results)) := by
        rw [collect_eq_ok_iff hmakes.names]
        refine forall_congr' fun before => forall_congr' fun result => forall_congr' fun after =>
          imp_congr_right fun _ => or_congr ddgsEvidence_eq_ok_iff ?_
        simp [IsCovered]
      rw [← hends]
      cases hcollect : collect false (·.url) (ddgsEvidence lib query fetchedAt) []
          (results.filterMap (ddgsResult lib)) with
      | error e =>
          have hraises : Raises (fun e => ∀ exc, e ≠ .unavailable exc) (collect false (·.url)
              (ddgsEvidence lib query fetchedAt) [] (results.filterMap (ddgsResult lib))) :=
            collect_raises fun result _ => (providerDatetime_raises _).bind fun _ _ => raises_ok
          have hother := hraises e hcollect
          have herror : parseDdgsMetasearchResponse lib query fetchedAt (.list results) =
              .error e := bind_eq_error_iff.mpr (.inl hcollect)
          rw [herror]
          constructor
          · intro hlaw
            exact absurd hlaw (not_lawful_error hother)
          · rintro ⟨⟨evidence, hevidence⟩, -⟩
            cases hevidence
      | ok evidence =>
          have hlaw := verified_iff_agrees hmakes hscheme hcollect (@List.forall_mem_nil _ _)
          rw [List.foldl_nil, List.map_nil] at hlaw
          refine (lawful_bind hcollect).trans ?_
          refine (lawful_end_iff _ (by cases evidence <;> rfl)).trans (hlaw.trans ?_)
          exact ⟨fun hagrees => ⟨⟨evidence, rfl⟩, hagrees⟩, And.right⟩
  | _ =>
      refine ⟨fun _ => ⟨?_, agrees_nil⟩, fun _ => .inr ⟨_, rfl⟩⟩
      intro before result after hsplit
      cases before <;> cases hsplit

end Results

section Builtin

variable {query : String} {fetchedAt : ℤ} {allow : Bool} {blocks : List Value}

/-- The annotations of a text block can be run through, and their types be looked up. -/
def AnnotationsRead (block : Value) : Prop :=
  ∀ fields, block = .dict fields → (valueAt fields "type").isText "text" = true →
    ∃ annotations, (if (valueAt fields "annotations").isTruthy then
        (valueAt fields "annotations").iterate else some []) = some annotations ∧
      ∀ a ∈ annotations, ∀ f, a = .dict f → (valueAt f "type").isHashable = true

/-- The status of every result of a tool call can be looked up. -/
def StatusesRead (blocks : List Value) : Prop :=
  ∀ block ∈ blocks.map unwrapContentBlock, ∀ fields, block = .dict fields →
    (valueAt fields "type").isText "server_tool_result" = true →
      (valueAt fields "status").isHashable = true

/-- The texts of the citations that are looked at. -/
def citationTexts (lib : Library U) (blocks : List Value) : List (List Char) :=
  match blocks.mapM (citationsOf lib) with
  | .ok citations => citations.flatten.map (·.url)
  | .error _ => []

/-- The completed pages that a text names, with the text. -/
def openedPages (lib : Library U) (blocks : List Value) : List (List Char × List Char) :=
  let normalized := blocks.map unwrapContentBlock
  match normalized.mapM (completedUrl lib (openPageCalls lib normalized)) with
  | .ok completed => normalized.filterMap (matchingUrl lib completed.reduceOption.dedup)
  | .error _ => []

def openedUrls (lib : Library U) (allow : Bool) (blocks : List Value) : List U :=
  if allow then (openedPages lib blocks).filterMap fun page => lib.httpUrl page.1 else []

theorem memberOf_eq_ok_iff {texts : List String} {value : Value} :
    (∃ b, memberOf texts value = .ok b) ↔ value.isHashable = true := by
  unfold memberOf
  split
  · next hhash => exact ⟨fun _ => hhash, fun _ => ⟨_, rfl⟩⟩
  · next hhash =>
      constructor
      · rintro ⟨b, hb⟩
        cases hb
      · intro h
        exact absurd h hhash

theorem citation_eq_ok_iff {note : Value} :
    (∃ m, citation note = .ok m) ↔
      ∀ f, note = .dict f → (valueAt f "type").isHashable = true := by
  cases note with
  | dict fields =>
      constructor
      · rintro ⟨m, hm⟩ f hf
        obtain ⟨b, hb, -⟩ := bind_eq_ok_iff.mp hm
        cases hf
        exact memberOf_eq_ok_iff.mp ⟨b, hb⟩
      · intro h
        obtain ⟨b, hb⟩ := memberOf_eq_ok_iff.mpr (h fields rfl)
        cases b
        · exact ⟨_, bind_eq_ok_iff.mpr ⟨false, hb, rfl⟩⟩
        · exact ⟨_, bind_eq_ok_iff.mpr ⟨true, hb, rfl⟩⟩
  | _ => exact ⟨(fun _ f hf => by cases hf), fun _ => ⟨none, rfl⟩⟩

theorem elim_eq_ok_iff {α : Type} {o : Option α} {e : Raised} {a : α} :
    o.elim (.error e : Read α) .ok = .ok a ↔ o = some a := by
  cases o with
  | none => exact ⟨(fun h => by cases h), fun h => by cases h⟩
  | some b =>
      exact ⟨fun h => congrArg some (Except.ok.inj h), fun h => congrArg _ (Option.some.inj h)⟩

theorem citationsOf_eq_ok_iff {block : Value} :
    (∃ cs, citationsOf lib block = .ok cs) ↔ AnnotationsRead block := by
  cases block with
  | dict fields =>
      by_cases htext : (valueAt fields "type").isText "text" = true
      · rw [citationsOf, if_pos htext]
        have hread : AnnotationsRead (.dict fields) ↔
            ∃ annotations, (if (valueAt fields "annotations").isTruthy then
              (valueAt fields "annotations").iterate else some []) = some annotations ∧
                ∃ cited, annotations.mapM citation = .ok cited := by
          simp only [exists_mapM_iff, citation_eq_ok_iff]
          constructor
          · intro h
            exact h fields rfl htext
          · intro h f hf _
            cases hf
            exact h
        rw [hread]
        constructor
        · rintro ⟨cs, hcs⟩
          obtain ⟨annotations, hannotations, hrest⟩ := bind_eq_ok_iff.mp hcs
          obtain ⟨cited, hcited, -⟩ := bind_eq_ok_iff.mp hrest
          exact ⟨annotations, elim_eq_ok_iff.mp hannotations, cited, hcited⟩
        · rintro ⟨annotations, hannotations, cited, hcited⟩
          exact ⟨_, bind_eq_ok_iff.mpr ⟨annotations, elim_eq_ok_iff.mpr hannotations,
            bind_eq_ok_iff.mpr ⟨cited, hcited, rfl⟩⟩⟩
      · rw [citationsOf, if_neg htext]
        exact ⟨fun _ f hf h => absurd (by cases hf; exact h) htext, fun _ => ⟨[], rfl⟩⟩
  | _ => exact ⟨(fun _ f hf => by cases hf), fun _ => ⟨[], rfl⟩⟩

theorem citationExcerpt_length {text title : List Char} {note : Fields} {single : Bool} :
    (citationExcerpt lib text note title single).length ≤ 1000 := by
  have htake : ∀ s : List Char, (s.take 1000).length ≤ 1000 := by
    intro s
    rw [List.length_take]
    exact Nat.min_le_left _ _
  unfold citationExcerpt
  dsimp only
  split
  · split
    · exact htake _
    · split
      · exact htake _
      · split
        · exact htake _
        · exact htake _
  · exact htake _

theorem citationsOf_returns (block : Value) :
    Returns (fun cs => ∀ c ∈ cs, isPublicHttpsUrl lib c.url = true ∧ c.excerpt.length ≤ 1000)
      (citationsOf lib block) := by
  unfold citationsOf
  split
  · split
    · refine returns_bind fun annotations => returns_bind fun cited => returns_ok ?_
      intro c hc
      obtain ⟨note, -, hfound⟩ := List.mem_filterMap.mp hc
      dsimp only at hfound
      split at hfound
      · next hpublic =>
          cases hfound
          exact ⟨hpublic, citationExcerpt_length⟩
      · cases hfound
    · exact returns_ok nofun
  · exact returns_ok nofun

theorem builtin_makes {citations : List (List Citation)}
    (h : blocks.mapM (citationsOf lib) = .ok citations) :
    Makes lib Citation.url (cite lib query fetchedAt) citations.flatten := by
  have hall : ∀ c ∈ citations.flatten,
      isPublicHttpsUrl lib c.url = true ∧ c.excerpt.length ≤ 1000 := by
    intro c hc
    obtain ⟨cs, hcs, hmem⟩ := List.mem_flatten.mp hc
    exact Returns.mapM (fun block _ => citationsOf_returns block) citations h cs hcs c hmem
  refine ⟨?_, fun c hc => (hall c hc).1, fun c hc item hmade => ?_⟩
  · rintro c m hmade
    cases hmade
    exact webEvidence_finalUrl
  · rw [webEvidence_excerpt (Except.ok.inj hmade)]
    exact (hall c hc).2

/-- Only public pages are remembered. -/
theorem isPublic_openPageCalls (normalized : List Value) :
    ∀ call ∈ openPageCalls lib normalized, isPublicHttpsUrl lib call.2 = true := by
  unfold openPageCalls
  suffices h : ∀ calls : List (List Char × List Char),
      (∀ call ∈ calls, isPublicHttpsUrl lib call.2 = true) → ∀ call ∈ normalized.foldl _ calls,
        isPublicHttpsUrl lib call.2 = true from h [] nofun
  induction normalized with
  | nil => exact fun calls h => h
  | cons block normalized ih =>
      intro calls h
      rw [List.foldl_cons]
      refine ih _ ?_
      split
      · split
        · split
          · split
            · next hpublic =>
                intro call hcall
                obtain rfl | hcall := List.mem_cons.mp hcall
                · exact (Bool.and_eq_true_iff.mp hpublic).2
                · exact h call hcall
            · exact h
          · exact h
        · exact h
      · exact h

theorem completedUrl_eq_ok_iff {calls : List (List Char × List Char)} {block : Value} :
    (∃ url, completedUrl lib calls block = .ok url) ↔ ∀ fields, block = .dict fields →
      (valueAt fields "type").isText "server_tool_result" = true →
        (valueAt fields "status").isHashable = true := by
  cases block with
  | dict fields =>
      by_cases htype : (valueAt fields "type").isText "server_tool_result" = true
      · rw [completedUrl, if_pos htype]
        constructor
        · rintro ⟨url, hurl⟩ f hf _
          obtain ⟨b, hb, -⟩ := bind_eq_ok_iff.mp hurl
          cases hf
          exact memberOf_eq_ok_iff.mp ⟨b, hb⟩
        · intro h
          obtain ⟨b, hb⟩ := memberOf_eq_ok_iff.mpr (h fields rfl htype)
          cases b
          · exact ⟨_, bind_eq_ok_iff.mpr ⟨false, hb, rfl⟩⟩
          · exact ⟨_, bind_eq_ok_iff.mpr ⟨true, hb, rfl⟩⟩
      · rw [completedUrl, if_neg htype]
        exact ⟨fun _ f hf h => absurd (by cases hf; exact h) htype, fun _ => ⟨none, rfl⟩⟩
  | _ => exact ⟨(fun _ f hf => by cases hf), fun _ => ⟨none, rfl⟩⟩

/-- A completed page is one of those remembered. -/
theorem completedUrl_returns {calls : List (List Char × List Char)} (block : Value) :
    Returns (fun found => ∀ url ∈ found, ∃ id, (id, url) ∈ calls)
      (completedUrl lib calls block) := by
  unfold completedUrl
  split
  · split
    · refine returns_bind fun b => ?_
      split
      · refine returns_ok fun url hurl => ?_
        obtain ⟨before, after, hcalls, -⟩ := List.lookup_eq_some_iff.mp hurl
        rw [hcalls]
        exact ⟨_, List.mem_append_right _ List.mem_cons_self⟩
      · exact returns_ok nofun
    · exact returns_ok nofun
  · exact returns_ok nofun

theorem matchingUrl_mem {completed : List (List Char)} {block : Value}
    {page : List Char × List Char} (h : matchingUrl lib completed block = some page) :
    page.1 ∈ completed := by
  unfold matchingUrl at h
  split at h
  · split at h
    · dsimp only at h
      split at h
      · next url hfilter =>
          split at h
          · cases h
          · cases h
            have hmem := List.mem_singleton_self url
            rw [← hfilter] at hmem
            exact (List.mem_filter.mp hmem).1
      · cases h
    · cases h
  · cases h

/-- An opened page is evidence if its URL is accepted, and ends the parsing otherwise. -/
theorem openPage_cases (lib : Library U) (query : String) (fetchedAt : ℤ)
    (page : List Char × List Char) :
    (∃ item : WebEvidence U, openPage lib query fetchedAt page = .ok (some item) ∧
      lib.httpUrl page.1 = some item.finalUrl ∧ item.excerpt.length ≤ 1000) ∨
    openPage lib query fetchedAt page = .error .validationError ∧ lib.httpUrl page.1 = none := by
  unfold openPage
  dsimp only
  split
  · next item hitem =>
      have hurl := congrArg (Option.map (·.finalUrl)) hitem
      rw [webEvidence_finalUrl] at hurl
      refine .inl ⟨item, rfl, hurl, ?_⟩
      rw [webEvidence_excerpt hitem, List.length_take]
      exact Nat.min_le_left _ _
  · next hitem =>
      have hurl := congrArg (Option.map (·.finalUrl)) hitem
      rw [webEvidence_finalUrl] at hurl
      exact .inr ⟨rfl, hurl⟩

theorem openPage_eq_ok_iff {page : List Char × List Char} :
    (∃ m, openPage lib query fetchedAt page = .ok m) ↔ (lib.httpUrl page.1).isSome = true := by
  obtain ⟨item, hitem, hurl, -⟩ | ⟨herror, hurl⟩ :=
    openPage_cases lib query fetchedAt page
  · rw [hurl]
    exact ⟨fun _ => rfl, fun _ => ⟨_, hitem⟩⟩
  · rw [hurl, herror]
    constructor
    · rintro ⟨m, hm⟩
      cases hm
    · intro h
      cases h

theorem open_makes {completed : List (Option (List Char))}
    (h : (blocks.map unwrapContentBlock).mapM
      (completedUrl lib (openPageCalls lib (blocks.map unwrapContentBlock))) = .ok completed) :
    Makes lib Prod.fst (openPage lib query fetchedAt) ((blocks.map unwrapContentBlock).filterMap
      (matchingUrl lib completed.reduceOption.dedup)) := by
  refine ⟨fun page m hm => ?_, fun page hpage => ?_, fun page _ item hmade => ?_⟩
  · obtain ⟨item, hitem, hurl, -⟩ | ⟨herror, -⟩ := openPage_cases lib query fetchedAt page
    · rw [hitem] at hm
      cases hm
      exact hurl.symm
    · rw [herror] at hm
      cases hm
  · obtain ⟨block, -, hmatch⟩ := List.mem_filterMap.mp hpage
    have hmem := List.mem_dedup.mp (matchingUrl_mem hmatch)
    obtain ⟨found, hfound, hurl⟩ := List.mem_filterMap.mp hmem
    obtain ⟨id, hcall⟩ := Returns.mapM (fun block _ => completedUrl_returns block) completed h found
      hfound page.1 hurl
    exact isPublic_openPageCalls _ _ hcall
  · obtain ⟨found, hitem, -, hlength⟩ | ⟨herror, -⟩ := openPage_cases lib query fetchedAt page
    · rw [hitem] at hmade
      cases hmade
      exact hlength
    · rw [herror] at hmade
      cases hmade

/-- What is no refusal. -/
def Raised.IsOther (e : Raised) : Prop := ∀ exc, e ≠ .unavailable exc

theorem memberOf_raises {texts : List String} {value : Value} :
    Raises Raised.IsOther (memberOf texts value) := by
  unfold memberOf
  split
  · exact raises_ok
  · exact raises_error fun exc => by rintro ⟨⟩

theorem anyBlock_raises {p : List (String × Value) → Read Bool}
    (hp : ∀ fields, Raises Raised.IsOther (p fields)) (blocks : List Value) :
    Raises Raised.IsOther (anyBlock p blocks) := by
  induction blocks with
  | nil => exact raises_ok
  | cons block blocks ih =>
      cases block with
      | dict fields =>
          refine (hp fields).bind fun b _ => ?_
          split
          · exact raises_ok
          · exact ih
      | _ => exact ih

theorem successfulWebSearch_raises : Raises Raised.IsOther (successfulWebSearch lib blocks) := by
  have hguarded : ∀ (c : Bool) (fields : Fields), Raises Raised.IsOther
      (if c then isCompleted fields else return false) := by
    intro c fields
    split
    · exact memberOf_raises
    · exact raises_ok
  unfold successfulWebSearch
  refine (anyBlock_raises (fun _ => hguarded _ _) _).bind fun first _ => ?_
  split
  · exact raises_ok
  · refine (anyBlock_raises (fun _ => hguarded _ _) _).bind fun second _ => ?_
    split
    · exact raises_ok
    · exact anyBlock_raises (fun _ => hguarded _ _) _

theorem citationsOf_raises (block : Value) : Raises Raised.IsOther (citationsOf lib block) := by
  have hcitation : ∀ a, Raises Raised.IsOther (citation a) := by
    intro a
    unfold citation
    split
    · refine memberOf_raises.bind fun b _ => ?_
      split
      · exact raises_ok
      · exact raises_ok
    · exact raises_ok
  have hiterate : ∀ o : Option (List Value), Raises Raised.IsOther
      (o.elim (.error .typeError) .ok : Read (List Value)) := by
    intro o
    cases o with
    | none => exact raises_error fun exc => by rintro ⟨⟩
    | some items => exact raises_ok
  unfold citationsOf
  split
  · split
    · exact (hiterate _).bind fun _ _ => (Raises.mapM fun a _ => hcitation a).bind fun _ _ =>
        raises_ok
    · exact raises_ok
  · exact raises_ok

theorem completedOpenPageEvidence_raises :
    Raises Raised.IsOther (completedOpenPageEvidence lib query fetchedAt blocks) := by
  have hcompleted : ∀ calls block, Raises Raised.IsOther (completedUrl lib calls block) := by
    intro calls block
    unfold completedUrl
    split
    · split
      · refine memberOf_raises.bind fun b _ => ?_
        split
        · exact raises_ok
        · exact raises_ok
      · exact raises_ok
    · exact raises_ok
  refine (Raises.mapM fun block _ => hcompleted _ block).bind fun _ _ => ?_
  refine collect_raises fun page _ => ?_
  obtain ⟨item, hitem, -⟩ | ⟨herror, -⟩ :=
    openPage_cases lib query fetchedAt page
  · rw [hitem]
    exact raises_ok
  · rw [herror]
    exact raises_error fun exc => by rintro ⟨⟩

/-- The opened pages are read when every status can be looked up and every page is accepted. -/
theorem completedOpenPageEvidence_eq_ok_iff :
    (∃ opened, completedOpenPageEvidence lib query fetchedAt blocks = .ok opened) ↔
      StatusesRead blocks ∧
        ∀ page ∈ openedPages lib blocks, (lib.httpUrl page.1).isSome = true := by
  have hstatuses : (∃ completed, (blocks.map unwrapContentBlock).mapM
      (completedUrl lib (openPageCalls lib (blocks.map unwrapContentBlock))) = .ok completed) ↔
        StatusesRead blocks :=
    exists_mapM_iff.trans (forall₂_congr fun block _ => completedUrl_eq_ok_iff)
  rw [← hstatuses]
  cases hcompleted : (blocks.map unwrapContentBlock).mapM
      (completedUrl lib (openPageCalls lib (blocks.map unwrapContentBlock))) with
  | error e =>
      constructor
      · rintro ⟨opened, hopened⟩
        obtain ⟨completed, hread, -⟩ := bind_eq_ok_iff.mp hopened
        cases hcompleted.symm.trans hread
      · rintro ⟨⟨completed, hread⟩, -⟩
        cases hread
  | ok completed =>
      have hmakes : Makes lib Prod.fst (openPage lib query fetchedAt) _ := open_makes hcompleted
      have hpages : openedPages lib blocks = (blocks.map unwrapContentBlock).filterMap
          (matchingUrl lib completed.reduceOption.dedup) := by
        rw [openedPages, hcompleted]
      have hkey : ∀ page page' : List Char × List Char, page.1 = page'.1 →
          (∃ m, openPage lib query fetchedAt page = .ok m) →
            ∃ m, openPage lib query fetchedAt page' = .ok m := by
        intro page page' hsame hmade
        rw [openPage_eq_ok_iff] at hmade ⊢
        rwa [← hsame]
      have hends : (∃ opened, collect true Prod.fst (openPage lib query fetchedAt) []
          ((blocks.map unwrapContentBlock).filterMap
            (matchingUrl lib completed.reduceOption.dedup)) = .ok opened) ↔ _ :=
        collect_eq_ok_iff_forall hmakes.names hkey
      rw [hpages, ← forall₂_congr fun page _ => openPage_eq_ok_iff, ← hends]
      constructor
      · rintro ⟨opened, hopened⟩
        obtain ⟨completed', hread, hcollect⟩ := bind_eq_ok_iff.mp hopened
        cases hcompleted.symm.trans hread
        exact ⟨⟨completed, rfl⟩, opened, hcollect⟩
      · rintro ⟨-, opened, hcollect⟩
        exact ⟨opened, bind_eq_ok_iff.mpr ⟨completed, hcompleted, hcollect⟩⟩

/-- What the opened pages are like. -/
theorem opened_facts (hscheme : lib.KeepsScheme) {opened : List (WebEvidence U)}
    (h : completedOpenPageEvidence lib query fetchedAt blocks = .ok opened) :
    (∀ item ∈ opened, lib.scheme item.finalUrl = "https".toList ∧ item.excerpt.length ≤ 1000) ∧
      ∀ url, url ∈ opened.map (·.finalUrl) ↔
        ∃ page ∈ openedPages lib blocks, lib.httpUrl page.1 = some url := by
  obtain ⟨completed, hcompleted, hcollect⟩ := bind_eq_ok_iff.mp h
  have hmakes : Makes lib Prod.fst (openPage lib query fetchedAt) _ := open_makes hcompleted
  refine ⟨hmakes.verified hscheme hcollect, fun url => ?_⟩
  rw [mem_names_iff hmakes.names hcollect, openedPages, hcompleted]

theorem Agrees.congr {texts : List (List Char)} {urls urls' : List U}
    (h : ∀ url, url ∈ urls ↔ url ∈ urls') : Agrees lib texts urls ↔ Agrees lib texts urls' := by
  have hdir : ∀ {us vs : List U}, (∀ url, url ∈ us ↔ url ∈ vs) → Agrees lib texts us →
      Agrees lib texts vs := by
    intro us vs hsame hagrees
    refine ⟨fun url hurl => hagrees.hosts url (hurl.imp_left (hsame url).mpr), ?_⟩
    intro raw hraw raw' hraw' url hnew
    exact hagrees.apart raw hraw raw' hraw' url fun hold => hnew ((hsame url).mp hold)
  exact ⟨hdir h, hdir fun url => (h url).symm⟩

/-- The answer of the model can be read to its end, and its URLs are what they look like. -/
structure Legible (lib : Library U) (allow : Bool) (blocks : List Value) : Prop where
  annotations : ∀ block ∈ blocks, AnnotationsRead block
  statuses : allow = true → StatusesRead blocks
  pages : allow = true → ∀ page ∈ openedPages lib blocks, (lib.httpUrl page.1).isSome = true
  agrees : Agrees lib (citationTexts lib blocks) (openedUrls lib allow blocks)

/-- The pages that the parser opens, if it is told to. -/
theorem opened_eq_ok_iff : (∃ opened, (if allow then
      completedOpenPageEvidence lib query fetchedAt blocks else .ok []) = .ok opened) ↔
    (allow = true → StatusesRead blocks) ∧
      (allow = true → ∀ page ∈ openedPages lib blocks, (lib.httpUrl page.1).isSome = true) := by
  cases allow with
  | false => exact ⟨fun _ => ⟨nofun, nofun⟩, fun _ => ⟨[], rfl⟩⟩
  | true =>
      rw [if_pos rfl, completedOpenPageEvidence_eq_ok_iff]
      exact ⟨fun h => ⟨fun _ => h.1, fun _ => h.2⟩, fun h => ⟨h.1 rfl, h.2 rfl⟩⟩

theorem opened_lawful (hscheme : lib.KeepsScheme) {opened : List (WebEvidence U)}
    (h : (if allow then completedOpenPageEvidence lib query fetchedAt blocks else .ok []) =
      .ok opened) :
    (∀ item ∈ opened, lib.scheme item.finalUrl = "https".toList ∧ item.excerpt.length ≤ 1000) ∧
      ∀ url, url ∈ opened.map (·.finalUrl) ↔ url ∈ openedUrls lib allow blocks := by
  cases allow with
  | false =>
      cases h
      exact ⟨nofun, fun url => Iff.rfl⟩
  | true =>
      obtain ⟨hlaw, hurls⟩ := opened_facts hscheme h
      refine ⟨hlaw, fun url => ?_⟩
      rw [hurls, openedUrls, if_pos rfl, List.mem_filterMap]

theorem opened_raises : Raises Raised.IsOther (if allow then
    completedOpenPageEvidence lib query fetchedAt blocks else .ok []) := by
  cases allow with
  | false => exact raises_ok
  | true => exact completedOpenPageEvidence_raises

variable [DecidableEq U]

/-- The answer behind a completed search, from the citations on. -/
theorem parse_of_searched {citations : List (List Citation)} {evidence : List (WebEvidence U)}
    (hsearched : successfulWebSearch lib blocks = .ok true)
    (hcitations : blocks.mapM (citationsOf lib) = .ok citations)
    (hevidence : collect true Citation.url (cite lib query fetchedAt) [] citations.flatten =
      .ok evidence) :
    parseBuiltinSearchResponse lib query fetchedAt allow blocks =
      (if allow then completedOpenPageEvidence lib query fetchedAt blocks else .ok []) >>=
        fun opened => if (opened.foldl replaceCitation evidence).isEmpty then
          .error (unavailable "built-in web search returned no verified provider URL citation"
            "builtin_web_search" false "MissingProviderCitation")
        else .ok (opened.foldl replaceCitation evidence) := by
  have hend : ∀ opened : List (WebEvidence U), (do
      let evidence := opened.foldl replaceCitation evidence
      if evidence.isEmpty then
        throw (unavailable "built-in web search returned no verified provider URL citation"
          "builtin_web_search" false "MissingProviderCitation")
      return evidence : Read (List (WebEvidence U))) =
        if (opened.foldl replaceCitation evidence).isEmpty then
          .error (unavailable "built-in web search returned no verified provider URL citation"
            "builtin_web_search" false "MissingProviderCitation")
        else .ok (opened.foldl replaceCitation evidence) := by
    intro opened
    cases opened.foldl replaceCitation evidence <;> rfl
  rw [parseBuiltinSearchResponse, hsearched, hcitations]
  change (collect true Citation.url (cite lib query fetchedAt) [] citations.flatten >>= _) = _
  rw [hevidence]
  cases allow with
  | false => exact hend []
  | true =>
      exact congrArg (completedOpenPageEvidence lib query fetchedAt blocks >>= ·) (funext hend)

/-- What a parser does with an answer behind a completed search. -/
theorem searched_lawful_iff (hscheme : lib.KeepsScheme)
    (hsearched : successfulWebSearch lib blocks = .ok true) :
    Lawful lib (parseBuiltinSearchResponse lib query fetchedAt allow blocks) ↔
      Legible lib allow blocks := by
  have hread : (∃ citations, blocks.mapM (citationsOf lib) = .ok citations) ↔
      ∀ block ∈ blocks, AnnotationsRead block :=
    exists_mapM_iff.trans (forall₂_congr fun block _ => citationsOf_eq_ok_iff)
  cases hcitations : blocks.mapM (citationsOf lib) with
  | error e =>
      have hother : e.IsOther := Raises.mapM (fun block _ => citationsOf_raises block) e hcitations
      have herror : parseBuiltinSearchResponse lib query fetchedAt allow blocks = .error e :=
        bind_eq_error_iff.mpr (.inr ⟨true, hsearched, bind_eq_error_iff.mpr (.inl hcitations)⟩)
      rw [herror]
      constructor
      · intro hlaw
        exact absurd hlaw (not_lawful_error hother)
      · intro h
        obtain ⟨citations, hok⟩ := hread.mpr h.annotations
        cases hcitations.symm.trans hok
  | ok citations =>
      have hmakes : Makes lib Citation.url (cite lib query fetchedAt) citations.flatten :=
        builtin_makes hcitations
      obtain ⟨evidence, hevidence⟩ : ∃ evidence, collect true Citation.url
          (cite lib query fetchedAt) [] citations.flatten = .ok evidence :=
        (collect_eq_ok_iff_forall hmakes.names fun _ _ _ _ => ⟨_, rfl⟩).mpr fun _ _ => ⟨_, rfl⟩
      have htexts : citationTexts lib blocks = citations.flatten.map (·.url) := by
        rw [citationTexts, hcitations]
      cases hopened : (if allow then completedOpenPageEvidence lib query fetchedAt blocks
          else .ok [] : Read (List (WebEvidence U))) with
      | error e =>
          have hother : e.IsOther := opened_raises e hopened
          rw [parse_of_searched hsearched hcitations hevidence, hopened]
          change Lawful lib (.error e) ↔ _
          constructor
          · intro hlaw
            exact absurd hlaw (not_lawful_error hother)
          · intro h
            obtain ⟨opened, hok⟩ := opened_eq_ok_iff.mpr ⟨h.statuses, h.pages⟩
            cases hopened.symm.trans hok
      | ok opened =>
          obtain ⟨hopenedLaw, hurls⟩ := opened_lawful hscheme hopened
          have hends := opened_eq_ok_iff.mp ⟨opened, hopened⟩
          have hlaw := verified_iff_agrees hmakes hscheme hevidence hopenedLaw
          rw [← htexts, Agrees.congr hurls] at hlaw
          rw [parse_of_searched hsearched hcitations hevidence, hopened,
            lawful_bind rfl, lawful_end_iff _ (by rfl), hlaw]
          constructor
          · intro hagrees
            exact ⟨hread.mp ⟨citations, hcitations⟩, hends.1, hends.2, hagrees⟩
          · exact Legible.agrees

theorem builtin_lawful_iff (hscheme : lib.KeepsScheme) :
    Lawful lib (parseBuiltinSearchResponse lib query fetchedAt allow blocks) ↔
      ∃ searched, successfulWebSearch lib blocks = .ok searched ∧
        (searched = true → Legible lib allow blocks) := by
  cases hsearched : successfulWebSearch lib blocks with
  | error e =>
      have herror : parseBuiltinSearchResponse lib query fetchedAt allow blocks = .error e :=
        bind_eq_error_iff.mpr (.inl hsearched)
      rw [herror]
      constructor
      · intro hlaw
        exact absurd hlaw (not_lawful_error (successfulWebSearch_raises e hsearched))
      · rintro ⟨searched, hread, -⟩
        cases hread
  | ok searched =>
      cases searched with
      | false =>
          have hrefused : ∃ exc, parseBuiltinSearchResponse lib query fetchedAt allow blocks =
              .error (.unavailable exc) := by
            rw [parseBuiltinSearchResponse, hsearched]
            exact ⟨_, rfl⟩
          exact ⟨fun _ => ⟨false, rfl, nofun⟩, fun _ => .inr hrefused⟩
      | true =>
          have hlegible : (∃ searched, (.ok true : Read Bool) = .ok searched ∧
              (searched = true → Legible lib allow blocks)) ↔ Legible lib allow blocks := by
            constructor
            · rintro ⟨searched, hread, h⟩
              cases hread
              exact h rfl
            · intro h
              exact ⟨true, rfl, fun _ => h⟩
          rw [hlegible]
          exact searched_lawful_iff hscheme hsearched

end Builtin

/-- A URL without credentials, port and query. -/
structure PlainUrl where
  scheme : List Char
  host : List Char
  path : List Char
deriving DecidableEq

/-- Reads a URL of a named host as `HttpUrl` does: in lower case, with a path. -/
def plainHttpUrl (raw : List Char) : Option PlainUrl :=
  (urlsplit .ascii raw).bind fun parts =>
    if parts.scheme = "https".toList then
      some ⟨parts.scheme, parts.netloc.map Char.toLower,
        if parts.path.isEmpty then ['/'] else parts.path⟩
    else none

def plainLibrary : Library PlainUrl where
  unicode := .ascii
  ipAddress := fun _ => none
  httpUrl := plainHttpUrl
  scheme := PlainUrl.scheme
  host := PlainUrl.host
  shown := fun _ => ""
  contentHash := fun _ => ""
  fromIsoformat := fun _ => none
  dateTime := fun _ => ⟨""⟩

theorem plainLibrary_keepsScheme : plainLibrary.KeepsScheme := by
  intro raw parts url hparts hurl
  have hparts : urlsplit .ascii raw = some parts := hparts
  have hurl : plainHttpUrl raw = some url := hurl
  rw [plainHttpUrl, hparts, Option.bind_some] at hurl
  split at hurl
  · cases hurl
    rfl
  · cases hurl

/-- An answer of the search tool with pages of one title. -/
def plainResults (urls : List String) : TavilyResponse :=
  .value (.dict [("results", .list (urls.map fun url =>
    .dict [("url", .str url), ("title", .str "t"), ("content", .str "c")]))])

end CryptoAlert.Search
