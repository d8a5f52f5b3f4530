import CryptoAlert.Agents.SourceLedger
import Mathlib.Data.List.Nodup

/-!
# What the source ledger holds

The evidence of a ledger is the first part of the successful lists in turn, without repetition.
Its coverage accounts for every query and its catalog passes the checks of the artifact. Once a
call has succeeded, the ledger is not changed any more.
-/

namespace CryptoAlert

open Interleaving

/-- The exception of a search. -/
def providerFailure : SearchResult → Option SearchEvidenceUnavailable
  | .error exc => some exc
  | .ok _ => none

/-- The list of a search that found evidence. -/
def foundEvidence : SearchResult → Option (List (WebEvidence HttpUrl))
  | .error _ | .ok [] => none
  | .ok results => some results

def missingFailure : SearchResult → Option SearchEvidenceUnavailable
  | .ok [] => some missingEvidence
  | _ => none

theorem queryFailureFromException_of_index (exc : SearchEvidenceUnavailable) {queryIndex : ℕ}
    (h : 1 ≤ queryIndex ∧ queryIndex ≤ 3) :
    ∃ failure : DeepResearchSearchFailure,
      queryFailureFromException exc queryIndex = some failure ∧
        failure.queryIndex.val = queryIndex :=
  ⟨_, dif_pos h, rfl⟩

/-- The tally of results that begin at an index, over the tally before them. -/
structure SearchTally.Extends (before after : SearchTally) (first : ℕ)
    (results : List SearchResult) : Prop where
  providerFailure : after.firstProviderFailure =
    before.firstProviderFailure.or (results.findSome? CryptoAlert.providerFailure)
  missingFailure : after.firstMissingFailure =
    before.firstMissingFailure.or (results.findSome? CryptoAlert.missingFailure)
  sets : after.successfulResultSets =
    before.successfulResultSets ++ results.filterMap foundEvidence
  count : after.successfulQueries =
    before.successfulQueries + (results.filterMap foundEvidence).length
  failures : ∃ failures, after.failures = before.failures ++ failures ∧
    failures.length + (results.filterMap foundEvidence).length = results.length ∧
    (failures.map (·.queryIndex.val)).Pairwise (· < ·) ∧
    ∀ failure ∈ failures, first ≤ failure.queryIndex.val ∧
      failure.queryIndex.val < first + results.length

theorem SearchTally.note_ok (tally : SearchTally) {queryIndex : ℕ}
    (h : 1 ≤ queryIndex ∧ queryIndex ≤ 3) (result : SearchResult) :
    ∃ after, tally.note queryIndex result = .ok after ∧ tally.Extends after queryIndex [result] := by
  rcases result with exc | _ | ⟨item, rest⟩
  · obtain ⟨failure, hfailure, hindex⟩ := queryFailureFromException_of_index exc h
    simp only [note, hfailure]
    refine ⟨_, rfl, ⟨rfl, by simp [CryptoAlert.missingFailure], by simp [foundEvidence],
      by simp [foundEvidence], [failure], rfl, rfl, List.pairwise_singleton _ _, ?_⟩⟩
    intro other hother
    rw [List.mem_singleton.mp hother, hindex]
    exact ⟨le_rfl, Nat.lt_succ_self _⟩
  · obtain ⟨failure, hfailure, hindex⟩ := queryFailureFromException_of_index missingEvidence h
    simp only [note, hfailure]
    refine ⟨_, rfl, ⟨by simp [CryptoAlert.providerFailure], rfl, by simp [foundEvidence],
      by simp [foundEvidence], [failure], rfl, rfl, List.pairwise_singleton _ _, ?_⟩⟩
    intro other hother
    rw [List.mem_singleton.mp hother, hindex]
    exact ⟨le_rfl, Nat.lt_succ_self _⟩
  · exact ⟨_, rfl, ⟨by simp [CryptoAlert.providerFailure], by simp [CryptoAlert.missingFailure],
      rfl, rfl, [], (List.append_nil _).symm, rfl, List.Pairwise.nil, by rintro _ ⟨⟩⟩⟩

theorem SearchTally.Extends.cons {before middle after : SearchTally} {first : ℕ}
    {result : SearchResult} {rest : List SearchResult} (h : before.Extends middle first [result])
    (hrest : middle.Extends after (first + 1) rest) :
    before.Extends after first (result :: rest) := by
  have hfilter : (result :: rest).filterMap foundEvidence =
      [result].filterMap foundEvidence ++ rest.filterMap foundEvidence := by
    rw [← List.filterMap_append, List.singleton_append]
  obtain ⟨failures, happended, hlength, hordered, hindexes⟩ := h.failures
  obtain ⟨later, hlater, hlaterLength, hlaterOrdered, hlaterIndexes⟩ := hrest.failures
  refine ⟨?_, ?_, ?_, ?_, failures ++ later, ?_, ?_, ?_, ?_⟩
  · rw [hrest.providerFailure, h.providerFailure, Option.or_assoc]
    cases hfailure : CryptoAlert.providerFailure result <;> simp [hfailure]
  · rw [hrest.missingFailure, h.missingFailure, Option.or_assoc]
    cases hfailure : CryptoAlert.missingFailure result <;> simp [hfailure]
  · rw [hrest.sets, h.sets, List.append_assoc, hfilter]
  · rw [hrest.count, h.count, hfilter, List.length_append, Nat.add_assoc]
  · rw [hlater, happended, List.append_assoc]
  · rw [hfilter, List.length_append, List.length_append, List.length_cons]
    simp only [List.length_singleton] at hlength
    omega
  · -- the indexes of the later failures are above the first one
    rw [List.map_append, List.pairwise_append]
    refine ⟨hordered, hlaterOrdered, fun i hi j hj => ?_⟩
    obtain ⟨failure, hfailure, rfl⟩ := List.mem_map.mp hi
    obtain ⟨other, hother, rfl⟩ := List.mem_map.mp hj
    have hbelow := (hindexes failure hfailure).2
    have habove := (hlaterIndexes other hother).1
    simp only [List.length_singleton] at hbelow
    omega
  · intro failure hfailure
    rw [List.length_cons]
    rcases List.mem_append.mp hfailure with hmem | hmem
    · have hbounds := hindexes failure hmem
      simp only [List.length_singleton] at hbounds
      omega
    · have hbounds := hlaterIndexes failure hmem
      omega

theorem SearchTally.noteAll_ok (tally : SearchTally) {first : ℕ} (hfirst : 1 ≤ first)
    (results : List SearchResult) (hcount : first + results.length ≤ 4) :
    ∃ after, tally.noteAll first results = .ok after ∧ tally.Extends after first results := by
  induction results generalizing tally first with
  | nil =>
    exact ⟨tally, rfl, ⟨by simp, by simp, by simp, by simp, [], by simp, rfl, List.Pairwise.nil,
      by rintro _ ⟨⟩⟩⟩
  | cons result rest ih =>
    rw [List.length_cons] at hcount
    have hindex : 1 ≤ first ∧ first ≤ 3 := by omega
    obtain ⟨middle, hmiddle, hextends⟩ := tally.note_ok hindex result
    obtain ⟨after, hafter, hrest⟩ := ih middle (Nat.le_add_left 1 first) (by omega)
    refine ⟨after, ?_, hextends.cons hrest⟩
    rw [noteAll, hmiddle]
    exact hafter

namespace SourceLedger

theorem takeTurn_eq (ledger : SourceLedger) (resultOffset : ℕ)
    (sets : List (List (WebEvidence HttpUrl))) :
    ledger.takeTurn resultOffset sets = (turn sets resultOffset).foldl admitItem ledger := by
  induction sets generalizing ledger with
  | nil => rfl
  | cons results rest ih =>
    unfold takeTurn
    cases hitem : results[resultOffset]? with
    | none =>
      simp only [turn, List.filterMap_cons, hitem]
      exact ih ledger
    | some item =>
      simp only [turn, List.filterMap_cons, hitem, List.foldl_cons]
      exact ih (ledger.admitItem item)

theorem foldl_admitItem_of_full {ledger : SourceLedger}
    (h : maxResearchSources ≤ ledger.evidence.length) (items : List (WebEvidence HttpUrl)) :
    items.foldl admitItem ledger = ledger := by
  induction items with
  | nil => rfl
  | cons item rest ih =>
    rw [List.foldl_cons, admitItem, if_pos h]
    exact ih

theorem takeTurns_eq (sets : List (List (WebEvidence HttpUrl))) (resultOffset : ℕ)
    (ledger : SourceLedger) :
    takeTurns sets resultOffset ledger = (turnsFrom sets resultOffset).foldl admitItem ledger := by
  fun_induction takeTurns sets resultOffset ledger with
  | case1 resultOffset ledger h ih =>
    obtain ⟨results, hmem, hlt⟩ := h.2
    rw [ih, takeTurn_eq, turnsFrom_of_lt hmem hlt, List.foldl_append]
  | case2 resultOffset ledger h =>
    by_cases hfull : maxResearchSources ≤ ledger.evidence.length
    · rw [foldl_admitItem_of_full hfull]
    · have hexhausted : ∀ results ∈ sets, results.length ≤ resultOffset := by
        intro results hmem
        by_contra hlt
        exact h ⟨not_le.mp hfull, results, hmem, not_le.mp hlt⟩
      rw [turnsFrom_of_exhausted hexhausted]
      rfl

theorem evidence_foldl_admitItem {ledger : SourceLedger}
    (h : ledger.evidence.length ≤ maxResearchSources) (items : List (WebEvidence HttpUrl)) :
    (items.foldl admitItem ledger).evidence =
      (ledger.evidence ++ fresh evidenceKey ledger.seen items).take maxResearchSources := by
  induction items generalizing ledger with
  | nil => rw [fresh, List.append_nil, List.take_of_length_le h, List.foldl_nil]
  | cons item rest ih =>
    rw [List.foldl_cons]
    by_cases hfull : maxResearchSources ≤ ledger.evidence.length
    · rw [admitItem, if_pos hfull, foldl_admitItem_of_full hfull, List.take_append_of_le_length hfull,
        List.take_of_length_le h]
    by_cases hseen : evidenceKey item ∈ ledger.seen
    · rw [admitItem, if_neg hfull, if_pos hseen, ih h, fresh, if_pos hseen]
    · rw [admitItem, if_neg hfull, if_neg hseen, fresh, if_neg hseen, ih]
      · rw [List.append_assoc, List.singleton_append]
      · rw [List.length_append, List.length_singleton]
        omega

end SourceLedger

theorem coverageOf_isSome {attempted successful : ℕ} {failures : List DeepResearchSearchFailure}
    (hattempted : attempted ≤ 3) (hsuccessful : 1 ≤ successful)
    (hcount : failures.length + successful = attempted)
    (hordered : (failures.map (·.queryIndex.val)).Pairwise (· < ·))
    (hindexes : ∀ failure ∈ failures, failure.queryIndex.val ≤ attempted) :
    ∃ coverage : DeepResearchSearchCoverage,
      coverageOf attempted successful failures = some coverage ∧
        coverage.val.attemptedQueries.val = attempted ∧
        coverage.val.successfulQueries.val = successful ∧
        coverage.val.failedQueries.val = failures := by
  have hlimits : (1 ≤ attempted ∧ attempted ≤ 3) ∧ (1 ≤ successful ∧ successful ≤ 3) ∧
      failures.length ≤ 2 := by omega
  have hcoherent : (SearchCoverageFields.mk failures.isEmpty ⟨attempted, hlimits.1⟩
      ⟨successful, hlimits.2.1⟩ ⟨failures, Nat.zero_le _, hlimits.2.2⟩).Coherent := by
    refine ⟨hordered, ?_, ?_, ?_⟩
    · intro index hindex
      obtain ⟨failure, hfailure, rfl⟩ := List.mem_map.mp hindex
      exact hindexes failure hfailure
    · simp only [SearchCoverageFields.failedIndexes, List.length_map]
      omega
    · simp only [SearchCoverageFields.failedIndexes, List.map_eq_nil_iff, List.isEmpty_iff]
  refine ⟨⟨_, hcoherent⟩, ?_, rfl, rfl, rfl⟩
  unfold coverageOf
  rw [dif_pos hlimits]
  exact dif_pos hcoherent

theorem indexedSources_ok (evidence : List (WebEvidence HttpUrl)) {first : ℕ} (hfirst : 1 ≤ first)
    (hcount : first + evidence.length ≤ 9) :
    ∃ sources, indexedSources first evidence = some sources ∧
      sources.map (·.index.val) = List.range' first evidence.length ∧
      sources.map (·.evidence) = evidence := by
  induction evidence generalizing first with
  | nil => exact ⟨[], rfl, rfl, rfl⟩
  | cons item rest ih =>
    rw [List.length_cons] at hcount
    obtain ⟨sources, hsources, hindexes, hevidence⟩ :=
      ih (Nat.le_add_left 1 first) (by omega)
    have hindex : 1 ≤ first ∧ first ≤ 8 := by omega
    refine ⟨⟨⟨first, hindex⟩, item⟩ :: sources, ?_, ?_, ?_⟩
    · rw [indexedSources, hsources, indexedSource, dif_pos hindex]
      rfl
    · rw [List.map_cons, hindexes, List.length_cons, List.range'_succ]
    · rw [List.map_cons, hevidence]

theorem materializeDeepResearchArtifact_isSome {evidence : List (WebEvidence HttpUrl)}
    (hnonempty : evidence ≠ []) (hcount : evidence.length ≤ maxResearchSources)
    (hkeys : (evidence.map evidenceKey).Nodup) {report : DeepResearchReport}
    (hcited : ∀ index ∈ report.referencedSourceIndexes, 1 ≤ index ∧ index ≤ evidence.length)
    (harnessMode : ResearchHarnessMode) (coverage : DeepResearchSearchCoverage)
    (modelAudits : List ModelExecutionAudit) (committed : Bool) :
    (materializeDeepResearchArtifact report evidence harnessMode coverage modelAudits
      committed).isSome := by
  unfold maxResearchSources at hcount
  obtain ⟨sources, hsources, hindexes, hevidence⟩ := indexedSources_ok evidence le_rfl (by omega)
  have hlength : sources.length = evidence.length := by
    rw [← hevidence, List.length_map]
  have hpositive := List.length_pos_iff.mpr hnonempty
  have hbounds : 1 ≤ sources.length ∧ sources.length ≤ 8 := by omega
  have hcoherent : (DeepResearchFields.mk committed harnessMode coverage report ⟨sources, hbounds⟩
      modelAudits).Coherent := by
    refine ⟨by rw [hindexes, hlength], ?_, ?_⟩
    · have hsame : evidence.map (fun item => (item.finalUrl, item.contentHash)) =
          sources.map fun source => (source.evidence.finalUrl, source.evidence.contentHash) := by
        rw [← hevidence, List.map_map]
        rfl
      rw [← hsame]
      -- two pieces of evidence have the same URL exactly if its text is the same
      refine List.Nodup.of_map (fun pair : HttpUrl × String => (pair.1.text, pair.2)) ?_
      rw [List.map_map]
      exact hkeys
    · intro index hindex
      rw [hindexes, List.mem_range'_1]
      have hrange := hcited index hindex
      omega
  have hlimit : ¬(evidence = [] ∨ maxResearchSources < evidence.length) := by
    rintro (hnil | hlt)
    · exact hnonempty hnil
    · exact absurd hcount (not_le.mpr hlt)
  unfold materializeDeepResearchArtifact
  rw [if_neg hlimit, hsources]
  simp only [Option.bind_eq_bind, Option.bind_some, dif_pos hbounds, DeepResearchArtifact.of?,
    dif_pos hcoherent, Option.isSome_some]

variable (isoformat : DateTime → String)

/-- The query lists that the tool accepts. -/
def IsAdmissible (queries : List (List Char)) : Prop :=
  (1 ≤ (normalizedQueries queries).length ∧ (normalizedQueries queries).length ≤ 3) ∧
    ∀ query ∈ normalizedQueries queries, query ≠ [] ∧ query.length ≤ 500

/-- The calls of a ledger, one after the other. -/
def SourceLedger.afterCalls (ledger : SourceLedger)
    (calls : List (List (List Char) × (List Char → SearchResult))) : SourceLedger :=
  calls.foldl (fun ledger call => (ledger.collect isoformat call.1 call.2).ledger) ledger

theorem SourceLedger.collect_of_admissible {queries : List (List Char)} (h : IsAdmissible queries)
    (ledger : SourceLedger) (search : List Char → SearchResult) :
    ledger.collect isoformat queries search =
      match ledger.toolResult with
      | some toolResult => ⟨.ok toolResult, ledger, []⟩
      | none =>
        match ({} : SearchTally).noteAll 1 ((normalizedQueries queries).map search) with
        | .error e => ⟨.error e, ledger, normalizedQueries queries⟩
        | .ok tally =>
          let completed := ledger.complete isoformat (normalizedQueries queries).length tally
          ⟨completed.1, completed.2, normalizedQueries queries⟩ := by
  have hlengths : ¬∃ query ∈ normalizedQueries queries, query = [] ∨ 500 < query.length := by
    rintro ⟨query, hmem, hnil | hlong⟩
    · exact (h.2 query hmem).1 hnil
    · exact absurd (h.2 query hmem).2 (not_le.mpr hlong)
  unfold collect
  exact (if_neg (not_not.mpr h.1)).trans (if_neg hlengths)

/-- A ledger that has succeeded answers an admissible call from what it holds. -/
theorem SourceLedger.collect_finished {ledger : SourceLedger} {toolResult : Json}
    (hfinished : ledger.toolResult = some toolResult) {queries : List (List Char)}
    (h : IsAdmissible queries) (search : List Char → SearchResult) :
    ledger.collect isoformat queries search = ⟨.ok toolResult, ledger, []⟩ := by
  rw [collect_of_admissible isoformat h, hfinished]

theorem SourceLedger.afterCalls_finished {ledger : SourceLedger} {toolResult : Json}
    (hfinished : ledger.toolResult = some toolResult)
    (calls : List (List (List Char) × (List Char → SearchResult))) :
    ledger.afterCalls isoformat calls = ledger := by
  induction calls with
  | nil => rfl
  | cons call rest ih =>
    have hcall : (ledger.collect isoformat call.1 call.2).ledger = ledger := by
      unfold collect
      dsimp only
      rw [hfinished]
      split_ifs <;> rfl
    unfold afterCalls at ih ⊢
    rw [List.foldl_cons, hcall]
    exact ih

theorem foundEvidence_ne_nil {result : SearchResult} {found : List (WebEvidence HttpUrl)}
    (h : foundEvidence result = some found) : found ≠ [] := by
  rcases result with exc | _ | ⟨item, rest⟩
  · cases h
  · cases h
  · cases h
    exact List.cons_ne_nil _ _

theorem interleave_ne_nil {sets : List (List (WebEvidence HttpUrl))}
    {found : List (WebEvidence HttpUrl)} (hmem : found ∈ sets) (hnonempty : found ≠ []) :
    interleave sets ≠ [] := by
  have hpositive := List.length_pos_iff.mpr hnonempty
  have hfirst : found[0] ∈ turn sets 0 :=
    List.mem_filterMap.mpr ⟨found, hmem, List.getElem?_eq_getElem hpositive⟩
  rw [interleave, turnsFrom_of_lt hmem hpositive]
  exact List.ne_nil_of_mem (List.mem_append_left _ hfirst)

/-- A search that found nothing failed in one of two ways. -/
theorem exists_failure {results : List SearchResult} (hresults : results ≠ [])
    (hnone : results.filterMap foundEvidence = []) :
    ∃ exc, (results.findSome? providerFailure).or (results.findSome? missingFailure) =
      some exc := by
  obtain ⟨first, rest, rfl⟩ := List.exists_cons_of_ne_nil hresults
  rcases first with exc | _ | ⟨item, items⟩
  · exact ⟨exc, rfl⟩
  · cases hprovider : (Except.ok [] :: rest : List SearchResult).findSome? providerFailure with
    | some exc => exact ⟨exc, rfl⟩
    | none => exact ⟨missingEvidence, rfl⟩
  · simp [foundEvidence] at hnone

/-- The evidence of a call by what its searches found. -/
def evidenceOf (results : List SearchResult) : List (WebEvidence HttpUrl) :=
  (fresh evidenceKey [] (interleave (results.filterMap foundEvidence))).take maxResearchSources

theorem evidenceOf_ne_nil {results : List SearchResult}
    (h : results.filterMap foundEvidence ≠ []) : evidenceOf results ≠ [] := by
  obtain ⟨found, hfound⟩ := List.exists_mem_of_ne_nil _ h
  obtain ⟨result, -, hresult⟩ := List.mem_filterMap.mp hfound
  have hinterleaved := interleave_ne_nil hfound (foundEvidence_ne_nil hresult)
  unfold evidenceOf
  rw [Ne, List.take_eq_nil_iff]
  rintro (hzero | hnil)
  · cases hzero
  · exact fresh_ne_nil evidenceKey hinterleaved hnil

theorem nodup_evidenceOf (results : List SearchResult) :
    ((evidenceOf results).map evidenceKey).Nodup := by
  unfold evidenceOf
  rw [List.map_take]
  exact (nodup_fresh evidenceKey [] _).sublist (List.take_sublist _ _)

/-- What a call makes of a new ledger when no search finds evidence. -/
theorem SourceLedger.collect_failed {queries : List (List Char)} (h : IsAdmissible queries)
    (search : List Char → SearchResult)
    (hnone : ((normalizedQueries queries).map search).filterMap foundEvidence = []) :
    ∃ exc, (((normalizedQueries queries).map search).findSome? providerFailure).or
        (((normalizedQueries queries).map search).findSome? missingFailure) = some exc ∧
      ({} : SourceLedger).collect isoformat queries search =
        ⟨.error (.unavailable exc), {}, normalizedQueries queries⟩ := by
  have hcount := h.1
  rw [← List.length_map search] at hcount
  rw [collect_of_admissible isoformat h]
  generalize hresults : (normalizedQueries queries).map search = results at hnone hcount ⊢
  obtain ⟨tally, htally, hextends⟩ :=
    ({} : SearchTally).noteAll_ok le_rfl results (by omega)
  have hnonempty : results ≠ [] := List.length_pos_iff.mp hcount.1
  obtain ⟨exc, hexc⟩ := exists_failure hnonempty hnone
  refine ⟨exc, hexc, ?_⟩
  have hzero : tally.successfulQueries = 0 := by rw [hextends.count, hnone]; rfl
  have hprovider := hextends.providerFailure
  have hmissing := hextends.missingFailure
  rw [Option.none_or] at hprovider hmissing
  rw [← hprovider, ← hmissing] at hexc
  simp only [htally, complete, hzero, if_true]
  cases hfirst : tally.firstProviderFailure with
  | some failure =>
    rw [hfirst, Option.some_or] at hexc
    cases hexc
    rfl
  | none =>
    rw [hfirst, Option.none_or] at hexc
    rw [hexc]

/-- What a call makes of a new ledger when a search finds evidence. -/
theorem SourceLedger.collect_found {queries : List (List Char)} (h : IsAdmissible queries)
    (search : List Char → SearchResult)
    (hfound : ((normalizedQueries queries).map search).filterMap foundEvidence ≠ []) :
    ∃ (coverage : DeepResearchSearchCoverage) (ledger : SourceLedger),
      coverage.val.attemptedQueries.val = (normalizedQueries queries).length ∧
        coverage.val.successfulQueries.val =
          (((normalizedQueries queries).map search).filterMap foundEvidence).length ∧
        ledger.evidence = evidenceOf ((normalizedQueries queries).map search) ∧
        ledger.coverage = some coverage ∧
        ledger.toolResult = some (toolResultOf isoformat ledger.evidence coverage) ∧
        ({} : SourceLedger).collect isoformat queries search =
          ⟨.ok (toolResultOf isoformat ledger.evidence coverage), ledger,
            normalizedQueries queries⟩ := by
  have hcount := h.1
  rw [collect_of_admissible isoformat h, ← List.length_map search]
  rw [← List.length_map search] at hcount
  generalize hresults : (normalizedQueries queries).map search = results at hfound hcount ⊢
  obtain ⟨tally, htally, hextends⟩ :=
    ({} : SearchTally).noteAll_ok le_rfl results (by omega)
  obtain ⟨failures, hfailures, hlength, hordered, hindexes⟩ := hextends.failures
  have hsets := hextends.sets
  have hsuccessful := hextends.count
  have hpositive := List.length_pos_iff.mpr hfound
  simp only [List.nil_append, Nat.zero_add] at hfailures hsets hsuccessful
  have hbelow : ∀ failure ∈ failures, failure.queryIndex.val ≤ results.length := by
    intro failure hfailure
    have hbound := (hindexes failure hfailure).2
    omega
  obtain ⟨coverage, hcoverage, hattempted, hsuccess, -⟩ :=
    coverageOf_isSome hcount.2 hpositive hlength hordered hbelow
  have htaken : (takeTurns tally.successfulResultSets 0 {}).evidence = evidenceOf results := by
    rw [takeTurns_eq, evidence_foldl_admitItem (Nat.zero_le _), hsets]
    rfl
  have hne : tally.successfulQueries ≠ 0 := by omega
  rw [← hfailures, ← hsuccessful] at hcoverage
  refine ⟨coverage, { takeTurns tally.successfulResultSets 0 {} with
    coverage := some coverage
    toolResult := some (toolResultOf isoformat
      (takeTurns tally.successfulResultSets 0 {}).evidence coverage) },
    hattempted, hsuccess, htaken, rfl, rfl, ?_⟩
  simp only [htally, complete, if_neg hne, hcoverage]

/-- A ledger is as new until a call succeeds. -/
theorem SourceLedger.collect_settled {ledger : SourceLedger}
    (h : ledger = {} ∨ ledger.toolResult.isSome) (queries : List (List Char))
    (search : List Char → SearchResult) :
    (ledger.collect isoformat queries search).ledger = {} ∨
      (ledger.collect isoformat queries search).ledger.toolResult.isSome := by
  by_cases hadmissible : IsAdmissible queries
  · rcases h with rfl | hfinished
    · by_cases hfound : ((normalizedQueries queries).map search).filterMap foundEvidence = []
      · obtain ⟨exc, -, hcollected⟩ := collect_failed isoformat hadmissible search hfound
        rw [hcollected]
        exact .inl rfl
      · obtain ⟨coverage, ledger, -, -, -, -, htool, hcollected⟩ :=
          collect_found isoformat hadmissible search hfound
        rw [hcollected, htool]
        exact .inr rfl
    · obtain ⟨toolResult, htool⟩ := Option.isSome_iff_exists.mp hfinished
      rw [collect_finished isoformat htool hadmissible]
      exact .inr hfinished
  · -- a list that is refused leaves the ledger alone
    have hledger : (ledger.collect isoformat queries search).ledger = ledger := by
      unfold collect
      by_cases hcount : 1 ≤ (normalizedQueries queries).length ∧
          (normalizedQueries queries).length ≤ maxSearchQueries
      · have hlengths : ∃ query ∈ normalizedQueries queries, query = [] ∨ 500 < query.length := by
          by_contra hnone
          refine hadmissible ⟨hcount, fun query hmem => ⟨fun hnil => ?_, ?_⟩⟩
          · exact hnone ⟨query, hmem, .inl hnil⟩
          · by_contra hlong
            exact hnone ⟨query, hmem, .inr (not_le.mp hlong)⟩
        dsimp only
        rw [if_neg (not_not.mpr hcount), if_pos hlengths]
      · dsimp only
        rw [if_pos hcount]
    rw [hledger]
    exact h

theorem SourceLedger.afterCalls_eq_new
    {calls : List (List (List Char) × (List Char → SearchResult))}
    (h : (({} : SourceLedger).afterCalls isoformat calls).toolResult = none) :
    ({} : SourceLedger).afterCalls isoformat calls = {} := by
  have hsettled : ∀ ledger : SourceLedger, ledger = {} ∨ ledger.toolResult.isSome →
      ledger.afterCalls isoformat calls = {} ∨
        (ledger.afterCalls isoformat calls).toolResult.isSome := by
    clear h
    induction calls with
    | nil => exact fun ledger h => h
    | cons call rest ih =>
      intro ledger h
      exact ih _ (ledger.collect_settled isoformat h call.1 call.2)
  rcases hsettled {} (.inl rfl) with hnew | hfinished
  · exact hnew
  · rw [h] at hfinished
    cases hfinished

/-- A call of a ledger that has not succeeded yet. Either no search finds evidence, the first
failure is raised and the ledger is as new; or the evidence is the first part of the found lists
in turn, and every later call and every artifact goes by it. -/
theorem ledger_collects {earlier : List (List (List Char) × (List Char → SearchResult))}
    (hopen : (({} : SourceLedger).afterCalls isoformat earlier).toolResult = none)
    {queries : List (List Char)} (hqueries : IsAdmissible queries)
    (search : List Char → SearchResult) :
    let ledger := ({} : SourceLedger).afterCalls isoformat earlier
    let results := (normalizedQueries queries).map search
    let collected := ledger.collect isoformat queries search
    (results.filterMap foundEvidence = [] →
      ∃ exc, (results.findSome? providerFailure).or (results.findSome? missingFailure) = some exc ∧
        collected.result = .error (.unavailable exc) ∧ collected.ledger = {}) ∧
    (results.filterMap foundEvidence ≠ [] →
      ∃ text coverage, collected.result = .ok text ∧ collected.ledger.coverage = some coverage ∧
        collected.ledger.evidence = evidenceOf results ∧
        (∀ calls, collected.ledger.afterCalls isoformat calls = collected.ledger) ∧
        (∀ later, IsAdmissible later → ∀ laterSearch,
          collected.ledger.collect isoformat later laterSearch =
            ⟨.ok text, collected.ledger, []⟩) ∧
        ∀ report : DeepResearchReport,
          (∀ index ∈ report.referencedSourceIndexes,
            1 ≤ index ∧ index ≤ collected.ledger.evidence.length) →
          ∀ harnessMode modelAudits committed,
            (materializeDeepResearchArtifact report collected.ledger.evidence harnessMode coverage
              modelAudits committed).isSome) := by
  dsimp only
  rw [SourceLedger.afterCalls_eq_new isoformat hopen]
  constructor
  · intro hnone
    obtain ⟨exc, hexc, hcollected⟩ :=
      SourceLedger.collect_failed isoformat hqueries search hnone
    rw [hcollected]
    exact ⟨exc, hexc, rfl, rfl⟩
  · intro hfound
    obtain ⟨coverage, ledger, -, -, hevidence, hcoverage, htool, hcollected⟩ :=
      SourceLedger.collect_found isoformat hqueries search hfound
    rw [hcollected]
    refine ⟨_, coverage, rfl, hcoverage, hevidence,
      fun calls => SourceLedger.afterCalls_finished isoformat htool calls,
      fun later hlater laterSearch =>
        SourceLedger.collect_finished isoformat htool hlater laterSearch,
      fun report hcited harnessMode modelAudits committed => ?_⟩
    rw [hevidence] at hcited ⊢
    exact materializeDeepResearchArtifact_isSome (evidenceOf_ne_nil hfound)
      (List.length_take_le _ _) (nodup_evidenceOf _) hcited harnessMode coverage modelAudits
      committed

def citedSource (url hash : String) : WebEvidence HttpUrl where
  query := "btc"
  finalUrl := ⟨url⟩
  redirectChain := []
  httpStatus := none
  fetchedAt := ⟨"2026-01-01T00:00:00Z"⟩
  publishedAt := none
  contentHash := hash
  parserVersion := "tavily-v1"
  title := "Title"
  author := none
  source := "example.com"
  excerpt := "Excerpt"
  evidenceRelation := "supports"

/-- The first question times out, the other two find overlapping lists. -/
def partialSearch (query : List Char) : SearchResult :=
  if query = ['a'] then
    .error { message := "timeout", provider := "tavily", errorType := some "TimeoutError" }
  else if query = ['b'] then .ok [citedSource "https://b.example/" "1"]
  else .ok [citedSource "https://b.example/" "1", citedSource "https://c.example/" "2"]

theorem ledger_collects_partial :
    ∃ text coverage,
      (({} : SourceLedger).collect DateTime.text [['a'], [' ', 'b'], ['c']] partialSearch).result =
          .ok text ∧
        (({} : SourceLedger).collect DateTime.text [['a'], [' ', 'b'], ['c']]
          partialSearch).ledger.coverage = some coverage ∧
        (({} : SourceLedger).collect DateTime.text [['a'], [' ', 'b'], ['c']]
          partialSearch).ledger.evidence =
            [citedSource "https://b.example/" "1", citedSource "https://c.example/" "2"] := by
  have hqueries : IsAdmissible [['a'], [' ', 'b'], ['c']] := by
    unfold IsAdmissible
    decide +kernel
  have hfound : ((normalizedQueries [['a'], [' ', 'b'], ['c']]).map partialSearch).filterMap
      foundEvidence ≠ [] := by decide +kernel
  have hevidence : evidenceOf ((normalizedQueries [['a'], [' ', 'b'], ['c']]).map partialSearch) =
      [citedSource "https://b.example/" "1", citedSource "https://c.example/" "2"] := by
    decide +kernel
  have hopen : (({} : SourceLedger).afterCalls DateTime.text []).toolResult = none := rfl
  obtain ⟨text, coverage, hresult, hcoverage, hledger, -⟩ :=
    (ledger_collects DateTime.text hopen hqueries partialSearch).2 hfound
  exact ⟨text, coverage, hresult, hcoverage, hledger.trans hevidence⟩

/-- A list that normalises to one empty query is refused before any search. -/
theorem empty_query_refused :
    ¬∀ (queries : List (List Char)) (search : List Char → SearchResult),
      1 ≤ (normalizedQueries queries).length → (normalizedQueries queries).length ≤ 3 →
        ((normalizedQueries queries).map search).filterMap foundEvidence ≠ [] →
          ∃ text, (({} : SourceLedger).collect DateTime.text queries search).result = .ok text := by
  intro h
  obtain ⟨text, htext⟩ := h [[' ']] (fun _ => .ok [citedSource "https://b.example/" "1"])
    (by decide +kernel) (by decide +kernel) (by decide +kernel)
  have hrefused : (({} : SourceLedger).collect DateTime.text [[' ']]
      (fun _ => .ok [citedSource "https://b.example/" "1"])).result =
        .error (.valueError "verified search queries must contain 1 to 500 characters") := by
    have hcount : ¬¬(1 ≤ (normalizedQueries [[' ']]).length ∧
        (normalizedQueries [[' ']]).length ≤ maxSearchQueries) := by decide +kernel
    have hempty : ∃ query ∈ normalizedQueries [[' ']], query = [] ∨ 500 < query.length := by
      decide +kernel
    unfold SourceLedger.collect
    dsimp only
    rw [if_neg hcount, if_pos hempty]
  rw [hrefused] at htext
  cases htext

end CryptoAlert
