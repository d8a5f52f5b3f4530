import CryptoAlert.Providers.RetryPolicy
import Mathlib.Data.List.GetD

/-!
# The two budgets of a retry policy

No run calls its operation more often than it has attempts. Every timeout and every delay fits
into the time that was left at the reading before it, so a run passes its deadline only by time
that passes outside its calls and sleeps.
-/

namespace CryptoAlert

open Budgets (Activity Within)

theorem backoffAt_nonneg {backoffSeconds : List ℚ} (h : ∀ delay ∈ backoffSeconds, 0 ≤ delay)
    (index : ℕ) : 0 ≤ backoffAt backoffSeconds index := by
  unfold backoffAt
  by_cases hlt : min index (backoffSeconds.length - 1) < backoffSeconds.length
  · rw [List.getD_eq_getElem _ _ hlt]
    exact h _ (List.getElem_mem hlt)
  · rw [List.getD_eq_default _ _ (not_lt.mp hlt)]

namespace RetryRun

variable {β ρ : Type}

/-- The calls of a run. -/
def calls (run : RetryRun β ρ) : List Activity := run.activities.filter fun a => a.kind = .call

theorem length_calls_after (run : RetryRun β ρ) (activities : List Activity) (records : List ρ) :
    (run.after activities records).calls.length =
      (activities.filter fun a => a.kind = .call).length + run.calls.length := by
  simp only [calls, after, List.filter_append, List.length_append]

/-- What holds of a run from a time on: the number of its calls, that no timeout is zero, and that
its activities stay within the deadline. -/
structure Bounded (deadline : ℚ) (limit : ℕ) (first : ℚ) (run : RetryRun β ρ) : Prop where
  calls : run.calls.length ≤ limit
  timeouts : ∀ a ∈ run.calls, 0 < a.allowance
  within : Within deadline first run.activities run.finish

theorem bounded_nil {deadline first last : ℚ} {limit : ℕ} {records : List ρ} {result : β}
    (h : first ≤ last) :
    Bounded deadline limit first (⟨[], records, result, last⟩ : RetryRun β ρ) where
  calls := Nat.zero_le limit
  timeouts := by rintro _ ⟨⟩
  within := .nil h

theorem Bounded.call {deadline : ℚ} {limit : ℕ} {first : ℚ} {run : RetryRun β ρ} {a : Activity}
    (record : List ρ) (hkind : a.kind = .call) (hread : first ≤ a.readAt)
    (hstart : a.readAt ≤ a.start) (hfinish : a.start ≤ a.finish) (htimeout : 0 < a.allowance)
    (hallowance : a.allowance ≤ deadline - a.readAt) (h : run.Bounded deadline limit a.finish) :
    (run.after [a] record).Bounded deadline (limit + 1) first where
  calls := by
    have hcalls := h.calls
    simp only [length_calls_after, List.filter_cons, hkind, decide_true, if_true,
      List.filter_nil, List.length_singleton]
    omega
  timeouts b hb := by
    have hmem : b ∈ (run.after [a] record).activities := List.mem_of_mem_filter hb
    rcases List.mem_cons.mp hmem with rfl | hrest
    · exact htimeout
    · exact h.timeouts b (List.mem_filter.mpr ⟨hrest, (List.mem_filter.mp hb).2⟩)
  within := .cons hread hstart hfinish hallowance h.within

theorem Bounded.sleep {deadline : ℚ} {limit : ℕ} {first : ℚ} {run : RetryRun β ρ} {a : Activity}
    (record : List ρ) (hkind : a.kind = .sleep) (hread : first ≤ a.readAt)
    (hstart : a.readAt ≤ a.start) (hfinish : a.start ≤ a.finish)
    (hallowance : a.allowance ≤ deadline - a.readAt) (h : run.Bounded deadline limit a.finish) :
    (run.after [a] record).Bounded deadline limit first where
  calls := by
    simp only [length_calls_after, List.filter_cons, hkind, reduceCtorEq, decide_false,
      Bool.false_eq_true, if_false, List.filter_nil, List.length_nil, zero_add]
    exact h.calls
  timeouts b hb := by
    have hmem : b ∈ (run.after [a] record).activities := List.mem_of_mem_filter hb
    have hcall := (List.mem_filter.mp hb).2
    rcases List.mem_cons.mp hmem with rfl | hrest
    · rw [hkind] at hcall
      cases hcall
    · exact h.timeouts b (List.mem_filter.mpr ⟨hrest, hcall⟩)
  within := .cons hread hstart hfinish hallowance h.within

/-- A run that ends after a call. -/
theorem bounded_lastCall {deadline : ℚ} (limit : ℕ) {first last : ℚ} {a : Activity}
    (records : List ρ) (result : β) (hkind : a.kind = .call) (hread : first ≤ a.readAt)
    (hstart : a.readAt ≤ a.start) (hfinish : a.start ≤ a.finish) (htimeout : 0 < a.allowance)
    (hallowance : a.allowance ≤ deadline - a.readAt) (hlast : a.finish ≤ last) :
    Bounded deadline (limit + 1) first (⟨[a], records, result, last⟩ : RetryRun β ρ) := by
  have hnil : Bounded deadline limit a.finish (⟨[], records, result, last⟩ : RetryRun β ρ) :=
    bounded_nil hlast
  exact hnil.call [] hkind hread hstart hfinish htimeout hallowance

end RetryRun

theorem RetryPolicy.loop_bounded {α : Type} (policy : RetryPolicy) {clock : ℕ → ℚ}
    (hclock : Monotone clock) (operation : ℕ → ℚ → ProviderOutcome α) (deadline : ℚ)
    (left attemptIndex tick : ℕ) (lastError : Option ProviderUnavailable) {first : ℚ}
    (hfirst : first ≤ clock tick) :
    (policy.loop clock operation deadline left attemptIndex tick lastError).Bounded deadline left
      first := by
  induction left generalizing attemptIndex tick lastError first with
  | zero => exact RetryRun.bounded_nil hfirst
  | succ left ih =>
    have htick (i : ℕ) : clock (tick + i) ≤ clock (tick + i + 1) := hclock (Nat.le_succ _)
    have hstart : clock tick ≤ clock (tick + 1) := htick 0
    unfold loop
    dsimp only
    by_cases hremaining : deadline - clock tick ≤ 0
    · rw [if_pos hremaining]
      exact RetryRun.bounded_nil (hfirst.trans hstart)
    rw [if_neg hremaining]
    -- a run that ends with this call
    have hlast (result : ProviderResult α) (i : ℕ) (hi : 2 ≤ i) :
        RetryRun.Bounded deadline (left + 1) first (⟨[⟨.call, clock tick, deadline - clock tick,
          clock (tick + 1), clock (tick + 2)⟩], [], result, clock (tick + i)⟩ :
            RetryRun (ProviderResult α) Empty) :=
      RetryRun.bounded_lastCall left [] result rfl hfirst hstart (htick 1) (not_le.mp hremaining)
        le_rfl (hclock (Nat.add_le_add_left hi tick))
    cases operation attemptIndex (deadline - clock tick) with
    | returned value => exact hlast _ 3 (by omega)
    | crashed => exact hlast _ 3 (by omega)
    | unavailable raised =>
      dsimp only
      split
      · exact hlast _ 3 (by omega)
      split
      · exact hlast _ 3 (by omega)
      split
      · exact hlast _ 4 (by omega)
      next hdelay =>
        have hrest := ih (attemptIndex + 1) (tick + 6)
          (some { raised with attempt := some (attemptIndex + 1 : ℤ) }) (htick 5)
        have hslept := hrest.sleep (a := ⟨.sleep, clock (tick + 3),
          backoffAt policy.backoffSeconds attemptIndex, clock (tick + 4), clock (tick + 5)⟩)
          [] rfl (htick 2) (htick 3) (htick 4) (not_le.mp hdelay).le
        exact hslept.call (a := ⟨.call, clock tick, deadline - clock tick, clock (tick + 1),
          clock (tick + 2)⟩) [] rfl hfirst hstart (htick 1) (not_le.mp hremaining) le_rfl

namespace SearchRetryPolicy

variable {α : Type} (policy : SearchRetryPolicy)

/-- At most half of the time that is left is reserved for later delays. -/
theorem attemptTimeoutSeconds_bounds {remaining : ℚ} (hremaining : 0 < remaining) (attempt : ℕ) :
    0 < policy.attemptTimeoutSeconds remaining attempt ∧
      policy.attemptTimeoutSeconds remaining attempt ≤ remaining := by
  unfold attemptTimeoutSeconds
  dsimp only
  generalize hfuture : ((List.range' (attempt - 1) (policy.maxAttempts - attempt)).map
    (backoffAt policy.backoffSeconds)).sum = futureBackoff
  have hnonneg : 0 ≤ futureBackoff := by
    rw [← hfuture]
    refine List.sum_nonneg fun delay hdelay => ?_
    obtain ⟨index, -, rfl⟩ := List.mem_map.mp hdelay
    exact backoffAt_nonneg policy.backoff.2 index
  have hhalf : min futureBackoff (remaining / 2) ≤ remaining / 2 := min_le_right _ _
  have hreserved : 0 ≤ min futureBackoff (remaining / 2) := le_min hnonneg (by linarith)
  have husable : 0 < remaining - min futureBackoff (remaining / 2) := by linarith
  split
  · have hshare := policy.share
    refine ⟨mul_pos husable hshare.1, ?_⟩
    have hle := mul_le_of_le_one_right husable.le hshare.2
    linarith
  · have hcount : (1 : ℚ) ≤ ((policy.maxAttempts - attempt + 1 : ℕ) : ℚ) := by
      exact_mod_cast Nat.le_add_left 1 _
    refine ⟨div_pos husable (zero_lt_one.trans_le hcount), ?_⟩
    have hle := div_le_self husable.le hcount
    linarith

theorem loop_bounded {clock : ℕ → ℚ} (hclock : Monotone clock)
    (operation : ℚ → ℕ → SearchOutcome α) (provider : String) (correlationId : Option String)
    (deadline : ℚ) (left attempt tick : ℕ) (lastError : Option ResearchUnavailable) {first : ℚ}
    (hfirst : first ≤ clock tick) :
    (policy.loop clock operation provider correlationId deadline left attempt tick
      lastError).Bounded deadline left first := by
  induction left generalizing attempt tick lastError first with
  | zero => exact RetryRun.bounded_nil hfirst
  | succ left ih =>
    have htick (i : ℕ) : clock (tick + i) ≤ clock (tick + i + 1) := hclock (Nat.le_succ _)
    have hstart : clock tick ≤ clock (tick + 2) := hclock (Nat.le_add_right tick 2)
    unfold loop
    dsimp only
    by_cases hremaining : deadline - clock tick ≤ 0
    · rw [if_pos hremaining]
      exact RetryRun.bounded_nil (hfirst.trans (htick 0))
    rw [if_neg hremaining]
    have htimeout := policy.attemptTimeoutSeconds_bounds (not_le.mp hremaining) attempt
    generalize policy.attemptTimeoutSeconds (deadline - clock tick) attempt = timeout at htimeout ⊢
    have hlast (records : List SearchAttempt) (result : SearchOutcome α) (i : ℕ) (hi : 3 ≤ i) :
        RetryRun.Bounded deadline (left + 1) first (⟨[⟨.call, clock tick, timeout,
          clock (tick + 2), clock (tick + 3)⟩], records, result, clock (tick + i)⟩ :
            RetryRun (SearchOutcome α) SearchAttempt) :=
      RetryRun.bounded_lastCall left records result rfl hfirst hstart (htick 2) htimeout.1
        htimeout.2 (hclock (Nat.add_le_add_left hi tick))
    cases operation timeout attempt with
    | returned value => exact hlast _ _ 5 (by omega)
    | crashed => exact hlast _ _ 4 (by omega)
    | unavailable raised =>
      dsimp only
      generalize hdelay : max (backoffAt policy.backoffSeconds (attempt - 1))
        (max 0 (raised.retryAfterSeconds.getD 0)) = delay
      generalize hretry : decide (raised.retryable = true ∧ attempt < policy.maxAttempts ∧
        0 < deadline - clock (tick + 4) ∧ delay < deadline - clock (tick + 4)) = canRetry
      cases canRetry with
      | false => exact hlast _ _ 6 (by omega)
      | true =>
        have hfits : delay < deadline - clock (tick + 4) := (of_decide_eq_true hretry).2.2.2
        have hrest := ih (attempt + 1) (tick + 8)
          (some { raised with attempt := some (attempt : ℤ) }) (htick 7)
        have hslept := hrest.sleep (a := ⟨.sleep, clock (tick + 4), delay, clock (tick + 6),
          clock (tick + 7)⟩) [] rfl (htick 3) (hclock (by omega)) (htick 6) hfits.le
        exact hslept.call (a := ⟨.call, clock tick, timeout, clock (tick + 2), clock (tick + 3)⟩)
          _ rfl hfirst hstart (htick 2) htimeout.1 htimeout.2

theorem loopAsync_eq (clock : ℕ → ℚ) (operation : ℚ → ℕ → SearchOutcome α) (provider : String)
    (correlationId : Option String) (deadline : ℚ) (left attempt tick : ℕ)
    (lastError : Option ResearchUnavailable) :
    policy.loopAsync clock operation provider correlationId deadline left attempt tick lastError =
      policy.loop clock operation provider correlationId deadline left attempt tick lastError := by
  induction left generalizing attempt tick lastError with
  | zero => rfl
  | succ left ih =>
    unfold loopAsync loop
    simp only [ih]

theorem executeAsync_eq (clock : ℕ → ℚ) (operation : ℚ → ℕ → SearchOutcome α)
    (provider : String) (correlationId : Option String) :
    policy.executeAsync clock operation provider correlationId =
      policy.execute clock operation provider correlationId :=
  policy.loopAsync_eq clock operation provider correlationId _ _ _ _ _

end SearchRetryPolicy

/-- What a run over a clock keeps of its two budgets. Between the readings and the activities the
clock may move on; that time is idle. -/
structure KeepsBudgets {β ρ : Type} (maxAttempts : ℕ) (totalBudgetSeconds : ℚ) (clock : ℕ → ℚ)
    (run : RetryRun β ρ) : Prop where
  calls : run.calls.length ≤ maxAttempts
  /-- A timeout is positive and at most the time that was left when the attempt asked for it. -/
  timeouts : ∀ a ∈ run.calls,
    0 < a.allowance ∧ a.allowance ≤ clock 0 + totalBudgetSeconds - a.readAt ∧ a.readAt ≤ a.start
  /-- A delay ends before the deadline, as seen from the reading before it. -/
  sleeps : ∀ a ∈ run.activities, a.kind = .sleep →
    a.start + a.allowance ≤
      clock 0 + totalBudgetSeconds + Budgets.idle (clock 0) run.activities run.finish
  elapsed : (∀ a ∈ run.activities, a.Prompt) →
    run.finish - clock 0 ≤
      totalBudgetSeconds + Budgets.idle (clock 0) run.activities run.finish

theorem Budgets.Within.readAt_le {deadline first last : ℚ} {activities : List Activity}
    (h : Within deadline first activities last) {a : Activity} (ha : a ∈ activities) :
    a.readAt ≤ a.start := by
  induction h with
  | nil => cases ha
  | cons _ hstart _ _ _ ih =>
    rcases List.mem_cons.mp ha with rfl | hrest
    · exact hstart
    · exact ih hrest

theorem RetryRun.Bounded.keepsBudgets {β ρ : Type} {maxAttempts : ℕ} {totalBudgetSeconds : ℚ}
    {clock : ℕ → ℚ} {run : RetryRun β ρ} (hbudget : 0 < totalBudgetSeconds)
    (h : run.Bounded (clock 0 + totalBudgetSeconds) maxAttempts (clock 0)) :
    KeepsBudgets maxAttempts totalBudgetSeconds clock run where
  calls := h.calls
  timeouts a ha := by
    have hmem := List.mem_of_mem_filter ha
    exact ⟨h.timeouts a ha, h.within.allowance_le hmem, h.within.readAt_le hmem⟩
  sleeps a ha _ := h.within.allowed_le ha
  elapsed hprompt := by
    have hlast := h.within.last_le hprompt
    rw [max_eq_left (by linarith)] at hlast
    linarith

/-- Both policies keep their budgets on every clock, and the two executors of the search policy
do the same. -/
theorem retry_budgets {α : Type} (policy : RetryPolicy) (search : SearchRetryPolicy)
    {clock : ℕ → ℚ} (hclock : Monotone clock) (operation : ℕ → ℚ → ProviderOutcome α)
    (lookup : ℚ → ℕ → SearchOutcome α) (provider : String) (correlationId : Option String) :
    KeepsBudgets policy.maxAttempts policy.totalBudgetSeconds clock
        (policy.execute clock operation) ∧
      KeepsBudgets search.maxAttempts search.totalBudgetSeconds clock
        (search.execute clock lookup provider correlationId) ∧
      search.executeAsync clock lookup provider correlationId =
        search.execute clock lookup provider correlationId := by
  have hfirst : clock 0 ≤ clock 1 := hclock (Nat.zero_le 1)
  refine ⟨?_, ?_, search.executeAsync_eq clock lookup provider correlationId⟩
  · apply RetryRun.Bounded.keepsBudgets policy.budget.1
    exact policy.loop_bounded hclock operation _ _ _ _ _ hfirst
  · apply RetryRun.Bounded.keepsBudgets search.budget.1
    exact search.loop_bounded hclock lookup provider correlationId _ _ _ _ _ hfirst

def plainRetryPolicy : RetryPolicy where
  maxAttempts := 3
  totalBudgetSeconds := 10
  backoffSeconds := [1, 2]
  attempts := by decide
  budget := by norm_num
  backoff := by
    refine ⟨by decide, fun delay hdelay => ?_⟩
    simp only [List.mem_cons, List.not_mem_nil, or_false] at hdelay
    rcases hdelay with rfl | rfl <;> norm_num

def plainSearchPolicy : SearchRetryPolicy where
  maxAttempts := 3
  totalBudgetSeconds := 30
  backoffSeconds := [1, 2]
  firstAttemptBudgetShare := 1 / 2
  attempts := by decide
  budget := by norm_num
  backoff := plainRetryPolicy.backoff
  share := by norm_num

/-- One second passes between the reading of the remaining time and the call, which then takes the
ten seconds it was given. -/
def lateClock (tick : ℕ) : ℚ := if tick ≤ 1 then 0 else if tick ≤ 2 then 1 else 11

theorem monotone_lateClock : Monotone lateClock := by
  intro a b hab
  unfold lateClock
  split_ifs <;> first | omega | norm_num

theorem retry_budgets_late :
    KeepsBudgets plainRetryPolicy.maxAttempts plainRetryPolicy.totalBudgetSeconds lateClock
        (plainRetryPolicy.execute lateClock fun _ _ => .returned "snapshot") ∧
      KeepsBudgets plainSearchPolicy.maxAttempts plainSearchPolicy.totalBudgetSeconds lateClock
        (plainSearchPolicy.execute lateClock (fun _ _ => .returned "results") "tavily" none) ∧
      plainSearchPolicy.executeAsync lateClock (fun _ _ => .returned "results") "tavily" none =
        plainSearchPolicy.execute lateClock (fun _ _ => .returned "results") "tavily" none :=
  retry_budgets plainRetryPolicy plainSearchPolicy monotone_lateClock _ _ "tavily" none

/-- A run of prompt activities can outlast the budget, since the clock moves on between the reading
and the call. -/
theorem late_call_exceeds_budget :
    ¬∀ (policy : RetryPolicy) (clock : ℕ → ℚ) (operation : ℕ → ℚ → ProviderOutcome String),
      Monotone clock → (∀ a ∈ (policy.execute clock operation).activities, a.Prompt) →
        (policy.execute clock operation).finish - clock 0 ≤ policy.totalBudgetSeconds := by
  intro h
  have hrun : plainRetryPolicy.execute lateClock (fun _ _ => .returned "snapshot") =
      ⟨[⟨.call, 0, 10, 1, 11⟩], [], .returned "snapshot", 11⟩ := by
    norm_num [RetryPolicy.execute, RetryPolicy.loop, plainRetryPolicy, lateClock]
  have hprompt : ∀ a ∈ (plainRetryPolicy.execute lateClock fun _ _ =>
      .returned "snapshot").activities, a.Prompt := by
    rw [hrun]
    intro a ha
    rw [List.mem_singleton.mp ha]
    norm_num [Activity.Prompt]
  have hlate := h plainRetryPolicy lateClock (fun _ _ => .returned "snapshot") monotone_lateClock
    hprompt
  rw [hrun] at hlate
  norm_num [plainRetryPolicy, lateClock] at hlate

end CryptoAlert
