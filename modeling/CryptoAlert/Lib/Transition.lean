import Mathlib.Logic.Relation
import Mathlib.Tactic.SplitIfs

/-!
# Labelled transition systems

A system is a partial step function on states and labels. All nondeterminism (the scheduler,
the environment, fresh names) sits in the labels, so an interleaving is a list of labels. A
guard restricts which steps a run may take.
-/

namespace CryptoAlert

variable {σ ι : Type*}

/-- `Reaches step ok s t`: some run of guarded steps leads from `s` to `t`. -/
inductive Reaches (step : σ → ι → Option σ) (ok : σ → ι → Prop) (s : σ) : σ → Prop where
  | refl : Reaches step ok s s
  | tail {t u : σ} (run : Reaches step ok s t) (l : ι) (hok : ok t l)
      (hstep : step t l = some u) : Reaches step ok s u

/-- The guard that allows every step. -/
def anyStep (_ : σ) (_ : ι) : Prop := True

namespace Reaches

variable {step : σ → ι → Option σ} {ok ok' : σ → ι → Prop} {s t u : σ}

theorem trans (h : Reaches step ok s t) (h' : Reaches step ok t u) : Reaches step ok s u := by
  induction h' with
  | refl => exact h
  | tail _ l hok hstep ih => exact ih.tail l hok hstep

theorem mono (hle : ∀ s l, ok s l → ok' s l) (h : Reaches step ok s t) :
    Reaches step ok' s t := by
  induction h with
  | refl => exact .refl
  | tail _ l hok hstep ih => exact ih.tail l (hle _ l hok) hstep

/-- What every guarded step preserves holds at the end of every guarded run. -/
theorem invariant {I : σ → Prop} (hstep : ∀ s l t, ok s l → I s → step s l = some t → I t)
    (h : Reaches step ok s t) (hs : I s) : I t := by
  induction h with
  | refl => exact hs
  | tail _ l hok hs' ih => exact hstep _ l _ hok ih hs'

/-- The same with the help of a second invariant. -/
theorem invariant_of {I J : σ → Prop} (hI : ∀ s l t, ok s l → I s → step s l = some t → I t)
    (hJ : ∀ s l t, ok s l → I s → J s → step s l = some t → J t)
    (h : Reaches step ok s t) (hs : I s) (hs' : J s) : J t := by
  have hboth : I t ∧ J t := by
    refine h.invariant (I := fun s => I s ∧ J s) ?_ ⟨hs, hs'⟩
    intro s l t hok hs hst
    exact ⟨hI s l t hok hs.1 hst, hJ s l t hok hs.1 hs.2 hst⟩
  exact hboth.2

/-- A relation between the first state and the current one that every step extends. -/
theorem relation {R : σ → σ → Prop} (hrefl : R s s)
    (hstep : ∀ t l u, ok t l → R s t → step t l = some u → R s u)
    (h : Reaches step ok s t) : R s t :=
  h.invariant (I := R s) hstep hrefl

end Reaches

section History

variable {step : σ → ι → Option σ} {ok : σ → ι → Prop} {s t u : σ} {p : σ → Prop}

/-- `p` holds in some state on the way from `s` to `t`. -/
def Passed (step : σ → ι → Option σ) (ok : σ → ι → Prop) (s t : σ) (p : σ → Prop) : Prop :=
  ∃ u, Reaches step ok s u ∧ Reaches step ok u t ∧ p u

theorem Passed.now (h : Reaches step ok s t) (hp : p t) : Passed step ok s t p :=
  ⟨t, h, .refl, hp⟩

/-- What was passed stays passed. -/
theorem Passed.tail (h : Passed step ok s t p) (hrun : Reaches step ok t u) :
    Passed step ok s u p := by
  obtain ⟨v, hv, hvt, hp⟩ := h
  exact ⟨v, hv, hvt.trans hrun, hp⟩

end History

/-- The state after a list of labels, if all of them can happen. -/
def runLabels (step : σ → ι → Option σ) (s : σ) : List ι → Option σ
  | [] => some s
  | l :: ls => (step s l).bind fun t => runLabels step t ls

theorem reaches_of_runLabels {step : σ → ι → Option σ} {s t : σ} (ls : List ι)
    (h : runLabels step s ls = some t) : Reaches step anyStep s t := by
  induction ls generalizing s with
  | nil =>
      rw [runLabels, Option.some.injEq] at h
      rw [h]
      exact .refl
  | cons l ls ih =>
      obtain ⟨u, hu, hrest⟩ := Option.bind_eq_some_iff.mp h
      exact (Reaches.refl.tail l trivial hu).trans (ih hrest)

/-- The same for a guard that holds at every step of the list. -/
theorem reaches_of_guarded {step : σ → ι → Option σ} {ok : σ → ι → Prop} {s t : σ} (ls : List ι)
    (hok : ∀ s l, l ∈ ls → ok s l) (h : runLabels step s ls = some t) : Reaches step ok s t := by
  induction ls generalizing s with
  | nil =>
      rw [runLabels, Option.some.injEq] at h
      rw [h]
      exact .refl
  | cons l ls ih =>
      obtain ⟨u, hu, hrest⟩ := Option.bind_eq_some_iff.mp h
      have hfirst : Reaches step ok s u := Reaches.refl.tail l (hok s l List.mem_cons_self) hu
      exact hfirst.trans (ih (fun s l hl => hok s l (List.mem_cons_of_mem _ hl)) hrest)

/-- The state after a list of labels, if all of them can happen and pass a check. -/
def runChecked (step : σ → ι → Option σ) (check : σ → ι → Bool) (s : σ) : List ι → Option σ
  | [] => some s
  | l :: ls => if check s l then (step s l).bind fun t => runChecked step check t ls else none

theorem reaches_of_runChecked {step : σ → ι → Option σ} {ok : σ → ι → Prop}
    {check : σ → ι → Bool} {s t : σ} (ls : List ι) (hcheck : ∀ s l, check s l → ok s l)
    (h : runChecked step check s ls = some t) : Reaches step ok s t := by
  induction ls generalizing s with
  | nil =>
      rw [runChecked, Option.some.injEq] at h
      rw [h]
      exact .refl
  | cons l ls ih =>
      rw [runChecked] at h
      split_ifs at h with hl
      obtain ⟨u, hu, hrest⟩ := Option.bind_eq_some_iff.mp h
      exact (Reaches.refl.tail l (hcheck s l hl) hu).trans (ih hrest)

end CryptoAlert
