import Mathlib.Data.List.Induction
import Mathlib.Data.List.Sort

/-!
# Streams of numbered events

A reader of a stream keeps the latest event under each identifier and shows the events that it
keeps in the order of their numbers. It loses nothing of a stream in which an identifier and a
number determine the event.
-/

namespace CryptoAlert.Stream

variable {α κ : Type*} [DecidableEq κ] (ident : α → κ) (number : α → ℕ)

/-- Keeps an event, in the place of the one with the same identifier if there is one. -/
def put (kept : List α) (e : α) : List α :=
  if kept.any (ident · = ident e) then kept.map fun f => if ident f = ident e then e else f
  else kept ++ [e]

/-- What the reader of a stream shows. -/
def consume (stream : List α) : List α :=
  (stream.foldl (put ident) []).insertionSort fun e f => number e ≤ number f

variable {ident number} {stream kept : List α} {e : α}

theorem mem_put (h : ∀ f ∈ kept, ident f = ident e → f = e) (g : α) :
    g ∈ put ident kept e ↔ g ∈ kept ∨ g = e := by
  rw [put]
  by_cases hany : kept.any (ident · = ident e)
  · have hmap : (kept.map fun f => if ident f = ident e then e else f) = kept := by
      conv_rhs => rw [← List.map_id kept]
      apply List.map_congr_left
      intro f hf
      rw [id_eq]
      by_cases hident : ident f = ident e
      · rw [if_pos hident, h f hf hident]
      · rw [if_neg hident]
    have hmem : e ∈ kept := by
      obtain ⟨f, hf, hident⟩ := List.any_eq_true.mp hany
      rw [← h f hf (of_decide_eq_true hident)]
      exact hf
    rw [if_pos hany, hmap]
    constructor
    · intro hg
      exact .inl hg
    · rintro (hg | rfl)
      · exact hg
      · exact hmem
  · rw [if_neg hany, List.mem_append, List.mem_singleton]

theorem nodup_put (hn : (kept.map ident).Nodup) : ((put ident kept e).map ident).Nodup := by
  rw [put]
  by_cases hany : kept.any (ident · = ident e)
  · have hmap : (kept.map fun f => if ident f = ident e then e else f).map ident =
        kept.map ident := by
      rw [List.map_map]
      apply List.map_congr_left
      intro f _
      by_cases hident : ident f = ident e
      · simp [hident]
      · simp [hident]
    rw [if_pos hany, hmap]
    exact hn
  · have hfresh : ident e ∉ kept.map ident := by
      intro hmem
      obtain ⟨f, hf, hident⟩ := List.mem_map.mp hmem
      exact hany (List.any_eq_true.mpr ⟨f, hf, decide_eq_true hident⟩)
    rw [if_neg hany, List.map_append, List.map_singleton, ← List.concat_eq_append]
    exact hn.concat hfresh

theorem nodup_foldl_put (stream : List α) :
    ((stream.foldl (put ident) []).map ident).Nodup := by
  induction stream using List.reverseRecOn with
  | nil => exact List.nodup_nil
  | append_singleton stream e ih =>
      rw [List.foldl_append]
      exact nodup_put ih

theorem mem_foldl_put (h : ∀ e ∈ stream, ∀ f ∈ stream, ident e = ident f → e = f) (g : α) :
    g ∈ stream.foldl (put ident) [] ↔ g ∈ stream := by
  induction stream using List.reverseRecOn generalizing g with
  | nil => rfl
  | append_singleton stream e ih =>
      have hkept : ∀ f, f ∈ stream.foldl (put ident) [] ↔ f ∈ stream := by
        apply ih
        intro e he f hf
        exact h e (List.mem_append_left _ he) f (List.mem_append_left _ hf)
      have hsame : ∀ f ∈ stream.foldl (put ident) [], ident f = ident e → f = e := by
        intro f hf
        exact h f (List.mem_append_left _ ((hkept f).mp hf)) e
          (List.mem_append_right _ List.mem_cons_self)
      rw [List.foldl_append, List.foldl_cons, List.foldl_nil, mem_put hsame, hkept,
        List.mem_append, List.mem_singleton]

/-- The reader shows every event of the stream, and nothing else. -/
theorem mem_consume (h : ∀ e ∈ stream, ∀ f ∈ stream, ident e = ident f → e = f) (g : α) :
    g ∈ consume ident number stream ↔ g ∈ stream := by
  rw [consume, List.mem_insertionSort, mem_foldl_put h]

/-- The reader shows the events in the strict order of their numbers. -/
theorem pairwise_consume (h : ∀ e ∈ stream, ∀ f ∈ stream, ident e = ident f → e = f)
    (hnumber : ∀ e ∈ stream, ∀ f ∈ stream, number e = number f → e = f) :
    (consume ident number stream).Pairwise fun e f => number e < number f := by
  have htotal : Std.Total fun e f : α => number e ≤ number f :=
    ⟨fun e f => le_total (number e) (number f)⟩
  have htrans : IsTrans α fun e f => number e ≤ number f := ⟨fun _ _ _ hef hfg => hef.trans hfg⟩
  have hsorted : (consume ident number stream).Pairwise fun e f => number e ≤ number f :=
    List.pairwise_insertionSort _ _
  have hnodup : (consume ident number stream).Nodup :=
    (List.perm_insertionSort _ _).nodup_iff.mpr (nodup_foldl_put stream).of_map
  have hboth := hsorted.and hnodup
  refine hboth.imp_of_mem ?_
  intro e f he hf ⟨hle, hne⟩
  apply lt_of_le_of_ne hle
  intro heq
  exact hne (hnumber e ((mem_consume h e).mp he) f ((mem_consume h f).mp hf) heq)

end CryptoAlert.Stream
