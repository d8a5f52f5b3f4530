import CryptoAlert.Lib.Passes

/-!
# Replacement with marks

The characters of a text carry marks, and a replacement keeps the marks of what it leaves alone.
So one can tell which characters of a part are still in their place, whatever else the replacement
writes. Where all of them are, nothing around the part has reached into it.
-/

namespace CryptoAlert.Regex

section Characters

variable {r : Regex} {P : Char → Prop} {prev : Option Char} {s : List Char} {h : Hit}

/-- Every match takes characters with the property only. -/
def Only (P : Char → Prop) : Regex → Prop
  | chr p | many p => ∀ c, p c = true → P c
  | seq r t | alt r t => Only P r ∧ Only P t
  | group _ r => Only P r
  | _ => True

/-- Every match that takes anything ends with a character with the property. -/
def Ends (P : Char → Prop) : Regex → Prop
  | chr p | many p => ∀ c, p c = true → P c
  | seq r t => Ends P t ∧ (t.nullable = true → Ends P r)
  | alt r t => Ends P r ∧ Ends P t
  | group _ r => Ends P r
  | _ => True

theorem all_of_manyHits {p : Char → Bool} (hm : h ∈ manyHits p s) : ∀ c ∈ h.taken, p c = true := by
  induction s generalizing h with
  | nil =>
      rw [List.mem_singleton.mp hm]
      exact fun _ hc => absurd hc List.not_mem_nil
  | cons d ds ih =>
      rw [manyHits] at hm
      split_ifs at hm with hp
      · obtain hm | hm := List.mem_append.mp hm
        · obtain ⟨g, hg, rfl⟩ := List.mem_map.mp hm
          intro c hc
          obtain rfl | hc := List.mem_cons.mp hc
          · exact hp
          · exact ih hg c hc
        · rw [List.mem_singleton.mp hm]
          exact fun _ hc => absurd hc List.not_mem_nil
      · rw [List.mem_singleton.mp hm]
        exact fun _ hc => absurd hc List.not_mem_nil

/-- A hit of a class takes one character of it. -/
theorem taken_of_chr {p : Char → Bool} (hm : h ∈ (chr p).hits prev s) :
    ∃ c, h.taken = [c] ∧ p c = true := by
  cases s with
  | nil => cases hm
  | cons c cs =>
      simp only [hits] at hm
      split_ifs at hm with hp
      · rw [List.mem_singleton.mp hm]
        exact ⟨c, rfl, hp⟩
      · cases hm

/-- An assertion takes nothing. -/
theorem taken_of_assertion (hr : r = .eps ∨ (∃ p, r = .notAfter p) ∨ (∃ p, r = .notBefore p) ∨
    ∃ w, r = .boundary w) (hm : h ∈ r.hits prev s) : h.taken = [] := by
  obtain rfl | ⟨p, rfl⟩ | ⟨p, rfl⟩ | ⟨w, rfl⟩ := hr
  · rw [List.mem_singleton.mp hm]
  all_goals
    simp only [hits] at hm
    split_ifs at hm
    · cases hm
    · rw [List.mem_singleton.mp hm]

theorem Only.times (hr : r.Only P) (n : ℕ) : (times n r).Only P := by
  induction n with
  | zero => trivial
  | succ n ih => exact ⟨hr, ih⟩

theorem Only.upTo (hr : r.Only P) (n : ℕ) : (upTo n r).Only P := by
  induction n with
  | zero => trivial
  | succ n ih => exact ⟨⟨hr, ih⟩, trivial⟩

theorem Only.between (hr : r.Only P) (m n : ℕ) : (between m n r).Only P :=
  ⟨hr.times m, hr.upTo (n - m)⟩

theorem all_of_only (hr : r.Only P) (hm : h ∈ r.hits prev s) : ∀ c ∈ h.taken, P c := by
  induction r generalizing prev s h with
  | chr p =>
      obtain ⟨c, htaken, hp⟩ := taken_of_chr hm
      rw [htaken]
      intro d hd
      rw [List.mem_singleton.mp hd]
      exact hr c hp
  | many p => exact fun c hc => hr c (all_of_manyHits hm c hc)
  | seq r t ihr iht =>
      simp only [hits, List.mem_flatMap, List.mem_map] at hm
      obtain ⟨a, ha, b, hb, rfl⟩ := hm
      intro c hc
      obtain hc | hc := List.mem_append.mp hc
      · exact ihr hr.1 ha c hc
      · exact iht hr.2 hb c hc
  | alt r t ihr iht =>
      obtain hm | hm := List.mem_append.mp hm
      · exact ihr hr.1 hm
      · exact iht hr.2 hm
  | group k r ih =>
      obtain ⟨a, ha, rfl⟩ := List.mem_map.mp hm
      have htaken := ih hr ha
      exact htaken
  | eps =>
      rw [taken_of_assertion (.inl rfl) hm]
      exact fun _ hc => absurd hc List.not_mem_nil
  | notAfter p =>
      rw [taken_of_assertion (.inr (.inl ⟨p, rfl⟩)) hm]
      exact fun _ hc => absurd hc List.not_mem_nil
  | notBefore p =>
      rw [taken_of_assertion (.inr (.inr (.inl ⟨p, rfl⟩))) hm]
      exact fun _ hc => absurd hc List.not_mem_nil
  | boundary w =>
      rw [taken_of_assertion (.inr (.inr (.inr ⟨w, rfl⟩))) hm]
      exact fun _ hc => absurd hc List.not_mem_nil

theorem last_of_ends (hr : r.Ends P) (hm : h ∈ r.hits prev s) : ∀ c ∈ h.taken.getLast?, P c := by
  induction r generalizing prev s h with
  | chr p =>
      obtain ⟨c, htaken, hp⟩ := taken_of_chr hm
      rw [htaken]
      rintro d ⟨⟩
      exact hr c hp
  | many p => exact fun c hc => hr c (all_of_manyHits hm c (List.mem_of_getLast? hc))
  | seq r t ihr iht =>
      simp only [hits, List.mem_flatMap, List.mem_map] at hm
      obtain ⟨a, ha, b, hb, rfl⟩ := hm
      by_cases hempty : b.taken = []
      · have hlast := ihr (hr.2 (nullable_of_hit hb hempty)) ha
        simpa only [hempty, List.append_nil] using hlast
      · have hlast := iht hr.1 hb
        simpa only [List.getLast?_append_of_ne_nil _ hempty] using hlast
  | alt r t ihr iht =>
      obtain hm | hm := List.mem_append.mp hm
      · exact ihr hr.1 hm
      · exact iht hr.2 hm
  | group k r ih =>
      obtain ⟨a, ha, rfl⟩ := List.mem_map.mp hm
      have htaken := ih hr ha
      exact htaken
  | eps =>
      rw [taken_of_assertion (.inl rfl) hm]
      rintro c ⟨⟩
  | notAfter p =>
      rw [taken_of_assertion (.inr (.inl ⟨p, rfl⟩)) hm]
      rintro c ⟨⟩
  | notBefore p =>
      rw [taken_of_assertion (.inr (.inr (.inl ⟨p, rfl⟩))) hm]
      rintro c ⟨⟩
  | boundary w =>
      rw [taken_of_assertion (.inr (.inr (.inr ⟨w, rfl⟩))) hm]
      rintro c ⟨⟩

/-- The least number of characters that a match takes. -/
def least : Regex → ℕ
  | chr _ => 1
  | seq r t => least r + least t
  | alt r t => min (least r) (least t)
  | group _ r => least r
  | _ => 0

theorem least_le (hm : h ∈ r.hits prev s) : r.least ≤ h.taken.length := by
  induction r generalizing prev s h with
  | chr p =>
      obtain ⟨c, htaken, -⟩ := taken_of_chr hm
      rw [htaken]
      exact Nat.le_refl 1
  | seq r t ihr iht =>
      simp only [hits, List.mem_flatMap, List.mem_map] at hm
      obtain ⟨a, ha, b, hb, rfl⟩ := hm
      rw [List.length_append]
      exact Nat.add_le_add (ihr ha) (iht hb)
  | alt r t ihr iht =>
      obtain hm | hm := List.mem_append.mp hm
      · exact Nat.le_trans (Nat.min_le_left _ _) (ihr hm)
      · exact Nat.le_trans (Nat.min_le_right _ _) (iht hm)
  | group k r ih =>
      obtain ⟨a, ha, rfl⟩ := List.mem_map.mp hm
      have htaken := ih ha
      exact htaken
  | eps | many | notAfter | notBefore | boundary => exact Nat.zero_le _

end Characters

section Matches

variable {r t : Regex} {p : Char → Bool} {prev : Option Char} {x y rest s : List Char} {h : Hit}

/-- One of the hits of an expression on `x ++ rest` takes `x`. -/
def Matches (r : Regex) (prev : Option Char) (x rest : List Char) : Prop :=
  ∃ groups, (⟨x, rest, groups⟩ : Hit) ∈ r.hits prev (x ++ rest)

theorem Matches.seq (hr : r.Matches prev x (y ++ rest)) (ht : t.Matches (behind prev x) y rest) :
    (seq r t).Matches prev (x ++ y) rest := by
  obtain ⟨groups, hr⟩ := hr
  obtain ⟨groups', ht⟩ := ht
  refine ⟨groups ++ groups', ?_⟩
  rw [List.append_assoc]
  exact List.mem_flatMap.mpr ⟨_, hr, List.mem_map.mpr ⟨_, ht, rfl⟩⟩

theorem Matches.chr {c : Char} (hc : p c = true) : (chr p).Matches prev [c] rest :=
  ⟨[], by simp [hits, hc]⟩

theorem Matches.many (hx : ∀ c ∈ x, p c = true) : (many p).Matches prev x rest := by
  refine ⟨[], ?_⟩
  rw [hits]
  induction x with
  | nil =>
      cases rest with
      | nil => exact List.mem_singleton_self _
      | cons c cs =>
          rw [List.nil_append, manyHits]
          split_ifs
          · exact List.mem_append_right _ (List.mem_singleton_self _)
          · exact List.mem_singleton_self _
  | cons c cs ih =>
      rw [List.cons_append, manyHits, if_pos (hx c List.mem_cons_self)]
      have hcs := ih fun d hd => hx d (List.mem_cons_of_mem c hd)
      exact List.mem_append_left _ (List.mem_map.mpr ⟨_, hcs, rfl⟩)

theorem Matches.eps : Regex.eps.Matches prev [] rest := ⟨[], List.mem_singleton_self _⟩

theorem Matches.many1 (hne : x ≠ []) (hx : ∀ c ∈ x, p c = true) :
    (many1 p).Matches prev x rest := by
  obtain ⟨c, cs, rfl⟩ := List.exists_cons_of_ne_nil hne
  exact Matches.seq (x := [c]) (.chr (hx c List.mem_cons_self))
    (.many fun d hd => hx d (List.mem_cons_of_mem c hd))

theorem Matches.alt_left (hr : r.Matches prev x rest) : (alt r t).Matches prev x rest :=
  hr.imp fun _ hmem => List.mem_append_left _ hmem

theorem Matches.alt_right (ht : t.Matches prev x rest) : (alt r t).Matches prev x rest :=
  ht.imp fun _ hmem => List.mem_append_right _ hmem

theorem Matches.notAfter (h : isAt p prev = false) : (notAfter p).Matches prev [] rest :=
  ⟨[], by simp [hits, h]⟩

theorem Matches.notBefore (h : isAt p rest.head? = false) : (notBefore p).Matches prev [] rest :=
  ⟨[], by simp [hits, h]⟩

theorem Matches.times (hx : ∀ c ∈ x, p c = true) :
    (times x.length (Regex.chr p)).Matches prev x rest := by
  induction x generalizing prev with
  | nil => exact .eps
  | cons c cs ih =>
      exact Matches.seq (x := [c]) (.chr (hx c List.mem_cons_self))
        (ih fun d hd => hx d (List.mem_cons_of_mem c hd))

theorem Matches.upTo {n : ℕ} (hn : x.length ≤ n) (hx : ∀ c ∈ x, p c = true) :
    (upTo n (Regex.chr p)).Matches prev x rest := by
  induction n generalizing x prev with
  | zero =>
      rw [List.length_eq_zero_iff.mp (Nat.le_zero.mp hn)]
      exact .eps
  | succ n ih =>
      cases x with
      | nil => exact .alt_right .eps
      | cons c cs =>
          have hcs : (Regex.upTo n (Regex.chr p)).Matches (behind prev [c]) cs rest :=
            ih (Nat.le_of_succ_le_succ hn) fun d hd => hx d (List.mem_cons_of_mem c hd)
          exact .alt_left (Matches.seq (x := [c]) (.chr (hx c List.mem_cons_self)) hcs)

/-- The copies of a class in a bounded repetition. -/
theorem Matches.between {m n : ℕ} (hm : m ≤ x.length) (hn : x.length ≤ n)
    (hx : ∀ c ∈ x, p c = true) : (between m n (Regex.chr p)).Matches prev x rest := by
  have hfirst : (Regex.times (x.take m).length (Regex.chr p)).Matches prev (x.take m)
      (x.drop m ++ rest) := .times fun c hc => hx c (List.mem_of_mem_take hc)
  have hlength : (x.drop m).length ≤ n - m := by
    rw [List.length_drop]
    omega
  have hrest : (Regex.upTo (n - m) (Regex.chr p)).Matches (behind prev (x.take m)) (x.drop m)
      rest := .upTo hlength fun c hc => hx c (List.mem_of_mem_drop hc)
  rw [List.length_take_of_le hm] at hfirst
  have hwhole := hfirst.seq hrest
  rwa [List.take_append_drop] at hwhole

theorem exists_of_seq (hm : h ∈ (seq r t).hits prev s) : ∃ a ∈ r.hits prev s,
    ∃ b ∈ t.hits (a.prev prev) a.rest, h.taken = a.taken ++ b.taken ∧ h.rest = b.rest := by
  obtain ⟨a, ha, hm⟩ := List.mem_flatMap.mp hm
  obtain ⟨b, hb, rfl⟩ := List.mem_map.mp hm
  exact ⟨a, ha, b, hb, rfl, rfl⟩

theorem prev_of_notAfter (hm : h ∈ (notAfter p).hits prev s) : isAt p prev = false := by
  simp only [hits] at hm
  split_ifs at hm with hprev
  · cases hm
  · simpa using hprev

theorem rest_of_notBefore (hm : h ∈ (notBefore p).hits prev s) :
    h.taken = [] ∧ h.rest = s ∧ isAt p s.head? = false := by
  simp only [hits] at hm
  split_ifs at hm with hnext
  · cases hm
  · rw [List.mem_singleton.mp hm]
    exact ⟨rfl, rfl, by simpa using hnext⟩

/-- Where an expression matches anything, the engine finds a match. -/
theorem exists_firstHit (h : r.Matches prev x rest) (hx : x ≠ []) :
    ∃ hit, r.firstHit prev (x ++ rest) = some hit := by
  obtain ⟨groups, hmem⟩ := h
  rw [← Option.isSome_iff_exists, firstHit, List.find?_isSome]
  exact ⟨_, hmem, by simpa using hx⟩

end Matches

section Marked

variable (r : Regex) (f : Hit → List Char)

/-- Replacement from one position on a marked text; a match that is replaced by itself is left
alone. -/
def markedFrom : ℕ → Option Char → List (Char × Bool) → List (Char × Bool)
  | _, _, [] => []
  | k + 1, _, c :: cs => markedFrom k (some c.1) cs
  | 0, prev, c :: cs =>
      match r.firstHit prev ((c :: cs).map Prod.fst) with
      | some h =>
          (if f h = h.taken then (c :: cs).take h.taken.length else (f h).map (·, false)) ++
            markedFrom (h.taken.length - 1) (some c.1) cs
      | none => c :: markedFrom 0 (some c.1) cs

/-- Replaces every match in a marked text. -/
def marked (text : List (Char × Bool)) : List (Char × Bool) := markedFrom r f 0 none text

/-- The marked characters of a text. -/
def survivors (text : List (Char × Bool)) : List Char := (text.filter Prod.snd).map Prod.fst

def mark (x : List Char) : List (Char × Bool) := x.map (·, true)

def unmark (x : List Char) : List (Char × Bool) := x.map (·, false)

/-- A marked part in an unmarked text. -/
def block (p x s : List Char) : List (Char × Bool) := unmark p ++ (mark x ++ unmark s)

variable {r f} {k : ℕ} {prev : Option Char} {m o : List (Char × Bool)} {p x s : List Char}

@[simp] theorem map_fst_mark (x : List Char) : (mark x).map Prod.fst = x := by
  rw [mark, List.map_map]
  exact List.map_id x

@[simp] theorem map_fst_unmark (x : List Char) : (unmark x).map Prod.fst = x := by
  rw [unmark, List.map_map]
  exact List.map_id x

theorem unmark_append (x y : List Char) : unmark (x ++ y) = unmark x ++ unmark y :=
  List.map_append

@[simp] theorem survivors_append (m o : List (Char × Bool)) :
    survivors (m ++ o) = survivors m ++ survivors o := by
  rw [survivors, List.filter_append, List.map_append]
  rfl

@[simp] theorem survivors_mark (x : List Char) : survivors (mark x) = x := by
  induction x with
  | nil => rfl
  | cons c cs ih => exact congrArg (c :: ·) ih

@[simp] theorem survivors_unmark (x : List Char) : survivors (unmark x) = [] := by
  induction x with
  | nil => rfl
  | cons c cs ih => exact ih

@[simp] theorem survivors_block : survivors (block p x s) = x := by
  rw [block, survivors_append, survivors_append, survivors_mark, survivors_unmark,
    survivors_unmark, List.nil_append, List.append_nil]

theorem map_fst_block : (block p x s).map Prod.fst = p ++ (x ++ s) := by
  rw [block, List.map_append, List.map_append, map_fst_mark, map_fst_unmark, map_fst_unmark]

/-- Without the marks it is the plain replacement. -/
theorem map_fst_markedFrom :
    (markedFrom r f k prev m).map Prod.fst = subFrom r f k prev (m.map Prod.fst) := by
  induction m generalizing k prev with
  | nil => cases k <;> rfl
  | cons c cs ih =>
      cases k with
      | succ k => exact ih
      | zero =>
          rw [markedFrom, List.map_cons, subFrom]
          cases hfound : r.firstHit prev (c.1 :: cs.map Prod.fst) with
          | none =>
              dsimp only
              rw [List.map_cons, ih]
          | some h =>
              dsimp only
              rw [List.map_append, ih]
              congr 1
              split_ifs with hself
              · have hsplit := hits_split (firstHit_mem hfound)
                rw [List.map_take, List.map_cons, ← hsplit, List.take_left, hself]
              · exact map_fst_unmark (f h)

theorem map_fst_marked : (marked r f m).map Prod.fst = r.sub f (m.map Prod.fst) :=
  map_fst_markedFrom

theorem markedFrom_of_none {c : Char × Bool} {cs : List (Char × Bool)}
    (hfound : r.firstHit prev ((c :: cs).map Prod.fst) = none) :
    markedFrom r f 0 prev (c :: cs) = c :: markedFrom r f 0 (some c.1) cs := by
  rw [markedFrom, hfound]

theorem markedFrom_of_some {c : Char × Bool} {cs : List (Char × Bool)} {h : Hit}
    (hfound : r.firstHit prev ((c :: cs).map Prod.fst) = some h) :
    markedFrom r f 0 prev (c :: cs) =
      (if f h = h.taken then (c :: cs).take h.taken.length else unmark (f h)) ++
        markedFrom r f (h.taken.length - 1) (some c.1) cs := by
  rw [markedFrom, hfound]
  rfl

/-- The characters of a match are passed over. -/
theorem markedFrom_skip (a : List (Char × Bool)) :
    markedFrom r f a.length prev (a ++ m) =
      markedFrom r f 0 (behind prev (a.map Prod.fst)) m := by
  induction a generalizing prev with
  | nil => rfl
  | cons c cs ih =>
      rw [List.map_cons, ← behind_cons]
      exact ih

/-- A match divides a marked text, too. -/
theorem exists_taken {h : Hit} (hfound : r.firstHit prev (m.map Prod.fst) = some h) :
    ∃ a m', m = a ++ m' ∧ a.map Prod.fst = h.taken ∧ a ≠ [] ∧
      markedFrom r f 0 prev m = (if f h = h.taken then a else unmark (f h)) ++
        markedFrom r f 0 (behind prev h.taken) m' := by
  have hsplit := hits_split (firstHit_mem hfound)
  have hne := firstHit_taken_ne_nil hfound
  have htaken : (m.take h.taken.length).map Prod.fst = h.taken := by
    rw [List.map_take, ← hsplit, List.take_left]
  have hlength : (m.take h.taken.length).length = h.taken.length := by
    have hmap := congrArg List.length htaken
    rwa [List.length_map] at hmap
  refine ⟨m.take h.taken.length, m.drop h.taken.length, (List.take_append_drop _ _).symm, htaken,
    fun hempty => ?_, ?_⟩
  · rw [hempty] at htaken
    exact hne htaken.symm
  · cases m with
    | nil =>
        rw [List.map_nil] at hsplit
        exact absurd (List.append_eq_nil_iff.mp hsplit).1 hne
    | cons c cs =>
        have hpos : h.taken.length - 1 + 1 = h.taken.length :=
          Nat.sub_add_cancel (List.length_pos_of_ne_nil hne)
        have hskip : markedFrom r f ((c :: cs).take h.taken.length).length prev
            ((c :: cs).take h.taken.length ++ (c :: cs).drop h.taken.length) = _ :=
          markedFrom_skip _
        rw [List.take_append_drop, hlength, htaken, ← hpos, markedFrom, hpos] at hskip
        rw [markedFrom, hfound, ← hskip]
        rfl

/-- A text on which every match is replaced by itself stays as it is. -/
theorem markedFrom_eq_self (h : ∀ x y hit, m.map Prod.fst = x ++ y →
    r.firstHit (behind prev x) y = some hit → f hit = hit.taken) :
    markedFrom r f 0 prev m = m := by
  induction hn : m.length using Nat.strongRecOn generalizing prev m with
  | ind n ih =>
      cases m with
      | nil => rfl
      | cons c cs =>
          cases hfound : r.firstHit prev ((c :: cs).map Prod.fst) with
          | none =>
              rw [markedFrom_of_none hfound]
              refine congrArg (c :: ·) (ih cs.length ?_ (fun x y hit hsplit hhit => ?_) rfl)
              · rw [← hn]
                exact Nat.lt_succ_self _
              · rw [behind_cons] at hhit
                exact h (c.1 :: x) y hit (congrArg (c.1 :: ·) hsplit) hhit
          | some found =>
              have hself := h [] _ found rfl hfound
              obtain ⟨a, m', hsplit, htaken, hne, hrest⟩ := exists_taken (f := f) hfound
              rw [hrest, if_pos hself, hsplit]
              refine congrArg (a ++ ·) (ih m'.length ?_ (fun x y hit hchars hhit => ?_) rfl)
              · have hpos := List.length_pos_of_ne_nil hne
                rw [← hn, hsplit, List.length_append]
                omega
              · refine h (found.taken ++ x) y hit ?_ ?_
                · rw [hsplit, List.map_append, htaken, hchars, List.append_assoc]
                · rwa [behind, List.getLast?_append, Option.or_assoc]

/-- A replacement marks nothing. -/
theorem survivors_markedFrom :
    (survivors (markedFrom r f k prev m)).Sublist (survivors m) := by
  induction hn : m.length using Nat.strongRecOn generalizing k prev m with
  | ind n ih =>
      cases m with
      | nil => cases k <;> exact List.Sublist.refl _
      | cons c cs =>
          have htail : (survivors cs).Sublist (survivors (c :: cs)) := by
            rw [← List.singleton_append, survivors_append]
            exact List.sublist_append_right _ _
          cases k with
          | succ k => exact (ih cs.length (by rw [← hn]; exact Nat.lt_succ_self _) rfl).trans htail
          | zero =>
              cases hfound : r.firstHit prev ((c :: cs).map Prod.fst) with
              | none =>
                  have hrest : (survivors (markedFrom r f 0 (some c.1) cs)).Sublist
                      (survivors cs) := ih cs.length (by rw [← hn]; exact Nat.lt_succ_self _) rfl
                  rw [markedFrom, hfound]
                  dsimp only
                  rw [← List.singleton_append, ← List.singleton_append (l := cs), survivors_append,
                    survivors_append]
                  exact (List.Sublist.refl _).append hrest
              | some h =>
                  obtain ⟨a, m', hsplit, htaken, hne, hrest⟩ := exists_taken (f := f) hfound
                  have hlt : m'.length < n := by
                    have hpos := List.length_pos_of_ne_nil hne
                    rw [← hn, hsplit, List.length_append]
                    omega
                  have hsub : (survivors (markedFrom r f 0 (behind prev h.taken) m')).Sublist
                      (survivors m') := ih m'.length hlt rfl
                  rw [hrest, hsplit, survivors_append, survivors_append]
                  split_ifs
                  · exact (List.Sublist.refl _).append hsub
                  · rw [survivors_unmark, List.nil_append]
                    exact hsub.trans (List.sublist_append_right _ _)

end Marked

section Around

/-- What a replacement writes that leaves every mark in its place: it replaces unmarked stretches
that begin and end with certain characters. -/
inductive Edits (P Q : Char → Prop) : List (Char × Bool) → List (Char × Bool) → Prop where
  | nil : Edits P Q [] []
  | keep (c : Char × Bool) {m o : List (Char × Bool)} (rest : Edits P Q m o) :
      Edits P Q (c :: m) (c :: o)
  | replace (a b : List Char) {m o : List (Char × Bool)} (ne : a ≠ []) (first : ∀ c ∈ a.head?, P c)
      (last : ∀ c ∈ a.getLast?, Q c) (rest : Edits P Q m o) :
      Edits P Q (unmark a ++ m) (unmark b ++ o)

variable {P Q : Char → Prop} {r : Regex} {f : Hit → List Char} {k : ℕ} {prev : Option Char}
  {m o : List (Char × Bool)} {p x s : List Char}

theorem Edits.append (a : List (Char × Bool)) (h : Edits P Q m o) :
    Edits P Q (a ++ m) (a ++ o) := by
  induction a with
  | nil => exact h
  | cons c cs ih => exact .keep c ih

theorem unmark_of_survivors {a : List (Char × Bool)} (h : survivors a = []) :
    a = unmark (a.map Prod.fst) := by
  induction a with
  | nil => rfl
  | cons c cs ih =>
      obtain ⟨d, marked⟩ := c
      cases marked with
      | true => cases h
      | false => exact congrArg ((d, false) :: ·) (ih h)

/-- As long as every mark survives, a replacement edits the unmarked text only. -/
theorem edits_of_survivors (hstarts : r.Starts P) (hends : r.Ends Q)
    (h : survivors (markedFrom r f 0 prev m) = survivors m) :
    Edits P Q m (markedFrom r f 0 prev m) := by
  induction hn : m.length using Nat.strongRecOn generalizing prev m with
  | ind n ih =>
      cases hm : m with
      | nil => exact .nil
      | cons c cs =>
          rw [hm] at h hn
          cases hfound : r.firstHit prev ((c :: cs).map Prod.fst) with
          | none =>
              rw [markedFrom, hfound] at h ⊢
              dsimp only at h ⊢
              rw [← List.singleton_append, ← List.singleton_append (l := cs), survivors_append,
                survivors_append, List.append_cancel_left_eq] at h
              exact .keep c (ih cs.length (by rw [← hn]; exact Nat.lt_succ_self _) h rfl)
          | some hit =>
              obtain ⟨a, m', hsplit, htaken, hne, hrest⟩ := exists_taken (f := f) hfound
              have hlt : m'.length < n := by
                have hpos := List.length_pos_of_ne_nil hne
                rw [← hn, hsplit, List.length_append]
                omega
              rw [hsplit] at h hrest ⊢
              rw [hrest] at h ⊢
              rw [survivors_append, survivors_append] at h
              by_cases hself : f hit = hit.taken
              · rw [if_pos hself] at h ⊢
                exact .append a (ih m'.length hlt (List.append_cancel_left h) rfl)
              · rw [if_neg hself] at h ⊢
                rw [survivors_unmark, List.nil_append] at h
                have hlost : survivors a = [] := by
                  have hle : (survivors (markedFrom r f 0 (behind prev hit.taken) m')).length ≤
                      (survivors m').length := survivors_markedFrom.length_le
                  rw [h, List.length_append] at hle
                  exact List.length_eq_zero_iff.mp (by omega)
                have hunmarked := unmark_of_survivors hlost
                rw [htaken] at hunmarked
                have hmem := firstHit_mem hfound
                rw [hlost, List.nil_append] at h
                have hedits := ih m'.length hlt h rfl
                rw [hunmarked]
                exact .replace hit.taken (f hit) (firstHit_taken_ne_nil hfound)
                  (head_of_starts hstarts hmem) (last_of_ends hends hmem) hedits

/-- Editing stops at marked characters. -/
theorem Edits.mark (h : Edits P Q (mark x ++ m) o) : ∃ o', o = Regex.mark x ++ o' ∧
    Edits P Q m o' := by
  induction x generalizing o with
  | nil => exact ⟨o, rfl, h⟩
  | cons c cs ih =>
      generalize hm : Regex.mark (c :: cs) ++ m = whole at h
      cases h with
      | nil => cases hm
      | keep d rest =>
          obtain ⟨hd, htail⟩ := List.cons.inj hm
          rw [← htail] at rest
          obtain ⟨o', rfl, hrest⟩ := ih rest
          exact ⟨o', by rw [← hd]; rfl, hrest⟩
      | replace a b ne first last rest =>
          obtain ⟨d, ds, rfl⟩ := List.exists_cons_of_ne_nil ne
          cases congrArg Prod.snd (List.cons.inj hm).1

/-- Behind the marks the text begins as before, unless a match may begin there. -/
theorem Edits.unmark (h : Edits P Q (unmark s) o) (hs : ∀ e ∈ s.head?, ¬ P e) :
    ∃ s', o = Regex.unmark s' ∧ s'.head? = s.head? := by
  have hall : ∀ {m o : List (Char × Bool)}, Edits P Q m o → survivors m = [] →
      survivors o = [] := by
    intro m o h
    induction h with
    | nil => exact id
    | keep c rest ih =>
        intro hnone
        rw [← List.singleton_append, survivors_append, List.append_eq_nil_iff] at hnone ⊢
        exact ⟨hnone.1, ih hnone.2⟩
    | replace a b ne first last rest ih =>
        intro hnone
        rw [survivors_append, List.append_eq_nil_iff] at hnone ⊢
        exact ⟨survivors_unmark b, ih hnone.2⟩
  refine ⟨o.map Prod.fst, unmark_of_survivors (hall h (survivors_unmark s)), ?_⟩
  generalize hm : Regex.unmark s = whole at h
  cases h with
  | nil =>
      cases s with
      | nil => rfl
      | cons c cs => cases hm
  | keep d rest =>
      cases s with
      | nil => cases hm
      | cons c cs =>
          obtain ⟨rfl, -⟩ := List.cons.inj hm
          rfl
  | replace a b ne first last rest =>
      obtain ⟨d, ds, rfl⟩ := List.exists_cons_of_ne_nil ne
      cases s with
      | nil => cases hm
      | cons c cs =>
          have hc : c = d := congrArg Prod.fst (List.cons.inj hm).1
          exact absurd (hc ▸ first d rfl) (hs c rfl)

/-- In front of the marks the text ends as before, unless a match may end there. -/
theorem Edits.front (h : Edits P Q (Regex.unmark p ++ m) o) (hp : ∀ w ∈ p.getLast?, ¬ Q w)
    (hm : ∃ c, m.head? = some (c, true)) : ∃ p' o', o = Regex.unmark p' ++ o' ∧ Edits P Q m o' ∧
      p'.getLast? = p.getLast? := by
  generalize hwhole : Regex.unmark p ++ m = whole at h
  induction h generalizing p with
  | nil =>
      obtain ⟨c, hc⟩ := hm
      rw [(List.append_eq_nil_iff.mp hwhole).2] at hc
      cases hc
  | keep c rest ih =>
      cases p with
      | nil => exact ⟨[], _, rfl, by rw [show m = _ from hwhole]; exact .keep c rest, rfl⟩
      | cons d ds =>
          obtain ⟨rfl, htail⟩ := List.cons.inj hwhole
          have hds : ∀ w ∈ ds.getLast?, ¬ Q w := by
            intro w hw
            refine hp w ?_
            rw [List.getLast?_cons, Option.mem_def.mp hw]
            rfl
          obtain ⟨p', o', rfl, hrest, hlast⟩ := ih hds htail
          exact ⟨d :: p', o', rfl, hrest, by rw [List.getLast?_cons, List.getLast?_cons, hlast]⟩
  | @replace a b m₁ o₁ ne first last rest ih =>
      -- The stretch lies in front of the marks, and does not reach their edge.
      obtain ⟨p₂, rfl, htail⟩ : ∃ p₂, p = a ++ p₂ ∧ Regex.unmark p₂ ++ m = m₁ := by
        obtain ⟨a', ha, rfl⟩ | ⟨b', hb, rfl⟩ := List.append_eq_append_iff.mp hwhole
        · cases a' with
          | nil =>
              have hsame := congrArg (List.map Prod.fst) ha
              rw [List.append_nil, map_fst_unmark, map_fst_unmark] at hsame
              exact ⟨[], by rw [hsame, List.append_nil], rfl⟩
          | cons d ds =>
              obtain ⟨c, hc⟩ := hm
              have hd : d = (c, true) := Option.some.inj hc
              have hlost := congrArg survivors ha
              rw [survivors_append, survivors_unmark, survivors_unmark, hd] at hlost
              cases hlost
        · have hlost := congrArg survivors hb
          rw [survivors_append, survivors_unmark, survivors_unmark, List.nil_append] at hlost
          have hchars := congrArg (List.map Prod.fst) hb
          rw [List.map_append, map_fst_unmark, map_fst_unmark] at hchars
          exact ⟨b'.map Prod.fst, hchars, by rw [← unmark_of_survivors hlost.symm]⟩
      have hlast : ∃ w, p₂.getLast? = some w := by
        rw [← Option.isSome_iff_exists, List.getLast?_isSome]
        rintro rfl
        rw [List.append_nil] at hp
        exact hp _ (List.getLast?_eq_some_getLast ne) (last _ (List.getLast?_eq_some_getLast ne))
      obtain ⟨w, hw⟩ := hlast
      have hwhole : (a ++ p₂).getLast? = some w := by rw [List.getLast?_append, hw]; rfl
      have hp₂ : ∀ w ∈ p₂.getLast?, ¬ Q w := by
        intro w' hw'
        rw [hw, Option.mem_def] at hw'
        cases hw'
        exact hp w hwhole
      obtain ⟨p', o', rfl, hrest, hsame⟩ := ih hp₂ htail
      refine ⟨b ++ p', o', ?_, hrest, ?_⟩
      · rw [unmark_append, List.append_assoc]
      · rw [hwhole, List.getLast?_append, hsame, hw]
        rfl

/-- A replacement that leaves every mark in its place leaves the edges around the marks. -/
theorem block_of_survivors (hstarts : r.Starts P) (hends : r.Ends Q) (hx : x ≠ [])
    (hp : ∀ w ∈ p.getLast?, ¬ Q w) (hs : ∀ e ∈ s.head?, ¬ P e)
    (h : survivors (marked r f (block p x s)) = x) : ∃ p' s',
      marked r f (block p x s) = block p' x s' ∧ p'.getLast? = p.getLast? ∧
        s'.head? = s.head? := by
  have hedits : Edits P Q (block p x s) (marked r f (block p x s)) :=
    edits_of_survivors hstarts hends (h.trans survivors_block.symm)
  obtain ⟨c, cs, rfl⟩ := List.exists_cons_of_ne_nil hx
  obtain ⟨p', o, heq, hpart, hlast⟩ := hedits.front hp ⟨c, rfl⟩
  obtain ⟨o', rfl, hbehind⟩ := hpart.mark
  obtain ⟨s', rfl, hhead⟩ := hbehind.unmark hs
  exact ⟨p', s', heq, hlast, hhead⟩

/-- No match reaches across a character that it does not take. -/
theorem exists_subWithin {after : List Char} (hr : r.Only P) (hp : ∀ w ∈ p.getLast?, ¬ P w)
    (hk : k = 0 ∨ k < p.length) : ∃ result, subWithin r f k prev p after = some result := by
  induction p generalizing k prev with
  | nil =>
      obtain rfl : k = 0 := hk.resolve_right (Nat.not_lt_zero k)
      exact ⟨[], rfl⟩
  | cons c cs ih =>
      have hcs : ∀ w ∈ cs.getLast?, ¬ P w := by
        intro w hw
        refine hp w ?_
        rw [List.getLast?_cons, Option.mem_def.mp hw]
        rfl
      cases k with
      | succ k =>
          have hlt := hk.resolve_left (Nat.succ_ne_zero k)
          exact ih hcs (.inr (Nat.lt_of_succ_lt_succ hlt))
      | zero =>
          rw [subWithin]
          cases hfound : r.firstHit prev (c :: (cs ++ after)) with
          | none =>
              have hrest : ∃ result, subWithin r f 0 (some c) cs after = some result :=
                ih hcs (.inl rfl)
              obtain ⟨result, hresult⟩ := hrest
              exact ⟨c :: result, by rw [hresult]; rfl⟩
          | some h =>
              have hshort : h.taken.length < (c :: cs).length := by
                by_contra hlong
                have hsplit := hits_split (firstHit_mem hfound)
                rw [← List.cons_append] at hsplit
                have hprefix : (c :: cs) <+: h.taken := by
                  exact List.prefix_of_prefix_length_le (List.prefix_append _ after)
                    ⟨h.rest, hsplit⟩ (Nat.le_of_not_lt hlong)
                have hmem : (c :: cs).getLast (List.cons_ne_nil c cs) ∈ h.taken :=
                  hprefix.subset (List.getLast_mem _)
                exact hp _ (List.getLast?_eq_some_getLast _)
                  (all_of_only hr (firstHit_mem hfound) _ hmem)
              have hpos := List.length_pos_of_ne_nil (firstHit_taken_ne_nil hfound)
              rw [List.length_cons] at hshort
              have hrest : ∃ result, subWithin r f (h.taken.length - 1) (some c) cs after =
                  some result := by
                refine ih hcs (.inr ?_)
                omega
              obtain ⟨result, hresult⟩ := hrest
              dsimp only
              exact ⟨f h ++ result, by rw [hresult]; rfl⟩

/-- An unmarked text in front stays unmarked. -/
theorem markedFrom_unmark {result : List Char}
    (h : subWithin r f k prev p (m.map Prod.fst) = some result) :
    markedFrom r f k prev (unmark p ++ m) =
      unmark result ++ markedFrom r f 0 (behind prev p) m := by
  induction p generalizing k prev result with
  | nil =>
      cases k with
      | zero =>
          cases h
          rfl
      | succ k => cases h
  | cons c cs ih =>
      rw [← behind_cons]
      cases k with
      | succ k => exact ih h
      | zero =>
          have hchars : (unmark (c :: cs) ++ m).map Prod.fst = c :: (cs ++ m.map Prod.fst) := by
            rw [List.map_append, map_fst_unmark, List.cons_append]
          rw [subWithin] at h
          cases hfound : r.firstHit prev (c :: (cs ++ m.map Prod.fst)) with
          | none =>
              rw [hfound] at h
              obtain ⟨rest, hrest, rfl⟩ := Option.map_eq_some_iff.mp h
              rw [← hchars] at hfound
              exact (markedFrom_of_none hfound).trans (congrArg ((c, false) :: ·) (ih hrest))
          | some found =>
              rw [hfound] at h
              obtain ⟨rest, hrest, rfl⟩ := Option.map_eq_some_iff.mp h
              have hstays := le_of_subWithin hrest
              have hsplit := hits_split (firstHit_mem hfound)
              have hpos := List.length_pos_of_ne_nil (firstHit_taken_ne_nil hfound)
              have htake : (unmark (c :: cs) ++ m).take found.taken.length =
                  unmark found.taken := by
                have hlength : found.taken.length ≤ (c :: cs).length := by
                  rw [List.length_cons]
                  omega
                have hprefix := congrArg (List.take found.taken.length) hsplit
                rw [List.take_left, ← List.cons_append,
                  List.take_append_of_le_length hlength] at hprefix
                rw [unmark, List.take_append_of_le_length (by rwa [List.length_map]),
                  ← List.map_take, ← hprefix]
                rfl
              have hreplaced : (if f found = found.taken then
                  (unmark (c :: cs) ++ m).take found.taken.length else unmark (f found)) =
                    unmark (f found) := by
                split_ifs with hself
                · rw [htake, hself]
                · rfl
              rw [← hchars] at hfound
              refine (markedFrom_of_some hfound).trans ?_
              refine (congrArg₂ (· ++ ·) hreplaced (ih hrest)).trans ?_
              rw [unmark_append, List.append_assoc]

/-- A match at the place of the part, if it is replaced by something else, takes its first
character away. -/
theorem survivors_ne_of_firstHit {h : Hit} (hr : r.Only P) (hp : ∀ w ∈ p.getLast?, ¬ P w)
    (hx : x ≠ []) (hfound : r.firstHit (behind none p) (x ++ s) = some h)
    (hother : f h ≠ h.taken) : survivors (marked r f (block p x s)) ≠ x := by
  have hchars : (mark x ++ unmark s).map Prod.fst = x ++ s := by
    rw [List.map_append, map_fst_mark, map_fst_unmark]
  have hfront : ∃ result, subWithin r f 0 none p (x ++ s) = some result :=
    exists_subWithin hr hp (.inl rfl)
  obtain ⟨result, hresult⟩ := hfront
  rw [← hchars] at hresult hfound
  obtain ⟨a, m', hsplit, htaken, hne, hrest⟩ := exists_taken (f := f) hfound
  rw [marked, block, markedFrom_unmark hresult, hrest, if_neg hother, survivors_append,
    survivors_append, survivors_unmark, survivors_unmark, List.nil_append, List.nil_append]
  intro hsame
  have hle : (survivors (markedFrom r f 0 (behind (behind none p) h.taken) m')).length ≤
      (survivors m').length := survivors_markedFrom.length_le
  have hwhole := congrArg survivors hsplit
  rw [survivors_append, survivors_append, survivors_mark, survivors_unmark,
    List.append_nil] at hwhole
  rw [hsame, hwhole, List.length_append] at hle
  obtain ⟨c, cs, rfl⟩ := List.exists_cons_of_ne_nil hx
  obtain ⟨d, ds, rfl⟩ := List.exists_cons_of_ne_nil hne
  have hd : (c, true) = d := (List.cons.inj hsplit).1
  rw [← hd] at hle
  have hpos : (survivors ((c, true) :: ds)).length = (survivors ds).length + 1 := rfl
  omega

end Around

end CryptoAlert.Regex
