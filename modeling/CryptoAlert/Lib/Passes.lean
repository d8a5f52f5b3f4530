import CryptoAlert.Lib.Regex

/-!
# Replacement around a part of a text

A replacement scans the whole text, yet what it finds in front of a part does not depend on
that part as long as no match reaches into it, and what it finds behind the part depends on no
more than the last character of the part. From this two texts that differ in one part only are
compared, replacement by replacement.
-/

namespace CryptoAlert.Regex

deriving instance DecidableEq for Hit

section Locality

/-- The hits that end within `before`, without what follows them. -/
def staying (r : Regex) (prev : Option Char) (before after : List Char) :
    List (List Char × List (Nat × List Char)) :=
  ((r.hits prev (before ++ after)).filter fun h => h.taken.length ≤ before.length).map
    fun h => (h.taken, h.groups)

variable {r t : Regex} {prev : Option Char} {before after after₁ after₂ : List Char}

theorem staying_seq : (seq r t).staying prev before after =
    (r.staying prev before after).flatMap fun a =>
      (t.staying (a.1.getLast?.or prev) (before.drop a.1.length) after).map fun b =>
        (a.1 ++ b.1, a.2 ++ b.2) := by
  unfold staying
  have hsplit : ∀ h ∈ r.hits prev (before ++ after), h.taken ++ h.rest = before ++ after :=
    fun h hm => hits_split hm
  rw [hits]
  generalize r.hits prev (before ++ after) = found at hsplit
  induction found with
  | nil => rfl
  | cons h hs ih =>
      have htail := ih fun g hg => hsplit g (List.mem_cons_of_mem h hg)
      rw [List.flatMap_cons, List.filter_append, List.map_append, htail]
      by_cases hstays : h.taken.length ≤ before.length
      · have hrest : h.rest = before.drop h.taken.length ++ after := by
          have hs := congrArg (List.drop h.taken.length) (hsplit h List.mem_cons_self)
          rw [List.drop_left, List.drop_append_of_le_length hstays] at hs
          exact hs
        rw [List.filter_cons_of_pos (by simpa using hstays), List.map_cons, List.flatMap_cons]
        congr 1
        rw [hrest, Hit.prev, List.filter_map, List.map_map, List.map_map]
        have hsame : (fun g : Hit => decide ((h.taken ++ g.taken).length ≤ before.length)) =
            fun g : Hit => decide (g.taken.length ≤ (before.drop h.taken.length).length) := by
          funext g
          rw [List.length_append, List.length_drop]
          exact decide_eq_decide.mpr (by omega)
        show List.map _ (List.filter (fun g : Hit =>
          decide ((h.taken ++ g.taken).length ≤ before.length)) _) = _
        rw [hsame]
        rfl
      · rw [List.filter_cons_of_neg (by simpa using hstays)]
        have hnone : (((t.hits (h.prev prev) h.rest).map fun g =>
            (⟨h.taken ++ g.taken, g.rest, h.groups ++ g.groups⟩ : Hit)).filter
              fun g => g.taken.length ≤ before.length) = [] := by
          rw [List.filter_eq_nil_iff]
          intro g hg
          obtain ⟨g', -, rfl⟩ := List.mem_map.mp hg
          simp only [List.length_append, decide_eq_true_eq]
          omega
        rw [hnone]
        rfl

theorem staying_many (p : Char → Bool) :
    (many p).staying prev before after₁ = (many p).staying prev before after₂ := by
  unfold staying
  simp only [hits]
  induction before with
  | nil =>
      have hempty : ∀ after : List Char, ((manyHits p ([] ++ after)).filter fun h =>
          h.taken.length ≤ ([] : List Char).length).map (fun h => (h.taken, h.groups)) =
            [([], [])] := by
        intro after
        cases after with
        | nil => rfl
        | cons c cs =>
            rw [List.nil_append, manyHits]
            split <;> simp
      rw [hempty, hempty]
  | cons c cs ih =>
      have hcons : ∀ after : List Char, ((manyHits p (c :: cs ++ after)).filter fun h =>
          h.taken.length ≤ (c :: cs).length).map (fun h => (h.taken, h.groups)) =
            if p c then (((manyHits p (cs ++ after)).filter fun h =>
              h.taken.length ≤ cs.length).map fun h => (c :: h.taken, [])) ++ [([], [])]
            else [([], [])] := by
        intro after
        rw [List.cons_append, manyHits]
        split_ifs with hp
        · rw [List.filter_append, List.map_append, List.filter_map, List.map_map]
          simp [Function.comp_def]
        · simp
      rw [hcons, hcons]
      have htaken := congrArg (List.map fun a => (c :: a.1, ([] : List (Nat × List Char)))) ih
      simp only [List.map_map, Function.comp_def] at htaken
      rw [htaken]

/-- The hits that end within `before` depend on no more of what follows than its first
character. -/
theorem staying_congr (hhead : after₁.head? = after₂.head?) :
    r.staying prev before after₁ = r.staying prev before after₂ := by
  have hnext : (before ++ after₁).head? = (before ++ after₂).head? := by
    cases before with
    | nil => exact hhead
    | cons c cs => rfl
  induction r generalizing prev before with
  | eps => simp [staying, hits]
  | chr p =>
      cases before with
      | nil =>
          have hnone : ∀ after : List Char, (chr p).staying prev [] after = [] := by
            intro after
            cases after with
            | nil => rfl
            | cons c cs =>
                simp only [staying, hits, List.nil_append]
                split_ifs <;> simp
          rw [hnone, hnone]
      | cons c cs =>
          simp only [staying, hits, List.cons_append]
          split_ifs <;> simp
  | many p => exact staying_many p
  | seq r t ihr iht =>
      rw [staying_seq, staying_seq, ihr hnext]
      congr 1
      funext a
      rw [iht]
      cases before.drop a.1.length with
      | nil => exact hhead
      | cons c cs => rfl
  | alt r t ihr iht =>
      have hr : r.staying prev before after₁ = r.staying prev before after₂ := ihr hnext
      have ht : t.staying prev before after₁ = t.staying prev before after₂ := iht hnext
      unfold staying at hr ht ⊢
      simp only [hits, List.filter_append, List.map_append, hr, ht]
  | group k r ih =>
      have hr : r.staying prev before after₁ = r.staying prev before after₂ := ih hnext
      have hgroup : ∀ after : List Char, (group k r).staying prev before after =
          (r.staying prev before after).map fun a => (a.1, (k, a.1) :: a.2) := by
        intro after
        simp only [staying, hits, List.filter_map, List.map_map]
        rfl
      rw [hgroup, hgroup, hr]
  | notAfter p =>
      simp only [staying, hits]
      split_ifs <;> simp
  | notBefore p =>
      simp only [staying, hits, hnext]
      split_ifs <;> simp
  | boundary w =>
      simp only [staying, hits, hnext]
      split_ifs <;> simp

/-- The engine's answer, where it ends within `before`, is the first hit that does. -/
theorem map_firstHit
    (hstays : ∀ h ∈ r.firstHit prev (before ++ after), h.taken.length ≤ before.length) :
    (r.firstHit prev (before ++ after)).map (fun h => (h.taken, h.groups)) =
      (r.staying prev before after).find? fun a => !a.1.isEmpty := by
  unfold firstHit at hstays ⊢
  unfold staying
  generalize r.hits prev (before ++ after) = found at hstays ⊢
  induction found with
  | nil => rfl
  | cons g gs ih =>
      by_cases hempty : g.taken = []
      · have hskip : ((g :: gs).find? fun h => !h.taken.isEmpty) =
            gs.find? fun h => !h.taken.isEmpty := by simp [hempty]
        rw [hskip] at hstays ⊢
        rw [List.filter_cons_of_pos (by simp [hempty]), ih hstays]
        simp [hempty]
      · have hfirst : ((g :: gs).find? fun h => !h.taken.isEmpty) = some g := by simp [hempty]
        have hg := hstays g hfirst
        rw [hfirst, List.filter_cons_of_pos (by simpa using hg)]
        simp [hempty]

/-- Where the engine's answers end within `before`, they agree. -/
theorem firstHit_congr (hhead : after₁.head? = after₂.head?)
    (h₁ : ∀ h ∈ r.firstHit prev (before ++ after₁), h.taken.length ≤ before.length)
    (h₂ : ∀ h ∈ r.firstHit prev (before ++ after₂), h.taken.length ≤ before.length) :
    (r.firstHit prev (before ++ after₁)).map (fun h => (h.taken, h.groups)) =
      (r.firstHit prev (before ++ after₂)).map fun h => (h.taken, h.groups) := by
  rw [map_firstHit h₁, map_firstHit h₂, staying_congr hhead]

end Locality

section Within

variable (r : Regex) (f : Hit → List Char)

/-- What a replacement makes of `before` when `after` follows; `none` where a match that it finds
there reaches into `after`. -/
def subWithin : ℕ → Option Char → List Char → List Char → Option (List Char)
  | 0, _, [], _ => some []
  | _ + 1, _, [], _ => none
  | k + 1, _, c :: cs, after => subWithin k (some c) cs after
  | 0, prev, c :: cs, after =>
      match r.firstHit prev (c :: (cs ++ after)) with
      | some h => (subWithin (h.taken.length - 1) (some c) cs after).map (f h ++ ·)
      | none => (subWithin 0 (some c) cs after).map (c :: ·)

variable {r f} {k : ℕ} {prev prev₁ prev₂ : Option Char}
  {before after after₁ after₂ result result₁ result₂ : List Char}

theorem le_of_subWithin (h : subWithin r f k prev before after = some result) :
    k ≤ before.length := by
  induction before generalizing k prev result with
  | nil =>
      cases k with
      | zero => exact Nat.zero_le _
      | succ k => cases h
  | cons c cs ih =>
      cases k with
      | zero => exact Nat.zero_le _
      | succ k => exact Nat.succ_le_succ (ih h)

/-- The character in front of what follows a text. -/
def behind (prev : Option Char) (before : List Char) : Option Char := before.getLast?.or prev

@[simp] theorem behind_nil : behind prev [] = prev := rfl

theorem behind_cons (c : Char) (cs : List Char) :
    behind (some c) cs = behind prev (c :: cs) := by
  cases cs with
  | nil => rfl
  | cons d ds =>
      unfold behind
      rw [List.getLast?_cons_cons, List.getLast?_cons]
      rfl

/-- A replacement goes on behind `before` with no match pending. -/
theorem subFrom_append (h : subWithin r f k prev before after = some result) :
    subFrom r f k prev (before ++ after) =
      result ++ subFrom r f 0 (behind prev before) after := by
  induction before generalizing k prev result with
  | nil =>
      cases k with
      | zero =>
          cases h
          rfl
      | succ k => cases h
  | cons c cs ih =>
      rw [← behind_cons]
      cases k with
      | succ k => exact ih h
      | zero =>
          rw [List.cons_append, subFrom]
          rw [subWithin] at h
          cases hfound : r.firstHit prev (c :: (cs ++ after)) with
          | some found =>
              rw [hfound] at h
              obtain ⟨rest, hrest, rfl⟩ := Option.map_eq_some_iff.mp h
              dsimp only
              rw [ih hrest, List.append_assoc]
          | none =>
              rw [hfound] at h
              obtain ⟨rest, hrest, rfl⟩ := Option.map_eq_some_iff.mp h
              dsimp only
              rw [ih hrest, List.cons_append]

/-- A replacement that reads no more than the match and its groups. -/
def Local (f : Hit → List Char) : Prop :=
  ∀ h h' : Hit, h.taken = h'.taken → h.groups = h'.groups → f h = f h'

/-- The match at which a replacement within `before` goes on. -/
theorem stays_of_subWithin {c : Char} {cs : List Char}
    (h : subWithin r f 0 prev (c :: cs) after = some result) :
    ∀ found ∈ r.firstHit prev (c :: cs ++ after), found.taken.length ≤ (c :: cs).length := by
  intro found hfound
  rw [subWithin] at h
  rw [show r.firstHit prev (c :: (cs ++ after)) = some found from hfound] at h
  obtain ⟨rest, hrest, -⟩ := Option.map_eq_some_iff.mp h
  have hwithin := le_of_subWithin hrest
  have hpos := List.length_pos_of_ne_nil (firstHit_taken_ne_nil hfound)
  rw [List.length_cons]
  omega

/-- What follows decides with no more than its first character. -/
theorem subWithin_congr (hf : Local f) (hhead : after₁.head? = after₂.head?)
    (h₁ : subWithin r f k prev before after₁ = some result₁)
    (h₂ : subWithin r f k prev before after₂ = some result₂) : result₁ = result₂ := by
  induction before generalizing k prev result₁ result₂ with
  | nil =>
      cases k with
      | zero =>
          cases h₁
          cases h₂
          rfl
      | succ k => cases h₁
  | cons c cs ih =>
      cases k with
      | succ k => exact ih h₁ h₂
      | zero =>
          have hsame := firstHit_congr hhead (stays_of_subWithin h₁) (stays_of_subWithin h₂)
          rw [List.cons_append, List.cons_append] at hsame
          rw [subWithin] at h₁ h₂
          cases hfound₁ : r.firstHit prev (c :: (cs ++ after₁)) with
          | none =>
              rw [hfound₁, Option.map_none, eq_comm, Option.map_eq_none_iff] at hsame
              rw [hfound₁] at h₁
              rw [hsame] at h₂
              obtain ⟨rest₁, hrest₁, rfl⟩ := Option.map_eq_some_iff.mp h₁
              obtain ⟨rest₂, hrest₂, rfl⟩ := Option.map_eq_some_iff.mp h₂
              rw [ih hrest₁ hrest₂]
          | some found₁ =>
              rw [hfound₁, Option.map_some, eq_comm] at hsame
              obtain ⟨found₂, hfound₂, heq⟩ := Option.map_eq_some_iff.mp hsame
              obtain ⟨htaken, hgroups⟩ := Prod.mk.inj heq
              rw [hfound₁] at h₁
              rw [hfound₂] at h₂
              obtain ⟨rest₁, hrest₁, rfl⟩ := Option.map_eq_some_iff.mp h₁
              obtain ⟨rest₂, hrest₂, rfl⟩ := Option.map_eq_some_iff.mp h₂
              rw [htaken] at hrest₂
              rw [hf found₂ found₁ htaken hgroups, ih hrest₁ hrest₂]

/-- The characters of a match are passed over. -/
theorem subFrom_skip (x y : List Char) :
    subFrom r f x.length prev (x ++ y) = subFrom r f 0 (behind prev x) y := by
  induction x generalizing prev with
  | nil => rfl
  | cons c cs ih =>
      rw [← behind_cons]
      exact ih

/-- A replacement of a match at the place where the scan stands. -/
theorem subFrom_of_firstHit {x y : List Char} {groups : List (ℕ × List Char)} (hne : x ≠ [])
    (h : r.firstHit prev (x ++ y) = some ⟨x, y, groups⟩) :
    subFrom r f 0 prev (x ++ y) = f ⟨x, y, groups⟩ ++ subFrom r f 0 (behind prev x) y := by
  obtain ⟨c, cs, rfl⟩ := List.exists_cons_of_ne_nil hne
  rw [List.cons_append] at h ⊢
  rw [subFrom, h, ← behind_cons]
  dsimp only
  rw [List.length_cons, Nat.add_sub_cancel, subFrom_skip]

/-- What stands in front decides with no more than the match that starts behind it. -/
theorem subFrom_prev {s : List Char} (h : r.firstHit prev₁ s = r.firstHit prev₂ s) :
    subFrom r f 0 prev₁ s = subFrom r f 0 prev₂ s := by
  cases s with
  | nil => rfl
  | cons c cs => rw [subFrom, subFrom, h]

end Within

section Edges

variable {r : Regex} {f : Hit → List Char} {w : Char → Bool} {k : ℕ} {prev : Option Char}
  {before after result s : List Char}

/-- A kind of character that the text does not end with, and no match that ends with it is
replaced by, is not what the result ends with. -/
theorem last_of_subWithin (h : subWithin r f k prev before after = some result)
    (hbefore : isAt w (behind prev before) = false)
    (hf : ∀ prev x found, r.firstHit prev (x ++ after) = some found → found.taken = x →
      isAt w x.getLast? = false → ∃ y d, f found = y ++ [d] ∧ w d = false) :
    (result = [] ∧ k = before.length) ∨ ∃ y d, result = y ++ [d] ∧ w d = false := by
  induction before generalizing k prev result with
  | nil =>
      cases k with
      | zero =>
          cases h
          exact .inl ⟨rfl, rfl⟩
      | succ k => cases h
  | cons c cs ih =>
      rw [← behind_cons] at hbefore
      cases k with
      | succ k =>
          rcases ih h hbefore with ⟨hempty, hk⟩ | hlast
          · exact .inl ⟨hempty, congrArg Nat.succ hk⟩
          · exact .inr hlast
      | zero =>
          right
          have hstays := stays_of_subWithin h
          rw [subWithin] at h
          cases hfound : r.firstHit prev (c :: (cs ++ after)) with
          | none =>
              rw [hfound] at h
              obtain ⟨rest, hrest, rfl⟩ := Option.map_eq_some_iff.mp h
              rcases ih hrest hbefore with ⟨rfl, hcs⟩ | ⟨y, d, rfl, hd⟩
              · obtain rfl := List.length_eq_zero_iff.mp hcs.symm
                exact ⟨[], c, rfl, hbefore⟩
              · exact ⟨c :: y, d, rfl, hd⟩
          | some found =>
              rw [hfound] at h
              obtain ⟨rest, hrest, rfl⟩ := Option.map_eq_some_iff.mp h
              rcases ih hrest hbefore with ⟨rfl, hcs⟩ | ⟨y, d, rfl, hd⟩
              · have hlength : found.taken.length = (c :: cs).length := by
                  have hle := hstays found hfound
                  have hpos := List.length_pos_of_ne_nil (firstHit_taken_ne_nil hfound)
                  rw [List.length_cons] at hle ⊢
                  omega
                have htaken : found.taken = c :: cs := by
                  have hsplit := hits_split (firstHit_mem hfound)
                  rw [← List.cons_append] at hsplit
                  exact (List.append_inj hsplit hlength).1
                have hend : isAt w (c :: cs).getLast? = false := by
                  rw [List.getLast?_cons]
                  rw [behind, Option.or_some] at hbefore
                  exact hbefore
                rw [List.append_nil]
                exact hf prev (c :: cs) found hfound htaken hend
              · exact ⟨f found ++ y, d, (List.append_assoc _ _ _).symm, hd⟩

theorem isAt_behind_of_subWithin (h : subWithin r f 0 prev before after = some result)
    (hbefore : isAt w (behind prev before) = false)
    (hf : ∀ prev x found, r.firstHit prev (x ++ after) = some found → found.taken = x →
      isAt w x.getLast? = false → ∃ y d, f found = y ++ [d] ∧ w d = false) :
    isAt w (behind prev result) = false := by
  rcases last_of_subWithin h hbefore hf with ⟨rfl, hempty⟩ | ⟨y, d, rfl, hd⟩
  · obtain rfl := List.length_eq_zero_iff.mp hempty.symm
    exact hbefore
  · rw [behind, List.getLast?_concat]
    exact hd

/-- A kind of character that the text does not begin with, and no match at its beginning is
replaced by, is not what the result begins with. -/
theorem isAt_head_subFrom (hs : isAt w s.head? = false)
    (hf : ∀ found, r.firstHit prev s = some found → ∃ d y, f found = d :: y ∧ w d = false) :
    isAt w (subFrom r f 0 prev s).head? = false := by
  cases s with
  | nil => rfl
  | cons c cs =>
      rw [subFrom]
      cases hfound : r.firstHit prev (c :: cs) with
      | none => exact hs
      | some found =>
          obtain ⟨d, y, heq, hd⟩ := hf found hfound
          dsimp only
          rw [heq]
          exact hd

/-- Whether an expression matches the empty text. -/
def nullable : Regex → Bool
  | chr _ => false
  | seq r t => nullable r && nullable t
  | alt r t => nullable r || nullable t
  | group _ r => nullable r
  | _ => true

section Rules

variable {p : Char → Bool} {r t : Regex} {k : ℕ}

@[simp] theorem nullable_eps : eps.nullable = true := rfl

@[simp] theorem nullable_chr : (chr p).nullable = false := rfl

@[simp] theorem nullable_many : (many p).nullable = true := rfl

@[simp] theorem nullable_seq : (seq r t).nullable = (r.nullable && t.nullable) := rfl

@[simp] theorem nullable_alt : (alt r t).nullable = (r.nullable || t.nullable) := rfl

@[simp] theorem nullable_group : (group k r).nullable = r.nullable := rfl

@[simp] theorem nullable_notAfter : (notAfter p).nullable = true := rfl

@[simp] theorem nullable_notBefore : (notBefore p).nullable = true := rfl

@[simp] theorem nullable_boundary : (boundary p).nullable = true := rfl

end Rules

theorem nullable_of_hit {h : Hit} (hm : h ∈ r.hits prev s) (hempty : h.taken = []) :
    r.nullable = true := by
  induction r generalizing prev s h with
  | chr p =>
      cases s with
      | nil => cases hm
      | cons c cs =>
          simp only [hits] at hm
          split_ifs at hm
          · rw [List.mem_singleton.mp hm] at hempty
            cases hempty
          · cases hm
  | seq r t ihr iht =>
      simp only [hits, List.mem_flatMap, List.mem_map] at hm
      obtain ⟨a, ha, b, hb, rfl⟩ := hm
      obtain ⟨ha', hb'⟩ := List.append_eq_nil_iff.mp hempty
      rw [nullable, ihr ha ha', iht hb hb']
      rfl
  | alt r t ihr iht =>
      rw [nullable]
      rcases List.mem_append.mp hm with hr | ht
      · rw [ihr hr hempty, Bool.true_or]
      · rw [iht ht hempty, Bool.or_true]
  | group k r ih =>
      obtain ⟨a, ha, rfl⟩ := List.mem_map.mp hm
      exact ih ha hempty
  | eps | many | notAfter | notBefore | boundary => rfl

/-- Every match that takes anything begins with a character with the property. -/
def Starts (P : Char → Prop) : Regex → Prop
  | chr p => ∀ c, p c = true → P c
  | many p => ∀ c, p c = true → P c
  | seq r t => Starts P r ∧ (r.nullable = true → Starts P t)
  | alt r t => Starts P r ∧ Starts P t
  | group _ r => Starts P r
  | _ => True

section Rules

variable {P : Char → Prop} {p : Char → Bool} {r t : Regex} {k : ℕ}

@[simp] theorem starts_eps : eps.Starts P := trivial

@[simp] theorem starts_chr : (chr p).Starts P ↔ ∀ c, p c = true → P c := Iff.rfl

@[simp] theorem starts_many : (many p).Starts P ↔ ∀ c, p c = true → P c := Iff.rfl

@[simp] theorem starts_seq :
    (seq r t).Starts P ↔ r.Starts P ∧ (r.nullable = true → t.Starts P) := Iff.rfl

@[simp] theorem starts_alt : (alt r t).Starts P ↔ r.Starts P ∧ t.Starts P := Iff.rfl

@[simp] theorem starts_group : (group k r).Starts P ↔ r.Starts P := Iff.rfl

@[simp] theorem starts_notAfter : (notAfter p).Starts P := trivial

@[simp] theorem starts_notBefore : (notBefore p).Starts P := trivial

@[simp] theorem starts_boundary : (boundary p).Starts P := trivial

end Rules

theorem head_of_starts {P : Char → Prop} {h : Hit} (hr : r.Starts P) (hm : h ∈ r.hits prev s) :
    ∀ c ∈ h.taken.head?, P c := by
  induction r generalizing prev s h with
  | chr p =>
      cases s with
      | nil => cases hm
      | cons d cs =>
          simp only [hits] at hm
          split_ifs at hm with hp
          · rw [List.mem_singleton.mp hm]
            rintro c ⟨⟩
            exact hr d hp
          · cases hm
  | many p =>
      cases s with
      | nil =>
          rw [List.mem_singleton.mp hm]
          rintro c ⟨⟩
      | cons d cs =>
          simp only [hits, manyHits] at hm
          split_ifs at hm with hp
          · rcases List.mem_append.mp hm with htaken | hempty
            · obtain ⟨a, -, rfl⟩ := List.mem_map.mp htaken
              rintro c ⟨⟩
              exact hr d hp
            · rw [List.mem_singleton.mp hempty]
              rintro c ⟨⟩
          · rw [List.mem_singleton.mp hm]
            rintro c ⟨⟩
  | seq r t ihr iht =>
      simp only [hits, List.mem_flatMap, List.mem_map] at hm
      obtain ⟨a, ha, b, hb, rfl⟩ := hm
      cases htaken : a.taken with
      | nil =>
          rw [List.nil_append]
          have hrest := iht (hr.2 (nullable_of_hit ha htaken)) hb
          exact hrest
      | cons d ds =>
          have hd := ihr hr.1 ha
          rw [htaken] at hd
          exact hd
  | alt r t ihr iht =>
      rcases List.mem_append.mp hm with hm | hm
      · exact ihr hr.1 hm
      · exact iht hr.2 hm
  | group k r ih =>
      obtain ⟨a, ha, rfl⟩ := List.mem_map.mp hm
      have htaken := ih hr ha
      exact htaken
  | eps =>
      rw [List.mem_singleton.mp hm]
      rintro c ⟨⟩
  | notAfter p | notBefore p | boundary p =>
      simp only [hits] at hm
      split_ifs at hm
      · cases hm
      · rw [List.mem_singleton.mp hm]
        rintro c ⟨⟩

/-- The first character of a text where a match starts. -/
theorem exists_head_of_firstHit {P : Char → Prop} {h : Hit} (hr : r.Starts P)
    (hfound : r.firstHit prev s = some h) : ∃ c ∈ s.head?, P c := by
  have hsplit := hits_split (firstHit_mem hfound)
  obtain ⟨c, cs, htaken⟩ := List.exists_cons_of_ne_nil (firstHit_taken_ne_nil hfound)
  refine ⟨c, ?_, head_of_starts hr (firstHit_mem hfound) c (by rw [htaken]; rfl)⟩
  rw [← hsplit, htaken]
  rfl

theorem firstHit_eq_none_of_starts {P : Char → Prop} (hr : r.Starts P)
    (hs : ∀ c ∈ s.head?, ¬ P c) : r.firstHit prev s = none := by
  by_contra hsome
  obtain ⟨h, hfound⟩ := Option.ne_none_iff_exists'.mp hsome
  obtain ⟨c, hc, hP⟩ := exists_head_of_firstHit hr hfound
  exact hs c hc hP

end Edges

section First

variable {r t : Regex} {p q : Char → Bool} {k : ℕ} {prev : Option Char} {h : Hit}
  {s x y rest : List Char} {groups groups' : List (ℕ × List Char)}

/-- An expression that ends in the greedy repetition of a class. -/
def EndsMany (q : Char → Bool) : Regex → Prop
  | many p => p = q
  | seq _ t => EndsMany q t
  | _ => False

theorem head?_flatMap_eq_some {α β : Type} {g : α → List β} {l : List α} {b : β}
    (hb : (l.flatMap g).head? = some b) : ∃ a ∈ l, (g a).head? = some b := by
  induction l with
  | nil => cases hb
  | cons a l ih =>
      rw [List.flatMap_cons] at hb
      cases hga : g a with
      | nil =>
          rw [hga, List.nil_append] at hb
          obtain ⟨a', ha', hb'⟩ := ih hb
          exact ⟨a', List.mem_cons_of_mem a ha', hb'⟩
      | cons b' bs =>
          rw [hga] at hb
          exact ⟨a, List.mem_cons_self, hga ▸ hb⟩

theorem head?_manyHits (p : Char → Bool) (s : List Char) :
    (manyHits p s).head? = some ⟨s.takeWhile p, s.dropWhile p, []⟩ := by
  induction s with
  | nil => rfl
  | cons c cs ih =>
      rw [manyHits, List.takeWhile_cons, List.dropWhile_cons]
      by_cases hp : p c = true
      · rw [if_pos hp, if_pos hp, if_pos hp, List.head?_append, List.head?_map, ih]
        rfl
      · rw [if_neg hp, if_neg hp, if_neg hp]
        rfl

/-- The first hit of such an expression leaves no character of the class to be taken. -/
theorem rest_of_endsMany (hr : r.EndsMany q) (hfirst : (r.hits prev s).head? = some h) :
    isAt q h.rest.head? = false := by
  induction r generalizing prev s h with
  | many p =>
      obtain rfl : p = q := hr
      rw [hits, head?_manyHits] at hfirst
      cases hfirst
      cases hdrop : s.dropWhile p with
      | nil => rfl
      | cons c cs =>
          have hne : s.dropWhile p ≠ [] := by
            rw [hdrop]
            exact List.cons_ne_nil c cs
          have hhead := List.head_dropWhile_not p hne
          simp only [hdrop, List.head_cons] at hhead
          exact hhead
  | seq r t _ iht =>
      rw [hits] at hfirst
      obtain ⟨a, -, hfirst⟩ := head?_flatMap_eq_some hfirst
      rw [List.head?_map] at hfirst
      obtain ⟨b, hb, rfl⟩ := Option.map_eq_some_iff.mp hfirst
      have hrest := iht hr hb
      exact hrest
  | eps | chr | alt | group | notAfter | notBefore | boundary => exact hr.elim

theorem firstHit_of_head? (hne : h.taken ≠ []) (hfirst : (r.hits prev s).head? = some h) :
    r.firstHit prev s = some h := by
  obtain ⟨tail, htail⟩ := List.head?_eq_some_iff.mp hfirst
  rw [firstHit, htail, List.find?_cons_of_pos (by simpa using hne)]

theorem head?_of_firstHit {P : Char → Prop} (hr : r.Takes P)
    (hfound : r.firstHit prev s = some h) : (r.hits prev s).head? = some h := by
  cases hhits : r.hits prev s with
  | nil =>
      rw [firstHit, hhits] at hfound
      cases hfound
  | cons g gs =>
      have hg : g.taken ≠ [] := by
        obtain ⟨c, hc, -⟩ := exists_mem_of_takes hr (hhits ▸ List.mem_cons_self)
        exact List.ne_nil_of_mem hc
      rw [firstHit, hhits, List.find?_cons_of_pos (by simpa using hg)] at hfound
      exact hfound

/-- The first hit of an expression on `x ++ rest` takes `x`. -/
def Leads (r : Regex) (prev : Option Char) (x rest : List Char)
    (groups : List (ℕ × List Char)) : Prop :=
  (r.hits prev (x ++ rest)).head? = some ⟨x, rest, groups⟩

theorem Leads.seq (hr : r.Leads prev x (y ++ rest) groups)
    (ht : t.Leads (x.getLast?.or prev) y rest groups') :
    (seq r t).Leads prev (x ++ y) rest (groups ++ groups') := by
  unfold Leads at hr ht ⊢
  obtain ⟨rs, hrs⟩ := List.head?_eq_some_iff.mp hr
  obtain ⟨ts, hts⟩ := List.head?_eq_some_iff.mp ht
  rw [hits, List.append_assoc, hrs, List.flatMap_cons]
  dsimp only [Hit.prev]
  rw [hts]
  rfl

theorem Leads.chr {c : Char} (hc : p c = true) : (chr p).Leads prev [c] rest [] := by
  simp [Leads, hits, hc]

theorem Leads.many (hx : ∀ c ∈ x, p c = true) (hrest : isAt p rest.head? = false) :
    (many p).Leads prev x rest [] := by
  have hstop : rest.takeWhile p = [] ∧ rest.dropWhile p = rest := by
    cases rest with
    | nil => exact ⟨rfl, rfl⟩
    | cons c cs =>
        have hc : ¬ p c = true := by simpa [isAt] using hrest
        exact ⟨List.takeWhile_cons_of_neg hc, List.dropWhile_cons_of_neg hc⟩
  rw [Leads, hits, head?_manyHits, List.takeWhile_append_of_pos hx,
    List.dropWhile_append_of_pos hx, hstop.1, hstop.2, List.append_nil]

theorem Leads.many1 (hne : x ≠ []) (hx : ∀ c ∈ x, p c = true)
    (hrest : isAt p rest.head? = false) : (many1 p).Leads prev x rest [] := by
  obtain ⟨c, cs, rfl⟩ := List.exists_cons_of_ne_nil hne
  have hcs : (Regex.many p).Leads ([c].getLast?.or prev) cs rest [] :=
    .many (fun d hd => hx d (List.mem_cons_of_mem c hd)) hrest
  exact Leads.seq (Leads.chr (hx c List.mem_cons_self)) hcs

theorem Leads.group (hr : r.Leads prev x rest groups) :
    (group k r).Leads prev x rest ((k, x) :: groups) := by
  unfold Leads at hr ⊢
  rw [hits, List.head?_map, hr]
  rfl

theorem Leads.boundary {w : Char → Bool} (h : isAt w prev ≠ isAt w rest.head?) :
    (boundary w).Leads prev [] rest [] := by
  simp [Leads, hits, h]

theorem Leads.alt_left (hr : r.Leads prev x rest groups) :
    (alt r t).Leads prev x rest groups := by
  unfold Leads at hr ⊢
  rw [hits, List.head?_append, hr]
  rfl

theorem Leads.alt_right (hr : r.hits prev (x ++ rest) = []) (ht : t.Leads prev x rest groups) :
    (alt r t).Leads prev x rest groups := by
  unfold Leads at ht ⊢
  rw [hits, hr, List.nil_append, ht]

theorem Leads.opt_none (hr : r.hits prev rest = []) : (opt r).Leads prev [] rest [] :=
  .alt_right hr rfl

/-- One of several alternatives, where none before it matches. -/
theorem Leads.alts {before after : List Regex}
    (hbefore : ∀ t ∈ before, t.hits prev (x ++ rest) = []) (hr : r.Leads prev x rest groups) :
    (alts (before ++ r :: after)).Leads prev x rest groups := by
  induction before with
  | nil =>
      cases after with
      | nil => exact hr
      | cons t ts => exact .alt_left hr
  | cons t ts ih =>
      have hts := ih fun t' ht' => hbefore t' (List.mem_cons_of_mem t ht')
      have hhead := hbefore t List.mem_cons_self
      cases ts with
      | nil => exact .alt_right hhead hts
      | cons t' ts => exact .alt_right hhead hts

theorem hits_chr_eq_nil (h : isAt p s.head? = false) : (chr p).hits prev s = [] := by
  cases s with
  | nil => rfl
  | cons c cs =>
      have hc : p c = false := h
      simp [hits, hc]

theorem hits_seq_eq_nil (h : r.hits prev s = []) : (seq r t).hits prev s = [] := by
  rw [hits, h]
  rfl

end First

end CryptoAlert.Regex
