import CryptoAlert.Lib.Refusals
import Mathlib.Data.List.Nodup
import Mathlib.Data.Option.Basic

/-!
# Collecting what is made of the first item of each key

A loop passes over the items whose key it has seen and makes something of the others, which may be
nothing, or raises. A key counts as seen at once, or only when something was made. What is made may
be named otherwise than by the key; the names are distinct exactly when no two keys have one name.
-/

namespace CryptoAlert.Collecting

open Refusals

variable {α β κ γ ε : Type} [DecidableEq κ]

def collect (early : Bool) (key : α → κ) (make : α → Except ε (Option β)) :
    List κ → List α → Except ε (List β)
  | _, [] => .ok []
  | seen, a :: as =>
      if key a ∈ seen then collect early key make seen as
      else do
        match ← make a with
        | some b =>
            let bs ← collect early key make (key a :: seen) as
            return b :: bs
        | none => collect early key make (if early then key a :: seen else seen) as

section Rules

variable {early : Bool} {key : α → κ} {make : α → Except ε (Option β)} {name : β → γ}
  {norm : κ → Option γ} {seen : List κ} {as : List α}

/-- The key decides what is made is called, or that nothing is made. -/
def Names (key : α → κ) (make : α → Except ε (Option β)) (name : β → γ) (norm : κ → Option γ) :
    Prop :=
  ∀ a m, make a = .ok m → m.map name = norm (key a)

theorem collect_seen {a : α} (h : key a ∈ seen) :
    collect early key make seen (a :: as) = collect early key make seen as := by
  rw [collect, if_pos h]

theorem collect_error {a : α} {e : ε} (h : key a ∉ seen) (ha : make a = .error e) :
    collect early key make seen (a :: as) = .error e := by
  rw [collect, if_neg h, ha]
  rfl

theorem collect_none {a : α} (h : key a ∉ seen) (ha : make a = .ok none) :
    collect early key make seen (a :: as) =
      collect early key make (if early then key a :: seen else seen) as := by
  rw [collect, if_neg h, ha]
  rfl

theorem collect_some {a : α} {b : β} (h : key a ∉ seen) (ha : make a = .ok (some b)) :
    collect early key make seen (a :: as) =
      (collect early key make (key a :: seen) as).map (b :: ·) := by
  rw [collect, if_neg h, ha]
  cases collect early key make (key a :: seen) as <;> rfl

theorem map_eq_ok_iff {f : α → β} {x : Except ε α} {b : β} :
    x.map f = .ok b ↔ ∃ a, x = .ok a ∧ f a = b := by
  cases x with
  | error e =>
      constructor
      · intro h
        cases h
      · rintro ⟨a, h, -⟩
        cases h
  | ok a =>
      constructor
      · intro h
        cases h
        exact ⟨a, rfl, rfl⟩
      · rintro ⟨a', h, rfl⟩
        cases h
        rfl

/-- Everything collected was made of an item. -/
theorem exists_of_mem_collect {bs : List β} (h : collect early key make seen as = .ok bs) {b : β}
    (hb : b ∈ bs) : ∃ a ∈ as, make a = .ok (some b) := by
  induction as generalizing seen bs with
  | nil =>
      cases h
      cases hb
  | cons a as ih =>
      by_cases hseen : key a ∈ seen
      · rw [collect_seen hseen] at h
        obtain ⟨a', ha', hmade⟩ := ih h hb
        exact ⟨a', List.mem_cons_of_mem a ha', hmade⟩
      · cases hmake : make a with
        | error e =>
            rw [collect_error hseen hmake] at h
            cases h
        | ok made =>
            cases made with
            | none =>
                rw [collect_none hseen hmake] at h
                obtain ⟨a', ha', hmade⟩ := ih h hb
                exact ⟨a', List.mem_cons_of_mem a ha', hmade⟩
            | some b' =>
                rw [collect_some hseen hmake, map_eq_ok_iff] at h
                obtain ⟨bs', hrest, rfl⟩ := h
                obtain rfl | hb := List.mem_cons.mp hb
                · exact ⟨a, List.mem_cons_self, hmake⟩
                · obtain ⟨a', ha', hmade⟩ := ih hrest hb
                  exact ⟨a', List.mem_cons_of_mem a ha', hmade⟩

/-- The keys of what is collected: each item key once that has a name and was not seen. -/
theorem keys_of_collect (hnames : Names key make name norm) {bs : List β}
    (h : collect early key make seen as = .ok bs) :
    ∃ ks : List κ, ks.Nodup ∧ ks.map norm = bs.map (some ∘ name) ∧
      ∀ k, k ∈ ks ↔ (k ∈ as.map key ∧ (norm k).isSome) ∧ k ∉ seen := by
  induction as generalizing seen bs with
  | nil =>
      cases h
      exact ⟨[], List.nodup_nil, rfl, fun k => by simp⟩
  | cons a as ih =>
      by_cases hseen : key a ∈ seen
      · rw [collect_seen hseen] at h
        obtain ⟨ks, hnodup, hnorm, hmem⟩ := ih h
        refine ⟨ks, hnodup, hnorm, fun k => ?_⟩
        rw [hmem, List.map_cons, List.mem_cons]
        constructor
        · rintro ⟨⟨hk, hsome⟩, hnew⟩
          exact ⟨⟨.inr hk, hsome⟩, hnew⟩
        · rintro ⟨⟨rfl | hk, hsome⟩, hnew⟩
          · exact absurd hseen hnew
          · exact ⟨⟨hk, hsome⟩, hnew⟩
      · cases hmake : make a with
        | error e =>
            rw [collect_error hseen hmake] at h
            cases h
        | ok made =>
            have hname := hnames a made hmake
            cases made with
            | none =>
                rw [collect_none hseen hmake] at h
                obtain ⟨ks, hnodup, hnorm, hmem⟩ := ih h
                refine ⟨ks, hnodup, hnorm, fun k => ?_⟩
                -- The key of the item has no name, whether it counts as seen or not.
                have hother : (norm k).isSome → k ≠ key a := by
                  rintro hsome rfl
                  rw [← hname] at hsome
                  cases hsome
                rw [hmem, List.map_cons, List.mem_cons]
                constructor
                · rintro ⟨⟨hk, hsome⟩, hnew⟩
                  refine ⟨⟨.inr hk, hsome⟩, fun hold => hnew ?_⟩
                  split
                  · exact List.mem_cons_of_mem _ hold
                  · exact hold
                · rintro ⟨⟨hk, hsome⟩, hnew⟩
                  refine ⟨⟨hk.resolve_left (hother hsome), hsome⟩, fun hold => ?_⟩
                  split at hold
                  · obtain heq | hold := List.mem_cons.mp hold
                    · exact hother hsome heq
                    · exact hnew hold
                  · exact hnew hold
            | some b =>
                rw [collect_some hseen hmake, map_eq_ok_iff] at h
                obtain ⟨bs', hrest, rfl⟩ := h
                obtain ⟨ks, hnodup, hnorm, hmem⟩ := ih hrest
                refine ⟨key a :: ks, List.nodup_cons.mpr ⟨fun hk => ?_, hnodup⟩, ?_, fun k => ?_⟩
                · exact ((hmem _).mp hk).2 List.mem_cons_self
                · rw [List.map_cons, List.map_cons, hnorm, ← hname]
                  rfl
                · rw [List.mem_cons, hmem, List.map_cons, List.mem_cons, List.mem_cons, not_or]
                  constructor
                  · rintro (rfl | ⟨⟨hk, hsome⟩, hne, hnew⟩)
                    · refine ⟨⟨.inl rfl, ?_⟩, hseen⟩
                      rw [← hname]
                      rfl
                    · exact ⟨⟨.inr hk, hsome⟩, hnew⟩
                  · rintro ⟨⟨hk, hsome⟩, hnew⟩
                    by_cases heq : k = key a
                    · exact .inl heq
                    · exact .inr ⟨⟨hk.resolve_left heq, hsome⟩, heq, hnew⟩

/-- The names of one kind are distinct exactly when no two keys have one of them. -/
theorem nodup_collect_iff (hnames : Names key make name norm) (q : γ → Bool) {bs : List β}
    (h : collect early key make [] as = .ok bs) :
    ((bs.map name).filter q).Nodup ↔ ∀ a ∈ as, ∀ a' ∈ as, ∀ n, q n = true →
      norm (key a) = some n → norm (key a') = some n → key a = key a' := by
  obtain ⟨ks, hnodup, hnorm, hmem⟩ := keys_of_collect hnames h
  have hsome : ((bs.map name).filter q).map some =
      (ks.filter fun k => (norm k).any q).map norm := by
    have hfilter : (bs.map (some ∘ name)).filter (fun n => n.any q) =
        ((bs.map name).filter q).map some := by
      rw [← List.map_map, List.filter_map]
      rfl
    rw [← hfilter, ← hnorm, List.filter_map]
    rfl
  have hkeys : ∀ k, k ∈ ks.filter (fun k => (norm k).any q) ↔
      k ∈ as.map key ∧ ∃ n, q n = true ∧ norm k = some n := by
    intro k
    rw [List.mem_filter, hmem]
    constructor
    · rintro ⟨⟨⟨hk, -⟩, -⟩, hany⟩
      cases hn : norm k with
      | none =>
          rw [hn] at hany
          cases hany
      | some n =>
          rw [hn] at hany
          exact ⟨hk, n, hany, rfl⟩
    · rintro ⟨hk, n, hq, hn⟩
      rw [hn]
      exact ⟨⟨⟨hk, rfl⟩, List.not_mem_nil⟩, hq⟩
  rw [← List.nodup_map_iff (Option.some_injective γ), hsome,
    List.nodup_map_iff_inj_on (hnodup.filter _)]
  constructor
  · intro hinj a ha a' ha' n hq hn hn'
    exact hinj _ ((hkeys _).mpr ⟨List.mem_map_of_mem ha, n, hq, hn⟩) _
      ((hkeys _).mpr ⟨List.mem_map_of_mem ha', n, hq, hn'⟩) (hn.trans hn'.symm)
  · intro hinj k hk k' hk' heq
    obtain ⟨hmemk, n, hq, hn⟩ := (hkeys k).mp hk
    obtain ⟨hmemk', -⟩ := (hkeys k').mp hk'
    obtain ⟨a, ha, rfl⟩ := List.mem_map.mp hmemk
    obtain ⟨a', ha', rfl⟩ := List.mem_map.mp hmemk'
    exact hinj a ha a' ha' n hq hn (heq.symm.trans hn)

/-- The names that are collected. -/
theorem mem_names_iff (hnames : Names key make name norm) {bs : List β}
    (h : collect early key make [] as = .ok bs) {n : γ} :
    n ∈ bs.map name ↔ ∃ a ∈ as, norm (key a) = some n := by
  obtain ⟨ks, -, hnorm, hmem⟩ := keys_of_collect hnames h
  have hsome : n ∈ bs.map name ↔ some n ∈ ks.map norm := by
    rw [hnorm, ← List.map_map, List.mem_map_of_injective (Option.some_injective γ)]
  rw [hsome, List.mem_map]
  constructor
  · rintro ⟨k, hk, hn⟩
    obtain ⟨a, ha, rfl⟩ := List.mem_map.mp ((hmem k).mp hk).1.1
    exact ⟨a, ha, hn⟩
  · rintro ⟨a, ha, hn⟩
    refine ⟨key a, (hmem _).mpr ⟨⟨List.mem_map_of_mem ha, ?_⟩, List.not_mem_nil⟩, hn⟩
    rw [hn]
    rfl

/-- An item that cannot be made anything of does no harm where its key was seen before. -/
def IsCovered (early : Bool) (key : α → κ) (norm : κ → Option γ) (seen : List κ) (before : List α)
    (a : α) : Prop :=
  key a ∈ seen ∨ ∃ b ∈ before, key b = key a ∧ (early = true ∨ (norm (key a)).isSome = true)

omit [DecidableEq κ] in
theorem isCovered_cons_iff {seen' : List κ} {a b : α} {before : List α}
    (h : ∀ k, k ∈ seen' ↔ k ∈ seen ∨ k = key a ∧ (early = true ∨ (norm k).isSome = true)) :
    IsCovered early key norm seen' before b ↔ IsCovered early key norm seen (a :: before) b := by
  unfold IsCovered
  rw [h]
  constructor
  · rintro ((hold | ⟨heq, hmarks⟩) | ⟨c, hc, hkey, hmarks⟩)
    · exact .inl hold
    · exact .inr ⟨a, List.mem_cons_self, heq.symm, hmarks⟩
    · exact .inr ⟨c, List.mem_cons_of_mem a hc, hkey, hmarks⟩
  · rintro (hold | ⟨c, hc, hkey, hmarks⟩)
    · exact .inl (.inl hold)
    · obtain rfl | hc := List.mem_cons.mp hc
      · exact .inl (.inr ⟨hkey.symm, hmarks⟩)
      · exact .inr ⟨c, hc, hkey, hmarks⟩

theorem forall_split_cons {P : List α → α → Prop} {a : α} :
    (∀ before b after, a :: as = before ++ b :: after → P before b) ↔
      P [] a ∧ ∀ before b after, as = before ++ b :: after → P (a :: before) b := by
  constructor
  · intro h
    exact ⟨h [] a as rfl, fun before b after hsplit => h (a :: before) b after
      (congrArg (a :: ·) hsplit)⟩
  · rintro ⟨hfirst, hrest⟩ before b after hsplit
    cases before with
    | nil =>
        obtain ⟨rfl, -⟩ := List.cons.inj hsplit
        exact hfirst
    | cons c before =>
        obtain ⟨rfl, htail⟩ := List.cons.inj hsplit
        exact hrest before b after htail

/-- The loop ends when every item that raises is covered. -/
theorem collect_eq_ok_iff (hnames : Names key make name norm) :
    (∃ bs, collect early key make seen as = .ok bs) ↔
      ∀ before a after, as = before ++ a :: after → (∃ m, make a = .ok m) ∨
        IsCovered early key norm seen before a := by
  induction as generalizing seen with
  | nil =>
      constructor
      · intro _ before a after hsplit
        cases before <;> cases hsplit
      · intro _
        exact ⟨[], rfl⟩
  | cons a as ih =>
      have hnone : ¬ IsCovered early key norm seen [] a ∨ key a ∈ seen := by
        by_cases hseen : key a ∈ seen
        · exact .inr hseen
        · refine .inl ?_
          rintro (hold | ⟨b, hb, -⟩)
          · exact hseen hold
          · cases hb
      -- What is left to do behind an item that does not raise.
      have hstep : ∀ seen', (∀ k, k ∈ seen' ↔ k ∈ seen ∨ k = key a ∧
            (early = true ∨ (norm k).isSome = true)) →
          ((∃ m, make a = .ok m) ∨ key a ∈ seen) →
          ((∃ bs, collect early key make seen (a :: as) = .ok bs) ↔
            ∃ bs, collect early key make seen' as = .ok bs) →
          ((∃ bs, collect early key make seen (a :: as) = .ok bs) ↔
            ∀ before b after, a :: as = before ++ b :: after → (∃ m, make b = .ok m) ∨
              IsCovered early key norm seen before b) := by
        intro seen' hseen' hfirst hcollect
        rw [hcollect, ih, forall_split_cons]
        constructor
        · intro h
          refine ⟨hfirst.imp_right fun hold => .inl hold, fun before b after hsplit => ?_⟩
          exact (h before b after hsplit).imp_right (isCovered_cons_iff hseen').mp
        · rintro ⟨-, h⟩ before b after hsplit
          exact (h before b after hsplit).imp_right (isCovered_cons_iff hseen').mpr
      by_cases hseen : key a ∈ seen
      · refine hstep seen (fun k => ⟨.inl, ?_⟩) (.inr hseen) (by rw [collect_seen hseen])
        rintro (hold | ⟨rfl, -⟩)
        · exact hold
        · exact hseen
      · cases hmake : make a with
        | error e =>
            rw [collect_error hseen hmake]
            constructor
            · rintro ⟨bs, hbs⟩
              cases hbs
            · intro h
              obtain ⟨m, hm⟩ | hcovered := h [] a as rfl
              · rw [hmake] at hm
                cases hm
              · exact absurd hcovered (hnone.resolve_right hseen)
        | ok made =>
            have hname := hnames a made hmake
            cases made with
            | none =>
                refine hstep (if early then key a :: seen else seen) (fun k => ?_) (.inl ⟨_, hmake⟩)
                  (by rw [collect_none hseen hmake])
                cases early with
                | true =>
                    rw [if_pos rfl, List.mem_cons, or_comm]
                    simp
                | false =>
                    rw [if_neg Bool.false_ne_true]
                    constructor
                    · exact .inl
                    · rintro (hold | ⟨rfl, hearly | hsome⟩)
                      · exact hold
                      · cases hearly
                      · rw [← hname] at hsome
                        cases hsome
            | some b =>
                refine hstep (key a :: seen) (fun k => ?_) (.inl ⟨_, hmake⟩) ?_
                · rw [List.mem_cons, or_comm]
                  constructor
                  · rintro (hold | rfl)
                    · exact .inl hold
                    · refine .inr ⟨rfl, .inr ?_⟩
                      rw [← hname]
                      rfl
                  · rintro (hold | ⟨rfl, -⟩)
                    · exact .inl hold
                    · exact .inr rfl
                · rw [collect_some hseen hmake]
                  constructor
                  · rintro ⟨bs, hbs⟩
                    obtain ⟨rest, hrest, -⟩ := map_eq_ok_iff.mp hbs
                    exact ⟨rest, hrest⟩
                  · rintro ⟨rest, hrest⟩
                    exact ⟨b :: rest, map_eq_ok_iff.mpr ⟨rest, hrest, rfl⟩⟩

/-- Where the key decides whether an item raises, no item may. -/
theorem collect_eq_ok_iff_forall (hnames : Names key make name norm)
    (hkey : ∀ a a', key a = key a' → (∃ m, make a = .ok m) → ∃ m, make a' = .ok m) :
    (∃ bs, collect early key make [] as = .ok bs) ↔ ∀ a ∈ as, ∃ m, make a = .ok m := by
  rw [collect_eq_ok_iff hnames]
  constructor
  · intro h a ha
    obtain ⟨before, after, hsplit, hfirst⟩ :=
      List.eq_append_cons_of_mem (List.mem_map_of_mem (f := key) ha)
    obtain ⟨before, rest, rfl, rfl, hrest⟩ := List.map_eq_append_iff.mp hsplit
    obtain ⟨b, after, rfl, hb, -⟩ := List.map_eq_cons_iff.mp hrest
    obtain hmade | hold | ⟨c, hc, hsame, -⟩ := h before b after rfl
    · exact hkey b a hb hmade
    · cases hold
    · exact absurd (List.mem_map_of_mem hc) (by rwa [← hb, ← hsame] at hfirst)
  · rintro h before a after rfl
    exact .inl (h a (List.mem_append_right _ List.mem_cons_self))

/-- Whatever the loop raises was raised for an item. -/
theorem collect_raises {P : ε → Prop} (h : ∀ a ∈ as, Raises P (make a)) :
    Raises P (collect early key make seen as) := by
  induction as generalizing seen with
  | nil => exact raises_ok
  | cons a as ih =>
      have hrest : ∀ seen', Raises P (collect early key make seen' as) :=
        fun seen' => ih fun b hb => h b (List.mem_cons_of_mem a hb)
      rw [collect]
      split
      · exact hrest seen
      · refine (h a List.mem_cons_self).bind fun made _ => ?_
        split
        · exact (hrest _).bind fun _ _ => raises_ok
        · exact hrest _

end Rules

end CryptoAlert.Collecting
