import Mathlib.Data.List.Forall2

/-!
# Readers that stop at the first refusal

A reader returns a value or raises. `Raises P` bounds what it may raise; a list that is read item
by item raises what the first item that is not read raises. `SameEnd R` compares two readers.
-/

namespace CryptoAlert.Refusals

variable {ε α β : Type} {P Q : ε → Prop} {x : Except ε α} {f : α → Except ε β} {e : ε}

/-- Whatever the reader raises has the property. -/
def Raises (P : ε → Prop) (x : Except ε α) : Prop := ∀ e, x = .error e → P e

theorem bind_eq_ok_iff {b : β} : (x >>= f) = .ok b ↔ ∃ a, x = .ok a ∧ f a = .ok b := by
  cases x with
  | error e =>
      constructor
      · intro h
        cases h
      · rintro ⟨a, h, -⟩
        cases h
  | ok a =>
      constructor
      · intro h
        exact ⟨a, rfl, h⟩
      · rintro ⟨a', h, hf⟩
        cases h
        exact hf

theorem bind_eq_error_iff :
    (x >>= f) = .error e ↔ x = .error e ∨ ∃ a, x = .ok a ∧ f a = .error e := by
  cases x with
  | error e' =>
      constructor
      · intro h
        cases h
        exact .inl rfl
      · rintro (h | ⟨a, h, -⟩)
        · cases h
          rfl
        · cases h
  | ok a =>
      constructor
      · intro h
        exact .inr ⟨a, rfl, h⟩
      · rintro (h | ⟨a', h, hf⟩)
        · cases h
        · cases h
          exact hf

theorem raises_ok {a : α} : Raises P (.ok a : Except ε α) := by
  intro e h
  cases h

theorem raises_pure {a : α} : Raises P (pure a : Except ε α) := raises_ok

theorem raises_error (h : P e) : Raises P (.error e : Except ε α) := by
  intro e' he
  cases he
  exact h

theorem Raises.bind (hx : Raises P x) (hf : ∀ a, x = .ok a → Raises P (f a)) :
    Raises P (x >>= f) := by
  intro e h
  obtain hfirst | ⟨a, ha, hsecond⟩ := bind_eq_error_iff.mp h
  · exact hx e hfirst
  · exact hf a ha e hsecond

theorem raises_bind_iff :
    Raises P (x >>= f) ↔ Raises P x ∧ ∀ a, x = .ok a → Raises P (f a) := by
  constructor
  · intro h
    exact ⟨fun e he => h e (bind_eq_error_iff.mpr (.inl he)),
      fun a ha e he => h e (bind_eq_error_iff.mpr (.inr ⟨a, ha, he⟩))⟩
  · rintro ⟨hx, hf⟩
    exact hx.bind hf

theorem Raises.mono (hx : Raises P x) (h : ∀ e, P e → Q e) : Raises Q x :=
  fun e he => h e (hx e he)

/-- A list is read when all its items are. -/
theorem mapM_eq_ok_iff {l : List α} {r : List β} :
    l.mapM f = .ok r ↔ List.Forall₂ (fun a b => f a = .ok b) l r := by
  induction l generalizing r with
  | nil =>
      constructor
      · intro h
        cases h
        exact .nil
      · intro h
        cases h
        rfl
  | cons a l ih =>
      rw [List.mapM_cons]
      constructor
      · intro h
        obtain ⟨b, hb, hrest⟩ := bind_eq_ok_iff.mp h
        obtain ⟨bs, hbs, hpure⟩ := bind_eq_ok_iff.mp hrest
        cases hpure
        exact .cons hb (ih.mp hbs)
      · intro h
        cases h with
        | cons hb hbs => exact bind_eq_ok_iff.mpr ⟨_, hb, bind_eq_ok_iff.mpr ⟨_, ih.mpr hbs, rfl⟩⟩

theorem exists_mapM_iff {l : List α} :
    (∃ r, l.mapM f = .ok r) ↔ ∀ a ∈ l, ∃ b, f a = .ok b := by
  constructor
  · rintro ⟨r, hr⟩ a ha
    have hall := mapM_eq_ok_iff.mp hr
    induction hall with
    | nil => cases ha
    | cons hb hrest ih =>
        obtain rfl | ha := List.mem_cons.mp ha
        · exact ⟨_, hb⟩
        · exact ih (mapM_eq_ok_iff.mpr hrest) ha
  · intro h
    induction l with
    | nil => exact ⟨[], rfl⟩
    | cons a l ih =>
        obtain ⟨b, hb⟩ := h a List.mem_cons_self
        obtain ⟨bs, hbs⟩ := ih fun c hc => h c (List.mem_cons_of_mem a hc)
        exact ⟨b :: bs, mapM_eq_ok_iff.mpr (.cons hb (mapM_eq_ok_iff.mp hbs))⟩

theorem mapM_eq_map {g : α → β} {l : List α} (h : ∀ a ∈ l, f a = .ok (g a)) :
    l.mapM f = .ok (l.map g) := by
  rw [mapM_eq_ok_iff, List.forall₂_map_right_iff, List.forall₂_same]
  exact h

/-- The item raises, and all in front of it are read. -/
def FailsAt (f : α → Except ε β) (e : ε) (before : List α) (a : α) : Prop :=
  (∀ b ∈ before, ∃ c, f b = .ok c) ∧ f a = .error e

theorem mapM_eq_error_iff {l : List α} :
    l.mapM f = .error e ↔ ∃ before a after, l = before ++ a :: after ∧ FailsAt f e before a := by
  induction l with
  | nil =>
      constructor
      · intro h
        cases h
      · rintro ⟨before, a, after, h, -⟩
        cases before <;> cases h
  | cons a l ih =>
      rw [List.mapM_cons, bind_eq_error_iff]
      constructor
      · rintro (h | ⟨b, hb, hrest⟩)
        · exact ⟨[], a, l, rfl, nofun, h⟩
        · obtain hrest | ⟨bs, -, hpure⟩ := bind_eq_error_iff.mp hrest
          · obtain ⟨before, c, after, rfl, hread, hfails⟩ := ih.mp hrest
            refine ⟨a :: before, c, after, rfl, fun d hd => ?_, hfails⟩
            obtain rfl | hd := List.mem_cons.mp hd
            · exact ⟨b, hb⟩
            · exact hread d hd
          · cases hpure
      · rintro ⟨before, c, after, hsplit, hread, hfails⟩
        cases before with
        | nil =>
            obtain ⟨rfl, rfl⟩ := List.cons.inj hsplit
            exact .inl hfails
        | cons d before =>
            obtain ⟨rfl, rfl⟩ := List.cons.inj hsplit
            obtain ⟨b, hb⟩ := hread a List.mem_cons_self
            refine .inr ⟨b, hb, bind_eq_error_iff.mpr (.inl (ih.mpr ⟨before, c, after, rfl, ?_⟩))⟩
            exact ⟨fun e he => hread e (List.mem_cons_of_mem a he), hfails⟩

theorem Raises.mapM {l : List α} (h : ∀ a ∈ l, Raises P (f a)) : Raises P (l.mapM f) := by
  intro e he
  obtain ⟨before, a, after, rfl, -, hfails⟩ := mapM_eq_error_iff.mp he
  exact h a (List.mem_append_right _ List.mem_cons_self) e hfails

/-- Whatever the reader returns has the property. -/
def Returns (q : α → Prop) (x : Except ε α) : Prop := ∀ a, x = .ok a → q a

section Returns

variable {q : α → Prop} {r : β → Prop}

theorem returns_ok {a : α} (h : q a) : Returns q (.ok a : Except ε α) := by
  intro b hb
  cases hb
  exact h

theorem returns_error : Returns q (.error e : Except ε α) := by
  intro b hb
  cases hb

theorem Returns.bind (hx : Returns q x) (hf : ∀ a, q a → Returns r (f a)) :
    Returns r (x >>= f) := by
  intro b hb
  obtain ⟨a, ha, hfirst⟩ := bind_eq_ok_iff.mp hb
  exact hf a (hx a ha) b hfirst

theorem returns_bind (hf : ∀ a, Returns r (f a)) : Returns r (x >>= f) := by
  intro b hb
  obtain ⟨a, -, hfirst⟩ := bind_eq_ok_iff.mp hb
  exact hf a b hfirst

theorem Returns.mapM {l : List α} (h : ∀ a ∈ l, Returns r (f a)) :
    Returns (fun bs => ∀ b ∈ bs, r b) (l.mapM f) := by
  intro bs hbs
  have hall := mapM_eq_ok_iff.mp hbs
  clear hbs
  induction hall with
  | nil => exact nofun
  | cons hb hrest ih =>
      intro c hc
      obtain rfl | hc := List.mem_cons.mp hc
      · exact h _ List.mem_cons_self c hb
      · exact ih (fun d hd => h d (List.mem_cons_of_mem _ hd)) c hc

end Returns

/-- Both readers raise the same error, or both return and their values are related. -/
inductive SameEnd {ε α β : Type} (R : α → β → Prop) : Except ε α → Except ε β → Prop where
  | returned {x : α} {y : β} (h : R x y) : SameEnd R (.ok x) (.ok y)
  | raised (e : ε) : SameEnd R (.error e) (.error e)

theorem SameEnd.bind {γ δ : Type} {R : α → β → Prop} {S : γ → δ → Prop} {x : Except ε α}
    {y : Except ε β} {f : α → Except ε γ} {g : β → Except ε δ} (h : SameEnd R x y)
    (hfg : ∀ a b, R a b → SameEnd S (f a) (g b)) : SameEnd S (x >>= f) (y >>= g) := by
  cases h with
  | returned hab => exact hfg _ _ hab
  | raised e => exact .raised e

theorem SameEnd.refl (x : Except ε α) : SameEnd (· = ·) x x := by
  cases x with
  | ok a => exact .returned rfl
  | error e => exact .raised e

end CryptoAlert.Refusals
