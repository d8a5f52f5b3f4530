import CryptoAlert.Lib.Codec

/-!
# Partial records

A patch gives some of the fields of a record, and a field that it gives may be null. There are two
ways to dump a patch: with the fields that it gives, or with the values that are not null. The
first is read back as it was; the second forgets the nulls.
-/

namespace CryptoAlert

structure Patch (α : Type) where
  names : List String
  /-- The fields that are given. -/
  dump : α → List (String × Json)
  /-- The fields whose value is not null. -/
  values : α → List (String × Json)
  /-- The patch without its nulls. -/
  prune : α → α
  read : List (String × Json) → Option α
  dump_names : ∀ a, ∀ kv ∈ dump a, kv.1 ∈ names
  values_eq : ∀ a, values a = dump (prune a)
  prune_prune : ∀ a, prune (prune a) = prune a
  prune_eq_iff : ∀ a, prune a = a ↔ ∀ kv ∈ dump a, kv.2 ≠ .null
  read_dump : ∀ a o, (∀ k ∈ names, o.lookup k = (dump a).lookup k) → read o = some a

theorem lookup_append_left {k : String} {l l' : List (String × Json)} (h : k ∉ l'.map Prod.fst) :
    (l ++ l').lookup k = l.lookup k := by
  induction l with
  | nil =>
      rw [List.nil_append, List.lookup_nil, List.lookup_eq_none_iff]
      intro kv hkv
      rw [bne_iff_ne]
      exact fun heq => h (heq ▸ List.mem_map_of_mem hkv)
  | cons kv l ih =>
      rw [List.cons_append, List.lookup_cons, List.lookup_cons, ih]

theorem lookup_append_right {k : String} {l l' : List (String × Json)} (h : k ∉ l.map Prod.fst) :
    (l ++ l').lookup k = l'.lookup k := by
  induction l with
  | nil => rfl
  | cons kv l ih =>
      rw [List.map_cons, List.mem_cons, not_or] at h
      rw [List.cons_append, List.lookup_cons, beq_false_of_ne h.1]
      exact ih h.2

namespace Patch

variable {α β : Type}

/-- A field that is not there, is null or has a value. -/
def readValue (c : Codec α) : Option Json → Option (Option (Option α))
  | none => some none
  | some .null => some (some none)
  | some j => (c.read j).map fun a => some (some a)

theorem readValue_dump {c : Codec α} {a : α} (hnull : c.dump a ≠ .null) :
    readValue c (some (c.dump a)) = some (some (some a)) := by
  have hread := c.read_dump a
  cases hdump : c.dump a with
  | null => exact absurd hdump hnull
  | _ =>
      rw [hdump] at hread
      simp [readValue, hread]

/-- A field of its own; a value is never written as null. -/
def field (name : String) (c : Codec α) (hnull : ∀ a, c.dump a ≠ .null) :
    Patch (Option (Option α)) where
  names := [name]
  dump e := match e with
    | none => []
    | some none => [(name, .null)]
    | some (some a) => [(name, c.dump a)]
  values e := match e with
    | some (some a) => [(name, c.dump a)]
    | _ => []
  prune e := match e with
    | some none => none
    | e => e
  read o := readValue c (o.lookup name)
  dump_names e kv h := by
    match e with
    | none => cases h
    | some none =>
        rw [List.mem_singleton] at h
        rw [h]
        exact List.mem_singleton_self name
    | some (some a) =>
        rw [List.mem_singleton] at h
        rw [h]
        exact List.mem_singleton_self name
  values_eq e := by
    match e with
    | none => rfl
    | some none => rfl
    | some (some a) => rfl
  prune_prune e := by
    match e with
    | none => rfl
    | some none => rfl
    | some (some a) => rfl
  prune_eq_iff e := by
    match e with
    | none => exact iff_of_true rfl fun _ h => by cases h
    | some none =>
        refine iff_of_false (fun h => by cases h) ?_
        intro h
        exact h _ (List.mem_singleton_self _) rfl
    | some (some a) =>
        refine iff_of_true rfl ?_
        intro kv h
        rw [List.mem_singleton] at h
        rw [h]
        exact hnull a
  read_dump e o h := by
    have hlookup := h name (List.mem_singleton_self name)
    match e with
    | none =>
        rw [hlookup]
        rfl
    | some none =>
        rw [hlookup, List.lookup_cons_self]
        rfl
    | some (some a) =>
        rw [hlookup, List.lookup_cons_self]
        exact readValue_dump (hnull a)

/-- Two patches of different fields. -/
def and (r : Patch α) (s : Patch β) (h : ∀ k ∈ r.names, k ∉ s.names) :
    Patch (α × β) where
  names := r.names ++ s.names
  dump p := r.dump p.1 ++ s.dump p.2
  values p := r.values p.1 ++ s.values p.2
  prune p := (r.prune p.1, s.prune p.2)
  read o := do
    let a ← r.read o
    let b ← s.read o
    return (a, b)
  dump_names p kv hkv := by
    obtain hkv | hkv := List.mem_append.mp hkv
    · exact List.mem_append_left _ (r.dump_names p.1 kv hkv)
    · exact List.mem_append_right _ (s.dump_names p.2 kv hkv)
  values_eq p := by rw [r.values_eq, s.values_eq]
  prune_prune p := by rw [r.prune_prune, s.prune_prune]
  prune_eq_iff p := by
    rw [List.forall_mem_append, ← r.prune_eq_iff, ← s.prune_eq_iff]
    exact Prod.ext_iff
  read_dump p o ho := by
    have hr : r.read o = some p.1 := by
      apply r.read_dump
      intro k hk
      rw [ho k (List.mem_append_left _ hk), lookup_append_left]
      intro hmem
      obtain ⟨kv, hkv, rfl⟩ := List.mem_map.mp hmem
      exact h _ hk (s.dump_names p.2 kv hkv)
    have hs : s.read o = some p.2 := by
      apply s.read_dump
      intro k hk
      rw [ho k (List.mem_append_right _ hk), lookup_append_right]
      intro hmem
      obtain ⟨kv, hkv, rfl⟩ := List.mem_map.mp hmem
      exact h _ (r.dump_names p.1 kv hkv) hk
    rw [hr, hs]
    rfl

def iso (r : Patch α) (f : β → α) (g : α → β) (hgf : ∀ b, g (f b) = b) (hfg : ∀ a, f (g a) = a) :
    Patch β where
  names := r.names
  dump b := r.dump (f b)
  values b := r.values (f b)
  prune b := g (r.prune (f b))
  read o := (r.read o).map g
  dump_names b := r.dump_names (f b)
  values_eq b := by rw [r.values_eq, hfg]
  prune_prune b := by rw [hfg, r.prune_prune]
  prune_eq_iff b := by
    rw [← r.prune_eq_iff]
    constructor
    · intro h
      rw [← hfg (r.prune (f b)), h]
    · intro h
      rw [h, hgf]
  read_dump b o ho := by rw [r.read_dump (f b) o ho, Option.map_some, hgf]

/-- No field that is given is null. -/
def NullFree (r : Patch α) (a : α) : Prop :=
  ∀ kv ∈ r.dump a, kv.2 ≠ .null

theorem nullFree_prune (r : Patch α) (a : α) : r.NullFree (r.prune a) :=
  (r.prune_eq_iff _).mp (r.prune_prune a)

/-- The codec of objects that give some of these fields and no others. -/
def codec (r : Patch α) : Codec α where
  dump a := .obj (r.dump a)
  read j := match j with
    | .obj o => if o.all (fun kv => r.names.contains kv.1) then r.read o else none
    | _ => none
  read_dump a := by
    have hall : ((r.dump a).all fun kv => r.names.contains kv.1) = true := by
      rw [List.all_eq_true]
      intro kv hkv
      rw [List.contains_iff_mem]
      exact r.dump_names a kv hkv
    simp only [hall, if_true]
    exact r.read_dump a _ fun _ _ => rfl

end Patch

end CryptoAlert
