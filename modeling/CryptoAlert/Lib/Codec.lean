import Mathlib.Algebra.Order.Field.Rat
import Mathlib.Data.List.Basic

/-!
# JSON values and codecs

A codec dumps a value to JSON and reads it back, with the round trip as part of its data.
Record codecs are assembled field by field; an object with an unknown key is refused. Reading
is modelled on the canonical forms that dumping produces.
-/

namespace CryptoAlert

inductive Json where
  | null
  | bool (b : Bool)
  | num (q : ℚ)
  | str (s : String)
  | arr (items : List Json)
  | obj (fields : List (String × Json))

structure Codec (α : Type) where
  dump : α → Json
  read : Json → Option α
  read_dump : ∀ a, read (dump a) = some a

namespace Codec

variable {α β : Type}

/-- Reads further into a type whose values all have a form in the old one. -/
def refine (c : Codec α) (f : α → Option β) (g : β → α) (hfg : ∀ b, f (g b) = some b) :
    Codec β where
  dump b := c.dump (g b)
  read j := (c.read j).bind f
  read_dump b := by simp [c.read_dump, hfg]

def subtype (c : Codec α) (p : α → Prop) [DecidablePred p] : Codec {a // p a} :=
  c.refine (fun a => if h : p a then some ⟨a, h⟩ else none) Subtype.val
    (fun b => by simp [b.property])

def bool : Codec Bool where
  dump := .bool
  read j := match j with
    | .bool b => some b
    | _ => none
  read_dump _ := rfl

def text : Codec String where
  dump := .str
  read j := match j with
    | .str s => some s
    | _ => none
  read_dump _ := rfl

/-- A field whose only value is `false`. -/
def never : Codec Unit where
  dump _ := .bool false
  read j := match j with
    | .bool false => some ()
    | _ => none
  read_dump _ := rfl

/-- A field whose only value is the given text. -/
def literal (value : String) : Codec Unit :=
  text.refine (fun s => if s = value then some () else none) (fun _ => value) (fun _ => by simp)

def number : Codec ℚ where
  dump := .num
  read j := match j with
    | .num q => some q
    | _ => none
  read_dump _ := rfl

/-- An integer; a number with a fraction is refused. -/
def integer : Codec ℤ :=
  number.refine (fun q => if q.den = 1 then some q.num else none) (fun n => (n : ℚ))
    (fun n => by simp)

theorem dump_integer_ne_null (n : ℤ) : integer.dump n ≠ .null := nofun

def natural : Codec ℕ :=
  integer.refine (fun n => if 0 ≤ n then some n.toNat else none) (fun n => (n : ℤ))
    (fun n => by simp)

/-- A member of an enumeration, written as its name. -/
def enum (all : List α) (name : α → String) (hall : ∀ a, all.find? (name · == name a) = some a) :
    Codec α :=
  text.refine (fun s => all.find? (name · == s)) name hall

def nullable (c : Codec α) (hnull : ∀ a, c.dump a ≠ .null) : Codec (Option α) where
  dump a := match a with
    | none => .null
    | some a => c.dump a
  read j := match j with
    | .null => some none
    | j => (c.read j).map some
  read_dump a := by
    cases a with
    | none => rfl
    | some a =>
        have hread := c.read_dump a
        cases hd : c.dump a with
        | null => exact absurd hd (hnull a)
        | _ => simpa [hd] using hread

def readAll (c : Codec α) : List Json → Option (List α)
  | [] => some []
  | j :: js => do
      let a ← c.read j
      let as ← readAll c js
      return a :: as

theorem readAll_map_dump (c : Codec α) (as : List α) :
    c.readAll (as.map c.dump) = some as := by
  induction as with
  | nil => rfl
  | cons a as ih => simp [readAll, c.read_dump, ih]

def list (c : Codec α) : Codec (List α) where
  dump as := .arr (as.map c.dump)
  read j := match j with
    | .arr items => c.readAll items
    | _ => none
  read_dump as := c.readAll_map_dump as

end Codec

/-- The fields of an object, read from any object that holds them. -/
structure Record (α : Type) where
  names : List String
  dump : α → List (String × Json)
  read : List (String × Json) → Option α
  dump_names : ∀ a, (dump a).map Prod.fst = names
  read_dump : ∀ a o, (∀ k v, (k, v) ∈ dump a → o.lookup k = some v) → read o = some a

namespace Record

variable {α β : Type}

def field (name : String) (c : Codec α) : Record α where
  names := [name]
  dump a := [(name, c.dump a)]
  read o := (o.lookup name).bind c.read
  dump_names _ := rfl
  read_dump a o ho := by
    rw [ho name (c.dump a) (List.mem_singleton_self _), Option.bind_some, c.read_dump]

def and (r : Record α) (s : Record β) : Record (α × β) where
  names := r.names ++ s.names
  dump p := r.dump p.1 ++ s.dump p.2
  read o := do
    let a ← r.read o
    let b ← s.read o
    return (a, b)
  dump_names p := by rw [List.map_append, r.dump_names, s.dump_names]
  read_dump p o ho := by
    have hr := r.read_dump p.1 o fun k v h => ho k v (List.mem_append_left _ h)
    have hs := s.read_dump p.2 o fun k v h => ho k v (List.mem_append_right _ h)
    simp [hr, hs]

def iso (r : Record α) (f : β → α) (g : α → β) (hgf : ∀ b, g (f b) = b) : Record β where
  names := r.names
  dump b := r.dump (f b)
  read o := (r.read o).map g
  dump_names b := r.dump_names (f b)
  read_dump b o ho := by rw [r.read_dump (f b) o ho, Option.map_some, hgf]

theorem lookup_of_nodup {fields : List (String × Json)} (hn : (fields.map Prod.fst).Nodup)
    {k : String} {v : Json} (hm : (k, v) ∈ fields) : fields.lookup k = some v := by
  induction fields with
  | nil => simp at hm
  | cons kv fields ih =>
      rw [List.map_cons, List.nodup_cons] at hn
      rcases List.mem_cons.mp hm with rfl | hm
      · simp
      · have hne : k ≠ kv.1 := by
          intro h
          exact hn.1 (h ▸ List.mem_map_of_mem (f := Prod.fst) hm)
        rw [List.lookup_cons, beq_false_of_ne hne]
        exact ih hn.2 hm

/-- The codec of objects that have these fields and no others. -/
def codec (r : Record α) (hn : r.names.Nodup) : Codec α where
  dump a := .obj (r.dump a)
  read j := match j with
    | .obj o => if o.all (fun kv => r.names.contains kv.1) then r.read o else none
    | _ => none
  read_dump a := by
    have hall : ((r.dump a).all fun kv => r.names.contains kv.1) = true := by
      rw [List.all_eq_true]
      intro kv hkv
      rw [← r.dump_names a]
      simpa using ⟨kv.2, hkv⟩
    simp only [hall, if_true]
    apply r.read_dump
    intro k v hm
    exact lookup_of_nodup (by rw [r.dump_names]; exact hn) hm

end Record

end CryptoAlert
