import CryptoAlert.Lib.Decimal
import CryptoAlert.Lib.Text

/-!
# Domain values

The closed vocabularies of the analysis domain with their JSON names.
-/

namespace CryptoAlert

inductive Symbol where
  | btcUsdtSwap
  | ethUsdtSwap
  | solUsdtSwap
deriving DecidableEq, Repr

namespace Symbol

def name : Symbol → String
  | btcUsdtSwap => "BTC-USDT-SWAP"
  | ethUsdtSwap => "ETH-USDT-SWAP"
  | solUsdtSwap => "SOL-USDT-SWAP"

def all : List Symbol := [btcUsdtSwap, ethUsdtSwap, solUsdtSwap]

def codec : Codec Symbol := Codec.enum all name (by intro a; cases a <;> decide)

end Symbol

inductive Action where
  | openLong
  | openShort
  | holdLong
  | holdShort
  | closeLong
  | closeShort
  | flipLongToShort
  | flipShortToLong
  | triggerLong
  | triggerShort
  | noTrade
deriving DecidableEq, Repr

namespace Action

def name : Action → String
  | openLong => "open_long"
  | openShort => "open_short"
  | holdLong => "hold_long"
  | holdShort => "hold_short"
  | closeLong => "close_long"
  | closeShort => "close_short"
  | flipLongToShort => "flip_long_to_short"
  | flipShortToLong => "flip_short_to_long"
  | triggerLong => "trigger_long"
  | triggerShort => "trigger_short"
  | noTrade => "no_trade"

def all : List Action :=
  [openLong, openShort, holdLong, holdShort, closeLong, closeShort, flipLongToShort,
    flipShortToLong, triggerLong, triggerShort, noTrade]

def codec : Codec Action := Codec.enum all name (by intro a; cases a <;> decide)

theorem dump_ne_null (a : Action) : codec.dump a ≠ .null := nofun

/-- The actions that open a position (`OPENING_ACTIONS`). -/
def isOpening : Action → Bool
  | openLong | openShort | triggerLong | triggerShort | flipLongToShort | flipShortToLong => true
  | _ => false

end Action

inductive TaskType where
  | marketAnalysis
  | deepResearch
deriving DecidableEq, Repr

namespace TaskType

def name : TaskType → String
  | marketAnalysis => "market_analysis"
  | deepResearch => "deep_research"

def codec : Codec TaskType :=
  Codec.enum [marketAnalysis, deepResearch] name (by intro a; cases a <;> decide)

end TaskType

abbrev PositiveDecimal := {d : Decimal // 0 < d.value}

abbrev NonNegativeDecimal := {d : Decimal // 0 ≤ d.value}

def PositiveDecimal.codec : Codec PositiveDecimal := Decimal.codec.subtype _

theorem PositiveDecimal.dump_ne_null (d : PositiveDecimal) :
    PositiveDecimal.codec.dump d ≠ .null := nofun

def NonNegativeDecimal.codec : Codec NonNegativeDecimal := Decimal.codec.subtype _

/-- A text whose length, counted in characters, lies within the bounds. -/
abbrev BoundedText (min max : ℕ) := {s : String // min ≤ s.length ∧ s.length ≤ max}

namespace BoundedText

variable {min max : ℕ}

def of? (min max : ℕ) (s : String) : Option (BoundedText min max) :=
  if h : min ≤ s.length ∧ s.length ≤ max then some ⟨s, h⟩ else none

@[simp] theorem of?_val (t : BoundedText min max) : of? min max t.val = some t := by
  have hp := t.property
  unfold of?
  rw [dif_pos hp]

theorem of?_isSome (s : String) : (of? min max s).isSome ↔ min ≤ s.length ∧ s.length ≤ max := by
  unfold of?
  split_ifs with h
  · exact iff_of_true rfl h
  · exact iff_of_false (by simp) h

theorem of?_eq_some_iff {s : String} {t : BoundedText min max} :
    of? min max s = some t ↔ t.val = s := by
  constructor
  · intro h
    unfold of? at h
    split_ifs at h
    cases h
    rfl
  · rintro rfl
    exact of?_val t

def codec (min max : ℕ) : Codec (BoundedText min max) := Codec.text.subtype _

end BoundedText

/-- Removes surrounding white space, as validators with `str_strip_whitespace` do. -/
def strip (s : String) : String := String.ofList (Text.trim s.toList)

@[simp] theorem strip_strip (s : String) : strip (strip s) = strip s := by
  simp only [strip, String.toList_ofList, Text.trim_trim]

/-- A bounded text without surrounding white space. -/
abbrev StrippedText (min max : ℕ) := {s : BoundedText min max // strip s.val = s.val}

namespace StrippedText

variable {min max : ℕ}

def text (t : StrippedText min max) : String := t.val.val

def of? (min max : ℕ) (s : String) : Option (StrippedText min max) :=
  if h : min ≤ (strip s).length ∧ (strip s).length ≤ max then
    some ⟨⟨strip s, h⟩, strip_strip s⟩
  else none

@[simp] theorem of?_text (t : StrippedText min max) : of? min max t.text = some t := by
  have hs : strip t.text = t.text := t.property
  have hb : min ≤ t.text.length ∧ t.text.length ≤ max := t.val.property
  unfold of?
  rw [dif_pos (by rw [hs]; exact hb)]
  exact congrArg some (Subtype.ext (Subtype.ext hs))

def codec (min max : ℕ) : Codec (StrippedText min max) :=
  Codec.text.refine (of? min max) text of?_text

end StrippedText

/-- A finite number between zero and one. -/
abbrev UnitInterval := {q : ℚ // 0 ≤ q ∧ q ≤ 1}

def UnitInterval.codec : Codec UnitInterval := Codec.number.subtype _

end CryptoAlert
