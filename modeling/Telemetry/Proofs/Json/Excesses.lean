import Telemetry.Proofs.Json.RoundTrip

/-!
Documents with too much of something. A reader stops at an integer or at a level of nesting only where
its text has so many digits in a row, or opens so many lists and objects, since every step of it leaves
the end of the text that it was given.
-/

namespace Telemetry.Json

open Text (Letter Letters isAsciiDigit)

variable {α β : Type} {cs more rest : List Char} {n room : Nat} {halves : Halves}

/-- A text with a row of so many digits, more than are converted to an integer. -/
structure Overlong (n : Nat) (cs : List Char) : Prop where
  long : integerDigitLimit < n
  row : ∃ row, row <:+: cs ∧ row.length = n ∧ ∀ c ∈ row, isAsciiDigit c = true

theorem Overlong.mono (overlong : Overlong n more) (part : more <:+ cs) : Overlong n cs := by
  obtain ⟨long, row, inside, length, ascii⟩ := overlong
  exact ⟨long, row, inside.trans part.isInfix, length, ascii⟩

/-- Whether a character opens a list or an object where it is none of a text. -/
def isOpening (c : Char) : Bool :=
  c = '[' || c = '\x7b'

/-- There is an excess only where a text has too much of something: digits in a row, or characters
that open more lists and objects than there is room for. -/
def Excess.Found (room : Nat) (cs : List Char) : Excess → Prop
  | .longInteger n => Overlong n cs
  | .nesting _ => room < cs.countP isOpening

def Stop.Within (room : Nat) (cs : List Char) : Stop → Prop
  | .excess what => what.Found room cs
  | .flaw _ _ => True

/-- A step leaves an end of its text, or stops within it. -/
def Step.Within (room : Nat) (cs : List Char) : Step α → Prop
  | .ok (_, rest) => rest <:+ cs
  | .error stop => stop.Within room cs

theorem Stop.Within.mono {stop : Stop} (within : stop.Within room more) (part : more <:+ cs) :
    stop.Within room cs := by
  cases stop with
  | flaw what left => trivial
  | excess what =>
    cases what with
    | longInteger n => exact Overlong.mono within part
    | nesting object => exact Nat.lt_of_lt_of_le within part.sublist.countP_le

/-- What is opened once counts once. -/
theorem Stop.Within.nested {stop : Stop} {c : Char} (opening : isOpening c = true)
    (within : stop.Within room cs) : stop.Within (room + 1) (c :: cs) := by
  cases stop with
  | flaw what left => trivial
  | excess what =>
    cases what with
    | longInteger n => exact Overlong.mono within (List.suffix_cons c cs)
    | nesting object =>
      show room + 1 < (c :: cs).countP isOpening
      rw [List.countP_cons_of_pos opening]
      exact Nat.succ_lt_succ within

theorem Step.Within.map {f : α → β} {step : Step α} (within : step.Within room cs) :
    (step.map f).Within room cs := by
  cases step <;> exact within

theorem Step.Within.mono {step : Step α} (within : step.Within room more) (part : more <:+ cs) :
    step.Within room cs := by
  cases step with
  | ok found => exact List.IsSuffix.trans within part
  | error stop => exact Stop.Within.mono within part

theorem Step.Within.nested {step : Step α} {c : Char} (opening : isOpening c = true)
    (within : step.Within room cs) : step.Within (room + 1) (c :: cs) := by
  cases step with
  | ok found => exact List.IsSuffix.trans within (List.suffix_cons c cs)
  | error stop => exact Stop.Within.nested opening within

theorem Step.Within.after {step : Step α} (count : Nat) (within : step.Within room more)
    (rest : cs.drop count = more) : step.Within room cs :=
  within.mono (rest ▸ List.drop_suffix count cs)

variable {letters : Letters} {excess : Excess}

end Telemetry.Json
