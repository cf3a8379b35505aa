import Telemetry.Text.Quoted

/-!
Letters: what a text is made of that need not be Unicode. Half of a surrogate pair that stands alone
is a letter but no character; where characters are asked for, the replacement character stands for it.
-/

namespace Telemetry.Text

inductive Letter where
  | char (c : Char)
  | half (unit : Nat)
  deriving DecidableEq

abbrev Letters := List Letter

namespace Letter

def ofCode (n : Nat) : Letter :=
  if n.isValidChar then .char (Char.ofNat n) else .half n

def shown : Letter → Char
  | .char c => c
  | .half _ => '\uFFFD'

def isHalf : Letter → Bool
  | .char _ => false
  | .half _ => true

theorem ofCode_toNat (c : Char) : ofCode c.toNat = .char c := by
  have valid : c.toNat.isValidChar := c.valid
  rw [ofCode, if_pos valid, Char.ofNat_toNat]

end Letter

namespace Letters

def ofString (s : String) : Letters :=
  s.toList.map .char

instance : Coe String Letters := ⟨ofString⟩

def shown (letters : Letters) : String :=
  String.ofList (letters.map Letter.shown)

/-- Whether half of a pair stands in a text, which then has no UTF-8 form. -/
def isTorn (letters : Letters) : Bool :=
  letters.any Letter.isHalf

@[simp] theorem map_shown_char (cs : List Char) : (cs.map Letter.char).map Letter.shown = cs := by
  rw [List.map_map]
  exact List.map_id cs

@[simp] theorem shown_ofString (s : String) : (ofString s).shown = s := by
  rw [shown, ofString, map_shown_char, String.ofList_toList]

@[simp] theorem isTorn_map_char (cs : List Char) : isTorn (cs.map Letter.char) = false := by
  simp [isTorn, Letter.isHalf]

/-- Why a text has no UTF-8 form: the first halves in it that stand side by side. -/
def tornMessage (letters : Letters) : String :=
  let first := letters.findIdx Letter.isHalf
  let halves := (letters.drop first).takeWhile Letter.isHalf
  let place :=
    match halves with
    | [.half unit] =>
      "character '\\u" ++ String.ofList (hexText 4 unit) ++ "' in position " ++ toString first
    | _ =>
      "characters in position " ++ toString first ++ "-" ++ toString (first + halves.length - 1)
  "'utf-8' codec can't encode " ++ place ++ ": surrogates not allowed"

end Letters

end Telemetry.Text
