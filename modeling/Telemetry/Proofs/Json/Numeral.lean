import Telemetry.Json.Reader
import Telemetry.Json.Writer
import Telemetry.Proofs.Decimal.Shortest
import Telemetry.Proofs.Text.Digits

/-!
Numbers of documents, written and read. A numeral is read part by part as it is written, and the
numeral that a number is written with stands for that number.
-/

namespace Telemetry.Json

open Decimal (natText intText padded)
open Text (isAsciiDigit)

variable {cs rest digits : List Char} {n : Numeral}

/-! ### The parts of a numeral -/

def signPart : List Char → Bool × List Char
  | '-' :: rest => (true, rest)
  | rest => (false, rest)

def wholePart : List Char → List Char × List Char
  | '0' :: rest => (['0'], rest)
  | rest => spanDigits rest

theorem readNumeral?_eq : readNumeral? cs =
    if (wholePart (signPart cs).2).1.isEmpty then none
    else
      let fraction := readFraction (wholePart (signPart cs).2).2
      let exponent := readExponent fraction.2
      some (⟨(signPart cs).1, (wholePart (signPart cs).2).1, fraction.1, exponent.1⟩, exponent.2) :=
  rfl

theorem ascii_spanDigits {c : Char} (member : c ∈ (spanDigits cs).1) : isAsciiDigit c = true :=
  List.all_eq_true.mp List.all_takeWhile c member

theorem ascii_wholePart {c : Char} (member : c ∈ (wholePart cs).1) : isAsciiDigit c = true := by
  unfold wholePart at member
  split at member
  · obtain rfl := List.mem_singleton.mp member
    rfl
  · exact ascii_spanDigits member

theorem whole_of_readNumeral? (read : readNumeral? cs = some (n, rest)) :
    n.whole ≠ [] ∧ ∀ c ∈ n.whole, isAsciiDigit c = true := by
  rw [readNumeral?_eq] at read
  split at read
  · cases read
  · rename_i nonempty
    cases read
    exact ⟨fun empty => nonempty (List.isEmpty_iff.mpr empty), fun c => ascii_wholePart⟩

/-! ### What stands after a value -/

/-- The end of a text, or what may follow a value in a list or an object. -/
def Closed (rest : List Char) : Prop :=
  ∀ c more, rest = c :: more → c = ',' ∨ c = ']' ∨ c = '\x7d'

theorem closed_nil : Closed [] := by
  intro c more same
  cases same

theorem closed_cons {c : Char} {more : List Char} (closes : c = ',' ∨ c = ']' ∨ c = '\x7d') :
    Closed (c :: more) := by
  intro d others same
  cases same
  exact closes

def NoDigit (rest : List Char) : Prop :=
  ∀ c more, rest = c :: more → isAsciiDigit c = false

theorem Closed.noDigit (closed : Closed rest) : NoDigit rest := by
  intro c more same
  rcases closed c more same with rfl | rfl | rfl <;> decide

theorem noDigit_cons {c : Char} {more : List Char} (other : isAsciiDigit c = false) :
    NoDigit (c :: more) := by
  intro d others same
  cases same
  exact other

theorem spanDigits_append (ascii : ∀ c ∈ digits, isAsciiDigit c = true) (ends : NoDigit rest) :
    spanDigits (digits ++ rest) = (digits, rest) := by
  have taken : rest.takeWhile isAsciiDigit = [] ∧ rest.dropWhile isAsciiDigit = rest := by
    cases rest with
    | nil => exact ⟨rfl, rfl⟩
    | cons c more => simp [ends c more rfl]
  rw [spanDigits, List.takeWhile_append_of_pos ascii, List.dropWhile_append_of_pos ascii, taken.1,
    taken.2, List.append_nil]

/-! ### Numerals as they are written -/

def Significant (digits : List Char) : Prop :=
  ∃ c more, digits = c :: more ∧ c ≠ '0' ∧ ∀ d ∈ digits, isAsciiDigit d = true

/-- A whole part without needless zeros. -/
def Plain (digits : List Char) : Prop :=
  digits = ['0'] ∨ Significant digits

structure Numeral.Written (n : Numeral) : Prop where
  whole : Plain n.whole
  fraction : ∀ c ∈ n.fraction, isAsciiDigit c = true

def Numeral.text (n : Numeral) : List Char :=
  (if n.negative then ['-'] else []) ++ n.whole ++
    (if n.fraction.isEmpty then [] else '.' :: n.fraction) ++ n.exponent.elim [] Decimal.exponentText

theorem Plain.exists_cons (plain : Plain digits) :
    ∃ c more, digits = c :: more ∧ isAsciiDigit c = true := by
  rcases plain with rfl | ⟨c, more, rfl, -, ascii⟩
  · exact ⟨'0', [], rfl, rfl⟩
  · exact ⟨c, more, rfl, ascii c List.mem_cons_self⟩

theorem wholePart_append (plain : Plain digits) (ends : NoDigit rest) :
    wholePart (digits ++ rest) = (digits, rest) := by
  rcases plain with rfl | ⟨c, more, rfl, nonzero, ascii⟩
  · rfl
  · have same : wholePart (c :: more ++ rest) = spanDigits (c :: more ++ rest) := by
      unfold wholePart
      split
      · rename_i isZero
        exact absurd (List.cons.inj isZero).1 nonzero
      · rfl
    rw [same, spanDigits_append ascii ends]

theorem readFraction_cons (nonempty : digits ≠ []) (ascii : ∀ c ∈ digits, isAsciiDigit c = true)
    (ends : NoDigit rest) : readFraction ('.' :: (digits ++ rest)) = (digits, rest) := by
  rw [readFraction, spanDigits_append ascii ends]
  cases digits with
  | nil => exact absurd rfl nonempty
  | cons c more => rfl

theorem readFraction_of_ne (ends : ∀ c more, rest = c :: more → c ≠ '.') :
    readFraction rest = ([], rest) := by
  unfold readFraction
  split
  · rename_i more
    exact absurd rfl (ends '.' more rfl)
  · rfl

theorem readExponent_text (place : Int) (ends : NoDigit rest) :
    readExponent (Decimal.exponentText place ++ rest) = (some place, rest) := by
  have span : spanDigits (padded 2 place.natAbs ++ rest) = (padded 2 place.natAbs, rest) :=
    spanDigits_append (fun _ => Decimal.ascii_padded) ends
  have value : digitsValue (padded 2 place.natAbs) = place.natAbs := Decimal.ofDigitChars_padded
  have nonempty : padded 2 place.natAbs ≠ [] :=
    List.append_ne_nil_of_right_ne_nil _ Decimal.natText_ne_nil
  unfold readExponent
  by_cases negative : place < 0
  · rw [Decimal.exponentText, if_pos negative]
    simp only [List.cons_append, span, Bool.true_or, decide_true, if_true]
    cases h : padded 2 place.natAbs with
    | nil => exact absurd h nonempty
    | cons c more =>
      rw [← h, value]
      simp only [Prod.mk.injEq, Option.some.injEq, and_true]
      omega
  · rw [Decimal.exponentText, if_neg negative]
    simp only [List.cons_append, span, Bool.true_or, decide_true, if_true]
    cases h : padded 2 place.natAbs with
    | nil => exact absurd h nonempty
    | cons c more =>
      rw [← h, value]
      simp only [Prod.mk.injEq, Option.some.injEq, and_true, Bool.false_eq_true, if_false]
      omega

theorem readExponent_of_closed (closed : Closed rest) : readExponent rest = (none, rest) := by
  cases rest with
  | nil => rfl
  | cons c more => rcases closed c more rfl with rfl | rfl | rfl <;> rfl

/-- A numeral is read as it is written. -/
theorem readNumeral?_text (written : n.Written) (closed : Closed rest) :
    readNumeral? (n.text ++ rest) = some (n, rest) := by
  obtain ⟨negative, whole, fraction, exponent⟩ := n
  obtain ⟨plain, ascii⟩ := written
  obtain ⟨first, more, isCons, digit⟩ := plain.exists_cons
  dsimp only at plain ascii isCons
  -- what follows each part
  have exponentRead : readExponent (exponent.elim [] Decimal.exponentText ++ rest) =
      (exponent, rest) := by
    cases exponent with
    | none => exact readExponent_of_closed closed
    | some place => exact readExponent_text place closed.noDigit
  have exponentEnds : NoDigit (exponent.elim [] Decimal.exponentText ++ rest) := by
    cases exponent with
    | none => exact closed.noDigit
    | some place => exact noDigit_cons rfl
  have fractionRead : readFraction ((if fraction.isEmpty then [] else '.' :: fraction) ++
      (exponent.elim [] Decimal.exponentText ++ rest)) =
        (fraction, exponent.elim [] Decimal.exponentText ++ rest) := by
    cases fraction with
    | nil =>
      refine readFraction_of_ne fun c others same => ?_
      cases exponent with
      | none => rcases closed c others same with rfl | rfl | rfl <;> decide
      | some place =>
        cases same
        decide
    | cons c others => exact readFraction_cons (List.cons_ne_nil _ _) ascii exponentEnds
  have fractionEnds : NoDigit ((if fraction.isEmpty then [] else '.' :: fraction) ++
      (exponent.elim [] Decimal.exponentText ++ rest)) := by
    cases fraction with
    | nil => exact exponentEnds
    | cons c others => exact noDigit_cons rfl
  have sign : signPart ((if negative then ['-'] else []) ++ (whole ++
      ((if fraction.isEmpty then [] else '.' :: fraction) ++
        (exponent.elim [] Decimal.exponentText ++ rest)))) =
      (negative, whole ++ ((if fraction.isEmpty then [] else '.' :: fraction) ++
        (exponent.elim [] Decimal.exponentText ++ rest))) := by
    cases negative with
    | true => rfl
    | false =>
      subst isCons
      unfold signPart
      split
      · rename_i isMinus
        rw [(List.cons.inj isMinus).1] at digit
        cases digit
      · rfl
  rw [readNumeral?_eq, Numeral.text]
  simp only [List.append_assoc]
  rw [sign, wholePart_append plain fractionEnds]
  dsimp only
  rw [fractionRead, exponentRead, isCons]
  rfl

/-! ### Integers -/

theorem plain_natText (m : Nat) : Plain (natText m) := by
  induction m using Nat.strongRecOn with
  | ind m ih =>
    have ascii : ∀ d ∈ natText m, isAsciiDigit d = true := fun _ => Decimal.ascii_natText
    by_cases small : m < 10
    · have single : natText m = [m.digitChar] := Nat.toDigits_of_lt_base small
      by_cases zero : m = 0
      · subst zero
        exact .inl rfl
      · refine .inr ⟨m.digitChar, [], single, ?_, ascii⟩
        have digits : ∀ d < 10, d ≠ 0 → d.digitChar ≠ '0' := by decide
        exact digits m small zero
    · have split : natText m = natText (m / 10) ++ [(m % 10).digitChar] := by
        rw [natText, Nat.toDigits_eq_if (by decide), if_neg small]
        rfl
      rcases ih (m / 10) (by omega) with isZero | ⟨c, more, isCons, nonzero, -⟩
      · have value : m / 10 = 0 := by
          rw [← Decimal.ofDigitChars_natText (n := m / 10), isZero]
          rfl
        omega
      · exact .inr ⟨c, more ++ [(m % 10).digitChar], by rw [split, isCons]; rfl, nonzero, ascii⟩

def integerNumeral (k : Int) : Numeral :=
  ⟨decide (k < 0), natText k.natAbs, [], none⟩

theorem written_integerNumeral (k : Int) : (integerNumeral k).Written :=
  ⟨plain_natText k.natAbs, fun _ none => absurd none List.not_mem_nil⟩

theorem text_integerNumeral (k : Int) : (integerNumeral k).text = intText k := by
  rw [Numeral.text, intText, integerNumeral]
  by_cases negative : k < 0 <;> simp [negative]

theorem value_integerNumeral {k : Int} (short : (natText k.natAbs).length ≤ integerDigitLimit) :
    (integerNumeral k).value = .ok (.int k) := by
  have value : digitsValue (natText k.natAbs) = k.natAbs := Decimal.ofDigitChars_natText
  have fits : ¬integerDigitLimit < (natText k.natAbs).length := by omega
  simp only [Numeral.value, integerNumeral, List.isEmpty_nil, Option.isNone_none, Bool.and_self,
    if_true, fits, if_false, value, Except.ok.injEq, Value.int.injEq]
  by_cases negative : k < 0
  · simp only [negative, decide_true, if_true]
    omega
  · simp only [negative, decide_false, Bool.false_eq_true, if_false]
    omega

/-! ### Numbers with a fraction or an exponent -/

variable {negative : Bool} {exponent place : Int} {count : Nat}

/-- A numeral that is no integer, and is rounded to the same number as the given decimal. -/
structure Numeral.Denotes (n : Numeral) (negative : Bool) (digits : Nat) (exponent : Int) : Prop where
  written : n.Written
  sign : n.negative = negative
  broken : (n.fraction.isEmpty && n.exponent.isNone) = false
  rounded : Binary64.ofDecimal negative (digitsValue (n.whole ++ n.fraction))
    (n.exponent.getD 0 - n.fraction.length) = Binary64.ofDecimal negative digits exponent

theorem Numeral.Denotes.value_eq {digits : Nat} (denotes : n.Denotes negative digits exponent) :
    n.value = .ok (.float (Binary64.ofDecimal negative digits exponent)) := by
  rw [Numeral.value, denotes.broken, denotes.sign, denotes.rounded]
  rfl

def signText (negative : Bool) : List Char :=
  if negative then ['-'] else []

theorem digitsValue_zeros_append :
    digitsValue (List.replicate count '0' ++ digits) = digitsValue digits := by
  rw [digitsValue, Nat.ofDigitChars_append, Nat.ofDigitChars_replicate_zero, Nat.mul_zero]
  rfl

theorem digitsValue_append_zeros :
    digitsValue (digits ++ List.replicate count '0') = digitsValue digits * 10 ^ count := by
  rw [digitsValue, Nat.ofDigitChars_append, Nat.ofDigitChars_replicate_zero, Nat.mul_comm]
  rfl

theorem exists_scientific (significant : Significant digits) (place : Int) :
    ∃ n : Numeral, n.Denotes negative (digitsValue digits) (place + 1 - digits.length) ∧
      n.text = signText negative ++ Decimal.scientific digits place := by
  obtain ⟨first, more, rfl, nonzero, ascii⟩ := significant
  refine ⟨⟨negative, [first], more, some place⟩, ⟨⟨.inr ⟨first, [], rfl, nonzero, ?_⟩, ?_⟩, rfl, ?_, ?_⟩,
    ?_⟩
  · exact fun d member => ascii d (by simp at member; simp [member])
  · exact fun d member => ascii d (List.mem_cons_of_mem _ member)
  · rw [Option.isNone_some, Bool.and_false]
  · have same : place - (more.length : Int) = place + 1 - ((first :: more).length : Int) := by
      rw [List.length_cons]
      omega
    show Binary64.ofDecimal negative (digitsValue (first :: more)) (place - more.length) = _
    rw [same]
  · cases more <;> simp [Numeral.text, signText, Decimal.scientific]

theorem exists_positional_small (significant : Significant digits) (small : place < 0) :
    ∃ n : Numeral, n.Denotes negative (digitsValue digits) (place + 1 - digits.length) ∧
      n.text = signText negative ++ Decimal.positional digits place := by
  obtain ⟨first, more, isCons, -, ascii⟩ := significant
  let zeros := List.replicate ((-place).toNat - 1) '0'
  have nonempty : (zeros ++ digits).isEmpty = false := by simp [isCons]
  refine ⟨⟨negative, ['0'], zeros ++ digits, none⟩, ⟨⟨.inl rfl, ?_⟩, rfl, ?_, ?_⟩, ?_⟩
  · intro c member
    rcases List.mem_append.mp member with zero | digit
    · obtain rfl := (List.mem_replicate.mp zero).2
      rfl
    · exact ascii c digit
  · rw [nonempty, Bool.false_and]
  · have value : digitsValue (['0'] ++ (zeros ++ digits)) = digitsValue digits := by
      rw [show ['0'] = List.replicate 1 '0' from rfl, digitsValue_zeros_append,
        digitsValue_zeros_append]
    have same : (0 : Int) - ((zeros ++ digits).length : Int) = place + 1 - digits.length := by
      rw [List.length_append, List.length_replicate]
      omega
    show Binary64.ofDecimal negative _ (0 - ((zeros ++ digits).length : Int)) = _
    rw [value, same]
  · simp [Numeral.text, signText, Decimal.positional, small, nonempty, zeros]

theorem exists_positional_large (significant : Significant digits) (large : 0 ≤ place) :
    ∃ n : Numeral, n.Denotes negative (digitsValue digits) (place + 1 - digits.length) ∧
      n.text = signText negative ++ Decimal.positional digits place := by
  obtain ⟨first, more, isCons, nonzero, ascii⟩ := significant
  let width := place.toNat + 1
  let zeros := List.replicate (width - digits.length) '0'
  -- the whole part begins with the first digit in either case
  have plain : Plain (digits.take width ++ zeros) := by
    refine .inr ⟨first, more.take place.toNat ++ zeros, by rw [isCons]; rfl, nonzero, ?_⟩
    intro c member
    rcases List.mem_append.mp member with digit | zero
    · exact ascii c (List.mem_of_mem_take digit)
    · obtain rfl := (List.mem_replicate.mp zero).2
      rfl
  have text : Decimal.positional digits place = digits.take width ++ zeros ++
      '.' :: (if (digits.drop width).isEmpty then ['0'] else digits.drop width) := by
    rw [Decimal.positional, if_neg (by omega)]
  by_cases short : digits.length ≤ width
  · have back : digits.drop width = [] := List.drop_eq_nil_of_le short
    have front : digits.take width = digits := List.take_of_length_le short
    rw [front] at plain
    refine ⟨⟨negative, digits ++ zeros, ['0'], none⟩, ⟨⟨plain, ?_⟩, rfl, rfl, ?_⟩, ?_⟩
    · intro c member
      obtain rfl := List.mem_singleton.mp member
      rfl
    · have value : digitsValue (digits ++ zeros ++ ['0']) =
          digitsValue digits * 10 ^ (width - digits.length + 1) := by
        rw [List.append_assoc, show zeros ++ ['0'] = List.replicate (width - digits.length + 1) '0' from
          List.replicate_succ'.symm, digitsValue_append_zeros]
      have same : (-1 : Int) + ((width - digits.length + 1 : Nat) : Int) =
          place + 1 - digits.length := by omega
      show Binary64.ofDecimal negative (digitsValue (digits ++ zeros ++ ['0'])) (-1) = _
      rw [value, Binary64.ofDecimal_shift, same]
    · rw [text, back, front]
      simp [Numeral.text, signText]
  · have none : zeros = [] := by
      show List.replicate (width - digits.length) '0' = []
      rw [Nat.sub_eq_zero_of_le (by omega)]
      rfl
    have nonempty : (digits.drop width).isEmpty = false := by
      rw [List.isEmpty_eq_false_iff]
      exact List.drop_eq_nil_iff.not.mpr short
    rw [none, List.append_nil] at plain
    refine ⟨⟨negative, digits.take width, digits.drop width, Option.none⟩,
      ⟨⟨plain, fun c member => ascii c (List.mem_of_mem_drop member)⟩, rfl, ?_, ?_⟩, ?_⟩
    · rw [nonempty, Bool.false_and]
    · have same : (0 : Int) - ((digits.drop width).length : Int) = place + 1 - digits.length := by
        rw [List.length_drop]
        omega
      show Binary64.ofDecimal negative (digitsValue (digits.take width ++ digits.drop width))
        (0 - ((digits.drop width).length : Int)) = _
      rw [List.take_append_drop, same]
    · rw [text, none]
      simp [Numeral.text, signText, nonempty]

theorem significant_natText {m : Nat} (positive : 0 < m) : Significant (natText m) := by
  rcases plain_natText m with isZero | significant
  · have value : m = 0 := by
      rw [← Decimal.ofDigitChars_natText (n := m), isZero]
      rfl
    omega
  · exact significant

/-- Zeros at the end of the digits move into the exponent. -/
theorem exists_layout (negative : Bool) (style : Decimal.Format) (value : Decimal.Scaled) :
    ∃ n : Numeral, n.Denotes negative value.digits value.exponent ∧
      n.text = signText negative ++ style.layout value := by
  obtain ⟨m, exponent⟩ := value
  by_cases zero : m = 0
  · subst zero
    refine ⟨⟨negative, ['0'], ['0'], none⟩, ⟨⟨.inl rfl, ?_⟩, rfl, rfl, ?_⟩, ?_⟩
    · intro c member
      obtain rfl := List.mem_singleton.mp member
      rfl
    · have value : digitsValue (['0'] ++ ['0']) = 0 := rfl
      rw [value, Binary64.ofDecimal_zero, Binary64.ofDecimal_zero]
    · simp [Numeral.text, signText, Decimal.Format.layout]
  · let kept := Text.trimEndWith (· = '0') (natText m)
    obtain ⟨count, whole⟩ : ∃ count, kept ++ List.replicate count '0' = natText m :=
      Text.trimEndWith_append_zeros (natText m)
    have significant : Significant kept := by
      obtain ⟨first, more, isCons, nonzero, ascii⟩ := significant_natText (Nat.pos_of_ne_zero zero)
      cases h : kept with
      | nil =>
        rw [h, List.nil_append, isCons] at whole
        have member : first ∈ List.replicate count '0' := by
          rw [whole]
          exact List.mem_cons_self
        exact absurd (List.mem_replicate.mp member).2 nonzero
      | cons c others =>
        rw [← whole, h] at isCons ascii
        obtain rfl : c = first := (List.cons.inj isCons).1
        exact ⟨c, others, rfl, nonzero, fun d member => ascii d (List.mem_append_left _ member)⟩
    have digits : m = digitsValue kept * 10 ^ count := by
      rw [← digitsValue_append_zeros, whole]
      exact Decimal.ofDigitChars_natText.symm
    have length : ((natText m).length : Int) = kept.length + count := by
      rw [← whole, List.length_append, List.length_replicate]
      omega
    let place : Int := exponent + (natText m).length - 1
    have same : place + 1 - kept.length = exponent + count := by
      show exponent + ((natText m).length : Int) - 1 + 1 - kept.length = exponent + count
      omega
    have layout : style.layout ⟨m, exponent⟩ =
        if style.lowestPlace ≤ place ∧ place ≤ style.highestPlace then
          Decimal.positional kept place
        else Decimal.scientific kept place := if_neg zero
    have rounded : Binary64.ofDecimal negative m exponent =
        Binary64.ofDecimal negative (digitsValue kept) (place + 1 - kept.length) := by
      rw [same, ← Binary64.ofDecimal_shift, ← digits]
    have found : ∃ n : Numeral, n.Denotes negative (digitsValue kept) (place + 1 - kept.length) ∧
        n.text = signText negative ++ style.layout ⟨m, exponent⟩ := by
      rw [layout]
      split
      · by_cases small : place < 0
        · exact exists_positional_small significant small
        · exact exists_positional_large significant (by omega)
      · exact exists_scientific significant place
    obtain ⟨n, denotes, text⟩ := found
    exact ⟨n, ⟨denotes.written, denotes.sign, denotes.broken, denotes.rounded.trans rounded.symm⟩, text⟩

/-- A finite number is written as a numeral that stands for it. -/
theorem exists_numeral {x : Binary64} {significand : Nat}
    (finite : x.read = .finite negative significand exponent) :
    ∃ n : Numeral, n.Written ∧ n.text = Decimal.documentFormat.text x ∧ n.value = .ok (.float x) := by
  obtain ⟨sign, -⟩ := Binary64.read_finite finite
  let value := if significand = 0 then ⟨0, 0⟩ else Decimal.shortest x significand exponent
  have reads : Binary64.ofDecimal negative value.digits value.exponent = x := by
    rw [sign]
    by_cases zero : significand = 0
    · have exact := Decimal.exact_readsBack finite
      have nothing : (Decimal.exact 0 exponent).digits = 0 := by
        rw [Decimal.exact]
        split <;> exact Nat.zero_mul _
      rw [zero, nothing, Binary64.ofDecimal_zero] at exact
      rw [show value = ⟨0, 0⟩ from if_pos zero, Binary64.ofDecimal_zero, exact]
    · rw [show value = Decimal.shortest x significand exponent from if_neg zero]
      exact Decimal.shortest_readsBack finite
  obtain ⟨n, denotes, text⟩ := exists_layout negative Decimal.documentFormat value
  refine ⟨n, denotes.written, ?_, ?_⟩
  · rw [text, Decimal.Format.text, finite]
    rfl
  · rw [denotes.value_eq, reads]

end Telemetry.Json
