import Telemetry.Proofs.Json.Trees
import Telemetry.Proofs.Text.Hexadecimal
import Telemetry.Proofs.Text.Split
import Telemetry.Proofs.Text.Utf8

/-!
Documents that are written and read back. Each character of a text is read from its escape, each part
of a value from what stands for it, and what a document can hold is read as it was written.
-/

namespace Telemetry.Json

open Decimal (intText)
open Text (Letter Letters isAsciiDigit hexDigit hexText hexValue?_hexDigit isHighSurrogate
  isLowSurrogate joinSurrogates)

/-! ### Characters -/

variable {start : Nat} {c : Char} {more rest : List Char}

theorem writeUnit_eq (n : Nat) : writeUnit n =
    ['\\', 'u', hexDigit (n / 16 / 16 / 16), hexDigit (n / 16 / 16), hexDigit (n / 16), hexDigit n] :=
  rfl

theorem codeUnit?_hexDigits {n : Nat} (small : n < 0x10000) :
    codeUnit? (hexDigit (n / 16 / 16 / 16)) (hexDigit (n / 16 / 16)) (hexDigit (n / 16)) (hexDigit n) =
      some n := by
  simp only [codeUnit?, hexValue?_hexDigit, Option.bind_eq_bind, Option.bind_some, Option.pure_def,
    Option.some.injEq]
  omega

theorem readText_plain (quote : c ≠ '"') (escape : c ≠ '\\') (printable : 0x20 ≤ c.toNat) :
    readText [] start (c :: more) = (readText [] start more).map (.char c :: ·) := by
  rw [readText, if_neg (by omega)]
  · rfl
  · exact quote
  · exact escape

theorem readText_escape {plain : Char} (notUnit : c ≠ 'u') (known : unescape? c = some plain) :
    readText [] start ('\\' :: c :: more) = (readText [] start more).map (.char plain :: ·) := by
  rw [readText, known]
  · exact fun _ _ _ _ _ same => absurd same notUnit
  · exact notUnit

theorem readText_unit {n : Nat} (small : n < 0x10000) (single : isHighSurrogate n = false)
    (follows : more ≠ []) :
    readText [] start (writeUnit n ++ more) = (readText [] start more).map (Letter.ofCode n :: ·) := by
  have unit := codeUnit?_hexDigits small
  rw [writeUnit_eq]
  simp only [List.cons_append, List.nil_append]
  by_cases another : ∃ e f g h next rest, more = '\\' :: 'u' :: e :: f :: g :: h :: next :: rest
  · obtain ⟨e, f, g, h, next, rest, rfl⟩ := another
    rw [readText.eq_6 _ _ _ _ _ _ _ _ _ _ _ _ _ unit, single, if_neg Bool.false_ne_true]
  · refine readText.eq_7 _ _ _ _ _ _ _ _ follows (fun e f g h next rest same => ?_) unit
    exact another ⟨e, f, g, h, next, rest, same⟩

theorem readText_pair {high low : Nat} (isHigh : isHighSurrogate high = true)
    (isLow : isLowSurrogate low = true) (follows : more ≠ []) :
    readText [] start (writeUnit high ++ (writeUnit low ++ more)) =
      (readText [] start more).map (Letter.ofCode (joinSurrogates high low) :: ·) := by
  have smallHigh : high < 0x10000 := by
    simp only [isHighSurrogate, Bool.and_eq_true, decide_eq_true_eq] at isHigh
    omega
  have smallLow : low < 0x10000 := by
    simp only [isLowSurrogate, Bool.and_eq_true, decide_eq_true_eq] at isLow
    omega
  obtain ⟨next, others, rfl⟩ := List.exists_cons_of_ne_nil follows
  rw [writeUnit_eq, writeUnit_eq]
  simp only [List.cons_append, List.nil_append]
  rw [readText.eq_6 _ _ _ _ _ _ _ _ _ _ _ _ _ (codeUnit?_hexDigits smallHigh), isHigh, if_pos rfl,
    codeUnit?_hexDigits smallLow]
  dsimp only
  rw [isLow, if_pos rfl]

/-- A character is read from the way it stands in a text, if something follows it. -/
theorem readText_writeChar (follows : more ≠ []) :
    readText [] start (writeChar c ++ more) = (readText [] start more).map (.char c :: ·) := by
  have valid : c.toNat < 0xD800 ∨ 0xDFFF < c.toNat ∧ c.toNat < 0x110000 := c.valid
  unfold writeChar
  split_ifs with quote escape newline carriage tab feed back printable wide
  · subst quote
    exact readText_escape (by decide) rfl
  · subst escape
    exact readText_escape (by decide) rfl
  · subst newline
    exact readText_escape (by decide) rfl
  · subst carriage
    exact readText_escape (by decide) rfl
  · subst tab
    exact readText_escape (by decide) rfl
  · subst feed
    exact readText_escape (by decide) rfl
  · subst back
    exact readText_escape (by decide) rfl
  · rw [Bool.and_eq_true, decide_eq_true_eq, decide_eq_true_eq] at printable
    exact readText_plain quote escape printable.1
  · have single : isHighSurrogate c.toNat = false := by
      simp only [isHighSurrogate, Bool.and_eq_false_iff, decide_eq_false_iff_not]
      omega
    rw [readText_unit wide single follows, Letter.ofCode_toNat]
  · have isHigh : isHighSurrogate (0xD800 + (c.toNat - 0x10000) / 0x400) = true := by
      simp only [isHighSurrogate, Bool.and_eq_true, decide_eq_true_eq]
      omega
    have isLow : isLowSurrogate (0xDC00 + (c.toNat - 0x10000) % 0x400) = true := by
      simp only [isLowSurrogate, Bool.and_eq_true, decide_eq_true_eq]
      omega
    have joined : joinSurrogates (0xD800 + (c.toNat - 0x10000) / 0x400)
        (0xDC00 + (c.toNat - 0x10000) % 0x400) = c.toNat := by
      unfold joinSurrogates
      omega
    rw [List.append_assoc, readText_pair isHigh isLow follows, joined, Letter.ofCode_toNat]

theorem readText_text (cs : List Char) :
    readText [] start (cs.flatMap writeChar ++ '"' :: rest) = .ok (cs.map .char, rest) := by
  induction cs with
  | nil =>
    rw [List.flatMap_nil, List.nil_append, readText]
    rfl
  | cons c others ih =>
    rw [List.flatMap_cons, List.append_assoc, readText_writeChar (by simp), ih]
    rfl

/-! ### Scalars -/

/-- How the text of a value begins: with no space, and not as a list ends. -/
def Opens (cs : List Char) : Prop :=
  ∃ c more, cs = c :: more ∧ isSpace c = false ∧ c ≠ ']' ∧ c ≠ '\uFEFF'

theorem Opens.length_pos {cs : List Char} (opens : Opens cs) : 0 < cs.length := by
  obtain ⟨c, more, rfl, -⟩ := opens
  exact Nat.succ_pos _

theorem Opens.append {cs : List Char} (opens : Opens cs) (rest : List Char) : Opens (cs ++ rest) := by
  obtain ⟨c, more, rfl, other⟩ := opens
  exact ⟨c, more ++ rest, rfl, other⟩

theorem Opens.skipSpace {cs : List Char} (opens : Opens cs) : skipSpace cs = cs := by
  obtain ⟨c, more, rfl, noSpace, -⟩ := opens
  rw [Json.skipSpace, List.dropWhile_cons_of_neg (by rw [noSpace]; exact Bool.false_ne_true)]

/-- A text that is no text of a document, no list and no object, and is read as a value. -/
structure ReadsAs (cs : List Char) (v : Value) : Prop where
  opens : Opens cs
  single : ∀ more, cs ≠ '"' :: more ∧ cs ≠ '[' :: more ∧ cs ≠ '\x7b' :: more
  read : ∀ rest, Closed rest → readScalar (cs ++ rest) = .ok (v, rest)

theorem readsAs_word {word : List Char} {v : Value} (member : (word, v) ∈ words) : ReadsAs word v := by
  simp only [words, List.mem_cons, List.not_mem_nil, or_false, Prod.mk.injEq] at member
  have opens : ∃ c more, word = c :: more ∧ isSpace c = false ∧ c ≠ ']' ∧ c ≠ '\uFEFF' ∧ c ≠ '"' ∧
      c ≠ '[' ∧ c ≠ '\x7b' := by
    rcases member with ⟨rfl, -⟩ | ⟨rfl, -⟩ | ⟨rfl, -⟩ | ⟨rfl, -⟩ | ⟨rfl, -⟩ | ⟨rfl, -⟩ <;>
      exact ⟨_, _, rfl, by decide⟩
  obtain ⟨c, more, isCons, noSpace, noEnd, noMark, noText, noList, noObject⟩ := opens
  refine ⟨⟨c, more, isCons, noSpace, noEnd, noMark⟩, fun others => ?_, fun rest _ => ?_⟩
  · rw [isCons]
    simp [noText, noList, noObject]
  · rcases member with ⟨rfl, rfl⟩ | ⟨rfl, rfl⟩ | ⟨rfl, rfl⟩ | ⟨rfl, rfl⟩ | ⟨rfl, rfl⟩ | ⟨rfl, rfl⟩ <;>
      rfl

theorem readWord?_numeral {n : Numeral} (written : n.Written) : readWord? (n.text ++ rest) = none := by
  obtain ⟨c, more, isCons, digit⟩ := written.whole.exists_cons
  have apart : ∀ letter, isAsciiDigit letter = false → letter ≠ c := by
    rintro letter other rfl
    rw [digit] at other
    cases other
  rw [Numeral.text, isCons]
  cases n.negative <;>
    simp [readWord?, words, dropWord?, apart 'n' rfl, apart 't' rfl, apart 'f' rfl, apart 'N' rfl,
      apart 'I' rfl, apart '-' rfl]

theorem readScalar_text {n : Numeral} (written : n.Written) (closed : Closed rest) :
    readScalar (n.text ++ rest) = n.value.map (·, rest) := by
  rw [readScalar, readWord?_numeral written]
  dsimp only
  rw [readNumeral?_text written closed]

theorem readsAs_numeral {n : Numeral} {v : Value} (written : n.Written) (value : n.value = .ok v) :
    ReadsAs n.text v := by
  obtain ⟨c, more, isCons, digit⟩ := written.whole.exists_cons
  obtain ⟨low, high⟩ := Text.isAsciiDigit_iff.mp digit
  have apart : ∀ other, isAsciiDigit other = false → c ≠ other := by
    rintro other noDigit rfl
    rw [digit] at noDigit
    cases noDigit
  have opens : ∃ d others, n.text = d :: others ∧ (d = c ∨ d = '-') := by
    rw [Numeral.text, isCons]
    cases n.negative
    · exact ⟨c, _, rfl, .inl rfl⟩
    · exact ⟨'-', _, rfl, .inr rfl⟩
  obtain ⟨d, others, isText, first⟩ := opens
  have noSpace : isSpace d = false := by
    rcases first with rfl | rfl
    · simp [isSpace, apart ' ' rfl, apart '\t' rfl, apart '\n' rfl, apart '\r' rfl]
    · decide
  have differs : ∀ other, isAsciiDigit other = false → other ≠ '-' → d ≠ other := by
    intro other noDigit noMinus
    rcases first with rfl | rfl
    · exact apart other noDigit
    · exact noMinus.symm
  refine ⟨⟨d, others, isText, noSpace, differs ']' rfl (by decide), differs '\uFEFF' rfl (by decide)⟩,
    fun more => ?_, fun rest closed => ?_⟩
  · rw [isText]
    simp [differs '"' rfl (by decide), differs '[' rfl (by decide), differs '\x7b' rfl (by decide)]
  · rw [readScalar_text written closed, value]
    rfl

theorem readsAs_float {x : Binary64} (content : isContent (.float x) = true) :
    ReadsAs (Decimal.documentFormat.text x) (.float x) := by
  have nan : x.read = .nan → x = .nan := by
    intro isNaN
    simpa [isContent, Binary64.isNaN, isNaN] using content
  cases reading : x.read with
  | nan =>
    have member : ("NaN".toList, Value.float .nan) ∈ words := by simp [words]
    rw [Decimal.Format.text, reading, nan reading]
    exact readsAs_word member
  | infinite negative =>
    have members : ("Infinity".toList, Value.float (.infinity false)) ∈ words ∧
        ("-Infinity".toList, Value.float (.infinity true)) ∈ words := by simp [words]
    rw [Decimal.Format.text, reading, Binary64.eq_infinity reading]
    cases negative
    · exact readsAs_word members.1
    · exact readsAs_word members.2
  | finite negative significand exponent =>
    obtain ⟨n, written, text, value⟩ := exists_numeral reading
    rw [← text]
    exact readsAs_numeral written value

def isSingle : Value → Bool
  | .null | .bool _ | .int _ | .float _ => true
  | _ => false

theorem readsAs_single {v : Value} (single : isSingle v = true) (content : isContent v = true) :
    ReadsAs (write v) v := by
  cases v with
  | null => exact readsAs_word (by simp [words, write])
  | bool b => cases b <;> exact readsAs_word (by simp [words, write])
  | int k =>
    rw [write, ← text_integerNumeral]
    exact readsAs_numeral (written_integerNumeral k) (value_integerNumeral (of_decide_eq_true content))
  | float x => exact readsAs_float content
  | _ => cases single

/-! ### Values -/

theorem writeText_eq (s : String) (rest : List Char) :
    writeText s ++ rest = '"' :: (s.toList.flatMap writeChar ++ '"' :: rest) := by
  simp [writeText]

theorem readName_writeText (name : String) (opens : Opens rest) :
    readName [] (writeText name ++ ':' :: ' ' :: rest) = .ok (.ofString name, rest) := by
  have space : skipSpace (':' :: ' ' :: rest) = ':' :: ' ' :: rest := rfl
  have after : skipSpace (' ' :: rest) = rest := opens.skipSpace
  rw [writeText_eq, readName, readText_text]
  simp only [space, after, Letters.ofString]

theorem opens_write {v : Value} (content : isContent v = true) : Opens (write v) := by
  cases v with
  | str s => exact ⟨'"', _, rfl, by decide⟩
  | list items => exact ⟨'[', _, rfl, by decide⟩
  | object fields => exact ⟨'\x7b', _, rfl, by decide⟩
  | null | bool b | int k | float x => exact (readsAs_single rfl content).opens
  | _ => cases content

theorem opens_join {cs : List Char} (opens : Opens cs) (others : List (List Char)) :
    Opens (Text.join [',', ' '] (cs :: others)) := by
  cases others with
  | nil => exact opens
  | cons next rest =>
    rw [Text.join_cons]
    exact opens.append _

theorem exists_fuel {fuel : Nat} (some : 0 < fuel) : ∃ less, fuel = less + 1 :=
  ⟨fuel - 1, by omega⟩

theorem readValue_of_readsAs {cs : List Char} {v : Value} (reads : ReadsAs cs v) (closed : Closed rest)
    {fuel room : Nat} (enough : 2 * cs.length ≤ fuel) :
    readValue [] fuel room (cs ++ rest) = .ok (.plain v, rest) := by
  have length := reads.opens.length_pos
  obtain ⟨fuel, rfl⟩ := exists_fuel (show 0 < fuel by omega)
  obtain ⟨c, more, rfl, -⟩ := reads.opens
  have single := reads.single more
  have scalar := reads.read rest closed
  rw [List.cons_append] at scalar ⊢
  rw [readValue, scalar]
  · rfl
  · exact fun others same => single.1 (by rw [(List.cons.inj same).1])
  · exact fun others same => single.2.1 (by rw [(List.cons.inj same).1])
  · exact fun others same => single.2.2 (by rw [(List.cons.inj same).1])

/-- Between the brackets of a list stands what is read as its items. -/
theorem readValue_list {items : List Tree} {cs : List Char} {fuel room : Nat} (opens : Opens cs)
    (inner : readItems [] fuel room (cs ++ ']' :: rest) = .ok (items, rest)) :
    readValue [] (fuel + 1) (room + 1) ('[' :: (cs ++ ']' :: rest)) = .ok (.list items, rest) := by
  have more := opens.append (']' :: rest)
  have space := more.skipSpace
  obtain ⟨c, others, isCons, -, noEnd, -⟩ := more
  rw [isCons] at space inner ⊢
  rw [readValue, space]
  split
  · rename_i same
    exact absurd (List.cons.inj same).1 noEnd
  · rw [inner]
    rfl

theorem readValue_object {members : List (Letters × Tree)} {cs : List Char} {fuel room : Nat}
    (inner : readMembers [] fuel room ('"' :: cs) = .ok (members, rest)) :
    readValue [] (fuel + 1) (room + 1) ('\x7b' :: '"' :: cs) = .ok (.object members, rest) := by
  have space : skipSpace ('"' :: cs) = '"' :: cs := rfl
  rw [readValue, space]
  show (readMembers [] fuel room ('"' :: cs)).map _ = _
  rw [inner]
  rfl

section Steps

variable {cs : List Char} {fuel room : Nat} {name : Letters} {item : Tree}

theorem readItems_last (first : readValue [] fuel room cs = .ok (item, ']' :: rest)) :
    readItems [] (fuel + 1) room cs = .ok ([item], rest) := by
  rw [readItems, first]
  rfl

theorem readItems_more {items : List Tree}
    (first : readValue [] fuel room cs = .ok (item, ',' :: ' ' :: more)) (opens : Opens more)
    (later : readItems [] fuel room more = .ok (items, rest)) :
    readItems [] (fuel + 1) room cs = .ok (item :: items, rest) := by
  have after : skipSpace (' ' :: more) = more := opens.skipSpace
  rw [readItems, first]
  show (readItems [] fuel room (skipSpace (' ' :: more))).map _ = _
  rw [after, later]
  rfl

theorem readMembers_last {value : List Char} (named : readName [] cs = .ok (name, value))
    (first : readValue [] fuel room value = .ok (item, '\x7d' :: rest)) :
    readMembers [] (fuel + 1) room cs = .ok ([(name, item)], rest) := by
  rw [readMembers, named]
  dsimp only
  rw [first]
  rfl

theorem readMembers_more {value : List Char} {members : List (Letters × Tree)}
    (named : readName [] cs = .ok (name, value))
    (first : readValue [] fuel room value = .ok (item, ',' :: ' ' :: more)) (opens : Opens more)
    (later : readMembers [] fuel room more = .ok (members, rest)) :
    readMembers [] (fuel + 1) room cs = .ok ((name, item) :: members, rest) := by
  have after : skipSpace (' ' :: more) = more := opens.skipSpace
  rw [readMembers, named]
  dsimp only
  rw [first]
  show (readMembers [] fuel room (skipSpace (' ' :: more))).map _ = _
  rw [after, later]
  rfl

end Steps

def memberText (name : String) (item : Value) : List Char :=
  writeText name ++ ':' :: ' ' :: write item

theorem opens_memberText (name : String) (item : Value) : Opens (memberText name item) :=
  ⟨'"', _, rfl, by decide⟩

theorem readName_memberText (name : String) {item : Value} (content : isContent item = true)
    (rest : List Char) :
    readName [] (memberText name item ++ rest) = .ok (.ofString name, write item ++ rest) := by
  rw [memberText, List.append_assoc]
  exact readName_writeText name ((opens_write content).append rest)

theorem length_memberText (name : String) (item : Value) :
    (write item).length < (memberText name item).length := by
  rw [memberText, List.length_append, List.length_cons, List.length_cons]
  omega

mutual
/-- A value that nests no deeper than there is room for is read as its tree. -/
theorem readValue_write : ∀ v : Value, isContent v = true → ∀ (fuel room : Nat) (rest : List Char),
    Closed rest → 2 * (write v).length ≤ fuel → v.depth ≤ room →
      readValue [] fuel room (write v ++ rest) = .ok (.ofValue v, rest)
  | .null, content, _, _, _, closed, enough, _ | .bool _, content, _, _, _, closed, enough, _
  | .int _, content, _, _, _, closed, enough, _ | .float _, content, _, _, _, closed, enough, _ =>
    readValue_of_readsAs (readsAs_single rfl content) closed enough
  | .str s, _, fuel, room, rest, _, enough, _ => by
    have length : 0 < (write (.str s)).length := Nat.succ_pos _
    obtain ⟨fuel, rfl⟩ := exists_fuel (show 0 < fuel by omega)
    rw [write, writeText_eq, readValue, readText_text]
    rfl
  | .list [], _, fuel, room, rest, _, enough, shallow => by
    have length : (write (.list [])).length = 2 := rfl
    rw [Value.depth] at shallow
    obtain ⟨fuel, rfl⟩ := exists_fuel (show 0 < fuel by omega)
    obtain ⟨room, rfl⟩ := exists_fuel (show 0 < room by omega)
    rfl
  | .list (item :: items), content, fuel, room, rest, _, enough, shallow => by
    have text : write (.list (item :: items)) ++ rest =
        '[' :: (Text.join [',', ' '] (writeItems (item :: items)) ++ ']' :: rest) := by simp [write]
    have length : (write (.list (item :: items))).length =
        (Text.join [',', ' '] (writeItems (item :: items))).length + 2 := by simp [write]
    rw [Value.depth] at shallow
    obtain ⟨fuel, rfl⟩ := exists_fuel (show 0 < fuel by omega)
    obtain ⟨room, rfl⟩ := exists_fuel (show 0 < room by omega)
    rw [text]
    refine readValue_list ?_
      (readItems_write item items content fuel room rest (by omega) (by omega))
    exact opens_join (opens_write (Bool.and_eq_true_iff.mp content).1) _
  | .object [], _, fuel, room, rest, _, enough, shallow => by
    have length : (write (.object [])).length = 2 := rfl
    rw [Value.depth] at shallow
    obtain ⟨fuel, rfl⟩ := exists_fuel (show 0 < fuel by omega)
    obtain ⟨room, rfl⟩ := exists_fuel (show 0 < room by omega)
    rfl
  | .object (field :: fields), content, fuel, room, rest, _, enough, shallow => by
    have each := (Bool.and_eq_true_iff.mp content).2
    have text : write (.object (field :: fields)) ++ rest =
        '\x7b' :: (Text.join [',', ' '] (writeFields (field :: fields)) ++ '\x7d' :: rest) := by
      simp [write]
    have length : (write (.object (field :: fields))).length =
        (Text.join [',', ' '] (writeFields (field :: fields))).length + 2 := by simp [write]
    rw [Value.depth] at shallow
    obtain ⟨fuel, rfl⟩ := exists_fuel (show 0 < fuel by omega)
    obtain ⟨room, rfl⟩ := exists_fuel (show 0 < room by omega)
    have inner := readMembers_write field fields each fuel room rest (by omega) (by omega)
    obtain ⟨cs, quote⟩ : ∃ cs, Text.join [',', ' '] (writeFields (field :: fields)) = '"' :: cs := by
      cases fields <;> exact ⟨_, rfl⟩
    rw [text]
    rw [quote] at inner ⊢
    exact readValue_object inner
  | .bytes _, content, _, _, _, _, _, _ | .buffer _, content, _, _, _, _, _, _
  | .dateTime _, content, _, _, _, _, _, _ | .tuple _, content, _, _, _, _, _, _ => by
    cases content
termination_by _ _ fuel => fuel
theorem readItems_write : ∀ (item : Value) (items : List Value), areContent (item :: items) = true →
    ∀ (fuel room : Nat) (rest : List Char),
      2 * (Text.join [',', ' '] (writeItems (item :: items))).length + 1 ≤ fuel →
      Value.itemsDepth (item :: items) ≤ room →
        readItems [] fuel room (Text.join [',', ' '] (writeItems (item :: items)) ++ ']' :: rest) =
          .ok (Tree.ofItems (item :: items), rest)
  | item, [], content, fuel, room, rest, enough, shallow => by
    have length : (Text.join [',', ' '] (writeItems [item])).length = (write item).length := rfl
    have first := Value.itemsDepth_le_iff.mp shallow item List.mem_cons_self
    obtain ⟨fuel, rfl⟩ := exists_fuel (show 0 < fuel by omega)
    exact readItems_last (readValue_write item (Bool.and_eq_true_iff.mp content).1 fuel room _
      (closed_cons (.inr (.inl rfl))) (by omega) first)
  | item, next :: items, content, fuel, room, rest, enough, shallow => by
    obtain ⟨here, later⟩ := Bool.and_eq_true_iff.mp content
    have join : Text.join [',', ' '] (writeItems (item :: next :: items)) =
        write item ++ ',' :: ' ' :: Text.join [',', ' '] (writeItems (next :: items)) := Text.join_cons _ _ _ _
    have length := congrArg List.length join
    rw [List.length_append, List.length_cons, List.length_cons] at length
    obtain ⟨first, others⟩ := Nat.max_le.mp (shallow : max _ (Value.itemsDepth (next :: items)) ≤ _)
    obtain ⟨fuel, rfl⟩ := exists_fuel (show 0 < fuel by omega)
    rw [join, List.append_assoc]
    refine readItems_more (readValue_write item here fuel room _ (closed_cons (.inl rfl)) (by omega) first)
      ?_ (readItems_write next items later fuel room rest (by omega) others)
    exact (opens_join (opens_write (Bool.and_eq_true_iff.mp later).1) _).append _
termination_by _ _ _ fuel => fuel
theorem readMembers_write : ∀ (field : String × Value) (fields : List (String × Value)),
    fieldsAreContent (field :: fields) = true → ∀ (fuel room : Nat) (rest : List Char),
      2 * (Text.join [',', ' '] (writeFields (field :: fields))).length + 1 ≤ fuel →
      Value.fieldsDepth (field :: fields) ≤ room →
        readMembers [] fuel room
            (Text.join [',', ' '] (writeFields (field :: fields)) ++ '\x7d' :: rest) =
          .ok (Tree.ofFields (field :: fields), rest)
  | (name, item), [], content, fuel, room, rest, enough, shallow => by
    have here := (Bool.and_eq_true_iff.mp content).1
    have join : Text.join [',', ' '] (writeFields [(name, item)]) = memberText name item := rfl
    have longer := length_memberText name item
    have first := Value.fieldsDepth_le_iff.mp shallow (name, item) List.mem_cons_self
    rw [join] at enough ⊢
    obtain ⟨fuel, rfl⟩ := exists_fuel (show 0 < fuel by omega)
    exact readMembers_last (readName_memberText name here _)
      (readValue_write item here fuel room _ (closed_cons (.inr (.inr rfl))) (by omega) first)
  | (name, item), (other, next) :: fields, content, fuel, room, rest, enough, shallow => by
    obtain ⟨here, later⟩ := Bool.and_eq_true_iff.mp content
    have join : Text.join [',', ' '] (writeFields ((name, item) :: (other, next) :: fields)) =
        memberText name item ++
          ',' :: ' ' :: Text.join [',', ' '] (writeFields ((other, next) :: fields)) := Text.join_cons _ _ _ _
    have length := congrArg List.length join
    have longer := length_memberText name item
    rw [List.length_append, List.length_cons, List.length_cons] at length
    obtain ⟨first, others⟩ :=
      Nat.max_le.mp (shallow : max _ (Value.fieldsDepth ((other, next) :: fields)) ≤ _)
    obtain ⟨fuel, rfl⟩ := exists_fuel (show 0 < fuel by omega)
    rw [join, List.append_assoc]
    refine readMembers_more (readName_memberText name here _)
      (readValue_write item here fuel room _ (closed_cons (.inl rfl)) (by omega) first) ?_
      (readMembers_write (other, next) fields later fuel room rest (by omega) others)
    exact (opens_join (opens_memberText other next) _).append _
termination_by _ _ _ fuel => fuel
end

theorem Halves.of_map_char (cs : List Char) : Halves.of (cs.map .char) = [] := by
  induction cs with
  | nil => rfl
  | cons c rest ih => exact ih

/-- What a document can hold is read as it was written, if it does not nest too deep. -/
theorem Document.tree_writeString {v : Value} (fits : Fits nestingLimit v) :
    (Document.text (writeString v)).tree = .ok (.ofValue v) := by
  have opens := opens_write fits.content
  have read := readValue_write v fits.content (2 * (write v).length + 2) nestingLimit [] closed_nil
    (by omega) fits.shallow
  rw [List.append_nil] at read
  have letters : Letters.ofString (writeString v) = (write v).map .char := by
    rw [Letters.ofString, writeString, String.toList_ofList]
  have whole : readLetters ((write v).map .char) = .ok (.ofValue v) := by
    rw [readLetters, Letters.map_shown_char, Halves.of_map_char, opens.skipSpace, read]
    rfl
  have noMark : ((write v).map Letter.char).head? ≠ some (.char '\uFEFF') := by
    obtain ⟨c, more, isCons, -, -, noMark⟩ := opens
    rw [isCons]
    simpa using noMark
  rw [Document.tree, letters, if_neg noMark]
  exact whole

/-- A document that holds a value, with nothing but Unicode in its texts and names. -/
def Document.Spells (document : Document) (v : Value) : Prop :=
  ∃ tree, document.tree = .ok tree ∧ tree.isWhole = true ∧ tree.shown = v

theorem Document.spells_writeString {v : Value} (fits : Fits nestingLimit v) :
    (Document.text (writeString v)).Spells v :=
  ⟨_, tree_writeString fits, Tree.isWhole_ofValue v, Tree.shown_ofValue v fits.content⟩

theorem Document.read_writeString {v : Value} (fits : Fits nestingLimit v) :
    (Document.text (writeString v)).read = .ok v :=
  Document.read_eq_ok_iff.mpr ⟨_, tree_writeString fits, Tree.shown_ofValue v fits.content⟩

end Telemetry.Json
