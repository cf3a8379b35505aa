import Mathlib.Tactic.SplitIfs
import Telemetry.Text.Percent

/-!
Text in UTF-8. The octets of a text are read as the text, also by a reader that replaces what is none.
-/

namespace Telemetry.Text

/-! ### Octets -/

theorem toNat_octet {n : Nat} (small : n < 256) : (UInt8.ofNat n).toNat = n :=
  UInt8.toNat_ofNat_of_lt' small

theorem octet_lt {n : Nat} {b : UInt8} (small : n < 256) : UInt8.ofNat n < b ↔ n < b.toNat := by
  rw [UInt8.lt_iff_toNat_lt, toNat_octet small]

theorem le_octet {n : Nat} {b : UInt8} (small : n < 256) : b ≤ UInt8.ofNat n ↔ b.toNat ≤ n := by
  rw [UInt8.le_iff_toNat_le, toNat_octet small]

theorem octet_eq {n : Nat} {b : UInt8} (small : n < 256) : UInt8.ofNat n = b ↔ n = b.toNat := by
  rw [← UInt8.toNat_inj, toNat_octet small]

theorem isTail_octet (n : Nat) : isTail (UInt8.ofNat (n % 64 + 128)) = true := by
  have small : n % 64 + 128 < 256 := by omega
  have value : (UInt8.ofNat (n % 64 + 128)).toNat = n % 64 + 128 := toNat_octet small
  rw [isTail, Bool.and_eq_true, decide_eq_true_eq, decide_eq_true_eq, le_octet small,
    UInt8.le_iff_toNat_le, value]
  simp only [UInt8.reduceToNat]
  omega

theorem payload_octet (n : Nat) : payload (UInt8.ofNat (n % 64 + 128)) = n % 64 := by
  rw [payload, toNat_octet (by omega)]
  omega

/-! ### Characters -/

variable {n position : Nat} {rest : List UInt8}

theorem decodeUtf8At_one (small : n ≤ 0x7F) :
    decodeUtf8At false position (UInt8.ofNat n :: rest) =
      (Letter.ofCode n :: ·) <$> decodeUtf8At false (position + 1) rest := by
  have ascii : UInt8.ofNat n < 0x80 := by
    rw [octet_lt (by omega)]
    simp only [UInt8.reduceToNat]
    omega
  rw [decodeUtf8At.eq_def]
  dsimp only
  rw [if_pos ascii, toNat_octet (by omega)]

theorem decodeUtf8At_two (large : 0x7F < n) (small : n ≤ 0x7FF) :
    decodeUtf8At false position
        (UInt8.ofNat (n / 64 % 32 + 192) :: UInt8.ofNat (n % 64 + 128) :: rest) =
      (Letter.ofCode n :: ·) <$> decodeUtf8At false (position + 2) rest := by
  have byte : n / 64 % 32 + 192 < 256 := by omega
  have joined : (n / 64 % 32 + 192) % 32 * 64 + n % 64 = n := by omega
  rw [decodeUtf8At, if_neg, if_neg, if_pos]
  · dsimp only
    rw [if_pos (isTail_octet n), payload_octet, toNat_octet byte, joined]
  all_goals
    simp only [Bool.or_eq_true, decide_eq_true_eq, octet_lt byte, le_octet byte, UInt8.reduceToNat]
    omega

theorem decodeUtf8At_three (large : 0x7FF < n) (small : n ≤ 0xFFFF)
    (scalar : n < 0xD800 ∨ 0xDFFF < n) :
    decodeUtf8At false position
        (UInt8.ofNat (n / 4096 % 16 + 224) :: UInt8.ofNat (n / 64 % 64 + 128) ::
          UInt8.ofNat (n % 64 + 128) :: rest) =
      (Letter.ofCode n :: ·) <$> decodeUtf8At false (position + 3) rest := by
  have byte : n / 4096 % 16 + 224 < 256 := by omega
  have next : n / 64 % 64 + 128 < 256 := by omega
  have joined : ((n / 4096 % 16 + 224) % 16 * 64 + n / 64 % 64) * 64 + n % 64 = n := by omega
  have fits : fitsLead false (UInt8.ofNat (n / 4096 % 16 + 224)) (UInt8.ofNat (n / 64 % 64 + 128)) =
      true := by
    rw [fitsLead, isTail_octet, Bool.true_and]
    simp only [octet_eq byte, octet_lt next, le_octet next, UInt8.reduceToNat, Bool.false_or]
    split_ifs <;> simp only [decide_eq_true_eq] <;> omega
  rw [decodeUtf8At, if_neg, if_neg, if_neg, if_pos]
  · dsimp only
    rw [fits, isTail_octet, payload_octet, payload_octet, toNat_octet byte]
    simp only [Bool.not_true, Bool.false_eq_true, if_false, joined]
  all_goals
    simp only [Bool.or_eq_true, decide_eq_true_eq, octet_lt byte, le_octet byte, UInt8.reduceToNat]
    omega

theorem decodeUtf8At_four (large : 0xFFFF < n) (small : n < 0x110000) :
    decodeUtf8At false position
        (UInt8.ofNat (n / 262144 % 8 + 240) :: UInt8.ofNat (n / 4096 % 64 + 128) ::
          UInt8.ofNat (n / 64 % 64 + 128) :: UInt8.ofNat (n % 64 + 128) :: rest) =
      (Letter.ofCode n :: ·) <$> decodeUtf8At false (position + 4) rest := by
  have byte : n / 262144 % 8 + 240 < 256 := by omega
  have next : n / 4096 % 64 + 128 < 256 := by omega
  have joined : (((n / 262144 % 8 + 240) % 8 * 64 + n / 4096 % 64) * 64 + n / 64 % 64) * 64 + n % 64 =
      n := by omega
  have fits : fitsLead false (UInt8.ofNat (n / 262144 % 8 + 240))
      (UInt8.ofNat (n / 4096 % 64 + 128)) = true := by
    rw [fitsLead, isTail_octet, Bool.true_and]
    simp only [octet_eq byte, octet_lt next, le_octet next, UInt8.reduceToNat, Bool.false_or]
    split_ifs <;> simp only [decide_eq_true_eq] <;> omega
  rw [decodeUtf8At, if_neg, if_neg, if_neg, if_neg]
  · dsimp only
    rw [fits, isTail_octet, isTail_octet, payload_octet, payload_octet, payload_octet,
      toNat_octet byte]
    simp only [Bool.not_true, Bool.false_eq_true, if_false, joined]
  all_goals
    simp only [Bool.or_eq_true, decide_eq_true_eq, octet_lt byte, le_octet byte, UInt8.reduceToNat]
    omega

theorem decodeUtf8At_encodeChar (c : Char) (position : Nat) (rest : List UInt8) :
    ∃ length, decodeUtf8At false position (String.utf8EncodeChar c ++ rest) =
      (.char c :: ·) <$> decodeUtf8At false (position + length) rest := by
  have valid : c.toNat < 0xD800 ∨ 0xDFFF < c.toNat ∧ c.toNat < 0x110000 := c.valid
  have value : c.val.toNat = c.toNat := rfl
  have self := Letter.ofCode_toNat c
  unfold String.utf8EncodeChar
  simp only [value]
  generalize c.toNat = n at valid self
  rw [← self]
  split_ifs with one two three
  · exact ⟨1, decodeUtf8At_one one⟩
  · exact ⟨2, decodeUtf8At_two (by omega) two⟩
  · exact ⟨3, decodeUtf8At_three (by omega) three (by omega)⟩
  · exact ⟨4, decodeUtf8At_four (by omega) (by omega)⟩

theorem decodeUtf8At_encode (cs : List Char) (position : Nat) :
    decodeUtf8At false position (encodeUtf8 cs) = .ok (cs.map .char) := by
  induction cs generalizing position with
  | nil => rfl
  | cons c rest ih =>
    obtain ⟨length, decoded⟩ := decodeUtf8At_encodeChar c position (encodeUtf8 rest)
    rw [encodeUtf8, List.flatMap_cons]
    rw [encodeUtf8] at decoded ih
    rw [decoded, ih]
    rfl

theorem decodeUtf8Lossy_encodeUtf8 (cs : List Char) : decodeUtf8Lossy (encodeUtf8 cs) = cs := by
  have decoded : decodeUtf8 (encodeUtf8 cs) = .ok cs := by
    rw [decodeUtf8, decodeUtf8At_encode, Except.map, Letters.map_shown_char]
  rw [decodeUtf8Lossy]
  split
  · rename_i found read
    rw [decoded] at read
    exact (Except.ok.inj read).symm
  · rename_i fault read
    rw [decoded] at read
    cases read

end Telemetry.Text
