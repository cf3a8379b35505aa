import Telemetry.Proofs.Text.Hexadecimal
import Telemetry.Proofs.Text.Utf8

/-!
Percent escapes that are written and read. Text is read as it was written, whatever octets it is made of.
-/

namespace Telemetry.Text.Percent

variable {octets : List UInt8} {rest : List Char}

/-! ### Hexadecimal digits -/

theorem forall_upperHex {p : Nat → Char → Prop} (all : ∀ d < 16, p d (upperHex d)) (n : Nat) :
    p (n % 16) (upperHex n) := by
  have same : upperHex n = upperHex (n % 16) := by
    rw [upperHex, upperHex, hexDigit_mod]
  rw [same]
  exact all (n % 16) (Nat.mod_lt _ (by decide))

theorem hexValue?_upperHex (n : Nat) : hexValue? (upperHex n) = some (n % 16) :=
  forall_upperHex (p := fun d c => hexValue? c = some d) (by decide) n

/-! ### Octets -/

theorem forall_unreserved {p : Nat → Char → Prop}
    (all : ∀ n < 256, isUnreserved (UInt8.ofNat n) = true → p n (Char.ofNat n)) {b : UInt8}
    (unreserved : isUnreserved b = true) : p b.toNat (Char.ofNat b.toNat) := by
  apply all b.toNat b.toNat_lt
  rwa [UInt8.ofNat_toNat]

theorem decodeAfter_plain {c : Char} (ascii : c.toNat < 0x80) (plain : c ≠ '%') :
    decodeAfter octets (c :: rest) = decodeAfter (octets ++ [UInt8.ofNat c.toNat]) rest := by
  rw [decodeAfter, if_pos ascii]
  exact fun a b more same => absurd same plain

theorem decodeAfter_encodeOctet (b : UInt8) :
    decodeAfter octets (encodeOctet b ++ rest) = decodeAfter (octets ++ [b]) rest := by
  unfold encodeOctet
  split_ifs with unreserved
  · obtain ⟨value, ascii, plain⟩ := forall_unreserved
      (p := fun n c => c.toNat = n ∧ n < 0x80 ∧ c ≠ '%') (by decide +kernel) unreserved
    rw [List.singleton_append, decodeAfter_plain (by rwa [value]) plain, value, UInt8.ofNat_toNat]
  · have size : b.toNat < 256 := b.toNat_lt
    have joined : b.toNat / 16 % 16 * 16 + b.toNat % 16 = b.toNat := by omega
    simp only [List.cons_append, List.nil_append]
    rw [decodeAfter, hexValue?_upperHex, hexValue?_upperHex]
    dsimp only
    rw [joined, UInt8.ofNat_toNat]

/-! ### Texts -/

/-- Octets are read as text if each of them is read as it was written, with or without an escape. -/
theorem decodeAfter_flatMap {write : UInt8 → List Char}
    (reads : ∀ octets rest b,
      decodeAfter octets (write b ++ rest) = decodeAfter (octets ++ [b]) rest) (bs : List UInt8) :
    decodeAfter octets (bs.flatMap write) = decodeUtf8Lossy (octets ++ bs) := by
  induction bs generalizing octets with
  | nil => rw [List.flatMap_nil, decodeAfter, List.append_nil]
  | cons b others ih =>
    rw [List.flatMap_cons, reads, ih, List.append_assoc]
    rfl

theorem decode_encode (cs : List Char) : decode (encode cs) = cs := by
  have reads : decode (encode cs) = decodeUtf8Lossy ([] ++ encodeUtf8 cs) :=
    decodeAfter_flatMap (fun _ _ => decodeAfter_encodeOctet) (encodeUtf8 cs)
  rw [reads, List.nil_append, decodeUtf8Lossy_encodeUtf8]

end Telemetry.Text.Percent
