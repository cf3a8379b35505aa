import Telemetry.Proofs.Text.Percent
import Telemetry.Proofs.Text.Split
import Telemetry.Proofs.Value.Fields
import Telemetry.Url.Query

/-!
Parameters written as the query of a link. They are read back as they were written, whatever
characters their names and values hold, and the query is found in any link within a host.
-/

namespace Telemetry.Query

open Text (cut cut_append cut_of_not_mem encodeUtf8 join mem_join pieces pieces_join)
open Text.Percent (decodeAfter decodeAfter_flatMap decodeAfter_plain forall_unreserved forall_upperHex
  upperHex)

/-! ### Writing -/

/-- An octet of a parameter: a space is a plus, and what is reserved is escaped. -/
def encodeOctet (b : UInt8) : List Char :=
  if b = 0x20 then ['+'] else Text.Percent.encodeOctet b

def encodePart (s : String) : List Char :=
  (encodeUtf8 s.toList).flatMap encodeOctet

def encodePair (parameter : String × String) : List Char :=
  encodePart parameter.1 ++ '=' :: encodePart parameter.2

def encode (query : Query) : List Char :=
  join ['&'] (query.map encodePair)

/-! ### Octets -/

/-- A plus stands for a space. -/
def spaced (c : Char) : Char :=
  if c = '+' then ' ' else c

theorem spaced_upperHex (n : Nat) : spaced (upperHex n) = upperHex n :=
  forall_upperHex (p := fun _ c => spaced c = c) (by decide) n

theorem map_spaced_encodeOctet (b : UInt8) :
    (Text.Percent.encodeOctet b).map spaced = Text.Percent.encodeOctet b := by
  unfold Text.Percent.encodeOctet
  split_ifs with unreserved
  · have same := forall_unreserved (p := fun _ c => spaced c = c) (by decide +kernel) unreserved
    rw [List.map_singleton, same]
  · simp only [List.map_cons, List.map_nil, spaced_upperHex]
    rfl

theorem decodeAfter_encodeOctet (octets : List UInt8) (rest : List Char) (b : UInt8) :
    decodeAfter octets ((encodeOctet b).map spaced ++ rest) = decodeAfter (octets ++ [b]) rest := by
  unfold encodeOctet
  split_ifs with space
  · subst space
    exact decodeAfter_plain (by decide) (by decide)
  · rw [map_spaced_encodeOctet, Text.Percent.decodeAfter_encodeOctet]

/-- A part is read as it was written. -/
theorem decodePart_encodePart (s : String) : decodePart (encodePart s) = s := by
  show String.ofList (decodeAfter [] ((encodePart s).map spaced)) = s
  rw [encodePart, List.map_flatMap, decodeAfter_flatMap decodeAfter_encodeOctet, List.nil_append,
    Text.decodeUtf8Lossy_encodeUtf8, String.ofList_toList]

/-! ### Characters of a query -/

def isUnreservedChar (c : Char) : Bool :=
  c.isAlphanum || c = '_' || c = '.' || c = '-' || c = '~'

/-- Whether a character may stand in a part of a parameter. -/
def isPartChar (c : Char) : Bool :=
  isUnreservedChar c || c = '%' || c = '+'

theorem isPartChar_upperHex (n : Nat) : isPartChar (upperHex n) = true :=
  forall_upperHex (p := fun _ c => isPartChar c = true) (by decide) n

theorem isPartChar_of_mem {s : String} {c : Char} (member : c ∈ encodePart s) :
    isPartChar c = true := by
  obtain ⟨b, -, inOctet⟩ := List.mem_flatMap.mp member
  unfold encodeOctet Text.Percent.encodeOctet at inOctet
  split_ifs at inOctet with space unreserved
  · obtain rfl := List.mem_singleton.mp inOctet
    rfl
  · obtain rfl := List.mem_singleton.mp inOctet
    have plain : isUnreservedChar (Char.ofNat b.toNat) = true := unreserved
    rw [isPartChar, plain]
    rfl
  · simp only [List.mem_cons, List.not_mem_nil, or_false] at inOctet
    rcases inOctet with rfl | rfl | rfl
    · rfl
    · exact isPartChar_upperHex _
    · exact isPartChar_upperHex _

theorem not_mem_encodePart {s : String} {c : Char} (reserved : isPartChar c = false) :
    c ∉ encodePart s := by
  intro member
  rw [isPartChar_of_mem member] at reserved
  cases reserved

theorem not_mem_encodePair {parameter : String × String} {c : Char} (reserved : isPartChar c = false)
    (other : c ≠ '=') : c ∉ encodePair parameter := by
  rw [encodePair, List.mem_append, List.mem_cons]
  rintro (name | equals | item)
  · exact not_mem_encodePart reserved name
  · exact other equals
  · exact not_mem_encodePart reserved item

theorem not_mem_encode {query : Query} {c : Char} (reserved : isPartChar c = false) (equals : c ≠ '=')
    (ampersand : c ≠ '&') : c ∉ encode query := by
  intro member
  rcases mem_join member with separator | ⟨part, inParts, found⟩
  · exact ampersand separator
  · obtain ⟨parameter, -, rfl⟩ := List.mem_map.mp inParts
    exact not_mem_encodePair reserved equals found

/-! ### Reading -/

theorem readPair_encodePair {name item : String} (given : item ≠ "") :
    readPair (encodePair (name, item)) = some (name, item) := by
  have nonempty : encodePart item ≠ [] := by
    intro empty
    apply given
    rw [← decodePart_encodePart item, empty]
    exact decodePart_encodePart ""
  have split : cut '=' (encodePair (name, item)) = (encodePart name, some (encodePart item)) :=
    cut_append (not_mem_encodePart (by decide)) _
  rw [readPair, split]
  split
  · rename_i none
    cases none
  · rename_i none
    exact absurd (Option.some.inj (Prod.mk.inj none).2) nonempty
  · rename_i same
    cases same
    rw [decodePart_encodePart, decodePart_encodePart]

theorem filterMap_readPair {query : Query} (given : ∀ parameter ∈ query, parameter.2 ≠ "") :
    (query.map encodePair).filterMap readPair = query := by
  induction query with
  | nil => rfl
  | cons parameter rest ih =>
    have later := ih fun other member => given other (List.mem_cons_of_mem _ member)
    rw [List.map_cons, List.filterMap_cons,
      readPair_encodePair (given parameter List.mem_cons_self), later]

/-- Parameters are read as they were written, in their order. -/
theorem read_encode {query : Query} (distinct : (FieldList.names query).Nodup)
    (given : ∀ parameter ∈ query, parameter.2 ≠ "") : read (encode query) = query := by
  cases query with
  | nil => rfl
  | cons parameter rest =>
    have separate : pieces '&' (encode (parameter :: rest)) = (parameter :: rest).map encodePair := by
      refine pieces_join (List.cons_ne_nil _ _) fun part member => ?_
      obtain ⟨other, -, rfl⟩ := List.mem_map.mp member
      exact not_mem_encodePair (by decide) (by decide)
    rw [read, separate, filterMap_readPair given, FieldList.ofList_eq_self distinct]

/-! ### Links -/

/-- A path within a host: one slash, then slashes and what is not reserved. -/
structure IsPath (path : List Char) : Prop where
  slash : path.head? = some '/'
  single : path.tail.head? ≠ some '/'
  plain : ∀ c ∈ path, c = '/' ∨ isUnreservedChar c = true

def link (path : List Char) (query : Query) : List Char :=
  path ++ '?' :: encode query

variable {path : List Char} {query : Query}

theorem not_mem_path (isPath : IsPath path) {c : Char} (reserved : isPartChar c = false)
    (slash : c ≠ '/') : c ∉ path := by
  intro member
  rcases isPath.plain c member with same | unreserved
  · exact slash same
  · rw [isPartChar, unreserved] at reserved
    cases reserved

theorem not_mem_link (isPath : IsPath path) {c : Char} (reserved : isPartChar c = false)
    (delimits : c ∉ ['/', '?', '=', '&']) : c ∉ link path query := by
  simp only [List.mem_cons, List.not_mem_nil, or_false, not_or] at delimits
  obtain ⟨slash, question, equals, ampersand⟩ := delimits
  rw [link, List.mem_append, List.mem_cons]
  rintro (inPath | same | inQuery)
  · exact not_mem_path isPath reserved slash inPath
  · exact question same
  · exact not_mem_encode reserved equals ampersand inQuery

theorem clean_link (isPath : IsPath path) : Url.clean (link path query) = link path query := by
  obtain ⟨rest, rfl⟩ := List.head?_eq_some_iff.mp isPath.slash
  have started : (link ('/' :: rest) query).dropWhile (·.toNat ≤ 0x20) = link ('/' :: rest) query := rfl
  rw [Url.clean, started, List.filter_eq_self]
  intro c member
  have tab : '\t' ∉ link ('/' :: rest) query := not_mem_link isPath (by decide) (by decide)
  have line : '\n' ∉ link ('/' :: rest) query := not_mem_link isPath (by decide) (by decide)
  have carriage : '\r' ∉ link ('/' :: rest) query := not_mem_link isPath (by decide) (by decide)
  simp only [Bool.and_eq_true, decide_eq_true_eq]
  exact ⟨⟨fun same => tab (same ▸ member), fun same => line (same ▸ member)⟩,
    fun same => carriage (same ▸ member)⟩

/-- The query of a link is what was written after its path. -/
theorem query_link (isPath : IsPath path) : Url.query (link path query) = .ok (encode query) := by
  have schemeless : Url.dropScheme (link path query) = link path query := by
    rw [Url.dropScheme, cut_of_not_mem (not_mem_link isPath (by decide) (by decide))]
  have whole : cut '#' (link path query) = (link path query, none) :=
    cut_of_not_mem (not_mem_link isPath (by decide) (by decide))
  have after : cut '?' (link path query) = (path, some (encode query)) :=
    cut_append (not_mem_path isPath (by decide) (by decide)) _
  have hostless : ∀ rest, link path query ≠ '/' :: '/' :: rest := by
    intro rest same
    obtain ⟨more, rfl⟩ := List.head?_eq_some_iff.mp isPath.slash
    cases more with
    | nil => cases same
    | cons c others =>
      cases same
      exact isPath.single rfl
  rw [Url.query, clean_link isPath, schemeless]
  split
  rename_i authority rest parts
  split at parts
  · rename_i more same
    exact absurd same (hostless more)
  · cases parts
    rw [whole, after]
    rfl

end Telemetry.Query
