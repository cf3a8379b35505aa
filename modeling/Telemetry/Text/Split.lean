/-!
Text cut at separators. The main statements say that no piece holds a separator and that the pieces
with separators between them are the text again.
-/

namespace Telemetry.Text

variable {separator : Char} {cs : List Char}

/-- The text before the first separator, and the text after it if there is one. -/
def cut (separator : Char) (cs : List Char) : List Char × Option (List Char) :=
  match cs.dropWhile (· ≠ separator) with
  | [] => (cs, none)
  | _ :: rest => (cs.takeWhile (· ≠ separator), some rest)

/-- The text in pieces, one more than it has separators. -/
def pieces (separator : Char) : List Char → List (List Char)
  | [] => [[]]
  | c :: rest =>
    if c = separator then [] :: pieces separator rest
    else
      match pieces separator rest with
      | [] => [[c]]
      | piece :: more => (c :: piece) :: more

/-- Texts with a separator between them. -/
def join (separator : List Char) : List (List Char) → List Char
  | [] => []
  | [cs] => cs
  | cs :: rest => cs ++ separator ++ join separator rest

theorem pieces_ne_nil : pieces separator cs ≠ [] := by
  cases cs with
  | nil => simp [pieces]
  | cons c rest =>
    unfold pieces
    split
    · simp
    · split <;> simp

theorem pieces_cons_of_ne {c : Char} (h : c ≠ separator) (cs : List Char) :
    ∃ piece more, pieces separator cs = piece :: more ∧
      pieces separator (c :: cs) = (c :: piece) :: more := by
  cases found : pieces separator cs with
  | nil => exact absurd found pieces_ne_nil
  | cons piece more => exact ⟨piece, more, rfl, by simp [pieces, h, found]⟩

theorem join_pieces : join [separator] (pieces separator cs) = cs := by
  induction cs with
  | nil => rfl
  | cons c rest ih =>
    by_cases h : c = separator
    · obtain ⟨piece, more, before⟩ :=
        List.exists_cons_of_ne_nil (pieces_ne_nil : pieces separator rest ≠ [])
      rw [before] at ih
      simp [pieces, h, before, join, ih]
    · obtain ⟨piece, more, before, after⟩ := pieces_cons_of_ne h rest
      rw [before] at ih
      rw [after, ← ih]
      cases more <;> simp [join]

theorem not_mem_of_mem_pieces {piece : List Char} (h : piece ∈ pieces separator cs) :
    separator ∉ piece := by
  induction cs generalizing piece with
  | nil => simp_all [pieces]
  | cons c rest ih =>
    by_cases same : c = separator
    · rcases List.mem_cons.mp (by simpa [pieces, same] using h) with rfl | inRest
      · simp
      · exact ih inRest
    · obtain ⟨first, more, before, after⟩ := pieces_cons_of_ne same rest
      rcases List.mem_cons.mp (after ▸ h) with rfl | inMore
      · have inFirst : separator ∉ first := ih (by simp [before])
        simp [inFirst, Ne.symm same]
      · exact ih (by simp [before, inMore])

end Telemetry.Text
