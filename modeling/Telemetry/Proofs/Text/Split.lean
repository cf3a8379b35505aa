import Mathlib.Data.List.TakeWhile
import Telemetry.Text.Split

/-!
Text put together with separators and cut again. Parts that hold no separator are found as they were.
-/

namespace Telemetry.Text

variable {separator : Char} {cs : List Char} {parts : List (List Char)}

theorem ne_of_mem (absent : separator ∉ cs) : ∀ c ∈ cs, decide (c ≠ separator) = true := by
  intro c member
  rw [decide_eq_true_eq]
  rintro rfl
  exact absent member

theorem cut_of_not_mem (absent : separator ∉ cs) : cut separator cs = (cs, none) := by
  rw [cut, List.dropWhile_eq_nil_iff.mpr (ne_of_mem absent)]

theorem cut_append (absent : separator ∉ cs) (rest : List Char) :
    cut separator (cs ++ separator :: rest) = (cs, some rest) := by
  have dropped : (cs ++ separator :: rest).dropWhile (fun c => decide (c ≠ separator)) =
      separator :: rest := by
    rw [List.dropWhile_append_of_pos (ne_of_mem absent)]
    exact List.dropWhile_cons_of_neg (by simp)
  have taken : (cs ++ separator :: rest).takeWhile (fun c => decide (c ≠ separator)) = cs := by
    rw [List.takeWhile_append_of_pos (ne_of_mem absent), List.takeWhile_cons_of_neg (by simp),
      List.append_nil]
  rw [cut, dropped, taken]

/-- A separator between two texts cuts them apart, whatever they hold themselves. -/
theorem pieces_append_cons (cs rest : List Char) :
    pieces separator (cs ++ separator :: rest) = pieces separator cs ++ pieces separator rest := by
  induction cs with
  | nil =>
    have empty : pieces separator [] = [[]] := rfl
    rw [empty, List.nil_append, pieces, if_pos rfl, List.singleton_append]
  | cons c others ih =>
    by_cases same : c = separator
    · rw [List.cons_append, pieces, if_pos same, ih, pieces, if_pos same, List.cons_append]
    · obtain ⟨piece, more, before, after⟩ := pieces_cons_of_ne same others
      rw [List.cons_append, pieces, if_neg same, ih, before, after]
      rfl

theorem pieces_of_not_mem (absent : separator ∉ cs) : pieces separator cs = [cs] := by
  induction cs with
  | nil => rfl
  | cons c others ih =>
    obtain ⟨differs, later⟩ := not_or.mp (mt List.mem_cons.mpr absent)
    rw [pieces, if_neg (Ne.symm differs), ih later]

theorem pieces_append (absent : separator ∉ cs) (rest : List Char) :
    pieces separator (cs ++ separator :: rest) = cs :: pieces separator rest := by
  rw [pieces_append_cons, pieces_of_not_mem absent, List.singleton_append]

theorem join_cons (between cs next : List Char) (others : List (List Char)) :
    join between (cs :: next :: others) = cs ++ (between ++ join between (next :: others)) := by
  rw [join, List.append_assoc]
  exact List.cons_ne_nil _ _

theorem pieces_join (nonempty : parts ≠ []) (absent : ∀ part ∈ parts, separator ∉ part) :
    pieces separator (join [separator] parts) = parts := by
  induction parts with
  | nil => exact absurd rfl nonempty
  | cons part rest ih =>
    have first := absent part List.mem_cons_self
    cases rest with
    | nil => exact pieces_of_not_mem first
    | cons next more =>
      have later := ih (List.cons_ne_nil _ _) fun other member =>
        absent other (List.mem_cons_of_mem _ member)
      rw [join_cons, List.singleton_append, pieces_append first, later]

theorem mem_join {c : Char} (member : c ∈ join [separator] parts) :
    c = separator ∨ ∃ part ∈ parts, c ∈ part := by
  induction parts with
  | nil => cases member
  | cons part rest ih =>
    cases rest with
    | nil => exact .inr ⟨part, List.mem_cons_self, member⟩
    | cons next more =>
      rw [join_cons, List.singleton_append, List.mem_append, List.mem_cons] at member
      rcases member with here | rfl | later
      · exact .inr ⟨part, List.mem_cons_self, here⟩
      · exact .inl rfl
      · refine (ih later).imp_right ?_
        rintro ⟨other, inRest, found⟩
        exact ⟨other, List.mem_cons_of_mem _ inRest, found⟩

theorem filter_join (absent : ∀ part ∈ parts, separator ∉ part) :
    (join [separator] parts).filter (· ≠ separator) = parts.flatten := by
  induction parts with
  | nil => rfl
  | cons part rest ih =>
    have first : part.filter (· ≠ separator) = part :=
      List.filter_eq_self.mpr (ne_of_mem (absent part List.mem_cons_self))
    cases rest with
    | nil => simpa [join] using first
    | cons next more =>
      have later := ih fun other member => absent other (List.mem_cons_of_mem _ member)
      rw [join_cons, List.singleton_append, List.filter_append, first,
        List.filter_cons_of_neg (by simp), later, ← List.flatten_cons]

theorem infix_join {part : List Char} (member : part ∈ parts) : part <:+: join [separator] parts := by
  induction parts with
  | nil => cases member
  | cons first rest ih =>
    cases rest with
    | nil => exact List.mem_singleton.mp member ▸ List.infix_rfl
    | cons next more =>
      rw [join_cons]
      rcases List.mem_cons.mp member with rfl | inRest
      · exact (List.prefix_append _ _).isInfix
      · exact (ih inRest).trans
          ((List.suffix_append _ _).trans (List.suffix_append _ _)).isInfix

theorem infix_of_mem_pieces {piece : List Char} (member : piece ∈ pieces separator cs) :
    piece <:+: cs := by
  have inJoin : piece <:+: join [separator] (pieces separator cs) := infix_join member
  rwa [join_pieces] at inJoin

end Telemetry.Text
