import Telemetry.Value.Fields

/-! How deep values nest: a value counts as one level, a list, a tuple or an object as one more than
its deepest part. -/

namespace Telemetry.Value

mutual
def depth : Value → Nat
  | .list items | .tuple items => itemsDepth items + 1
  | .object fields => fieldsDepth fields + 1
  | _ => 1
def itemsDepth : List Value → Nat
  | [] => 0
  | item :: rest => max (depth item) (itemsDepth rest)
def fieldsDepth : List (String × Value) → Nat
  | [] => 0
  | (_, item) :: rest => max (depth item) (fieldsDepth rest)
end

variable {n : Nat}

theorem depth_pos (v : Value) : 0 < v.depth := by
  cases v <;> simp [depth]

theorem itemsDepth_le_iff {items : List Value} :
    itemsDepth items ≤ n ↔ ∀ item ∈ items, item.depth ≤ n := by
  induction items with
  | nil => simp [itemsDepth]
  | cons item rest ih => rw [itemsDepth, Nat.max_le, ih, List.forall_mem_cons]

theorem fieldsDepth_le_iff {fields : List (String × Value)} :
    fieldsDepth fields ≤ n ↔ ∀ field ∈ fields, field.2.depth ≤ n := by
  induction fields with
  | nil => simp [fieldsDepth]
  | cons field rest ih => rw [fieldsDepth, Nat.max_le, ih, List.forall_mem_cons]

end Telemetry.Value
