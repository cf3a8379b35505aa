import Telemetry.Value

/-!
Lists of named fields as finite maps in insertion order: a new name goes to the end, a name that
is present keeps its place and takes the later value. The main statements say what a list holds
under a name after each operation.
-/

namespace Telemetry

variable {α : Type}

namespace FieldList

def get? : FieldList α → String → Option α
  | [], _ => none
  | (key, item) :: rest, name => if key = name then some item else get? rest name

def has (fields : FieldList α) (name : String) : Bool :=
  (get? fields name).isSome

def names (fields : FieldList α) : List String :=
  fields.map Prod.fst

def insert : FieldList α → String → α → FieldList α
  | [], name, item => [(name, item)]
  | (key, old) :: rest, name, item =>
    if key = name then (key, item) :: rest else (key, old) :: insert rest name item

/-- The first list updated with the fields of the second in turn. -/
def merge (fields update : FieldList α) : FieldList α :=
  update.foldl (fun acc field => insert acc field.1 field.2) fields

def ofList (pairs : List (String × α)) : FieldList α :=
  merge [] pairs

def erase (fields : FieldList α) (name : String) : FieldList α :=
  fields.filter fun field => field.1 ≠ name

/-! ### What a list holds -/

variable {fields : FieldList α} {name other : String} {item : α}

@[simp] theorem get?_nil : get? ([] : FieldList α) name = none := rfl

theorem get?_cons (field : String × α) (rest : FieldList α) (name : String) :
    get? (field :: rest) name = if field.1 = name then some field.2 else get? rest name := rfl

@[simp] theorem get?_insert_same : get? (insert fields name item) name = some item := by
  induction fields with
  | nil => simp [insert, get?_cons]
  | cons field rest ih => by_cases h : field.1 = name <;> simp [insert, get?_cons, h, ih]

theorem get?_insert_of_ne (h : name ≠ other) :
    get? (insert fields name item) other = get? fields other := by
  induction fields with
  | nil => simp [insert, get?_cons, h]
  | cons field rest ih =>
    by_cases same : field.1 = name
    · simp [insert, get?_cons, same, h]
    · simp [insert, get?_cons, same, ih]

@[simp] theorem get?_erase_same : get? (erase fields name) name = none := by
  induction fields with
  | nil => rfl
  | cons field rest ih =>
    by_cases h : field.1 = name
    · simpa [erase, h] using ih
    · simpa [erase, h, get?_cons] using ih

theorem get?_erase_of_ne (h : name ≠ other) :
    get? (erase fields name) other = get? fields other := by
  induction fields with
  | nil => rfl
  | cons field rest ih =>
    by_cases same : field.1 = name
    · simpa [erase, same, get?_cons, h] using ih
    · simpa [erase, same, get?_cons] using congrArg (if field.1 = other then some field.2 else ·) ih

/-- A new name goes to the end. -/
theorem insert_of_get?_eq_none (h : get? fields name = none) :
    insert fields name item = fields ++ [(name, item)] := by
  induction fields with
  | nil => rfl
  | cons field rest ih =>
    by_cases same : field.1 = name
    · simp [get?_cons, same] at h
    · simpa [insert, same] using ih (by simpa [get?_cons, same] using h)

end FieldList

namespace Value

/-- The value under a name of an object, nothing if there is none. -/
def fieldOrNull (fields : List (String × Value)) (name : String) : Value :=
  (FieldList.get? fields name).getD .null

end Value

end Telemetry
