import PipingAssembly.Part.Codec
import PipingAssembly.Proofs.Json.Numbers

/-!
# The JSON form of a value

In JSON a number that is not finite is null. So the JSON form of a value that has no null of its own
is the value itself exactly if all its numbers are finite.
-/

namespace PipingAssembly.Value

mutual

/-- The value with null for every number that is not finite. -/
def json : Value → Value
  | real x => if Decimal.isFinite x then real x else null
  | list items => list (jsonItems items)
  | object fields => object (jsonFields fields)
  | v => v

/-- Items in their JSON form. -/
def jsonItems : List Value → List Value
  | [] => []
  | v :: vs => json v :: jsonItems vs

/-- Fields in their JSON form. -/
def jsonFields : List (String × Value) → List (String × Value)
  | [] => []
  | (key, v) :: rest => (key, json v) :: jsonFields rest

end

mutual

/-- Whether a value is null or has null in it. -/
def hasNull : Value → Bool
  | null => true
  | list items => itemsHaveNull items
  | object fields => fieldsHaveNull fields
  | _ => false

/-- Whether null stands in items. -/
def itemsHaveNull : List Value → Bool
  | [] => false
  | v :: vs => hasNull v || itemsHaveNull vs

/-- Whether null stands in fields. -/
def fieldsHaveNull : List (String × Value) → Bool
  | [] => false
  | (_, v) :: rest => hasNull v || fieldsHaveNull rest

end

mutual

/-- The JSON text of a value is the text of its JSON form. -/
theorem compact_json : ∀ v : Value, Json.compact v.json = Json.compact v
  | .real x => by
    rw [json]
    split
    · rfl
    · next h =>
      rw [Json.compact, Json.compact, Json.realText_of_isFinite_eq_false (by simpa using h)]
  | .list items => by rw [json, Json.compact, Json.compact, compactItems_json items]
  | .object fields => by rw [json, Json.compact, Json.compact, compactFields_json fields]
  | .null | .bool _ | .int _ | .text _ | .plain _ | .openList _ | .tagged _ _ | .keyedByNodes => rfl

theorem compactItems_json : ∀ items : List Value,
    Json.compactItems (jsonItems items) = Json.compactItems items
  | [] => rfl
  | [v] => compact_json v
  | v :: w :: vs => by
    show Json.compact v.json ++ "," ++ Json.compactItems (jsonItems (w :: vs)) =
      Json.compact v ++ "," ++ Json.compactItems (w :: vs)
    rw [compact_json v, compactItems_json (w :: vs)]

theorem compactFields_json : ∀ fields : Fields,
    Json.compactFields (jsonFields fields) = Json.compactFields fields
  | [] => rfl
  | [(key, v)] => congrArg (Json.quote key ++ ":" ++ ·) (compact_json v)
  | (key, v) :: (key', w) :: rest => by
    show Json.quote key ++ ":" ++ Json.compact v.json ++ "," ++
        Json.compactFields (jsonFields ((key', w) :: rest)) =
      Json.quote key ++ ":" ++ Json.compact v ++ "," ++ Json.compactFields ((key', w) :: rest)
    rw [compact_json v, compactFields_json ((key', w) :: rest)]

end

/-- Whether nothing in the JSON form of a value is null. -/
def NullFree (v : Value) : Prop := hasNull (json v) = false

@[simp]
theorem nullFree_text (s : String) : NullFree (.text s) := rfl

@[simp]
theorem nullFree_int (n : Int) : NullFree (.int n) := rfl

@[simp]
theorem nullFree_bool (b : Bool) : NullFree (.bool b) := rfl

@[simp]
theorem nullFree_ofUInt32 (n : UInt32) : NullFree (.ofUInt32 n) := rfl

@[simp]
theorem nullFree_real {x : Float} : NullFree (.real x) ↔ Decimal.isFinite x = true := by
  rw [NullFree, json]
  cases Decimal.isFinite x <;> simp [hasNull]

theorem nullFree_list {items : List Value} :
    NullFree (.list items) ↔ ∀ v ∈ items, NullFree v := by
  rw [NullFree, json, hasNull]
  induction items with
  | nil => simp [jsonItems, itemsHaveNull]
  | cons v vs ih =>
    rw [jsonItems, itemsHaveNull, Bool.or_eq_false_iff, List.forall_mem_cons, ih]
    rfl

theorem nullFree_object {fields : Fields} :
    NullFree (.object fields) ↔ ∀ f ∈ fields, NullFree f.2 := by
  rw [NullFree, json, hasNull]
  induction fields with
  | nil => simp [jsonFields, fieldsHaveNull]
  | cons f fields ih =>
    rw [jsonFields, fieldsHaveNull, Bool.or_eq_false_iff, List.forall_mem_cons, ih]
    rfl

mutual

/-- Where no number has become null the JSON form is the value itself. -/
theorem json_eq_self : ∀ {v : Value}, NullFree v → json v = v
  | .real x, h => by rw [json, if_pos (nullFree_real.mp h)]
  | .list items, h => congrArg list (jsonItems_eq_self (nullFree_list.mp h))
  | .object fields, h => congrArg object (jsonFields_eq_self (nullFree_object.mp h))
  | .null, _ | .bool _, _ | .int _, _ | .text _, _ | .plain _, _ | .openList _, _
  | .tagged _ _, _ | .keyedByNodes, _ => rfl

theorem jsonItems_eq_self : ∀ {items : List Value},
    (∀ v ∈ items, NullFree v) → jsonItems items = items
  | [], _ => rfl
  | _ :: _, h => by
    obtain ⟨hv, hvs⟩ := List.forall_mem_cons.mp h
    rw [jsonItems, json_eq_self hv, jsonItems_eq_self hvs]

theorem jsonFields_eq_self : ∀ {fields : Fields},
    (∀ f ∈ fields, NullFree f.2) → jsonFields fields = fields
  | [], _ => rfl
  | (_, _) :: _, h => by
    obtain ⟨hv, hrest⟩ := List.forall_mem_cons.mp h
    rw [jsonFields, json_eq_self hv, jsonFields_eq_self hrest]

end

end PipingAssembly.Value
