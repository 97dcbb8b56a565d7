import ClusterBalance.Proofs.Document.Json.RoundTrip
import ClusterBalance.Proofs.Document.Within

/-! What becomes of floats that are not finite when a document is written: null stands for them.
Main statement: the text of a document is read as the document with null in their places, and as the
document itself exactly if its values fit the reader. -/

namespace ClusterBalance.Document

mutual

/-- A document with null in the place of each float that is not finite. -/
def masked : Document → Document
  | float x => if x.isFinite then float x else null
  | list items => list (itemsMasked items)
  | object fields => object (fieldsMasked fields)
  | null => null
  | bool b => bool b
  | int n => int n
  | string s => string s
  | moment m => moment m

/-- Items with null in the places of floats that are not finite. -/
def itemsMasked : List Document → List Document
  | [] => []
  | item :: rest => item.masked :: itemsMasked rest

/-- Fields with null in the places of floats that are not finite. -/
def fieldsMasked : List (LooseText × Document) → List (LooseText × Document)
  | [] => []
  | (key, value) :: rest => (key, value.masked) :: fieldsMasked rest

end

theorem fieldsMasked_eq_map (fields : List (LooseText × Document)) :
    fieldsMasked fields = fields.map fun field => (field.1, field.2.masked) := by
  induction fields with
  | nil => rfl
  | cons field rest ih => rw [fieldsMasked, ih, List.map_cons]

theorem fieldsAll_iff {p : Document → Prop} {fields : List (LooseText × Document)} :
    FieldsAll p fields ↔ ∀ field ∈ fields, field.2.All p := by
  induction fields with
  | nil => exact iff_of_true trivial nofun
  | cons field rest ih => rw [FieldsAll, ih, List.forall_mem_cons]

namespace Json

mutual

theorem masked_of_fits : ∀ document : Document, document.All (Fits strict) →
    document.masked = document
  | float x, h => by
    have hfinite : x.isFinite = true := h rfl
    rw [masked, if_pos hfinite]
  | list items, h => by rw [masked, itemsMasked_of_fits items h]
  | object fields, h => by rw [masked, fieldsMasked_of_fits fields h]
  | null, _ | bool _, _ | int _, _ | string _, _ | moment _, _ => by rw [masked]

theorem itemsMasked_of_fits : ∀ items : List Document, ItemsAll (Fits strict) items →
    itemsMasked items = items
  | [], _ => by rw [itemsMasked]
  | item :: rest, h => by
    rw [itemsMasked, masked_of_fits item h.1, itemsMasked_of_fits rest h.2]

theorem fieldsMasked_of_fits : ∀ fields : List (LooseText × Document),
    FieldsAll (Fits strict) fields → fieldsMasked fields = fields
  | [], _ => by rw [fieldsMasked]
  | (_, value) :: rest, h => by
    rw [fieldsMasked, masked_of_fits value h.1, fieldsMasked_of_fits rest h.2]

end

mutual

/-- Nothing shows in the text of a document where a float is not finite. -/
theorem text_masked (spacing : Spacing) : ∀ document : Document,
    text spacing document.masked = text spacing document
  | float x => by
    rw [masked, text]
    split
    next => rw [text]
    next h => rw [text, floatText, if_neg h]
  | list items => by rw [masked, text, text, itemTexts_masked spacing.inner items]
  | object fields => by rw [masked, text, text, fieldTexts_masked spacing.inner fields]
  | null | bool _ | int _ | string _ | moment _ => by rw [masked]

theorem itemTexts_masked (spacing : Spacing) : ∀ items : List Document,
    itemTexts spacing (itemsMasked items) = itemTexts spacing items
  | [] => by rw [itemsMasked]
  | item :: rest => by
    rw [itemsMasked, itemTexts, itemTexts, text_masked spacing item, itemTexts_masked spacing rest]

theorem fieldTexts_masked (spacing : Spacing) : ∀ fields : List (LooseText × Document),
    fieldTexts spacing (fieldsMasked fields) = fieldTexts spacing fields
  | [] => by rw [fieldsMasked]
  | (_, value) :: rest => by
    rw [fieldsMasked, fieldTexts, fieldTexts, text_masked spacing value,
      fieldTexts_masked spacing rest]

end

mutual

/-- Nothing that can be written is lost where a float is not finite. -/
theorem check_masked (room : Nat) : ∀ document : Document,
    check room document.masked = check room document
  | float x => by
    rw [masked]
    split <;> rfl
  | list items => by
    rw [masked, check, check]
    exact congrArg _ (funext fun room => checkItems_masked room items)
  | object fields => by
    rw [masked, check, check]
    exact congrArg _ (funext fun room => checkFields_masked room fields)
  | null | bool _ | int _ | string _ | moment _ => by rw [masked]

theorem checkItems_masked (room : Nat) : ∀ items : List Document,
    checkItems room (itemsMasked items) = checkItems room items
  | [] => by rw [itemsMasked]
  | item :: rest => by
    rw [itemsMasked, checkItems, checkItems, check_masked room item, checkItems_masked room rest]

theorem checkFields_masked (room : Nat) : ∀ fields : List (LooseText × Document),
    checkFields room (fieldsMasked fields) = checkFields room fields
  | [] => by rw [fieldsMasked]
  | (_, value) :: rest => by
    rw [fieldsMasked, checkFields, checkFields, check_masked room value,
      checkFields_masked room rest]

end

end Json

section Writable

variable {room : Nat}

theorem writable_masked_int {n : Int} (h : Json.wordRange.1 ≤ n ∧ n ≤ Json.wordRange.2) :
    (int n).masked.Writable room := by
  rw [masked]
  exact writable_int h

theorem writable_masked_float (x : Float) : (float x).masked.Writable room := by
  rw [masked]
  split
  next h => exact writable_float h
  next => exact ⟨rfl, trivial⟩

theorem writable_masked_object {fields : List (LooseText × Document)}
    (hkeys : (fields.map (·.1)).Nodup)
    (h : ∀ field ∈ fields, Json.checkText field.1 = .ok () ∧ field.2.masked.Writable room) :
    (object fields).masked.Writable (room + 1) := by
  rw [masked, fieldsMasked_eq_map]
  refine writable_object (by rwa [List.map_map]) (List.forall_mem_map.mpr h)

end Writable

namespace Json

variable {document : Document}

theorem write?_of_masked (h : document.masked.Writable writtenDepth) (spacing : Spacing) :
    write? spacing document = .ok (text spacing document) := by
  rw [write?, ← check_masked, h.check]
  rfl

/-- The text of a document is read with null in the places of floats that are not finite. -/
theorem read?_text_masked (h : document.masked.Writable writtenDepth) (spacing : Spacing) :
    read? strict (text spacing document) = some document.masked := by
  rw [← text_masked, read?, read_text h]
  rfl

/-- The text of a document is read as this document exactly if its values fit the reader. -/
theorem read?_text_iff (h : document.All (Fits strict) → document.masked.Writable writtenDepth)
    (spacing : Spacing) :
    read? strict (text spacing document) = some document ↔ document.All (Fits strict) := by
  refine ⟨fun hread => fits_read (read_of_read? hread), fun hfits => ?_⟩
  rw [read?_text_masked (h hfits), masked_of_fits document hfits]

end Json

end ClusterBalance.Document
