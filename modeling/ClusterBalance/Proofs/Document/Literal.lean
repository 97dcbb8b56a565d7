import ClusterBalance.Document.Literal
import ClusterBalance.Proofs.Chain

/-! Which values have a literal text. Main statement: those that nest no deeper than a literal may
and whose whole numbers have few enough digits; what a value is refused for is there. How deep a
literal may nest is left open. -/

namespace ClusterBalance.Document

mutual

/-- How many levels of values a value nests, the innermost one included. -/
def nesting : Document → Nat
  | list items => itemNesting items + 1
  | object fields => fieldNesting fields + 1
  | _ => 1

/-- The levels of the items of a list. -/
def itemNesting : List Document → Nat
  | [] => 0
  | item :: rest => max (nesting item) (itemNesting rest)

/-- The levels of the values of the fields of an object. -/
def fieldNesting : List (LooseText × Document) → Nat
  | [] => 0
  | (_, value) :: rest => max (nesting value) (fieldNesting rest)

end

mutual

/-- The whole numbers in a value. -/
def wholes : Document → List Int
  | int n => [n]
  | list items => itemWholes items
  | object fields => fieldWholes fields
  | _ => []

/-- The whole numbers in the items of a list. -/
def itemWholes : List Document → List Int
  | [] => []
  | item :: rest => wholes item ++ itemWholes rest

/-- The whole numbers in the values of the fields of an object. -/
def fieldWholes : List (LooseText × Document) → List Int
  | [] => []
  | (_, value) :: rest => wholes value ++ fieldWholes rest

end

/-- The conditions under which a value has a literal text. -/
structure HasLiteral [Limits] (value : Document) : Prop where
  nesting : value.nesting ≤ Limits.literalDepth + 1
  wholes : ∀ n ∈ value.wholes, n.natAbs < digitLimit

theorem wholeText?_eq_error_iff {n : Int} {e : LiteralError} :
    wholeText? n = .error e ↔ digitLimit ≤ n.natAbs ∧ e = .tooManyDigits := by
  rcases Nat.lt_or_ge n.natAbs digitLimit with h | h
  · simp [wholeText?_of_lt h, Nat.not_le.mpr h]
  · simp [wholeText?_of_le h, h, eq_comm]

theorem check_bind_eq_ok_iff {x y : Except LiteralError Unit} :
    (do x; y) = .ok () ↔ x = .ok () ∧ y = .ok () :=
  bind_eq_ok_iff.trans ⟨fun ⟨(), hx, hy⟩ => ⟨hx, hy⟩, fun ⟨hx, hy⟩ => ⟨(), hx, hy⟩⟩

theorem nesting_pos (value : Document) : 0 < value.nesting := by
  cases value <;> simp [nesting]

mutual

theorem checkLiteral_eq_ok_iff : ∀ (room : Nat) (value : Document),
    checkLiteral room value = .ok () ↔
      value.nesting ≤ room ∧ ∀ n ∈ value.wholes, n.natAbs < digitLimit
  | 0, value => by
    have hpos := nesting_pos value
    simp only [checkLiteral, reduceCtorEq, false_iff]
    omega
  | room + 1, list items => by
    simp only [checkLiteral, nesting, wholes, Nat.add_le_add_iff_right]
    exact checkItemLiterals_eq_ok_iff room items
  | room + 1, object fields => by
    simp only [checkLiteral, nesting, wholes, Nat.add_le_add_iff_right]
    exact checkFieldLiterals_eq_ok_iff room fields
  | room + 1, int n => by
    have hwhole : checkLiteral (room + 1) (int n) = .ok () ↔ n.natAbs < digitLimit := by
      unfold checkLiteral wholeText?
      split
      next h => exact iff_of_true rfl h
      next h => exact iff_of_false nofun h
    rw [hwhole]
    simp [nesting, wholes]
  | room + 1, null | room + 1, bool _ | room + 1, float _ | room + 1, string _
  | room + 1, moment _ => by
    simp [checkLiteral, nesting, wholes]

theorem checkItemLiterals_eq_ok_iff : ∀ (room : Nat) (items : List Document),
    checkItemLiterals room items = .ok () ↔
      itemNesting items ≤ room ∧ ∀ n ∈ itemWholes items, n.natAbs < digitLimit
  | room, [] => by simp [checkItemLiterals, itemNesting, itemWholes]
  | room, item :: rest => by
    have hitem := checkLiteral_eq_ok_iff room item
    have hrest := checkItemLiterals_eq_ok_iff room rest
    rw [checkItemLiterals, check_bind_eq_ok_iff, hitem, hrest, itemNesting, itemWholes,
      List.forall_mem_append, Nat.max_le, and_and_and_comm]

theorem checkFieldLiterals_eq_ok_iff : ∀ (room : Nat) (fields : List (LooseText × Document)),
    checkFieldLiterals room fields = .ok () ↔
      fieldNesting fields ≤ room ∧ ∀ n ∈ fieldWholes fields, n.natAbs < digitLimit
  | room, [] => by simp [checkFieldLiterals, fieldNesting, fieldWholes]
  | room, (_, value) :: rest => by
    have hvalue := checkLiteral_eq_ok_iff room value
    have hrest := checkFieldLiterals_eq_ok_iff room rest
    rw [checkFieldLiterals, check_bind_eq_ok_iff, hvalue, hrest, fieldNesting, fieldWholes,
      List.forall_mem_append, Nat.max_le, and_and_and_comm]

end

/-- What keeps a value from having a literal text: more levels than there is room for, or a whole
number of too many digits. -/
def LiteralError.Holds (room levels : Nat) (numbers : List Int) : LiteralError → Prop
  | tooDeep => room < levels
  | tooManyDigits => ∃ n ∈ numbers, digitLimit ≤ n.natAbs

theorem LiteralError.Holds.mono {room levels levels' : Nat} {numbers numbers' : List Int}
    {cause : LiteralError} (h : cause.Holds room levels numbers) (hlevels : levels ≤ levels')
    (hnumbers : numbers ⊆ numbers') : cause.Holds room levels' numbers' := by
  cases cause with
  | tooDeep => exact Nat.lt_of_lt_of_le h hlevels
  | tooManyDigits =>
    obtain ⟨n, hmem, hn⟩ := h
    exact ⟨n, hnumbers hmem, hn⟩

theorem LiteralError.Holds.succ {room levels : Nat} {numbers : List Int} {cause : LiteralError}
    (h : cause.Holds room levels numbers) : cause.Holds (room + 1) (levels + 1) numbers := by
  cases cause with
  | tooDeep => exact Nat.succ_lt_succ h
  | tooManyDigits => exact h

mutual

theorem holds_of_checkLiteral : ∀ (room : Nat) (value : Document) {cause : LiteralError},
    checkLiteral room value = .error cause → cause.Holds room value.nesting value.wholes
  | 0, value, _ => by
    rw [checkLiteral]
    intro h
    cases h
    exact nesting_pos value
  | room + 1, list items, _ => by
    rw [checkLiteral, nesting, wholes]
    intro h
    exact (holds_of_checkItemLiterals room items h).succ
  | room + 1, object fields, _ => by
    rw [checkLiteral, nesting, wholes]
    intro h
    exact (holds_of_checkFieldLiterals room fields h).succ
  | room + 1, int n, _ => by
    rw [checkLiteral, wholes]
    intro h
    unfold wholeText? at h
    split at h
    · cases h
    next hn =>
      cases h
      exact ⟨n, List.mem_singleton.mpr rfl, Nat.not_lt.mp hn⟩
  | _ + 1, null, _ | _ + 1, bool _, _ | _ + 1, float _, _ | _ + 1, string _, _
  | _ + 1, moment _, _ => nofun

theorem holds_of_checkItemLiterals : ∀ (room : Nat) (items : List Document) {cause : LiteralError},
    checkItemLiterals room items = .error cause →
      cause.Holds room (itemNesting items) (itemWholes items)
  | _, [], _ => nofun
  | room, item :: rest, _ => by
    intro h
    rw [itemNesting, itemWholes]
    rcases bind_eq_error_iff.mp h with h | ⟨-, -, h⟩
    · have hitem := holds_of_checkLiteral room item h
      exact hitem.mono (Nat.le_max_left ..) (List.subset_append_left ..)
    · have hrest := holds_of_checkItemLiterals room rest h
      exact hrest.mono (Nat.le_max_right ..) (List.subset_append_right ..)

theorem holds_of_checkFieldLiterals : ∀ (room : Nat) (fields : List (LooseText × Document))
    {cause : LiteralError}, checkFieldLiterals room fields = .error cause →
      cause.Holds room (fieldNesting fields) (fieldWholes fields)
  | _, [], _ => nofun
  | room, (_, value) :: rest, _ => by
    intro h
    rw [fieldNesting, fieldWholes]
    rcases bind_eq_error_iff.mp h with h | ⟨-, -, h⟩
    · have hvalue := holds_of_checkLiteral room value h
      exact hvalue.mono (Nat.le_max_left ..) (List.subset_append_left ..)
    · have hrest := holds_of_checkFieldLiterals room rest h
      exact hrest.mono (Nat.le_max_right ..) (List.subset_append_right ..)

end

section

variable [Limits] {value : Document} {cause : LiteralError}

theorem holds_of_literal? (h : value.literal? = .error cause) :
    cause.Holds (Limits.literalDepth + 1) value.nesting value.wholes := by
  rcases bind_eq_error_iff.mp h with h | ⟨-, -, h⟩
  · exact holds_of_checkLiteral (Limits.literalDepth + 1) value h
  · cases h

theorem holds_of_wording? (h : value.wording? = .error cause) :
    cause.Holds (Limits.literalDepth + 1) value.nesting value.wholes := by
  rcases bind_eq_error_iff.mp h with h | ⟨-, -, h⟩
  · exact holds_of_checkLiteral (Limits.literalDepth + 1) value h
  · cases h

end

/-- A value is a part of another: it nests no deeper and has no whole numbers of its own. -/
structure Inside (part whole : Document) : Prop where
  nesting : part.nesting ≤ whole.nesting
  wholes : part.wholes ⊆ whole.wholes

theorem Inside.refl (value : Document) : value.Inside value := ⟨Nat.le_refl _, List.Subset.refl _⟩

theorem Inside.trans {a b c : Document} (h : a.Inside b) (h' : b.Inside c) : a.Inside c :=
  ⟨Nat.le_trans h.nesting h'.nesting, List.Subset.trans h.wholes h'.wholes⟩

theorem inside_list {item : Document} {items : List Document} (h : item ∈ items) :
    item.Inside (list items) := by
  have hparts : item.nesting ≤ itemNesting items ∧ item.wholes ⊆ itemWholes items := by
    induction items with
    | nil => cases h
    | cons item' rest ih =>
      rw [itemNesting, itemWholes]
      rcases List.mem_cons.mp h with rfl | h
      · exact ⟨Nat.le_max_left .., List.subset_append_left ..⟩
      · exact ⟨Nat.le_trans (ih h).1 (Nat.le_max_right ..),
          List.Subset.trans (ih h).2 (List.subset_append_right ..)⟩
  constructor
  · rw [nesting]
    exact Nat.le_succ_of_le hparts.1
  · rw [wholes]
    exact hparts.2

theorem inside_object {field : LooseText × Document} {fields : List (LooseText × Document)}
    (h : field ∈ fields) : field.2.Inside (object fields) := by
  have hparts : field.2.nesting ≤ fieldNesting fields ∧ field.2.wholes ⊆ fieldWholes fields := by
    induction fields with
    | nil => cases h
    | cons field' rest ih =>
      obtain ⟨k, v⟩ := field'
      rw [fieldNesting, fieldWholes]
      rcases List.mem_cons.mp h with rfl | h
      · exact ⟨Nat.le_max_left .., List.subset_append_left ..⟩
      · exact ⟨Nat.le_trans (ih h).1 (Nat.le_max_right ..),
          List.Subset.trans (ih h).2 (List.subset_append_right ..)⟩
  constructor
  · rw [nesting]
    exact Nat.le_succ_of_le hparts.1
  · rw [wholes]
    exact hparts.2

theorem inside_of_find? {key : LooseText} {fields : List (LooseText × Document)}
    {value : Document} (h : find? key fields = some value) : value.Inside (object fields) := by
  obtain ⟨before, after, rfl, -⟩ := List.lookup_eq_some_iff.mp h
  exact @inside_object (key, value) _ (by simp)

/-- What a field holds is a part of the object, or a default that has no parts. -/
theorem inside_findD {key : LooseText} {default : Document} {fields : List (LooseText × Document)}
    (hnesting : default.nesting = 1) (hwholes : default.wholes = []) :
    (findD key default fields).Inside (object fields) := by
  unfold findD
  cases hvalue : find? key fields with
  | none => exact ⟨hnesting ▸ nesting_pos (object fields), by simp [hwholes]⟩
  | some value => exact inside_of_find? hvalue

theorem exists_wording?_eq_ok_iff [Limits] {value : Document} :
    (∃ text, value.wording? = .ok text) ↔ value.HasLiteral := by
  constructor
  · rintro ⟨text, h⟩
    obtain ⟨⟨⟩, hcheck, -⟩ := bind_eq_ok_iff.mp h
    obtain ⟨hnesting, hwholes⟩ := (checkLiteral_eq_ok_iff ..).mp hcheck
    exact ⟨hnesting, hwholes⟩
  · rintro ⟨hnesting, hwholes⟩
    have hcheck := (checkLiteral_eq_ok_iff ..).mpr ⟨hnesting, hwholes⟩
    exact ⟨value.wording, bind_eq_ok_iff.mpr ⟨(), hcheck, rfl⟩⟩

theorem eq_wording_of_wording? [Limits] {value : Document} {text : LooseText}
    (h : value.wording? = .ok text) : text = value.wording := by
  obtain ⟨_, -, h⟩ := bind_eq_ok_iff.mp h
  exact (Except.ok.inj h).symm

end ClusterBalance.Document
