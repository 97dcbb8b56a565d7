import ClusterBalance.Proofs.Constraint.Values
import ClusterBalance.Proofs.Snapshot.Vector

/-! Values that items give to resources one after the other. Main statement: they are collected
exactly if every item gives one, and of those for one resource the last item's counts. -/

namespace ClusterBalance.Constraint

variable {α ε : Type} {Says : α → Resource → Float → Prop} {items : List α} {r : Resource}
  {x y : Float}

/-- No item says a value of a resource. -/
def Unsaid (Says : α → Resource → Float → Prop) (items : List α) (r : Resource) : Prop :=
  ∀ item ∈ items, ∀ x, ¬Says item r x

/-- Of the items that say a value of a resource the last says this one. -/
inductive Last (Says : α → Resource → Float → Prop) : List α → Resource → Float → Prop
  | here (item : α) (rest : List α) (r : Resource) (x : Float) (h : Says item r x)
      (hrest : Unsaid Says rest r) : Last Says (item :: rest) r x
  | later (item : α) (rest : List α) (r : Resource) (x : Float) (h : Last Says rest r x) :
      Last Says (item :: rest) r x

theorem Last.not_unsaid (h : Last Says items r x) : ¬Unsaid Says items r := by
  induction h with
  | here item rest r x h hrest => exact fun hunsaid => hunsaid item List.mem_cons_self x h
  | later item rest r x _ ih =>
    exact fun hunsaid => ih fun item' hmem => hunsaid item' (List.mem_cons_of_mem _ hmem)

/-- Collects values by resource. -/
def collect (read : α → Except ε (Resource × Float)) (items : List α)
    (values : PerResource (Option Float)) : Except ε (PerResource (Option Float)) :=
  items.foldlM
    (fun values item => do
      let (r, x) ← read item
      return values.set r (some x))
    values

variable {read : α → Except ε (Resource × Float)} {v w : PerResource (Option Float)}

theorem collect_cons_eq_ok_iff {item : α} {rest : List α} :
    collect read (item :: rest) v = .ok w ↔
      ∃ r x, read item = .ok (r, x) ∧ collect read rest (v.set r (some x)) = .ok w := by
  rw [collect, List.foldlM_cons]
  cases read item with
  | error e => exact ⟨nofun, fun ⟨_, _, h, _⟩ => nomatch h⟩
  | ok pair =>
    obtain ⟨r, x⟩ := pair
    refine ⟨fun h => ⟨r, x, rfl, h⟩, ?_⟩
    rintro ⟨_, _, ⟨⟩, h⟩
    exact h

section

variable (hread : ∀ item r x, read item = .ok (r, x) ↔ Says item r x)
include hread

theorem exists_collect_iff :
    (∃ w, collect read items v = .ok w) ↔ ∀ item ∈ items, ∃ r x, Says item r x := by
  induction items generalizing v with
  | nil => exact ⟨fun _ => nofun, fun _ => ⟨v, rfl⟩⟩
  | cons item rest ih =>
    simp only [collect_cons_eq_ok_iff, List.forall_mem_cons, hread]
    constructor
    · rintro ⟨w, r, x, hitem, h⟩
      exact ⟨⟨r, x, hitem⟩, ih.mp ⟨w, h⟩⟩
    · rintro ⟨⟨r, x, hitem⟩, hrest⟩
      obtain ⟨w, h⟩ := ih.mpr hrest
      exact ⟨w, r, x, hitem, h⟩

/-- By induction on the items: what is said later replaces what is said before. -/
theorem get_collect (h : collect read items v = .ok w) (r : Resource) :
    (∃ x, Last Says items r x ∧ w.get r = some x) ∨
      Unsaid Says items r ∧ w.get r = v.get r := by
  induction items generalizing v with
  | nil =>
    cases h
    exact .inr ⟨nofun, rfl⟩
  | cons item rest ih =>
    obtain ⟨r', x', hitem, h⟩ := collect_cons_eq_ok_iff.mp h
    rcases ih h with ⟨x, hlast, hx⟩ | ⟨hunsaid, hget⟩
    · exact .inl ⟨x, .later item rest r x hlast, hx⟩
    rw [PerResource.get_set] at hget
    split at hget
    next heq =>
      subst heq
      exact .inl ⟨x', .here item rest r x' ((hread _ _ _).mp hitem) hunsaid, hget⟩
    next hne =>
      refine .inr ⟨List.forall_mem_cons.mpr ⟨fun x hx => hne ?_, hunsaid⟩, hget⟩
      cases ((hread _ _ _).mpr hx).symm.trans hitem
      rfl

/-- What the last item says is determined. -/
theorem Last.unique (h : Last Says items r x) (h' : Last Says items r y) : x = y := by
  induction h with
  | here item rest r x h hrest =>
    cases h' with
    | here _ _ _ _ h' =>
      cases ((hread _ _ _).mpr h).symm.trans ((hread _ _ _).mpr h')
      rfl
    | later _ _ _ _ h' => exact absurd hrest h'.not_unsaid
  | later item rest r x h ih =>
    cases h' with
    | here _ _ _ _ _ hrest => exact absurd hrest h.not_unsaid
    | later _ _ _ _ h' => exact ih h'

/-- From no values on, a value is collected exactly if the last item says it. -/
theorem get_collect_eq_some_iff (h : collect read items (.replicate none) = .ok w) :
    w.get r = some x ↔ Last Says items r x := by
  rcases get_collect hread h r with ⟨y, hlast, hy⟩ | ⟨hunsaid, hget⟩
  · rw [hy]
    refine ⟨?_, fun hx => by rw [hlast.unique hread hx]⟩
    rintro ⟨⟩
    exact hlast
  · rw [hget, PerResource.replicate, PerResource.get_ofFn]
    exact iff_of_false nofun fun hlast => hlast.not_unsaid hunsaid

theorem get_collect_eq_none_iff (h : collect read items (.replicate none) = .ok w) :
    w.get r = none ↔ Unsaid Says items r := by
  rcases get_collect hread h r with ⟨y, hlast, hy⟩ | ⟨hunsaid, hget⟩
  · rw [hy]
    exact iff_of_false nofun hlast.not_unsaid
  · rw [hget, PerResource.replicate, PerResource.get_ofFn]
    exact iff_of_true rfl hunsaid

end

section Documents

/-- The key of a part in a document. -/
def Part.key : Part → String
  | percentage => percentageKey
  | threshold => thresholdKey

/-- What a field says: its key names a resource, and its value stands for a number. -/
def Sets (field : LooseText × Document) (r : Resource) (x : Float) : Prop :=
  Snapshot.Names field.1 r ∧ Snapshot.Denotes field.2 x

/-- The resource and the value of one field of a part. -/
def readField (part : String) : LooseText × Document → Except Refusal (Resource × Float)
  | (key, value) =>
    match value.number with
    | .notNumeric => .error (.notNumeric part key value)
    | .tooLarge => .error .tooLarge
    | .number x => do return (← resourceNamed key, x)

theorem resourceNamed_eq_ok_iff {name : LooseText} :
    resourceNamed name = .ok r ↔ Snapshot.Names name r := by
  unfold resourceNamed Snapshot.Names
  cases name.sound?.bind Resource.ofName? <;> simp

theorem readField_eq_ok_iff (part : String) (field : LooseText × Document) (r : Resource)
    (x : Float) : readField part field = .ok (r, x) ↔ Sets field r x := by
  obtain ⟨key, value⟩ := field
  simp only [Sets, ← Snapshot.number_eq_iff, ← resourceNamed_eq_ok_iff, readField]
  cases value.number with
  | notNumeric => simp
  | tooLarge => simp
  | number y => cases resourceNamed key <;> simp [bind, Except.bind, pure, Except.pure]

theorem readPart_object (part : String) (fields : List (LooseText × Document)) :
    readPart part (.object fields) = collect (readField part) fields (.replicate none) := by
  have hstep : (fun (values : PerResource (Option Float)) ((key, value) : LooseText × Document) =>
      match value.number with
        | .notNumeric => .error (.notNumeric part key value)
        | .tooLarge => .error .tooLarge
        | .number x => do return values.set (← resourceNamed key) (some x)) =
      fun values field => do
        let (r, x) ← readField part field
        return values.set r (some x) := by
    funext values field
    obtain ⟨key, value⟩ := field
    simp only [readField]
    cases value.number with
    | notNumeric => rfl
    | tooLarge => rfl
    | number y => cases resourceNamed key <;> rfl
  exact congrArg (List.foldlM · (.replicate none) fields) hstep

/-- Overrides that are collected from some items for each part. -/
structure Collected (Says : α → Resource → Float → Prop) (items : Part → List α)
    (news : Overrides Float) : Prop where
  said : ∀ p r x, news.given p r = some x ↔ Last Says (items p) r x
  unsaid : ∀ p r, news.given p r = none ↔ Unsaid Says (items p) r

theorem collected_of_collect {read : Part → α → Except ε (Resource × Float)}
    {items : Part → List α} {news : Overrides Float}
    (hread : ∀ p item r x, read p item = .ok (r, x) ↔ Says item r x)
    (h : ∀ p, collect (read p) (items p) (.replicate none) = .ok (news.part p)) :
    Collected Says items news :=
  ⟨fun p _ _ => get_collect_eq_some_iff (hread p) (h p),
    fun p _ => get_collect_eq_none_iff (hread p) (h p)⟩

/-- The fields of a table. -/
def entriesOf : Option Document → List (LooseText × Document)
  | some (.object fields) => fields
  | _ => []

/-- The fields of a part in the table of a constraint. -/
def fieldsOf (table : Option Document) (p : Part) : List (LooseText × Document) :=
  entriesOf (table.bind (Snapshot.fieldOf? p.key))

theorem readPart_getD {part : String} {table : Option Document}
    {values : PerResource (Option Float)}
    (h : readPart part (table.getD (.object [])) = .ok values) :
    collect (readField part) (entriesOf table) (.replicate none) = .ok values := by
  cases table with
  | none => exact (readPart_object ..).symm.trans h
  | some value =>
    cases value with
    | object fields => exact (readPart_object ..).symm.trans h
    | _ => cases h

theorem ofDocument_object_iff_parts {fields : List (LooseText × Document)}
    {c : Constraint Float} : ofDocument (.object fields) = .ok c ↔
      ∃ news : Overrides Float,
        (∀ p : Part, readPart p.key ((Document.find? p.key fields).getD (.object [])) =
          .ok (news.part p)) ∧ default.override news = .ok c := by
  constructor
  · intro h
    obtain ⟨percentage, hpercentage, h⟩ := bind_eq_ok_iff.mp h
    obtain ⟨threshold, hthreshold, h⟩ := bind_eq_ok_iff.mp h
    refine ⟨⟨percentage, threshold⟩, fun p => ?_, h⟩
    cases p with
    | percentage => exact hpercentage
    | threshold => exact hthreshold
  · rintro ⟨news, hparts, h⟩
    refine bind_eq_ok_iff.mpr ⟨news.percentage, hparts .percentage, ?_⟩
    exact bind_eq_ok_iff.mpr ⟨news.threshold, hparts .threshold, h⟩

theorem collected_of_readPart {fields : List (LooseText × Document)} {news : Overrides Float}
    (h : ∀ p : Part, readPart p.key ((Document.find? p.key fields).getD (.object [])) =
      .ok (news.part p)) :
    Collected Sets (fieldsOf (some (.object fields))) news :=
  collected_of_collect (fun p => readField_eq_ok_iff p.key) fun p => readPart_getD (h p)

/-- A constraint that is read has the values that are said for it, and for the rest the defaults. -/
theorem exists_collected_of_ofDocument {fields : List (LooseText × Document)}
    {c : Constraint Float} (h : ofDocument (.object fields) = .ok c) :
    ∃ news, Collected Sets (fieldsOf (some (.object fields))) news ∧
      ∀ p r, c.value p r = (news.given p r).getD (default.value p r) := by
  obtain ⟨news, hparts, h⟩ := ofDocument_object_iff_parts.mp h
  exact ⟨news, collected_of_readPart hparts, (override_eq_ok_iff.mp h).2⟩

end Documents

end ClusterBalance.Constraint
