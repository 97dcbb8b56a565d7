import ClusterBalance.Fault
import ClusterBalance.Proofs.Constraint.Collected

/-! What settings demand of the values in a document, one after the other. Main statement: settings
are refused for the first demand that is not met, or for a constraint whose values are not admitted;
a refusal is that of an invalid value except where a value is too large for a double or nests too
deep to be quoted. -/

namespace ClusterBalance.Settings

open Document Constraint

theorem nesting_of_number {value : Document} (h : value.number ≠ .notNumeric) :
    value.nesting = 1 := by
  cases value <;> first | rfl | exact absurd rfl h

theorem collect_cons {part : String} {key : LooseText} {value : Document}
    {rest : List (LooseText × Document)} {values : PerResource (Option Float)} :
    collect (readField part) ((key, value) :: rest) values =
      readField part (key, value) >>= fun (r, x) =>
        collect (readField part) rest (values.set r (some x)) := by
  rw [collect, List.foldlM_cons]
  cases readField part (key, value) <;> rfl

/-- A demand on a value. -/
inductive Demand where
  | table (value : Document)
  | text (value : Document)
  | texts (value : Document)
  | mapping (value : Document)
  | amount (key : LooseText) (value : Document)

variable [Limits]

namespace Demand

/-- What meets a demand. -/
inductive Met : Demand → Prop
  | noTable : Met (.table .null)
  | table (fields : List (LooseText × Document)) : Met (.table (.object fields))
  | text (value : Document) (h : value.HasLiteral) : Met (.text value)
  | noTexts : Met (.texts .null)
  | oneText (s : LooseText) : Met (.texts (.string s))
  | texts (items : List Document) : Met (.texts (.list items))
  | mapping (fields : List (LooseText × Document)) : Met (.mapping (.object fields))
  | amount (key : LooseText) (value : Document) (r : Resource) (x : Float)
      (h : Sets (key, value) r x) : Met (.amount key value)

/-- The value that is shown where a demand is not met. -/
def shown? : Demand → Option Document
  | table value | text value | texts value | amount _ value => some value
  | mapping _ => none

/-- A demand that is not met for something else than an invalid value: the value that would be shown
nests too deep, or a whole number is too large. -/
inductive Breaks : Demand → ErrorClass → Prop
  | deep (demand : Demand) (value : Document) (hshown : demand.shown? = some value)
      (hunmet : ¬demand.Met) (h : value.literal? = .error .tooDeep) : Breaks demand .tooDeep
  | large (key : LooseText) (n : Int) (h : Decimal.ofWhole? n = none) :
      Breaks (.amount key (.int n)) .overflow

/-- A refusal of a class is what a demand that is not met leads to. -/
def Explains (demand : Demand) (c : ErrorClass) : Prop :=
  demand.Breaks c ∨ c = .invalidValue ∧ ∀ c', ¬demand.Breaks c'

end Demand

/-- The first of some demands that is not met. -/
inductive FirstUnmet : List Demand → Demand → Prop
  | here (demand : Demand) (rest : List Demand) (h : ¬demand.Met) :
      FirstUnmet (demand :: rest) demand
  | later (met : Demand) (rest : List Demand) (demand : Demand) (h : met.Met)
      (hrest : FirstUnmet rest demand) : FirstUnmet (met :: rest) demand

/-- The demand on a field of a part of a constraint. -/
def Demand.ofField : LooseText × Document → Demand
  | (key, value) => .amount key value

/-- The demands on a part of a constraint. -/
def partDemands (fields : List (LooseText × Document)) (p : Part) : List Demand :=
  .mapping (findD p.key (.object []) fields) ::
    (fieldsOf (some (.object fields)) p).map .ofField

/-- The demands on a constraint that may be absent. -/
def constraintDemands : Document → List Demand
  | .object fields => partDemands fields .percentage ++ partDemands fields .threshold
  | _ => []

/-- The demands on a value that is a list of texts, or one text. -/
def textsDemands (value : Document) : List Demand :=
  .texts value :: (Snapshot.itemsOf (some value)).map .text

/-- The demands of settings on their fields, in the order in which these are read. -/
def demands (fields : List (LooseText × Document)) : List Demand :=
  .table (findD "balancing_constraint" .null fields) ::
    .text (findD "log_level" (.string "INFO") fields) ::
    (textsDemands (findD "log_debug_scopes" .null fields) ++
      constraintDemands (findD "balancing_constraint" .null fields))

section Demands

variable {demand demand' : Demand} {ds ds' : List Demand} {c c' : ErrorClass} {value : Document}

theorem FirstUnmet.not_met (h : FirstUnmet ds demand) : ¬∀ d ∈ ds, d.Met := by
  induction h with
  | here demand rest h => exact fun hall => h (hall demand List.mem_cons_self)
  | later met rest demand _ _ ih =>
    exact fun hall => ih fun d hd => hall d (List.mem_cons_of_mem met hd)

theorem FirstUnmet.unique (h : FirstUnmet ds demand) (h' : FirstUnmet ds demand') :
    demand = demand' := by
  induction h with
  | here demand rest hunmet =>
    cases h' with
    | here => rfl
    | later _ _ _ hmet => exact absurd hmet hunmet
  | later met rest demand hmet _ ih =>
    cases h' with
    | here _ _ hunmet => exact absurd hmet hunmet
    | later _ _ _ _ hrest => exact ih hrest

theorem FirstUnmet.append_left (h : FirstUnmet ds demand) (ds' : List Demand) :
    FirstUnmet (ds ++ ds') demand := by
  induction h with
  | here demand rest h => exact .here demand _ h
  | later met rest demand h _ ih => exact .later met _ demand h ih

theorem FirstUnmet.append_right (hds : ∀ d ∈ ds, d.Met) (h : FirstUnmet ds' demand) :
    FirstUnmet (ds ++ ds') demand := by
  induction ds with
  | nil => exact h
  | cons met rest ih =>
    obtain ⟨hmet, hrest⟩ := List.forall_mem_cons.mp hds
    exact .later met _ demand hmet (ih hrest)

theorem literal?_ne_tooDeep (h : value.nesting = 1) : value.literal? ≠ .error .tooDeep := by
  intro hdeep
  have hlevels : Limits.literalDepth + 1 < value.nesting := holds_of_literal? hdeep
  rw [h] at hlevels
  omega

/-- A whole number that is too large can be shown, or has too many digits. -/
theorem Demand.Breaks.unique (h : demand.Breaks c) (h' : demand.Breaks c') : c = c' := by
  cases h with
  | deep _ value hshown _ hdeep =>
    cases h' with
    | deep => rfl
    | large key n =>
      cases hshown
      exact absurd hdeep (literal?_ne_tooDeep rfl)
  | large key n h =>
    cases h' with
    | deep _ value hshown _ hdeep =>
      cases hshown
      exact absurd hdeep (literal?_ne_tooDeep rfl)
    | large => rfl

theorem not_breaks (hdeep : ∀ value, demand.shown? = some value → value.literal? ≠ .error .tooDeep)
    (hlarge : ∀ key n, demand = .amount key (.int n) → Decimal.ofWhole? n ≠ none) :
    ¬demand.Breaks c := by
  rintro (⟨_, value, hshown, -, h⟩ | ⟨key, n, h⟩)
  · exact hdeep value hshown h
  · exact hlarge key n rfl h

theorem wording?_eq_error_iff {cause : LiteralError} :
    value.wording? = .error cause ↔ value.literal? = .error cause := by
  have hpure {β : Type} (text : β) : (pure text : Except LiteralError β) ≠ .error cause := nofun
  rw [wording?, literal?, bind_eq_error_iff, bind_eq_error_iff]
  simp only [hpure, and_false, exists_false, or_false]

theorem errorClass_quoting (value : Document) (f : Fault) :
    (Fault.quoting [value] f).errorClass =
      match value.literal? with
      | .ok _ => f.errorClass
      | .error cause => cause.errorClass := by
  rw [Fault.quoting, mapM_cons_eq]
  cases value.literal? <;> rfl

/-- A demand that is not met is explained by the attempt to show its value, unless that is a whole
number that is too large. -/
theorem explains_of_shown {f : Fault} (hf : f.errorClass = .invalidValue)
    (hshown : demand.shown? = some value) (hunmet : ¬demand.Met)
    (hlarge : ∀ key n, demand = .amount key (.int n) → Decimal.ofWhole? n ≠ none) :
    demand.Explains (Fault.quoting [value] f).errorClass := by
  have hnot (h : value.literal? ≠ .error .tooDeep) (c : ErrorClass) : ¬demand.Breaks c := by
    refine not_breaks (fun value' hshown' => ?_) hlarge
    cases hshown.symm.trans hshown'
    exact h
  rw [errorClass_quoting]
  cases hliteral : value.literal? with
  | ok text => exact .inr ⟨hf, hnot (by rw [hliteral]; exact nofun)⟩
  | error cause =>
    cases cause with
    | tooDeep => exact .inl (.deep demand value hshown hunmet hliteral)
    | tooManyDigits => exact .inr ⟨rfl, hnot (by rw [hliteral]; exact nofun)⟩

end Demands

section Reading

variable {ε β γ : Type} {fault : ε → Fault} {late : Prop} {x : Except ε β} {ds ds' : List Demand}

/-- A computation gives a result only if some demands are met, and is refused for the first that is
not. A late one may also be refused for an invalid value when all of them are met. -/
structure Follows (fault : ε → Fault) (late : Prop) (x : Except ε β) (ds : List Demand) :
    Prop where
  met : ∀ y, x = .ok y → ∀ d ∈ ds, d.Met
  refused : ∀ e, x = .error e → (∃ d, FirstUnmet ds d ∧ d.Explains (fault e).errorClass) ∨
    late ∧ (∀ d ∈ ds, d.Met) ∧ (fault e).errorClass = .invalidValue

theorem Follows.ok (y : β) : Follows fault late (.ok y) [] := ⟨fun _ _ => nofun, nofun⟩

theorem Follows.error {demand : Demand} {e : ε} (hunmet : ¬demand.Met)
    (h : demand.Explains (fault e).errorClass) :
    Follows fault late (.error e : Except ε β) (demand :: ds) := by
  refine ⟨nofun, ?_⟩
  rintro _ ⟨⟩
  exact .inl ⟨demand, .here demand ds hunmet, h⟩

theorem Follows.cons {demand : Demand} (hmet : demand.Met) (h : Follows fault late x ds) :
    Follows fault late x (demand :: ds) := by
  refine ⟨fun y hy => List.forall_mem_cons.mpr ⟨hmet, h.met y hy⟩, fun e he => ?_⟩
  rcases h.refused e he with ⟨d, hd, hexplains⟩ | ⟨hlate, hall, hclass⟩
  · exact .inl ⟨d, .later demand ds d hmet hd, hexplains⟩
  · exact .inr ⟨hlate, List.forall_mem_cons.mpr ⟨hmet, hall⟩, hclass⟩

theorem Follows.bind {f : β → Except ε γ} (h : Follows fault False x ds)
    (hf : ∀ y, x = .ok y → Follows fault late (f y) ds') :
    Follows fault late (x >>= f) (ds ++ ds') := by
  constructor
  -- with a result both computations have one, so both met their demands
  · intro z hz
    obtain ⟨y, hy, hz⟩ := bind_eq_ok_iff.mp hz
    exact List.forall_mem_append.mpr ⟨h.met y hy, (hf y hy).met z hz⟩
  · intro e he
    rcases bind_eq_error_iff.mp he with he | ⟨y, hy, he⟩
    · rcases h.refused e he with ⟨d, hd, hexplains⟩ | ⟨hlate, -⟩
      · exact .inl ⟨d, hd.append_left ds', hexplains⟩
      · exact hlate.elim
    -- the first demand that the second one does not meet is the first of all, as the others are met
    · rcases (hf y hy).refused e he with ⟨d, hd, hexplains⟩ | ⟨hlate, hmet, hclass⟩
      · exact .inl ⟨d, hd.append_right (h.met y hy), hexplains⟩
      · exact .inr ⟨hlate, List.forall_mem_append.mpr ⟨h.met y hy, hmet⟩, hclass⟩

theorem Follows.map (h : Follows fault late x ds) (f : β → γ) :
    Follows fault late (x >>= fun y => .ok (f y)) ds := by
  constructor
  · intro z hz
    obtain ⟨y, hy, -⟩ := bind_eq_ok_iff.mp hz
    exact h.met y hy
  · intro e he
    rcases bind_eq_error_iff.mp he with he | ⟨_, -, he⟩
    · exact h.refused e he
    · cases he

theorem follows_mapM {α : Type} {f : α → Except ε β} {demandOf : α → Demand}
    (h : ∀ a, Follows fault False (f a) [demandOf a]) (items : List α) :
    Follows fault False (items.mapM f) (items.map demandOf) := by
  induction items with
  | nil => exact .ok []
  | cons item rest ih =>
    rw [mapM_cons_eq]
    exact (h item).bind fun y _ => ih.map (y :: ·)

end Reading

section Parts

/-- A number is looked for before the resource that its key names. -/
theorem follows_readField (part : String) (key : LooseText) (value : Document) :
    Follows Constraint.Refusal.fault False (readField part (key, value)) [.amount key value] := by
  cases hread : readField part (key, value) with
  | ok pair =>
    obtain ⟨r, x⟩ := pair
    refine ⟨fun _ _ => ?_, nofun⟩
    rw [List.forall_mem_singleton]
    exact .amount key value r x ((readField_eq_ok_iff part _ r x).mp hread)
  | error e =>
    have hunmet : ¬(Demand.amount key value).Met := by
      rintro ⟨⟩
      next r x h => cases hread.symm.trans ((readField_eq_ok_iff part _ r x).mpr h)
    refine .error hunmet ?_
    unfold readField at hread
    cases hnumber : value.number with
    | notNumeric =>
      simp only [hnumber] at hread
      cases hread
      refine explains_of_shown rfl rfl hunmet ?_
      rintro _ n ⟨⟩ hn
      rw [number, hn] at hnumber
      cases hnumber
    | tooLarge =>
      simp only [hnumber] at hread
      cases hread
      cases value with
      | int n =>
        rw [number] at hnumber
        split at hnumber
        next => cases hnumber
        next hn => exact .inl (.large key n hn)
      | _ => cases hnumber
    | number x =>
      simp only [hnumber] at hread
      rcases bind_eq_error_iff.mp hread with hname | ⟨_, -, h⟩
      · unfold resourceNamed at hname
        split at hname
        next => cases hname
        next =>
          cases hname
          refine .inr ⟨rfl, fun c => not_breaks ?_ ?_⟩
          · rintro _ ⟨⟩
            exact literal?_ne_tooDeep (nesting_of_number (by simp [hnumber]))
          · rintro _ n ⟨⟩ hn
            rw [number, hn] at hnumber
            cases hnumber
      · cases h

theorem follows_collect (part : String) (fields : List (LooseText × Document))
    (values : PerResource (Option Float)) :
    Follows Constraint.Refusal.fault False (collect (readField part) fields values)
      (fields.map .ofField) := by
  induction fields generalizing values with
  | nil => exact .ok values
  | cons field rest ih =>
    obtain ⟨key, value⟩ := field
    rw [collect_cons]
    exact (follows_readField part key value).bind fun _ _ => ih _

theorem follows_readPart (part : String) (table : Option Document) :
    Follows Constraint.Refusal.fault False (readPart part (table.getD (.object [])))
      (.mapping (table.getD (.object [])) :: (entriesOf table).map .ofField) := by
  have hobject (fields : List (LooseText × Document)) :
      Follows Constraint.Refusal.fault False (readPart part (.object fields))
        (.mapping (.object fields) :: fields.map .ofField) := by
    rw [readPart_object]
    exact (follows_collect part fields (.replicate none)).cons (.mapping fields)
  have hother {value : Document} (hvalue : ∀ fields, value ≠ .object fields) :
      Follows Constraint.Refusal.fault False (readPart part value) [.mapping value] := by
    have hread : readPart part value = .error (.notMapping part) := by
      rw [readPart]
      exact hvalue
    rw [hread]
    refine .error ?_ (.inr ⟨rfl, fun c => not_breaks nofun nofun⟩)
    rintro ⟨⟩
    exact hvalue _ rfl
  cases table with
  | none => exact hobject []
  | some value =>
    cases value with
    | object fields => exact hobject fields
    | _ => exact hother nofun

theorem follows_override (o : Overrides Float) :
    Follows Constraint.Refusal.fault True (Constraint.default.override o) [] := by
  refine ⟨fun _ _ => nofun, fun e he => .inr ⟨trivial, nofun, ?_⟩⟩
  unfold Constraint.override make at he
  split at he
  · cases he
    rfl
  · split at he
    · cases he
      rfl
    · cases he

theorem follows_ofDocument_object (fields : List (LooseText × Document)) :
    Follows Constraint.Refusal.fault True (Constraint.ofDocument (.object fields))
      (constraintDemands (.object fields)) := by
  have hpart (p : Part) : Follows Constraint.Refusal.fault False
      (readPart p.key (findD p.key (.object []) fields)) (partDemands fields p) :=
    follows_readPart p.key (find? p.key fields)
  refine (hpart .percentage).bind fun percentage _ => ?_
  have hthreshold := (hpart .threshold).bind fun threshold _ =>
    follows_override ⟨percentage, threshold⟩
  rwa [List.append_nil] at hthreshold

theorem follows_constraintOf {table : Document} (h : (Demand.table table).Met) :
    Follows Refusal.fault True (constraintOf table) (constraintDemands table) := by
  cases h with
  | noTable => exact .ok _
  | table fields =>
    have hread := follows_ofDocument_object fields
    rw [constraintOf]
    · cases hx : Constraint.ofDocument (.object fields) with
      | ok c => exact ⟨fun _ _ => hread.met c hx, nofun⟩
      | error e =>
        refine ⟨nofun, ?_⟩
        rintro _ ⟨⟩
        exact hread.refused e hx
    · exact nofun

end Parts

section Whole

theorem met_of_requireTable {table : Document} (h : requireTable table = .ok ()) :
    (Demand.table table).Met := by
  cases table with
  | null => exact .noTable
  | object fields => exact .table fields
  | _ => cases h

theorem follows_requireTable (table : Document) :
    Follows Refusal.fault False (requireTable table) [.table table] := by
  refine ⟨fun _ h => List.forall_mem_singleton.mpr (met_of_requireTable h), fun e he => ?_⟩
  have hunmet : ¬(Demand.table table).Met := by
    rintro ⟨⟩ <;> cases he
  have hquoted : e = .constraintNotTable table := by
    cases table <;> cases he <;> rfl
  subst hquoted
  exact .inl ⟨_, .here _ [] hunmet, explains_of_shown rfl rfl hunmet nofun⟩

theorem follows_displayOf (value : Document) :
    Follows Refusal.fault False (displayOf value) [.text value] := by
  have hmet : (Demand.text value).Met ↔ value.HasLiteral := by
    refine ⟨?_, .text value⟩
    rintro ⟨⟩
    assumption
  unfold displayOf
  cases hwording : value.wording? with
  | ok text =>
    refine ⟨fun _ _ => List.forall_mem_singleton.mpr ?_, nofun⟩
    exact hmet.mpr (exists_wording?_eq_ok_iff.mp ⟨text, hwording⟩)
  | error cause =>
    have hunmet : ¬(Demand.text value).Met := by
      rw [hmet, ← exists_wording?_eq_ok_iff, hwording]
      exact nofun
    have hliteral := wording?_eq_error_iff.mp hwording
    refine .error hunmet ?_
    cases cause with
    | tooDeep => exact .inl (.deep _ value rfl hunmet hliteral)
    | tooManyDigits =>
      refine .inr ⟨rfl, fun c => not_breaks ?_ nofun⟩
      rintro _ ⟨⟩
      rw [hliteral]
      exact nofun

theorem follows_scopesOf (value : Document) :
    Follows Refusal.fault False (scopesOf value) (textsDemands value) := by
  cases value with
  | null => exact .cons .noTexts (.ok _)
  | string s => exact .cons (.oneText s) (.ok _)
  | list items => exact .cons (.texts items) (follows_mapM follows_displayOf items)
  | _ => exact .error nofun (explains_of_shown rfl rfl nofun nofun)

/-- Settings are refused for the first of their demands that is not met, or, when all are, for a
constraint that is not admitted. -/
theorem follows_ofDocument (fields : List (LooseText × Document)) :
    Follows Refusal.fault True (ofDocument (.object fields)) (demands fields) := by
  refine (follows_requireTable _).bind fun _ htable => ?_
  refine (follows_displayOf _).bind fun logLevel _ => ?_
  refine (follows_scopesOf _).bind fun debugScopes _ => ?_
  exact (follows_constraintOf (met_of_requireTable htable)).map _

end Whole

end ClusterBalance.Settings
