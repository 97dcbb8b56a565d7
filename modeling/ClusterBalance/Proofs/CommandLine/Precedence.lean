import ClusterBalance.Proofs.CommandLine.Prepared
import ClusterBalance.Proofs.Constraint.Collected

/-! The constraint that a run measures by. Main statement: each of its values is what the last
option for its resource says, else what the last field of the settings says, else the default. -/

namespace ClusterBalance.CommandLine

open Constraint

section Pairs

/-- What the value of an option says: the name of a resource in front of the first equals sign, and
a number behind it. -/
def Assigns (item : String) (r : Resource) (x : Float) : Prop :=
  ∃ name number : String, item = name ++ "=" ++ number ∧ '=' ∉ name.toList ∧
    Resource.ofName? name = some r ∧ Decimal.read? number = some x

/-- A text is split at its first equals sign. -/
theorem splitValue_eq_iff {item name number : String} :
    splitValue item = (name, some number) ↔
      item = name ++ "=" ++ number ∧ '=' ∉ name.toList := by
  rw [splitValue]
  constructor
  · intro h
    split at h
    next c cs hdrop =>
      cases h
      have hc : (c != '=') = false := by
        simpa [hdrop] using List.head?_dropWhile_not (· != '=') item.toList
      have hc : c = '=' := by simpa using hc
      have hchars : item.toList = item.toList.takeWhile (· != '=') ++ '=' :: cs := by
        conv_lhs => rw [← List.takeWhile_append_dropWhile (p := (· != '=')) (l := item.toList)]
        rw [hdrop, hc]
      constructor
      · rw [← String.toList_inj]
        exact hchars.trans (by simp)
      · rw [String.toList_ofList]
        intro hmem
        simpa using List.mem_takeWhile_imp hmem
    next => cases h
  · rintro ⟨rfl, hname⟩
    have hbefore : ∀ c ∈ name.toList, (c != '=') = true := fun c hc => by
      rw [bne_iff_ne]
      rintro rfl
      exact hname hc
    have hchars : (name ++ "=" ++ number).toList = name.toList ++ '=' :: number.toList := by
      simp
    simp only [hchars, List.takeWhile_append_of_pos hbefore, List.dropWhile_append_of_pos hbefore]
    simp

/-- The value is read before the name, but either may be refused. -/
theorem readPair_eq_ok_iff (item : String) (r : Resource) (x : Float) :
    readPair item = .ok (r, x) ↔ Assigns item r x := by
  constructor
  · intro h
    unfold readPair at h
    split at h
    next => cases h
    next name number hsplit =>
      split at h
      next => cases h
      next x' hnumber =>
        split at h
        next r' hname =>
          cases h
          obtain ⟨hitem, hfirst⟩ := splitValue_eq_iff.mp hsplit
          exact ⟨name, number, hitem, hfirst, resourceNamed_eq_ok_iff.mp hname, hnumber⟩
        next => cases h
  · rintro ⟨name, number, hitem, hfirst, hname, hnumber⟩
    have hresource : resourceNamed name = .ok r := resourceNamed_eq_ok_iff.mpr hname
    simp only [readPair, splitValue_eq_iff.mpr ⟨hitem, hfirst⟩, hnumber, hresource]

/-- The values of an option are read exactly if each of them says something. -/
theorem exists_readPairs_iff {items : List String} :
    (∃ values, readPairs items = .ok values) ↔ ∀ item ∈ items, ∃ r x, Assigns item r x :=
  exists_collect_iff readPair_eq_ok_iff

end Pairs

section Layers

variable {payload : Document} {settings : Settings} {p : Part} {r : Resource} {x : Float}

/-- The fields that settings have for a part of the constraint. -/
def settingFields (payload : Document) (p : Part) : List (LooseText × Document) :=
  fieldsOf (Snapshot.fieldOf? "balancing_constraint" payload) p

/-- The value of a resource where options are given on top of settings: the last option for it
decides, then the last field of the settings for it, and then the default. -/
inductive Effective (payload : Document) (options : List String) (p : Part) (r : Resource) :
    Float → Prop
  | option (x : Float) (h : Last Assigns options r x) : Effective payload options p r x
  | setting (x : Float) (hoptions : Unsaid Assigns options r)
      (h : Last Sets (settingFields payload p) r x) : Effective payload options p r x
  | standard (hoptions : Unsaid Assigns options r)
      (hfields : Unsaid Sets (settingFields payload p) r) :
      Effective payload options p r (Constraint.default.value p r)

theorem constraintOf_object {fields : List (LooseText × Document)} {c : Constraint Float} :
    Settings.constraintOf (.object fields) = .ok c ↔ ofDocument (.object fields) = .ok c := by
  rw [Settings.constraintOf]
  · cases ofDocument (.object fields) <;> simp
  · exact nofun

/-- Settings that are read have the values that their fields say, and for the rest the defaults. -/
theorem exists_collected_settingFields [Limits] (h : Settings.ofDocument payload = .ok settings) :
    ∃ news, Collected Sets (settingFields payload) news ∧
      ∀ p r, settings.constraint.value p r =
        (news.given p r).getD (Constraint.default.value p r) := by
  have hnothing {table : Option Document} (hfields : ∀ p, fieldsOf table p = []) :
      ∃ news, Collected Sets (fieldsOf table) news ∧
        ∀ p r, Constraint.default.value p r =
          (news.given p r).getD (Constraint.default.value p r) := by
    refine ⟨.ofFn fun _ _ => none, ⟨fun p r x => ?_, fun p r => ?_⟩, fun p r => ?_⟩
    · rw [Overrides.given_ofFn, hfields]
      exact iff_of_false nofun nofun
    · rw [Overrides.given_ofFn, hfields]
      exact iff_of_true rfl nofun
    · rw [Overrides.given_ofFn]
      rfl
  cases payload with
  | object fields =>
    show ∃ news, Collected Sets (fieldsOf (Document.find? "balancing_constraint" fields)) news ∧ _
    obtain ⟨_, htable, h⟩ := bind_eq_ok_iff.mp h
    obtain ⟨_, -, h⟩ := bind_eq_ok_iff.mp h
    obtain ⟨_, -, h⟩ := bind_eq_ok_iff.mp h
    obtain ⟨c, hc, h⟩ := bind_eq_ok_iff.mp h
    cases h
    unfold Document.findD at htable hc
    cases hfind : Document.find? "balancing_constraint" fields with
    | none =>
      rw [hfind] at hc
      cases hc
      exact hnothing fun p => rfl
    | some table =>
      rw [hfind] at htable hc
      cases table with
      | null =>
        cases hc
        exact hnothing fun p => rfl
      | object tableFields =>
        exact exists_collected_of_ofDocument (constraintOf_object.mp hc)
      | _ => cases htable
  | _ => cases h

variable {options : Part → List String} {k : Constraint Float}

/-- A value is effective exactly if the overrides and the settings come to it. -/
theorem effective_iff {news sets : Overrides Float} (hnews : Collected Assigns options news)
    (hsets : Collected Sets (settingFields payload) sets) :
    Effective payload (options p) p r x ↔
      x = (news.given p r).getD ((sets.given p r).getD (Constraint.default.value p r)) := by
  cases hoption : news.given p r with
  | some y =>
    have hlast := (hnews.said p r y).mp hoption
    constructor
    · rintro (⟨_, h⟩ | ⟨_, h, -⟩ | ⟨h, -⟩)
      · exact hlast.unique readPair_eq_ok_iff h ▸ rfl
      · exact absurd h hlast.not_unsaid
      · exact absurd h hlast.not_unsaid
    · rintro rfl
      exact .option _ hlast
  | none =>
    have hunsaid := (hnews.unsaid p r).mp hoption
    cases hset : sets.given p r with
    | some y =>
      have hlast := (hsets.said p r y).mp hset
      constructor
      · rintro (⟨_, h⟩ | ⟨_, -, h⟩ | ⟨-, h⟩)
        · exact absurd hunsaid h.not_unsaid
        · exact hlast.unique (readField_eq_ok_iff p.key) h ▸ rfl
        · exact absurd h hlast.not_unsaid
      · rintro rfl
        exact .setting _ hunsaid hlast
    | none =>
      have hfields := (hsets.unsaid p r).mp hset
      constructor
      · rintro (⟨_, h⟩ | ⟨_, -, h⟩ | ⟨-, -⟩)
        · exact absurd hunsaid h.not_unsaid
        · exact absurd hfields h.not_unsaid
        · rfl
      · rintro rfl
        exact .standard hunsaid hfields

theorem collected_of_readPairs {percentage threshold : PerResource (Option Float)}
    (hpercentage : readPairs (options .percentage) = .ok percentage)
    (hthreshold : readPairs (options .threshold) = .ok threshold) :
    Collected Assigns options ⟨percentage, threshold⟩ := by
  refine collected_of_collect (fun _ => readPair_eq_ok_iff) fun p => ?_
  cases p with
  | percentage => exact hpercentage
  | threshold => exact hthreshold

/-- A constraint is passed on exactly if all options are read and its values are effective and
admitted. -/
theorem passes_iff [Limits] (h : Settings.ofDocument payload = .ok settings) :
    Passes settings options k ↔ (∀ p, ∀ item ∈ options p, ∃ r x, Assigns item r x) ∧
      k.Admitted ∧ ∀ p r, Effective payload (options p) p r (k.value p r) := by
  obtain ⟨sets, hsets, hvalue⟩ := exists_collected_settingFields h
  constructor
  · rintro ⟨percentage, threshold, hpercentage, hthreshold, hk⟩
    obtain ⟨hadmitted, hk⟩ := override_eq_ok_iff.mp (effectiveConstraint_eq_ok_iff.mp hk)
    refine ⟨?_, hadmitted, fun p r => ?_⟩
    · rintro (_ | _)
      · exact exists_readPairs_iff.mp ⟨percentage, hpercentage⟩
      · exact exists_readPairs_iff.mp ⟨threshold, hthreshold⟩
    · rw [effective_iff (collected_of_readPairs hpercentage hthreshold) hsets, hk, hvalue]
  · rintro ⟨hitems, hadmitted, hk⟩
    obtain ⟨percentage, hpercentage⟩ := exists_readPairs_iff.mpr (hitems .percentage)
    obtain ⟨threshold, hthreshold⟩ := exists_readPairs_iff.mpr (hitems .threshold)
    refine ⟨percentage, threshold, hpercentage, hthreshold, ?_⟩
    rw [effectiveConstraint_eq_ok_iff, override_eq_ok_iff]
    refine ⟨hadmitted, fun p r => ?_⟩
    rw [hvalue, ← effective_iff (collected_of_readPairs hpercentage hthreshold) hsets]
    exact hk p r

theorem exists_effective [Limits] (h : Settings.ofDocument payload = .ok settings)
    (hitems : ∀ p, ∀ item ∈ options p, ∃ r x, Assigns item r x) (p : Part) (r : Resource) :
    ∃ x, ∀ y, Effective payload (options p) p r y ↔ y = x := by
  obtain ⟨sets, hsets, -⟩ := exists_collected_settingFields h
  obtain ⟨percentage, hpercentage⟩ := exists_readPairs_iff.mpr (hitems .percentage)
  obtain ⟨threshold, hthreshold⟩ := exists_readPairs_iff.mpr (hitems .threshold)
  exact ⟨_, fun y => effective_iff (collected_of_readPairs hpercentage hthreshold) hsets⟩

theorem exists_passes_iff [Limits] (h : Settings.ofDocument payload = .ok settings) :
    (∃ k, Passes settings options k) ↔ (∀ p, ∀ item ∈ options p, ∃ r x, Assigns item r x) ∧
      ∀ p r x, Effective payload (options p) p r x → p.Admits x := by
  simp only [passes_iff h, exists_and_left]
  refine and_congr_right fun hitems => ?_
  choose value hvalue using exists_effective h hitems
  simp only [hvalue]
  constructor
  · rintro ⟨k, hadmitted, hk⟩ p r _ rfl
    rw [← hk]
    exact hadmitted p r
  · intro hadmits
    refine ⟨⟨.ofFn (value .percentage), .ofFn (value .threshold)⟩, ?_⟩
    have heq (p : Part) (r : Resource) :
        Constraint.value ⟨.ofFn (value .percentage), .ofFn (value .threshold)⟩ p r = value p r := by
      cases p <;> exact PerResource.get_ofFn ..
    exact ⟨fun p r => heq p r ▸ hadmits p r _ rfl, heq⟩

theorem value_eq_iff_of_passes [Limits] (h : Settings.ofDocument payload = .ok settings)
    (hk : Passes settings options k) :
    k.value p r = x ↔ Effective payload (options p) p r x := by
  obtain ⟨hitems, -, hvalue⟩ := (passes_iff h).mp hk
  obtain ⟨y, hy⟩ := exists_effective h hitems p r
  rw [hy, (hy _).mp (hvalue p r)]
  exact eq_comm

end Layers

section Layering

variable {payload : Document} {settings : Settings}

/-- How settings and options make a constraint. -/
structure Layered [Limits] (payload : Document) (settings : Settings)
    (options : Part → List String) : Prop where
  exists_iff : (∃ k, Passes settings options k) ↔
    (∀ p, ∀ item ∈ options p, ∃ r x, Assigns item r x) ∧
      ∀ p r x, Effective payload (options p) p r x → p.Admits x
  value_iff : ∀ k, Passes settings options k →
    ∀ p r x, k.value p r = x ↔ Effective payload (options p) p r x
  apart : ∀ k, Passes settings options k → ∀ options' k', Passes settings options' k' →
    ∀ p, options p = options' p → k.part p = k'.part p
  measured : ∀ env args a, Ready env args settings a → optionsOf a = options →
    ∀ k, (∃ job, prepare env args = .ok job ∧ job.constraint = k) ↔ Passes settings options k
  ready : ∀ env args job, prepare env args = .ok job → ∃ settings a, Ready env args settings a

/-- There is a constraint exactly if every option says a value and what comes out is admitted; then
the options decide, each kind over its own part, over the settings, and these over the defaults. A
run whose command line is in order otherwise measures by that constraint. -/
theorem layered [Limits] (h : Settings.ofDocument payload = .ok settings)
    (options : Part → List String) : Layered payload settings options where
  exists_iff := exists_passes_iff h
  value_iff := fun k hk p r x => value_eq_iff_of_passes h hk
  apart := fun k hk options' k' hk' p hoptions => PerResource.ext_get fun r => by
    have heffective := (value_eq_iff_of_passes h hk (p := p) (r := r)).mp rfl
    rw [hoptions] at heffective
    exact ((value_eq_iff_of_passes h hk').mpr heffective).symm
  measured := fun env args a hready hoptions k => hoptions ▸ hready.exists_prepare_iff
  ready := fun env args job hjob => by
    obtain ⟨settings, a, hready, -⟩ := exists_ready_of_prepare hjob
    exact ⟨settings, a, hready⟩

/-- Settings with two names for one resource. -/
def doubledPayload : Document :=
  .ofFields [("balancing_constraint", .ofFields [("balance_percentages",
    .ofFields [("cpu", .float 1.25), (" Cpu ", .float 1.5), ("disk", .int 2)])])]

/-- Options of which one is given twice. -/
def doubledOptions : Part → List String
  | .percentage => ["nw_in=1.2", "network_in= 1.75", "disk=3"]
  | .threshold => ["cpu=0.5"]

theorem layered_doubled :
    let _ : Limits := Limits.measured
    ∃ settings, Settings.ofDocument doubledPayload = .ok settings ∧
      Layered doubledPayload settings doubledOptions := by
  intro _
  obtain ⟨settings, h⟩ : ∃ settings, Settings.ofDocument doubledPayload = .ok settings :=
    exists_eq_ok_of_isOk (by decide +kernel)
  exact ⟨settings, h, layered h doubledOptions⟩

end Layering

end ClusterBalance.CommandLine
