import ClusterBalance.Proofs.Constraint.Collected
import ClusterBalance.Proofs.Snapshot.RoundTrip

/-! Reading the documents of constraints and of vectors. Main statement: what is read for a resource
is what the last entry for it says, or else the default, so the order of entries matters only among
those for one resource; and what is written of a constraint is read back as it. -/

namespace ClusterBalance.Constraint

open Document Snapshot

section Entries

variable {α : Type} {Says : α → Resource → Float → Prop} {items : List α} {r : Resource}
  {d x y : Float}

/-- The value of a resource is what the last item for it says, or one from before if there is no
such item. -/
inductive Settles (Says : α → Resource → Float → Prop) (items : List α) (r : Resource)
    (before : Float) : Float → Prop
  | last (x : Float) (h : Last Says items r x) : Settles Says items r before x
  | kept (h : Unsaid Says items r) : Settles Says items r before before

theorem settles_iff {items : Part → List α} {news : Overrides Float}
    (h : Collected Says items news) {p : Part} :
    Settles Says (items p) r d x ↔ x = (news.given p r).getD d := by
  constructor
  · rintro (⟨_, hlast⟩ | hunsaid)
    · rw [(h.said p r x).mpr hlast]
      rfl
    · rw [(h.unsaid p r).mpr hunsaid]
      rfl
  · rintro rfl
    cases hgiven : news.given p r with
    | none => exact .kept ((h.unsaid p r).mp hgiven)
    | some y => exact .last y ((h.said p r y).mp hgiven)

theorem unsaid_filter_iff {keep : α → Bool} (hkeep : ∀ item x, Says item r x → keep item = true) :
    Unsaid Says (items.filter keep) r ↔ Unsaid Says items r := by
  simp only [Unsaid, List.mem_filter]
  exact ⟨fun h item hitem x hx => h item ⟨hitem, hkeep item x hx⟩ x hx,
    fun h item hitem => h item hitem.1⟩

/-- Items that say nothing of a resource may be left out. -/
theorem last_filter_iff {keep : α → Bool} (hkeep : ∀ item x, Says item r x → keep item = true) :
    Last Says (items.filter keep) r x ↔ Last Says items r x := by
  induction items with
  | nil => rfl
  | cons item rest ih =>
    by_cases hitem : keep item = true
    · rw [List.filter_cons_of_pos hitem]
      constructor
      · rintro (⟨_, _, _, _, hx, hrest⟩ | ⟨_, _, _, _, hlast⟩)
        · exact .here item rest r x hx ((unsaid_filter_iff hkeep).mp hrest)
        · exact .later item rest r x (ih.mp hlast)
      · rintro (⟨_, _, _, _, hx, hrest⟩ | ⟨_, _, _, _, hlast⟩)
        · exact .here item _ r x hx ((unsaid_filter_iff hkeep).mpr hrest)
        · exact .later item _ r x (ih.mpr hlast)
    · rw [List.filter_cons_of_neg hitem, ih]
      refine ⟨.later item rest r x, ?_⟩
      rintro (⟨_, _, _, _, hx, -⟩ | ⟨_, _, _, _, hlast⟩)
      · exact absurd (hkeep item x hx) hitem
      · exact hlast

theorem settles_filter_iff {keep : α → Bool} (hkeep : ∀ item x, Says item r x → keep item = true) :
    Settles Says (items.filter keep) r d x ↔ Settles Says items r d x := by
  constructor
  · rintro (⟨_, hlast⟩ | hunsaid)
    · exact .last x ((last_filter_iff hkeep).mp hlast)
    · exact .kept ((unsaid_filter_iff hkeep).mp hunsaid)
  · rintro (⟨_, hlast⟩ | hunsaid)
    · exact .last x ((last_filter_iff hkeep).mpr hlast)
    · exact .kept ((unsaid_filter_iff hkeep).mpr hunsaid)

/-- Where there is one item for each resource, it is the last one. -/
theorem last_map {item : Resource → α} {value : Resource → Float} {rs : List Resource}
    (hitem : ∀ s r x, Says (item s) r x ↔ s = r ∧ x = value s) (hnodup : rs.Nodup) (hr : r ∈ rs) :
    Last Says (rs.map item) r (value r) := by
  induction rs with
  | nil => cases hr
  | cons s rest ih =>
    obtain ⟨hs, hrest⟩ := List.nodup_cons.mp hnodup
    rcases List.mem_cons.mp hr with rfl | hr
    · refine .here (item r) (rest.map item) r (value r) ((hitem r r _).mpr ⟨rfl, rfl⟩) ?_
      refine List.forall_mem_map.mpr fun s hmem x hx => ?_
      obtain ⟨rfl, -⟩ := (hitem s r x).mp hx
      exact hs hmem
    · exact .later (item s) (rest.map item) r (value r) (ih hrest hr)

end Entries

section Fields

variable {fields fields' : List (LooseText × Document)} {r : Resource} {d x y : Float}

instance (key : LooseText) (r : Resource) : Decidable (Names key r) :=
  inferInstanceAs (Decidable (_ = _))

/-- Fields in another order, in which those that name one resource follow one another as before. -/
structure Rearranged (fields fields' : List (LooseText × Document)) : Prop where
  perm : fields.Perm fields'
  same : ∀ r, (fields.filter fun field => Names field.1 r) =
    fields'.filter fun field => Names field.1 r

theorem Rearranged.settles_iff (h : Rearranged fields fields') :
    Settles Sets fields r d x ↔ Settles Sets fields' r d x := by
  have hnames : ∀ (field : LooseText × Document) x, Sets field r x →
      decide (Names field.1 r) = true := fun _ _ hsets => decide_eq_true hsets.1
  rw [← settles_filter_iff hnames, h.same r, settles_filter_iff hnames]

theorem Settles.unique (h : Settles Sets fields r d x) (h' : Settles Sets fields r d y) :
    x = y := by
  rcases h with ⟨_, hlast⟩ | hunsaid
  · rcases h' with ⟨_, hlast'⟩ | hunsaid
    · exact hlast.unique (readField_eq_ok_iff "") hlast'
    · exact absurd hunsaid hlast.not_unsaid
  · rcases h' with ⟨_, hlast'⟩ | -
    · exact absurd hunsaid hlast'.not_unsaid
    · rfl

/-- Each field sets the value of some resource. -/
def AllSet (fields : List (LooseText × Document)) : Prop := ∀ field ∈ fields, ∃ r x, Sets field r x

theorem Rearranged.allSet_iff (h : Rearranged fields fields') : AllSet fields ↔ AllSet fields' :=
  forall_congr' fun _ => imp_congr_left h.perm.mem_iff

end Fields

section Constraints

variable {fields fields' : List (LooseText × Document)} {c k : Constraint Float}

/-- A table in which each field sets the value of some resource, or nothing. -/
def IsTable (table : Option Document) : Prop :=
  ∀ value, table = some value → ∃ entries, value = .object entries ∧ AllSet entries

theorem exists_readPart_iff {part : String} {table : Option Document} :
    (∃ values, readPart part (table.getD (.object [])) = .ok values) ↔ IsTable table := by
  have hentries (entries : List (LooseText × Document)) :
      (∃ values, readPart part (.object entries) = .ok values) ↔ AllSet entries := by
    rw [readPart_object]
    exact exists_collect_iff (readField_eq_ok_iff part)
  cases table with
  | none => exact iff_of_true ((hentries []).mpr nofun) nofun
  | some value =>
    cases value with
    | object entries =>
      refine (hentries entries).trans ⟨?_, fun h => ?_⟩
      · rintro h _ ⟨⟩
        exact ⟨entries, rfl, h⟩
      · obtain ⟨_, ⟨⟩, h⟩ := h _ rfl
        exact h
    | _ => exact iff_of_false (fun ⟨_, h⟩ => nomatch h) fun h => by obtain ⟨_, ⟨⟩, -⟩ := h _ rfl

/-- A document is read as a constraint exactly if its parts are tables and the values that the last
entries say, with the defaults for the rest, are those of the constraint and admitted. -/
theorem ofDocument_object_iff : ofDocument (.object fields) = .ok c ↔
    (∀ p : Part, IsTable (find? p.key fields)) ∧ c.Admitted ∧
      ∀ p r, Settles Sets (fieldsOf (some (.object fields)) p) r (default.value p r)
        (c.value p r) := by
  rw [ofDocument_object_iff_parts]
  constructor
  · rintro ⟨news, hparts, h⟩
    obtain ⟨hadmitted, hvalue⟩ := override_eq_ok_iff.mp h
    exact ⟨fun p => exists_readPart_iff.mp ⟨_, hparts p⟩, hadmitted,
      fun p r => (settles_iff (collected_of_readPart hparts)).mpr (hvalue p r)⟩
  · rintro ⟨htables, hadmitted, hvalue⟩
    obtain ⟨percentage, hpercentage⟩ := exists_readPart_iff.mpr (htables .percentage)
    obtain ⟨threshold, hthreshold⟩ := exists_readPart_iff.mpr (htables .threshold)
    have hparts (p : Part) : readPart p.key ((find? p.key fields).getD (.object [])) =
        .ok ((⟨percentage, threshold⟩ : Overrides Float).part p) := by
      cases p with
      | percentage => exact hpercentage
      | threshold => exact hthreshold
    refine ⟨⟨percentage, threshold⟩, hparts, override_eq_ok_iff.mpr ⟨hadmitted, fun p r => ?_⟩⟩
    exact (settles_iff (collected_of_readPart hparts)).mp (hvalue p r)

theorem exists_fields_of_ofDocument {d : Document} (h : ofDocument d = .ok c) :
    ∃ fields, d = .object fields := by
  cases d with
  | object fields => exact ⟨fields, rfl⟩
  | _ => cases h

end Constraints

section Order

variable {fields fields' : List (LooseText × Document)} {c : Constraint Float}

/-- The same table but for the order of its entries. -/
inductive SameTable : Option Document → Option Document → Prop
  | absent : SameTable none none
  | object {entries entries' : List (LooseText × Document)} (h : Rearranged entries entries') :
      SameTable (some (.object entries)) (some (.object entries'))

theorem SameTable.isTable_iff {table table' : Option Document} (h : SameTable table table') :
    IsTable table ↔ IsTable table' := by
  cases h with
  | absent => rfl
  | object h => simp [IsTable, h.allSet_iff]

theorem SameTable.settles_iff {table table' : Option Document} (h : SameTable table table')
    {r : Resource} {d x : Float} :
    Settles Sets (entriesOf table) r d x ↔ Settles Sets (entriesOf table') r d x := by
  cases h with
  | absent => rfl
  | object h => exact h.settles_iff

/-- Which constraint is read does not depend on the order of entries for different resources. -/
theorem ofDocument_iff_of_sameTable
    (h : ∀ p : Part, SameTable (find? p.key fields) (find? p.key fields')) :
    ofDocument (.object fields) = .ok c ↔ ofDocument (.object fields') = .ok c := by
  have hentries (p : Part) (r : Resource) (d x : Float) :
      Settles Sets (fieldsOf (some (.object fields)) p) r d x ↔
        Settles Sets (fieldsOf (some (.object fields')) p) r d x :=
    (h p).settles_iff
  simp only [ofDocument_object_iff, (h _).isTable_iff, hentries]

theorem find?_eq_of_perm {key : LooseText} (hperm : fields.Perm fields')
    (hnodup : (fields.map Prod.fst).Nodup) : find? key fields = find? key fields' := by
  induction hperm with
  | nil => rfl
  | cons field _ ih => 
    rw [find?_cons, find?_cons, ih (List.nodup_cons.mp hnodup).2]
  | swap a b rest => 
    have hne : b.1 ≠ a.1 := fun heq => by simp [heq] at hnodup
    rw [find?_cons, find?_cons, find?_cons, find?_cons]
    grind
  | trans h _ ih ih' => 
    exact (ih hnodup).trans (ih' ((h.map Prod.fst).nodup_iff.mp hnodup))

theorem ofDocument_eq_of_perm (hperm : fields.Perm fields')
    (hnodup : (fields.map Prod.fst).Nodup) :
    ofDocument (.object fields) = ofDocument (.object fields') := by
  simp only [ofDocument, findD, find?_eq_of_perm hperm hnodup]

end Order

section Written

variable {c k : Constraint Float}

/-- The entries that are written for one part. -/
def written (c : Constraint Float) (p : Part) : List (LooseText × Document) :=
  Resource.all.map fun r => (.sound r.wireName, .float (c.value p r))

theorem sets_written_iff {p : Part} (s r : Resource) (x : Float) :
    Sets (.sound s.wireName, .float (c.value p s)) r x ↔ s = r ∧ x = c.value p s := by
  constructor
  · rintro ⟨hname, hvalue⟩
    cases hvalue
    exact ⟨(names_wireName s).unique hname, rfl⟩
  · rintro ⟨rfl, rfl⟩
    exact ⟨names_wireName s, .float _⟩

theorem fieldOf?_toDocument (c : Constraint Float) (p : Part) :
    fieldOf? p.key c.toDocument = some (.object (c.written p)) := by
  cases p <;> rfl

/-- What is written of a constraint of admitted values is read back as it. -/
theorem Admitted.roundTrip (h : c.Admitted) : ofDocument c.toDocument = .ok c := by
  refine ofDocument_object_iff.mpr ⟨fun p => ?_, h, fun p r => ?_⟩
  · intro value hvalue
    obtain rfl := Option.some.inj ((fieldOf?_toDocument c p).symm.trans hvalue)
    refine ⟨c.written p, rfl, List.forall_mem_map.mpr fun r _ => ?_⟩
    exact ⟨r, c.value p r, (sets_written_iff r r _).mpr ⟨rfl, rfl⟩⟩
  · have hfields : fieldsOf (some c.toDocument) p = c.written p :=
      congrArg entriesOf (fieldOf?_toDocument c p)
    have hlast : Last Sets (c.written p) r (c.value p r) :=
      last_map sets_written_iff (by decide) (Resource.mem_all r)
    exact .last _ (hfields ▸ hlast)

theorem Admitted.beq_self (h : c.Admitted) : (c == c) = true := by
  have hnumeric (p : Part) : LoadVector.IsNumeric (c.part p) := fun r => isNaN_of_admits (h p r)
  change (c.percentage == c.percentage && c.threshold == c.threshold) = true
  have hpercentage : (c.percentage == c.percentage) = true :=
    vector_beq_self (hnumeric .percentage)
  have hthreshold : (c.threshold == c.threshold) = true := vector_beq_self (hnumeric .threshold)
  rw [hpercentage, hthreshold]
  rfl

/-- How constraints come about: from maps with values for some resources, from a document, and from
another constraint by overrides. -/
inductive Built : Constraint Float → Prop
  | constructed {c : Constraint Float} (maps : Overrides Document)
      (h : default.revise maps = .ok c) : Built c
  | read {c : Constraint Float} (d : Document) (h : ofDocument d = .ok c) : Built c
  | revised {c k : Constraint Float} (hc : Built c) (o : Overrides Document)
      (h : c.revise o = .ok k) : Built k

theorem Built.admitted (h : Built c) : c.Admitted := by
  cases h with
  | constructed maps h => exact (revise_eq_ok_iff.mp h).1
  | read d h =>
    obtain ⟨fields, rfl⟩ := exists_fields_of_ofDocument h
    exact (ofDocument_object_iff.mp h).2.1
  | revised hc o h => exact (revise_eq_ok_iff.mp h).1

end Written

end ClusterBalance.Constraint

namespace ClusterBalance.LoadVector

open Constraint Snapshot

variable {v w : LoadVector Float} {fields fields' : List (LooseText × Document)}

/-- By induction on the fields: what is said later replaces what is said before. -/
theorem settles_of_foldlM (h : fields.foldlM putField v = .ok w) (r : Resource) :
    Settles Sets fields r (v.get r) (w.get r) := by
  induction fields generalizing v with
  | nil =>
    cases h
    exact .kept nofun
  | cons field rest ih =>
    rw [List.foldlM_cons] at h
    obtain ⟨v', hv', h⟩ := bind_eq_ok_iff.mp h
    obtain ⟨r', x, hr', hx, rfl⟩ := putField_eq_ok_iff.mp hv'
    have hrest := ih h
    rw [PerResource.get_set] at hrest
    generalize w.get r = y at hrest
    by_cases hr : r = r'
    · subst hr
      rw [if_pos rfl] at hrest
      rcases hrest with ⟨_, hlast⟩ | hunsaid
      · exact .last y (.later field rest r y hlast)
      · exact .last x (.here field rest r x ⟨hr', hx⟩ hunsaid)
    · rw [if_neg hr] at hrest
      rcases hrest with ⟨_, hlast⟩ | hunsaid
      · exact .last y (.later field rest r y hlast)
      · exact .kept (List.forall_mem_cons.mpr ⟨fun x hsets => hr (hsets.1.unique hr'), hunsaid⟩)

theorem make_eq_ok_iff : make v = .ok w ↔ w = v ∧ ∀ r, ¬v.get r < 0.0 := by
  constructor
  · intro h
    refine ⟨?_, exists_make_iff.mp ⟨w, h⟩⟩
    unfold make at h
    split at h
    next => cases h
    next => exact (Except.ok.inj h).symm
  · rintro ⟨rfl, hnonneg⟩
    obtain ⟨w', hw'⟩ := exists_make_iff.mpr hnonneg
    unfold make at hw' ⊢
    split at hw'
    next => cases hw'
    next hnone => rfl

/-- A document is read as a vector exactly if every field sets an amount and the amounts that the
last fields say, with zero for the rest, are those of the vector and none is negative. -/
theorem ofDocument_object_iff : ofDocument (.object fields) = .ok v ↔
    AllSet fields ∧ (∀ r, ¬v.get r < 0.0) ∧ ∀ r, Settles Sets fields r 0.0 (v.get r) := by
  have hempty (r : Resource) : (empty : LoadVector Float).get r = 0.0 := PerResource.get_ofFn ..
  have hall : AllSet fields ↔ ∃ w, fields.foldlM putField empty = .ok w := by
    rw [exists_foldlM_putField_iff]
    refine forall₂_congr fun field _ => ⟨?_, ?_⟩
    · rintro ⟨r, x, hr, hx⟩
      exact ⟨⟨r, hr⟩, x, hx⟩
    · rintro ⟨⟨r, hr⟩, x, hx⟩
      exact ⟨r, x, hr, hx⟩
  have hsettles {w : LoadVector Float} (hw : fields.foldlM putField empty = .ok w) (r : Resource) :
      Settles Sets fields r 0.0 (w.get r) := hempty r ▸ settles_of_foldlM hw r
  constructor
  · intro h
    obtain ⟨w, hw, hmake⟩ := bind_eq_ok_iff.mp h
    obtain ⟨rfl, hnonneg⟩ := make_eq_ok_iff.mp hmake
    exact ⟨hall.mpr ⟨v, hw⟩, hnonneg, hsettles hw⟩
  · rintro ⟨hset, hnonneg, hvalue⟩
    obtain ⟨w, hw⟩ := hall.mp hset
    have hsame : v = w := PerResource.ext_get fun r => (hvalue r).unique (hsettles hw r)
    subst hsame
    exact bind_eq_ok_iff.mpr ⟨v, hw, make_eq_ok_iff.mpr ⟨rfl, hnonneg⟩⟩

theorem ofDocument_iff_of_rearranged (h : Rearranged fields fields') :
    ofDocument (.object fields) = .ok v ↔ ofDocument (.object fields') = .ok v := by
  simp only [ofDocument_object_iff, h.allSet_iff, h.settles_iff]

end ClusterBalance.LoadVector

namespace ClusterBalance.Constraint

open Document Snapshot

/-- What is written of a constraint is read back as it, and what is read for a resource is what the
last entry for it says, or else the default. So only the order of entries for one resource
matters. Vectors are read in the same way, with zero for the default. -/
theorem roundTrip_and_lastEntry :
    (∀ c, Built c → ofDocument c.toDocument = .ok c ∧ (c == c) = true) ∧
    (∀ d c, ofDocument d = .ok c →
      ∀ p r, Settles Sets (fieldsOf (some d) p) r (default.value p r) (c.value p r)) ∧
    (∀ fields fields' c, (∀ p : Part, SameTable (find? p.key fields) (find? p.key fields')) →
      (ofDocument (.object fields) = .ok c ↔ ofDocument (.object fields') = .ok c)) ∧
    (∀ fields fields', fields.Perm fields' → (fields.map Prod.fst).Nodup →
      ofDocument (.object fields) = ofDocument (.object fields')) ∧
    (∀ d v, LoadVector.ofDocument d = .ok v →
      ∀ r, Settles Sets (entriesOf (some d)) r 0.0 (v.get r)) ∧
    ∀ fields fields' v, Rearranged fields fields' →
      (LoadVector.ofDocument (.object fields) = .ok v ↔
        LoadVector.ofDocument (.object fields') = .ok v) := by
  refine ⟨fun c hc => ⟨hc.admitted.roundTrip, hc.admitted.beq_self⟩, fun d c h => ?_,
    fun _ _ _ => ofDocument_iff_of_sameTable, fun _ _ => ofDocument_eq_of_perm, fun d v h => ?_,
    fun _ _ _ => LoadVector.ofDocument_iff_of_rearranged⟩
  · obtain ⟨fields, rfl⟩ := exists_fields_of_ofDocument h
    exact (ofDocument_object_iff.mp h).2.2
  · cases d with
    | object fields => exact (LoadVector.ofDocument_object_iff.mp h).2.2
    | _ => cases h

/-- The document of some percentages. -/
def percentages (entries : List (String × Document)) : Document :=
  .ofFields [(percentageKey, .ofFields entries)]

/-- Percentages that name the processor twice. -/
def twice : List (String × Document) :=
  [(" cpu ", .int 2), ("Nw_In", .float (1.0 / 0.0)), ("CPU", .float 1.5)]

/-- Of two percentages for the processor the last one counts, wherever others stand. -/
theorem roundTrip_and_lastEntry_twice :
    ∃ c, Built c ∧ ofDocument c.toDocument = .ok c ∧ c.value .percentage .cpu = 1.5 ∧
      ofDocument (percentages twice) = .ok c ∧
      ofDocument (percentages [("Nw_In", .float (1.0 / 0.0)), (" cpu ", .int 2),
        ("CPU", .float 1.5)]) = .ok c ∧
      ofDocument (percentages twice.reverse) ≠ .ok c := by
  have hok : (ofDocument (percentages twice)).isOk = true := by decide +kernel
  obtain ⟨c, hc⟩ := exists_eq_ok_of_isOk hok
  have hbuilt : Built c := .read _ hc
  have hvalue : (ofDocument (percentages twice)).toOption.map
      (fun c => c.value .percentage .cpu) = some 1.5 := by decide +kernel
  have hreversed : (ofDocument (percentages twice.reverse)).toOption.map
      (fun c => c.value .percentage .cpu) = some 2.0 := by decide +kernel
  have hcpu : c.value .percentage .cpu = 1.5 := by
    rw [hc] at hvalue
    exact Option.some.inj hvalue
  have hmoved : ofDocument (percentages [("Nw_In", .float (1.0 / 0.0)), (" cpu ", .int 2),
      ("CPU", .float 1.5)]) = .ok c := by
    refine (roundTrip_and_lastEntry.2.2.1 _ _ c ?_).mp hc
    rintro (_ | _)
    · refine .object ⟨.swap .., fun r => ?_⟩
      have hin : decide (Names (.sound "Nw_In") r) = decide (r = .networkIn) := by
        cases r <;> decide +kernel
      have hcpu : decide (Names (.sound " cpu ") r) = decide (r = .cpu) := by
        cases r <;> decide +kernel
      cases r <;> simp [twice, List.filter, hin, hcpu]
    · exact .absent
  refine ⟨c, hbuilt, (roundTrip_and_lastEntry.1 c hbuilt).1, hcpu, hc, hmoved, fun h => ?_⟩
  rw [h] at hreversed
  have htwo : c.value .percentage .cpu = 2.0 := Option.some.inj hreversed
  exact absurd (hcpu.symm.trans htwo) (by decide +kernel)

end ClusterBalance.Constraint
