import ClusterBalance.Proofs.Snapshot.Shape

/-! Reading amounts. Main statement: an object is read as a vector exactly if it is one of amounts,
of which the last one for each resource counts. -/

namespace ClusterBalance.Snapshot

open Document

theorem number_eq_iff {value : Document} {x : Float} :
    value.number = .number x ↔ Denotes value x := by
  constructor
  · intro h
    cases value with
    | int n =>
      rw [number] at h
      split at h
      · next hx =>
        cases h
        exact .whole n x hx
      · cases h
    | float y =>
      cases h
      exact .float x
    | _ => cases h
  · rintro (_ | ⟨n, _, hn⟩)
    · rfl
    · rw [number, hn]

theorem resourceOfKey_eq_ok_iff {key : LooseText} {r : Resource} :
    resourceOfKey key = .ok r ↔ Names key r := by
  unfold resourceOfKey Names
  cases key.sound?.bind Resource.ofName? <;> simp

theorem Names.unique {key : LooseText} {r r' : Resource} (h : Names key r) (h' : Names key r') :
    r = r' :=
  Option.some.inj (h.symm.trans h')

theorem putField_eq_ok_iff {v w : LoadVector Float} {field : LooseText × Document} :
    LoadVector.putField v field = .ok w ↔
      ∃ r x, Names field.1 r ∧ Denotes field.2 x ∧ w = v.set r x := by
  obtain ⟨key, value⟩ := field
  simp only [← number_eq_iff, ← resourceOfKey_eq_ok_iff, LoadVector.putField]
  cases value.number with
  | notNumeric => simp
  | tooLarge => simp
  | number x =>
    refine bind_eq_ok_iff.trans ⟨?_, ?_⟩
    · rintro ⟨r, hr, h⟩
      cases h
      exact ⟨r, x, hr, rfl, rfl⟩
    · rintro ⟨r, x', hr, hx, rfl⟩
      cases hx
      exact ⟨r, hr, rfl⟩

variable {v w : LoadVector Float} {fields : List (LooseText × Document)} {r : Resource}

theorem exists_foldlM_putField_iff :
    (∃ w, fields.foldlM LoadVector.putField v = .ok w) ↔
      ∀ field ∈ fields, (∃ r, Names field.1 r) ∧ ∃ x, Denotes field.2 x := by
  induction fields generalizing v with
  | nil => exact ⟨fun _ => nofun, fun _ => ⟨v, rfl⟩⟩
  | cons field rest ih =>
    rw [List.foldlM_cons, List.forall_mem_cons]
    constructor
    · rintro ⟨w, h⟩
      obtain ⟨v', hv', h⟩ := bind_eq_ok_iff.mp h
      obtain ⟨r, x, hr, hx, -⟩ := putField_eq_ok_iff.mp hv'
      exact ⟨⟨⟨r, hr⟩, x, hx⟩, ih.mp ⟨w, h⟩⟩
    · rintro ⟨⟨⟨r, hr⟩, x, hx⟩, hrest⟩
      obtain ⟨w, h⟩ := ih.mpr hrest
      exact ⟨w, bind_eq_ok_iff.mpr ⟨v.set r x, putField_eq_ok_iff.mpr ⟨r, x, hr, hx, rfl⟩, h⟩⟩

theorem get_foldlM_of_unnamed (h : fields.foldlM LoadVector.putField v = .ok w)
    (hr : ∀ field ∈ fields, ¬Names field.1 r) : w.get r = v.get r := by
  induction fields generalizing v with
  | nil =>
    cases h
    rfl
  | cons field rest ih =>
    rw [List.foldlM_cons] at h
    obtain ⟨hfield, hrest⟩ := List.forall_mem_cons.mp hr
    obtain ⟨v', hv', h⟩ := bind_eq_ok_iff.mp h
    obtain ⟨r', x, hr', -, rfl⟩ := putField_eq_ok_iff.mp hv'
    rw [ih h hrest, PerResource.get_set, if_neg]
    rintro rfl
    exact hfield hr'

/-- Of the fields that name a resource the last one counts. -/
theorem get_foldlM_of_last {before after : List (LooseText × Document)} {key : LooseText}
    {value : Document} {x : Float}
    (h : (before ++ (key, value) :: after).foldlM LoadVector.putField v = .ok w)
    (hr : Names key r) (hafter : ∀ field ∈ after, ¬Names field.1 r) (hx : Denotes value x) :
    w.get r = x := by
  rw [List.foldlM_append] at h
  obtain ⟨v', -, h⟩ := bind_eq_ok_iff.mp h
  rw [List.foldlM_cons] at h
  obtain ⟨v'', hv'', h⟩ := bind_eq_ok_iff.mp h
  obtain ⟨r', x', hr', hx', rfl⟩ := putField_eq_ok_iff.mp hv''
  have hxx : NumberReading.number x' = .number x :=
    (number_eq_iff.mpr hx').symm.trans (number_eq_iff.mpr hx)
  cases hxx
  rw [get_foldlM_of_unnamed h hafter, PerResource.get_set, if_pos (hr.unique hr')]

theorem exists_last_named (h : ∃ field ∈ fields, Names field.1 r) :
    ∃ before key value after, fields = before ++ (key, value) :: after ∧ Names key r ∧
      ∀ field ∈ after, ¬Names field.1 r := by
  induction fields with
  | nil => simp at h
  | cons field rest ih =>
    by_cases hrest : ∃ field ∈ rest, Names field.1 r
    · obtain ⟨before, key, value, after, rfl, hkey, hafter⟩ := ih hrest
      exact ⟨field :: before, key, value, after, rfl, hkey, hafter⟩
    · obtain ⟨field', hmem, hr⟩ := h
      rcases List.mem_cons.mp hmem with rfl | hmem
      · exact ⟨[], field'.1, field'.2, rest, rfl, hr, fun f hf hn => hrest ⟨f, hf, hn⟩⟩
      · exact absurd ⟨field', hmem, hr⟩ hrest

theorem exists_make_iff : (∃ w, LoadVector.make v = .ok w) ↔ ∀ r, ¬v.get r < 0.0 := by
  have hnone : v.negative? = none ↔ ∀ r, ¬v.get r < 0.0 := by
    rw [LoadVector.negative?, List.find?_eq_none]
    simp only [decide_eq_true_eq]
    exact ⟨fun h r => h r (Resource.mem_all r), fun h r _ => h r⟩
  rw [← hnone, LoadVector.make]
  cases v.negative? <;> simp

/-- An object is read as a vector exactly if its fields are amounts. -/
theorem exists_ofDocument_object_iff :
    (∃ v, LoadVector.ofDocument (.object fields) = .ok v) ↔ AreAmounts fields := by
  have hfold := @exists_foldlM_putField_iff LoadVector.empty fields
  have hempty (r : Resource) : (LoadVector.empty : LoadVector Float).get r = 0.0 :=
    PerResource.get_ofFn ..
  constructor
  · rintro ⟨v, h⟩
    obtain ⟨w, hw, hmake⟩ := bind_eq_ok_iff.mp h
    have hfields := hfold.mp ⟨w, hw⟩
    refine ⟨fun f hf => (hfields f hf).1, fun f hf => (hfields f hf).2, ?_⟩
    rintro before key value after r x rfl hr hafter hx
    rw [← get_foldlM_of_last hw hr hafter hx]
    exact exists_make_iff.mp ⟨v, hmake⟩ r
  · intro h
    obtain ⟨w, hw⟩ := hfold.mpr fun f hf => ⟨h.keys f hf, h.numbers f hf⟩
    have hnonneg (r : Resource) : ¬w.get r < 0.0 := by
      by_cases hnamed : ∃ field ∈ fields, Names field.1 r
      · obtain ⟨before, key, value, after, heq, hr, hafter⟩ := exists_last_named hnamed
        obtain ⟨x, hx⟩ := h.numbers (key, value) (by simp [heq])
        subst heq
        rw [get_foldlM_of_last hw hr hafter hx]
        exact h.last before key value after r x rfl hr hafter hx
      · rw [get_foldlM_of_unnamed hw fun f hf hn => hnamed ⟨f, hf, hn⟩, hempty]
        decide +kernel
    obtain ⟨v, hv⟩ := exists_make_iff.mpr hnonneg
    exact ⟨v, bind_eq_ok_iff.mpr ⟨w, hw, hv⟩⟩

/-- A field is read as a vector exactly if it is one, or absent. -/
theorem exists_ofDocument_findD_iff {key : String} :
    (∃ v, LoadVector.ofDocument (findD key (.object []) fields) = .ok v) ↔
      IsVector (find? key fields) := by
  unfold findD IsVector
  cases find? key fields with
  | none =>
    have hempty : AreAmounts [] := ⟨nofun, nofun, fun before _ _ _ _ _ h => by simp at h⟩
    exact iff_of_true (exists_ofDocument_object_iff.mpr hempty) nofun
  | some value =>
    cases value with
    | object fields' =>
      refine exists_ofDocument_object_iff.trans ⟨?_, fun h => ?_⟩
      · rintro h _ ⟨⟩
        exact ⟨fields', rfl, h⟩
      · obtain ⟨_, ⟨⟩, h⟩ := h _ rfl
        exact h
    | _ => exact iff_of_false (fun ⟨_, h⟩ => nomatch h) fun h => by obtain ⟨_, ⟨⟩, -⟩ := h _ rfl

end ClusterBalance.Snapshot
