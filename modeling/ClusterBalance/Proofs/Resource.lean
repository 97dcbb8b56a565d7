import ClusterBalance.Proofs.Chain
import ClusterBalance.Resource

/-! The resources in their order: what a search over them finds first, and which of them ends a
computation over all. -/

namespace ClusterBalance

namespace Resource

/-- The resources that are summarized before one. -/
def before (r : Resource) : List Resource := all.takeWhile (· ≠ r)

/-- A search over the resources ends at the first of them that has something. -/
theorem findSome?_all_eq_some_iff {β : Type} {f : Resource → Option β} {y : β} :
    all.findSome? f = some y ↔ ∃ r, f r = some y ∧ ∀ r' ∈ r.before, f r' = none := by
  constructor
  · intro h
    obtain ⟨l, r, l', hall, hr, hnone⟩ := List.findSome?_eq_some_iff.mp h
    refine ⟨r, hr, fun r' hr' => hnone r' ?_⟩
    have hne : ∀ x ∈ l, decide (x ≠ r) = true := by
      intro x hx
      refine decide_eq_true fun heq => ?_
      rw [← heq, hnone x hx] at hr
      cases hr
    rw [before, hall, List.takeWhile_append_of_pos hne,
      List.takeWhile_cons_of_neg (by simp), List.append_nil] at hr'
    exact hr'
  · rintro ⟨r, hr, hnone⟩
    cases r <;> simp_all [all, before]

end Resource

theorem PerResource.exists_ofFnM_iff {ε β : Type} {f : Resource → Except ε β} :
    (∃ v, ofFnM f = .ok v) ↔ ∀ r, ∃ x, f r = .ok x := by
  constructor
  · rintro ⟨v, hv⟩ r
    exact ⟨v.get r, ofFnM_eq_ok_iff.mp hv r⟩
  · intro h
    refine ⟨ofFn fun r => (h r).choose, ofFnM_eq_ok_iff.mpr fun r => ?_⟩
    rw [get_ofFn]
    exact (h r).choose_spec

/-- A computation over the resources ends at the first of them that is refused. -/
theorem PerResource.ofFnM_eq_error_iff {ε β : Type} {f : Resource → Except ε β} {e : ε} :
    ofFnM f = .error e ↔ ∃ r, f r = .error e ∧ ∀ r' ∈ r.before, ∃ x, f r' = .ok x := by
  simp only [ofFnM, bind_eq_error_iff]
  constructor
  · rintro (h | ⟨c, hc, h | ⟨i, hi, h | ⟨o, ho, h | ⟨d, -, h⟩⟩⟩⟩)
    · exact ⟨.cpu, h, by simp [Resource.before, Resource.all]⟩
    · exact ⟨.networkIn, h, by simp [Resource.before, Resource.all, hc]⟩
    · exact ⟨.networkOut, h, by simp [Resource.before, Resource.all, hc, hi]⟩
    · exact ⟨.disk, h, by simp [Resource.before, Resource.all, hc, hi, ho]⟩
    · cases h
  · rintro ⟨r, h, hbefore⟩
    cases r with
    | cpu => exact .inl h
    | networkIn =>
      obtain ⟨c, hc⟩ := hbefore .cpu (by decide)
      exact .inr ⟨c, hc, .inl h⟩
    | networkOut =>
      obtain ⟨c, hc⟩ := hbefore .cpu (by decide)
      obtain ⟨i, hi⟩ := hbefore .networkIn (by decide)
      exact .inr ⟨c, hc, .inr ⟨i, hi, .inl h⟩⟩
    | disk =>
      obtain ⟨c, hc⟩ := hbefore .cpu (by decide)
      obtain ⟨i, hi⟩ := hbefore .networkIn (by decide)
      obtain ⟨o, ho⟩ := hbefore .networkOut (by decide)
      exact .inr ⟨c, hc, .inr ⟨i, hi, .inr ⟨o, ho, .inl h⟩⟩⟩

end ClusterBalance
