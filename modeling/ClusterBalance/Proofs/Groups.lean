import Mathlib.Algebra.BigOperators.Group.List.Basic
import Mathlib.Data.List.Nodup

/-! Items of a list in groups of the same key, where the keys stand in the order in which they come
first. Main statements: the groups make up the list, they stand in the order of their first items,
and what depends on the key adds up group by group. -/

namespace ClusterBalance

variable {β κ : Type} [DecidableEq κ] (key : β → κ)

theorem eraseDups_map_cons (x : β) (xs : List β) :
    ((x :: xs).map key).eraseDups =
      key x :: ((xs.filter (key · ≠ key x)).map key).eraseDups := by
  rw [List.map_cons, List.eraseDups_cons, List.filter_map]
  congr 4
  funext y
  by_cases h : key y = key x <;> simp [h]

/-- What holds of no items, and of an item with others if it holds of those others that have another
key, holds of all lists. -/
@[elab_as_elim]
theorem induction_by_key {P : List β → Prop} (xs : List β) (nil : P [])
    (cons : ∀ x xs, P (xs.filter (key · ≠ key x)) → P (x :: xs)) : P xs := by
  induction h : xs.length using Nat.strongRecOn generalizing xs with
  | ind n ih =>
    cases xs with
    | nil => exact nil
    | cons x xs =>
      have hshorter := List.length_filter_le (key · ≠ key x) xs
      exact cons x xs (ih _ (by rw [← h, List.length_cons]; omega) _ rfl)

theorem nodup_eraseDups_map (xs : List β) : (xs.map key).eraseDups.Nodup := by
  refine induction_by_key key xs List.nodup_nil ?_
  intro x xs ih
  rw [eraseDups_map_cons, List.nodup_cons, List.mem_eraseDups]
  exact ⟨by simp, ih⟩

theorem mem_eraseDups_filter {xs : List β} {k k' : κ}
    (h : k' ∈ ((xs.filter (key · ≠ k)).map key).eraseDups) : k' ≠ k := by
  rw [List.mem_eraseDups, List.mem_map] at h
  obtain ⟨y, hy, rfl⟩ := h
  exact of_decide_eq_true (List.mem_filter.mp hy).2

/-- The groups of items with the same key make up the whole. -/
theorem groups_perm (xs : List β) :
    ((xs.map key).eraseDups.flatMap fun k => xs.filter (key · = k)).Perm xs := by
  refine induction_by_key key xs .nil ?_
  intro x xs ih
  rw [eraseDups_map_cons, List.flatMap_cons, List.filter_cons_of_pos (by simp)]
  -- no later group has the first item, nor any item of its group
  have hlater : ((xs.filter (key · ≠ key x)).map key).eraseDups.flatMap
        (fun k => (x :: xs).filter (key · = k)) =
      ((xs.filter (key · ≠ key x)).map key).eraseDups.flatMap
        (fun k => (xs.filter (key · ≠ key x)).filter (key · = k)) := by
    apply List.flatMap_congr
    intro k hk
    have hne := mem_eraseDups_filter key hk
    rw [List.filter_cons_of_neg (by simpa using hne.symm), List.filter_filter]
    apply List.filter_congr
    intro y _
    by_cases hy : key y = k <;> simp [hy, hne]
  rw [hlater, List.cons_append]
  apply List.Perm.cons
  have hparts := List.filter_append_perm (fun y => decide (key y = key x)) xs
  simp only [← decide_not] at hparts
  exact (ih.append_left _).trans hparts

/-- The groups stand in the order of their first items. -/
theorem groups_pairwise {R : β → β → Prop} (xs : List β) (h : xs.Pairwise R) :
    (xs.map key).eraseDups.Pairwise fun k k' =>
      ∃ x ∈ xs, key x = k ∧ (∀ y ∈ xs, key y = k → y = x ∨ R x y) ∧
        ∀ y ∈ xs, key y = k' → R x y := by
  revert h
  refine induction_by_key key xs (fun _ => .nil) ?_
  intro x xs ih h
  obtain ⟨hx, hxs⟩ := List.pairwise_cons.mp h
  rw [eraseDups_map_cons, List.pairwise_cons]
  constructor
  · intro k hk
    have hne := mem_eraseDups_filter key hk
    refine ⟨x, List.mem_cons_self, rfl, ?_, ?_⟩
    · intro y hy _
      exact (List.mem_cons.mp hy).imp_right (hx y)
    · rintro y hy rfl
      rcases List.mem_cons.mp hy with rfl | hy
      · exact absurd rfl hne
      · exact hx y hy
  · apply (ih (hxs.filter _)).imp_of_mem
    rintro k k' hk hk' ⟨y, hy, rfl, hfirst, hlater⟩
    have hstays (z : β) (hz : z ∈ x :: xs) (hne : key z ≠ key x) :
        z ∈ xs.filter (key · ≠ key x) := by
      rcases List.mem_cons.mp hz with rfl | hz
      · exact absurd rfl hne
      · exact List.mem_filter.mpr ⟨hz, decide_eq_true hne⟩
    have hk := mem_eraseDups_filter key hk
    have hk' := mem_eraseDups_filter key hk'
    refine ⟨y, List.mem_cons_of_mem x (List.mem_filter.mp hy).1, rfl, ?_, ?_⟩
    · intro z hz hzk
      exact hfirst z (hstays z hz (hzk ▸ hk)) hzk
    · intro z hz hzk
      exact hlater z (hstays z hz (hzk ▸ hk')) hzk

theorem sum_flatMap {γ M : Type} [AddMonoid M] (f : γ → List M) (xs : List γ) :
    (xs.flatMap f).sum = (xs.map fun x => (f x).sum).sum := by
  rw [List.flatMap_def, List.sum_flatten, List.map_map]
  rfl

/-- What depends on the keys adds up over the items as over the keys, each as often as it comes. -/
theorem sum_map_keys {M : Type} [AddCommMonoid M] (f : κ → M) (xs : List β) :
    (xs.map fun x => f (key x)).sum =
      ((xs.map key).eraseDups.map fun k => xs.countP (key · = k) • f k).sum := by
  have hgroup (k : κ) : ((xs.filter (key · = k)).map fun x => f (key x)).sum =
      xs.countP (key · = k) • f k := by
    rw [List.countP_eq_length_filter, List.sum_eq_card_nsmul _ (f k), List.length_map]
    intro y hy
    obtain ⟨x, hx, rfl⟩ := List.mem_map.mp hy
    rw [of_decide_eq_true (List.mem_filter.mp hx).2]
  rw [← ((groups_perm key xs).map _).sum_eq, List.map_flatMap, sum_flatMap, funext hgroup]

theorem find?_eq_some_iff_of_nodup {xs : List β} (h : (xs.map key).Nodup) {k : κ} {x : β} :
    xs.find? (key · = k) = some x ↔ x ∈ xs ∧ key x = k := by
  constructor
  · intro hfind
    exact ⟨List.mem_of_find?_eq_some hfind, by simpa using List.find?_some hfind⟩
  · rintro ⟨hmem, rfl⟩
    cases hfind : xs.find? (key · = key x) with
    | none => simpa using List.find?_eq_none.mp hfind x hmem
    | some y =>
      have hy : key y = key x := by simpa using List.find?_some hfind
      rw [List.inj_on_of_nodup_map h (List.mem_of_find?_eq_some hfind) hmem hy]

end ClusterBalance
