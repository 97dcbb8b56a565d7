import ClusterBalance.Proofs.Chain
import ClusterBalance.Sorting.Search

/-! The search for a border in a list whose items before some place satisfy a condition and whose
items behind it do not. Main statement: wherever the search starts, it ends at that place. -/

namespace ClusterBalance.Sorting

variable {ε β : Type} {T : β → Prop}

/-- The items of an array before a place satisfy a condition, and those behind it do not. -/
structure IsBorder (T : β → Prop) (xs : Array β) (b : Nat) : Prop where
  le_size : b ≤ xs.size
  iff : ∀ i (h : i < xs.size), T xs[i] ↔ i < b

theorem isBorder_append {before behind : List β} (hbefore : ∀ x ∈ before, T x)
    (hbehind : ∀ x ∈ behind, ¬T x) : IsBorder T (before ++ behind).toArray before.length where
  le_size := by simp
  iff := fun i hi => by
    rw [List.getElem_toArray, List.getElem_append]
    split
    next h => exact iff_of_true (hbefore _ (List.getElem_mem h)) h
    next h => exact iff_of_false (hbehind _ (List.getElem_mem _)) h

variable [DecidablePred T]

/-- A list in which the condition does not come back behind an item that fails it is cut in two. -/
theorem exists_border {xs : List β} (h : xs.Pairwise fun x y => T y → T x) :
    ∃ before behind, xs = before ++ behind ∧ (∀ x ∈ before, T x) ∧ ∀ x ∈ behind, ¬T x := by
  induction xs with
  | nil => exact ⟨[], [], rfl, nofun, nofun⟩
  | cons x xs ih =>
    obtain ⟨hx, hxs⟩ := List.pairwise_cons.mp h
    by_cases hT : T x
    · obtain ⟨before, behind, rfl, hbefore, hbehind⟩ := ih hxs
      exact ⟨x :: before, behind, rfl, List.forall_mem_cons.mpr ⟨hT, hbefore⟩, hbehind⟩
    · have hnone : ∀ y ∈ xs, ¬T y := fun y hy hTy => hT (hx y hy hTy)
      exact ⟨[], x :: xs, rfl, nofun, List.forall_mem_cons.mpr ⟨hT, hnone⟩⟩

section Arrays

variable {isBefore : β → Except ε Bool} {xs : Array β} {b : Nat}

/-- A condition is decided for every item of an array. -/
def Decides (isBefore : β → Except ε Bool) (T : β → Prop) [DecidablePred T] (xs : Array β) :
    Prop :=
  ∀ x ∈ xs, isBefore x = .ok (decide (T x))

theorem Decides.getElem (h : Decides isBefore T xs) (hb : IsBorder T xs b) {i : Nat}
    (hi : i < xs.size) : isBefore xs[i] = .ok (decide (i < b)) := by
  rw [h _ (Array.getElem_mem hi), decide_eq_decide.mpr (hb.iff i hi)]

theorem Decides.isBeforeAt (h : Decides isBefore T xs) (hb : IsBorder T xs b) (i : Nat) :
    isBeforeAt isBefore xs i = .ok (decide (i < b)) := by
  unfold Sorting.isBeforeAt
  by_cases hi : i < xs.size
  · rw [Array.getElem?_eq_getElem hi]
    exact h.getElem hb hi
  · have hge : ¬i < b := fun hlt => hi (Nat.lt_of_lt_of_le hlt hb.le_size)
    rw [Array.getElem?_eq_none (Nat.le_of_not_lt hi), decide_eq_false hge]

/-- Halving keeps the border between the bounds. -/
theorem bisect_eq_ok (h : Decides isBefore T xs) (hb : IsBorder T xs b) {low high : Nat}
    (bound : high ≤ xs.size) (hlow : low ≤ b) (hhigh : b ≤ high) :
    bisect isBefore xs low high bound = .ok b := by
  induction hn : high - low using Nat.strongRecOn generalizing low high with
  | ind n ih =>
    rw [bisect]
    split
    next hopen =>
      have hmiddle : low + (high - low) / 2 < xs.size := by omega
      dsimp only
      rw [h.getElem hb hmiddle, ok_bind]
      by_cases hlt : low + (high - low) / 2 < b
      · rw [decide_eq_true hlt, if_pos rfl]
        exact ih _ (by omega) bound (by omega) hhigh rfl
      · rw [decide_eq_false hlt, if_neg Bool.false_ne_true]
        exact ih _ (by omega) (by omega) hlow (by omega) rfl
    next hclosed => rw [show low = b by omega]

/-- Strides end on both sides of the distance at which they stop going on. -/
theorem exists_stride_eq_ok {goesOn : Nat → Except ε Bool} {limit stop : Nat} (hstop : stop ≤ limit)
    (hgoesOn : ∀ d < limit, goesOn d = .ok (decide (d < stop))) (last next : Nat)
    (hlast : last < stop) :
    ∃ l n, stride goesOn limit last next = .ok (l, n) ∧ l < stop ∧ stop ≤ n := by
  induction hn : limit - next using Nat.strongRecOn generalizing last next with
  | ind n ih =>
    rw [stride]
    split
    next hnear =>
      rw [hgoesOn next hnear, ok_bind]
      by_cases hlt : next < stop
      · rw [decide_eq_true hlt, if_pos rfl]
        exact ih _ (by omega) next _ hlt rfl
      · rw [decide_eq_false hlt, if_neg Bool.false_ne_true]
        exact ⟨last, next, rfl, hlast, by omega⟩
    next => exact ⟨last, limit, rfl, hlast, hstop⟩

/-- The border is found from any hint on. -/
theorem border_eq_ok (h : Decides isBefore T xs) (hb : IsBorder T xs b) (hint : Nat) :
    border isBefore xs hint = .ok b := by
  have hsize := hb.le_size
  unfold border
  rw [h.isBeforeAt hb, ok_bind]
  by_cases hhint : hint < b
  · have hgoesOn : ∀ d < xs.size - hint,
        isBeforeAt isBefore xs (hint + d) = .ok (decide (d < b - hint)) := by
      intro d _
      rw [h.isBeforeAt hb, Except.ok.injEq, decide_eq_decide]
      omega
    obtain ⟨l, n, hstride, hl, hn⟩ :=
      exists_stride_eq_ok (by omega) hgoesOn 0 1 (by omega)
    rw [decide_eq_true hhint, if_pos rfl, hstride, ok_bind]
    exact bisect_eq_ok h hb _ (by omega) (by omega)
  · have hgoesOn : ∀ d < hint + 1,
        (do return !(← isBeforeAt isBefore xs (hint - d))) =
          Except.ok (decide (d < hint + 1 - b)) := by
      intro d hd
      have hnot : (!decide (hint - d < b)) = decide (d < hint + 1 - b) := by
        rw [← decide_not, decide_eq_decide]
        omega
      rw [h.isBeforeAt hb, ok_bind, hnot]
      rfl
    obtain ⟨l, n, hstride, hl, hn⟩ :=
      exists_stride_eq_ok (by omega) hgoesOn 0 1 (by omega)
    rw [decide_eq_false hhint, if_neg Bool.false_ne_true, hstride, ok_bind]
    exact bisect_eq_ok h hb _ (by omega) (by omega)

end Arrays

/-- The search for a border cuts a list in two. -/
theorem exists_border_eq_ok {isBefore : β → Except ε Bool} {xs : List β}
    (hdecides : ∀ x ∈ xs, isBefore x = .ok (decide (T x))) (h : xs.Pairwise fun x y => T y → T x)
    (hint : Nat) :
    ∃ before behind, xs = before ++ behind ∧
      border isBefore xs.toArray hint = .ok before.length ∧
      (∀ x ∈ before, T x) ∧ ∀ x ∈ behind, ¬T x := by
  obtain ⟨before, behind, rfl, hbefore, hbehind⟩ := exists_border h
  have hdecides : Decides isBefore T (before ++ behind).toArray := fun x hx =>
    hdecides x (List.mem_toArray.mp hx)
  exact ⟨before, behind, rfl, border_eq_ok hdecides (isBorder_append hbefore hbehind) hint,
    hbefore, hbehind⟩

end ClusterBalance.Sorting
