import ClusterBalance.Proofs.Sorting.Merge
import ClusterBalance.Sorting

/-! Sorting items that compare by a key. Main statement: no comparison is refused, and the result
has the same items in ascending order; where no two items have the same key, any such list is the
result. -/

namespace ClusterBalance.Sorting

variable {ε β L : Type} [LinearOrder L] {less : β → β → Except ε Bool} {key : β → L}
  {P : β → Prop}

section Runs

/-- How the items of a run that falls, or of one that does not, follow one another. -/
def Continues (key : β → L) (falls : Bool) (x y : β) : Prop := decide (key y < key x) = falls

theorem Continues.trans {falls : Bool} {x y z : β} (hxy : Continues key falls x y)
    (hyz : Continues key falls y z) : Continues key falls x z := by
  cases falls with
  | true =>
    simp only [Continues, decide_eq_true_eq] at hxy hyz ⊢
    exact hyz.trans hxy
  | false =>
    simp only [Continues, decide_eq_false_iff_not, not_lt] at hxy hyz ⊢
    exact hxy.trans hyz

theorem Continues.pairwise_cons {falls : Bool} {x y : β} {ys : List β}
    (hxy : Continues key falls x y) (h : (y :: ys).Pairwise (Continues key falls)) :
    (x :: y :: ys).Pairwise (Continues key falls) := by
  refine List.pairwise_cons.mpr ⟨List.forall_mem_cons.mpr ⟨hxy, fun z hz => ?_⟩, h⟩
  exact hxy.trans ((List.pairwise_cons.mp h).1 z hz)

theorem exists_spanRun_eq_ok (h : Compares less key P) (falls : Bool) {last : β} {xs : List β}
    (hP : ∀ x ∈ last :: xs, P x) :
    ∃ run rest, spanRun less falls last xs = .ok (run, rest) ∧ run ++ rest = xs ∧
      (last :: run).Pairwise (Continues key falls) := by
  induction xs generalizing last with
  | nil => exact ⟨[], [], rfl, rfl, List.pairwise_singleton ..⟩
  | cons x xs ih =>
    obtain ⟨hlast, hxs⟩ := List.forall_mem_cons.mp hP
    rw [spanRun, h x last (hxs x List.mem_cons_self) hlast, ok_bind]
    split
    next hgoesOn =>
      obtain ⟨run, rest, hrun, rfl, hpairwise⟩ := ih hxs
      exact ⟨x :: run, rest, by rw [hrun]; rfl, rfl, Continues.pairwise_cons hgoesOn hpairwise⟩
    next => exact ⟨[], x :: xs, rfl, rfl, List.pairwise_singleton ..⟩

theorem exists_firstRun_eq_ok (h : Compares less key P) {xs : List β} (hP : ∀ x ∈ xs, P x) :
    ∃ run rest, firstRun less xs = .ok (run, rest) ∧ (run ++ rest).Perm xs ∧
      Ascending key run ∧ (run = [] → xs = []) := by
  match xs, hP with
  | [], _ => exact ⟨[], [], rfl, .refl _, .nil, fun _ => rfl⟩
  | [x], _ => exact ⟨[x], [], rfl, .refl _, List.pairwise_singleton .., nofun⟩
  | x :: y :: rest, hP =>
    obtain ⟨hx, hrest⟩ := List.forall_mem_cons.mp hP
    have hy : P y := hrest y List.mem_cons_self
    obtain ⟨run, rest, hrun, rfl, hpairwise⟩ :=
      exists_spanRun_eq_ok h (decide (key y < key x)) hrest
    have hwhole : (x :: y :: run).Pairwise (Continues key (decide (key y < key x))) :=
      Continues.pairwise_cons rfl hpairwise
    rw [firstRun, h y x hy hx, ok_bind, hrun, ok_bind]
    by_cases hfalls : key y < key x
    · rw [decide_eq_true hfalls] at hwhole ⊢
      refine ⟨_, rest, rfl, (List.reverse_perm _).append_right rest, ?_, by simp⟩
      exact List.pairwise_reverse.mpr (hwhole.imp fun hlt => (of_decide_eq_true hlt).le)
    · rw [decide_eq_false hfalls] at hwhole ⊢
      exact ⟨_, rest, rfl, .refl _,
        hwhole.imp fun hge => not_lt.mp (of_decide_eq_false hge), nofun⟩

theorem exists_insert_eq_ok (h : Compares less key P) {sorted : Array β} {x : β}
    (hP : ∀ y ∈ x :: sorted.toList, P y) (hsorted : Ascending key sorted.toList) :
    ∃ ys, insert less sorted x = .ok ys ∧ ys.toList.Perm (x :: sorted.toList) ∧
      Ascending key ys.toList := by
  obtain ⟨sorted⟩ := sorted
  obtain ⟨hx, hitems⟩ := List.forall_mem_cons.mp hP
  obtain ⟨before, behind, rfl, hbefore, hbehind⟩ := @exists_border _ (fun y => key y ≤ key x) _ _
    (hsorted.imp fun hle hy => hle.trans hy)
  have hbisect := bisect_eq_ok
    (fun y hy => h.notLess hx (hitems y (Array.mem_toList_iff.mpr hy)))
    (isBorder_append hbefore hbehind) (Nat.le_refl _) (Nat.zero_le _)
    (isBorder_append hbefore hbehind).le_size
  refine ⟨(before ++ x :: behind).toArray, ?_, List.perm_middle, ?_⟩
  · rw [insert, hbisect, ok_bind]
    simp [pure, Except.pure]
  · have hparts := List.pairwise_append.mp hsorted
    refine List.pairwise_append.mpr ⟨hparts.1, List.pairwise_cons.mpr ⟨?_, hparts.2.1⟩, ?_⟩
    · exact fun y hy => (not_le.mp (hbehind y hy)).le
    · exact fun y hy => List.forall_mem_cons.mpr ⟨hbefore y hy, hparts.2.2 y hy⟩

theorem exists_insertAll_eq_ok (h : Compares less key P) (sorted : Array β) (added : List β)
    (hP : ∀ y ∈ sorted.toList ++ added, P y) (hsorted : Ascending key sorted.toList) :
    ∃ ys, added.foldlM (insert less) sorted = .ok ys ∧
      ys.toList.Perm (sorted.toList ++ added) ∧ Ascending key ys.toList := by
  induction added generalizing sorted with
  | nil => exact ⟨sorted, rfl, by rw [List.append_nil], hsorted⟩
  | cons x added ih =>
    obtain ⟨ys, hys, hperm, hascending⟩ :=
      exists_insert_eq_ok h (fun y hy => hP y (by simp at hy ⊢; tauto)) hsorted
    have hmoved : (ys.toList ++ added).Perm (sorted.toList ++ x :: added) :=
      (hperm.append_right added).trans List.perm_middle.symm
    obtain ⟨zs, hzs, hperm', hascending'⟩ :=
      ih ys (fun y hy => hP y (hmoved.mem_iff.mp hy)) hascending
    refine ⟨zs, ?_, hperm'.trans hmoved, hascending'⟩
    rw [List.foldlM_cons, hys, ok_bind, hzs]

/-- The start of a list that is not empty makes a run of one item or more. -/
theorem exists_longRun_eq_ok (h : Compares less key P) (length : Nat) {xs : List β}
    (hP : ∀ x ∈ xs, P x) :
    ∃ run rest, longRun less length xs = .ok (run, rest) ∧ (run ++ rest).Perm xs ∧
      Ascending key run ∧ (run = [] → xs = []) := by
  obtain ⟨run, rest, hrun, hperm, hascending, hempty⟩ := exists_firstRun_eq_ok h hP
  obtain ⟨added, rest', hsplit⟩ : ∃ added rest', rest.splitAt (length - run.length) =
    (added, rest') := ⟨_, _, rfl⟩
  have hrest : added ++ rest' = rest := by
    rw [List.splitAt_eq, Prod.mk.injEq] at hsplit
    rw [← hsplit.1, ← hsplit.2, List.take_append_drop]
  subst hrest
  rw [← List.append_assoc] at hperm
  obtain ⟨longer, hlonger, hperm', hascending'⟩ := exists_insertAll_eq_ok h run.toArray added
    (fun y hy => hP y (hperm.mem_iff.mp (List.mem_append_left rest' hy))) hascending
  refine ⟨longer.toList, rest', ?_, (hperm'.append_right rest').trans hperm, hascending', ?_⟩
  · rw [longRun, hrun, ok_bind]
    dsimp only
    rw [hsplit]
    dsimp only
    rw [hlonger]
    rfl
  · intro hnil
    rw [hnil, List.nil_perm, List.append_eq_nil_iff] at hperm'
    exact hempty hperm'.1

end Runs

section Waiting

/-- The runs that wait have the given items, and each is in ascending order. -/
structure Holds (key : β → L) (items : List β) (waiting : List (Waiting β)) : Prop where
  perm : (waiting.flatMap Waiting.run).Perm items
  ascending : ∀ w ∈ waiting, Ascending key w.run

variable {items : List β}

/-- Two runs next to each other are merged, the later of which comes first. -/
theorem Holds.exists_merge (h : Compares less key P) (hP : ∀ x ∈ items, P x)
    (before : List (Waiting β)) {rest : List (Waiting β)} {second first : Waiting β}
    (hholds : Holds key items (before ++ second :: first :: rest)) (threshold : Nat) :
    ∃ t run, mergeRuns less threshold first.run second.run = .ok (t, run) ∧
      Holds key items (before ++ { first with run } :: rest) := by
  obtain ⟨hperm, hascending⟩ := hholds
  simp only [List.flatMap_append, List.flatMap_cons] at hperm
  simp only [List.forall_mem_append, List.forall_mem_cons] at hascending
  obtain ⟨hbefore, hsecond, hfirst, hrest⟩ := hascending
  obtain ⟨t, run, hrun, hmerged, hrunAscending⟩ := exists_mergeRuns_eq_ok h
    (fun x hx => hP x (hperm.mem_iff.mp (by simp at hx ⊢; tauto))) hfirst hsecond threshold
  refine ⟨t, run, hrun, ?_, ?_⟩
  · simp only [List.flatMap_append, List.flatMap_cons]
    have hswapped : run.Perm (second.run ++ first.run) := hmerged.trans List.perm_append_comm
    refine (((hswapped.append_right _).append_left _).trans ?_).trans hperm
    rw [List.append_assoc]
  · simp only [List.forall_mem_append, List.forall_mem_cons]
    exact ⟨hbefore, hrunAscending, hrest⟩

theorem exists_mergeDeeper_eq_ok (h : Compares less key P) (hP : ∀ x ∈ items, P x)
    (level threshold : Nat) {waiting : List (Waiting β)} (hholds : Holds key items waiting) :
    ∃ t waiting', mergeDeeper less level threshold waiting = .ok (t, waiting') ∧
      Holds key items waiting' := by
  fun_induction mergeDeeper less level threshold waiting with
  | case1 threshold second first rest hdeeper ih =>
    obtain ⟨t, run, hrun, hmerged⟩ := Holds.exists_merge h hP [] hholds threshold
    rw [hrun, ok_bind]
    exact ih t run hmerged
  | case2 threshold second first rest => exact ⟨threshold, _, rfl, hholds⟩
  | case3 threshold waiting => exact ⟨threshold, _, rfl, hholds⟩

theorem exists_mergeAll_eq_ok (h : Compares less key P) (hP : ∀ x ∈ items, P x)
    (threshold : Nat) {waiting : List (Waiting β)} (hholds : Holds key items waiting) :
    ∃ ys, mergeAll less threshold waiting = .ok ys ∧ ys.Perm items ∧ Ascending key ys := by
  fun_induction mergeAll less threshold waiting with
  | case1 threshold third second first rest hshorter ih =>
    obtain ⟨t, run, hrun, hmerged⟩ := Holds.exists_merge h hP [third] hholds threshold
    rw [hrun, ok_bind]
    exact ih t run hmerged
  | case2 threshold third second first rest hshorter ih =>
    obtain ⟨t, run, hrun, hmerged⟩ := Holds.exists_merge h hP [] hholds threshold
    rw [hrun, ok_bind]
    exact ih t run hmerged
  | case3 threshold second first =>
    obtain ⟨t, run, hrun, hmerged⟩ := Holds.exists_merge h hP [] hholds threshold
    refine ⟨run, by rw [hrun]; rfl, ?_, hmerged.ascending _ List.mem_cons_self⟩
    simpa using hmerged.perm
  | case4 threshold only =>
    exact ⟨only.run, rfl, by simpa using hholds.perm, hholds.ascending _ List.mem_cons_self⟩
  | case5 threshold => exact ⟨[], rfl, by simpa using hholds.perm, .nil⟩

theorem exists_await_eq_ok (h : Compares less key P) (hP : ∀ x ∈ items, P x)
    (span threshold : Nat) {run : List β} (hrun : Ascending key run) {waiting : List (Waiting β)}
    (hholds : Holds key items waiting) :
    ∃ t waiting', await less span threshold run waiting = .ok (t, waiting') ∧
      Holds key (run ++ items) waiting' := by
  cases waiting with
  | nil =>
    refine ⟨threshold, _, rfl, hholds.perm.append_left run, ?_⟩
    exact List.forall_mem_singleton.mpr hrun
  | cons last rest =>
    unfold await
    dsimp only
    obtain ⟨t, waiting', hwaiting', hperm, hascending⟩ :=
      exists_mergeDeeper_eq_ok h hP (cutLevel span (span + 1) (2 * last.start + last.run.length)
        (2 * last.start + last.run.length + last.run.length + run.length)) threshold hholds
    rw [hwaiting', ok_bind]
    cases waiting' with
    | nil => exact ⟨t, _, rfl, hperm.append_left run, List.forall_mem_singleton.mpr hrun⟩
    | cons last' rest' =>
      obtain ⟨hlast, hrest⟩ := List.forall_mem_cons.mp hascending
      refine ⟨t, _, rfl, hperm.append_left run, ?_⟩
      exact List.forall_mem_cons.mpr ⟨hrun, List.forall_mem_cons.mpr ⟨hlast, hrest⟩⟩

end Waiting

section Whole

/-- Each round makes a run of some of the items that are left, so as many as items suffice. -/
theorem exists_sortRest_eq_ok (h : Compares less key P) (span : Nat) {fuel : Nat} (threshold : Nat)
    {waiting : List (Waiting β)} {items xs : List β} (hP : ∀ x ∈ xs ++ items, P x)
    (hholds : Holds key items waiting) (hfuel : xs.length ≤ fuel) :
    ∃ ys, sortRest less span fuel threshold waiting xs = .ok ys ∧ ys.Perm (xs ++ items) ∧
      Ascending key ys := by
  induction fuel generalizing threshold waiting items xs with
  | zero =>
    obtain rfl := List.eq_nil_of_length_eq_zero (Nat.le_zero.mp hfuel)
    rw [sortRest]
    · exact exists_mergeAll_eq_ok h hP threshold hholds
    · nofun
  | succ fuel ih =>
    cases xs with
    | nil =>
      rw [sortRest]
      · exact exists_mergeAll_eq_ok h hP threshold hholds
      · nofun
    | cons x xs =>
      obtain ⟨run, rest, hrun, hperm, hascending, hempty⟩ := exists_longRun_eq_ok h
        (leastRun span false span) fun y hy => hP y (List.mem_append_left items hy)
      obtain ⟨t, waiting', hwaiting', hholds'⟩ := exists_await_eq_ok h
        (fun y hy => hP y (List.mem_append_right _ hy)) span threshold hascending hholds
      have hmoved : (rest ++ (run ++ items)).Perm (x :: xs ++ items) := by
        rw [← List.append_assoc]
        exact (List.perm_append_comm.trans hperm).append_right items
      have hshorter : rest.length ≤ fuel := by
        have hlength := hperm.length_eq
        have hpositive : 0 < run.length := List.length_pos_of_ne_nil fun hnil => nomatch hempty hnil
        rw [List.length_append] at hlength
        omega
      obtain ⟨ys, hys, hperm', hascending'⟩ := ih t
        (fun y hy => hP y (hmoved.mem_iff.mp hy)) hholds' hshorter
      refine ⟨ys, ?_, hperm'.trans hmoved, hascending'⟩
      rw [sortRest, hrun, ok_bind]
      dsimp only
      rw [hwaiting', ok_bind]
      exact hys

theorem exists_sort_eq_ok (h : Compares less key P) {xs : List β} (hP : ∀ x ∈ xs, P x) :
    ∃ ys, sort less xs = .ok ys ∧ ys.Perm xs ∧ Ascending key ys := by
  have hnone : Holds key ([] : List β) [] := ⟨.refl [], nofun⟩
  have hsorted := exists_sortRest_eq_ok h xs.length Direction.longLeap
    (by rwa [List.append_nil]) hnone (Nat.le_refl _)
  rwa [List.append_nil] at hsorted

/-- Where no two items have the same key, any list of the items in ascending order is the result. -/
theorem sort_eq_ok (h : Compares less key P) (hkey : ∀ x y, P x → P y → key x = key y → x = y)
    {xs ys : List β} (hP : ∀ x ∈ xs, P x) (hperm : ys.Perm xs) (hascending : Ascending key ys) :
    sort less xs = .ok ys := by
  obtain ⟨zs, hzs, hpermZs, hascendingZs⟩ := exists_sort_eq_ok h hP
  have hsame : zs = ys := by
    refine List.Perm.eq_of_pairwise ?_ hascendingZs hascending (hpermZs.trans hperm.symm)
    intro x y hx hy hle hge
    exact hkey x y (hP x (hpermZs.mem_iff.mp hx)) (hP y (hperm.mem_iff.mp hy)) (le_antisymm hle hge)
  rw [hzs, hsame]

end Whole

end ClusterBalance.Sorting
