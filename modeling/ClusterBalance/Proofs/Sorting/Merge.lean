import Mathlib
import ClusterBalance.Proofs.Sorting.Search
import ClusterBalance.Sorting.Merge

/-! Merging two runs in ascending order. Main statement: where items compare by a key, two runs in
ascending order are merged into one run of all their items, however the merge walks and leaps. -/

namespace ClusterBalance.Sorting

variable {ε β L : Type} [LinearOrder L] {less : β → β → Except ε Bool} {key : β → L}
  {P : β → Prop}

/-- Items of some kind compare by a key. -/
def Compares (less : β → β → Except ε Bool) (key : β → L) (P : β → Prop) : Prop :=
  ∀ x y, P x → P y → less x y = .ok (decide (key x < key y))

/-- The keys of a list do not fall. -/
def Ascending (key : β → L) (xs : List β) : Prop := xs.Pairwise fun x y => key x ≤ key y

theorem Compares.notLess (h : Compares less key P) {x y : β} (hx : P x) (hy : P y) :
    notLess less x y = .ok (decide (key y ≤ key x)) := by
  have hnot : (!decide (key x < key y)) = decide (key y ≤ key x) := by
    rw [← decide_not, decide_eq_decide]
    exact not_lt
  rw [Sorting.notLess, h x y hx hy, ok_bind, hnot]
  rfl

section Directions

/-- Items of some kind are merged in one direction by a key: an item of the other run is taken first
exactly if its key is less, and the searches find how far this goes on. -/
structure Direction.Follows (d : Direction) (less : β → β → Except ε Bool) (key : β → L)
    (P : β → Prop) : Prop where
  takesOther : ∀ k o, P k → P o → d.takesOther less k o = .ok (decide (key o < key k))
  keptAhead : ∀ o kept, P o → (∀ k ∈ kept, P k) → Ascending key kept →
    ∃ ahead rest, kept = ahead ++ rest ∧ d.keptAhead less o kept = .ok ahead.length ∧
      (∀ k ∈ ahead, key k ≤ key o) ∧ ∀ k ∈ rest, key o ≤ key k
  otherAhead : ∀ k other, P k → (∀ o ∈ other, P o) → Ascending key other →
    ∃ ahead rest, other = ahead ++ rest ∧ d.otherAhead less k other = .ok ahead.length ∧
      (∀ o ∈ ahead, key o ≤ key k) ∧ ∀ o ∈ rest, key k ≤ key o

theorem follows_forward (h : Compares less key P) : Direction.forward.Follows less key P where
  takesOther := fun k o hk ho => h o k ho hk
  keptAhead := fun o kept ho hkept hascending => by
    obtain ⟨ahead, rest, rfl, hborder, hahead, hrest⟩ := exists_border_eq_ok
      (fun k hk => h.notLess ho (hkept k hk)) (hascending.imp fun hle hy => hle.trans hy) 0
    exact ⟨ahead, rest, rfl, hborder, hahead, fun k hk => (not_le.mp (hrest k hk)).le⟩
  otherAhead := fun k other hk hother hascending => by
    obtain ⟨ahead, rest, rfl, hborder, hahead, hrest⟩ := exists_border_eq_ok
      (fun o ho => h o k (hother o ho) hk) (hascending.imp fun hle hy => hle.trans_lt hy) 0
    exact ⟨ahead, rest, rfl, hborder, fun o ho => (hahead o ho).le,
      fun o ho => not_lt.mp (hrest o ho)⟩

/-- A search from the end of a run that comes in reverse. -/
theorem exists_behindBorder_eq_ok {T : β → Prop} [DecidablePred T] {isBefore : β → Except ε Bool}
    {reversed : List β} (hdecides : ∀ x ∈ reversed, isBefore x = .ok (decide (T x)))
    (h : reversed.Pairwise fun x y => T x → T y) :
    ∃ ahead rest, reversed = ahead ++ rest ∧ behindBorder isBefore reversed = .ok ahead.length ∧
      (∀ x ∈ ahead, ¬T x) ∧ ∀ x ∈ rest, T x := by
  obtain ⟨before, behind, heq, hborder, hbefore, hbehind⟩ := exists_border_eq_ok
    (fun x hx => hdecides x (List.mem_reverse.mp hx)) (List.pairwise_reverse.mpr h)
    (reversed.reverse.toArray.size - 1)
  have hreversed : reversed = behind.reverse ++ before.reverse := by
    rw [← List.reverse_append, ← heq, List.reverse_reverse]
  refine ⟨behind.reverse, before.reverse, hreversed, ?_, ?_, ?_⟩
  · rw [behindBorder, hborder, ok_bind, heq]
    simp [pure, Except.pure]
  · simpa using hbehind
  · simpa using hbefore

/-- Merging from the end follows the order from the greatest key to the least. -/
theorem follows_backward (h : Compares less key P) :
    Direction.backward.Follows less (OrderDual.toDual ∘ key) P where
  takesOther := fun k o hk ho => h k o hk ho
  keptAhead := fun o kept ho hkept hascending => by
    have hfalls : kept.Pairwise fun x y => key y ≤ key x := hascending
    obtain ⟨ahead, rest, rfl, hborder, hahead, hrest⟩ := exists_behindBorder_eq_ok
      (fun k hk => h k o (hkept k hk) ho) (hfalls.imp fun hle hx => hle.trans_lt hx)
    exact ⟨ahead, rest, rfl, hborder, fun k hk => not_lt.mp (hahead k hk),
      fun k hk => (hrest k hk).le⟩
  otherAhead := fun k other hk hother hascending => by
    have hfalls : other.Pairwise fun x y => key y ≤ key x := hascending
    obtain ⟨ahead, rest, rfl, hborder, hahead, hrest⟩ := exists_behindBorder_eq_ok
      (fun o ho => h.notLess hk (hother o ho)) (hfalls.imp fun hle hx => hle.trans hx)
    exact ⟨ahead, rest, rfl, hborder, fun o ho => (not_le.mp (hahead o ho)).le, hrest⟩

end Directions

namespace Merging

/-- A merge under way is sound: it has all items, what is merged goes on in ascending order with
either run, and the last item of the kept run is not below the other run. -/
structure Sound (key : β → L) (whole : List β) (m : Merging β) : Prop where
  perm : (m.merged ++ (m.kept ++ m.other)).Perm whole
  kept : Ascending key (m.merged.reverse ++ m.kept)
  other : Ascending key (m.merged.reverse ++ m.other)
  last : ∀ k ∈ m.kept.getLast?, ∀ o ∈ m.other, key o ≤ key k

/-- How many items are left to be merged. -/
def size (m : Merging β) : Nat := m.kept.length + m.other.length

/-- What a step makes of a merge: it is sound, and it is over or has fewer items left. -/
structure Advanced (key : β → L) (whole : List β) (before : Nat) (m : Merging β) : Prop where
  sound : Sound key whole m
  shrinks : m.isOver = true ∨ m.size < before

variable {whole merged ahead kept other : List β} {m : Merging β}

theorem ascending_take {before rest others : List β} (h : Ascending key (before ++ (ahead ++ rest)))
    (hothers : Ascending key (before ++ others))
    (hle : ∀ x ∈ ahead, ∀ y ∈ others, key x ≤ key y) :
    Ascending key (before ++ ahead ++ others) := by
  simp only [Ascending, List.pairwise_append, List.mem_append] at h hothers ⊢
  grind

theorem perm_take (merged ahead rest : List β) :
    (ahead.reverse ++ merged ++ rest).Perm (merged ++ (ahead ++ rest)) := by
  have hfront : (ahead.reverse ++ merged).Perm (merged ++ ahead) :=
    (ahead.reverse_perm.append_right merged).trans List.perm_append_comm
  rw [← List.append_assoc]
  exact hfront.append_right rest

/-- Items of the kept run are taken that are not above those of the other run. -/
theorem Sound.takeKept (h : Sound key whole ⟨merged, ahead ++ kept, other⟩)
    (hle : ∀ x ∈ ahead, ∀ o ∈ other, key x ≤ key o) :
    Sound key whole ⟨ahead.reverse ++ merged, kept, other⟩ where
  perm := by
    refine (perm_take merged ahead (kept ++ other)).trans ?_
    rw [← List.append_assoc ahead]
    exact h.perm
  kept := by simpa using h.kept
  other := by simpa using ascending_take h.kept h.other hle
  last := fun k hk => h.last k (by
    rw [Option.mem_def] at hk ⊢
    simp [List.getLast?_append, hk])

theorem Sound.takeOther (h : Sound key whole ⟨merged, kept, ahead ++ other⟩)
    (hle : ∀ x ∈ ahead, ∀ k ∈ kept, key x ≤ key k) :
    Sound key whole ⟨ahead.reverse ++ merged, kept, other⟩ where
  perm := by
    have hswap : (ahead ++ (kept ++ other)).Perm (kept ++ (ahead ++ other)) :=
      List.perm_append_comm_assoc ..
    exact ((perm_take merged ahead (kept ++ other)).trans (hswap.append_left merged)).trans h.perm
  kept := by simpa using ascending_take h.other h.kept hle
  other := by simpa using h.other
  last := fun k hk o ho => h.last k hk o (List.mem_append_right ahead ho)

theorem Sound.takeOneKept {k : β} (h : Sound key whole ⟨merged, k :: kept, other⟩)
    (hle : ∀ o ∈ other, key k ≤ key o) : Sound key whole ⟨k :: merged, kept, other⟩ :=
  @takeKept _ _ _ _ _ _ [k] _ _ h (List.forall_mem_singleton.mpr hle)

theorem Sound.takeOneOther {o : β} (h : Sound key whole ⟨merged, kept, o :: other⟩)
    (hle : ∀ k ∈ kept, key o ≤ key k) : Sound key whole ⟨o :: merged, kept, other⟩ :=
  @takeOther _ _ _ _ _ _ [o] _ _ h (List.forall_mem_singleton.mpr hle)

theorem isOver_of_short
    (h : ∀ k k' ks o os, kept = k :: k' :: ks → other = o :: os → False) :
    (⟨merged, kept, other⟩ : Merging β).isOver = true := by
  match kept, other, h with
  | [], _, _ => rfl
  | [_], _, _ => rfl
  | _ :: _ :: _, [], _ => simp [isOver]
  | k :: k' :: ks, o :: os, h => exact (h k k' ks o os rfl rfl).elim

/-- When nothing is left to compare, all items are in order. -/
theorem Sound.items_of_isOver (h : Sound key whole m) (hover : m.isOver = true) :
    m.items.Perm whole ∧ Ascending key m.items := by
  obtain ⟨merged, kept, other⟩ := m
  have hmerged : merged.reverse.Perm merged := merged.reverse_perm
  match kept, h, hover with
  | [], h, _ => exact ⟨(hmerged.append_right other).trans h.perm, h.other⟩
  | [last], h, _ =>
    refine ⟨(hmerged.append List.perm_append_comm).trans h.perm, ?_⟩
    have hkept := h.kept
    have hother := h.other
    have hlast := h.last last rfl
    simp only [items, Ascending, List.pairwise_append] at hkept hother ⊢
    grind
  | k :: k' :: ks, h, hover =>
    have hnone : other = [] := by simpa [isOver] using hover
    subst hnone
    exact ⟨(hmerged.append_right _).trans h.perm, by simpa [items] using h.kept⟩

end Merging

section Steps

variable {d : Direction} {whole : List β} {m : Merging β}

open Merging

theorem Ascending.head_le {before xs : List β} {x : β} (h : Ascending key (before ++ x :: xs)) :
    ∀ y ∈ x :: xs, key x ≤ key y := by
  have htail := (List.pairwise_append.mp h).2.1
  exact List.forall_mem_cons.mpr ⟨le_rfl, (List.pairwise_cons.mp htail).1⟩

theorem Merging.Advanced.mono {before before' : Nat} (h : Advanced key whole before m)
    (hle : before ≤ before') : Advanced key whole before' m :=
  ⟨h.sound, h.shrinks.imp_right fun hlt => Nat.lt_of_lt_of_le hlt hle⟩

/-- By induction on the items that are left: each step takes the lesser of the next two. -/
theorem exists_walk_eq_ok (hd : d.Follows less key P) (hP : ∀ x ∈ whole, P x)
    (threshold keptWins otherWins : Nat) (h : m.Sound key whole) :
    ∃ m', d.walk less threshold keptWins otherWins m.merged m.kept m.other = .ok m' ∧
      Advanced key whole m.size m' := by
  obtain ⟨merged, kept, other⟩ := m
  change ∃ m', d.walk less threshold keptWins otherWins merged kept other = .ok m' ∧
    Advanced key whole (kept.length + other.length) m'
  induction hn : kept.length + other.length using Nat.strongRecOn
    generalizing keptWins otherWins merged kept other with
  | ind n ih =>
    rw [Direction.walk.eq_def]
    split
    next k k' ks o os =>
      have hk : P k := hP k (h.perm.mem_iff.mp (by simp))
      have ho : P o := hP o (h.perm.mem_iff.mp (by simp))
      simp only [List.length_cons] at hn
      rw [hd.takesOther k o hk ho, ok_bind]
      by_cases hlt : key o < key k
      · have hnext : Sound key whole ⟨o :: merged, k :: k' :: ks, os⟩ :=
          h.takeOneOther fun x hx => hlt.le.trans (h.kept.head_le x hx)
        rw [decide_eq_true hlt, if_pos rfl]
        split
        next => exact ⟨_, rfl, hnext, .inr (by simp [size]; omega)⟩
        next =>
          obtain ⟨m', hm', hadvanced⟩ := ih (n - 1) (by omega) 0 (otherWins + 1) _ _ _ hnext
            (by simp only [List.length_cons]; omega)
          exact ⟨m', hm', hadvanced.mono (by omega)⟩
      · have hnext : Sound key whole ⟨k :: merged, k' :: ks, o :: os⟩ :=
          h.takeOneKept fun x hx => (not_lt.mp hlt).trans (h.other.head_le x hx)
        rw [decide_eq_false hlt, if_neg Bool.false_ne_true]
        split
        next => exact ⟨_, rfl, hnext, .inr (by simp [size]; omega)⟩
        next =>
          obtain ⟨m', hm', hadvanced⟩ := ih (n - 1) (by omega) (keptWins + 1) 0 _ _ _ hnext
            (by simp only [List.length_cons]; omega)
          exact ⟨m', hm', hadvanced.mono (by omega)⟩
    next hshort => exact ⟨_, rfl, h, .inl (isOver_of_short hshort)⟩

theorem exists_leapKept_eq_ok (hd : d.Follows less key P) (hP : ∀ x ∈ whole, P x)
    (h : m.Sound key whole) :
    ∃ n m', d.leapKept less m = .ok (n, m') ∧ Advanced key whole m.size m' := by
  obtain ⟨merged, kept, other⟩ := m
  match other, h with
  | [], h => exact ⟨0, _, rfl, h, .inl (by simp [isOver])⟩
  | o :: os, h =>
    have ho : P o := hP o (h.perm.mem_iff.mp (by simp))
    have hkept : ∀ k ∈ kept, P k := fun k hk => hP k (h.perm.mem_iff.mp (by simp [hk]))
    obtain ⟨ahead, rest, rfl, hsearch, hahead, hrest⟩ :=
      hd.keptAhead o kept ho hkept (List.pairwise_append.mp h.kept).2.1
    have htaken : Sound key whole ⟨ahead.reverse ++ merged, rest, o :: os⟩ :=
      h.takeKept fun x hx y hy => (hahead x hx).trans (h.other.head_le y hy)
    unfold Direction.leapKept
    dsimp only
    rw [hsearch, ok_bind, List.splitAt_eq, List.take_left, List.drop_left]
    dsimp only
    split
    next hover => exact ⟨_, _, rfl, htaken, .inl hover⟩
    next =>
      have hnext : Sound key whole ⟨o :: (ahead.reverse ++ merged), rest, os⟩ :=
        htaken.takeOneOther hrest
      exact ⟨_, _, rfl, hnext, .inr (by simp [size]; omega)⟩

theorem exists_leapOther_eq_ok (hd : d.Follows less key P) (hP : ∀ x ∈ whole, P x)
    (h : m.Sound key whole) :
    ∃ n m', d.leapOther less m = .ok (n, m') ∧ Advanced key whole m.size m' := by
  obtain ⟨merged, kept, other⟩ := m
  match kept, h with
  | [], h => exact ⟨0, _, rfl, h, .inl rfl⟩
  | k :: ks, h =>
    have hk : P k := hP k (h.perm.mem_iff.mp (by simp))
    have hother : ∀ o ∈ other, P o := fun o ho => hP o (h.perm.mem_iff.mp (by simp [ho]))
    obtain ⟨ahead, rest, rfl, hsearch, hahead, hrest⟩ :=
      hd.otherAhead k other hk hother (List.pairwise_append.mp h.other).2.1
    have htaken : Sound key whole ⟨ahead.reverse ++ merged, k :: ks, rest⟩ :=
      h.takeOther fun x hx y hy => (hahead x hx).trans (h.kept.head_le y hy)
    unfold Direction.leapOther
    dsimp only
    rw [hsearch, ok_bind, List.splitAt_eq, List.take_left, List.drop_left]
    dsimp only
    split
    next hover => exact ⟨_, _, rfl, htaken, .inl hover⟩
    next =>
      have hnext : Sound key whole ⟨k :: (ahead.reverse ++ merged), ks, rest⟩ :=
        htaken.takeOneKept hrest
      exact ⟨_, _, rfl, hnext, .inr (by simp [size]; omega)⟩

theorem exists_leap_eq_ok (hd : d.Follows less key P) (hP : ∀ x ∈ whole, P x)
    (h : m.Sound key whole) :
    ∃ n m', d.leap less m = .ok (n, m') ∧ Advanced key whole m.size m' := by
  -- the second leap is made only if the first has left something, which is less than before
  have hsecond {n : Nat} {m₁ : Merging β} {second : Except ε (Nat × Merging β)}
      (h₁ : Advanced key whole m.size m₁)
      (h₂ : ∃ n m', second = .ok (n, m') ∧ Advanced key whole m₁.size m') :
      ∃ n' m', (if m₁.isOver then .ok (n, m₁) else second >>= fun next =>
        .ok (max n next.1, next.2)) = Except.ok (n', m') ∧ Advanced key whole m.size m' := by
    split
    next => exact ⟨_, _, rfl, h₁⟩
    next hover =>
      obtain ⟨n', m', rfl, h'⟩ := h₂
      have hlt := h₁.shrinks.resolve_left hover
      exact ⟨_, _, rfl, h'.mono (Nat.le_of_lt hlt)⟩
  cases d with
  | forward =>
    obtain ⟨n, m₁, hm₁, h₁⟩ := exists_leapKept_eq_ok hd hP h
    unfold Direction.leap
    rw [hm₁]
    exact hsecond h₁ (exists_leapOther_eq_ok hd hP h₁.sound)
  | backward =>
    obtain ⟨n, m₁, hm₁, h₁⟩ := exists_leapOther_eq_ok hd hP h
    unfold Direction.leap
    rw [hm₁]
    exact hsecond h₁ (exists_leapKept_eq_ok hd hP h₁.sound)

/-- As many rounds as there are items left suffice. -/
theorem exists_rounds_eq_ok (hd : d.Follows less key P) (hP : ∀ x ∈ whole, P x) {fuel : Nat}
    (leaps : Bool) (threshold : Nat) (h : m.Sound key whole) (hfuel : m.size ≤ fuel) :
    ∃ t m', d.rounds less fuel leaps threshold m = .ok (t, m') ∧ Sound key whole m' ∧
      m'.isOver = true := by
  induction fuel generalizing leaps threshold m with
  | zero =>
    have hkept : m.kept.length ≤ 1 := by unfold size at hfuel; omega
    exact ⟨threshold, m, by rw [Direction.rounds], h, by simp [isOver, hkept]⟩
  | succ fuel ih =>
    cases leaps with
    | false =>
      obtain ⟨m', hm', hadvanced⟩ := exists_walk_eq_ok hd hP threshold 0 0 h
      rw [Direction.rounds, hm', ok_bind]
      split
      next hover => exact ⟨_, _, rfl, hadvanced.sound, hover⟩
      next hover =>
        have hlt := hadvanced.shrinks.resolve_left hover
        exact ih true threshold hadvanced.sound (by omega)
    | true =>
      obtain ⟨n, m', hm', hadvanced⟩ := exists_leap_eq_ok hd hP h
      rw [Direction.rounds, hm', ok_bind]
      dsimp only
      split
      next hover => exact ⟨_, _, rfl, hadvanced.sound, hover⟩
      next hover =>
        have hlt := hadvanced.shrinks.resolve_left hover
        split
        next => exact ih true _ hadvanced.sound (by omega)
        next => exact ih false _ hadvanced.sound (by omega)

/-- Two runs are merged if the first item of the other run goes before the kept run and the last
item of the kept run behind the other run. -/
theorem exists_mergeFrom_eq_ok (hd : d.Follows less key P) {kept other : List β}
    (hP : ∀ x ∈ kept ++ other, P x) (hkept : Ascending key kept) (hother : Ascending key other)
    (hfirst : ∀ o ∈ other.head?, ∀ k ∈ kept, key o ≤ key k)
    (hlast : ∀ k ∈ kept.getLast?, ∀ o ∈ other, key o ≤ key k) (threshold : Nat) :
    ∃ t run, d.mergeFrom less threshold kept other = .ok (t, run) ∧
      run.Perm (kept ++ other) ∧ Ascending key run := by
  cases other with
  | nil => exact ⟨threshold, kept, rfl, by rw [List.append_nil], hkept⟩
  | cons o os =>
    have hsound : Sound key (kept ++ o :: os) ⟨[o], kept, os⟩ :=
      Sound.takeOneOther ⟨.refl _, hkept, hother, hlast⟩ (hfirst o rfl)
    have hend {m : Merging β} (h : Sound key (kept ++ o :: os) m) (hover : m.isOver = true)
        (t : Nat) : ∃ t' run, Except.ok (t, m.items) = (Except.ok (t', run) : Except ε _) ∧
          run.Perm (kept ++ o :: os) ∧ Ascending key run :=
      ⟨t, m.items, rfl, h.items_of_isOver hover⟩
    unfold Direction.mergeFrom
    dsimp only
    split
    next hover => exact hend hsound hover threshold
    next =>
      obtain ⟨t, m', hm', hsound', hover'⟩ :=
        exists_rounds_eq_ok hd hP false threshold hsound (Nat.le_refl (kept.length + os.length))
      rw [hm', ok_bind]
      exact hend hsound' hover' t

end Steps

theorem ascending_reverse_iff {xs : List β} :
    Ascending (OrderDual.toDual ∘ key) xs.reverse ↔ Ascending key xs :=
  List.pairwise_reverse

section Runs

variable {first second : List β}

/-- The middle of two runs, where the first run is all above the start of the second and its last
item is above all of the second. -/
theorem exists_mergeMiddle_eq_ok (h : Compares less key P) (hP : ∀ x ∈ first ++ second, P x)
    (hfirst : Ascending key first) (hsecond : Ascending key second)
    (hhead : ∀ y ∈ second.head?, ∀ x ∈ first, key y ≤ key x)
    (hlast : ∀ x ∈ first.getLast?, ∀ y ∈ second, key y ≤ key x) (threshold : Nat) :
    ∃ t middle, (if first.length ≤ second.length then
        Direction.forward.mergeFrom less threshold first second
      else do
        let (threshold, middle) ←
          Direction.backward.mergeFrom less threshold second.reverse first.reverse
        pure (threshold, middle.reverse)) = .ok (t, middle) ∧
      middle.Perm (first ++ second) ∧ Ascending key middle := by
  split
  next =>
    exact exists_mergeFrom_eq_ok (follows_forward h) hP hfirst hsecond hhead hlast threshold
  next =>
    have hreversed : ∀ x ∈ second.reverse ++ first.reverse, P x := by
      simpa [or_comm] using hP
    obtain ⟨t, run, hrun, hperm, hascending⟩ := exists_mergeFrom_eq_ok (follows_backward h)
      hreversed (ascending_reverse_iff.mpr hsecond) (ascending_reverse_iff.mpr hfirst)
      (by simpa using hlast) (by simpa using hhead) threshold
    refine ⟨t, run.reverse, by rw [hrun]; rfl, ?_, ?_⟩
    · rw [← List.reverse_append] at hperm
      exact run.reverse_perm.trans (hperm.trans (List.reverse_perm _))
    · rwa [← ascending_reverse_iff, List.reverse_reverse]

theorem Ascending.le_getLast {xs : List β} {last : β} (h : Ascending key xs)
    (hlast : xs.getLast? = some last) : ∀ x ∈ xs, key x ≤ key last := by
  obtain ⟨before, rfl⟩ := List.getLast?_eq_some_iff.mp hlast
  have hbefore := (List.pairwise_append.mp h).2.2
  simp only [List.mem_append, List.mem_singleton]
  rintro x (hx | rfl)
  · exact hbefore x hx last (List.mem_singleton.mpr rfl)
  · exact le_rfl

theorem Ascending.head?_le {xs : List β} {head : β} (h : Ascending key xs)
    (hhead : xs.head? = some head) : ∀ x ∈ xs, key head ≤ key x := by
  obtain ⟨tail, rfl⟩ := List.head?_eq_some_iff.mp hhead
  exact @Ascending.head_le _ _ _ key [] _ _ h

/-- What stands at its place already stays there around the merged middle. -/
theorem ascending_around {low high middle : List β} (hfirst : Ascending key (low ++ first))
    (hsecond : Ascending key (second ++ high))
    (hlow : ∀ x ∈ low, ∀ y ∈ second ++ high, key x ≤ key y)
    (hhigh : ∀ x ∈ first, ∀ y ∈ high, key x ≤ key y) (hperm : middle.Perm (first ++ second))
    (hmiddle : Ascending key middle) : Ascending key (low ++ middle ++ high) := by
  have hmem : ∀ x, x ∈ middle ↔ x ∈ first ∨ x ∈ second := fun x => by
    rw [hperm.mem_iff, List.mem_append]
  simp only [Ascending, List.pairwise_append, List.mem_append, hmem] at *
  grind

/-- Two runs in ascending order are merged into one. -/
theorem exists_mergeRuns_eq_ok (h : Compares less key P) (hP : ∀ x ∈ first ++ second, P x)
    (hfirst : Ascending key first) (hsecond : Ascending key second) (threshold : Nat) :
    ∃ t run, mergeRuns less threshold first second = .ok (t, run) ∧
      run.Perm (first ++ second) ∧ Ascending key run := by
  unfold mergeRuns
  cases hhead : second.head? with
  | none =>
    obtain rfl := List.head?_eq_none_iff.mp hhead
    exact ⟨threshold, _, rfl, .refl _, by rwa [List.append_nil]⟩
  | some head =>
    have hheadLe := hsecond.head?_le hhead
    have hheadP : P head := hP head (List.mem_append_right _ (List.mem_of_head? hhead))
    obtain ⟨low, first, rfl, hborder, hlow, hrest⟩ := exists_border_eq_ok
      (fun x hx => h.notLess hheadP (hP x (List.mem_append_left _ hx)))
      (hfirst.imp fun hle hy => hle.trans hy) 0
    have hlowLe : ∀ x ∈ low, ∀ y ∈ second, key x ≤ key y := fun x hx y hy =>
      (hlow x hx).trans (hheadLe y hy)
    dsimp only
    rw [hborder, ok_bind, List.splitAt_eq, List.take_left, List.drop_left]
    dsimp only
    cases hlast : first.getLast? with
    | none =>
      obtain rfl := List.getLast?_eq_none_iff.mp hlast
      rw [List.append_nil] at hfirst ⊢
      exact ⟨threshold, _, rfl, .refl _, List.pairwise_append.mpr ⟨hfirst, hsecond, hlowLe⟩⟩
    | some last =>
      have hfirst' : Ascending key first := (List.pairwise_append.mp hfirst).2.1
      have hlastLe := hfirst'.le_getLast hlast
      have hlastP : P last := hP last (by simp [List.mem_of_getLast? hlast])
      obtain ⟨second, high, rfl, hborder', hbefore, hbehind⟩ := exists_border_eq_ok
        (fun y hy => h y last (hP y (List.mem_append_right _ hy)) hlastP)
        (hsecond.imp fun hle hy => hle.trans_lt hy) (second.length - 1)
      have hhigh : ∀ x ∈ first, ∀ y ∈ high, key x ≤ key y := fun x hx y hy =>
        (hlastLe x hx).trans (not_lt.mp (hbehind y hy))
      dsimp only
      rw [hborder', ok_bind, List.splitAt_eq, List.take_left, List.drop_left]
      dsimp only
      cases second with
      | nil =>
        have hcross : ∀ x ∈ low ++ first, ∀ y ∈ high, key x ≤ key y := fun x hx y hy =>
          (List.mem_append.mp hx).elim (hlowLe x · y hy) (hhigh x · y hy)
        exact ⟨threshold, _, rfl, .refl _, List.pairwise_append.mpr ⟨hfirst, hsecond, hcross⟩⟩
      | cons y ys =>
        obtain rfl : y = head := by simpa using hhead
        obtain ⟨t, middle, hmerge, hperm, hmiddle⟩ := exists_mergeMiddle_eq_ok h
          (fun x hx => hP x (by simp at hx ⊢; tauto)) hfirst' (List.pairwise_append.mp hsecond).1
          (by simpa using fun x hx => (not_le.mp (hrest x hx)).le)
          (by rw [hlast]; simpa using fun y hy => (hbefore y hy).le) threshold
        refine ⟨t, low ++ middle ++ high, ?_, ?_, ?_⟩
        · rw [List.isEmpty_cons, if_neg Bool.false_ne_true]
          split at hmerge
          next hshort => rw [if_pos hshort, hmerge, ok_bind]; rfl
          next hlong =>
            rw [if_neg hlong]
            have hgoesOn := congrArg (· >>= fun m => pure (m.1, low ++ m.2 ++ high)) hmerge
            simp only [bind_assoc] at hgoesOn
            exact hgoesOn
        · have happend := (hperm.append_left low).append_right high
          simpa using happend
        · exact ascending_around hfirst hsecond hlowLe hhigh hperm hmiddle

end Runs

end ClusterBalance.Sorting
