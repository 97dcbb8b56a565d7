/-! Chains of computations that may be refused: when a chain gives a value, when a traversal of a
list does, and which refusal ends it. Where the obstacles to the steps of a chain are known, the
first of them is the refusal. -/

namespace ClusterBalance

variable {ε α β γ : Type}

theorem exists_eq_ok_of_isOk {x : Except ε α} (h : x.isOk = true) : ∃ a, x = .ok a := by
  cases x with
  | ok a => exact ⟨a, rfl⟩
  | error e => cases h

theorem ok_bind (a : α) (f : α → Except ε β) : (.ok a >>= f) = f a := rfl

theorem bind_eq_ok_iff {x : Except ε α} {f : α → Except ε β} {b : β} :
    (x >>= f) = .ok b ↔ ∃ a, x = .ok a ∧ f a = .ok b := by
  cases x with
  | error e => exact ⟨nofun, fun ⟨_, h, _⟩ => nomatch h⟩
  | ok a => exact ⟨fun h => ⟨a, rfl, h⟩, fun ⟨_, h, h'⟩ => by cases h; exact h'⟩

theorem bind_eq_error_iff {x : Except ε α} {f : α → Except ε β} {e : ε} :
    (x >>= f) = .error e ↔ x = .error e ∨ ∃ a, x = .ok a ∧ f a = .error e := by
  cases x with
  | error e' =>
    refine ⟨fun h => by cases h; exact .inl rfl, ?_⟩
    rintro (h | ⟨_, h, -⟩)
    · cases h; rfl
    · cases h
  | ok a =>
    refine ⟨fun h => .inr ⟨a, rfl, h⟩, ?_⟩
    rintro (h | ⟨_, h, h'⟩)
    · cases h
    · cases h; exact h'

theorem mapM_cons_eq (f : α → Except ε β) (x : α) (xs : List α) :
    (x :: xs).mapM f = f x >>= fun y => xs.mapM f >>= fun ys => .ok (y :: ys) :=
  List.mapM_cons

theorem exists_mapM_eq_ok_iff {f : α → Except ε β} {xs : List α} :
    (∃ ys, xs.mapM f = .ok ys) ↔ ∀ x ∈ xs, ∃ y, f x = .ok y := by
  induction xs with
  | nil => exact ⟨fun _ => nofun, fun _ => ⟨[], rfl⟩⟩
  | cons x xs ih =>
    simp only [mapM_cons_eq, bind_eq_ok_iff, List.forall_mem_cons, ← ih]
    constructor
    · rintro ⟨_, y, hy, ys, hys, -⟩
      exact ⟨⟨y, hy⟩, ys, hys⟩
    · rintro ⟨⟨y, hy⟩, ys, hys⟩
      exact ⟨y :: ys, y, hy, ys, hys, rfl⟩

/-- A traversal of a mapped list gives each item its value. -/
theorem mapM_map_eq_ok {f : α → Except ε β} {g : γ → α} {k : γ → β} {zs : List γ}
    (h : ∀ z ∈ zs, f (g z) = .ok (k z)) : (zs.map g).mapM f = .ok (zs.map k) := by
  induction zs with
  | nil => rfl
  | cons z zs ih =>
    obtain ⟨hz, hzs⟩ := List.forall_mem_cons.mp h
    rw [List.map_cons, mapM_cons_eq, hz, ok_bind, ih hzs, ok_bind, List.map_cons]

theorem forall_of_mapM_eq_ok {f : α → Except ε β} {P : β → Prop} {xs : List α} {ys : List β}
    (h : xs.mapM f = .ok ys) (hf : ∀ x ∈ xs, ∀ y, f x = .ok y → P y) : ∀ y ∈ ys, P y := by
  induction xs generalizing ys with
  | nil => cases h; nofun
  | cons x xs ih =>
    rw [mapM_cons_eq] at h
    obtain ⟨y, hy, h⟩ := bind_eq_ok_iff.mp h
    obtain ⟨ys', hys', h⟩ := bind_eq_ok_iff.mp h
    cases h
    refine List.forall_mem_cons.mpr ⟨hf x List.mem_cons_self y hy, ?_⟩
    exact ih hys' fun x' hx' => hf x' (List.mem_cons_of_mem x hx')

theorem map_eq_of_mapM_eq_ok {f : α → Except ε β} {g : β → γ} {g' : α → γ} {xs : List α}
    {ys : List β} (h : xs.mapM f = .ok ys) (hf : ∀ x ∈ xs, ∀ y, f x = .ok y → g y = g' x) :
    ys.map g = xs.map g' := by
  induction xs generalizing ys with
  | nil => cases h; rfl
  | cons x xs ih =>
    rw [mapM_cons_eq] at h
    obtain ⟨y, hy, h⟩ := bind_eq_ok_iff.mp h
    obtain ⟨ys', hys', h⟩ := bind_eq_ok_iff.mp h
    cases h
    rw [List.map_cons, List.map_cons, hf x List.mem_cons_self y hy,
      ih hys' fun x' hx' => hf x' (List.mem_cons_of_mem x hx')]

theorem mem_iff_of_mapM_eq_ok {f : α → Except ε β} {xs : List α} {ys : List β}
    (h : xs.mapM f = .ok ys) {y : β} : y ∈ ys ↔ ∃ x ∈ xs, f x = .ok y := by
  have hmap : ys.map Except.ok = xs.map f := map_eq_of_mapM_eq_ok h fun _ _ _ hx => hx.symm
  rw [← List.mem_map, ← hmap, List.mem_map]
  simp

/-- A traversal is refused for the first item whose step is refused. -/
theorem mapM_eq_error_iff {f : α → Except ε β} {xs : List α} {e : ε} :
    xs.mapM f = .error e ↔ ∃ before x after, xs = before ++ x :: after ∧
      (∀ x' ∈ before, ∃ y, f x' = .ok y) ∧ f x = .error e := by
  induction xs with
  | nil => exact ⟨nofun, fun ⟨before, x, after, h, _⟩ => by cases before <;> cases h⟩
  | cons x xs ih =>
    have hok : ∀ ys : List β, ¬(Except.ok ys : Except ε (List β)) = .error e := nofun
    simp only [mapM_cons_eq, bind_eq_error_iff, ih, hok, and_false, exists_false, or_false]
    constructor
    · rintro (h | ⟨y, hy, before, x', after, rfl, hbefore, h⟩)
      · exact ⟨[], x, xs, rfl, nofun, h⟩
      · exact ⟨x :: before, x', after, rfl, List.forall_mem_cons.mpr ⟨⟨y, hy⟩, hbefore⟩, h⟩
    · rintro ⟨_ | ⟨x'', before⟩, x', after, heq, hbefore, h⟩
      · cases heq
        exact .inl h
      · cases heq
        obtain ⟨⟨y, hy⟩, hbefore⟩ := List.forall_mem_cons.mp hbefore
        exact .inr ⟨y, hy, before, x', after, rfl, hbefore, h⟩

theorem exists_of_mapM_eq_error {f : α → Except ε β} {xs : List α} {e : ε}
    (h : xs.mapM f = .error e) : ∃ x ∈ xs, f x = .error e := by
  obtain ⟨before, x, after, rfl, -, hx⟩ := mapM_eq_error_iff.mp h
  exact ⟨x, by simp, hx⟩

/-- Checks of the items of a list all pass, or the refusal is that of one of them. -/
theorem forM_cases (f : α → Except ε PUnit) (xs : List α) :
    xs.forM f = .ok ⟨⟩ ∨ ∃ x ∈ xs, ∃ e, f x = .error e ∧ xs.forM f = .error e := by
  induction xs with
  | nil => exact .inl rfl
  | cons x xs ih =>
    have hcons : (x :: xs).forM f = f x >>= fun _ => xs.forM f := List.forM_cons
    rw [hcons]
    cases hx : f x with
    | error e => exact .inr ⟨x, List.mem_cons_self, e, hx, rfl⟩
    | ok u =>
      rcases ih with h | ⟨x', hmem, e, hx', h⟩
      · exact .inl h
      · exact .inr ⟨x', List.mem_cons_of_mem x hmem, e, hx', h⟩

theorem findSome?_cons_eq_or {obstacle? : α → Option ε} (x : α) (xs : List α) :
    (x :: xs).findSome? obstacle? = (obstacle? x).or (xs.findSome? obstacle?) := by
  rw [List.findSome?_cons]
  cases obstacle? x <;> rfl

/-- A computation gives a value unless there is an obstacle, and then it is refused for that. -/
inductive FailsFor : Except ε α → Option ε → Prop
  | ok (v : α) : FailsFor (.ok v) none
  | error (e : ε) : FailsFor (.error e) (some e)

namespace FailsFor

theorem exists_eq_ok {x : Except ε α} (h : FailsFor x none) : ∃ v, x = .ok v := by
  cases h with
  | ok v => exact ⟨v, rfl⟩

theorem eq_error {x : Except ε α} {e : ε} (h : FailsFor x (some e)) : x = .error e := by
  cases h with
  | error => rfl

theorem bind {x : Except ε α} {f : α → Except ε β} {p q : Option ε}
    (hx : FailsFor x p) (hf : p = none → ∀ v, x = .ok v → FailsFor (f v) q) :
    FailsFor (x >>= f) (p.or q) := by
  cases hx with
  | ok v => exact hf rfl v rfl
  | error e => exact error e

theorem bind_none {x : Except ε α} {f : α → Except ε β} {p : Option ε}
    (hx : FailsFor x p) (hf : ∀ v, x = .ok v → FailsFor (f v) none) : FailsFor (x >>= f) p := by
  have h := bind hx fun _ => hf
  rwa [Option.or_none] at h

theorem mapM {f : α → Except ε β} {obstacle? : α → Option ε} {xs : List α}
    (hf : ∀ x ∈ xs, FailsFor (f x) (obstacle? x)) :
    FailsFor (xs.mapM f) (xs.findSome? obstacle?) := by
  induction xs with
  | nil => exact ok []
  | cons x xs ih =>
    rw [List.mapM_cons, findSome?_cons_eq_or]
    refine bind (hf x List.mem_cons_self) fun _ v _ => ?_
    exact bind_none (ih fun x' hx' => hf x' (List.mem_cons_of_mem x hx')) fun _ _ => ok _

end FailsFor

end ClusterBalance
