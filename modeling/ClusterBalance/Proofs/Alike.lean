import Mathlib.Data.List.Forall2
import ClusterBalance.Proofs.Chain
import ClusterBalance.Resource

/-! Two runs side by side. They end alike if both are refused for the same reason or both give
results that are related. Main statements: chains and traversals end alike if their steps do, and
lists whose items are related in pairs have equal images under functions that agree on each pair. -/

namespace ClusterBalance

/-- Two computations end with the same refusal, or with related results. -/
inductive Alike {ε α β : Type} (R : α → β → Prop) : Except ε α → Except ε β → Prop
  | refused (e : ε) : Alike R (.error e) (.error e)
  | given {a : α} {b : β} (h : R a b) : Alike R (.ok a) (.ok b)

namespace Alike

variable {ε α β γ δ κ : Type} {R : α → β → Prop} {S : γ → δ → Prop}

theorem refl (x : Except ε α) : Alike Eq x x := by
  cases x with
  | error e => exact .refused e
  | ok a => exact .given rfl

theorem bind {x : Except ε α} {y : Except ε β} {f : α → Except ε γ} {g : β → Except ε δ}
    (h : Alike R x y) (hfg : ∀ a b, R a b → Alike S (f a) (g b)) :
    Alike S (x >>= f) (y >>= g) := by
  cases h with
  | refused e => exact .refused e
  | given h => exact hfg _ _ h

/-- Related results are what their runs give. -/
theorem with_results {x : Except ε α} {y : Except ε β} (h : Alike R x y) :
    Alike (fun a b => R a b ∧ x = .ok a ∧ y = .ok b) x y := by
  cases h with
  | refused e => exact .refused e
  | given h => exact .given ⟨h, rfl, rfl⟩

theorem exists_of_eq_ok {x : Except ε α} {y : Except ε β} {a : α} (h : Alike R x y)
    (hx : x = .ok a) : ∃ b, y = .ok b ∧ R a b := by
  cases h with
  | refused e => cases hx
  | given h =>
    cases hx
    exact ⟨_, rfl, h⟩

/-- A step that both runs take in the same way. -/
theorem bind_same {x : Except ε κ} {f : κ → Except ε γ} {g : κ → Except ε δ}
    (hfg : ∀ a, Alike S (f a) (g a)) : Alike S (x >>= f) (x >>= g) := by
  apply bind (refl x)
  rintro a _ rfl
  exact hfg a

/-- Two traversals end alike if each item is alike in both; their results are related in pairs. -/
theorem mapM {f : κ → Except ε α} {g : κ → Except ε β} {xs : List κ}
    (hfg : ∀ x ∈ xs, Alike R (f x) (g x)) : Alike (List.Forall₂ R) (xs.mapM f) (xs.mapM g) := by
  induction xs with
  | nil => exact .given .nil
  | cons x xs ih =>
    rw [mapM_cons_eq, mapM_cons_eq]
    apply bind (hfg x List.mem_cons_self)
    intro a b hab
    apply bind (ih fun x' hx' => hfg x' (List.mem_cons_of_mem x hx'))
    intro as bs hrest
    exact .given (.cons hab hrest)

theorem ofFnM {f : Resource → Except ε α} {g : Resource → Except ε β}
    (hfg : ∀ r, Alike R (f r) (g r)) :
    Alike (fun v w => ∀ r, R (v.get r) (w.get r)) (PerResource.ofFnM f)
      (PerResource.ofFnM g) := by
  apply bind (hfg .cpu)
  intro c c' hc
  apply bind (hfg .networkIn)
  intro i i' hi
  apply bind (hfg .networkOut)
  intro o o' ho
  apply bind (hfg .disk)
  intro d d' hd
  refine .given fun r => ?_
  cases r <;> assumption

end Alike

section Pairs

variable {ε α β γ : Type} {R : α → β → Prop} {xs : List α} {ys : List β}

theorem map_eq_of_forall₂ {f : α → γ} {g : β → γ} (h : List.Forall₂ R xs ys)
    (hfg : ∀ x y, R x y → f x = g y) : xs.map f = ys.map g := by
  induction h with
  | nil => rfl
  | cons hxy _ ih => rw [List.map_cons, List.map_cons, hfg _ _ hxy, ih]

theorem mapM_eq_of_forall₂ {f : α → Except ε γ} {g : β → Except ε γ} (h : List.Forall₂ R xs ys)
    (hfg : ∀ x y, R x y → f x = g y) : xs.mapM f = ys.mapM g := by
  induction h with
  | nil => rfl
  | cons hxy _ ih => rw [mapM_cons_eq, mapM_cons_eq, hfg _ _ hxy, ih]

theorem flatMap_perm_of_forall₂ {f : α → List γ} {g : β → List γ} (h : List.Forall₂ R xs ys)
    (hfg : ∀ x y, R x y → (f x).Perm (g y)) : (xs.flatMap f).Perm (ys.flatMap g) := by
  induction h with
  | nil => exact .nil
  | cons hxy _ ih =>
    rw [List.flatMap_cons, List.flatMap_cons]
    exact (hfg _ _ hxy).append ih

theorem filter_forall₂ {p : α → Bool} {q : β → Bool} (h : List.Forall₂ R xs ys)
    (hpq : ∀ x y, R x y → p x = q y) : List.Forall₂ R (xs.filter p) (ys.filter q) :=
  List.rel_filter (fun x y hxy => iff_of_eq (congrArg (· = true) (hpq x y hxy))) h

theorem flatMap_sublist_of_forall₂ {f : α → List γ} {g : β → List γ} (h : List.Forall₂ R xs ys)
    (hfg : ∀ x y, R x y → (f x).Sublist (g y)) : (xs.flatMap f).Sublist (ys.flatMap g) := by
  induction h with
  | nil => exact List.nil_sublist []
  | cons hxy _ ih =>
    rw [List.flatMap_cons, List.flatMap_cons]
    exact (hfg _ _ hxy).append ih

/-- Where a test is passed by the first item of a pair only if it is by the second, the first list
has no more items that pass it. -/
theorem map_filter_sublist_of_forall₂ {f : α → γ} {g : β → γ} {p : α → Bool} {q : β → Bool}
    (h : List.Forall₂ R xs ys) (hfg : ∀ x y, R x y → f x = g y)
    (hpq : ∀ x y, R x y → p x = true → q y = true) :
    ((xs.filter p).map f).Sublist ((ys.filter q).map g) := by
  induction h with
  | nil => exact List.nil_sublist []
  | @cons x y xs ys hxy _ ih =>
    cases hx : p x with
    | true =>
      rw [List.filter_cons_of_pos hx, List.filter_cons_of_pos (hpq x y hxy hx), List.map_cons,
        List.map_cons, hfg x y hxy]
      exact ih.cons_cons (g y)
    | false =>
      rw [List.filter_cons_of_neg (Bool.eq_false_iff.mp hx)]
      exact ih.trans (((List.sublist_cons_self y ys).filter q).map g)

theorem forall_mem_of_forall₂ {P : α → Prop} {Q : β → Prop} (h : List.Forall₂ R xs ys)
    (hPQ : ∀ x y, R x y → P x → Q y) (hP : ∀ x ∈ xs, P x) : ∀ y ∈ ys, Q y := by
  induction h with
  | nil => exact nofun
  | cons hxy _ ih =>
    obtain ⟨hx, hxs⟩ := List.forall_mem_cons.mp hP
    exact List.forall_mem_cons.mpr ⟨hPQ _ _ hxy hx, ih hxs⟩

/-- Searches for what agrees on each pair find a pair, or nothing in both lists. -/
theorem find?_rel_of_forall₂ {p : α → Bool} {q : β → Bool} (h : List.Forall₂ R xs ys)
    (hpq : ∀ x y, R x y → p x = q y) : Option.Rel R (xs.find? p) (ys.find? q) := by
  induction h with
  | nil => exact .none
  | cons hxy _ ih =>
    rw [List.find?_cons, List.find?_cons, hpq _ _ hxy]
    split
    · exact .some hxy
    · exact ih

end Pairs

end ClusterBalance
