import ClusterBalance.Proofs.Constraint.Values

/-! Revisions one after the other. A revision that is refused leaves the constraint as it was. Main
statement: along such a chain every constraint has admitted values, and each value is the one that
was given last by a revision that was made. -/

namespace ClusterBalance.Constraint

/-- The constraint after a step: a revision that is refused changes nothing. -/
def step (c : Constraint Float) (o : Overrides Document) : Constraint Float :=
  match c.revise o with
  | .ok k => k
  | .error _ => c

/-- The constraint after some steps. -/
def after (c : Constraint Float) (steps : List (Overrides Document)) : Constraint Float :=
  steps.foldl step c

/-- The constraints along a chain of steps, from the first to the last. -/
def trail (c : Constraint Float) (steps : List (Overrides Document)) : List (Constraint Float) :=
  steps.scanl step c

/-- The steps of a chain that are not refused. -/
def made (c : Constraint Float) : List (Overrides Document) → List (Overrides Document)
  | [] => []
  | o :: rest =>
    match c.revise o with
    | .ok k => o :: k.made rest
    | .error _ => c.made rest

/-- The value that some steps give last. -/
def lastGiven (steps : List (Overrides Document)) (p : Part) (r : Resource) : Option Document :=
  (steps.filterMap fun o => o.given p r).getLast?

/-- Overrides with those of a second step, which count where both give a value. -/
def Overrides.merge {β : Type} (first second : Overrides β) : Overrides β :=
  .ofFn fun p r => (second.given p r).or (first.given p r)

section Steps

variable {c k : Constraint Float} {o : Overrides Document} {p : Part} {r : Resource}

theorem step_cases (c : Constraint Float) (o : Overrides Document) :
    (∃ k, c.revise o = .ok k ∧ c.step o = k) ∨ (∃ e, c.revise o = .error e) ∧ c.step o = c := by
  unfold step
  cases c.revise o with
  | ok k => exact .inl ⟨k, rfl, rfl⟩
  | error e => exact .inr ⟨⟨e, rfl⟩, rfl⟩

theorem Admitted.step (h : c.Admitted) (o : Overrides Document) : (c.step o).Admitted := by
  rcases step_cases c o with ⟨k, hk, heq⟩ | ⟨-, heq⟩
  · rw [heq]
    exact (revise_eq_ok_iff.mp hk).1
  · rwa [heq]

/-- What one step does to a value: it gives it another one, if it is made and names it. -/
theorem becomes_step (c : Constraint Float) (o : Overrides Document) (p : Part) (r : Resource) :
    Becomes (lastGiven (c.made [o]) p r) (c.value p r) ((c.step o).value p r) := by
  rcases step_cases c o with ⟨k, hk, heq⟩ | ⟨⟨e, he⟩, heq⟩
  · have hmade : c.made [o] = [o] := by simp [made, hk]
    have hlast : lastGiven [o] p r = o.given p r := by
      cases h : o.given p r <;> simp [lastGiven, h]
    rw [hmade, hlast, heq]
    exact (revise_eq_ok_iff.mp hk).2 p r
  · have hmade : c.made [o] = [] := by simp [made, he]
    rw [hmade, heq]
    exact .kept _

theorem made_cons (c : Constraint Float) (o : Overrides Document)
    (rest : List (Overrides Document)) :
    c.made (o :: rest) = c.made [o] ++ (c.step o).made rest := by
  rcases step_cases c o with ⟨k, hk, heq⟩ | ⟨⟨e, he⟩, heq⟩
  · simp [made, hk, heq]
  · simp [made, he, heq]

theorem lastGiven_append (steps more : List (Overrides Document)) (p : Part) (r : Resource) :
    lastGiven (steps ++ more) p r = (lastGiven more p r).or (lastGiven steps p r) := by
  rw [lastGiven, List.filterMap_append, List.getLast?_append]
  rfl

end Steps

section Chains

variable {c k : Constraint Float} {steps : List (Overrides Document)}

theorem Admitted.of_mem_trail (h : c.Admitted) (hk : k ∈ c.trail steps) : k.Admitted := by
  induction steps generalizing c with
  | nil =>
    obtain rfl : k = c := by simpa [trail] using hk
    exact h
  | cons o rest ih =>
    rw [trail, List.scanl_cons, List.mem_cons] at hk
    rcases hk with rfl | hk
    · exact h
    · exact ih (h.step o) hk

/-- By induction on the steps: what the rest of a chain gives counts more than its first step. -/
theorem becomes_after (c : Constraint Float) (steps : List (Overrides Document)) (p : Part)
    (r : Resource) :
    Becomes (lastGiven (c.made steps) p r) (c.value p r) ((c.after steps).value p r) := by
  induction steps generalizing c with
  | nil => exact .kept _
  | cons o rest ih =>
    rw [made_cons, lastGiven_append]
    exact (becomes_step c o p r).trans (ih (c.step o))

theorem revise_merge {first second : Overrides Document} {k' : Constraint Float}
    (h : c.revise first = .ok k) (h' : k.revise second = .ok k') :
    c.revise (first.merge second) = .ok k' := by
  obtain ⟨-, hfirst⟩ := revise_eq_ok_iff.mp h
  obtain ⟨hadmitted, hsecond⟩ := revise_eq_ok_iff.mp h'
  refine revise_eq_ok_iff.mpr ⟨hadmitted, fun p r => ?_⟩
  rw [Overrides.merge, Overrides.given_ofFn]
  exact (hfirst p r).trans (hsecond p r)

/-- What holds of a chain of steps. -/
structure Chained (c : Constraint Float) (steps : List (Overrides Document)) : Prop where
  admitted : ∀ k ∈ c.trail steps, ∀ (p : Part) r,
    p.Admits (k.value p r) ∧ (k.value p r).isNaN = false
  last : (c.trail steps).getLast? = some (c.after steps)
  value : ∀ p r, Becomes (lastGiven (c.made steps) p r) (c.value p r) ((c.after steps).value p r)
  first : (c.trail steps).head? = some c
  unchanged : ∀ more, c.trail steps <+: c.trail (steps ++ more)
  merged : ∀ k ∈ c.trail steps, ∀ first second k₁ k₂, k.revise first = .ok k₁ →
    k₁.revise second = .ok k₂ → k.revise (first.merge second) = .ok k₂

/-- Every constraint along a chain has admitted values, which are numbers. Each value is the last
one given by a step that was made, or the first constraint's; that one and all others stay as they
are; and two steps in a row are one with the overrides of both. -/
theorem chained {percentage threshold : PerResource Float}
    (h : make percentage threshold = .ok c) (steps : List (Overrides Document)) :
    Chained c steps := by
  have hadmitted : c.Admitted := (make_eq_ok_iff.mp h).2
  refine
    { admitted := fun k hk p r => ?_
      last := List.getLast?_scanl
      value := becomes_after c steps
      first := List.head?_scanl
      unchanged := fun more => ?_
      merged := fun k _ first second k₁ k₂ => revise_merge }
  · have hvalue := hadmitted.of_mem_trail hk p r
    exact ⟨hvalue, isNaN_of_admits hvalue⟩
  · rw [trail, trail, List.scanl_append]
    exact List.prefix_append ..

/-- Two steps for the percentage of the processor. The second one also asks for a threshold that is
too high, so it is refused. -/
def mixedSteps : List (Overrides Document) :=
  [⟨(PerResource.replicate none).set .cpu (some (.string (.sound " 1.5"))), .replicate none⟩,
    ⟨(PerResource.replicate none).set .cpu (some (.int 3)),
      (PerResource.replicate none).set .disk (some (.float 2.0))⟩]

/-- Only the first step counts. -/
theorem chained_mixedSteps :
    make default.percentage default.threshold = .ok default ∧ Chained default mixedSteps ∧
      (default.made mixedSteps).length = 1 ∧
      (default.after mixedSteps).value .percentage .cpu = 1.5 := by
  have hdefault : make default.percentage default.threshold = .ok default :=
    make_eq_ok_iff.mpr ⟨rfl, admitted_default⟩
  have hvalue : (default.made mixedSteps).length = 1 ∧
      (default.after mixedSteps).value .percentage .cpu = 1.5 := by
    decide +kernel
  exact ⟨hdefault, chained hdefault mixedSteps, hvalue⟩

end Chains

end ClusterBalance.Constraint
