import ClusterBalance.Report.Publication

/-! A holder of statistics is written once. Main statement: over every run of calls, failed calls
leave the published state as it was, the first call that succeeds publishes its report as a whole,
and every later call is refused and changes nothing. -/

namespace ClusterBalance

namespace Publication

variable {α : Type}

/-- The stores of a report overwrite every field, whatever was there before. -/
theorem run_store (r : Report α) (p : Publication α) : (store r).run p = ((), ofReport r) := rfl

variable [Scalar α]

/-- A call to a new holder publishes the report of the cluster as a whole, or nothing. -/
theorem call_empty (x : Call α) :
    ({} : Publication α).call x =
      match x.cluster.measure x.constraint with
      | .ok r => (.ok (), ofReport r)
      | .error e => (.error e, {}) := by
  unfold call populate
  cases x.cluster.measure x.constraint with
  | error e => rfl
  | ok r =>
    show (Except.ok ((store r).run {}).1, ((store r).run {}).2) = _
    rw [run_store]

theorem call_ofReport (r : Report α) (x : Call α) :
    (ofReport r).call x = (.error .alreadyFilled, ofReport r) := rfl

/-- The report of the first call that can be answered with one. -/
def firstReport? (calls : List (Call α)) : Option (Report α) :=
  calls.findSome? fun x => (x.cluster.measure x.constraint).toOption

theorem foldl_call_ofReport (r : Report α) (calls : List (Call α)) :
    calls.foldl (fun p x => (p.call x).2) (ofReport r) = ofReport r := by
  induction calls with
  | nil => rfl
  | cons x calls ih => rw [List.foldl_cons, call_ofReport, ih]

theorem after_eq (calls : List (Call α)) :
    after calls = match firstReport? calls with
      | none => {}
      | some r => ofReport r := by
  induction calls with
  | nil => rfl
  | cons x calls ih =>
    unfold after firstReport? at ih ⊢
    rw [List.foldl_cons, call_empty, List.findSome?_cons]
    cases x.cluster.measure x.constraint with
    | error e => exact ih
    | ok r => exact foldl_call_ofReport r calls

theorem after_of_firstReport?_eq_none {calls : List (Call α)} (h : firstReport? calls = none) :
    after calls = {} := by
  rw [after_eq, h]

theorem after_of_firstReport?_eq_some {calls : List (Call α)} {r : Report α}
    (h : firstReport? calls = some r) : after calls = ofReport r := by
  rw [after_eq, h]

theorem answer_of_firstReport?_eq_some {calls : List (Call α)} {r : Report α}
    (h : firstReport? calls = some r) (y : Call α) : answer calls y = .error .alreadyFilled := by
  rw [answer, after_of_firstReport?_eq_some h, call_ofReport]

/-- A call succeeds exactly if none before it had a report and it has one itself. -/
theorem answer_eq_ok_iff {calls : List (Call α)} {x : Call α} :
    answer calls x = .ok () ↔
      firstReport? calls = none ∧ ∃ r, x.cluster.measure x.constraint = .ok r := by
  cases h : firstReport? calls with
  | some r => simp [answer_of_firstReport?_eq_some h]
  | none =>
    rw [answer, after_of_firstReport?_eq_none h, call_empty]
    cases x.cluster.measure x.constraint <;> simp

/-- A run has a first report exactly if one of its calls succeeds. -/
theorem exists_answer_eq_ok {calls : List (Call α)} {r : Report α}
    (h : firstReport? calls = some r) :
    ∃ earlier x later, calls = earlier ++ x :: later ∧ answer earlier x = .ok () := by
  obtain ⟨earlier, x, later, hcalls, hx, hearlier⟩ := List.findSome?_eq_some_iff.mp h
  refine ⟨earlier, x, later, hcalls, answer_eq_ok_iff.mpr ⟨?_, ?_⟩⟩
  · exact List.findSome?_eq_none_iff.mpr hearlier
  · cases hm : x.cluster.measure x.constraint with
    | ok r' => exact ⟨r', rfl⟩
    | error e => simp [hm, Except.toOption] at hx

/-- Over every run of calls on a new holder: as long as no call has succeeded, the published state
is that of a new holder and every call is answered as by one. Once a call has succeeded, none had
before it, the published state is the one that this call alone leaves on a new holder, namely the
whole report of its cluster, and every call is refused. -/
theorem write_once (calls : List (Call α)) :
    ((∀ earlier x later, calls = earlier ++ x :: later → answer earlier x ≠ .ok ()) →
      after calls = {} ∧ ∀ y, answer calls y = answer [] y) ∧
    (∀ earlier x later, calls = earlier ++ x :: later → answer earlier x = .ok () →
      (∀ before y between, earlier = before ++ y :: between → answer before y ≠ .ok ()) ∧
      (∃ r, x.cluster.measure x.constraint = .ok r ∧ after calls = ofReport r) ∧
      after calls = after [x] ∧
      ∀ y, answer calls y = .error .alreadyFilled) := by
  constructor
  · intro hnone
    have hfirst : firstReport? calls = none := by
      cases hr : firstReport? calls with
      | none => rfl
      | some r =>
        obtain ⟨earlier, x, later, hcalls, hok⟩ := exists_answer_eq_ok hr
        exact absurd hok (hnone earlier x later hcalls)
    have hafter := after_of_firstReport?_eq_none hfirst
    exact ⟨hafter, fun y => by rw [answer, hafter]; rfl⟩
  · intro earlier x later hcalls hok
    obtain ⟨hearlier, r, hr⟩ := answer_eq_ok_iff.mp hok
    have hfirst : firstReport? calls = some r := by
      unfold firstReport? at hearlier ⊢
      rw [hcalls, List.findSome?_append, hearlier, List.findSome?_cons, hr]
      rfl
    have halone : firstReport? [x] = some r := by
      rw [firstReport?, List.findSome?_cons, hr]
      rfl
    have hafter := after_of_firstReport?_eq_some hfirst
    refine ⟨fun before y between hsplit hy => ?_, ⟨r, hr, hafter⟩, ?_, ?_⟩
    · -- an earlier success would have left a report behind
      obtain ⟨-, r', hr'⟩ := answer_eq_ok_iff.mp hy
      have hmeasure := List.findSome?_eq_none_iff.mp hearlier y (by simp [hsplit])
      rw [hr'] at hmeasure
      simp [Except.toOption] at hmeasure
    · rw [hafter, after_of_firstReport?_eq_some halone]
    · exact answer_of_firstReport?_eq_some hfirst

/-- A call that no cluster answers: there is no broker. -/
def vacantCall : Call Float := ⟨⟨[], 1.0, 1⟩, Constraint.default⟩

/-- A call with one broker that carries one replica. -/
def loneCall : Call Float where
  cluster :=
    ⟨[{ id := 0, capacity := PerResource.replicate 1.0, host := "a", rack := "", alive := true
        replicas := [⟨⟨"t", 0, by decide⟩, true, PerResource.replicate 0.5, false⟩] }], 1.0, 1⟩
  constraint := Constraint.default

/-- A failed call, a successful one and a refused one. -/
theorem write_once_vacant_lone :
    answer [vacantCall] loneCall = .ok () ∧
      after [vacantCall, loneCall, vacantCall] = after [loneCall] ∧
      answer [vacantCall, loneCall, vacantCall] loneCall = .error .alreadyFilled := by
  have hisOk : (answer [vacantCall] loneCall).isOk = true := by decide +kernel
  have hok : answer [vacantCall] loneCall = .ok () := by
    cases h : answer [vacantCall] loneCall with
    | ok => rfl
    | error e => rw [h] at hisOk; contradiction
  obtain ⟨-, -, hafter, hanswer⟩ :=
    (write_once [vacantCall, loneCall, vacantCall]).2 [vacantCall] loneCall [vacantCall] rfl hok
  exact ⟨hok, hafter, hanswer loneCall⟩

end Publication

end ClusterBalance
