import ClusterBalance.Proofs.Decimal.Whole
import ClusterBalance.Proofs.Resource
import ClusterBalance.Report

/-! The statistics of a cluster in doubles, and when they overflow. Main statement: of the errors of
a report, those of a number that is too large come from the first step that fails, where that step
squares a finite deviation whose square is infinite or divides by too many topics. -/

namespace ClusterBalance

/-- A computation is refused because a number is too large. -/
def Overflowing {β : Type} (x : Except StatsError β) : Prop :=
  ∃ e, x = .error e ∧ e.errorClass = .overflow

/-- A finite number has a square beyond the doubles. -/
def SquareTooLarge (x : Float) : Prop := x.isFinite ∧ (x * x).isInf

namespace Overflowing

variable {β γ : Type}

theorem not_ok (v : β) : ¬Overflowing (.ok v) := fun ⟨_, h, _⟩ => nomatch h

theorem bind_iff {x : Except StatsError β} {f : β → Except StatsError γ} :
    Overflowing (x >>= f) ↔ Overflowing x ∨ ∃ v, x = .ok v ∧ Overflowing (f v) := by
  simp only [Overflowing, bind_eq_error_iff]
  constructor
  · rintro ⟨e, h | ⟨v, hv, h⟩, he⟩
    · exact .inl ⟨e, h, he⟩
    · exact .inr ⟨v, hv, e, h, he⟩
  · rintro (⟨e, h, he⟩ | ⟨v, hv, e, h, he⟩)
    · exact ⟨e, .inl h, he⟩
    · exact ⟨e, .inr ⟨v, hv, h⟩, he⟩

theorem left {x : Except StatsError β} {f : β → Except StatsError γ} (h : Overflowing x) :
    Overflowing (x >>= f) := bind_iff.mpr (.inl h)

theorem right {x : Except StatsError β} {f : β → Except StatsError γ} {v : β} (hx : x = .ok v)
    (h : Overflowing (f v)) : Overflowing (x >>= f) := bind_iff.mpr (.inr ⟨v, hx, h⟩)

theorem mapM_iff {f : β → Except StatsError γ} {xs : List β} :
    Overflowing (xs.mapM f) ↔ ∃ before x after, xs = before ++ x :: after ∧
      (∀ x' ∈ before, ∃ y, f x' = .ok y) ∧ Overflowing (f x) := by
  simp only [Overflowing, mapM_eq_error_iff]
  constructor
  · rintro ⟨e, ⟨before, x, after, heq, hbefore, h⟩, he⟩
    exact ⟨before, x, after, heq, hbefore, e, h, he⟩
  · rintro ⟨before, x, after, heq, hbefore, e, h, he⟩
    exact ⟨e, ⟨before, x, after, heq, hbefore, h⟩, he⟩

/-- Where no step is refused for anything else, the first step to be refused is of no matter. -/
theorem mapM_iff_exists {f : β → Except StatsError γ} {xs : List β}
    (hf : ∀ x ∈ xs, Overflowing (f x) ∨ ∃ y, f x = .ok y) :
    Overflowing (xs.mapM f) ↔ ∃ x ∈ xs, Overflowing (f x) := by
  induction xs with
  | nil => exact ⟨fun h => absurd h (not_ok _), fun ⟨_, h, _⟩ => nomatch h⟩
  | cons x xs ih =>
    obtain ⟨hx, hxs⟩ := List.forall_mem_cons.mp hf
    have hrest : ∀ y, Overflowing (xs.mapM f >>= fun ys => .ok (y :: ys)) ↔
        ∃ x ∈ xs, Overflowing (f x) := by
      intro y
      rw [bind_iff, ih hxs]
      exact or_iff_left fun ⟨_, _, h⟩ => not_ok _ h
    simp only [mapM_cons_eq, bind_iff, hrest]
    constructor
    · rintro (h | ⟨y, -, x', hmem, h⟩)
      · exact ⟨x, List.mem_cons_self, h⟩
      · exact ⟨x', List.mem_cons_of_mem x hmem, h⟩
    · rintro ⟨x', hmem, h⟩
      rcases List.mem_cons.mp hmem with rfl | hmem
      · exact .inl h
      · rcases hx with hx | ⟨y, hy⟩
        · exact .inl hx
        · exact .inr ⟨y, hy, x', hmem, h⟩

theorem ofFnM_iff {f : Resource → Except StatsError β} :
    Overflowing (PerResource.ofFnM f) ↔
      ∃ r, Overflowing (f r) ∧ ∀ r' ∈ r.before, ∃ v, f r' = .ok v := by
  simp only [Overflowing, PerResource.ofFnM_eq_error_iff]
  constructor
  · rintro ⟨e, ⟨r, h, hbefore⟩, he⟩
    exact ⟨r, ⟨e, h, he⟩, hbefore⟩
  · rintro ⟨r, ⟨e, h, he⟩, hbefore⟩
    exact ⟨e, ⟨r, h, hbefore⟩, he⟩

end Overflowing

/-- A use of a capacity is squared: the id of the broker has a text, and the capacity is not
zero. -/
def Squared (use : Broker Float → Float × Float) (b : Broker Float) : Prop :=
  b.id < Document.digitLimit ∧ ¬Scalar.isZero (use b).2

/-- Of some uses of capacities, the first that has no reading has too large a deviation: the square
of its distance from the expected fraction is what is too large. -/
def FirstTooLarge (fraction : Float) (use : Broker Float → Float × Float)
    (brokers : List (Broker Float)) : Prop :=
  ∃ before b after, brokers = before ++ b :: after ∧
    (∀ b' ∈ before, Squared use b' ∧ ¬SquareTooLarge ((use b').1 - fraction * (use b').2)) ∧
    Squared use b ∧ SquareTooLarge ((use b).1 - fraction * (use b).2)

section Steps

variable {x y : Float}

theorem lift_square?_cases (x : Float) :
    SquareTooLarge x ∧
        StatsError.lift (Scalar.square? x) = .error (.arithmetic .squareTooLarge) ∨
      ¬SquareTooLarge x ∧ StatsError.lift (Scalar.square? x) = .ok (x * x) := by
  have hsquare : Scalar.square? x =
      if x.isFinite && (x * x).isInf then .error .squareTooLarge else .ok (x * x) := rfl
  rw [hsquare, SquareTooLarge, ← Bool.and_eq_true]
  split
  next h => exact .inl ⟨h, rfl⟩
  next h => exact .inr ⟨h, rfl⟩

theorem overflowing_square?_iff :
    Overflowing (StatsError.lift (Scalar.square? x)) ↔ SquareTooLarge x := by
  rcases lift_square?_cases x with ⟨h, hx⟩ | ⟨h, hx⟩ <;> rw [hx]
  · exact iff_of_true ⟨_, rfl, rfl⟩ h
  · exact iff_of_false (Overflowing.not_ok _) h

theorem exists_square?_iff :
    (∃ z, StatsError.lift (Scalar.square? x) = .ok z) ↔ ¬SquareTooLarge x := by
  rcases lift_square?_cases x with ⟨h, hx⟩ | ⟨h, hx⟩ <;> rw [hx]
  · exact iff_of_false nofun (not_not_intro h)
  · exact iff_of_true ⟨_, rfl⟩ h

theorem not_overflowing_sqrt? : ¬Overflowing (StatsError.lift (Scalar.sqrt? x)) := by
  have hsqrt : Scalar.sqrt? x = if x < 0.0 then .error .negativeRoot else .ok x.sqrt := rfl
  rintro ⟨e, h, he⟩
  rw [hsqrt] at h
  split at h
  · cases h
    cases he
  · cases h

theorem divide_cases (q : Quantity) (x y : Float) :
    Scalar.isZero y ∧ divide q x y = .error (.degenerate q) ∨
      ¬Scalar.isZero y ∧ divide q x y = .ok (x / y) := by
  unfold divide
  split
  next h => exact .inl ⟨h, rfl⟩
  next h => exact .inr ⟨h, rfl⟩

theorem not_overflowing_divide {q : Quantity} : ¬Overflowing (divide q x y) := by
  rintro ⟨e, h, he⟩
  rcases divide_cases q x y with ⟨-, hxy⟩ | ⟨-, hxy⟩ <;> rw [hxy] at h <;> cases h
  cases he

end Steps

section Readings

variable {r : Resource} {id : Nat} {fraction used capacity : Float} {accepts : Float → Bool}

/-- A reading ends with the words for the capacity, with a capacity of zero, or with the square. -/
theorem reading_cases (r : Resource) (id : Nat) (fraction : Float) (accepts : Float → Bool)
    (used capacity : Float) :
    (¬(id < Document.digitLimit ∧ ¬Scalar.isZero capacity) ∧ ∃ e,
        BrokerReading.make (.brokerCapacity r id) fraction accepts used capacity = .error e ∧
          e.errorClass ≠ .overflow) ∨
      (id < Document.digitLimit ∧ ¬Scalar.isZero capacity) ∧
        BrokerReading.make (.brokerCapacity r id) fraction accepts used capacity =
          StatsError.lift (Scalar.square? (used - fraction * capacity)) >>= fun square =>
            .ok ⟨used, accepts (used / capacity), square⟩ := by
  rw [BrokerReading.make, StatsError.words_brokerCapacity]
  by_cases hid : id < Document.digitLimit
  · rw [if_pos hid]
    rcases divide_cases (.brokerCapacity r id) used capacity with ⟨h, hdivide⟩ | ⟨h, hdivide⟩
    · refine .inl ⟨fun ⟨_, hcapacity⟩ => hcapacity h, .degenerate (.brokerCapacity r id), ?_, nofun⟩
      rw [ok_bind, hdivide]
      rfl
    · exact .inr ⟨⟨hid, h⟩, by rw [ok_bind, hdivide]; rfl⟩
  · rw [if_neg hid]
    exact .inl ⟨fun ⟨h, _⟩ => hid h, .tooManyDigits, rfl, nofun⟩

theorem overflowing_reading_iff :
    Overflowing (BrokerReading.make (.brokerCapacity r id) fraction accepts used capacity) ↔
      (id < Document.digitLimit ∧ ¬Scalar.isZero capacity) ∧
        SquareTooLarge (used - fraction * capacity) := by
  rcases reading_cases r id fraction accepts used capacity with ⟨hnot, e, hreading, he⟩ |
    ⟨h, hreading⟩ <;> rw [hreading]
  · refine iff_of_false ?_ fun h => hnot h.1
    rintro ⟨e', he', hclass⟩
    cases he'
    exact he hclass
  · rw [Overflowing.bind_iff, overflowing_square?_iff, and_iff_right h]
    exact or_iff_left fun ⟨_, _, h⟩ => Overflowing.not_ok _ h

theorem exists_reading_iff :
    (∃ reading,
        BrokerReading.make (.brokerCapacity r id) fraction accepts used capacity = .ok reading) ↔
      (id < Document.digitLimit ∧ ¬Scalar.isZero capacity) ∧
        ¬SquareTooLarge (used - fraction * capacity) := by
  rw [← exists_square?_iff]
  rcases reading_cases r id fraction accepts used capacity with ⟨hnot, e, hreading, -⟩ |
    ⟨h, hreading⟩ <;> rw [hreading]
  · exact iff_of_false nofun fun h => hnot h.1
  · rw [and_iff_right h]
    constructor
    · rintro ⟨reading, hreading⟩
      obtain ⟨square, hsquare, -⟩ := bind_eq_ok_iff.mp hreading
      exact ⟨square, hsquare⟩
    · rintro ⟨square, hsquare⟩
      exact ⟨_, bind_eq_ok_iff.mpr ⟨square, hsquare, rfl⟩⟩

theorem overflowing_readings_iff {use : Broker Float → Float × Float}
    {brokers : List (Broker Float)} :
    Overflowing (brokers.mapM fun b =>
        BrokerReading.make (.brokerCapacity r b.id) fraction accepts (use b).1 (use b).2) ↔
      FirstTooLarge fraction use brokers := by
  simp only [Overflowing.mapM_iff, overflowing_reading_iff, exists_reading_iff, FirstTooLarge,
    Squared]

end Readings

/-- A count that has a double. -/
def HasDouble (n : Nat) : Prop := ∃ x, Decimal.ofWhole? n = some x

section Counts

variable {q : Quantity} {x : Float} {n : Nat}

theorem divideByCount_cases (q : Quantity) (x : Float) (n : Nat) :
    n = 0 ∧ divideByCount q x n = .error (.degenerate q) ∨
      n ≠ 0 ∧ ¬HasDouble n ∧ divideByCount q x n = .error (.arithmetic .wholeTooLarge) ∨
      n ≠ 0 ∧ HasDouble n ∧ ∃ y, divideByCount q x n = .ok y := by
  unfold divideByCount HasDouble
  split
  next h => exact .inl ⟨by omega, rfl⟩
  next h =>
    cases hn : Decimal.ofWhole? n with
    | none =>
      have hint : (Scalar.ofInt? (n : Int) : Except ArithmeticError Float) =
          .error .wholeTooLarge := by
        simp only [Scalar.ofInt?, hn]
      rw [hint]
      exact .inr (.inl ⟨by omega, by simp, rfl⟩)
    | some y =>
      have hint : (Scalar.ofInt? (n : Int) : Except ArithmeticError Float) = .ok y := by
        simp only [Scalar.ofInt?, hn]
      rw [hint]
      exact .inr (.inr ⟨by omega, ⟨y, rfl⟩, x / y, rfl⟩)

theorem overflowing_divideByCount_iff :
    Overflowing (divideByCount q x n) ↔ n ≠ 0 ∧ ¬HasDouble n := by
  rcases divideByCount_cases q x n with ⟨h, hx⟩ | ⟨h, hn, hx⟩ | ⟨h, hn, y, hx⟩ <;> rw [hx]
  · exact iff_of_false (fun ⟨_, h, he⟩ => by cases h; cases he) fun hn => hn.1 h
  · exact iff_of_true ⟨_, rfl, rfl⟩ ⟨h, hn⟩
  · exact iff_of_false (Overflowing.not_ok y) fun hn' => hn'.2 hn

theorem not_overflowing_spread (hn : HasDouble n) (total : Float)
    (readings : List (BrokerReading Float)) :
    ¬Overflowing (spreadOfReadings total (.count n) readings) := by
  have hdivide : ∀ z : Float, ¬Overflowing ((Divisor.count n).divide .aliveBrokers z) := by
    intro z
    rw [Divisor.divide, overflowing_divideByCount_iff]
    exact fun h => h.2 hn
  have hpure : ∀ s : Spread Float Float, ¬Overflowing (pure s) := Overflowing.not_ok
  simp only [spreadOfReadings, Overflowing.bind_iff, hdivide, not_overflowing_sqrt?, hpure,
    and_false, exists_false, or_false, not_false_eq_true]

/-- A summary of readings overflows only where one of the readings does. -/
theorem overflowing_summary_iff {γ : Type} (hn : HasDouble n) {total : Float}
    {readings : Except StatsError (List (BrokerReading Float))}
    {f : List (BrokerReading Float) → Spread Float Float → γ} :
    Overflowing (readings >>= fun rs =>
        spreadOfReadings total (.count n) rs >>= fun spread => pure (f rs spread)) ↔
      Overflowing readings := by
  rw [Overflowing.bind_iff]
  refine or_iff_left ?_
  rintro ⟨rs, -, h⟩
  rcases Overflowing.bind_iff.mp h with h | ⟨_, -, h⟩
  · exact not_overflowing_spread hn total rs h
  · exact Overflowing.not_ok _ h

/-- The deviation of some counts overflows exactly if one of them is too far from the average. -/
theorem overflowing_countDeviation_iff {average : Float} {counts : List Nat} (hn : HasDouble n)
    (hpos : n ≠ 0) :
    Overflowing (countDeviation average (.count n) counts) ↔
      ∃ m ∈ counts, SquareTooLarge (Scalar.ofNat m - average) := by
  have hdivide : ∀ z : Float, ∃ y, (Divisor.count n).divide .aliveBrokers z = .ok y := by
    intro z
    rcases divideByCount_cases .aliveBrokers z n with ⟨h, -⟩ | ⟨-, h, -⟩ | ⟨-, -, h⟩
    · exact absurd h hpos
    · exact absurd hn h
    · exact h
  have hstep (m : Nat) :
      (Overflowing (StatsError.lift (Scalar.square? (Scalar.ofNat m - average)) >>=
          (Divisor.count n).divide .aliveBrokers) ↔
        SquareTooLarge (Scalar.ofNat m - average)) ∧
      (¬SquareTooLarge (Scalar.ofNat m - average) → ∃ y,
        StatsError.lift (Scalar.square? (Scalar.ofNat m - average)) >>=
          (Divisor.count n).divide .aliveBrokers = .ok y) := by
    rcases lift_square?_cases (Scalar.ofNat m - average) with ⟨h, hsquare⟩ | ⟨h, hsquare⟩
    · rw [hsquare]
      exact ⟨iff_of_true ⟨_, rfl, rfl⟩ h, fun hnot => absurd h hnot⟩
    · rw [hsquare]
      obtain ⟨y, hy⟩ := hdivide ((Scalar.ofNat m - average) * (Scalar.ofNat m - average))
      have heq : (Except.ok ((Scalar.ofNat m - average) * (Scalar.ofNat m - average)) >>=
          (Divisor.count n).divide .aliveBrokers) = .ok y := hy
      rw [heq]
      exact ⟨iff_of_false (Overflowing.not_ok y) h, fun _ => ⟨y, rfl⟩⟩
  unfold countDeviation
  rw [Overflowing.bind_iff, Overflowing.mapM_iff_exists]
  · simp only [not_overflowing_sqrt?, and_false, exists_false, or_false, (hstep _).1]
  · intro m _
    by_cases h : SquareTooLarge (Scalar.ofNat m - average)
    · exact .inl ((hstep m).1.mpr h)
    · exact .inr ((hstep m).2 h)

theorem divideCount_eq {m : Int} (hpos : n ≠ 0) :
    (Divisor.count n).divideCount q m = .ok (Scalar.ratio m n : Float) := by
  rw [Divisor.divideCount, countRatio, if_neg (by omega)]

/-- The average and the deviation of some counts overflow only in the deviation. -/
theorem overflowing_averageAndDeviation_iff {γ : Type} (hn : HasDouble n) (hpos : n ≠ 0)
    {m : Int} {counts : List Nat} {f : Float → Float → γ} :
    Overflowing ((Divisor.count n).divideCount q m >>= fun average =>
        countDeviation average (.count n) counts >>= fun deviation =>
          pure (f average deviation)) ↔
      ∃ k ∈ counts, SquareTooLarge (Scalar.ofNat k - Scalar.ratio m n) := by
  rw [divideCount_eq hpos, ok_bind, Overflowing.bind_iff, ← overflowing_countDeviation_iff hn hpos]
  exact or_iff_left fun ⟨_, _, h⟩ => Overflowing.not_ok _ h

end Counts

namespace Cluster

variable {c : Cluster Float} {k : Constraint Float} {n : Nat}

theorem overflowing_utilizationReadings_iff (r : Resource) (fraction : Float) (band : Band Float) :
    Overflowing (c.aliveBrokers.mapM (c.utilizationReading r fraction band)) ↔
      FirstTooLarge fraction (c.measured r) c.aliveBrokers :=
  @overflowing_readings_iff r fraction band.contains (c.measured r) _

theorem overflowing_summarizeResource_iff {r : Resource} (hn : HasDouble n) :
    Overflowing (c.summarizeResource k r (.count n)) ↔
      ∃ fraction, c.usedFraction r = .ok fraction ∧
        FirstTooLarge fraction (c.measured r) c.aliveBrokers := by
  have hused : ¬Overflowing (c.usedFraction r) := not_overflowing_divide
  unfold summarizeResource
  rw [Overflowing.bind_iff, or_iff_right hused]
  refine exists_congr fun fraction => and_congr_right fun _ => ?_
  exact (overflowing_summary_iff hn).trans (overflowing_utilizationReadings_iff r fraction _)

/-- The potential outbound load as a fraction of the outbound capacity of the whole cluster. -/
def potentialFraction (c : Cluster Float) : Except StatsError Float :=
  divide (.clusterCapacity .networkOut) c.totalPotentialOut (c.capacity.get .networkOut)

/-- The potential outbound load of a broker and its own outbound capacity. -/
def potentialUse (c : Cluster Float) (b : Broker Float) : Float × Float :=
  (c.potentialOut b, b.capacity.get .networkOut)

theorem overflowing_potentialReadings_iff (fraction threshold : Float) :
    Overflowing (c.aliveBrokers.mapM (c.potentialReading fraction threshold)) ↔
      FirstTooLarge fraction c.potentialUse c.aliveBrokers :=
  @overflowing_readings_iff .networkOut fraction (fun x => x ≤ threshold) c.potentialUse _

theorem overflowing_summarizePotential_iff (hn : HasDouble n) :
    Overflowing (c.summarizePotential k (.count n)) ↔
      ∃ fraction, c.potentialFraction = .ok fraction ∧
        FirstTooLarge fraction c.potentialUse c.aliveBrokers := by
  have hused : ¬Overflowing c.potentialFraction := not_overflowing_divide
  show Overflowing (c.potentialFraction >>= _) ↔ _
  rw [Overflowing.bind_iff, or_iff_right hused]
  refine exists_congr fun fraction => and_congr_right fun _ => ?_
  exact (overflowing_summary_iff hn).trans (overflowing_potentialReadings_iff fraction _)

/-- The count of some alive broker is too far from the average that the counts have. -/
def CountTooLarge (c : Cluster Float) (counts : List Nat) (count : Broker Float → Nat) : Prop :=
  ∃ b ∈ c.aliveBrokers,
    SquareTooLarge (Scalar.ofNat (count b) - Scalar.ratio (totalCount counts) c.aliveBrokers.length)

theorem countTooLarge_iff {counts : List Nat} {count : Broker Float → Nat} :
    c.CountTooLarge counts count ↔ ∃ m ∈ c.aliveBrokers.map count,
      SquareTooLarge (Scalar.ofNat m - Scalar.ratio (totalCount counts) c.aliveBrokers.length) := by
  constructor
  · rintro ⟨b, hb, h⟩
    exact ⟨count b, List.mem_map_of_mem hb, h⟩
  · rintro ⟨m, hm, h⟩
    obtain ⟨b, hb, rfl⟩ := List.mem_map.mp hm
    exact ⟨b, hb, h⟩

theorem overflowing_summarizeCounts_iff {count : Broker Float → Nat}
    (hn : HasDouble c.aliveBrokers.length) (hpos : c.aliveBrokers.length ≠ 0) :
    Overflowing (c.summarizeCounts count (.count c.aliveBrokers.length)) ↔
      c.CountTooLarge (c.brokers.map count) count := by
  rw [countTooLarge_iff]
  exact overflowing_averageAndDeviation_iff hn hpos

theorem overflowing_summarizeTopic_iff {topic : LooseText}
    (hn : HasDouble c.aliveBrokers.length) (hpos : c.aliveBrokers.length ≠ 0) :
    Overflowing (c.summarizeTopic (.count c.aliveBrokers.length) topic) ↔
      c.CountTooLarge (c.aliveBrokers.map (·.numReplicasOf topic)) (·.numReplicasOf topic) := by
  rw [countTooLarge_iff]
  exact overflowing_averageAndDeviation_iff hn hpos

/-- Some topic has too large a count where all topics before it are summarized. -/
def FirstTopicTooLarge (c : Cluster Float) : Prop :=
  ∃ before topic after, c.topics = before ++ topic :: after ∧
    (∀ t ∈ before, ∃ s, c.summarizeTopic (.count c.aliveBrokers.length) t = .ok s) ∧
    c.CountTooLarge (c.aliveBrokers.map (·.numReplicasOf topic)) (·.numReplicasOf topic)

/-- Every topic is summarized, but there are too many of them to divide by. -/
structure TooManyTopics (c : Cluster Float) : Prop where
  each : ∀ t ∈ c.topics, ∃ s, c.summarizeTopic (.count c.aliveBrokers.length) t = .ok s
  number : ¬HasDouble c.topics.length

theorem overflowing_summarizeTopics_iff
    (hn : HasDouble c.aliveBrokers.length) (hpos : c.aliveBrokers.length ≠ 0) :
    Overflowing (c.summarizeTopics (.count c.aliveBrokers.length)) ↔
      c.FirstTopicTooLarge ∨ c.TooManyTopics := by
  have hpure : ∀ s : Spread Float Nat, ¬Overflowing (pure s) := Overflowing.not_ok
  have hzero : HasDouble 0 := Decimal.exists_ofWhole?_eq_some (by decide)
  have hmany : c.topics.length ≠ 0 ∧ ¬HasDouble c.topics.length ↔ ¬HasDouble c.topics.length :=
    and_iff_right_of_imp fun h h0 => h (h0 ▸ hzero)
  unfold summarizeTopics
  rw [Overflowing.bind_iff, Overflowing.mapM_iff]
  simp only [overflowing_summarizeTopic_iff hn hpos]
  refine or_congr_right ?_
  constructor
  · rintro ⟨spreads, hspreads, h⟩
    refine ⟨exists_mapM_eq_ok_iff.mp ⟨spreads, hspreads⟩, ?_⟩
    rcases Overflowing.bind_iff.mp h with h | ⟨_, -, h⟩
    · exact (overflowing_divideByCount_iff.mp h).2
    rcases Overflowing.bind_iff.mp h with h | ⟨_, -, h⟩
    · exact (overflowing_divideByCount_iff.mp h).2
    · exact absurd h (hpure _)
  · rintro ⟨heach, hnumber⟩
    obtain ⟨spreads, hspreads⟩ := exists_mapM_eq_ok_iff.mpr heach
    refine ⟨spreads, hspreads, .left ?_⟩
    exact overflowing_divideByCount_iff.mpr (hmany.mpr hnumber)

/-- The loads are summarized: those of every resource, and the potential outbound load. -/
structure SummarizesLoads (c : Cluster Float) (k : Constraint Float) : Prop where
  resource : ∀ r, ∃ s, c.summarizeResource k r (.count c.aliveBrokers.length) = .ok s
  potential : ∃ s, c.summarizePotential k (.count c.aliveBrokers.length) = .ok s

/-- The counts of the replicas and of the leaders are summarized too. -/
structure SummarizesCounts (c : Cluster Float) (k : Constraint Float) : Prop
    extends c.SummarizesLoads k where
  replicas : ∃ s, c.summarizeCounts (·.numReplicas) (.count c.aliveBrokers.length) = .ok s
  leaders : ∃ s, c.summarizeCounts (·.numLeaders) (.count c.aliveBrokers.length) = .ok s

/-- A number is too large for the statistics of a cluster, where all that comes before is there. -/
inductive Overflows (c : Cluster Float) (k : Constraint Float) : Prop
  | utilization (r : Resource) (fraction : Float)
      (hbefore : ∀ r' ∈ r.before,
        ∃ s, c.summarizeResource k r' (.count c.aliveBrokers.length) = .ok s)
      (hfraction : c.usedFraction r = .ok fraction)
      (h : FirstTooLarge fraction (c.measured r) c.aliveBrokers)
  | potential (fraction : Float)
      (hbefore : ∀ r, ∃ s, c.summarizeResource k r (.count c.aliveBrokers.length) = .ok s)
      (hfraction : c.potentialFraction = .ok fraction)
      (h : FirstTooLarge fraction c.potentialUse c.aliveBrokers)
  | replicas (hbefore : c.SummarizesLoads k)
      (h : c.CountTooLarge (c.brokers.map (·.numReplicas)) (·.numReplicas))
  | leaders (hbefore : c.SummarizesLoads k)
      (hreplicas : ∃ s, c.summarizeCounts (·.numReplicas) (.count c.aliveBrokers.length) = .ok s)
      (h : c.CountTooLarge (c.brokers.map (·.numLeaders)) (·.numLeaders))
  | topics (halive : ∃ b ∈ c.brokers, b.alive) (hbefore : c.SummarizesCounts k)
      (h : c.FirstTopicTooLarge ∨ c.TooManyTopics)

theorem Overflows.length_ne_zero (h : c.Overflows k) : c.aliveBrokers.length ≠ 0 := by
  have hfirst {fraction : Float} {use : Broker Float → Float × Float}
      (h : FirstTooLarge fraction use c.aliveBrokers) : c.aliveBrokers.length ≠ 0 := by
    obtain ⟨before, b, after, heq, -⟩ := h
    simp [heq]
  have hcount {counts : List Nat} {count : Broker Float → Nat}
      (h : c.CountTooLarge counts count) : c.aliveBrokers.length ≠ 0 := by
    obtain ⟨b, hb, -⟩ := h
    exact Nat.ne_of_gt (List.length_pos_of_mem hb)
  cases h with
  | utilization r fraction hbefore hfraction h => exact hfirst h
  | potential fraction hbefore hfraction h => exact hfirst h
  | replicas hbefore h => exact hcount h
  | leaders hbefore hreplicas h => exact hcount h
  | topics halive hbefore h =>
    obtain ⟨b, hb, halive⟩ := halive
    exact Nat.ne_of_gt (List.length_pos_of_mem (List.mem_filter.mpr ⟨hb, halive⟩))

/-- The statistics of a cluster are refused for a number that is too large exactly if the first step
that fails meets one. -/
theorem overflowing_measure_iff (hn : HasDouble c.aliveBrokers.length) :
    Overflowing (c.measure k) ↔ c.Overflows k := by
  by_cases hpos : c.aliveBrokers.length = 0
  · have hmeasure : c.measure k = .error (.degenerate .aliveBrokers) := if_pos hpos
    rw [hmeasure]
    refine iff_of_false ?_ fun h => h.length_ne_zero hpos
    rintro ⟨_, ⟨⟩, he⟩
    cases he
  unfold measure
  rw [if_neg hpos]
  constructor
  · intro h
    rcases Overflowing.bind_iff.mp h with h | ⟨summaries, hsummaries, h⟩
    · obtain ⟨r, h, hbefore⟩ := Overflowing.ofFnM_iff.mp h
      obtain ⟨fraction, hfraction, h⟩ := (overflowing_summarizeResource_iff hn).mp h
      exact .utilization r fraction hbefore hfraction h
    have hresource := PerResource.exists_ofFnM_iff.mp ⟨summaries, hsummaries⟩
    rcases Overflowing.bind_iff.mp h with h | ⟨potential, hpotential, h⟩
    · obtain ⟨fraction, hfraction, h⟩ := (overflowing_summarizePotential_iff hn).mp h
      exact .potential fraction hresource hfraction h
    have hloads : c.SummarizesLoads k := ⟨hresource, potential, hpotential⟩
    rcases Overflowing.bind_iff.mp h with h | ⟨replicas, hreplicas, h⟩
    · exact .replicas hloads ((overflowing_summarizeCounts_iff hn hpos).mp h)
    rcases Overflowing.bind_iff.mp h with h | ⟨leaders, hleaders, h⟩
    · exact .leaders hloads ⟨replicas, hreplicas⟩ ((overflowing_summarizeCounts_iff hn hpos).mp h)
    rcases Overflowing.bind_iff.mp h with h | ⟨_, -, h⟩
    · obtain ⟨b, hb⟩ := List.exists_mem_of_length_pos (Nat.pos_of_ne_zero hpos)
      refine .topics ⟨b, List.mem_filter.mp hb⟩ ?_ ((overflowing_summarizeTopics_iff hn hpos).mp h)
      exact ⟨hloads, ⟨replicas, hreplicas⟩, leaders, hleaders⟩
    · exact absurd h (Overflowing.not_ok _)
  · intro h
    cases h with
    | utilization r fraction hbefore hfraction h =>
      have hr := (overflowing_summarizeResource_iff (k := k) hn).mpr ⟨fraction, hfraction, h⟩
      exact .left (Overflowing.ofFnM_iff.mpr ⟨r, hr, hbefore⟩)
    | potential fraction hbefore hfraction h =>
      obtain ⟨summaries, hsummaries⟩ := PerResource.exists_ofFnM_iff.mpr hbefore
      have hpotential :=
        (overflowing_summarizePotential_iff (k := k) hn).mpr ⟨fraction, hfraction, h⟩
      exact .right hsummaries (.left hpotential)
    | replicas hbefore h =>
      obtain ⟨summaries, hsummaries⟩ := PerResource.exists_ofFnM_iff.mpr hbefore.resource
      obtain ⟨potential, hpotential⟩ := hbefore.potential
      have hreplicas := (overflowing_summarizeCounts_iff hn hpos).mpr h
      exact .right hsummaries (.right hpotential (.left hreplicas))
    | leaders hbefore hreplicas h =>
      obtain ⟨summaries, hsummaries⟩ := PerResource.exists_ofFnM_iff.mpr hbefore.resource
      obtain ⟨potential, hpotential⟩ := hbefore.potential
      obtain ⟨replicas, hreplicas⟩ := hreplicas
      have hleaders := (overflowing_summarizeCounts_iff hn hpos).mpr h
      exact .right hsummaries (.right hpotential (.right hreplicas (.left hleaders)))
    | topics halive hbefore h =>
      obtain ⟨summaries, hsummaries⟩ := PerResource.exists_ofFnM_iff.mpr hbefore.resource
      obtain ⟨potential, hpotential⟩ := hbefore.potential
      obtain ⟨replicas, hreplicas⟩ := hbefore.replicas
      obtain ⟨leaders, hleaders⟩ := hbefore.leaders
      have htopics := (overflowing_summarizeTopics_iff hn hpos).mpr h
      exact .right hsummaries
        (.right hpotential (.right hreplicas (.right hleaders (.left htopics))))

end Cluster

end ClusterBalance
