import ClusterBalance.Proofs.Decimal.Bounded
import ClusterBalance.Proofs.Statistics.Extremes
import ClusterBalance.Proofs.Statistics.Overflow

/-! Which statistics are finite. Main statements: of the statistics of finite amounts the minimum is
always finite, and each of the others exactly if what it is made of is: the total, the uses, or the
sum of the squares; and the statistics of counts that fit a word are all finite. -/

namespace ClusterBalance

open Decimal

section Steps

variable {x y z : Float} {n k : Nat} {q : Quantity}

theorem exists_of_divideByCount (h : divideByCount q x n = .ok z) :
    ∃ y, y.isFinite = true ∧ 1 ≤ value y ∧ z = x / y := by
  unfold divideByCount at h
  split at h
  · cases h
  next hn =>
    obtain ⟨y, hy, h⟩ := bind_eq_ok_iff.mp h
    cases h
    have hwhole : ofWhole? n = some y := by
      simp only [Scalar.ofInt?] at hy
      cases hsome : ofWhole? (n : Int) with
      | none =>
        rw [hsome] at hy
        cases hy
      | some y' =>
        rw [hsome] at hy
        cases hy
        rfl
    exact ⟨y, isFinite_of_ofWhole? hwhole, one_le_value_of_ofWhole? (by omega) hwhole, rfl⟩

theorem isFinite_of_divideByCount (h : divideByCount q x n = .ok z) : z.isFinite = x.isFinite := by
  obtain ⟨y, hy, hone, rfl⟩ := exists_of_divideByCount h
  exact isFinite_div hy hone

theorem upTo_of_divideByCount (hx : UpTo k x) (hk : k ≤ 1023) (h : divideByCount q x n = .ok z) :
    UpTo k z := by
  obtain ⟨y, hy, hone, rfl⟩ := exists_of_divideByCount h
  exact hx.div hy hone hk

theorem sqrt_of_lift (h : StatsError.lift (Scalar.sqrt? x) = .ok z) :
    NotNegative x ∧ z = x.sqrt := by
  have hsqrt : Scalar.sqrt? x = if x < 0.0 then .error .negativeRoot else .ok x.sqrt := rfl
  rw [hsqrt] at h
  split at h
  · cases h
  next hx =>
    cases h
    exact ⟨hx, rfl⟩

theorem square_of_lift (h : StatsError.lift (Scalar.square? x) = .ok z) : z = x * x := by
  rcases lift_square?_cases x with ⟨-, hx⟩ | ⟨-, hx⟩ <;> rw [hx] at h <;> cases h
  rfl

end Steps

section Amounts

variable {quantity : Quantity} {total capacity fraction : Float} {accepts : Float → Bool} {n : Nat}
  {spread : Spread Float Float} {brokers : List (Broker Float)}

/-- The square of the distance of a use from what is expected of it. -/
def squaredDistance (fraction : Float) (use : Float × Float) : Float :=
  (use.1 - fraction * use.2) * (use.1 - fraction * use.2)

theorem squaredDeviation_of_make {used : Float} {reading : BrokerReading Float}
    (h : BrokerReading.make quantity fraction accepts used capacity = .ok reading) :
    reading.squaredDeviation = squaredDistance fraction (used, capacity) := by
  obtain ⟨share, square, -, hsquare, rfl⟩ := parts_of_make h
  exact square_of_lift hsquare

theorem isFinite_of_spread {readings : List (BrokerReading Float)}
    (h : spreadOfReadings total (.count n) readings = .ok spread) :
    spread.average.isFinite = total.isFinite ∧
      spread.deviation.isFinite =
        (Scalar.sum (readings.map BrokerReading.squaredDeviation)).isFinite := by
  obtain ⟨average, haverage, h⟩ := bind_eq_ok_iff.mp h
  obtain ⟨meanSquare, hmean, h⟩ := bind_eq_ok_iff.mp h
  obtain ⟨deviation, hdeviation, h⟩ := bind_eq_ok_iff.mp h
  cases h
  obtain ⟨hnonneg, rfl⟩ := sqrt_of_lift hdeviation
  exact ⟨isFinite_of_divideByCount haverage,
    (isFinite_sqrt hnonneg).trans (isFinite_of_divideByCount hmean)⟩

theorem isFinite_maximum_iff {uses : List Float} (h : ∀ u ∈ uses, NotNegative u)
    (hnumber : ∀ u ∈ uses, u.isNaN = false) :
    (uses.foldl Scalar.larger 0).isFinite = true ↔ ∀ u ∈ uses, u.isFinite = true := by
  have hmaximum := picks_larger.foldl isNaN_zero uses
  change (uses.foldl Scalar.larger 0.0).isFinite = true ↔ _
  constructor
  · intro hfinite u hu
    exact isFinite_of_place_le (h u hu) (hnumber u hu) hfinite
      (hmaximum.item_le u hu (hnumber u hu))
  · intro huses
    rcases hmaximum.mem with hzero | hmem
    · rw [hzero]
      exact isFinite_zero
    · exact huses _ hmem

/-- The search for the least use starts from the largest finite double. -/
theorem isFinite_minimum {uses : List Float} (h : ∀ u ∈ uses, NotNegative u) :
    (uses.foldl Scalar.smaller Scalar.largest).isFinite = true := by
  have hminimum := picks_smaller.foldl isNaN_largest uses
  rcases hminimum.mem with hlargest | hmem
  · rw [hlargest]
    exact isFinite_largest
  · exact isFinite_of_place_le (h _ hmem) hminimum.kept isFinite_largest hminimum.start_le

/-- What the statistics of a resource are made of: all that is used and all that there is, and of
each alive broker what it uses and has. -/
structure Consumption where
  total : Float
  capacity : Float
  each : List (Float × Float)

/-- The sum of the squares of the distances from what is expected of each broker. -/
def Consumption.squares (u : Consumption) : Float :=
  Scalar.sum (u.each.map (squaredDistance (u.total / u.capacity)))

/-- Nothing that the statistics of a resource are made of is beyond the finite doubles. -/
structure Consumption.StaysFinite (u : Consumption) : Prop where
  total : u.total.isFinite = true
  each : ∀ use ∈ u.each, use.1.isFinite = true
  squares : u.squares.isFinite = true

/-- Of the statistics of a resource, which are finite. -/
structure FiniteWhere (u : Consumption) (spread : Spread Float Float) : Prop where
  average : spread.average.isFinite = true ↔ u.total.isFinite = true
  maximum : spread.maximum.isFinite = true ↔ ∀ use ∈ u.each, use.1.isFinite = true
  minimum : spread.minimum.isFinite = true
  deviation : spread.deviation.isFinite = true ↔ u.squares.isFinite = true

theorem FiniteWhere.forall_iff {u : Consumption} (h : FiniteWhere u spread) :
    (∀ s, (spread.get id id s).isFinite = true) ↔ u.StaysFinite := by
  constructor
  · intro hfinite
    exact ⟨h.average.mp (hfinite .average), h.maximum.mp (hfinite .maximum),
      h.deviation.mp (hfinite .deviation)⟩
  · rintro ⟨htotal, huses, hsquares⟩ (_ | _ | _ | _)
    · exact h.average.mpr htotal
    · exact h.maximum.mpr huses
    · exact h.minimum
    · exact h.deviation.mpr hsquares

/-- The statistics of the readings of some brokers. -/
theorem finiteWhere_of_readings {readings : List (BrokerReading Float)}
    {name : Broker Float → Quantity} (use : Broker Float → Float × Float)
    (hreadings : brokers.mapM (fun b =>
      BrokerReading.make (name b) (total / capacity) accepts (use b).1 (use b).2) = .ok readings)
    (hspread : spreadOfReadings total (.count n) readings = .ok spread)
    (h : ∀ b ∈ brokers, NotNegative (use b).1) (hnumber : ∀ b ∈ brokers, (use b).1.isNaN = false) :
    FiniteWhere ⟨total, capacity, brokers.map use⟩ spread := by
  obtain ⟨haverage, hdeviation⟩ := isFinite_of_spread hspread
  obtain ⟨-, hmaximum, hminimum⟩ := parts_of_spread hspread
  have hused := map_used_of_readings use hreadings
  have hsquares : readings.map BrokerReading.squaredDeviation =
      (brokers.map use).map (squaredDistance (total / capacity)) := by
    rw [List.map_map]
    exact map_eq_of_mapM_eq_ok hreadings fun _ _ _ hb => squaredDeviation_of_make hb
  have huses : ∀ u ∈ brokers.map fun b => (use b).1, NotNegative u := List.forall_mem_map.mpr h
  have hnumbers : ∀ u ∈ brokers.map fun b => (use b).1, u.isNaN = false :=
    List.forall_mem_map.mpr hnumber
  refine ⟨by rw [haverage], ?_, ?_, by rw [hdeviation, hsquares, Consumption.squares]⟩
  · rw [hmaximum, greatestUse, hused]
    refine (isFinite_maximum_iff huses hnumbers).trans ?_
    rw [List.forall_mem_map, List.forall_mem_map]
  · rw [hminimum, leastUse, hused]
    exact isFinite_minimum huses

end Amounts

section Counts

variable {n : Nat} {average deviation : Float} {counts : List Nat}

theorem upTo_deviation (haverage : UpTo 64 average) (hcounts : ∀ m ∈ counts, m < 2 ^ 64)
    (h : countDeviation average (.count n) counts = .ok deviation) : UpTo 92 deviation := by
  obtain ⟨shares, hshares, h⟩ := bind_eq_ok_iff.mp h
  obtain ⟨-, rfl⟩ := sqrt_of_lift h
  have hshare : ∀ share ∈ shares, UpTo 128 share := by
    refine forall_of_mapM_eq_ok hshares fun m hm share hshare => ?_
    obtain ⟨square, hsquare, hdivide⟩ := bind_eq_ok_iff.mp hshare
    have hcount : UpTo 64 (Scalar.ofNat m) := upTo_ofNat (hcounts m hm) (by decide)
    rw [square_of_lift hsquare] at hdivide
    exact upTo_of_divideByCount (hcount.square_sub haverage (by decide)) (by decide) hdivide
  exact (upTo_sum hshare (by decide)).sqrt (by decide)

theorem upTo_average {m : Nat} {q : Quantity} (hm : m < 2 ^ 64)
    (h : (Divisor.count n).divideCount q m = .ok average) : UpTo 64 average := by
  have hratio : (countRatio q m n : Except StatsError Float) = .ok average := h
  unfold countRatio at hratio
  split at hratio
  · cases hratio
  next hn =>
    cases hratio
    exact upTo_ratio hm (by omega) (by decide)

end Counts

end ClusterBalance
