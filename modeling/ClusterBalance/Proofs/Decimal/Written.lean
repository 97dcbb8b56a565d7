import ClusterBalance.Proofs.Decimal.Digits
import ClusterBalance.Proofs.Decimal.Shortest

/-! The written form of a decimal. Main statement: in every layout a decimal above zero is written
by digits on both sides of a point, or by digits and an exponent, that have its value. -/

namespace ClusterBalance.Decimal

/-- The digits in front of a point: a zero alone, or digits that start with another one. -/
structure IsWhole (cs : List Char) : Prop where
  digits : AreDigits cs
  start : cs = ['0'] ∨ ∃ c rest, cs = c :: rest ∧ c ≠ '0'

/-- A text writes a value: by a point between digits, or by an exponent. -/
inductive Writes : List Char → ℚ → Prop
  | plain {whole part : List Char} (hwhole : IsWhole whole) (hpart : AreDigits part)
      (hne : part ≠ []) :
      Writes (whole ++ '.' :: part) (digitsValue (whole ++ part) * 10 ^ (-(part.length : Int)))
  | power {whole part : List Char} (hwhole : IsWhole whole) (hpart : AreDigits part)
      (width : Nat) (exponent : Int) :
      Writes (whole ++ (if part.isEmpty then [] else '.' :: part) ++
          'e' :: exponentChars width exponent)
        (digitsValue (whole ++ part) * 10 ^ (exponent - (part.length : Int)))

variable {c : Char} {cs : List Char}

theorem isWhole_zero : IsWhole ['0'] := ⟨areDigits_zeros 1, .inl rfl⟩

theorem AreDigits.take {ds : List Char} (h : AreDigits ds) (k : Nat) : AreDigits (ds.take k) :=
  fun d hd => h d (List.mem_of_mem_take hd)

theorem AreDigits.drop {ds : List Char} (h : AreDigits ds) (k : Nat) : AreDigits (ds.drop k) :=
  fun d hd => h d (List.mem_of_mem_drop hd)

/-- Digits with a point among them, in front of them or behind them. -/
theorem writes_positional (hdigits : AreDigits (c :: cs)) (hc : c ≠ '0') (places : Int) :
    Writes (positional (c :: cs) places)
      (digitsValue (c :: cs) * 10 ^ (places - ((c :: cs).length : Int))) := by
  unfold positional
  by_cases hplaces : places ≤ 0
  · -- the point stands in front, with zeros behind it
    have hpart : AreDigits (List.replicate (-places).toNat '0' ++ c :: cs) :=
      (areDigits_zeros _).append hdigits
    have hvalue : (digitsValue (c :: cs) * 10 ^ (places - ((c :: cs).length : Int)) : ℚ) =
        digitsValue (['0'] ++ (List.replicate (-places).toNat '0' ++ c :: cs)) *
          10 ^ (-((List.replicate (-places).toNat '0' ++ c :: cs).length : Int)) := by
      have hdigit : digitsValue (['0'] ++ (List.replicate (-places).toNat '0' ++ c :: cs)) =
          digitsValue (c :: cs) := by
        rw [← List.append_assoc]
        exact digitsValue_zeros_append ((-places).toNat + 1) (c :: cs)
      rw [hdigit, List.length_append, List.length_replicate]
      congr 2
      omega
    rw [if_pos hplaces, hvalue]
    exact .plain isWhole_zero hpart (by simp)
  · rw [if_neg hplaces]
    obtain ⟨k, rfl⟩ : ∃ k : Nat, places = (k + 1 : Nat) := ⟨places.toNat - 1, by omega⟩
    rw [Int.toNat_natCast, List.take_succ_cons, List.drop_succ_cons]
    dsimp only
    have hwhole :
        IsWhole (c :: cs.take k ++ List.replicate (k + 1 - (c :: cs.take k).length) '0') :=
      ⟨(hdigits.take (k + 1)).append (areDigits_zeros _), .inr ⟨c, _, rfl, hc⟩⟩
    by_cases hshort : cs.length ≤ k
    · -- the point stands behind, after zeros
      have htake : cs.take k = cs := List.take_of_length_le hshort
      have hdrop : cs.drop k = [] := List.drop_of_length_le hshort
      rw [htake] at hwhole ⊢
      have hvalue :
          (digitsValue (c :: cs) * 10 ^ (((k + 1 : Nat) : Int) - ((c :: cs).length : Int)) : ℚ) =
          digitsValue (c :: cs ++ List.replicate (k + 1 - (c :: cs).length) '0' ++ ['0']) *
            10 ^ (-((['0'] : List Char).length : Int)) := by
        have hzeros : List.replicate (k + 1 - (c :: cs).length) '0' ++ ['0'] =
            List.replicate (k + 1 - (c :: cs).length + 1) '0' := List.replicate_succ'.symm
        rw [List.append_assoc, hzeros, digitsValue_append_zeros]
        push_cast
        rw [mul_assoc, ← zpow_natCast, ← zpow_add₀ (by norm_num)]
        congr 2
        rw [List.length_cons]
        simp
        omega
      rw [hdrop, hvalue]
      exact .plain hwhole (areDigits_zeros 1) (by decide)
    · have hzeros : k + 1 - (c :: cs.take k).length = 0 := by
        rw [List.length_cons, List.length_take]
        omega
      have hne : cs.drop k ≠ [] := by
        intro h
        have := List.drop_eq_nil_iff.mp h
        omega
      have hvalue :
          (digitsValue (c :: cs) * 10 ^ (((k + 1 : Nat) : Int) - ((c :: cs).length : Int)) : ℚ) =
          digitsValue (c :: cs.take k ++ cs.drop k) * 10 ^ (-((cs.drop k).length : Int)) := by
        rw [List.cons_append, List.take_append_drop, List.length_drop, List.length_cons]
        congr 2
        omega
      rw [hzeros] at hwhole ⊢
      rw [List.replicate_zero, List.append_nil] at hwhole ⊢
      rw [List.isEmpty_eq_false_iff.mpr hne, hvalue]
      exact .plain hwhole (hdigits.drop (k + 1)) hne

/-- Digits with a point behind the first, and an exponent. -/
theorem writes_scientific (hdigits : AreDigits (c :: cs)) (hc : c ≠ '0') (width : Nat)
    (exponent : Int) :
    Writes (scientific width (c :: cs) exponent)
      (digitsValue (c :: cs) * 10 ^ (exponent - (cs.length : Int))) := by
  have hwhole : IsWhole [c] := ⟨hdigits.take 1, .inr ⟨c, [], rfl, hc⟩⟩
  exact .power hwhole (hdigits.drop 1) width exponent

/-- A decimal above zero is written with its value, in every layout. -/
theorem writes_chars (layout : Layout) {x : Numeral} (h : 0 < x.digits) :
    Writes (x.chars layout) x.value := by
  obtain ⟨k, c, cs, htrim, hc, hdigits, hvalue, hlength⟩ := exists_trimZeros_digitChars h
  have hx : x.value = digitsValue (c :: cs) * 10 ^ (x.exponent + (k : Int)) := by
    rw [Numeral.value, hvalue, zpow_add₀ (by norm_num), zpow_natCast]
    push_cast
    ring
  simp only [Numeral.chars, if_neg (Nat.ne_of_gt h), htrim, hlength]
  split
  · have hpositional := writes_positional hdigits hc
      (x.exponent + ↑((c :: cs).length + k) - 1 + 1)
    rw [hx]
    convert hpositional using 3
    push_cast
    omega
  · have hscientific := writes_scientific hdigits hc layout.exponentWidth
      (x.exponent + ↑((c :: cs).length + k) - 1)
    rw [hx]
    convert hscientific using 3
    rw [List.length_cons]
    push_cast
    omega

theorem IsWhole.exists_eq_cons {whole : List Char} (h : IsWhole whole) :
    ∃ d ds, whole = d :: ds ∧ d.isDigit = true := by
  rcases h.start with rfl | ⟨d, ds, rfl, -⟩
  · exact ⟨'0', [], rfl, rfl⟩
  · exact ⟨d, ds, rfl, h.digits d List.mem_cons_self⟩

theorem Writes.exists_eq_cons {q : ℚ} (h : Writes cs q) :
    ∃ d ds, cs = d :: ds ∧ d.isDigit = true := by
  cases h with
  | plain hwhole hpart hne =>
    obtain ⟨d, ds, rfl, hd⟩ := hwhole.exists_eq_cons
    exact ⟨d, _, rfl, hd⟩
  | power hwhole hpart width exponent =>
    obtain ⟨d, ds, rfl, hd⟩ := hwhole.exists_eq_cons
    exact ⟨d, _, by rw [List.append_assoc, List.cons_append], hd⟩

theorem isWhole_digitChars (n : Nat) : IsWhole (digitChars n) := by
  refine ⟨areDigits_digitChars n, ?_⟩
  rcases Nat.eq_zero_or_pos n with rfl | hpos
  · exact .inl rfl
  · exact .inr (exists_digitChars_eq_cons hpos)

/-- The digits of a finite double write a value that is read as this double. -/
theorem exists_writes_shortest {significand step : Nat} (hlt : significand < 2 * hiddenBit)
    (hstep : step = 0 ∨ hiddenBit ≤ significand)
    (hfinite : step * hiddenBit + significand < infinityBits) (negative : Bool) :
    ∃ q, Writes ((shortest significand (leastExponent + (step : Nat))).chars interchange) q ∧
      ∀ (digits : Nat) (exponent : Int), (digits * 10 ^ exponent : ℚ) = q →
        ofDecimal negative digits exponent =
          ofMagnitude negative (step * hiddenBit + significand) := by
  rcases Nat.eq_zero_or_pos significand with rfl | hpos
  · -- zero is written as such
    obtain rfl : step = 0 := hstep.resolve_right (by decide)
    have hshortest : shortest 0 (leastExponent + (0 : Nat)) = ⟨0, 0⟩ := by
      rw [shortest, if_pos rfl]
    have hchars : Numeral.chars interchange ⟨0, 0⟩ = ['0'] ++ '.' :: ['0'] := by decide +kernel
    rw [hshortest, hchars]
    refine ⟨_, .plain isWhole_zero isWhole_zero.digits (by decide), ?_⟩
    intro digits exponent hvalue
    have hten : (10 : ℚ) ^ exponent ≠ 0 := by positivity
    have hzero : (digitsValue (['0'] ++ ['0']) : ℚ) = 0 := by
      exact_mod_cast digitsValue_zeros 2
    rw [hzero, zero_mul, mul_eq_zero, or_iff_left hten, Nat.cast_eq_zero] at hvalue
    rw [ofDecimal, if_pos hvalue, Nat.zero_mul]
  · have hsize := step_le_of_finite hfinite
    have hnear := near_shortest hpos hlt
      (show leastExponent ≤ leastExponent + (step : Nat) ∧ leastExponent + (step : Nat) ≤ 1000 by
        unfold leastExponent
        omega)
    have hdigits := digits_pos_of_near hpos hnear
    refine ⟨_, writes_chars interchange hdigits, ?_⟩
    intro digits exponent hvalue
    have hpositive : (0 : ℚ) < digits * 10 ^ exponent := by
      rw [hvalue, Numeral.value]
      positivity
    have hdigits' : 0 < digits := by
      apply Nat.pos_of_ne_zero
      rintro rfl
      simp at hpositive
    rw [← hvalue] at hnear
    exact ofDecimal_eq hpos hlt hstep hfinite hdigits' negative hnear

end ClusterBalance.Decimal
