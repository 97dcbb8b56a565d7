import ClusterBalance.Document.Json.Writer
import ClusterBalance.Proofs.Chain
import ClusterBalance.Proofs.Decimal.Written

/-! Numbers in a text. Main statements: a strict reader reads back the finite doubles that were
written, and the whole numbers that fit a word. -/

namespace ClusterBalance.Document.Json

open Decimal

/-- The characters that may go on with a number. -/
def GoesOn (c : Char) : Prop := c.isDigit = true ∨ c = '.' ∨ c = 'e' ∨ c = 'E'

variable {dialect : Dialect} {whole part rest : List Char}

section Parts

theorem wholeDigits?_append (h : IsWhole whole) (hrest : StartsNot (·.isDigit = true) rest) :
    wholeDigits? (whole ++ rest) = some (whole, rest) := by
  have hspan := spanDigits_append_of_areDigits h.digits hrest
  rcases h.start with rfl | ⟨c, cs, rfl, hc⟩
  · rfl
  · unfold wholeDigits?
    split
    next heq =>
      cases heq
      exact absurd rfl hc
    next =>
      rw [hspan]
      rfl

theorem spanPart_of_point (hpart : AreDigits part) (hne : part ≠ [])
    (hrest : StartsNot (·.isDigit = true) rest) :
    spanPart ('.' :: (part ++ rest)) = (part, rest) := by
  simp only [spanPart, spanDigits_append_of_areDigits hpart hrest]
  rw [List.isEmpty_eq_false_iff.mpr hne]
  rfl

theorem spanPart_of_startsNot (hrest : StartsNot (· = '.') rest) : spanPart rest = ([], rest) := by
  unfold spanPart
  split
  next cs => exact absurd rfl (hrest '.' cs rfl)
  next => rfl

theorem spanExponent?_of_startsNot (hrest : StartsNot (fun c => c = 'e' ∨ c = 'E') rest) :
    spanExponent? rest = none := by
  unfold spanExponent?
  split
  next => rfl
  next c cs => rw [if_neg (hrest c cs rfl)]

theorem areDigits_padLeft (width n : Nat) : AreDigits (padLeft width '0' (digitChars n)) :=
  (areDigits_zeros _).append (areDigits_digitChars n)

theorem spanExponent?_exponentChars (width : Nat) (exponent : Int)
    (hrest : StartsNot (·.isDigit = true) rest) :
    spanExponent? ('e' :: (exponentChars width exponent ++ rest)) = some (exponent, rest) := by
  have hspan := spanDigits_append_of_areDigits (areDigits_padLeft width exponent.natAbs) hrest
  have hvalue : digitsValue (padLeft width '0' (digitChars exponent.natAbs)) = exponent.natAbs := by
    rw [digitsValue_padLeft, digitsValue_digitChars]
  have hne : (padLeft width '0' (digitChars exponent.natAbs)).isEmpty = false := by
    rw [List.isEmpty_eq_false_iff, padLeft]
    exact List.append_ne_nil_of_right_ne_nil _ (digitChars_ne_nil _)
  by_cases hneg : exponent < 0
  · rw [exponentChars, if_pos hneg]
    simp only [spanExponent?, true_or, if_true, List.cons_append, spanSign, hspan, hvalue, hne,
      Bool.false_eq_true, if_false]
    congr 2
    omega
  · rw [exponentChars, if_neg hneg]
    simp only [spanExponent?, true_or, if_true, List.cons_append, spanSign, hspan, hvalue, hne,
      Bool.false_eq_true, if_false]
    congr 2
    omega

end Parts

section Unsigned

variable (negative : Bool)

/-- A text that writes a value is read as a decimal with that value. -/
theorem unsigned_of_writes {cs : List Char} {q : ℚ} (h : Writes cs q)
    (hrest : StartsNot GoesOn rest) :
    ∃ (digits : Nat) (exponent : Int), (digits * 10 ^ exponent : ℚ) = q ∧
      unsigned dialect negative (cs ++ rest) =
        (dialect.float (ofDecimal negative digits exponent) >>= fun x => .ok (x, rest)) := by
  have hdigit : StartsNot (·.isDigit = true) rest := hrest.mono fun c hc => .inl hc
  have hmark : StartsNot (fun c => c = 'e' ∨ c = 'E') rest :=
    hrest.mono fun c hc => hc.elim (fun h => .inr (.inr (.inl h))) fun h => .inr (.inr (.inr h))
  cases h with
  | plain hwhole hpart hne =>
    rename_i whole part
    refine ⟨digitsValue (whole ++ part), -(part.length : Int), rfl, ?_⟩
    have hpoint : StartsNot (·.isDigit = true) ('.' :: (part ++ rest)) := startsNot_cons (by decide)
    unfold unsigned
    rw [List.append_assoc, List.cons_append, wholeDigits?_append hwhole hpoint]
    simp only [required, ok_bind, spanPart_of_point hpart hne hdigit,
      spanExponent?_of_startsNot hmark, List.isEmpty_eq_false_iff.mpr hne, ofParts,
      Bool.false_eq_true, if_false, Int.zero_sub]
    rfl
  | power hwhole hpart width exponent =>
    rename_i whole part
    refine ⟨digitsValue (whole ++ part), exponent - (part.length : Int), rfl, ?_⟩
    have hexponent := spanExponent?_exponentChars width exponent hdigit
    have he : StartsNot (·.isDigit = true) ('e' :: (exponentChars width exponent ++ rest)) :=
      startsNot_cons (by decide)
    have hafter : StartsNot (·.isDigit = true) ((if part.isEmpty then [] else '.' :: part) ++
        'e' :: (exponentChars width exponent ++ rest)) := by
      split
      · exact he
      · exact startsNot_cons (by decide)
    have hspan : spanPart ((if part.isEmpty then [] else '.' :: part) ++
        'e' :: (exponentChars width exponent ++ rest)) =
          (part, 'e' :: (exponentChars width exponent ++ rest)) := by
      cases part with
      | nil => exact spanPart_of_startsNot (startsNot_cons (by decide))
      | cons d ds => exact spanPart_of_point hpart (by simp) he
    unfold unsigned
    rw [List.append_assoc, List.append_assoc, List.cons_append, wholeDigits?_append hwhole hafter]
    simp only [required, ok_bind, hspan, hexponent, ofParts]
    rfl

/-- A run of digits alone is read as a whole number. -/
theorem unsigned_of_isWhole (hwhole : IsWhole whole) (hrest : StartsNot GoesOn rest) :
    unsigned dialect negative (whole ++ rest) =
      (dialect.whole negative whole >>= fun n => .ok (n, rest)) := by
  have hdigit : StartsNot (·.isDigit = true) rest := hrest.mono fun c hc => .inl hc
  have hpoint : StartsNot (· = '.') rest := hrest.mono fun c hc => .inr (.inl hc)
  have hmark : StartsNot (fun c => c = 'e' ∨ c = 'E') rest :=
    hrest.mono fun c hc => hc.elim (fun h => .inr (.inr (.inl h))) fun h => .inr (.inr (.inr h))
  unfold unsigned
  rw [wholeDigits?_append hwhole hdigit]
  -- without a part and an exponent the digits count as a whole number, not as a float
  simp only [required, ok_bind, spanPart_of_startsNot hpoint, spanExponent?_of_startsNot hmark,
    List.isEmpty_nil, if_true]
  rfl

end Unsigned

section Start

/-- A number starts with a digit or with its sign. -/
def NumberStart (c : Char) : Prop := c.isDigit = true ∨ c = '-'

theorem NumberStart.ne {c d : Char} (h : NumberStart c) (hd : ¬NumberStart d) : c ≠ d := by
  rintro rfl
  exact hd h

/-- The characters of a sign. -/
def signChars (negative : Bool) : List Char := if negative then ['-'] else []

theorem exists_signChars_append_eq_cons (negative : Bool) {c : Char} {cs : List Char}
    (h : c.isDigit = true) :
    ∃ d ds, signChars negative ++ c :: cs = d :: ds ∧ NumberStart d := by
  cases negative with
  | true => exact ⟨'-', c :: cs, rfl, .inr rfl⟩
  | false => exact ⟨c, cs, rfl, .inl h⟩

/-- What starts like a number is no word. -/
theorem word?_of_numberStart {c : Char} {cs : List Char} (h : NumberStart c) :
    word? strict (c :: cs) = none := by
  have hwords : words strict = [(['n', 'u', 'l', 'l'], .null), (['t', 'r', 'u', 'e'], .bool true),
      (['f', 'a', 'l', 's', 'e'], .bool false)] := rfl
  have hn : 'n' ≠ c := (h.ne (by unfold NumberStart; decide)).symm
  have ht : 't' ≠ c := (h.ne (by unfold NumberStart; decide)).symm
  have hf : 'f' ≠ c := (h.ne (by unfold NumberStart; decide)).symm
  simp [word?, hwords, hn, ht, hf]

/-- A number with its sign is read like one without. -/
theorem scalar_signChars_append {cs : List Char} {c : Char} (hc : c.isDigit = true)
    (negative : Bool) :
    scalar strict (signChars negative ++ c :: cs) = unsigned strict negative (c :: cs) := by
  cases negative with
  | true =>
    have hsign : signChars true ++ c :: cs = '-' :: c :: cs := rfl
    rw [hsign, scalar, word?_of_numberStart (.inr rfl)]
  | false =>
    have hsign : signChars false ++ c :: cs = c :: cs := rfl
    rw [hsign, scalar, word?_of_numberStart (.inl hc)]
    rintro _ ⟨⟩
    cases hc

end Start

section Whole

theorem toList_toString (n : Int) :
    (toString n).toList = signChars (decide (n < 0)) ++ digitChars n.natAbs := by
  rw [Int.toString_eq_repr, Int.repr_eq_if]
  by_cases hneg : n < 0
  · have habs : (-n).toNat = n.natAbs := by omega
    rw [if_neg (Int.not_le.mpr hneg), String.toList_append, habs, decide_eq_true hneg]
    rfl
  · have habs : n.toNat = n.natAbs := by omega
    rw [if_pos (Int.not_lt.mp hneg), habs, decide_eq_false hneg]
    rfl

theorem exists_toString_eq_cons (n : Int) :
    ∃ c cs, (toString n).toList = c :: cs ∧ NumberStart c := by
  obtain ⟨d, ds, hds, hd⟩ := (isWhole_digitChars n.natAbs).exists_eq_cons
  rw [toList_toString, hds]
  exact exists_signChars_append_eq_cons _ hd

/-- A whole number that fits a word is read back. -/
theorem scalar_toString {n : Int} (hn : wordRange.1 ≤ n ∧ n ≤ wordRange.2)
    (hrest : StartsNot GoesOn rest) :
    scalar strict ((toString n).toList ++ rest) = .ok (.int n, rest) := by
  have hwhole := isWhole_digitChars n.natAbs
  have hread : strict.whole (decide (n < 0)) (digitChars n.natAbs) = .ok (.int n) := by
    have hvalue : (if decide (n < 0) = true then -(digitsValue (digitChars n.natAbs) : Int)
        else digitsValue (digitChars n.natAbs)) = n := by
      rw [digitsValue_digitChars]
      by_cases hneg : n < 0
      · rw [decide_eq_true hneg, if_pos rfl]
        omega
      · rw [decide_eq_false hneg, if_neg Bool.false_ne_true]
        omega
    simp only [Dialect.whole, strict, hvalue, if_pos hn]
    rfl
  obtain ⟨c, cs, hcs, hc⟩ := hwhole.exists_eq_cons
  rw [toList_toString, List.append_assoc, hcs, List.cons_append, scalar_signChars_append hc,
    ← List.cons_append, ← hcs, unsigned_of_isWhole _ hwhole hrest, hread]
  rfl

end Whole

section Float

/-- The text of a finite double is a sign and the writing of a value that is read as this
double. -/
theorem exists_floatText_eq {x : Float} (hx : x.isFinite = true) :
    ∃ negative cs q, (floatText x).toList = signChars negative ++ cs ∧ Writes cs q ∧
      ∀ (digits : Nat) (exponent : Int), (digits * 10 ^ exponent : ℚ) = q →
        ofDecimal negative digits exponent = x := by
  obtain ⟨negative, m, hm, rfl⟩ := exists_eq_ofMagnitude hx
  obtain ⟨significand, step, hreading, rfl, hlt, hstep⟩ := ofFloat_ofMagnitude negative hm
  obtain ⟨q, hwrites, hread⟩ := exists_writes_shortest hlt hstep hm negative
  refine ⟨negative, _, q, ?_, hwrites, hread⟩
  rw [floatText, if_pos hx, Layout.write, hreading, String.toList_append, String.toList_ofList]
  cases negative <;> rfl

theorem exists_floatText_eq_cons {x : Float} (hx : x.isFinite = true) :
    ∃ c cs, (floatText x).toList = c :: cs ∧ NumberStart c := by
  obtain ⟨negative, cs, q, htext, hwrites, -⟩ := exists_floatText_eq hx
  obtain ⟨d, ds, rfl, hd⟩ := hwrites.exists_eq_cons
  rw [htext]
  exact exists_signChars_append_eq_cons negative hd

theorem float_of_isFinite {x : Float} (hx : x.isFinite = true) :
    dialect.float x = .ok (.float x) := by
  obtain ⟨negative, m, hm, rfl⟩ := exists_eq_ofMagnitude hx
  have hinf : (ofMagnitude negative m).isInf = false := by
    apply Bool.eq_false_iff.mpr
    rw [ne_eq, isInf_ofMagnitude _ (Nat.le_of_lt hm)]
    exact Nat.ne_of_lt hm
  rw [Dialect.float, hinf]
  rfl

/-- A finite double is read back. -/
theorem scalar_floatText {x : Float} (hx : x.isFinite = true) (hrest : StartsNot GoesOn rest) :
    scalar strict ((floatText x).toList ++ rest) = .ok (.float x, rest) := by
  obtain ⟨negative, cs, q, htext, hwrites, hread⟩ := exists_floatText_eq hx
  obtain ⟨digits, exponent, hvalue, hunsigned⟩ :=
    @unsigned_of_writes strict rest negative cs q hwrites hrest
  obtain ⟨d, ds, rfl, hd⟩ := hwrites.exists_eq_cons
  rw [htext, List.append_assoc, List.cons_append, scalar_signChars_append hd, ← List.cons_append,
    hunsigned, hread digits exponent hvalue, float_of_isFinite hx]
  rfl

end Float

end ClusterBalance.Document.Json
