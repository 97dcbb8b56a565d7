import Mathlib
import ClusterBalance.Decimal.Layout
import ClusterBalance.Decimal.Reader

/-! Runs of decimal digits. Main statements: the digits of a number have its value and do not start
with a zero, a run of digits is read up to its end, and zeros at the end are a power of ten. -/

namespace ClusterBalance.Decimal

/-- A text of digits only. -/
def AreDigits (cs : List Char) : Prop := ∀ c ∈ cs, c.isDigit = true

/-- A text that does not start with a character. -/
def StartsNot (p : Char → Prop) (cs : List Char) : Prop := ∀ c rest, cs = c :: rest → ¬p c

section Start

variable {p q : Char → Prop} {rest : List Char}

theorem StartsNot.mono (h : StartsNot p rest) (hpq : ∀ c, q c → p c) : StartsNot q rest :=
  fun c cs hcs hc => h c cs hcs (hpq c hc)

theorem startsNot_cons {c : Char} (h : ¬p c) : StartsNot p (c :: rest) := by
  rintro _ _ ⟨⟩
  exact h

end Start

section Value

theorem digitsValue_eq (cs : List Char) : digitsValue cs = Nat.ofDigitChars 10 cs 0 := rfl

theorem digitsValue_append (cs ds : List Char) :
    digitsValue (cs ++ ds) = digitsValue cs * 10 ^ ds.length + digitsValue ds := by
  rw [digitsValue_eq, Nat.ofDigitChars_append, Nat.ofDigitChars_eq_ofDigitChars_zero, Nat.mul_comm]
  rfl

theorem digitsValue_zeros (k : Nat) : digitsValue (List.replicate k '0') = 0 := by
  rw [digitsValue_eq, Nat.ofDigitChars_replicate_zero, Nat.mul_zero]

/-- Zeros at the end are a power of ten. -/
theorem digitsValue_append_zeros (cs : List Char) (k : Nat) :
    digitsValue (cs ++ List.replicate k '0') = digitsValue cs * 10 ^ k := by
  rw [digitsValue_append, digitsValue_zeros, List.length_replicate, Nat.add_zero]

/-- Zeros in front count nothing. -/
theorem digitsValue_zeros_append (k : Nat) (cs : List Char) :
    digitsValue (List.replicate k '0' ++ cs) = digitsValue cs := by
  rw [digitsValue_append, digitsValue_zeros, Nat.zero_mul, Nat.zero_add]

theorem digitsValue_padLeft (width : Nat) (cs : List Char) :
    digitsValue (padLeft width '0' cs) = digitsValue cs :=
  digitsValue_zeros_append ..

end Value

section Digits

variable {n : Nat}

theorem digitChars_eq (n : Nat) : digitChars n = Nat.toDigits 10 n := Nat.toList_repr

/-- The digits of a number have its value. -/
theorem digitsValue_digitChars (n : Nat) : digitsValue (digitChars n) = n := by
  rw [digitChars_eq, digitsValue_eq, Nat.ofDigitChars_ten_toDigits]

theorem digitChars_ne_nil (n : Nat) : digitChars n ≠ [] := by
  rw [digitChars_eq]
  exact Nat.toDigits_ne_nil

theorem areDigits_digitChars (n : Nat) : AreDigits (digitChars n) := by
  intro c hc
  rw [digitChars_eq] at hc
  exact Nat.isDigit_of_mem_toDigits (by decide) (by decide) hc

theorem areDigits_zeros (k : Nat) : AreDigits (List.replicate k '0') := by
  intro c hc
  rw [List.eq_of_mem_replicate hc]
  rfl

theorem AreDigits.append {cs ds : List Char} (hcs : AreDigits cs) (hds : AreDigits ds) :
    AreDigits (cs ++ ds) := by
  intro c hc
  rcases List.mem_append.mp hc with hc | hc
  · exact hcs c hc
  · exact hds c hc

/-- The digits of a number above zero do not start with a zero. -/
theorem exists_digitChars_eq_cons (h : 0 < n) : ∃ c cs, digitChars n = c :: cs ∧ c ≠ '0' := by
  rw [digitChars_eq]
  induction n using Nat.strongRecOn with
  | ind n ih =>
    rw [Nat.toDigits_eq_if (by decide)]
    split
    next hlt =>
      refine ⟨n.digitChar, [], rfl, ?_⟩
      have hdigit : ∀ m < 10, 0 < m → m.digitChar ≠ '0' := by decide
      exact hdigit n hlt h
    next hge =>
      obtain ⟨c, cs, hcs, hc⟩ := ih (n / 10) (by omega) (by omega)
      rw [hcs]
      exact ⟨c, cs ++ [(n % 10).digitChar], rfl, hc⟩

end Digits

section Trim

theorem exists_trimZeros_append (cs : List Char) :
    ∃ k, cs = trimZeros cs ++ List.replicate k '0' := by
  refine ⟨(cs.reverse.takeWhile (· == '0')).length, ?_⟩
  have hzeros : cs.reverse.takeWhile (· == '0') =
      List.replicate (cs.reverse.takeWhile (· == '0')).length '0' := by
    apply List.eq_replicate_of_mem
    intro c hc
    exact eq_of_beq (List.all_eq_true.mp List.all_takeWhile c hc)
  have hsplit : cs.reverse.takeWhile (· == '0') ++ cs.reverse.dropWhile (· == '0') = cs.reverse :=
    List.takeWhile_append_dropWhile
  have hreverse := congrArg List.reverse hsplit
  rw [List.reverse_append, List.reverse_reverse] at hreverse
  rw [trimZeros, ← List.reverse_replicate, ← hzeros, hreverse]

/-- The digits of a number above zero without the zeros at the end: there are some, they do not
start with a zero, and a power of ten is missing. -/
theorem exists_trimZeros_digitChars {n : Nat} (h : 0 < n) :
    ∃ k c cs, trimZeros (digitChars n) = c :: cs ∧ c ≠ '0' ∧ AreDigits (c :: cs) ∧
      n = digitsValue (c :: cs) * 10 ^ k ∧ (digitChars n).length = (c :: cs).length + k := by
  obtain ⟨k, hk⟩ := exists_trimZeros_append (digitChars n)
  obtain ⟨c, cs, hcs, hc⟩ := exists_digitChars_eq_cons h
  have hdigits := areDigits_digitChars n
  have hvalue := digitsValue_digitChars n
  generalize digitChars n = all at *
  cases htrim : trimZeros all with
  | nil =>
    rw [htrim, List.nil_append] at hk
    cases k with
    | zero =>
      rw [hcs] at hk
      cases hk
    | succ k =>
      rw [hcs, List.replicate_succ] at hk
      cases hk
      exact absurd rfl hc
  | cons c' cs' =>
    rw [htrim] at hk
    obtain rfl : c = c' := by
      rw [hcs] at hk
      exact (List.cons.inj hk).1
    refine ⟨k, c, cs', rfl, hc, ?_, ?_, ?_⟩
    · intro d hd
      apply hdigits
      rw [hk]
      exact List.mem_append_left _ hd
    · rw [← hvalue, hk, digitsValue_append_zeros]
    · rw [hk, List.length_append, List.length_replicate]

end Trim

section Span

/-- A run of digits is read up to its end. -/
theorem spanDigits_append_of_areDigits {ds rest : List Char} (hds : AreDigits ds)
    (hrest : StartsNot (·.isDigit = true) rest) : spanDigits (ds ++ rest) = (ds, rest) := by
  have hdrop : rest.dropWhile Char.isDigit = rest := by
    cases rest with
    | nil => rfl
    | cons c cs => exact List.dropWhile_cons_of_neg (hrest c cs rfl)
  have htake : rest.takeWhile Char.isDigit = [] := by
    cases rest with
    | nil => rfl
    | cons c cs => exact List.takeWhile_cons_of_neg (hrest c cs rfl)
  rw [spanDigits, List.takeWhile_append_of_pos hds, List.dropWhile_append_of_pos hds, hdrop, htake,
    List.append_nil]

end Span

end ClusterBalance.Decimal
