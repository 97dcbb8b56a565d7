import ClusterBalance.Claim.Partition
import ClusterBalance.Proofs.Decimal.Digits
import ClusterBalance.Proofs.Sorting.Order
import ClusterBalance.Proofs.Text.Loose

/-! Partitions that a topic and a whole number claim. Main statement: a partition has a name unless
its number has too many digits, two of them have the same name exactly if they are the same, though
a topic may hold hyphens and digits, and a list of them is sorted, by topic and then by number, to a
result that does not depend on its order. -/

namespace ClusterBalance

section Texts

theorem compareLex_isLT (xs ys : List Nat) :
    (List.compareLex compare xs ys).isLT = decide (xs < ys) := by
  induction xs generalizing ys with
  | nil => cases ys <;> simp [List.compareLex]
  | cons x xs ih =>
    cases ys with
    | nil => simp [List.compareLex]
    | cons y ys =>
      rw [List.compareLex_cons_cons, Bool.eq_iff_iff, decide_eq_true_eq, List.cons_lt_cons_iff]
      rcases Nat.lt_trichotomy x y with hlt | rfl | hgt
      · simp [Nat.compare_eq_lt.mpr hlt, hlt]
      · simp [ih]
      · simp [Nat.compare_eq_gt.mpr hgt]; omega

theorem LooseText.admits_order (s t : LooseText) :
    Comparator.less.admits (s.order t) = decide (s.codes < t.codes) :=
  compareLex_isLT s.codes t.codes

end Texts

namespace PartitionClaim

/-- A text and a whole number have been accepted as the topic and the number of a partition. -/
def Accepted (p : PartitionClaim) : Prop :=
  ∃ (topic : LooseText) (number : Int), make (.string topic) (.int number) = .ok p

theorem holds_less_int (m n : Int) :
    (Document.int m).holds .less (.int n) = .ok (decide (m < n)) := by
  rw [Document.holds_int, Comparator.admits, Except.ok.injEq, Bool.eq_iff_iff, decide_eq_true_eq,
    ← Int.compare_eq_lt]
  cases compare m n <;> decide

theorem make_eq_ok_iff {t : LooseText} {n : Int} {p : PartitionClaim} :
    make (.string t) (.int n) = .ok p ↔ t ≠ .sound "" ∧ 0 ≤ n ∧ p = ⟨.string t, .int n⟩ := by
  rw [make, holds_less_int]
  simp only [Document.isSet, bne_iff_ne]
  split
  next hset =>
    by_cases hn : n < 0
    · rw [decide_eq_true hn]
      exact iff_of_false (by simp) fun h => Int.not_lt.mpr h.2.1 hn
    · rw [decide_eq_false hn, Except.ok.injEq]
      exact ⟨fun h => ⟨hset, Int.not_lt.mp hn, h.symm⟩, fun h => h.2.2.symm⟩
  next hempty => exact iff_of_false (by simp) fun h => hempty h.1

theorem accepted_iff {p : PartitionClaim} :
    Accepted p ↔ ∃ (t : LooseText) (n : Nat), t ≠ .sound "" ∧ p = ⟨.string t, .int n⟩ := by
  constructor
  · rintro ⟨t, n, h⟩
    obtain ⟨ht, hn, rfl⟩ := make_eq_ok_iff.mp h
    obtain ⟨n, rfl⟩ := Int.eq_ofNat_of_zero_le hn
    exact ⟨t, n, ht, rfl⟩
  · rintro ⟨t, n, ht, rfl⟩
    exact ⟨t, n, make_eq_ok_iff.mpr ⟨ht, Int.natCast_nonneg n, rfl⟩⟩

section Names

theorem eq_of_append_cons_eq {α : Type} {a : α} {xs ys us vs : List α} (hys : a ∉ ys)
    (hvs : a ∉ vs) (h : xs ++ a :: ys = us ++ a :: vs) : xs = us ∧ ys = vs := by
  rcases List.append_eq_append_iff.mp h with ⟨as, rfl, hcut⟩ | ⟨as, rfl, hcut⟩
  · cases as with
    | nil => simpa using hcut
    | cons b bs =>
      obtain ⟨-, rfl⟩ := List.cons.inj hcut
      simp at hys
  · cases as with
    | nil => simpa using hcut.symm
    | cons b bs =>
      obtain ⟨-, rfl⟩ := List.cons.inj hcut
      simp at hvs

/-- The symbols of the digits of a number. -/
def digitSymbols (n : Nat) : List Symbol := (Decimal.digitChars n).map Symbol.char

theorem symbols_nameOf (t : LooseText) (n : Nat) :
    (nameOf t (toString n)).symbols = t.symbols ++ Symbol.char '-' :: digitSymbols n := by
  rw [nameOf, LooseText.symbols_append, LooseText.symbols_append]
  simp [LooseText.symbols, digitSymbols, Decimal.digitChars]

theorem hyphen_notMem_digitSymbols (n : Nat) : Symbol.char '-' ∉ digitSymbols n := by
  intro h
  obtain ⟨c, hc, hhyphen⟩ := List.mem_map.mp h
  have hdigit := Decimal.areDigits_digitChars n c hc
  rw [Symbol.char.inj hhyphen] at hdigit
  exact absurd hdigit (by decide)

theorem digitSymbols_injective : Function.Injective digitSymbols := fun m n h => by
  have hchars : Decimal.digitChars m = Decimal.digitChars n :=
    List.map_injective_iff.mpr (fun _ _ => Symbol.char.inj) h
  rw [← Decimal.digitsValue_digitChars m, hchars, Decimal.digitsValue_digitChars]

/-- A name is cut at its last hyphen, as no digit is one. -/
theorem nameOf_eq_nameOf_iff {t u : LooseText} {m n : Nat} :
    nameOf t (toString m) = nameOf u (toString n) ↔ t = u ∧ m = n := by
  refine ⟨fun h => ?_, fun ⟨ht, hn⟩ => by rw [ht, hn]⟩
  have hsymbols := congrArg LooseText.symbols h
  rw [symbols_nameOf, symbols_nameOf] at hsymbols
  obtain ⟨htopics, hdigits⟩ := eq_of_append_cons_eq (hyphen_notMem_digitSymbols m)
    (hyphen_notMem_digitSymbols n) hsymbols
  exact ⟨LooseText.symbols_injective htopics, digitSymbols_injective hdigits⟩

variable [Limits]

/-- A partition has a name unless its number has too many digits. -/
theorem name?_eq (t : LooseText) (n : Nat) :
    name? ⟨.string t, .int n⟩ =
      if n < Document.digitLimit then .ok (nameOf t (toString n)) else .error .tooManyDigits := by
  rw [name?, Document.wording?_string, Document.wording?_int, Document.wholeText?,
    Int.natAbs_natCast]
  split <;> rfl

theorem name?_eq_ok_iff {t s : LooseText} {n : Nat} :
    name? ⟨.string t, .int n⟩ = .ok s ↔ n < Document.digitLimit ∧ s = nameOf t (toString n) := by
  rw [name?_eq]
  split
  next h => simp [h, eq_comm]
  next h => simp [h]

theorem eq_iff_of_name? {p q : PartitionClaim} {s t : LooseText} (hp : Accepted p)
    (hq : Accepted q) (hs : p.name? = .ok s) (ht : q.name? = .ok t) : s = t ↔ p = q := by
  obtain ⟨topic, m, -, rfl⟩ := accepted_iff.mp hp
  obtain ⟨topic', n, -, rfl⟩ := accepted_iff.mp hq
  obtain ⟨-, rfl⟩ := name?_eq_ok_iff.mp hs
  obtain ⟨-, rfl⟩ := name?_eq_ok_iff.mp ht
  rw [nameOf_eq_nameOf_iff]
  simp

end Names

section Order

theorem same_iff {p q : PartitionClaim} (hp : Accepted p) (hq : Accepted q) :
    p.same q = true ↔ p = q := by
  obtain ⟨t, m, -, rfl⟩ := accepted_iff.mp hp
  obtain ⟨u, n, -, rfl⟩ := accepted_iff.mp hq
  have htopics : (Document.string t).equals (.string u) = decide (t = u) := rfl
  rw [same, htopics, Document.equals_int]
  simp

/-- What claimed partitions are ordered by. -/
def rank : PartitionClaim → List Nat ×ₗ Int
  | ⟨.string t, .int n⟩ => toLex (t.codes, n)
  | _ => toLex ([], 0)

theorem rank_injective {p q : PartitionClaim} (hp : Accepted p) (hq : Accepted q)
    (h : rank p = rank q) : p = q := by
  obtain ⟨t, m, -, rfl⟩ := accepted_iff.mp hp
  obtain ⟨u, n, -, rfl⟩ := accepted_iff.mp hq
  obtain ⟨htopics, hnumbers⟩ := Prod.mk.inj (toLex_inj.mp h)
  rw [LooseText.codes_injective htopics, hnumbers]

theorem compares_before : Sorting.Compares before rank Accepted := by
  intro p q hp hq
  obtain ⟨t, m, -, rfl⟩ := accepted_iff.mp hp
  obtain ⟨u, n, -, rfl⟩ := accepted_iff.mp hq
  have htopics : (Document.string t).equals (.string u) = decide (t = u) := rfl
  have hrank : rank ⟨.string t, .int m⟩ < rank ⟨.string u, .int n⟩ ↔
      t.codes < u.codes ∨ t.codes = u.codes ∧ (m : Int) < n := Prod.Lex.toLex_lt_toLex
  rw [before, htopics]
  by_cases htu : t = u
  · subst htu
    rw [decide_eq_true rfl, if_pos rfl, Document.equals_int]
    split
    next heq =>
      have hnumbers : (m : Int) = n := of_decide_eq_true heq
      rw [decide_eq_false (by rw [hrank, hnumbers]; simp)]
    next =>
      have hnumbers : (rank ⟨.string t, .int m⟩ < rank ⟨.string t, .int n⟩) ↔ (m : Int) < n := by
        rw [hrank]
        simp
      rw [holds_less_int, decide_eq_decide.mpr hnumbers]
  · have hcodes : t.codes ≠ u.codes := LooseText.codes_injective.ne htu
    have htopicsLess : (rank ⟨.string t, .int m⟩ < rank ⟨.string u, .int n⟩) ↔
        t.codes < u.codes := by
      rw [hrank]
      simp [hcodes]
    rw [decide_eq_false htu, if_neg Bool.false_ne_true, Document.holds, LooseText.admits_order,
      decide_eq_decide.mpr htopicsLess]

/-- One partition is another one or before it: by the symbols of the topic, then by number. -/
inductive UpTo : PartitionClaim → PartitionClaim → Prop
  | byTopic {t u : LooseText} (m n : Int) (h : t.codes < u.codes) :
      UpTo ⟨.string t, .int m⟩ ⟨.string u, .int n⟩
  | byNumber (t : LooseText) {m n : Int} (h : m ≤ n) :
      UpTo ⟨.string t, .int m⟩ ⟨.string t, .int n⟩

theorem upTo_of_rank_le {p q : PartitionClaim} (hp : Accepted p) (hq : Accepted q)
    (h : rank p ≤ rank q) : UpTo p q := by
  obtain ⟨t, m, -, rfl⟩ := accepted_iff.mp hp
  obtain ⟨u, n, -, rfl⟩ := accepted_iff.mp hq
  rcases Prod.Lex.toLex_le_toLex.mp h with htopics | ⟨htopics, hnumbers⟩
  · exact .byTopic m n htopics
  · obtain rfl := LooseText.codes_injective htopics
    exact .byNumber t hnumbers

end Order

end PartitionClaim

namespace TopicPartition

/-- The claim to a partition. -/
def claim (p : TopicPartition) : PartitionClaim := ⟨.string p.topic, .int p.partition⟩

theorem accepted_claim (p : TopicPartition) : p.claim.Accepted :=
  PartitionClaim.accepted_iff.mpr
    ⟨p.topic, p.partition, p.topic_ne_empty, rfl⟩

/-- A partition has the name that the claim to it has, if the claim has one. -/
theorem name?_claim [Limits] (p : TopicPartition) :
    p.claim.name? =
      if p.partition < Document.digitLimit then .ok p.name else .error .tooManyDigits := by
  have hname : PartitionClaim.nameOf p.topic (toString p.partition) = p.name := by
    apply LooseText.symbols_injective
    rw [PartitionClaim.symbols_nameOf, name, LooseText.symbols_append]
    simp [LooseText.symbols, PartitionClaim.digitSymbols, Decimal.digitChars]
  rw [claim, PartitionClaim.name?_eq, hname]

theorem le_iff {p q : TopicPartition} : p.le q = true ↔ p.claim.rank ≤ q.claim.rank := by
  have hrank : p.claim.rank ≤ q.claim.rank ↔
      p.topic.codes < q.topic.codes ∨
        p.topic.codes = q.topic.codes ∧ (p.partition : Int) ≤ q.partition :=
    Prod.Lex.toLex_le_toLex
  rw [hrank, ← LooseText.lt_iff, LooseText.codes_injective.eq_iff]
  simp [le]

theorem le_or_le (p q : TopicPartition) : (p.le q || q.le p) = true := by
  rw [Bool.or_eq_true, le_iff, le_iff]
  exact le_total p.claim.rank q.claim.rank

theorem le_of_le_of_le (p q r : TopicPartition) (hpq : p.le q = true) (hqr : q.le r = true) :
    p.le r = true :=
  le_iff.mpr ((le_iff.mp hpq).trans (le_iff.mp hqr))

/-- Partitions are sorted as the claims to them are. -/
theorem sort_claim (ps : List TopicPartition) :
    PartitionClaim.sort (ps.map claim) = .ok ((sort ps).map claim) := by
  have haccepted : ∀ p ∈ ps.map claim, p.Accepted :=
    List.forall_mem_map.mpr fun p _ => p.accepted_claim
  have hle : (sort ps).Pairwise fun p q => p.le q = true :=
    List.pairwise_mergeSort le_of_le_of_le le_or_le ps
  have hascending : Sorting.Ascending PartitionClaim.rank ((sort ps).map claim) :=
    List.pairwise_map.mpr (hle.imp le_iff.mp)
  have hperm : ((sort ps).map claim).Perm (ps.map claim) := (ps.mergeSort_perm le).map claim
  exact Sorting.sort_eq_ok PartitionClaim.compares_before
    (fun _ _ => PartitionClaim.rank_injective) haccepted hperm hascending

end TopicPartition

namespace PartitionClaim

/-- A partition has a name exactly if its number does not have too many digits, for which it is
refused; the name determines the partition. A list of accepted partitions is sorted, by topic and
then by number, to a result that does not depend on the order of the list. The partitions of
clusters are accepted when they are claimed, and are named and sorted as the claims to them. -/
theorem names_and_order [Limits] :
    (∀ (t : LooseText) (n : Nat), Accepted ⟨.string t, .int n⟩ →
      name? ⟨.string t, .int n⟩ =
        if n < Document.digitLimit then .ok (nameOf t (toString n)) else .error .tooManyDigits) ∧
    (∀ p q, Accepted p → Accepted q → (p.same q = true ↔ p = q) ∧
      ∀ s t, p.name? = .ok s → q.name? = .ok t → (s = t ↔ p.same q = true)) ∧
    (∀ ps, (∀ p ∈ ps, Accepted p) → ∃ sorted, sort ps = .ok sorted ∧ sorted.Perm ps ∧
      sorted.Pairwise UpTo ∧ ∀ qs, qs.Perm ps → sort qs = .ok sorted) ∧
    ∀ ps : List TopicPartition,
      (∀ p ∈ ps, Accepted p.claim ∧ ∀ s, p.claim.name? = .ok s → s = p.name) ∧
      sort (ps.map TopicPartition.claim) =
        .ok ((TopicPartition.sort ps).map TopicPartition.claim) := by
  refine ⟨fun t n _ => name?_eq t n, fun p q hp hq => ?_, fun ps hps => ?_, fun ps => ?_⟩
  · have hsame := same_iff hp hq
    exact ⟨hsame, fun s t hs ht => (eq_iff_of_name? hp hq hs ht).trans hsame.symm⟩
  · obtain ⟨sorted, hsorted, hperm, hascending⟩ := Sorting.exists_sort_eq_ok compares_before hps
    have haccepted : ∀ p ∈ sorted, Accepted p := fun p hp => hps p (hperm.mem_iff.mp hp)
    refine ⟨sorted, hsorted, hperm, ?_, fun qs hqs => ?_⟩
    · exact hascending.imp_of_mem fun hp hq => upTo_of_rank_le (haccepted _ hp) (haccepted _ hq)
    · exact Sorting.sort_eq_ok compares_before (fun _ _ => rank_injective)
        (fun q hq => hps q (hqs.mem_iff.mp hq)) (hperm.trans hqs.symm) hascending
  · refine ⟨fun p _ => ⟨p.accepted_claim, fun s hs => ?_⟩, TopicPartition.sort_claim ps⟩
    rw [TopicPartition.name?_claim] at hs
    split at hs
    · exact (Except.ok.inj hs).symm
    · cases hs

/-- A hyphen and a digit at the end of a topic are not taken for those of a number. -/
theorem names_and_order_hyphen :
    let _ : Limits := Limits.measured
    let p : PartitionClaim := ⟨.string (.sound "orders-1"), .int 0⟩
    let q : PartitionClaim := ⟨.string (.sound "orders"), .int 10⟩
    let r : PartitionClaim := ⟨.string (.sound "orders"), .int 9⟩
    (Accepted p ∧ Accepted q ∧ Accepted r) ∧
      (p.name? = .ok (.sound "orders-1-0") ∧ q.name? = .ok (.sound "orders-10") ∧
        .sound "orders-1-0" ≠ LooseText.sound "orders-10") ∧
      ∃ sorted, sort [p, q, r] = .ok sorted ∧ sort [r, q, p] = .ok sorted ∧
        sorted.Perm [p, q, r] ∧ sorted.Pairwise UpTo := by
  intro _ p q r
  have hp : Accepted p := accepted_iff.mpr ⟨_, 0, by decide, rfl⟩
  have hq : Accepted q := accepted_iff.mpr ⟨_, 10, by decide, rfl⟩
  have hr : Accepted r := accepted_iff.mpr ⟨_, 9, by decide, rfl⟩
  have hall : ∀ x ∈ [p, q, r], Accepted x := by simp [hp, hq, hr]
  obtain ⟨hnamed, hnames, horder, -⟩ := names_and_order
  have hpname : p.name? = .ok (.sound "orders-1-0") := (hnamed _ 0 hp).trans (by decide +kernel)
  have hqname : q.name? = .ok (.sound "orders-10") := (hnamed _ 10 hq).trans (by decide +kernel)
  obtain ⟨hsame, hequal⟩ := hnames p q hp hq
  obtain ⟨sorted, hsorted, hperm, hordered, hpermuted⟩ := horder [p, q, r] hall
  refine ⟨⟨hp, hq, hr⟩, ⟨hpname, hqname, fun h => ?_⟩, sorted, hsorted, ?_, hperm, hordered⟩
  · have htopics := congrArg PartitionClaim.topic
      (hsame.mp ((hequal _ _ hpname hqname).mp h))
    exact absurd htopics (by simp [p, q])
  · exact hpermuted [r, q, p] (List.reverse_perm [p, q, r])

/-- A partition is accepted whose number has one digit too many for it to have a name. -/
theorem names_and_order_unnamed :
    let _ : Limits := Limits.measured
    let p : PartitionClaim := ⟨.string (.sound "t"), .int (Document.digitLimit : Nat)⟩
    Accepted p ∧ p.same p = true ∧ p.name? = .error .tooManyDigits := by
  intro _ p
  have hp : Accepted p := accepted_iff.mpr ⟨_, Document.digitLimit, by decide, rfl⟩
  exact ⟨hp, (same_iff hp hp).mpr rfl, (name?_eq _ _).trans (if_neg (Nat.lt_irrefl _))⟩

end PartitionClaim

end ClusterBalance
