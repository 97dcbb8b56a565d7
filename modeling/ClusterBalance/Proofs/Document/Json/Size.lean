import ClusterBalance.Proofs.Document.Within

/-! How much is read from a text. Main statement: the lists of a document that is read have no more
items in all than the text has characters. -/

namespace ClusterBalance.Document

mutual

/-- How many items the lists of a document have in all. -/
def numItems : Document → Nat
  | list items => numItemsOf items
  | object fields => numItemsIn fields
  | _ => 0

/-- How many items a list has, those of its own lists included. -/
def numItemsOf : List Document → Nat
  | [] => 0
  | item :: rest => item.numItems + 1 + numItemsOf rest

/-- How many items the lists in some fields have. -/
def numItemsIn : List (LooseText × Document) → Nat
  | [] => 0
  | (_, value) :: rest => value.numItems + numItemsIn rest

end

section Fields

variable {key : LooseText} {value : Document} {fields : List (LooseText × Document)}

theorem numItems_le_of_find? (h : find? key fields = some value) :
    value.numItems ≤ numItemsIn fields := by
  induction fields with
  | nil => cases h
  | cons field rest ih =>
    obtain ⟨k, v⟩ := field
    rw [find?_cons] at h
    rw [numItemsIn]
    split at h
    · cases h
      omega
    · have := ih h
      omega

theorem numItemsIn_put_le (key : LooseText) (value : Document)
    (fields : List (LooseText × Document)) :
    numItemsIn (put key value fields) ≤ numItemsIn fields + value.numItems := by
  induction fields with
  | nil =>
    simp only [put, numItemsIn]
    omega
  | cons field rest ih =>
    obtain ⟨k, v⟩ := field
    rw [put, numItemsIn]
    split <;> rw [numItemsIn] <;> omega

end Fields

namespace Json

theorem numItemsIn_collect_le (fields : List (LooseText × Document)) :
    numItemsIn (collect fields) ≤ numItemsIn fields := by
  have hfold : ∀ done : List (LooseText × Document),
      numItemsIn (fields.foldl (fun done field => put field.1 field.2 done) done) ≤
        numItemsIn done + numItemsIn fields := by
    induction fields with
    | nil => exact fun done => Nat.le_refl _
    | cons field rest ih =>
      intro done
      have hrest := ih (put field.1 field.2 done)
      have hput := numItemsIn_put_le field.1 field.2 done
      rw [List.foldl_cons, numItemsIn]
      omega
  have hcollect := hfold []
  rwa [numItemsIn, Nat.zero_add] at hcollect

section Rest

variable {dialect : Dialect} {document : Document} {cs rest : List Char}

theorem length_skip_le (cs : List Char) : (skip cs).length ≤ cs.length :=
  (List.dropWhile_suffix isBlank).length_le

theorem length_spanDigits_le (cs : List Char) : (Decimal.spanDigits cs).2.length ≤ cs.length :=
  (List.dropWhile_suffix Char.isDigit).length_le

theorem length_spanSign_le (cs : List Char) : (Decimal.spanSign cs).2.length ≤ cs.length := by
  unfold Decimal.spanSign
  split
  · exact Nat.le_succ _
  · exact Nat.le_succ _
  · exact Nat.le_refl _

theorem length_le_of_spanExponent? {exponent : Int}
    (h : Decimal.spanExponent? cs = some (exponent, rest)) : rest.length ≤ cs.length := by
  cases cs with
  | nil => cases h
  | cons c cs =>
    simp only [Decimal.spanExponent?] at h
    split at h
    · split at h
      · cases h
      · cases h
        exact (length_spanDigits_le _).trans ((length_spanSign_le cs).trans (Nat.le_succ _))
    · cases h

theorem length_le_of_wholeDigits? {digits : List Char}
    (h : wholeDigits? cs = some (digits, rest)) : rest.length ≤ cs.length := by
  unfold wholeDigits? at h
  split at h
  · cases h
    exact Nat.le_succ _
  · dsimp only at h
    split at h
    · cases h
    · cases h
      exact length_spanDigits_le cs

theorem length_spanPart_le (cs : List Char) : (spanPart cs).2.length ≤ cs.length := by
  unfold spanPart
  split
  next rest =>
    dsimp only
    split
    · exact Nat.le_refl _
    · exact (length_spanDigits_le rest).trans (Nat.le_succ _)
  · exact Nat.le_refl _

theorem length_le_of_unsigned {negative : Bool}
    (h : unsigned dialect negative cs = .ok (document, rest)) : rest.length ≤ cs.length := by
  unfold unsigned at h
  obtain ⟨⟨whole, afterWhole⟩, hwhole, h⟩ := bind_eq_ok_iff.mp h
  have hafter : (spanPart afterWhole).2.length ≤ cs.length :=
    (length_spanPart_le afterWhole).trans (length_le_of_wholeDigits? (required_eq_ok_iff.mp hwhole))
  dsimp only at h
  split at h
  next hexponent =>
    obtain ⟨_, -, h⟩ := bind_eq_ok_iff.mp h
    cases h
    exact (length_le_of_spanExponent? hexponent).trans hafter
  next =>
    split at h
    all_goals
      obtain ⟨_, -, h⟩ := bind_eq_ok_iff.mp h
      cases h
      exact hafter

theorem length_le_of_scalar (h : scalar dialect cs = .ok (document, rest)) :
    rest.length ≤ cs.length := by
  unfold scalar at h
  split at h
  next hword =>
    cases h
    obtain ⟨⟨word, value⟩, -, hvalue⟩ := List.exists_of_findSome?_eq_some hword
    dsimp only at hvalue
    split at hvalue
    · cases hvalue
      exact (List.drop_suffix ..).length_le
    · cases hvalue
  · split at h
    · exact (length_le_of_unsigned h).trans (Nat.le_succ _)
    · exact length_le_of_unsigned h

theorem length_le_of_stringBody? {body : List Symbol} (h : stringBody? cs = some (body, rest)) :
    rest.length ≤ cs.length := by
  fun_induction stringBody? cs generalizing body with
  | case1 | case3 | case5 | case7 => cases h
  | case2 =>
    cases h
    exact Nat.le_succ _
  | case4 _ _ _ _ _ _ _ ih | case6 _ _ _ _ _ ih | case8 _ _ _ _ _ _ ih =>
    obtain ⟨⟨_, after⟩, hbody, heq⟩ := Option.map_eq_some_iff.mp h
    cases heq
    have hle := ih hbody
    simp only [List.length_cons]
    omega

theorem length_le_of_string? {text : LooseText}
    (h : required (dialect.string? cs) = .ok (text, rest)) : rest.length ≤ cs.length := by
  obtain ⟨⟨body, after⟩, hbody, h⟩ := Option.bind_eq_some_iff.mp (required_eq_ok_iff.mp h)
  dsimp only at h
  split at h
  · cases h
    exact length_le_of_stringBody? hbody
  · cases h

end Rest

/-- What the readers give with some fuel has no more items than characters were read. -/
structure ReadsFew (dialect : Dialect) (fuel : Nat) : Prop where
  value : ∀ {room cs d rest}, value dialect fuel room cs = .ok (d, rest) →
    d.numItems + rest.length ≤ cs.length
  items : ∀ {room cs ds rest}, items dialect fuel room cs = .ok (ds, rest) →
    numItemsOf ds + rest.length ≤ cs.length
  fields : ∀ {room cs fs rest}, fields dialect fuel room cs = .ok (fs, rest) →
    numItemsIn fs + rest.length ≤ cs.length

namespace ReadsFew

variable {dialect : Dialect} {fuel : Nat} {room : Option Nat} {cs rest : List Char}
  {document : Document}

/-- What follows white space is no longer than what is left with it. -/
theorem length_lt_of_skip {c : Char} (h : skip cs = c :: rest) : rest.length < cs.length := by
  have hle := length_skip_le cs
  rw [h, List.length_cons] at hle
  exact hle

theorem numItems_of_scalar (h : scalar dialect cs = .ok (document, rest)) :
    document.numItems = 0 := by
  have hwords : ∀ entry ∈ words dialect, entry.2.numItems = 0 := by
    unfold words
    split <;> simp [numItems]
  rcases scalar_cases h with ⟨word, hword⟩ | ⟨negative, cs, hnumber⟩
  · exact hwords _ hword
  · rcases unsigned_cases hnumber with ⟨n, rfl, -⟩ | ⟨x, rfl, -⟩ <;> rfl

theorem value_succ (ih : ReadsFew dialect fuel)
    (h : Json.value dialect (fuel + 1) room cs = .ok (document, rest)) :
    document.numItems + rest.length ≤ cs.length := by
  rw [Json.value.eq_def] at h
  dsimp only at h
  split at h
  next body =>
    obtain ⟨⟨text, after⟩, htext, h⟩ := bind_eq_ok_iff.mp h
    cases h
    have hle := length_le_of_string? htext
    simp only [numItems, List.length_cons]
    omega
  next body =>
    obtain ⟨inner, -, h⟩ := bind_eq_ok_iff.mp h
    have hskip := length_skip_le body
    split at h
    next after hafter =>
      cases h
      have hlt := length_lt_of_skip hafter
      simp only [numItems, numItemsOf, List.length_cons]
      omega
    next =>
      obtain ⟨⟨ds, after⟩, hds, h⟩ := bind_eq_ok_iff.mp h
      cases h
      have hle := ih.items hds
      simp only [numItems, List.length_cons]
      omega
  next body =>
    obtain ⟨inner, -, h⟩ := bind_eq_ok_iff.mp h
    have hskip := length_skip_le body
    split at h
    next after hafter =>
      cases h
      have hlt := length_lt_of_skip hafter
      simp only [numItems, numItemsIn, List.length_cons]
      omega
    next =>
      obtain ⟨⟨fs, after⟩, hfs, h⟩ := bind_eq_ok_iff.mp h
      cases h
      have hle := ih.fields hfs
      have hcollect := numItemsIn_collect_le fs
      simp only [numItems, List.length_cons]
      omega
  next =>
    rw [numItems_of_scalar h, Nat.zero_add]
    exact length_le_of_scalar h

theorem items_succ (ih : ReadsFew dialect fuel) {ds : List Document}
    (h : Json.items dialect (fuel + 1) room cs = .ok (ds, rest)) :
    numItemsOf ds + rest.length ≤ cs.length := by
  rw [Json.items.eq_def] at h
  obtain ⟨⟨d, after⟩, hd, h⟩ := bind_eq_ok_iff.mp h
  have hitem := ih.value hd
  dsimp only at h
  split at h
  next behind hbehind =>
    obtain ⟨⟨more, after'⟩, hmore, h⟩ := bind_eq_ok_iff.mp h
    cases h
    have hlt := length_lt_of_skip hbehind
    have hskip := length_skip_le behind
    have hrest := ih.items hmore
    simp only [numItemsOf]
    omega
  next behind hbehind =>
    cases h
    have hlt := length_lt_of_skip hbehind
    simp only [numItemsOf]
    omega
  next => cases h

theorem fields_succ (ih : ReadsFew dialect fuel) {fs : List (LooseText × Document)}
    (h : Json.fields dialect (fuel + 1) room cs = .ok (fs, rest)) :
    numItemsIn fs + rest.length ≤ cs.length := by
  rw [Json.fields.eq_def] at h
  dsimp only at h
  split at h
  next body =>
    obtain ⟨⟨key, after⟩, hkey, h⟩ := bind_eq_ok_iff.mp h
    have hlength := length_le_of_string? hkey
    dsimp only at h
    split at h
    next colon hcolon =>
      obtain ⟨⟨d, after'⟩, hd, h⟩ := bind_eq_ok_iff.mp h
      have hlt := length_lt_of_skip hcolon
      have hskip := length_skip_le colon
      have hvalue := ih.value hd
      dsimp only at h
      split at h
      next behind hbehind =>
        obtain ⟨⟨more, after''⟩, hmore, h⟩ := bind_eq_ok_iff.mp h
        cases h
        have hlt' := length_lt_of_skip hbehind
        have hskip' := length_skip_le behind
        have hrest := ih.fields hmore
        simp only [numItemsIn, List.length_cons]
        omega
      next behind hbehind =>
        cases h
        have hlt' := length_lt_of_skip hbehind
        simp only [numItemsIn, List.length_cons]
        omega
      next => cases h
    next => cases h
  next => cases h

end ReadsFew

/-- The lists of a document that is read have no more items than the text has characters. -/
theorem numItems_le_of_read {dialect : Dialect} {text : String} {document : Document}
    (h : read dialect text = .ok document) : document.numItems ≤ text.length := by
  have hreads (fuel : Nat) : ReadsFew dialect fuel := by
    induction fuel with
    | zero => exact ⟨nofun, nofun, nofun⟩
    | succ fuel ih => exact ⟨ih.value_succ, ih.items_succ, ih.fields_succ⟩
  unfold read at h
  obtain ⟨⟨d, after⟩, hd, h⟩ := bind_eq_ok_iff.mp h
  have hle := (hreads _).value hd
  have hskip := length_skip_le text.toList
  rw [String.length_toList] at hskip
  dsimp only at h
  split at h
  · cases h
    omega
  · cases h

end Json

end ClusterBalance.Document
