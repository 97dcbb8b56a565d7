import ClusterBalance.Document.Json.Reader
import ClusterBalance.Proofs.Decimal.Bits
import ClusterBalance.Proofs.Document.Literal
import ClusterBalance.Proofs.Text.Loose

/-! The values in what is read from a text. Main statements: a reader with a range for whole numbers
gives only documents whose whole numbers lie in that range, one without special numbers only
documents whose floats are finite, and one without halves only documents whose texts are sound. -/

namespace ClusterBalance.Document

mutual

/-- Whether the values in a document, other than lists and objects, all have a property. -/
def All (p : Document → Prop) : Document → Prop
  | list items => ItemsAll p items
  | object fields => FieldsAll p fields
  | value => p value

/-- Whether the values in the items of a list all have a property. -/
def ItemsAll (p : Document → Prop) : List Document → Prop
  | [] => True
  | item :: rest => All p item ∧ ItemsAll p rest

/-- Whether the values in the fields of an object all have a property. -/
def FieldsAll (p : Document → Prop) : List (LooseText × Document) → Prop
  | [] => True
  | (_, value) :: rest => All p value ∧ FieldsAll p rest

end

section All

variable {p : Document → Prop} {key : LooseText} {value : Document}
  {fields : List (LooseText × Document)}

theorem all_of_mem {items : List Document} (h : ItemsAll p items) {item : Document}
    (hmem : item ∈ items) : item.All p := by
  induction items with
  | nil => cases hmem
  | cons first rest ih =>
    rcases List.mem_cons.mp hmem with rfl | hmem
    · exact h.1
    · exact ih h.2 hmem

theorem all_of_find? (h : FieldsAll p fields) (hfind : find? key fields = some value) :
    value.All p := by
  induction fields with
  | nil => cases hfind
  | cons field rest ih =>
    obtain ⟨k, v⟩ := field
    rw [find?_cons] at hfind
    split at hfind
    · cases hfind
      exact h.1
    · exact ih h.2 hfind

theorem fieldsAll_put (h : FieldsAll p fields) (hvalue : value.All p) :
    FieldsAll p (put key value fields) := by
  induction fields with
  | nil => exact ⟨hvalue, trivial⟩
  | cons field rest ih =>
    obtain ⟨k, v⟩ := field
    rw [put]
    split
    · exact ⟨hvalue, h.2⟩
    · exact ⟨h.1, ih h.2⟩

theorem all_findD {default : Document} (h : FieldsAll p fields) (hdefault : default.All p) :
    (findD key default fields).All p := by
  unfold findD
  cases hfind : find? key fields with
  | none => exact hdefault
  | some value => exact all_of_find? h hfind

end All

namespace Json

theorem fieldsAll_collect {p : Document → Prop} {fields : List (LooseText × Document)}
    (h : FieldsAll p fields) : FieldsAll p (collect fields) := by
  have hfold : ∀ done, FieldsAll p done →
      FieldsAll p (fields.foldl (fun done field => put field.1 field.2 done) done) := by
    induction fields with
    | nil => exact fun done hdone => hdone
    | cons field rest ih => exact fun done hdone => ih h.2 _ (fieldsAll_put hdone h.1)
  exact hfold [] trivial

theorem required_eq_ok_iff {β : Type} {x? : Option β} {x : β} :
    required x? = .ok x ↔ x? = some x := by
  cases x? with
  | none => exact iff_of_false nofun nofun
  | some y => rw [required, Except.ok.injEq, Option.some.injEq]

variable {dialect : Dialect} {p : Document → Prop} {document : Document} {rest : List Char}

/-- What the reader gives with some fuel has the property: a value, the items of a list and the
fields of an object. -/
structure ReadsAll (dialect : Dialect) (p : Document → Prop) (fuel : Nat) : Prop where
  value : ∀ {room cs d rest}, value dialect fuel room cs = .ok (d, rest) → d.All p
  items : ∀ {room cs ds rest}, items dialect fuel room cs = .ok (ds, rest) → ItemsAll p ds
  fields : ∀ {room cs fs rest}, fields dialect fuel room cs = .ok (fs, rest) → FieldsAll p fs

namespace ReadsAll

variable {fuel : Nat} {room : Option Nat} {cs : List Char}

theorem value_succ (hscalar : ∀ {cs d rest}, scalar dialect cs = .ok (d, rest) → d.All p)
    (hstring : ∀ {cs s rest}, dialect.string? cs = some (s, rest) → p (.string s))
    (ih : ReadsAll dialect p fuel)
    (h : Json.value dialect (fuel + 1) room cs = .ok (document, rest)) : document.All p := by
  rw [Json.value.eq_def] at h
  dsimp only at h
  split at h
  · obtain ⟨⟨s, after⟩, hs, h⟩ := bind_eq_ok_iff.mp h
    cases h
    exact hstring (required_eq_ok_iff.mp hs)
  · obtain ⟨inner, -, h⟩ := bind_eq_ok_iff.mp h
    split at h
    · cases h
      trivial
    · obtain ⟨⟨ds, after⟩, hds, h⟩ := bind_eq_ok_iff.mp h
      cases h
      exact ih.items hds
  · obtain ⟨inner, -, h⟩ := bind_eq_ok_iff.mp h
    split at h
    · cases h
      trivial
    · obtain ⟨⟨fs, after⟩, hfs, h⟩ := bind_eq_ok_iff.mp h
      cases h
      exact fieldsAll_collect (ih.fields hfs)
  · exact hscalar h

theorem items_succ (ih : ReadsAll dialect p fuel) {ds : List Document}
    (h : Json.items dialect (fuel + 1) room cs = .ok (ds, rest)) : ItemsAll p ds := by
  rw [Json.items.eq_def] at h
  obtain ⟨⟨d, after⟩, hd, h⟩ := bind_eq_ok_iff.mp h
  have hitem := ih.value hd
  dsimp only at h
  split at h
  · obtain ⟨⟨more, after'⟩, hmore, h⟩ := bind_eq_ok_iff.mp h
    cases h
    exact ⟨hitem, ih.items hmore⟩
  · cases h
    exact ⟨hitem, trivial⟩
  · cases h

theorem fields_succ (ih : ReadsAll dialect p fuel) {fs : List (LooseText × Document)}
    (h : Json.fields dialect (fuel + 1) room cs = .ok (fs, rest)) : FieldsAll p fs := by
  rw [Json.fields.eq_def] at h
  dsimp only at h
  split at h
  · obtain ⟨⟨key, after⟩, -, h⟩ := bind_eq_ok_iff.mp h
    dsimp only at h
    split at h
    · obtain ⟨⟨d, after'⟩, hd, h⟩ := bind_eq_ok_iff.mp h
      have hvalue := ih.value hd
      dsimp only at h
      split at h
      · obtain ⟨⟨more, after''⟩, hmore, h⟩ := bind_eq_ok_iff.mp h
        cases h
        exact ⟨hvalue, ih.fields hmore⟩
      · cases h
        exact ⟨hvalue, trivial⟩
      · cases h
    · cases h
  · cases h

end ReadsAll

/-- What holds of texts and of the values that are read at once holds of all values in a document
that is read. -/
theorem all_read (hscalar : ∀ {cs d rest}, scalar dialect cs = .ok (d, rest) → d.All p)
    (hstring : ∀ {cs s rest}, dialect.string? cs = some (s, rest) → p (.string s)) {text : String}
    (h : read dialect text = .ok document) :
    document.All p := by
  -- one fuel serves the three readers, so they go through one induction
  have hreads (fuel : Nat) : ReadsAll dialect p fuel := by
    induction fuel with
    | zero => exact ⟨nofun, nofun, nofun⟩
    | succ fuel ih => exact ⟨ih.value_succ hscalar hstring, ih.items_succ, ih.fields_succ⟩
  unfold read at h
  obtain ⟨⟨d, after⟩, hd, h⟩ := bind_eq_ok_iff.mp h
  dsimp only at h
  split at h
  · cases h
    exact (hreads _).value hd
  · cases h

section Scalar

/-- A whole number that is read lies in the range, if there is one; beyond it, its float counts. -/
theorem whole_cases {negative : Bool} {digits : List Char}
    (h : dialect.whole negative digits = .ok document) :
    (∃ n, document = .int n ∧
        ∀ range, dialect.wholeRange = some range → range.1 ≤ n ∧ n ≤ range.2) ∨
      ∃ x, document = .float x ∧ x.isFinite = true := by
  unfold Dialect.whole at h
  dsimp only at h
  generalize (if negative then -(Decimal.digitsValue digits : Int)
    else Decimal.digitsValue digits) = n at h
  split at h
  next least greatest hrange =>
    split at h
    next hn =>
      cases h
      refine .inl ⟨_, rfl, ?_⟩
      rintro range hrange'
      cases hrange.symm.trans hrange'
      exact hn
    next =>
      obtain ⟨x, hx, h⟩ := bind_eq_ok_iff.mp h
      cases h
      exact .inr ⟨_, rfl, Decimal.isFinite_of_ofWhole? (required_eq_ok_iff.mp hx)⟩
  next hrange =>
    obtain ⟨_, -, h⟩ := bind_eq_ok_iff.mp h
    cases h
    exact .inl ⟨_, rfl, fun range hrange' => by rw [hrange] at hrange'; cases hrange'⟩

theorem exists_of_float {negative : Bool} {digits : Nat} {exponent : Int}
    (h : dialect.float (Decimal.ofDecimal negative digits exponent) = .ok document) :
    ∃ x, document = .float x ∧ (dialect.unbounded = false → x.isFinite = true) := by
  unfold Dialect.float at h
  split at h
  next => cases h
  next hinf =>
    cases h
    refine ⟨_, rfl, fun hbounded => Decimal.isFinite_ofDecimal ?_⟩
    simpa [hbounded] using hinf

/-- A text that is read is sound, unless there are halves. -/
theorem isSound_of_string? {cs : List Char} {s : LooseText}
    (h : dialect.string? cs = some (s, rest)) (hwhole : dialect.halves = false) : s.IsSound := by
  unfold Dialect.string? at h
  obtain ⟨⟨body, after⟩, -, h⟩ := Option.bind_eq_some_iff.mp h
  dsimp only at h
  rw [hwhole, Bool.false_or] at h
  split at h
  next hsound =>
    cases h
    generalize LooseText.ofSymbols body = t at hsound
    cases t with
    | sound s => exact ⟨s, rfl⟩
    | broken => cases hsound
  next => cases h

/-- A number is read as a whole number in the range or as a float that is finite, unless there are
special numbers. -/
theorem unsigned_cases {negative : Bool} {cs : List Char}
    (h : unsigned dialect negative cs = .ok (document, rest)) :
    (∃ n, document = .int n ∧
        ∀ range, dialect.wholeRange = some range → range.1 ≤ n ∧ n ≤ range.2) ∨
      ∃ x, document = .float x ∧ (dialect.unbounded = false → x.isFinite = true) := by
  unfold unsigned at h
  obtain ⟨⟨whole, afterWhole⟩, -, h⟩ := bind_eq_ok_iff.mp h
  dsimp only at h
  split at h
  · obtain ⟨d, hd, h⟩ := bind_eq_ok_iff.mp h
    cases h
    exact .inr (exists_of_float hd)
  · split at h
    · obtain ⟨d, hd, h⟩ := bind_eq_ok_iff.mp h
      cases h
      exact (whole_cases hd).imp_right fun ⟨x, hx, hfinite⟩ => ⟨x, hx, fun _ => hfinite⟩
    · obtain ⟨d, hd, h⟩ := bind_eq_ok_iff.mp h
      cases h
      exact .inr (exists_of_float hd)

/-- What is read at once is one of the words or a number. -/
theorem scalar_cases {cs : List Char} (h : scalar dialect cs = .ok (document, rest)) :
    (∃ word, (word, document) ∈ words dialect) ∨
      ∃ negative cs, unsigned dialect negative cs = .ok (document, rest) := by
  unfold scalar at h
  split at h
  next hword =>
    cases h
    obtain ⟨⟨word, value⟩, hmem, hvalue⟩ := List.exists_of_findSome?_eq_some hword
    dsimp only at hvalue
    split at hvalue
    · cases hvalue
      exact .inl ⟨word, hmem⟩
    · cases hvalue
  · split at h
    · exact .inr ⟨_, _, h⟩
    · exact .inr ⟨_, _, h⟩

end Scalar

theorem read_of_read? {text : String} (h : read? dialect text = some document) :
    read dialect text = .ok document := by
  unfold read? at h
  cases hread : read dialect text with
  | ok d =>
    rw [hread] at h
    cases h
    rfl
  | error cause =>
    rw [hread] at h
    cases h

section Fits

/-- A value as a dialect reads it: a whole number lies in the range, a float is finite unless there
are special numbers, and a text is sound unless there are halves. -/
def Fits (dialect : Dialect) : Document → Prop
  | .int n => ∀ range, dialect.wholeRange = some range → range.1 ≤ n ∧ n ≤ range.2
  | .float x => dialect.unbounded = false → x.isFinite = true
  | .string s => dialect.halves = false → s.IsSound
  | _ => True

theorem fits_of_mem_words {word : List Char} (h : (word, document) ∈ words dialect) :
    document.All (Fits dialect) := by
  unfold words at h
  split at h
  next hunbounded =>
    have hfloat (x : Float) : (Document.float x).All (Fits dialect) := by
      intro hbounded
      rw [hunbounded] at hbounded
      cases hbounded
    rcases h with _ | ⟨_, _ | ⟨_, _ | ⟨_, _ | ⟨_, _ | ⟨_, _ | ⟨_, ⟨⟩⟩⟩⟩⟩⟩⟩
    · trivial
    · trivial
    · trivial
    all_goals exact hfloat _
  next =>
    rcases h with _ | ⟨_, _ | ⟨_, _ | ⟨_, ⟨⟩⟩⟩⟩ <;> trivial

/-- The values of a document fit the dialect that it is read in. -/
theorem fits_read {text : String} (h : read dialect text = .ok document) :
    document.All (Fits dialect) := by
  refine all_read (fun hd => ?_) isSound_of_string? h
  rcases scalar_cases hd with ⟨word, hword⟩ | ⟨negative, cs, hnumber⟩
  · exact fits_of_mem_words hword
  · rcases unsigned_cases hnumber with ⟨n, rfl, hn⟩ | ⟨x, rfl, hx⟩
    · exact hn
    · exact hx

end Fits

section Range

variable {range : Int × Int}

/-- Whole numbers that lie in a range. -/
def InRange (range : Int × Int) (numbers : List Int) : Prop :=
  ∀ n ∈ numbers, range.1 ≤ n ∧ n ≤ range.2

theorem InRange.append {xs ys : List Int} (hx : InRange range xs) (hy : InRange range ys) :
    InRange range (xs ++ ys) := by
  intro n hn
  rcases List.mem_append.mp hn with hn | hn
  · exact hx n hn
  · exact hy n hn

mutual

theorem inRange_of_fits (hrange : dialect.wholeRange = some range) : ∀ document : Document,
    document.All (Fits dialect) → InRange range document.wholes
  | list items, h => inRange_of_itemsFit hrange items h
  | object fields, h => inRange_of_fieldsFit hrange fields h
  | int n, h => by
    intro m hm
    rw [List.mem_singleton.mp hm]
    exact h range hrange
  | null, _ | bool _, _ | float _, _ | string _, _ | moment _, _ => nofun

theorem inRange_of_itemsFit (hrange : dialect.wholeRange = some range) : ∀ items : List Document,
    ItemsAll (Fits dialect) items → InRange range (itemWholes items)
  | [], _ => nofun
  | item :: rest, h =>
    (inRange_of_fits hrange item h.1).append (inRange_of_itemsFit hrange rest h.2)

theorem inRange_of_fieldsFit (hrange : dialect.wholeRange = some range) :
    ∀ fields : List (LooseText × Document),
      FieldsAll (Fits dialect) fields → InRange range (fieldWholes fields)
  | [], _ => nofun
  | (_, value) :: rest, h =>
    (inRange_of_fits hrange value h.1).append (inRange_of_fieldsFit hrange rest h.2)

end

/-- The whole numbers of a document that is read with a range lie in that range. -/
theorem inRange_read (hrange : dialect.wholeRange = some range) {text : String}
    (h : read dialect text = .ok document) : InRange range document.wholes :=
  inRange_of_fits hrange document (fits_read h)

end Range

end Json

end ClusterBalance.Document
