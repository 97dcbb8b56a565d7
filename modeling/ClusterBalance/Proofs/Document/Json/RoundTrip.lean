import ClusterBalance.Proofs.Document.Json.Number
import ClusterBalance.Proofs.Document.Json.Text

/-! Documents that are written and read back. Main statement: the text of a document that can be
written is read as that document, if its floats are finite and its objects repeat no key. -/

namespace ClusterBalance.Document

mutual

/-- Whether the floats of a document are finite and its objects repeat no key. -/
def IsPlain : Document → Prop
  | float x => x.isFinite = true
  | list items => ArePlain items
  | object fields => (fields.map (·.1)).Nodup ∧ FieldsArePlain fields
  | _ => True

/-- Whether all items of a list are plain. -/
def ArePlain : List Document → Prop
  | [] => True
  | item :: rest => item.IsPlain ∧ ArePlain rest

/-- Whether all values of an object are plain. -/
def FieldsArePlain : List (LooseText × Document) → Prop
  | [] => True
  | (_, value) :: rest => value.IsPlain ∧ FieldsArePlain rest

end

theorem put_of_notMem {key : LooseText} (value : Document) {fields : List (LooseText × Document)}
    (h : key ∉ fields.map (·.1)) : put key value fields = fields ++ [(key, value)] := by
  induction fields with
  | nil => rfl
  | cons field rest ih =>
    rw [List.map_cons, List.mem_cons, not_or] at h
    rw [put, if_neg (Ne.symm h.1), ih h.2]
    rfl

namespace Json

open Decimal

variable {spacing : Spacing} {document : Document} {rest : List Char}

/-- Fields without a repeated key are kept as they are. -/
theorem collect_of_nodup {fields : List (LooseText × Document)} (h : (fields.map (·.1)).Nodup) :
    collect fields = fields := by
  have hfold : ∀ done : List (LooseText × Document), ((done ++ fields).map (·.1)).Nodup →
      fields.foldl (fun done field => put field.1 field.2 done) done = done ++ fields := by
    clear h
    induction fields with
    | nil => exact fun done _ => (List.append_nil done).symm
    | cons field rest ih =>
      intro done h
      have hkey : field.1 ∉ done.map (·.1) := by
        rw [List.map_append, List.map_cons] at h
        exact fun hmem => (List.nodup_append.mp h).2.2 _ hmem _ List.mem_cons_self rfl
      rw [List.foldl_cons, put_of_notMem field.2 hkey, ih _ (by simpa using h), List.append_assoc]
      rfl
  exact hfold [] h

section Blanks

theorem skip_append {blank : List Char} (h : ∀ c ∈ blank, isBlank c = true) (cs : List Char) :
    skip (blank ++ cs) = skip cs :=
  List.dropWhile_append_of_pos h

theorem skip_cons {c : Char} (h : isBlank c = false) (cs : List Char) : skip (c :: cs) = c :: cs :=
  List.dropWhile_cons_of_neg (by rw [h]; exact Bool.false_ne_true)

theorem isBlank_of_mem_lead : ∀ c ∈ spacing.lead.toList, isBlank c = true := by
  intro c hc
  cases spacing with
  | compact => cases hc
  | indented level =>
    rw [Spacing.lead, newline, String.toList_ofList, List.mem_cons, List.mem_replicate] at hc
    rcases hc with rfl | ⟨-, rfl⟩ <;> rfl

theorem skip_lead {c : Char} (h : isBlank c = false) (cs : List Char) :
    skip (spacing.lead.toList ++ c :: cs) = c :: cs := by
  rw [skip_append isBlank_of_mem_lead, skip_cons h]

/-- No number goes on behind white space. -/
theorem startsNot_lead {c : Char} (h : ¬GoesOn c) (cs : List Char) :
    StartsNot GoesOn (spacing.lead.toList ++ c :: cs) := by
  cases spacing with
  | compact => exact startsNot_cons h
  | indented level =>
    rw [Spacing.lead, newline, String.toList_ofList]
    exact startsNot_cons (by unfold GoesOn; decide)

end Blanks

section Parts

/-- The parts behind the first one, each with a comma and white space in front. -/
def joined (lead : List Char) (parts : List String) : List Char :=
  parts.flatMap fun part => ',' :: (lead ++ part.toList)

theorem joined_cons (lead : List Char) (part : String) (parts : List String) :
    joined lead (part :: parts) = ',' :: (lead ++ (part.toList ++ joined lead parts)) := by
  simp [joined]

theorem toList_intercalate_cons (part : String) (parts : List String) (lead : String) :
    (",".intercalate ((part :: parts).map (lead ++ ·))).toList =
      lead.toList ++ (part.toList ++ joined lead.toList parts) := by
  induction parts generalizing part with
  | nil => simp [joined]
  | cons next parts ih =>
    rw [List.map_cons, List.map_cons, String.intercalate_cons_cons, ← List.map_cons,
      String.toList_append, String.toList_append, ih]
    simp [joined]

theorem toList_bracketed_cons (left right part : String) (parts : List String) :
    (bracketed spacing left right (part :: parts)).toList =
      left.toList ++ (spacing.inner.lead.toList ++ (part.toList ++
        (joined spacing.inner.lead.toList parts ++ (spacing.lead.toList ++ right.toList)))) := by
  rw [bracketed, List.isEmpty_cons, if_neg Bool.false_ne_true, String.toList_append,
    String.toList_append, String.toList_append, toList_intercalate_cons]
  simp only [List.append_assoc]

/-- Behind a part, another part follows or the bracket that closes them. -/
theorem startsNot_joined {c : Char} (h : ¬GoesOn c) (lead : List Char) (parts : List String)
    (cs : List Char) :
    StartsNot GoesOn (joined lead parts ++ (spacing.lead.toList ++ c :: cs)) := by
  cases parts with
  | nil => exact startsNot_lead h cs
  | cons part parts => exact startsNot_cons (by unfold GoesOn; decide)

end Parts

section Checked

variable {room : Nat}

theorem roomBelow_eq_ok {below : Nat} (h : roomBelow room = .ok below) : room = below + 1 := by
  cases room with
  | zero => cases h
  | succ room =>
    cases h
    rfl

theorem exists_of_check_list {items : List Document} (h : check room (.list items) = .ok ()) :
    ∃ below, room = below + 1 ∧ checkItems below items = .ok () := by
  rw [check] at h
  obtain ⟨below, hbelow, h⟩ := bind_eq_ok_iff.mp h
  exact ⟨below, roomBelow_eq_ok hbelow, h⟩

theorem exists_of_check_object {fields : List (LooseText × Document)}
    (h : check room (.object fields) = .ok ()) :
    ∃ below, room = below + 1 ∧ checkFields below fields = .ok () := by
  rw [check] at h
  obtain ⟨below, hbelow, h⟩ := bind_eq_ok_iff.mp h
  exact ⟨below, roomBelow_eq_ok hbelow, h⟩

theorem exists_sound_of_checkText {s : LooseText} (h : checkText s = .ok ()) :
    ∃ t, s = .sound t := by
  cases s with
  | sound t => exact ⟨t, rfl⟩
  | broken start half rest => cases h

theorem inRange_of_checkWhole {n : Int} (h : checkWhole n = .ok ()) :
    wordRange.1 ≤ n ∧ n ≤ wordRange.2 := by
  unfold checkWhole at h
  split at h
  next hn => exact hn
  next => cases h

end Checked

section Opening

/-- The start of a value: neither white space nor a closing bracket. -/
structure Opens (c : Char) : Prop where
  blank : isBlank c = false
  bracket : c ≠ ']'
  brace : c ≠ '\x7d'

theorem NumberStart.opens {c : Char} (h : NumberStart c) : Opens c := by
  have hne (d : Char) (hd : ¬(d.isDigit = true ∨ d = '-')) : c ≠ d := h.ne hd
  refine ⟨?_, hne _ (by decide), hne _ (by decide)⟩
  simp [isBlank, hne ' ' (by decide), hne '\t' (by decide), hne '\n' (by decide),
    hne '\r' (by decide)]

theorem toList_stringText (s : String) :
    (stringText s).toList = '"' :: (s.toList.flatMap escapeChar ++ ['"']) :=
  String.toList_ofList

theorem exists_bracketed_eq_cons {left : Char} (right : String) (parts : List String) :
    ∃ cs, (bracketed spacing (String.singleton left) right parts).toList = left :: cs := by
  cases parts with
  | nil => exact ⟨right.toList, by simp [bracketed]⟩
  | cons part parts => exact ⟨_, by rw [toList_bracketed_cons, String.toList_singleton]; rfl⟩

theorem exists_text_eq_cons (spacing : Spacing) (h : document.IsPlain) :
    ∃ c cs, (text spacing document).toList = c :: cs ∧ Opens c := by
  cases document with
  | null => exact ⟨'n', ['u', 'l', 'l'], by rw [text]; rfl, by decide, by decide, by decide⟩
  | bool b =>
    cases b with
    | true => exact ⟨'t', ['r', 'u', 'e'], by rw [text]; rfl, by decide, by decide, by decide⟩
    | false => exact ⟨'f', ['a', 'l', 's', 'e'], by rw [text]; rfl, by decide, by decide, by decide⟩
  | int n =>
    obtain ⟨c, cs, hcs, hc⟩ := exists_toString_eq_cons n
    exact ⟨c, cs, hcs, hc.opens⟩
  | float x =>
    obtain ⟨c, cs, hcs, hc⟩ := exists_floatText_eq_cons h
    exact ⟨c, cs, hcs, hc.opens⟩
  | string s => exact ⟨'"', _, toList_stringText s.shown, by decide, by decide, by decide⟩
  | moment m => exact ⟨'"', _, toList_stringText m.text, by decide, by decide, by decide⟩
  | list items =>
    obtain ⟨cs, hcs⟩ := @exists_bracketed_eq_cons spacing '[' "]" (itemTexts spacing.inner items)
    exact ⟨'[', cs, hcs, by decide, by decide, by decide⟩
  | object fields =>
    obtain ⟨cs, hcs⟩ :=
      @exists_bracketed_eq_cons spacing '\x7b' "\x7d" (fieldTexts spacing.inner fields)
    exact ⟨'\x7b', cs, hcs, by decide, by decide, by decide⟩

theorem toList_field (key colon value : String) :
    (stringText key ++ colon ++ value).toList =
      '"' :: (key.toList.flatMap escapeChar ++ '"' :: (colon.toList ++ value.toList)) := by
  simp [toList_stringText]

end Opening

section Steps

variable {fuel room : Nat} {cs after : List Char}

theorem value_of_numberStart {c : Char} (h : NumberStart c) (room : Option Nat) :
    value strict (fuel + 1) room (c :: cs) = scalar strict (c :: cs) := by
  have hne (d : Char) (hd : ¬(d.isDigit = true ∨ d = '-')) : c ≠ d := h.ne hd
  rw [value]
  · exact fun _ heq => hne '"' (by decide) (List.cons.inj heq).1
  · exact fun _ heq => hne '[' (by decide) (List.cons.inj heq).1
  · exact fun _ heq => hne '\x7b' (by decide) (List.cons.inj heq).1

theorem value_of_text (t : String) (room : Option Nat) :
    value strict (fuel + 1) room ((stringText t).toList ++ rest) = .ok (.string t, rest) := by
  rw [toList_stringText, List.cons_append, List.append_assoc, List.singleton_append, value,
    string?_stringChars]
  rfl

theorem value_of_items {ds : List Document} (hskip : skip after = cs)
    (hcs : StartsNot (· = ']') cs) (h : items strict fuel (some room) cs = .ok (ds, rest)) :
    value strict (fuel + 1) (some (room + 1)) ('[' :: after) = .ok (.list ds, rest) := by
  rw [value]
  simp only [deeper, ok_bind, hskip]
  split
  next => exact absurd rfl (hcs _ _ rfl)
  next => rw [h]; rfl

theorem value_of_fields {fs : List (LooseText × Document)} (hskip : skip after = cs)
    (hcs : StartsNot (· = '\x7d') cs) (hkeys : (fs.map (·.1)).Nodup)
    (h : fields strict fuel (some room) cs = .ok (fs, rest)) :
    value strict (fuel + 1) (some (room + 1)) ('\x7b' :: after) = .ok (.object fs, rest) := by
  rw [value]
  simp only [deeper, ok_bind, hskip]
  split
  next => exact absurd rfl (hcs _ _ rfl)
  next => rw [h, ok_bind, collect_of_nodup hkeys]; rfl

end Steps

section White

variable {outer : Spacing}

theorem skip_lead_text (h : document.IsPlain) (rest : List Char) :
    skip (outer.lead.toList ++ ((text spacing document).toList ++ rest)) =
      (text spacing document).toList ++ rest := by
  obtain ⟨c, cs, hcs, hc⟩ := exists_text_eq_cons spacing h
  rw [hcs, List.cons_append, skip_lead hc.blank]

theorem exists_skip_colon (h : document.IsPlain) (rest : List Char) :
    ∃ cs, skip (spacing.colon.toList ++ ((text spacing document).toList ++ rest)) = ':' :: cs ∧
      skip cs = (text spacing document).toList ++ rest := by
  obtain ⟨c, cs, hcs, hc⟩ := exists_text_eq_cons spacing h
  rw [hcs, List.cons_append]
  cases spacing with
  | compact => exact ⟨_, skip_cons rfl _, skip_cons hc.blank _⟩
  | indented level =>
    have hcolon : (Spacing.indented level).colon.toList = [':', ' '] := by
      rw [Spacing.colon]
      rfl
    have hspace : skip (' ' :: c :: (cs ++ rest)) = skip (c :: (cs ++ rest)) :=
      List.dropWhile_cons_of_pos rfl
    rw [hcolon]
    exact ⟨' ' :: c :: (cs ++ rest), skip_cons rfl _, hspace.trans (skip_cons hc.blank _)⟩

end White

/-- What is read back with some fuel: a value, the items of a list and the fields of an object up
to the bracket behind them. -/
structure ReadsBack (fuel : Nat) : Prop where
  value : ∀ {spacing d k room rest}, check k d = .ok () → d.IsPlain → k ≤ room →
    2 * (text spacing d).toList.length ≤ fuel → StartsNot GoesOn rest →
    value strict fuel (some room) ((text spacing d).toList ++ rest) = .ok (d, rest)
  items : ∀ {spacing d ds k room} {outer : Spacing} {rest}, checkItems k (d :: ds) = .ok () →
    ArePlain (d :: ds) → k ≤ room →
    2 * ((text spacing d).toList ++ joined spacing.lead.toList (itemTexts spacing ds)).length <
      fuel →
    items strict fuel (some room) ((text spacing d).toList ++
      (joined spacing.lead.toList (itemTexts spacing ds) ++ (outer.lead.toList ++ ']' :: rest))) =
        .ok (d :: ds, rest)
  fields : ∀ {spacing key d fs k room} {outer : Spacing} {rest},
    checkFields k ((key, d) :: fs) = .ok () → FieldsArePlain ((key, d) :: fs) → k ≤ room →
    2 * ((stringText key.shown ++ spacing.colon ++ text spacing d).toList ++
      joined spacing.lead.toList (fieldTexts spacing fs)).length < fuel →
    fields strict fuel (some room)
      ((stringText key.shown ++ spacing.colon ++ text spacing d).toList ++
        (joined spacing.lead.toList (fieldTexts spacing fs) ++
          (outer.lead.toList ++ '\x7d' :: rest))) = .ok ((key, d) :: fs, rest)

namespace ReadsBack

variable {fuel room k : Nat}

theorem list_succ (ih : ReadsBack fuel) {ds : List Document} (h : check k (.list ds) = .ok ())
    (hplain : ArePlain ds) (hroom : k ≤ room)
    (hfuel : 2 * (text spacing (.list ds)).toList.length ≤ fuel + 1) :
    Json.value strict (fuel + 1) (some room) ((text spacing (.list ds)).toList ++ rest) =
      .ok (.list ds, rest) := by
  obtain ⟨below, rfl, hbelow⟩ := exists_of_check_list h
  obtain ⟨room, rfl⟩ : ∃ r, room = r + 1 := ⟨room - 1, by omega⟩
  cases ds with
  | nil =>
    rw [text, itemTexts, bracketed, List.isEmpty_nil, if_pos rfl]
    rfl
  | cons d ds =>
    have hleft : "[".toList = ['['] := rfl
    have hright : "]".toList = [']'] := rfl
    rw [text, itemTexts, toList_bracketed_cons, hleft, hright] at hfuel ⊢
    simp only [List.append_assoc, List.cons_append, List.nil_append]
    obtain ⟨c, cs, hcs, hc⟩ := exists_text_eq_cons spacing.inner hplain.1
    refine value_of_items (skip_lead_text hplain.1 _) ?_ ?_
    · rw [hcs]
      exact startsNot_cons hc.bracket
    · refine ih.items hbelow hplain (by omega) ?_
      simp only [List.length_append, List.length_singleton] at hfuel ⊢
      omega

theorem object_succ (ih : ReadsBack fuel) {fs : List (LooseText × Document)}
    (h : check k (.object fs) = .ok ()) (hkeys : (fs.map (·.1)).Nodup)
    (hplain : FieldsArePlain fs) (hroom : k ≤ room)
    (hfuel : 2 * (text spacing (.object fs)).toList.length ≤ fuel + 1) :
    Json.value strict (fuel + 1) (some room) ((text spacing (.object fs)).toList ++ rest) =
      .ok (.object fs, rest) := by
  obtain ⟨below, rfl, hbelow⟩ := exists_of_check_object h
  obtain ⟨room, rfl⟩ : ∃ r, room = r + 1 := ⟨room - 1, by omega⟩
  cases fs with
  | nil =>
    rw [text, fieldTexts, bracketed, List.isEmpty_nil, if_pos rfl]
    rfl
  | cons field fs =>
    obtain ⟨key, d⟩ := field
    have hleft : "\x7b".toList = ['\x7b'] := rfl
    have hright : "\x7d".toList = ['\x7d'] := rfl
    rw [text, fieldTexts, toList_bracketed_cons, hleft, hright] at hfuel ⊢
    simp only [List.append_assoc, List.cons_append, List.nil_append]
    refine value_of_fields rfl ?_ hkeys ?_
    all_goals rw [toList_field, List.cons_append, skip_lead rfl]
    · exact startsNot_cons (by decide)
    · rw [← List.cons_append, ← toList_field]
      refine ih.fields hbelow hplain (by omega) ?_
      simp only [List.length_append, List.length_singleton] at hfuel ⊢
      omega

theorem value_succ (ih : ReadsBack fuel) (h : check k document = .ok ())
    (hplain : document.IsPlain) (hroom : k ≤ room)
    (hfuel : 2 * (text spacing document).toList.length ≤ fuel + 1)
    (hrest : StartsNot GoesOn rest) :
    Json.value strict (fuel + 1) (some room) ((text spacing document).toList ++ rest) =
      .ok (document, rest) := by
  cases document with
  | null => rw [text]; rfl
  | bool b => cases b <;> rw [text] <;> rfl
  | int n =>
    obtain ⟨c, cs, hcs, hc⟩ := exists_toString_eq_cons n
    rw [text, hcs, List.cons_append, value_of_numberStart hc, ← List.cons_append, ← hcs]
    exact scalar_toString (inRange_of_checkWhole h) hrest
  | float x =>
    obtain ⟨c, cs, hcs, hc⟩ := exists_floatText_eq_cons hplain
    rw [text, hcs, List.cons_append, value_of_numberStart hc, ← List.cons_append, ← hcs]
    exact scalar_floatText hplain hrest
  | string s =>
    obtain ⟨t, rfl⟩ := exists_sound_of_checkText h
    rw [text]
    exact value_of_text t _
  | moment m => cases h
  | list ds => exact ih.list_succ h hplain hroom hfuel
  | object fs => exact ih.object_succ h hplain.1 hplain.2 hroom hfuel

theorem items_succ (ih : ReadsBack fuel) {outer : Spacing} {d : Document} {ds : List Document}
    (h : checkItems k (d :: ds) = .ok ()) (hplain : ArePlain (d :: ds)) (hroom : k ≤ room)
    (hfuel : 2 * ((text spacing d).toList ++
      joined spacing.lead.toList (itemTexts spacing ds)).length < fuel + 1) :
    Json.items strict (fuel + 1) (some room) ((text spacing d).toList ++
      (joined spacing.lead.toList (itemTexts spacing ds) ++ (outer.lead.toList ++ ']' :: rest))) =
        .ok (d :: ds, rest) := by
  rw [checkItems] at h
  obtain ⟨⟨⟩, hd, hds⟩ := bind_eq_ok_iff.mp h
  -- a number ends where its text does: what follows an item cannot go on with it
  have hfollow := @startsNot_joined outer ']' (by unfold GoesOn; decide) spacing.lead.toList
    (itemTexts spacing ds) rest
  rw [List.length_append] at hfuel
  rw [Json.items, ih.value hd hplain.1 hroom (by omega) hfollow]
  simp only [ok_bind]
  cases ds with
  | nil =>
    rw [itemTexts, joined, List.flatMap_nil, List.nil_append, skip_lead rfl]
    rfl
  | cons next ds =>
    rw [itemTexts, joined_cons] at hfuel ⊢
    simp only [List.cons_append, List.append_assoc, List.length_cons, List.length_append] at hfuel ⊢
    rw [skip_cons rfl]
    change (Json.items strict fuel (some room) (skip _) >>= _) = _
    rw [skip_lead_text hplain.2.1, ih.items hds hplain.2 hroom]
    · rfl
    · rw [List.length_append]
      omega

theorem fields_succ (ih : ReadsBack fuel) {outer : Spacing} {key : LooseText} {d : Document}
    {fs : List (LooseText × Document)} (h : checkFields k ((key, d) :: fs) = .ok ())
    (hplain : FieldsArePlain ((key, d) :: fs)) (hroom : k ≤ room)
    (hfuel : 2 * ((stringText key.shown ++ spacing.colon ++ text spacing d).toList ++
      joined spacing.lead.toList (fieldTexts spacing fs)).length < fuel + 1) :
    Json.fields strict (fuel + 1) (some room)
      ((stringText key.shown ++ spacing.colon ++ text spacing d).toList ++
        (joined spacing.lead.toList (fieldTexts spacing fs) ++
          (outer.lead.toList ++ '\x7d' :: rest))) = .ok ((key, d) :: fs, rest) := by
  rw [checkFields] at h
  obtain ⟨⟨⟩, hkey, h⟩ := bind_eq_ok_iff.mp h
  obtain ⟨⟨⟩, hd, hfs⟩ := bind_eq_ok_iff.mp h
  obtain ⟨name, rfl⟩ := exists_sound_of_checkText hkey
  have hfollow := @startsNot_joined outer '\x7d' (by unfold GoesOn; decide) spacing.lead.toList
    (fieldTexts spacing fs) rest
  rw [toList_field] at hfuel ⊢
  simp only [List.cons_append, List.append_assoc, List.length_cons, List.length_append] at hfuel ⊢
  obtain ⟨cs, hcolon, hvalue⟩ := @exists_skip_colon spacing d hplain.1
    (joined spacing.lead.toList (fieldTexts spacing fs) ++ (outer.lead.toList ++ '\x7d' :: rest))
  rw [Json.fields]
  simp only [LooseText.shown, string?_stringChars, required, ok_bind, hcolon, hvalue]
  rw [ih.value hd hplain.1 hroom (by omega) hfollow]
  simp only [ok_bind]
  cases fs with
  | nil =>
    rw [fieldTexts, joined, List.flatMap_nil, List.nil_append, skip_lead rfl]
    rfl
  | cons next fs =>
    obtain ⟨key, d'⟩ := next
    rw [fieldTexts, joined_cons] at hfuel ⊢
    simp only [List.cons_append, List.append_assoc, List.length_cons, List.length_append] at hfuel ⊢
    rw [skip_cons rfl]
    change (Json.fields strict fuel (some room) (skip _) >>= _) = _
    rw [toList_field, List.cons_append, skip_lead rfl, ← List.cons_append, ← toList_field,
      ih.fields hfs hplain.2 hroom]
    · rfl
    · rw [List.length_append]
      omega

end ReadsBack

theorem readsBack (fuel : Nat) : ReadsBack fuel := by
  induction fuel with
  | zero =>
    -- no text is empty, so none is short enough
    refine ⟨fun _ hplain _ hfuel _ => ?_, nofun, nofun⟩
    obtain ⟨c, cs, hcs, -⟩ := exists_text_eq_cons _ hplain
    rw [hcs, List.length_cons] at hfuel
    omega
  | succ fuel ih => exact ⟨ih.value_succ, ih.items_succ, ih.fields_succ⟩

end Json

/-- The conditions under which a document is written so that it can be read back, where there is
room for some levels of lists and objects. -/
structure Writable (room : Nat) (document : Document) : Prop where
  check : Json.check room document = .ok ()
  plain : document.IsPlain

section Writable

variable {room : Nat}

theorem writable_bool (b : Bool) : Writable room (bool b) := ⟨rfl, trivial⟩

theorem writable_string {t : LooseText} (h : t.IsSound) : Writable room (string t) := by
  obtain ⟨s, rfl⟩ := h
  exact ⟨rfl, trivial⟩

theorem writable_int {n : Int} (h : Json.wordRange.1 ≤ n ∧ n ≤ Json.wordRange.2) :
    Writable room (int n) :=
  ⟨if_pos h, trivial⟩

theorem writable_float {x : Float} (h : x.isFinite = true) : Writable room (float x) := ⟨rfl, h⟩

theorem writable_list {items : List Document} (h : ∀ item ∈ items, item.Writable room) :
    Writable (room + 1) (list items) := by
  have hitems : Json.checkItems room items = .ok () ∧ ArePlain items := by
    induction items with
    | nil => exact ⟨rfl, trivial⟩
    | cons item rest ih =>
      obtain ⟨hitem, hrest⟩ := List.forall_mem_cons.mp h
      obtain ⟨hcheck, hplain⟩ := ih hrest
      exact ⟨by rw [Json.checkItems, hitem.check, ok_bind, hcheck], hitem.plain, hplain⟩
  exact ⟨hitems.1, hitems.2⟩

theorem writable_object {fields : List (LooseText × Document)} (hkeys : (fields.map (·.1)).Nodup)
    (h : ∀ field ∈ fields, Json.checkText field.1 = .ok () ∧ field.2.Writable room) :
    Writable (room + 1) (object fields) := by
  have hfields : Json.checkFields room fields = .ok () ∧ FieldsArePlain fields := by
    clear hkeys
    induction fields with
    | nil => exact ⟨rfl, trivial⟩
    | cons field rest ih =>
      obtain ⟨key, value⟩ := field
      obtain ⟨⟨hkey, hvalue⟩, hrest⟩ := List.forall_mem_cons.mp h
      obtain ⟨hcheck, hplain⟩ := ih hrest
      refine ⟨?_, hvalue.plain, hplain⟩
      rw [Json.checkFields, hkey, ok_bind, hvalue.check, ok_bind, hcheck]
  exact ⟨hfields.1, hkeys, hfields.2⟩

end Writable

namespace Json

/-- A document that can be written is written. -/
theorem write?_of_writable (h : document.Writable writtenDepth) (spacing : Spacing) :
    write? spacing document = .ok (text spacing document) := by
  rw [write?, h.check]
  rfl

/-- The text of a document that can be written is read as this document. -/
theorem read_text (h : document.Writable writtenDepth) (spacing : Spacing) :
    read strict (text spacing document) = .ok document := by
  obtain ⟨c, cs, hcs, hc⟩ := exists_text_eq_cons spacing h.plain
  have hskip : skip (text spacing document).toList = (text spacing document).toList := by
    rw [hcs, skip_cons hc.blank]
  have hdepth : strict.depth = some 1024 := rfl
  have hvalue : value strict (2 * (text spacing document).toList.length + 2) (some 1024)
      ((text spacing document).toList ++ []) = .ok (document, []) :=
    (readsBack _).value h.check h.plain (by decide) (by omega) nofun
  rw [List.append_nil] at hvalue
  rw [read, hskip, hdepth, hvalue]
  rfl

end Json

end ClusterBalance.Document
