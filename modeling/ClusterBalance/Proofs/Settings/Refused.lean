import ClusterBalance.CommandLine.Run
import ClusterBalance.Proofs.FileName
import ClusterBalance.Proofs.Settings.Demands

/-! How the files of settings are refused. Main statement: settings are read, or refused for an
invalid value, which a run reports; but where the settings are no table, or where the first demand
that is not met has a value that is too large or nests too deep to be quoted, a run ends with the
fault. -/

namespace ClusterBalance.Settings

open Document

/-- The document that the text of a settings file holds, by the type of the file. -/
inductive Holds [Limits] (path text : String) : Document → Prop
  | json (document : Document) (hname : FileName.fault? (FileName.plain path) = none)
      (htype : Text.asciiLower (FileName.type path) = ".json")
      (h : Json.read Json.lenient text = .ok document) : Holds path text document
  | toml (fields : List (LooseText × Document))
      (hname : FileName.fault? (FileName.plain path) = none)
      (htype : Text.asciiLower (FileName.type path) = ".toml")
      (h : Toml.read text = .ok fields) : Holds path text (.object fields)

/-- A document ends the reading of settings with a fault of a class that is not expected: its
settings are no table, or their first demand that is not met breaks it. -/
inductive Escapes [Limits] : Document → ErrorClass → Prop
  | noTable (fields : List (LooseText × Document))
      (h : ∀ table, findD tableName (.object []) fields ≠ .object table) :
      Escapes (.object fields) .missingMember
  | demand (fields table : List (LooseText × Document)) (demand : Demand) (c : ErrorClass)
      (h : findD tableName (.object []) fields = .object table)
      (hfirst : FirstUnmet (demands table) demand) (hbreaks : demand.Breaks c) :
      Escapes (.object fields) c

/-- Settings are read from a document, or refused for an invalid value, or the document ends the
reading with a class of its own. -/
structure Ends [Limits] (document : Document) (x : Except Refusal Settings) : Prop where
  escapes : ∀ c, Escapes document c → ∃ e, x = .error e ∧ e.fault.errorClass = c
  expected : (∀ c, ¬Escapes document c) →
    (∃ settings, x = .ok settings) ∨ ∃ e, x = .error e ∧ e.fault.errorClass = .invalidValue

section Documents

variable [Limits] {path text : String} {document : Document} {c : ErrorClass}

theorem errorClass_of_escapes (h : Escapes document c) :
    c = .missingMember ∨ c = .tooDeep ∨ c = .overflow := by
  cases h with
  | noTable => exact .inl rfl
  | demand _ _ _ _ _ _ hbreaks =>
    cases hbreaks with
    | deep => exact .inr (.inl rfl)
    | large => exact .inr (.inr rfl)

/-- A computation that follows demands ends as the first of them that is not met says. -/
theorem Follows.ends {x : Except Refusal Settings} {ds : List Demand}
    (h : Follows Refusal.fault True x ds)
    (hescapes : ∀ c, Escapes document c ↔ ∃ demand, FirstUnmet ds demand ∧ demand.Breaks c) :
    Ends document x := by
  constructor
  · intro c hc
    obtain ⟨demand, hfirst, hbreaks⟩ := (hescapes c).mp hc
    cases hx : x with
    | ok settings => exact absurd (h.met settings hx) hfirst.not_met
    | error e =>
      refine ⟨e, rfl, ?_⟩
      rcases h.refused e hx with ⟨demand', hfirst', hexplains⟩ | ⟨-, hmet, -⟩
      · obtain rfl := hfirst.unique hfirst'
        rcases hexplains with hbreaks' | ⟨-, hnot⟩
        · exact hbreaks'.unique hbreaks
        · exact absurd hbreaks (hnot c)
      · exact absurd hmet hfirst.not_met
  · intro hnot
    cases hx : x with
    | ok settings => exact .inl ⟨settings, rfl⟩
    | error e =>
      refine .inr ⟨e, rfl, ?_⟩
      rcases h.refused e hx with ⟨demand, hfirst, hbreaks | ⟨hclass, -⟩⟩ | ⟨-, -, hclass⟩
      · exact absurd ((hescapes _).mpr ⟨demand, hfirst, hbreaks⟩) (hnot _)
      · exact hclass
      · exact hclass

theorem ends_ofFields (fields : List (LooseText × Document)) :
    Ends (.object fields) (ofFields fields) := by
  unfold ofFields
  by_cases htable : ∃ table, findD tableName (.object []) fields = .object table
  · obtain ⟨table, htable⟩ := htable
    rw [htable]
    refine (follows_ofDocument table).ends fun c => ⟨?_, ?_⟩
    · rintro (⟨_, hnot⟩ | ⟨_, _, demand, _, h, hfirst, hbreaks⟩)
      · exact absurd htable (hnot table)
      · cases htable.symm.trans h
        exact ⟨demand, hfirst, hbreaks⟩
    · rintro ⟨demand, hfirst, hbreaks⟩
      exact .demand fields table demand c htable hfirst hbreaks
  · have hnot : ∀ table, findD tableName (.object []) fields ≠ .object table :=
      fun table h => htable ⟨table, h⟩
    have hescapes : Escapes (.object fields) .missingMember := .noTable fields hnot
    refine ⟨?_, fun h => absurd hescapes (h _)⟩
    rintro c (_ | ⟨_, table, _, _, h, -, -⟩)
    · cases hvalue : findD tableName (.object []) fields with
      | object table => exact absurd hvalue (hnot table)
      | _ => exact ⟨_, rfl, rfl⟩
    · exact absurd h (hnot table)

/-- A file is read as its document says. One that holds no object is refused at once. -/
theorem ends_ofFile (h : Holds path text document) : Ends document (ofFile path (some text)) := by
  have hreader {reader : String → Except Refusal Settings}
      (hname : FileName.fault? (FileName.plain path) = none)
      (hkind : readerFor path = .ok reader) : ofFile path (some text) = reader text := by
    have htext : requireText (FileName.plain path) (some text) = .ok text := by
      simp only [requireText, hname]
    rw [ofFile, hkind, ok_bind, htext, ok_bind]
  cases h with
  | json document hname htype h =>
    have hkind : readerFor path = .ok (ofJson (FileName.plain path)) := by
      simp [readerFor, htype]
    rw [hreader hname hkind, ofJson, h, accept, ok_bind]
    cases document with
    | object fields => exact ends_ofFields fields
    | _ => exact ⟨nofun, fun _ => .inr ⟨_, rfl, rfl⟩⟩
  | toml fields hname htype h =>
    have hkind : readerFor path = .ok ofToml := by
      simp [readerFor, htype]
    rw [hreader hname hkind, ofToml, h, accept, ok_bind]
    exact ends_ofFields fields

end Documents

section Runs

open CommandLine

variable {path text : String} {document : Document}

/-- How a run goes on that is given a file of settings. -/
structure Reported [Limits] (path text : String) (document : Document) : Prop where
  escapes : ∀ c, Escapes document c → (c = .missingMember ∨ c = .tooDeep ∨ c = .overflow) ∧
    ∃ e, ofFile path (some text) = .error e ∧ e.fault.errorClass = c ∧
      readSettings (some (path, some text)) = .error (.escape e.fault)
  expected : (∀ c, ¬Escapes document c) →
    (∃ settings, ofFile path (some text) = .ok settings ∧
      readSettings (some (path, some text)) = .ok settings) ∨
    ∃ e, ofFile path (some text) = .error e ∧ e.fault.errorClass = .invalidValue ∧
      readSettings (some (path, some text)) =
        .error (.failure
          ("Invalid settings file " ++ FileName.plain path ++ ": " ++ e.fault.message))

theorem readSettings_of_error [Limits] {e : Refusal} (h : ofFile path (some text) = .error e) :
    readSettings (some (path, some text)) =
      if e.fault.errorClass.isInvalidValue ∨ e.fault.errorClass = .missingFile then
        .error (.failure
          ("Invalid settings file " ++ FileName.plain path ++ ": " ++ e.fault.message))
      else .error (.escape e.fault) := by
  rw [readSettings, ofExistingFile, h]

/-- Settings are read from a file, or it is reported that it has an invalid value; only where its
settings are no table, or where the first demand that is not met breaks them, the run ends with the
fault. -/
theorem reported [Limits] (h : Holds path text document) : Reported path text document := by
  have hends := ends_ofFile h
  constructor
  · intro c hc
    obtain ⟨e, he, rfl⟩ := hends.escapes c hc
    have hclass := errorClass_of_escapes hc
    refine ⟨hclass, e, he, rfl, ?_⟩
    rw [readSettings_of_error he, if_neg]
    rcases hclass with hclass | hclass | hclass <;> rw [hclass] <;> decide
  · intro hnot
    rcases hends.expected hnot with ⟨settings, hs⟩ | ⟨e, he, hclass⟩
    · refine .inl ⟨settings, hs, ?_⟩
      rw [readSettings, ofExistingFile, hs]
    · refine .inr ⟨e, he, hclass, ?_⟩
      rw [readSettings_of_error he, if_pos]
      rw [hclass]
      decide

/-- A file whose settings are a number. -/
def numberText : String := "\x7b\"clusterstats\": 5\x7d"

/-- Whether a text holds an object whose settings are no table. -/
def lacksTable [Limits] (text : String) : Bool :=
  match Json.read Json.lenient text with
  | .ok (.object fields) =>
    match findD tableName (.object []) fields with
    | .object _ => false
    | _ => true
  | _ => false

theorem holds_json [Limits] {document : Document} (h : Json.read Json.lenient text = .ok document) :
    Holds "s.json" text document := by
  have hslash : '/' ∉ "s.json".toList := by decide
  have hparts := FileName.parts_of_notMem hslash (by decide) (by decide)
  have hplain := FileName.plain_of_notMem hslash (by decide) (by decide)
  have hlast := FileName.last_of_notMem hslash (by decide) (by decide)
  have hname : FileName.fault? (FileName.plain "s.json") = none := by
    rw [hplain, FileName.fault?, FileName.soughtParts, hparts]
    decide +kernel
  have htype : Text.asciiLower (FileName.type "s.json") = ".json" := by
    rw [FileName.type, hlast]
    decide +kernel
  exact .json document hname htype h

/-- The run for such a file ends with the fault that a number has no members. -/
theorem reported_numberText :
    let _ : Limits := Limits.measured
    ∃ document, Holds "s.json" numberText document ∧ Escapes document .missingMember ∧
      ∃ e, ofFile "s.json" (some numberText) = .error e ∧ e.fault.errorClass = .missingMember ∧
        readSettings (some ("s.json", some numberText)) = .error (.escape e.fault) := by
  intro _
  have hlacks : lacksTable numberText = true := by decide +kernel
  unfold lacksTable at hlacks
  split at hlacks
  next fields hread =>
    have hholds : Holds "s.json" numberText (.object fields) := holds_json hread
    have hescapes : Escapes (.object fields) .missingMember := by
      refine .noTable fields fun table htable => ?_
      rw [htable] at hlacks
      cases hlacks
    exact ⟨_, hholds, hescapes, ((reported hholds).escapes _ hescapes).2⟩
  next => cases hlacks

end Runs

end ClusterBalance.Settings
