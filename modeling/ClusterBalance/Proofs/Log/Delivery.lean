import Mathlib.Data.List.Basic
import ClusterBalance.Log

/-! Which records are written, and how often. Main statement: the handlers for a level write a
record once if it is severe enough or a debug record of a module in one of the scopes, and else not
at all; only at the level below that of debugging do they write such debug records twice. -/

namespace ClusterBalance.Log

section Levels

variable {l : Level}

@[simp] theorem ofName?_name (l : Level) : Level.ofName? l.name = some l := by
  cases l <;> decide

/-- Only a level is marked with its name. -/
theorem name_eq_iff {m : Mark} : m.name = l.name ↔ m = l := by
  constructor
  · intro h
    cases m with
    | level l' =>
      have hsame : some l' = some l := by
        rw [← ofName?_name l', ← ofName?_name l]
        exact congrArg Level.ofName? h
      rw [Option.some.inj hsame]
    | other name severity fresh =>
      have hnone : Level.ofName? l.name = none := h ▸ fresh
      rw [ofName?_name] at hnone
      cases hnone
  · rintro rfl
    rfl

theorem severity_le_debug_iff :
    l.severity ≤ Level.debug.severity ↔ l = .trace ∨ l = .debug := by
  cases l <;> decide

theorem upperChar_eq {c : Char} (h : c.toUpper.isUpper) : Text.upperChar c = [c.toUpper] := by
  -- a capital letter comes of a character below 128, and of those each one is looked at
  have hall : ∀ n : Fin 128, (Char.ofNat n).toUpper.isUpper →
      Text.upperChar (Char.ofNat n) = [(Char.ofNat n).toUpper] := by
    decide +kernel
  have hlt : c.toNat < 128 := by
    have hbounds : 'A'.val ≤ c.toUpper.val ∧ c.toUpper.val ≤ 'Z'.val := of_decide_eq_true h
    have hle : c.toUpper.toNat ≤ 90 := UInt32.le_iff_toNat_le.mp hbounds.2
    unfold Char.toUpper at hle
    split at hle
    next hsmall =>
      have hz : c.toNat ≤ 122 := UInt32.le_iff_toNat_le.mp hsmall.2
      omega
    next => omega
  have hc := hall ⟨c.toNat, hlt⟩
  rw [Char.ofNat_toNat] at hc
  exact hc h

/-- A name in any mix of small and capital letters is that of its level. -/
theorem upper_eq_name {s : String} (h : s.toList.map Char.toUpper = l.name.toList) :
    Text.upper s = l.name := by
  have hall : l.name.toList.all Char.isUpper = true := by cases l <;> decide
  have hcapitals : ∀ c ∈ l.name.toList, c.isUpper := List.all_eq_true.mp hall
  have hchars : ∀ c ∈ s.toList, Text.upperChar c = [c.toUpper] := fun c hc =>
    upperChar_eq (hcapitals _ (h ▸ List.mem_map_of_mem hc))
  calc Text.upper s = String.ofList (s.toList.flatMap fun c => [c.toUpper]) :=
        congrArg String.ofList (List.flatMap_congr hchars)
    _ = String.ofList l.name.toList := by rw [← List.map_eq_flatMap, h]
    _ = l.name := String.ofList_toList

end Levels

section Scopes

/-- A module lies in a scope: its name starts with the scope, or, where the scope leaves that out,
with the start of the names of all modules of the program and then the scope. -/
def Covers (scope source : String) : Prop :=
  scope.toList <+: source.toList ∨
    ¬packageStart.toList <+: scope.toList ∧ (packageStart ++ scope).toList <+: source.toList

/-- A debug record of a module in one of some scopes. Blank scopes do not count, nor does the white
space around the others. -/
structure Scoped (scopes : List String) (r : Record) : Prop where
  level : r.level = Level.debug
  module : ∃ source, r.source = some source ∧
    ∃ scope ∈ scopes, Text.strip scope ≠ "" ∧ Covers (Text.strip scope) source

variable {scope source : String} {scopes : List String} {r : Record}

theorem inScope_iff : inScope source scope = true ↔ Covers scope source := by
  simp [inScope, Covers, List.isPrefixOf_iff_prefix, Bool.or_eq_true, ← Bool.not_eq_true]

theorem not_covers_empty (h : scope ≠ "") : ¬Covers scope "" := by
  rintro (hnamed | ⟨-, hnamed⟩)
  · exact h (String.toList_eq_nil_iff.mp (List.prefix_nil.mp hnamed))
  · have hnil := List.prefix_nil.mp hnamed
    simp [packageStart] at hnil

theorem mem_cleanScopes_iff :
    scope ∈ cleanScopes scopes ↔ (∃ s ∈ scopes, Text.strip s = scope) ∧ scope ≠ "" := by
  simp [cleanScopes]

/-- A record without a module lies in no scope, though its module counts as an empty name. -/
theorem acceptsScoped_iff :
    acceptsScoped (cleanScopes scopes) r.level.name r.source = true ↔ Scoped scopes r := by
  have hlevel : r.level.name = Level.debug.name ↔ r.level = Level.debug := name_eq_iff
  have hany : (cleanScopes scopes).any (inScope (r.source.getD "")) = true ↔
      ∃ source, r.source = some source ∧
        ∃ scope ∈ scopes, Text.strip scope ≠ "" ∧ Covers (Text.strip scope) source := by
    rw [List.any_eq_true]
    constructor
    · rintro ⟨_, hmem, hin⟩
      obtain ⟨⟨scope, hscope, rfl⟩, hne⟩ := mem_cleanScopes_iff.mp hmem
      have hcovers := inScope_iff.mp hin
      cases hsource : r.source with
      | none =>
        rw [hsource] at hcovers
        exact absurd hcovers (not_covers_empty hne)
      | some source =>
        rw [hsource] at hcovers
        exact ⟨source, rfl, scope, hscope, hne, hcovers⟩
    · rintro ⟨source, hsource, scope, hscope, hne, hcovers⟩
      refine ⟨Text.strip scope, mem_cleanScopes_iff.mpr ⟨⟨scope, hscope, rfl⟩, hne⟩, ?_⟩
      rw [hsource]
      exact inScope_iff.mpr hcovers
  rw [acceptsScoped, Bool.and_eq_true, decide_eq_true_eq, hlevel, hany]
  exact ⟨fun ⟨h, h'⟩ => ⟨h, h'⟩, fun ⟨h, h'⟩ => ⟨h, h'⟩⟩

instance : Decidable (Scoped scopes r) := decidable_of_iff _ acceptsScoped_iff

theorem Scoped.cleanScopes_ne_nil (h : Scoped scopes r) : cleanScopes scopes ≠ [] := by
  obtain ⟨source, -, scope, hscope, hne, -⟩ := h.module
  exact List.ne_nil_of_mem (mem_cleanScopes_iff.mpr ⟨⟨scope, hscope, rfl⟩, hne⟩)

end Scopes

section Delivery

variable {level : String} {l : Level} {scopes : List String} {r : Record}

/-- How often a record is written at a level and with some debug scopes. -/
def copies (l : Level) (scopes : List String) (r : Record) : Nat :=
  if l = .trace ∧ Scoped scopes r then 2
  else if l.severity ≤ r.level.severity ∨ Scoped scopes r then 1
  else 0

theorem written_eq (handlers : List Handler) (records : List Record) :
    written handlers records =
      records.flatMap fun r => List.replicate (handlers.countP (·.takes r)) r.line := by
  simp only [written, List.map_const', List.countP_eq_length_filter]

theorem takes_plain : (⟨l, none⟩ : Handler).takes r = decide (l.severity ≤ r.level.severity) := by
  rw [Handler.takes, Bool.and_true]

/-- The handler for scopes takes their debug records, which are all severe enough for it. -/
theorem takes_scoped : (⟨.debug, some (cleanScopes scopes)⟩ : Handler).takes r =
    decide (Scoped scopes r) := by
  rw [Bool.eq_iff_iff, Handler.takes, Bool.and_eq_true, acceptsScoped_iff, decide_eq_true_eq,
    decide_eq_true_eq]
  refine ⟨And.right, fun h => ⟨?_, h⟩⟩
  rw [h.level]
  exact Nat.le_refl _

theorem Scoped.severity_le_iff (h : Scoped scopes r) :
    l.severity ≤ r.level.severity ↔ l = .trace ∨ l = .debug := by
  rw [h.level]
  exact severity_le_debug_iff

/-- Where the scopes have no handler of their own, each debug record in one of them is severe
enough. -/
theorem countP_plain (h : cleanScopes scopes = [] ∨ l = .debug) :
    [(⟨l, none⟩ : Handler)].countP (·.takes r) = copies l scopes r := by
  simp only [List.countP_singleton, takes_plain, decide_eq_true_eq, copies]
  by_cases hscoped : Scoped scopes r
  · have hl : l = .debug := h.resolve_left hscoped.cleanScopes_ne_nil
    have hsevere : l.severity ≤ r.level.severity := hscoped.severity_le_iff.mpr (.inr hl)
    have hnot : l ≠ .trace := by rw [hl]; decide
    simp [hscoped, hsevere, hnot]
  · simp [hscoped]

/-- Of two handlers the one for the scopes takes what the other one leaves, unless that takes all
debug records. -/
theorem countP_both (h : l ≠ .debug) :
    [⟨l, none⟩, (⟨.debug, some (cleanScopes scopes)⟩ : Handler)].countP (·.takes r) =
      copies l scopes r := by
  simp only [List.countP_cons, List.countP_nil, takes_plain, takes_scoped, decide_eq_true_eq,
    copies]
  by_cases hscoped : Scoped scopes r
  · have hsevere : l.severity ≤ r.level.severity ↔ l = .trace := by
      simp [hscoped.severity_le_iff, h]
    simp only [hsevere, hscoped, and_true, or_true, if_true]
    split <;> rfl
  · simp [hscoped]

/-- At every level, in any case, a record is written once if it is severe enough or a debug record
in one of the scopes, and else not at all; but a debug record in one of the scopes is written twice
at the level that lets all debug records pass anyway and is not that of debugging itself. -/
theorem written_configure (h : Text.upper level = l.name) (scopes : List String) :
    ∃ handlers, configure level scopes = .ok handlers ∧ ∀ records,
      written handlers records =
        records.flatMap fun r => List.replicate (copies l scopes r) r.line := by
  have hname : Level.ofName? (Text.upper level) = some l := by rw [h, ofName?_name]
  by_cases hplain : cleanScopes scopes = [] ∨ l = .debug
  · refine ⟨[⟨l, none⟩], ?_, fun records => ?_⟩
    · simp [configure, hname, hplain]
    · simp only [written_eq, countP_plain hplain]
  · refine ⟨[⟨l, none⟩, ⟨.debug, some (cleanScopes scopes)⟩], ?_, fun records => ?_⟩
    · simp [configure, hname, hplain]
    · rw [not_or] at hplain
      simp only [written_eq, countP_both hplain.2]

/-- A debug record of the module that measures clusters. -/
def measuringRecord : Record := ⟨Level.debug, some "clusterstats.core", "populate", "done"⟩

/-- Below the level of debugging, such a record is written twice if its module is in a scope. -/
theorem written_configure_trace : Text.upper "Trace" = Level.trace.name ∧
    ∃ handlers, configure "Trace" ["", " core "] = .ok handlers ∧
      written handlers [measuringRecord] = [measuringRecord.line, measuringRecord.line] := by
  have hname : Text.upper "Trace" = Level.trace.name := upper_eq_name (by decide)
  obtain ⟨handlers, hconfigure, hwritten⟩ := written_configure hname ["", " core "]
  have hcopies : copies .trace ["", " core "] measuringRecord = 2 := by decide +kernel
  refine ⟨hname, handlers, hconfigure, ?_⟩
  rw [hwritten, List.flatMap_singleton, hcopies]
  rfl

end Delivery

end ClusterBalance.Log
