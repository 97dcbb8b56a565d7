import ClusterBalance.Document.Json.Writer
import ClusterBalance.Proofs.Text.Loose

/-! Texts between quotes. Main statement: the reader gives back a text that was written with its
quotes, backslashes and control characters escaped. -/

namespace ClusterBalance.Document.Json

theorem hexValue?_digitChar {n : Nat} (h : n < 16) : hexValue? (Nat.digitChar n) = some n := by
  revert n
  decide

/-- Four hexadecimal digits are read as the number that they were written for. -/
theorem hexUnit?_hexDigits {n : Nat} (h : n < 0x10000) :
    ∃ a b c d, Text.hexDigits 4 n = [a, b, c, d] ∧ hexUnit? a b c d = some n := by
  refine ⟨_, _, _, _, rfl, ?_⟩
  have hdigit (k : Nat) : hexValue? (Nat.digitChar (k % 16)) = some (k % 16) :=
    hexValue?_digitChar (Nat.mod_lt k (by decide))
  simp only [hexUnit?, hdigit, Option.bind_eq_bind, Option.bind_some, Option.pure_def]
  congr 1
  omega

theorem symbolOfUnit_of_lt {n : Nat} (h : n < Half.firstUnit) :
    symbolOfUnit n = .char (Char.ofNat n) := by
  rw [symbolOfUnit, Half.ofUnit?, dif_neg (by omega)]

/-- What an escape leaves to be read. -/
theorem stringBody?_escapeChar (c : Char) (rest : List Char) :
    stringBody? (escapeChar c ++ rest) =
      (stringBody? rest).map fun (body, after) => (.char c :: body, after) := by
  unfold escapeChar
  split
  next h => subst h; rfl
  next hquote =>
  split
  next h => subst h; rfl
  next hbackslash =>
  split
  next h => subst h; rfl
  split
  next h => subst h; rfl
  split
  next h => subst h; rfl
  split
  next h => subst h; rfl
  split
  next h => subst h; rfl
  split
  next hcontrol =>
    obtain ⟨a, b, e, d, hdigits, hunit⟩ := hexUnit?_hexDigits (show c.toNat < 0x10000 by omega)
    have hsymbol : symbolOfUnit c.toNat = .char c := by
      rw [symbolOfUnit_of_lt (by unfold Half.firstUnit; omega), Char.ofNat_toNat]
    rw [hdigits]
    simp only [List.cons_append, List.nil_append, stringBody?, hunit, hsymbol, pushSymbol]
  next hplain =>
    have hself : ¬(c = '\\' ∨ c.toNat < 0x20) := not_or.mpr ⟨hbackslash, hplain⟩
    rw [List.singleton_append, stringBody?, if_neg hself] <;> simp_all

/-- The characters of a text are read back up to the closing quote. -/
theorem stringBody?_flatMap_escapeChar (cs rest : List Char) :
    stringBody? (cs.flatMap escapeChar ++ '"' :: rest) = some (cs.map Symbol.char, rest) := by
  induction cs with
  | nil => rfl
  | cons c cs ih =>
    rw [List.flatMap_cons, List.append_assoc, stringBody?_escapeChar, ih]
    rfl

/-- A text that was written is read back, by every reader. -/
theorem string?_stringChars (dialect : Dialect) (s : String) (rest : List Char) :
    dialect.string? (s.toList.flatMap escapeChar ++ '"' :: rest) = some (.sound s, rest) := by
  have htext : LooseText.ofSymbols (s.toList.map Symbol.char) = .sound s :=
    LooseText.ofSymbols_symbols (.sound s)
  rw [Dialect.string?, stringBody?_flatMap_escapeChar]
  simp [htext, LooseText.sound?]

end ClusterBalance.Document.Json
