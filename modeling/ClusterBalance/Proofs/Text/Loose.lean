import Mathlib.Data.List.Lex
import Mathlib.Logic.Function.Basic
import Mathlib.Order.Lattice
import ClusterBalance.Text.Loose

/-! Loose texts are determined by their symbols, and the numbers of these put them in a linear
order. -/

namespace ClusterBalance

/-- A text that has characters only. -/
def LooseText.IsSound (t : LooseText) : Prop := ∃ s, t = sound s

theorem Symbol.code_injective : Function.Injective Symbol.code := by
  have hapart (c : Char) (h : Half) : c.toNat ≠ h.unit := by
    have hvalid : c.toNat < 0xD800 ∨ 0xDFFF < c.toNat ∧ c.toNat < 0x110000 := c.valid
    have hbelow := h.index.isLt
    unfold Half.unit Half.firstUnit
    omega
  intro a b hcode
  cases a with
  | char c =>
    cases b with
    | char c' => rw [Char.toNat_inj.mp hcode]
    | half h => exact (hapart c h hcode).elim
  | half h =>
    cases b with
    | char c => exact (hapart c h hcode.symm).elim
    | half h' =>
      have hindex : h.index = h'.index := Fin.ext (Nat.add_left_cancel hcode)
      rw [show h = h' from congrArg Half.mk hindex]

namespace LooseText

theorem gather_append (before cs : List Char) (rest : List Symbol) :
    gather before (cs.map Symbol.char ++ rest) = gather (cs.reverse ++ before) rest := by
  induction cs generalizing before with
  | nil => rfl
  | cons c cs ih => simp [gather, ih]

/-- A text is made of its symbols. -/
theorem ofSymbols_symbols (t : LooseText) : ofSymbols t.symbols = t := by
  induction t with
  | sound s => simpa [ofSymbols, symbols, gather] using gather_append [] s.toList []
  | broken start half rest ih =>
    rw [symbols, ofSymbols, gather_append, gather, ← ofSymbols, ih]
    simp

theorem symbols_injective : Function.Injective symbols := fun s t h => by
  rw [← ofSymbols_symbols s, h, ofSymbols_symbols]

theorem codes_injective : Function.Injective codes :=
  (List.map_injective_iff.mpr Symbol.code_injective).comp symbols_injective

theorem symbols_append (s t : LooseText) : (s.append t).symbols = s.symbols ++ t.symbols := by
  induction s with
  | sound s => cases t <;> simp [append, symbols]
  | broken start half rest ih => simp [append, symbols, ih]

theorem lt_iff {s t : LooseText} : s < t ↔ s.codes < t.codes := Iff.rfl

theorem not_lt_iff {s t : LooseText} : ¬s < t ↔ t.codes ≤ s.codes := by
  rw [lt_iff]
  exact not_lt

theorem ne_of_lt {s t : LooseText} (h : s < t) : s ≠ t := by
  rintro rfl
  exact lt_irrefl s.codes h

theorem not_lt_of_lt {s t : LooseText} (h : s < t) : ¬t < s :=
  not_lt_iff.mpr (lt_iff.mp h).le

theorem lt_of_not_lt {s t : LooseText} (h : ¬t < s) (hne : s ≠ t) : s < t :=
  lt_iff.mpr (lt_of_le_of_ne (not_lt_iff.mp h) (codes_injective.ne hne))

end LooseText

end ClusterBalance
