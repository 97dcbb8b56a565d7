import Mathlib.Data.List.TakeWhile
import Mathlib.Data.String.Basic
import ClusterBalance.FileName

/-! Names of files without directories. Main statement: a name without slashes is the only part of
its path, which is plain. -/

namespace ClusterBalance.FileName

open String

/-- By induction on the characters that are left: none of them ends a part. -/
theorem splitOnAux_of_notMem (l r : List Char) (h : '/' ∉ r) :
    String.splitOnAux (ofList (l ++ r)) "/" 0 ⟨utf8Len l⟩ 0 [] = [ofList (l ++ r)] := by
  induction r generalizing l with
  | nil =>
    have hend : Pos.Raw.atEnd (ofList (l ++ [])) ⟨utf8Len l⟩ = true := (atEnd_of_valid l []).mpr rfl
    have hwhole : Pos.Raw.extract (ofList (l ++ [])) 0 ⟨utf8Len l⟩ = ofList l := by
      simpa using extract_of_valid [] l []
    rw [String.splitOnAux, if_pos hend]
    show [Pos.Raw.extract (ofList (l ++ [])) 0 ⟨utf8Len l⟩] = _
    rw [hwhole, List.append_nil]
  | cons c r ih =>
    rw [List.mem_cons, not_or] at h
    have hend : ¬Pos.Raw.atEnd (ofList (l ++ c :: r)) ⟨utf8Len l⟩ = true := by
      rw [atEnd_of_valid]
      exact nofun
    have hget : Pos.Raw.get (ofList (l ++ c :: r)) ⟨utf8Len l⟩ = c := get_of_valid l (c :: r)
    have hne : ¬(c == Pos.Raw.get "/" 0) = true := by
      rw [beq_iff_eq]
      exact fun heq => h.1 heq.symm
    have hstart : Pos.Raw.unoffsetBy ⟨utf8Len l⟩ 0 = ⟨utf8Len l⟩ := rfl
    have hnext : Pos.Raw.next (ofList (l ++ c :: r)) ⟨utf8Len l⟩ = ⟨utf8Len (l ++ [c])⟩ := by
      rw [next_of_valid, utf8Len_append, utf8Len_cons, utf8Len_nil, Nat.zero_add]
    rw [String.splitOnAux, if_neg hend, hget, if_neg hne, hstart, hnext]
    simpa using ih (l ++ [c]) h.2

theorem splitOn_of_notMem {s : String} (h : '/' ∉ s.toList) : s.splitOn "/" = [s] := by
  have haux := splitOnAux_of_notMem [] s.toList h
  rw [List.nil_append, String.ofList_toList] at haux
  rw [String.splitOn, if_neg (by decide)]
  exact haux

section

variable {s : String} (h : '/' ∉ s.toList) (hempty : s ≠ "") (hdot : s ≠ ".")
include h hempty hdot

theorem parts_of_notMem : parts s = [s] := by
  rw [parts, splitOn_of_notMem h]
  simp [hempty, hdot]

theorem plain_of_notMem : plain s = s := by
  have hroot : root s = "" := by
    have hnone : s.toList.takeWhile (· = '/') = [] := by
      rw [List.takeWhile_eq_nil_iff]
      intro hlt hfirst
      rw [decide_eq_true_eq] at hfirst
      exact h (hfirst ▸ List.getElem_mem hlt)
    rw [root, hnone]
  have hwhole : root s ++ "/".intercalate (parts s) = s := by
    rw [hroot, parts_of_notMem h hempty hdot, String.empty_append]
    rfl
  simp only [plain, hwhole, if_neg hempty]

theorem last_of_notMem : last s = s := by
  rw [last, parts_of_notMem h hempty hdot]
  rfl

end

end ClusterBalance.FileName
