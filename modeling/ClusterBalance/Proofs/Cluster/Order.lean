import Mathlib
import ClusterBalance.Proofs.Alike
import ClusterBalance.Proofs.Cluster.Answers

/-! The order in which brokers are given. Main statements: brokers with different ids make the same
cluster in any order, or are refused for the same reason, and their tables give the same answers. -/

namespace ClusterBalance

namespace Cluster

variable {α : Type} {brokers brokers' : List (Broker α)}

theorem eq_of_perm_of_ordered {xs ys : List (Broker α)} (hperm : xs.Perm ys)
    (hxs : xs.Pairwise fun a b => a.id < b.id) (hys : ys.Pairwise fun a b => a.id < b.id) :
    xs = ys := by
  apply hperm.eq_of_pairwise _ hxs hys
  intro a b _ _ hab hba
  omega

theorem inOrder_eq_of_perm (hids : (brokers.map (·.id)).Nodup) (hperm : brokers.Perm brokers') :
    inOrder brokers = inOrder brokers' := by
  have hids' : (brokers'.map (·.id)).Nodup := (hperm.map _).nodup_iff.mp hids
  have hsame : (inOrder brokers).Perm (inOrder brokers') :=
    (inOrder_perm brokers).trans (hperm.trans (inOrder_perm brokers').symm)
  exact eq_of_perm_of_ordered hsame (inOrder_pairwise hids) (inOrder_pairwise hids')

theorem firstRepeat?_ids (hids : (brokers.map (·.id)).Nodup) :
    firstRepeat? [] (brokers.map (·.id)) = none :=
  (firstRepeat?_eq_none_iff [] _).mpr ⟨hids, fun _ _ => List.not_mem_nil⟩

theorem make_eq_of_perm (hids : (brokers.map (·.id)).Nodup) (hperm : brokers.Perm brokers')
    (ratio : Float) (windows : Int) :
    make brokers ratio windows = make brokers' ratio windows := by
  have hids' : (brokers'.map (·.id)).Nodup := (hperm.map _).nodup_iff.mp hids
  simp only [make, firstRepeat?_ids hids, firstRepeat?_ids hids', inOrder_eq_of_perm hids hperm]

/-- Two tables of brokers that give the same answers: only the order in which the ids were entered
may differ, and that shows nowhere. -/
structure Tables.Same (t t' : Tables α) : Prop where
  broker : ∀ id, t.byId.lookup id = t'.byId.lookup id
  members : t.members = t'.members
  leaders : t.leaders = t'.leaders
  counts : t.counts = t'.counts

theorem lookup_ids_eq_of_perm (hids : (brokers.map (·.id)).Nodup) (hperm : brokers.Perm brokers')
    (id : Nat) :
    (brokers.map fun b => (b.id, b)).lookup id = (brokers'.map fun b => (b.id, b)).lookup id := by
  have hids' : (brokers'.map (·.id)).Nodup := (hperm.map _).nodup_iff.mp hids
  have hentries := Table.lookup_map_entries (fun b : Broker α => b.id) (fun b => b)
  rw [hentries, hentries, Option.map_id', Option.map_id']
  apply Option.ext
  intro b
  rw [find?_eq_some_iff_of_nodup _ hids, find?_eq_some_iff_of_nodup _ hids', hperm.mem_iff]

theorem build_alike_of_perm (hids : (brokers.map (·.id)).Nodup) (hperm : brokers.Perm brokers') :
    Alike Tables.Same (Tables.build brokers) (Tables.build brokers') := by
  have hids' : (brokers'.map (·.id)).Nodup := (hperm.map _).nodup_iff.mp hids
  rw [Tables.build_eq, Tables.build_eq, firstRepeat?_ids hids, firstRepeat?_ids hids',
    inOrder_eq_of_perm hids hperm]
  cases firstRepeat? [] (ledPartitions (inOrder brokers')) with
  | some p => exact .refused _
  | none => exact .given ⟨lookup_ids_eq_of_perm hids hperm, rfl, rfl, rfl⟩

end Cluster

end ClusterBalance
