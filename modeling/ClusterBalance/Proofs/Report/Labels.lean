import Mathlib
import ClusterBalance.Proofs.Cluster.Leadership
import ClusterBalance.Proofs.Cluster.Matching
import ClusterBalance.Proofs.Report.Readings
import ClusterBalance.Report.Render

/-! The names of hosts and the labels of racks. Main statement: where the hosts of a cluster get
other names that differ as the old ones do, and the racks any labels, everything that is published
stays the same, down to the refusals. No law of arithmetic is used, so this holds of the doubles as
they round. -/

namespace ClusterBalance

section Definitions

variable {α : Type}

/-- A broker under another host name and another rack label. -/
def Broker.relabelled (host : LooseText → LooseText) (rack : Broker α → LooseText) (b : Broker α) :
    Broker α :=
  { b with host := host b.host, rack := rack b }

namespace Cluster

/-- The host names that brokers of a cluster bear. -/
def hostNames (c : Cluster α) : Set LooseText := {name | ∃ b ∈ c.brokers, b.host = name}

/-- A cluster whose hosts are renamed and whose racks are labelled anew. -/
def relabelled (host : LooseText → LooseText) (rack : Broker α → LooseText) (c : Cluster α) :
    Cluster α :=
  { c with brokers := c.brokers.map (Broker.relabelled host rack) }

end Cluster

end Definitions

namespace Cluster

section Relabelled

variable {α : Type} {c : Cluster α} {host : LooseText → LooseText} (rack : Broker α → LooseText)

theorem broker_relabelled_matches (b : Broker α) (host : LooseText → LooseText) :
    b.Matches id (b.relabelled host rack) :=
  ⟨rfl, List.forall₂_same.mpr fun _ _ => ⟨rfl, rfl, rfl⟩⟩

theorem relabelled_matches (c : Cluster α) (host : LooseText → LooseText) :
    c.Matches id (c.relabelled host rack) :=
  .of_map fun b => broker_relabelled_matches rack b host

theorem healing_relabelled (c : Cluster α) (host : LooseText → LooseText) :
    (c.relabelled host rack).healing = c.healing :=
  List.flatMap_map ..

/-- Names that differ as the old ones do put the same brokers on a host. -/
theorem brokers_hostOf_relabelled (hhost : Set.InjOn host c.hostNames) {b : Broker α}
    (hb : b ∈ c.brokers) :
    ((c.relabelled host rack).hostOf (b.relabelled host rack)).brokers =
      (c.hostOf b).brokers.map (Broker.relabelled host rack) := by
  have hsame : ∀ a ∈ c.brokers, (host a.host = host b.host) = (a.host = b.host) := fun a ha =>
    propext (hhost.eq_iff ⟨a, ha, rfl⟩ ⟨b, hb, rfl⟩)
  show ((c.brokers.map _).filter _) = (c.brokers.filter _).map _
  rw [List.filter_map]
  refine congrArg _ (List.filter_congr fun a ha => ?_)
  exact decide_eq_decide.mpr (iff_of_eq (hsame a ha))

variable [Scalar α]

theorem measured_relabelled (hhost : Set.InjOn host c.hostNames) {b : Broker α}
    (hb : b ∈ c.brokers) (r : Resource) :
    c.measured r b = (c.relabelled host rack).measured r (b.relabelled host rack) := by
  have hbrokers := brokers_hostOf_relabelled rack hhost hb
  have hload : (c.hostOf b).load r =
      ((c.relabelled host rack).hostOf (b.relabelled host rack)).load r := by
    rw [Host.load, Host.load, hbrokers, List.map_map]
    rfl
  have hcapacity : (c.hostOf b).capacity r =
      ((c.relabelled host rack).hostOf (b.relabelled host rack)).capacity r := by
    rw [Host.capacity, Host.capacity, hbrokers, List.map_map]
    rfl
  rw [measured, measured, hload, hcapacity]
  rfl

/-- Nothing of what a report reads is a label. -/
theorem sameReadings_relabelled (hhost : Set.InjOn host c.hostNames) :
    c.SameReadings (c.relabelled host rack) := by
  have hmatches := c.relabelled_matches rack host
  refine ⟨?_, hmatches.topics, ?_, rfl, rfl⟩
  · rw [relabelled, List.forall₂_map_right_iff, List.forall₂_same]
    intro b hb
    have hpotential : c.potentialLoad b =
        (c.relabelled host rack).potentialLoad (b.relabelled host rack) :=
      hmatches.potentialLoad LoadVector.id_sum (broker_relabelled_matches rack b host)
    exact
      { id := rfl
        alive := rfl
        load := rfl
        capacity := rfl
        measured := measured_relabelled rack hhost hb
        potentialOut := congrArg (PerResource.get · .networkOut) hpotential
        numReplicas := rfl
        numLeaders := rfl
        numReplicasOf := fun _ => rfl }
  · rw [distribution, distribution, healing_relabelled, hmatches.numReplicas]

theorem accepted_relabelled (hc : c.Accepted) (hnamed : ∀ name ∈ c.hostNames, host name ≠ "") :
    (c.relabelled host rack).Accepted := by
  refine (c.relabelled_matches rack host).accepted hc (List.forall_mem_map.mpr fun b hb => ?_)
  have hadmitted := hc.admitted b hb
  exact ⟨hadmitted.capacity, hadmitted.load, hnamed _ ⟨b, hb, rfl⟩⟩

end Relabelled

/-- Whatever the hosts and the racks are called, as long as brokers that shared a host name still
do and no others: a cluster is accepted as before, every holder of statistics gives the same answer
to it and is left in the same state, and both are refused for the same reason or have one report,
with the same renderings. -/
theorem relabelled_unnoticed {c : Cluster Float} {host : LooseText → LooseText}
    (rack : Broker Float → LooseText) (hc : c.Accepted) (hhost : Set.InjOn host c.hostNames)
    (hnamed : ∀ name ∈ c.hostNames, host name ≠ "") (k : Constraint Float) :
    (c.relabelled host rack).Accepted ∧
      (∀ p : Publication Float, p.call ⟨c.relabelled host rack, k⟩ = p.call ⟨c, k⟩) ∧
      Alike (fun r r' => r = r' ∧ r.toJson = r'.toJson ∧ r.toText = r'.toText) (c.measure k)
        ((c.relabelled host rack).measure k) := by
  have hmeasure := (sameReadings_relabelled rack hhost).measure k
  refine ⟨accepted_relabelled rack hc hnamed, call_eq_of_measure_eq hmeasure.symm, ?_⟩
  rw [← hmeasure]
  cases c.measure k with
  | error e => exact .refused e
  | ok r => exact .given ⟨rfl, rfl, rfl⟩

/-- The two hosts of the ailing cluster under each other's names. -/
def swapped (name : LooseText) : LooseText := if name = "a" then "b" else "a"

/-- Where the two hosts of the ailing cluster trade their names, and each broker gets a rack of its
own, the report stays the same. -/
theorem relabelled_unnoticed_ailing :
    ailing.Accepted ∧ Set.InjOn swapped ailing.hostNames ∧
      (∀ name ∈ ailing.hostNames, swapped name ≠ "") ∧
      ∃ report, ailing.measure Constraint.default = .ok report ∧
        (ailing.relabelled swapped fun b => toString b.id).measure Constraint.default =
          .ok report ∧
        (ailing.relabelled swapped fun b => toString b.id).hosts.map (·.name) = ["b", "a"] := by
  have hnames : ∀ name ∈ ailing.hostNames, name = "a" ∨ name = "b" := by
    rintro _ ⟨b, hb, rfl⟩
    rcases (by simpa [ailing] using hb) with rfl | rfl | rfl <;> simp
  have hhost : Set.InjOn swapped ailing.hostNames := by
    intro x hx y hy
    rcases hnames x hx with rfl | rfl <;> rcases hnames y hy with rfl | rfl <;> decide
  have hnamed : ∀ name ∈ ailing.hostNames, swapped name ≠ "" := by
    intro name hname
    rcases hnames name hname with rfl | rfl <;> decide
  obtain ⟨report, hreport⟩ : ∃ report, ailing.measure Constraint.default = .ok report :=
    exists_eq_ok_of_isOk (by decide +kernel)
  obtain ⟨-, -, halike⟩ := relabelled_unnoticed (fun b => toString b.id) ailing_accepted hhost
    hnamed Constraint.default
  obtain ⟨_, hreport', rfl, -⟩ := halike.exists_of_eq_ok hreport
  exact ⟨ailing_accepted, hhost, hnamed, report, hreport, hreport', by decide +kernel⟩

end Cluster

end ClusterBalance
