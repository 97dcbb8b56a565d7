import ClusterBalance.Proofs.Alike
import ClusterBalance.Report.Publication

/-! What the report of a cluster reads: of each broker its id, its loads and capacities and its
counts of replicas, but no host by its name and no replica by itself. Main statement: clusters of
which the same is read have the same report, or are refused for the same reason. -/

namespace ClusterBalance

namespace Cluster

variable {α : Type} [Scalar α]

/-- Two brokers that read alike, each in its own cluster. -/
structure ReadsAlike (c c' : Cluster α) (b b' : Broker α) : Prop where
  id : b.id = b'.id
  alive : b.alive = b'.alive
  load : b.load = b'.load
  capacity : b.capacity = b'.capacity
  measured : ∀ r, c.measured r b = c'.measured r b'
  potentialOut : c.potentialOut b = c'.potentialOut b'
  numReplicas : b.numReplicas = b'.numReplicas
  numLeaders : b.numLeaders = b'.numLeaders
  numReplicasOf : ∀ topic, b.numReplicasOf topic = b'.numReplicasOf topic

/-- Two clusters whose brokers read alike one by one, and that have the same topics and the same
replicas to heal. -/
structure SameReadings (c c' : Cluster α) : Prop where
  brokers : List.Forall₂ (c.ReadsAlike c') c.brokers c'.brokers
  topics : c.topics = c'.topics
  distribution : c.distribution = c'.distribution
  monitoredRatio : c.monitoredRatio = c'.monitoredRatio
  windows : c.windows = c'.windows

namespace SameReadings

variable {c c' : Cluster α}

theorem aliveBrokers (h : c.SameReadings c') :
    List.Forall₂ (c.ReadsAlike c') c.aliveBrokers c'.aliveBrokers :=
  filter_forall₂ h.brokers fun _ _ hb => hb.alive

theorem load (h : c.SameReadings c') : c.load = c'.load := by
  rw [Cluster.load, Cluster.load, map_eq_of_forall₂ h.brokers fun _ _ hb => hb.load]

theorem capacity (h : c.SameReadings c') : c.capacity = c'.capacity := by
  rw [Cluster.capacity, Cluster.capacity, map_eq_of_forall₂ h.brokers fun _ _ hb => hb.capacity]

theorem summarizeResource (h : c.SameReadings c') (k : Constraint α) (r : Resource)
    (numAlive : Divisor α) :
    c.summarizeResource k r numAlive = c'.summarizeResource k r numAlive := by
  have hreadings (average : α) (band : Band α) :
      c.aliveBrokers.mapM (c.utilizationReading r average band) =
        c'.aliveBrokers.mapM (c'.utilizationReading r average band) := by
    apply mapM_eq_of_forall₂ h.aliveBrokers
    intro b b' hb
    rw [utilizationReading, utilizationReading, hb.measured, hb.id]
  simp only [Cluster.summarizeResource, usedFraction, h.load, h.capacity, hreadings]

theorem summarizePotential (h : c.SameReadings c') (k : Constraint α) (numAlive : Divisor α) :
    c.summarizePotential k numAlive = c'.summarizePotential k numAlive := by
  have hreadings (average threshold : α) :
      c.aliveBrokers.mapM (c.potentialReading average threshold) =
        c'.aliveBrokers.mapM (c'.potentialReading average threshold) := by
    apply mapM_eq_of_forall₂ h.aliveBrokers
    intro b b' hb
    rw [potentialReading, potentialReading, hb.potentialOut, hb.id, hb.capacity]
  have htotal : c.totalPotentialOut = c'.totalPotentialOut := by
    rw [totalPotentialOut, totalPotentialOut,
      map_eq_of_forall₂ h.aliveBrokers fun _ _ hb => hb.potentialOut]
  simp only [Cluster.summarizePotential, h.capacity, htotal, hreadings]

theorem summarizeCounts (h : c.SameReadings c') {count : Broker α → Nat}
    (hcount : ∀ b b', c.ReadsAlike c' b b' → count b = count b') (numAlive : Divisor α) :
    c.summarizeCounts count numAlive = c'.summarizeCounts count numAlive := by
  rw [Cluster.summarizeCounts, Cluster.summarizeCounts, map_eq_of_forall₂ h.brokers hcount,
    map_eq_of_forall₂ h.aliveBrokers hcount]

theorem summarizeTopics (h : c.SameReadings c') (numAlive : Divisor α) :
    c.summarizeTopics numAlive = c'.summarizeTopics numAlive := by
  have htopic (topic : LooseText) : c.summarizeTopic numAlive topic =
      c'.summarizeTopic numAlive topic := by
    have hcount (b b' : Broker α) (hb : c.ReadsAlike c' b b') := hb.numReplicasOf topic
    rw [summarizeTopic, summarizeTopic, map_eq_of_forall₂ h.brokers hcount,
      map_eq_of_forall₂ h.aliveBrokers hcount]
  simp only [Cluster.summarizeTopics, h.topics, funext htopic]

/-- Clusters of which the same is read have the same report, or are refused for the same reason. -/
theorem measure (h : c.SameReadings c') (k : Constraint α) : c.measure k = c'.measure k := by
  have hmatrix : c.loadMatrix = c'.loadMatrix :=
    map_eq_of_forall₂ h.aliveBrokers fun _ _ hb => hb.load
  have hreplicas := h.summarizeCounts fun _ _ hb => hb.numReplicas
  have hleaders := h.summarizeCounts fun _ _ hb => hb.numLeaders
  simp only [Cluster.measure, h.summarizeResource, h.summarizePotential, hreplicas, hleaders,
    h.summarizeTopics, h.distribution, h.topics, hmatrix, h.windows, h.monitoredRatio,
    h.brokers.length_eq, h.aliveBrokers.length_eq]

end SameReadings

theorem call_eq_of_measure_eq {c c' : Cluster α} {k : Constraint α}
    (h : c.measure k = c'.measure k) (p : Publication α) : p.call ⟨c, k⟩ = p.call ⟨c', k⟩ := by
  simp only [Publication.call, Publication.populate, h]

end Cluster

end ClusterBalance
