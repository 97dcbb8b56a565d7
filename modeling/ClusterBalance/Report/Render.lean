import ClusterBalance.Document.Json.Writer
import ClusterBalance.Report

/-! The renderings of a report: as a document, as JSON, and as plain text. -/

namespace ClusterBalance

/-- A statistic was asked for before there was a report. -/
structure Unpublished where
  statistic : Statistic
  deriving DecidableEq, Repr

/-- The text of the error. -/
def Unpublished.message (e : Unpublished) : String :=
  "<Statistic." ++ e.statistic.label ++ ": '" ++ e.statistic.key ++ "'>"

namespace Report

/-- The key of the potential outbound load. -/
def potentialKey : String := "potentialNwOut"

/-- The key of the replica counts. -/
def replicasKey : String := "replicas"

/-- The key of the counts of leading replicas. -/
def leadersKey : String := "leaderReplicas"

/-- The key of the counts by topic. -/
def topicsKey : String := "topicReplicas"

/-- The counts of replicas, by their keys. -/
def countRows {α : Type} (r : Report α) : List (String × Spread α Nat) :=
  [(replicasKey, r.replicas), (leadersKey, r.leaders), (topicsKey, r.topics)]

/-- The amounts of resources, by their keys. -/
def amountRows {α : Type} (r : Report α) : List (String × Spread α α) :=
  r.utilization.toFields ++ [(potentialKey, r.potentialOut)]

/-- One statistic of every quantity, as fields of a document. -/
def statisticFields (r : Report Float) (s : Statistic) : List (String × Document) :=
  (r.amountRows.map fun (key, spread) => (key, spread.get Document.float Document.float s)) ++
    r.countRows.map fun (key, spread) =>
      (key, spread.get Document.float (fun n : Nat => Document.int n) s)

/-- The document of a report. -/
def toDocument (r : Report Float) : Document :=
  .object
    [("metadata",
        .object
          [("brokers", .int r.numBrokers), ("replicas", .int r.numReplicas),
            ("topics", .int r.numTopics)]),
      ("statistics",
        .object (Statistic.all.map fun s => (s.key, .ofFields (r.statisticFields s))))]

/-- The JSON text of a report. -/
def toJson (r : Report Float) : String := Document.Json.text .compact r.toDocument

/-- One statistic of every quantity, as a line of text. -/
def statisticLine (r : Report Float) (s : Statistic) : String :=
  let amount := fun x : Float => Decimal.rightAligned 12 (Decimal.fixed 3 x)
  let amounts :=
    r.amountRows.map fun (key, spread) => key ++ ":" ++ spread.get amount amount s
  let counts :=
    r.countRows.map fun (key, spread) =>
      key ++ ":" ++ spread.get Decimal.plain.write (fun n : Nat => toString n) s
  s.label ++ ":\x7b" ++ " ".intercalate (amounts ++ counts) ++ "\x7d"

/-- The plain text of a report. -/
def toText (r : Report Float) : String := "\n".intercalate (Statistic.all.map r.statisticLine)

end Report

/-- The report to render. Without one, the average is the first statistic to be missed. -/
def ReportSlot.published {α : Type} (s : ReportSlot α) : Except Unpublished (Report α) :=
  match s.report? with
  | some r => .ok r
  | none => .error ⟨.average⟩

end ClusterBalance
