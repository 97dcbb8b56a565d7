import ClusterBalance.CommandLine.Table
import ClusterBalance.Report.Log
import ClusterBalance.Report.Render
import ClusterBalance.Text.Wrap

/-! A report as it is shown on a terminal: a sentence with the counts, a table of the statistics,
and a table of the balanced brokers. -/

namespace ClusterBalance.CommandLine

/-- The width of the terminal. -/
def terminalWidth : Nat := 80

/-- The sentence over the tables. -/
def sentence (r : Report Float) : String :=
  let holder := ReportSlot.filled r
  holder.countsText ++ " " ++ toString r.numAlive ++ " alive, " ++ toString r.partitionsToHeal ++
    " partitions with offline replicas, " ++ Decimal.fixed 1 holder.monitoredPercentage ++
    "% partitions monitored over " ++ toString r.windows ++ " windows"

/-- The table of the statistics. -/
def statisticsTable (r : Report Float) : Table where
  title := "Cluster Balance Statistics"
  head := "Metric" :: Statistic.all.map Statistic.key
  rows :=
    (r.amountRows.map fun (key, spread) =>
        key :: Statistic.all.map (spread.get (Decimal.fixed 3) (Decimal.fixed 3))) ++
      r.countRows.map fun (key, spread) =>
        key :: Statistic.all.map (spread.get (Decimal.fixed 3) fun n : Nat => toString n)

/-- The table of the balanced brokers. -/
def balanceTable (r : Report Float) : Table where
  title := "Balanced Brokers"
  head := ["Resource", "Balanced"]
  rows :=
    let ratio := fun n : Nat => toString n ++ "/" ++ toString r.numAlive
    (r.balanced.toFields.map fun (key, n) => [key, ratio n]) ++
      [[Report.potentialKey ++ " under threshold", ratio r.underThreshold]]

/-- The lines of a report. -/
def summaryLines (r : Report Float) : List String :=
  Text.wrap terminalWidth (sentence r) ++ (statisticsTable r).lines terminalWidth ++
    (balanceTable r).lines terminalWidth

/-- The forms of the output. -/
inductive Format where
  | table
  | json
  | text
  deriving DecidableEq, Repr

namespace Format

/-- The forms, in the order in which they are offered. -/
def all : List Format := [table, json, text]

/-- The name of a form. -/
def name : Format → String
  | table => "table"
  | json => "json"
  | text => "text"

/-- The form of a name. -/
def ofName? (name : String) : Option Format := all.find? fun f => f.name = name

/-- Lines with an end to each. -/
def unlines (lines : List String) : String := String.join (lines.map (· ++ "\n"))

/-- A report in some form. -/
def render (r : Report Float) : Format → String
  | table => unlines (summaryLines r)
  | json => unlines [r.toJson]
  | text => unlines [r.toText]

end Format

end ClusterBalance.CommandLine
