import ClusterBalance.CommandLine.Run

/-! The program: it reads the files that its arguments name, runs, and prints. -/

open ClusterBalance CommandLine

/-- The parts of an argument that may name a file. -/
def pathCandidates (arg : String) : List String :=
  let cs := arg.toList
  [arg, String.ofList (cs.drop 2), String.ofList ((cs.dropWhile (· != '=')).drop 1)]

/-- A file, if it can be read. -/
def readFile? (path : String) : IO (Option Entry) := do
  try
    match String.fromUTF8? (← IO.FS.readBinFile path) with
    | some text => return some (.file text)
    | none => return some .binary
  catch _ => return none

/-- The files that some arguments may name. -/
def readEntries (args : List String) : IO (List (String × Entry)) := do
  let mut entries := []
  for path in args.flatMap pathCandidates do
    if let some file ← readFile? path then entries := (path, file) :: entries
  return entries

/-- Seconds with four places and commas between thousands. -/
def secondsText (nanoseconds : Nat) : String :=
  let units := Decimal.roundDiv nanoseconds 100000
  let places := String.ofList (Decimal.padLeft 4 '0' (Decimal.digitChars (units % 10000)))
  let rec groups (fuel n : Nat) : List String :=
    match fuel with
    | 0 => []
    | fuel + 1 =>
      if n < 1000 then [toString n]
      else String.ofList (Decimal.padLeft 3 '0' (Decimal.digitChars (n % 1000))) ::
        groups fuel (n / 1000)
  ",".intercalate (groups 20 (units / 10000)).reverse ++ "." ++ places

/-- Runs a job and takes its time. -/
def runJob (job : Job) : IO Outcome := do
  let start ← IO.monoNanosNow
  let result ← IO.lazyPure fun _ => job.measure
  let stop ← IO.monoNanosNow
  return job.finish result (secondsText (stop - start))

/-- The entry point. -/
def main (args : List String) : IO UInt32 := do
  let _ : Limits := Limits.measured
  let entries ← readEntries args
  let entry := fun path => (entries.lookup path).getD .absent
  let outcome ←
    match prepare { program := "clusterstats", entry } args with
    | .ok job => runJob job
    | .error outcome => pure outcome
  IO.print outcome.output
  IO.eprint outcome.errors
  if let some fault := outcome.escaped then
    IO.eprintln (fault.errorClass.name ++ ": " ++ fault.message)
  return outcome.exit.toUInt32
