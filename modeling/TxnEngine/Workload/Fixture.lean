import TxnEngine.Engine
import TxnEngine.Text.Lossy

/-!
# Engines to try things out on

A small engine over a scripted substrate: short timeouts, retries without delay, a status directory
in memory and a log in memory or in a file.
-/

namespace TxnEngine.Workload

open Program

/-- What a trial engine's log lies in. -/
inductive LogKind where
  | memory
  | file
deriving DecidableEq, Inhabited

/-- A trial engine (`TestEngine`). -/
structure Fixture where
  engine : Engine ScriptedSubstrate
  logKind : LogKind

/-- The configuration of a trial engine (`test_config`). -/
def trialConfig : Config :=
  { Config.default with
    keepAliveInterval := .ofMillis 20
    transactionTimeout := .ofMillis 200
    keepAliveWorkers := 2
    resolverWorkers := 2
    retry := .noDelay 5 }

/-- The time at which a trial begins. -/
def clockStart : Millis := 1000000

/-- The label of a trial's status directory. -/
def statusLabel : String := "status/"

/-- What an engine is given that has only itself: a new oracle, a substrate and a locator in the same
process, and a status directory in memory with the given label. -/
def ownCollaborators (now : Millis) (label : String) : Collaborators ScriptedSubstrate where
  oracle := .startingAt Oracle.firstTimestamp
  clock := ⟨now⟩
  stopwatch := ⟨0⟩
  writes := ⟨.empty, .localDefault, .memory label, fun _ => 0⟩
  stamps := .empty

/-- An engine in memory with the configuration that nothing was changed in. -/
def plainEngine : Except Error (Engine ScriptedSubstrate) :=
  (Engine.openStore (.memory []) .default (ownCollaborators 0 Directory.defaultLabel)).1

namespace Fixture

/-- An empty log. -/
def emptyStore : LogKind → Store
  | .memory => .memory []
  | .file => .file []

/-- A new trial engine. -/
def start (logKind : LogKind) : Except Error Fixture := do
  let collaborators := ownCollaborators clockStart statusLabel
  let engine ← (Engine.openStore (emptyStore logKind) trialConfig collaborators).1
  return ⟨engine, logKind⟩

/-- Runs a program on the engine. -/
def run {α : Type} (f : Fixture) (p : Program (Engine ScriptedSubstrate) α) : α × Fixture :=
  let (answer, engine) := p.run f.engine
  (answer, { f with engine })

/-- The trial engine with the given scripts of rows, and with empty stores of the given names in its
status directory. -/
def prepared (f : Fixture) (scripts : List (Bytes × List Outcome)) (touched : List String) :
    Except StorageError Fixture := do
  let writes := f.engine.writes
  let substrate := scripts.foldl (fun s (rowKey, outcomes) => s.script rowKey outcomes)
    writes.substrate
  let directory ← touched.foldlM
    (fun d name => let (opened, d) := d.openFile name; opened.map fun _ => d) writes.directory
  return { f with engine.writes := { writes with substrate, directory } }

/-- Opens the engine again over its log (`TestEngine::reopen`). -/
def reopen (f : Fixture) : Except Error Unit × Fixture :=
  let (answer, engine) := f.engine.reopen Store.reopened
  (answer, { f with engine })

/-- Moves the clock beyond the timeout of everything that was kept alive so far
(`TestEngine::expire_all`). -/
def expireAll {σ : Type} : Program (Engine σ) Unit :=
  Program.modify fun e =>
    { e with manager.clock := e.manager.clock.advance (e.manager.timeout + 1) }

/-- A line read backwards, without the carriage return that ends it. -/
def withoutReturn : List Char → List Char
  | '\r' :: rest => rest
  | line => line

/-- The lines of a text behind what was read of the first one, the last character first. A newline
at the end opens no further line. -/
def linesFrom : (line : List Char) → List Char → List String
  | [], [] => []
  | line, [] => [String.ofList line.reverse]
  | line, '\n' :: rest => String.ofList (withoutReturn line).reverse :: linesFrom [] rest
  | line, c :: rest => linesFrom (c :: line) rest

/-- The lines of a text. -/
def lines (text : String) : List String :=
  linesFrom [] text.toList

/-- The lines of a file in the status directory (`TestEngine::sink_lines`). -/
def sinkLines (f : Fixture) (name : String) : List String :=
  lines (Text.Lossy.decode ((f.engine.writes.directory.contents? name).getD []))

end Fixture

end TxnEngine.Workload
