import ServiceGovernance.Agent

/-!
The agent as a program. Its configuration is the file that the first argument names, or else the
variable `TRAFFIC_CONFIG`; without either the defaults hold. A round comes every five seconds.
-/

namespace ServiceGovernance.Agent

def intervalMilliseconds : UInt32 := 5000

def configPath? (args : List String) : IO (Option String) :=
  match args with
  | path :: _ => pure (some path)
  | [] => IO.getEnv "TRAFFIC_CONFIG"

/-- The configuration, or what is wrong with it. -/
def loadConfig (path : Option String) : IO (Except String Config) :=
  match path with
  | none => pure (.ok {})
  | some path => do
      match ← (IO.FS.readFile path).toBaseIO with
      | .error e => pure (.error s!"reading traffic config {path}: {e}")
      | .ok text => pure ((Config.ofText text).mapError (refusalMessage path))

partial def serveRounds (agent : Agent) (last : Nat) : IO Unit := do
  let now ← IO.monoMsNow
  let clocked := (attend now agent).advanceClock (UInt64.ofNat (now - last))
  let called := dispatchAll now clocked
  IO.eprint called.traffic.exposition
  IO.sleep intervalMilliseconds
  serveRounds called now

end ServiceGovernance.Agent

open ServiceGovernance in
def main (args : List String) : IO UInt32 := do
  match ← Agent.loadConfig (← Agent.configPath? args) with
  | .error text =>
      IO.eprintln s!"Error: {text}"
      pure 1
  | .ok config =>
      match Agent.start config with
      | .error obstacle =>
          IO.eprintln s!"Error: {obstacle.message}"
          pure 1
      | .ok agent =>
          Agent.serveRounds agent (← IO.monoMsNow)
          pure 0
