import Daimon.Guard.PreFlight
import Daimon.Lib.Run
import Daimon.Lib.Text

/-!
# The KILL switch's tasks

`KillSwitch::spawn_watchers` (`daimon-guard/src/kill_switch.rs`): a task that polls the KILL file and a
task that answers SIGUSR1. Both write one `KillState`, nothing orders their steps, and operators create
and remove the file between any two of them.
-/

namespace Daimon.Guard
open Daimon.Core Lib

/-- Where the polling task stands: before its next tick, or with an observation that differs from its
`last` flag and is not applied yet. -/
inductive WatcherPhase where
  | idle
  | engaging
  | releasing
  deriving DecidableEq, Repr

inductive SignalPhase where
  | idle
  | writing
  | engaging
  deriving DecidableEq, Repr

/-- `removed` records whether an operator has removed the file since the latest engagement. -/
structure KillSwitch where
  file : Bool
  state : KillState
  last : Bool
  watcher : WatcherPhase
  signal : SignalPhase
  removed : Bool
  deriving DecidableEq, Repr

namespace KillSwitch

def new (file : Bool) : KillSwitch :=
  { file, state := .new, last := false, watcher := .idle, signal := .idle, removed := false }

/-- `tryExists` carries whether the file system answered, `readToString` the text it gave, `write`
whether the file was there afterwards. -/
inductive Action where
  | tryExists (answered : Bool)
  | readToString (text : Option String)
  | release
  | receive
  | write (created : Bool)
  | engage
  | create
  | remove
  deriving DecidableEq, Repr

def fileReason (path : String) (text : Option String) : String :=
  let reason := trim (text.getD "file present")
  if reason = "" then "KILL file present at " ++ path else reason

def engageState (k : KillSwitch) (reason : String) : KillSwitch :=
  { k with state := k.state.engage reason, removed := false }

def step (path : String) (k : KillSwitch) : Action → Option KillSwitch
  -- A tick of the watcher: an error counts as an absent file.
  | .tryExists answered =>
      if k.watcher = .idle then
        let exist := answered && k.file
        if exist = k.last then some k
        else some { k with watcher := if exist then .engaging else .releasing }
      else none
  | .readToString text =>
      if k.watcher = .engaging then
        some { k.engageState (fileReason path text) with last := true, watcher := .idle }
      else none
  | .release =>
      if k.watcher = .releasing then
        some { k with state := k.state.release, last := false, watcher := .idle }
      else none
  -- The SIGUSR1 handler; a failed write is only logged.
  | .receive => if k.signal = .idle then some { k with signal := .writing } else none
  | .write created =>
      if k.signal = .writing then some { k with file := k.file || created, signal := .engaging } else none
  | .engage =>
      if k.signal = .engaging then some { k.engageState "SIGUSR1 received" with signal := .idle } else none
  -- Operators.
  | .create => some { k with file := true }
  | .remove => some { k with file := false, removed := k.removed || k.file }

end KillSwitch
end Daimon.Guard
