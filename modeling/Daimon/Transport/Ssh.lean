import Daimon.Broker.Request
import Daimon.Lib.Utf8

/-!
# The SSH transport

`SshTransport::exec_shell` (`daimon-transport/src/ssh.rs`) from the channel's first message on.
-/

namespace Daimon.Transport
open Lib Daimon.Broker

/-- The messages of the `russh` crate, with the parts that are read. -/
inductive ChannelMsg where
  | data (data : List UInt8)
  | extendedData (data : List UInt8) (ext : UInt32)
  | exitStatus (exitStatus : UInt32)
  | exitSignal
  | eof
  | close
  | other
  deriving DecidableEq

structure Drain where
  stdout : List UInt8
  stderr : List UInt8
  exitStatus : Int
  gotExit : Bool

def Drain.start : Drain := { stdout := [], stderr := [], exitStatus := 0, gotExit := false }

/-- One turn of the loop. -/
def Drain.receive (d : Drain) : ChannelMsg → Drain
  | .data data => { d with stdout := d.stdout ++ data }
  | .extendedData data ext => if ext = 1 then { d with stderr := d.stderr ++ data } else d
  | .exitStatus s => { d with exitStatus := s.toInt32.toInt, gotExit := true }
  | .eof => d
  -- `close` ends the loop; exit signals and all others are ignored.
  | .exitSignal | .close | .other => d

def Drain.drain (d : Drain) : List ChannelMsg → Drain
  | [] => d
  | .close :: _ => d
  | msg :: rest => (d.receive msg).drain rest

def sshResult (d : Drain) : OpResult :=
  .shellCommand (fromUtf8Lossy d.stdout) (fromUtf8Lossy d.stderr) d.exitStatus

/-- What the exec loop makes of the messages that `channel.wait()` gives before the connection ends. -/
def execShell (messages : List ChannelMsg) : OpResult := sshResult (Drain.start.drain messages)

end Daimon.Transport
