import Osns.Library.Output
import Osns.Model.MsgWriter
import Osns.Model.Pk

/-! Public keys in buffers and messages in all data formats, after `pk-readwrite-public.c`. -/

namespace Osns

/-! ## Message buffers -/

variable (lib : MsgLib)

/-- A store without a test for room. -/
def pkStore (out : Output.State UInt8) (bytes : Bytes) : Except Fault (Output.State UInt8) :=
  inBounds (Output.put (2 ^ 32) out bytes)

def pkLeft (out : Output.State UInt8) : ℕ := u32Sub out.buf.length out.pos

/-- `write_ssh_mpint`; there is no result when `gcry_mpi_print` finds no room. -/
def writeSshMpint (mp : ℤ) (out : Output.State UInt8) : Except Fault (Option (Output.State UInt8)) :=
  if (mpi mp).length ≤ pkLeft out then some <$> pkStore out (mpi mp) else return none

def writeSshMpoint (point : Bytes) (out : Output.State UInt8) :
    Except Fault (Option (Output.State UInt8)) :=
  if u32 (point.length + 4) ≤ pkLeft out then some <$> pkStore out (sshString point) else return none

/-- The writes up to the first one that fails. -/
def pkWrites (out : Output.State UInt8) :
    List (Output.State UInt8 → Except Fault (Option (Output.State UInt8))) →
      Except Fault (Option (Output.State UInt8))
  | [] => return some out
  | write :: writes => do
    let written ← write out
    match written with
    | none => return none
    | some out => pkWrites out writes

def KeyParam.writes {scheme : PkScheme} :
    KeyParam scheme → List (Output.State UInt8 → Except Fault (Option (Output.State UInt8)))
  | .rsa e n => [writeSshMpint e, writeSshMpint n]
  | .dss p q g y => [writeSshMpint p, writeSshMpint q, writeSshMpint g, writeSshMpint y]
  | .ecc q => [writeSshMpoint q]

end Osns
