import Osns.Library.Loop
import Osns.Model.MsgReader

/-! The version message of an SFTP server, after `process_sftp_version` in `sftp/init.c`. -/

namespace Osns

/-- The calls of `process_sftp_extension` so far, with the strings they get. -/
structure VersionState where
  pos : ℕ
  calls : List (SshString × SshString)

/-- One pass of the loop over the extensions. The data is handed over whether it has been read or
not. -/
def processVersionPass (buffer : Bytes) (s : VersionState) :
    Loop.Step VersionState (Except Fault (List (SshString × SshString))) :=
  let size := buffer.length
  if u32 (s.pos + 9) < size then
    match readSshStringSized (buffer.drop s.pos) (u32Sub size s.pos) with
    | .error fault => .done (.error fault)
    | .ok (n, name) =>
      let pos := u32 (s.pos + n)
      if name.ptr.isSome then
        match readSshStringSized (buffer.drop pos) (u32Sub size pos) with
        | .error fault => .done (.error fault)
        | .ok (n, data) => .next { pos := u32 (pos + n), calls := s.calls ++ [(name, data)] }
      else .next { s with pos }
  else .done (.ok s.calls)

/-- `process_sftp_version` with at most `fuel` passes: the version that is set, which is an
`unsigned char`, and the extensions that are processed. -/
def processSftpVersion (fuel : ℕ) (buffer : Bytes) :
    Option (Except Fault (ℕ × List (SshString × SshString))) :=
  match Buffer.load buffer 0 4 with
  | none => some (.error .overrun)
  | some header =>
    (Loop.run (processVersionPass buffer) fuel { pos := 4, calls := [] }).map fun result =>
      result.map fun calls => (u8 (getUint32 header), calls)

end Osns
