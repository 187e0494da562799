import Osns.Model.MsgBuffer

/-! The key derivation of `createkeys.c`. -/

namespace Osns

/-- A hash function of libgcrypt, as `create_hash` uses it. -/
structure Hash where
  size : ℕ
  size_pos : 0 < size
  digest : Bytes → Bytes
  digest_length : ∀ xs, (digest xs).length = size

/-- How many digests fill a key. -/
def hashCount (hashlen keylen : ℕ) : ℕ :=
  if keylen % hashlen > 0 then keylen / hashlen + 1 else keylen / hashlen

def estimateBufferSize (lenSessionId sharedkey lenH hashlen keylen : ℕ) : ℕ :=
  let lenK := 4 + getNbytes sharedkey
  let len := u32 (lenK + lenH + hashCount hashlen keylen * hashlen)
  if len < u32 (lenK + lenH + 1 + lenSessionId) then u32 (lenK + lenH + 1 + lenSessionId) else len

/-- The loop at the label `append`: the last digest goes behind the previous ones, and the next
digest to the key. -/
def appendHashes (hash : Hash) (keySize : ℕ) :
    ℕ → MsgBuffer → Bytes → Bytes → Option (Bytes × MsgBuffer)
  | 0, _, _, _ => none
  | fuel + 1, mb, out, key =>
    let mb := mb.msgWriteBytes out
    let out := hash.digest mb.contents
    if keySize ≤ u32 (key.length + hash.size) then
      some (key ++ out.take (keySize - key.length), mb)
    else appendHashes hash keySize fuel mb out (key ++ out)

/-- The text of the first digest: K, H, the letter and the session id. -/
def writeFirst (mb : MsgBuffer) (sharedkey : ℕ) (h : Bytes) (singlechar : UInt8)
    (sessionId : Bytes) : MsgBuffer :=
  (((mb.msgWriteSshMpint sharedkey).msgWriteBytes h).msgWriteByte singlechar).msgWriteBytes
    sessionId

/-- The key of the given size and the buffer at the end. The buffer lies on the stack, in memory
that holds anything. A key takes fewer digests than it has bytes. -/
def createKeyxHash (hash : Hash) (memory : ℕ → UInt8) (sharedkey : ℕ) (h sessionId : Bytes)
    (singlechar : UInt8) (keySize : ℕ) : Option (Bytes × MsgBuffer) :=
  let len := estimateBufferSize sessionId.length sharedkey h.length hash.size keySize
  let mb := writeFirst (.setMsgBuffer memory len) sharedkey h singlechar sessionId
  let out := hash.digest mb.contents
  if keySize ≤ hash.size then some (out.take keySize, mb)
  else
    appendHashes hash keySize keySize
      (({ mb with pos := 0 }.msgWriteSshMpint sharedkey).msgWriteBytes h) out out

end Osns
