import Osns.Model.Channel.Receive
import Osns.Model.MsgWriter
import Osns.Model.StringWrite

/-! The writers of channel messages, after `msg-channel.c` of `send`. The open message is written with a
message buffer, all others with a pointer into a payload whose size has been computed before. -/

namespace Osns

/-! ## Opening a channel -/

/-- The payload that is written to and the pointer into it. -/
structure Cursor where
  buffer : Bytes
  pos : ℕ
  deriving DecidableEq, Repr

/-- What is stored at the pointer. -/
inductive ChannelField
  | byte (b : UInt8)
  | uint32 (value : ℕ)
  | string (text : Bytes)
  | bytes (data : Bytes)
  deriving DecidableEq, Repr

def Cursor.store (c : Cursor) (xs : Bytes) : Except Fault Cursor := do
  let buffer ← inBounds (Buffer.store c.buffer c.pos xs)
  return { buffer, pos := c.pos + xs.length }

/-- The pointer is moved by what `write_ssh_string` returns. -/
def Cursor.storeString (c : Cursor) (string : StringArg) : Except Fault Cursor := do
  let buffer ← string.copy c.buffer c.pos
  return { buffer, pos := c.pos + string.count }

def ChannelField.write (c : Cursor) : ChannelField → Except Fault Cursor
  | .byte b => c.store [b]
  | .uint32 value => c.store (storeUint32 value)
  | .string text => c.storeString (.s { len := text.length, ptr := some text })
  | .bytes data => c.store data

/-- The fields one behind the other, and the distance of the pointer to the start. -/
def writeFields (buffer : Bytes) (fields : List ChannelField) : Except Fault (ℕ × Bytes) := do
  let c ← fields.foldlM ChannelField.write { buffer, pos := 0 }
  return (u32 c.pos, c.buffer)

/-! ## Messages -/

def getLengthSshChannelOpenConfirmationMsg : ℕ := 13

variable (rcnr : UInt32)

def writeSshChannelOpenConfirmationMsg (lcnr windowsize maxpacketsize : UInt32) :
    List ChannelField :=
  [.byte 91, .uint32 rcnr.toNat, .uint32 lcnr.toNat, .uint32 windowsize.toNat,
    .uint32 maxpacketsize.toNat]

def getLengthSshChannelOpenFailureMsg (description language : Bytes) : ℕ :=
  u32 (13 + description.length + language.length)

def writeSshChannelOpenFailureMsg (reason : UInt32) (description language : Bytes) :
    List ChannelField :=
  [.byte 92, .uint32 rcnr.toNat, .uint32 reason.toNat, .string description, .string language]

def getLengthSshChannelCloseMsg : ℕ := 5

def writeSshChannelCloseMsg (type : UInt8) : List ChannelField := [.byte type, .uint32 rcnr.toNat]

def getLengthSshChannelWindowadjustMsg : ℕ := 9

def writeSshChannelWindowadjustMsg (increase : UInt32) : List ChannelField :=
  [.byte 93, .uint32 rcnr.toNat, .uint32 increase.toNat]

def getLengthSshChannelRequestMsg (type data : Bytes) : ℕ := u32 (10 + type.length + data.length)

def writeSshChannelRequestMsg (type : Bytes) (reply : UInt8) (data : Bytes) : List ChannelField :=
  [.byte 98, .uint32 rcnr.toNat, .string type, .byte reply, .bytes data]

def getLengthSshChannelDataMsg (data : Bytes) : ℕ := u32 (9 + data.length)

def writeSshChannelDataMsg (data : Bytes) : List ChannelField :=
  [.byte 94, .uint32 rcnr.toNat, .uint32 data.length, .bytes data]

def getLengthSshChannelXdataMsg (data : Bytes) : ℕ := u32 (13 + data.length)

def writeSshChannelXdataMsg (code : UInt32) (data : Bytes) : List ChannelField :=
  [.byte 95, .uint32 rcnr.toNat, .uint32 code.toNat, .uint32 data.length, .bytes data]

/-- `SSH_MSG_CHANNEL_EOF` and `SSH_MSG_CHANNEL_CLOSE`. -/
def closeType (eof : Bool) : UInt8 := if eof then 96 else 97

/-- The messages that are written into a payload. Both the end of data and the close of a channel are
`close` messages. -/
inductive ChannelMsg
  | openConfirmation (rcnr lcnr windowsize maxpacketsize : UInt32)
  | openFailure (rcnr reason : UInt32) (description language : Bytes)
  | close (rcnr : UInt32) (eof : Bool)
  | windowadjust (rcnr increase : UInt32)
  | request (rcnr : UInt32) (type : Bytes) (reply : UInt8) (bytes : Bytes)
  | data (rcnr : UInt32) (bytes : Bytes)
  | xdata (rcnr code : UInt32) (bytes : Bytes)
  deriving DecidableEq, Repr

namespace ChannelMsg

def type : ChannelMsg → UInt8
  | .openConfirmation _ _ _ _ => 91
  | .openFailure _ _ _ _ => 92
  | .close _ eof => closeType eof
  | .windowadjust _ _ => 93
  | .request _ _ _ _ => 98
  | .data _ _ => 94
  | .xdata _ _ _ => 95

def getLength : ChannelMsg → ℕ
  | .openConfirmation _ _ _ _ => getLengthSshChannelOpenConfirmationMsg
  | .openFailure _ _ description language =>
    getLengthSshChannelOpenFailureMsg description language
  | .close _ _ => getLengthSshChannelCloseMsg
  | .windowadjust _ _ => getLengthSshChannelWindowadjustMsg
  | .request _ type _ bytes => getLengthSshChannelRequestMsg type bytes
  | .data _ bytes => getLengthSshChannelDataMsg bytes
  | .xdata _ _ bytes => getLengthSshChannelXdataMsg bytes

def fields : ChannelMsg → List ChannelField
  | .openConfirmation rcnr lcnr windowsize maxpacketsize =>
    writeSshChannelOpenConfirmationMsg rcnr lcnr windowsize maxpacketsize
  | .openFailure rcnr reason description language =>
    writeSshChannelOpenFailureMsg rcnr reason description language
  | .close rcnr eof => writeSshChannelCloseMsg rcnr (closeType eof)
  | .windowadjust rcnr increase => writeSshChannelWindowadjustMsg rcnr increase
  | .request rcnr type reply bytes => writeSshChannelRequestMsg rcnr type reply bytes
  | .data rcnr bytes => writeSshChannelDataMsg rcnr bytes
  | .xdata rcnr code bytes => writeSshChannelXdataMsg rcnr code bytes

/-- The message is written into a payload of the computed length, which is all zero before. -/
def write (msg : ChannelMsg) : Except Fault (ℕ × Bytes) :=
  writeFields (List.replicate msg.getLength 0) msg.fields

def payload (msg : ChannelMsg) (buffer : Bytes) : ChannelPayload where
  type := msg.type
  sequence := 0
  buffer := buffer
  code := 0

end ChannelMsg

end Osns
