import Beetle.Lib.WsFrame

/-! The WebSocket client of the device, over a TLS connection whose reads and writes may stop anywhere. -/
namespace Beetle.Wss
open Beetle.Lib Beetle.Lib.Ws

/-- The largest `size_t` of the device. -/
def sizeMax : Nat := 2 ^ 32 - 1

def readChunkBytes : Nat := 1024

inductive Status where
  | ok
  | timeout
  | closed
  | disconnected
  | noMem
  | io
  | protocol
  deriving DecidableEq

/-- What becomes of one turn of the loop of `beetle_wss_write_all`: TLS takes some bytes (one more than
the number, where there are so many), or the turn ends the call. -/
inductive WriteReply where
  | accepted (more : Nat)
  | expired
  | sockoptFails
  | eof
  | want
  | failed

/-- What becomes of one call of `beetle_wss_fill_rx`: TLS gives some bytes of those that have come in
(one more than the number, where there are so many, and at most a chunk), or nothing. -/
inductive ReadReply where
  | data (more : Nat)
  | expired
  | sockoptFails
  | eof
  | want
  | failed
  deriving DecidableEq

/-- What the outside does during one call: what its reads and writes come to (time is over behind the
last of them), the masks, and whether its allocations are granted (they all are behind the last of them). -/
structure Outside where
  reads : List ReadReply
  writes : List WriteReply
  masks : List Mask
  grants : List Bool

/-- A buffer is as long as what it holds. -/
structure Client where
  maxMessageBytes : Nat
  closeSent : Bool
  closeReceived : Bool
  rx : Bytes
  fragment : Bytes
  fragmentOpcode : UInt8
  lastCloseCode : Option Nat
  lastCloseReason : Bytes

def Client.connected (maxMessageBytes : Nat) : Client := ⟨maxMessageBytes, false, false, [], [], 0, none, []⟩

/-- A frame that the client has set about sending, and what TLS has accepted of it. -/
structure SentFrame where
  frame : ClientFrame
  accepted : Bytes

/-- The client, what the server has sent that is not read yet, the outside of the call, and the frames
that were begun. -/
structure Conn where
  client : Client
  wire : Bytes
  out : Outside
  log : List SentFrame

/-- How a turn of the loop of `beetle_wss_recv` ends: with a message, with another status, or not. -/
inductive Turn where
  | message (data : Bytes)
  | stop (status : Status)
  | again
  deriving DecidableEq

/-! Writing. -/

/-- What TLS accepts, how it ends, and the replies that are left. -/
def writeAll (closeReceived : Bool) : List WriteReply → Bytes → Bytes × Status × List WriteReply
  | replies, [] => ([], .ok, replies)
  | [], _ :: _ => ([], .timeout, [])
  | reply :: replies, b :: data =>
    match reply with
    | .accepted more =>
      let (accepted, status, replies) := writeAll closeReceived replies (data.drop more)
      (b :: data.take more ++ accepted, status, replies)
    | .expired => ([], .timeout, replies)
    | .sockoptFails => ([], .io, replies)
    | .eof => ([], if closeReceived then .closed else .disconnected, replies)
    | .want => ([], .timeout, replies)
    | .failed => ([], .disconnected, replies)

/-- Write one part after the other, as long as they go through. -/
def writeParts (closeReceived : Bool) : List WriteReply → List Bytes → Bytes × Status × List WriteReply
  | replies, [] => ([], .ok, replies)
  | replies, part :: parts =>
    match writeAll closeReceived replies part with
    | (accepted, .ok, replies) =>
      let (more, status, replies) := writeParts closeReceived replies parts
      (accepted ++ more, status, replies)
    | stopped => stopped

/-- The header that `beetle_wss_send_frame` builds. -/
def frameHeader (opcode : UInt8) (payloadLen : Nat) (mask : Mask) : Bytes :=
  (0x80 ||| (opcode &&& 0x0F)) ::
    (if payloadLen ≤ 125 then [0x80 ||| .ofNat payloadLen]
      else if payloadLen ≤ 0xFFFF then [0x80 ||| 126, .ofNat (payloadLen >>> 8), .ofNat payloadLen]
      else (0x80 ||| 127) :: (List.range 8).reverse.map fun i => .ofNat (payloadLen >>> (i * 8))) ++
    mask.bytes

/-- The payload in pieces of 512 bytes. -/
def chunks (bs : Bytes) : List Bytes :=
  if _h : bs = [] then [] else bs.take 512 :: chunks (bs.drop 512)
termination_by bs.length
decreasing_by
  have hpos := List.length_pos_iff.mpr _h
  rw [List.length_drop]
  omega

namespace Conn

def sendFrame (c : Conn) (opcode : UInt8) (payload : Bytes) : Status × Conn :=
  if c.client.maxMessageBytes < payload.length then (.protocol, c)
  else
    let mask := c.out.masks.headD ⟨0, 0, 0, 0⟩
    let parts := frameHeader opcode payload.length mask :: chunks (applyMask mask payload)
    let (accepted, status, writes) := writeParts c.client.closeReceived c.out.writes parts
    let c := { c with
      out := { c.out with writes, masks := c.out.masks.tail }
      log := c.log ++ [⟨⟨opcode, mask, payload⟩, accepted⟩] }
    match status with
    | .ok => (.ok, if opcode = 8 then { c with client := { c.client with closeSent := true } } else c)
    | status => (status, c)

def sendCloseCode (c : Conn) (code : Nat) : Conn := (c.sendFrame 8 [.ofNat (code >>> 8), .ofNat code]).2

def sendBinary (c : Conn) (data : Bytes) : Status × Conn :=
  if c.client.closeSent ∨ c.client.closeReceived then (.closed, c) else c.sendFrame 2 data

def sendText (c : Conn) (text : Bytes) : Status × Conn :=
  if c.client.closeSent ∨ c.client.closeReceived then (.closed, c) else c.sendFrame 1 text

def close (c : Conn) : Conn :=
  if c.client.closeSent ∨ c.client.closeReceived then c else (c.sendFrame 8 []).2

/-! Reading. -/

/-- Whether the next allocation is granted. -/
def grant (c : Conn) : Bool × Conn :=
  (c.out.grants.headD true, { c with out := { c.out with grants := c.out.grants.tail } })

def consumeRx (c : Conn) (len : Nat) : Conn := { c with client := { c.client with rx := c.client.rx.drop len } }

/-- What `beetle_wss_fill_rx` makes of the answer of `esp_tls_conn_read`. -/
def readTls (c : Conn) : ReadReply → Status × Conn
  | .data more =>
    if c.wire = [] then (.timeout, c)
    else
      let len := min (more + 1) readChunkBytes
      (.ok, { c with client := { c.client with rx := c.client.rx ++ c.wire.take len }, wire := c.wire.drop len })
  | .eof => (if c.client.closeReceived then .closed else .disconnected, c)
  | .want => (.timeout, c)
  | _ => (.disconnected, c)

def fillRx (c : Conn) (reply : ReadReply) : Status × Conn :=
  if reply = .expired then (.timeout, c)
  else if reply = .sockoptFails then (.io, c)
  else if c.grant.1 = false then (.noMem, c.grant.2)
  else c.grant.2.readTls reply

/-- The loop of `beetle_wss_ensure_rx_bytes`. -/
def fillLoop (needed : Nat) : List ReadReply → Conn → Status × Conn
  | reads, c =>
    if needed ≤ c.client.rx.length then (.ok, { c with out := { c.out with reads } })
    else
      match reads with
      | [] => (.timeout, { c with out := { c.out with reads := [] } })
      | reply :: reads =>
        match c.fillRx reply with
        | (.ok, c) => fillLoop needed reads c
        | (status, c) => (status, { c with out := { c.out with reads } })

def ensureRxBytes (c : Conn) (needed : Nat) : Status × Conn := fillLoop needed c.out.reads c

def appendFragment (c : Conn) (payload : Bytes) : Status × Conn :=
  if payload = [] then (.ok, c)
  else if c.client.maxMessageBytes < c.client.fragment.length + payload.length then (.protocol, c)
  else
    match c.grant with
    | (false, c) => (.noMem, c)
    | (true, c) => (.ok, { c with client := { c.client with fragment := c.client.fragment ++ payload } })

def resetFragment (c : Conn) : Conn := { c with client := { c.client with fragment := [], fragmentOpcode := 0 } }

def storeClosePayload (c : Conn) (payload : Bytes) : Status × Conn :=
  let reset := { c with client := { c.client with lastCloseCode := none, lastCloseReason := [] } }
  if payload.length < 2 then (.ok, reset)
  else
    let code := some (ofBigEndian (payload.take 2))
    if payload.length = 2 then (.ok, { c with client := { c.client with lastCloseCode := code, lastCloseReason := [] } })
    else
      match reset.grant with
      | (false, c) => (.noMem, c)
      | (true, c) =>
        (.ok, { c with client := { c.client with lastCloseCode := code, lastCloseReason := payload.drop 2 } })

def protocolError (c : Conn) (code : Nat) : Turn × Conn := (.stop .protocol, c.sendCloseCode code)

def recvContinuation (c : Conn) (fin : Bool) (payload : Bytes) (frameLen : Nat) : Turn × Conn :=
  if c.client.fragmentOpcode = 0 then c.protocolError 1002
  else
    match c.appendFragment payload with
    | (.ok, c) =>
      let c := c.consumeRx frameLen
      if fin then (.message c.client.fragment, c.resetFragment) else (.again, c)
    | (.protocol, c) => c.protocolError 1009
    | (status, c) => (.stop status, c)

def recvData (c : Conn) (fin : Bool) (opcode : UInt8) (payload : Bytes) (frameLen : Nat) : Turn × Conn :=
  if c.client.fragmentOpcode ≠ 0 then c.protocolError 1002
  else if fin then
    if payload = [] then (.message [], c.consumeRx frameLen)
    else
      match c.grant with
      | (false, c) => (.stop .noMem, c)
      | (true, c) => (.message payload, c.consumeRx frameLen)
  else
    let (status, c) := appendFragment { c with client := { c.client with fragmentOpcode := opcode } } payload
    let c := c.consumeRx frameLen
    match status with
    | .ok => (.again, c)
    | .protocol => c.protocolError 1009
    | status => (.stop status, c)

def receiveClose (c : Conn) (frameLen : Nat) : Conn :=
  resetFragment { c with client := { c.client with closeReceived := true, rx := c.client.rx.drop frameLen } }

def recvClose (c : Conn) (payload : Bytes) (frameLen : Nat) : Turn × Conn :=
  match c.storeClosePayload payload with
  | (.ok, c) =>
    let c := if c.client.closeSent then c else (c.sendFrame 8 payload).2
    (.stop .closed, c.receiveClose frameLen)
  | (status, c) => (.stop status, c.consumeRx frameLen)

def recvPing (c : Conn) (payload : Bytes) (frameLen : Nat) : Turn × Conn :=
  let (status, c) := c.sendFrame 0x0A payload
  let c := c.consumeRx frameLen
  match status with
  | .ok => (.again, c)
  | status => (.stop status, c)

/-- The switch over the opcode of a frame that is there as a whole. -/
def recvFrame (c : Conn) (fin : Bool) (opcode : UInt8) (payload : Bytes) (frameLen : Nat) : Turn × Conn :=
  if opcode = 0 then c.recvContinuation fin payload frameLen
  else if opcode = 1 ∨ opcode = 2 then c.recvData fin opcode payload frameLen
  else if opcode = 8 then c.recvClose payload frameLen
  else if opcode = 9 then c.recvPing payload frameLen
  else if opcode = 10 then (.again, c.consumeRx frameLen)
  else c.protocolError 1002

/-- What the loop does once it knows how long the frame is. -/
def recvPayload (c : Conn) (first : UInt8) (headerLen payloadLen : Nat) : Turn × Conn :=
  let fin := decide (first &&& 0x80 ≠ 0)
  let opcode := first &&& 0x0F
  if c.client.maxMessageBytes < payloadLen then c.protocolError 1009
  else if opcode &&& 8 ≠ 0 ∧ (fin = false ∨ 125 < payloadLen) then c.protocolError 1002
  else if sizeMax - headerLen < payloadLen then (.stop .protocol, c)
  else
    match c.ensureRxBytes (headerLen + payloadLen) with
    | (.ok, c) => c.recvFrame fin opcode ((c.client.rx.drop headerLen).take payloadLen) (headerLen + payloadLen)
    | (status, c) => (.stop status, c)

/-- One turn of the loop of `beetle_wss_recv`. -/
def recvTurn (c : Conn) : Turn × Conn :=
  match c.ensureRxBytes 2 with
  | (.ok, c) =>
    let first := c.client.rx.getD 0 0
    let second := c.client.rx.getD 1 0
    if first &&& 0x70 ≠ 0 ∨ second &&& 0x80 ≠ 0 then c.protocolError 1002
    else
      let low := (second &&& 0x7F).toNat
      if low = 126 then
        match c.ensureRxBytes 4 with
        | (.ok, c) => c.recvPayload first 4 (ofBigEndian ((c.client.rx.drop 2).take 2))
        | (status, c) => (.stop status, c)
      else if low = 127 then
        match c.ensureRxBytes 10 with
        | (.ok, c) => c.recvPayload first 10 (ofBigEndian ((c.client.rx.drop 2).take 8))
        | (status, c) => (.stop status, c)
      else c.recvPayload first 2 low
  | (status, c) => (.stop status, c)

/-- `fuel` is more than the turns that the bytes there are can last. -/
def recvLoop : Nat → Conn → Turn × Conn
  | 0, c => (.stop .timeout, c)
  | fuel + 1, c =>
    match c.recvTurn with
    | (.again, c) => recvLoop fuel c
    | stopped => stopped

def recv (c : Conn) : Turn × Conn :=
  if c.client.closeReceived then (.stop .closed, c) else recvLoop (c.client.rx.length + c.wire.length + 1) c

end Conn

end Beetle.Wss
