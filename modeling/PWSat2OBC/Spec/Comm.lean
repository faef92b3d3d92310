import PWSat2OBC.Spec.Uplink

/-!
# Communication module (`libs/drivers/comm/comm.cpp`)

The driver between the I2C bus and the handler of frames: polling for received frames, and the
transmission of frames. What the bus answers is an input, one `Transfer` after the other; the
trace is what goes over the bus, and the calls of the handler. The semaphores are waited for
without a limit.
-/

namespace PWSat2OBC

/-- `Address`. -/
inductive CommAddress
  | receiver
  | transmitter
deriving DecidableEq, Repr

/-- `ReceiverCommand`, those in use here. -/
inductive ReceiverCommand
  | resetWatchdog
  | getFrameCount
  | getFrame
  | removeFrame
deriving DecidableEq, Repr

/-- The value of the command. -/
def ReceiverCommand.num : ReceiverCommand → Byte
  | resetWatchdog => 0xCC
  | getFrameCount => 0x21
  | getFrame => 0x22
  | removeFrame => 0x24

/-- `TransmitterCommand`, those in use here. -/
inductive TransmitterCommand
  | softReset
  | resetWatchdog
  | sendFrame
deriving DecidableEq, Repr

/-- The value of the command. -/
def TransmitterCommand.num : TransmitterCommand → Byte
  | softReset => 0xAA
  | resetWatchdog => 0xCC
  | sendFrame => 0x10

/-- A write and, where the driver asks for one, a read: whether they succeed, and the bytes
read. -/
structure Transfer where
  write : Bool
  read : Option (ℕ → Byte)

/-- What can be seen of the driver. -/
inductive CommEvent
  | write (address : CommAddress) (bytes : List Byte)
  | read (address : CommAddress) (bytes : List Byte)
  | handleFrame (frame : Frame)
deriving DecidableEq, Repr

/-- `LastSendTimestamp`. The time is in milliseconds. -/
structure LastSendTimestamp where
  timestamp : ℤ
  freeSlots : Byte
deriving DecidableEq, Repr

/-- `CommObject`. -/
structure CommObject where
  /-- What the bus answers from here on. -/
  bus : ℕ → Transfer
  trace : List CommEvent
  /-- `_frameHandler` is set. -/
  hasFrameHandler : Bool
  lastSend : Option LastSendTimestamp

namespace CommObject

/-- `ReceiverBufferSize`. -/
def receiverBufferSize : ℕ := 64

/-- `PrefferedBufferSize`. -/
def prefferedBufferSize : ℕ := maxDownlinkFrameSize + 20

variable (c : CommObject)

/-! ## Bus -/

/-- The next answer has been used. -/
def next (events : List CommEvent) : CommObject :=
  { c with
    bus := fun i => c.bus (i + 1)
    trace := c.trace ++ events }

/-- `CommObject::SendCommand`. -/
def sendCommand (address : CommAddress) (command : Byte) : Bool × CommObject :=
  ((c.bus 0).write, c.next [.write address [command]])

/-- `CommObject::SendBufferWithResponse`: the bytes read into an array of some length, if both
transfers succeed. -/
def sendBufferWithResponse (address : CommAddress) (inputBuffer : List Byte) (length : ℕ) :
    Option (List Byte) × CommObject :=
  if inputBuffer.isEmpty then (none, c)
  else if !(c.bus 0).write then (none, c.next [.write address inputBuffer])
  else
    match (c.bus 0).read with
    | none => (none, c.next [.write address inputBuffer])
    | some data =>
      let outBuffer := (List.range length).map data
      (some outBuffer, c.next [.write address inputBuffer, .read address outBuffer])

/-- `CommObject::SendCommandWithResponse`. -/
def sendCommandWithResponse (address : CommAddress) (command : Byte) (length : ℕ) :
    Option (List Byte) × CommObject := c.sendBufferWithResponse address [command] length

/-! ## Receiver -/

/-- `ReceiverFrameCount`. -/
structure ReceiverFrameCount where
  status : Bool
  frameCount : BitVec 16
deriving DecidableEq, Repr

/-- `CommObject::GetFrameCount`. -/
def getFrameCount : ReceiverFrameCount × CommObject :=
  match c.sendCommandWithResponse .receiver ReceiverCommand.getFrameCount.num 2 with
  | (none, c) => (⟨false, 0⟩, c)
  | (some buffer, c) =>
    let (frameCount, reader) := (Reader.init buffer).readWordLE
    if !reader.status then (⟨false, frameCount⟩, c)
    else if receiverBufferSize < frameCount.toNat then (⟨false, 0⟩, c)
    else (⟨true, frameCount⟩, c)

/-- `ReceiveSpan`: the size of the part of the buffer that is used. -/
def receiveSpan (frameSize bufferSize : ℕ) : ℕ :=
  if bufferSize ≤ frameSize + 6 then bufferSize else frameSize + 6

/-- The frame that `ReceiveFrameInternal` makes of the bytes in its buffer. -/
def frameOf (buffer : List Byte) : Frame :=
  let reader := Reader.init buffer
  let (fullSize, reader) := reader.readWordLE
  let (doppler, reader) := reader.readWordLE
  let (rssi, reader) := reader.readWordLE
  let size := (reader.remainingSize % 2 ^ 16).toNat
  { doppler := doppler
    rssi := rssi
    fullFrameSize := fullSize
    content := if !reader.status then [] else (reader.readArray size).1
    small := by
      have hsize : size < 2 ^ 16 := by omega
      have hread := reader.length_readArray_le size
      split
      · exact Nat.two_pow_pos 16
      · omega }

/-- `CommObject::ReceiveFrameInternal`, with the frame that the caller has. -/
def receiveFrameInternal (bufferSize : ℕ) (frame : Frame) : Bool × Frame × CommObject :=
  if bufferSize < 2 then (false, frame, c)
  else
    match c.sendCommandWithResponse .receiver ReceiverCommand.getFrame.num 2 with
    | (none, c) => (false, frame, c)
    | (some buffer, c) =>
      let (size, _) := (Reader.init buffer).readWordLE
      let bufferSize := receiveSpan size.toNat bufferSize
      match c.sendCommandWithResponse .receiver ReceiverCommand.getFrame.num bufferSize with
      | (none, c) => (false, frame, c)
      | (some buffer, c) => (true, frameOf buffer, c)

/-- `CommObject::GetFrame`. -/
def getFrame (bufferSize : ℕ) : (retryCount : ℕ) → Frame → CommObject → Bool × Frame × CommObject
  | 0, frame, c => (false, frame, c)
  | retryCount + 1, frame, c =>
    let (status, frame, c) := c.receiveFrameInternal bufferSize frame
    if status && frame.verify then (true, frame, c) else getFrame bufferSize retryCount frame c

/-- `Frame()`. -/
def emptyFrame : Frame := ⟨0, 0, 0, [], by decide⟩

/-- `CommObject::ProcessSingleFrame`. The handler sends on its own account: only its call is in
the trace. -/
def processSingleFrame : CommObject :=
  let (status, frame, c) := getFrame prefferedBufferSize 3 emptyFrame c
  let c :=
    if status && frame.verify && c.hasFrameHandler then { c with trace := c.trace ++ [.handleFrame frame] }
    else c
  (c.sendCommand .receiver ReceiverCommand.removeFrame.num).2

/-- The loop of `PollHardware`. -/
def processFrames : (frameCount : ℕ) → CommObject → CommObject
  | 0, c => c
  | frameCount + 1, c => processFrames frameCount c.processSingleFrame

/-- `CommObject::PollHardware`. -/
def pollHardware : Bool × CommObject :=
  let (frameResponse, c) := c.getFrameCount
  let anyFrame := frameResponse.status && decide (0 < frameResponse.frameCount.toNat)
  let c := if anyFrame then processFrames frameResponse.frameCount.toNat c else c
  let (reset, c) := c.sendCommand .receiver ReceiverCommand.resetWatchdog.num
  let c := if !reset then (c.sendCommand .transmitter TransmitterCommand.resetWatchdog.num).2 else c
  (anyFrame, c)

/-! ## Transmitter -/

/-- `CommObject::ResetTransmitter`. -/
def resetTransmitter : Bool × CommObject := c.sendCommand .transmitter TransmitterCommand.softReset.num

/-- The two readings of the clock in `ScheduleFrameTransmission`, and what is in the variable
for the answer when none is received. -/
structure SendSurroundings where
  remainingBufferSize : Byte
  uptime : ℤ
  uptimeRecorded : ℤ
deriving DecidableEq, Repr

/-- The check for a stalled queue. The new number of slots is taken as a signed byte. -/
def isStalled (last : LastSendTimestamp) (uptime : ℤ) (freeSlots : Byte) : Bool :=
  decide (15000 ≤ uptime - last.timestamp) && decide (freeSlots.toInt - last.freeSlots.toNat < 0)

/-- `CommObject::ScheduleFrameTransmission`. -/
def scheduleFrameTransmission (frame : List Byte) (surroundings : SendSurroundings) : Bool × CommObject :=
  if maxDownlinkFrameSize < frame.length then (false, c)
  else
    let (response, c) := c.sendBufferWithResponse .transmitter (TransmitterCommand.sendFrame.num :: frame) 1
    let remainingBufferSize :=
      match response with
      | some bytes => bytes.getD 0 0
      | none => surroundings.remainingBufferSize
    if c.lastSend.any fun last => isStalled last surroundings.uptime remainingBufferSize then
      (false, { c.resetTransmitter.2 with lastSend := none })
    else
      (response.isSome && remainingBufferSize != 0xff,
        { c with lastSend := some ⟨surroundings.uptimeRecorded, remainingBufferSize⟩ })

end CommObject

end PWSat2OBC
