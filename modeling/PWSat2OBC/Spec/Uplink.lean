import PWSat2OBC.Spec.Downlink
import PWSat2OBC.Spec.Reader

/-!
# Uplink frames (`libs/drivers/comm/Include/comm/Frame.hpp`, `libs/telecommunication/uplink.cpp`,
`libs/telecommunication/telecommand_handling.cpp`)

A frame as it comes from the receiver, the decoding of its content into a command code with
parameters, and the choice of the telecommand that handles them.
-/

namespace PWSat2OBC

/-- `devices::comm::Frame`. -/
structure Frame where
  doppler : BitVec 16
  rssi : BitVec 16
  /-- The size that the receiver announced. -/
  fullFrameSize : BitVec 16
  content : List Byte
  /-- A span of the receive buffer, with a size that fits `Size`. -/
  small : content.length < 2 ^ 16
deriving DecidableEq, Repr

namespace Frame

variable (f : Frame)

/-- `Frame::IsDopplerValid`. -/
def isDopplerValid : Bool := f.doppler &&& 0xf000 == 0

/-- `Frame::IsRssiValid`. -/
def isRssiValid : Bool := f.rssi &&& 0xf000 == 0

/-- `Frame::IsSizeValid`. The bound is the one of downlink frames. -/
def isSizeValid : Bool := decide (f.fullFrameSize.toNat ≤ maxDownlinkFrameSize)

/-- `Frame::IsComplete`. -/
def isComplete : Bool := f.fullFrameSize.toNat == f.content.length

/-- `Frame::Verify`. -/
def verify : Bool := f.isDopplerValid && f.isRssiValid && f.isSizeValid && f.isComplete

end Frame

/-! ## Decoding -/

/-- `DecodeTelecommandFailureReason`. -/
inductive DecodeTelecommandFailureReason
  | malformedFrame
  | invalidSecurityCode
  | generalError
deriving DecidableEq, Repr

/-- `DecodeTelecommandResult`. -/
inductive DecodeTelecommandResult
  | failure (reason : DecodeTelecommandFailureReason)
  | success (commandCode : Byte) (parameters : List Byte)
deriving DecidableEq, Repr

/-- `UplinkProtocol::Decode`; `none` where `ReadToEnd` ends the program. -/
def UplinkProtocol.decode (securityCode : BitVec 32) (frame : List Byte) : Option DecodeTelecommandResult :=
  let r := Reader.init frame
  let (code, r) := r.readDoubleWordBE
  let (command, r) := r.readByte
  match r.readToEnd with
  | none => none
  | some (parameters, r) =>
    if !r.status then some (.failure .malformedFrame)
    else if code ≠ securityCode then some (.failure .invalidSecurityCode)
    else some (.success command parameters)

/-! ## Dispatch -/

/-- `IHandleTeleCommand`, with whatever its handler does. -/
structure HandleTelecommand (α : Type) where
  commandCode : Byte
  handle : List Byte → α

namespace IncomingTelecommandHandler

variable {α : Type} (securityCode : BitVec 32) (telecommands : List (HandleTelecommand α))

/-- `IncomingTelecommandHandler::DispatchCommandHandler`; `none` without a handler for the code. -/
def dispatchCommandHandler (commandCode : Byte) (parameters : List Byte) : Option α :=
  (telecommands.find? fun p => p.commandCode == commandCode).map (·.handle parameters)

/-- `IncomingTelecommandHandler::HandleFrame`; `none` where no handler is called. -/
def handleFrame (frame : Frame) : Option α :=
  match UplinkProtocol.decode securityCode frame.content with
  | some (.success commandCode parameters) => dispatchCommandHandler telecommands commandCode parameters
  | _ => none

end IncomingTelecommandHandler

end PWSat2OBC
