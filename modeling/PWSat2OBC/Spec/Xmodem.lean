import PWSat2OBC.Spec.BootTable
import PWSat2OBC.Spec.CopyScrubber

/-!
# Uploads over the UART (`boot/xmodem.cpp`, `boot/commands/upload.cpp`, `libs/external/bspLib/src/bsp_boot.cpp`)

The bootloader receives a program byte by byte. A packet with the right checksum and the number that
comes next is stored and acknowledged, any other one is refused. The sender is a program on the ground
that goes on to the next block when it has heard an acknowledgement; the line between the two loses and
changes bytes.
-/

namespace PWSat2OBC

namespace Xmodem

/-- `XMODEM_SOH`. -/
def soh : Byte := 1

/-- `XMODEM_EOT`. -/
def eot : Byte := 4

/-- `XMODEM_ACK`. -/
def ack : Byte := 6

/-- `XMODEM_NAK`. -/
def nak : Byte := 21

/-- `XMODEM_NCG`. -/
def ncg : Byte := 67

/-- `XMODEM_DATA_SIZE`. -/
def dataSize : ℕ := 128

/-- The bytes of an `XMODEM_packet` behind its header. -/
def packetSize : ℕ := 132

end Xmodem

/-- `XMODEM_packet`, without padding and header. -/
structure XmodemPacket where
  packetNumber : Byte
  packetNumberC : Byte
  data : List Byte
  crcHigh : Byte
  crcLow : Byte

namespace XmodemPacket

/-- The packet in the bytes behind its header. -/
def ofBytes (bytes : List Byte) : XmodemPacket where
  packetNumber := bytes.getD 0 0
  packetNumberC := bytes.getD 1 0
  data := (bytes.drop 2).take Xmodem.dataSize
  crcHigh := bytes.getD 130 0
  crcLow := bytes.getD 131 0

/-- The packet for a block, which the sender makes, -/
def ofBlock (k : ℕ) (block : List Byte) : XmodemPacket where
  packetNumber := BitVec.ofNat 8 (k + 1)
  packetNumberC := ~~~BitVec.ofNat 8 (k + 1)
  data := block
  crcHigh := (crcCalc block).extractLsb' 8 8
  crcLow := (crcCalc block).extractLsb' 0 8

/-- and its bytes behind the header, up to the last one. -/
def bytes (pkt : XmodemPacket) : List Byte :=
  pkt.packetNumber :: pkt.packetNumberC :: (pkt.data ++ [pkt.crcHigh])

/-- `XMODEM_verifyPacketChecksum`, which returns `0`. The number that is expected becomes an `int`. -/
def verifyPacketChecksum (pkt : XmodemPacket) (sequenceNumber : BitVec 32) : Bool :=
  if pkt.packetNumber.toNat + pkt.packetNumberC.toNat ≠ 255 then false
  else if (pkt.packetNumber.toNat : ℤ) ≠ sequenceNumber.toInt.tmod 256 then false
  else crcCalc pkt.data == pkt.crcHigh ++ pkt.crcLow

end XmodemPacket

/-- `XMODEM_upload` while it receives. -/
structure XmodemUpload (μ : Type) where
  /-- Where the data is stored. -/
  memory : μ
  sequenceNumber : BitVec 32
  /-- The first byte has come. -/
  started : Bool
  /-- The bytes of the packet so far, its header first. -/
  packet : List Byte
  returned : Option (BitVec 32)

namespace XmodemUpload

variable {μ : Type} (store : BitVec 32 → List Byte → μ → μ)

/-- Before the first byte. -/
def init (memory : μ) : XmodemUpload μ := ⟨memory, 1, false, [], none⟩

open Xmodem in
/-- A byte is received: the state and the bytes that are sent. -/
def rxByte (s : XmodemUpload μ) (b : Byte) : XmodemUpload μ × List Byte :=
  if s.packet = [] then
    if b = eot then ({ s with started := true, returned := some ((s.sequenceNumber - 1) * 128) }, [ack])
    else if b ≠ soh then ({ s with started := true, returned := some 0 }, [])
    else ({ s with started := true, packet := [b] }, [])
  else if s.packet.length < packetSize then ({ s with packet := s.packet ++ [b] }, [])
  else
    let pkt := XmodemPacket.ofBytes (s.packet.drop 1 ++ [b])
    if pkt.verifyPacketChecksum s.sequenceNumber then
      ({ s with
          memory := store s.sequenceNumber pkt.data s.memory
          sequenceNumber := s.sequenceNumber + 1
          packet := [] }, [ack])
    else ({ s with packet := [] }, [nak])

end XmodemUpload

/-! ## Where the data goes -/

namespace ProgramEntry

/-- `entry->WriteContent`, whose status is not looked at. -/
def storePacket (index : Byte) (answers : FlashAnswers) (sequenceNumber : BitVec 32) (data : List Byte)
    (driver : FlashDriver) : FlashDriver :=
  (writeContent index answers ((sequenceNumber - 1) * 128).toNat data driver).2

/-- `BOOT_TABLE_OFFSET_ENTRY1`, as `setConfigureTopBoot` and `setConfigBotBoot` set it. -/
def bootTableOffsetEntry1 (topBoot : Bool) : BitVec 32 := if topBoot then 0 else 0x00080000

/-- `BOOT_getOffsetValid`, which counts entries from one on. -/
def bootOffsetValid (topBoot : Bool) (index : Byte) : BitVec 32 :=
  bootTableOffsetEntry1 topBoot + 0x00080000 * (index.setWidth 32 - 1) + 64

/-- The call in `BOOT_setValid`. -/
def bootSetValid (topBoot : Bool) (index : Byte) : FlashCall :=
  .program (bootOffsetValid topBoot index).toNat [0xAA]

/-- `UploadApplication` once `XMODEM_upload` has returned a length, up to the mark; `none`: the
length is no index, which ends the program. -/
def finishUpload (topBoot : Bool) (index : Byte) (answers : FlashAnswers) (len : BitVec 32)
    (driver : FlashDriver) : Option FlashDriver :=
  let driver := (setLength index answers len driver).2
  (calculateCrc driver.flash index).map fun crc =>
    let driver := (setCrc index answers crc driver).2
    (driver.perform answers (bootSetValid topBoot index)).2

end ProgramEntry

namespace Eeprom

/-- The two pages of a packet for the safe mode. The loop that waits for a page ends when the device
has stored it. -/
def storePacket (sequenceNumber : BitVec 32) (data : List Byte) (eeprom : Eeprom) : Eeprom :=
  (List.range 2).foldl (fun eeprom k =>
    eeprom.burst (SafeModeScrubber.pageWrites (((sequenceNumber - 1) * 128).toNat + 64 * k)
      ((data.drop (64 * k)).take 64))) eeprom

end Eeprom

/-! ## The line -/

/-- The bootloader, the acknowledgements that the sender has heard, and the bytes under way to it. -/
structure XmodemLine (μ : Type) where
  upload : XmodemUpload μ
  heard : ℕ
  replies : List Byte

inductive XmodemEvent
  /-- Nothing has come for some seconds. -/
  | silence
  /-- The bootloader gets a byte. -/
  | byte (b : Byte)
  /-- The sender gets the next byte. -/
  | reply
  /-- The next byte to the sender is lost, or changed into one that is no acknowledgement. -/
  | lose
deriving DecidableEq

namespace XmodemLine

variable {μ : Type} (store : BitVec 32 → List Byte → μ → μ)

def init (memory : μ) : XmodemLine μ := ⟨.init memory, 0, [Xmodem.ncg]⟩

/-- One event. -/
def step (s : XmodemLine μ) : XmodemEvent → Option (XmodemLine μ)
  | .silence => if s.upload.started then none else some { s with replies := s.replies ++ [Xmodem.ncg] }
  | .byte b =>
    if s.upload.returned ≠ none then none
    else
      let received := s.upload.rxByte store b
      some { s with upload := received.1, replies := s.replies ++ received.2 }
  | .reply =>
    match s.replies with
    | [] => none
    | b :: replies => some { s with heard := if b = Xmodem.ack then s.heard + 1 else s.heard, replies }
  | .lose =>
    match s.replies with
    | [] => none
    | _ :: replies => some { s with replies }

/-- The packet that is complete with this byte is taken for good. -/
def Takes (s : XmodemLine μ) (b : Byte) : Prop :=
  s.upload.packet.length = Xmodem.packetSize ∧
    (XmodemPacket.ofBytes (s.upload.packet.drop 1 ++ [b])).verifyPacketChecksum s.upload.sequenceNumber = true

/-- The sender has sent a packet with this block, and not so long ago that its number has come again. -/
def Sent (blocks : List (List Byte)) (heard : ℕ) (pkt : XmodemPacket) : Prop :=
  ∃ k ≤ heard, heard + 1 < k + 256 ∧ blocks[k]? = some pkt.data ∧ pkt.packetNumber = BitVec.ofNat 8 (k + 1)

/-- The memory once the first blocks have been stored, each once and in order. -/
def stored (blocks : List (List Byte)) (memory : μ) : ℕ → μ
  | 0 => memory
  | n + 1 => store (BitVec.ofNat 32 (n + 1)) (blocks.getD n []) (stored blocks memory n)

/-- Errors on the line are detected: a packet that is taken for good is one that was sent, and an end of
the transfer that is taken for one was sent once all blocks had been acknowledged. -/
def Detected (blocks : List (List Byte)) (s : XmodemLine μ) : XmodemEvent → Prop
  | .byte b =>
    (s.Takes b → Sent blocks s.heard (.ofBytes (s.upload.packet.drop 1 ++ [b]))) ∧
      (s.upload.packet = [] → b = Xmodem.eot → blocks.length ≤ s.heard)
  | _ => True

end XmodemLine

end PWSat2OBC
