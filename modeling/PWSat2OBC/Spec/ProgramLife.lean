import PWSat2OBC.Spec.Boot
import PWSat2OBC.Spec.Scrubber

/-!
# The program slots in flight (`libs/obc/scrubbing/scrubbing.cpp`, `src/obc.cpp`)

After a boot two scrubbers work on the slots: one on those that were booted, the other one on
the rest. They share a buffer. Meanwhile bits of the flash flip, the boot slots are set by
telecommand and boots are confirmed.

Left out: the scrubbers of the bootloader and of safe mode, whose copies lie behind the slots,
and the one of the boot settings.
-/

namespace PWSat2OBC

/-- What decides about the program that runs. -/
structure ProgramSlots where
  flash : Flash
  settings : BootSettings
  /-- `ScrubbingBuffer`. -/
  scrubbingBuffer : List Byte
  primarySlotsScrubber : ProgramScrubber
  secondarySlotsScrubber : ProgramScrubber

inductive SlotsEvent
  /-- A bit of the flash flips. -/
  | upset (address bit : ℕ)
  /-- `ProgramScrubber::ScrubSlots` of the scrubber with this mask. -/
  | scrubSlots (slotsMask : Byte) (locked : Bool)
  /-- `SetBootSlotsTelecommand::Handle`. -/
  | setBootSlots (parameters : List Byte)
  /-- `BootSettings::ConfirmBoot`. -/
  | confirmBoot
  /-- `ProceedWithBooting`, with the buffer of the new `OBC` at an address. -/
  | reboot (bufferAddr : ℕ)

namespace ProgramSlots

/-- The other mask in `OBCScrubbing(hardware, bootTable, bootSettings, primaryBootSlots)`. -/
def secondaryMask (primaryBootSlots : Byte) : Byte := ~~~primaryBootSlots &&& 0b111111

/-- A call of a scrubber, which works in the shared buffer. -/
def scrub (scrubber : ProgramScrubber) (locked : Bool) (s : ProgramSlots) : Flash × ProgramScrubber :=
  ProgramScrubber.scrubSlots s.flash { scrubber with buffer := s.scrubbingBuffer } locked

def step (s : ProgramSlots) : SlotsEvent → Option ProgramSlots
  | .upset address bit =>
    some { s with flash := Function.update s.flash address (s.flash address ^^^ BitVec.twoPow 8 bit) }
  | .scrubSlots slotsMask locked =>
    if slotsMask = s.primarySlotsScrubber.slotsMask then
      let (flash, scrubber) := scrub s.primarySlotsScrubber locked s
      some { s with flash, scrubbingBuffer := scrubber.buffer, primarySlotsScrubber := scrubber }
    else if slotsMask = s.secondarySlotsScrubber.slotsMask then
      let (flash, scrubber) := scrub s.secondarySlotsScrubber locked s
      some { s with flash, scrubbingBuffer := scrubber.buffer, secondarySlotsScrubber := scrubber }
    else none
  | .setBootSlots parameters =>
    some { s with settings := (SetBootSlotsTelecommand.handle s.settings parameters).2 }
  | .confirmBoot => some { s with settings := s.settings.confirmBoot.2 }
  | .reboot bufferAddr =>
    let result := Boot.proceedWithBooting s.flash s.settings
    let scrubbingBuffer := List.replicate ProgramScrubber.scrubSize 0
    some
      { flash := s.flash
        settings := result.settings
        scrubbingBuffer
        primarySlotsScrubber := ProgramScrubber.init bufferAddr scrubbingBuffer result.slotsMask
        secondarySlotsScrubber :=
          ProgramScrubber.init bufferAddr scrubbingBuffer (secondaryMask result.slotsMask) }

end ProgramSlots

end PWSat2OBC
