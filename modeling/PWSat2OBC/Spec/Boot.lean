import PWSat2OBC.Lib.Runs
import PWSat2OBC.Spec.BootSettings
import PWSat2OBC.Spec.ProgramFlash

/-!
# Boot selection (`boot/boot.cpp`) and the boot slots telecommand
(`libs/obc/communication/telecommands/boot_settings.cpp`)

What a boot loads is decided from the boot settings and the markers of the boot table.
A boot returns the application loaded, the settings it leaves and the two boot
parameters it passes on. `BootEvent` collects what happens to the settings over the
life of the satellite.
-/

namespace PWSat2OBC

/-- `boot::Reason`. -/
inductive BootReason
  | bootToUpper
  | primaryBootSlots
  | bootNotConfirmed
  | invalidPrimaryBootSlots
  | invalidFailsafeBootSlots
  | counterExpired
deriving DecidableEq, Repr

/-- What `LoadApplication` leads to. -/
inductive Application
  /-- `BOOT_SAFEMODE_BASE_CODE`. -/
  | safeMode
  /-- `BOOT_APPLICATION_BASE`, as it is. -/
  | upper
  /-- `BOOT_APPLICATION_BASE`, after `LoadApplicationTMR(slots)`. -/
  | tmr (slots : List Byte)
deriving DecidableEq, Repr

/-- What a boot does: the mask in `boot::Index`, the application, the reason passed on
and the settings afterwards. -/
structure BootResult where
  slotsMask : Byte
  application : Application
  reason : BootReason
  settings : BootSettings

namespace Boot

open BootSettings

/-- `ToSlotNumbers`. -/
def toSlotNumbers (slotsMask : Byte) : List Byte := BootTable.selectEntries slotsMask

/-- `LoadApplication`. -/
def loadApplication (slotsMask : Byte) : Application :=
  if slotsMask = safeModeBootSlot then .safeMode
  else if slotsMask ≠ upperBootSlot then .tmr (toSlotNumbers slotsMask)
  else .upper

/-- `Correct` on three `bool`s. -/
def correctBool (a b c : Bool) : Bool := (a && b) || (b && c) || (a && c)

/-- `IsBootSlotsValid`. -/
def isBootSlotsValid (flash : Flash) (mask : Byte) : Bool :=
  if popcount mask ≠ 3 then false
  else
    let slots := toSlotNumbers mask
    correctBool (ProgramEntry.isValid flash (slots.getD 0 0))
      (ProgramEntry.isValid flash (slots.getD 1 0)) (ProgramEntry.isValid flash (slots.getD 2 0))

/-- `ResolveFailedBoot`, with the new value of `boot::BootReason`. -/
def resolveFailedBoot (s : BootSettings) (reason : BootReason) : BootSettings × BootReason :=
  let currentSlots := s.bootSlots
  if currentSlots = safeModeBootSlot then (s, reason)
  else if currentSlots = upperBootSlot then (s, reason)
  else
    let counter := s.bootCounter
    let lastConfirmed := s.lastConfirmedBootCounter
    if 10 ≤ (counter - lastConfirmed).toNat then
      let failsafe := s.failsafeBootSlots
      if failsafe ≠ s.bootSlots then ((s.setBootSlots failsafe).2, .bootNotConfirmed)
      else ((s.setBootSlots safeModeBootSlot).2, .bootNotConfirmed)
    else (s, reason)

/-- `CountBootAttempts`. -/
def countBootAttempts (s : BootSettings) : BootSettings :=
  (s.setBootCounter (s.bootCounter + 1)).2

/-- `ProceedWithBooting` up to the assignment of `boot::Index`: the mask selected, the
settings and `boot::BootReason`. -/
def selectSlots (flash : Flash) (s : BootSettings) : Byte × BootSettings × BootReason :=
  let (slotsMask, s, reason) :=
    if s.checkMagicNumber then
      let (s, reason) := resolveFailedBoot s .primaryBootSlots
      (s.bootSlots, s, reason)
    else (safeModeBootSlot, s, .primaryBootSlots)
  if slotsMask = safeModeBootSlot then (slotsMask, s, reason)
  else if slotsMask = upperBootSlot then (slotsMask, countBootAttempts s, .bootToUpper)
  else if !isBootSlotsValid flash slotsMask then
    let slotsMask := s.failsafeBootSlots
    if isBootSlotsValid flash slotsMask then
      (slotsMask, (s.setBootSlots slotsMask).2, .invalidPrimaryBootSlots)
    else
      (safeModeBootSlot, (s.setBootSlots safeModeBootSlot).2, .invalidFailsafeBootSlots)
  else if bootCounterTop ≤ s.bootCounter then
    (safeModeBootSlot, (s.setBootSlots safeModeBootSlot).2, .counterExpired)
  else (slotsMask, countBootAttempts s, reason)

/-- `ProceedWithBooting`. -/
def proceedWithBooting (flash : Flash) (s : BootSettings) : BootResult :=
  let (slotsMask, settings, reason) := selectSlots flash s
  ⟨slotsMask, loadApplication slotsMask, reason, settings⟩

/-- The settings after `n` boots with the same boot table and nothing else touching them. -/
def afterBoots (flash : Flash) (s : BootSettings) : ℕ → BootSettings
  | 0 => s
  | n + 1 => (proceedWithBooting flash (afterBoots flash s n)).settings

end Boot

/-- `CorrelatedDownlinkFrame` with the APID `BootSlotsInfo`: the correlation id and the
payload behind it. -/
structure BootSlotsFrame where
  correlationId : Byte
  payload : List Byte
deriving DecidableEq, Repr

/-- `SetBootSlotsTelecommand::Handle`: the frame sent and the settings afterwards. -/
def SetBootSlotsTelecommand.handle (s : BootSettings) (parameters : List Byte) :
    BootSlotsFrame × BootSettings :=
  let r := Reader.init parameters
  let (correlationId, r) := r.readByte
  let (bootSlots, r) := r.readByte
  let (failsafeBootSlots, r) := r.readByte
  if !r.status then (⟨correlationId, [0xE0]⟩, s)
  else if !BootSettings.isValidBootSlot bootSlots then (⟨correlationId, [0xE1]⟩, s)
  else if !BootSettings.isValidBootSlot failsafeBootSlots then (⟨correlationId, [0xE2]⟩, s)
  else
    let s := (s.setBootSlots bootSlots).2
    let s := (s.setFailsafeBootSlots failsafeBootSlots).2
    let s := s.markAsValid
    (⟨correlationId, [0, s.bootSlots, s.failsafeBootSlots]⟩, s)

/-- What happens to the boot settings. -/
inductive BootEvent
  /-- `SetBootSlotsTelecommand::Handle`. -/
  | handle (parameters : List Byte)
  /-- `BootSettings::ConfirmBoot`. -/
  | confirmBoot
  /-- `ProceedWithBooting`, with what the program flash holds then. -/
  | reboot (flash : Flash)

namespace BootEvent

/-- The settings after an event. -/
def step (s : BootSettings) : BootEvent → Option BootSettings
  | handle parameters => some (SetBootSlotsTelecommand.handle s parameters).2
  | confirmBoot => some s.confirmBoot.2
  | reboot flash => some (Boot.proceedWithBooting flash s).settings

end BootEvent

end PWSat2OBC
