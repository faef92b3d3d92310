import PWSat2OBC.Lib.Loops
import PWSat2OBC.Spec.BootTable
import PWSat2OBC.Spec.Reader

/-!
# Program upload telecommands (`libs/obc/communication/telecommands/program_upload.cpp`)

Erasing entries of the boot table, writing a part of a program to them and finalising them.
The first byte of the parameters selects the entries; each telecommand goes through them in
order and ends at the first failure.
-/

namespace PWSat2OBC

/-! ## Responses -/

/-- The frames sent with the APID `ProgramUpload`. -/
inductive UploadResponse
  | eraseEntryError (errorCode : Byte) (entry : Byte) (offset : BitVec 32)
  | eraseEntryMalformedError
  | eraseEntrySuccess (entries : Byte)
  | writeProgramError (errorCode : Byte) (entry : Byte) (offset : BitVec 32)
  | writeProgramMalformedError
  | writeProgramSuccess (entries : Byte) (offset : BitVec 32) (size : Byte)
  | finalizeEntryWriteError (errorCode : Byte) (entry : Byte)
  | finalizeEntryCrcError (entry : Byte) (actualCrc : BitVec 16)
  | finalizeEntrySuccess (entries : Byte) (crc : BitVec 16)
  | finalizeEntryMalformedError
deriving DecidableEq, Repr

namespace UploadResponse

open Redundancy

/-- `1 << entry`, written as a byte. -/
def entryBit (entry : Byte) : Byte := BitVec.ofNat 8 (1 <<< entry.toNat)

/-- The payload of the frame. -/
def payload : UploadResponse → List Byte
  | eraseEntryError errorCode entry offset => [0, 1, errorCode, entryBit entry] ++ storeWord offset
  | eraseEntryMalformedError => [0, 1, 10]
  | eraseEntrySuccess entries => [0, 0, entries]
  | writeProgramError errorCode entry offset => [1, 1, errorCode, entryBit entry] ++ storeWord offset
  | writeProgramMalformedError => [1, 1, 10]
  | writeProgramSuccess entries offset size => [1, 0, entries] ++ storeWord offset ++ [size]
  | finalizeEntryWriteError errorCode entry => [2, 1, errorCode, entryBit entry]
  | finalizeEntryCrcError entry actualCrc =>
    [2, 20, entryBit entry, actualCrc.extractLsb' 0 8, actualCrc.extractLsb' 8 8]
  | finalizeEntrySuccess entries crc => [2, 0, entries, crc.extractLsb' 0 8, crc.extractLsb' 8 8]
  | finalizeEntryMalformedError => [2, 1, 10]

end UploadResponse

/-- How a telecommand ends. -/
inductive UploadEnding
  | responded (response : UploadResponse)
  /-- A violated contract of a span ends the program. -/
  | stopped
  /-- The description is written or read behind its array. -/
  | outOfBounds
deriving DecidableEq, Repr

/-- The entries of the boot table. -/
def BootTable.entries : List Byte := (List.range entriesCount).map (BitVec.ofNat 8)

/-- The loop over the entries selected in `mask`. -/
def forSelected (mask : Byte) (body : FlashDriver → Byte → Option UploadEnding × FlashDriver)
    (driver : FlashDriver) : Option UploadEnding × FlashDriver :=
  Loops.firstSome (fun driver i => if mask.getLsbD i.toNat then body driver i else (none, driver))
    BootTable.entries driver

/-! ## Erasing -/

namespace EraseBootTableEntry

/-- The body of the loop. -/
def eraseEntry (answers : FlashAnswers) (driver : FlashDriver) (i : Byte) :
    Option UploadEnding × FlashDriver :=
  match ProgramEntry.erase i answers driver with
  | (some (status, offset), driver) =>
    (some (.responded (.eraseEntryError status.num i (BitVec.ofNat 32 offset))), driver)
  | (none, driver) => (none, driver)

/-- `EraseBootTableEntry::Handle`. -/
def handle (parameters : List Byte) (answers : FlashAnswers) (driver : FlashDriver) :
    UploadEnding × FlashDriver :=
  if parameters.length ≠ 1 then (.responded .eraseEntryMalformedError, driver)
  else
    let mask := parameters.getD 0 0
    let (ending, driver) := forSelected mask (eraseEntry answers) driver
    (ending.getD (.responded (.eraseEntrySuccess mask)), driver)

end EraseBootTableEntry

/-! ## Writing -/

namespace WriteProgramPart

/-- What `Handle` reads from its parameters. -/
structure Parameters where
  selectedEntries : Byte
  offset : BitVec 32
  content : List Byte
  status : Bool
deriving DecidableEq, Repr

/-- The first lines of `Handle`; `none`: the reader ends the program. -/
def read (parameters : List Byte) : Option Parameters :=
  let r := Reader.init parameters
  let (selectedEntries, r) := r.readByte
  let (offset, r) := r.readDoubleWordLE
  r.readToEnd.map fun (content, r) => ⟨selectedEntries, offset, content, r.status⟩

/-- The body of the loop. -/
def writeEntry (p : Parameters) (answers : FlashAnswers) (driver : FlashDriver) (i : Byte) :
    Option UploadEnding × FlashDriver :=
  let written := ProgramEntry.writeContent i answers p.offset.toNat p.content driver
  if written.1 ≠ .notBusy then
    (some (.responded (.writeProgramError written.1.num i p.offset)), written.2)
  else (none, written.2)

/-- `WriteProgramPart::Handle`. -/
def handle (parameters : List Byte) (answers : FlashAnswers) (driver : FlashDriver) :
    UploadEnding × FlashDriver :=
  match read parameters with
  | none => (.stopped, driver)
  | some p =>
    if !p.status then (.responded .writeProgramMalformedError, driver)
    else
      let (ending, driver) := forSelected p.selectedEntries (writeEntry p answers) driver
      (ending.getD (.responded (.writeProgramSuccess (parameters.getD 0 0) p.offset
        (BitVec.ofNat 8 p.content.length))), driver)

end WriteProgramPart

/-! ## Finalising -/

namespace FinalizeProgramEntry

/-- What `Handle` reads from its parameters; `description` is `tmp`. -/
structure Parameters where
  selectedEntries : Byte
  length : BitVec 32
  expectedCrc : BitVec 16
  description : List Byte
  status : Bool
deriving DecidableEq, Repr

/-- The first lines of `Handle`; `none`: the reader ends the program. -/
def read (parameters : List Byte) : Option Parameters :=
  let r := Reader.init parameters
  let (selectedEntries, r) := r.readByte
  let (length, r) := r.readDoubleWordLE
  let (expectedCrc, r) := r.readWordLE
  r.readToEnd.map fun (tmp, r) => ⟨selectedEntries, length, expectedCrc, tmp, r.status⟩

/-- The array `description` of 30 characters after `std::copy`; `none`: the copy does not fit. -/
def copyDescription (tmp : List Byte) : Option (List Byte) :=
  if tmp.length ≤ 30 then some (tmp ++ List.replicate (30 - tmp.length) 0) else none

/-- `Worst`. -/
def worst (a b : FlashStatus) : FlashStatus := if a = .notBusy then b else a

/-- The body of the loop. The marker is programmed before the content is checked. -/
def finalizeEntry (p : Parameters) (description : List Byte) (answers : FlashAnswers)
    (driver : FlashDriver) (i : Byte) : Option UploadEnding × FlashDriver :=
  let crc := ProgramEntry.setCrc i answers p.expectedCrc driver
  let length := ProgramEntry.setLength i answers p.length crc.2
  let described := ProgramEntry.setDescription i answers description 0 length.2
  match described.1 with
  | none => (some .outOfBounds, described.2)
  | some status =>
    let marked := ProgramEntry.markAsValid i answers described.2
    let r := worst (worst (worst (worst .notBusy crc.1) length.1) status) marked.1
    if r ≠ .notBusy then (some (.responded (.finalizeEntryWriteError r.num i)), marked.2)
    else
      match ProgramEntry.calculateCrc marked.2.flash i with
      | none => (some .stopped, marked.2)
      | some actualCrc =>
        if actualCrc ≠ p.expectedCrc then
          (some (.responded (.finalizeEntryCrcError i actualCrc)), marked.2)
        else (none, marked.2)

/-- `FinalizeProgramEntry::Handle`. -/
def handle (parameters : List Byte) (answers : FlashAnswers) (driver : FlashDriver) :
    UploadEnding × FlashDriver :=
  match read parameters with
  | none => (.stopped, driver)
  | some p =>
    match copyDescription p.description with
    | none => (.outOfBounds, driver)
    | some description =>
      if !p.status then (.responded .finalizeEntryMalformedError, driver)
      else
        let (ending, driver) := forSelected p.selectedEntries (finalizeEntry p description answers) driver
        (ending.getD (.responded (.finalizeEntrySuccess (parameters.getD 0 0) p.expectedCrc)), driver)

end FinalizeProgramEntry

/-! ## Sequences of telecommands -/

inductive UploadTelecommand
  | eraseBootTableEntry (parameters : List Byte)
  | writeProgramPart (parameters : List Byte)
  | finalizeProgramEntry (parameters : List Byte)
deriving DecidableEq, Repr

/-- `Handle` of the telecommand. -/
def UploadTelecommand.handle : UploadTelecommand → FlashAnswers → FlashDriver →
    UploadEnding × FlashDriver
  | eraseBootTableEntry parameters => EraseBootTableEntry.handle parameters
  | writeProgramPart parameters => WriteProgramPart.handle parameters
  | finalizeProgramEntry parameters => FinalizeProgramEntry.handle parameters

/-- A telecommand and what the flash device answers to its calls. -/
structure UploadEvent where
  telecommand : UploadTelecommand
  answers : FlashAnswers

/-- The driver and the response to the last telecommand. -/
structure UploadState where
  driver : FlashDriver
  response : Option UploadResponse

/-- One telecommand is handled; `none`: it does not come to its end. -/
def UploadState.step (s : UploadState) (e : UploadEvent) : Option UploadState :=
  match e.telecommand.handle e.answers s.driver with
  | (.responded response, driver) => some ⟨driver, some response⟩
  | _ => none

end PWSat2OBC
