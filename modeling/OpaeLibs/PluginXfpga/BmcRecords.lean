import OpaeLibs.Lib.CStrings
import OpaeLibs.Lib.Ownership
import OpaeLibs.PluginXfpga.SysfsReads

namespace OpaeLibs.PluginXfpga.BmcRecords

open OpaeLibs.Lib.CStrings OpaeLibs.Lib.Ownership
open OpaeLibs.OpaeC.Props OpaeLibs.PluginXfpga.SysfsReads

/-- A file of the BMC as it is read. A `read` gives no more bytes than it is asked for. -/
structure BmcFile extends OpenFile where
  bounded : ∀ bytes, ReadOutcome.data bytes ∈ reads → bytes ≠ [] ∧ bytes.length ≤ size

/-- The pieces that the loop of `read_sysfs_file` takes, and whether it ends with a failure. -/
def taken (size : Nat) : List ReadOutcome → Nat → List (List UInt8) × Bool
  | [], _ => ([], false)
  | .interrupted :: reads, totBytes =>
    if totBytes < size then taken size reads totBytes else ([], false)
  | .fails :: _, _ => ([], true)
  | .data bytes :: reads, totBytes =>
    if totBytes + bytes.length < size then
      let (pieces, failed) := taken size reads (totBytes + bytes.length)
      (bytes :: pieces, failed)
    else ([bytes], false)

namespace BmcFile

variable (f : BmcFile)

def pieces : List (List UInt8) := (taken f.size f.reads 0).1

def total : Nat := (f.pieces.map List.length).sum

/-- As each `read` goes to the beginning of the buffer, the longest of them says how much of it has
been read. -/
def fromFile : Nat := (f.pieces.map List.length).foldr max 0

def succeeds : Prop := (taken f.size f.reads 0).2 = false ∧ f.total ≤ f.size

end BmcFile

inductive BmcSensorType
  | thermal
  | power
  | all
deriving DecidableEq

/-- `Values`, as far as no units, texts and floating point numbers are concerned. `sdr` is the index
of its record. -/
structure Values where
  isValid : Bool
  name : Option Nat
  rawValue : UInt8
  sensorNumber : UInt8
  sensorType : BmcSensorType
  sdr : Option Nat

/-- `which_thresholds` is a bit vector. -/
structure TrippedThresholds where
  sensorNumber : Nat
  sensorType : BmcSensorType
  whichThresholds : UInt8
deriving DecidableEq

/-- What is in a block: the bytes of a file, of which the first `fromFile` are read, or a structure
or an array of the library. -/
inductive Block
  | bytes (buffer : List UInt8) (fromFile : Nat)
  | sdrRec (numRecords : Nat) (contents : Option Nat)
  | bmcValues (numRecords : Nat) (contents values : Option Nat)
  | array (entries : List (Option Nat))
  | value (v : Values)
  | name (text : List UInt8)
  | tripped (records : List TrippedThresholds)

/-- The result of what is given as `*records` or `*values`. `none` is a pointer that is not set. -/
abbrev Stored := Option (Option Nat)

section Code

variable (mem : Nat → Bool)

def readSysfsFile (token : Bool) (file : Option BmcFile) :
    Prog Block (FpgaResult × Option Nat × Nat) :=
  if !token then pure (.invalidParam, none, 0)
  else
    match file with
    | none => pure (.notFound, none, 0)
    | some f => do
      let buf ← malloc mem (.bytes (List.replicate f.size 0) 0)
      match buf with
      | none => pure (if nullLoop f.size f.reads then .ok else .exception, none, 0)
      | some _ =>
        match readLoop (fun _ => 0) f.size f.reads 0 (List.replicate f.size 0) with
        | none => fault
        | some last => do
          write buf (.bytes last.buffer f.fromFile)
          if f.size < last.totBytes || last.failed then do
            free buf
            pure (.exception, none, 0)
          else pure (.ok, buf, last.totBytes)

def sdrSize : Nat := 74

def sensorReadingSize : Nat := 7

/-- The result, the number of sensors and the handle. `token` is whether a token that is given has
its magic number, `numSensors` and `records` are whether the pointers are given. -/
def bmcLoadSDRs (token : Option Bool) (file : Option BmcFile) (records numSensors : Bool) :
    Prog Block (FpgaResult × Option Nat × Stored) :=
  match token with
  | none => pure (.invalidParam, none, none)
  | some magic =>
    if !numSensors then pure (.invalidParam, none, none)
    else do
      let (res, tmp, totBytes) ← readSysfsFile mem magic file
      if res ≠ .ok then do
        free tmp
        pure (res, none, none)
      else
        let numOfSensors := (totBytes + sdrSize - 1) / sdrSize
        if !records then do
          free tmp
          pure (.ok, some numOfSensors, none)
        else do
          match (← malloc mem (.sdrRec 0 none)) with
          | none => do
            free tmp
            pure (.noMemory, some numOfSensors, some none)
          | some recs => do
            write (some recs) (.sdrRec numOfSensors tmp)
            pure (.ok, some numOfSensors, some (some recs))

/-- The record that a handle of `bmcLoadSDRs` stands for, with the buffer behind `contents`. -/
structure SdrRec where
  magic : Bool
  token : Bool
  numRecords : Nat
  contents : List UInt8

def byteAt (buffer : List UInt8) (i : Nat) : Option UInt8 := buffer[i]?

def bits (b : UInt8) (lo width : Nat) : Nat := b.toNat >>> lo % 2 ^ width

def sdrSensorIsPower (sensorType : UInt8) : Bool :=
  sensorType = 0x2 || sensorType = 0x3 || sensorType = 0x8

def sdrSensorIsTemp (sensorType : UInt8) : Bool := sensorType = 0x1

/-- The fields of a record that are used: of the key `sensor_number`, of the body `sensor_type`,
`sensor_units_1` and `id_string_type_length_code`. -/
structure SdrContent where
  sensorNumber : UInt8
  sensorType : UInt8
  sensorUnits1 : UInt8
  idString : UInt8
deriving DecidableEq

def SdrContent.type (content : SdrContent) : BmcSensorType :=
  if sdrSensorIsTemp content.sensorType then .thermal
  else if sdrSensorIsPower content.sensorType then .power else .all

def sdrContent (sdr : List UInt8) (i : Nat) : Option SdrContent :=
  if sdrSize * (i + 1) ≤ sdr.length then do
    let sensorNumber ← byteAt sdr (sdrSize * i + 7)
    let sensorType ← byteAt sdr (sdrSize * i + 12)
    let sensorUnits1 ← byteAt sdr (sdrSize * i + 20)
    let idString ← byteAt sdr (sdrSize * i + 47)
    some ⟨sensorNumber, sensorType, sensorUnits1, idString⟩
  else none

structure SensorReading where
  sensReading : UInt8
  sensorValidity : UInt8
  thresholdEvents : UInt8

def sensorReading (contents : List UInt8) (i : Nat) : Option SensorReading := do
  let sensReading ← byteAt contents (sensorReadingSize * i + 4)
  let sensorValidity ← byteAt contents (sensorReadingSize * i + 5)
  let thresholdEvents ← byteAt contents (sensorReadingSize * i + 6)
  some ⟨sensReading, sensorValidity, thresholdEvents⟩

/-- The string in the buffer from an index on; `none` if it has no end there. -/
def stringAt (buffer : List UInt8) (i : Nat) : Option (List UInt8) :=
  if 0 ∈ buffer.drop i then some ((buffer.drop i).takeWhile (· ≠ 0)) else none

/-- The text of the name, and whether it is one. -/
def idName (sdr : List UInt8) (i : Nat) (idString : UInt8) : Option (List UInt8 × Bool) :=
  if bits idString 6 2 = 3 then
    let len := bits idString 0 5
    if len = 0x1f ∨ len = 0 then some (ascii "**INVALID**", false)
    else (stringAt sdr (sdrSize * i + 48)).map fun text => (text, true)
  else some (ascii "**String type unimplemented**", true)

def bmcBuildValues (sdr readings : List UInt8) (i : Nat) : Prog Block (Option Nat) := do
  match (← malloc mem (.value ⟨false, none, 0, 0, .thermal, none⟩)) with
  | none => pure none
  | some val =>
    match sdrContent sdr i, sensorReading readings i with
    | some content, some reading =>
      match idName sdr i content.idString with
      | none => fault
      | some (text, named) => do
        let name ← malloc mem (.name text)
        write (some val) (.value
          { isValid := named && bits reading.sensorValidity 5 1 = 0 &&
              bits content.sensorUnits1 6 2 ≠ 3
            name := name
            rawValue := reading.sensReading
            sensorNumber := content.sensorNumber
            sensorType := content.type
            sdr := none })
        pure (some val)
    | _, _ => fault

/-- The loop over the records from the record `i` on. -/
def buildAll (sdr readings : List UInt8) (array : Nat) : Nat → Nat → Prog Block Unit
  | 0, _ => pure ()
  | n + 1, i => do
    let entry ← bmcBuildValues mem sdr readings i
    match (← read (some array)) with
    | .array entries => do
      write (some array) (.array (entries.set i entry))
      match (← read entry) with
      | .value v => do
        write entry (.value { v with sdr := some i })
        buildAll sdr readings array n (i + 1)
      | _ => fault
    | _ => fault

def bmcReadSensorValues (sdr : SdrRec) (file : Option BmcFile) (values numValues : Bool) :
    Prog Block (FpgaResult × Option Nat × Stored) :=
  if !sdr.magic then pure (.invalidParam, none, none)
  else if !numValues then pure (.invalidParam, none, none)
  else if !values then pure (.ok, some sdr.numRecords, none)
  else do
    let (res, tmp, totBytes) ← readSysfsFile mem sdr.token file
    if tmp = none ∨ res ≠ .ok then do
      free tmp
      pure (.exception, none, none)
    else if totBytes ≠ sdr.numRecords * sensorReadingSize then do
      free tmp
      pure (.exception, none, none)
    else do
      match (← malloc mem (.bmcValues 0 none none)) with
      | none => do
        free tmp
        pure (.noMemory, some sdr.numRecords, some none)
      | some vals => do
        write (some vals) (.bmcValues sdr.numRecords tmp none)
        match (← malloc mem (.array (List.replicate sdr.numRecords none))) with
        -- returns with what is allocated
        | none => pure (.noMemory, some sdr.numRecords, some (some vals))
        | some array => do
          write (some vals) (.bmcValues sdr.numRecords tmp (some array))
          match (← read tmp) with
          | .bytes readings _ => do
            buildAll mem sdr.contents readings array sdr.numRecords 0
            pure (.ok, some sdr.numRecords, some (some vals))
          | _ => fault

end Code

end OpaeLibs.PluginXfpga.BmcRecords
