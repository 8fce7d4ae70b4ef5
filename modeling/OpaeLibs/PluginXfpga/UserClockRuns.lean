import OpaeLibs.Lib.Scripts
import OpaeLibs.PluginXfpga.AvmmCommands
import OpaeLibs.PluginXfpga.UserClockIopll

namespace OpaeLibs.PluginXfpga.UserClockRuns

open OpaeLibs.Lib.Bits OpaeLibs.Lib.Scripts
open OpaeLibs.OpaeC.Props
open OpaeLibs.PluginXfpga.SysfsWords OpaeLibs.PluginXfpga.UserClockAvmm
open OpaeLibs.PluginXfpga.AvmmPolls OpaeLibs.PluginXfpga.AvmmCommands
open OpaeLibs.PluginXfpga.UserClockIopll (Search usingIopll maxFpgaFreq minFpgaFreq)

def userClockCmd1 : String := "userclk_freqcntrcmd"
def userClockSts1 : String := "userclk_freqcntrsts"

def usrclkSleep10ms : Nat := 10000000

def cmd0Sr1B58 : BitVec 64 := 0x0400000000000000
def cmd0PrsB56 : BitVec 64 := 0x0100000000000000
def cmd0MrnB52 : BitVec 64 := 0x0010000000000000
def sts0BsyB61 : BitVec 64 := 0x2000000000000000
def sts0LckB60 : BitVec 64 := 0x1000000000000000
def cmd1MeaB32 : BitVec 64 := 0x0000000100000000
def sts1VerB63t60 : BitVec 64 := 0xf000000000000000
def sts1FrqB16t00 : BitVec 64 := 0x000000000001ffff

def sts1VerVersion : BitVec 64 := 0x03
def sts1VerVersionLegacy : BitVec 64 := 0x01

def avmmFpllIpi200 : BitVec 64 := 0x200
def idiRfdual : BitVec 64 := 0x05
def idiRf100m : BitVec 64 := 0x06
def idiRf322m : BitVec 64 := 0x07

def numfrqIntgEnd : BitVec 64 := 2
def numfrqFracBeg : BitVec 64 := 25
def numfrqFracEnd : BitVec 64 := 1200
def numreg : BitVec 64 := 14

def runinitzErrVer : Int := 1
def runinitzErrFpllIdIllegal : Int := 2
def waitcaldoneErrBsyTo : Int := 3
def getfreqsErrInitzstate : Int := 6
def setfreqsErrInitzstate : Int := 7
def setfreqsErrRefclkIllegal : Int := 8
def setfreqsErrRefclk100mMissing : Int := 9
def setfreqsErrRefclk322mMissing : Int := 10
def setfreqsErrFindexOverrange : Int := 11
def setfreqsErrFindexIntgRangeBad : Int := 12
def setfreqsErrFindexIntgNeeds322m : Int := 13
def setfreqsErrPllNoUnlock : Int := 14
def setfreqsErrPllLockTo : Int := 15

/-- The path, and the shadows of the command registers. -/
structure Shadow extends QucpuUclock where
  cmdReg1 : BitVec 64

/-- `QUCPU_tInitz`, as far as it is looked at -/
structure QucpuInitz where
  version : BitVec 64
  pllId : BitVec 64
  numFrqIntgEnd : BitVec 64
  numFrqFracBeg : BitVec 64
  numFrqFracEnd : BitVec 64
  numReg : BitVec 64

structure Uclock extends Shadow where
  initzState : Bool
  initialParams : QucpuInitz

structure Freqs where
  frqClkUsr : BitVec 64
  frqDivBy2 : BitVec 64

/-- `scu32ia3d_DiffMifTbl` and `scu32ia3d_DiffMifTbl_322`, by frequency, register and reference
clock -/
structure DiffMifTables where
  tbl : Nat → Nat → Nat → BitVec 32
  tbl322 : Nat → Nat → Nat → BitVec 32

section Code

variable {σ : Type} (port : Port σ)

/-- A command that is given the shadow of its register. -/
def avmm (f : QucpuUclock → σ → Int × QucpuUclock × σ) (u : Uclock) (s : σ) : Int × Uclock × σ :=
  let (res, g, s) := f u.toQucpuUclock s
  (res, { u with toQucpuUclock := g }, s)

/-- What `sysfs_read_u64` leaves in a variable. -/
def readWord (file : String) (prtData : BitVec 64) (u : Uclock) (s : σ) : BitVec 64 × σ :=
  let (answer, s) := port.readU64 (sysfsUsrpath u.sysfsPath file) s
  (answer.getD prtData, s)

def writeWord (file : String) (word : BitVec 64) (u : Uclock) (s : σ) : σ :=
  (port.writeU64 (sysfsUsrpath u.sysfsPath file) word s).2

/-- The status register is read until its word passes the test: `u64i_PrtData` at the end. -/
def waitStatus (passes : BitVec 64 → Bool) (u : Uclock) : Nat → BitVec 64 → σ → BitVec 64 × σ
  | 0, prtData, s => (prtData, s)
  | n + 1, _, s =>
    let (prtData, s) := readWord port userClockSts0 0 u s
    if passes prtData then (prtData, s)
    else waitStatus passes u n prtData (port.sleep usrclkSleep1ms s)

def waitCalDone (u : Uclock) (s : σ) : BitVec 64 × σ :=
  waitStatus port (fun prtData => decide (prtData &&& sts0BsyB61 = 0)) u 1000 0 s

def fiWaitCalDone (u : Uclock) (s : σ) : Int × Uclock × σ :=
  let (prtData, s) := waitCalDone port u s
  (if prtData &&& sts0BsyB61 ≠ 0 then waitcaldoneErrBsyTo else 0, u, s)

def resetMachine (u : Uclock) (s : σ) : Uclock × σ :=
  let u := { u with cmdReg0 := (u.cmdReg0 ||| cmd0PrsB56) &&& ~~~cmd0MrnB52 }
  let s := writeWord port userClockCmd0 u.cmdReg0 u s
  let u := { u with cmdReg0 := (u.cmdReg0 ||| cmd0MrnB52) &&& ~~~cmd0PrsB56 }
  (u, writeWord port userClockCmd0 u.cmdReg0 u s)

def readVersion (u : Uclock) (s : σ) : Int × Uclock × σ :=
  let (prtData, s) := readWord port userClockSts1 0 u s
  let version := (prtData &&& sts1VerB63t60) >>> 60
  (if version ≠ sts1VerVersion ∧ version ≠ sts1VerVersionLegacy then runinitzErrVer else 0,
    { u with initialParams.version := version }, s)

def cycleReset (u : Uclock) (s : σ) : Int × Uclock × σ :=
  let (u, s) := resetMachine port u s
  fiWaitCalDone port u s

def identify (u : Uclock) (s : σ) : Int × Uclock × σ :=
  let (res, dat, g, s) := fiAvmmRead port avmmFpllIpi200 (port.indeterminate s) u.toQucpuUclock s
  let u := { u with toQucpuUclock := g }
  if res = 0 then
    let pllId := dat &&& 0xff
    (if pllId = idiRfdual ∨ pllId = idiRf100m ∨ pllId = idiRf322m then 0
      else runinitzErrFpllIdIllegal, { u with initialParams.pllId := pllId }, s)
  else (res, u, s)

def fiRunInitz (sysfsPath : Option String) (u : Uclock) (s : σ) : Int × Uclock × σ :=
  let u := { u with
    initzState := false, initialParams := ⟨0, 0, 0, 0, 0, 0⟩, cmdReg0 := 0, cmdReg1 := 0
    avmmSeq := 0 }
  match sysfsPath with
  | none => (-1, u, s)
  | some sysfsPath =>
    let u := { u with
      sysfsPath := String.ofList (sysfsPath.toList.take (sysfsPathMax - 1))
      initialParams := ⟨0, 0, numfrqIntgEnd, numfrqFracBeg, numfrqFracEnd, numreg⟩ }
    let r := whenOk (readVersion port u s) fun (u, s) => fiWaitCalDone port u s
    let r := whenOk r fun (u, s) => cycleReset port u s
    let (err, u, s) := whenOk r fun (u, s) => identify port u s
    (err, { u with initzState := decide (err = 0) }, s)

def refclkError (p : QucpuInitz) (refclk : BitVec 64) : Int :=
  if refclk = 0 then
    if ¬(p.pllId = idiRfdual ∨ p.pllId = idiRf100m) then setfreqsErrRefclk100mMissing else 0
  else if refclk = 1 then
    if ¬(p.pllId = idiRfdual ∨ p.pllId = idiRf322m) then setfreqsErrRefclk322mMissing else 0
  else setfreqsErrRefclkIllegal

def frqInxError (p : QucpuInitz) (refclk frqInx : BitVec 64) : Int :=
  if p.numFrqFracEnd < frqInx then setfreqsErrFindexOverrange
  else if frqInx < p.numFrqFracBeg ∧ p.numFrqIntgEnd < frqInx then setfreqsErrFindexIntgRangeBad
  else if frqInx < p.numFrqFracBeg ∧ refclk ≠ 1 then setfreqsErrFindexIntgNeeds322m
  else 0

def tblEntry (tables : DiffMifTables) (refclk frqInx : BitVec 64) (mifReg : Nat) : BitVec 32 :=
  if refclk = 0 then tables.tbl frqInx.toNat mifReg refclk.toNat
  else tables.tbl322 frqInx.toNat mifReg refclk.toNat

def entryAdr (entry : BitVec 32) : BitVec 64 := entry.zeroExtend 64 >>> 16
def entryDat (entry : BitVec 32) : BitVec 64 := (entry &&& 0x000000ff).zeroExtend 64
def entryMsk (entry : BitVec 32) : BitVec 64 := (entry &&& 0x0000ff00).zeroExtend 64 >>> 8

def selectRefclk (refclk : BitVec 64) (u : Uclock) (s : σ) : Uclock × σ :=
  let reg := u.cmdReg0 &&& ~~~cmd0Sr1B58
  let u := { u with cmdReg0 := if refclk ≠ 0 then reg ||| cmd0Sr1B58 else reg }
  (u, port.sleep usrclkSleep1ms (writeWord port userClockCmd0 u.cmdReg0 u s))

def pushTable (tables : DiffMifTables) (refclk frqInx : BitVec 64) :
    List Nat → Uclock → σ → Int × Uclock × σ
  | [], u, s => (0, u, s)
  | mifReg :: rest, u, s =>
    let entry := tblEntry tables refclk frqInx mifReg
    let (res, u, s) := avmm
      (fiAvmmReadModifyWriteVerify port (entryAdr entry) (entryDat entry) (entryMsk entry)) u s
    if res ≠ 0 then (res, u, s) else pushTable tables refclk frqInx rest u s

def checkUnlocked (u : Uclock) (s : σ) : Int × Uclock × σ :=
  let (prtData, s) := readWord port userClockSts0 0 u s
  (if prtData &&& sts0LckB60 ≠ 0 then setfreqsErrPllNoUnlock else 0, u, s)

/-- A command, and a sleep behind it whatever its result. -/
def avmmPause (f : QucpuUclock → σ → Int × QucpuUclock × σ) (u : Uclock) (s : σ) :
    Int × Uclock × σ :=
  let (err, u, s) := avmm f u s
  (err, u, port.sleep usrclkSleep1ms s)

def recalibrate (u : Uclock) (s : σ) : Int × Uclock × σ :=
  let r := avmm (fiAvmmReadModifyWriteVerify port 0x000 0x02 0xff) u s
  let r := whenOk r fun (u, s) => avmm (fiAvmmReadModifyWrite port 0x100 0x02 0x02) u s
  whenOk r fun (u, s) => avmmPause port (fiAvmmWrite port 0x000 0x01) u s

def waitLock (u : Uclock) (s : σ) : BitVec 64 × σ :=
  waitStatus port (fun prtData => decide (prtData &&& sts0LckB60 ≠ 0)) u 100 0 s

def checkLocked (u : Uclock) (s : σ) : Int × Uclock × σ :=
  let (prtData, s) := waitLock port u s
  (if prtData &&& sts0LckB60 = 0 then setfreqsErrPllLockTo else 0, u, s)

def setFreqsError (refclk frqInx : BitVec 64) (u : Uclock) : Int :=
  if ¬u.initzState then setfreqsErrInitzstate
  else if refclkError u.initialParams refclk ≠ 0 then refclkError u.initialParams refclk
  else frqInxError u.initialParams refclk frqInx

def fiSetFreqs (tables : DiffMifTables) (refclk frqInx : BitVec 64) (u : Uclock) (s : σ) :
    Int × Uclock × σ :=
  -- power down, by way of the power down port
  let r := whenOk (setFreqsError refclk frqInx u, u, s) fun (u, s) =>
    avmmPause port (fiAvmmReadModifyWriteVerify port 0x2e0 0x03 0x03) u s
  let r := whenOk r fun (u, s) => checkUnlocked port u s
  let r := whenOk r fun (u, s) =>
    let (u, s) := selectRefclk port refclk u s
    pushTable port tables refclk frqInx (List.range u.initialParams.numReg.toNat) u s
  let r := whenOk r fun (u, s) => fiWaitCalDone port u s
  let r := whenOk r fun (u, s) => recalibrate port u s
  let r := whenOk r fun (u, s) => fiWaitCalDone port u s
  -- power up
  let r := whenOk r fun (u, s) => avmm (fiAvmmReadModifyWriteVerify port 0x2e0 0x02 0x03) u s
  whenOk r fun (u, s) => checkLocked port u s

/-- The result, and what is in `*ptFreqs_retFreqs`. -/
def fiGetFreqs (freqs : Freqs) (u : Uclock) (s : σ) : Int × Freqs × Uclock × σ :=
  if ¬u.initzState then (getfreqsErrInitzstate, freqs, u, s)
  else
    let u := { u with cmdReg1 := u.cmdReg1 &&& ~~~cmd1MeaB32 }
    let s := port.sleep usrclkSleep10ms (writeWord port userClockCmd1 u.cmdReg1 u s)
    let (prtData, s) := readWord port userClockSts1 u.cmdReg1 u s
    let freqs := { freqs with frqDivBy2 := (prtData &&& sts1FrqB16t00) * 10000 }
    let s := port.sleep usrclkSleep10ms s
    let u := { u with cmdReg1 := u.cmdReg1 ||| cmd1MeaB32 }
    let s := port.sleep usrclkSleep10ms (writeWord port userClockCmd1 u.cmdReg1 u s)
    let (prtData, s) := readWord port userClockSts1 u.cmdReg1 u s
    let freqs := { freqs with frqClkUsr := (prtData &&& sts1FrqB16t00) * 10000 }
    (0, freqs, u, port.sleep usrclkSleep10ms s)

/-- `get_userclock` of a device without an IOPLL: the frequencies are handed out with `FPGA_OK`. -/
def getUserclock (sysfsPath : String) (freqs : Freqs) (u : Uclock) (s : σ) :
    FpgaResult × Freqs × Uclock × σ :=
  let (err, u, s) := fiRunInitz port (some sysfsPath) u s
  if err ≠ 0 then (.notSupported, freqs, u, s)
  else
    let (err, freqs, u, s) := fiGetFreqs port freqs u s
    if err ≠ 0 then (.notSupported, freqs, u, s) else (.ok, freqs, u, s)

def refClk (p : QucpuInitz) : BitVec 64 :=
  if p.version = sts1VerVersionLegacy ∧ p.pllId = idiRf322m then 1 else 0

/-- `set_userclock` of a device without an IOPLL, behind the checks of the frequencies. -/
def setUserclock (tables : DiffMifTables) (sysfsPath : String) (freq : BitVec 64) (u : Uclock)
    (s : σ) : FpgaResult × Uclock × σ :=
  let (err, u, s) := fiRunInitz port (some sysfsPath) u s
  if err ≠ 0 then (.notSupported, u, s)
  else
    let (err, u, s) := fiSetFreqs port tables (refClk u.initialParams) freq u s
    if err ≠ 0 then (.notSupported, u, s) else (.ok, u, s)

/-- The same of the files of a port: what becomes of a device without an IOPLL. -/
def fpll (files : Files σ) (sleep : Nat → σ → σ) (indeterminate : σ → BitVec 64)
    (tables : DiffMifTables) (sysfsPath : String) (u : Uclock) (freq : UInt64) (s : σ) :
    FpgaResult × σ :=
  let (result, _, s) :=
    setUserclock (filesPort files sleep indeterminate) tables sysfsPath freq.toBitVec u s
  (result, s)

end Code

/-- What is written to the command registers. -/
inductive Command
  | reset
  | release
  | read (adr : BitVec 64)
  | write (adr dat : BitVec 64)
  | select (refclk : BitVec 64)
  | measure (user : Bool)

def Shadow.after (h : Shadow) : Command → Shadow
  | .reset => { h with cmdReg0 := (h.cmdReg0 ||| cmd0PrsB56) &&& ~~~cmd0MrnB52 }
  | .release => { h with cmdReg0 := (h.cmdReg0 ||| cmd0MrnB52) &&& ~~~cmd0PrsB56 }
  | .read adr => { h with toQucpuUclock := afterCommand h.toQucpuUclock 0 adr 0 }
  | .write adr dat => { h with toQucpuUclock := afterCommand h.toQucpuUclock 1 adr dat }
  | .select refclk =>
    let reg := h.cmdReg0 &&& ~~~cmd0Sr1B58
    { h with cmdReg0 := if refclk ≠ 0 then reg ||| cmd0Sr1B58 else reg }
  | .measure true => { h with cmdReg1 := h.cmdReg1 ||| cmd1MeaB32 }
  | .measure false => { h with cmdReg1 := h.cmdReg1 &&& ~~~cmd1MeaB32 }

/-- The file of a command and the word that is written there. -/
def Shadow.sent (h : Shadow) : Command → String × BitVec 64
  | .measure user =>
    (sysfsUsrpath h.sysfsPath userClockCmd1, (h.after (.measure user)).cmdReg1)
  | c => (sysfsUsrpath h.sysfsPath userClockCmd0, (h.after c).cmdReg0)

def Shadow.transmit (h : Shadow) : List Command → List (String × BitVec 64)
  | [] => []
  | c :: cs => h.sent c :: (h.after c).transmit cs

theorem Shadow.foldl_sysfsPath (h : Shadow) (cs : List Command) :
    (cs.foldl Shadow.after h).sysfsPath = h.sysfsPath := by
  induction cs generalizing h with
  | nil => rfl
  | cons c cs ih =>
    refine (ih (h.after c)).trans ?_
    cases c with
    | measure user => cases user <;> rfl
    | _ => rfl

theorem Shadow.transmit_concat (h : Shadow) (cs : List Command) (c : Command) :
    h.transmit (cs ++ [c]) = h.transmit cs ++ [(cs.foldl Shadow.after h).sent c] := by
  induction cs generalizing h with
  | nil => rfl
  | cons c' cs ih => exact congrArg (h.sent c' :: ·) (ih (h.after c'))

/-- What the functions are made of: checks, the reset, the check of the ID, accesses of the PLL by
read and write, with a read behind them or not, or by a write alone, and the selections of a
reference clock and of a counter. -/
inductive Instr
  | check
  | reset
  | identify
  | modify (verify : Bool) (adr dat msk : BitVec 64)
  | write (adr dat : BitVec 64)
  | select (refclk : BitVec 64)
  | measure (user : Bool)

inductive Instr.Makes : Instr → List Command → Prop
  | check : Makes .check []
  | reset : Makes .reset [.reset, .release]
  | identify : Makes .identify [.read avmmFpllIpi200]
  | modify {adr dat msk} (v : BitVec 64) :
    Makes (.modify false adr dat msk) [.read adr, .write adr (v &&& ~~~msk ||| dat &&& msk)]
  | verify {adr dat msk} (v : BitVec 64) :
    Makes (.modify true adr dat msk)
      [.read adr, .write adr (v &&& ~~~msk ||| dat &&& msk), .read adr]
  | write {adr dat} : Makes (.write adr dat) [.write adr dat]
  | select {refclk} : Makes (.select refclk) [.select refclk]
  | measure {user} : Makes (.measure user) [.measure user]

def Commands (i : Instr) (cs cs' : List Command) : Prop :=
  ∃ made, i.Makes made ∧ cs' = cs ++ made

/-- The first commands of an instruction. -/
def FirstCommands (i : Instr) (cs cs' : List Command) : Prop :=
  ∃ made full, i.Makes full ∧ made <+: full ∧ cs' = cs ++ made

/-- The version, the calibration before and after the reset, and the ID. -/
def initScript : List Instr :=
  [Instr.check] ++ [Instr.check] ++ ([Instr.reset] ++ [Instr.check]) ++ [Instr.identify]

def tableScript (tables : DiffMifTables) (refclk frqInx : BitVec 64) (mifRegs : List Nat) :
    List Instr :=
  mifRegs.map fun mifReg =>
    let entry := tblEntry tables refclk frqInx mifReg
    .modify true (entryAdr entry) (entryDat entry) (entryMsk entry)

/-- Power down, the reference clock, the table, recalibration and power up. -/
def setScript (tables : DiffMifTables) (refclk frqInx : BitVec 64) : List Instr :=
  [Instr.check] ++ [Instr.modify true 0x2e0 0x03 0x03] ++ [Instr.check] ++
    ([Instr.select refclk] ++ tableScript tables refclk frqInx (List.range numreg.toNat)) ++
    [Instr.check] ++
    ([Instr.modify true 0x000 0x02 0xff] ++ [Instr.modify false 0x100 0x02 0x02] ++
      [Instr.write 0x000 0x01]) ++
    [Instr.check] ++ [Instr.modify true 0x2e0 0x02 0x03] ++ [Instr.check]

theorem fiWaitCalDone_state {σ : Type} (port : Port σ) (u : Uclock) (s : σ) :
    (fiWaitCalDone port u s).2 = (u, (waitCalDone port u s).2) := by
  rw [fiWaitCalDone]

theorem checkLocked_state {σ : Type} (port : Port σ) (u : Uclock) (s : σ) :
    (checkLocked port u s).2 = (u, (waitLock port u s).2) := by
  rw [checkLocked]

/-- The commands that have been sent since the shadows were as `h`, and what is known of the
parameters. -/
structure Sent {σ : Type} (h : Shadow) (before : List (String × BitVec 64)) (P : QucpuInitz → Prop)
    (state : Uclock × σ × List Access) (cs : List Command) : Prop where
  shadow : state.1.toShadow = cs.foldl Shadow.after h
  written : writes state.2.2 = before ++ h.transmit cs
  params : P state.1.initialParams

section Sent

variable {σ : Type} (port : Port σ) {h : Shadow} {before : List (String × BitVec 64)}
  {P : QucpuInitz → Prop} {u : Uclock} {s : σ × List Access} {cs : List Command}

theorem Sent.concat {t : σ × List Access} {h' : Shadow} (hs : Sent h before P (u, s) cs)
    (c : Command) (hc : h' = u.toShadow.after c)
    (ht : writes t.2 = writes s.2 ++ [u.toShadow.sent c]) :
    Sent h before P ({ u with toShadow := h' }, t) (cs ++ [c]) where
  shadow := by
    rw [List.foldl_append, ← hs.shadow]
    exact hc
  written := by
    rw [ht, hs.written, Shadow.transmit_concat, hs.shadow, List.append_assoc]
  params := hs.params

theorem Sent.quiet {t : σ × List Access} (hs : Sent h before P (u, s) cs)
    (ht : writes t.2 = writes s.2) : Sent h before P (u, t) cs :=
  ⟨hs.shadow, ht.trans hs.written, hs.params⟩

theorem writes_polled (log : List Access) (path : String) (answers : List (Option (BitVec 64))) :
    writes (log ++ answers.map (Access.polled path)) = writes log := by
  rw [writes, List.filterMap_append]
  induction answers with
  | nil => exact List.append_nil _
  | cons answer answers ih => exact ih

theorem writes_concat (log : List Access) (path : String) (word : BitVec 64) (ok : Bool) :
    writes (log ++ [.wrote path word ok]) = writes log ++ [(path, word)] := by
  rw [writes, List.filterMap_append]
  rfl

theorem writes_readWord (file : String) (prtData : BitVec 64) (u : Uclock)
    (s : σ × List Access) : writes (readWord (recorded port) file prtData u s).2.2 = writes s.2 :=
  writes_polled s.2 _ [_]

theorem writes_writeWord (file : String) (word : BitVec 64) (u : Uclock)
    (s : σ × List Access) :
    writes (writeWord (recorded port) file word u s).2 =
      writes s.2 ++ [(sysfsUsrpath u.sysfsPath file, word)] :=
  writes_concat s.2 _ word _

theorem writes_waitStatus (passes : BitVec 64 → Bool) (u : Uclock) (n : Nat) (prtData : BitVec 64)
    (s : σ × List Access) :
    writes (waitStatus (recorded port) passes u n prtData s).2.2 = writes s.2 := by
  induction n generalizing prtData s with
  | zero => rfl
  | succ n ih =>
    rw [waitStatus]
    dsimp only
    split
    · exact writes_readWord port _ 0 u s
    · exact (ih _ _).trans (writes_readWord port _ 0 u s)

abbrev FollowsCommands (h : Shadow) (before : List (String × BitVec 64)) (P : QucpuInitz → Prop) :
    List Instr → Int × Uclock × σ × List Access → List Command → Prop :=
  Follows Commands FirstCommands (Sent h before P)

theorem follows_check {r : Int × Uclock × σ × List Access} (hr : Sent h before P r.2 cs) :
    FollowsCommands h before P [.check] r cs :=
  .single hr (fun _ => ⟨[], .check, (List.append_nil cs).symm⟩)
    fun _ => ⟨[], [], .check, List.prefix_rfl, (List.append_nil cs).symm⟩

theorem rwcom_commands (cmdWrite : Int) (adr writeData readData : BitVec 64)
    (g : QucpuUclock) (s : σ × List Access) :
    ∃ res dat t, fiAvmmRWcom (recorded port) cmdWrite adr writeData readData g s =
        (res, dat, afterCommand g cmdWrite adr writeData, t) ∧
      writes t.2 = writes s.2 ++ [(sysfsUsrpath g.sysfsPath userClockCmd0,
        (afterCommand g cmdWrite adr writeData).cmdReg0)] := by
  obtain ⟨t, -, hlog⟩ := fiAvmmRWcom_eq g cmdWrite adr writeData readData s.1 port s.2
  refine ⟨_, _, (t, _), hlog, ?_⟩
  dsimp only
  rw [List.append_cons, writes_polled, writes_concat, afterCommand_cmdReg0]

theorem sent_read (hs : Sent h before P (u, s) cs) (adr readData : BitVec 64) :
    ∃ res dat g t, fiAvmmRead (recorded port) adr readData u.toQucpuUclock s = (res, dat, g, t) ∧
      Sent h before P ({ u with toQucpuUclock := g }, t) (cs ++ [.read adr]) := by
  obtain ⟨res, dat, t, heq, ht⟩ := rwcom_commands port 0 adr 0 readData u.toQucpuUclock s
  exact ⟨res, dat, _, t, heq, hs.concat (.read adr) rfl ht⟩

theorem sent_write (hs : Sent h before P (u, s) cs) (adr dat : BitVec 64) :
    ∃ res g t, fiAvmmWrite (recorded port) adr dat u.toQucpuUclock s = (res, g, t) ∧
      Sent h before P ({ u with toQucpuUclock := g }, t) (cs ++ [.write adr dat]) := by
  obtain ⟨res, readData, t, heq, ht⟩ := rwcom_commands port 1 adr dat 0 u.toQucpuUclock s
  refine ⟨res, _, t, ?_, hs.concat (.write adr dat) rfl ht⟩
  rw [fiAvmmWrite, heq]

theorem sent_modify (hs : Sent h before P (u, s) cs) (adr dat msk : BitVec 64) :
    ∃ res g t v, fiAvmmReadModifyWrite (recorded port) adr dat msk u.toQucpuUclock s =
        (res, g, t) ∧
      (Sent h before P ({ u with toQucpuUclock := g }, t)
          (cs ++ [.read adr, .write adr (v &&& ~~~msk ||| dat &&& msk)]) ∨
        res ≠ 0 ∧ Sent h before P ({ u with toQucpuUclock := g }, t) (cs ++ [.read adr])) := by
  obtain ⟨res, v, g, t, hread, hsent⟩ := sent_read port hs adr 0
  by_cases hres : res = 0
  · obtain ⟨res', g', t', hwrite, hsent'⟩ :=
      sent_write port hsent adr (v &&& ~~~msk ||| dat &&& msk)
    refine ⟨res', g', t', v, ?_, .inl ?_⟩
    · rw [fiAvmmReadModifyWrite, hread]
      dsimp only
      rw [if_pos hres]
      exact hwrite
    · rw [List.append_cons]
      exact hsent'
  · refine ⟨res, g, t, 0, ?_, .inr ⟨hres, hsent⟩⟩
    rw [fiAvmmReadModifyWrite, hread]
    exact if_neg hres

theorem follows_modify (hs : Sent h before P (u, s) cs) (adr dat msk : BitVec 64) :
    FollowsCommands h before P [.modify false adr dat msk]
      (avmm (fiAvmmReadModifyWrite (recorded port) adr dat msk) u s) cs := by
  obtain ⟨res, g, t, v, heq, hsent⟩ := sent_modify port hs adr dat msk
  rw [avmm, heq]
  rcases hsent with hsent | ⟨hres, hsent⟩
  · exact .single hsent (fun _ => ⟨_, .modify v, rfl⟩)
      fun _ => ⟨_, _, .modify v, List.prefix_rfl, rfl⟩
  · exact .single hsent (fun h => absurd h hres)
      fun _ => ⟨_, _, .modify v, ⟨_, rfl⟩, rfl⟩

theorem follows_verify (hs : Sent h before P (u, s) cs) (adr dat msk : BitVec 64) :
    FollowsCommands h before P [.modify true adr dat msk]
      (avmm (fiAvmmReadModifyWriteVerify (recorded port) adr dat msk) u s) cs := by
  obtain ⟨res, g, t, v, heq, hsent⟩ := sent_modify port hs adr dat msk
  rw [avmm, fiAvmmReadModifyWriteVerify, heq]
  dsimp only
  by_cases hres : res = 0
  · rw [if_pos hres]
    have hmodified := hsent.resolve_right fun h => h.1 hres
    obtain ⟨res', v', g', t', hread, hsent'⟩ := sent_read port hmodified adr 0
    rw [hread]
    rw [List.append_assoc] at hsent'
    -- the read has been made, whatever its outcome
    have hend : ∀ err : Int, FollowsCommands h before P [.modify true adr dat msk]
        (err, { u with toQucpuUclock := g' }, t') cs := fun err =>
      .single hsent' (fun _ => ⟨_, .verify v, rfl⟩) fun _ => ⟨_, _, .verify v, List.prefix_rfl, rfl⟩
    dsimp only
    split
    · split
      · exact hend _
      · exact hend _
    · exact hend _
  · rw [if_neg hres]
    rcases hsent with hsent | ⟨-, hsent⟩
    · exact .single hsent (fun h => absurd h hres)
        fun _ => ⟨_, _, .verify v, ⟨[.read adr], rfl⟩, rfl⟩
    · exact .single hsent (fun h => absurd h hres) fun _ => ⟨_, _, .verify v, ⟨_, rfl⟩, rfl⟩

theorem follows_write (hs : Sent h before P (u, s) cs) (adr dat : BitVec 64) :
    FollowsCommands h before P [.write adr dat]
      (avmm (fiAvmmWrite (recorded port) adr dat) u s) cs := by
  obtain ⟨res, g, t, heq, hsent⟩ := sent_write port hs adr dat
  rw [avmm, heq]
  exact .single hsent (fun _ => ⟨_, .write, rfl⟩) fun _ => ⟨_, _, .write, List.prefix_rfl, rfl⟩

theorem follows_avmmPause {is : List Instr} {f : QucpuUclock → σ × List Access →
    Int × QucpuUclock × σ × List Access} (hf : FollowsCommands h before P is (avmm f u s) cs) :
    FollowsCommands h before P is (avmmPause (recorded port) f u s) cs :=
  hf.congr fun _ hs => hs.quiet rfl

theorem follows_waitCalDone (hs : Sent h before P (u, s) cs) :
    FollowsCommands h before P [.check] (fiWaitCalDone (recorded port) u s) cs := by
  have hwaited : Sent h before P (u, (waitCalDone (recorded port) u s).2) cs :=
    hs.quiet (writes_waitStatus port _ u 1000 0 s)
  rw [← fiWaitCalDone_state] at hwaited
  exact follows_check hwaited

theorem follows_checkLocked (hs : Sent h before P (u, s) cs) :
    FollowsCommands h before P [.check] (checkLocked (recorded port) u s) cs := by
  have hwaited : Sent h before P (u, (waitLock (recorded port) u s).2) cs :=
    hs.quiet (writes_waitStatus port _ u 100 0 s)
  rw [← checkLocked_state] at hwaited
  exact follows_check hwaited

theorem sent_resetMachine (hs : Sent h before P (u, s) cs) :
    Sent h before P (resetMachine (recorded port) u s) (cs ++ [.reset, .release]) := by
  let u' := { u with cmdReg0 := (u.cmdReg0 ||| cmd0PrsB56) &&& ~~~cmd0MrnB52 }
  have hreset := hs.concat .reset rfl (writes_writeWord port userClockCmd0 u'.cmdReg0 u' s)
  rw [List.append_cons]
  exact hreset.concat .release rfl (writes_writeWord port userClockCmd0 _ _ _)

theorem follows_cycleReset (hs : Sent h before P (u, s) cs) :
    FollowsCommands h before P ([Instr.reset] ++ [Instr.check])
      (cycleReset (recorded port) u s) cs :=
  .after (.single ⟨_, .reset, rfl⟩) (follows_waitCalDone port (sent_resetMachine port hs))

theorem follows_identify (hP : ∀ p v, P p → P { p with pllId := v })
    (hs : Sent h before P (u, s) cs) :
    FollowsCommands h before P [.identify] (identify (recorded port) u s) cs := by
  obtain ⟨res, dat, g, t, heq, hsent⟩ :=
    sent_read port hs avmmFpllIpi200 ((recorded port).indeterminate s)
  rw [identify, heq]
  dsimp only
  split
  · exact .single ⟨hsent.shadow, hsent.written, hP _ _ hsent.params⟩
      (fun _ => ⟨_, .identify, rfl⟩)
      fun _ => ⟨_, _, .identify, List.prefix_rfl, rfl⟩
  · exact .single hsent (fun _ => ⟨_, .identify, rfl⟩)
      fun _ => ⟨_, _, .identify, List.prefix_rfl, rfl⟩

theorem sent_selectRefclk (hs : Sent h before P (u, s) cs) (refclk : BitVec 64) :
    Sent h before P (selectRefclk (recorded port) refclk u s) (cs ++ [.select refclk]) :=
  hs.concat (.select refclk) rfl (writes_writeWord port userClockCmd0 _ _ s)

theorem follows_pushTable (tables : DiffMifTables) (refclk frqInx : BitVec 64) (mifRegs : List Nat)
    (hs : Sent h before P (u, s) cs) :
    FollowsCommands h before P (tableScript tables refclk frqInx mifRegs)
      (pushTable (recorded port) tables refclk frqInx mifRegs u s) cs := by
  induction mifRegs generalizing u s cs with
  | nil => exact .nil rfl hs
  | cons mifReg rest ih =>
    let entry := tblEntry tables refclk frqInx mifReg
    have hentry := follows_verify port hs (entryAdr entry) (entryDat entry)
      (entryMsk entry)
    have heq : pushTable (recorded port) tables refclk frqInx (mifReg :: rest) u s =
        whenOk (avmm (fiAvmmReadModifyWriteVerify (recorded port) (entryAdr entry)
          (entryDat entry) (entryMsk entry)) u s)
          fun (u, s) => pushTable (recorded port) tables refclk frqInx rest u s := by
      rw [pushTable, whenOk]
      exact ite_not ..
    rw [heq]
    exact hentry.whenOk fun _ _ hb => ih hb

/-- The shadows as `fi_RunInitz` begins. -/
def initial (sysfsPath : String) : Shadow :=
  ⟨⟨String.ofList (sysfsPath.toList.take (sysfsPathMax - 1)), 0, 0⟩, 0⟩

theorem follows_fiRunInitz (sysfsPath : String) (u : Uclock)
    (s : σ × List Access) :
    FollowsCommands (initial sysfsPath) (writes s.2) (fun p => p.numReg = numreg) initScript
      (fiRunInitz (recorded port) (some sysfsPath) u s) [] := by
  let u₀ : Uclock := ⟨initial sysfsPath, false, 0, 0, numfrqIntgEnd, numfrqFracBeg, numfrqFracEnd,
    numreg⟩
  have hstart : FollowsCommands (initial sysfsPath) (writes s.2) (fun p => p.numReg = numreg)
      [.check] (readVersion (recorded port) u₀ s) [] :=
    follows_check ⟨rfl, (writes_readWord port _ 0 u₀ s).trans (List.append_nil _).symm, rfl⟩
  have hchecked := ((hstart.whenOk fun _ _ hs => follows_waitCalDone port hs).whenOk
    fun _ _ hs => follows_cycleReset port hs).whenOk fun _ _ hs =>
      follows_identify port (fun _ _ hp => hp) hs
  exact hchecked.congr fun _ hs => ⟨hs.shadow, hs.written, hs.params⟩

theorem follows_recalibrate (hs : Sent h before P (u, s) cs) :
    FollowsCommands h before P ([Instr.modify true 0x000 0x02 0xff] ++
      [Instr.modify false 0x100 0x02 0x02] ++ [Instr.write 0x000 0x01])
      (recalibrate (recorded port) u s) cs :=
  ((follows_verify port hs 0x000 0x02 0xff).whenOk fun _ _ hs =>
    follows_modify port hs 0x100 0x02 0x02).whenOk fun _ _ hs =>
      follows_avmmPause port (follows_write port hs 0x000 0x01)

theorem follows_fiSetFreqs (tables : DiffMifTables) (refclk frqInx : BitVec 64)
    (hP : ∀ p, P p → p.numReg = numreg) (hs : Sent h before P (u, s) cs) :
    FollowsCommands h before P (setScript tables refclk frqInx)
      (fiSetFreqs (recorded port) tables refclk frqInx u s) cs := by
  have hpushed : ∀ (state : Uclock × σ × List Access) cs, Sent h before P state cs →
      FollowsCommands h before P
        ([.select refclk] ++ tableScript tables refclk frqInx (List.range numreg.toNat))
        (pushTable (recorded port) tables refclk frqInx
          (List.range state.1.initialParams.numReg.toNat)
          (selectRefclk (recorded port) refclk state.1 state.2).1
          (selectRefclk (recorded port) refclk state.1 state.2).2) cs := by
    intro state cs hs
    rw [hP _ hs.params]
    exact .after (.single ⟨_, .select, rfl⟩)
      (follows_pushTable port tables refclk frqInx _ (sent_selectRefclk port hs refclk))
  have hchecked : FollowsCommands h before P [.check] (setFreqsError refclk frqInx u, u, s) cs :=
    follows_check hs
  have hunlocked := (hchecked.whenOk fun _ _ hs =>
    follows_avmmPause port (follows_verify port hs 0x2e0 0x03 0x03)).whenOk
      fun _ _ hs => (follows_check (hs.quiet (writes_readWord port _ 0 _ _)) :
        FollowsCommands h before P [.check] (checkUnlocked (recorded port) _ _) _)
  have hpowered := (((hunlocked.whenOk hpushed).whenOk fun _ _ hs =>
    follows_waitCalDone port hs).whenOk fun _ _ hs => follows_recalibrate port hs).whenOk
      fun _ _ hs => follows_waitCalDone port hs
  exact (hpowered.whenOk fun _ _ hs => follows_verify port hs 0x2e0 0x02 0x03).whenOk
    fun _ _ hs => follows_checkLocked port hs

theorem follows_setUserclock (tables : DiffMifTables) (sysfsPath : String) (freq : BitVec 64)
    (u : Uclock) (s : σ × List Access) :
    let r := setUserclock (recorded port) tables sysfsPath freq u s
    let script := initScript ++ setScript tables (refClk r.2.1.initialParams) freq
    ∃ cs, Sent (initial sysfsPath) (writes s.2) (fun _ => True) r.2 cs ∧
      (r.1 = .ok → Done Commands script [] cs) ∧
      (r.1 ≠ .ok → GivenUp Commands FirstCommands script [] cs) := by
  dsimp only
  obtain ⟨cs, hs, hdone, hgiven⟩ := follows_fiRunInitz port sysfsPath u s
  rw [setUserclock]
  generalize fiRunInitz (recorded port) (some sysfsPath) u s = r at hs hdone hgiven
  obtain ⟨err, u, s'⟩ := r
  dsimp only at hs hdone hgiven ⊢
  by_cases herr : err = 0
  · rw [if_neg (not_not.mpr herr)]
    -- the parameters stay as they are from here on
    have hparams : Sent (initial sysfsPath) (writes s.2) (· = u.initialParams) (u, s') cs :=
      ⟨hs.shadow, hs.written, rfl⟩
    obtain ⟨cs', hs', hdone', hgiven'⟩ := follows_fiSetFreqs port tables
      (refClk u.initialParams) freq (fun p hp => by rw [hp]; exact hs.params) hparams
    generalize fiSetFreqs (recorded port) tables (refClk u.initialParams) freq u s' = r
      at hs' hdone' hgiven'
    obtain ⟨err', u', s''⟩ := r
    have hpar : u'.initialParams = u.initialParams := hs'.params
    refine ⟨cs', ?_⟩
    dsimp only at hs' hdone' hgiven' ⊢
    by_cases herr' : err' = 0
    · rw [if_neg (not_not.mpr herr')]
      refine ⟨⟨hs'.shadow, hs'.written, trivial⟩, fun _ => ?_, fun h => absurd rfl h⟩
      rw [hpar]
      exact (hdone herr).append (hdone' herr')
    · rw [if_pos herr']
      refine ⟨⟨hs'.shadow, hs'.written, trivial⟩, (fun h => by cases h), fun _ => ?_⟩
      rw [hpar]
      exact (hgiven' herr').append_left (hdone herr)
  · rw [if_pos herr]
    exact ⟨cs, ⟨hs.shadow, hs.written, trivial⟩, (fun h => by cases h),
      fun _ => (hgiven herr).append_right _⟩

theorem waitStatus_passes (passes : BitVec 64 → Bool) (u : Uclock) {n : Nat} (prtData : BitVec 64)
    {s : σ × List Access} (hzero : passes 0 = false) (hstart : passes prtData = false)
    (h : passes (waitStatus (recorded port) passes u n prtData s).1 = true) :
    ∃ v, (waitStatus (recorded port) passes u n prtData s).2.2.getLast? =
        some (.polled (sysfsUsrpath u.sysfsPath userClockSts0) (some v)) ∧ passes v = true := by
  induction n generalizing prtData s with
  | zero => exact absurd (hstart.symm.trans h) Bool.false_ne_true
  | succ n ih =>
    rw [waitStatus] at h ⊢
    generalize hread : readWord (recorded port) userClockSts0 0 u s = r at h ⊢
    dsimp only at h ⊢
    by_cases hpasses : passes r.1 = true
    · rw [if_pos hpasses]
      subst hread
      rw [readWord] at hpasses ⊢
      dsimp only [recorded] at hpasses ⊢
      cases hanswer : (port.readU64 (sysfsUsrpath u.sysfsPath userClockSts0) s.1).1 with
      | none =>
        rw [hanswer] at hpasses
        exact absurd (hzero.symm.trans hpasses) Bool.false_ne_true
      | some v =>
        rw [hanswer] at hpasses
        exact ⟨v, List.getLast?_concat, hpasses⟩
    · rw [if_neg hpasses] at h ⊢
      exact ih r.1 (Bool.not_eq_true _ ▸ hpasses) h

theorem checkLocked_ok (u : Uclock) (s : σ × List Access)
    (h : (checkLocked (recorded port) u s).1 = 0) :
    ∃ v, (checkLocked (recorded port) u s).2.2.2.getLast? =
        some (.polled (sysfsUsrpath (checkLocked (recorded port) u s).2.1.sysfsPath userClockSts0)
          (some v)) ∧
      v &&& sts0LckB60 ≠ 0 := by
  have hlocked : (waitLock (recorded port) u s).1 &&& sts0LckB60 ≠ 0 := by
    intro hzero
    have hfails : (checkLocked (recorded port) u s).1 = setfreqsErrPllLockTo := if_pos hzero
    rw [hfails] at h
    cases h
  obtain ⟨v, hlast, hv⟩ := waitStatus_passes port
    (fun prtData => decide (prtData &&& sts0LckB60 ≠ 0)) u (n := 100) 0 (s := s) rfl rfl
    (decide_eq_true hlocked)
  exact ⟨v, hlast, of_decide_eq_true hv⟩

theorem setUserclock_locked (tables : DiffMifTables) (sysfsPath : String) (freq : BitVec 64)
    (u : Uclock) (s : σ × List Access)
    (h : (setUserclock (recorded port) tables sysfsPath freq u s).1 = .ok) :
    ∃ v, (setUserclock (recorded port) tables sysfsPath freq u s).2.2.2.getLast? =
      some (.polled (sysfsUsrpath
        (setUserclock (recorded port) tables sysfsPath freq u s).2.1.sysfsPath userClockSts0)
        (some v)) ∧ v &&& sts0LckB60 ≠ 0 := by
  rw [setUserclock] at h ⊢
  generalize fiRunInitz (recorded port) (some sysfsPath) u s = r at h ⊢
  obtain ⟨err, u, s⟩ := r
  dsimp only at h ⊢
  by_cases herr : err = 0
  · rw [if_neg (not_not.mpr herr)] at h ⊢
    by_cases hset : (fiSetFreqs (recorded port) tables (refClk u.initialParams) freq u s).1 = 0
    · rw [if_neg (not_not.mpr hset)]
      exact whenOk_ensures (Q := fun r => ∃ v, r.2.2.2.getLast? =
          some (.polled (sysfsUsrpath r.2.1.sysfsPath userClockSts0) (some v)) ∧
            v &&& sts0LckB60 ≠ 0)
        (fun x hx => checkLocked_ok port x.1 x.2 hx) hset
    · rw [if_pos hset] at h
      cases h
  · rw [if_pos herr] at h
    cases h

end Sent

section Scripts

/-- The register and the word of a command that writes a register of the PLL. -/
def Command.avmmWrite : Command → Option (BitVec 64 × BitVec 64)
  | .write adr dat => some (adr, dat)
  | _ => none

/-- The register that an instruction programs, the bits and the mask. -/
def Instr.programs : Instr → Option (BitVec 64 × BitVec 64 × BitVec 64)
  | .modify _ adr dat msk => some (adr, dat, msk)
  | .write adr dat => some (adr, dat, BitVec.allOnes 64)
  | _ => none

/-- A word is written to the register that is to be programmed, with the bits under the mask. -/
def Programs (made : BitVec 64 × BitVec 64) (want : BitVec 64 × BitVec 64 × BitVec 64) : Prop :=
  made.1 = want.1 ∧ made.2 &&& want.2.2 = want.2.1 &&& want.2.2

theorem programs_modify (adr dat msk v : BitVec 64) :
    Programs (adr, v &&& ~~~msk ||| dat &&& msk) (adr, dat, msk) := by
  refine ⟨rfl, BitVec.eq_of_getLsbD_eq fun i hi => ?_⟩
  simp only [BitVec.getLsbD_and, BitVec.getLsbD_or, BitVec.getLsbD_not]
  grind

theorem makes_programs {i : Instr} {cs : List Command} (h : i.Makes cs) :
    List.Forall₂ Programs (cs.filterMap Command.avmmWrite) i.programs.toList := by
  cases h with
  | modify v => exact .cons (programs_modify _ _ _ v) .nil
  | verify v => exact .cons (programs_modify _ _ _ v) .nil
  | write => exact .cons ⟨rfl, rfl⟩ .nil
  | _ => exact .nil

/-- The registers that a script programs, in order. -/
def programmed (script : List Instr) : List (BitVec 64 × BitVec 64 × BitVec 64) :=
  script.flatMap fun i => i.programs.toList

theorem done_programs {script : List Instr} {cs cs' : List Command}
    (h : Done Commands script cs cs') :
    ∃ made, cs' = cs ++ made ∧
      List.Forall₂ Programs (made.filterMap Command.avmmWrite) (programmed script) := by
  induction h with
  | nil => exact ⟨[], (List.append_nil _).symm, .nil⟩
  | cons hi _ ih =>
    obtain ⟨made, hmakes, rfl⟩ := hi
    obtain ⟨rest, rfl, hrest⟩ := ih
    refine ⟨made ++ rest, List.append_assoc .., ?_⟩
    rw [List.filterMap_append]
    exact List.rel_append (makes_programs hmakes) hrest

theorem givenUp_programs {script : List Instr} {cs cs' : List Command}
    (h : GivenUp Commands FirstCommands script cs cs') :
    ∃ made n, cs' = cs ++ made ∧
      List.Forall₂ Programs (made.filterMap Command.avmmWrite) ((programmed script).take n) := by
  induction h with
  | @here i is cs cs' hi =>
    obtain ⟨made, full, hmakes, ⟨rest, rfl⟩, rfl⟩ := hi
    have hfull := makes_programs hmakes
    rw [List.filterMap_append] at hfull
    have hmade := List.forall₂_take (made.filterMap Command.avmmWrite).length hfull
    rw [List.take_left] at hmade
    have hle : (made.filterMap Command.avmmWrite).length ≤ i.programs.toList.length := by
      rw [← hfull.length_eq, List.length_append]
      omega
    refine ⟨made, (made.filterMap Command.avmmWrite).length, rfl, ?_⟩
    rw [programmed, List.flatMap_cons, List.take_append_of_le_length hle]
    exact hmade
  | @later i is cs _ cs' hi _ ih =>
    obtain ⟨made, hmakes, rfl⟩ := hi
    obtain ⟨rest, n, rfl, hrest⟩ := ih
    refine ⟨made ++ rest, i.programs.toList.length + n, List.append_assoc .., ?_⟩
    rw [List.filterMap_append, programmed, List.flatMap_cons, List.take_length_add_append]
    exact List.rel_append (makes_programs hmakes) hrest

/-- The control bits of a word: the machine is released, and no reset is asked for; the reference
clock is one or the other. -/
def Released (word : BitVec 64) : Prop :=
  word.extractLsb' 52 12 = 0x001 ∨ word.extractLsb' 52 12 = 0x041

instance (word : BitVec 64) : Decidable (Released word) := inferInstanceAs (Decidable (_ ∨ _))

theorem commandWord_control (g : QucpuUclock) (cmdWrite : Int) (adr writeData : BitVec 64) :
    (commandWord g cmdWrite adr writeData).extractLsb' 52 12 = g.cmdReg0.extractLsb' 52 12 := by
  apply BitVec.eq_of_getLsbD_eq
  intro i hi
  rw [commandWord]
  simp only [BitVec.getLsbD_extractLsb', BitVec.getLsbD_append]
  grind

inductive Command.Plain : Command → Prop
  | read {adr} : Plain (.read adr)
  | write {adr dat} : Plain (.write adr dat)
  | select {refclk} : Plain (.select refclk)

theorem released_after {h : Shadow} (hr : Released h.cmdReg0) {c : Command} (hc : c.Plain) :
    Released (h.after c).cmdReg0 ∧ (h.sent c).2 = (h.after c).cmdReg0 := by
  cases hc with
  | read =>
    refine ⟨?_, rfl⟩
    rw [Shadow.after, afterCommand_cmdReg0, Released, commandWord_control]
    exact hr
  | write =>
    refine ⟨?_, rfl⟩
    rw [Shadow.after, afterCommand_cmdReg0, Released, commandWord_control]
    exact hr
  | @select refclk =>
    refine ⟨?_, rfl⟩
    rw [Released] at hr
    by_cases hrefclk : refclk = 0
    · rw [Shadow.after, Released, if_neg (not_not.mpr hrefclk), BitVec.extractLsb'_and]
      rcases hr with hr | hr
      · exact .inl (by rw [hr]; rfl)
      · exact .inl (by rw [hr]; rfl)
    · rw [Shadow.after, Released, if_pos hrefclk, BitVec.extractLsb'_or, BitVec.extractLsb'_and]
      rcases hr with hr | hr
      · exact .inr (by rw [hr]; rfl)
      · exact .inr (by rw [hr]; rfl)

theorem released_transmit {h : Shadow} (hr : Released h.cmdReg0) {cs : List Command}
    (hcs : ∀ c ∈ cs, c.Plain) : ∀ w ∈ h.transmit cs, Released w.2 := by
  induction cs generalizing h with
  | nil => exact fun w hw => absurd hw List.not_mem_nil
  | cons c cs ih =>
    obtain ⟨hreleased, hsent⟩ := released_after hr (hcs c List.mem_cons_self)
    intro w hw
    rcases List.mem_cons.mp hw with rfl | hw
    · rw [hsent]
      exact hreleased
    · exact ih hreleased (fun c hc => hcs c (List.mem_cons_of_mem _ hc)) w hw

inductive Instr.Plain : Instr → Prop
  | check : Plain .check
  | identify : Plain .identify
  | modify {verify adr dat msk} : Plain (.modify verify adr dat msk)
  | write {adr dat} : Plain (.write adr dat)
  | select {refclk} : Plain (.select refclk)

theorem makes_plain {i : Instr} (hi : i.Plain) {cs : List Command} (h : i.Makes cs) :
    ∀ c ∈ cs, c.Plain := by
  cases hi with
  | check =>
    cases h
    exact List.forall_mem_nil _
  | identify =>
    cases h
    exact List.forall_mem_singleton.mpr .read
  | modify =>
    cases h with
    | modify v => exact List.forall_mem_cons.mpr ⟨.read, List.forall_mem_singleton.mpr .write⟩
    | verify v =>
      exact List.forall_mem_cons.mpr ⟨.read, List.forall_mem_cons.mpr
        ⟨.write, List.forall_mem_singleton.mpr .read⟩⟩
  | write =>
    cases h
    exact List.forall_mem_singleton.mpr .write
  | select =>
    cases h
    exact List.forall_mem_singleton.mpr .select

theorem plain_setScript (tables : DiffMifTables) (refclk frqInx : BitVec 64) :
    ∀ i ∈ setScript tables refclk frqInx, i.Plain := by
  intro i hi
  simp only [setScript, tableScript, List.mem_append, List.mem_singleton, List.mem_map] at hi
  rcases hi with (((((((rfl | rfl) | rfl) | (rfl | ⟨mifReg, -, rfl⟩)) | rfl) | ((rfl | rfl) | rfl))
    | rfl) | rfl) | rfl
  all_goals constructor

/-- The machine has been reset and released, and is not reset again. -/
def AfterReset (cs : List Command) : Prop :=
  ∃ rest, cs = [.reset, .release] ++ rest ∧ ∀ c ∈ rest, c.Plain

theorem afterReset_append {cs made : List Command} (h : AfterReset cs)
    (hmade : ∀ c ∈ made, c.Plain) : AfterReset (cs ++ made) := by
  obtain ⟨rest, rfl, hrest⟩ := h
  exact ⟨rest ++ made, List.append_assoc .., List.forall_mem_append.mpr ⟨hrest, hmade⟩⟩

theorem afterReset_done {script : List Instr} (hscript : ∀ i ∈ script, i.Plain)
    {cs cs' : List Command} (h : Done Commands script cs cs') (hcs : AfterReset cs) :
    AfterReset cs' := by
  refine h.keeps (fun i hi a b hab ha => ?_) hcs
  obtain ⟨made, hmakes, rfl⟩ := hab
  exact afterReset_append ha (makes_plain (hscript i hi) hmakes)

theorem afterReset_givenUp {script : List Instr} (hscript : ∀ i ∈ script, i.Plain)
    {cs cs' : List Command} (h : GivenUp Commands FirstCommands script cs cs')
    (hcs : AfterReset cs) : AfterReset cs' := by
  refine h.keeps (fun i hi a b hab ha => ?_) (fun i hi a b hab ha => ?_) hcs
  · obtain ⟨made, hmakes, rfl⟩ := hab
    exact afterReset_append ha (makes_plain (hscript i hi) hmakes)
  · obtain ⟨made, full, hmakes, hfirst, rfl⟩ := hab
    exact afterReset_append ha fun c hc => makes_plain (hscript i hi) hmakes c (hfirst.subset hc)

theorem commands_check {cs cs' : List Command} (h : Commands .check cs cs') : cs' = cs := by
  obtain ⟨made, hmakes, rfl⟩ := h
  cases hmakes
  exact List.append_nil cs

theorem firstCommands_check {cs cs' : List Command} (h : FirstCommands .check cs cs') :
    cs' = cs := by
  obtain ⟨made, full, hmakes, hfirst, rfl⟩ := h
  cases hmakes
  rw [List.prefix_nil.mp hfirst, List.append_nil]

theorem reset_done {script : List Instr} (hscript : ∀ i ∈ script, i.Plain) {cs : List Command}
    (h : Done Commands (.check :: .check :: .reset :: script) [] cs) : AfterReset cs := by
  cases h with
  | cons h₁ h =>
  cases h with
  | cons h₂ h =>
  cases h with
  | cons h₃ h =>
  cases commands_check h₁
  cases commands_check h₂
  obtain ⟨made, hmakes, rfl⟩ := h₃
  cases hmakes
  exact afterReset_done hscript h ⟨[], rfl, List.forall_mem_nil _⟩

theorem reset_givenUp {script : List Instr} (hscript : ∀ i ∈ script, i.Plain) {cs : List Command}
    (h : GivenUp Commands FirstCommands (.check :: .check :: .reset :: script) [] cs) :
    cs <+: [.reset, .release] ∨ AfterReset cs := by
  cases h with
  | here h₁ => exact .inl (firstCommands_check h₁ ▸ List.nil_prefix)
  | later h₁ h =>
  cases commands_check h₁
  cases h with
  | here h₂ => exact .inl (firstCommands_check h₂ ▸ List.nil_prefix)
  | later h₂ h =>
  cases commands_check h₂
  cases h with
  | here h₃ =>
    obtain ⟨made, full, hmakes, hfirst, rfl⟩ := h₃
    cases hmakes
    exact .inl hfirst
  | later h₃ h =>
    obtain ⟨made, hmakes, rfl⟩ := h₃
    cases hmakes
    exact .inr (afterReset_givenUp hscript h ⟨[], rfl, List.forall_mem_nil _⟩)

theorem released_of_shape {sysfsPath : String} {cs : List Command}
    (h : cs <+: [.reset, .release] ∨ AfterReset cs) :
    ∀ w ∈ ((initial sysfsPath).transmit cs).drop 1, Released w.2 := by
  have hreleased : Released (((initial sysfsPath).after .reset).after .release).cmdReg0 :=
    have hword : Released ((((0 ||| cmd0PrsB56) &&& ~~~cmd0MrnB52) ||| cmd0MrnB52) &&&
        ~~~cmd0PrsB56) := by decide
    hword
  have hrelease : ∀ rest : List Command, (∀ c ∈ rest, c.Plain) →
      ∀ w ∈ ((initial sysfsPath).transmit ([.reset, .release] ++ rest)).drop 1, Released w.2 := by
    intro rest hrest w hw
    rcases List.mem_cons.mp hw with rfl | hw
    · exact hreleased
    · exact released_transmit hreleased hrest w hw
  rcases h with h | ⟨rest, rfl, hrest⟩
  · rcases List.prefix_cons_iff.mp h with rfl | ⟨t, rfl, ht⟩
    · exact List.forall_mem_nil _
    · rcases List.prefix_cons_iff.mp ht with rfl | ⟨t', rfl, ht'⟩
      · exact List.forall_mem_nil _
      · cases List.prefix_nil.mp ht'
        exact hrelease [] (List.forall_mem_nil _)
  · exact hrelease rest hrest

end Scripts

/-- Whatever the device does: the commands of a call go by the script, all of it where the call
succeeds, and then the last poll has seen the lock; so the registers are programmed in order, each
with the bits under its mask, and no word but the first resets the machine. -/
theorem set_userclock_programs {σ : Type} (port : Port σ) (tables : DiffMifTables)
    (sysfsPath : String) (freq : BitVec 64) (u : Uclock) (s : σ) (log : List Access) :
    let r := setUserclock (recorded port) tables sysfsPath freq u (s, log)
    let script := initScript ++ setScript tables (refClk r.2.1.initialParams) freq
    ∃ cs, writes r.2.2.2 = writes log ++ (initial sysfsPath).transmit cs ∧
      (∀ w ∈ ((initial sysfsPath).transmit cs).drop 1, Released w.2) ∧
      (r.1 ≠ .ok → GivenUp Commands FirstCommands script [] cs ∧
        ∃ n, List.Forall₂ Programs (cs.filterMap Command.avmmWrite)
          ((programmed script).take n)) ∧
      (r.1 = .ok → Done Commands script [] cs ∧
        List.Forall₂ Programs (cs.filterMap Command.avmmWrite) (programmed script) ∧
        ∃ v, r.2.2.2.getLast? = some (.polled
          (sysfsUsrpath (initial sysfsPath).sysfsPath userClockSts0) (some v)) ∧
          v &&& sts0LckB60 ≠ 0) := by
  intro r script
  obtain ⟨cs, hs, hdone, hgiven⟩ := follows_setUserclock port tables sysfsPath freq u (s, log)
  have hpath : r.2.1.sysfsPath = (initial sysfsPath).sysfsPath := by
    rw [hs.shadow]
    exact (initial sysfsPath).foldl_sysfsPath cs
  have hplain : ∀ i ∈ [Instr.check] ++ [Instr.identify] ++
      setScript tables (refClk r.2.1.initialParams) freq, i.Plain := by
    refine List.forall_mem_append.mpr ⟨?_, plain_setScript _ _ _⟩
    exact List.forall_mem_cons.mpr ⟨.check, List.forall_mem_singleton.mpr .identify⟩
  refine ⟨cs, hs.written, released_of_shape ?_, fun h => ⟨hgiven h, ?_⟩,
    fun h => ⟨hdone h, ?_, ?_⟩⟩
  · by_cases h : r.1 = .ok
    · exact .inr (reset_done hplain (hdone h))
    · exact reset_givenUp hplain (hgiven h)
  · obtain ⟨made, n, heq, hmade⟩ := givenUp_programs (hgiven h)
    rw [heq]
    exact ⟨n, hmade⟩
  · obtain ⟨made, heq, hmade⟩ := done_programs (hdone h)
    rw [heq]
    exact hmade
  · rw [← hpath]
    exact setUserclock_locked port tables sysfsPath freq u (s, log) h

section Params

variable {σ : Type} (port : Port σ)

theorem params_pushTable (tables : DiffMifTables) (refclk frqInx : BitVec 64) (mifRegs : List Nat)
    (u : Uclock) (s : σ) :
    (pushTable port tables refclk frqInx mifRegs u s).2.1.initialParams = u.initialParams := by
  induction mifRegs generalizing u s with
  | nil => rfl
  | cons mifReg rest ih =>
    rw [pushTable]
    dsimp only
    split
    · rfl
    · exact ih _ _

theorem params_whenOk {p : QucpuInitz} {r : Int × Uclock × σ} {k : Uclock × σ → Int × Uclock × σ}
    (hr : r.2.1.initialParams = p) (hk : ∀ x, (k x).2.1.initialParams = x.1.initialParams) :
    (whenOk r k).2.1.initialParams = p :=
  whenOk_keeps (I := fun x => x.1.initialParams = p) hr fun x hx => (hk x).trans hx

theorem params_fiSetFreqs (tables : DiffMifTables) (refclk frqInx : BitVec 64) (u : Uclock)
    (s : σ) :
    (fiSetFreqs port tables refclk frqInx u s).2.1.initialParams = u.initialParams := by
  rw [fiSetFreqs]
  dsimp only
  refine params_whenOk (params_whenOk (params_whenOk (params_whenOk (params_whenOk (params_whenOk
    (params_whenOk (params_whenOk rfl ?_) ?_) ?_) ?_) ?_) ?_) ?_) ?_
  · exact fun _ => rfl
  · exact fun _ => rfl
  · exact fun x => params_pushTable port tables refclk frqInx _ _ _
  · exact fun x => by rw [fiWaitCalDone_state]
  · exact fun x => params_whenOk (params_whenOk rfl fun _ => rfl) fun _ => rfl
  · exact fun x => by rw [fiWaitCalDone_state]
  · exact fun _ => rfl
  · exact fun x => by rw [checkLocked_state]

end Params

/-- The frequencies that are let through to a device without an IOPLL. -/
def InRange (userclkHigh userclkLow : UInt64) : Prop :=
  userclkHigh ≤ maxFpgaFreq ∧ userclkLow ≤ maxFpgaFreq ∧
    (userclkLow ≠ 0 → userclkHigh ≠ 0 → userclkLow ≤ userclkHigh) ∧ minFpgaFreq ≤ userclkHigh

/-- Without an IOPLL, `set_userclock` succeeds where the frequencies are let through and the higher
one can be set. -/
theorem setUserclock_fpll {σ : Type} {search : Search} (files : Files σ) (sleep : Nat → σ → σ)
    (indeterminate : σ → BitVec 64) (tables : DiffMifTables) {sysfsPath path : String}
    (hsearch : usingIopll search sysfsPath = (.notFound, path)) (u : Uclock) (n : Nat)
    (userclkHigh userclkLow : UInt64) (s s' : σ) :
    UserClockIopll.setUserclock files search (fpll files sleep indeterminate tables sysfsPath u) n
        (some sysfsPath) userclkHigh userclkLow s = some (.ok, s') ↔
      InRange userclkHigh userclkLow ∧
        ∃ u', setUserclock (filesPort files sleep indeterminate) tables sysfsPath
          userclkHigh.toBitVec u s = (.ok, u', s') := by
  have hfpll : fpll files sleep indeterminate tables sysfsPath u userclkHigh s = (.ok, s') ↔
      ∃ u', setUserclock (filesPort files sleep indeterminate) tables sysfsPath
        userclkHigh.toBitVec u s = (.ok, u', s') := by
    rw [fpll]
    generalize setUserclock (filesPort files sleep indeterminate) tables sysfsPath
      userclkHigh.toBitVec u s = r
    obtain ⟨result, u', t⟩ := r
    simp only [Prod.mk.injEq]
    exact ⟨fun ⟨hr, ht⟩ => ⟨u', hr, rfl, ht⟩, fun ⟨_, hr, _, ht⟩ => ⟨hr, ht⟩⟩
  rw [UserClockIopll.setUserclock, hsearch, ← hfpll, InRange]
  dsimp only
  split
  case isTrue h =>
    simp only [Option.some.injEq, Prod.mk.injEq, reduceCtorEq, false_and, false_iff]
    rintro ⟨⟨hhigh, hlow, -⟩, -⟩
    exact h.elim (UInt64.not_lt.mpr hhigh) (UInt64.not_lt.mpr hlow)
  split
  case isTrue h =>
    simp only [Option.some.injEq, Prod.mk.injEq, reduceCtorEq, false_and, false_iff]
    rintro ⟨⟨-, -, hle, -⟩, -⟩
    exact UInt64.not_lt.mpr (hle h.1 h.2.1) h.2.2
  split
  case isTrue h =>
    simp only [Option.some.injEq, Prod.mk.injEq, reduceCtorEq, false_and, false_iff]
    rintro ⟨⟨-, -, -, hmin⟩, -⟩
    exact UInt64.not_lt.mpr hmin h
  case isFalse hmax hord hmin =>
    rw [Option.some.injEq]
    refine (and_iff_right ⟨?_, ?_, fun hlow hhigh => ?_, UInt64.not_lt.mp hmin⟩).symm
    · exact UInt64.not_lt.mp fun h => hmax (.inl h)
    · exact UInt64.not_lt.mp fun h => hmax (.inr h)
    · exact UInt64.not_lt.mp fun h => hord ⟨hlow, hhigh, h⟩

/-- Registers that answer every command at the first poll, with its sequence number, and that only
the commands change. -/
structure Fpll (σ : Type) (sysfsPath : String) extends RegisterFile σ sysfsPath where
  regs_read : ∀ file s, regs (port.readU64 (sysfsUsrpath sysfsPath file) s).2 = regs s
  regs_sleep : ∀ n s, regs (port.sleep n s) = regs s
  regs_write : ∀ file word s, word.extractLsb' 44 1 = 0#1 →
    regs (port.writeU64 (sysfsUsrpath sysfsPath file) word s).2 = regs s

/-- What programming makes of the registers: the bits under the mask change, of one register. -/
def program (regs : BitVec 10 → BitVec 32) (want : BitVec 64 × BitVec 64 × BitVec 64) :
    BitVec 10 → BitVec 32 :=
  let adr := want.1.extractLsb' 0 10
  let msk := want.2.2.extractLsb' 0 32
  Function.update regs adr (regs adr &&& ~~~msk ||| want.2.1.extractLsb' 0 32 &&& msk)

/-- The registers behind an instruction. -/
def Instr.exec (regs : BitVec 10 → BitVec 32) (i : Instr) : BitVec 10 → BitVec 32 :=
  i.programs.toList.foldl program regs

theorem foldl_exec (script : List Instr) (regs : BitVec 10 → BitVec 32) :
    script.foldl Instr.exec regs = (programmed script).foldl program regs := by
  rw [programmed, List.foldl_flatMap]
  rfl

def Executes (i : Instr) (regs regs' : BitVec 10 → BitVec 32) : Prop := regs' = i.exec regs

inductive Instr.IsCheck : Instr → Prop
  | check : IsCheck .check
  | identify : IsCheck .identify

/-- Only a check fails. -/
def FailsCheck (i : Instr) (regs regs' : BitVec 10 → BitVec 32) : Prop :=
  i.IsCheck ∧ regs' = regs

/-- The registers behind a state of the program. -/
structure Stands {σ : Type} {sysfsPath : String} (d : Fpll σ sysfsPath) (state : Uclock × σ)
    (regs : BitVec 10 → BitVec 32) : Prop where
  path : state.1.sysfsPath = sysfsPath
  regs : d.regs state.2 = regs
  numReg : state.1.initialParams.numReg = numreg
  cmd1 : state.1.cmdReg1.extractLsb' 44 1 = 0#1

/-- The last command is not a write. -/
structure Idle {σ : Type} {sysfsPath : String} (d : Fpll σ sysfsPath) (state : Uclock × σ)
    (regs : BitVec 10 → BitVec 32) : Prop extends Stands d state regs where
  cmd0 : state.1.cmdReg0.extractLsb' 44 1 = 0#1

section Registers

variable {σ : Type} {sysfsPath : String} {d : Fpll σ sysfsPath} {u : Uclock} {s : σ}
  {regs : BitVec 10 → BitVec 32}

theorem Stands.readWord (hs : Stands d (u, s) regs) (file : String) (prtData : BitVec 64) :
    Stands d (u, (readWord d.port file prtData u s).2) regs := by
  obtain ⟨rfl, rfl, hnum, hcmd1⟩ := hs
  exact ⟨rfl, d.regs_read file s, hnum, hcmd1⟩

theorem Stands.sleep (hs : Stands d (u, s) regs) (n : Nat) :
    Stands d (u, d.port.sleep n s) regs :=
  ⟨hs.path, (d.regs_sleep n s).trans hs.regs, hs.numReg, hs.cmd1⟩

theorem Stands.writeWord (hs : Stands d (u, s) regs) (file : String) {word : BitVec 64}
    (hword : word.extractLsb' 44 1 = 0#1) :
    Stands d (u, writeWord d.port file word u s) regs := by
  obtain ⟨rfl, rfl, hnum, hcmd1⟩ := hs
  exact ⟨rfl, d.regs_write file word s hword, hnum, hcmd1⟩

theorem Stands.waitStatus (hs : Stands d (u, s) regs) (passes : BitVec 64 → Bool) (n : Nat)
    (prtData : BitVec 64) : Stands d (u, (waitStatus d.port passes u n prtData s).2) regs := by
  induction n generalizing prtData s with
  | zero => exact hs
  | succ n ih =>
    rw [UserClockRuns.waitStatus]
    dsimp only
    split
    · exact hs.readWord _ 0
    · exact ih ((hs.readWord _ 0).sleep _) _

theorem Idle.of_stands (h : Idle d (u, s) regs) {t : σ} (ht : Stands d (u, t) regs) :
    Idle d (u, t) regs :=
  ⟨ht, h.cmd0⟩

theorem commandWord_read (g : QucpuUclock) (adr : BitVec 64) :
    (afterCommand g 0 adr 0).cmdReg0.extractLsb' 44 1 = 0#1 := by
  rw [afterCommand_cmdReg0, (commandWord_fields g 0 adr 0).1]
  rfl

theorem stands_read (hs : Stands d (u, s) regs) (adr readData : BitVec 64) :
    ∃ v g t, fiAvmmRead d.port adr readData u.toQucpuUclock s = (0, v, g, t) ∧
      v.extractLsb' 0 32 = regs (adr.extractLsb' 0 10) ∧
      Idle d ({ u with toQucpuUclock := g }, t) regs := by
  obtain ⟨rfl, rfl, hnum, hcmd1⟩ := hs
  obtain ⟨v, t, heq, hv, ht⟩ :=
    RegisterFile.fiAvmmRead_eq u.toQucpuUclock adr readData s d.toRegisterFile
  exact ⟨v, _, t, heq, hv, ⟨⟨rfl, ht, hnum, hcmd1⟩, commandWord_read _ _⟩⟩

theorem stands_write (hs : Stands d (u, s) regs) (adr dat : BitVec 64) :
    ∃ g t, fiAvmmWrite d.port adr dat u.toQucpuUclock s = (0, g, t) ∧
      Stands d ({ u with toQucpuUclock := g }, t)
        (Function.update regs (adr.extractLsb' 0 10) (dat.extractLsb' 0 32)) := by
  obtain ⟨rfl, rfl, hnum, hcmd1⟩ := hs
  obtain ⟨t, heq, ht⟩ := RegisterFile.fiAvmmWrite_eq u.toQucpuUclock adr dat s d.toRegisterFile
  exact ⟨_, t, heq, ⟨rfl, ht, hnum, hcmd1⟩⟩

theorem extract_masked (v dat msk : BitVec 64) :
    (v &&& ~~~msk ||| dat &&& msk).extractLsb' 0 32 =
      v.extractLsb' 0 32 &&& ~~~(msk.extractLsb' 0 32) |||
        dat.extractLsb' 0 32 &&& msk.extractLsb' 0 32 := by
  apply BitVec.eq_of_getLsbD_eq
  intro i hi
  simp only [BitVec.getLsbD_extractLsb', BitVec.getLsbD_or, BitVec.getLsbD_and,
    BitVec.getLsbD_not]
  grind

theorem stands_modify (hs : Stands d (u, s) regs) (adr dat msk : BitVec 64) :
    ∃ g t, fiAvmmReadModifyWrite d.port adr dat msk u.toQucpuUclock s = (0, g, t) ∧
      Stands d ({ u with toQucpuUclock := g }, t) (program regs (adr, dat, msk)) := by
  obtain ⟨v, g, t, hread, hv, hidle⟩ := stands_read hs adr 0
  obtain ⟨g', t', hwrite, hs'⟩ :=
    stands_write hidle.toStands adr (v &&& ~~~msk ||| dat &&& msk)
  refine ⟨g', t', ?_, ?_⟩
  · rw [fiAvmmReadModifyWrite, hread]
    exact hwrite
  · rw [extract_masked, hv] at hs'
    exact hs'

abbrev FollowsRegs (rel : Uclock × σ → (BitVec 10 → BitVec 32) → Prop) :
    List Instr → Int × Uclock × σ → (BitVec 10 → BitVec 32) → Prop :=
  Follows Executes FailsCheck rel

theorem follows_isCheck {rel : Uclock × σ → (BitVec 10 → BitVec 32) → Prop} {i : Instr}
    (hi : i.IsCheck) {r : Int × Uclock × σ} (hr : rel r.2 regs) : FollowsRegs rel [i] r regs :=
  .single hr (fun _ => by cases hi <;> rfl) fun _ => ⟨hi, rfl⟩

theorem regs_modify (hs : Stands d (u, s) regs) (adr dat msk : BitVec 64) :
    FollowsRegs (Stands d) [.modify false adr dat msk]
      (avmm (fiAvmmReadModifyWrite d.port adr dat msk) u s) regs := by
  obtain ⟨g, t, heq, hs'⟩ := stands_modify hs adr dat msk
  rw [avmm, heq]
  exact .done rfl hs' (.single rfl)

theorem regs_write (hs : Stands d (u, s) regs) (adr dat : BitVec 64) :
    FollowsRegs (Stands d) [.write adr dat] (avmm (fiAvmmWrite d.port adr dat) u s) regs := by
  obtain ⟨g, t, heq, hs'⟩ := stands_write hs adr dat
  have hall : program regs (adr, dat, BitVec.allOnes 64) =
      Function.update regs (adr.extractLsb' 0 10) (dat.extractLsb' 0 32) := by
    rw [program]
    dsimp only
    congr 1
    apply BitVec.eq_of_getLsbD_eq
    intro i hi
    simp only [BitVec.getLsbD_or, BitVec.getLsbD_and, BitVec.getLsbD_not,
      BitVec.getLsbD_extractLsb', BitVec.getLsbD_allOnes]
    grind
  rw [avmm, heq]
  exact .done rfl hs' (.single hall.symm)

theorem masked_readback {v w dat msk : BitVec 64} (hmsk : msk.extractLsb' 32 32 = 0#32)
    (hv : v.extractLsb' 0 32 = (w &&& ~~~msk ||| dat &&& msk).extractLsb' 0 32) :
    v &&& msk = dat &&& msk := by
  apply BitVec.eq_of_getLsbD_eq
  intro i hi
  rw [BitVec.getLsbD_and, BitVec.getLsbD_and]
  by_cases hlow : i < 32
  · have hbit := congrArg (fun x => x.getLsbD i) hv
    simp only [BitVec.getLsbD_extractLsb', BitVec.getLsbD_or, BitVec.getLsbD_and,
      BitVec.getLsbD_not] at hbit
    grind
  · have hbit := congrArg (fun x => x.getLsbD (i - 32)) hmsk
    simp only [BitVec.getLsbD_extractLsb', BitVec.getLsbD_zero] at hbit
    grind

theorem regs_verify (hs : Stands d (u, s) regs) (adr dat : BitVec 64) {msk : BitVec 64}
    (hmsk : msk.extractLsb' 32 32 = 0#32) :
    FollowsRegs (Idle d) [.modify true adr dat msk]
      (avmm (fiAvmmReadModifyWriteVerify d.port adr dat msk) u s) regs := by
  obtain ⟨g, t, hmodify, hs'⟩ := stands_modify hs adr dat msk
  obtain ⟨v, g', t', hread, hv, hidle⟩ := stands_read hs' adr 0
  have hback : v &&& msk = dat &&& msk := by
    refine masked_readback (w := (regs (adr.extractLsb' 0 10)).setWidth 64) hmsk ?_
    rw [extract_masked, BitVec.extractLsb'_setWidth_of_le (by decide), hv, program]
    exact (Function.update_self ..).trans (by rw [BitVec.extractLsb'_eq_self])
  rw [avmm, fiAvmmReadModifyWriteVerify, hmodify]
  dsimp only
  rw [hread]
  dsimp only
  rw [if_pos rfl, if_pos rfl, if_neg (not_not.mpr hback)]
  exact .done rfl hidle (.single rfl)

theorem entryMsk_high (entry : BitVec 32) : (entryMsk entry).extractLsb' 32 32 = 0#32 := by
  apply BitVec.eq_of_getLsbD_eq
  intro i hi
  rw [entryMsk]
  simp only [BitVec.getLsbD_extractLsb', BitVec.getLsbD_ushiftRight, BitVec.truncate_eq_setWidth,
    BitVec.getLsbD_setWidth, BitVec.getLsbD_zero]
  grind

theorem regs_pushTable (tables : DiffMifTables) (refclk frqInx : BitVec 64) (mifRegs : List Nat)
    (hs : Idle d (u, s) regs) :
    FollowsRegs (Idle d) (tableScript tables refclk frqInx mifRegs)
      (pushTable d.port tables refclk frqInx mifRegs u s) regs := by
  induction mifRegs generalizing u s regs with
  | nil => exact .nil rfl hs
  | cons mifReg rest ih =>
    let entry := tblEntry tables refclk frqInx mifReg
    have hentry := regs_verify hs.toStands (entryAdr entry) (entryDat entry) (entryMsk_high entry)
    have heq : pushTable d.port tables refclk frqInx (mifReg :: rest) u s =
        whenOk (avmm (fiAvmmReadModifyWriteVerify d.port (entryAdr entry)
          (entryDat entry) (entryMsk entry)) u s)
          fun (u, s) => pushTable d.port tables refclk frqInx rest u s := by
      rw [pushTable, whenOk]
      exact ite_not ..
    rw [heq]
    exact hentry.whenOk fun _ _ hb => ih hb

theorem regs_waitCalDone (hs : Stands d (u, s) regs) :
    FollowsRegs (Stands d) [.check] (fiWaitCalDone d.port u s) regs := by
  have hwaited : Stands d (u, (waitCalDone d.port u s).2) regs := hs.waitStatus _ 1000 0
  rw [← fiWaitCalDone_state] at hwaited
  exact follows_isCheck .check hwaited

theorem idle_waitCalDone (hs : Idle d (u, s) regs) :
    FollowsRegs (Idle d) [.check] (fiWaitCalDone d.port u s) regs := by
  have hwaited : Idle d (u, (waitCalDone d.port u s).2) regs :=
    hs.of_stands (hs.toStands.waitStatus _ 1000 0)
  rw [← fiWaitCalDone_state] at hwaited
  exact follows_isCheck .check hwaited

theorem regs_checkLocked (hs : Stands d (u, s) regs) :
    FollowsRegs (Stands d) [.check] (checkLocked d.port u s) regs := by
  have hwaited : Stands d (u, (waitLock d.port u s).2) regs := hs.waitStatus _ 100 0
  rw [← checkLocked_state] at hwaited
  exact follows_isCheck .check hwaited

theorem Idle.writeCmd0 (hs : Idle d (u, s) regs) {reg : BitVec 64}
    (hreg : reg.extractLsb' 44 1 = 0#1) :
    Idle d ({ u with cmdReg0 := reg },
      UserClockRuns.writeWord d.port userClockCmd0 reg { u with cmdReg0 := reg } s) regs :=
  have hs' : Stands d ({ u with cmdReg0 := reg }, s) regs :=
    ⟨hs.path, hs.regs, hs.numReg, hs.cmd1⟩
  ⟨hs'.writeWord userClockCmd0 hreg, hreg⟩

theorem regs_cycleReset (hs : Idle d (u, s) regs) :
    FollowsRegs (Idle d) ([Instr.reset] ++ [Instr.check]) (cycleReset d.port u s) regs := by
  have hreset : ((u.cmdReg0 ||| cmd0PrsB56) &&& ~~~cmd0MrnB52).extractLsb' 44 1 = 0#1 := by
    rw [BitVec.extractLsb'_and, BitVec.extractLsb'_or, hs.cmd0]
    rfl
  have hs' := hs.writeCmd0 hreset
  have hrelease : (((u.cmdReg0 ||| cmd0PrsB56) &&& ~~~cmd0MrnB52 ||| cmd0MrnB52) &&&
      ~~~cmd0PrsB56).extractLsb' 44 1 = 0#1 := by
    rw [BitVec.extractLsb'_and, BitVec.extractLsb'_or, hreset]
    rfl
  exact .after (.single rfl) (idle_waitCalDone (hs'.writeCmd0 hrelease))

theorem regs_identify (hs : Idle d (u, s) regs) :
    FollowsRegs (Idle d) [.identify] (identify d.port u s) regs := by
  obtain ⟨v, g, t, heq, -, hidle⟩ :=
    stands_read hs.toStands avmmFpllIpi200 (d.port.indeterminate s)
  rw [identify, heq]
  exact follows_isCheck .identify
    ⟨⟨hidle.path, hidle.regs, hidle.numReg, hidle.cmd1⟩, hidle.cmd0⟩

theorem regs_fiRunInitz (path : String) (d : Fpll σ (initial path).sysfsPath) (u : Uclock) (s : σ) :
    FollowsRegs (Idle d) initScript (fiRunInitz d.port (some path) u s) (d.regs s) := by
  let u₀ : Uclock := ⟨initial path, false, 0, 0, numfrqIntgEnd, numfrqFracBeg, numfrqFracEnd,
    numreg⟩
  have hzero : (0 : BitVec 64).extractLsb' 44 1 = 0#1 := by decide
  have hs : Stands d (u₀, s) (d.regs s) := ⟨rfl, rfl, rfl, hzero⟩
  have hread := hs.readWord userClockSts1 0
  have hstart : FollowsRegs (Idle d) [.check] (readVersion d.port u₀ s) (d.regs s) :=
    follows_isCheck .check ⟨⟨rfl, hread.regs, rfl, hzero⟩, hzero⟩
  have hchecked := ((hstart.whenOk fun _ _ hs => idle_waitCalDone hs).whenOk
    fun _ _ hs => regs_cycleReset hs).whenOk fun _ _ hs => regs_identify hs
  exact hchecked.congr fun _ hs =>
    ⟨⟨hs.path, hs.regs, hs.numReg, hs.cmd1⟩, hs.cmd0⟩

theorem regs_select (refclk : BitVec 64) (hs : Idle d (u, s) regs) :
    Idle d (selectRefclk d.port refclk u s) regs := by
  have hreg : (if refclk ≠ 0 then u.cmdReg0 &&& ~~~cmd0Sr1B58 ||| cmd0Sr1B58
      else u.cmdReg0 &&& ~~~cmd0Sr1B58).extractLsb' 44 1 = 0#1 := by
    split
    · rw [BitVec.extractLsb'_or, BitVec.extractLsb'_and, hs.cmd0]
      rfl
    · rw [BitVec.extractLsb'_and, hs.cmd0]
      rfl
  have hs' := hs.writeCmd0 hreg
  exact hs'.of_stands (hs'.toStands.sleep usrclkSleep1ms)

theorem regs_recalibrate (hs : Stands d (u, s) regs) :
    FollowsRegs (Stands d) ([Instr.modify true 0x000 0x02 0xff] ++
      [Instr.modify false 0x100 0x02 0x02] ++ [Instr.write 0x000 0x01])
      (recalibrate d.port u s) regs := by
  have hrequest : FollowsRegs (Stands d) [.modify true 0x000 0x02 0xff]
      (avmm (fiAvmmReadModifyWriteVerify d.port 0x000 0x02 0xff) u s) regs :=
    (regs_verify hs 0x000 0x02 (by decide)).imp fun _ _ hs => hs.toStands
  exact (hrequest.whenOk fun _ _ hs => regs_modify hs 0x100 0x02 0x02).whenOk fun _ _ hs =>
    (regs_write hs 0x000 0x01).congr fun _ hs => hs.sleep usrclkSleep1ms

theorem regs_fiSetFreqs (tables : DiffMifTables) (refclk frqInx : BitVec 64)
    (hs : Idle d (u, s) regs) :
    FollowsRegs (Stands d) (setScript tables refclk frqInx)
      (fiSetFreqs d.port tables refclk frqInx u s) regs := by
  have hpushed : ∀ (state : Uclock × σ) regs, Idle d state regs →
      FollowsRegs (Idle d)
        ([.select refclk] ++ tableScript tables refclk frqInx (List.range numreg.toNat))
        (pushTable d.port tables refclk frqInx (List.range state.1.initialParams.numReg.toNat)
          (selectRefclk d.port refclk state.1 state.2).1
          (selectRefclk d.port refclk state.1 state.2).2) regs := by
    intro state regs hs
    rw [hs.numReg]
    exact .after (.single rfl) (regs_pushTable tables refclk frqInx _ (regs_select refclk hs))
  have hchecked : FollowsRegs (Idle d) [.check] (setFreqsError refclk frqInx u, u, s) regs :=
    follows_isCheck .check hs
  have hmsk : (0x03 : BitVec 64).extractLsb' 32 32 = 0#32 := by decide
  have hdown := hchecked.whenOk (k := fun (u, s) =>
      avmmPause d.port (fiAvmmReadModifyWriteVerify d.port 0x2e0 0x03 0x03) u s) fun _ _ hs =>
    (regs_verify hs.toStands 0x2e0 0x03 hmsk).congr fun _ hs =>
      hs.of_stands (hs.toStands.sleep usrclkSleep1ms)
  have hunlocked := hdown.whenOk (k := fun (u, s) => checkUnlocked d.port u s) fun _ _ hs =>
    follows_isCheck .check (hs.of_stands (hs.toStands.readWord _ 0))
  have htable := ((hunlocked.whenOk hpushed).whenOk fun _ _ hs => idle_waitCalDone hs).imp
    fun _ _ hs => hs.toStands
  have hrecalibrated := (htable.whenOk fun _ _ hs => regs_recalibrate hs).whenOk fun _ _ hs =>
    regs_waitCalDone hs
  have hup := hrecalibrated.whenOk fun _ _ hs =>
    (regs_verify hs 0x2e0 0x02 hmsk).imp fun _ _ hs => hs.toStands
  exact hup.whenOk fun _ _ hs => regs_checkLocked hs

theorem regs_fiGetFreqs (freqs : Freqs) (hs : Stands d (u, s) regs) :
    d.regs (fiGetFreqs d.port freqs u s).2.2.2 = regs := by
  have hmeasure : ∀ (reg : BitVec 64) (s : σ), reg.extractLsb' 44 1 = 0#1 →
      Stands d (u, s) regs → Stands d ({ u with cmdReg1 := reg },
        (readWord d.port userClockSts1 reg { u with cmdReg1 := reg }
          (d.port.sleep usrclkSleep10ms
            (writeWord d.port userClockCmd1 reg { u with cmdReg1 := reg } s))).2) regs := by
    intro reg s hreg hs
    have hs' : Stands d ({ u with cmdReg1 := reg }, s) regs := ⟨hs.path, hs.regs, hs.numReg, hreg⟩
    exact ((hs'.writeWord userClockCmd1 hreg).sleep _).readWord _ _
  have hdivBy2 : (u.cmdReg1 &&& ~~~cmd1MeaB32).extractLsb' 44 1 = 0#1 := by
    rw [BitVec.extractLsb'_and, hs.cmd1]
    rfl
  have hclkUsr : (u.cmdReg1 &&& ~~~cmd1MeaB32 ||| cmd1MeaB32).extractLsb' 44 1 = 0#1 := by
    rw [BitVec.extractLsb'_or, hdivBy2]
    rfl
  rw [fiGetFreqs]
  split
  · exact hs.regs
  · have hfirst := (hmeasure _ s hdivBy2 hs).sleep usrclkSleep10ms
    have hsecond := hmeasure _ _ hclkUsr
      (⟨hfirst.path, hfirst.regs, hfirst.numReg, hs.cmd1⟩ : Stands d (u, _) regs)
    exact (hsecond.sleep usrclkSleep10ms).regs

end Registers

inductive Call
  | get (freqs : Freqs)
  | set (freq : BitVec 64)

section Calls

variable {σ : Type} (port : Port σ) (tables : DiffMifTables) (sysfsPath : String)

def call (c : Call) (u : Uclock) (s : σ) : FpgaResult × Uclock × σ :=
  match c with
  | .get freqs =>
    let (result, _, u, s) := getUserclock port sysfsPath freqs u s
    (result, u, s)
  | .set freq => setUserclock port tables sysfsPath freq u s

/-- Calls one after the other, with their results and the parameters of the device as they leave
them. -/
def calls : List Call → Uclock → σ → List (Call × FpgaResult × QucpuInitz) × Uclock × σ
  | [], u, s => ([], u, s)
  | c :: cs, u, s =>
    let (result, u, s) := call port tables sysfsPath c u s
    let (results, u', s) := calls cs u s
    ((c, result, u.initialParams) :: results, u', s)

end Calls

/-- What a call may have programmed: all of its script where it succeeds, and where it fails what
comes before one of the checks. -/
inductive Programmed (tables : DiffMifTables) :
    Call × FpgaResult × QucpuInitz → List (BitVec 64 × BitVec 64 × BitVec 64) → Prop
  | get {freqs result params} : Programmed tables (.get freqs, result, params) []
  | set {freq params} :
    Programmed tables (.set freq, .ok, params)
      (programmed (setScript tables (refClk params) freq))
  | failed {freq result params} (pre i post) : result ≠ .ok →
    setScript tables (refClk params) freq = pre ++ i :: post → i.IsCheck →
    Programmed tables (.set freq, result, params) (programmed pre)

section Calls

variable {σ : Type} {sysfsPath : String} (d : Fpll σ (initial sysfsPath).sysfsPath)
  (tables : DiffMifTables)

theorem foldl_initScript {pre post : List Instr} (h : initScript = pre ++ post)
    (regs : BitVec 10 → BitVec 32) : pre.foldl Instr.exec regs = regs := by
  have hnone : programmed initScript = [] := rfl
  rw [h, programmed, List.flatMap_append, List.append_eq_nil_iff] at hnone
  rw [foldl_exec, programmed, hnone.1]
  rfl

theorem idle_fiRunInitz (u : Uclock) (s : σ) :
    Idle d (fiRunInitz d.port (some sysfsPath) u s).2 (d.regs s) := by
  obtain ⟨regs, hs, hdone, hgiven⟩ := regs_fiRunInitz sysfsPath d u s
  by_cases herr : (fiRunInitz d.port (some sysfsPath) u s).1 = 0
  · have hregs := (hdone herr).foldl fun _ _ _ h => h
    rw [foldl_initScript (List.append_nil _).symm] at hregs
    rwa [hregs] at hs
  · obtain ⟨pre, i, post, m, hpre, hm, -, rfl⟩ := (hgiven herr).exists_done
    have hregs := hm.foldl fun _ _ _ h => h
    rw [foldl_initScript hpre] at hregs
    rwa [hregs] at hs

theorem regs_getUserclock (freqs : Freqs) (u : Uclock) (s : σ) :
    d.regs (getUserclock d.port sysfsPath freqs u s).2.2.2 = d.regs s := by
  have hs := idle_fiRunInitz d u s
  rw [getUserclock]
  generalize fiRunInitz d.port (some sysfsPath) u s = r at hs
  obtain ⟨err, u, s'⟩ := r
  dsimp only at hs ⊢
  split
  · exact hs.regs
  · have hget := regs_fiGetFreqs freqs hs.toStands
    split
    · exact hget
    · exact hget

theorem regs_setUserclock (freq : BitVec 64) (u : Uclock) (s : σ) :
    let r := setUserclock d.port tables sysfsPath freq u s
    ∃ made, Programmed tables (.set freq, r.1, r.2.1.initialParams) made ∧
      d.regs r.2.2 = made.foldl program (d.regs s) := by
  have hs := idle_fiRunInitz d u s
  dsimp only
  rw [setUserclock]
  generalize fiRunInitz d.port (some sysfsPath) u s = r at hs
  obtain ⟨err, u, s'⟩ := r
  dsimp only at hs ⊢
  by_cases herr : err = 0
  · rw [if_neg (not_not.mpr herr)]
    have hparams := params_fiSetFreqs d.port tables (refClk u.initialParams) freq u s'
    obtain ⟨regs, hs', hdone, hgiven⟩ := regs_fiSetFreqs tables (refClk u.initialParams) freq hs
    generalize fiSetFreqs d.port tables (refClk u.initialParams) freq u s' = r
      at hparams hs' hdone hgiven
    obtain ⟨err', u', s''⟩ := r
    dsimp only at hparams hs' hdone hgiven ⊢
    rw [← hparams] at hdone hgiven
    by_cases herr' : err' = 0
    · rw [if_neg (not_not.mpr herr')]
      refine ⟨_, .set, ?_⟩
      rw [hs'.regs, (hdone herr').foldl fun _ _ _ h => h, foldl_exec]
    · rw [if_pos herr']
      obtain ⟨pre, i, post, m, hpre, hm, hi, rfl⟩ := (hgiven herr').exists_done
      refine ⟨_, .failed pre i post (by simp) hpre hi, ?_⟩
      rw [hs'.regs, hm.foldl fun _ _ _ h => h, foldl_exec]
  · rw [if_pos herr]
    refine ⟨[], .failed [] .check _ (by simp) rfl .check, ?_⟩
    rw [hs.regs]
    rfl

/-- Whatever calls are made of a device that answers every command at the first poll and whose
registers only the commands change: they are as the calls that succeed have programmed them, and
those that fail up to the check that fails. The frequencies are read without a change, and no table
is programmed in part. -/
theorem userclock_calls_registers (cs : List Call) (u : Uclock) (s : σ) :
    let r := calls d.port tables sysfsPath cs u s
    ∃ mades, List.Forall₂ (Programmed tables) r.1 mades ∧
      d.regs r.2.2 = mades.flatten.foldl program (d.regs s) := by
  induction cs generalizing u s with
  | nil => exact ⟨[], .nil, rfl⟩
  | cons c cs ih =>
    let r := call d.port tables sysfsPath c u s
    have hcall : ∃ made, Programmed tables (c, r.1, r.2.1.initialParams) made ∧
        d.regs r.2.2 = made.foldl program (d.regs s) := by
      cases c with
      | get freqs => exact ⟨[], .get, regs_getUserclock d freqs u s⟩
      | set freq => exact regs_setUserclock d tables freq u s
    obtain ⟨made, hmade, hregs⟩ := hcall
    obtain ⟨mades, hmades, hrest⟩ := ih r.2.1 r.2.2
    refine ⟨made :: mades, .cons hmade hmades, ?_⟩
    rw [List.flatten_cons, List.foldl_append, ← hregs]
    exact hrest

end Calls

/-- The registers of a PLL, and the last command. -/
abbrev PllState := (BitVec 10 → BitVec 32) × BitVec 64

/-- The PLL has its lock unless it is powered down; the sequence number of the command and the
register that it names are below. -/
def pllStatus (s : PllState) : BitVec 64 :=
  0#3 ++ (if (s.1 0x2e0).getLsbD 0 then 0#1 else 1#1) ++ 0#10 ++ s.2.extractLsb' 48 2 ++ 0#16 ++
    s.1 (s.2.extractLsb' 32 10)

def pllCommand (word : BitVec 64) (s : PllState) : PllState :=
  (if word.extractLsb' 44 1 = 1#1 then
      Function.update s.1 (word.extractLsb' 32 10) (word.extractLsb' 0 32) else s.1, word)

theorem pllStatus_fields (s : PllState) :
    (pllStatus s).extractLsb' 48 2 = s.2.extractLsb' 48 2 ∧
      (pllStatus s).extractLsb' 0 32 = s.1 (s.2.extractLsb' 32 10) := by
  constructor
  all_goals
    apply BitVec.eq_of_getLsbD_eq
    intro i hi
    simp only [pllStatus, BitVec.getLsbD_extractLsb', BitVec.getLsbD_append]
    grind

/-- A device of version 3. -/
def pll : Fpll PllState (initial "").sysfsPath where
  port :=
    { readU64 := fun path s =>
        (some (if path = sysfsUsrpath (initial "").sysfsPath userClockSts1 then 0x3000000000000000
          else pllStatus s), s)
      writeU64 := fun _ word s => (true, pllCommand word s)
      sleep := fun _ s => s
      indeterminate := fun _ => 0 }
  regs s := s.1
  answer word s := pllStatus (pllCommand word s)
  answered := pllCommand
  read_answer word s := by
    have hne : sysfsUsrpath (initial "").sysfsPath userClockSts0 ≠
        sysfsUsrpath (initial "").sysfsPath userClockSts1 := by decide
    dsimp only
    rw [if_neg hne]
  answer_seq word s := (pllStatus_fields _).1
  answer_data word s hword := by
    rw [(pllStatus_fields _).2, pllCommand, if_neg (by rw [hword]; decide)]
  regs_answered _ _ := rfl
  regs_read _ _ := rfl
  regs_sleep _ _ := rfl
  regs_write _ word _ hword := if_neg (by rw [hword]; decide)

/-- Of either table the register `0x110` and those behind it, with the low eight bits. -/
def pllTables : DiffMifTables :=
  let entry := fun mifReg => BitVec.ofNat 32 ((0x110 + mifReg) * 2 ^ 16 + 0xff00 + mifReg)
  ⟨fun _ mifReg _ => entry mifReg, fun _ mifReg _ => entry mifReg⟩

/-- The ID says that there are both reference clocks. -/
def pllStart : PllState := (fun adr => if adr = 0x200 then 5 else 0, 0)

def pllClock : Uclock := ⟨initial "", false, 0, 0, 0, 0, 0, 0⟩

theorem userclock_calls_registers_pll :
    let r := calls pll.port pllTables "" [.set 100, .get ⟨0, 0⟩] pllClock pllStart
    r.1.map (fun x => x.2.1) = [.ok, .ok] ∧
      ∃ mades, List.Forall₂ (Programmed pllTables) r.1 mades ∧
        pll.regs r.2.2 = mades.flatten.foldl program (pll.regs pllStart) := by
  have hrun := userclock_calls_registers pll pllTables [.set 100, .get ⟨0, 0⟩] pllClock pllStart
  exact ⟨by decide +kernel, hrun⟩

end OpaeLibs.PluginXfpga.UserClockRuns
