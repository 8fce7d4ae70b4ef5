import OpaeLibs.PluginXfpga.SysfsWords

namespace OpaeLibs.PluginXfpga.UserClockAvmm

open OpaeLibs.OpaeC.Props OpaeLibs.PluginXfpga.SysfsWords

def userClockCmd0 : String := "userclk_freqcmd"
def userClockSts0 : String := "userclk_freqsts"

def usrclkSleep1ms : Nat := 1000000

def cmd0AmmB51t00 : BitVec 64 := 0x000fffffffffffff
def sts0SeqB49t48 : BitVec 64 := 0x0003000000000000

def avmmRmwvErrVerify : Int := 4
def avmmRWcomErrTimeout : Int := 5

/-- `gQUCPU_Uclock`, as far as the commands use it. -/
structure QucpuUclock where
  sysfsPath : String
  cmdReg0 : BitVec 64
  avmmSeq : BitVec 64

/-- What a command meets, each with what it makes of the state behind it: the results of
`sysfs_read_u64`, where `none` leaves the output as it is, and of `sysfs_write_u64`, the time that
passes, and what is in a variable that is not initialised. -/
structure Port (σ : Type) where
  readU64 : String → σ → Option (BitVec 64) × σ
  writeU64 : String → BitVec 64 → σ → Bool × σ
  sleep : Nat → σ → σ
  indeterminate : σ → BitVec 64

/-- The port that files are, in the directory of the port. -/
def filesPort {σ : Type} (files : Files σ) (sleep : Nat → σ → σ) (indeterminate : σ → BitVec 64) :
    Port σ where
  readU64 path s :=
    let (u, _, s) := sysfsReadU64 files path s
    (u.map UInt64.toBitVec, s)
  writeU64 path u s :=
    let (result, s) := sysfsWriteU64 files path ⟨u⟩ s
    (decide (result = .ok), s)
  sleep := sleep
  indeterminate := indeterminate

/-- `snprintf` cuts the path at the size of the buffer. -/
def sysfsUsrpath (sysfsPath file : String) : String :=
  String.ofList ((sysfsPath ++ "/" ++ file).toList.take (sysfsPathMax - 1))

def fu64iGetAvmmSeq (g : QucpuUclock) : BitVec 64 × QucpuUclock :=
  let seq := (g.avmmSeq + 1) &&& 0x03
  (seq, { g with avmmSeq := seq })

def seqCmdAddrData (seq : BitVec 64) (cmdWrite : Int) (adr writeData : BitVec 64) : BitVec 64 :=
  let wrt : BitVec 64 := if cmdWrite = 1 then 0x1 else 0x0
  let dat : BitVec 64 := if cmdWrite = 1 then writeData else 0x0
  (seq &&& 0x00000003) <<< 48 ||| (wrt &&& 0x00000001) <<< 44 ||| (adr &&& 0x000003ff) <<< 32 |||
    (dat &&& 0xffffffff) <<< 0

/-- The sequence number of a word of the status register is the one that is waited for. -/
def Answers (want dataX : BitVec 64) : Prop := dataX &&& sts0SeqB49t48 = want &&& sts0SeqB49t48

instance (want dataX : BitVec 64) : Decidable (Answers want dataX) :=
  inferInstanceAs (Decidable (_ = _))

section Code

variable {σ : Type} (port : Port σ)

/-- The inner loop: whether there is an answer, and `u64i_DataX`. -/
def fastPoll (path : String) (want : BitVec 64) : Nat → BitVec 64 → σ → Bool × BitVec 64 × σ
  | 0, dataX, s => (false, dataX, s)
  | n + 1, dataX, s =>
    let (answer, s) := port.readU64 path s
    let dataX := answer.getD dataX
    if Answers want dataX then (true, dataX, s) else fastPoll path want n dataX s

def slowPoll (path : String) (want : BitVec 64) : Nat → BitVec 64 → σ → Bool × BitVec 64 × σ
  | 0, dataX, s => (false, dataX, s)
  | n + 1, dataX, s =>
    match fastPoll port path want 100 dataX s with
    | (true, dataX, s) => (true, dataX, s)
    | (false, dataX, s) => slowPoll path want n dataX (port.sleep usrclkSleep1ms s)

/-- The result, and what is in `*pu64i_ReadData`. -/
def fiAvmmRWcom (cmdWrite : Int) (adr writeData readData : BitVec 64) (g : QucpuUclock) (s : σ) :
    Int × BitVec 64 × QucpuUclock × σ :=
  let (seq, g) := fu64iGetAvmmSeq g
  let word := seqCmdAddrData seq cmdWrite adr writeData
  let g := { g with cmdReg0 := g.cmdReg0 &&& ~~~cmd0AmmB51t00 ||| word }
  -- the result of the write is not looked at
  let s := (port.writeU64 (sysfsUsrpath g.sysfsPath userClockCmd0) g.cmdReg0 s).2
  let s := port.sleep usrclkSleep1ms s
  let result :=
    slowPoll port (sysfsUsrpath g.sysfsPath userClockSts0) word 100 (port.indeterminate s) s
  (if result.1 then 0 else avmmRWcomErrTimeout, if cmdWrite = 0 then result.2.1 else readData, g,
    result.2.2)

def fiAvmmRead (adr readData : BitVec 64) (g : QucpuUclock) (s : σ) :
    Int × BitVec 64 × QucpuUclock × σ :=
  fiAvmmRWcom port 0 adr 0 readData g s

def fiAvmmWrite (adr writeData : BitVec 64) (g : QucpuUclock) (s : σ) : Int × QucpuUclock × σ :=
  let (res, _, g, s) := fiAvmmRWcom port 1 adr writeData 0 g s
  (res, g, s)

def fiAvmmReadModifyWrite (adr dat msk : BitVec 64) (g : QucpuUclock) (s : σ) :
    Int × QucpuUclock × σ :=
  let (res, readData, g, s) := fiAvmmRead port adr 0 g s
  if res = 0 then fiAvmmWrite port adr ((readData &&& ~~~msk) ||| (dat &&& msk)) g s
  else (res, g, s)

def fiAvmmReadModifyWriteVerify (adr dat msk : BitVec 64) (g : QucpuUclock) (s : σ) :
    Int × QucpuUclock × σ :=
  let (res, g, s) := fiAvmmReadModifyWrite port adr dat msk g s
  if res = 0 then
    let (res, verifyData, g, s) := fiAvmmRead port adr 0 g s
    if res = 0 then
      if verifyData &&& msk ≠ dat &&& msk then (avmmRmwvErrVerify, g, s) else (0, g, s)
    else (res, g, s)
  else (res, g, s)

end Code

end OpaeLibs.PluginXfpga.UserClockAvmm
