import OpaeLibs.Lib.Bytes
import OpaeLibs.Lib.Loops
import OpaeLibs.PluginXfpga.IopllFreq
import OpaeLibs.PluginXfpga.SysfsWords

namespace OpaeLibs.PluginXfpga.UserClockIopll

open OpaeLibs.Lib.Bytes OpaeLibs.Lib.Loops
open OpaeLibs.OpaeC.Props
open OpaeLibs.PluginXfpga.IopllFreq OpaeLibs.PluginXfpga.SysfsWords

def iopllClockFreq : String := "dfl*/userclk/frequency"

abbrev iopllMaxFreq : UInt64 := 600
abbrev iopllMinFreq : UInt64 := 10

def maxFpgaFreq : UInt64 := 1200
def minFpgaFreq : UInt64 := 25

/-- What the search for the frequency file meets: the paths that `glob` finds for a pattern, and
whether `access` lets a path be read and written. -/
structure Search where
  glob : String → List String
  access : String → Bool

/-- The result, and the path that it leaves in the buffer. -/
def usingIopll (search : Search) (sysfsPath : String) : FpgaResult × String :=
  let pattern :=
    String.ofList ((sysfsPath ++ "/" ++ iopllClockFreq).toList.take (sysfsPathMax - 1))
  match search.glob pattern with
  | [] => (.notFound, pattern)
  | path :: _ =>
    let path := String.ofList (path.toList.take (sysfsPathMax - 1))
    if search.access path then (.ok, path) else (.noAccess, path)

theorem length_iopllFreqConfig : iopllFreqConfig.length = 601 := by decide +kernel

def freqConfig (userclkLow : UInt64) (h : userclkLow ≤ iopllMaxFreq ∧ iopllMinFreq ≤ userclkLow) :
    IopllConfig :=
  have hlow : userclkLow.toNat < iopllFreqConfig.length := by
    rw [length_iopllFreqConfig]
    exact Nat.lt_succ_of_le h.1
  iopllFreqConfig[userclkLow.toNat]

/-- `struct iopll_config` in memory -/
def configBytes (c : IopllConfig) : List UInt8 :=
  [c.pllFreqKhz, c.pllM, c.pllN, c.pllC1, c.pllC0, c.pllLf, c.pllCp, c.pllRc].flatMap
    fun v => toLe 4 v.toNat

section Code

variable {σ : Type} (files : Files σ) (fd : Nat)

/-- A round of the write loop: what is still to be written, and the end of the loop. -/
def writeStep : List UInt8 × σ → Option ((List UInt8 × σ) ⊕ σ)
  | (rest, s) =>
    match files.write fd rest s with
    | (none, s) => some (.inr s)
    | (some n, s) =>
      if rest.length ≤ n.val then some (.inr s) else some (.inl (rest.drop n.val, s))

/-- `none` where the loop does not end within `n` writes. `fpll` is what becomes of a device without
an IOPLL behind the checks of the frequencies. -/
def setUserclock (search : Search) (fpll : UInt64 → σ → FpgaResult × σ) (n : Nat)
    (sysfsPath : Option String) (userclkHigh userclkLow : UInt64) (s : σ) :
    Option (FpgaResult × σ) :=
  match sysfsPath with
  | none => some (.invalidParam, s)
  | some sysfsPath =>
    match usingIopll search sysfsPath with
    | (.ok, path) =>
      if h : userclkLow ≤ iopllMaxFreq ∧ iopllMinFreq ≤ userclkLow then
        match files.openFile path s with
        | (none, s) => some (.notFound, s)
        | (some fd, s) =>
          (loop (writeStep files fd) n (configBytes (freqConfig userclkLow h), s)).map
            fun s => (.ok, files.close fd s)
      else some (.invalidParam, s)
    | (.noAccess, _) => some (.noAccess, s)
    | _ =>
      if maxFpgaFreq < userclkHigh ∨ maxFpgaFreq < userclkLow then some (.invalidParam, s)
      else if userclkLow ≠ 0 ∧ userclkHigh ≠ 0 ∧ userclkHigh < userclkLow then
        some (.invalidParam, s)
      else if userclkHigh < minFpgaFreq then some (.invalidParam, s)
      else some (fpll userclkHigh s)

end Code

end OpaeLibs.PluginXfpga.UserClockIopll
