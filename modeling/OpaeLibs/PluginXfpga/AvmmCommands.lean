import OpaeLibs.Lib.Bits
import OpaeLibs.PluginXfpga.AvmmPolls

namespace OpaeLibs.PluginXfpga.AvmmCommands

open OpaeLibs.Lib.Bits OpaeLibs.Lib.Polling
open OpaeLibs.PluginXfpga.UserClockAvmm OpaeLibs.PluginXfpga.AvmmPolls

/-- What a command makes of `gQUCPU_Uclock`. -/
def afterCommand (g : QucpuUclock) (cmdWrite : Int) (adr writeData : BitVec 64) : QucpuUclock :=
  let seq := (g.avmmSeq + 1) &&& 0x03
  { g with
    cmdReg0 := g.cmdReg0 &&& ~~~cmd0AmmB51t00 ||| seqCmdAddrData seq cmdWrite adr writeData
    avmmSeq := seq }

/-- The word of a command: the control bits of the shadow register, and the fields that the command
sets. -/
def commandWord (g : QucpuUclock) (cmdWrite : Int) (adr writeData : BitVec 64) : BitVec 64 :=
  g.cmdReg0.extractLsb' 52 12 ++ 0#2 ++ BitVec.ofNat 2 (g.avmmSeq.toNat + 1) ++ 0#3 ++
    (if cmdWrite = 1 then 1#1 else 0#1) ++ 0#2 ++ adr.extractLsb' 0 10 ++
    (if cmdWrite = 1 then writeData.extractLsb' 0 32 else 0#32)

section Words

variable (g : QucpuUclock) (cmdWrite : Int) (adr writeData : BitVec 64)

theorem or_seqCmdAddrData (reg seq : BitVec 64) :
    reg &&& ~~~cmd0AmmB51t00 ||| seqCmdAddrData seq cmdWrite adr writeData =
      (reg.extractLsb' 52 12 ++ 0#2 ++ seq.extractLsb' 0 2 ++ 0#3 ++
        (if cmdWrite = 1 then 1#1 else 0#1) ++ 0#2 ++ adr.extractLsb' 0 10 ++
        (if cmdWrite = 1 then writeData.extractLsb' 0 32 else 0#32) : BitVec 64) := by
  apply BitVec.eq_of_getLsbD_eq
  intro i hi
  -- the masks as low bits, so that each field is a placed one
  rw [seqCmdAddrData, show cmd0AmmB51t00 = BitVec.ofNat 64 (2 ^ 52 - 1) from rfl,
    show (0x00000003 : BitVec 64) = BitVec.ofNat 64 (2 ^ 2 - 1) from rfl,
    show (0x00000001 : BitVec 64) = BitVec.ofNat 64 (2 ^ 1 - 1) from rfl,
    show (0x000003ff : BitVec 64) = BitVec.ofNat 64 (2 ^ 10 - 1) from rfl,
    show (0xffffffff : BitVec 64) = BitVec.ofNat 64 (2 ^ 32 - 1) from rfl]
  simp only [BitVec.getLsbD_or, BitVec.getLsbD_and, BitVec.getLsbD_not, getLsbD_low,
    getLsbD_place, BitVec.getLsbD_append, BitVec.getLsbD_extractLsb']
  by_cases hcmd : cmdWrite = 1
  · simp only [hcmd, if_true]
    grind
  · simp only [hcmd, if_false]
    grind

theorem extract_seq (seq : BitVec 64) :
    ((seq + 1) &&& 0x03).extractLsb' 0 2 = BitVec.ofNat 2 (seq.toNat + 1) := by
  apply BitVec.eq_of_toNat_eq
  have hmask : (0x03 : BitVec 64).toNat = 2 ^ 2 - 1 := rfl
  rw [BitVec.extractLsb'_toNat, BitVec.toNat_and, hmask, Nat.and_two_pow_sub_one_eq_mod,
    BitVec.toNat_add, BitVec.toNat_ofNat]
  have hone : (1 : BitVec 64).toNat = 1 := rfl
  rw [hone, Nat.shiftRight_zero]
  omega

theorem afterCommand_cmdReg0 :
    (afterCommand g cmdWrite adr writeData).cmdReg0 = commandWord g cmdWrite adr writeData := by
  rw [afterCommand, or_seqCmdAddrData, extract_seq, commandWord]

end Words

section Fields

theorem packed_fields (ctl : BitVec 12) (seq : BitVec 2) (wrt : BitVec 1) (adr : BitVec 10)
    (dat : BitVec 32) :
    let word : BitVec 64 := ctl ++ 0#2 ++ seq ++ 0#3 ++ wrt ++ 0#2 ++ adr ++ dat
    word.extractLsb' 48 2 = seq ∧ word.extractLsb' 44 1 = wrt ∧ word.extractLsb' 32 10 = adr ∧
      word.extractLsb' 0 32 = dat := by
  refine ⟨?_, ?_, ?_, ?_⟩
  all_goals
    apply BitVec.eq_of_getLsbD_eq
    intro i hi
    simp only [BitVec.getLsbD_extractLsb', BitVec.getLsbD_append]
    grind

theorem getLsbD_sts0SeqB49t48 (i : Nat) :
    sts0SeqB49t48.getLsbD i = (decide (48 ≤ i) && decide (i < 50)) := by
  rw [show sts0SeqB49t48 = (BitVec.allOnes 64 &&& BitVec.ofNat 64 (2 ^ 2 - 1)) <<< 48 from rfl,
    getLsbD_place, BitVec.getLsbD_allOnes]
  grind

theorem commandWord_fields (g : QucpuUclock) (cmdWrite : Int) (adr writeData : BitVec 64) :
    (commandWord g cmdWrite adr writeData).extractLsb' 44 1 = (if cmdWrite = 1 then 1#1 else 0#1) ∧
      (commandWord g cmdWrite adr writeData).extractLsb' 32 10 = adr.extractLsb' 0 10 ∧
      (commandWord g cmdWrite adr writeData).extractLsb' 0 32 =
        if cmdWrite = 1 then writeData.extractLsb' 0 32 else 0#32 :=
  (packed_fields _ _ _ _ _).2

theorem answers_iff {want dataX : BitVec 64} :
    Answers want dataX ↔ dataX.extractLsb' 48 2 = want.extractLsb' 48 2 := by
  constructor
  · intro h
    apply BitVec.eq_of_getLsbD_eq
    intro i hi
    have hbit := congrArg (fun v => v.getLsbD (48 + i)) h
    simp only [BitVec.getLsbD_and, getLsbD_sts0SeqB49t48] at hbit
    simp only [BitVec.getLsbD_extractLsb']
    grind
  · intro h
    apply BitVec.eq_of_getLsbD_eq
    intro i hi
    have hbit := congrArg (fun v => v.getLsbD (i - 48)) h
    simp only [BitVec.getLsbD_extractLsb'] at hbit
    simp only [BitVec.getLsbD_and, getLsbD_sts0SeqB49t48]
    grind

end Fields

/-- A port behind which there are registers: the answer to a command is there before the first
poll, with the sequence number of the command and, for a read, the register as its low bits. -/
structure RegisterFile (σ : Type) (sysfsPath : String) where
  port : Port σ
  regs : σ → BitVec 10 → BitVec 32
  answer : BitVec 64 → σ → BitVec 64
  answered : BitVec 64 → σ → σ
  read_answer : ∀ word s,
    port.readU64 (sysfsUsrpath sysfsPath userClockSts0) (port.sleep usrclkSleep1ms
      (port.writeU64 (sysfsUsrpath sysfsPath userClockCmd0) word s).2) =
      (some (answer word s), answered word s)
  answer_seq : ∀ word s, (answer word s).extractLsb' 48 2 = word.extractLsb' 48 2
  answer_data : ∀ word s, word.extractLsb' 44 1 = 0#1 →
    (answer word s).extractLsb' 0 32 = regs s (word.extractLsb' 32 10)
  regs_answered : ∀ word s, regs (answered word s) =
    if word.extractLsb' 44 1 = 1#1 then
      Function.update (regs s) (word.extractLsb' 32 10) (word.extractLsb' 0 32)
    else regs s

section Commands

variable {σ : Type} (g : QucpuUclock) (cmdWrite : Int) (adr writeData readData : BitVec 64) (s : σ)

def startCommand (port : Port σ) : Bool × σ :=
  let (ok, s) := port.writeU64 (sysfsUsrpath g.sysfsPath userClockCmd0)
    (afterCommand g cmdWrite adr writeData).cmdReg0 s
  (ok, port.sleep usrclkSleep1ms s)

def statusAnswers (port : Port σ) : List (Option (BitVec 64)) :=
  slowAnswers port (sysfsUsrpath g.sysfsPath userClockSts0) 100 s

/-- The word whose sequence number the answer has. -/
def wanted : BitVec 64 := seqCmdAddrData ((g.avmmSeq + 1) &&& 0x03) cmdWrite adr writeData

theorem wanted_seq :
    (wanted g cmdWrite adr writeData).extractLsb' 48 2 =
      (commandWord g cmdWrite adr writeData).extractLsb' 48 2 := by
  have hzero := or_seqCmdAddrData cmdWrite adr writeData 0#64 ((g.avmmSeq + 1) &&& 0x03)
  rw [BitVec.zero_and, BitVec.zero_or] at hzero
  rw [wanted, hzero, commandWord, (packed_fields _ _ _ _ _).1, (packed_fields _ _ _ _ _).1,
    extract_seq]

variable {g cmdWrite adr writeData readData s} in
theorem fiAvmmRWcom_of_slowPoll {port : Port σ} {found : Bool} {x : BitVec 64} {t : σ}
    (h : slowPoll port (sysfsUsrpath g.sysfsPath userClockSts0) (wanted g cmdWrite adr writeData)
      100 (port.indeterminate (startCommand g cmdWrite adr writeData s port).2)
      (startCommand g cmdWrite adr writeData s port).2 = (found, x, t)) :
    fiAvmmRWcom port cmdWrite adr writeData readData g s =
      (if found then 0 else avmmRWcomErrTimeout, if cmdWrite = 0 then x else readData,
        afterCommand g cmdWrite adr writeData, t) := by
  have hunfold : fiAvmmRWcom port cmdWrite adr writeData readData g s =
      let r := slowPoll port (sysfsUsrpath g.sysfsPath userClockSts0)
        (wanted g cmdWrite adr writeData) 100
        (port.indeterminate (startCommand g cmdWrite adr writeData s port).2)
        (startCommand g cmdWrite adr writeData s port).2
      (if r.1 then 0 else avmmRWcomErrTimeout, if cmdWrite = 0 then r.2.1 else readData,
        afterCommand g cmdWrite adr writeData, r.2.2) := rfl
  rw [hunfold, h]

variable {g cmdWrite adr writeData readData s} in
theorem slowPoll_first {port : Port σ} {path : String} {want dataX v : BitVec 64} {n : Nat} {t : σ}
    (hread : port.readU64 path s = (some v, t)) (hv : Answers want v) :
    slowPoll port path want (n + 1) dataX s = (true, v, t) := by
  refine slowPoll_of_pos ((fastPoll_of_pos (n := 99) ?_).trans ?_)
  · rw [hread]
    exact hv
  · rw [hread]
    rfl

theorem fiAvmmRWcom_eq (port : Port σ) (log : List Access) :
    let start := startCommand g cmdWrite adr writeData s port
    let r := poll (Answers (wanted g cmdWrite adr writeData)) (port.indeterminate start.2)
      (statusAnswers g start.2 port)
    let res : Int := if r.1 then 0 else avmmRWcomErrTimeout
    let dat := if cmdWrite = 0 then r.2.1 else readData
    ∃ t, fiAvmmRWcom port cmdWrite adr writeData readData g s =
        (res, dat, afterCommand g cmdWrite adr writeData, t) ∧
      fiAvmmRWcom (recorded port) cmdWrite adr writeData readData g (s, log) =
        (res, dat, afterCommand g cmdWrite adr writeData, t,
          log ++ .wrote (sysfsUsrpath g.sysfsPath userClockCmd0)
            (commandWord g cmdWrite adr writeData) start.1 ::
            r.2.2.map (.polled (sysfsUsrpath g.sysfsPath userClockSts0))) := by
  intro start
  obtain ⟨t, hplain, hlog⟩ := slowPoll_eq port (sysfsUsrpath g.sysfsPath userClockSts0)
    (wanted g cmdWrite adr writeData) 100 (port.indeterminate start.2) start.2
    (log ++ [.wrote (sysfsUsrpath g.sysfsPath userClockCmd0)
      (afterCommand g cmdWrite adr writeData).cmdReg0 start.1])
  refine ⟨t, ?_, ?_⟩
  · exact fiAvmmRWcom_of_slowPoll hplain
  · rw [← afterCommand_cmdReg0, List.append_cons]
    exact fiAvmmRWcom_of_slowPoll hlog

theorem RegisterFile.fiAvmmRWcom_eq (d : RegisterFile σ g.sysfsPath) :
    let word := commandWord g cmdWrite adr writeData
    fiAvmmRWcom d.port cmdWrite adr writeData readData g s =
      (0, if cmdWrite = 0 then d.answer word s else readData,
        afterCommand g cmdWrite adr writeData, d.answered word s) := by
  intro word
  have hread : d.port.readU64 (sysfsUsrpath g.sysfsPath userClockSts0)
      (startCommand g cmdWrite adr writeData s d.port).2 =
        (some (d.answer word s), d.answered word s) := by
    rw [startCommand, afterCommand_cmdReg0]
    exact d.read_answer word s
  have hanswers : Answers (wanted g cmdWrite adr writeData) (d.answer word s) := by
    rw [answers_iff, wanted_seq, d.answer_seq]
  exact fiAvmmRWcom_of_slowPoll (slowPoll_first hread hanswers)

theorem RegisterFile.fiAvmmRead_eq (d : RegisterFile σ g.sysfsPath) :
    ∃ v t, fiAvmmRead d.port adr readData g s = (0, v, afterCommand g 0 adr 0, t) ∧
      v.extractLsb' 0 32 = d.regs s (adr.extractLsb' 0 10) ∧ d.regs t = d.regs s := by
  obtain ⟨hwrt, hadr, -⟩ := commandWord_fields g 0 adr 0
  refine ⟨_, _, RegisterFile.fiAvmmRWcom_eq g 0 adr 0 readData s d, ?_, ?_⟩
  · rw [if_pos rfl, d.answer_data _ _ hwrt, hadr]
  · rw [d.regs_answered, hwrt]
    exact if_neg (by decide)

theorem RegisterFile.fiAvmmWrite_eq (d : RegisterFile σ g.sysfsPath) :
    ∃ t, fiAvmmWrite d.port adr writeData g s = (0, afterCommand g 1 adr writeData, t) ∧
      d.regs t =
        Function.update (d.regs s) (adr.extractLsb' 0 10) (writeData.extractLsb' 0 32) := by
  obtain ⟨hwrt, hadr, hdat⟩ := commandWord_fields g 1 adr writeData
  refine ⟨d.answered (commandWord g 1 adr writeData) s, ?_, ?_⟩
  · rw [fiAvmmWrite, RegisterFile.fiAvmmRWcom_eq g 1 adr writeData 0 s d]
  · rw [d.regs_answered, hwrt, hadr, hdat]
    exact if_pos rfl

theorem RegisterFile.fiAvmmReadModifyWrite_eq (d : RegisterFile σ g.sysfsPath)
    (dat msk : BitVec 64) :
    ∃ g' t, fiAvmmReadModifyWrite d.port adr dat msk g s = (0, g', t) ∧
      d.regs t = Function.update (d.regs s) (adr.extractLsb' 0 10)
        (d.regs s (adr.extractLsb' 0 10) &&& ~~~(msk.extractLsb' 0 32) |||
          dat.extractLsb' 0 32 &&& msk.extractLsb' 0 32) := by
  obtain ⟨v, t, hread, hv, ht⟩ := RegisterFile.fiAvmmRead_eq g adr 0 s d
  obtain ⟨u, hwrite, hu⟩ := RegisterFile.fiAvmmWrite_eq (afterCommand g 0 adr 0) adr
    (v &&& ~~~msk ||| dat &&& msk) t d
  have heq : fiAvmmReadModifyWrite d.port adr dat msk g s =
      fiAvmmWrite d.port adr (v &&& ~~~msk ||| dat &&& msk) (afterCommand g 0 adr 0) t := by
    rw [fiAvmmReadModifyWrite, hread]
    exact if_pos rfl
  have hword : (v &&& ~~~msk ||| dat &&& msk).extractLsb' 0 32 =
      v.extractLsb' 0 32 &&& ~~~(msk.extractLsb' 0 32) |||
        dat.extractLsb' 0 32 &&& msk.extractLsb' 0 32 := by
    apply BitVec.eq_of_getLsbD_eq
    intro i hi
    simp only [BitVec.getLsbD_extractLsb', BitVec.getLsbD_or, BitVec.getLsbD_and,
      BitVec.getLsbD_not]
    grind
  exact ⟨_, u, heq.trans hwrite, by rw [hu, ht, hword, hv]⟩

theorem fiAvmmReadModifyWriteVerify_readback (port : Port σ) (dat msk : BitVec 64)
    (h : (fiAvmmReadModifyWriteVerify port adr dat msk g s).1 = 0) :
    ∃ g' t v r, fiAvmmReadModifyWrite port adr dat msk g s = (0, g', t) ∧
      fiAvmmRead port adr 0 g' t = (0, v, r) ∧ v &&& msk = dat &&& msk := by
  rw [fiAvmmReadModifyWriteVerify] at h
  cases hmodify : fiAvmmReadModifyWrite port adr dat msk g s with
  | mk res st =>
    rw [hmodify] at h
    dsimp only at h
    split at h
    · next hres =>
      cases hread : fiAvmmRead port adr 0 st.1 st.2 with
      | mk res' out =>
        rw [hread] at h
        dsimp only at h
        split at h
        · next hres' =>
          split at h
          · exact nomatch (show (4 : Int) = 0 from h)
          · next heq =>
            exact ⟨st.1, st.2, out.1, out.2, by rw [hres], by rw [hread, hres'], not_not.mp heq⟩
        · next hres' => exact absurd h hres'
    · next hres => exact absurd h hres

end Commands

def writes (log : List Access) : List (String × BitVec 64) :=
  log.filterMap fun
    | .wrote path word _ => some (path, word)
    | .polled .. => none

/-- A command writes its word once. Before registers that answer, a modification changes the bits
of the mask in the register of the address and nothing else; one that is verified has read the bits
back. -/
theorem avmm_commands_exact {σ : Type} (port : Port σ) (g : QucpuUclock)
    (d : RegisterFile σ g.sysfsPath) (cmdWrite : Int) (adr writeData readData dat msk : BitVec 64)
    (s : σ) (log : List Access) :
    let command := fiAvmmRWcom (recorded port) cmdWrite adr writeData readData g (s, log)
    let modified := fiAvmmReadModifyWrite d.port adr dat msk g s
    writes command.2.2.2.2 = writes log ++
        [(sysfsUsrpath g.sysfsPath userClockCmd0, commandWord g cmdWrite adr writeData)] ∧
      (modified.1 = 0 ∧ ∀ a (i : Fin 32), (d.regs modified.2.2 a).getLsbD i =
        if a = adr.extractLsb' 0 10 ∧ msk.getLsbD i then dat.getLsbD i
        else (d.regs s a).getLsbD i) ∧
      ((fiAvmmReadModifyWriteVerify port adr dat msk g s).1 = 0 →
        ∃ g' t v r, fiAvmmReadModifyWrite port adr dat msk g s = (0, g', t) ∧
          fiAvmmRead port adr 0 g' t = (0, v, r) ∧ v &&& msk = dat &&& msk) := by
  intro command modified
  refine ⟨?_, ?_, fiAvmmReadModifyWriteVerify_readback g adr s port dat msk⟩
  · obtain ⟨t, -, hlog⟩ := fiAvmmRWcom_eq g cmdWrite adr writeData readData s port log
    have hpolls : ∀ (answers : List (Option (BitVec 64))) path,
        writes (answers.map (Access.polled path)) = [] := by
      intro answers path
      induction answers with
      | nil => rfl
      | cons answer answers ih => exact ih
    change
      writes (fiAvmmRWcom (recorded port) cmdWrite adr writeData readData g (s, log)).2.2.2.2 = _
    rw [hlog, writes, List.filterMap_append]
    exact congrArg (fun l => writes log ++ _ :: l) (hpolls _ _)
  · obtain ⟨g', t, heq, hregs⟩ := RegisterFile.fiAvmmReadModifyWrite_eq g adr s d dat msk
    change (fiAvmmReadModifyWrite d.port adr dat msk g s).1 = 0 ∧ ∀ a (i : Fin 32),
      (d.regs (fiAvmmReadModifyWrite d.port adr dat msk g s).2.2 a).getLsbD i = _
    rw [heq]
    refine ⟨rfl, fun a i => ?_⟩
    rw [hregs, Function.update_apply]
    by_cases ha : a = adr.extractLsb' 0 10
    · rw [if_pos ha, ha]
      simp only [BitVec.getLsbD_extractLsb', BitVec.getLsbD_or, BitVec.getLsbD_and,
        BitVec.getLsbD_not]
      grind
    · rw [if_neg ha, if_neg fun h => ha h.1]

def mirror (sysfsPath : String) : RegisterFile ((BitVec 10 → BitVec 32) × BitVec 64) sysfsPath where
  port :=
    { readU64 := fun _ s => (some s.2, s)
      writeU64 := fun _ word s =>
        (true, if word.extractLsb' 44 1 = 1#1 then
            Function.update s.1 (word.extractLsb' 32 10) (word.extractLsb' 0 32) else s.1,
          word.extractLsb' 32 32 ++ s.1 (word.extractLsb' 32 10))
      sleep := fun _ s => s
      indeterminate := fun _ => 0 }
  regs s := s.1
  answer word s := word.extractLsb' 32 32 ++ s.1 (word.extractLsb' 32 10)
  answered word s :=
    (if word.extractLsb' 44 1 = 1#1 then
        Function.update s.1 (word.extractLsb' 32 10) (word.extractLsb' 0 32) else s.1,
      word.extractLsb' 32 32 ++ s.1 (word.extractLsb' 32 10))
  read_answer _ _ := rfl
  answer_seq word s := by
    apply BitVec.eq_of_getLsbD_eq
    intro i hi
    simp only [BitVec.getLsbD_extractLsb', BitVec.getLsbD_append]
    grind
  answer_data word s _ := by
    apply BitVec.eq_of_getLsbD_eq
    intro i hi
    simp only [BitVec.getLsbD_extractLsb', BitVec.getLsbD_append]
    grind
  regs_answered _ _ := rfl

theorem avmm_commands_mirror :
    (fiAvmmReadModifyWrite (mirror "").port 0x405 0xff 0x0f ⟨"", 0, 3⟩ (fun _ => 0x12345670, 0)).1 =
      0 :=
  (avmm_commands_exact (mirror "").port ⟨"", 0, 3⟩ (mirror "") 0 0x405 0 0 0xff 0x0f
    (fun _ => 0x12345670, 0) []).2.1.1

/-- A command that succeeds has been written, and the status register has been read with its
sequence number behind it; a read hands back the word of that read. -/
def Acknowledged {σ : Type} (g : QucpuUclock) (cmdWrite : Int) (adr writeData : BitVec 64)
    (r : Int × BitVec 64 × QucpuUclock × σ × List Access) : Prop :=
  r.1 = 0 → ∃ v, [Access.wrote (sysfsUsrpath g.sysfsPath userClockCmd0)
        (commandWord g cmdWrite adr writeData) true,
      .polled (sysfsUsrpath g.sysfsPath userClockSts0) (some v)].Sublist r.2.2.2.2 ∧
    v.extractLsb' 48 2 = (commandWord g cmdWrite adr writeData).extractLsb' 48 2 ∧
    (cmdWrite = 0 → r.2.1 = v)

/-- A first poll that fails does not meet an answer in the uninitialised variable, and where the
write fails there is no answer. -/
def Reliable {σ : Type} (port : Port σ) (g : QucpuUclock) (cmdWrite : Int)
    (adr writeData : BitVec 64) (s : σ) : Prop :=
  let start := startCommand g cmdWrite adr writeData s port
  let answers := statusAnswers g start.2 port
  ¬Stale (Answers (wanted g cmdWrite adr writeData)) (port.indeterminate start.2) answers ∧
    (start.1 = true ∨ ∀ v, some v ∈ answers → ¬Answers (wanted g cmdWrite adr writeData) v)

section Acknowledged

variable {σ : Type} (g : QucpuUclock) (cmdWrite : Int) (adr writeData readData : BitVec 64) (s : σ)
  (port : Port σ)

theorem sublist_command_iff {path path' : String} {word word' v : BitVec 64} {ok : Bool}
    {made : List (Option (BitVec 64))} :
    [Access.wrote path word true, .polled path' (some v)].Sublist
        (.wrote path word' ok :: made.map (.polled path')) ↔
      (word = word' ∧ ok = true) ∧ some v ∈ made := by
  constructor
  · intro h
    cases h with
    | cons _ h =>
      have hmem := h.subset List.mem_cons_self
      obtain ⟨r, -, hr⟩ := List.mem_map.mp hmem
      exact nomatch hr
    | cons_cons _ h =>
      obtain ⟨r, hr, heq⟩ := List.mem_map.mp (List.singleton_sublist.mp h)
      exact ⟨⟨rfl, rfl⟩, (Access.polled.inj heq).2 ▸ hr⟩
  · rintro ⟨⟨rfl, rfl⟩, hmem⟩
    exact (List.singleton_sublist.mpr (List.mem_map_of_mem hmem)).cons_cons _

theorem acknowledged_iff_reliable :
    Acknowledged g cmdWrite adr writeData
        (fiAvmmRWcom (recorded port) cmdWrite adr writeData readData g (s, [])) ↔
      Reliable port g cmdWrite adr writeData s := by
  obtain ⟨t, -, hlog⟩ := fiAvmmRWcom_eq g cmdWrite adr writeData readData s port []
  rw [hlog, Acknowledged, Reliable]
  simp only [List.nil_append, sublist_command_iff, ← wanted_seq, ← answers_iff]
  set start := startCommand g cmdWrite adr writeData s port
  set answers := statusAnswers g start.2 port
  set want := wanted g cmdWrite adr writeData
  set r := poll (Answers want) (port.indeterminate start.2) answers
  have hres : (if r.1 = true then 0 else avmmRWcomErrTimeout) = (0 : Int) ↔ r.1 = true := by
    cases r.1 <;> decide
  rw [hres]
  by_cases hstale : Stale (Answers want) (port.indeterminate start.2) answers
  · -- no answer is looked at
    have hr := poll_of_stale hstale
    refine iff_of_false (fun h => ?_) fun h => h.1 hstale
    obtain ⟨v, ⟨-, hmem⟩, -⟩ := h (congrArg Prod.fst hr)
    change some v ∈ r.2.2 at hmem
    rw [show r.2.2 = [none] from congrArg (fun q => q.2.2) hr, List.mem_singleton] at hmem
    cases hmem
  · have hfound := poll_found_iff hstale
    constructor
    · intro h
      refine ⟨hstale, or_iff_not_imp_right.mpr fun hanswer => ?_⟩
      obtain ⟨v, hv⟩ := not_forall.mp hanswer
      rw [Classical.not_imp, not_not] at hv
      obtain ⟨-, ⟨⟨-, hok⟩, -⟩, -⟩ := h (hfound.mpr ⟨v, hv⟩)
      exact hok
    · rintro ⟨-, hok | hnone⟩ hr
      · obtain ⟨hmem, hanswers⟩ := poll_answer hstale hr
        exact ⟨r.2.1, ⟨⟨trivial, hok⟩, hmem⟩, hanswers, fun hcmd => if_pos hcmd⟩
      · obtain ⟨v, hmem, hv⟩ := hfound.mp hr
        exact absurd hv (hnone v hmem)

end Acknowledged

theorem avmm_success_iff {σ : Type} (port : Port σ) (g : QucpuUclock) (cmdWrite : Int)
    (adr writeData readData : BitVec 64) (s : σ) :
    (Acknowledged g cmdWrite adr writeData
        (fiAvmmRWcom (recorded port) cmdWrite adr writeData readData g (s, [])) ↔
      Reliable port g cmdWrite adr writeData s) ∧
    (Acknowledged g 0 adr 0 (fiAvmmRead (recorded port) adr readData g (s, [])) ↔
      Reliable port g 0 adr 0 s) :=
  ⟨acknowledged_iff_reliable g cmdWrite adr writeData readData s port,
    acknowledged_iff_reliable g 0 adr 0 readData s port⟩

/-- Every write fails, and the status register keeps the sequence number 1. -/
def unwritten : Port Unit where
  readU64 _ s := (some 0x0001000000000000, s)
  writeU64 _ _ s := (false, s)
  sleep _ s := s
  indeterminate _ := 0

theorem avmm_success_unwritten :
    ¬Acknowledged ⟨"/sys/class/fpga", 0, 0⟩ 0 0 0
      (fiAvmmRead (recorded unwritten) 0 0 ⟨"/sys/class/fpga", 0, 0⟩ ((), [])) := by
  intro h
  obtain ⟨-, hok | hnone⟩ := (acknowledged_iff_reliable _ 0 0 0 0 () unwritten).mp h
  · exact nomatch hok
  · exact hnone 0x0001000000000000 (mem_slowAnswers unwritten _ 99 ()) (by decide)

end OpaeLibs.PluginXfpga.AvmmCommands
