import OpaeLibs.Lib.Polling
import OpaeLibs.PluginXfpga.UserClockAvmm

namespace OpaeLibs.PluginXfpga.AvmmPolls

open OpaeLibs.Lib.Polling
open OpaeLibs.PluginXfpga.SysfsWords OpaeLibs.PluginXfpga.UserClockAvmm

/-- A call of `sysfs_write_u64` with whether it succeeds, and one of `sysfs_read_u64` with what it
stores. -/
inductive Access
  | wrote (path : String) (word : BitVec 64) (ok : Bool)
  | polled (path : String) (answer : Option (BitVec 64))

/-- The port, with the calls in the order in which they are made. -/
def recorded {σ : Type} (port : Port σ) : Port (σ × List Access) where
  readU64 path s :=
    let (answer, t) := port.readU64 path s.1
    (answer, t, s.2 ++ [.polled path answer])
  writeU64 path word s :=
    let (ok, t) := port.writeU64 path word s.1
    (ok, t, s.2 ++ [.wrote path word ok])
  sleep n s := (port.sleep n s.1, s.2)
  indeterminate s := port.indeterminate s.1

section Outcomes

variable {σ : Type} (port : Port σ) (path : String)

def fastAnswers : Nat → σ → List (Option (BitVec 64)) × σ
  | 0, s => ([], s)
  | n + 1, s =>
    let (answer, s) := port.readU64 path s
    let (answers, s) := fastAnswers n s
    (answer :: answers, s)

def slowAnswers : Nat → σ → List (Option (BitVec 64))
  | 0, _ => []
  | n + 1, s =>
    let (answers, s) := fastAnswers port path 100 s
    answers ++ slowAnswers n (port.sleep usrclkSleep1ms s)

theorem mem_slowAnswers (n : Nat) (s : σ) :
    (port.readU64 path s).1 ∈ slowAnswers port path (n + 1) s := by
  rw [slowAnswers]
  exact List.mem_append_left _ (List.mem_cons_self (l := (fastAnswers port path 99 _).1))

end Outcomes

section Polls

variable {σ : Type} {port : Port σ} {path : String} {want dataX : BitVec 64} {s : σ}

theorem fastPoll_of_pos {n : Nat} (h : Answers want ((port.readU64 path s).1.getD dataX)) :
    fastPoll port path want (n + 1) dataX s =
      (true, (port.readU64 path s).1.getD dataX, (port.readU64 path s).2) := by
  rw [fastPoll]
  exact if_pos h

theorem fastPoll_of_neg {n : Nat} (h : ¬Answers want ((port.readU64 path s).1.getD dataX)) :
    fastPoll port path want (n + 1) dataX s =
      fastPoll port path want n ((port.readU64 path s).1.getD dataX) (port.readU64 path s).2 := by
  rw [fastPoll]
  exact if_neg h

theorem fastPoll_eq (port : Port σ) (path : String) (want : BitVec 64) (n : Nat)
    (dataX : BitVec 64) (s : σ) (log : List Access) :
    let answers := fastAnswers port path n s
    let r := poll (Answers want) dataX answers.1
    ∃ t, fastPoll port path want n dataX s = (r.1, r.2.1, t) ∧
      fastPoll (recorded port) path want n dataX (s, log) =
        (r.1, r.2.1, t, log ++ r.2.2.map (.polled path)) ∧
      (r.1 = false → t = answers.2) := by
  induction n generalizing dataX s log with
  | zero =>
    refine ⟨s, rfl, ?_, fun _ => rfl⟩
    exact congrArg (fun l => (false, dataX, s, l)) (List.append_nil log).symm
  | succ n ih =>
    by_cases h : Answers want ((port.readU64 path s).1.getD dataX)
    · refine ⟨(port.readU64 path s).2, ?_⟩
      have hrecorded : Answers want (((recorded port).readU64 path (s, log)).1.getD dataX) := h
      rw [fastPoll_of_pos h, fastPoll_of_pos hrecorded, fastAnswers, poll_of_pos h]
      exact ⟨rfl, rfl, nofun⟩
    · obtain ⟨t, hplain, hlog, ht⟩ := ih ((port.readU64 path s).1.getD dataX)
        (port.readU64 path s).2 (log ++ [.polled path (port.readU64 path s).1])
      have hrecorded : ¬Answers want (((recorded port).readU64 path (s, log)).1.getD dataX) := h
      refine ⟨t, ?_⟩
      rw [fastPoll_of_neg h, fastPoll_of_neg hrecorded, fastAnswers, poll_of_neg h]
      refine ⟨hplain, hlog.trans ?_, ht⟩
      rw [List.map_cons, ← List.append_cons]

theorem slowPoll_of_pos {n : Nat} {x : BitVec 64} {t : σ}
    (h : fastPoll port path want 100 dataX s = (true, x, t)) :
    slowPoll port path want (n + 1) dataX s = (true, x, t) := by
  rw [slowPoll, h]

theorem slowPoll_of_neg {n : Nat} {x : BitVec 64} {t : σ}
    (h : fastPoll port path want 100 dataX s = (false, x, t)) :
    slowPoll port path want (n + 1) dataX s =
      slowPoll port path want n x (port.sleep usrclkSleep1ms t) := by
  rw [slowPoll, h]

theorem slowPoll_eq (port : Port σ) (path : String) (want : BitVec 64) (n : Nat)
    (dataX : BitVec 64) (s : σ) (log : List Access) :
    let r := poll (Answers want) dataX (slowAnswers port path n s)
    ∃ t, slowPoll port path want n dataX s = (r.1, r.2.1, t) ∧
      slowPoll (recorded port) path want n dataX (s, log) =
        (r.1, r.2.1, t, log ++ r.2.2.map (.polled path)) := by
  induction n generalizing dataX s log with
  | zero => exact ⟨s, rfl, congrArg (fun l => (false, dataX, s, l)) (List.append_nil log).symm⟩
  | succ n ih =>
    obtain ⟨t, hplain, hlog, ht⟩ := fastPoll_eq port path want 100 dataX s log
    rw [slowAnswers, poll_append]
    cases hfound : (poll (Answers want) dataX (fastAnswers port path 100 s).1).1 with
    | true =>
      rw [hfound] at hplain hlog
      rw [if_pos rfl]
      refine ⟨t, (slowPoll_of_pos hplain).trans ?_, (slowPoll_of_pos hlog).trans ?_⟩
      · rw [hfound]
      · rw [hfound]
    | false =>
      rw [hfound] at hplain hlog
      obtain ⟨u, hplain', hlog'⟩ := ih
        (poll (Answers want) dataX (fastAnswers port path 100 s).1).2.1
        (port.sleep usrclkSleep1ms t)
        (log ++
          (poll (Answers want) dataX (fastAnswers port path 100 s).1).2.2.map (.polled path))
      rw [if_neg Bool.false_ne_true, slowPoll_of_neg hplain, slowPoll_of_neg hlog]
      rw [ht hfound] at hplain' hlog' ⊢
      refine ⟨u, hplain', hlog'.trans ?_⟩
      rw [List.append_assoc, ← List.map_append]

end Polls

end OpaeLibs.PluginXfpga.AvmmPolls
