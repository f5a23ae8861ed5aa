/-
When the waits of the IDE driver end, and what their answers tell.

Both counted waits look for a flag while they count their polls.  After that they take the
first status that is not busy for an answer, whether it has the flag or not, and this second
loop does not count.
-/
import EvtDrivenOs.Ide.Wait
import Mathlib.Data.Nat.Find

namespace EvtDrivenOs.Ide

open EvtDrivenOs.Lib.X64

/-- The device is ready. -/
def ideDeviceReadyFlag : BitVec 8 := 1 <<< 6

/-- `al` gets 1 if the device is ready, 0 if it has an error. -/
def waitIdeDeviceReady : ℕ → Machine → Option Machine := waitFlag ideDeviceReadyFlag 0xFFFFFF

/-- The polls that the wait for readiness takes before it looks for an error. -/
def readyPolls : ℕ := 0xFFFFFF

/-! ### The poll that ends a wait -/

/-- Poll `k` is one that ends a wait for `flag` with `polls` counted polls: the device is
not busy and, as long as the polls are counted, has the flag. -/
def EndsWait (flag : BitVec 8) (polls : ℕ) (st : Stream' (BitVec 16)) (k : ℕ) : Prop :=
  ¬ Busy (st.get k) ∧ (k < polls → HasFlag flag (st.get k))

/-- The first such poll. -/
structure FirstEnd (flag : BitVec 8) (polls : ℕ) (st : Stream' (BitVec 16)) (k : ℕ) : Prop where
  ends : EndsWait flag polls st k
  first : ∀ i < k, ¬ EndsWait flag polls st i

/-- What a wait answers that ends with poll `k`. -/
def answerAt (polls : ℕ) (st : Stream' (BitVec 16)) (k : ℕ) : BitVec 8 :=
  if k < polls then 1 else answer (st.get k)

variable {flag : BitVec 8} {polls k fuel : ℕ} {st : Stream' (BitVec 16)} {s : Machine}

lemma endsWait_zero :
    EndsWait flag polls st 0 ↔ ¬ Busy st.head ∧ (0 < polls → HasFlag flag st.head) := Iff.rfl

lemma endsWait_succ : EndsWait flag polls st (k + 1) ↔ EndsWait flag (polls - 1) st.tail k := by
  rw [EndsWait, EndsWait, Stream'.get_succ, Nat.lt_sub_iff_add_lt]

lemma FirstEnd.tail (h : FirstEnd flag polls st (k + 1)) : FirstEnd flag (polls - 1) st.tail k :=
  ⟨endsWait_succ.mp h.ends, fun i hi he => h.first (i + 1) (by omega) (endsWait_succ.mpr he)⟩

lemma FirstEnd.not_zero (h : FirstEnd flag polls st (k + 1)) : ¬ EndsWait flag polls st 0 :=
  h.first 0 k.succ_pos

lemma exists_firstEnd (h : EndsWait flag polls st k) : ∃ j, FirstEnd flag polls st j := by
  classical
  exact ⟨Nat.find ⟨k, h⟩, Nat.find_spec ⟨k, h⟩, fun i hi => Nat.find_min ⟨k, h⟩ hi⟩

/-! ### The loops -/

lemma inp_inAl (s : Machine) : s.inAl.inp s.inAl.dx = (s.inp s.dx).tail := by
  simp

lemma waitNotBusyLoop_of_firstEnd (h : FirstEnd flag 0 (s.inp s.dx) k) (hf : k < fuel) :
    waitNotBusyLoop fuel s =
      some (polled s ((s.inp s.dx).get k) ((s.inp s.dx).drop (k + 1))) := by
  induction fuel generalizing s k with
  | zero => omega
  | succ fuel ih =>
    rw [waitNotBusyLoop_succ]
    cases k with
    | zero =>
      rw [if_neg h.ends.1]
      rfl
    | succ k =>
      have hbusy : Busy (s.inp s.dx).head := not_not.mp fun hb =>
        h.not_zero (endsWait_zero.mpr ⟨hb, fun h0 => absurd h0 (by omega)⟩)
      have htail : FirstEnd flag 0 (s.inAl.inp s.inAl.dx) k := by
        rw [inp_inAl]
        exact h.tail
      rw [if_pos hbusy, ih htail (by omega), polled_inAl, inp_inAl]
      rfl

lemma waitNotBusyLoop_none (h : ∀ k < fuel, ¬ EndsWait flag 0 (s.inp s.dx) k) :
    waitNotBusyLoop fuel s = none := by
  induction fuel generalizing s with
  | zero => rfl
  | succ fuel ih =>
    have hbusy : Busy (s.inp s.dx).head := not_not.mp fun hb =>
      h 0 fuel.succ_pos (endsWait_zero.mpr ⟨hb, fun h0 => absurd h0 (by omega)⟩)
    rw [waitNotBusyLoop_succ, if_pos hbusy]
    refine ih fun k hk he => h (k + 1) (by omega) (endsWait_succ.mpr ?_)
    rw [← inp_inAl]
    exact he

/-- `bl` after a loop that ended with poll `k`. -/
def rbxAt (n : ℕ) (s : Machine) (k : ℕ) : BitVec 64 :=
  if n ≤ k ∧ HasError ((s.inp s.dx).get k) then setLow8 s.rbx 0 else s.rbx

lemma endsWait_zero_iff (hs : s.rcx ≠ 0) :
    EndsWait flag s.rcx.toNat (s.inp s.dx) 0 ↔
      ¬ Busy (s.inp s.dx).head ∧ HasFlag flag (s.inp s.dx).head := by
  have hdec := toNat_decRcx hs
  rw [endsWait_zero]
  exact and_congr_right fun _ => ⟨fun h => h (by omega), fun h _ => h⟩

lemma rcx_inAl_decRcx (hs : s.rcx ≠ 0) : s.inAl.decRcx.rcx.toNat = s.rcx.toNat - 1 := by
  have hdec := toNat_decRcx hs
  simp only [Machine.decRcx, Machine.inAl, Machine.setAl, Machine.eat] at hdec ⊢
  omega

lemma flagNext_of_firstEnd (h : FirstEnd flag s.rcx.toNat (s.inp s.dx) k) (hf : k < fuel) :
    ∃ rcx, flagNext flag fuel s = some (drqPolled s ((s.inp s.dx).get k)
      (rbxAt s.rcx.toNat s k) rcx ((s.inp s.dx).drop (k + 1))) := by
  induction fuel generalizing s k with
  | zero => omega
  | succ fuel ih =>
    by_cases hs : s.rcx = 0
    · have h0 : s.rcx.toNat = 0 := by rw [hs]; rfl
      rw [h0] at h
      refine ⟨s.rcx, ?_⟩
      rw [flagNext, if_neg (not_not.mpr hs), waitNotBusyLoop_of_firstEnd h hf, rbxAt, h0]
      simp only [polled, drqPolled, Nat.zero_le, true_and]
    · rw [flagNext_succ hs]
      cases k with
      | zero =>
        have hdec := toNat_decRcx hs
        refine ⟨s.rcx, ?_⟩
        rw [if_pos ((endsWait_zero_iff hs).mp h.ends), rbxAt, if_neg (by omega)]
        rfl
      | succ k =>
        have hinp : s.inAl.decRcx.inp s.inAl.decRcx.dx = (s.inp s.dx).tail := inp_inAl s
        have htail : FirstEnd flag s.inAl.decRcx.rcx.toNat
            (s.inAl.decRcx.inp s.inAl.decRcx.dx) k := by
          rw [rcx_inAl_decRcx hs, hinp]
          exact h.tail
        obtain ⟨rcx, hnext⟩ := ih htail (by omega)
        have hrbx : rbxAt s.inAl.decRcx.rcx.toNat s.inAl.decRcx k =
            rbxAt s.rcx.toNat s (k + 1) := by
          have hdec := toNat_decRcx hs
          rw [rbxAt, rbxAt, rcx_inAl_decRcx hs, hinp, Stream'.get_succ]
          simp only [Nat.sub_le_iff_le_add]
          rfl
        refine ⟨rcx, ?_⟩
        rw [if_neg (fun he => h.not_zero ((endsWait_zero_iff hs).mpr he)), hnext, drqPolled_inAl,
          hrbx, hinp]
        rfl

lemma flagNext_none (h : ∀ k < fuel, ¬ EndsWait flag s.rcx.toNat (s.inp s.dx) k) :
    flagNext flag fuel s = none := by
  induction fuel generalizing s with
  | zero =>
    rw [flagNext]
    split <;> rfl
  | succ fuel ih =>
    by_cases hs : s.rcx = 0
    · rw [flagNext, if_neg (not_not.mpr hs)]
      rw [show s.rcx.toNat = 0 by rw [hs]; rfl] at h
      exact waitNotBusyLoop_none h
    · rw [flagNext_succ hs, if_neg fun he => h 0 fuel.succ_pos ((endsWait_zero_iff hs).mpr he)]
      refine ih fun k hk he => h (k + 1) (by omega) (endsWait_succ.mpr ?_)
      rw [rcx_inAl_decRcx hs] at he
      rw [← inp_inAl]
      exact he

/-! ### The waits -/

/-- A wait of the driver: it ends with the first poll that ends it, and not at all if there
is none. -/
structure WaitsFor (flag : BitVec 8) (polls : ℕ) (wait : ℕ → Machine → Option Machine) : Prop where
  ends : ∀ {k fuel : ℕ} {s : Machine}, FirstEnd flag polls (status s) k → k < fuel →
    ∀ ra, s.call ra (wait fuel) =
      some (answered s (answerAt polls (status s) k) ((status s).drop (k + 1)))
  never : ∀ {fuel : ℕ} {s : Machine}, (∀ k < fuel, ¬ EndsWait flag polls (status s) k) →
    ∀ ra, s.call ra (wait fuel) = none

/-- The state at the start of a counted loop. -/
def flagEntry (polls : BitVec 64) (s : Machine) : Machine :=
  { ((((s.push s.rdx).push s.rcx).push s.rbx).setBl 1).setDx (s.dx + ideStatusCommandReg) with
    rcx := polls }

/-- What a counted wait does after its loop. -/
def flagExit (s : Machine) : Machine := (((s.setAl s.bl).popRbx).popRcx).popRdx

lemma waitFlag_eq {n : BitVec 64} (hn : n ≠ 0) (fuel : ℕ) (s : Machine) :
    waitFlag flag n fuel s = (flagNext flag fuel (flagEntry n s)).map flagExit := by
  have hentry : (flagEntry n s).rcx ≠ 0 := hn
  rw [flagNext, if_pos hentry, Option.map_eq_bind]
  simp only [waitFlag, flagEntry, Machine.push]
  rfl

lemma inp_flagEntry (n : BitVec 64) (s : Machine) :
    (flagEntry n s).inp (flagEntry n s).dx = status s := by
  simp [flagEntry, status, regPort]

lemma flagExit_drqPolled (n : BitVec 64) (s : Machine) (k : ℕ) (rcx : BitVec 64)
    (rest : Stream' (BitVec 16)) :
    flagExit (drqPolled (flagEntry n s) ((status s).get k) (rbxAt n.toNat (flagEntry n s) k) rcx
      rest) = answered s (answerAt n.toNat (status s) k) rest := by
  rw [rbxAt, inp_flagEntry, answerAt, answer]
  by_cases hk : n.toNat ≤ k
  · rw [if_neg (not_lt.mpr hk)]
    by_cases he : HasError ((status s).get k)
    · rw [if_pos ⟨hk, he⟩, if_pos he]
      simp [flagExit, drqPolled, flagEntry, answered, regPort]
    · rw [if_neg (fun h => he h.2), if_neg he]
      simp [flagExit, drqPolled, flagEntry, answered, regPort]
  · rw [if_pos (not_le.mp hk), if_neg (fun h => hk h.1)]
    simp [flagExit, drqPolled, flagEntry, answered, regPort]

lemma waitsFor_waitFlag {n : BitVec 64} (hn : n ≠ 0) :
    WaitsFor flag n.toNat (waitFlag flag n) := by
  constructor
  · intro k fuel s h hf ra
    have hstatus : status (s.push ra) = status s := rfl
    have hfirst : FirstEnd flag (flagEntry n (s.push ra)).rcx.toNat
        ((flagEntry n (s.push ra)).inp (flagEntry n (s.push ra)).dx) k := by
      rw [inp_flagEntry]
      exact h
    obtain ⟨rcx, hnext⟩ := flagNext_of_firstEnd hfirst hf
    have hwait : waitFlag flag n fuel (s.push ra) = some (answered (s.push ra)
        (answerAt n.toNat (status s) k) ((status s).drop (k + 1))) := by
      rw [waitFlag_eq hn, hnext, Option.map_some, inp_flagEntry]
      exact congrArg some (flagExit_drqPolled n (s.push ra) k rcx _)
    rw [Machine.call_of_eq hwait rfl]
    simp [answered]
  · intro fuel s h ra
    have hnone : flagNext flag fuel (flagEntry n (s.push ra)) = none := by
      refine flagNext_none fun k hk => ?_
      rw [inp_flagEntry]
      exact h k hk
    exact callOn_of_none (by rw [waitFlag_eq hn, hnone, Option.map_none])

/-- The state at the start of the loop that does not count. -/
def busyEntry (s : Machine) : Machine :=
  (((s.push s.rdx).push s.rbx).setBl 1).setDx (s.dx + ideStatusCommandReg)

/-- What that wait does after its loop. -/
def busyExit (s : Machine) : Machine := ((s.setAl s.bl).popRbx).popRdx

lemma waitIdeDeviceNotBusy_eq (fuel : ℕ) (s : Machine) :
    waitIdeDeviceNotBusy fuel s = (waitNotBusyLoop fuel (busyEntry s)).map busyExit := by
  rw [Option.map_eq_bind]
  rfl

lemma inp_busyEntry (s : Machine) : (busyEntry s).inp (busyEntry s).dx = status s := by
  simp [busyEntry, status, regPort]

lemma busyExit_polled (s : Machine) (v : BitVec 16) (rest : Stream' (BitVec 16)) :
    busyExit (polled (busyEntry s) v rest) = answered s (answer v) rest := by
  rw [polled, answer]
  by_cases he : HasError v
  · rw [if_pos he, if_pos he]
    simp [busyExit, busyEntry, answered, regPort]
  · rw [if_neg he, if_neg he]
    simp [busyExit, busyEntry, answered, regPort]

lemma waitsFor_notBusy (flag : BitVec 8) : WaitsFor flag 0 waitIdeDeviceNotBusy := by
  constructor
  · intro k fuel s h hf ra
    have hfirst : FirstEnd flag 0 ((busyEntry (s.push ra)).inp (busyEntry (s.push ra)).dx) k := by
      rw [inp_busyEntry]
      exact h
    have hwait : waitIdeDeviceNotBusy fuel (s.push ra) = some (answered (s.push ra)
        (answerAt 0 (status s) k) ((status s).drop (k + 1))) := by
      rw [waitIdeDeviceNotBusy_eq, waitNotBusyLoop_of_firstEnd hfirst hf, Option.map_some,
        inp_busyEntry, busyExit_polled, answerAt, if_neg k.not_lt_zero]
      rfl
    rw [Machine.call_of_eq hwait rfl]
    simp [answered]
  · intro fuel s h ra
    have hnone : waitNotBusyLoop fuel (busyEntry (s.push ra)) = none := by
      refine @waitNotBusyLoop_none flag _ _ fun k hk => ?_
      rw [inp_busyEntry]
      exact h k hk
    exact callOn_of_none (by rw [waitIdeDeviceNotBusy_eq, hnone, Option.map_none])

lemma waitsFor_ready : WaitsFor ideDeviceReadyFlag readyPolls waitIdeDeviceReady :=
  @waitsFor_waitFlag ideDeviceReadyFlag 0xFFFFFF (by decide)

lemma waitsFor_drq : WaitsFor ideDeviceDrqFlag drqPolls waitIdeDeviceDrq := by
  rw [waitIdeDeviceDrq]
  exact @waitsFor_waitFlag ideDeviceDrqFlag 0xFFFF (by decide)

/-! ### Which waits end -/

/-- The wait returns, after finitely many polls, if the status register gives `st`. -/
def Terminates (wait : ℕ → Machine → Option Machine) (st : Stream' (BitVec 16)) : Prop :=
  ∃ n, ∀ fuel ≥ n, ∀ s ra, status s = st → (s.call ra (wait fuel)).isSome

/-- A machine whose devices give the values `st`. -/
def giving (st : Stream' (BitVec 16)) : Machine :=
  ⟨0, 0, 0, 0, 0, 0, 0, 0, 0, false, [], fun _ => 0, fun _ => st, []⟩

lemma status_giving (st : Stream' (BitVec 16)) : status (giving st) = st := rfl

lemma WaitsFor.terminates_iff {wait : ℕ → Machine → Option Machine}
    (hw : WaitsFor flag polls wait) :
    Terminates wait st ↔ ∃ k, EndsWait flag polls st k := by
  constructor
  · rintro ⟨n, hn⟩
    by_contra h
    have hnone : (giving st).call 0 (wait n) = none := by
      refine hw.never (fun k _ he => ?_) 0
      rw [status_giving] at he
      exact h ⟨k, he⟩
    have hsome := hn n le_rfl (giving st) 0 (status_giving st)
    rw [hnone] at hsome
    cases hsome
  · rintro ⟨k, hk⟩
    obtain ⟨j, hj⟩ := exists_firstEnd hk
    refine ⟨j + 1, fun fuel hf s ra hs => ?_⟩
    rw [hw.ends (hs ▸ hj) (by omega)]
    rfl

/-- The wait until a device is not busy returns if and only if the device ever is not.  A
counted wait returns if and only if it finds the flag while it counts, or the device is not
busy at any time after that. -/
theorem wait_terminates_iff (st : Stream' (BitVec 16)) :
    (Terminates waitIdeDeviceNotBusy st ↔ ∃ k, ¬ Busy (st.get k)) ∧
      (Terminates waitIdeDeviceReady st ↔
        ∃ k, ¬ Busy (st.get k) ∧ (k < readyPolls → HasFlag ideDeviceReadyFlag (st.get k))) ∧
      (Terminates waitIdeDeviceDrq st ↔
        ∃ k, ¬ Busy (st.get k) ∧ (k < drqPolls → HasFlag ideDeviceDrqFlag (st.get k))) := by
  rw [(waitsFor_notBusy 0).terminates_iff, waitsFor_ready.terminates_iff,
    waitsFor_drq.terminates_iff]
  refine ⟨exists_congr fun k => ?_, Iff.rfl, Iff.rfl⟩
  exact and_iff_left fun h => absurd h k.not_lt_zero

/-- The values of a device that stays busy. -/
def busyStatus : Stream' (BitVec 16) := Stream'.const 0x80

/-- No wait returns for a device that stays busy. -/
theorem wait_busy_hangs :
    ¬ Terminates waitIdeDeviceNotBusy busyStatus ∧ ¬ Terminates waitIdeDeviceReady busyStatus ∧
      ¬ Terminates waitIdeDeviceDrq busyStatus := by
  have hbusy (flag : BitVec 8) (polls : ℕ) : ¬ ∃ k, EndsWait flag polls busyStatus k := by
    rintro ⟨k, hk, -⟩
    rw [busyStatus, Stream'.get_const] at hk
    exact hk (by decide)
  rw [(waitsFor_notBusy 0).terminates_iff, waitsFor_ready.terminates_iff,
    waitsFor_drq.terminates_iff]
  exact ⟨hbusy _ _, hbusy _ _, hbusy _ _⟩

/-! ### What an answer tells -/

/-- The wait reads just the values of `st` up to poll `k` and answers `b`, whatever values
would follow. -/
def AnswersAt (wait : ℕ → Machine → Option Machine) (st : Stream' (BitVec 16)) (k : ℕ)
    (b : BitVec 8) : Prop :=
  ∃ n, ∀ fuel ≥ n, ∀ s ra, (∀ i ≤ k, (status s).get i = st.get i) →
    s.call ra (wait fuel) = some (answered s b ((status s).drop (k + 1)))

/-- If the wait answers 1, then the status that it read last is that of a device that is not
busy and has the flag. -/
def Trustworthy (flag : BitVec 8) (wait : ℕ → Machine → Option Machine)
    (st : Stream' (BitVec 16)) : Prop :=
  ∀ k, AnswersAt wait st k 1 → ¬ Busy (st.get k) ∧ HasFlag flag (st.get k)

/-- The values of `st` up to poll `k`, and `x` from then on. -/
def upTo (st : Stream' (BitVec 16)) (k : ℕ) (x : BitVec 16) : Stream' (BitVec 16) :=
  fun i => if i ≤ k then st.get i else x

lemma get_upTo_of_le {i : ℕ} (h : i ≤ k) (x : BitVec 16) : (upTo st k x).get i = st.get i :=
  if_pos h

lemma get_upTo_of_lt {i : ℕ} (h : k < i) (x : BitVec 16) : (upTo st k x).get i = x :=
  if_neg (not_le.mpr h)

lemma endsWait_upTo {i : ℕ} (h : i ≤ k) (x : BitVec 16) :
    EndsWait flag polls (upTo st k x) i ↔ EndsWait flag polls st i := by
  rw [EndsWait, EndsWait, get_upTo_of_le h]

lemma FirstEnd.upTo {j : ℕ} (h : FirstEnd flag polls st j) (hj : j ≤ k) (x : BitVec 16) :
    FirstEnd flag polls (upTo st k x) j :=
  ⟨(endsWait_upTo hj x).mpr h.ends, fun i hi he =>
    h.first i hi ((endsWait_upTo (le_trans (le_of_lt hi) hj) x).mp he)⟩

lemma status_answered (s : Machine) (b : BitVec 8) (rest : Stream' (BitVec 16)) :
    status (answered s b rest) = rest :=
  Function.update_self _ _ _

lemma al_answered (s : Machine) (b : BitVec 8) (rest : Stream' (BitVec 16)) :
    (answered s b rest).al = b := by
  simp [answered]

section Answers

variable {wait : ℕ → Machine → Option Machine} {b : BitVec 8}

/-- A wait that answers has found a poll that ends it. -/
lemma WaitsFor.exists_le (hw : WaitsFor flag polls wait) (h : AnswersAt wait st k b) :
    ∃ j ≤ k, EndsWait flag polls st j := by
  obtain ⟨n, hn⟩ := h
  by_contra hno
  -- if the device stayed busy from then on, the wait would not return
  have hnone : (giving (upTo st k 0x80)).call 0 (wait n) = none := by
    refine hw.never (fun i _ he => ?_) 0
    rcases le_or_gt i k with hi | hi
    · exact hno ⟨i, hi, (endsWait_upTo hi 0x80).mp he⟩
    · have hbusy : ¬ Busy ((upTo st k 0x80).get i) := he.1
      rw [get_upTo_of_lt hi] at hbusy
      exact hbusy (by decide)
  rw [hn n le_rfl _ 0 fun i hi => get_upTo_of_le hi 0x80] at hnone
  cases hnone

/-- The poll of which a wait answers is the first that ends it. -/
lemma WaitsFor.answersAt_iff (hw : WaitsFor flag polls wait) :
    AnswersAt wait st k b ↔ FirstEnd flag polls st k ∧ b = answerAt polls st k := by
  constructor
  · intro h
    obtain ⟨i, hik, hi⟩ := hw.exists_le h
    obtain ⟨j, hj⟩ := exists_firstEnd hi
    have hjk : j ≤ k := le_trans (not_lt.mp fun hlt => hj.first i hlt hi) hik
    obtain ⟨n, hn⟩ := h
    -- the values after the two polls would be the same, whatever follows
    have hboth (x : BitVec 16) :
        answered (giving (upTo st k x)) b ((upTo st k x).drop (k + 1)) =
          answered (giving (upTo st k x)) (answerAt polls (upTo st k x) j)
            ((upTo st k x).drop (j + 1)) := by
      have h1 := hn (max n (j + 1)) (le_max_left _ _) (giving (upTo st k x)) 0
        fun i hi => get_upTo_of_le hi x
      have h2 := @WaitsFor.ends _ _ _ hw j (max n (j + 1)) (giving (upTo st k x))
        (hj.upTo hjk x) (le_max_right n (j + 1)) 0
      exact Option.some.inj (h1.symm.trans h2)
    have hkj : k = j := by
      by_contra hne
      have hlt : j + 1 ≤ k := by omega
      have hrest := congrArg status (hboth (st.get (j + 1) + 1))
      rw [status_answered, status_answered] at hrest
      have hget := congrArg (fun r => Stream'.get r 0) hrest
      simp only [Stream'.get_drop, Nat.add_zero] at hget
      rw [get_upTo_of_lt k.lt_succ_self, get_upTo_of_le hlt] at hget
      bv_omega
    subst hkj
    refine ⟨hj, ?_⟩
    have hal := congrArg Machine.al (hboth 0)
    rw [al_answered, al_answered, answerAt, get_upTo_of_le le_rfl] at hal
    exact hal
  · rintro ⟨h, rfl⟩
    refine ⟨k + 1, fun fuel hf s ra hs => ?_⟩
    have hends {i : ℕ} (hi : i ≤ k) :
        EndsWait flag polls (status s) i ↔ EndsWait flag polls st i := by
      rw [EndsWait, EndsWait, hs i hi]
    have hfirst : FirstEnd flag polls (status s) k :=
      ⟨(hends le_rfl).mpr h.ends, fun i hi he => h.first i hi ((hends (le_of_lt hi)).mp he)⟩
    rw [hw.ends hfirst (by omega), answerAt, answerAt, hs k le_rfl]

lemma WaitsFor.trustworthy_iff (hw : WaitsFor flag polls wait) :
    Trustworthy flag wait st ↔
      ∀ k ≥ polls, FirstEnd flag polls st k → ¬ HasError (st.get k) → HasFlag flag (st.get k) := by
  constructor
  · intro h k hk hfirst he
    refine (h k (hw.answersAt_iff.mpr ⟨hfirst, ?_⟩)).2
    rw [answerAt, if_neg (not_lt.mpr hk), answer, if_neg he]
  · intro h k hk
    obtain ⟨hfirst, hb⟩ := hw.answersAt_iff.mp hk
    refine ⟨hfirst.ends.1, ?_⟩
    rcases lt_or_ge k polls with hlt | hge
    · exact hfirst.ends.2 hlt
    · refine h k hge hfirst fun he => ?_
      rw [answerAt, if_neg (not_lt.mpr hge), answer, if_pos he] at hb
      exact absurd hb (by decide)

end Answers

/-- The answer of a counted wait can be relied on if and only if the counted polls find the
flag, or the first status after them at which the device is not busy has the flag or an
error. -/
theorem wait_trustworthy_iff (st : Stream' (BitVec 16)) :
    (Trustworthy ideDeviceDrqFlag waitIdeDeviceDrq st ↔
        ∀ k ≥ drqPolls, FirstEnd ideDeviceDrqFlag drqPolls st k → ¬ HasError (st.get k) →
          HasFlag ideDeviceDrqFlag (st.get k)) ∧
      (Trustworthy ideDeviceReadyFlag waitIdeDeviceReady st ↔
        ∀ k ≥ readyPolls, FirstEnd ideDeviceReadyFlag readyPolls st k → ¬ HasError (st.get k) →
          HasFlag ideDeviceReadyFlag (st.get k)) :=
  ⟨waitsFor_drq.trustworthy_iff, waitsFor_ready.trustworthy_iff⟩

/-- A device that stays idle without the flag ends the wait right after the counted
polls. -/
lemma firstEnd_const {v : BitVec 16} (hb : ¬ Busy v) (hf : ¬ HasFlag flag v) (polls : ℕ) :
    FirstEnd flag polls (Stream'.const v) polls :=
  ⟨⟨hb, fun h => absurd h (lt_irrefl polls)⟩, fun _ hi he => hf (he.2 hi)⟩

/-- Both waits answer 1 for a device that is never busy and never gets to the flag. -/
theorem wait_untrustworthy :
    ¬ Trustworthy ideDeviceDrqFlag waitIdeDeviceDrq (Stream'.const 0x50) ∧
      ¬ Trustworthy ideDeviceReadyFlag waitIdeDeviceReady (Stream'.const 0x10) := by
  rw [waitsFor_drq.trustworthy_iff, waitsFor_ready.trustworthy_iff]
  have hdrq : ¬ HasFlag ideDeviceDrqFlag 0x50 := by decide
  have hready : ¬ HasFlag ideDeviceReadyFlag 0x10 := by decide
  exact ⟨fun h => hdrq (h _ le_rfl (firstEnd_const (by decide) hdrq _) (by decide)),
    fun h => hready (h _ le_rfl (firstEnd_const (by decide) hready _) (by decide))⟩

end EvtDrivenOs.Ide
