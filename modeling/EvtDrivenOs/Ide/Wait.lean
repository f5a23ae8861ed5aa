/-
What the two waits of a transfer make of the values of the status register.

Both read the status until it decides the matter, so their result and the values they
leave unread are determined by the values that the register gives.
-/
import EvtDrivenOs.Ide.Pata

namespace EvtDrivenOs.Ide

open EvtDrivenOs.Lib.X64

/-! ### Status values -/

/-- The status says that the device is at work. -/
abbrev Busy (v : BitVec 16) : Prop := v.setWidth 8 &&& ideDeviceBusyFlag ≠ 0

/-- The status says that the device has or wants data. -/
abbrev RequestsData (v : BitVec 16) : Prop := v.setWidth 8 &&& ideDeviceDrqFlag ≠ 0

/-- The status says that the device has failed. -/
abbrev HasError (v : BitVec 16) : Prop := v.setWidth 8 &&& ideDeviceErrorFlag ≠ 0

/-- `Settles st v rest`: the first value of `st` that is not busy is `v`, and `rest`
follows it. -/
inductive Settles : Stream' (BitVec 16) → BitVec 16 → Stream' (BitVec 16) → Prop
  | now {st : Stream' (BitVec 16)} (h : ¬ Busy st.head) : Settles st st.head st.tail
  | later {st rest : Stream' (BitVec 16)} {v : BitVec 16} (h : Busy st.head)
      (hst : Settles st.tail v rest) : Settles st v rest

/-- `DrqAwaited n st rest`: one of the next `n` values is not busy and requests data; or
none does, and the first value after them that is not busy has no error.  The values
`rest` follow. -/
inductive DrqAwaited : ℕ → Stream' (BitVec 16) → Stream' (BitVec 16) → Prop
  | now {n : ℕ} {st : Stream' (BitVec 16)} (h : ¬ Busy st.head ∧ RequestsData st.head) :
      DrqAwaited (n + 1) st st.tail
  | later {n : ℕ} {st rest : Stream' (BitVec 16)} (h : ¬ (¬ Busy st.head ∧ RequestsData st.head))
      (hst : DrqAwaited n st.tail rest) : DrqAwaited (n + 1) st rest
  | timeout {st rest : Stream' (BitVec 16)} {v : BitVec 16} (hst : Settles st v rest)
      (h : ¬ HasError v) : DrqAwaited 0 st rest

/-- The values that the status register of the selected controller gives. -/
abbrev status (s : Machine) : Stream' (BitVec 16) := s.inp (regPort s.rdx ideStatusCommandReg)

/-! ### Waiting until a device is not busy -/

/-- The state after a wait that leaves `rest` unread and answers `b`. -/
def answered (s : Machine) (b : BitVec 8) (rest : Stream' (BitVec 16)) : Machine :=
  { s with
    rax := setLow8 s.rax b
    inp := Function.update s.inp (regPort s.rdx ideStatusCommandReg) rest }

/-- The state at the end of a loop that read the value `v` last. -/
def polled (s : Machine) (v : BitVec 16) (rest : Stream' (BitVec 16)) : Machine :=
  { s with
    rax := setLow8 s.rax (v.setWidth 8)
    rbx := if HasError v then setLow8 s.rbx 0 else s.rbx
    inp := Function.update s.inp s.dx rest }

lemma polled_inAl (s : Machine) (v : BitVec 16) (rest : Stream' (BitVec 16)) :
    polled s.inAl v rest = polled s v rest := by
  simp [polled]

lemma waitNotBusyLoop_succ (fuel : ℕ) (s : Machine) :
    waitNotBusyLoop (fuel + 1) s =
      if Busy (s.inp s.dx).head then waitNotBusyLoop fuel s.inAl
      else some (polled s (s.inp s.dx).head (s.inp s.dx).tail) := by
  have hal : s.inAl.al = (s.inp s.dx).head.setWidth 8 := by simp
  rw [waitNotBusyLoop]
  simp only [hal]
  by_cases hb : Busy (s.inp s.dx).head
  · rw [if_pos hb, if_pos hb]
  · rw [if_neg hb, if_neg hb]
    by_cases he : HasError (s.inp s.dx).head
    · rw [if_neg he]
      simp only [polled, if_pos he, Machine.inAl, Machine.eat, Machine.setAl, Machine.setBl]
    · rw [if_pos (not_not.mp he)]
      simp only [polled, if_neg he, Machine.inAl, Machine.eat, Machine.setAl]

lemma waitNotBusyLoop_some {fuel : ℕ} {s t : Machine} (h : waitNotBusyLoop fuel s = some t) :
    ∃ v rest, Settles (s.inp s.dx) v rest ∧ t = polled s v rest := by
  induction fuel generalizing s with
  | zero => cases h
  | succ fuel ih =>
    rw [waitNotBusyLoop_succ] at h
    split at h
    case isTrue hb =>
      obtain ⟨v, rest, hst, rfl⟩ := ih h
      refine ⟨v, rest, .later hb ?_, polled_inAl s v rest⟩
      simpa using hst
    case isFalse hb =>
      cases h
      exact ⟨_, _, .now hb, rfl⟩

lemma waitNotBusyLoop_of_settles {st rest : Stream' (BitVec 16)} {v : BitVec 16}
    (hst : Settles st v rest) :
    ∃ n, ∀ fuel ≥ n, ∀ s : Machine, s.inp s.dx = st →
      waitNotBusyLoop fuel s = some (polled s v rest) := by
  induction hst with
  | now hb =>
    refine ⟨1, fun fuel hf s hs => ?_⟩
    obtain ⟨fuel, rfl⟩ : ∃ k, fuel = k + 1 := ⟨fuel - 1, by omega⟩
    rw [waitNotBusyLoop_succ, hs, if_neg hb]
  | later hb _ ih =>
    obtain ⟨n, ih⟩ := ih
    refine ⟨n + 1, fun fuel hf s hs => ?_⟩
    obtain ⟨fuel, rfl⟩ : ∃ k, fuel = k + 1 := ⟨fuel - 1, by omega⟩
    rw [waitNotBusyLoop_succ, hs, if_pos hb, ih fuel (by omega) s.inAl (by simp [← hs]),
      polled_inAl]

/-- What a wait answers once it read `v` last. -/
def answer (v : BitVec 16) : BitVec 8 := if HasError v then 0 else 1

lemma call_waitIdeDeviceNotBusy_some {fuel : ℕ} {s t : Machine} {ra : BitVec 64}
    (h : s.call ra (waitIdeDeviceNotBusy fuel) = some t) :
    ∃ v rest, Settles (status s) v rest ∧
      t = answered s (answer v) rest := by
  obtain ⟨u, hu, rfl⟩ := Machine.of_call_eq_some h
  simp only [waitIdeDeviceNotBusy, Option.bind_eq_bind, Option.bind_eq_some_iff] at hu
  obtain ⟨w, hw, hu⟩ := hu
  obtain ⟨v, rest, hst, rfl⟩ := waitNotBusyLoop_some hw
  cases hu
  refine ⟨v, rest, by simpa [status, regPort] using hst, ?_⟩
  simp [polled, answered, answer, regPort]
  split <;> simp

lemma call_waitIdeDeviceNotBusy_of_settles {st rest : Stream' (BitVec 16)} {v : BitVec 16}
    (hst : Settles st v rest) :
    ∃ n, ∀ fuel ≥ n, ∀ (s : Machine) (ra : BitVec 64),
      status s = st →
      s.call ra (waitIdeDeviceNotBusy fuel) = some (answered s (answer v) rest) := by
  obtain ⟨n, hn⟩ := waitNotBusyLoop_of_settles hst
  refine ⟨n, fun fuel hf s ra hs => ?_⟩
  rw [Machine.call_of_eq (t := answered (s.push ra) (answer v) rest) _ rfl]
  · simp [answered]
  rw [waitIdeDeviceNotBusy, hn fuel hf _ (by simpa [status, regPort] using hs)]
  simp [polled, answered, answer, regPort]
  split <;> simp

/-! ### Counted waits -/

/-- The status has one of these flags. -/
abbrev HasFlag (flag : BitVec 8) (v : BitVec 16) : Prop := v.setWidth 8 &&& flag ≠ 0

/-- Where a counted loop goes on after a poll. -/
def flagNext (flag : BitVec 8) (fuel : ℕ) (s : Machine) : Option Machine :=
  if s.rcx ≠ 0 then waitFlagLoop flag fuel s else waitNotBusyLoop fuel s

/-- The state at the end of the loop that awaits data. -/
def drqPolled (s : Machine) (v : BitVec 16) (rbx rcx : BitVec 64)
    (rest : Stream' (BitVec 16)) : Machine :=
  { s with
    rax := setLow8 s.rax (v.setWidth 8)
    rbx := rbx
    rcx := rcx
    inp := Function.update s.inp s.dx rest }

lemma drqPolled_inAl (s : Machine) (v : BitVec 16) (rbx rcx : BitVec 64)
    (rest : Stream' (BitVec 16)) :
    drqPolled s.inAl.decRcx v rbx rcx rest = drqPolled s v rbx rcx rest := by
  simp [drqPolled]

lemma flagNext_succ {flag : BitVec 8} {fuel : ℕ} {s : Machine} (hs : s.rcx ≠ 0) :
    flagNext flag (fuel + 1) s =
      if ¬ Busy (s.inp s.dx).head ∧ HasFlag flag (s.inp s.dx).head then
        some (drqPolled s (s.inp s.dx).head s.rbx s.rcx (s.inp s.dx).tail)
      else flagNext flag fuel s.inAl.decRcx := by
  have hal : s.inAl.al = (s.inp s.dx).head.setWidth 8 := by simp
  rw [flagNext, if_pos hs, waitFlagLoop]
  simp only [hal, Busy, not_not]
  split
  · simp only [drqPolled, Machine.inAl, Machine.eat, Machine.setAl]
  · rfl

lemma toNat_sub_one {c : BitVec 64} (hc : c ≠ 0) : (c - 1).toNat + 1 = c.toNat := by
  have hpos : c.toNat ≠ 0 := fun h => hc (BitVec.eq_of_toNat_eq h)
  bv_omega

lemma toNat_decRcx {s : Machine} (hs : s.rcx ≠ 0) : s.decRcx.rcx.toNat + 1 = s.rcx.toNat :=
  toNat_sub_one hs

/-! ### Waiting for data -/

/-- Where the loop goes on after a poll. -/
def drqNext : ℕ → Machine → Option Machine := flagNext ideDeviceDrqFlag

lemma drqNext_of_ne {fuel : ℕ} {s : Machine} (hs : s.rcx ≠ 0) :
    drqNext fuel s = waitDeviceDrqLoop fuel s := if_pos hs

lemma drqNext_of_eq {fuel : ℕ} {s : Machine} (hs : s.rcx = 0) :
    drqNext fuel s = waitNotBusyLoop fuel s := if_neg (not_not.mpr hs)

lemma drqNext_succ {fuel : ℕ} {s : Machine} (hs : s.rcx ≠ 0) :
    drqNext (fuel + 1) s =
      if ¬ Busy (s.inp s.dx).head ∧ RequestsData (s.inp s.dx).head then
        some (drqPolled s (s.inp s.dx).head s.rbx s.rcx (s.inp s.dx).tail)
      else drqNext fuel s.inAl.decRcx := flagNext_succ hs

lemma drqNext_some {fuel : ℕ} {s t : Machine} (h : drqNext fuel s = some t) :
    ∃ v rbx rcx rest, t = drqPolled s v rbx rcx rest ∧
      (rbx = s.rbx ∧ DrqAwaited s.rcx.toNat (s.inp s.dx) rest ∨ rbx = setLow8 s.rbx 0) := by
  induction fuel generalizing s with
  | zero =>
    simp only [drqNext, flagNext] at h
    split at h <;> cases h
  | succ fuel ih =>
    by_cases hs : s.rcx = 0
    · rw [drqNext_of_eq hs] at h
      obtain ⟨v, rest, hst, rfl⟩ := waitNotBusyLoop_some h
      by_cases he : HasError v
      · exact ⟨v, _, s.rcx, rest, by simp only [polled, if_pos he, drqPolled], .inr rfl⟩
      · refine ⟨v, _, s.rcx, rest, by simp only [polled, if_neg he, drqPolled], .inl ⟨rfl, ?_⟩⟩
        rw [hs]
        exact .timeout hst he
    · rw [drqNext_succ hs] at h
      split at h
      case isTrue hr =>
        cases h
        refine ⟨_, _, _, _, rfl, .inl ⟨rfl, ?_⟩⟩
        rw [← toNat_decRcx hs]
        exact .now hr
      case isFalse hr =>
        obtain ⟨v, rbx, rcx, rest, rfl, hcase⟩ := ih h
        refine ⟨v, rbx, rcx, rest, drqPolled_inAl s v rbx rcx rest, ?_⟩
        rcases hcase with ⟨hb, hd⟩ | hb
        · refine .inl ⟨hb, ?_⟩
          rw [← toNat_decRcx hs]
          exact .later hr (by simpa using hd)
        · exact .inr hb

lemma drqNext_of_awaited {n : ℕ} {st rest : Stream' (BitVec 16)} (hst : DrqAwaited n st rest) :
    ∃ m, ∀ fuel ≥ m, ∀ s : Machine, s.rcx.toNat = n → s.inp s.dx = st →
      ∃ v rcx, drqNext fuel s = some (drqPolled s v s.rbx rcx rest) := by
  induction hst with
  | now hr =>
    refine ⟨1, fun fuel hf s hn hs => ?_⟩
    obtain ⟨fuel, rfl⟩ : ∃ k, fuel = k + 1 := ⟨fuel - 1, by omega⟩
    have hrcx : s.rcx ≠ 0 := fun h => by simp [h] at hn
    exact ⟨_, _, by rw [drqNext_succ hrcx, hs, if_pos hr]⟩
  | later hr _ ih =>
    obtain ⟨m, ih⟩ := ih
    refine ⟨m + 1, fun fuel hf s hn hs => ?_⟩
    obtain ⟨fuel, rfl⟩ : ∃ k, fuel = k + 1 := ⟨fuel - 1, by omega⟩
    have hrcx : s.rcx ≠ 0 := fun h => by simp [h] at hn
    have hdec := toNat_decRcx hrcx
    obtain ⟨v, rcx, hnext⟩ := ih fuel (by omega) s.inAl.decRcx
      (by simp only [Machine.decRcx] at hdec ⊢; simp; omega) (by simp [← hs])
    exact ⟨v, rcx, by rw [drqNext_succ hrcx, hs, if_neg hr, hnext, drqPolled_inAl]; rfl⟩
  | @timeout st rest v hst he =>
    obtain ⟨m, hm⟩ := waitNotBusyLoop_of_settles hst
    refine ⟨m, fun fuel hf s hn hs => ⟨v, s.rcx, ?_⟩⟩
    have hrcx : s.rcx = 0 := BitVec.eq_of_toNat_eq hn
    rw [drqNext_of_eq hrcx, hm fuel hf s hs]
    simp only [polled, if_neg he, drqPolled]

/-- The polls that the wait for data takes before it looks for an error. -/
def drqPolls : ℕ := 0xFFFF

lemma call_waitIdeDeviceDrq_some {fuel : ℕ} {s t : Machine} {ra : BitVec 64}
    (h : s.call ra (waitIdeDeviceDrq fuel) = some t) :
    ∃ b rest, t = answered s b rest ∧
      (b = 1 ∧ DrqAwaited drqPolls (status s) rest ∨ b = 0) := by
  obtain ⟨u, hu, rfl⟩ := Machine.of_call_eq_some h
  simp only [waitIdeDeviceDrq, waitFlag, Option.bind_eq_bind, Option.bind_eq_some_iff] at hu
  obtain ⟨w, hw, hu⟩ := hu
  obtain ⟨v, rbx, rcx, rest, rfl, hcase⟩ := @drqNext_some fuel _ w (by
    rw [drqNext_of_ne]
    · exact hw
    · simp)
  cases hu
  refine ⟨rbx.setWidth 8, rest, by simp [drqPolled, answered, regPort], ?_⟩
  rcases hcase with ⟨hb, hd⟩ | hb
  · refine .inl ⟨by simp [hb], ?_⟩
    simpa [status, regPort, drqPolls] using hd
  · exact .inr (by simp [hb])

lemma call_waitIdeDeviceDrq_of_awaited {st rest : Stream' (BitVec 16)}
    (hst : DrqAwaited drqPolls st rest) :
    ∃ n, ∀ fuel ≥ n, ∀ (s : Machine) (ra : BitVec 64),
      status s = st →
      s.call ra (waitIdeDeviceDrq fuel) = some (answered s 1 rest) := by
  obtain ⟨n, hn⟩ := drqNext_of_awaited hst
  refine ⟨n, fun fuel hf s ra hs => ?_⟩
  rw [Machine.call_of_eq (t := answered (s.push ra) 1 rest) _ rfl]
  · simp [answered]
  obtain ⟨v, rcx, hnext⟩ := hn fuel hf
    { ((((s.push ra).push s.rdx).push s.rcx).push s.rbx).setBl 1 with
      rdx := setLow16 s.rdx (s.dx + ideStatusCommandReg), rcx := 0xFFFF }
    (by simp [drqPolls]) (by simpa [status, regPort] using hs)
  rw [drqNext_of_ne (by simp)] at hnext
  simp only [waitDeviceDrqLoop, waitIdeDeviceDrq, waitFlag, Machine.push, Machine.setBl,
    Machine.setDx, Machine.dx] at hnext ⊢
  rw [hnext]
  simp [drqPolled, answered, regPort]

end EvtDrivenOs.Ide
