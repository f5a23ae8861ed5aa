/-
The glue of the security guardian in `sec_service.c`: the protected region, its
verification and its hash.
-/
import EvtDrivenOs.Basic
import EvtDrivenOs.Lib.Lanes
import Mathlib.Data.BitVec
import Mathlib.Tactic.IntervalCases

namespace EvtDrivenOs.SecService

open EvtDrivenOs.Lib.Lanes

/-! ### The hash -/

/-- The hash block of `n` bytes. -/
abbrev HashBlck (n : ℕ) := Fin n → UInt8

/-- A rotation to the left by five bits. -/
def rotl5 (x : UInt8) : UInt8 := x <<< 5 ||| x >>> 3

/-- A rotation to the left by three bits. -/
def rotl3 (x : UInt8) : UInt8 := x <<< 3 ||| x >>> 5

variable {n : ℕ} [NeZero n]

/-- `i % hash_size` for a `size_t` sum `i` of 32 bits. -/
def lane (n : ℕ) [NeZero n] (i : ℕ) : Fin n := Fin.ofNat n (i % 2 ^ 32)

/-- The block that a hash starts with. -/
def hashInit (n : ℕ) : HashBlck n := fun i => UInt8.ofNat (i * 31 + 17)

/-- The body of the main loop for the byte `b` at the index `i` of the region. -/
def hashMix (hash : HashBlck n) (b : UInt8 × ℕ) : HashBlck n :=
  let hashI := lane n b.2
  let hash := Function.update hash hashI (hash hashI ^^^ (b.1 + UInt8.ofNat b.2))
  let hash := Function.update hash hashI (rotl5 (hash hashI))
  let nxt := lane n (hashI + 1)
  Function.update hash nxt (hash nxt ^^^ b.1 * 3)

/-- The body of the final pass. -/
def hashFinal (hash : HashBlck n) (i : Fin n) : HashBlck n :=
  let hash := Function.update hash i (hash i ^^^ hash (lane n (i + 7)))
  Function.update hash i (rotl3 (hash i))

/-- The function's result and the hash that it writes. -/
def secHash (n : ℕ) [NeZero n] (region : List UInt8) : Bool × HashBlck n :=
  let hash := hashInit n
  let hash := region.zipIdx.foldl hashMix hash
  let hash := (List.finRange n).foldl hashFinal hash
  (true, hash)

/-! #### Every step is a bijection -/

lemma rotl3_rotl5 (x : UInt8) : rotl3 (rotl5 x) = x := by
  apply UInt8.toBitVec_inj.mp
  apply BitVec.eq_of_getLsbD_eq
  intro i hi
  simp only [rotl3, rotl5, UInt8.toBitVec_or, UInt8.toBitVec_shiftLeft, UInt8.toBitVec_shiftRight]
  interval_cases i <;> simp

lemma rotl5_rotl3 (x : UInt8) : rotl5 (rotl3 x) = x := by
  apply UInt8.toBitVec_inj.mp
  apply BitVec.eq_of_getLsbD_eq
  intro i hi
  simp only [rotl3, rotl5, UInt8.toBitVec_or, UInt8.toBitVec_shiftLeft, UInt8.toBitVec_shiftRight]
  interval_cases i <;> simp

/-- The lane `c` after `h` is another one, also where the sum wraps around. -/
lemma lane_add_ne {c : ℕ} (hc : ¬ n ∣ c) (hc' : c < 2 ^ 32) (h : Fin n) : lane n (h + c) ≠ h := by
  intro heq
  have hval : (h + c) % 2 ^ 32 % n = h := congrArg Fin.val heq
  by_cases hlt : (h : ℕ) + c < 2 ^ 32
  · rw [Nat.mod_eq_of_lt hlt] at hval
    have hmod : (h + c) % n = (h + 0) % n := by
      rw [hval, Nat.add_zero, Nat.mod_eq_of_lt h.isLt]
    exact hc (Nat.modEq_zero_iff_dvd.mp (Nat.ModEq.add_left_cancel' _ hmod))
  · have hle := Nat.mod_le ((h + c) % 2 ^ 32) n
    omega

lemma hashMix_eq (hash : HashBlck n) (b : UInt8 × ℕ) :
    hashMix hash b = turn (lane n (lane n b.2 + 1)) (· ^^^ b.1 * 3)
      (turn (lane n b.2) (fun x => rotl5 (x ^^^ (b.1 + UInt8.ofNat b.2))) hash) := by
  simp only [hashMix, turn, Function.update_idem, Function.update_self]

lemma hashFinal_eq (hash : HashBlck n) (i : Fin n) :
    hashFinal hash i = mix i (lane n (i + 7)) (fun y x => rotl3 (x ^^^ y)) hash := by
  simp only [hashFinal, mix, turn, Function.update_idem, Function.update_self]

lemma injective_hashMix (b : UInt8 × ℕ) :
    Function.Injective fun hash : HashBlck n => hashMix hash b := by
  simp only [hashMix_eq]
  refine (injective_turn ?_).comp (injective_turn ?_)
  · intro x y hxy
    exact (UInt8.xor_left_inj _).mp hxy
  · intro x y hxy
    have hxor := congrArg rotl3 hxy
    simp only [rotl3_rotl5] at hxor
    exact (UInt8.xor_left_inj _).mp hxor

lemma injective_hashFinal {i : Fin n} (hn : ¬ n ∣ 7) :
    Function.Injective fun hash : HashBlck n => hashFinal hash i := by
  simp only [hashFinal_eq]
  refine injective_mix (lane_add_ne hn (by decide) i) ?_
  intro z x y hxy
  have hxor := congrArg rotl5 hxy
  simp only [rotl5_rotl3] at hxor
  exact (UInt8.xor_left_inj _).mp hxor

/-- The byte can be read off the lane that it enters first. -/
lemma hashMix_byte_ne (hn : 2 ≤ n) (hash : HashBlck n) {b c : UInt8} (hbc : b ≠ c) (k : ℕ) :
    hashMix hash (b, k) ≠ hashMix hash (c, k) := by
  intro h
  have hnxt : lane n k ≠ lane n (lane n k + 1) := by
    refine (lane_add_ne ?_ (by decide) _).symm
    intro hdvd
    exact absurd (Nat.le_of_dvd Nat.one_pos hdvd) (by omega)
  -- the second exchange is in another lane
  have hlane := congrFun h (lane n k)
  rw [hashMix_eq, hashMix_eq, turn_of_ne hnxt, turn_of_ne hnxt, turn_self, turn_self] at hlane
  have hxor := congrArg rotl3 hlane
  simp only [rotl3_rotl5] at hxor
  rw [UInt8.xor_right_inj, UInt8.add_left_inj] at hxor
  exact hbc hxor

lemma not_dvd_seven {m : ℕ} (hm : 2 ≤ m) (hm7 : m ≠ 7) : ¬ m ∣ 7 := by
  intro hdvd
  have hle := Nat.le_of_dvd (by omega) hdvd
  interval_cases m <;> omega

/-- Two regions of one length that differ in one byte only have different hashes, for every
hash size from 2 on except 7. -/
theorem secHash_ne {region region' : List UInt8} {k : ℕ} (hn : 2 ≤ n) (hn7 : n ≠ 7)
    (hlen : region.length = region'.length) (hk : region[k]? ≠ region'[k]?)
    (hother : ∀ j, j ≠ k → region[j]? = region'[j]?) :
    (secHash n region).2 ≠ (secHash n region').2 := by
  obtain ⟨p, q, b, c, hbc, rfl, rfl⟩ := exists_single_difference hlen hk hother
  have hmain : ((p ++ b :: q).zipIdx.foldl hashMix (hashInit n)) ≠
      (p ++ c :: q).zipIdx.foldl hashMix (hashInit n) := by
    rw [List.zipIdx_append, List.zipIdx_append, List.zipIdx_cons, List.zipIdx_cons]
    refine foldl_ne_of_single _ (fun d _ => injective_hashMix d) ?_
    exact fun hash => hashMix_byte_ne hn hash hbc _
  -- the final pass keeps the two states apart
  exact fun h => hmain (injective_foldl (fun i _ => injective_hashFinal (not_dvd_seven hn hn7)) h)

theorem secHash_ne_twenty : (secHash 20 [1, 2, 3]).2 ≠ (secHash 20 [1, 7, 3]).2 :=
  secHash_ne (k := 1) (by decide) (by decide) rfl (by decide) fun j hj => by
    rcases j with _ | _ | j <;> simp at hj ⊢

/-! ### The protected region -/

/-- `sizeof(protected_code)` -/
def protectedSize : ℕ := 1024

/-- The difference of the first bytes that differ, as `memcmp` of the C library has it. -/
def memcmp (mem : ℕ → UInt8) (a b : ℕ) : ℕ → ℤ
  | 0 => 0
  | n + 1 => if mem a = mem b then memcmp mem (a + 1) (b + 1) n
    else (mem a).toNat - (mem b).toNat

/-- The loop of `SEC_SVC_BIND`, with `protectedCode` for the address of the region. -/
def bindRegion (protectedCode : ℕ) (mem : ℕ → UInt8) : ℕ → UInt8 :=
  (List.range protectedSize).foldl
    (fun mem i => Function.update mem (protectedCode + i)
      (UInt8.ofNat ((i + 1) % 2 ^ 32 &&& 0xFF))) mem

/-- The function's result and the bytes that it writes to `region_proof`, a buffer apart from
the region. -/
def secVerify (protectedCode : ℕ) (mem : ℕ → UInt8) (protectedRegion proofSize : ℕ) :
    Except Fault (Bool × List UInt8) :=
  if protectedRegion ≠ protectedCode then .ok (false, [])
  else if memcmp mem protectedCode protectedRegion protectedSize ≠ 0 then .ok (false, [])
  else if protectedSize < proofSize then .error .outOfBounds
  else .ok (true, (List.range proofSize).map fun i => mem (protectedCode + i))

/-- The verification of the memory `mem'`, where `mem` is what was bound, returns false or
gives another proof. -/
def Notices (protectedCode proofSize : ℕ) (mem mem' : ℕ → UInt8) : Prop :=
  ∃ r, secVerify protectedCode mem' protectedCode proofSize = .ok r ∧
    (r.1 = false ∨ ∃ r₀, secVerify protectedCode mem protectedCode proofSize = .ok r₀ ∧ r.2 ≠ r₀.2)

variable {code size : ℕ} {mem mem' : ℕ → UInt8}

/-- A region is equal to itself. -/
lemma memcmp_self (mem : ℕ → UInt8) (a k : ℕ) : memcmp mem a a k = 0 := by
  induction k generalizing a with
  | zero => rfl
  | succ k ih => rw [memcmp, if_pos rfl, ih]

lemma secVerify_self (hsize : size ≤ protectedSize) (mem : ℕ → UInt8) :
    secVerify code mem code size = .ok (true, (List.range size).map fun i => mem (code + i)) := by
  rw [secVerify, if_neg (not_not.mpr rfl),
    if_neg (not_not.mpr (memcmp_self mem code protectedSize)), if_neg (Nat.not_lt.mpr hsize)]

lemma notices_iff (hsize : size ≤ protectedSize) :
    Notices code size mem mem' ↔ ∃ i < size, mem' (code + i) ≠ mem (code + i) := by
  simp only [Notices, secVerify_self hsize, Except.ok.injEq, exists_eq_left', Bool.true_eq_false,
    false_or, ne_eq, List.map_inj_left, List.mem_range]
  constructor
  · intro h
    by_contra hnone
    exact h fun i hi => by_contra fun hne => hnone ⟨i, hi, hne⟩
  · rintro ⟨i, hi, hne⟩ h
    exact hne (h i hi)

/-- After `k` rounds of the loop. -/
lemma bind_rounds (mem : ℕ → UInt8) {i k : ℕ} (hi : i < k) :
    (List.range k).foldl (fun mem i =>
      Function.update mem (code + i) (UInt8.ofNat ((i + 1) % 2 ^ 32 &&& 0xFF))) mem (code + i) =
      UInt8.ofNat ((i + 1) % 2 ^ 32 &&& 0xFF) := by
  induction k with
  | zero => exact absurd hi (Nat.not_lt_zero i)
  | succ k ih =>
    rw [List.range_succ, List.foldl_append, List.foldl_cons, List.foldl_nil]
    rcases Nat.lt_succ_iff_lt_or_eq.mp hi with hi | rfl
    · rw [Function.update_of_ne (by omega), ih hi]
    · rw [Function.update_self]

lemma bindRegion_apply (mem : ℕ → UInt8) {i : ℕ} (hi : i < protectedSize) :
    bindRegion code mem (code + i) = UInt8.ofNat (i + 1) := by
  rw [bindRegion, bind_rounds mem hi, Nat.mod_eq_of_lt (by rw [protectedSize] at hi; omega)]
  apply UInt8.toNat_inj.mp
  rw [UInt8.toNat_ofNat', UInt8.toNat_ofNat', Nat.and_two_pow_sub_one_eq_mod _ 8]
  exact Nat.mod_mod _ _

/-- After the region was bound and then overwritten in any way: the verification notices
that if and only if one of the bytes that it copies to the proof has changed. -/
theorem secVerify_notices_iff (mem₀ : ℕ → UInt8) (hsize : size ≤ protectedSize) :
    Notices code size (bindRegion code mem₀) mem' ↔
      ∃ i < size, mem' (code + i) ≠ UInt8.ofNat (i + 1) := by
  rw [notices_iff hsize]
  constructor
  · rintro ⟨i, hi, hne⟩
    exact ⟨i, hi, bindRegion_apply mem₀ (hi.trans_le hsize) ▸ hne⟩
  · rintro ⟨i, hi, hne⟩
    exact ⟨i, hi, (bindRegion_apply mem₀ (hi.trans_le hsize)).symm ▸ hne⟩

/-- The change of the first byte is noticed. -/
theorem secVerify_notices_first : Notices 0 16 (bindRegion 0 fun _ => 0)
    (Function.update (bindRegion 0 fun _ => 0) 0 0xFF) :=
  (secVerify_notices_iff _ (by decide)).mpr ⟨0, by decide, by
    rw [Nat.zero_add, Function.update_self]
    decide⟩

/-- The last byte is changed and the proof has 16 bytes. -/
theorem secVerify_misses :
    (∃ i < protectedSize, Function.update (bindRegion 0 fun _ => 0) 1023 0xFF (0 + i) ≠
        bindRegion 0 (fun _ => 0) (0 + i)) ∧
      ¬ Notices 0 16 (bindRegion 0 fun _ => 0)
        (Function.update (bindRegion 0 fun _ => 0) 1023 0xFF) := by
  constructor
  · refine ⟨1023, by decide, ?_⟩
    rw [bindRegion_apply _ (by decide), Nat.zero_add, Function.update_self]
    decide
  · rw [notices_iff (by decide)]
    rintro ⟨i, hi, hne⟩
    rw [Function.update_of_ne (by omega)] at hne
    exact hne rfl

end EvtDrivenOs.SecService
