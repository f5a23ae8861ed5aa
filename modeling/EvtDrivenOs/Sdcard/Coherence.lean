/-
What a write to the SD card sends.

`_sdcdma_wrt` drops the lines of its source from both cache levels before it copies it to
the I/O buffer.  Data that the CPU stored there and that are still dirty in the second
level are thrown away: the card gets what the memory held before, and so does the CPU
from then on.
-/
import EvtDrivenOs.Sdcard.Card
import Mathlib.Data.List.Nodup

namespace EvtDrivenOs.Sdcard

open EvtDrivenOs.Lib EvtDrivenOs.Xcache

/-! ### The copy -/

lemma toNat_add_ofNat {a : Addr} {i n : ℕ} (hi : i < n) (hend : a.toNat + n ≤ 2 ^ 32) :
    (a + BitVec.ofNat 32 i).toNat = a.toNat + i := by
  rw [BitVec.toNat_add, BitVec.toNat_ofNat]
  omega

/-- The bytes of a range lie in its lines. -/
lemma mem_linesOf_of_lt {a len : Addr} {i size : ℕ} (hi : i < len.toNat)
    (hend : a.toNat + len.toNat ≤ 2 ^ 32) :
    (a + BitVec.ofNat 32 i).toNat / size ∈ linesOf size a len := by
  have hlen : len ≠ 0 := by
    rintro rfl
    cases hi
  rw [mem_linesOf hlen, toNat_add_ofNat hi hend]
  exact ⟨Nat.div_le_div_right (by omega), Nat.div_le_div_right (by omega)⟩

lemma mem_memcpyPairs {dst src len : Addr} {i : ℕ} (hi : i < len.toNat) :
    (dst + BitVec.ofNat 32 i, src + BitVec.ofNat 32 i) ∈ memcpyPairs dst src len :=
  List.mem_map.mpr ⟨i, List.mem_range.mpr hi, rfl⟩

lemma nodup_fst_memcpyPairs {dst src len : Addr} (hend : dst.toNat + len.toNat ≤ 2 ^ 32) :
    ((memcpyPairs dst src len).map Prod.fst).Nodup := by
  rw [memcpyPairs, List.map_map]
  refine List.Nodup.map_on (fun i hi j hj hij => ?_) List.nodup_range
  rw [List.mem_range] at hi hj
  have heq := congrArg BitVec.toNat hij
  simp only [Function.comp_apply, toNat_add_ofNat hi hend, toNat_add_ofNat hj hend] at heq
  omega

lemma not_mem_fst_memcpyPairs {dst src len a : Addr} (hend : dst.toNat + len.toNat ≤ 2 ^ 32)
    (ha : a.toNat < dst.toNat ∨ dst.toNat + len.toNat ≤ a.toNat) :
    a ∉ (memcpyPairs dst src len).map Prod.fst := by
  rw [memcpyPairs, List.map_map, List.mem_map]
  rintro ⟨i, hi, rfl⟩
  rw [List.mem_range] at hi
  rw [Function.comp_apply, toNat_add_ofNat hi hend] at ha
  omega

/-- A copy between disjoint ranges. -/
lemma memcpy_spec {dst src len : Addr} (hdst : dst.toNat + len.toNat ≤ 2 ^ 32)
    (hsrc : src.toNat + len.toNat ≤ 2 ^ 32)
    (hdisj : src.toNat + len.toNat ≤ dst.toNat ∨ dst.toNat + len.toNat ≤ src.toNat) (s : Sd) :
    (∀ i < len.toNat,
      (memcpy dst src len s).cache.backing l2Line (dst + BitVec.ofNat 32 i) =
          s.cache.view l1Line l2Line (src + BitVec.ofNat 32 i) ∧
        (memcpy dst src len s).cache.Pending (l2Line (dst + BitVec.ofNat 32 i))) ∧
      ∀ a : Addr, a.toNat < dst.toNat ∨ dst.toNat + len.toNat ≤ a.toNat →
        (memcpy dst src len s).cache.backing l2Line a = s.cache.backing l2Line a := by
  refine ⟨fun i hi => ?_, fun a ha => ?_⟩
  · refine Caches.foldl_copy (nodup_fst_memcpyPairs hdst) ?_ (mem_memcpyPairs hi)
    intro p hp q hq heq
    obtain ⟨i, hi, rfl⟩ := List.mem_map.mp hp
    obtain ⟨j, hj, rfl⟩ := List.mem_map.mp hq
    rw [List.mem_range] at hi hj
    have hnat := congrArg BitVec.toNat heq
    simp only [toNat_add_ofNat hi hdst, toNat_add_ofNat hj hsrc] at hnat
    omega
  · exact Caches.backing_foldl_copy_of_not_mem (not_mem_fst_memcpyPairs hdst ha)

/-! ### A write -/

/-- The request is accepted: the channel is free, and the length is one that it takes. -/
structure Accepted (h : SdAnswers) (mem len : Addr) : Prop where
  free : h.dmaHalted = true ∨ h.dmaIdle = true
  mem_ne : mem ≠ 0
  len_ne : len ≠ 0
  len_le : len ≤ xdmaBttMax

/-- `len` bytes lie at `mem`, outside the I/O buffer. -/
structure Source (mem len : Addr) : Prop where
  bound : mem.toNat + len.toNat ≤ 2 ^ 32 - 16
  apart : mem.toNat + len.toNat ≤ xdma0IoAddr.toNat ∨
    xdma0IoAddr.toNat + xdmaIoBufferSize.toNat ≤ mem.toNat

/-- The address is in the I/O buffer. -/
def InIoBuffer (a : Addr) : Prop :=
  xdma0IoAddr.toNat ≤ a.toNat ∧ a.toNat < xdma0IoAddr.toNat + xdmaIoBufferSize.toNat

/-- The I/O buffer gets what the memory holds at the source, and so does everything behind
the first level in the lines of the source. -/
lemma sdcdmaWrt_spec {h : SdAnswers} {mem len : Addr} (hacc : Accepted h mem len)
    (hsrc : Source mem len) (s : Sd) :
    ∃ s', sdcdmaWrt h mem len s = some (xdma0IoAddr, s') ∧
      (∀ i < len.toNat, s'.cache.mem (xdma0IoAddr + BitVec.ofNat 32 i) =
        s.cache.mem (mem + BitVec.ofNat 32 i)) ∧
      ∀ a, ¬ InIoBuffer a → s'.cache.backing l2Line a =
        if l2Line a ∈ linesOf 64 mem len then s.cache.mem a else s.cache.backing l2Line a := by
  have hio : xdma0IoAddr.toNat = 2 ^ 31 := by decide
  have hsize : xdmaIoBufferSize.toNat = 2 ^ 14 := by decide
  have hmax : len.toNat ≤ 2 ^ 14 - 1 := hacc.len_le
  have hbound := hsrc.bound
  have hapart := hsrc.apart
  obtain ⟨c₁, hc₁, hmem₁, hback₁, hview₁⟩ := xdcacheInvalidate_spec hacc.len_ne hbound s.cache
  obtain ⟨hcopy, hrest⟩ := @memcpy_spec xdma0IoAddr mem len (by omega) (by omega) (by omega)
    { s with cache := c₁ }
  obtain ⟨c₃, hc₃, hback₃, hmem₃⟩ := xdcacheFlush_spec hacc.len_ne
    (show xdma0IoAddr.toNat + len.toNat ≤ 2 ^ 32 - 16 by omega)
    (memcpy xdma0IoAddr mem len { s with cache := c₁ }).cache
  have hfree : ¬ (h.dmaHalted = false ∧ h.dmaIdle = false) := by
    rcases hacc.free with hf | hf <;> simp [hf]
  have hlen : ¬ (mem = 0 ∨ len = 0 ∨ xdmaBttMax < len) := by
    rintro (h0 | h0 | h0)
    · exact hacc.mem_ne h0
    · exact hacc.len_ne h0
    · exact BitVec.not_le.mpr h0 hacc.len_le
  refine ⟨⟨c₃, s.io ++ [.copy xdma0IoAddr mem len] ++ [.dma .mm2s xdma0IoAddr (len.setWidth 26)]⟩,
    ?_, fun i hi => ?_, fun a ha => ?_⟩
  · rw [sdcdmaWrt, if_neg hfree, if_neg hlen, hc₁]
    simp only [Option.bind_eq_bind, Option.bind_some, hc₃]
    rfl
  · -- the flush writes back what the copy has left in the cache
    have hline := @mem_linesOf_of_lt xdma0IoAddr len i 64 hi (by omega)
    show c₃.mem _ = _
    rw [hmem₃ _ hline (hcopy i hi).2, (hcopy i hi).1]
    show c₁.view _ _ _ = _
    have hline₂ : l2Line (mem + BitVec.ofNat 32 i) ∈ linesOf 64 mem len :=
      mem_linesOf_of_lt hi (by omega)
    rw [hview₁ _ (mem_linesOf_of_lt hi (by omega)), hback₁, if_pos hline₂]
  · show c₃.backing _ _ = _
    have hout : a.toNat < xdma0IoAddr.toNat ∨ xdma0IoAddr.toNat + len.toNat ≤ a.toNat := by
      rw [InIoBuffer] at ha
      omega
    rw [hback₃, hrest a hout]
    exact hback₁ a

/-- The lines of the source do not reach into the I/O buffer, which begins and ends with a
line. -/
lemma not_inIoBuffer_of_line {mem len a : Addr} (hlen : len ≠ 0) (hsrc : Source mem len)
    (ha : l2Line a ∈ linesOf 64 mem len) : ¬ InIoBuffer a := by
  have hio : xdma0IoAddr.toNat = 2 ^ 31 := by decide
  have hsize : xdmaIoBufferSize.toNat = 2 ^ 14 := by decide
  have hpos : len.toNat ≠ 0 := fun h => hlen (BitVec.eq_of_toNat_eq h)
  have hapart := hsrc.apart
  rw [mem_linesOf hlen, l2Line] at ha
  rw [InIoBuffer]
  omega

/-- The I/O buffer in memory has what the CPU stored at the source, and nothing that the
CPU stored elsewhere is lost: the second level and the memory still have it. -/
structure Sends (c c' : DCache) (mem len : Addr) : Prop where
  sent : ∀ i < len.toNat, c'.mem (xdma0IoAddr + BitVec.ofNat 32 i) =
    c.view l1Line l2Line (mem + BitVec.ofNat 32 i)
  kept : ∀ a, ¬ InIoBuffer a → c'.backing l2Line a = c.view l1Line l2Line a

/-- An accepted write starts a transfer that sends what the CPU stored, with no store lost,
if and only if the lines of its source hold nothing that the memory does not have. -/
theorem sdcdmaWrt_sends_iff {h : SdAnswers} {mem len : Addr} (hacc : Accepted h mem len)
    (hsrc : Source mem len) {s : Sd} (hwt : s.cache.WriteThrough l1Line l2Line) :
    (∃ s', sdcdmaWrt h mem len s = some (xdma0IoAddr, s') ∧ Sends s.cache s'.cache mem len) ↔
      ∀ a, l2Line a ∈ linesOf 64 mem len → s.cache.view l1Line l2Line a = s.cache.mem a := by
  obtain ⟨t, ht, hsent, hkept⟩ := sdcdmaWrt_spec hacc hsrc s
  constructor
  · rintro ⟨s', hs', hsends⟩ a ha
    have hout := not_inIoBuffer_of_line hacc.len_ne hsrc ha
    cases ht.symm.trans hs'
    rw [← hsends.kept a hout, hkept a hout, if_pos ha]
  · intro hclean
    refine ⟨t, ht, fun i hi => ?_, fun a ha => ?_⟩
    · have hbound := hsrc.bound
      rw [hsent i hi, hclean _ (mem_linesOf_of_lt hi (by omega))]
    · rw [hkept a ha]
      split
      case isTrue hline => exact (hclean a hline).symm
      case isFalse => exact (hwt a).symm

/-- The devices are idle. -/
def idleAnswers : SdAnswers where
  idle := true
  dmaHalted := true
  dmaIdle := true
  start := Stream'.const false
  completed := Stream'.const true
  ioe := false
  arrived := fun _ => none

/-- Both levels are empty. -/
def emptyCache : DCache where
  hit₁ := fun _ => false
  data₁ := fun _ => 0
  hit₂ := fun _ => false
  dirty := fun _ => false
  data₂ := fun _ => 0
  mem := fun _ => 0

lemma accepted_sector : Accepted idleAnswers 0x1000 512 :=
  ⟨.inl rfl, by decide, by decide, by decide⟩

lemma source_sector : Source 0x1000 512 := ⟨by decide, by decide⟩

/-- The line at `0x1000` is in both levels with what the memory has; the CPU has just stored 1
everywhere in a line that is far from it. -/
def mixedCache : DCache where
  hit₁ := fun k => k == 0x1000 / 16
  data₁ := fun _ => 7
  hit₂ := fun k => k == 64 || k == 200
  dirty := fun k => k == 200
  data₂ := fun a => if l2Line a = 200 then 1 else 7
  mem := fun _ => 7

lemma mixedCache_writeThrough : mixedCache.WriteThrough l1Line l2Line := by
  intro a
  by_cases hit : l1Line a = 256
  · have hline : l2Line a = 64 := by
      rw [l1Line] at hit
      rw [l2Line]
      omega
    simp [Caches.view, Caches.backing, mixedCache, hit, hline]
  · simp [Caches.view, mixedCache, hit]

theorem sdcdmaWrt_sends_iff_clean :
    ∃ s', sdcdmaWrt idleAnswers 0x1000 512 ⟨mixedCache, []⟩ = some (xdma0IoAddr, s') ∧
      Sends mixedCache s'.cache 0x1000 512 := by
  refine (sdcdmaWrt_sends_iff accepted_sector source_sector (s := ⟨mixedCache, []⟩)
    mixedCache_writeThrough).mpr fun a ha => ?_
  have hline := ((mem_linesOf (by decide)).mp ha).2
  have hfar : l2Line a ≠ 200 := ne_of_lt (hline.trans_lt (by decide))
  rw [mixedCache_writeThrough a]
  simp [Caches.backing, mixedCache, hfar]

/-- The CPU has just stored 1 everywhere in the line at `0x1000`. -/
def dirtyCache : DCache :=
  { emptyCache with
    hit₂ := fun k => k == 64
    dirty := fun k => k == 64
    data₂ := fun _ => 1 }

theorem sdcdmaWrt_discards :
    ¬ ∃ s', sdcdmaWrt idleAnswers 0x1000 512 ⟨dirtyCache, []⟩ = some (xdma0IoAddr, s') ∧
      Sends dirtyCache s'.cache 0x1000 512 := by
  rintro ⟨s', hs', hsends⟩
  obtain ⟨t, ht, hsent, -⟩ := sdcdmaWrt_spec accepted_sector source_sector ⟨dirtyCache, []⟩
  cases ht.symm.trans hs'
  have h := (hsent 0 (by decide)).symm.trans (hsends.sent 0 (by decide))
  cases h

end EvtDrivenOs.Sdcard
