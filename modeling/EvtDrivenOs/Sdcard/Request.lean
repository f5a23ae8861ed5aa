/-
The requests of FatFs to the SD card and the sectors that they touch.

On the way to the card a request is cut to the widths of the machine: the sector from 64 to
32 bits, the length in bytes to 32 bits, and the count to 16 bits.  Only the length is
checked, after it may have wrapped.
-/
import EvtDrivenOs.Diskio
import EvtDrivenOs.Sdcard.Coherence

namespace EvtDrivenOs.Sdcard

open EvtDrivenOs.Lib EvtDrivenOs.Xcache
open EvtDrivenOs.Diskio (DiskStatus DResult DiskT diskRequest)

/-! ### The driver of the port -/

/-- The number of disks. -/
def maxDisks : Addr := 1

/-- The size of a block. -/
def maxBlockSize : Addr := 512

/-- The description of the card. -/
def getDisk (did : Addr) (disk : DiskT 32) : DiskT 32 :=
  if maxDisks ≤ did then disk
  else
    { did := did
      numBlocks := 0
      blockSize := maxBlockSize
      volume := 0
      letter := 'C' }

/-- `read_disk` with `_rsdcard_read` for `io`, and `write_disk` with `_rsdcard_write`. -/
def ioDisk (io : BitVec 32 → BitVec 32 → BitVec 32 → Sd → Option (Bool × Sd))
    (buffer did blck blocks : BitVec 32) (s : Sd) : Option (DiskStatus × Sd) :=
  if buffer = 0 ∨ maxDisks ≤ did then some (.invalid, s)
  else (io buffer blck blocks s).map fun r => (if r.1 then .ioOk else .ioErr, r.2)

/-- A read of the card. -/
def readDisk (fuel : ℕ) (h : SdAnswers) := ioDisk (rsdcardRead fuel h)

/-- A write of the card. -/
def writeDisk (fuel : ℕ) (h : SdAnswers) := ioDisk (rsdcardWrite fuel h)

/-- `disk_read` -/
def diskRead (fuel : ℕ) (h : SdAnswers) (dsk : DiskT 32) :=
  diskRequest getDisk dsk (readDisk fuel h)

/-- `disk_write` -/
def diskWrite (fuel : ℕ) (h : SdAnswers) (dsk : DiskT 32) :=
  diskRequest getDisk dsk (writeDisk fuel h)

/-! ### What a request touches -/

/-- The registers of the card and of the channel and the length of the copy are those of a
request for `count` sectors from `sector` on. -/
structure Exact (sector : BitVec 64) (count : BitVec 32) (addr cr : BitVec 32)
    (transLen : BitVec 26) (len : BitVec 32) : Prop where
  addr : addr.toNat = sector.toNat
  sCount : (sCountOf cr).toNat = count.toNat
  transLen : transLen.toNat = count.toNat * 512
  len : len.toNat = count.toNat * 512

/-- The sectors come from the card through the I/O buffer to `buff`. -/
def ReadsExactly (buff : Addr) (sector : BitVec 64) (count : BitVec 32) (io : List SdIo) : Prop :=
  ∃ addr cr transLen len, io = [.dma .s2mm xdma0IoAddr transLen, .card addr cr,
    .copy buff xdma0IoAddr len] ∧ Exact sector count addr cr transLen len

/-- The sectors go from `buff` through the I/O buffer to the card. -/
def WritesExactly (buff : Addr) (sector : BitVec 64) (count : BitVec 32) (io : List SdIo) : Prop :=
  ∃ addr cr transLen len, io = [.copy xdma0IoAddr buff len, .dma .mm2s xdma0IoAddr transLen,
    .card addr cr] ∧ Exact sector count addr cr transLen len

/-- The length in bytes that a count gives. -/
def byteLen (count : BitVec 32) : BitVec 32 := count * sdcardSectorSize

/-- The request cannot succeed: there is no buffer, the DMA does not take the length, or
the cache loop over the buffer does not end. -/
def Refused (buff count : BitVec 32) : Prop :=
  buff = 0 ∨ byteLen count = 0 ∨ xdmaBttMax < byteLen count ∨ ¬ Ends buff (byteLen count)

/-! ### The card -/

/-- What the channel is asked to do for a read. -/
lemma of_sdcdmaRdt {h : SdAnswers} {len : Addr} {s : Sd} (hne : (sdcdmaRdt h len s).1 ≠ 0) :
    sdcdmaRdt h len s =
        (xdma0IoAddr, { s with io := s.io ++ [.dma .s2mm xdma0IoAddr (len.setWidth 26)] }) ∧
      len ≠ 0 ∧ ¬ xdmaBttMax < len := by
  rw [sdcdmaRdt] at hne ⊢
  split at hne
  · exact absurd rfl hne
  · split at hne
    · exact absurd rfl hne
    case isFalse hfree hlen =>
      rw [not_or] at hlen
      rw [if_neg hfree, if_neg (not_or.mpr hlen)]
      exact ⟨rfl, hlen⟩

lemma of_cardRequest {fuel : ℕ} {h : SdAnswers} {opCode : BitVec 3} {sector count : BitVec 32}
    {s s' : Sd} (hr : cardRequest fuel h opCode sector count s = some s') :
    s' = { s with io := s.io ++ [.card sector (ctrlReg opCode (count.setWidth 16))] } := by
  simp only [cardRequest, Option.bind_eq_bind, Option.bind_eq_some_iff] at hr
  obtain ⟨-, -, -, -, hr⟩ := hr
  exact (Option.some.inj hr).symm

/-- A read that succeeds. -/
lemma of_rsdcardRead {fuel : ℕ} {h : SdAnswers} {mem sector count : BitVec 32} {s s' : Sd}
    (hr : rsdcardRead fuel h mem sector count s = some (true, s')) :
    (byteLen count ≠ 0 ∧ ¬ xdmaBttMax < byteLen count ∧ Ends mem (byteLen count)) ∧
      s'.io = s.io ++ [.dma .s2mm xdma0IoAddr ((byteLen count).setWidth 26),
        .card sector (ctrlReg ioRead (count.setWidth 16)),
        .copy mem xdma0IoAddr (byteLen count)] := by
  by_cases hidle : h.idle = false
  · rw [rsdcardRead, if_pos hidle] at hr
    cases hr
  by_cases hne : (sdcdmaRdt h (byteLen count) s).1 = 0
  · simp only [rsdcardRead, if_neg hidle] at hr
    rw [show count * sdcardSectorSize = byteLen count from rfl, if_pos hne] at hr
    cases hr
  obtain ⟨heq, hlen, hmax⟩ := of_sdcdmaRdt hne
  have hio : xdma0IoAddr ≠ 0 := by decide
  simp only [rsdcardRead, if_neg hidle, show count * sdcardSectorSize = byteLen count from rfl, heq,
    if_neg hio, Option.bind_eq_bind, Option.bind_eq_some_iff] at hr
  obtain ⟨t, ht, hr⟩ := hr
  rw [of_cardRequest ht] at hr
  split at hr
  · cases hr
  obtain ⟨c, -, hr⟩ := Option.bind_eq_some_iff.mp hr
  obtain ⟨c', hc', hr⟩ := Option.bind_eq_some_iff.mp hr
  cases hr
  have hends := (isSome_xdcacheFlush hlen _).mp (Option.isSome_of_mem hc')
  exact ⟨⟨hlen, hmax, hends⟩, by simp [memcpy]⟩

/-- A write whose transfer is started. -/
lemma of_sdcdmaWrt {h : SdAnswers} {mem len buffer : Addr} {s s' : Sd}
    (hr : sdcdmaWrt h mem len s = some (buffer, s')) (hne : buffer ≠ 0) :
    (len ≠ 0 ∧ ¬ xdmaBttMax < len ∧ Ends mem len) ∧
      s'.io = s.io ++ [.copy xdma0IoAddr mem len, .dma .mm2s xdma0IoAddr (len.setWidth 26)] := by
  rw [sdcdmaWrt] at hr
  split at hr
  · cases hr
    exact absurd rfl hne
  · split at hr
    · cases hr
      exact absurd rfl hne
    case isFalse hlen =>
      simp only [not_or] at hlen
      obtain ⟨c, hc, hr⟩ := Option.bind_eq_some_iff.mp hr
      obtain ⟨c', -, hr⟩ := Option.bind_eq_some_iff.mp hr
      have hends := (isSome_xdcacheInvalidate hlen.2.1 _).mp (Option.isSome_of_mem hc)
      cases hr
      exact ⟨⟨hlen.2.1, hlen.2.2, hends⟩, by simp [memcpy]⟩

/-- A write that succeeds. -/
lemma of_rsdcardWrite {fuel : ℕ} {h : SdAnswers} {mem sector count : BitVec 32} {s s' : Sd}
    (hr : rsdcardWrite fuel h mem sector count s = some (true, s')) :
    (byteLen count ≠ 0 ∧ ¬ xdmaBttMax < byteLen count ∧ Ends mem (byteLen count)) ∧
      s'.io = s.io ++ [.copy xdma0IoAddr mem (byteLen count),
        .dma .mm2s xdma0IoAddr ((byteLen count).setWidth 26),
        .card sector (ctrlReg ioWrite (count.setWidth 16))] := by
  by_cases hidle : h.idle = false
  · rw [rsdcardWrite, if_pos hidle] at hr
    cases hr
  simp only [rsdcardWrite, if_neg hidle, show count * sdcardSectorSize = byteLen count from rfl,
    Option.bind_eq_bind, Option.bind_eq_some_iff] at hr
  obtain ⟨⟨ioBuffer, t⟩, ht, hr⟩ := hr
  split at hr
  · cases hr
  case isFalse hne =>
    obtain ⟨u, hu, hr⟩ := Option.bind_eq_some_iff.mp hr
    obtain ⟨hacc, hio⟩ := of_sdcdmaWrt ht hne
    rw [of_cardRequest hu] at hr
    obtain ⟨-, rfl⟩ := Prod.mk.inj (Option.some.inj hr)
    exact ⟨hacc, by simp [hio]⟩

/-! ### Requests that succeed -/

lemma cardRequest_idle (opCode : BitVec 3) (sector count : BitVec 32) (s : Sd) :
    cardRequest 1 idleAnswers opCode sector count s =
      some { s with io := s.io ++ [.card sector (ctrlReg opCode (count.setWidth 16))] } := rfl

/-- The I/O buffer is far from the end of the address space. -/
lemma ends_ioBuffer {len : Addr} (hlen : len ≠ 0) (hmax : ¬ xdmaBttMax < len) :
    Ends xdma0IoAddr len := by
  have hio : xdma0IoAddr.toNat = 2 ^ 31 := by decide
  have hle : len.toNat ≤ 2 ^ 14 - 1 := BitVec.not_lt.mp hmax
  have hlast := toNat_last hlen (show xdma0IoAddr.toNat + len.toNat ≤ 2 ^ 32 by omega)
  rw [Ends, l1Line, hlast]
  omega

lemma xdcacheInvalidate_some {mem len : Addr} (hlen : len ≠ 0) (hends : Ends mem len) (c : DCache) :
    ∃ c', xdcacheInvalidate mem len c = some c' :=
  Option.isSome_iff_exists.mp ((isSome_xdcacheInvalidate hlen c).mpr hends)

lemma xdcacheFlush_some {mem len : Addr} (hlen : len ≠ 0) (hends : Ends mem len) (c : DCache) :
    ∃ c', xdcacheFlush mem len c = some c' :=
  Option.isSome_iff_exists.mp ((isSome_xdcacheFlush hlen c).mpr hends)

lemma rsdcardRead_idle {mem count : BitVec 32} (hlen : byteLen count ≠ 0)
    (hmax : ¬ xdmaBttMax < byteLen count) (hends : Ends mem (byteLen count)) (sector : BitVec 32)
    (s : Sd) : ∃ s', rsdcardRead 1 idleAnswers mem sector count s = some (true, s') := by
  have hidle : ¬ idleAnswers.idle = false := by decide
  have hioe : ¬ idleAnswers.ioe = true := by decide
  have hio : xdma0IoAddr ≠ 0 := by decide
  have hne : (sdcdmaRdt idleAnswers (byteLen count) s).1 ≠ 0 := by
    rw [sdcdmaRdt, if_neg (by decide), if_neg (not_or.mpr ⟨hlen, hmax⟩)]
    exact hio
  obtain ⟨heq, -⟩ := of_sdcdmaRdt hne
  simp only [rsdcardRead, if_neg hidle, show count * sdcardSectorSize = byteLen count from rfl, heq,
    if_neg hio, cardRequest_idle, Option.bind_eq_bind, Option.bind_some, if_neg hioe]
  obtain ⟨c, hc⟩ := xdcacheInvalidate_some hlen (ends_ioBuffer hlen hmax) _
  rw [hc, Option.bind_some]
  obtain ⟨c', hc'⟩ := xdcacheFlush_some hlen hends _
  rw [hc', Option.bind_some]
  exact ⟨_, rfl⟩

lemma rsdcardWrite_idle {mem count : BitVec 32} (hmem : mem ≠ 0) (hlen : byteLen count ≠ 0)
    (hmax : ¬ xdmaBttMax < byteLen count) (hends : Ends mem (byteLen count)) (sector : BitVec 32)
    (s : Sd) : ∃ s', rsdcardWrite 1 idleAnswers mem sector count s = some (true, s') := by
  have hidle : ¬ idleAnswers.idle = false := by decide
  have hacc : ¬ (mem = 0 ∨ byteLen count = 0 ∨ xdmaBttMax < byteLen count) := by
    simp only [not_or]
    exact ⟨hmem, hlen, hmax⟩
  have hwrt : ∃ t, sdcdmaWrt idleAnswers mem (byteLen count) s = some (xdma0IoAddr, t) := by
    rw [sdcdmaWrt, if_neg (by decide), if_neg hacc]
    obtain ⟨c, hc⟩ := xdcacheInvalidate_some hlen hends s.cache
    obtain ⟨c', hc'⟩ := xdcacheFlush_some hlen (ends_ioBuffer hlen hmax)
      (memcpy xdma0IoAddr mem (byteLen count) { s with cache := c }).cache
    simp only [hc, Option.bind_eq_bind, Option.bind_some, hc']
    exact ⟨_, rfl⟩
  obtain ⟨t, ht⟩ := hwrt
  have hio : xdma0IoAddr ≠ 0 := by decide
  simp only [rsdcardWrite, if_neg hidle, show count * sdcardSectorSize = byteLen count from rfl, ht,
    if_neg hio, cardRequest_idle, Option.bind_eq_bind, Option.bind_some]
  exact ⟨_, rfl⟩

/-! ### Widths -/

lemma sCountOf_ctrlReg (opCode : BitVec 3) (sCount : BitVec 16) :
    sCountOf (ctrlReg opCode sCount) = sCount := by
  apply BitVec.eq_of_getLsbD_eq
  intro i hi
  simp only [sCountOf, ctrlReg, BitVec.getLsbD_extractLsb', BitVec.getLsbD_append]
  simp [hi, show ¬ 4 + i < 3 by omega, show ¬ 4 + i - 3 < 1 by omega,
    show 4 + i - 3 - 1 = i by omega]

/-- The registers hold the request if and only if it fits them. -/
lemma exact_iff {sector : BitVec 64} {count : BitVec 32} (opCode : BitVec 3)
    (hlen : byteLen count ≠ 0) (hmax : ¬ xdmaBttMax < byteLen count) :
    Exact sector count (sector.setWidth 32) (ctrlReg opCode (count.setWidth 16))
        ((byteLen count).setWidth 26) (byteLen count) ↔
      sector.toNat < 2 ^ 32 ∧ 1 ≤ count.toNat ∧ count.toNat ≤ 31 := by
  have hbytes : (byteLen count).toNat = count.toNat * 512 % 2 ^ 32 := BitVec.toNat_mul _ _
  have hle : (byteLen count).toNat ≤ 2 ^ 14 - 1 := BitVec.not_lt.mp hmax
  have hpos : (byteLen count).toNat ≠ 0 := fun h => hlen (BitVec.eq_of_toNat_eq h)
  constructor
  · rintro ⟨haddr, hcount, -, hbytes'⟩
    rw [BitVec.toNat_setWidth] at haddr
    omega
  · rintro ⟨hsector, h1, h2⟩
    refine ⟨?_, ?_, ?_, ?_⟩
    · rw [BitVec.toNat_setWidth, Nat.mod_eq_of_lt hsector]
    · rw [sCountOf_ctrlReg, BitVec.toNat_setWidth]
      omega
    · rw [BitVec.toNat_setWidth]
      omega
    · omega

/-! ### Which requests touch just their sectors -/

/-- Every read that reports success touches just the sectors asked for, whatever the
devices answer. -/
def ReadsAlwaysExactly (dsk : DiskT 32) (pdrv : BitVec 8) (buff : Addr) (sector : BitVec 64)
    (count : BitVec 32) : Prop :=
  ∀ fuel h s s', diskRead fuel h dsk pdrv buff sector count s = some (.ok, s') →
    ∃ io, s'.io = s.io ++ io ∧ ReadsExactly buff sector count io

/-- Each write that is answered with success has moved just what was asked for. -/
def WritesAlwaysExactly (dsk : DiskT 32) (pdrv : BitVec 8) (buff : Addr) (sector : BitVec 64)
    (count : BitVec 32) : Prop :=
  ∀ fuel h s s', diskWrite fuel h dsk pdrv buff sector count s = some (.ok, s') →
    ∃ io, s'.io = s.io ++ io ∧ WritesExactly buff sector count io

variable {dsk : DiskT 32} {buff : Addr} {sector : BitVec 64} {count : BitVec 32}

/-- A request that reports success reached the card, with a buffer. -/
lemma of_diskRequest {io : BitVec 32 → BitVec 32 → BitVec 32 → Sd → Option (Bool × Sd)} {s s' : Sd}
    (h : diskRequest getDisk dsk (ioDisk io) 0 buff sector count s = some (.ok, s')) :
    buff ≠ 0 ∧ io buff (sector.setWidth 32) count s = some (true, s') := by
  obtain ⟨⟨st, t⟩, ht, heq⟩ := Option.map_eq_some_iff.mp h
  rw [ioDisk] at ht
  split at ht
  · cases ht
    cases heq
  case isFalse hbuff =>
    obtain ⟨⟨b, u⟩, hu, hb⟩ := Option.map_eq_some_iff.mp ht
    cases b with
    | false =>
      cases hb
      cases heq
    | true =>
      cases hb
      cases heq
      rw [BitVec.setWidth_eq] at hu
      exact ⟨fun h0 => hbuff (.inl h0), hu⟩

lemma diskRequest_of {io : BitVec 32 → BitVec 32 → BitVec 32 → Sd → Option (Bool × Sd)} {s s' : Sd}
    (hbuff : buff ≠ 0) (h : io buff (sector.setWidth 32) count s = some (true, s')) :
    diskRequest getDisk dsk (ioDisk io) 0 buff sector count s = some (.ok, s') := by
  have hready : ¬ (buff = 0 ∨ maxDisks ≤ (0 : BitVec 8).setWidth 32) := by
    rintro (h0 | h0)
    · exact hbuff h0
    · exact absurd h0 (by decide)
  have hcheck : Diskio.checkDiskReady getDisk dsk 0 = true := rfl
  rw [diskRequest, if_pos hcheck, ioDisk, if_neg hready, BitVec.setWidth_eq, h]
  rfl

/-- The request fits the registers. -/
def Fits (sector : BitVec 64) (count : BitVec 32) : Prop :=
  sector.toNat < 2 ^ 32 ∧ 1 ≤ count.toNat ∧ count.toNat ≤ 31

/-- `l` is what a request does that succeeds, and `P` holds of it if it fits: then `P`
always holds if and only if the request fits or cannot succeed. -/
lemma always_iff {io : ℕ → SdAnswers → BitVec 32 → BitVec 32 → BitVec 32 → Sd → Option (Bool × Sd)}
    {P : List SdIo → Prop} {l : List SdIo}
    (hof : ∀ fuel h s s', io fuel h buff (sector.setWidth 32) count s = some (true, s') →
      (byteLen count ≠ 0 ∧ ¬ xdmaBttMax < byteLen count ∧ Ends buff (byteLen count)) ∧
        s'.io = s.io ++ l)
    (hidle : ¬ Refused buff count → ∃ s',
      io 1 idleAnswers buff (sector.setWidth 32) count ⟨emptyCache, []⟩ = some (true, s'))
    (hP : byteLen count ≠ 0 → ¬ xdmaBttMax < byteLen count → (P l ↔ Fits sector count)) :
    (∀ fuel h s s',
      diskRequest getDisk dsk (ioDisk (io fuel h)) 0 buff sector count s = some (.ok, s') →
        ∃ l, s'.io = s.io ++ l ∧ P l) ↔ Refused buff count ∨ Fits sector count := by
  constructor
  · intro h
    by_cases href : Refused buff count
    · exact .inl href
    obtain ⟨s', hs'⟩ := hidle href
    rw [Refused, not_or, not_or, not_or] at href
    obtain ⟨l', hl', hPl⟩ := h 1 idleAnswers ⟨emptyCache, []⟩ s' (diskRequest_of href.1 hs')
    rw [(hof _ _ _ _ hs').2, List.append_cancel_left_eq] at hl'
    exact .inr ((hP href.2.1 href.2.2.1).mp (hl' ▸ hPl))
  · intro hcond fuel h s s' hs'
    obtain ⟨hbuff, hrun⟩ := of_diskRequest hs'
    obtain ⟨⟨hlen, hmax, hends⟩, hio⟩ := hof _ _ _ _ hrun
    rcases hcond with (h0 | h0 | h0 | h0) | hfits
    · exact absurd h0 hbuff
    · exact absurd h0 hlen
    · exact absurd h0 hmax
    · exact absurd hends h0
    · exact ⟨l, hio, (hP hlen hmax).mpr hfits⟩

lemma readsExactly_iff {addr cr len : BitVec 32} {transLen : BitVec 26} :
    ReadsExactly buff sector count [.dma .s2mm xdma0IoAddr transLen, .card addr cr,
      .copy buff xdma0IoAddr len] ↔ Exact sector count addr cr transLen len := by
  constructor
  · rintro ⟨_, _, _, _, heq, h⟩
    cases heq
    exact h
  · intro h
    exact ⟨_, _, _, _, rfl, h⟩

lemma writesExactly_iff {addr cr len : BitVec 32} {transLen : BitVec 26} :
    WritesExactly buff sector count [.copy xdma0IoAddr buff len, .dma .mm2s xdma0IoAddr transLen,
      .card addr cr] ↔ Exact sector count addr cr transLen len := by
  constructor
  · rintro ⟨_, _, _, _, heq, h⟩
    cases heq
    exact h
  · intro h
    exact ⟨_, _, _, _, rfl, h⟩

lemma readsAlwaysExactly_iff :
    ReadsAlwaysExactly dsk 0 buff sector count ↔ Refused buff count ∨ Fits sector count := by
  refine always_iff (fun _ _ _ _ h => of_rsdcardRead h) (fun href => ?_) fun hlen hmax => ?_
  · rw [Refused, not_or, not_or, not_or, not_not] at href
    obtain ⟨-, hlen, hmax, hends⟩ := href
    exact rsdcardRead_idle hlen hmax hends _ _
  · rw [readsExactly_iff]
    exact exact_iff ioRead hlen hmax

lemma writesAlwaysExactly_iff :
    WritesAlwaysExactly dsk 0 buff sector count ↔ Refused buff count ∨ Fits sector count := by
  refine always_iff (fun _ _ _ _ h => of_rsdcardWrite h) (fun href => ?_) fun hlen hmax => ?_
  · rw [Refused, not_or, not_or, not_or, not_not] at href
    obtain ⟨hbuff, hlen, hmax, hends⟩ := href
    exact rsdcardWrite_idle hbuff hlen hmax hends _ _
  · rw [writesExactly_iff]
    exact exact_iff ioWrite hlen hmax

/-- A request to the card that reports success programs the card with the sector and the
count asked for, and moves 512 bytes for each sector between card and buffer, if and only
if the request cannot succeed at all or it fits: the sector 32 bits, and the count between
1 and 31. -/
theorem sdRequest_exact_iff (dsk : DiskT 32) (buff : Addr) (sector : BitVec 64)
    (count : BitVec 32) :
    (ReadsAlwaysExactly dsk 0 buff sector count ↔ Refused buff count ∨ Fits sector count) ∧
      (WritesAlwaysExactly dsk 0 buff sector count ↔ Refused buff count ∨ Fits sector count) :=
  ⟨readsAlwaysExactly_iff, writesAlwaysExactly_iff⟩

/-- A count of `2 ^ 23 + 1` sectors is taken for one sector. -/
theorem sdRequest_aliased : ¬ ReadsAlwaysExactly ⟨0, 0, 0, 0, 'A'⟩ 0 0x1000 0 0x800001 := by
  rw [readsAlwaysExactly_iff, Refused, Fits, Ends]
  decide

end EvtDrivenOs.Sdcard
