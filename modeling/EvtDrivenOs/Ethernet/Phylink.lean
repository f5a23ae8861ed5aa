/-
The link parameters that `_xtemac_phylink` reports when a read of the PHY may fail.

`read_phyReg` leaves its argument as it was when the MDIO interface is busy, and says so
in its result, which `_xtemac_phylink` does not look at: after a failed second read it
takes the speed indication from the basic mode status register.  An indication that is
none of the four sets nothing at all.  `xtemacPhylink_real_iff` gives the cases in which
the parameters are those of the PHY, and those in which the MAC is set up from them.
-/
import Mathlib.Tactic.SplitIfs
import EvtDrivenOs.Ethernet.Phy

namespace EvtDrivenOs.Ethernet

/-! ### The data -/

/-- A `phylink_t` as it is in memory: one byte for each field, with any content. -/
structure PhylinkBytes where
  speed : BitVec 8
  link : BitVec 8
deriving DecidableEq, Repr

/-- The enumeration starts at zero. -/
def PhySpeed.byte : PhySpeed → BitVec 8
  | .speed10mbps => 0
  | .speed100mbps => 1

/-- The enumeration starts at zero. -/
def PhyDuplex.byte : PhyDuplex → BitVec 8
  | .linkHalfDuplex => 0
  | .linkFullDuplex => 1

/-- The two fields in memory. -/
def Phylink.bytes (lk : Phylink) : PhylinkBytes := ⟨lk.speed.byte, lk.link.byte⟩

/-- `xtemac_rx_cfg_w1_t` -/
structure RxCfgW1 where
  pauseMacAddrHigh : BitVec 16
  ctrlLenChkDis : Bool
  lenTypeChkDis : Bool
  halfDuplex : Bool
  vlanEnable : Bool
  receiverEnable : Bool
  inbandFcsEnable : Bool
  jumboFrameEnable : Bool
  reset : Bool
deriving DecidableEq, Repr

/-- `xtemac_tx_cfg_t` -/
structure TxCfg where
  ifgAdjustEnable : Bool
  halfDuplex : Bool
  vlanEnable : Bool
  transmitEnable : Bool
  inbandFcsEnable : Bool
  jumboFrameEnable : Bool
  reset : Bool
deriving DecidableEq, Repr

/-- `xtemac_rx_max_frame_cfg_t` and `xtemac_tx_max_frame_cfg_t` -/
structure MaxFrameCfg where
  maxFrameLen : BitVec 15
  maxFrameEn : Bool
deriving DecidableEq, Repr

/-- The registers of the MAC that `_xtemac_trxenable` writes. -/
structure MacRegs where
  macSpeed : BitVec 2
  txMaxFrameCfg : MaxFrameCfg
  rxMaxFrameCfg : MaxFrameCfg
  txCfg : TxCfg
  rxCfgW1 : RxCfgW1
deriving DecidableEq, Repr

/-- `XTEMAC_MTU` -/
def xtemacMtu : BitVec 15 := 1536

/-- `XTEMAC_10MBPS_SPEED` -/
def xtemac10mbpsSpeed : BitVec 2 := 0

/-- `XTEMAC_100MPBS_SPEED` -/
def xtemac100mpbsSpeed : BitVec 2 := 1

/-- `XTEMAC_MDIO_PHY_BMSR` -/
def bmsrAddr : BitVec 8 := 1

/-- `XTEMAC_MDIO_LAN8720A_SCSR` -/
def scsrAddr : BitVec 8 := 31

/-! ### The driver -/

section Driver

-- what the read of each register finds in the course of a call: the content of the
-- register, or `none` when the MDIO interface is not ready; no register is read twice
variable (mdio : BitVec 8 → Option (BitVec 16))

/-- The result, and what is in `*regv` after the call. -/
def readPhyReg (addr : BitVec 8) (regv : BitVec 16) : Bool × BitVec 16 :=
  match mdio addr with
  | none => (false, regv)
  | some rdata => (true, rdata)

/-- The `switch` of `_xtemac_phylink`. -/
def phylinkSwitch (lk : PhylinkBytes) (scsr : BitVec 16) : PhylinkBytes :=
  let hcdSpeed := scsrHcdSpeed scsr
  if hcdSpeed = lan8720Full10M ∨ hcdSpeed = lan8720Full100M then
    { link := PhyDuplex.linkFullDuplex.byte
      speed := (if hcdSpeed = lan8720Full10M then PhySpeed.speed10mbps else .speed100mbps).byte }
  else if hcdSpeed = lan8720Half10M ∨ hcdSpeed = lan8720Half100M then
    { link := PhyDuplex.linkHalfDuplex.byte
      speed := (if hcdSpeed = lan8720Half10M then PhySpeed.speed10mbps else .speed100mbps).byte }
  else lk

/-- The result of `_xtemac_phylink`, the link signal and what is in `*lk` after the call;
`none` is the null pointer. -/
def xtemacPhylink (linkSig : Bool) : Option PhylinkBytes → Bool × Bool × Option PhylinkBytes
  | none => (false, linkSig, none)
  | some lk =>
    let linkSig := if linkSig then false else linkSig
    let phy := (readPhyReg mdio bmsrAddr 0).2
    if !linkstatus phy then (false, linkSig, some lk)
    else
      -- both results of `read_phyReg` are dropped
      let phy := (readPhyReg mdio scsrAddr phy).2
      (true, linkSig, some (phylinkSwitch lk phy))

/-- What `_xtemac_trxenable` writes for the link parameters `phy`. -/
def macOfPhylink (phy : PhylinkBytes) : MacRegs :=
  let phyHalfdup : Bool := phy.link = PhyDuplex.linkHalfDuplex.byte
  { macSpeed :=
      if phy.speed = PhySpeed.speed10mbps.byte then xtemac10mbpsSpeed else xtemac100mpbsSpeed
    txMaxFrameCfg := { maxFrameEn := true, maxFrameLen := xtemacMtu }
    rxMaxFrameCfg := { maxFrameEn := true, maxFrameLen := xtemacMtu }
    txCfg :=
      { ifgAdjustEnable := false
        halfDuplex := phyHalfdup
        vlanEnable := true
        transmitEnable := true
        inbandFcsEnable := false
        jumboFrameEnable := false
        reset := false }
    rxCfgW1 :=
      { pauseMacAddrHigh := 0
        ctrlLenChkDis := true
        lenTypeChkDis := true
        halfDuplex := phyHalfdup
        vlanEnable := true
        receiverEnable := true
        inbandFcsEnable := false
        jumboFrameEnable := false
        reset := false } }

/-- The link signal after `_xtemac_trxenable` and what it has written to the MAC, if it has;
its local is not initialised and contains `stack`. -/
def xtemacTrxenable (linkSig : Bool) (stack : PhylinkBytes) : Bool × Option MacRegs :=
  match xtemacPhylink mdio linkSig (some stack) with
  | (true, linkSig, some phy) => (linkSig, some (macOfPhylink phy))
  | (_, linkSig, _) => (linkSig, none)

end Driver

/-! ### The link of the PHY -/

/-- The link parameters that an indication `hcd_speed` stands for. -/
def linkParams (hcdSpeed : BitVec 3) : Option Phylink :=
  if hcdSpeed = lan8720Half10M then some ⟨.speed10mbps, .linkHalfDuplex⟩
  else if hcdSpeed = lan8720Full10M then some ⟨.speed10mbps, .linkFullDuplex⟩
  else if hcdSpeed = lan8720Half100M then some ⟨.speed100mbps, .linkHalfDuplex⟩
  else if hcdSpeed = lan8720Full100M then some ⟨.speed100mbps, .linkFullDuplex⟩
  else none

lemma linkParams_isSome {hcdSpeed : BitVec 3} : (linkParams hcdSpeed).isSome ↔
    hcdSpeed ∈ [lan8720Half10M, lan8720Full10M, lan8720Half100M, lan8720Full100M] := by
  revert hcdSpeed
  decide

variable {mdio : BitVec 8 → Option (BitVec 16)} {lk stack : PhylinkBytes} {scsr : BitVec 16}
  {linkSig : Bool}

lemma phylinkSwitch_some {p : Phylink} (h : linkParams (scsrHcdSpeed scsr) = some p) :
    phylinkSwitch lk scsr = p.bytes := by
  generalize hcode : scsrHcdSpeed scsr = code at h
  simp only [phylinkSwitch, hcode]
  clear hcode
  simp only [linkParams] at h
  split_ifs at h with h1 h2 h3 h4
  all_goals
    cases h
    subst code
    rfl

/-- Over link parameters in place of bytes, the `switch` is `phylinkOfScsr`. -/
lemma phylinkOfScsr_bytes (p : Phylink) (scsr : BitVec 16) :
    (phylinkOfScsr p scsr).bytes = phylinkSwitch p.bytes scsr := by
  simp only [phylinkOfScsr, phylinkSwitch]
  split_ifs <;> rfl

/-- `p` is what the speed indication stands for that the PHY has given. -/
def Indicated (mdio : BitVec 8 → Option (BitVec 16)) (p : Phylink) : Prop :=
  ∃ scsr, mdio scsrAddr = some scsr ∧ linkParams (scsrHcdSpeed scsr) = some p

/-- If `_xtemac_phylink` reports the link as up, the link parameters are those that the PHY
has indicated. -/
def RealLink (mdio : BitVec 8 → Option (BitVec 16)) (linkSig : Bool) (lk : Option PhylinkBytes) :
    Prop :=
  (xtemacPhylink mdio linkSig lk).1 = true →
    ∃ p, Indicated mdio p ∧ (xtemacPhylink mdio linkSig lk).2.2 = some p.bytes

/-- If `_xtemac_trxenable` writes to the MAC, it is for the link parameters that the PHY has
indicated. -/
def RealMac (mdio : BitVec 8 → Option (BitVec 16)) (linkSig : Bool) (stack : PhylinkBytes) : Prop :=
  ∀ mac, (xtemacTrxenable mdio linkSig stack).2 = some mac →
    ∃ p, Indicated mdio p ∧ mac = macOfPhylink p.bytes

/-- The basic mode status register cannot be read, or shows no negotiated link. -/
def Unlinked (mdio : BitVec 8 → Option (BitVec 16)) : Prop :=
  ∀ bmsr, mdio bmsrAddr = some bmsr → linkstatus bmsr = false

/-- The special control/status register can be read, and its speed indication is one of the
four. -/
def Listed (mdio : BitVec 8 → Option (BitVec 16)) : Prop :=
  ∃ scsr, mdio scsrAddr = some scsr ∧
    scsrHcdSpeed scsr ∈ [lan8720Half10M, lan8720Full10M, lan8720Half100M, lan8720Full100M]

/-- A failed first read leaves 0 in `phy`, which shows no link. -/
lemma linkstatus_readPhyReg :
    linkstatus (readPhyReg mdio bmsrAddr 0).2 = false ↔ Unlinked mdio := by
  unfold Unlinked readPhyReg
  cases mdio bmsrAddr with
  | none => simp [linkstatus, bmsrLinkSatus]
  | some bmsr => simp

lemma listed_iff : Listed mdio ↔ ∃ p, Indicated mdio p := by
  constructor
  · rintro ⟨scsr, hread, hcode⟩
    obtain ⟨p, hp⟩ := Option.isSome_iff_exists.mp (linkParams_isSome.mpr hcode)
    exact ⟨p, scsr, hread, hp⟩
  · rintro ⟨p, scsr, hread, hp⟩
    exact ⟨scsr, hread, linkParams_isSome.mp (Option.isSome_of_eq_some hp)⟩

/-- With no link in the first read, `*lk` keeps its content. -/
lemma xtemacPhylink_of_unlinked (h : Unlinked mdio) (linkSig : Bool) (lk : PhylinkBytes) :
    xtemacPhylink mdio linkSig (some lk) = (false, false, some lk) := by
  have hunlinked := linkstatus_readPhyReg.mpr h
  cases linkSig <;> simp only [xtemacPhylink, hunlinked] <;> rfl

/-- With a link in it, `*lk` is set from what is in `phy` after the second read. -/
lemma xtemacPhylink_of_linked (h : ¬ Unlinked mdio) (linkSig : Bool) (lk : PhylinkBytes) :
    ∃ bmsr, xtemacPhylink mdio linkSig (some lk) =
      (true, false, some (phylinkSwitch lk (readPhyReg mdio scsrAddr bmsr).2)) := by
  have hlinked := mt linkstatus_readPhyReg.mp h
  rw [Bool.not_eq_false] at hlinked
  refine ⟨(readPhyReg mdio bmsrAddr 0).2, ?_⟩
  cases linkSig <;> simp only [xtemacPhylink, hlinked] <;> rfl

/-- The second read and the `switch`, when the PHY gives one of the four indications. -/
lemma Indicated.phylinkSwitch {p : Phylink} (h : Indicated mdio p) (lk : PhylinkBytes)
    (bmsr : BitVec 16) : phylinkSwitch lk (readPhyReg mdio scsrAddr bmsr).2 = p.bytes := by
  obtain ⟨scsr, hread, hp⟩ := h
  simp only [readPhyReg, hread]
  exact phylinkSwitch_some hp

/-- The link parameters that `_xtemac_phylink` reports with a link are those of the PHY, and
the MAC is set up for those of the PHY, unless the link is up and the special control/status
register cannot be read or has an indication that is none of the four. -/
theorem xtemacPhylink_real_iff (mdio : BitVec 8 → Option (BitVec 16)) (linkSig : Bool)
    (lk : Option PhylinkBytes) (stack : PhylinkBytes) :
    (RealLink mdio linkSig lk ↔ lk = none ∨ Unlinked mdio ∨ Listed mdio) ∧
      (RealMac mdio linkSig stack ↔ Unlinked mdio ∨ Listed mdio) := by
  rw [listed_iff]
  constructor
  · cases lk with
    | none => simp [RealLink, xtemacPhylink]
    | some lk =>
      by_cases hun : Unlinked mdio
      · have hcall := xtemacPhylink_of_unlinked hun linkSig lk
        simp [RealLink, hcall, hun]
      · obtain ⟨bmsr, hcall⟩ := xtemacPhylink_of_linked hun linkSig lk
        simp only [RealLink, hcall, hun, reduceCtorEq, false_or, forall_const, Option.some_inj]
        constructor
        · rintro ⟨p, hp, -⟩
          exact ⟨p, hp⟩
        · rintro ⟨p, hp⟩
          exact ⟨p, hp, hp.phylinkSwitch lk bmsr⟩
  · by_cases hun : Unlinked mdio
    · have hcall := xtemacPhylink_of_unlinked hun linkSig stack
      simp [RealMac, xtemacTrxenable, hcall, hun]
    · obtain ⟨bmsr, hcall⟩ := xtemacPhylink_of_linked hun linkSig stack
      simp only [RealMac, xtemacTrxenable, hcall, hun, false_or, Option.some_inj, forall_eq']
      constructor
      · rintro ⟨p, hp, -⟩
        exact ⟨p, hp⟩
      · rintro ⟨p, hp⟩
        exact ⟨p, hp, by rw [hp.phylinkSwitch stack bmsr]⟩

/-- A negotiated link, and an MDIO interface that is busy when the speed is to be read. -/
def scsrBusy (addr : BitVec 8) : Option (BitVec 16) :=
  if addr = bmsrAddr then some 0x782D else none

/-- The link is then reported as up with `*lk` as it was, and the MAC is set up from what
has been on the stack. -/
theorem xtemacPhylink_scsrBusy :
    xtemacPhylink scsrBusy true (some ⟨0xA5, 0x5A⟩) = (true, false, some ⟨0xA5, 0x5A⟩) ∧
      ¬ RealLink scsrBusy true (some ⟨0xA5, 0x5A⟩) ∧ ¬ RealMac scsrBusy true ⟨0xA5, 0x5A⟩ := by
  refine ⟨by decide, ?_, ?_⟩
  · intro hreal
    obtain ⟨p, ⟨scsr, hread, -⟩, -⟩ := hreal (by decide)
    exact absurd hread (by simp [scsrBusy, bmsrAddr, scsrAddr])
  · intro hreal
    obtain ⟨p, ⟨scsr, hread, -⟩, -⟩ := hreal (macOfPhylink ⟨0xA5, 0x5A⟩) (by decide)
    exact absurd hread (by simp [scsrBusy, bmsrAddr, scsrAddr])

end EvtDrivenOs.Ethernet
