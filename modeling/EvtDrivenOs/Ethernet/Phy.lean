/-
The registers of the LAN8720A that the PHY driver `xtemac_phy.c` looks at.
-/
import Mathlib.Data.Nat.Notation

namespace EvtDrivenOs.Ethernet

/-- `phy_speed_t` -/
inductive PhySpeed
  | speed10mbps
  | speed100mbps
deriving DecidableEq, Repr

/-- `phy_duplex_t` -/
inductive PhyDuplex
  | linkHalfDuplex
  | linkFullDuplex
deriving DecidableEq, Repr

/-- `phylink_t` -/
structure Phylink where
  speed : PhySpeed
  link : PhyDuplex
deriving DecidableEq, Repr

/-! ### The fields of the registers -/

/-- `XTEMAC_MDIO_LAN8720A_ISR` -/
def isrAddr : BitVec 8 := 29

/-- `phy_bmsr_t`, bit 2 -/
def bmsrLinkSatus (bmsr : BitVec 16) : Bool := bmsr.getLsbD 2

/-- `phy_bmsr_t`, bit 5 -/
def bmsrAutonegCmplt (bmsr : BitVec 16) : Bool := bmsr.getLsbD 5

/-- `lan8720a_isr_t`, bit 4 -/
def isrLinkdown (isr : BitVec 16) : Bool := isr.getLsbD 4

/-- `lan8720a_isr_t`, bit 6 -/
def isrAutonegCmplt (isr : BitVec 16) : Bool := isr.getLsbD 6

/-- `lan8720a_scsr_t`, bits 2 to 4 -/
def scsrHcdSpeed (scsr : BitVec 16) : BitVec 3 := scsr.extractLsb' 2 3

/-- 10 Mbit/s, half duplex. -/
def lan8720Half10M : BitVec 3 := 0b001

/-- 10 Mbit/s, full duplex. -/
def lan8720Full10M : BitVec 3 := 0b101

/-- 100 Mbit/s, half duplex. -/
def lan8720Half100M : BitVec 3 := 0b010

/-- 100 Mbit/s, full duplex. -/
def lan8720Full100M : BitVec 3 := 0b110

/-! ### What the driver makes of them -/

/-- The link status of `_xtemac_phylink`: the link is up and negotiated. -/
def linkstatus (bmsr : BitVec 16) : Bool := bmsrLinkSatus bmsr && bmsrAutonegCmplt bmsr

/-- The link signal of `on_phyIRQ`. -/
def isrLinkSig (isr : BitVec 16) : Bool := isrLinkdown isr || isrAutonegCmplt isr

/-- The last part of `_xtemac_phylink`: an indication that is none of the four leaves
`lk` as it was. -/
def phylinkOfScsr (lk : Phylink) (scsr : BitVec 16) : Phylink :=
  let hcdSpeed := scsrHcdSpeed scsr
  if hcdSpeed = lan8720Full10M ∨ hcdSpeed = lan8720Full100M then
    { link := .linkFullDuplex
      speed := if hcdSpeed = lan8720Full10M then .speed10mbps else .speed100mbps }
  else if hcdSpeed = lan8720Half10M ∨ hcdSpeed = lan8720Half100M then
    { link := .linkHalfDuplex
      speed := if hcdSpeed = lan8720Half10M then .speed10mbps else .speed100mbps }
  else lk

end EvtDrivenOs.Ethernet
