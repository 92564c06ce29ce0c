import NucleoH743.Eth.Transmit

/-!
# `Eth.Link`: the link of the Ethernet interface

`ethernet_link_thread` of `ethernetif.c`, which polls the PHY and starts and stops the MAC, and
the end of `low_level_init`, which does so once before. A state of the PHY is the `int32_t` that
`LAN8742_GetLinkState` returns.

Of the HAL the model has what the thread reaches, with the two states of the handle that decide
what a call does. `HAL_ETH_SetMACConfig` refuses unless `RxState` is `READY`, which it is not
while the MAC receives. `HAL_ETH_Start_IT` refuses unless `gState` is `READY`, and
`HAL_ETH_Stop_IT` acts in every state but `RESET` and leaves both states `READY`. `ethernetif.c`
reads none of the results.

Between two iterations other code has the handle. `HAL_ETH_Transmit` leaves it in the state
`ERROR` when it gives a frame up, and `HAL_ETH_IRQHandler` does on a fatal bus error and on an
error of the MAC. These are the events `halError` of the run, at any moment between two polls.
An error that comes within an iteration is one before it or behind it: the handle's state is
read in `HAL_ETH_Start_IT` alone, which sets it again at its end.
-/

set_option autoImplicit false

namespace NucleoH743.Eth

/-! ### `lan8742.c` -/

def lan8742StatusReadError : Int := -5
def lan8742StatusLinkDown : Int := 1
def lan8742Status100MbitsFullduplex : Int := 2
def lan8742Status100MbitsHalfduplex : Int := 3
def lan8742Status10MbitsFullduplex : Int := 4
def lan8742Status10MbitsHalfduplex : Int := 5
def lan8742StatusAutonegoNotdone : Int := 6

/-- The speed and duplex of a `BCR` without auto-negotiation. -/
def bcrState (readval : UInt32) : Int :=
  if readval &&& 0x2000 = 0x2000 ∧ readval &&& 0x0100 = 0x0100 then lan8742Status100MbitsFullduplex
  else if readval &&& 0x2000 = 0x2000 then lan8742Status100MbitsHalfduplex
  else if readval &&& 0x0100 = 0x0100 then lan8742Status10MbitsFullduplex
  else lan8742Status10MbitsHalfduplex

/-- The result of auto-negotiation in `PHYSCSR`. -/
def physcsrState (readval : UInt32) : Int :=
  if readval &&& 0x1000 = 0 then lan8742StatusAutonegoNotdone
  else if readval &&& 0x001C = 0x0018 then lan8742Status100MbitsFullduplex
  else if readval &&& 0x001C = 0x0008 then lan8742Status100MbitsHalfduplex
  else if readval &&& 0x001C = 0x0014 then lan8742Status10MbitsFullduplex
  else lan8742Status10MbitsHalfduplex

/-- `LAN8742_GetLinkState`. The arguments are the registers in the order of the reads, `none` for
a read that fails. -/
def lan8742GetLinkState (bsr bsr' bcr physcsr : Option UInt32) : Int :=
  match bsr, bsr' with
  | some _, some bsr =>
    if bsr &&& 0x0004 = 0 then lan8742StatusLinkDown
    else
      match bcr with
      | none => lan8742StatusReadError
      | some bcr =>
        if bcr &&& 0x1000 ≠ 0x1000 then bcrState bcr
        else
          match physcsr with
          | none => lan8742StatusReadError
          | some physcsr => physcsrState physcsr
  | _, _ => lan8742StatusReadError

/-! ### The MAC and the interface -/

def ethFullduplexMode : UInt32 := 0x2000
def ethHalfduplexMode : UInt32 := 0
def ethSpeed100M : UInt32 := 0x4000
def ethSpeed10M : UInt32 := 0

/-- `DuplexMode` and `Speed` of an `ETH_MACConfigTypeDef`. -/
structure MacConf where
  duplexMode : UInt32
  speed : UInt32
  deriving DecidableEq, Repr

/-- The configuration of a resolved state, in the cases of the `switch`. -/
def macConf (phy : Int) : Option MacConf :=
  if phy = lan8742Status100MbitsFullduplex then some ⟨ethFullduplexMode, ethSpeed100M⟩
  else if phy = lan8742Status100MbitsHalfduplex then some ⟨ethHalfduplexMode, ethSpeed100M⟩
  else if phy = lan8742Status10MbitsFullduplex then some ⟨ethFullduplexMode, ethSpeed10M⟩
  else if phy = lan8742Status10MbitsHalfduplex then some ⟨ethHalfduplexMode, ethSpeed10M⟩
  else none

def halEthStateReset : UInt32 := 0x00000000
def halEthStateBusyRx : UInt32 := 0x00000022

/-- A call of the HAL. -/
inductive HalCall where
  | setMacConfig (c : MacConf)
  | startIT
  | stopIT
  deriving DecidableEq, Repr

/-- The handle and the MAC behind it, the flags of the interface, and the variables of the
thread. -/
structure LinkState where
  gState : UInt32
  rxState : UInt32
  /-- `TE` and `RE` of `MACCR` -/
  running : Bool := false
  mac : MacConf
  /-- `NETIF_FLAG_UP` -/
  netifUp : Bool := false
  /-- `NETIF_FLAG_LINK_UP` -/
  linkUp : Bool := false
  linkchanged : Bool := false
  /-- `duplex` and `speed` -/
  conf : MacConf := ⟨0, 0⟩
  deriving DecidableEq, Repr

namespace LinkState

/-- `HAL_ETH_Init` on the handle of a reset MCU. It fails when the software reset of the MAC does
not end in time, and then `RxState` is as it was. -/
def halEthInit (mac : MacConf) : HalStatus → LinkState
  | .ok => { gState := halEthStateReady, rxState := halEthStateReady, mac }
  | .error => { gState := halEthStateError, rxState := halEthStateReset, mac }

/-- `HAL_ETH_SetMACConfig` -/
def halEthSetMacConfig (s : LinkState) (c : MacConf) : HalStatus × LinkState :=
  if s.rxState = halEthStateReady then (.ok, { s with mac := c }) else (.error, s)

/-- `HAL_ETH_Start_IT` -/
def halEthStartIT (s : LinkState) : HalStatus × LinkState :=
  if s.gState = halEthStateReady then
    (.ok, { s with running := true, gState := halEthStateReady, rxState := halEthStateBusyRx })
  else (.error, s)

/-- `HAL_ETH_Stop_IT` -/
def halEthStopIT (s : LinkState) : HalStatus × LinkState :=
  if s.gState ≠ halEthStateReset then
    (.ok, { s with running := false, gState := halEthStateReady, rxState := halEthStateReady })
  else (.error, s)

/-- `netif_set_up` and `netif_set_link_up`. -/
def setUp (s : LinkState) : LinkState := { s with netifUp := true, linkUp := true }

/-- `netif_set_down` and `netif_set_link_down`. -/
def setDown (s : LinkState) : LinkState := { s with netifUp := false, linkUp := false }

end LinkState

/-- What an iteration does: the state behind it, and its calls of the HAL with their results. -/
abbrev LinkOutput := LinkState × List (HalCall × HalStatus)

/-- Configure and start the MAC, and report the link, whatever the HAL says. -/
def startLink (s : LinkState) (c : MacConf) : LinkOutput :=
  let set := s.halEthSetMacConfig c
  let start := set.2.halEthStartIT
  (start.2.setUp, [(.setMacConfig c, set.1), (.startIT, start.1)])

/-- Stop the MAC, and report the link, whatever the HAL says. -/
def stopLink (s : LinkState) : LinkOutput :=
  let stop := s.halEthStopIT
  (stop.2.setDown, [(.stopIT, stop.1)])

/-- The end of `low_level_init`, before the thread starts, with the result of its `HAL_ETH_Init`.
A state that is not resolved gives 100 Mbit/s and full duplex. -/
def lowLevelInit (mac : MacConf) (init : HalStatus) (phy : Int) : LinkState :=
  let s := LinkState.halEthInit mac init
  if phy ≤ lan8742StatusLinkDown then s.setDown
  else (startLink s ((macConf phy).getD ⟨ethFullduplexMode, ethSpeed100M⟩)).1

/-- The `switch` of the thread. -/
def switchPhy (s : LinkState) (phy : Int) : LinkState :=
  match macConf phy with
  | some conf => { s with conf, linkchanged := true }
  | none => s

/-- One iteration of `ethernet_link_thread`. -/
def linkIteration (s : LinkState) (phy : Int) : LinkOutput :=
  if s.linkUp ∧ phy ≤ lan8742StatusLinkDown then stopLink s
  else if ¬ s.linkUp ∧ phy > lan8742StatusLinkDown then
    let s := switchPhy s phy
    if s.linkchanged then startLink s s.conf else (s, [])
  else (s, [])

/-- What happens to the link: an error of the HAL sets the handle's state, or the thread polls
the PHY. -/
inductive LinkEvent where
  | halError
  | poll (phy : Int)
  deriving DecidableEq, Repr

/-- The state after an event. -/
def linkStep (s : LinkState) : LinkEvent → LinkState
  | .halError => { s with gState := halEthStateError }
  | .poll phy => (linkIteration s phy).1

end NucleoH743.Eth
