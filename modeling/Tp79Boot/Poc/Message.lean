import Tp79Boot.MyString
import Tp79Boot.Poc.State

/-!
# Received lines

`poc_uart_msg_deal`: which kind of line a buffer holds, and what each kind
does.  The handler of an update packet writes flash; every other handler only
changes variables.
-/

namespace Tp79Boot

/-- `START_ADDRESS`. -/
def startAddress : Nat := 0x08004000

/-- The area that the first packet erases. -/
def eraseSize : Nat := 390 * 1024

def calcrcBit (crc : UInt16) : UInt16 :=
  if crc &&& 0x8000 ≠ 0 then crc <<< 1 ^^^ 0x1021 else crc <<< 1

/-- One turn of the outer loop.  The sign of a plain `char` would only reach
bits that the 16-bit variable does not keep. -/
def calcrcByte (crc : UInt16) (byte : UInt8) : UInt16 :=
  calcrcBit^[8] (crc ^^^ byte.toUInt16 <<< 8)

def calcrc (ptr : List UInt8) (count : Nat) : UInt16 :=
  (bytesAt ptr 0 count).foldl calcrcByte 0

inductive PocLine where
  | ok
  | land
  | version
  | downloading
  | downloaded
  | packet
  | failure
  | other
deriving DecidableEq, Repr

/-- The chain of `memcmp` tests. -/
def pocLine (ptr : List UInt8) : PocLine :=
  if memcmpEq ptr 0 (ascii "OK") 2 then .ok
  else if memcmpEq ptr 0 (ascii "+POC:82") 7 then .land
  else if memcmpEq ptr 0 (ascii "+POC:42") 7 then .version
  else if memcmpEq ptr 0 (ascii "+POC:4300") 9 then .downloading
  else if memcmpEq ptr 0 (ascii "+POC:4302") 9 then .downloaded
  else if memcmpEq ptr 0 (ascii "+POC:4303") 9 then .packet
  else if memcmpEq ptr 0 (ascii "+POC:4301") 9 then .failure
  else .other

/-- The status after `OK`. -/
def okStatus (status : PocStatus) : PocStatus :=
  match status with
  | .statusStarting => .statusCheckedOk
  | .statusShutdown => .statusShutdowning
  | other => other

def dealOk (boot : Boot) : Boot :=
  boot.setStatus (okStatus boot.pocDevice.status)

/-- The status after `+POC:82`. -/
def landStatus (status : PocStatus) (ptr : List UInt8) : PocStatus :=
  if memcmpEq ptr 7 (ascii "02") 2 then .statusLandSuccessed
  else if memcmpEq ptr 7 (ascii "01") 2 then .statusLanding
  else status

def dealLand (boot : Boot) (ptr : List UInt8) : Boot :=
  boot.setStatus (landStatus boot.pocDevice.status ptr)

/-- The announced version is for this model: its first 12 bytes agree. -/
def SameModel (boot : Boot) (ptr : List UInt8) : Prop :=
  memcmpEq ptr 14 boot.cfgVer 12

/-- The announced version begins with the stored one. -/
def SameVersion (boot : Boot) (ptr : List UInt8) : Prop :=
  memcmpEq ptr 14 boot.cfgVer (strlen boot.cfgVer)

instance (boot : Boot) (ptr : List UInt8) : Decidable (SameModel boot ptr) :=
  inferInstanceAs (Decidable (memcmpEq _ _ _ _))

instance (boot : Boot) (ptr : List UInt8) : Decidable (SameVersion boot ptr) :=
  inferInstanceAs (Decidable (memcmpEq _ _ _ _))

/-- `(strlen(ptr) - 14) % 32`, in 32 unsigned bits. -/
def verLength (ptr : List UInt8) : Nat :=
  (strlen ptr + (2 ^ 32 - 14)) % 2 ^ 32 % 32

/-- `server_soft_ver` after an announcement of another version. -/
def announcedVer (serverSoftVer : Vector UInt8 32) (ptr : List UInt8) :
    Vector UInt8 32 :=
  clearField
    (memcpyField (clearField serverSoftVer 0) (ptr.drop 14) (verLength ptr)) 18

def dealVersion (boot : Boot) (ptr : List UInt8) : Boot :=
  if SameModel boot ptr then
    if SameVersion boot ptr then
      let announced := boot.setStatus .verDwonloadSuccess
      let stopped := announced.uart2SendString (ascii "AT+QPOWD=0\r\n")
      stopped.setStatus .verSame
    else
      { boot with
        pocDevice :=
          { boot.pocDevice with
            status := .verDwonload
            serverSoftVer := announcedVer boot.pocDevice.serverSoftVer ptr
            serverSoftId :=
              memcpyField boot.pocDevice.serverSoftId (ptr.drop 9) 4 } }
  else boot

def dealDownloading (boot : Boot) : Boot :=
  { boot with pocDevice := { boot.pocDevice with downStatus := 1 } }

/-- The count announced by `+POC:4302`.  Nothing checks its four digits. -/
def announcedSum (ptr : List UInt8) : UInt16 :=
  swapBytes (halfwordOfBytes (strToHex (ptr.drop 9) 4))

def dealDownloaded (boot : Boot) (ptr : List UInt8) : Boot :=
  { boot with
    pocDevice :=
      { boot.pocDevice with
        status := .verUpgrade
        packSum := announcedSum ptr } }

def packetNumber (ptr : List UInt8) : UInt16 :=
  swapBytes (halfwordOfBytes (strToHex (ptr.drop 14) 4))

/-- `dat256`. -/
def packetData (ptr : List UInt8) : List UInt8 :=
  strToHex (ptr.drop 24) 512

def packetCrc (ptr : List UInt8) : UInt16 :=
  halfwordOfBytes (strToHex (ptr.drop 536) 4)

/-- The packet is long enough, its checksum is right and its number is the one
after `downPackCnt`. -/
def PacketPasses (downPackCnt : UInt16) (ptr : List UInt8) : Prop :=
  540 ≤ strlen ptr ∧ packetCrc ptr = calcrc (packetData ptr) 256 ∧
    (packetNumber ptr).toNat = downPackCnt.toNat + 1

instance (downPackCnt : UInt16) (ptr : List UInt8) :
    Decidable (PacketPasses downPackCnt ptr) :=
  inferInstanceAs (Decidable (_ ∧ _ ∧ _))

def blockAddr (downPackCnt : Nat) : Nat := downPackCnt * 256 + startAddress

/-- The first packet that passes erases the application. -/
def eraseApp (flash : Flash) : Flash :=
  have fits : eraseSize / 0x800 < 256 := by decide
  (flashErase flash startAddress eraseSize).get
    (flashErase_isSome flash startAddress fits)

def dealPacket (boot : Boot) (ptr : List UInt8) : Boot :=
  if PacketPasses boot.pocDevice.downPackCnt ptr then
    let dat256 := packetData ptr
    let addr := blockAddr boot.pocDevice.downPackCnt.toNat
    let erased := if boot.eraseFlag = 0 then eraseApp boot.flash else boot.flash
    let eraseFlag := if boot.eraseFlag = 0 then 1 else boot.eraseFlag
    let written := flashWrite erased addr dat256 256
    let dat256Temp := flashReadForDownload written addr 256
    let downPackCnt :=
      if memcmpEq dat256Temp 0 dat256 256 then boot.pocDevice.downPackCnt + 1
      else boot.pocDevice.downPackCnt
    { boot with
      eraseFlag := eraseFlag
      flash := written
      pocDevice := { boot.pocDevice with downPackCnt := downPackCnt } }
  else boot

def pocUartMsgDeal (boot : Boot) (ptr : List UInt8) : Boot :=
  match pocLine ptr with
  | .ok => dealOk boot
  | .land => dealLand boot ptr
  | .version => dealVersion boot ptr
  | .downloading => dealDownloading boot
  | .downloaded => dealDownloaded boot ptr
  | .packet => dealPacket boot ptr
  | .failure => boot
  | .other => boot

end Tp79Boot
