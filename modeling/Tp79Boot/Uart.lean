import Tp79Boot.Lib.RingBuffer
import Tp79Boot.CString

/-!
# The receiver of the radio module

`device_uart2`: a ring of 2048 bytes that `USART2_IRQHandler` fills.
-/

namespace Tp79Boot

/-- `UART_RXBUF_LEN_MAX`. -/
abbrev uartRxbufLenMax : Nat := 2048

/-- `uart_status_t`. -/
inductive UartStatus where
  | normal
  | recving
  | recved
  | sending
deriving DecidableEq, Repr

/-- `device_uart_t`. -/
structure DeviceUart where
  recvBuf : RingBuffer UInt8 uartRxbufLenMax
  status : UartStatus

def uart2Config : DeviceUart :=
  { recvBuf :=
      { cells := Vector.replicate uartRxbufLenMax 0
        writeP := 0
        readP := 0
        writeP_lt := by decide
        readP_lt := by decide }
    status := .normal }

/-- A received byte is stored, or dropped when the ring is full. -/
def usart2IrqHandler (deviceUart : DeviceUart) (byte : UInt8) : DeviceUart :=
  { recvBuf :=
      if deviceUart.recvBuf.Full then deviceUart.recvBuf
      else deviceUart.recvBuf.push byte
    status := .recving }

/-- `'\r'` or `'\n'`. -/
def isLineEnd (byte : UInt8) : Bool :=
  byte == 13 || byte == 10

/-- One `memcpy`: its destination in the line buffer, its source in the ring,
and its length. -/
structure LineCopy where
  target : Nat
  source : Nat
  length : Nat
deriving DecidableEq, Repr

/-- The copies made for a line of `cmpCnt` bytes. -/
def lineCopies (readP cmpCnt : Nat) : List LineCopy :=
  if readP + cmpCnt < uartRxbufLenMax then
    [{ target := 0, source := readP, length := cmpCnt }]
  else
    [{ target := 0
       source := readP
       length := (uartRxbufLenMax - readP) % 1024 },
      { target := uartRxbufLenMax - readP
        source := 0
        length := (readP + cmpCnt) % uartRxbufLenMax %
          (1024 - (uartRxbufLenMax - readP) % 1024) }]

/-- What a copy leaves in the 1024 bytes of `buf_temp_deal`.  What it writes
past them, where `poc_device` lies in the linked image, is left out: what is said
of the device after a copy is about lines that fit. -/
def copyLine (cells buffer : List UInt8) (copy : LineCopy) : List UInt8 :=
  (writeAt buffer copy.target (bytesAt cells copy.source copy.length)).take 1024

/-- `buf_temp_deal` with the line at the reading position in it. -/
def lineBuffer (recvBuf : RingBuffer UInt8 uartRxbufLenMax) (cmpCnt : Nat) :
    List UInt8 :=
  (lineCopies recvBuf.readP cmpCnt).foldl (copyLine recvBuf.cells.toList)
    (List.replicate 1024 0)

/-- A line in the buffer, followed by zeros. -/
def padded (line : List UInt8) : List UInt8 :=
  line ++ List.replicate (1024 - line.length) 0

theorem writeAt_zeros (front block : List UInt8) (count : Nat) :
    writeAt (front ++ List.replicate count 0) front.length block =
      (front ++ block) ++ List.replicate (count - block.length) 0 := by
  simp [writeAt, List.drop_append]

theorem copyLine_padded {cells front : List UInt8} {source length : Nat}
    (inRing : source + length ≤ cells.length)
    (fits : front.length + length ≤ 1024) :
    copyLine cells (padded front)
        { target := front.length, source := source, length := length } =
      padded (front ++ (cells.drop source).take length) := by
  have copied : ((cells.drop source).take length).length = length := by
    simp
    omega
  have rest : 1024 - front.length - length = 1024 - (front.length + length) := by
    omega
  rw [copyLine, padded, bytesAt_eq_take inRing, writeAt_zeros, padded,
    List.length_append, copied, rest]
  apply List.take_of_length_le
  simp only [List.length_append, List.length_replicate, copied]
  omega

private theorem copies_eq {cells : List UInt8} {readP cmpCnt : Nat}
    (size : cells.length = 2048) (inRing : readP < 2048)
    (short : cmpCnt ≤ 1023) :
    (lineCopies readP cmpCnt).foldl (copyLine cells) (List.replicate 1024 0) =
      padded ((cells.drop readP ++ cells).take cmpCnt) := by
  have empty : List.replicate 1024 (0 : UInt8) = padded [] := rfl
  have tail : (cells.drop readP).length = 2048 - readP := by
    rw [List.length_drop, size]
  simp only [lineCopies, uartRxbufLenMax]
  by_cases inside : readP + cmpCnt < 2048
  · have whole := @copyLine_padded cells [] readP cmpCnt (by omega)
      (by simpa using by omega)
    rw [List.length_nil, List.nil_append] at whole
    rw [if_pos inside, List.foldl_cons, List.foldl_nil, empty, whole,
      List.take_append_of_le_length (by omega)]
  · have firstLength : (2048 - readP) % 1024 = 2048 - readP :=
      Nat.mod_eq_of_lt (by omega)
    have secondLength : (readP + cmpCnt) % 2048 % (1024 - (2048 - readP)) =
        cmpCnt - (2048 - readP) := by
      have once := @RingBuffer.mod_cases 2048 (readP + cmpCnt) (by omega)
      have position : (readP + cmpCnt) % 2048 = cmpCnt - (2048 - readP) := by
        omega
      rw [position]
      exact Nat.mod_eq_of_lt (by omega)
    have first := @copyLine_padded cells [] readP (2048 - readP) (by omega)
      (by simpa using by omega)
    rw [List.length_nil, List.nil_append, ← tail, List.take_length, tail]
      at first
    have fits : (cells.drop readP).length + (cmpCnt - (2048 - readP)) ≤
        1024 := by
      rw [tail]
      omega
    have second := @copyLine_padded cells (cells.drop readP) 0
      (cmpCnt - (2048 - readP)) (by omega) fits
    rw [tail, List.drop_zero] at second
    have front : (cells.drop readP).take cmpCnt = cells.drop readP :=
      List.take_of_length_le (by omega)
    rw [if_neg inside, firstLength, secondLength, List.foldl_cons,
      List.foldl_cons, List.foldl_nil, empty, first, second,
      List.take_append, tail, front]

/-- A line that fits the buffer is copied whole, wherever it lies in the ring,
with zeros after it. -/
theorem lineBuffer_eq (recvBuf : RingBuffer UInt8 uartRxbufLenMax)
    {cmpCnt : Nat} (short : cmpCnt ≤ 1023)
    (unread : cmpCnt ≤ recvBuf.backlog) :
    lineBuffer recvBuf cmpCnt = padded (recvBuf.contents.take cmpCnt) := by
  rw [lineBuffer, copies_eq (by simp) recvBuf.readP_lt short,
    recvBuf.contents_take unread]

end Tp79Boot
