import Tp79Boot.Lib.RingBuffer
import Tp79Boot.Lib.LineSplitting
import Tp79Boot.Lib.EventRun
import Tp79Boot.MyString
import Tp79Boot.FlashRoundTrip
import Tp79Boot.Device
import Tp79Boot.Poc.State
import Tp79Boot.Poc.Message
import Tp79Boot.Poc.Task
import Tp79Boot.Poc.PacketStore
import Tp79Boot.Poc.PacketLine
import Tp79Boot.Poc.PacketPrefix
import Tp79Boot.Poc.Confinement
import Tp79Boot.Poc.Gating
import Tp79Boot.Lib.WhileLoop
import Tp79Boot.Uart
import Tp79Boot.Poc.Receiver
import Tp79Boot.Poc.Draining
import Tp79Boot.Poc.LineFraming
import Tp79Boot.Poc.ReceiverCapacity
import Tp79Boot.Poc.Completion
import Tp79Boot.Download
import Tp79Boot.Leaving
import Tp79Boot.UpdateSafety
import Tp79Boot.Success
import Tp79Boot.Recall
import Tp79Boot.FlashReplace
import Tp79Boot.Poc.LineCopies
import Tp79Boot.Poc.Malformed
import Tp79Boot.Key
import Tp79Boot.KeyPairing
import Tp79Boot.Application.State
import Tp79Boot.Application.Talk
import Tp79Boot.Application.Menu
import Tp79Boot.Application.MenuRange
import Tp79Boot.Application.MenuRun
import Tp79Boot.Friend
import Tp79Boot.FriendStore
import Tp79Boot.CallLog
import Tp79Boot.Lib.SlotLog
import Tp79Boot.CallLogRefines
import Tp79Boot.WriteCode.Given
import Tp79Boot.WriteCode.Guard
import Tp79Boot.WriteCode.Positions
import Tp79Boot.WriteCode.Fields
import Tp79Boot.WriteCode.Printed
import Tp79Boot.WriteCode.RoundTrip
import Tp79Boot.WriteCode.Bounds
import Tp79Boot.Poc.PacketRequest
import Tp79Boot.Lib.NumberedTransfer
import Tp79Boot.Poc.Transfer
import Tp79Boot.Poc.Link
import Tp79Boot.Poc.Rounds
import Tp79Boot.PowerLoss
import Tp79Boot.Poc.Station
import Tp79Boot.Lib.ShiftRegister
import Tp79Boot.Poc.Checksum
import Tp79Boot.Lib.FewErrors
import Tp79Boot.Poc.FewErrors
import Tp79Boot.Application.Task
import Tp79Boot.Application.Idle
import Tp79Boot.Application.TalkTime
import Tp79Boot.Application.Screens
import Tp79Boot.Application.ScreenRun
import Tp79Boot.Poc.Duplicates
import Tp79Boot.FirstBoot
import Tp79Boot.FlashPowerCut
import Tp79Boot.Gps.Task
import Tp79Boot.Gps.Draining
import Tp79Boot.Lib.FieldScan
import Tp79Boot.Gps.Message
import Tp79Boot.Gps.Satellites
import Tp79Boot.Gps.Position
import Tp79Boot.Led
import Tp79Boot.Lib.ByteBits
import Tp79Boot.Lib.SpiRom
import Tp79Boot.FontRom
import Tp79Boot.CountWords
import Tp79Boot.HexCodec
import Tp79Boot.Application.BatteryRun
import Tp79Boot.Lib.Raster
import Tp79Boot.Display.Bitmap
import Tp79Boot.Display.FontLookup
import Tp79Boot.Display.BootText
import Tp79Boot.Lib.CyclicWindow
import Tp79Boot.Display.FriendMenu
import Tp79Boot.DecimalText
import Tp79Boot.Lib.Calendar
import Tp79Boot.Weekday
import Tp79Boot.FlashErase
import Tp79Boot.Display.GlyphWindows
import Tp79Boot.Lib.RangeIndex
import Tp79Boot.Display.UnicodeTable
import Tp79Boot.Display.NameText
import Tp79Boot.FriendOnFlash
import Tp79Boot.Lib.WindowedPanel
import Tp79Boot.Display.Panel
import Tp79Boot.Display.BootScreen
import Tp79Boot.Display.Drawing
import Tp79Boot.Display.BootLog
import Tp79Boot.Display.BootProgress
import Tp79Boot.Lib.Redraw
import Tp79Boot.Display.StatusIcons
import Tp79Boot.Display.StatusBar
import Tp79Boot.Display.RollText
