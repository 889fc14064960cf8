import CpMega88.AuxFlag
import CpMega88.Bcd
import CpMega88.BcdAsm
import CpMega88.BlockLines
import CpMega88.Boot
import CpMega88.BootTests
import CpMega88.BootVolume
import CpMega88.BufferPairing
import CpMega88.CacheHit
import CpMega88.CardOpen
import CpMega88.CardProtocol
import CpMega88.CardStart
import CpMega88.CardTest
import CpMega88.CardWires
import CpMega88.ColdBoot
import CpMega88.Commands
import CpMega88.Console
import CpMega88.ConsoleInput
import CpMega88.ConsoleText
import CpMega88.Controller
import CpMega88.CoreSim
import CpMega88.Cpu8080
import CpMega88.Cpu8080Refine
import CpMega88.Cpu8080Runs
import CpMega88.Cpu8080Step
import CpMega88.DataArea
import CpMega88.DelimitedCompare
import CpMega88.DiskArray
import CpMega88.DriversAgree
import CpMega88.Eeprom
import CpMega88.EepromCrash
import CpMega88.EepromImage
import CpMega88.EepromRestart
import CpMega88.Extent
import CpMega88.Fat
import CpMega88.FatChain
import CpMega88.FatLands
import CpMega88.FatMode
import CpMega88.FatRecord
import CpMega88.FileDisk
import CpMega88.FileNames
import CpMega88.FlagFormat
import CpMega88.FlagIndependence
import CpMega88.GetNum
import CpMega88.Guest
import CpMega88.I8080
import CpMega88.I8080Refine
import CpMega88.I8080Tails
import CpMega88.Ioext
import CpMega88.IoextAgree
import CpMega88.IoextInStep
import CpMega88.Isa
import CpMega88.IsaArith
import CpMega88.Isolation
import CpMega88.Lib.Avr
import CpMega88.Lib.BlockBuffer
import CpMega88.Lib.Bytes
import CpMega88.Lib.CellWrites
import CpMega88.Lib.Digits
import CpMega88.Lib.Fuel
import CpMega88.Lib.Handshake
import CpMega88.Lib.Nesting
import CpMega88.Lib.Packets
import CpMega88.Lib.Prog
import CpMega88.Lib.Reach
import CpMega88.Lib.Ring
import CpMega88.Lib.Runs
import CpMega88.Lib.SerialLine
import CpMega88.Lib.ShortName
import CpMega88.Lib.SpiCard
import CpMega88.Lib.Splice
import CpMega88.LineEditor
import CpMega88.Listing
import CpMega88.Machine
import CpMega88.MemTest
import CpMega88.Monitor
import CpMega88.MultiPrecision
import CpMega88.OpenFile
import CpMega88.PastEnd
import CpMega88.PowerLoss
import CpMega88.RawDisk
import CpMega88.ResetMount
import CpMega88.RootDir
import CpMega88.Sdcard
import CpMega88.SdcardAvr
import CpMega88.SdcardPins
import CpMega88.Session
import CpMega88.SramBus
import CpMega88.StackDiscipline
import CpMega88.Survival
import CpMega88.Terminal
import CpMega88.Uart
import CpMega88.UartLine
import CpMega88.UartTransfer
import CpMega88.UsbConsole
import CpMega88.UsbControl
