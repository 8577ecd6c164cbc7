import ParkingLot.Machine.Run
import ParkingLot.Machine.Preempt
import ParkingLot.Machine.Roster
import ParkingLot.Machine.Line
import ParkingLot.Machine.Stopwatch
import ParkingLot.Machine.Busy
import ParkingLot.Machine.Debounce
import ParkingLot.Machine.Dialogue
import ParkingLot.Machine.Drive
import ParkingLot.Machine.Singulate
import ParkingLot.Machine.Trail
import ParkingLot.Radix.Spell
import ParkingLot.Reader.Bus
import ParkingLot.Reader.Select
import ParkingLot.Reader.Levels
import ParkingLot.Reader.Air
import ParkingLot.Reader.Field
import ParkingLot.Reader.Anticollision
import ParkingLot.Reader.Selection
import ParkingLot.Reader.Collisions
import ParkingLot.Reader.Mifare
import ParkingLot.Reader.Tag
import ParkingLot.Reader.Memory
import ParkingLot.Reader.Knowledge
import ParkingLot.Reader.AccessBits
import ParkingLot.Card
import ParkingLot.Stale
import ParkingLot.Device
import ParkingLot.Isr
import ParkingLot.Main
import ParkingLot.System
import ParkingLot.Authorization
import ParkingLot.Accounting
import ParkingLot.OwnRead
import ParkingLot.Presentation
import ParkingLot.Barrier
import ParkingLot.Exits
import ParkingLot.GateProtocol
import ParkingLot.Display
import ParkingLot.Charge
import ParkingLot.Scan
import ParkingLot.Admission
import ParkingLot.Enrolment
import ParkingLot.Window
import ParkingLot.Timer
import ParkingLot.Sensor
import ParkingLot.Disturbance
import ParkingLot.Button
import ParkingLot.Bounce
import ParkingLot.Lcd.Controller
import ParkingLot.Lcd.Driver
import ParkingLot.Lcd.Glass
import ParkingLot.Lcd.Calls
import ParkingLot.Progress
import ParkingLot.Messages
